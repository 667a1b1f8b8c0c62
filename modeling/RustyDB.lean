import RustyDB.Lib.Delimited
import RustyDB.Lib.F64
import RustyDB.Lib.Rounding
import RustyDB.Lib.Result
import RustyDB.Lib.KeyedIndex
import RustyDB.Lib.KeyLog
import RustyDB.Sql.Types
import RustyDB.Sql.Json
import RustyDB.Sql.Host
import RustyDB.Sql.Table
import RustyDB.Sql.Query
import RustyDB.Sql.Alter
import RustyDB.Sql.Planner
import RustyDB.Sql.Execute
import RustyDB.Sql.Index
import RustyDB.Sql.Schema
import RustyDB.Sql.Spec
import RustyDB.Sql.Invariant
import RustyDB.Sql.Keys
import RustyDB.Sql.Stored
import RustyDB.Sql.WellFormed
import RustyDB.Sql.Scan
import RustyDB.Sql.SingleTable
import RustyDB.Sql.JoinScan
import RustyDB.Sql.Fold
import RustyDB.Sql.Optimize
import RustyDB.Sql.OptimizeStatement
import RustyDB.Kv.Store
import RustyDB.Kv.Flush
import RustyDB.Kv.Concurrent
import RustyDB.Kv.Snapshot
import RustyDB.Lib.LineFile
import RustyDB.Kv.Async
import RustyDB.Kv.Crash
import RustyDB.Sql.View
import RustyDB.Sql.SameTables
import RustyDB.Sql.SameStatement
import RustyDB.Sql.Persist
import RustyDB.Sql.Wal
import RustyDB.Sql.Save
import RustyDB.Sql.Database
import RustyDB.Sql.Serial
import RustyDB.Sql.Recover
import RustyDB.Sql.Durable
import RustyDB.Sql.History
import RustyDB.Sql.Replay
import RustyDB.Sql.Torn
import RustyDB.Kv.Checkpoint
import RustyDB.Checkpoint
import RustyDB.Lib.NumberedLog
import RustyDB.Lib.Text
import RustyDB.Sql.Parser
import RustyDB.Sql.RowKeys
import RustyDB.Sql.Sum
import RustyDB.Sql.HashKeys
import RustyDB.Sql.HashJoin
import RustyDB.Lib.Cabinet
import RustyDB.Sql.Batch
import RustyDB.Sql.InsertScan
import RustyDB.Sql.ForeignKeys
import RustyDB.Sql.OrderBy
import RustyDB.Sql.AggregateOrder
import RustyDB.Sql.Slices
import RustyDB.Sql.Arithmetic
import RustyDB.Wire.Framing
import RustyDB.Wire.Protocol
import RustyDB.Wire.Parameters
import RustyDB.Wire.Routing
import RustyDB.Sql.NumericKeys
import RustyDB.Sql.Parameters
import RustyDB.Sql.Prepared
import RustyDB.Recovery.Backup
import RustyDB.Recovery.Restored
import RustyDB.Recovery.PointInTime
import RustyDB.Recovery.Splice
import RustyDB.Sql.Settled
import RustyDB.Sql.Altered
import RustyDB.Sql.Like
import RustyDB.Sql.PlanCache
import RustyDB.Wire.Lenenc
import RustyDB.Wire.Rows
import RustyDB.Wire.ResultSets
import RustyDB.Wire.LongData
import RustyDB.Wire.Variables
import RustyDB.Wire.Handshake
import RustyDB.Wire.Cursors
import RustyDB.Sql.Convert
import RustyDB.Recovery.Failed
import RustyDB.Recovery.Rfc3339
import RustyDB.Sql.ReadBack
import RustyDB.Sql.RenameColumn
import RustyDB.Sql.Integrity
import RustyDB.Kv.Sequence
import RustyDB.Recovery.Latest
import RustyDB.Sql.Define
import RustyDB.Sql.Clauses
import RustyDB.Sql.Texts
import RustyDB.Sql.Metadata
import RustyDB.Wire.Responses
import RustyDB.Wire.Connection
import RustyDB.Wire.Statements
import RustyDB.Wire.Login
import RustyDB.Kv.Failing
import RustyDB.Server.Auth
import RustyDB.Server.Rest
import RustyDB.Lib.Base64
import RustyDB.Server.View
import RustyDB.Sql.Shapes
import RustyDB.Sql.ResultTypes
import RustyDB.Sql.PreparedTypes
import RustyDB.Wire.PreparedRows
import RustyDB.Recovery.Points
import RustyDB.Recovery.Numbers
