import Mathlib
import RustyDB.Sql.OptimizeStatement
import RustyDB.Sql.Save

/-!
# The database and its sessions

`SQLDatabase` publishes one catalog; a statement outside a transaction works on a copy
and publishes it, a transaction works on a private copy and publishes it at COMMIT if
the version has not moved.  Both log a record before they publish.  Every call is one
step of the state here, and what the operating system answers is an argument of it.

* `Engine`, `Io` — what a database is built on, and how writes go.
* `TransactionState`, `Session`, `Database` — the state of the process and its files.
* `Database.logTransaction`, `Database.save` — the calls that write.
* `Database.resolve` — what a text or a prepared statement asks for.
* `Database.perform`, `Database.step` — one call.
* `Database.open` — a directory, opened.
-/

namespace RustyDB
namespace Sql

open LineFile KeyedIndex

/-! ## Texts -/

/-- `str::trim`. -/
def trim (text : String) : String :=
  String.ofList (((text.toList.dropWhile isWhiteSpace).reverse.dropWhile isWhiteSpace).reverse)

/-- `trim_end_matches(';')`. -/
def trimSemicolons (text : String) : String :=
  String.ofList ((text.toList.reverse.dropWhile (· == ';')).reverse)

/-- The text under which `parse_cached` keeps a plan. -/
def normalizeSql (text : String) : String := trim (trimSemicolons (trim text))

/-! ## What a database is built on -/

/-- What the database takes from outside: the host, the codec of the log and that of the snapshot.
-/
structure Engine where
  host : Host
  wal : WalHost
  codec : SnapshotCodec
  /-- `bind_parameters`. -/
  bindParameters : Statement → List Value → Except String Statement
  /-- The option `bloom_false_positive_rate`. -/
  bloomFalsePositiveRate : F64

/-- The same build, in another process. -/
def Engine.under (E : Engine) (p : Process) : Engine := { E with host := E.host.inProcess p }

/-- The same build, with another process to replay the log. -/
def Engine.replaying (E : Engine) (process : Nat → Nat → Process) : Engine :=
  { E with wal := E.wal.replaying process }

/-- A write or a sync of the log that fails, with what has reached the file. -/
structure LogFailure where
  kept : Nat
  error : String

/-- The steps of `save` that can fail. -/
inductive SaveStep where
  /-- Writing `catalog.json.tmp`, of which some bytes may be there, or renaming it. -/
  | publish (temporary : Option Bytes)
  /-- Moving the log to the archive. -/
  | archive
  /-- Opening the new log. -/
  | reopen
  deriving DecidableEq, Repr

/-- Where saving the catalog failed, and why. -/
structure SaveFailure where
  step : SaveStep
  error : String

/-- The clock and the answers of the file system during one call. -/
structure Io where
  now : Nat
  log : Option LogFailure := none
  save : Option SaveFailure := none

/-! ## State -/

/-- An open transaction: the catalog it works on, and its statements so far. -/
structure TransactionState where
  baseVersion : Nat
  catalog : Catalog
  statements : List DurableStatement
  schemaChanged : Bool

/-- A prepared statement, under the schema version it was prepared with. -/
structure PreparedStatement where
  sql : String
  schemaVersion : Nat
  statement : Statement

/-- The user variables and the prepared statements of a session. -/
structure SessionNames where
  userVariables : AList (fun _ : String => Value) := ∅
  prepared : AList (fun _ : String => PreparedStatement) := ∅

/-- A session of a client. -/
structure Session where
  transaction : Option TransactionState := none
  /-- A call that panicked held the lock of the transaction. -/
  poisoned : Bool := false
  names : SessionNames := {}

/-- The database behind its lock. -/
structure Database where
  catalog : Catalog
  /-- A call that panicked held the lock of the catalog. -/
  poisoned : Bool := false
  autoSave : Bool
  /-- The log is open. -/
  wal : Bool
  disk : SqlDisk
  sessions : Nat → Session

/-- The answer to a call. -/
inductive Reply where
  | done (result : ExecutionResult)
  | failed (error : String)
  /-- A statement that is committed, of which the caller only sees that `save` failed. -/
  | unsaved (result : ExecutionResult) (error : String)
  | panicked

/-- The reply to a call that failed. -/
def Reply.ofFault : Fault → Reply
  | .error message => .failed message
  | .panic => .panicked

/-- What the caller sees. -/
def Reply.response : Reply → Except Fault ExecutionResult
  | .done result => .ok result
  | .failed error => .error (.error error)
  | .unsaved _ error => .error (.error s!"Statement committed but snapshot failed: {error}")
  | .panicked => .error .panic

/-! ## Writing -/

namespace Database

variable (E : Engine)

/-- `log_transaction`: without an open log nothing is written, and nothing fails. -/
def logTransaction (db : Database) (io : Io) (base commit : Nat)
    (statements : List DurableStatement) : Database × Option String :=
  if db.wal then
    let encoded := line (E.wal.encode (.new E.wal base commit io.now statements))
    let file := db.disk.wal.getD []
    match io.log with
    | none => ({ db with disk := { db.disk with wal := some (file ++ encoded) } }, none)
    | some failure =>
      ({ db with disk := { db.disk with wal := some (file ++ encoded.take failure.kept) } },
        some failure.error)
  else (db, none)

/-- The point of `save` at which a step fails. -/
def savePoint : SaveStep → SavePoint
  | .publish none => .entered
  | .publish (some bytes) => .written bytes
  | .archive => .renamed
  | .reopen => .archived

/-- Whether `save` comes to a step: without an open log it ends with the rename, and an
empty log is not archived. -/
def reachesStep (db : Database) : SaveStep → Bool
  | .publish _ => true
  | .archive => db.wal && !(db.disk.wal.getD []).isEmpty
  | .reopen => db.wal

/-- `save`: the log is closed before it is archived, and opened again at the end. -/
def save (db : Database) (io : Io) : Database × Option String :=
  if db.autoSave then
    match io.save.filter (fun failure => db.reachesStep failure.step) with
    | none =>
      let point := if db.wal then .reopened else .renamed
      ({ db with disk := db.disk.saveUntil E.codec db.catalog io.now point }, none)
    | some failure =>
      ({ db with
          disk := db.disk.saveUntil E.codec db.catalog io.now (savePoint failure.step)
          wal := match failure.step with
            | .publish _ => db.wal
            | .archive => false
            | .reopen => false }, some failure.error)
  else (db, none)

/-! ## One call -/

/-- `execute_autocommit_durable`. -/
def executeAutocommit (db : Database) (io : Io) (durable : DurableStatement)
    (statement : Statement) : Reply × Database :=
  if db.poisoned then (.panicked, db)
  else
    match executeCatalog E.host db.catalog.tables statement with
    | .error (.error message) => (.failed message, db)
    | .error .panic => (.panicked, { db with poisoned := isWriteStatement statement })
    | .ok (result, tables) =>
      if isWriteStatement statement then
        let working : Catalog :=
          { version := saturatingSucc db.catalog.version
            schemaVersion :=
              if isSchemaStatement statement then saturatingSucc db.catalog.schemaVersion
              else db.catalog.schemaVersion
            tables := tables.configureBloomFalsePositiveRate E.host E.bloomFalsePositiveRate }
        match db.logTransaction E io db.catalog.version working.version [durable] with
        | (db, some error) => (.failed s!"WAL error: {error}", db)
        | (db, none) =>
          let db := { db with catalog := working }
          if isSchemaStatement statement then
            match db.save E io with
            | (db, none) => (.done result, db)
            | (db, some error) => (.unsaved result error, db)
          else (.done result, db)
      else (.done result, db)

/-- `parse_cached`; a plan that is cached is the one that would be made again. -/
def parseCached (db : Database) (sql : String) : Except Fault Statement :=
  if db.poisoned then .error .panic
  else
    match E.wal.parseSql (normalizeSql sql) with
    | .error message => .error (.error message)
    | .ok statement => optimizeStatement E.host statement

/-- A statement on the variables and the prepared statements of a session. -/
def isSessionStatement : Statement → Bool
  | .setVariable _ _ => true
  | .prepare _ _ => true
  | .executePrepared _ _ => true
  | .deallocatePrepared _ => true
  | _ => false

/-- `SQLSession::prepare`. -/
def prepare (db : Database) (sql : String) : Except Fault PreparedStatement :=
  match db.parseCached E sql with
  | .error fault => .error fault
  | .ok statement =>
    if isTransactionControl statement || isSessionStatement statement then
      .error (.error "Transaction/session control statements cannot be prepared")
    else .ok ⟨trim sql, db.catalog.schemaVersion, statement⟩

/-- What a call asks for, once its text is parsed and its parameters are bound. -/
inductive Command where
  | begin
  | commit
  | rollback
  /-- An answer that concerns nothing but the names of the session. -/
  | answer (reply : Reply) (names : SessionNames)
  | run (durable : DurableStatement) (statement : Statement)

/-- The statement of `SQLSession::execute_prepared`: parsed again if the schema has
changed, bound, and optimized again. -/
def bindPrepared (db : Database) (prepared : PreparedStatement) (parameters : List Value) :
    Except Fault Statement := do
  let statement ←
    if db.poisoned then .error .panic
    else if db.catalog.schemaVersion = prepared.schemaVersion then .ok prepared.statement
    else db.parseCached E prepared.sql
  match E.bindParameters statement parameters with
  | .error message => .error (.error message)
  | .ok statement => optimizeStatement E.host statement

/-- `SQLSession::execute_prepared`, up to the transaction. -/
def resolvePrepared (db : Database) (names : SessionNames) (prepared : PreparedStatement)
    (parameters : List Value) : Command :=
  match db.bindPrepared E prepared parameters with
  | .error fault => .answer (.ofFault fault) names
  | .ok statement => .run (.bound statement) statement

/-- The text that PREPARE names. -/
def prepareText (names : SessionNames) : PrepareSource → Except String String
  | .sql text => .ok text
  | .variable name =>
    match names.userVariables.lookup name with
    | some (.text text) => .ok text
    | some _ => .error s!"User variable '@{name}' must contain SQL text"
    | none => .error s!"User variable '@{name}' is not set"

/-- The values of the variables that EXECUTE names. -/
def variableValues (names : SessionNames) (variables_ : List String) :
    Except String (List Value) :=
  variables_.mapM fun name =>
    match names.userVariables.lookup name with
    | some value => .ok value
    | none => .error s!"User variable '@{name}' is not set"

/-- `SQLSession::execute`, up to the transaction. -/
def resolveText (db : Database) (names : SessionNames) (sql : String) : Command :=
  match db.parseCached E sql with
  | .error fault => .answer (.ofFault fault) names
  | .ok .begin => .begin
  | .ok .commit => .commit
  | .ok .rollback => .rollback
  | .ok (.setVariable name value) =>
    .answer (.done (.rowsAffected 0))
      { names with userVariables := names.userVariables.insert name value }
  | .ok (.prepare name source) =>
    match prepareText names source with
    | .error message => .answer (.failed message) names
    | .ok text =>
      match db.prepare E text with
      | .error fault => .answer (.ofFault fault) names
      | .ok prepared =>
        .answer (.done (.rowsAffected 0))
          { names with prepared := names.prepared.insert name prepared }
  | .ok (.executePrepared name using_) =>
    match names.prepared.lookup name with
    | none => .answer (.failed s!"Prepared statement '{name}' does not exist") names
    | some prepared =>
      match variableValues names using_ with
      | .error message => .answer (.failed message) names
      | .ok parameters => db.resolvePrepared E names prepared parameters
  | .ok (.deallocatePrepared name) =>
    match names.prepared.lookup name with
    | none => .answer (.failed s!"Prepared statement '{name}' does not exist") names
    | some _ =>
      .answer (.done (.rowsAffected 0)) { names with prepared := names.prepared.erase name }
  | .ok statement => .run (.sql (trim sql)) statement

/-- The session of an identifier becomes another one. -/
def setSession (db : Database) (id : Nat) (session : Session) : Database :=
  { db with sessions := Function.update db.sessions id session }

@[simp] theorem sessions_setSession_self (db : Database) (id : Nat) (session : Session) :
    (db.setSession id session).sessions id = session := Function.update_self ..

theorem sessions_setSession_of_ne (db : Database) {id other : Nat} (h : other ≠ id)
    (session : Session) : (db.setSession id session).sessions other = db.sessions other :=
  Function.update_of_ne h ..

/-- `SQLSession::begin`. -/
def beginTransaction (db : Database) (id : Nat) : Reply × Database :=
  let session := db.sessions id
  match session.transaction with
  | some _ => (.failed "A transaction is already active", db)
  | none =>
    if db.poisoned then (.panicked, db.setSession id { session with poisoned := true })
    else (.done .transactionStarted, db.setSession id { session with
      transaction := some
        { baseVersion := db.catalog.version
          catalog := db.catalog
          statements := []
          schemaChanged := false } })

/-- What COMMIT publishes of a transaction. -/
def committing (db : Database) (state : TransactionState) : TransactionState :=
  { state with
    catalog :=
      { version := saturatingSucc db.catalog.version
        schemaVersion :=
          if state.schemaChanged then saturatingSucc db.catalog.schemaVersion
          else db.catalog.schemaVersion
        tables :=
          state.catalog.tables.configureBloomFalsePositiveRate E.host E.bloomFalsePositiveRate } }

/-- `SQLSession::commit`: a failed write leaves the transaction for another try. -/
def commitTransaction (db : Database) (io : Io) (id : Nat) : Reply × Database :=
  let session := db.sessions id
  match session.transaction with
  | none => (.done .transactionCommitted, db)
  | some state =>
    if db.poisoned then
      (.panicked, db.setSession id { session with transaction := none, poisoned := true })
    else if db.catalog.version ≠ state.baseVersion then
      (.failed (s!"Serialization conflict: transaction snapshot version {state.baseVersion}, " ++
          s!"current version {db.catalog.version}"),
        db.setSession id { session with transaction := none })
    else if state.statements.isEmpty then
      (.done .transactionCommitted, db.setSession id { session with transaction := none })
    else
      let state := db.committing E state
      match db.logTransaction E io state.baseVersion state.catalog.version state.statements with
      | (db, some error) =>
        (.failed s!"WAL error: {error}",
          db.setSession id { session with transaction := some state })
      | (db, none) =>
        (.done .transactionCommitted,
          { db with catalog := state.catalog }.setSession id { session with transaction := none })

/-- A statement of a session, inside a transaction or outside. -/
def runStatement (db : Database) (io : Io) (id : Nat) (durable : DurableStatement)
    (statement : Statement) : Reply × Database :=
  let session := db.sessions id
  match session.transaction with
  | none => db.executeAutocommit E io durable statement
  | some state =>
    match executeCatalog E.host state.catalog.tables statement with
    | .error (.error message) => (.failed message, db)
    | .error .panic => (.panicked, db.setSession id { session with poisoned := true })
    | .ok (result, tables) =>
      if isWriteStatement statement then
        (.done result, db.setSession id { session with
          transaction := some
            { state with
              catalog := { state.catalog with tables := tables }
              statements := state.statements ++ [durable]
              schemaChanged := state.schemaChanged || isSchemaStatement statement } })
      else (.done result, db)

/-- A command of a session. -/
def perform (db : Database) (io : Io) (id : Nat) : Command → Reply × Database
  | .answer reply names => (reply, db.setSession id { db.sessions id with names })
  | .begin => if (db.sessions id).poisoned then (.panicked, db) else db.beginTransaction id
  | .commit => if (db.sessions id).poisoned then (.panicked, db) else db.commitTransaction E io id
  | .rollback =>
    if (db.sessions id).poisoned then (.panicked, db)
    else (.done .transactionRolledBack,
      db.setSession id { db.sessions id with transaction := none })
  | .run durable statement =>
    if (db.sessions id).poisoned then (.panicked, db)
    else db.runStatement E io id durable statement

/-- A call of the API. -/
inductive Call where
  /-- `SQLDatabase::execute`. -/
  | execute (sql : String)
  /-- `SQLSession::execute`. -/
  | sessionExecute (id : Nat) (sql : String)
  /-- `SQLSession::execute_prepared`. -/
  | executePrepared (id : Nat) (prepared : PreparedStatement) (parameters : List Value)
  /-- `SQLSession::begin`. -/
  | begin (id : Nat)
  /-- `SQLSession::commit`. -/
  | commit (id : Nat)
  /-- `SQLSession::rollback`. -/
  | rollback (id : Nat)
  /-- `SQLDatabase::save`. -/
  | save

/-- What a call asks for: of the catalog directly, or of a session. -/
inductive Request where
  | autocommit (durable : DurableStatement) (statement : Statement)
  | session (id : Nat) (command : Command)
  | answer (reply : Reply)
  | save

/-- The parsing and binding of a call. -/
def resolve (db : Database) : Call → Request
  | .execute sql =>
    match db.parseCached E sql with
    | .error fault => .answer (.ofFault fault)
    | .ok statement =>
      if isTransactionControl statement then
        .answer (.failed "BEGIN/COMMIT/ROLLBACK require SQLDatabase::session()")
      else if isSessionStatement statement then
        .answer (.failed "Prepared statements and user variables require SQLDatabase::session()")
      else .autocommit (.sql (trim sql)) statement
  | .sessionExecute id sql => .session id (db.resolveText E (db.sessions id).names sql)
  | .executePrepared id prepared parameters =>
    .session id (db.resolvePrepared E (db.sessions id).names prepared parameters)
  | .begin id => .session id .begin
  | .commit id => .session id .commit
  | .rollback id => .session id .rollback
  | .save => .save

/-- A request, carried out. -/
def serve (db : Database) (io : Io) : Request → Reply × Database
  | .autocommit durable statement => db.executeAutocommit E io durable statement
  | .session id command => db.perform E io id command
  | .answer reply => (reply, db)
  | .save =>
    if db.autoSave && db.poisoned then (.panicked, db)
    else
      match db.save E io with
      | (db, none) => (.done (.rowsAffected 0), db)
      | (db, some error) => (.failed error, db)

/-! ## What a request is about to do -/

/-- The statement a request runs, with the tables it runs on. -/
def target (db : Database) : Request → Option (Tables × DurableStatement × Statement)
  | .autocommit durable statement => some (db.catalog.tables, durable, statement)
  | .session id (.run durable statement) =>
    match (db.sessions id).transaction with
    | none => some (db.catalog.tables, durable, statement)
    | some state => some (state.catalog.tables, durable, statement)
  | _ => none

/-- What a statement outside a transaction is about to log. -/
def pendingStatement (db : Database) (durable : DurableStatement) (statement : Statement) :
    Option (List DurableStatement) :=
  if db.poisoned then none
  else
    match executeCatalog E.host db.catalog.tables statement with
    | .ok _ => if isWriteStatement statement then some [durable] else none
    | .error _ => none

/-- The statements of the record a request is about to log, if it comes to that. -/
def pending (db : Database) : Request → Option (List DurableStatement)
  | .autocommit durable statement => db.pendingStatement E durable statement
  | .session id (.run durable statement) =>
    if (db.sessions id).poisoned || (db.sessions id).transaction.isSome then none
    else db.pendingStatement E durable statement
  | .session id .commit =>
    if (db.sessions id).poisoned || db.poisoned then none
    else (db.sessions id).transaction.bind fun state =>
      if db.catalog.version = state.baseVersion ∧ state.statements ≠ [] then some state.statements
      else none
  | _ => none

/-- The catalog that a statement outside a transaction publishes. -/
def working (db : Database) (statement : Statement) (tables : Tables) : Catalog where
  version := saturatingSucc db.catalog.version
  schemaVersion :=
    if isSchemaStatement statement then saturatingSucc db.catalog.schemaVersion
    else db.catalog.schemaVersion
  tables := tables.configureBloomFalsePositiveRate E.host E.bloomFalsePositiveRate

/-- The catalog that a request is about to save: the published one, or the one that a
statement publishes that changes the schema. -/
def saving (db : Database) (io : Io) (request : Request) : Option Catalog :=
  if db.autoSave then
    match request, db.pending E request, db.target request with
    | .save, _, _ => some db.catalog
    | _, some _, some (tables, _, statement) =>
      if isSchemaStatement statement && !(db.wal && io.log.isSome) then
        (executeCatalog E.host tables statement).toOption.map fun executed =>
          db.working E statement executed.2
      else none
    | _, _, _ => none
  else none

/-- The record that a request is about to log. -/
def record (db : Database) (io : Io) (statements : List DurableStatement) : WalRecord :=
  .new E.wal db.catalog.version (saturatingSucc db.catalog.version) io.now statements

/-- The rows a request inserts. -/
def insertedBy (db : Database) (request : Request) : Nat :=
  match db.target request with
  | none => 0
  | some (tables, _, statement) =>
    match executeCatalog E.host tables statement with
    | .ok (_, next) => insertedRows tables next statement
    | .error _ => 0

/-- One call. -/
def step (db : Database) (call : Call) (io : Io) : Reply × Database :=
  db.serve E io (db.resolve E call)

/-- `SQLDatabase::open_with_options`. -/
def openDir (disk : SqlDisk) : Except OpenError Database :=
  (openCatalog E.host E.wal E.codec disk).map fun catalog =>
    { catalog :=
        { catalog with
          tables :=
            catalog.tables.configureBloomFalsePositiveRate E.host E.bloomFalsePositiveRate }
      autoSave := true
      wal := true
      disk := disk.openWal
      sessions := fun _ => {} }

/-- `SQLDatabase::with_options`: nothing is on disk, and nothing is saved. -/
def inMemory (catalog : Catalog) : Database where
  catalog := catalog
  autoSave := false
  wal := false
  disk := {}
  sessions := fun _ => {}

end Database

end Sql
end RustyDB
