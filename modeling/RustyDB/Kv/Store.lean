import Mathlib
import RustyDB.Lib.KeyLog

/-!
# The key-value store and its write-ahead log

The model of `src/kvstore.rs` over `src/persistence.rs`: a map in memory, a
snapshot file, an active WAL file and the queue of asynchronous writes that a
background thread drains into the WAL.

* `Operation`, `KvWalRecord`, `KvSnapshot` — what is written to disk.
* `PersistenceManager` — the files, the WAL handle, the queue and the sequence
  counter, with `logOperationSync`, `logOperationAsync`, `flush`,
  `backgroundFlush`, `createSnapshot`, `recover` and `new`.
* `KVStore` — the store: `set`, `setAsync`, `setMany`, `delete`, `clear`,
  `snapshot`, `flush` and `recover`.

A file is a list of lines as `serde_json` reads them (`WalLine`), and every I/O
call succeeds; the two functions `serde_json` and the clock supply are the
fields of `KvHost`.
-/

namespace RustyDB
namespace Kv

/-- An operation that is persisted to disk. -/
abbrev Operation := KeyLog.Op String String

/-- The shared map: `DashMap<String, Arc<String>>`. -/
abbrev Data := AList (fun _ : String => String)

/-- `KV_FORMAT_VERSION`. -/
def kvFormatVersion : Nat := 2

/-- What the store takes from outside: the CRC of a record's fields and the
clock, read once for every sequence number handed out. -/
structure KvHost where
  /-- `kv_checksum`: CRC-32 of the sequence, the time and the JSON of the operation. -/
  checksum : Nat → Nat → Operation → Nat
  /-- `now_millis` when the record of a sequence number is made. -/
  nowMillis : Nat → Nat

/-- One record of the WAL. -/
structure KvWalRecord where
  formatVersion : Nat
  sequence : Nat
  timestampMillis : Nat
  operation : Operation
  checksum : Nat
  deriving DecidableEq, Repr

/-- The snapshot file. -/
structure KvSnapshot where
  formatVersion : Nat
  sequence : Nat
  timestampMillis : Nat
  entries : List (String × String)
  deriving DecidableEq, Repr

/-- A line of the WAL file, as the two `serde_json::from_str` calls of `recover`
read it. -/
inductive WalLine where
  /-- Only blanks. -/
  | blank
  /-- A `KvWalRecord`. -/
  | record (r : KvWalRecord)
  /-- A bare `Operation`, as older versions wrote it. -/
  | operation (op : Operation)
  /-- Neither of the two. -/
  | unreadable
  deriving DecidableEq, Repr

/-- The content of `rustydb.db`: a snapshot, or the older form of one operation
a line, where `none` is a line that is not an operation. -/
inductive SnapshotFile where
  | snapshot (s : KvSnapshot)
  | lines (ls : List (Option Operation))
  deriving DecidableEq, Repr

/-- The data directory. -/
structure Disk where
  /-- `rustydb.db`. -/
  snapshot : Option SnapshotFile := none
  /-- `rustydb.wal`. -/
  wal : List WalLine := []
  /-- `wal_archive/kv`, each segment with the sequence in its name. -/
  archive : List (Nat × List WalLine) := []
  deriving DecidableEq, Repr

/-- Manages persistence for the store. -/
structure PersistenceManager where
  disk : Disk
  /-- Whether `wal_file` holds an open file. -/
  walFile : Bool := true
  pendingOps : List Operation := []
  nextSequence : Nat := 1
  deriving DecidableEq, Repr

namespace KvWalRecord

/-- `KvWalRecord::new`. -/
def new (H : KvHost) (sequence : Nat) (operation : Operation) : KvWalRecord where
  formatVersion := kvFormatVersion
  sequence := sequence
  timestampMillis := H.nowMillis sequence
  operation := operation
  checksum := H.checksum sequence (H.nowMillis sequence) operation

/-- `KvWalRecord::valid`. -/
def valid (H : KvHost) (r : KvWalRecord) : Bool :=
  r.formatVersion == kvFormatVersion &&
    r.checksum == H.checksum r.sequence r.timestampMillis r.operation

@[simp] theorem valid_new (H : KvHost) (sequence : Nat) (operation : Operation) :
    (new H sequence operation).valid H = true := by
  simp [valid, new]

end KvWalRecord

/-! ## Reading the files back -/

/-- The WAL loop of `PersistenceManager::recover`: unreadable lines are skipped,
a record with a wrong checksum ends the log. -/
def walOperations (H : KvHost) : List WalLine → List Operation
  | [] => []
  | .blank :: ls => walOperations H ls
  | .record r :: ls => if r.valid H then r.operation :: walOperations H ls else []
  | .operation op :: ls => op :: walOperations H ls
  | .unreadable :: ls => walOperations H ls

/-- The snapshot part of `PersistenceManager::recover`. -/
def snapshotOperations : Option SnapshotFile → Except String (List Operation)
  | none => .ok []
  | some (.snapshot s) => .ok (s.entries.map fun e => .set e.1 e.2)
  | some (.lines ls) =>
    ls.mapM fun l =>
      match l with
      | some op => .ok op
      | none => .error "Failed to parse operation"

/-- `scan_max_sequence`: the largest sequence of the snapshot and of the valid
records of the WAL. -/
def scanMaxSequence (H : KvHost) (disk : Disk) : Nat :=
  let snapshotSequence :=
    match disk.snapshot with
    | some (.snapshot s) => s.sequence
    | _ => 0
  let walSequence := disk.wal.foldl (fun m l =>
    match l with
    | .record r => if r.valid H then max m r.sequence else m
    | _ => m) 0
  max snapshotSequence walSequence

namespace PersistenceManager

/-- `PersistenceManager::new` on a data directory. -/
def new (H : KvHost) (disk : Disk) : PersistenceManager where
  disk := disk
  nextSequence := scanMaxSequence H disk + 1

/-- `PersistenceManager::recover`. -/
def recover (H : KvHost) (pm : PersistenceManager) : Except String (List Operation) := do
  let ops ← snapshotOperations pm.disk.snapshot
  pure (ops ++ walOperations H pm.disk.wal)

/-- `current_sequence`. -/
def currentSequence (pm : PersistenceManager) : Nat := pm.nextSequence - 1

/-- One record appended to the open WAL file under the next sequence number. -/
def append (H : KvHost) (pm : PersistenceManager) (op : Operation) : PersistenceManager :=
  { pm with
    disk := { pm.disk with wal := pm.disk.wal ++ [.record (.new H pm.nextSequence op)] }
    nextSequence := pm.nextSequence + 1 }

/-- `log_operation_sync`: nothing is written when no WAL file is open. -/
def logOperationSync (H : KvHost) (pm : PersistenceManager) (op : Operation) :
    PersistenceManager :=
  if pm.walFile then pm.append H op else pm

/-- `log_operation_async`. -/
def logOperationAsync (pm : PersistenceManager) (op : Operation) : PersistenceManager :=
  { pm with pendingOps := pm.pendingOps ++ [op] }

/-- `flush`: take the queue and log each of its operations. -/
def flush (H : KvHost) (pm : PersistenceManager) : PersistenceManager :=
  pm.pendingOps.foldl (logOperationSync H) { pm with pendingOps := [] }

/-- One round of the background thread: take the queue, then append what was
taken if the WAL file is open. -/
def backgroundFlush (H : KvHost) (pm : PersistenceManager) : PersistenceManager :=
  let taken := pm.pendingOps
  let pm := { pm with pendingOps := [] }
  if pm.walFile then taken.foldl (append H) pm else pm

/-- `create_snapshot`: flush, publish the snapshot, move a non-empty WAL to the
archive and reopen an empty one. -/
def createSnapshot (H : KvHost) (pm : PersistenceManager) (data : List (String × String)) :
    PersistenceManager :=
  let pm := pm.flush H
  let snapshot : KvSnapshot :=
    { formatVersion := kvFormatVersion
      sequence := pm.currentSequence
      timestampMillis := H.nowMillis pm.currentSequence
      entries := data }
  let archive :=
    if pm.disk.wal = [] then pm.disk.archive
    else pm.disk.archive ++ [(pm.currentSequence, pm.disk.wal)]
  { pm with
    disk := { snapshot := some (.snapshot snapshot), wal := [], archive := archive }
    walFile := true }

end PersistenceManager

/-! ## The store -/

/-- What an operation does to the map. -/
def applyOperation (data : Data) : Operation → Data
  | .set key value => data.insert key value
  | .delete key => data.erase key
  | .clear => ∅

/-- The key-value store. -/
structure KVStore where
  data : Data := ∅
  persistence : Option PersistenceManager := none

namespace KVStore

/-- `KVStore::recover` after `PersistenceManager::new`: the store `open` returns. -/
def openDir (H : KvHost) (disk : Disk) : Except String KVStore := do
  let pm := PersistenceManager.new H disk
  let ops ← pm.recover H
  pure { data := ops.foldl applyOperation ∅, persistence := some pm }

/-- `KVStore::set`: the WAL first, then the map. -/
def set (H : KvHost) (s : KVStore) (key value : String) : KVStore where
  data := s.data.insert key value
  persistence := s.persistence.map fun pm => pm.logOperationSync H (.set key value)

/-- `KVStore::set_async`: queue the write, then update the map. -/
def setAsync (s : KVStore) (key value : String) : KVStore where
  data := s.data.insert key value
  persistence := s.persistence.map fun pm => pm.logOperationAsync (.set key value)

/-- `KVStore::set_many`, with the number of pairs it reports. -/
def setMany (H : KvHost) (s : KVStore) (pairs : List (String × String)) : Nat × KVStore :=
  (pairs.length, pairs.foldl (fun s p => s.set H p.1 p.2) s)

/-- `KVStore::delete`, with whether the key existed. -/
def delete (H : KvHost) (s : KVStore) (key : String) : Bool × KVStore :=
  ((s.data.lookup key).isSome,
    { data := s.data.erase key
      persistence := s.persistence.map fun pm => pm.logOperationSync H (.delete key) })

/-- `KVStore::clear`. -/
def clear (H : KvHost) (s : KVStore) : KVStore where
  data := ∅
  persistence := s.persistence.map fun pm => pm.logOperationSync H .clear

/-- The pairs `snapshot` copies out of the map. -/
def pairs (data : Data) : List (String × String) := data.entries.map fun e => (e.1, e.2)

/-- `KVStore::snapshot`. -/
def snapshot (H : KvHost) (s : KVStore) : KVStore :=
  { s with persistence := s.persistence.map fun pm => pm.createSnapshot H (pairs s.data) }

/-- `KVStore::flush`. -/
def flush (H : KvHost) (s : KVStore) : KVStore :=
  { s with persistence := s.persistence.map fun pm => pm.flush H }

/-- A round of the background thread. -/
def backgroundFlush (H : KvHost) (s : KVStore) : KVStore :=
  { s with persistence := s.persistence.map fun pm => pm.backgroundFlush H }

end KVStore

end Kv
end RustyDB
