import Mathlib
import RustyDB.Kv.Flush

/-!
# Snapshots and crashes

`create_snapshot` publishes the snapshot file, closes the WAL, moves it to the
archive and opens a new one.  The process can stop between any two of these
steps, and the WAL that is then replayed on top of the snapshot may be one whose
operations the snapshot already contains.

* `SnapshotPoint`, `createSnapshotUntil` — the interruption points of
  `create_snapshot` and the state it leaves there; `createSnapshot_eq` says that
  the steps together are `create_snapshot`.
* `SnapshotEvent`, `KVStore.event`, `KVStore.history` — the calls of a client,
  with snapshots that crash and the next `open`.
* `Steady` — the invariant: nothing is queued, and the directory recovers to the
  map in memory.
* `snapshot_crash_atomic` — **wherever a snapshot is interrupted, the next `open`
  rebuilds the map in memory.**
-/

namespace RustyDB
namespace Kv

open KeyLog

/-! ## The steps of a snapshot -/

/-- Where a process can stop inside `create_snapshot`. -/
inductive SnapshotPoint where
  /-- Before anything has been written. -/
  | entered
  /-- The queue is logged; `rustydb.tmp` may be missing, torn or complete. -/
  | flushed
  /-- `rustydb.tmp` has become `rustydb.db`. -/
  | renamed
  /-- The WAL handle is cleared. -/
  | closed
  /-- A non-empty WAL has been moved to the archive. -/
  | archived
  /-- The new WAL exists. -/
  | reopened
  deriving DecidableEq, Repr

namespace PersistenceManager

/-- The rename that publishes a snapshot of `data`. -/
def publishSnapshot (H : KvHost) (pm : PersistenceManager) (data : List (String × String)) :
    PersistenceManager :=
  let snapshot : KvSnapshot :=
    { formatVersion := kvFormatVersion
      sequence := pm.currentSequence
      timestampMillis := H.nowMillis pm.currentSequence
      entries := data }
  { pm with disk := { pm.disk with snapshot := some (.snapshot snapshot) } }

/-- `*file_guard = None`. -/
def closeWal (pm : PersistenceManager) : PersistenceManager := { pm with walFile := false }

/-- A non-empty WAL moves to the archive. -/
def archiveWal (pm : PersistenceManager) : PersistenceManager :=
  { pm with
    disk := { pm.disk with
      wal := []
      archive :=
        if pm.disk.wal = [] then pm.disk.archive
        else pm.disk.archive ++ [(pm.currentSequence, pm.disk.wal)] } }

/-- The new WAL file becomes the handle. -/
def reopenWal (pm : PersistenceManager) : PersistenceManager := { pm with walFile := true }

/-- What `create_snapshot` has done when it stops at a point. -/
def createSnapshotUntil (H : KvHost) (pm : PersistenceManager) (data : List (String × String)) :
    SnapshotPoint → PersistenceManager
  | .entered => pm
  | .flushed => pm.flush H
  | .renamed => (pm.flush H).publishSnapshot H data
  | .closed => ((pm.flush H).publishSnapshot H data).closeWal
  | .archived => ((pm.flush H).publishSnapshot H data).closeWal.archiveWal
  | .reopened => ((pm.flush H).publishSnapshot H data).closeWal.archiveWal

/-- Run to its end, the steps are `create_snapshot`. -/
theorem createSnapshot_eq (H : KvHost) (pm : PersistenceManager)
    (data : List (String × String)) :
    pm.createSnapshot H data = (pm.createSnapshotUntil H data .reopened).reopenWal := rfl

end PersistenceManager

/-! ## Histories -/

/-- A call of the client, or a snapshot that crashes, followed by `open`. -/
inductive SnapshotEvent where
  | call (c : Call)
  | crash (point : SnapshotPoint)
  deriving DecidableEq, Repr

/-- The calls that leave nothing in the queue. -/
def Call.isSynchronous : Call → Bool
  | .setAsync _ _ => false
  | _ => true

/-- The directory a snapshot of `s` leaves when the process stops at a point. -/
def KVStore.crashDisk (H : KvHost) (s : KVStore) (point : SnapshotPoint) : Disk :=
  match s.persistence with
  | none => {}
  | some pm => (pm.createSnapshotUntil H (pairs s.data) point).disk

/-- One event; opening the directory after a crash can fail. -/
def KVStore.event (H : KvHost) (s : KVStore) : SnapshotEvent → Except String KVStore
  | .call c => .ok (s.call H c)
  | .crash point => KVStore.openDir H (s.crashDisk H point)

/-- A sequence of events. -/
def KVStore.history (H : KvHost) (s : KVStore) : List SnapshotEvent → Except String KVStore
  | [] => .ok s
  | e :: es => do
    let s ← s.event H e
    KVStore.history H s es

/-! ## The invariant -/

/-- Nothing is queued, and the directory recovers to the map in memory. -/
structure Steady (H : KvHost) (s : KVStore) : Prop where
  exists_live : ∃ pm, s.Live H pm ∧ pm.pendingOps = [] ∧
    pm.disk.recovered H = .ok (fun k => s.data.lookup k)

theorem steady_iff_tracks {H : KvHost} {s : KVStore} : Steady H s ↔ Tracks H {} s := by
  constructor
  · rintro ⟨pm, hlive, hqueue, hrecovered⟩
    exact ⟨pm, _, hlive, hrecovered, hqueue, by simp⟩
  · rintro ⟨pm, m, hlive, hrecovered, hqueue, hagree⟩
    refine ⟨pm, hlive, hqueue, ?_⟩
    rw [hrecovered]
    congr 1
    funext k
    simpa using hagree k

theorem Track.sync_empty (op : Operation) : Track.sync {} op = {} := by
  simp only [Track.sync, Track.mk.injEq, true_and]
  funext k
  cases op.at k <;> simp

/-- Without asynchronous writes no key is ever overtaken. -/
theorem Track.call_empty {c : Call} (hc : c.isSynchronous = true) : Track.call {} c = {} := by
  cases c with
  | setAsync key value => simp [Call.isSynchronous] at hc
  | setMany pairs =>
    have hpairs : ∀ t : Track, t = {} →
        pairs.foldl (fun t p => t.sync (.set p.1 p.2)) t = {} := by
      clear hc
      induction pairs with
      | nil => exact fun t ht => ht
      | cons p ps ih => exact fun t ht => ih _ (by rw [ht]; exact Track.sync_empty _)
    exact hpairs {} rfl
  | set key value => exact Track.sync_empty _
  | delete key => exact Track.sync_empty _
  | clear => exact Track.sync_empty .clear
  | snapshot => rfl
  | flush => rfl
  | backgroundFlush => rfl

theorem Steady.call {H : KvHost} {s : KVStore} (h : Steady H s) {c : Call}
    (hc : c.isSynchronous = true) : Steady H (s.call H c) := by
  have htracks := (steady_iff_tracks.mp h).call c
  rw [Track.call_empty hc] at htracks
  exact steady_iff_tracks.mpr htracks

theorem flush_of_empty {H : KvHost} {pm : PersistenceManager} (h : pm.pendingOps = []) :
    pm.flush H = pm := by
  cases pm
  simp only at h
  subst h
  rfl

/-- Replaying the WAL on top of a snapshot of its own result. -/
theorem recovered_publishSnapshot {H : KvHost} {pm : PersistenceManager} {data : Data}
    (hintact : pm.disk.Intact H) (h : pm.disk.recovered H = .ok (fun k => data.lookup k)) :
    (pm.publishSnapshot H (KVStore.pairs data)).disk.Intact H ∧
      (pm.publishSnapshot H (KVStore.pairs data)).disk.recovered H =
        .ok (fun k => data.lookup k) := by
  have hpublished : (pm.publishSnapshot H (KVStore.pairs data)).disk.Intact H :=
    ⟨hintact.1, _, rfl⟩
  refine ⟨hpublished, ?_⟩
  obtain ⟨before, -, hbefore⟩ := recovered_eq hintact
  obtain ⟨ops, hops, hafter⟩ := recovered_eq hpublished
  obtain rfl : (KVStore.pairs data).map (fun e => Op.set e.1 e.2) = ops := Except.ok.inj hops
  have hdata : (fun k => data.lookup k) =
      replay (replay (fun _ => none) before) (walOperations H pm.disk.wal) :=
    Except.ok.inj (h.symm.trans hbefore)
  rw [hafter, replay_pairs, hdata]
  exact congrArg Except.ok (replay_replay_self _ _)

/-- **Every interruption point** leaves an intact directory that recovers to the map. -/
theorem recovered_createSnapshotUntil {H : KvHost} {pm : PersistenceManager} {data : Data}
    (hqueue : pm.pendingOps = []) (hintact : pm.disk.Intact H)
    (h : pm.disk.recovered H = .ok (fun k => data.lookup k)) (point : SnapshotPoint) :
    (pm.createSnapshotUntil H (KVStore.pairs data) point).disk.Intact H ∧
      (pm.createSnapshotUntil H (KVStore.pairs data) point).disk.recovered H =
        .ok (fun k => data.lookup k) := by
  have hpublished := recovered_publishSnapshot hintact h
  have hcomplete := recovered_snapshot H pm data
  rw [PersistenceManager.createSnapshot_eq] at hcomplete
  cases point with
  | entered => exact ⟨hintact, h⟩
  | flushed =>
    rw [PersistenceManager.createSnapshotUntil, flush_of_empty hqueue]
    exact ⟨hintact, h⟩
  | renamed =>
    rw [PersistenceManager.createSnapshotUntil, flush_of_empty hqueue]
    exact hpublished
  | closed =>
    rw [PersistenceManager.createSnapshotUntil, flush_of_empty hqueue]
    exact hpublished
  | archived => exact hcomplete
  | reopened => exact hcomplete

/-- A store opened on an intact directory is steady. -/
theorem steady_openDir {H : KvHost} {disk : Disk} {s : KVStore} (hintact : disk.Intact H)
    (h : KVStore.openDir H disk = .ok s) : Steady H s :=
  steady_iff_tracks.mpr (tracks_openDir hintact h)

/-- Opening after a crash inside a snapshot rebuilds the map, in a steady store. -/
theorem Steady.crash {H : KvHost} {s : KVStore} (h : Steady H s) (point : SnapshotPoint) :
    ∃ s', KVStore.openDir H (s.crashDisk H point) = .ok s' ∧ Steady H s' ∧
      ∀ k, s'.data.lookup k = s.data.lookup k := by
  obtain ⟨pm, hlive, hqueue, hrecovered⟩ := h.exists_live
  have hdisk : s.crashDisk H point =
      (pm.createSnapshotUntil H (KVStore.pairs s.data) point).disk := by
    rw [KVStore.crashDisk, hlive.persistence]
  obtain ⟨hintact, hmap⟩ :=
    recovered_createSnapshotUntil hqueue hlive.intact hrecovered point
  rw [hdisk]
  obtain ⟨s', hopen, hdata⟩ := openDir_eq_ok hmap
  exact ⟨s', hopen, steady_openDir hintact hopen, hdata⟩

/-- **One event keeps the store steady.** -/
theorem Steady.event {H : KvHost} {s : KVStore} (h : Steady H s) {e : SnapshotEvent}
    (he : ∀ c, e = .call c → c.isSynchronous = true) :
    ∃ s', s.event H e = .ok s' ∧ Steady H s' := by
  cases e with
  | call c => exact ⟨s.call H c, rfl, h.call (he c rfl)⟩
  | crash point =>
    obtain ⟨s', hopen, hsteady, -⟩ := h.crash point
    exact ⟨s', hopen, hsteady⟩

theorem Steady.history {H : KvHost} {s : KVStore} (h : Steady H s) {es : List SnapshotEvent}
    (hes : ∀ c, .call c ∈ es → c.isSynchronous = true) :
    ∃ s', s.history H es = .ok s' ∧ Steady H s' := by
  induction es generalizing s with
  | nil => exact ⟨s, rfl, h⟩
  | cons e es ih =>
    obtain ⟨next, hnext, hsteady⟩ := h.event (e := e) fun c hc => hes c (by simp [hc])
    obtain ⟨s', hs', hfinal⟩ := ih hsteady fun c hc => hes c (List.mem_cons_of_mem _ hc)
    exact ⟨s', by rw [KVStore.history, hnext]; exact hs', hfinal⟩

/-- **KV snapshotting is crash-atomic.**  On a store opened on an intact directory,
after any history of synchronous calls, snapshots and snapshots that crash and are
followed by `open`, the process may stop at any point inside another snapshot: the
next `open` succeeds and rebuilds exactly the map in memory. -/
theorem snapshot_crash_atomic (H : KvHost) (disk : Disk) (s : KVStore)
    (es : List SnapshotEvent) (hintact : disk.Intact H) (hopen : KVStore.openDir H disk = .ok s)
    (hes : ∀ c, .call c ∈ es → c.isSynchronous = true) :
    ∃ s', s.history H es = .ok s' ∧ ∀ point,
      ∃ s'', KVStore.openDir H (s'.crashDisk H point) = .ok s'' ∧
        ∀ k, s''.data.lookup k = s'.data.lookup k := by
  obtain ⟨s', hs', hsteady⟩ := (steady_openDir hintact hopen).history hes
  refine ⟨s', hs', fun point => ?_⟩
  obtain ⟨s'', hcrash, -, hdata⟩ := hsteady.crash point
  exact ⟨s'', hcrash, hdata⟩

/-- A snapshot that stops after its rename, a delete, and a snapshot that stops with
the WAL in the archive. -/
theorem crashed_twice_recovers :
    ∃ s', freshStore.history constHost
        [.call (.setMany [("a", "1"), ("b", "2")]), .crash .renamed, .call (.delete "a")] =
        .ok s' ∧ s'.data.lookup "a" = none ∧ s'.data.lookup "b" = some "2" ∧
      ∀ point, ∃ s'', KVStore.openDir constHost (s'.crashDisk constHost point) = .ok s'' ∧
        ∀ k, s''.data.lookup k = s'.data.lookup k := by
  obtain ⟨s', hs', hcrash⟩ := snapshot_crash_atomic constHost {} freshStore
    [.call (.setMany [("a", "1"), ("b", "2")]), .crash .renamed, .call (.delete "a")]
    intact_empty openDir_empty (by simp [Call.isSynchronous])
  refine ⟨s', hs', ?_, ?_, hcrash⟩
  · rw [← Except.ok.inj hs']
    decide
  · rw [← Except.ok.inj hs']
    decide

end Kv
end RustyDB
