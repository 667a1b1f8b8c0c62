import Mathlib
import RustyDB.Kv.Snapshot

/-!
# Snapshots that fail

`create_snapshot` can return an error at each of its steps, and the store goes on.  It
clears the WAL handle before it archives the WAL and opens a new one, and a write that
finds no handle reports success without logging anything.

* `CheckpointEvent`, `KVStore.handle` — calls, and snapshots that return an error.
* `CheckpointEvent.logs`, `KVStore.Along` — the events that have something to log, and a
  condition on every event of a run.
* `Track.handle`, `Follows` — what the client can tell of the log, with the queued writes
  that a failed flush drops.
* `logged_writes_recovered` — **while every event that logs finds an open handle, each
  write is appended, and the next `open` rebuilds every key that is not overtaken.**
-/

namespace RustyDB
namespace Kv

open KeyLog

/-! ## Snapshots that return an error -/

/-- A call of the client, or a snapshot that returns an error. -/
inductive CheckpointEvent where
  | call (c : Call)
  /-- What comes after a point fails. -/
  | failed (point : SnapshotPoint)
  /-- The flush of the queue fails after that many records. -/
  | unflushed (logged : Nat)
  deriving DecidableEq, Repr

/-- A flush that fails at a record, of which nothing is written: its sequence number is
used up, and the rest of the queue is dropped. -/
def PersistenceManager.flushUntil (H : KvHost) (pm : PersistenceManager) (logged : Nat) :
    PersistenceManager :=
  let pm' := (pm.pendingOps.take logged).foldl (logOperationSync H) { pm with pendingOps := [] }
  if pm.walFile && logged < pm.pendingOps.length then
    { pm' with nextSequence := pm'.nextSequence + 1 }
  else pm'

namespace KVStore

/-- What an event does to the store. -/
def handle (H : KvHost) (s : KVStore) : CheckpointEvent → KVStore
  | .call c => s.call H c
  | .failed point =>
    { s with persistence := s.persistence.map fun pm =>
        pm.createSnapshotUntil H (pairs s.data) point }
  | .unflushed logged =>
    { s with persistence := s.persistence.map fun pm => pm.flushUntil H logged }

/-- A run, event by event. -/
def handleAll (H : KvHost) (s : KVStore) (events : List CheckpointEvent) : KVStore :=
  events.foldl (handle H) s

/-- A condition on every event of a run, in the store in which it happens. -/
def Along (H : KvHost) (P : KVStore → CheckpointEvent → Prop) :
    KVStore → List CheckpointEvent → Prop
  | _, [] => True
  | s, event :: rest => P s event ∧ Along H P (s.handle H event) rest

end KVStore

/-- The operation of a synchronous write. -/
def Call.operation : Call → Option Operation
  | .set key value => some (.set key value)
  | .delete key => some (.delete key)
  | .clear => some .clear
  | _ => none

/-- Whether an event has anything to log. -/
def CheckpointEvent.logs (pm : PersistenceManager) : CheckpointEvent → Bool
  | .call (.set _ _) => true
  | .call (.delete _) => true
  | .call .clear => true
  | .call (.setMany pairs) => !pairs.isEmpty
  | .call (.setAsync _ _) => false
  | .call .snapshot => !pm.pendingOps.isEmpty
  | .call .flush => !pm.pendingOps.isEmpty
  | .call .backgroundFlush => !pm.pendingOps.isEmpty
  | .failed .entered => false
  | .failed _ => !pm.pendingOps.isEmpty
  | .unflushed _ => !pm.pendingOps.isEmpty

/-- What the event logs goes to an open file. -/
def KVStore.FindsHandle (s : KVStore) (event : CheckpointEvent) : Prop :=
  ∀ pm, s.persistence = some pm → event.logs pm = true → pm.walFile = true

/-- The record of a synchronous write is appended to the WAL. -/
def KVStore.Appends (H : KvHost) (s : KVStore) (event : CheckpointEvent) : Prop :=
  ∀ c op pm, event = .call c → c.operation = some op → s.persistence = some pm →
    ∃ pm', (s.handle H event).persistence = some pm' ∧
      pm'.disk.wal = pm.disk.wal ++ [.record (.new H pm.nextSequence op)]

/-- What an event does to the track: a failed snapshot has logged the queue, a failed
flush only its beginning. -/
def Track.handle (t : Track) : CheckpointEvent → Track
  | .call c => t.call c
  | .failed .entered => t
  | .failed _ => t.drained
  | .unflushed logged =>
    { queue := []
      overtaken := fun k => t.overtaken k || (lastWrite k (t.queue.drop logged)).isSome }

/-- The track of a run. -/
def CheckpointEvent.track (events : List CheckpointEvent) : Track :=
  events.foldl Track.handle {}

/-! ## The invariant -/

/-- The directory of a store is intact, and once the queue is logged it recovers the map
in memory at every key that is not overtaken. -/
structure Follows (H : KvHost) (t : Track) (s : KVStore) : Prop where
  exists_log : ∃ pm m, s.persistence = some pm ∧ pm.disk.Intact H ∧
    pm.disk.recovered H = .ok m ∧ pm.pendingOps = t.queue ∧
    ∀ k, t.overtaken k = false → replay m t.queue k = s.data.lookup k

section Steps

variable {H : KvHost} {t : Track} {s s' : KVStore} {pm : PersistenceManager}

/-- A flush that finds an open file, or nothing to do. -/
theorem flush_logs {m : String → Option String} (hopen : pm.pendingOps ≠ [] → pm.walFile = true)
    (hintact : pm.disk.Intact H) (hm : pm.disk.recovered H = .ok m) :
    (pm.flush H).disk.Intact H ∧ (pm.flush H).disk.recovered H = .ok (replay m pm.pendingOps) ∧
      (pm.flush H).pendingOps = [] := by
  by_cases hqueue : pm.pendingOps = []
  · rw [flush_of_empty hqueue, hqueue]
    exact ⟨hintact, hm, rfl⟩
  · obtain ⟨h1, h2, -, h4⟩ := flush_spec (hopen hqueue) hintact hm
    exact ⟨h1, h2, h4⟩

theorem backgroundFlush_of_empty (h : pm.pendingOps = []) : pm.backgroundFlush H = pm := by
  cases pm
  simp only at h
  subst h
  simp [PersistenceManager.backgroundFlush]

theorem Follows.sync (h : Follows H t s) (op : Operation)
    (hopen : ∀ pm, s.persistence = some pm → pm.walFile = true)
    (hd : s'.data = applyOperation s.data op)
    (hp : s'.persistence = s.persistence.map fun pm => pm.logOperationSync H op) :
    Follows H (t.sync op) s' := by
  obtain ⟨pm, m, hpm, hintact, hm, hq, hk⟩ := h.exists_log
  have hlog : pm.logOperationSync H op = pm.append H op := by
    simp [PersistenceManager.logOperationSync, hopen pm hpm]
  refine ⟨pm.append H op, op.apply m, by rw [hp, hpm, Option.map_some, hlog],
    intact_append hintact op, recovered_append hintact hm op, hq, fun k hovertaken => ?_⟩
  have hold := hk k
  rw [hd, lookup_applyOperation, replay_eq_getD]
  rw [replay_eq_getD] at hold
  simp only [Track.sync, Op.apply] at hovertaken ⊢
  cases hat : op.at k with
  | none =>
    rw [hat] at hovertaken
    simpa using hold hovertaken
  | some x =>
    cases hl : lastWrite k t.queue with
    | none => simp
    | some y =>
      rw [hat] at hovertaken
      simpa [hl] using hovertaken

theorem Follows.async (h : Follows H t s) (key value : String) :
    Follows H (t.async (.set key value)) (s.setAsync key value) := by
  obtain ⟨pm, m, hpm, hintact, hm, hq, hk⟩ := h.exists_log
  refine ⟨pm.logOperationAsync (.set key value), m, ?_, hintact, hm, ?_, fun k hovertaken => ?_⟩
  · simp [KVStore.setAsync, hpm]
  · simp [PersistenceManager.logOperationAsync, Track.async, hq]
  · have hdata : (s.setAsync key value).data = applyOperation s.data (.set key value) := rfl
    rw [hdata, lookup_applyOperation]
    simp only [Track.async, replay_append, replay_cons, replay_nil, Op.apply] at hovertaken ⊢
    cases hat : (Op.set key value).at k with
    | none =>
      rw [hat] at hovertaken
      simpa using hk k (by simpa using hovertaken)
    | some x => simp

theorem Follows.drained (h : Follows H t s)
    (hopen : ∀ pm, s.persistence = some pm → pm.pendingOps ≠ [] → pm.walFile = true)
    (hd : s'.data = s.data) (hp : s'.persistence = s.persistence.map fun pm => pm.flush H) :
    Follows H t.drained s' := by
  obtain ⟨pm, m, hpm, hintact, hm, hq, hk⟩ := h.exists_log
  obtain ⟨h1, h2, h3⟩ := flush_logs (hopen pm hpm) hintact hm
  refine ⟨pm.flush H, replay m pm.pendingOps, by rw [hp, hpm, Option.map_some], h1, h2, h3,
    fun k hovertaken => ?_⟩
  rw [hd, hq]
  exact hk k hovertaken

/-- A snapshot published over the WAL that it contains. -/
theorem Follows.published (h : Follows H t s) (hqueue : t.queue = [])
    (hpm : s.persistence = some pm) {pm' : PersistenceManager}
    (hdisk : pm'.disk = (pm.publishSnapshot H (KVStore.pairs s.data)).disk)
    (hpending : pm'.pendingOps = pm.pendingOps) :
    Follows H t { s with persistence := some pm' } := by
  obtain ⟨pm'', m, hpm'', hintact, hm, hq, hk⟩ := h.exists_log
  obtain rfl : pm = pm'' := Option.some.inj (hpm.symm.trans hpm'')
  have hpublished : pm'.disk.Intact H := by
    rw [hdisk]
    exact ⟨hintact.1, _, rfl⟩
  obtain ⟨before, -, hbefore⟩ := recovered_eq hintact
  obtain ⟨ops, hops, hafter⟩ := recovered_eq hpublished
  obtain rfl : (KVStore.pairs s.data).map (fun e => Op.set e.1 e.2) = ops := by
    rw [hdisk] at hops
    exact Except.ok.inj hops
  refine ⟨pm', _, rfl, hpublished, hafter, hpending.trans hq, fun k hovertaken => ?_⟩
  have hold := hk k hovertaken
  have hm' : m = replay (replay (fun _ => none) before) (walOperations H pm.disk.wal) :=
    Except.ok.inj (hm.symm.trans hbefore)
  have hwal : pm'.disk.wal = pm.disk.wal := by rw [hdisk]; rfl
  -- where the WAL writes, both replays end with its last write
  rw [hqueue, replay_nil, hm', replay_eq_getD] at hold
  rw [hqueue, replay_nil, hwal, replay_pairs, replay_eq_getD]
  cases hlast : lastWrite k (walOperations H pm.disk.wal) with
  | none => rfl
  | some y => rwa [hlast] at hold

/-- A snapshot that has archived the WAL. -/
theorem follows_archived (s : KVStore) {pm' : PersistenceManager}
    (hdisk : pm'.disk = (pm.createSnapshot H (KVStore.pairs s.data)).disk)
    (hpending : pm'.pendingOps = []) (t : Track) (ht : t.queue = []) :
    Follows H t { s with persistence := some pm' } := by
  obtain ⟨h1, h2⟩ := recovered_snapshot H pm s.data
  rw [← hdisk] at h1 h2
  refine ⟨pm', _, rfl, h1, h2, hpending.trans ht.symm, fun k _ => ?_⟩
  rw [ht, replay_nil]

/-- A synchronous write leaves the handle as it is. -/
theorem walFile_set (hopen : ∀ pm, s.persistence = some pm → pm.walFile = true)
    (key value : String) : ∀ pm, (s.set H key value).persistence = some pm →
      pm.walFile = true := by
  intro pm' hpm'
  obtain ⟨pm, hpm, rfl⟩ := Option.map_eq_some_iff.mp hpm'
  simp [PersistenceManager.logOperationSync, hopen pm hpm, PersistenceManager.append]

theorem Follows.setMany (h : Follows H t s) {pairs : List (String × String)}
    (hopen : pairs ≠ [] → ∀ pm, s.persistence = some pm → pm.walFile = true) :
    Follows H (t.call (.setMany pairs)) (s.call H (.setMany pairs)) := by
  change Follows H (pairs.foldl (fun t p => t.sync (.set p.1 p.2)) t)
    (pairs.foldl (fun s p => s.set H p.1 p.2) s)
  induction pairs generalizing t s with
  | nil => exact h
  | cons p ps ih =>
    have hfirst := hopen (by simp)
    exact ih (h.sync (.set p.1 p.2) hfirst rfl rfl) fun _ => walFile_set hfirst p.1 p.2

/-- **A call** that finds an open file where it logs. -/
theorem Follows.call (h : Follows H t s) {c : Call} (hopen : s.FindsHandle (.call c)) :
    Follows H (t.call c) (s.call H c) := by
  have hflush : (∀ pm, (CheckpointEvent.call c).logs pm = !pm.pendingOps.isEmpty) →
      ∀ pm, s.persistence = some pm → pm.pendingOps ≠ [] → pm.walFile = true := by
    intro hlogs pm hpm hqueue
    exact hopen pm hpm (by rw [hlogs]; simpa using hqueue)
  cases c with
  | set key value => exact h.sync (.set key value) (fun pm hpm => hopen pm hpm rfl) rfl rfl
  | setAsync key value => exact h.async key value
  | setMany pairs =>
    refine h.setMany fun hpairs pm hpm => hopen pm hpm ?_
    simpa [CheckpointEvent.logs] using hpairs
  | delete key => exact h.sync (.delete key) (fun pm hpm => hopen pm hpm rfl) rfl rfl
  | clear => exact h.sync .clear (fun pm hpm => hopen pm hpm rfl) rfl rfl
  | snapshot =>
    obtain ⟨pm, m, hpm, hintact, hm, -, -⟩ := h.exists_log
    have hempty := (flush_logs (hflush (fun _ => rfl) pm hpm) hintact hm).2.2
    have hsnapshot : s.call H .snapshot =
        { s with persistence := some (pm.createSnapshot H (KVStore.pairs s.data)) } := by
      simp [KVStore.call, KVStore.snapshot, hpm]
    rw [hsnapshot]
    exact follows_archived s rfl hempty {} rfl
  | flush => exact h.drained (hflush fun _ => rfl) rfl rfl
  | backgroundFlush =>
    refine h.drained (hflush fun _ => rfl) rfl ?_
    obtain ⟨pm, -, hpm, -⟩ := h.exists_log
    have hsame : pm.backgroundFlush H = pm.flush H := by
      by_cases hqueue : pm.pendingOps = []
      · rw [flush_of_empty hqueue, backgroundFlush_of_empty hqueue]
      · exact backgroundFlush_eq_flush (hflush (fun _ => rfl) pm hpm hqueue)
    simp [KVStore.call, KVStore.backgroundFlush, hpm, hsame]

/-- **A snapshot that fails** after one of its points. -/
theorem Follows.failed (h : Follows H t s) {point : SnapshotPoint}
    (hopen : s.FindsHandle (.failed point)) :
    Follows H (t.handle (.failed point)) (s.handle H (.failed point)) := by
  obtain ⟨pm, m, hpm, hintact, hm, hq, hk⟩ := h.exists_log
  by_cases hentered : point = .entered
  · subst hentered
    have hsame : s.handle H (.failed .entered) = s := by
      simp only [KVStore.handle, hpm, Option.map_some, PersistenceManager.createSnapshotUntil]
      rw [← hpm]
    rw [hsame]
    exact h
  · have hlogs : ∀ pm, (CheckpointEvent.failed point).logs pm = !pm.pendingOps.isEmpty := by
      cases point with
      | entered => exact absurd rfl hentered
      | _ => exact fun _ => rfl
    have htrack : t.handle (.failed point) = t.drained := by
      cases point with
      | entered => exact absurd rfl hentered
      | _ => rfl
    have hflush : ∀ pm, s.persistence = some pm → pm.pendingOps ≠ [] → pm.walFile = true := by
      intro pm hpm hqueue
      exact hopen pm hpm (by rw [hlogs]; simpa using hqueue)
    have hempty := (flush_logs (hflush pm hpm) hintact hm).2.2
    have hflushed : Follows H t.drained { s with persistence := some (pm.flush H) } :=
      h.drained hflush rfl (by rw [hpm, Option.map_some])
    have hhandle : s.handle H (.failed point) =
        ⟨s.data, some (pm.createSnapshotUntil H (KVStore.pairs s.data) point)⟩ := by
      simp only [KVStore.handle, hpm, Option.map_some]
    rw [htrack, hhandle]
    cases point with
    | entered => exact absurd rfl hentered
    | flushed => exact hflushed
    | renamed => exact hflushed.published rfl rfl rfl rfl
    | closed => exact hflushed.published rfl rfl rfl rfl
    | archived =>
      exact @follows_archived H pm s (pm.createSnapshotUntil H _ .archived) rfl hempty t.drained rfl
    | reopened =>
      exact @follows_archived H pm s (pm.createSnapshotUntil H _ .reopened) rfl hempty t.drained rfl

theorem flushUntil_eq (H : KvHost) (pm : PersistenceManager) (logged : Nat) :
    (pm.flushUntil H logged).disk = ((pm.pendingOps.take logged).foldl
        (PersistenceManager.logOperationSync H) { pm with pendingOps := [] }).disk ∧
      (pm.flushUntil H logged).pendingOps = ((pm.pendingOps.take logged).foldl
        (PersistenceManager.logOperationSync H) { pm with pendingOps := [] }).pendingOps := by
  unfold PersistenceManager.flushUntil
  split <;> exact ⟨rfl, rfl⟩

/-- **A flush that fails** drops the rest of the queue. -/
theorem Follows.unflushed (h : Follows H t s) {logged : Nat}
    (hopen : s.FindsHandle (.unflushed logged)) :
    Follows H (t.handle (.unflushed logged)) (s.handle H (.unflushed logged)) := by
  obtain ⟨pm, m, hpm, hintact, hm, hq, hk⟩ := h.exists_log
  obtain ⟨hintact', hm', hqueue'⟩ : (pm.flushUntil H logged).disk.Intact H ∧
      (pm.flushUntil H logged).disk.recovered H = .ok (replay m (t.queue.take logged)) ∧
      (pm.flushUntil H logged).pendingOps = [] := by
    rw [(flushUntil_eq H pm logged).1, (flushUntil_eq H pm logged).2, ← hq]
    by_cases hqueue : pm.pendingOps = []
    · rw [hqueue, List.take_nil]
      exact ⟨hintact, hm, rfl⟩
    · have hwal := hopen pm hpm (by simpa [CheckpointEvent.logs] using hqueue)
      rw [foldl_logOperationSync _ (by exact hwal)]
      obtain ⟨h1, h2, -, h4⟩ := foldl_append_spec (pm.pendingOps.take logged)
        { pm with pendingOps := [] } hintact hm
      exact ⟨h1, h2, h4⟩
  refine ⟨pm.flushUntil H logged, _, by simp only [KVStore.handle, hpm, Option.map_some],
    hintact', hm', hqueue', fun k hovertaken => ?_⟩
  simp only [Track.handle, Bool.or_eq_false_iff, Option.isSome_eq_false_iff,
    Option.isNone_iff_eq_none] at hovertaken
  have hold := hk k hovertaken.1
  rw [← List.take_append_drop logged t.queue, replay_append, replay_eq_getD, hovertaken.2] at hold
  exact hold

theorem Follows.handle (h : Follows H t s) {event : CheckpointEvent} (hopen : s.FindsHandle event) :
    Follows H (t.handle event) (s.handle H event) := by
  cases event with
  | call c => exact h.call hopen
  | failed point => exact h.failed hopen
  | unflushed logged => exact h.unflushed hopen

/-- A synchronous write that finds an open file is appended. -/
theorem appends_of_findsHandle {event : CheckpointEvent} (hopen : s.FindsHandle event) :
    s.Appends H event := by
  rintro c op pm rfl hop hpm
  refine ⟨pm.append H op, ?_, rfl⟩
  have hlog : ∀ op, pm.walFile = true → pm.logOperationSync H op = pm.append H op := by
    intro op hwal
    simp [PersistenceManager.logOperationSync, hwal]
  cases c with
  | set key value =>
    obtain rfl : Op.set key value = op := Option.some.inj hop
    simp [KVStore.handle, KVStore.call, KVStore.set, hpm, hlog _ (hopen pm hpm rfl)]
  | delete key =>
    obtain rfl : Op.delete key = op := Option.some.inj hop
    simp [KVStore.handle, KVStore.call, KVStore.delete, hpm, hlog _ (hopen pm hpm rfl)]
  | clear =>
    obtain rfl : Op.clear = op := Option.some.inj hop
    simp [KVStore.handle, KVStore.call, KVStore.clear, hpm, hlog _ (hopen pm hpm rfl)]
  | setAsync _ _ => cases hop
  | setMany _ => cases hop
  | snapshot => cases hop
  | flush => cases hop
  | backgroundFlush => cases hop

/-- **A run** in which every event that logs finds an open file. -/
theorem Follows.handleAll (h : Follows H t s) {events : List CheckpointEvent}
    (hopen : s.Along H KVStore.FindsHandle events) :
    Follows H (events.foldl Track.handle t) (s.handleAll H events) := by
  induction events generalizing t s with
  | nil => exact h
  | cons event events ih => exact ih (h.handle hopen.1) hopen.2

theorem along_appends {events : List CheckpointEvent}
    (hopen : s.Along H KVStore.FindsHandle events) : s.Along H (KVStore.Appends H) events := by
  induction events generalizing s with
  | nil => exact trivial
  | cons event events ih => exact ⟨appends_of_findsHandle hopen.1, ih hopen.2⟩

end Steps

theorem follows_openDir {H : KvHost} {disk : Disk} {s : KVStore} (hintact : disk.Intact H)
    (hopen : KVStore.openDir H disk = .ok s) : Follows H {} s := by
  obtain ⟨pm, m, hlive, hm, hq, hk⟩ := (tracks_openDir hintact hopen).exists_live
  refine ⟨pm, m, hlive.persistence, hlive.intact, hm, hq, fun k hovertaken => ?_⟩
  have hagree := hk k
  by_contra hne
  rw [hagree.mpr hne] at hovertaken
  cases hovertaken

/-- **Logged writes are recovered.**  On a store opened on an intact directory, in every
run of calls and failed snapshots in which each event that has something to log finds an
open file: every synchronous write is appended to the WAL, and the next `open` rebuilds
the value of every key that has no write in the queue and is not overtaken. -/
theorem logged_writes_recovered {H : KvHost} {disk : Disk} {s : KVStore}
    {events : List CheckpointEvent} (hintact : disk.Intact H)
    (hopen : KVStore.openDir H disk = .ok s)
    (hhandle : s.Along H KVStore.FindsHandle events) :
    s.Along H (KVStore.Appends H) events ∧
      ∃ pm s', (s.handleAll H events).persistence = some pm ∧
        KVStore.openDir H pm.disk = .ok s' ∧
        ∀ k, (CheckpointEvent.track events).overtaken k = false →
          lastWrite k pm.pendingOps = none →
          s'.data.lookup k = (s.handleAll H events).data.lookup k := by
  refine ⟨along_appends hhandle, ?_⟩
  obtain ⟨pm, m, hpm, -, hm, hq, hk⟩ :=
    ((follows_openDir hintact hopen).handleAll hhandle).exists_log
  obtain ⟨s', hs', hlook⟩ := openDir_eq_ok hm
  refine ⟨pm, s', hpm, hs', fun k hovertaken hqueue => ?_⟩
  have hsame := hk k hovertaken
  rw [← hq, replay_eq_getD, hqueue, Option.getD_none] at hsame
  rw [hlook, hsame]

end Kv
end RustyDB
