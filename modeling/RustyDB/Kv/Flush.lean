import Mathlib
import RustyDB.Kv.Store

/-!
# What a flushed store recovers

A client mixes synchronous writes, which reach the WAL at once, with
asynchronous ones, which wait in a queue.  The map in memory follows the order
of the calls; the WAL follows the order in which records reach it, and a queued
write is logged after every synchronous write made while it waited.

* `Disk.recovered` — the map that reopening the directory rebuilds, with
  `recovered_append` and `recovered_snapshot` saying what a record and a
  snapshot do to it.
* `Call`, `KVStore.call`, `KVStore.run` — the calls of one client, with rounds
  of the background thread anywhere between them.
* `Track` — what the client can tell from its own calls: the writes still
  queued, and the keys at which a queued write has been overtaken.
* `recovers_iff` — **after a final flush, reopening rebuilds the map in memory
  exactly when no key is overtaken.**
-/

namespace RustyDB
namespace Kv

open KeyLog

/-! ## Maps and operations -/

theorem lookup_applyOperation (data : Data) (op : Operation) (k : String) :
    (applyOperation data op).lookup k = op.apply (fun k => data.lookup k) k := by
  cases op with
  | set key value =>
    by_cases h : key = k
    · subst h; simp [applyOperation, Op.apply, Op.at]
    · simp [applyOperation, Op.apply, Op.at, h, AList.lookup_insert_ne (Ne.symm h)]
  | delete key =>
    by_cases h : key = k
    · subst h; simp [applyOperation, Op.apply, Op.at]
    · simp [applyOperation, Op.apply, Op.at, h, AList.lookup_erase_ne (Ne.symm h)]
  | clear => simp [applyOperation, Op.apply, Op.at]

theorem lookup_foldl_applyOperation (data : Data) (ops : List Operation) :
    (fun k => (ops.foldl applyOperation data).lookup k) = replay (fun k => data.lookup k) ops := by
  induction ops generalizing data with
  | nil => rfl
  | cons op ops ih =>
    rw [List.foldl_cons, ih, replay_cons]
    congr 1
    funext k
    exact lookup_applyOperation data op k

/-- Writing out every pair of a map rebuilds the map. -/
theorem replay_pairs (data : Data) :
    replay (fun _ => none) ((KVStore.pairs data).map fun e => Op.set e.1 e.2)
      = fun k => data.lookup k := by
  obtain ⟨entries, hnd⟩ := data
  funext k
  rw [replay_eq_getD]
  show (lastWrite k _).getD none = List.dlookup k entries
  induction entries with
  | nil => rfl
  | cons e es ih =>
    have hnd' := List.nodupKeys_cons.mp hnd
    simp only [KVStore.pairs, List.map_cons, List.map_map, lastWrite_cons] at ih ⊢
    have hes := ih hnd'.2
    by_cases hk : e.1 = k
    · -- the remaining entries do not mention this key, so the head decides
      have hnone : lastWrite k (es.map ((fun e : String × String => Op.set e.1 e.2) ∘
          fun e => (e.1, e.2))) = none := by
        have hmem : ∀ e' ∈ es, e'.1 ≠ k := by
          intro e' he' h
          exact hnd'.1 (by rw [hk, ← h]; exact List.mem_keys_of_mem he')
        clear ih hes hnd hnd'
        induction es with
        | nil => rfl
        | cons e' es ih' =>
          have h1 : e'.1 ≠ k := hmem e' (by simp)
          simp [lastWrite_cons, ih' (fun x hx => hmem x (List.mem_cons_of_mem _ hx)), Op.at, h1]
      obtain ⟨key, value⟩ := e
      subst hk
      simp [hnone, Op.at]
    · rw [List.dlookup_cons_ne _ _ (Ne.symm hk), ← hes]
      simp [Op.at, hk]

/-! ## What a directory recovers to -/

/-- The operations `recover` reads, in order. -/
def Disk.operations (H : KvHost) (disk : Disk) : Except String (List Operation) :=
  (PersistenceManager.new H disk).recover H

/-- The map reopening a directory rebuilds. -/
def Disk.recovered (H : KvHost) (disk : Disk) : Except String (String → Option String) :=
  (disk.operations H).map (replay fun _ => none)

/-- No record of the WAL has a wrong checksum, and the snapshot can be read. -/
def Disk.Intact (H : KvHost) (disk : Disk) : Prop :=
  (∀ r, .record r ∈ disk.wal → r.valid H = true) ∧
    ∃ ops, snapshotOperations disk.snapshot = .ok ops

/-- `s` is a store on an intact directory with its WAL file open. -/
structure KVStore.Live (H : KvHost) (s : KVStore) (pm : PersistenceManager) : Prop where
  persistence : s.persistence = some pm
  walFile : pm.walFile = true
  intact : pm.disk.Intact H

theorem walOperations_append {H : KvHost} {ls ls' : List WalLine}
    (h : ∀ r, .record r ∈ ls → r.valid H = true) :
    walOperations H (ls ++ ls') = walOperations H ls ++ walOperations H ls' := by
  induction ls with
  | nil => rfl
  | cons l ls ih =>
    have hls := ih (fun r hr => h r (List.mem_cons_of_mem _ hr))
    cases l with
    | blank => simpa [walOperations] using hls
    | record r => simp [walOperations, h r (by simp), hls]
    | operation op => simp [walOperations, hls]
    | unreadable => simpa [walOperations] using hls

theorem intact_append {H : KvHost} {pm : PersistenceManager} (h : pm.disk.Intact H)
    (op : Operation) : (pm.append H op).disk.Intact H := by
  refine ⟨?_, h.2⟩
  intro r hr
  rcases List.mem_append.mp hr with hr | hr
  · exact h.1 r hr
  · cases List.mem_singleton.mp hr
    exact KvWalRecord.valid_new H _ _

/-- The map an intact directory rebuilds. -/
theorem recovered_eq {H : KvHost} {disk : Disk} (h : disk.Intact H) :
    ∃ ops, snapshotOperations disk.snapshot = .ok ops ∧
      disk.recovered H = .ok (replay (replay (fun _ => none) ops) (walOperations H disk.wal)) := by
  obtain ⟨ops, hops⟩ := h.2
  refine ⟨ops, hops, ?_⟩
  simp [Disk.recovered, Disk.operations, PersistenceManager.recover, PersistenceManager.new, hops,
    Except.map, replay_append, bind, Except.bind, pure, Except.pure]

/-- A record appended to an intact WAL is replayed last. -/
theorem recovered_append {H : KvHost} {pm : PersistenceManager} {m : String → Option String}
    (h : pm.disk.Intact H) (hm : pm.disk.recovered H = .ok m) (op : Operation) :
    (pm.append H op).disk.recovered H = .ok (op.apply m) := by
  obtain ⟨ops, hops, hrec⟩ := recovered_eq h
  obtain ⟨ops', hops', hrec'⟩ := recovered_eq (intact_append h op)
  have hsame : ops' = ops := by
    have : Except.ok ops' = Except.ok (ε := String) ops := by rw [← hops', ← hops]; rfl
    exact Except.ok.inj this
  have hm' := Except.ok.inj (hm.symm.trans hrec)
  rw [hrec', hsame, hm']
  simp only [PersistenceManager.append]
  rw [walOperations_append h.1, replay_append]
  have hop : (KvWalRecord.new H pm.nextSequence op).operation = op := rfl
  simp [walOperations, hop]

/-- Appending a list of operations replays them all, in order. -/
theorem foldl_append_spec {H : KvHost} (ops : List Operation) (pm : PersistenceManager)
    {m : String → Option String} (h : pm.disk.Intact H) (hm : pm.disk.recovered H = .ok m) :
    (ops.foldl (PersistenceManager.append H) pm).disk.Intact H ∧
      (ops.foldl (PersistenceManager.append H) pm).disk.recovered H = .ok (replay m ops) ∧
      (ops.foldl (PersistenceManager.append H) pm).walFile = pm.walFile ∧
      (ops.foldl (PersistenceManager.append H) pm).pendingOps = pm.pendingOps := by
  induction ops generalizing pm m with
  | nil => exact ⟨h, hm, rfl, rfl⟩
  | cons op ops ih => exact ih (pm.append H op) (intact_append h op) (recovered_append h hm op)

theorem foldl_logOperationSync {H : KvHost} (ops : List Operation) {pm : PersistenceManager}
    (h : pm.walFile = true) :
    ops.foldl (PersistenceManager.logOperationSync H) pm
      = ops.foldl (PersistenceManager.append H) pm := by
  induction ops generalizing pm with
  | nil => rfl
  | cons op ops ih =>
    have hstep : pm.logOperationSync H op = pm.append H op := by
      simp [PersistenceManager.logOperationSync, h]
    rw [List.foldl_cons, List.foldl_cons, hstep]
    exact ih h

/-- With the WAL open a round of the background thread does what `flush` does. -/
theorem backgroundFlush_eq_flush {H : KvHost} {pm : PersistenceManager} (h : pm.walFile = true) :
    pm.backgroundFlush H = pm.flush H := by
  rw [PersistenceManager.flush, foldl_logOperationSync _ (by exact h)]
  simp [PersistenceManager.backgroundFlush, h]

/-- **A flush logs the queue.**  What is recovered afterwards is what was
recovered before, with the queued writes made on top. -/
theorem flush_spec {H : KvHost} {pm : PersistenceManager} {m : String → Option String}
    (hw : pm.walFile = true) (h : pm.disk.Intact H) (hm : pm.disk.recovered H = .ok m) :
    (pm.flush H).disk.Intact H ∧ (pm.flush H).disk.recovered H = .ok (replay m pm.pendingOps) ∧
      (pm.flush H).walFile = true ∧ (pm.flush H).pendingOps = [] := by
  rw [PersistenceManager.flush, foldl_logOperationSync _ (by exact hw)]
  obtain ⟨h1, h2, h3, h4⟩ := foldl_append_spec pm.pendingOps { pm with pendingOps := [] } h hm
  exact ⟨h1, h2, h3.trans hw, h4⟩

/-- **A snapshot recovers to the map it copies**, whatever was in the WAL. -/
theorem recovered_snapshot (H : KvHost) (pm : PersistenceManager) (data : Data) :
    (pm.createSnapshot H (KVStore.pairs data)).disk.Intact H ∧
      (pm.createSnapshot H (KVStore.pairs data)).disk.recovered H
        = .ok (fun k => data.lookup k) := by
  have hint : (pm.createSnapshot H (KVStore.pairs data)).disk.Intact H :=
    ⟨fun r hr => absurd hr (by simp [PersistenceManager.createSnapshot]), _, rfl⟩
  refine ⟨hint, ?_⟩
  obtain ⟨ops, hops, hrec⟩ := recovered_eq hint
  have : ops = (KVStore.pairs data).map fun e => Op.set e.1 e.2 := (Except.ok.inj hops).symm
  rw [hrec, this, replay_pairs]
  rfl

/-! ## The calls of one client -/

/-- A call of the client, or a round of the background thread between two calls. -/
inductive Call where
  | set (key value : String)
  | setAsync (key value : String)
  | setMany (pairs : List (String × String))
  | delete (key : String)
  | clear
  | snapshot
  | flush
  | backgroundFlush
  deriving DecidableEq, Repr

/-- What a call does to the store. -/
def KVStore.call (H : KvHost) (s : KVStore) : Call → KVStore
  | .set key value => s.set H key value
  | .setAsync key value => s.setAsync key value
  | .setMany pairs => (s.setMany H pairs).2
  | .delete key => (s.delete H key).2
  | .clear => s.clear H
  | .snapshot => s.snapshot H
  | .flush => s.flush H
  | .backgroundFlush => s.backgroundFlush H

/-- A sequence of calls. -/
def KVStore.run (H : KvHost) (s : KVStore) (calls : List Call) : KVStore :=
  calls.foldl (KVStore.call H) s

/-- Reopening the directory of `s` succeeds and rebuilds the map `s` has in
memory. -/
def KVStore.Recovers (H : KvHost) (s : KVStore) : Prop :=
  ∃ pm s', s.persistence = some pm ∧ KVStore.openDir H pm.disk = .ok s' ∧
    ∀ k, s'.data.lookup k = s.data.lookup k

/-- What the client's own calls say about the log: the asynchronous writes still
queued, and the keys whose last write the log will not show. -/
structure Track where
  /-- The queued writes, oldest first. -/
  queue : List Operation := []
  /-- A key is overtaken when its last write was synchronous and a different
  write to it was queued at that moment. -/
  overtaken : String → Bool := fun _ => false

namespace Track

/-- A synchronous write: at every key it touches, the queued writes will be
logged behind it. -/
def sync (t : Track) (op : Operation) : Track :=
  { t with
    overtaken := fun k =>
      match op.at k with
      | none => t.overtaken k
      | some x => decide (∃ y, lastWrite k t.queue = some y ∧ y ≠ x) }

/-- A queued write is the last one at its key, in memory and in the log. -/
def async (t : Track) (op : Operation) : Track where
  queue := t.queue ++ [op]
  overtaken := fun k => (op.at k).isNone && t.overtaken k

/-- The queue has been logged. -/
def drained (t : Track) : Track := { t with queue := [] }

/-- One call. -/
def call (t : Track) : Call → Track
  | .set key value => t.sync (.set key value)
  | .setAsync key value => t.async (.set key value)
  | .setMany pairs => pairs.foldl (fun t p => t.sync (.set p.1 p.2)) t
  | .delete key => t.sync (.delete key)
  | .clear => t.sync .clear
  | .snapshot => {}
  | .flush => t.drained
  | .backgroundFlush => t.drained

end Track

/-- The track of a sequence of calls. -/
def Call.track (calls : List Call) : Track := calls.foldl Track.call {}

/-- The track of a client describes its store: the queue is the store's queue,
and the overtaken keys are those where the log, once the queue has reached it,
disagrees with the map in memory. -/
structure Tracks (H : KvHost) (t : Track) (s : KVStore) : Prop where
  exists_live : ∃ pm m, s.Live H pm ∧ pm.disk.recovered H = .ok m ∧ pm.pendingOps = t.queue ∧
    ∀ k, t.overtaken k = true ↔ replay m t.queue k ≠ s.data.lookup k

/-- A synchronous write to the store, whichever of the calls makes it. -/
theorem Tracks.sync {H : KvHost} {t : Track} {s s' : KVStore}
    (h : Tracks H t s) (op : Operation) (hd : s'.data = applyOperation s.data op)
    (hp : s'.persistence = s.persistence.map fun pm => pm.logOperationSync H op) :
    Tracks H (t.sync op) s' := by
  obtain ⟨pm, m, hlive, hm, hq, ho⟩ := h.exists_live
  have hlog : pm.logOperationSync H op = pm.append H op := by
    simp [PersistenceManager.logOperationSync, hlive.walFile]
  refine ⟨pm.append H op, op.apply m, ⟨?_, hlive.walFile, intact_append hlive.intact op⟩,
    recovered_append hlive.intact hm op, hq, ?_⟩
  · rw [hp, hlive.persistence, Option.map_some, hlog]
  · intro k
    have hold := ho k
    rw [hd, lookup_applyOperation, replay_eq_getD]
    rw [replay_eq_getD] at hold
    simp only [Track.sync, Op.apply]
    cases hat : op.at k with
    | none => simpa using hold
    | some x =>
      cases hl : lastWrite k t.queue with
      | none => simp
      | some y => simp

/-- An asynchronous write. -/
theorem Tracks.async {H : KvHost} {t : Track} {s : KVStore} (key value : String)
    (h : Tracks H t s) : Tracks H (t.async (.set key value)) (s.setAsync key value) := by
  obtain ⟨pm, m, hlive, hm, hq, ho⟩ := h.exists_live
  refine ⟨pm.logOperationAsync (.set key value), m, ⟨?_, hlive.walFile, hlive.intact⟩, hm, ?_, ?_⟩
  · simp [KVStore.setAsync, hlive.persistence]
  · simp [PersistenceManager.logOperationAsync, Track.async, hq]
  · intro k
    have hdata : (s.setAsync key value).data = applyOperation s.data (.set key value) := rfl
    rw [hdata, lookup_applyOperation]
    simp only [Track.async, replay_append, replay_cons, replay_nil, Op.apply]
    cases hat : (Op.set key value).at k with
    | none => simpa using ho k
    | some x => simp

/-- Logging the queue changes neither the map nor what will be recovered. -/
theorem Tracks.drained {H : KvHost} {t : Track} {s s' : KVStore} (h : Tracks H t s)
    (hd : s'.data = s.data) (hp : s'.persistence = s.persistence.map fun pm => pm.flush H) :
    Tracks H t.drained s' := by
  obtain ⟨pm, m, hlive, hm, hq, ho⟩ := h.exists_live
  obtain ⟨h1, h2, h3, h4⟩ := flush_spec hlive.walFile hlive.intact hm
  refine ⟨pm.flush H, replay m pm.pendingOps, ⟨?_, h3, h1⟩, h2, h4, ?_⟩
  · rw [hp, hlive.persistence, Option.map_some]
  · intro k
    rw [hd, hq]
    exact ho k

/-- A snapshot starts the log over from the map in memory. -/
theorem Tracks.snapshot {H : KvHost} {t : Track} {s : KVStore} (h : Tracks H t s) :
    Tracks H {} (s.snapshot H) := by
  obtain ⟨pm, m, hlive, hm, hq, ho⟩ := h.exists_live
  obtain ⟨h1, h2⟩ := recovered_snapshot H pm s.data
  have h4 := (flush_spec hlive.walFile hlive.intact hm).2.2.2
  refine ⟨pm.createSnapshot H (KVStore.pairs s.data), _, ⟨?_, rfl, h1⟩, h2, h4, ?_⟩
  · simp [KVStore.snapshot, hlive.persistence]
  · intro k
    simp [KVStore.snapshot]

/-- **One call keeps the track true.** -/
theorem Tracks.call {H : KvHost} {t : Track} {s : KVStore} (h : Tracks H t s) (c : Call) :
    Tracks H (t.call c) (s.call H c) := by
  cases c with
  | set key value => exact h.sync (.set key value) rfl rfl
  | setAsync key value => exact h.async key value
  | setMany pairs =>
    -- one synchronous write after another
    have key : ∀ (t : Track) (s : KVStore), Tracks H t s →
        Tracks H (pairs.foldl (fun t p => t.sync (.set p.1 p.2)) t)
          (pairs.foldl (fun s p => s.set H p.1 p.2) s) := by
      induction pairs with
      | nil => intro t s h; exact h
      | cons p ps ih =>
        intro t s h
        exact ih _ _ (h.sync (.set p.1 p.2) rfl rfl)
    exact key t s h
  | delete key => exact h.sync (.delete key) rfl rfl
  | clear => exact h.sync .clear rfl rfl
  | snapshot => exact h.snapshot
  | flush => exact h.drained rfl rfl
  | backgroundFlush =>
    refine h.drained rfl ?_
    obtain ⟨pm, m, hlive, -⟩ := h.exists_live
    simp [KVStore.call, KVStore.backgroundFlush, hlive.persistence,
      backgroundFlush_eq_flush hlive.walFile]

theorem Tracks.run {H : KvHost} {t : Track} {s : KVStore} (h : Tracks H t s) (calls : List Call) :
    Tracks H (calls.foldl Track.call t) (s.run H calls) := by
  induction calls generalizing t s with
  | nil => exact h
  | cons c calls ih => exact ih (h.call c)

/-- A store that has just been opened on an intact directory. -/
theorem tracks_openDir {H : KvHost} {disk : Disk} {s : KVStore} (hi : disk.Intact H)
    (ho : KVStore.openDir H disk = .ok s) : Tracks H {} s := by
  obtain ⟨ops, hops, hrec⟩ := recovered_eq hi
  refine ⟨PersistenceManager.new H disk, _, ⟨?_, rfl, hi⟩, hrec, rfl, ?_⟩
  · cases hr : (PersistenceManager.new H disk).recover H with
    | error e => simp [KVStore.openDir, hr, bind, Except.bind] at ho
    | ok l =>
      simp only [KVStore.openDir, hr, bind, Except.bind, pure, Except.pure, Except.ok.injEq] at ho
      rw [← ho]
  · intro k
    have hdata : (fun k => s.data.lookup k)
        = replay (replay (fun _ => none) ops) (walOperations H disk.wal) := by
      have hr : (PersistenceManager.new H disk).recover H
          = .ok (ops ++ walOperations H disk.wal) := by
        simp [PersistenceManager.recover, PersistenceManager.new, hops, bind, Except.bind, pure,
          Except.pure]
      simp only [KVStore.openDir, hr, bind, Except.bind, pure, Except.pure, Except.ok.injEq] at ho
      rw [← ho, ← replay_append]
      exact lookup_foldl_applyOperation ∅ _
    simp [← hdata]

/-- Opening a directory and reading its operations give the same map. -/
theorem openDir_eq_ok {H : KvHost} {disk : Disk} {m : String → Option String}
    (h : disk.recovered H = .ok m) :
    ∃ s, KVStore.openDir H disk = .ok s ∧ ∀ k, s.data.lookup k = m k := by
  cases hr : (PersistenceManager.new H disk).recover H with
  | error e => simp [Disk.recovered, Disk.operations, hr, Except.map] at h
  | ok ops =>
    simp only [Disk.recovered, Disk.operations, hr, Except.map, Except.ok.injEq] at h
    refine ⟨{ data := ops.foldl applyOperation ∅, persistence := some (.new H disk) }, ?_, ?_⟩
    · simp [KVStore.openDir, hr, bind, Except.bind, pure, Except.pure]
    · intro k
      rw [← h]
      exact congrFun (lookup_foldl_applyOperation ∅ ops) k

/-- A flush of a tracked store leaves a directory that recovers the map in
memory exactly when no key is overtaken. -/
theorem Tracks.flush_recovers_iff {H : KvHost} {t : Track} {s : KVStore} (h : Tracks H t s) :
    (s.flush H).Recovers H ↔ ∀ k, t.overtaken k = false := by
  obtain ⟨pm, m, hlive, hm, -, hk⟩ := (h.call .flush).exists_live
  obtain ⟨s', hs', hlook⟩ := openDir_eq_ok hm
  have hagree : ∀ k, t.overtaken k = false ↔
      s'.data.lookup k = (s.flush H).data.lookup k := by
    intro k
    have h := hk k
    simp only [Track.call, Track.drained, replay_nil, ← hlook k, KVStore.call] at h
    rw [← Bool.not_eq_true, h, not_not]
  constructor
  · rintro ⟨pm', s'', hp, hs'', hall⟩ k
    have hpm : pm' = pm := Option.some.inj (hp.symm.trans hlive.persistence)
    have : s'' = s' := by
      rw [hpm, hs'] at hs''
      exact (Except.ok.inj hs'').symm
    rw [hagree k, ← this]
    exact hall k
  · intro hall
    exact ⟨pm, s', hlive.persistence, hs', fun k => (hagree k).mp (hall k)⟩

/-- **What a flushed store recovers.**  After any calls on a store opened on an
intact directory, ending with `flush`, reopening the directory rebuilds exactly
the map in memory if and only if no key is overtaken: at no key was the last
write synchronous while a different write to it was still queued. -/
theorem recovers_iff (H : KvHost) (disk : Disk) (s : KVStore) (calls : List Call)
    (hi : disk.Intact H) (ho : KVStore.openDir H disk = .ok s) :
    (s.run H (calls ++ [.flush])).Recovers H ↔
      ∀ k, (Call.track calls).overtaken k = false := by
  have hrun : s.run H (calls ++ [.flush]) = (s.run H calls).flush H := by
    simp [KVStore.run, KVStore.call]
  rw [hrun]
  exact ((tracks_openDir hi ho).run calls).flush_recovers_iff

/-- A host whose checksum and clock are constant. -/
def constHost : KvHost := ⟨fun _ _ _ => 0, fun _ => 0⟩

/-- The store `open` returns on an empty directory. -/
def freshStore : KVStore := { persistence := some (.new constHost {}) }

theorem intact_empty : Disk.Intact constHost {} := ⟨by simp, [], rfl⟩

theorem openDir_empty : KVStore.openDir constHost {} = .ok freshStore := rfl

/-- Writes to different keys never overtake each other. -/
theorem recovers_distinct_keys :
    (freshStore.run constHost ([.setAsync "a" "1", .set "b" "2"] ++ [.flush])).Recovers
      constHost := by
  rw [recovers_iff constHost {} freshStore _ intact_empty openDir_empty]
  intro k
  simp [Call.track, Track.call, Track.sync, Track.async, Op.at]
  grind

/-- `set_async` of a key, then `set` of the same key, then `flush`: the queued
write is logged behind the synchronous one, and the older value comes back. -/
theorem setAsync_set_not_recovers :
    ¬ (freshStore.run constHost
        ([.setAsync "k" "old", .set "k" "new"] ++ [.flush])).Recovers constHost := by
  intro h
  have ht := ((tracks_openDir intact_empty openDir_empty).run
    [.setAsync "k" "old", .set "k" "new"]).flush_recovers_iff.mp h "k"
  simp [Track.call, Track.sync, Track.async, Op.at] at ht

end Kv
end RustyDB
