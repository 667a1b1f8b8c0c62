import Mathlib
import RustyDB.Kv.Snapshot

/-!
# Asynchronous writes, snapshots and the background flusher

`set_async` puts its write into the queue under the persistence lock and then,
with the lock released, updates the map.  The background flusher takes the queue
and then, under the WAL lock only, appends what it took if the WAL handle is
there.  A snapshot holds the persistence lock through all its steps, but not
against the flusher.

* `AsyncStore`, `AsyncStep`, `AsyncStore.step`, `AsyncStore.run` — the store, the
  steps of clients, flusher and snapshot, and the schedules.
* `AsyncStep.Safe` — the steps that bury no write: while a snapshot is under way,
  nothing is appended that its copy of the map does not hold, and a copy is taken
  only while no write that has reached the WAL is still missing from the map.
* `Kept` — the invariant: every write is in the queue, with the flusher, or
  stored.
* `async_recovers_of_safe` — **after a safe schedule and a final flush, recovery
  finds every write**; `flusher_straddles_snapshot` loses one.
-/

namespace RustyDB
namespace Kv

open KeyLog

/-! ## The schedules -/

/-- How far a snapshot has come. -/
inductive Stage where
  | copied
  | flushed
  | renamed
  | closed
  | archived
  deriving DecidableEq, Repr

/-- A snapshot under way, with the copy of the map it writes. -/
structure RunningSnapshot where
  client : Nat
  copy : Data
  stage : Stage

/-- The shared store. -/
structure AsyncStore where
  data : Data
  persistence : PersistenceManager
  /-- The writes that are queued and not yet made in the map, by client. -/
  queued : AList (fun _ : Nat => String × String) := ∅
  /-- What the flusher has taken and not yet appended. -/
  taken : Option (List Operation) := none
  /-- The snapshot that holds the persistence lock. -/
  snapshot : Option RunningSnapshot := none

/-- The steps of the clients, of the flusher and of a staged snapshot. -/
inductive AsyncStep where
  /-- The first half of `set_async`. -/
  | enqueue (client : Nat) (key value : String)
  /-- The second half. -/
  | update (client : Nat)
  /-- The flusher takes the queue. -/
  | take
  /-- The flusher appends what it took, if the WAL is open. -/
  | append
  /-- A whole `flush`. -/
  | flush (client : Nat)
  /-- A snapshot takes the lock and copies the map. -/
  | copy (client : Nat)
  /-- The next step of the snapshot under way. -/
  | advance
  deriving DecidableEq, Repr

namespace AsyncStore

/-- A client may take the persistence lock. -/
def free (s : AsyncStore) (client : Nat) : Bool :=
  s.snapshot.isNone && (s.queued.lookup client).isNone

/-- The step after a stage. -/
def advance (H : KvHost) (s : AsyncStore) (r : RunningSnapshot) : AsyncStore :=
  match r.stage with
  | .copied => { s with
      persistence := s.persistence.flush H
      snapshot := some { r with stage := .flushed } }
  | .flushed => { s with
      persistence := s.persistence.publishSnapshot H (KVStore.pairs r.copy)
      snapshot := some { r with stage := .renamed } }
  | .renamed => { s with
      persistence := s.persistence.closeWal
      snapshot := some { r with stage := .closed } }
  | .closed => { s with
      persistence := s.persistence.archiveWal
      snapshot := some { r with stage := .archived } }
  | .archived => { s with
      persistence := s.persistence.reopenWal
      snapshot := none }

/-- One step. -/
def step (H : KvHost) (s : AsyncStore) : AsyncStep → Option AsyncStore
  | .enqueue client key value =>
    if s.free client then
      some { s with
        persistence := s.persistence.logOperationAsync (.set key value)
        queued := s.queued.insert client (key, value) }
    else none
  | .update client =>
    match s.queued.lookup client with
    | none => none
    | some w => some { s with
        data := s.data.insert w.1 w.2
        queued := s.queued.erase client }
  | .take =>
    match s.taken with
    | some _ => none
    | none => some { s with
        persistence := { s.persistence with pendingOps := [] }
        taken := some s.persistence.pendingOps }
  | .append =>
    match s.taken with
    | none => none
    | some ops => some { s with
        persistence :=
          if s.persistence.walFile then ops.foldl (PersistenceManager.append H) s.persistence
          else s.persistence
        taken := none }
  | .flush client =>
    if s.free client then some { s with persistence := s.persistence.flush H } else none
  | .copy client =>
    if s.free client then
      some { s with snapshot := some { client, copy := s.data, stage := .copied } }
    else none
  | .advance =>
    match s.snapshot with
    | none => none
    | some r => some (s.advance H r)

/-- A schedule; `none` when it is not one the parties can produce. -/
def run (H : KvHost) (s : AsyncStore) : List AsyncStep → Option AsyncStore
  | [] => some s
  | st :: sts => (s.step H st).bind (fun s' => run H s' sts)

/-- Every call has returned and the flusher has finished its round. -/
structure Quiescent (s : AsyncStore) : Prop where
  queued : ∀ client, s.queued.lookup client = none
  taken : s.taken = none
  snapshot : s.snapshot = none

end AsyncStore

/-- The pair a step enqueues. -/
def AsyncStep.writes : AsyncStep → List (String × String)
  | .enqueue _ key value => [(key, value)]
  | _ => []

/-- The snapshot's copy of the map holds a write. -/
def RunningSnapshot.Holds (r : RunningSnapshot) (op : Operation) : Prop :=
  ∃ key value, op = .set key value ∧ r.copy.lookup key = some value

/-- The steps that bury no write, judged on the state before the step. -/
def AsyncStep.Safe (s : AsyncStore) : AsyncStep → Prop
  | .copy _ => ∀ client w, s.queued.lookup client = some w →
      Op.set w.1 w.2 ∈ s.persistence.pendingOps ++ s.taken.getD []
  | .advance => ∀ r, s.snapshot = some r → r.stage = .copied →
      ∀ op ∈ s.persistence.pendingOps, r.Holds op
  | .append => ∀ r, s.snapshot = some r → ∀ op ∈ s.taken.getD [], r.Holds op
  | _ => True

/-- A schedule all of whose steps are safe where they are made. -/
def AsyncStore.SafeRun (H : KvHost) (s : AsyncStore) : List AsyncStep → Prop
  | [] => True
  | st :: sts => st.Safe s ∧ ∀ s', s.step H st = some s' → AsyncStore.SafeRun H s' sts

/-! ## The invariant -/

/-- A write is stored: recovery would find it, or the snapshot under way will write it. -/
def AsyncStore.Stored (H : KvHost) (s : AsyncStore) (w : String × String) : Prop :=
  match s.snapshot with
  | none => ∃ m, s.persistence.disk.recovered H = .ok m ∧ m w.1 = some w.2
  | some r => r.copy.lookup w.1 = some w.2

/-- The snapshot file holds a copy of the map. -/
def Disk.Snapshots (disk : Disk) (data : Data) : Prop :=
  ∃ file, disk.snapshot = some (.snapshot file) ∧ file.entries = KVStore.pairs data

/-- What the stage of a snapshot says about handle and files. -/
def AsyncStore.StageOk (s : AsyncStore) : Prop :=
  match s.snapshot with
  | none => s.persistence.walFile = true
  | some r =>
    match r.stage with
    | .copied => s.persistence.walFile = true
    | .flushed => s.persistence.walFile = true
    | .renamed => s.persistence.walFile = true ∧ s.persistence.disk.Snapshots r.copy
    | .closed => s.persistence.walFile = false ∧ s.persistence.disk.Snapshots r.copy
    | .archived => s.persistence.walFile = false ∧ s.persistence.disk.Snapshots r.copy ∧
        s.persistence.disk.wal = []

/-- Every write made so far is in the queue, with the flusher, or stored. -/
structure Kept (H : KvHost) (written : List (String × String)) (s : AsyncStore) : Prop where
  intact : s.persistence.disk.Intact H
  stage : s.StageOk
  pending : ∀ op ∈ s.persistence.pendingOps ++ s.taken.getD [],
    ∃ w ∈ written, op = .set w.1 w.2
  queued : ∀ client w, s.queued.lookup client = some w → w ∈ written
  visible : ∀ w ∈ written, (∃ client, s.queued.lookup client = some w) ∨
    s.data.lookup w.1 = some w.2
  located : ∀ w ∈ written, Op.set w.1 w.2 ∈ s.persistence.pendingOps ++ s.taken.getD [] ∨
    s.Stored H w

section Steps

variable {H : KvHost} {written : List (String × String)} {s : AsyncStore}

/-- Writes to distinct keys: two with one key are the same write. -/
theorem eq_of_key (hd : (written.map Prod.fst).Nodup) {w w' : String × String} (hw : w ∈ written)
    (hw' : w' ∈ written) (h : w.1 = w'.1) : w = w' :=
  List.inj_on_of_nodup_map hd hw hw' h

/-- Logging writes of distinct keys keeps what is recovered of the others. -/
theorem recovered_writes (hd : (written.map Prod.fst).Nodup) {ops : List Operation}
    (hops : ∀ op ∈ ops, ∃ w ∈ written, op = .set w.1 w.2) {m : String → Option String}
    {w : String × String} (hw : w ∈ written)
    (h : m w.1 = some w.2 ∨ Op.set w.1 w.2 ∈ ops) : replay m ops w.1 = some w.2 := by
  refine replay_eq_some (fun op hop => ?_) ?_
  · obtain ⟨w', hw', rfl⟩ := hops op hop
    by_cases hkey : w'.1 = w.1
    · rw [eq_of_key hd hw' hw hkey]
      simp [Op.at]
    · simp [Op.at, hkey]
  · rcases h with h | h
    · exact Or.inl h
    · exact Or.inr ⟨_, h, by simp [Op.at]⟩

theorem Kept.enqueue (h : Kept H written s) {client : Nat} {key value : String}
    (hfree : s.free client = true) :
    Kept H (written ++ [(key, value)]) { s with
      persistence := s.persistence.logOperationAsync (.set key value)
      queued := s.queued.insert client (key, value) } := by
  obtain ⟨hlock, hclient⟩ : s.snapshot = none ∧ s.queued.lookup client = none := by
    simpa [AsyncStore.free] using hfree
  have hpending : ∀ op, op ∈ (s.persistence.pendingOps ++ [Op.set key value]) ++ s.taken.getD [] ↔
      op ∈ s.persistence.pendingOps ++ s.taken.getD [] ∨ op = Op.set key value := by
    intro op
    simp only [List.mem_append, List.mem_singleton]
    tauto
  refine ⟨h.intact, h.stage, ?_, ?_, ?_, ?_⟩
  · intro op hop
    rcases (hpending op).mp hop with hop | rfl
    · obtain ⟨w, hw, rfl⟩ := h.pending op hop
      exact ⟨w, by simp [hw], rfl⟩
    · exact ⟨(key, value), by simp, rfl⟩
  · intro other w hlookup
    by_cases hother : other = client
    · subst hother
      rw [AList.lookup_insert, Option.some.injEq] at hlookup
      simp [← hlookup]
    · rw [AList.lookup_insert_ne hother] at hlookup
      exact List.mem_append_left _ (h.queued other w hlookup)
  · intro w hw
    rcases List.mem_append.mp hw with hw | hw
    · rcases h.visible w hw with ⟨other, hother⟩ | hdata
      · refine Or.inl ⟨other, ?_⟩
        rw [AList.lookup_insert_ne]
        · exact hother
        · rintro rfl
          rw [hclient] at hother
          simp at hother
      · exact Or.inr hdata
    · exact Or.inl ⟨client, by rw [List.mem_singleton.mp hw]; exact AList.lookup_insert _⟩
  · intro w hw
    rcases List.mem_append.mp hw with hw | hw
    · rcases h.located w hw with hop | hstored
      · exact Or.inl ((hpending _).mpr (Or.inl hop))
      · exact Or.inr hstored
    · rw [List.mem_singleton.mp hw]
      exact Or.inl ((hpending _).mpr (Or.inr rfl))

theorem Kept.update (h : Kept H written s) (hd : (written.map Prod.fst).Nodup) {client : Nat}
    {w : String × String} (hw : s.queued.lookup client = some w) :
    Kept H written { s with
      data := s.data.insert w.1 w.2
      queued := s.queued.erase client } := by
  refine ⟨h.intact, h.stage, h.pending, ?_, ?_, h.located⟩
  · intro other w' hlookup
    by_cases hother : other = client
    · subst hother
      simp at hlookup
    · rw [AList.lookup_erase_ne hother] at hlookup
      exact h.queued other w' hlookup
  · intro w' hw'
    by_cases hkey : w'.1 = w.1
    · rw [eq_of_key hd hw' (h.queued client w hw) hkey]
      exact Or.inr (AList.lookup_insert _)
    · rcases h.visible w' hw' with ⟨other, hother⟩ | hdata
      · refine Or.inl ⟨other, ?_⟩
        rw [AList.lookup_erase_ne]
        · exact hother
        · rintro rfl
          rw [hw, Option.some.injEq] at hother
          exact hkey (by rw [hother])
      · exact Or.inr (by rw [AList.lookup_insert_ne hkey]; exact hdata)

theorem Kept.take (h : Kept H written s) (hidle : s.taken = none) :
    Kept H written { s with
      persistence := { s.persistence with pendingOps := [] }
      taken := some s.persistence.pendingOps } := by
  have hpending := h.pending
  have hlocated := h.located
  simp only [hidle, Option.getD_none, List.append_nil] at hpending hlocated
  refine ⟨h.intact, h.stage, by simpa using hpending, h.queued, h.visible, fun w hw => ?_⟩
  rw [List.nil_append, Option.getD_some]
  exact hlocated w hw

/-- The fields of a manager after records have been appended. -/
theorem foldl_append_fields (ops : List Operation) (pm : PersistenceManager) :
    (ops.foldl (PersistenceManager.append H) pm).walFile = pm.walFile ∧
      (ops.foldl (PersistenceManager.append H) pm).pendingOps = pm.pendingOps ∧
      (ops.foldl (PersistenceManager.append H) pm).disk.snapshot = pm.disk.snapshot := by
  induction ops generalizing pm with
  | nil => exact ⟨rfl, rfl, rfl⟩
  | cons op ops ih => exact ih (pm.append H op)

/-- Appending to an open WAL does not disturb a snapshot. -/
theorem stageOk_append (h : s.StageOk) (hopen : s.persistence.walFile = true)
    (ops : List Operation) (taken : Option (List Operation)) :
    AsyncStore.StageOk { s with
      persistence := ops.foldl (PersistenceManager.append H) s.persistence
      taken } := by
  obtain ⟨hwal, -, hsnapshot⟩ := foldl_append_fields (H := H) ops s.persistence
  cases hrun : s.snapshot with
  | none => simpa only [AsyncStore.StageOk, hrun, hwal] using hopen
  | some r =>
    simp only [AsyncStore.StageOk, hrun, hopen, Disk.Snapshots, Bool.true_eq_false,
      false_and] at h
    cases hr : r.stage with
    | copied => simp [AsyncStore.StageOk, hr, hwal, hopen]
    | flushed => simp [AsyncStore.StageOk, hr, hwal, hopen]
    | renamed =>
      simp only [hr] at h
      simpa [AsyncStore.StageOk, hr, hwal, hopen, hsnapshot, Disk.Snapshots] using h
    | closed => simp [hr] at h
    | archived => simp [hr] at h

theorem RunningSnapshot.Holds.lookup {r : RunningSnapshot} {w : String × String}
    (h : r.Holds (.set w.1 w.2)) : r.copy.lookup w.1 = some w.2 := by
  obtain ⟨key, value, heq, hcopy⟩ := h
  simp only [Op.set.injEq] at heq
  rw [heq.1, heq.2, hcopy]

/-- Writes that leave the queue or the flusher for the WAL are stored. -/
theorem Kept.stored_append (h : Kept H written s) (hd : (written.map Prod.fst).Nodup)
    {ops : List Operation} (hops : ∀ op ∈ ops, ∃ w ∈ written, op = .set w.1 w.2)
    (hholds : ∀ r, s.snapshot = some r → ∀ op ∈ ops, r.Holds op) (s' : AsyncStore)
    (hdisk : s'.persistence.disk =
      (ops.foldl (PersistenceManager.append H) s.persistence).disk)
    (hsnapshot : s'.snapshot = s.snapshot) {w : String × String} (hw : w ∈ written)
    (hstored : Op.set w.1 w.2 ∈ ops ∨ s.Stored H w) : s'.Stored H w := by
  obtain ⟨before, -, hbefore⟩ := recovered_eq h.intact
  obtain ⟨-, hrecovered, -⟩ := foldl_append_spec ops s.persistence h.intact hbefore
  cases hrun : s.snapshot with
  | none =>
    simp only [AsyncStore.Stored, hsnapshot, hrun] at hstored ⊢
    refine ⟨_, hdisk ▸ hrecovered, recovered_writes hd hops hw ?_⟩
    rcases hstored with hop | ⟨m, hm, hvalue⟩
    · exact Or.inr hop
    · rw [← Except.ok.inj (hm.symm.trans hbefore)]
      exact Or.inl hvalue
  | some r =>
    simp only [AsyncStore.Stored, hsnapshot, hrun] at hstored ⊢
    exact hstored.elim (fun hop => (hholds r hrun _ hop).lookup) id

/-- The flusher appends, or drops what the snapshot under way holds. -/
theorem Kept.append (h : Kept H written s) (hd : (written.map Prod.fst).Nodup)
    {ops : List Operation} (htaken : s.taken = some ops) (hsafe : AsyncStep.Safe s .append) :
    Kept H written { s with
      persistence :=
        if s.persistence.walFile then ops.foldl (PersistenceManager.append H) s.persistence
        else s.persistence
      taken := none } := by
  have hpending := h.pending
  have hlocated := h.located
  simp only [htaken, Option.getD_some, List.mem_append, or_assoc] at hpending hlocated
  simp only [AsyncStep.Safe, htaken, Option.getD_some] at hsafe
  have hops : ∀ op ∈ ops, ∃ w ∈ written, op = .set w.1 w.2 := fun op hop => hpending op (Or.inr hop)
  cases hopen : s.persistence.walFile with
  | true =>
    obtain ⟨before, -, hbefore⟩ := recovered_eq h.intact
    obtain ⟨-, hqueue, -⟩ := foldl_append_fields (H := H) ops s.persistence
    simp only [if_true]
    refine ⟨(foldl_append_spec ops s.persistence h.intact hbefore).1,
      stageOk_append h.stage hopen ops none, ?_, h.queued, h.visible, fun w hw => ?_⟩
    · simp only [hqueue, Option.getD_none, List.append_nil]
      exact fun op hop => hpending op (Or.inl hop)
    · simp only [hqueue, Option.getD_none, List.append_nil]
      exact (hlocated w hw).imp id (h.stored_append hd hops hsafe _ (by rfl) (by rfl) hw)
  | false =>
    -- Only a snapshot closes the WAL, and then the taken writes are in its copy.
    obtain ⟨r, hrun⟩ : ∃ r, s.snapshot = some r := by
      have hstage := h.stage
      cases hrun : s.snapshot with
      | none => simp [AsyncStore.StageOk, hrun, hopen] at hstage
      | some r => exact ⟨r, rfl⟩
    simp only [Bool.false_eq_true, if_false]
    refine ⟨h.intact, h.stage, ?_, h.queued, h.visible, fun w hw => ?_⟩
    · simp only [Option.getD_none, List.append_nil]
      exact fun op hop => hpending op (Or.inl hop)
    · simp only [Option.getD_none, List.append_nil, AsyncStore.Stored, hrun]
      have hstored := hlocated w hw
      simp only [AsyncStore.Stored, hrun] at hstored
      exact hstored.imp id fun h => h.elim (fun hop => (hsafe r hrun _ hop).lookup) id

/-- A flush logs the queue. -/
theorem Kept.flush (h : Kept H written s) (hd : (written.map Prod.fst).Nodup)
    (hopen : s.persistence.walFile = true) (snapshot : Option RunningSnapshot)
    (hholds : ∀ r, s.snapshot = some r → ∀ op ∈ s.persistence.pendingOps, r.Holds op)
    (hsnapshot : ∀ w, AsyncStore.Stored H { s with
        persistence := s.persistence.flush H } w →
      AsyncStore.Stored H { s with persistence := s.persistence.flush H, snapshot } w)
    (hstage : AsyncStore.StageOk { s with persistence := s.persistence.flush H, snapshot }) :
    Kept H written { s with persistence := s.persistence.flush H, snapshot } := by
  have hpending := h.pending
  have hlocated := h.located
  simp only [List.mem_append, or_assoc] at hpending hlocated
  have hflush : s.persistence.flush H = s.persistence.pendingOps.foldl
      (PersistenceManager.append H) { s.persistence with pendingOps := [] } :=
    foldl_logOperationSync _ hopen
  have hdisk : (s.persistence.flush H).disk =
      (s.persistence.pendingOps.foldl (PersistenceManager.append H) s.persistence).disk := by
    rw [hflush]
    generalize s.persistence.pendingOps = ops
    generalize hother : { s.persistence with pendingOps := [] } = other
    have hsame : other.disk = s.persistence.disk ∧
        other.nextSequence = s.persistence.nextSequence := by
      rw [← hother]
      exact ⟨rfl, rfl⟩
    clear hother hflush hsnapshot hstage hholds hlocated hpending
    generalize s.persistence = pm at hsame
    induction ops generalizing other pm with
    | nil => exact hsame.1
    | cons op ops ih =>
      refine ih _ _ ?_
      simp [PersistenceManager.append, hsame.1, hsame.2]
  obtain ⟨before, -, hbefore⟩ := recovered_eq h.intact
  obtain ⟨hintact, -, -, hempty⟩ := flush_spec hopen h.intact hbefore
  refine ⟨hintact, hstage, ?_, h.queued, h.visible, fun w hw => ?_⟩
  · simp only [hempty, List.nil_append]
    exact fun op hop => hpending op (Or.inr hop)
  · simp only [hempty, List.nil_append]
    rcases hlocated w hw with hop | hop | hstored
    · exact Or.inr (hsnapshot w (h.stored_append hd (fun op hop => hpending op (Or.inl hop)) hholds
        _ (by exact hdisk) (by rfl) hw (Or.inl hop)))
    · exact Or.inl hop
    · exact Or.inr (hsnapshot w (h.stored_append hd (fun op hop => hpending op (Or.inl hop)) hholds
        _ (by exact hdisk) (by rfl) hw (Or.inr hstored)))

/-- A snapshot copies the map. -/
theorem Kept.copy (h : Kept H written s) {client : Nat} (hfree : s.free client = true)
    (hsafe : AsyncStep.Safe s (.copy client)) :
    Kept H written { s with
      snapshot := some { client, copy := s.data, stage := .copied } } := by
  obtain ⟨hlock, -⟩ : s.snapshot = none ∧ s.queued.lookup client = none := by
    simpa [AsyncStore.free] using hfree
  have hopen := h.stage
  simp only [AsyncStore.StageOk, hlock] at hopen
  refine ⟨h.intact, hopen, h.pending, h.queued, h.visible, fun w hw => ?_⟩
  rcases h.visible w hw with ⟨other, hother⟩ | hdata
  · exact Or.inl (hsafe other w hother)
  · exact Or.inr hdata

/-- Recovery from a snapshot alone. -/
theorem recovered_of_snapshots {disk : Disk} {data : Data} (h : disk.Snapshots data)
    (hwal : disk.wal = []) :
    disk.recovered H = .ok (fun k => data.lookup k) := by
  obtain ⟨file, hfile, hentries⟩ := h
  have hintact : disk.Intact H := by
    refine ⟨fun r hr => ?_, _, by rw [hfile]; rfl⟩
    rw [hwal] at hr
    simp at hr
  obtain ⟨ops, hops, hrecovered⟩ := recovered_eq hintact
  rw [hfile] at hops
  obtain rfl : file.entries.map (fun e => Op.set e.1 e.2) = ops := Except.ok.inj hops
  rw [hrecovered, hwal, hentries, replay_pairs]
  rfl

/-- **Each step of a snapshot** keeps every write. -/
theorem Kept.advance (h : Kept H written s) (hd : (written.map Prod.fst).Nodup)
    {r : RunningSnapshot} (hrun : s.snapshot = some r)
    (hsafe : AsyncStep.Safe s .advance) : Kept H written (s.advance H r) := by
  have hstage := h.stage
  have hlocated := h.located
  simp only [AsyncStore.StageOk, hrun] at hstage
  simp only [AsyncStore.Stored, hrun] at hlocated
  unfold AsyncStore.advance
  cases hr : r.stage with
  | copied =>
    simp only [hr] at hstage
    refine h.flush hd hstage _ ?_ ?_ ?_
    · intro r' hr'
      obtain rfl : r = r' := Option.some.inj (hrun.symm.trans hr')
      exact hsafe r hrun hr
    · intro w hw
      simpa only [AsyncStore.Stored, hrun] using hw
    · obtain ⟨before, -, hbefore⟩ := recovered_eq h.intact
      exact (flush_spec hstage h.intact hbefore).2.2.1
  | flushed =>
    simp only [hr] at hstage
    exact ⟨⟨h.intact.1, _, rfl⟩, ⟨hstage, _, rfl, rfl⟩, h.pending, h.queued, h.visible, hlocated⟩
  | renamed =>
    simp only [hr] at hstage
    exact ⟨h.intact, ⟨rfl, hstage.2⟩, h.pending, h.queued, h.visible, hlocated⟩
  | closed =>
    simp only [hr] at hstage
    exact ⟨⟨by simp [PersistenceManager.archiveWal], h.intact.2⟩, ⟨hstage.1, hstage.2, rfl⟩,
      h.pending, h.queued, h.visible, hlocated⟩
  | archived =>
    simp only [hr] at hstage
    refine ⟨h.intact, rfl, h.pending, h.queued, h.visible, fun w hw => ?_⟩
    refine (hlocated w hw).imp id fun hcopy => ?_
    exact ⟨_, recovered_of_snapshots hstage.2.1 hstage.2.2, hcopy⟩

/-- **A safe step keeps every write.** -/
theorem Kept.step (h : Kept H written s) {s' : AsyncStore} {st : AsyncStep}
    (hd : ((written ++ st.writes).map Prod.fst).Nodup) (hsafe : st.Safe s)
    (hs : s.step H st = some s') : Kept H (written ++ st.writes) s' := by
  cases st with
  | enqueue client key value =>
    rw [AsyncStore.step, Option.ite_none_right_eq_some, Option.some.injEq] at hs
    exact hs.2 ▸ h.enqueue hs.1
  | update client =>
    simp only [AsyncStep.writes, List.append_nil] at hd ⊢
    cases hw : s.queued.lookup client with
    | none => simp [AsyncStore.step, hw] at hs
    | some w =>
      simp only [AsyncStore.step, hw, Option.some.injEq] at hs
      exact hs ▸ h.update hd hw
  | take =>
    simp only [AsyncStep.writes, List.append_nil]
    cases htaken : s.taken with
    | some ops => simp [AsyncStore.step, htaken] at hs
    | none =>
      simp only [AsyncStore.step, htaken, Option.some.injEq] at hs
      exact hs ▸ h.take htaken
  | append =>
    simp only [AsyncStep.writes, List.append_nil] at hd ⊢
    cases htaken : s.taken with
    | none => simp [AsyncStore.step, htaken] at hs
    | some ops =>
      simp only [AsyncStore.step, htaken, Option.some.injEq] at hs
      exact hs ▸ h.append hd htaken hsafe
  | flush client =>
    simp only [AsyncStep.writes, List.append_nil] at hd ⊢
    rw [AsyncStore.step, Option.ite_none_right_eq_some, Option.some.injEq] at hs
    obtain ⟨hlock, -⟩ : s.snapshot = none ∧ s.queued.lookup client = none := by
      simpa [AsyncStore.free] using hs.1
    have hopen := h.stage
    simp only [AsyncStore.StageOk, hlock] at hopen
    obtain ⟨before, -, hbefore⟩ := recovered_eq h.intact
    have hkept := h.flush hd hopen s.snapshot (by simp [hlock]) (fun w hw => hw) (by
      simp only [AsyncStore.StageOk, hlock]
      exact (flush_spec hopen h.intact hbefore).2.2.1)
    exact hs.2 ▸ hkept
  | copy client =>
    simp only [AsyncStep.writes, List.append_nil]
    rw [AsyncStore.step, Option.ite_none_right_eq_some, Option.some.injEq] at hs
    exact hs.2 ▸ h.copy hs.1 hsafe
  | advance =>
    simp only [AsyncStep.writes, List.append_nil] at hd ⊢
    cases hrun : s.snapshot with
    | none => simp [AsyncStore.step, hrun] at hs
    | some r =>
      simp only [AsyncStore.step, hrun, Option.some.injEq] at hs
      exact hs ▸ h.advance hd hrun hsafe

theorem Kept.run (h : Kept H written s) {sts : List AsyncStep} {s' : AsyncStore}
    (hd : ((written ++ sts.flatMap AsyncStep.writes).map Prod.fst).Nodup)
    (hsafe : s.SafeRun H sts) (hs : s.run H sts = some s') :
    Kept H (written ++ sts.flatMap AsyncStep.writes) s' := by
  induction sts generalizing s written with
  | nil =>
    obtain rfl : s = s' := Option.some.inj hs
    simpa using h
  | cons st sts ih =>
    rw [AsyncStore.run, Option.bind_eq_some_iff] at hs
    obtain ⟨next, hnext, hrest⟩ := hs
    rw [List.flatMap_cons, ← List.append_assoc] at hd ⊢
    have hfirst : ((written ++ st.writes).map Prod.fst).Nodup := by
      rw [List.map_append] at hd
      exact (List.nodup_append.mp hd).1
    exact ih (h.step hfirst hsafe.1 hnext) hd (hsafe.2 next hnext) hrest

end Steps

/-! ## Whole schedules -/

/-- The store a directory opens to. -/
def AsyncStore.ofStore (data : Data) (pm : PersistenceManager) : AsyncStore :=
  { data := data, persistence := pm }

/-- **No queued write is lost in a safe schedule.**  On a store opened on an intact
directory, after any schedule of `set_async` calls with distinct keys, flushes,
snapshots and rounds of the flusher whose steps are all safe, once every call has
returned and the flusher is idle, a final flush leaves a directory from which recovery
rebuilds every write. -/
theorem async_recovers_of_safe (H : KvHost) (disk : Disk) (s : KVStore) (pm : PersistenceManager)
    (sts : List AsyncStep) (s' : AsyncStore) (hi : disk.Intact H)
    (ho : KVStore.openDir H disk = .ok s) (hp : s.persistence = some pm)
    (hd : ((sts.flatMap AsyncStep.writes).map Prod.fst).Nodup)
    (hsafe : (AsyncStore.ofStore s.data pm).SafeRun H sts)
    (hs : (AsyncStore.ofStore s.data pm).run H sts = some s') (hq : s'.Quiescent) :
    ∃ m, (s'.persistence.flush H).disk.recovered H = .ok m ∧
      ∀ w ∈ sts.flatMap AsyncStep.writes, m w.1 = some w.2 := by
  obtain ⟨pm', hlive, hqueue, -⟩ := (steady_openDir hi ho).exists_live
  obtain rfl : pm' = pm := Option.some.inj (hlive.persistence.symm.trans hp)
  have hstart : Kept H [] (AsyncStore.ofStore s.data pm') := by
    refine ⟨hlive.intact, hlive.walFile, ?_, ?_, by simp, by simp⟩
    · simp [AsyncStore.ofStore, hqueue]
    · simp [AsyncStore.ofStore]
  have hkept := hstart.run (by simpa using hd) hsafe hs
  rw [List.nil_append] at hkept
  have hopen := hkept.stage
  simp only [AsyncStore.StageOk, hq.snapshot] at hopen
  obtain ⟨before, -, hbefore⟩ := recovered_eq hkept.intact
  refine ⟨_, (flush_spec hopen hkept.intact hbefore).2.1, fun w hw => ?_⟩
  have hpending := hkept.pending
  have hlocated := hkept.located w hw
  simp only [hq.taken, Option.getD_none, List.append_nil, AsyncStore.Stored, hq.snapshot]
    at hpending hlocated
  refine recovered_writes hd hpending hw ?_
  rcases hlocated with hop | ⟨m, hm, hvalue⟩
  · exact Or.inr hop
  · rw [← Except.ok.inj (hm.symm.trans hbefore)]
    exact Or.inl hvalue

/-- A flusher that takes a write before a snapshot and appends it afterwards. -/
def lateFlusher : List AsyncStep :=
  [.enqueue 0 "k" "v", .take, .copy 1, .advance, .advance, .advance, .advance, .advance,
    .append, .update 0]

theorem safeRun_cons {H : KvHost} {s s' : AsyncStore} {st : AsyncStep} {sts : List AsyncStep}
    (hsafe : st.Safe s) (hstep : s.step H st = some s') (hrest : s'.SafeRun H sts) :
    s.SafeRun H (st :: sts) :=
  ⟨hsafe, fun _ h => Option.some.inj (hstep.symm.trans h) ▸ hrest⟩

theorem safeRun_lateFlusher :
    (AsyncStore.ofStore ∅ (.new constHost {})).SafeRun constHost lateFlusher := by
  refine safeRun_cons trivial rfl (safeRun_cons trivial rfl (safeRun_cons ?_ rfl ?_))
  · -- The write that is missing from the map is with the flusher.
    intro client w hw
    have hclient : client = 0 := by
      by_contra hne
      have hnone : AList.lookup client (AList.insert 0 ("k", "v")
          (∅ : AList fun _ : Nat => String × String)) = none := by
        rw [AList.lookup_insert_ne hne]
        rfl
      exact absurd (hw.symm.trans hnone) (by simp)
    subst hclient
    obtain rfl : ("k", "v") = w := Option.some.inj hw
    decide
  · have hqueue : ∀ r : RunningSnapshot, ∀ op ∈ ([] : List Operation), r.Holds op := by simp
    refine safeRun_cons (fun r _ _ => hqueue r) rfl (safeRun_cons (fun r _ _ => hqueue r) rfl
      (safeRun_cons (fun r _ _ => hqueue r) rfl (safeRun_cons (fun r _ _ => hqueue r) rfl
      (safeRun_cons (fun r _ _ => hqueue r) rfl (safeRun_cons ?_ rfl
      (safeRun_cons trivial rfl trivial))))))
    intro r hr
    exact absurd hr (by simp [AsyncStore.advance])

/-- The write that the flusher appends after the snapshot is found. -/
theorem late_flusher_recovers :
    ∃ s', (AsyncStore.ofStore ∅ (.new constHost {})).run constHost lateFlusher = some s' ∧
      ∃ m, (s'.persistence.flush constHost).disk.recovered constHost = .ok m ∧
        m "k" = some "v" := by
  cases hrun : (AsyncStore.ofStore ∅ (.new constHost {})).run constHost lateFlusher with
  | none => exact absurd hrun (by decide)
  | some s' =>
    refine ⟨s', rfl, ?_⟩
    have hquiescent : s'.Quiescent := by
      obtain rfl := Option.some.inj hrun
      exact ⟨fun _ => rfl, rfl, rfl⟩
    obtain ⟨m, hm, hwrites⟩ := async_recovers_of_safe constHost {} freshStore (.new constHost {})
      lateFlusher s' intact_empty openDir_empty rfl (by decide) safeRun_lateFlusher hrun hquiescent
    exact ⟨m, hm, hwrites ("k", "v") (by decide)⟩

/-- **A flusher that straddles a snapshot loses a write.**  It takes the queue before
the snapshot copies the map, finds the WAL closed, and drops what it took, which is not
in the map yet. -/
theorem flusher_straddles_snapshot :
    ∃ s', (AsyncStore.ofStore ∅ (.new constHost {})).run constHost
        [.enqueue 0 "k" "v", .take, .copy 1, .advance, .advance, .advance, .append, .advance,
          .advance, .update 0] = some s' ∧ s'.Quiescent ∧ s'.data.lookup "k" = some "v" ∧
      ∃ m, (s'.persistence.flush constHost).disk.recovered constHost = .ok m ∧
        m "k" = none :=
  ⟨_, rfl, ⟨fun _ => rfl, rfl, rfl⟩, rfl, _, rfl, rfl⟩

end Kv
end RustyDB
