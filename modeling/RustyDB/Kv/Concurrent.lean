import Mathlib
import RustyDB.Kv.Flush

/-!
# Concurrent synchronous writes and snapshots

Any number of clients share a store.  A `set`, `delete` or `clear` is two steps:
append a record to the WAL under the persistence lock, then, with the lock
released, update the shared map.  A `snapshot` holds the lock throughout, so it
is one step.  Between the two halves of a write anything else may happen.

* `Shared`, `Step`, `Shared.step`, `Shared.run` — the store, the steps and the
  schedules.
* `Step.Clean` — the schedules that keep the log and the map together: a write
  is logged only while every unfinished write commutes with it, and a snapshot
  is taken only while no unfinished write would change the map.
* `Agrees` — the invariant: the log is ahead of the map by exactly the
  unfinished writes.
* `quiescent_recovers_of_clean` — **after a clean schedule in which every call
  has returned, recovery rebuilds the map in memory**, and
  `snapshot_between_halves`, `updates_out_of_order` show both ways in which
  another schedule loses a write.
-/

namespace RustyDB
namespace Kv

open KeyLog

/-- The shared store. -/
structure Shared where
  data : Data
  persistence : PersistenceManager
  /-- The writes that have been logged and not yet made in the map, by client. -/
  unfinished : AList (fun _ : Nat => Operation) := ∅

/-- A step of a client. -/
inductive Step where
  /-- The first half of a `set`, `delete` or `clear`. -/
  | log (client : Nat) (op : Operation)
  /-- The second half. -/
  | update (client : Nat)
  /-- A whole `snapshot`. -/
  | snapshot (client : Nat)
  deriving DecidableEq, Repr

/-- One step; a client that is inside a write can only finish it. -/
def Shared.step (H : KvHost) (s : Shared) : Step → Option Shared
  | .log client op =>
    match s.unfinished.lookup client with
    | none => some { s with
        persistence := s.persistence.logOperationSync H op
        unfinished := s.unfinished.insert client op }
    | some _ => none
  | .update client =>
    match s.unfinished.lookup client with
    | none => none
    | some op => some { s with
        data := applyOperation s.data op
        unfinished := s.unfinished.erase client }
  | .snapshot client =>
    match s.unfinished.lookup client with
    | none => some { s with
        persistence := s.persistence.createSnapshot H (KVStore.pairs s.data) }
    | some _ => none

/-- A schedule; `none` when it is not one a client can produce. -/
def Shared.run (H : KvHost) (s : Shared) : List Step → Option Shared
  | [] => some s
  | st :: sts =>
    match s.step H st with
    | none => none
    | some s' => Shared.run H s' sts

/-- Every call has returned. -/
def Shared.Quiescent (s : Shared) : Prop := ∀ client, s.unfinished.lookup client = none

/-- Recovery from the snapshot and the active WAL rebuilds the map in memory. -/
def Shared.Recovers (H : KvHost) (s : Shared) : Prop :=
  ∃ m, s.persistence.disk.recovered H = .ok m ∧ ∀ k, m k = s.data.lookup k

/-- The steps that keep log and map together, judged on the state before the
step. -/
def Step.Clean (s : Shared) : Step → Prop
  | .log _ op => ∀ client op', s.unfinished.lookup client = some op' → op.Commutes op'
  | .update _ => True
  | .snapshot _ => ∀ client op', s.unfinished.lookup client = some op' →
      op'.apply (fun k => s.data.lookup k) = fun k => s.data.lookup k

/-- A schedule all of whose steps are clean where they are made. -/
def Shared.CleanRun (H : KvHost) (s : Shared) : List Step → Prop
  | [] => True
  | st :: sts => st.Clean s ∧
    match s.step H st with
    | none => True
    | some s' => Shared.CleanRun H s' sts

/-! ## The invariant -/

/-- The unfinished writes. -/
def Shared.pending (s : Shared) : List Operation := s.unfinished.entries.map Sigma.snd

/-- The log is ahead of the map by exactly the unfinished writes, which may be
finished in any order. -/
structure Agrees (H : KvHost) (s : Shared) : Prop where
  walFile : s.persistence.walFile = true
  queue : s.persistence.pendingOps = []
  intact : s.persistence.disk.Intact H
  commutes : ∀ a ∈ s.pending, ∀ b ∈ s.pending, a.Commutes b
  ahead : s.persistence.disk.recovered H
    = .ok (replay (fun k => s.data.lookup k) s.pending)

theorem mem_pending_iff {s : Shared} {op : Operation} :
    op ∈ s.pending ↔ ∃ client, s.unfinished.lookup client = some op := by
  constructor
  · intro h
    obtain ⟨⟨client, op'⟩, he, rfl⟩ := List.mem_map.mp h
    exact ⟨client, AList.mem_lookup_iff.mpr he⟩
  · rintro ⟨client, h⟩
    exact List.mem_map.mpr ⟨⟨client, op⟩, AList.mem_lookup_iff.mp h, rfl⟩

/-- Logging a write that commutes with the unfinished ones. -/
theorem Agrees.log {H : KvHost} {s : Shared} (h : Agrees H s) {client : Nat} {op : Operation}
    (hfree : s.unfinished.lookup client = none) (hc : (Step.log client op).Clean s) :
    Agrees H { s with
      persistence := s.persistence.logOperationSync H op
      unfinished := s.unfinished.insert client op } := by
  have hnew : (s.unfinished.insert client op).entries.map Sigma.snd = op :: s.pending := by
    rw [AList.entries_insert_of_notMem (AList.lookup_eq_none.mp hfree)]
    rfl
  have hop : ∀ b ∈ s.pending, op.Commutes b := by
    intro b hb
    obtain ⟨client', hb'⟩ := mem_pending_iff.mp hb
    exact hc client' b hb'
  have hall : ∀ a ∈ op :: s.pending, ∀ b ∈ op :: s.pending, a.Commutes b := by
    intro a ha b hb
    rcases List.mem_cons.mp ha with ha | ha <;> rcases List.mem_cons.mp hb with hb | hb
    · rw [ha, hb]; exact Op.Commutes.refl op
    · rw [ha]; exact hop b hb
    · rw [hb]; exact (hop a ha).symm
    · exact h.commutes a ha b hb
  have hlog : s.persistence.logOperationSync H op = s.persistence.append H op := by
    simp [PersistenceManager.logOperationSync, h.walFile]
  refine ⟨?_, ?_, ?_, ?_, ?_⟩
  · rw [hlog]; exact h.walFile
  · rw [hlog]; exact h.queue
  · rw [hlog]; exact intact_append h.intact op
  · simpa only [Shared.pending, hnew] using hall
  · rw [hlog, recovered_append h.intact h.ahead op]
    have hlist : Shared.pending { s with
        persistence := s.persistence.append H op
        unfinished := s.unfinished.insert client op } = op :: s.pending := hnew
    rw [hlist, replay_perm (List.perm_append_singleton op s.pending).symm hall, replay_append]
    rfl

/-- Finishing a write. -/
theorem Agrees.update {H : KvHost} {s : Shared} (h : Agrees H s) {client : Nat} {op : Operation}
    (hop : s.unfinished.lookup client = some op) :
    Agrees H { s with
      data := applyOperation s.data op
      unfinished := s.unfinished.erase client } := by
  have hkey : client ∈ s.unfinished.entries.keys :=
    AList.lookup_isSome.mp (by rw [hop]; rfl)
  obtain ⟨op', l₁, l₂, -, hsplit, herase⟩ := List.exists_of_kerase hkey
  have hop' : op' = op := by
    have : s.unfinished.lookup client = some op' :=
      AList.mem_lookup_iff.mpr (by rw [hsplit]; simp)
    exact Option.some.inj (this.symm.trans hop)
  subst hop'
  have hbefore : s.pending = l₁.map Sigma.snd ++ op' :: l₂.map Sigma.snd := by
    simp [Shared.pending, hsplit]
  have hafter : (s.unfinished.erase client).entries.map Sigma.snd
      = l₁.map Sigma.snd ++ l₂.map Sigma.snd := by
    simp [AList.erase, herase]
  have hperm : s.pending.Perm (op' :: (l₁.map Sigma.snd ++ l₂.map Sigma.snd)) := by
    rw [hbefore]
    exact List.perm_middle
  refine ⟨h.walFile, h.queue, h.intact, ?_, ?_⟩
  · simp only [Shared.pending, hafter]
    intro a ha b hb
    exact h.commutes a (hperm.symm.subset (List.mem_cons_of_mem _ ha))
      b (hperm.symm.subset (List.mem_cons_of_mem _ hb))
  · rw [h.ahead, replay_perm hperm h.commutes]
    simp only [Shared.pending, hafter, replay_cons]
    congr 2
    funext k
    exact (lookup_applyOperation s.data op' k).symm

/-- A snapshot that no unfinished write would change. -/
theorem Agrees.snapshot {H : KvHost} {s : Shared} (h : Agrees H s) {client : Nat}
    (hc : (Step.snapshot client).Clean s) :
    Agrees H { s with
      persistence := s.persistence.createSnapshot H (KVStore.pairs s.data) } := by
  obtain ⟨h1, h2⟩ := recovered_snapshot H s.persistence s.data
  refine ⟨rfl, (flush_spec h.walFile h.intact h.ahead).2.2.2, h1, h.commutes, ?_⟩
  rw [h2]
  congr 1
  refine (replay_eq_self ?_).symm
  intro op hop
  obtain ⟨client', hop'⟩ := mem_pending_iff.mp hop
  exact hc client' op hop'

/-- **A clean step keeps the invariant.** -/
theorem Agrees.step {H : KvHost} {s s' : Shared} {st : Step} (h : Agrees H s)
    (hc : st.Clean s) (hs : s.step H st = some s') : Agrees H s' := by
  cases st with
  | log client op =>
    cases hl : s.unfinished.lookup client with
    | none =>
      simp only [Shared.step, hl, Option.some.injEq] at hs
      exact hs ▸ h.log hl hc
    | some op' => simp [Shared.step, hl] at hs
  | update client =>
    cases hl : s.unfinished.lookup client with
    | none => simp [Shared.step, hl] at hs
    | some op =>
      simp only [Shared.step, hl, Option.some.injEq] at hs
      exact hs ▸ h.update hl
  | snapshot client =>
    cases hl : s.unfinished.lookup client with
    | none =>
      simp only [Shared.step, hl, Option.some.injEq] at hs
      exact hs ▸ h.snapshot hc
    | some op' => simp [Shared.step, hl] at hs

theorem Agrees.run {H : KvHost} {s s' : Shared} {sts : List Step} (h : Agrees H s)
    (hc : s.CleanRun H sts) (hs : s.run H sts = some s') : Agrees H s' := by
  induction sts generalizing s with
  | nil => cases hs; exact h
  | cons st sts ih =>
    cases hst : s.step H st with
    | none => simp [Shared.run, hst] at hs
    | some t =>
      rw [Shared.run, hst] at hs
      have hrest := hc.2
      rw [hst] at hrest
      exact ih (h.step hc.1 hst) hrest hs

/-- The shared store a directory opens to. -/
def Shared.ofStore (data : Data) (pm : PersistenceManager) : Shared :=
  { data := data, persistence := pm }

/-- The store opened on an intact directory satisfies the invariant. -/
theorem agrees_openDir {H : KvHost} {disk : Disk} {s : KVStore} {pm : PersistenceManager}
    (hi : disk.Intact H) (ho : KVStore.openDir H disk = .ok s) (hp : s.persistence = some pm) :
    Agrees H (Shared.ofStore s.data pm) := by
  obtain ⟨pm', m, hlive, hm, hq, hk⟩ := (tracks_openDir hi ho).exists_live
  have : pm' = pm := Option.some.inj (hlive.persistence.symm.trans hp)
  subst this
  refine ⟨hlive.walFile, hq, hlive.intact, by simp [Shared.pending, Shared.ofStore], ?_⟩
  rw [show (Shared.ofStore s.data pm').persistence = pm' from rfl, hm]
  congr 1
  funext k
  have := hk k
  simpa [Shared.pending, Shared.ofStore] using this

/-- **Concurrent writes and snapshots.**  On a store opened on an intact
directory, every clean schedule that ends with all calls returned leaves a
snapshot and a WAL from which recovery rebuilds the map in memory. -/
theorem quiescent_recovers_of_clean (H : KvHost) (disk : Disk) (s : KVStore)
    (pm : PersistenceManager) (sts : List Step) (s' : Shared) (hi : disk.Intact H)
    (ho : KVStore.openDir H disk = .ok s) (hp : s.persistence = some pm)
    (hc : (Shared.ofStore s.data pm).CleanRun H sts)
    (hs : (Shared.ofStore s.data pm).run H sts = some s') (hq : s'.Quiescent) :
    s'.Recovers H := by
  have h := (agrees_openDir hi ho hp).run hc hs
  have hnil : s'.pending = [] := by
    rw [List.eq_nil_iff_forall_not_mem]
    intro op hop
    obtain ⟨client, hcl⟩ := mem_pending_iff.mp hop
    rw [hq client] at hcl
    exact absurd hcl (by simp)
  exact ⟨_, h.ahead, fun k => by rw [hnil]; rfl⟩

/-- Two clients write different keys with their halves interleaved. -/
theorem disjoint_writers_recover :
    ∃ s', (Shared.ofStore ∅ (.new constHost {})).run constHost
        [.log 0 (.set "a" "1"), .log 1 (.set "b" "2"), .update 0, .update 1] = some s' ∧
      s'.Quiescent ∧ s'.Recovers constHost := by
  have hcomm : (Op.set "b" "2").Commutes (Op.set "a" "1" : Operation) := by
    refine Op.commutes_of_agree ?_
    intro k x y hx hy
    have hb : "b" = k := by simp only [Op.at] at hx; split at hx <;> simp_all
    have ha : "a" = k := by simp only [Op.at] at hy; split at hy <;> simp_all
    exact absurd (ha.trans hb.symm) (by decide)
  refine ⟨_, rfl, fun _ => rfl, ?_⟩
  refine quiescent_recovers_of_clean constHost {} freshStore (.new constHost {})
    [.log 0 (.set "a" "1"), .log 1 (.set "b" "2"), .update 0, .update 1] _
    intact_empty openDir_empty rfl ?_ rfl fun _ => rfl
  refine ⟨?_, ?_, trivial, trivial, trivial⟩
  · intro client op' h
    exact absurd h (by simp [Shared.ofStore])
  · intro client op' h
    have hop : op' = .set "a" "1" := by
      by_cases h0 : client = 0
      · subst h0
        exact (Option.some.inj h).symm
      · have hnone : AList.lookup client (AList.insert 0 (Op.set "a" "1")
            (∅ : AList fun _ : Nat => Operation)) = none := by
          rw [AList.lookup_insert_ne h0]
          rfl
        exact absurd (h.symm.trans hnone) (by simp)
    rw [hop]
    exact hcomm

/-- **A snapshot between the two halves of a write loses the write.**  The
record is archived with the old WAL, and the map is updated after the snapshot
was copied from it. -/
theorem snapshot_between_halves :
    ∃ s', (Shared.ofStore ∅ (.new constHost {})).run constHost
        [.log 0 (.set "k" "v"), .snapshot 1, .update 0] = some s' ∧
      s'.Quiescent ∧ ¬ s'.Recovers constHost := by
  refine ⟨_, rfl, fun _ => rfl, ?_⟩
  rintro ⟨m, hm, hk⟩
  have hm' : m = fun _ => none := (Except.ok.inj hm).symm
  have := hk "k"
  rw [hm'] at this
  exact absurd this (by decide)

/-- **Two writers of one key can update the map against the logged order.** -/
theorem updates_out_of_order :
    ∃ s', (Shared.ofStore ∅ (.new constHost {})).run constHost
        [.log 0 (.set "k" "1"), .log 1 (.set "k" "2"), .update 1, .update 0] = some s' ∧
      s'.Quiescent ∧ ¬ s'.Recovers constHost := by
  refine ⟨_, rfl, fun _ => rfl, ?_⟩
  rintro ⟨m, hm, hk⟩
  have := hk "k"
  rw [← Except.ok.inj hm] at this
  exact absurd this (by decide)

end Kv
end RustyDB
