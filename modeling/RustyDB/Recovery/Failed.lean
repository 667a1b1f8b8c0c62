import Mathlib
import RustyDB.Recovery.Splice

/-!
# Restores that fail

`restore` copies the snapshots and the archive before it looks at its target and at the
records, and writes the logs while it checks that the records follow one another.  Nothing is
removed when a check fails.

* `StoredFile.IsData` — the files from which a directory is opened as a database.
* `Restorable` — the backup is complete, the target is behind it, the records that are kept
  follow one another, and the requested point is reached.
* `restorable_iff` — **these are the restores that succeed.**
* `failed_restore_leaves_iff` — **a failed restore leaves no data exactly when the backup could
  not be opened, or there was nothing to copy and it failed before the logs.**
-/

namespace RustyDB
namespace Recovery

open LineFile NumberedLog

/-! ## What is left -/

/-- The snapshots, the logs and the archived segments of a data directory. -/
def StoredFile.IsData (file : StoredFile) : Prop :=
  file.path ∈ [["catalog.json"], ["rustydb.db"], ["sql_wal.log"], ["rustydb.wal"]] ∨
    file.path.head? = some "wal_archive"

section Failing

variable (R : RecoveryHost) (backup : Root) (walArchive : Option Root) (destination : Root)
  (target : RecoveryTarget)

/-- When the restore fails, there is no data in the destination. -/
def LeavesNoData : Prop :=
  ∀ error, (restore R backup walArchive destination target).result = .error error →
    ∀ file ∈ (restore R backup walArchive destination target).destination, ¬ file.IsData

/-- When the restore fails, it can be started again into the destination. -/
def CanBeRetried : Prop :=
  ∀ error, (restore R backup walArchive destination target).result = .error error →
    ensureDestinationEmpty ⟨destination.path,
      (restore R backup walArchive destination target).destination⟩ = .ok ()

/-- A log without lines of an older format, unless the target is the latest state, whose kept
records lead from the base to a number. -/
def LeadsTo {α : Type} (K : RecordKind α) (L : LoopKind α) (F : Filter) (path : List String)
    (records : List α) (reached : Nat) : Prop :=
  (K.legacyLines backup.files path = [] ∨ target = .latest) ∧
    L.Chain F.base (F.kept L records) reached

/-- The backup can be opened, the target passes its checks, both logs lead to a number, and
these are the ones that were requested. -/
def Restorable : Prop :=
  ∃ manifest q reached, openBackup R backup destination = .ok manifest ∧
    plan R manifest (backup :: walArchive.toList) target = .ok q ∧
    LeadsTo backup target (sqlKind R) sqlLoop (sqlFilter manifest target q.cutoff)
      ["base", "sql_wal.log"] q.sqlRecords reached.sqlCommitVersion ∧
    LeadsTo backup target (kvKind R) kvLoop (kvFilter manifest target q.cutoff)
      ["base", "rustydb.wal"] q.kvRecords reached.kvSequence ∧
    ∀ point ∈ target.requested, reached = point

end Failing

/-! ## Restores that succeed -/

section Proofs

variable {R : RecoveryHost} {backup destination : Root} {walArchive : Option Root}
  {target : RecoveryTarget} {manifest : BackupManifest} {q : Plan} {file : StoredFile}

/-- A log is written when it leads somewhere. -/
theorem writeLog_eq_ok {α : Type} {encode : α → String} {legacyError : String} {latest : Bool}
    {legacy : List String} {L : LoopKind α} {F : Filter} {rs : List α} {n m : Nat} :
    (writeLog encode legacyError latest legacy (applyRecords L F n rs)).2 = .ok m ↔
      (legacy = [] ∨ latest = true) ∧ L.Chain n (F.kept L rs) m := by
  have hchain : (applyRecords L F n rs).2 = .ok m ↔ L.Chain n (F.kept L rs) m := by
    constructor
    · intro h
      obtain ⟨hkept, hchain⟩ := applyRecords_eq_ok.mp (Prod.ext rfl h)
      rw [hkept] at hchain
      exact hchain
    · intro h
      rw [applyRecords_eq_ok.mpr ⟨rfl, h⟩]
  rw [writeLog, ← hchain]
  by_cases hlegacy : legacy ≠ [] ∧ latest = false
  · rw [if_pos hlegacy]
    constructor
    · intro h
      cases h
    · rintro ⟨hnil | hlatest, -⟩
      · exact absurd hnil hlegacy.1
      · rw [hlegacy.2] at hlatest
        cases hlatest
  · rw [if_neg hlegacy]
    rw [not_and_or, not_not, Bool.not_eq_false] at hlegacy
    exact ⟨fun h => ⟨hlegacy, h⟩, And.right⟩

theorem restoreSql_eq_ok {version : Nat} :
    (restoreSql R manifest backup.files target q).2 = .ok version ↔
      LeadsTo backup target (sqlKind R) sqlLoop (sqlFilter manifest target q.cutoff)
        ["base", "sql_wal.log"] q.sqlRecords version := by
  rw [restoreSql, applySqlRecords, writeLog_eq_ok, LeadsTo, beq_iff_eq]
  rfl

theorem restoreKv_eq_ok {sequence : Nat} :
    (restoreKv R manifest backup.files target q).2 = .ok sequence ↔
      LeadsTo backup target (kvKind R) kvLoop (kvFilter manifest target q.cutoff)
        ["base", "rustydb.wal"] q.kvRecords sequence := by
  rw [restoreKv, applyKvRecords, writeLog_eq_ok, LeadsTo, beq_iff_eq]
  rfl

/-- **The restores that succeed.** -/
theorem restorable_iff : Restorable R backup walArchive destination target ↔
    ∃ p, (restore R backup walArchive destination target).result = .ok p := by
  simp only [restore_eq_ok, restoreSql_eq_ok, restoreKv_eq_ok]
  constructor
  · rintro ⟨manifest, q, reached, hopen, hplan, hsql, hkv, hpoint⟩
    exact ⟨reached, manifest, hopen, q, hplan, hsql, hkv, hpoint⟩
  · rintro ⟨reached, manifest, hopen, q, hplan, hsql, hkv, hpoint⟩
    exact ⟨manifest, q, reached, hopen, hplan, hsql, hkv, hpoint⟩

/-! ## Restores that fail -/

/-- What is copied is data. -/
theorem isData_of_restoreFiles (h : file ∈ restoreFiles backup.files) : file.IsData := by
  have hcopied : ∀ {path destination : List String}, file ∈ backup.files.copyFile path destination →
      file.path = destination := by
    intro path destination hfile
    rw [Directory.copyFile, Option.mem_toList, Option.map_eq_some_iff] at hfile
    obtain ⟨content, _, rfl⟩ := hfile
    rfl
  rw [restoreFiles, List.mem_append, List.mem_append] at h
  rcases h with (h | h) | h
  · exact Or.inl (by rw [hcopied h]; decide)
  · exact Or.inl (by rw [hcopied h]; decide)
  · rw [Directory.copyTree, List.mem_filter, beq_iff_eq] at h
    exact Or.inr h.2

theorem not_isData_of_lockFiles (h : file ∈ lockFiles) : ¬ file.IsData := by
  rcases List.mem_pair.mp h with rfl | rfl
  · rintro (hpath | harchive)
    · exact absurd hpath (by decide)
    · exact absurd harchive (by decide)
  · rintro (hpath | harchive)
    · exact absurd hpath (by decide)
    · exact absurd harchive (by decide)

/-- Nothing has been touched when the backup cannot be opened. -/
theorem restore_of_not_open {error : String}
    (hopen : openBackup R backup destination = .error error) :
    restore R backup walArchive destination target = ⟨destination.files, .error error⟩ := by
  rw [restore, hopen]

/-- The snapshots and the archive have been copied when the target or a record is refused. -/
theorem restore_of_not_planned {error : String}
    (hopen : openBackup R backup destination = .ok manifest)
    (hplan : plan R manifest (backup :: walArchive.toList) target = .error error) :
    restore R backup walArchive destination target =
      ⟨lockFiles ++ restoreFiles backup.files, .error error⟩ := by
  rw [restore, hopen]
  simp only [hplan]

/-- From then on there is a log. -/
theorem sqlLog_mem (hopen : openBackup R backup destination = .ok manifest)
    (hplan : plan R manifest (backup :: walArchive.toList) target = .ok q) :
    ∃ content, ⟨["sql_wal.log"], content⟩ ∈
      (restore R backup walArchive destination target).destination := by
  rw [restore, hopen]
  simp only [hplan]
  refine ⟨(restoreSql R manifest backup.files target q).1, ?_⟩
  cases (restoreSql R manifest backup.files target q).2 with
  | error error => exact List.mem_append_right _ (List.mem_singleton_self _)
  | ok version =>
    simp only []
    cases (restoreKv R manifest backup.files target q).2 with
    | error error =>
      exact List.mem_append_left _ (List.mem_append_right _ (List.mem_singleton_self _))
    | ok sequence =>
      exact List.mem_append_left _ (List.mem_append_right _ (List.mem_singleton_self _))

theorem ensureDestinationEmpty_eq_ok {root : Root} :
    ensureDestinationEmpty root = .ok () ↔ root.files = [] := by
  rw [ensureDestinationEmpty]
  by_cases hempty : root.files = []
  · rw [if_pos hempty]
    exact ⟨fun _ => hempty, fun _ => rfl⟩
  · rw [if_neg hempty]
    exact ⟨nofun, fun h => absurd h hempty⟩

/-- A restore that gets to the logs leaves data when it fails. -/
theorem leaves_of_planned (hopen : openBackup R backup destination = .ok manifest)
    (hplan : plan R manifest (backup :: walArchive.toList) target = .ok q) :
    (LeavesNoData R backup walArchive destination target ↔
      Restorable R backup walArchive destination target) ∧
    (CanBeRetried R backup walArchive destination target ↔
      Restorable R backup walArchive destination target) := by
  obtain ⟨content, hlog⟩ := @sqlLog_mem R backup destination walArchive target manifest q hopen
    hplan
  have hdata : (StoredFile.mk ["sql_wal.log"] content).IsData := Or.inl (by simp)
  rw [restorable_iff]
  rcases Result.error_or_ok (restore R backup walArchive destination target).result with
    ⟨error, herror⟩ | ⟨p, hok⟩
  · have hfailed : ¬ ∃ p, (restore R backup walArchive destination target).result = .ok p := by
      rintro ⟨p, hp⟩
      rw [herror] at hp
      cases hp
    refine ⟨⟨fun h => absurd hdata (h error herror _ hlog), fun h => absurd h hfailed⟩,
      ⟨fun h => ?_, fun h => absurd h hfailed⟩⟩
    exact absurd (ensureDestinationEmpty_eq_ok.mp (h error herror)) (List.ne_nil_of_mem hlog)
  · have hnever : ∀ error,
        (restore R backup walArchive destination target).result ≠ .error error := by
      intro error herror
      rw [hok] at herror
      cases herror
    exact ⟨⟨fun _ => ⟨p, hok⟩, fun _ error herror => absurd herror (hnever error)⟩,
      ⟨fun _ => ⟨p, hok⟩, fun _ error herror => absurd herror (hnever error)⟩⟩

/-- A restore that refuses its target or a record leaves what it has copied. -/
theorem leaves_of_not_planned {error : String}
    (hopen : openBackup R backup destination = .ok manifest)
    (hplan : plan R manifest (backup :: walArchive.toList) target = .error error) :
    (LeavesNoData R backup walArchive destination target ↔ restoreFiles backup.files = []) ∧
      ¬ CanBeRetried R backup walArchive destination target := by
  rw [LeavesNoData, CanBeRetried, restore_of_not_planned hopen hplan]
  refine ⟨⟨fun h => ?_, fun hnothing _ _ file hfile => ?_⟩, fun h => ?_⟩
  · by_contra hne
    obtain ⟨file, hfile⟩ := List.exists_mem_of_ne_nil _ hne
    exact h error rfl file (List.mem_append_right _ hfile) (isData_of_restoreFiles hfile)
  · rw [hnothing, List.append_nil] at hfile
    exact not_isData_of_lockFiles hfile
  · exact absurd (ensureDestinationEmpty_eq_ok.mp (h error rfl)) (List.cons_ne_nil _ _)

/-- **What a failed restore leaves.**  There is no data in the destination exactly when the
restore succeeds, the backup could not be opened, or there was nothing to copy and the target or
a record was refused; and the restore can be started again exactly in the first two cases. -/
theorem failed_restore_leaves_iff (R : RecoveryHost) (backup : Root) (walArchive : Option Root)
    (destination : Root) (target : RecoveryTarget) (hempty : destination.files = []) :
    (LeavesNoData R backup walArchive destination target ↔
      Restorable R backup walArchive destination target ∨
        (∀ manifest, openBackup R backup destination ≠ .ok manifest) ∨
        (restoreFiles backup.files = [] ∧
          ∀ manifest, openBackup R backup destination = .ok manifest →
            ∀ q, plan R manifest (backup :: walArchive.toList) target ≠ .ok q)) ∧
    (CanBeRetried R backup walArchive destination target ↔
      Restorable R backup walArchive destination target ∨
        ∀ manifest, openBackup R backup destination ≠ .ok manifest) := by
  rcases Result.error_or_ok (openBackup R backup destination) with
    ⟨error, hopen⟩ | ⟨manifest, hopen⟩
  · have hnever : ∀ manifest, openBackup R backup destination ≠ .ok manifest := by
      intro manifest hok
      rw [hopen] at hok
      cases hok
    rw [LeavesNoData, CanBeRetried, restore_of_not_open hopen, hempty]
    exact ⟨⟨fun _ => Or.inr (Or.inl hnever), fun _ _ _ file hfile => by cases hfile⟩,
      ⟨fun _ => Or.inr hnever, fun _ _ _ => rfl⟩⟩
  · have hopened : ¬ ∀ other, openBackup R backup destination ≠ .ok other :=
      fun h => h manifest hopen
    rcases Result.error_or_ok (plan R manifest (backup :: walArchive.toList) target) with
      ⟨error, hplan⟩ | ⟨q, hplan⟩
    · have hrefused : ¬ Restorable R backup walArchive destination target := by
        rw [restorable_iff, restore_of_not_planned hopen hplan]
        rintro ⟨p, hp⟩
        cases hp
      have hnever : ∀ other, openBackup R backup destination = .ok other →
          ∀ q, plan R other (backup :: walArchive.toList) target ≠ .ok q := by
        intro other hother q hq
        rw [hopen] at hother
        cases hother
        rw [hplan] at hq
        cases hq
      obtain ⟨hleaves, hretry⟩ := leaves_of_not_planned hopen hplan
      rw [hleaves]
      refine ⟨⟨fun hnothing => Or.inr (Or.inr ⟨hnothing, hnever⟩), ?_⟩,
        ⟨fun h => absurd h hretry, ?_⟩⟩
      · rintro (hrestorable | hopen' | ⟨hnothing, -⟩)
        · exact absurd hrestorable hrefused
        · exact absurd hopen' hopened
        · exact hnothing
      · rintro (hrestorable | hopen')
        · exact absurd hrestorable hrefused
        · exact absurd hopen' hopened
    · obtain ⟨hleaves, hretry⟩ := leaves_of_planned hopen hplan
      rw [hleaves, hretry]
      refine ⟨⟨Or.inl, ?_⟩, ⟨Or.inl, ?_⟩⟩
      · rintro (hrestorable | hopen' | ⟨-, hplan'⟩)
        · exact hrestorable
        · exact absurd hopen' hopened
        · exact absurd hplan (hplan' manifest hopen q)
      · rintro (hrestorable | hopen')
        · exact hrestorable
        · exact absurd hopen' hopened

end Proofs

/-! ## A point that is not there -/

/-- The latest state can be restored. -/
theorem latest_state_leaves_nothing_behind :
    LeavesNoData sampleRecovery sampleBackup (some branchArchive) emptyRoot .latest ∧
      CanBeRetried sampleRecovery sampleBackup (some branchArchive) emptyRoot .latest := by
  have hrestorable :
      Restorable sampleRecovery sampleBackup (some branchArchive) emptyRoot .latest :=
    restorable_iff.mpr ⟨_, restore_branches.1⟩
  obtain ⟨hleaves, hretry⟩ := failed_restore_leaves_iff sampleRecovery sampleBackup
    (some branchArchive) emptyRoot .latest rfl
  exact ⟨hleaves.mpr (Or.inl hrestorable), hretry.mpr (Or.inl hrestorable)⟩

/-- The backup and the archive have one commit.  The logs are in the destination when the
restore finds that there is no second one. -/
theorem missing_commit_leaves_logs :
    ¬ LeavesNoData sampleRecovery sampleBackup (some branchArchive) emptyRoot (.point ⟨2, 3⟩) ∧
      ¬ CanBeRetried sampleRecovery sampleBackup (some branchArchive) emptyRoot
        (.point ⟨2, 3⟩) := by
  have hpoint : ∀ p ∈ RecoveryTarget.requested (.point ⟨2, 3⟩),
      sampleManifest.predates p = false := by
    rintro _ ⟨⟩
    rfl
  obtain ⟨q, hcutoff, hplan⟩ := exists_plan sqlFiles_branches kvFiles_branches (by rfl)
    (Or.inl rfl) hpoint
  have happlied : appliedSql sampleRecovery sampleManifest (.point ⟨2, 3⟩) none
      (sampleBackup :: (some branchArchive).toList) = [Sql.plainRecord.record] := by
    rw [appliedSql, Option.toList, sqlFound_branches]
    rfl
  have hrefused : ¬ Restorable sampleRecovery sampleBackup (some branchArchive) emptyRoot
      (.point ⟨2, 3⟩) := by
    rw [restorable_iff]
    rintro ⟨p, hp⟩
    obtain ⟨manifest, hopen, q', hplan', hsql, -, hreached⟩ := restore_eq_ok.mp hp
    obtain rfl : p = ⟨2, 3⟩ := hreached _ rfl
    obtain rfl : sampleManifest = manifest := Except.ok.inj (openBackup_sample.symm.trans hopen)
    obtain rfl : q = q' := Except.ok.inj (hplan.symm.trans hplan')
    rw [restoreSql_end sqlFiles_branches hplan, hcutoff, happlied] at hsql
    have hone : (1 : Nat) = 2 := hsql.2
    omega
  obtain ⟨hleaves, hretry⟩ := leaves_of_planned openBackup_sample hplan
  rw [hleaves, hretry]
  exact ⟨hrefused, hrefused⟩

end Recovery
end RustyDB
