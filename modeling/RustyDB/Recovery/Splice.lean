import Mathlib
import RustyDB.Recovery.PointInTime

/-!
# Two histories

A database that is restored to an earlier point and continued has a second history, which
shares its beginning with the first one.  A restore that is given records of both takes
the first record it finds of every number.

* `Filter.Reaches` — a record is the first one found of its number, and the target lies
  behind it.
* `Filter.Splices` — the target reaches a record of one history only, and one of the other
  only.
* `OfOneBranch` — what is applied is a run of one of the two histories.
* `splices_exactly` — **a restore that succeeds applies such a run exactly when it does not
  splice the histories.**
* `branches_are_spliced` — a backup, and the archive of its continued restore.
-/

namespace RustyDB
namespace Recovery

open LineFile NumberedLog

variable {α : Type}

/-! ## What is reached -/

/-- A record is the first one found of its number, and a restore gets to it: it lies behind
the base, not beyond an exact target, and no record up to it is behind the cutoff. -/
structure Filter.Reaches (F : Filter) (L : LoopKind α) (found : List α) (r : α) : Prop where
  first : first L.number found (L.number r) = some r
  base : F.base < L.number r
  requested : ∀ n ∈ F.requested, L.number r ≤ n
  timely : ∀ cutoff ∈ F.cutoff, ∀ s, NumberedLog.first L.number found (L.number s) = some s →
    F.base < L.number s → L.number s ≤ L.number r → L.timestampMillis s ≤ cutoff

/-- The restore gets to a record of one history only, and to one of the other only. -/
def Filter.Splices (F : Filter) (L : LoopKind α) (found A B : List α) : Prop :=
  ∃ a b, F.Reaches L found a ∧ F.Reaches L found b ∧ a ∉ B ∧ b ∉ A

/-- What is applied is a run of one of two histories, and not of both branches. -/
def OfOneBranch (applied A B : List α) : Prop :=
  (applied <:+: A ∨ applied <:+: B) ∧ ¬ ∃ a ∈ applied, ∃ b ∈ applied, a ∉ B ∧ b ∉ A

section Reaching

variable {L : LoopKind α} {F : Filter} {found A B : List α} {r : α} {n m : Nat}

/-- The loop keeps the records that the target reaches. -/
theorem Filter.mem_kept_gather :
    r ∈ F.kept L (gather L.number found) ↔ F.Reaches L found r := by
  rw [Filter.mem_kept (increasing_gather found)]
  simp only [mem_gather]
  constructor
  · rintro ⟨hfirst, hbase, hrequested, htimely⟩
    exact ⟨hfirst, hbase, hrequested, htimely⟩
  · rintro ⟨hfirst, hbase, hrequested, htimely⟩
    exact ⟨hfirst, hbase, hrequested, htimely⟩

/-- **Numbered records are of one branch** when the restore does not get to a record of one
history only and to one of the other only. -/
theorem ofOneBranch_iff {applied : List α} (hA : Numbered L.number 0 A)
    (hB : Numbered L.number 0 B) (happlied : Numbered L.number n applied)
    (hreaches : ∀ r, r ∈ applied ↔ F.Reaches L found r) :
    OfOneBranch applied A B ↔ ¬ F.Splices L found A B := by
  constructor
  · rintro ⟨-, hone⟩ ⟨a, b, ha, hb, hnotB, hnotA⟩
    exact hone ⟨a, (hreaches a).mpr ha, b, (hreaches b).mpr hb, hnotB, hnotA⟩
  · intro hsplices
    have hone : ¬ ∃ a ∈ applied, ∃ b ∈ applied, a ∉ B ∧ b ∉ A := by
      rintro ⟨a, ha, b, hb, hnot⟩
      exact hsplices ⟨a, b, (hreaches a).mp ha, (hreaches b).mp hb, hnot⟩
    refine ⟨?_, hone⟩
    by_cases hall : ∀ r ∈ applied, r ∈ B
    · exact Or.inr (happlied.isInfix hB hall)
    · obtain ⟨a, ha, hnotB⟩ : ∃ a ∈ applied, a ∉ B := by simpa using hall
      refine Or.inl (happlied.isInfix hA fun b hb => ?_)
      by_contra hnotA
      exact hone ⟨a, ha, b, hb, hnotB, hnotA⟩

end Reaching

/-! ## Restoring from two histories -/

/-- Two histories of a database, which may share their beginning. -/
structure SqlBranches (A B : List Sql.WalRecord) : Prop where
  left : Numbered Sql.WalRecord.commitVersion 0 A
  right : Numbered Sql.WalRecord.commitVersion 0 B
  steps : ∀ r, r ∈ A ∨ r ∈ B → r.commitVersion = r.baseVersion + 1

/-- Two histories of a store, which may share their beginning. -/
structure KvBranches (A B : List Kv.KvWalRecord) : Prop where
  left : Numbered Kv.KvWalRecord.sequence 0 A
  right : Numbered Kv.KvWalRecord.sequence 0 B

section Branches

variable {R : RecoveryHost} {backup destination : Root} {walArchive : Option Root}
  {target : RecoveryTarget} {p : RecoveryPoint} {sqlA sqlB : List Sql.WalRecord}
  {kvA kvB : List Kv.KvWalRecord}

/-- **Splicing.**  When the logs of a backup and of an archive hold records of two histories
and a restore succeeds, what it has written of an engine is a run of one of the histories
exactly when the restore does not get to a record of one of them only and to one of the
other only, where a record is got to if it is the first one found of its number. -/
theorem splices_exactly
    (hsqlRewrites : (sqlKind R).Rewrites R.sql.encode
      ((sqlKind R).found (backup :: walArchive.toList)))
    (hkvRewrites : (kvKind R).Rewrites R.kv.encode
      ((kvKind R).found (backup :: walArchive.toList)))
    (hsql : SqlBranches sqlA sqlB) (hkv : KvBranches kvA kvB)
    (hsqlFiles : (sqlKind R).Holds (fun r => r ∈ sqlA ∨ r ∈ sqlB) (backup :: walArchive.toList))
    (hkvFiles : (kvKind R).Holds (fun r => r ∈ kvA ∨ r ∈ kvB) (backup :: walArchive.toList))
    (h : (restore R backup walArchive destination target).result = .ok p) :
    ∃ manifest cutoff, openBackup R backup destination = .ok manifest ∧
      target.cutoff = .ok cutoff ∧
      (∃ file applied,
        (restore R backup walArchive destination target).destination.read ["sql_wal.log"] =
          some file ∧ Sql.HoldsRecords R.sql file applied ∧
        (OfOneBranch applied sqlA sqlB ↔
          ¬ (sqlFilter manifest target cutoff).Splices sqlLoop
            ((sqlKind R).found (backup :: walArchive.toList)) sqlA sqlB)) ∧
      ∃ file applied,
        (restore R backup walArchive destination target).destination.read ["rustydb.wal"] =
          some file ∧ KvHoldsRecords R file applied ∧
        (OfOneBranch applied kvA kvB ↔
          ¬ (kvFilter manifest target cutoff).Splices kvLoop
            ((kvKind R).found (backup :: walArchive.toList)) kvA kvB) := by
  obtain ⟨manifest, hopen, q, hplan, hsqlEnd, hkvEnd, -⟩ := restore_eq_ok.mp h
  obtain ⟨hsqlChain, hsqlHolds⟩ := sqlLog_of_ok hsqlFiles hplan
    (hsqlRewrites.subset fun _ hr => appliedSql_subset hr) hsqlEnd
  obtain ⟨hkvChain, hkvHolds⟩ := kvLog_of_ok hkvFiles hplan
    (hkvRewrites.subset fun _ hr => appliedKv_subset hr) hkvEnd
  rw [destination_restore hopen hplan hsqlEnd hkvEnd]
  refine ⟨manifest, q.cutoff, hopen, (plan_eq_ok.mp hplan).1,
    ⟨_, _, read_destination.1, hsqlHolds, ?_⟩, ⟨_, _, read_destination.2, hkvHolds, ?_⟩⟩
  · have hnumbered := (Chained.numbered (chain_sqlLoop.mp hsqlChain) fun r hr =>
      hsql.steps r (hsqlFiles.of_found (appliedSql_subset hr)).2).1
    exact @ofOneBranch_iff _ sqlLoop _ _ _ _ _ _ hsql.left hsql.right hnumbered
      fun r => Filter.mem_kept_gather
  · have hnumbered := (numbered_of_chain ((increasing_gather _).sublist Filter.kept_sublist)
      (fun r hr => Filter.lt_of_kept hr) hkvChain).1
    exact @ofOneBranch_iff _ kvLoop _ _ _ _ _ _ hkv.left hkv.right hnumbered
      fun r => Filter.mem_kept_gather

end Branches

/-! ## A second history -/

/-- What the store has written that was restored to its first write and continued. -/
def branchKvHistory (n : Nat) : Kv.KvWalRecord :=
  .new Kv.sampleHost n (match n with
    | 1 => .set "a" "1"
    | _ => .set "c" "3")

/-- Its archive after two further writes and a snapshot. -/
def branchArchive : Root where
  path := "restored/wal_archive"
  files := [⟨["kv", "kv-3-1700000000004.wal"],
    kvLines [branchKvHistory 1, branchKvHistory 2, branchKvHistory 3]⟩]

/-- The records of a file of sample lines. -/
theorem filterMap_kvLines {records : List Kv.KvWalRecord} {path : List String}
    (h : ∀ r ∈ records, r ∈ Kv.sampleRecords) :
    (StoredFile.mk path (kvLines records)).textLines.filterMap Kv.sampleCodec.decode = records := by
  have hlines : lines (kvLines records) = (records.map Kv.recordText).map some := by
    rw [lines_kvLines h, List.map_map]
    rfl
  rw [StoredFile.textLines, hlines, mapWhileOk_map_some, List.filterMap_map]
  have hdecode : ∀ r ∈ records, (Kv.sampleCodec.decode ∘ Kv.recordText) r = some r :=
    fun r hr => (Kv.sampleCodec_lawful r (h r hr)).decode_encode
  clear hlines h
  induction records with
  | nil => rfl
  | cons r records ih =>
    rw [List.filterMap_cons_some (hdecode r (by simp)),
      ih fun s hs => hdecode s (List.mem_cons_of_mem _ hs)]

theorem filesOf_branchArchive :
    (sqlKind sampleRecovery).filesOf branchArchive = [] ∧
      (kvKind sampleRecovery).filesOf branchArchive = [⟨["kv", "kv-3-1700000000004.wal"],
        kvLines [branchKvHistory 1, branchKvHistory 2, branchKvHistory 3]⟩] :=
  ⟨rfl, rfl⟩

theorem kvFound_branches : (kvKind sampleRecovery).found [sampleBackup, branchArchive] =
    [sampleKvHistory 1, sampleKvHistory 2, branchKvHistory 1, branchKvHistory 2,
      branchKvHistory 3] := by
  have hkind : (kvKind sampleRecovery).decode = Kv.sampleCodec.decode := rfl
  have hfirst : ∀ r ∈ [sampleKvHistory 1, sampleKvHistory 2], r ∈ Kv.sampleRecords := by
    decide +kernel
  have hsecond : ∀ r ∈ [branchKvHistory 1, branchKvHistory 2, branchKvHistory 3],
      r ∈ Kv.sampleRecords := by decide +kernel
  simp only [RecordKind.found, List.flatMap_cons, List.flatMap_nil, filesOf_sampleBackup.2,
    filesOf_branchArchive.2, hkind, filterMap_kvLines hfirst, filterMap_kvLines hsecond,
    List.append_nil, List.cons_append, List.nil_append]

theorem sqlFound_branches : (sqlKind sampleRecovery).found [sampleBackup, branchArchive] =
    [Sql.plainRecord.record] := by
  have hkind : (sqlKind sampleRecovery).decode = Sql.plainHost.decode := rfl
  have hplain := lawful_plainRecord.plain
  have hdecode := lawful_plainRecord.decode_encode
    (Sql.plainRecord.readable_record _)
  have htext : Sql.plainHost.encode Sql.plainRecord.record = Sql.plainRecord.text :=
    Sql.encode_ofSamples Sql.plainRecord
  rw [htext] at hplain hdecode
  have hlines : (StoredFile.mk ["base", "sql_wal.log"] (line Sql.plainRecord.text)).textLines =
      [Sql.plainRecord.text] := by
    rw [StoredFile.textLines, lines_line hplain]
    rfl
  simp only [RecordKind.found, List.flatMap_cons, List.flatMap_nil, filesOf_sampleBackup.1,
    filesOf_branchArchive.1, hkind, hlines, List.filterMap_cons_some hdecode, List.filterMap_nil,
    List.append_nil]

theorem sqlFiles_branches : (sqlKind sampleRecovery).Holds
    (fun r => r ∈ [Sql.plainRecord.record] ∨ r ∈ [Sql.plainRecord.record])
    (sampleBackup :: (some branchArchive).toList) := by
  intro root hroot file hfile
  rcases List.mem_pair.mp hroot with rfl | rfl
  · rw [filesOf_sampleBackup.1, List.mem_singleton] at hfile
    rw [hfile]
    exact holds_plainRecord (Or.inl (List.mem_singleton_self _))
  · rw [filesOf_branchArchive.1] at hfile
    cases hfile

theorem kvFiles_branches : (kvKind sampleRecovery).Holds
    (fun r => r ∈ [sampleKvHistory 1, sampleKvHistory 2] ∨
      r ∈ [branchKvHistory 1, branchKvHistory 2, branchKvHistory 3])
    (sampleBackup :: (some branchArchive).toList) := by
  intro root hroot file hfile
  rcases List.mem_pair.mp hroot with rfl | rfl
  · rw [filesOf_sampleBackup.2, List.mem_singleton] at hfile
    rw [hfile]
    exact holds_kvLines (by decide +kernel)
  · rw [filesOf_branchArchive.2, List.mem_singleton] at hfile
    rw [hfile]
    exact holds_kvLines (by decide +kernel)

theorem sqlBranches_sample : SqlBranches [Sql.plainRecord.record] [Sql.plainRecord.record] := by
  have hnumbered : Numbered Sql.WalRecord.commitVersion 0 [Sql.plainRecord.record] :=
    ⟨rfl, trivial⟩
  refine ⟨hnumbered, hnumbered, fun r hr => ?_⟩
  rw [or_self, List.mem_singleton] at hr
  rw [hr]
  rfl

theorem kvBranches_sample : KvBranches [sampleKvHistory 1, sampleKvHistory 2]
    [branchKvHistory 1, branchKvHistory 2, branchKvHistory 3] :=
  ⟨⟨rfl, rfl, trivial⟩, ⟨rfl, rfl, rfl, trivial⟩⟩

/-- The restore takes the second write from the backup and the third from the archive. -/
theorem restore_branches :
    (restore sampleRecovery sampleBackup (some branchArchive) emptyRoot .latest).result =
        .ok ⟨1, 3⟩ ∧
      ∃ file, (restore sampleRecovery sampleBackup (some branchArchive) emptyRoot
          .latest).destination.read ["rustydb.wal"] = some file ∧
        KvHoldsRecords sampleRecovery file
          [sampleKvHistory 1, sampleKvHistory 2, branchKvHistory 3] := by
  have hlatest : ∀ p ∈ RecoveryTarget.requested .latest, sampleManifest.predates p = false :=
    fun p hp => by cases hp
  obtain ⟨q, hcutoff, hplan⟩ := exists_plan sqlFiles_branches kvFiles_branches (by rfl)
    (Or.inl rfl) hlatest
  have hsqlApplied : appliedSql sampleRecovery sampleManifest .latest none
      (sampleBackup :: (some branchArchive).toList) = [Sql.plainRecord.record] := by
    rw [appliedSql, Option.toList, sqlFound_branches]
    rfl
  have hkvApplied : appliedKv sampleRecovery sampleManifest .latest none
      (sampleBackup :: (some branchArchive).toList) =
        [sampleKvHistory 1, sampleKvHistory 2, branchKvHistory 3] := by
    rw [appliedKv, Option.toList, kvFound_branches]
    rfl
  have hsqlEnd : (restoreSql sampleRecovery sampleManifest sampleBackup.files .latest q).2 =
      .ok 1 := by
    rw [restoreSql_end sqlFiles_branches hplan, hcutoff, hsqlApplied]
    exact ⟨rfl, rfl⟩
  have hkvEnd : (restoreKv sampleRecovery sampleManifest sampleBackup.files .latest q).2 =
      .ok 3 := by
    rw [restoreKv_end kvFiles_branches hplan, hcutoff, hkvApplied]
    exact ⟨rfl, rfl, rfl, rfl⟩
  have hrewrites : (kvKind sampleRecovery).Rewrites sampleRecovery.kv.encode
      (appliedKv sampleRecovery sampleManifest .latest q.cutoff
        (sampleBackup :: (some branchArchive).toList)) :=
    rewrites_sampleCodec rfl fun r hr => found_sampleCodec rfl r (appliedKv_subset hr)
  have hholds := (kvLog_of_ok kvFiles_branches hplan hrewrites hkvEnd).2
  rw [hcutoff, hkvApplied] at hholds
  refine ⟨restore_eq_ok.mpr ⟨sampleManifest, openBackup_sample, q, hplan, hsqlEnd, hkvEnd,
    fun p hp => ?_⟩, _, ?_, hholds⟩
  · cases hp
  · rw [destination_restore openBackup_sample hplan hsqlEnd hkvEnd]
    exact read_destination.2

/-- The database has one history, and nothing of it is spliced. -/
theorem one_commit_is_restored :
    ∃ manifest cutoff file applied, openBackup sampleRecovery sampleBackup emptyRoot =
        .ok manifest ∧ RecoveryTarget.cutoff .latest = .ok cutoff ∧
      (restore sampleRecovery sampleBackup (some branchArchive) emptyRoot
        .latest).destination.read ["sql_wal.log"] = some file ∧
      Sql.HoldsRecords sampleRecovery.sql file applied ∧
      OfOneBranch applied [Sql.plainRecord.record] [Sql.plainRecord.record] := by
  obtain ⟨manifest, cutoff, hopen, hcutoff, ⟨file, applied, hread, hholds, hiff⟩, -⟩ :=
    splices_exactly (rewrites_plainHost rfl (found_plainHost rfl))
      (rewrites_sampleCodec rfl (found_sampleCodec rfl)) sqlBranches_sample
      kvBranches_sample sqlFiles_branches kvFiles_branches restore_branches.1
  refine ⟨manifest, cutoff, file, applied, hopen, hcutoff, hread, hholds, hiff.mpr ?_⟩
  rintro ⟨a, b, ha, -, hnot, -⟩
  exact hnot (or_self_iff.mp (sqlFiles_branches.of_found (mem_of_first ha.first)).2)

/-- **Two histories are spliced**: the backup holds the writes of `a` and `b`, the archive those
of `a`, `c` and `c` again, and the restore writes `a`, `b` and `c`. -/
theorem branches_are_spliced : ∃ (sqlA sqlB : List Sql.WalRecord) (kvA kvB : List Kv.KvWalRecord),
    SqlBranches sqlA sqlB ∧ KvBranches kvA kvB ∧
      (sqlKind sampleRecovery).Rewrites sampleRecovery.sql.encode
        ((sqlKind sampleRecovery).found [sampleBackup, branchArchive]) ∧
      (kvKind sampleRecovery).Rewrites sampleRecovery.kv.encode
        ((kvKind sampleRecovery).found [sampleBackup, branchArchive]) ∧
      (sqlKind sampleRecovery).Holds (fun r => r ∈ sqlA ∨ r ∈ sqlB)
        [sampleBackup, branchArchive] ∧
      (kvKind sampleRecovery).Holds (fun r => r ∈ kvA ∨ r ∈ kvB) [sampleBackup, branchArchive] ∧
      (restore sampleRecovery sampleBackup (some branchArchive) emptyRoot .latest).result =
        .ok ⟨1, 3⟩ ∧
      ∃ file applied,
        (restore sampleRecovery sampleBackup (some branchArchive) emptyRoot
          .latest).destination.read ["rustydb.wal"] = some file ∧
        KvHoldsRecords sampleRecovery file applied ∧ ¬ OfOneBranch applied kvA kvB := by
  obtain ⟨hresult, file, hread, hholds⟩ := restore_branches
  refine ⟨_, _, _, _, sqlBranches_sample, kvBranches_sample,
    rewrites_plainHost rfl (found_plainHost rfl), rewrites_sampleCodec rfl (found_sampleCodec rfl),
    sqlFiles_branches, kvFiles_branches, hresult, file, _, hread, hholds,
    fun hone => hone.2 ⟨sampleKvHistory 2, by simp, branchKvHistory 3, by simp, ?_, ?_⟩⟩
  · decide +kernel
  · decide +kernel

end Recovery
end RustyDB
