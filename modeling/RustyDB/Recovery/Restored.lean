import Mathlib
import RustyDB.Recovery.Backup

/-!
# The logs that a restore leaves

When every line of the logs of a backup and an archive is a valid record, a restored log
holds the records that the loop keeps, and they are read back.

* `RecordKind.Holds` — every line of the files of an engine is a valid record.
* `RecordKind.Rewrites` — valid records are written as lines that are read as the same records.
* `appliedSql`, `appliedKv` — the records that a restore writes.
* `sqlLog_of_ok`, `kvLog_of_ok` — **a restored log holds these records, each following the
  one before.**
* `replayRecords_ne_gap` — `replay_wal` finds no gap in it.
-/

namespace RustyDB
namespace Recovery

open LineFile NumberedLog

variable {α : Type}

/-! ## Records in files -/

/-- Every line of the files of an engine is a valid record, with some property. -/
def RecordKind.Holds (K : RecordKind α) (P : α → Prop) (roots : List Root) : Prop :=
  ∀ root ∈ roots, ∀ file ∈ K.filesOf root, ∀ l ∈ lines file.content, ∃ text r,
    l = some text ∧ K.decode text = some r ∧ K.valid r = true ∧ P r

/-- What a restore relies on for the records it has read: each that is valid is written back
as one line, which is read as the record. -/
structure RecordKind.Rewrites (K : RecordKind α) (encode : α → String) (records : List α) :
    Prop where
  plain : ∀ r ∈ records, K.valid r = true → Plain (encode r)
  nonblank : ∀ r ∈ records, K.valid r = true → isBlank (encode r) = false
  decode_encode : ∀ r ∈ records, K.valid r = true → K.decode (encode r) = some r

theorem RecordKind.Rewrites.subset {K : RecordKind α} {encode : α → String}
    {records others : List α} (h : K.Rewrites encode records) (hsubset : others ⊆ records) :
    K.Rewrites encode others :=
  ⟨fun r hr => h.plain r (hsubset hr), fun r hr => h.nonblank r (hsubset hr),
    fun r hr => h.decode_encode r (hsubset hr)⟩

section Files

variable {K : RecordKind α} {P : α → Prop} {roots : List Root} {r : α}

theorem mem_mapWhileOk {text : String} {ls : List (Option String)} (h : text ∈ mapWhileOk ls) :
    some text ∈ ls := by
  induction ls with
  | nil => cases h
  | cons l ls ih =>
    cases l with
    | none => cases h
    | some first =>
      rcases List.mem_cons.mp h with rfl | h
      · exact List.mem_cons_self
      · exact List.mem_cons_of_mem _ (ih h)

theorem mem_found : r ∈ K.found roots ↔ ∃ root ∈ roots, ∃ file ∈ K.filesOf root,
    ∃ text ∈ file.textLines, K.decode text = some r := by
  simp only [RecordKind.found, List.mem_flatMap, List.mem_filterMap]

@[simp] theorem mapWhileOk_map_some (texts : List String) :
    mapWhileOk (texts.map some) = texts := by
  induction texts with
  | nil => rfl
  | cons text texts ih => simp [mapWhileOk, ih]

/-- The records of a file of text are found. -/
theorem mem_found_of_lines {root : Root} {file : StoredFile} {texts : List String} {text : String}
    (hroot : root ∈ roots) (hfile : file ∈ root.files) (hselects : K.selects file.fileName = true)
    (hlines : lines file.content = texts.map some) (htext : text ∈ texts)
    (hdecode : K.decode text = some r) : r ∈ K.found roots := by
  refine mem_found.mpr ⟨root, hroot, file, mem_filesOf.mpr ⟨hfile, hselects⟩, text, ?_, hdecode⟩
  rw [StoredFile.textLines, hlines, mapWhileOk_map_some]
  exact htext

theorem decode_of_found (h : r ∈ K.found roots) : ∃ text, K.decode text = some r := by
  obtain ⟨-, -, -, -, text, -, hdecode⟩ := mem_found.mp h
  exact ⟨text, hdecode⟩

/-- What is found is valid, with the property. -/
theorem RecordKind.Holds.of_found (h : K.Holds P roots) (hr : r ∈ K.found roots) :
    K.valid r = true ∧ P r := by
  obtain ⟨root, hroot, file, hfile, text, htext, hdecode⟩ := mem_found.mp hr
  obtain ⟨text', r', heq, hrecord, hvalid⟩ := h root hroot file hfile _ (mem_mapWhileOk htext)
  obtain rfl := Option.some.inj heq
  obtain rfl := Option.some.inj (hdecode.symm.trans hrecord)
  exact hvalid

/-- No line is of an older format. -/
theorem RecordKind.Holds.legacyLines (h : K.Holds P roots) {backup : Root}
    (hbackup : backup ∈ roots) {path : List String}
    (hselects : K.selects (path.getLast?.getD "") = true) :
    K.legacyLines backup.files path = [] := by
  rw [RecordKind.legacyLines]
  cases hread : backup.files.read path with
  | none => rfl
  | some content =>
    refine List.filter_eq_nil_iff.mpr fun text htext => ?_
    have hfile : ⟨path, content⟩ ∈ K.filesOf backup :=
      mem_filesOf.mpr ⟨mem_of_read hread, hselects⟩
    obtain ⟨text', r, heq, hrecord, -⟩ := h backup hbackup _ hfile _ (mem_mapWhileOk htext)
    obtain rfl := Option.some.inj heq
    simp [hrecord]

end Files

/-! ## Chains -/

section Chains

variable {L : LoopKind α} {rs : List α} {r : α} {n m : Nat}

/-- A chain ends at its last record. -/
theorem LoopKind.Chain.stop (h : L.Chain n rs m) : m = n ∨ ∃ r ∈ rs, L.number r = m := by
  induction rs generalizing n with
  | nil => exact Or.inl (Eq.symm h)
  | cons r rs ih =>
    rcases ih h.2 with rfl | ⟨s, hs, hnumber⟩
    · exact Or.inr ⟨r, by simp, rfl⟩
    · exact Or.inr ⟨s, List.mem_cons_of_mem _ hs, hnumber⟩

/-- No number of an increasing chain lies behind its end. -/
theorem LoopKind.Chain.le (h : L.Chain n rs m) (hrs : Increasing L.number rs) (hr : r ∈ rs) :
    L.number r ≤ m := by
  induction rs generalizing n with
  | nil => cases hr
  | cons s rs ih =>
    obtain ⟨hfirst, hrest⟩ := List.pairwise_cons.mp hrs
    rcases List.mem_cons.mp hr with rfl | hr
    · rcases h.2.stop with rfl | ⟨s, hs, hnumber⟩
      · exact Nat.le_refl _
      · have := hfirst s hs
        omega
    · exact ih h.2 hrest hr

end Chains

/-! ## Logs -/

/-- A file whose lines are read as these valid records. -/
def KvHoldsRecords (R : RecoveryHost) (file : Bytes) (records : List Kv.KvWalRecord) : Prop :=
  List.Forall₂ (fun l r => ∃ text, l = some text ∧ R.kv.readLine text = .record r ∧
    r.valid R.kvHost = true) (lines file) records

section Logs

variable {K : RecordKind α} {encode : α → String} {applied : List α}

/-- A log of valid records is read line by line. -/
theorem lines_of_rewrites (h : K.Rewrites encode applied)
    (hvalid : ∀ r ∈ applied, K.valid r = true) :
    lines (applied.flatMap fun r => line (encode r)) = applied.map fun r => some (encode r) := by
  have hplain : ∀ s ∈ applied.map encode, Plain s := by
    intro s hs
    obtain ⟨r, hr, rfl⟩ := List.mem_map.mp hs
    exact h.plain r hr (hvalid r hr)
  have hlines := (lines_append_flatMap clean_nil hplain).1
  rw [List.nil_append, List.flatMap_map] at hlines
  rw [hlines]
  simp [lines, split]

/-- A log of valid SQL records is read back. -/
theorem holdsRecords_of_rewrites {R : RecoveryHost} {applied : List Sql.WalRecord}
    (h : (sqlKind R).Rewrites R.sql.encode applied)
    (hvalid : ∀ r ∈ applied, r.valid R.sql = true) :
    Sql.HoldsRecords R.sql (applied.flatMap fun r => line (R.sql.encode r)) applied := by
  rw [Sql.HoldsRecords, lines_of_rewrites h hvalid, List.forall₂_map_left_iff]
  refine List.forall₂_same.mpr fun r hr => ⟨_, rfl, ?_, hvalid r hr⟩
  have hdecode : R.sql.decode (R.sql.encode r) = some r := h.decode_encode r hr (hvalid r hr)
  have hblank : isBlank (R.sql.encode r) = false := h.nonblank r hr (hvalid r hr)
  simp [Sql.WalHost.readLine, hdecode, hblank]

/-- A log of valid key-value records is read back. -/
theorem kvHoldsRecords_of_rewrites {R : RecoveryHost} {applied : List Kv.KvWalRecord}
    (h : (kvKind R).Rewrites R.kv.encode applied)
    (hvalid : ∀ r ∈ applied, r.valid R.kvHost = true) :
    KvHoldsRecords R (applied.flatMap fun r => line (R.kv.encode r)) applied := by
  rw [KvHoldsRecords, lines_of_rewrites h hvalid, List.forall₂_map_left_iff]
  refine List.forall₂_same.mpr fun r hr => ⟨_, rfl, ?_, hvalid r hr⟩
  have hdecode : R.kv.decode (R.kv.encode r) = some r := h.decode_encode r hr (hvalid r hr)
  have hblank : isBlank (R.kv.encode r) = false := h.nonblank r hr (hvalid r hr)
  simp [Kv.KvCodec.readLine, hdecode, hblank]

end Logs

/-! ## Replaying the log -/

section Replay

variable {H : Sql.Host} {W : Sql.WalHost} {catalog : Sql.Catalog} {rs : List Sql.WalRecord}
  {n m c b : Nat}

theorem replayStatements_ne_gap {durables : List Sql.DurableStatement} :
    Sql.replayStatements H W catalog durables ≠ .error (.gap c b) := by
  induction durables generalizing catalog with
  | nil => simp [Sql.replayStatements]
  | cons durable rest ih =>
    intro h
    rw [Sql.replayStatements] at h
    cases hstatement : durable.statement W with
    | error e =>
      rw [hstatement, Result.error_bind] at h
      cases durable with
      | sql text =>
        rw [Sql.DurableStatement.statement, Except.error.inj h] at hstatement
        cases hparse : W.parseSql text <;> simp [hparse, Except.mapError] at hstatement
      | bound statement => cases hstatement
    | ok statement =>
      rw [hstatement, Result.ok_bind] at h
      cases hnext : Sql.replayStatement
          (H.inProcess (W.process catalog.version rest.length)) catalog statement with
      | error fault => simp [hnext, Except.mapError] at h
      | ok next =>
        rw [hnext] at h
        exact ih h

/-- **A chain from the version of the catalog** is replayed without a gap. -/
theorem replayRecords_ne_gap
    (h : Chained Sql.WalRecord.baseVersion Sql.WalRecord.commitVersion n rs m)
    (hrs : Increasing Sql.WalRecord.commitVersion rs) (hlt : ∀ r ∈ rs, n < r.commitVersion)
    (hversion : catalog.version = n) :
    Sql.replayRecords H W catalog rs ≠ .error (.gap c b) := by
  induction rs generalizing n catalog with
  | nil => simp [Sql.replayRecords]
  | cons r rs ih =>
    obtain ⟨hbase, hchain⟩ := h
    obtain ⟨hfirst, hrest⟩ := List.pairwise_cons.mp hrs
    have hr := hlt r (by simp)
    have hrecord : Sql.replayRecord H W catalog r.baseVersion r.commitVersion r.statements =
        (Sql.replayStatements H W catalog r.statements).map
          fun next => { next with version := r.commitVersion } := by
      rw [Sql.replayRecord, if_neg (by omega), if_neg (by omega)]
    rw [Sql.replayRecords, hrecord]
    cases hstatements : Sql.replayStatements H W catalog r.statements with
    | error e =>
      intro heq
      rw [Except.error.inj heq] at hstatements
      exact replayStatements_ne_gap hstatements
    | ok next => exact ih hchain hrest hfirst rfl

end Replay

/-! ## Restoring -/

section Restoring

variable {R : RecoveryHost} {backup : Root} {walArchive : Option Root} {target : RecoveryTarget}
  {manifest : BackupManifest} {q : Plan} {version sequence : Nat}

/-- The SQL records that a restore applies. -/
def appliedSql (R : RecoveryHost) (manifest : BackupManifest) (target : RecoveryTarget)
    (cutoff : Option Nat) (roots : List Root) : List Sql.WalRecord :=
  (sqlFilter manifest target cutoff).kept sqlLoop
    (gather Sql.WalRecord.commitVersion ((sqlKind R).found roots))

/-- The key-value records that a restore applies. -/
def appliedKv (R : RecoveryHost) (manifest : BackupManifest) (target : RecoveryTarget)
    (cutoff : Option Nat) (roots : List Root) : List Kv.KvWalRecord :=
  (kvFilter manifest target cutoff).kept kvLoop
    (gather Kv.KvWalRecord.sequence ((kvKind R).found roots))

theorem appliedSql_subset {cutoff : Option Nat} {roots : List Root} {r : Sql.WalRecord}
    (h : r ∈ appliedSql R manifest target cutoff roots) : r ∈ (sqlKind R).found roots :=
  gather_subset (Filter.kept_sublist.subset h)

theorem appliedKv_subset {cutoff : Option Nat} {roots : List Root} {r : Kv.KvWalRecord}
    (h : r ∈ appliedKv R manifest target cutoff roots) : r ∈ (kvKind R).found roots :=
  gather_subset (Filter.kept_sublist.subset h)

/-- The two logs are where the engines look for them. -/
theorem read_destination {sqlFile kvFile : Bytes} :
    Directory.read (lockFiles ++ restoreFiles backup.files ++ [⟨["sql_wal.log"], sqlFile⟩] ++
        [⟨["rustydb.wal"], kvFile⟩]) ["sql_wal.log"] = some sqlFile ∧
      Directory.read (lockFiles ++ restoreFiles backup.files ++ [⟨["sql_wal.log"], sqlFile⟩] ++
        [⟨["rustydb.wal"], kvFile⟩]) ["rustydb.wal"] = some kvFile := by
  simp only [restoreFiles, read_append, read_copyFile, read_singleton]
  rw [read_copyTree_of_ne (by decide), read_copyTree_of_ne (by decide)]
  exact ⟨rfl, rfl⟩

/-- Valid records are collected, so that only the checks of the target can fail. -/
theorem exists_plan {P : Sql.WalRecord → Prop} {P' : Kv.KvWalRecord → Prop} {roots : List Root}
    {cutoff : Option Nat} (hsqlFiles : (sqlKind R).Holds P roots)
    (hkvFiles : (kvKind R).Holds P' roots) (hcutoff : target.cutoff = .ok cutoff)
    (htime : manifest.baseTime = 0 ∨ ∀ c ∈ cutoff, manifest.baseTime ≤ c)
    (hpoint : ∀ p ∈ target.requested, manifest.predates p = false) :
    ∃ q, q.cutoff = cutoff ∧ plan R manifest roots target = .ok q :=
  ⟨⟨cutoff, _, _⟩, rfl, plan_eq_ok.mpr ⟨hcutoff, htime, hpoint,
    collectRecords_eq_ok.mpr ⟨rfl, fun _ hr => (hsqlFiles.of_found hr).1⟩,
    collectRecords_eq_ok.mpr ⟨rfl, fun _ hr => (hkvFiles.of_found hr).1⟩⟩⟩

/-- The restored SQL log, without lines of an older format. -/
theorem restoreSql_end {P : Sql.WalRecord → Prop}
    (hfiles : (sqlKind R).Holds P (backup :: walArchive.toList))
    (hplan : plan R manifest (backup :: walArchive.toList) target = .ok q) :
    (restoreSql R manifest backup.files target q).2 = .ok version ↔
      sqlLoop.Chain manifest.basePoint.sqlCommitVersion
        (appliedSql R manifest target q.cutoff (backup :: walArchive.toList)) version := by
  have hlegacy : (sqlKind R).legacyLines backup.files ["base", "sql_wal.log"] = [] :=
    hfiles.legacyLines (by simp) (show isSqlLog "sql_wal.log" = true by decide)
  obtain ⟨hrecords, -⟩ := collectRecords_eq_ok.mp (plan_eq_ok.mp hplan).2.2.2.1
  rw [restoreSql, hlegacy, hrecords]
  exact writeLog_end

/-- The restored key-value log, without lines of an older format. -/
theorem restoreKv_end {P : Kv.KvWalRecord → Prop}
    (hfiles : (kvKind R).Holds P (backup :: walArchive.toList))
    (hplan : plan R manifest (backup :: walArchive.toList) target = .ok q) :
    (restoreKv R manifest backup.files target q).2 = .ok sequence ↔
      kvLoop.Chain manifest.basePoint.kvSequence
        (appliedKv R manifest target q.cutoff (backup :: walArchive.toList)) sequence := by
  have hlegacy : (kvKind R).legacyLines backup.files ["base", "rustydb.wal"] = [] :=
    hfiles.legacyLines (by simp) (show isKvLog "rustydb.wal" = true by decide)
  obtain ⟨hrecords, -⟩ := collectRecords_eq_ok.mp (plan_eq_ok.mp hplan).2.2.2.2
  rw [restoreKv, hlegacy, hrecords]
  exact writeLog_end

/-- **A restored SQL log** holds the records applied, each following the one before. -/
theorem sqlLog_of_ok {P : Sql.WalRecord → Prop}
    (hfiles : (sqlKind R).Holds P (backup :: walArchive.toList))
    (hplan : plan R manifest (backup :: walArchive.toList) target = .ok q)
    (hrewrites : (sqlKind R).Rewrites R.sql.encode
      (appliedSql R manifest target q.cutoff (backup :: walArchive.toList)))
    (h : (restoreSql R manifest backup.files target q).2 = .ok version) :
    sqlLoop.Chain manifest.basePoint.sqlCommitVersion
        (appliedSql R manifest target q.cutoff (backup :: walArchive.toList)) version ∧
      Sql.HoldsRecords R.sql (restoreSql R manifest backup.files target q).1
        (appliedSql R manifest target q.cutoff (backup :: walArchive.toList)) := by
  have hchain := (restoreSql_end hfiles hplan).mp h
  have hlegacy : (sqlKind R).legacyLines backup.files ["base", "sql_wal.log"] = [] :=
    hfiles.legacyLines (by simp) (show isSqlLog "sql_wal.log" = true by decide)
  obtain ⟨hrecords, -⟩ := collectRecords_eq_ok.mp (plan_eq_ok.mp hplan).2.2.2.1
  refine ⟨hchain, ?_⟩
  rw [restoreSql, hlegacy, hrecords]
  have hfile := @writeLog_file _ R.sql.encode
    ("Timestamp/exact recovery requires the versioned SQL WAL format; restore Latest once to " ++
      "upgrade legacy WAL") (target == .latest) _ _ _ _ _ hchain
  rw [applySqlRecords, show (sqlKind R).number = Sql.WalRecord.commitVersion from rfl, hfile]
  exact holdsRecords_of_rewrites hrewrites
    fun r hr => (hfiles.of_found (appliedSql_subset hr)).1

/-- **A restored key-value log** holds the records applied, each following the one before. -/
theorem kvLog_of_ok {P : Kv.KvWalRecord → Prop}
    (hfiles : (kvKind R).Holds P (backup :: walArchive.toList))
    (hplan : plan R manifest (backup :: walArchive.toList) target = .ok q)
    (hrewrites : (kvKind R).Rewrites R.kv.encode
      (appliedKv R manifest target q.cutoff (backup :: walArchive.toList)))
    (h : (restoreKv R manifest backup.files target q).2 = .ok sequence) :
    kvLoop.Chain manifest.basePoint.kvSequence
        (appliedKv R manifest target q.cutoff (backup :: walArchive.toList)) sequence ∧
      KvHoldsRecords R (restoreKv R manifest backup.files target q).1
        (appliedKv R manifest target q.cutoff (backup :: walArchive.toList)) := by
  have hchain := (restoreKv_end hfiles hplan).mp h
  have hlegacy : (kvKind R).legacyLines backup.files ["base", "rustydb.wal"] = [] :=
    hfiles.legacyLines (by simp) (show isKvLog "rustydb.wal" = true by decide)
  obtain ⟨hrecords, -⟩ := collectRecords_eq_ok.mp (plan_eq_ok.mp hplan).2.2.2.2
  refine ⟨hchain, ?_⟩
  rw [restoreKv, hlegacy, hrecords]
  have hfile := @writeLog_file _ R.kv.encode
    ("Timestamp/exact recovery requires the versioned KV WAL format; restore Latest once to " ++
      "upgrade legacy WAL") (target == .latest) _ _ _ _ _ hchain
  rw [applyKvRecords, show (kvKind R).number = Kv.KvWalRecord.sequence from rfl, hfile]
  exact kvHoldsRecords_of_rewrites hrewrites
    fun r hr => (hfiles.of_found (appliedKv_subset hr)).1

end Restoring

end Recovery
end RustyDB
