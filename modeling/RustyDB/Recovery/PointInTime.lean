import Mathlib
import RustyDB.Recovery.Restored
import RustyDB.Sql.Save

/-!
# Point-in-time restore

The records of one history reach a restore scattered over the files of a backup and an
archive, with any copies.

* `RecordKind.HoldsHistory` — the files of an engine hold valid records of one history.
* `Filter.next_is_late` — the loop stops only where the next record is too late.
* `SqlRestored`, `KvRestored` — the log that a restore leaves: it leads from the base to
  the point reached, within the target, and `replay_wal` finds no gap in it.
* `restores_exactly` — **a restore that succeeds leaves such logs, and one to a point all
  of whose records are there succeeds.**
-/

namespace RustyDB
namespace Recovery

open LineFile NumberedLog

variable {α : Type}

/-! ## One history -/

/-- Every line of the files of an engine is a valid record of a history, which gives the
record of every number from 1. -/
def RecordKind.HoldsHistory (K : RecordKind α) (history : Nat → α) (roots : List Root) : Prop :=
  K.Holds (fun r => ∃ n, r = history (n + 1)) roots

/-- The records of a database, each under its commit version. -/
structure SqlHistory (history : Nat → Sql.WalRecord) : Prop where
  commitVersion : ∀ n, (history (n + 1)).commitVersion = n + 1
  baseVersion : ∀ n, (history (n + 1)).baseVersion = n

/-- The records of a store, each under its sequence number. -/
def KvHistory (history : Nat → Kv.KvWalRecord) : Prop :=
  ∀ n, (history (n + 1)).sequence = n + 1

section OneHistory

variable {K : RecordKind α} {history : Nat → α} {roots : List Root} {r : α}

/-- Everything found is gathered, since there is one record of each number. -/
theorem RecordKind.HoldsHistory.mem_gather (h : K.HoldsHistory history roots)
    (hnumber : ∀ n, K.number (history (n + 1)) = n + 1) (hr : r ∈ K.found roots) :
    r ∈ gather K.number (K.found roots) := by
  obtain ⟨s, hs, heq⟩ := @exists_mem_gather _ K.number _ _ hr
  obtain ⟨-, n, rfl⟩ := h.of_found hr
  obtain ⟨-, k, rfl⟩ := h.of_found (gather_subset hs)
  rw [hnumber, hnumber] at heq
  obtain rfl : k = n := by omega
  exact hs

end OneHistory

/-! ## The loop -/

section Loop

variable {L : LoopKind α} {F : Filter} {rs : List α} {r : α} {n m : Nat}

/-- **The next record is too late**: the first one behind the end of the records that are
kept up to a cutoff. -/
theorem Filter.next_is_late (hrs : Increasing L.number rs) (hrequested : F.requested = none)
    {cutoff : Nat} (hcutoff : F.cutoff = some cutoff) (hchain : L.Chain F.base (F.kept L rs) m)
    (hr : r ∈ rs) (hlt : m < L.number r)
    (hnext : ∀ s ∈ rs, m < L.number s → L.number r ≤ L.number s) :
    cutoff < L.timestampMillis r := by
  have hkept : Increasing L.number (F.kept L rs) := hrs.sublist Filter.kept_sublist
  -- up to the end of the chain every record is timely
  have htimely : ∀ s ∈ rs, F.base < L.number s → L.number s ≤ m →
      L.timestampMillis s ≤ cutoff := by
    intro s hs hlow hle
    rcases hchain.stop with rfl | ⟨last, hlast, rfl⟩
    · omega
    · exact ((Filter.mem_kept hrs).mp hlast).2.2.2 cutoff hcutoff s hs hlow hle
  have hbase : F.base < L.number r := by
    rcases hchain.stop with rfl | ⟨last, hlast, rfl⟩
    · exact hlt
    · exact ((Filter.mem_kept hrs).mp hlast).2.1.trans hlt
  by_contra hle
  have hmem : r ∈ F.kept L rs := by
    refine (Filter.mem_kept hrs).mpr ⟨hr, hbase, fun n hn => ?_, fun c hc s hs hlow hsr => ?_⟩
    · rw [hrequested] at hn
      cases hn
    · rw [hcutoff] at hc
      obtain rfl := Option.some.inj hc
      by_cases hs' : m < L.number s
      · have heq : s = r := hrs.eq_of_number hs hr (Nat.le_antisymm hsr (hnext s hs hs'))
        rw [heq]
        omega
      · exact htimely s hs hlow (by omega)
  have := hchain.le hkept hmem
  omega

end Loop

/-! ## The log that is left -/

/-- What is applied of the records found: of a timestamp target, what is not too late, up to a
record that is. -/
structure Within (L : LoopKind α) (cutoff : Option Nat) (found : List α) (restored : Nat)
    (applied : List α) : Prop where
  subset : ∀ r ∈ applied, r ∈ found
  timely : ∀ time ∈ cutoff, ∀ r ∈ applied, L.timestampMillis r ≤ time
  next : ∀ time ∈ cutoff, ∀ r ∈ found, restored < L.number r →
    (∀ s ∈ found, restored < L.number s → L.number r ≤ L.number s) → time < L.timestampMillis r

/-- A restored `sql_wal.log`: its records lead from the base to the version reached, and
`replay_wal` finds no gap between them. -/
structure SqlRestored (R : RecoveryHost) (base : Nat) (cutoff : Option Nat)
    (found : List Sql.WalRecord) (restored : Nat) (file : Bytes)
    (applied : List Sql.WalRecord) : Prop extends Within sqlLoop cutoff found restored applied where
  holds : Sql.HoldsRecords R.sql file applied
  chained : Chained Sql.WalRecord.baseVersion Sql.WalRecord.commitVersion base applied restored
  replayed : ∀ (H : Sql.Host) (catalog : Sql.Catalog) (c b : Nat), catalog.version = base →
    Sql.replayLines H R.sql catalog (lines file) ≠ .error (.gap c b)

/-- A restored `rustydb.wal`: its records count from the base to the sequence reached. -/
structure KvRestored (R : RecoveryHost) (base : Nat) (cutoff : Option Nat)
    (found : List Kv.KvWalRecord) (restored : Nat) (file : Bytes)
    (applied : List Kv.KvWalRecord) : Prop extends Within kvLoop cutoff found restored applied where
  holds : KvHoldsRecords R file applied
  numbered : Numbered Kv.KvWalRecord.sequence base applied
  reached : restored = base + applied.length

section Logs

variable {K : RecordKind α} {L : LoopKind α} {encode : α → String} {history : Nat → α}
  {roots : List Root} {F : Filter} {applied : List α} {restored : Nat}

/-- The records that the loop keeps of a history are within the target. -/
theorem Filter.within (hnumber : K.number = L.number)
    (hhistory : ∀ n, K.number (history (n + 1)) = n + 1) (h : K.HoldsHistory history roots)
    (hrequested : F.cutoff ≠ none → F.requested = none)
    (hchain : L.Chain F.base (F.kept L (gather K.number (K.found roots))) restored) :
    Within L F.cutoff (K.found roots) restored
      (F.kept L (gather K.number (K.found roots))) := by
  have hincreasing : Increasing L.number (gather K.number (K.found roots)) := by
    rw [← hnumber]
    exact increasing_gather _
  refine ⟨fun r hr => gather_subset (Filter.kept_sublist.subset hr), fun time htime r hr => ?_,
    fun time htime r hr hlt hnext => ?_⟩
  · obtain ⟨hmem, hbase, -, htimely⟩ := (Filter.mem_kept hincreasing).mp hr
    exact htimely time htime r hmem hbase (Nat.le_refl _)
  · have htime := Option.mem_def.mp htime
    exact Filter.next_is_late hincreasing (hrequested (by rw [htime]; simp)) htime hchain
      (h.mem_gather hhistory hr) hlt fun s hs => hnext s (gather_subset hs)

/-- When all the records up to a target are there, those that are kept are numbered up to it. -/
theorem Filter.numbered_kept (hnumber : K.number = L.number)
    (hhistory : ∀ n, K.number (history (n + 1)) = n + 1) (h : K.HoldsHistory history roots)
    {target : Nat} (hcutoff : F.cutoff = none) (hrequested : F.requested = some target)
    (hle : F.base ≤ target)
    (hall : ∀ n, F.base < n → n ≤ target → history n ∈ K.found roots) :
    Numbered L.number F.base (F.kept L (gather K.number (K.found roots))) ∧
      target = F.base + (F.kept L (gather K.number (K.found roots))).length := by
  have hincreasing : Increasing L.number (gather K.number (K.found roots)) := by
    rw [← hnumber]
    exact increasing_gather _
  have hmax : ∀ r ∈ F.kept L (gather K.number (K.found roots)), L.number r ≤ target :=
    fun r hr => ((Filter.mem_kept hincreasing).mp hr).2.2.1 target hrequested
  have hkept : ∀ n, F.base < n → n ≤ target →
      ∃ r ∈ F.kept L (gather K.number (K.found roots)), L.number r = n := by
    intro n hlow hhigh
    obtain ⟨k, rfl⟩ : ∃ k, n = k + 1 := ⟨n - 1, by omega⟩
    have hn := hhistory k
    rw [hnumber] at hn
    refine ⟨history (k + 1), (Filter.mem_kept hincreasing).mpr
      ⟨h.mem_gather hhistory (hall (k + 1) hlow hhigh), by omega, fun requested hrequest => ?_,
        fun cutoff htime => ?_⟩, hn⟩
    · rw [hrequested] at hrequest
      obtain rfl := Option.some.inj hrequest
      omega
    · rw [hcutoff] at htime
      cases htime
  have hnumbered : Numbered L.number F.base (F.kept L (gather K.number (K.found roots))) := by
    refine Increasing.numbered (hincreasing.sublist Filter.kept_sublist) fun r hr => ?_
    have := hmax r hr
    exact ⟨Filter.lt_of_kept hr, fun k hlow hhigh => hkept k hlow (by omega)⟩
  refine ⟨hnumbered, Nat.le_antisymm ?_ ?_⟩
  · by_cases hbase : F.base = target
    · omega
    · obtain ⟨r, hr, hn⟩ := hkept target (by omega) (Nat.le_refl _)
      have := (hnumbered.number_lt hr).2
      omega
  · by_cases hempty : (F.kept L (gather K.number (K.found roots))).length = 0
    · omega
    · obtain ⟨r, hr, hn⟩ := hnumbered.exists_mem (Nat.lt_add_of_pos_right
        (Nat.pos_of_ne_zero hempty)) (Nat.le_refl _)
      have := hmax r hr
      omega

end Logs

/-! ## Restoring to a point in time -/

section Restoring

variable {R : RecoveryHost} {backup destination : Root} {walArchive : Option Root}
  {target : RecoveryTarget} {sqlHistory : Nat → Sql.WalRecord} {kvHistory : Nat → Kv.KvWalRecord}

theorem requested_of_cutoff {cutoff : Option Nat} (h : target.cutoff = .ok cutoff)
    (hne : cutoff ≠ none) : target.requested = none := by
  cases target with
  | latest => rfl
  | timestamp time => rfl
  | point p => exact absurd (Except.ok.inj h).symm hne

/-- The logs that a restore leaves lead from the base of the manifest to a point. -/
structure RestoresTo (R : RecoveryHost) (manifest : BackupManifest) (roots : List Root)
    (cutoff : Option Nat) (left : Directory) (p : RecoveryPoint) : Prop where
  sql : ∃ file applied, left.read ["sql_wal.log"] = some file ∧
    SqlRestored R manifest.basePoint.sqlCommitVersion cutoff ((sqlKind R).found roots)
      p.sqlCommitVersion file applied
  kv : ∃ file applied, left.read ["rustydb.wal"] = some file ∧
    KvRestored R manifest.basePoint.kvSequence cutoff ((kvKind R).found roots) p.kvSequence file
      applied

variable {manifest : BackupManifest} {q : Plan} {p : RecoveryPoint} {version sequence : Nat}

/-- The filter of a timestamp target requests no point. -/
theorem requested_filter (hcutoff : target.cutoff = .ok q.cutoff) (f : RecoveryPoint → Nat)
    (h : q.cutoff ≠ none) : target.requested.map f = none := by
  rw [requested_of_cutoff hcutoff h]
  rfl

/-- The SQL log of a restore of one history. -/
theorem sqlRestored_of_ok (hrewrites : (sqlKind R).Rewrites R.sql.encode
      ((sqlKind R).found (backup :: walArchive.toList)))
    (hhistory : SqlHistory sqlHistory)
    (hfiles : (sqlKind R).HoldsHistory sqlHistory (backup :: walArchive.toList))
    (hplan : plan R manifest (backup :: walArchive.toList) target = .ok q)
    (h : (restoreSql R manifest backup.files target q).2 = .ok version) :
    SqlRestored R manifest.basePoint.sqlCommitVersion q.cutoff
      ((sqlKind R).found (backup :: walArchive.toList)) version
      (restoreSql R manifest backup.files target q).1
      (appliedSql R manifest target q.cutoff (backup :: walArchive.toList)) := by
  obtain ⟨hchain, hholds⟩ :=
    sqlLog_of_ok hfiles hplan (hrewrites.subset fun _ hr => appliedSql_subset hr) h
  have hwithin := @Filter.within _ (sqlKind R) sqlLoop _ _ (sqlFilter manifest target q.cutoff) _
    rfl hhistory.commitVersion hfiles
    (requested_filter (plan_eq_ok.mp hplan).1 RecoveryPoint.sqlCommitVersion) hchain
  refine ⟨hwithin, hholds, chain_sqlLoop.mp hchain, fun H catalog c b hversion => ?_⟩
  rw [Sql.replayLines_records hholds]
  exact replayRecords_ne_gap (chain_sqlLoop.mp hchain)
    ((increasing_gather _).sublist Filter.kept_sublist) (fun r hr => Filter.lt_of_kept hr)
    hversion

/-- The key-value log of a restore of one history. -/
theorem kvRestored_of_ok (hrewrites : (kvKind R).Rewrites R.kv.encode
      ((kvKind R).found (backup :: walArchive.toList)))
    (hhistory : KvHistory kvHistory)
    (hfiles : (kvKind R).HoldsHistory kvHistory (backup :: walArchive.toList))
    (hplan : plan R manifest (backup :: walArchive.toList) target = .ok q)
    (h : (restoreKv R manifest backup.files target q).2 = .ok sequence) :
    KvRestored R manifest.basePoint.kvSequence q.cutoff
      ((kvKind R).found (backup :: walArchive.toList)) sequence
      (restoreKv R manifest backup.files target q).1
      (appliedKv R manifest target q.cutoff (backup :: walArchive.toList)) := by
  obtain ⟨hchain, hholds⟩ :=
    kvLog_of_ok hfiles hplan (hrewrites.subset fun _ hr => appliedKv_subset hr) h
  have hwithin := @Filter.within _ (kvKind R) kvLoop _ _ (kvFilter manifest target q.cutoff) _
    rfl hhistory hfiles (requested_filter (plan_eq_ok.mp hplan).1 RecoveryPoint.kvSequence) hchain
  obtain ⟨hnumbered, hreached⟩ := numbered_of_chain
    ((increasing_gather _).sublist Filter.kept_sublist) (fun r hr => Filter.lt_of_kept hr)
    hchain
  exact ⟨hwithin, hholds, hnumbered, hreached⟩

/-- **Point-in-time restore.**  When the logs of a backup and of an archive hold records of
one history only, a restore that succeeds leaves logs that lead from the base of the backup
to the point it reports: the requested one, or up to where the next record is too late.  And
a restore to a point all of whose records are there succeeds. -/
theorem restores_exactly
    (hsqlRewrites : (sqlKind R).Rewrites R.sql.encode
      ((sqlKind R).found (backup :: walArchive.toList)))
    (hkvRewrites : (kvKind R).Rewrites R.kv.encode
      ((kvKind R).found (backup :: walArchive.toList)))
    (hsql : SqlHistory sqlHistory) (hkv : KvHistory kvHistory)
    (hsqlFiles : (sqlKind R).HoldsHistory sqlHistory (backup :: walArchive.toList))
    (hkvFiles : (kvKind R).HoldsHistory kvHistory (backup :: walArchive.toList)) :
    (∀ p, (restore R backup walArchive destination target).result = .ok p →
      ∃ manifest cutoff, openBackup R backup destination = .ok manifest ∧
        target.cutoff = .ok cutoff ∧
        RestoresTo R manifest (backup :: walArchive.toList) cutoff
          (restore R backup walArchive destination target).destination p ∧
        ∀ point, target = .point point → p = point) ∧
    ∀ manifest point, openBackup R backup destination = .ok manifest → target = .point point →
      manifest.predates point = false → point.kvSequence < 2 ^ 64 →
      (∀ n, manifest.basePoint.sqlCommitVersion < n → n ≤ point.sqlCommitVersion →
        sqlHistory n ∈ (sqlKind R).found (backup :: walArchive.toList)) →
      (∀ n, manifest.basePoint.kvSequence < n → n ≤ point.kvSequence →
        kvHistory n ∈ (kvKind R).found (backup :: walArchive.toList)) →
      (restore R backup walArchive destination target).result = .ok point := by
  refine ⟨fun p h => ?_, fun manifest point hopen htarget hbelow h64 hsqlAll hkvAll => ?_⟩
  · obtain ⟨manifest, hopen, q, hplan, hsqlEnd, hkvEnd, hpoint⟩ := restore_eq_ok.mp h
    have hsqlRestored := sqlRestored_of_ok hsqlRewrites hsql hsqlFiles hplan hsqlEnd
    have hkvRestored := kvRestored_of_ok hkvRewrites hkv hkvFiles hplan hkvEnd
    refine ⟨manifest, q.cutoff, hopen, (plan_eq_ok.mp hplan).1, ?_, ?_⟩
    · rw [destination_restore hopen hplan hsqlEnd hkvEnd]
      exact ⟨⟨_, _, read_destination.1, hsqlRestored⟩, ⟨_, _, read_destination.2, hkvRestored⟩⟩
    · rintro point rfl
      exact hpoint point rfl
  · subst htarget
    have hpredates := hbelow
    simp only [BackupManifest.predates, Bool.or_eq_false_iff, decide_eq_false_iff_not,
      not_lt] at hpredates
    have hcutoff : ∀ c ∈ (none : Option Nat), manifest.baseTime ≤ c := fun c hc => by cases hc
    obtain ⟨q, hcutoff, hplan⟩ := @exists_plan R (.point point) manifest _ _ _ none hsqlFiles
      hkvFiles rfl (Or.inr hcutoff) fun p hp => Option.some.inj hp ▸ hbelow
    refine restore_eq_ok.mpr ⟨manifest, hopen, q, hplan, (restoreSql_end hsqlFiles hplan).mpr ?_,
      (restoreKv_end hkvFiles hplan).mpr ?_, fun p hp => Option.some.inj hp⟩
    · rw [hcutoff, chain_sqlLoop]
      obtain ⟨hnumbered, hreached⟩ := @Filter.numbered_kept _ (sqlKind R) sqlLoop _ _
        (sqlFilter manifest (.point point) none) rfl hsql.commitVersion hsqlFiles _ rfl rfl
        hpredates.1 hsqlAll
      have hchained := @Numbered.chained _ Sql.WalRecord.baseVersion Sql.WalRecord.commitVersion
        _ _ hnumbered fun r hr => by
          obtain ⟨-, n, rfl⟩ := hsqlFiles.of_found (gather_subset (Filter.kept_sublist.subset hr))
          exact (hsql.commitVersion n).trans (congrArg (· + 1) (hsql.baseVersion n).symm)
      rw [← hreached] at hchained
      exact hchained
    · rw [hcutoff]
      obtain ⟨hnumbered, hreached⟩ := @Filter.numbered_kept _ (kvKind R) kvLoop _ _
        (kvFilter manifest (.point point) none) rfl hkv hkvFiles _ rfl rfl hpredates.2 hkvAll
      have hchain := chain_of_numbered hnumbered (hreached ▸ h64)
      rw [← hreached] at hchain
      exact hchain

end Restoring

/-! ## One backup -/

/-- The records of a store that has written `a`, `b` and `c`. -/
def sampleKvHistory (n : Nat) : Kv.KvWalRecord :=
  .new Kv.sampleHost n (match n with
    | 1 => .set "a" "1"
    | 2 => .set "b" "2"
    | _ => .set "c" "3")

/-- The records of a database that has committed once. -/
def sampleSqlHistory (n : Nat) : Sql.WalRecord :=
  match n with
  | 1 => Sql.plainRecord.record
  | n => .new Sql.plainHost (n - 1) n 1700000000001 []

/-- Lines of key-value records. -/
def kvLines (records : List Kv.KvWalRecord) : Bytes :=
  records.flatMap fun r => line (Kv.recordText r)

/-- The manifest of `sampleBackup`. -/
def sampleManifest : BackupManifest where
  formatVersion := backupFormatVersion
  createdAtMillis := 1700000000005
  basePoint := ⟨0, 0⟩
  recoveryPoint := ⟨1, 2⟩
  sqlBaseTimestampMillis := 0
  kvBaseTimestampMillis := 0
  files := [⟨"base/rustydb.wal", 266, 4269204278⟩, ⟨"base/sql_wal.log", 204, 1812129017⟩]

/-- `serde_json::to_vec_pretty` of `sampleManifest`. -/
def sampleManifestText : String :=
  "\x7b\n  \"format_version\": 1,\n  \"created_at_millis\": 1700000000005,\n" ++
  "  \"base_point\": \x7b\n    \"sql_commit_version\": 0,\n    \"kv_sequence\": 0\n  \x7d,\n" ++
  "  \"recovery_point\": \x7b\n    \"sql_commit_version\": 1,\n    \"kv_sequence\": 2\n  \x7d,\n" ++
  "  \"sql_base_timestamp_millis\": 0,\n  \"kv_base_timestamp_millis\": 0,\n" ++
  "  \"files\": [\n    \x7b\n      \"path\": \"base/rustydb.wal\",\n      \"size\": 266,\n" ++
  "      \"checksum\": 4269204278\n    \x7d,\n    \x7b\n      \"path\": \"base/sql_wal.log\",\n" ++
  "      \"size\": 204,\n      \"checksum\": 1812129017\n    \x7d\n  ]\n\x7d"

/-- `serde_json` and the checksums on the files below. -/
def sampleRecovery : RecoveryHost where
  sql := Sql.plainHost
  catalog := Sql.nullCodec
  kvHost := Kv.sampleHost
  kv := Kv.sampleCodec
  decodeKvSnapshot _ := none
  decodeManifest bytes :=
    if bytes = utf8 sampleManifestText then .ok sampleManifest
    else .error "EOF while parsing a value at line 1 column 0"
  encodeManifest _ := utf8 sampleManifestText
  sliceError _ := "invalid unicode code point at line 1 column 1"
  checksumFile bytes :=
    if bytes = line Sql.plainRecord.text then 1812129017
    else if bytes = kvLines [sampleKvHistory 1, sampleKvHistory 2] then 4269204278
    else 0

/-- A backup of a directory without snapshots: one commit, and two writes. -/
def sampleBackup : Root where
  path := "backup"
  files := [⟨["base", "sql_wal.log"], line Sql.plainRecord.text⟩,
    ⟨["base", "rustydb.wal"], kvLines [sampleKvHistory 1, sampleKvHistory 2]⟩,
    ⟨["manifest.json"], utf8 sampleManifestText⟩]

/-- The archive of the directory after a third write and a snapshot. -/
def sampleArchive : Root where
  path := "data/wal_archive"
  files := [⟨["kv", "kv-3-1700000000004.wal"],
    kvLines [sampleKvHistory 1, sampleKvHistory 2, sampleKvHistory 3]⟩]

/-- An empty directory. -/
def emptyRoot : Root := ⟨"restored", []⟩

theorem sampleKvHistory_mem {n : Nat} (h : n ∈ [1, 2, 3]) :
    sampleKvHistory n ∈ Kv.sampleRecords := by
  revert n
  decide +kernel

theorem lines_kvLines {records : List Kv.KvWalRecord} (h : ∀ r ∈ records, r ∈ Kv.sampleRecords) :
    lines (kvLines records) = records.map fun r => some (Kv.recordText r) := by
  have hplain : ∀ s ∈ records.map Kv.recordText, Plain s := by
    intro s hs
    obtain ⟨r, hr, rfl⟩ := List.mem_map.mp hs
    exact (Kv.sampleCodec_lawful r (h r hr)).plain
  have hlines := (lines_append_flatMap clean_nil hplain).1
  rw [List.nil_append, List.flatMap_map] at hlines
  rw [kvLines, hlines]
  simp [lines, split]

theorem rewrites_sampleCodec {K : RecordKind Kv.KvWalRecord} {records : List Kv.KvWalRecord}
    (h : K.decode = Kv.sampleCodec.decode) (hrecords : ∀ r ∈ records, r ∈ Kv.sampleRecords) :
    K.Rewrites Kv.sampleCodec.encode records := by
  refine ⟨fun r hr _ => ?_, fun r hr _ => ?_, fun r hr _ => ?_⟩
  · exact (Kv.sampleCodec_lawful r (hrecords r hr)).plain
  · exact (Kv.sampleCodec_lawful r (hrecords r hr)).nonblank
  · rw [h]
    exact (Kv.sampleCodec_lawful r (hrecords r hr)).decode_encode

/-- The sample codec reads sample records only. -/
theorem found_sampleCodec {K : RecordKind Kv.KvWalRecord} {roots : List Root}
    (h : K.decode = Kv.sampleCodec.decode) : ∀ r ∈ K.found roots, r ∈ Kv.sampleRecords := by
  intro r hr
  obtain ⟨text, hdecode⟩ := decode_of_found hr
  rw [h] at hdecode
  simp only [Kv.sampleCodec] at hdecode
  exact List.mem_of_find?_eq_some hdecode

theorem lawful_plainRecord : Sql.plainHost.Lawful Sql.plainRecord.record :=
  Sql.lawful_ofSamples (List.mem_singleton_self Sql.plainRecord) (by decide +kernel)
    (fun other hother => by rw [List.mem_singleton.mp hother]) (by simp) (by decide +kernel)

theorem decode_plainHost {text : String} {r : Sql.WalRecord}
    (h : Sql.plainHost.decode text = some r) : r = Sql.plainRecord.record := by
  obtain ⟨sample, hsample, rfl⟩ := Option.map_eq_some_iff.mp h
  rw [List.mem_singleton.mp (List.mem_of_find?_eq_some hsample)]

theorem rewrites_plainHost {K : RecordKind Sql.WalRecord} {records : List Sql.WalRecord}
    (h : K.decode = Sql.plainHost.decode) (hrecords : ∀ r ∈ records, r = Sql.plainRecord.record) :
    K.Rewrites Sql.plainHost.encode records := by
  refine ⟨fun r hr _ => ?_, fun r hr _ => ?_, fun r hr _ => ?_⟩
  · rw [hrecords r hr]
    exact lawful_plainRecord.plain
  · rw [hrecords r hr]
    exact lawful_plainRecord.nonblank
  · rw [h, hrecords r hr]
    exact lawful_plainRecord.decode_encode (Sql.plainRecord.readable_record _)

/-- The sample log is read as one record. -/
theorem found_plainHost {K : RecordKind Sql.WalRecord} {roots : List Root}
    (h : K.decode = Sql.plainHost.decode) : ∀ r ∈ K.found roots, r = Sql.plainRecord.record := by
  intro r hr
  obtain ⟨text, hdecode⟩ := decode_of_found hr
  rw [h] at hdecode
  exact decode_plainHost hdecode

/-- A file of sample lines holds their records. -/
theorem holds_kvLines {records : List Kv.KvWalRecord} {P : Kv.KvWalRecord → Prop}
    (h : ∀ r ∈ records, r ∈ Kv.sampleRecords ∧ P r) : ∀ l ∈ lines (kvLines records), ∃ text r,
      l = some text ∧ Kv.sampleCodec.decode text = some r ∧ r.valid Kv.sampleHost = true ∧ P r := by
  have hvalid : ∀ r ∈ Kv.sampleRecords, r.valid Kv.sampleHost = true := by
    simp [Kv.sampleRecords]
  intro l hl
  rw [lines_kvLines fun r hr => (h r hr).1] at hl
  obtain ⟨r, hr, rfl⟩ := List.mem_map.mp hl
  exact ⟨_, r, rfl, (Kv.sampleCodec_lawful r (h r hr).1).decode_encode, hvalid r (h r hr).1,
    (h r hr).2⟩

/-- The sample log holds its record. -/
theorem holds_plainRecord {P : Sql.WalRecord → Prop} (h : P Sql.plainRecord.record) :
    ∀ l ∈ lines (line Sql.plainRecord.text), ∃ text r, l = some text ∧
      Sql.plainHost.decode text = some r ∧ r.valid Sql.plainHost = true ∧ P r := by
  have hplain := lawful_plainRecord.plain
  have hdecode := lawful_plainRecord.decode_encode
    (Sql.plainRecord.readable_record _)
  have htext : Sql.plainHost.encode Sql.plainRecord.record = Sql.plainRecord.text :=
    Sql.encode_ofSamples Sql.plainRecord
  rw [htext] at hplain hdecode
  have hvalid : Sql.plainRecord.record.valid Sql.plainHost = true := by decide +kernel
  intro l hl
  rw [lines_line hplain, List.mem_singleton] at hl
  exact ⟨_, _, hl, hdecode, hvalid, h⟩

theorem filesOf_sampleBackup :
    (sqlKind sampleRecovery).filesOf sampleBackup =
        [⟨["base", "sql_wal.log"], line Sql.plainRecord.text⟩] ∧
      (kvKind sampleRecovery).filesOf sampleBackup =
        [⟨["base", "rustydb.wal"], kvLines [sampleKvHistory 1, sampleKvHistory 2]⟩] :=
  ⟨rfl, rfl⟩

/-- The two sample histories, with the backup and the archive. -/
theorem sqlFiles_sample : (sqlKind sampleRecovery).HoldsHistory sampleSqlHistory
    [sampleBackup, sampleArchive] := by
  have harchive : (sqlKind sampleRecovery).filesOf sampleArchive = [] := rfl
  intro root hroot file hfile
  rcases List.mem_pair.mp hroot with rfl | rfl
  · rw [filesOf_sampleBackup.1, List.mem_singleton] at hfile
    rw [hfile]
    exact holds_plainRecord ⟨0, rfl⟩
  · rw [harchive] at hfile
    cases hfile

theorem kvFiles_sample : (kvKind sampleRecovery).HoldsHistory sampleKvHistory
    [sampleBackup, sampleArchive] := by
  have harchive : (kvKind sampleRecovery).filesOf sampleArchive =
      [⟨["kv", "kv-3-1700000000004.wal"], kvLines ([1, 2, 3].map sampleKvHistory)⟩] := rfl
  have hrecords : ∀ numbers : List Nat, (∀ n ∈ numbers, n ∈ [1, 2, 3]) →
      ∀ r ∈ numbers.map sampleKvHistory, r ∈ Kv.sampleRecords ∧
        ∃ n, r = sampleKvHistory (n + 1) := by
    intro numbers hnumbers r hr
    obtain ⟨n, hn, rfl⟩ := List.mem_map.mp hr
    have hmem := hnumbers n hn
    have hpos : ∀ n ∈ [1, 2, 3], n - 1 + 1 = n := by decide
    exact ⟨sampleKvHistory_mem hmem, n - 1, by rw [hpos n hmem]⟩
  intro root hroot file hfile
  rcases List.mem_pair.mp hroot with rfl | rfl
  · rw [filesOf_sampleBackup.2, List.mem_singleton] at hfile
    rw [hfile]
    exact holds_kvLines (hrecords [1, 2] (by decide))
  · rw [harchive, List.mem_singleton] at hfile
    rw [hfile]
    exact holds_kvLines (hrecords [1, 2, 3] (by decide))

theorem openBackup_sample : openBackup sampleRecovery sampleBackup emptyRoot =
    .ok sampleManifest := by
  have hopen : (openBackup sampleRecovery sampleBackup emptyRoot).toOption =
      some sampleManifest := by decide +kernel
  exact Result.toOption_eq_some.mp hopen

theorem sqlHistory_sample : SqlHistory sampleSqlHistory where
  commitVersion n := by cases n <;> rfl
  baseVersion n := by cases n <;> rfl

theorem sqlFound_sample :
    sampleSqlHistory 1 ∈ (sqlKind sampleRecovery).found [sampleBackup, sampleArchive] := by
  have hplain := lawful_plainRecord.plain
  have hdecode := lawful_plainRecord.decode_encode
    (Sql.plainRecord.readable_record _)
  have htext : Sql.plainHost.encode Sql.plainRecord.record = Sql.plainRecord.text :=
    Sql.encode_ofSamples Sql.plainRecord
  rw [htext] at hplain hdecode
  have hlines : lines (StoredFile.mk ["base", "sql_wal.log"]
      (line Sql.plainRecord.text)).content = [Sql.plainRecord.text].map some := lines_line hplain
  have hkind : (sqlKind sampleRecovery).decode = Sql.plainHost.decode := rfl
  refine mem_found_of_lines List.mem_cons_self List.mem_cons_self (by decide) hlines
    (List.mem_singleton_self _) ?_
  rw [hkind]
  exact hdecode

theorem kvFound_sample {n : Nat} (hn : n ∈ [1, 2, 3]) :
    sampleKvHistory n ∈ (kvKind sampleRecovery).found [sampleBackup, sampleArchive] := by
  have hmem : sampleKvHistory n ∈ [1, 2, 3].map sampleKvHistory := List.mem_map_of_mem hn
  have hlines : lines (StoredFile.mk ["kv", "kv-3-1700000000004.wal"]
      (kvLines ([1, 2, 3].map sampleKvHistory))).content =
        (([1, 2, 3].map sampleKvHistory).map Kv.recordText).map some := by
    have hall : ∀ r ∈ [1, 2, 3].map sampleKvHistory, r ∈ Kv.sampleRecords := by
      intro r hr
      obtain ⟨k, hk, rfl⟩ := List.mem_map.mp hr
      exact sampleKvHistory_mem hk
    rw [List.map_map]
    exact lines_kvLines hall
  have hkind : (kvKind sampleRecovery).decode = Kv.sampleCodec.decode := rfl
  refine mem_found_of_lines (List.mem_cons_of_mem _ List.mem_cons_self) List.mem_cons_self
    (by decide) hlines (List.mem_map_of_mem hmem) ?_
  rw [hkind]
  exact (Kv.sampleCodec_lawful _ (sampleKvHistory_mem hn)).decode_encode

/-- The third write is in the archive only, the first two are in both. -/
theorem third_write_is_restored :
    (restore sampleRecovery sampleBackup (some sampleArchive) emptyRoot
        (.point ⟨1, 3⟩)).result = .ok ⟨1, 3⟩ ∧
      ∃ manifest cutoff, RestoresTo sampleRecovery manifest [sampleBackup, sampleArchive] cutoff
        (restore sampleRecovery sampleBackup (some sampleArchive) emptyRoot
          (.point ⟨1, 3⟩)).destination ⟨1, 3⟩ := by
  have hrestores := @restores_exactly sampleRecovery sampleBackup emptyRoot (some sampleArchive)
    (.point ⟨1, 3⟩) sampleSqlHistory sampleKvHistory (rewrites_plainHost rfl (found_plainHost rfl))
    (rewrites_sampleCodec rfl (found_sampleCodec rfl)) sqlHistory_sample (fun _ => rfl)
    sqlFiles_sample kvFiles_sample
  have hresult := hrestores.2 sampleManifest ⟨1, 3⟩ openBackup_sample rfl rfl (by decide) ?_ ?_
  · obtain ⟨manifest, cutoff, -, -, hleft, -⟩ := hrestores.1 _ hresult
    exact ⟨hresult, manifest, cutoff, hleft⟩
  · intro n hlow hhigh
    obtain rfl : n = 1 := Nat.le_antisymm hhigh hlow
    exact sqlFound_sample
  · intro n hlow hhigh
    have hlow : 0 < n := hlow
    have hhigh : n ≤ 3 := hhigh
    refine kvFound_sample ?_
    simp only [List.mem_cons, List.not_mem_nil, or_false]
    omega

end Recovery
end RustyDB
