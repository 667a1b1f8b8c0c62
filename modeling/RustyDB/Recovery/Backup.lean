import Mathlib
import RustyDB.Lib.NumberedLog
import RustyDB.Lib.Result
import RustyDB.Kv.Crash
import RustyDB.Sql.Wal

/-!
# Backup and restore

The model of `src/recovery.rs`.  A backup holds a copy of the two snapshots and the two
active logs under `base/`, a copy of the archived log segments, and a manifest; a restore
puts the logs together again from all the segments it is given.

* `StoredFile`, `Directory`, `Root` — files by their path below a directory.
* `RecoveryHost` — the codecs and checksums of the two engines and of the manifest.
* `RecordKind`, `collectRecords` — how the records of an engine are found, with
  `collectSqlRecords` and `collectKvRecords`.
* `Filter`, `applyRecords` — the loop of `restore` over the records of an engine, with
  `applySqlRecords` and `applyKvRecords`.
* `create`, `restore`, `prune` — the calls of `BackupManager`, with what they leave in the
  destination when they fail.
* `applyRecords_eq_ok` — **the loop succeeds when the records it keeps follow one another.**
-/

namespace RustyDB
namespace Recovery

open LineFile NumberedLog

/-! ## Directories -/

/-- A file below a directory, by the components of its path. -/
structure StoredFile where
  path : List String
  content : Bytes
  deriving DecidableEq

/-- The files below a directory. -/
abbrev Directory := List StoredFile

/-- A directory and the path it is given by. -/
structure Root where
  path : String
  files : Directory

/-- `file_name`. -/
def StoredFile.fileName (file : StoredFile) : String := file.path.getLast?.getD ""

/-- Paths are compared component by component. -/
def pathLe (path other : List String) : Bool := !decide (other < path)

/-- `list_files`: all the files below a directory, sorted by path. -/
def Directory.listFiles (directory : Directory) : List StoredFile :=
  directory.insertionSort fun file other => pathLe file.path other.path

/-- The file of a path. -/
def Directory.read (directory : Directory) (path : List String) : Option Bytes :=
  (directory.find? fun file => file.path == path).map StoredFile.content

/-- `copy_file` to another directory, when the file exists. -/
def Directory.copyFile (directory : Directory) (path destination : List String) : Directory :=
  ((directory.read path).map (StoredFile.mk destination)).toList

/-- `copy_tree`: the files below one of the directories of `directory`. -/
def Directory.copyTree (directory : Directory) (name : String) : Directory :=
  directory.listFiles.filter fun file => file.path.head? == some name

section Reading

variable {directory other : Directory} {path destination : List String} {content : Bytes}

theorem mem_of_read (h : directory.read path = some content) : ⟨path, content⟩ ∈ directory := by
  obtain ⟨file, hfile, rfl⟩ := Option.map_eq_some_iff.mp h
  have hpath : file.path = path := by simpa using List.find?_some hfile
  rw [← hpath]
  exact List.mem_of_find?_eq_some hfile

theorem read_append :
    Directory.read (directory ++ other) path = (directory.read path).or (other.read path) := by
  rw [Directory.read, List.find?_append, Directory.read, Directory.read]
  cases directory.find? fun file => file.path == path <;> rfl

theorem read_singleton :
    Directory.read [⟨destination, content⟩] path =
      if path = destination then some content else none := by
  by_cases h : path = destination
  · simp [Directory.read, h]
  · simp [Directory.read, h, Ne.symm h]

theorem read_copyFile {sought : List String} :
    (directory.copyFile path destination).read sought =
      if sought = destination then directory.read path else none := by
  rw [Directory.copyFile]
  cases directory.read path with
  | none => simp [Directory.read]
  | some content => exact read_singleton

/-- A copied tree holds nothing elsewhere. -/
theorem read_copyTree_of_ne {name : String} (h : path.head? ≠ some name) :
    (directory.copyTree name).read path = none := by
  rw [Directory.read, Option.map_eq_none_iff, List.find?_eq_none]
  intro file hfile heq
  rw [Directory.copyTree, List.mem_filter, beq_iff_eq] at hfile
  rw [beq_iff_eq] at heq
  exact h (heq ▸ hfile.2)

end Reading

/-- `path.display()` for a file below a root. -/
def Root.display (root : Root) (file : StoredFile) : String :=
  String.intercalate "/" (root.path :: file.path)

/-- `map_while(Result::ok)`. -/
def mapWhileOk : List (Option String) → List String
  | some text :: rest => text :: mapWhileOk rest
  | _ => []

/-- The lines of a file, up to the first that is not UTF-8. -/
def StoredFile.textLines (file : StoredFile) : List String := mapWhileOk (lines file.content)

/-- The text of the error for a file that is not there. -/
def notFound : String := "No such file or directory (os error 2)"

/-! ## The manifest -/

/-- A state of the two engines. -/
structure RecoveryPoint where
  sqlCommitVersion : Nat
  kvSequence : Nat
  deriving DecidableEq, Repr

/-- `RecoveryTarget`. -/
inductive RecoveryTarget where
  | latest
  /-- A time, in nanoseconds from the Unix epoch. -/
  | timestamp (time : Int)
  | point (point : RecoveryPoint)
  deriving DecidableEq, Repr

/-- `BackupFile`. -/
structure BackupFile where
  path : String
  size : Nat
  checksum : Nat
  deriving DecidableEq, Repr

/-- `BackupManifest`. -/
structure BackupManifest where
  formatVersion : Nat
  createdAtMillis : Nat
  basePoint : RecoveryPoint
  recoveryPoint : RecoveryPoint
  sqlBaseTimestampMillis : Nat
  kvBaseTimestampMillis : Nat
  files : List BackupFile
  deriving DecidableEq, Repr

/-- The time of the later of the two base snapshots. -/
def BackupManifest.baseTime (manifest : BackupManifest) : Nat :=
  max manifest.sqlBaseTimestampMillis manifest.kvBaseTimestampMillis

/-- A point before the base snapshots. -/
def BackupManifest.predates (manifest : BackupManifest) (point : RecoveryPoint) : Bool :=
  point.sqlCommitVersion < manifest.basePoint.sqlCommitVersion ||
    point.kvSequence < manifest.basePoint.kvSequence

/-- `BACKUP_FORMAT_VERSION`. -/
def backupFormatVersion : Nat := 1

/-- What backup and restore use of other crates and of the two engines. -/
structure RecoveryHost where
  /-- The lines of `sql_wal.log`. -/
  sql : Sql.WalHost
  /-- `catalog.json`. -/
  catalog : Sql.SnapshotCodec
  /-- The checksums of the key-value log. -/
  kvHost : Kv.KvHost
  /-- The lines of `rustydb.wal`. -/
  kv : Kv.KvCodec
  /-- `serde_json::from_str::<KvSnapshot>`. -/
  decodeKvSnapshot : String → Option Kv.KvSnapshot
  /-- `serde_json::from_slice::<BackupManifest>`. -/
  decodeManifest : Bytes → Except String BackupManifest
  /-- `serde_json::to_vec_pretty` of a manifest. -/
  encodeManifest : BackupManifest → Bytes
  /-- The error of `serde_json::from_slice` for bytes that are not UTF-8. -/
  sliceError : Bytes → String
  /-- `checksum_file`: CRC-32. -/
  checksumFile : Bytes → Nat

/-- `validate_manifest`. -/
def validateManifest (R : RecoveryHost) (backup : Directory) (manifest : BackupManifest) :
    Except String Unit :=
  manifest.files.forM fun entry =>
    match backup.read ((entry.path.toList.splitOn '/').map String.ofList) with
    | none => .error s!"Backup file '{entry.path}' is missing: {notFound}"
    | some content =>
      if content.length ≠ entry.size ∨ R.checksumFile content ≠ entry.checksum then
        .error s!"Backup file '{entry.path}' failed checksum validation"
      else .ok ()

/-- `read_sql_snapshot`: the version and the time of `catalog.json`. -/
def readSqlSnapshot (R : RecoveryHost) (file : Option Bytes) : Except String (Nat × Nat) :=
  match file with
  | none => .ok (0, 0)
  | some content =>
    let decoded :=
      match decode content with
      | some text => R.catalog.decode text
      | none => .error (R.sliceError content)
    match decoded with
    | .error error => .error s!"Failed to parse SQL catalog snapshot: {error}"
    | .ok snapshot => .ok (snapshot.catalogVersion, snapshot.timestampMillis)

/-- `read_kv_snapshot`: the sequence and the time of `rustydb.db`. -/
def readKvSnapshot (R : RecoveryHost) (file : Option Bytes) : Except String (Nat × Nat) :=
  match file with
  | none => .ok (0, 0)
  | some content =>
    match decode content with
    | none => .error "stream did not contain valid UTF-8"
    | some text =>
      match R.decodeKvSnapshot text with
      | some snapshot => .ok (snapshot.sequence, snapshot.timestampMillis)
      | none => .ok (0, 0)

/-! ## Collecting records -/

/-- How the records of one engine are found and read. -/
structure RecordKind (α : Type) where
  /-- The names of the files that are read. -/
  selects : String → Bool
  decode : String → Option α
  valid : α → Bool
  number : α → Nat
  /-- What the error for a record that is not valid begins with. -/
  invalid : String

variable {α : Type}

/-- The records among the lines of a file; one that is not valid is an error. -/
def RecordKind.readRecords (K : RecordKind α) (display : String) :
    List String → Except String (List α)
  | [] => .ok []
  | text :: rest =>
    match K.decode text with
    | none => readRecords K display rest
    | some r =>
      if K.valid r then (readRecords K display rest).map (r :: ·)
      else .error (K.invalid ++ display)

/-- The files of a root that are read. -/
def RecordKind.filesOf (K : RecordKind α) (root : Root) : List StoredFile :=
  root.files.listFiles.filter fun file => K.selects file.fileName

/-- The records of all the files, first found first. -/
def RecordKind.recordsOf (K : RecordKind α) (roots : List Root) : Except String (List α) :=
  (roots.mapM fun root =>
    ((K.filesOf root).mapM fun file =>
      K.readRecords (root.display file) file.textLines).map List.flatten).map List.flatten

/-- The records of all the files in the order of their numbers: `or_insert` keeps the first
one of each number. -/
def collectRecords (K : RecordKind α) (roots : List Root) : Except String (List α) :=
  (K.recordsOf roots).map (gather K.number)

section Collecting

variable {K : RecordKind α} {root : Root} {roots : List Root} {file : StoredFile} {rs : List α}

theorem mem_listFiles {directory : Directory} :
    file ∈ directory.listFiles ↔ file ∈ directory :=
  (List.perm_insertionSort _ directory).mem_iff

theorem mem_filesOf :
    file ∈ K.filesOf root ↔ file ∈ root.files ∧ K.selects file.fileName = true := by
  rw [RecordKind.filesOf, List.mem_filter, mem_listFiles]

/-- All the records of the roots that can be read, in the order in which they are read. -/
def RecordKind.found (K : RecordKind α) (roots : List Root) : List α :=
  roots.flatMap fun root =>
    (K.filesOf root).flatMap fun file => file.textLines.filterMap K.decode

theorem readRecords_eq_ok {display : String} {texts : List String} :
    K.readRecords display texts = .ok rs ↔
      rs = texts.filterMap K.decode ∧ ∀ r ∈ texts.filterMap K.decode, K.valid r = true := by
  induction texts generalizing rs with
  | nil =>
    constructor
    · intro h
      exact ⟨(Except.ok.inj h).symm, by simp⟩
    · rintro ⟨rfl, -⟩
      rfl
  | cons text texts ih =>
    rw [RecordKind.readRecords]
    cases hdecode : K.decode text with
    | none => simp only [List.filterMap_cons, hdecode, ih]
    | some r =>
      simp only [List.filterMap_cons, hdecode, List.forall_mem_cons]
      cases hvalid : K.valid r with
      | false => simp
      | true =>
        simp only [if_true, Result.map_eq_ok, ih, true_and]
        constructor
        · rintro ⟨_, ⟨rfl, hrest⟩, rfl⟩
          exact ⟨rfl, hrest⟩
        · rintro ⟨rfl, hrest⟩
          exact ⟨_, ⟨rfl, hrest⟩, rfl⟩

/-- A loop that reads one list after another succeeds when each round does. -/
theorem mapM_flatten_eq_ok {β : Type} {f : β → Except String (List α)} {g : β → List α}
    {good : α → Prop} (hf : ∀ b rs, f b = .ok rs ↔ rs = g b ∧ ∀ r ∈ g b, good r) {bs : List β} :
    (bs.mapM f).map List.flatten = .ok rs ↔
      rs = bs.flatMap g ∧ ∀ r ∈ bs.flatMap g, good r := by
  induction bs generalizing rs with
  | nil => simp [Except.map, eq_comm]
  | cons b bs ih =>
    have hcons : ((b :: bs).mapM f).map List.flatten =
        (f b).bind fun first => ((bs.mapM f).map List.flatten).map (first ++ ·) := by
      rw [List.mapM_cons]
      cases f b with
      | error e => rfl
      | ok first => cases bs.mapM f <;> rfl
    rw [hcons]
    change (f b >>= _) = _ ↔ _
    rw [Result.bind_eq_ok, List.flatMap_cons, List.forall_mem_append]
    constructor
    · rintro ⟨first, hfirst, h⟩
      obtain ⟨rest, hrest, rfl⟩ := Result.map_eq_ok.mp h
      obtain ⟨rfl, hgood⟩ := (hf b first).mp hfirst
      obtain ⟨rfl, hgoods⟩ := ih.mp hrest
      exact ⟨rfl, hgood, hgoods⟩
    · rintro ⟨rfl, hgood, hgoods⟩
      exact ⟨_, (hf b _).mpr ⟨rfl, hgood⟩, Result.map_eq_ok.mpr ⟨_, ih.mpr ⟨rfl, hgoods⟩, rfl⟩⟩

/-- **Collecting succeeds** when all the records are valid; the first one found of each
number is kept. -/
theorem collectRecords_eq_ok : collectRecords K roots = .ok rs ↔
    rs = gather K.number (K.found roots) ∧ ∀ r ∈ K.found roots, K.valid r = true := by
  have hrecords : ∀ found, K.recordsOf roots = .ok found ↔
      found = K.found roots ∧ ∀ r ∈ K.found roots, K.valid r = true := by
    intro found
    exact mapM_flatten_eq_ok fun root rs =>
      mapM_flatten_eq_ok fun file rs => readRecords_eq_ok
  rw [collectRecords, Result.map_eq_ok]
  constructor
  · rintro ⟨found, hfound, rfl⟩
    obtain ⟨rfl, hvalid⟩ := (hrecords found).mp hfound
    exact ⟨rfl, hvalid⟩
  · rintro ⟨rfl, hvalid⟩
    exact ⟨_, (hrecords _).mpr ⟨rfl, hvalid⟩, rfl⟩

end Collecting

/-- One text occurs in another. -/
def contains (pattern text : String) : Bool :=
  text.toList.tails.any fun rest => pattern.toList.isPrefixOf rest

/-- The names of SQL logs. -/
def isSqlLog (name : String) : Bool :=
  contains "sql" name && (".wal".toList.isSuffixOf name.toList || name == "sql_wal.log")

/-- The names of key-value logs. -/
def isKvLog (name : String) : Bool :=
  "kv-".toList.isPrefixOf name.toList || name == "rustydb.wal"

section Hosts

variable (R : RecoveryHost)

/-- The records of the SQL log. -/
def sqlKind : RecordKind Sql.WalRecord where
  selects := isSqlLog
  decode := R.sql.decode
  valid := Sql.WalRecord.valid R.sql
  number := Sql.WalRecord.commitVersion
  invalid := "Invalid SQL WAL record in "

/-- The records of the key-value log. -/
def kvKind : RecordKind Kv.KvWalRecord where
  selects := isKvLog
  decode := R.kv.decode
  valid := Kv.KvWalRecord.valid R.kvHost
  number := Kv.KvWalRecord.sequence
  invalid := "Invalid KV WAL record in "

/-- `collect_sql_records`. -/
def collectSqlRecords (roots : List Root) : Except String (List Sql.WalRecord) :=
  collectRecords (sqlKind R) roots

/-- `collect_kv_records`. -/
def collectKvRecords (roots : List Root) : Except String (List Kv.KvWalRecord) :=
  collectRecords (kvKind R) roots

/-- `max_sql_version` and `max_kv_sequence`: the largest number collected, or the base. -/
def maxNumber (K : RecordKind α) (root : Root) (base : Nat) : Nat :=
  match collectRecords K [root] with
  | .ok records => max ((records.getLast?.map K.number).getD base) base
  | .error _ => base

/-- `legacy_lines`: the lines of an active log that are not versioned records. -/
def RecordKind.legacyLines (K : RecordKind α) (backup : Directory) (path : List String) :
    List String :=
  match backup.read path with
  | none => []
  | some content =>
    (mapWhileOk (lines content)).filter fun text => !isBlank text && (K.decode text).isNone

/-! ## Creating a backup -/

/-- What a call leaves in the destination, and what it returns. -/
structure Outcome (β : Type) where
  destination : Directory
  result : Except String β

/-- `ensure_destination_empty`. -/
def ensureDestinationEmpty (destination : Root) : Except String Unit :=
  if destination.files = [] then .ok ()
  else .error s!"Destination '{destination.path}' must be empty"

/-- The files `create` copies from a data directory. -/
def backupFiles (source : Directory) : Directory :=
  source.copyFile ["catalog.json"] ["base", "catalog.json"] ++
    source.copyFile ["sql_wal.log"] ["base", "sql_wal.log"] ++
    source.copyFile ["rustydb.db"] ["base", "rustydb.db"] ++
    source.copyFile ["rustydb.wal"] ["base", "rustydb.wal"] ++ source.copyTree "wal_archive"

/-- The entry of a file in the manifest. -/
def manifestEntry (file : StoredFile) : BackupFile where
  path := String.ofList ((String.intercalate "/" file.path).toList.map fun c =>
    if c = '\\' then '/' else c)
  size := file.content.length
  checksum := R.checksumFile file.content

/-- The manifest of copied files. -/
def manifestOf (root : Root) (now : Nat) : Except String BackupManifest := do
  let (sqlBase, sqlTimestamp) ← readSqlSnapshot R (root.files.read ["base", "catalog.json"])
  let (kvBase, kvTimestamp) ← readKvSnapshot R (root.files.read ["base", "rustydb.db"])
  pure
    { formatVersion := backupFormatVersion
      createdAtMillis := now
      basePoint := ⟨sqlBase, kvBase⟩
      recoveryPoint := ⟨maxNumber (sqlKind R) root sqlBase, maxNumber (kvKind R) root kvBase⟩
      sqlBaseTimestampMillis := sqlTimestamp
      kvBaseTimestampMillis := kvTimestamp
      files := (root.files.listFiles.filter fun file =>
        file.fileName != "manifest.json" && file.fileName != "manifest.json.tmp").map
          (manifestEntry R) }

/-- `BackupManager::create`, at a time. -/
def create (source destination : Root) (now : Nat) : Outcome BackupManifest :=
  match ensureDestinationEmpty destination with
  | .error error => ⟨destination.files, .error error⟩
  | .ok () =>
    let files := backupFiles source.files
    match manifestOf R ⟨destination.path, files⟩ now with
    | .error error => ⟨files, .error error⟩
    | .ok manifest => ⟨files ++ [⟨["manifest.json"], R.encodeManifest manifest⟩], .ok manifest⟩

end Hosts

/-! ## The loops of a restore -/

/-- Which records of an engine a restore keeps. -/
structure Filter where
  /-- The number of the base snapshot. -/
  base : Nat
  /-- The time of a timestamp target. -/
  cutoff : Option Nat
  /-- The number of an exact target. -/
  requested : Option Nat

/-- The fields of a record that the loop looks at, and the check that it follows. -/
structure LoopKind (α : Type) where
  number : α → Nat
  timestampMillis : α → Nat
  /-- The record follows the number restored so far. -/
  follows : Nat → α → Bool
  /-- The error when it does not. -/
  missing : Nat → α → String

/-- The loop over the records of an engine: the records written, and the number reached. -/
def applyRecords (L : LoopKind α) (F : Filter) : Nat → List α → List α × Except String Nat
  | restored, [] => ([], .ok restored)
  | restored, r :: rest =>
    if L.number r ≤ F.base then applyRecords L F restored rest
    else if F.cutoff.any (· < L.timestampMillis r) then ([], .ok restored)
    else if F.requested.any (· < L.number r) then applyRecords L F restored rest
    else if L.follows restored r then
      let (written, result) := applyRecords L F (L.number r) rest
      (r :: written, result)
    else ([], .error (L.missing restored r))

/-- The restore of the SQL log: a record follows the version that it was made on. -/
def sqlLoop : LoopKind Sql.WalRecord where
  number := Sql.WalRecord.commitVersion
  timestampMillis := Sql.WalRecord.timestampMillis
  follows restored r := r.baseVersion == restored
  missing restored r :=
    s!"Missing SQL WAL segment between commit {restored} and {r.commitVersion}"

/-- `saturating_add(1)` on a sequence number. -/
def nextSequence (sequence : Nat) : Nat := min (sequence + 1) (2 ^ 64 - 1)

/-- The restore of the key-value log: the records are consecutive. -/
def kvLoop : LoopKind Kv.KvWalRecord where
  number := Kv.KvWalRecord.sequence
  timestampMillis := Kv.KvWalRecord.timestampMillis
  follows restored r := r.sequence == nextSequence restored
  missing restored _ := s!"Missing KV WAL record after sequence {restored}"

/-- The loop over `sql_records`. -/
def applySqlRecords : Filter → Nat → List Sql.WalRecord →
    List Sql.WalRecord × Except String Nat :=
  applyRecords sqlLoop

/-- The loop over `kv_records`. -/
def applyKvRecords : Filter → Nat → List Kv.KvWalRecord →
    List Kv.KvWalRecord × Except String Nat :=
  applyRecords kvLoop

/-- The records that a restore keeps: behind the base, up to the first one that is too late,
without those beyond the target. -/
def Filter.kept (L : LoopKind α) (F : Filter) (rs : List α) : List α :=
  ((rs.filter fun r => F.base < L.number r).takeWhile
    fun r => !F.cutoff.any (· < L.timestampMillis r)).filter
      fun r => !F.requested.any (· < L.number r)

/-- Records that follow one another from one number to another. -/
def LoopKind.Chain (L : LoopKind α) : Nat → List α → Nat → Prop
  | n, [], m => n = m
  | n, r :: rest, m => L.follows n r = true ∧ LoopKind.Chain L (L.number r) rest m

section Loop

variable {L : LoopKind α} {F : Filter} {rs : List α} {r : α} {n m : Nat}

theorem Filter.kept_skip (h : L.number r ≤ F.base) : F.kept L (r :: rs) = F.kept L rs := by
  have hskip : ¬ F.base < L.number r := by omega
  simp [kept, hskip]

theorem Filter.kept_stop (h : F.base < L.number r)
    (hcutoff : F.cutoff.any (· < L.timestampMillis r) = true) : F.kept L (r :: rs) = [] := by
  simp [kept, h, hcutoff]

theorem Filter.kept_beyond (h : F.base < L.number r)
    (hcutoff : F.cutoff.any (· < L.timestampMillis r) = false)
    (hrequested : F.requested.any (· < L.number r) = true) :
    F.kept L (r :: rs) = F.kept L rs := by
  simp [kept, h, hcutoff, hrequested]

theorem Filter.kept_cons (h : F.base < L.number r)
    (hcutoff : F.cutoff.any (· < L.timestampMillis r) = false)
    (hrequested : F.requested.any (· < L.number r) = false) :
    F.kept L (r :: rs) = r :: F.kept L rs := by
  simp [kept, h, hcutoff, hrequested]

/-- **The loop succeeds** when the records it keeps follow one another, and writes them. -/
theorem applyRecords_eq_ok {written : List α} :
    applyRecords L F n rs = (written, .ok m) ↔ written = F.kept L rs ∧ L.Chain n written m := by
  induction rs generalizing n written with
  | nil =>
    simp only [applyRecords, Filter.kept, List.filter_nil, List.takeWhile_nil, Prod.mk.injEq,
      Except.ok.injEq]
    constructor
    · rintro ⟨rfl, rfl⟩
      exact ⟨rfl, rfl⟩
    · rintro ⟨rfl, hchain⟩
      exact ⟨rfl, hchain⟩
  | cons r rs ih =>
    rw [applyRecords]
    by_cases hbase : L.number r ≤ F.base
    · rw [if_pos hbase, ih, Filter.kept_skip hbase]
    · rw [if_neg hbase]
      have hlt : F.base < L.number r := by omega
      cases hcutoff : F.cutoff.any (· < L.timestampMillis r) with
      | true =>
        rw [if_pos rfl, Filter.kept_stop hlt hcutoff]
        constructor
        · intro h
          obtain ⟨rfl, hm⟩ := Prod.mk.inj h
          exact ⟨rfl, Except.ok.inj hm⟩
        · rintro ⟨rfl, rfl⟩
          rfl
      | false =>
        rw [if_neg Bool.false_ne_true]
        cases hrequested : F.requested.any (· < L.number r) with
        | true => rw [if_pos rfl, ih, Filter.kept_beyond hlt hcutoff hrequested]
        | false =>
          rw [if_neg Bool.false_ne_true, Filter.kept_cons hlt hcutoff hrequested]
          cases hfollows : L.follows n r with
          | true =>
            rw [if_pos rfl]
            constructor
            · intro h
              obtain ⟨rfl, hm⟩ := Prod.mk.inj h
              obtain ⟨hkept, hchain⟩ := ih.mp (Prod.ext rfl hm)
              exact ⟨congrArg (r :: ·) hkept, hfollows, hchain⟩
            · rintro ⟨rfl, -, hchain⟩
              rw [ih.mpr ⟨rfl, hchain⟩]
          | false =>
            rw [if_neg Bool.false_ne_true]
            constructor
            · intro h
              cases (Prod.mk.inj h).2
            · rintro ⟨rfl, hchain⟩
              rw [LoopKind.Chain, hfollows] at hchain
              exact absurd hchain.1 Bool.false_ne_true

theorem Filter.kept_sublist : (F.kept L rs).Sublist rs :=
  List.filter_sublist.trans ((List.takeWhile_sublist _).trans List.filter_sublist)

theorem Filter.lt_of_kept (h : r ∈ F.kept L rs) : F.base < L.number r := by
  have hmem := List.takeWhile_subset _ (List.mem_of_mem_filter h)
  simpa using (List.mem_filter.mp hmem).2

/-- **The records that are kept**: behind the base and not beyond the target, with nothing up
to them that is too late. -/
theorem Filter.mem_kept (h : Increasing L.number rs) : r ∈ F.kept L rs ↔
    r ∈ rs ∧ F.base < L.number r ∧ (∀ requested ∈ F.requested, L.number r ≤ requested) ∧
      ∀ cutoff ∈ F.cutoff, ∀ s ∈ rs, F.base < L.number s → L.number s ≤ L.number r →
        L.timestampMillis s ≤ cutoff := by
  have hrequested : (!F.requested.any (· < L.number r)) = true ↔
      ∀ requested ∈ F.requested, L.number r ≤ requested := by
    cases F.requested <;> simp
  have hcutoff : ∀ s, (!F.cutoff.any (· < L.timestampMillis s)) = true ↔
      ∀ cutoff ∈ F.cutoff, L.timestampMillis s ≤ cutoff := by
    intro s
    cases F.cutoff <;> simp
  have hsorted : Increasing L.number (rs.filter fun r => F.base < L.number r) := h.filter _
  rw [Filter.kept, List.mem_filter, hsorted.mem_takeWhile, hrequested, List.mem_filter,
    decide_eq_true_eq]
  simp only [List.mem_filter, decide_eq_true_eq, hcutoff]
  constructor
  · rintro ⟨⟨⟨hr, hbase⟩, htimely⟩, hmax⟩
    exact ⟨hr, hbase, hmax, fun cutoff hmem s hs hlow hle => htimely s ⟨hs, hlow⟩ hle cutoff hmem⟩
  · rintro ⟨hr, hbase, hmax, htimely⟩
    exact ⟨⟨⟨hr, hbase⟩, fun s hs hle cutoff hmem => htimely cutoff hmem s hs.1 hs.2 hle⟩, hmax⟩

end Loop

section Engines

variable {n m : Nat}

/-- SQL records follow one another when each starts where the one before ends. -/
theorem chain_sqlLoop {rs : List Sql.WalRecord} :
    sqlLoop.Chain n rs m ↔
      Chained Sql.WalRecord.baseVersion Sql.WalRecord.commitVersion n rs m := by
  induction rs generalizing n with
  | nil => exact Iff.rfl
  | cons r rs ih =>
    rw [LoopKind.Chain, Chained, ih]
    simp [sqlLoop]

/-- KV records that follow one another have consecutive numbers. -/
theorem numbered_of_chain {rs : List Kv.KvWalRecord}
    (hrs : Increasing Kv.KvWalRecord.sequence rs) (hbase : ∀ r ∈ rs, n < r.sequence)
    (h : kvLoop.Chain n rs m) :
    Numbered Kv.KvWalRecord.sequence n rs ∧ m = n + rs.length := by
  induction rs generalizing n with
  | nil => exact ⟨trivial, Eq.symm h⟩
  | cons r rs ih =>
    obtain ⟨hfirst, hrest⟩ := List.pairwise_cons.mp hrs
    have hlt := hbase r (by simp)
    have hnumber : r.sequence = n + 1 := by
      have hfollows := h.1
      simp only [kvLoop, nextSequence, beq_iff_eq] at hfollows
      omega
    obtain ⟨hnumbered, hm⟩ := ih hrest hfirst h.2
    rw [hnumber] at hnumbered hm
    refine ⟨⟨hnumber, hnumbered⟩, ?_⟩
    rw [hm, List.length_cons]
    omega

/-- Records with consecutive numbers follow one another, as far as a `u64` counts. -/
theorem chain_of_numbered {rs : List Kv.KvWalRecord}
    (h : Numbered Kv.KvWalRecord.sequence n rs) (h64 : n + rs.length < 2 ^ 64) :
    kvLoop.Chain n rs (n + rs.length) := by
  induction rs generalizing n with
  | nil => exact rfl
  | cons r rs ih =>
    obtain ⟨hnumber, hrest⟩ := h
    rw [List.length_cons] at h64 ⊢
    have hchain := ih hrest (by omega)
    refine ⟨?_, ?_⟩
    · simp only [kvLoop, nextSequence, beq_iff_eq]
      omega
    · rw [show kvLoop.number r = r.sequence from rfl, hnumber, Nat.add_comm rs.length,
        ← Nat.add_assoc]
      exact hchain

end Engines

/-- A restored log: the lines of an older format first, which only `Latest` allows. -/
def writeLog (encode : α → String) (legacyError : String) (latest : Bool) (legacy : List String)
    (applied : List α × Except String Nat) : Bytes × Except String Nat :=
  if legacy ≠ [] ∧ latest = false then ([], .error legacyError)
  else (legacy.flatMap line ++ applied.1.flatMap (fun r => line (encode r)), applied.2)

section Writing

variable {encode : α → String} {legacyError : String} {latest : Bool} {L : LoopKind α}
  {F : Filter} {rs : List α} {n m : Nat}

theorem writeLog_nil {applied : List α × Except String Nat} :
    writeLog encode legacyError latest [] applied =
      (applied.1.flatMap (fun r => line (encode r)), applied.2) := by
  simp [writeLog]

/-- A log without lines of an older format is written when the records kept follow one
another. -/
theorem writeLog_end : (writeLog encode legacyError latest [] (applyRecords L F n rs)).2 = .ok m ↔
    L.Chain n (F.kept L rs) m := by
  rw [writeLog_nil]
  constructor
  · intro h
    obtain ⟨hkept, hchain⟩ := applyRecords_eq_ok.mp (Prod.ext rfl h)
    rw [hkept] at hchain
    exact hchain
  · intro hchain
    rw [applyRecords_eq_ok.mpr ⟨rfl, hchain⟩]

theorem writeLog_file (h : L.Chain n (F.kept L rs) m) :
    (writeLog encode legacyError latest [] (applyRecords L F n rs)).1 =
      (F.kept L rs).flatMap fun r => line (encode r) := by
  rw [writeLog_nil, applyRecords_eq_ok.mpr ⟨rfl, h⟩]

end Writing

/-! ## Restoring -/

/-- `system_time_millis`. -/
def systemTimeMillis (time : Int) : Except String Nat :=
  if time < 0 then .error "Recovery timestamp predates the Unix epoch"
  else .ok (time.toNat / 1000000 % 2 ^ 64)

/-- The cutoff of a target. -/
def RecoveryTarget.cutoff : RecoveryTarget → Except String (Option Nat)
  | .timestamp time => (systemTimeMillis time).map some
  | _ => .ok none

/-- The point of an exact target. -/
def RecoveryTarget.requested : RecoveryTarget → Option RecoveryPoint
  | .point p => some p
  | _ => none

/-- The lock files that every engine and every restore leaves behind. -/
def lockFiles : Directory := [⟨[".sql.lock"], []⟩, ⟨[".kv.lock"], []⟩]

section Restore

variable (R : RecoveryHost)

/-- `restore` before it touches the destination: the manifest of a backup that is complete. -/
def openBackup (backup destination : Root) : Except String BackupManifest := do
  ensureDestinationEmpty destination
  match backup.files.read ["manifest.json"] with
  | none => .error s!"Failed to read backup manifest: {notFound}"
  | some content =>
    match R.decodeManifest content with
    | .error error => .error s!"Failed to parse backup manifest: {error}"
    | .ok manifest =>
      if manifest.formatVersion ≠ backupFormatVersion then
        .error s!"Unsupported backup format {manifest.formatVersion}"
      else (validateManifest R backup.files manifest).map fun _ => manifest

/-- The files `restore` copies from a backup. -/
def restoreFiles (backup : Directory) : Directory :=
  backup.copyFile ["base", "catalog.json"] ["catalog.json"] ++
    backup.copyFile ["base", "rustydb.db"] ["rustydb.db"] ++ backup.copyTree "wal_archive"

/-- What `restore` works out before it writes the logs. -/
structure Plan where
  cutoff : Option Nat
  sqlRecords : List Sql.WalRecord
  kvRecords : List Kv.KvWalRecord

/-- The checks of the target, and the records of all the roots. -/
def plan (manifest : BackupManifest) (roots : List Root) (target : RecoveryTarget) :
    Except String Plan := do
  let cutoff ← target.cutoff
  if manifest.baseTime ≠ 0 ∧ cutoff.any (· < manifest.baseTime) then
    .error "Recovery timestamp predates the backup base snapshots"
  else if target.requested.any manifest.predates then
    .error "Recovery point predates the backup base snapshots"
  else do
    let sqlRecords ← collectSqlRecords R roots
    let kvRecords ← collectKvRecords R roots
    pure ⟨cutoff, sqlRecords, kvRecords⟩

/-- The SQL records that a target asks for. -/
def sqlFilter (manifest : BackupManifest) (target : RecoveryTarget) (cutoff : Option Nat) :
    Filter where
  base := manifest.basePoint.sqlCommitVersion
  cutoff := cutoff
  requested := target.requested.map RecoveryPoint.sqlCommitVersion

/-- The key-value records that a target asks for. -/
def kvFilter (manifest : BackupManifest) (target : RecoveryTarget) (cutoff : Option Nat) :
    Filter where
  base := manifest.basePoint.kvSequence
  cutoff := cutoff
  requested := target.requested.map RecoveryPoint.kvSequence

/-- The restored `sql_wal.log`. -/
def restoreSql (manifest : BackupManifest) (backup : Directory) (target : RecoveryTarget)
    (plan : Plan) : Bytes × Except String Nat :=
  writeLog R.sql.encode
    ("Timestamp/exact recovery requires the versioned SQL WAL format; restore Latest once to " ++
      "upgrade legacy WAL")
    (target == .latest) ((sqlKind R).legacyLines backup ["base", "sql_wal.log"])
    (applySqlRecords (sqlFilter manifest target plan.cutoff)
      manifest.basePoint.sqlCommitVersion plan.sqlRecords)

/-- The restored `rustydb.wal`. -/
def restoreKv (manifest : BackupManifest) (backup : Directory) (target : RecoveryTarget)
    (plan : Plan) : Bytes × Except String Nat :=
  writeLog R.kv.encode
    ("Timestamp/exact recovery requires the versioned KV WAL format; restore Latest once to " ++
      "upgrade legacy WAL")
    (target == .latest) ((kvKind R).legacyLines backup ["base", "rustydb.wal"])
    (applyKvRecords (kvFilter manifest target plan.cutoff)
      manifest.basePoint.kvSequence plan.kvRecords)

/-- The last check of `restore`: an exact target must have been reached. -/
def checkPoint (target : RecoveryTarget) (restored : RecoveryPoint) :
    Except String RecoveryPoint :=
  match target.requested with
  | none => .ok restored
  | some point =>
    if restored = point then .ok restored
    else .error (s!"Requested recovery point sql:{point.sqlCommitVersion}," ++
      s!"kv:{point.kvSequence} is not fully available " ++
      s!"(restored sql:{restored.sqlCommitVersion},kv:{restored.kvSequence})")

/-- `BackupManager::restore`. -/
def restore (backup : Root) (walArchive : Option Root) (destination : Root)
    (target : RecoveryTarget) : Outcome RecoveryPoint :=
  match openBackup R backup destination with
  | .error error => ⟨destination.files, .error error⟩
  | .ok manifest =>
    let copied := lockFiles ++ restoreFiles backup.files
    match plan R manifest (backup :: walArchive.toList) target with
    | .error error => ⟨copied, .error error⟩
    | .ok plan =>
      let (sqlFile, sqlEnd) := restoreSql R manifest backup.files target plan
      let copied := copied ++ [⟨["sql_wal.log"], sqlFile⟩]
      match sqlEnd with
      | .error error => ⟨copied, .error error⟩
      | .ok sqlCommitVersion =>
        let (kvFile, kvEnd) := restoreKv R manifest backup.files target plan
        let copied := copied ++ [⟨["rustydb.wal"], kvFile⟩]
        match kvEnd with
        | .error error => ⟨copied, .error error⟩
        | .ok kvSequence => ⟨copied, checkPoint target ⟨sqlCommitVersion, kvSequence⟩⟩

variable {R}
variable {backup destination : Root} {walArchive : Option Root} {target : RecoveryTarget}
  {manifest : BackupManifest} {roots : List Root}

/-- The target's checks pass, and the records of all the roots can be collected. -/
theorem plan_eq_ok {p : Plan} : plan R manifest roots target = .ok p ↔
    target.cutoff = .ok p.cutoff ∧
      (manifest.baseTime = 0 ∨ ∀ cutoff ∈ p.cutoff, manifest.baseTime ≤ cutoff) ∧
      (∀ q ∈ target.requested, manifest.predates q = false) ∧
      collectSqlRecords R roots = .ok p.sqlRecords ∧
      collectKvRecords R roots = .ok p.kvRecords := by
  have hcutoff : ∀ cutoff : Option Nat,
      ¬ (manifest.baseTime ≠ 0 ∧ cutoff.any (· < manifest.baseTime) = true) ↔
      (manifest.baseTime = 0 ∨ ∀ c ∈ cutoff, manifest.baseTime ≤ c) := by
    intro cutoff
    cases cutoff with
    | none => simp
    | some c => simp only [Option.any_some, decide_eq_true_eq, Option.mem_def, Option.some.injEq,
        forall_eq', not_and_or, not_not, not_lt]
  have hpoint : target.requested.any manifest.predates = false ↔
      ∀ q ∈ target.requested, manifest.predates q = false := by
    cases target.requested <;> simp
  rw [plan, Result.bind_eq_ok]
  constructor
  · rintro ⟨cutoff, hcut, h⟩
    by_cases htime : manifest.baseTime ≠ 0 ∧ cutoff.any (· < manifest.baseTime) = true
    · rw [if_pos htime] at h
      cases h
    · rw [if_neg htime] at h
      cases hbelow : target.requested.any manifest.predates with
      | true =>
        rw [hbelow, if_pos rfl] at h
        cases h
      | false =>
        rw [hbelow, if_neg Bool.false_ne_true] at h
        obtain ⟨sqlRecords, hsql, h⟩ := Result.bind_eq_ok.mp h
        obtain ⟨kvRecords, hkv, h⟩ := Result.bind_eq_ok.mp h
        obtain rfl := Except.ok.inj h
        exact ⟨hcut, (hcutoff cutoff).mp htime, hpoint.mp hbelow, hsql, hkv⟩
  · rintro ⟨hcut, htime, hbelow, hsql, hkv⟩
    refine ⟨p.cutoff, hcut, ?_⟩
    rw [if_neg ((hcutoff p.cutoff).mpr htime), hpoint.mpr hbelow, if_neg Bool.false_ne_true, hsql,
      Result.ok_bind, hkv]
    rfl

theorem checkPoint_eq_ok {restored p : RecoveryPoint} :
    checkPoint target restored = .ok p ↔ p = restored ∧ ∀ q ∈ target.requested, p = q := by
  rw [checkPoint]
  cases target.requested with
  | none => simp [eq_comm]
  | some q =>
    by_cases hq : restored = q
    · simp only [hq, if_true, Except.ok.injEq, Option.mem_def, Option.some.injEq, forall_eq']
      exact ⟨fun h => ⟨h.symm, h.symm⟩, fun h => h.1.symm⟩
    · simp only [hq, if_false, reduceCtorEq, Option.mem_def, Option.some.injEq, forall_eq',
        false_iff]
      rintro ⟨rfl, rfl⟩
      exact hq rfl

/-- **A restore succeeds** when each of its phases does. -/
theorem restore_eq_ok {p : RecoveryPoint} :
    (restore R backup walArchive destination target).result = .ok p ↔
      ∃ manifest, openBackup R backup destination = .ok manifest ∧
        ∃ q, plan R manifest (backup :: walArchive.toList) target = .ok q ∧
          (restoreSql R manifest backup.files target q).2 = .ok p.sqlCommitVersion ∧
          (restoreKv R manifest backup.files target q).2 = .ok p.kvSequence ∧
          ∀ point ∈ target.requested, p = point := by
  rw [restore]
  cases hopen : openBackup R backup destination with
  | error e => simp
  | ok manifest =>
    cases hplan : plan R manifest (backup :: walArchive.toList) target with
    | error e => simp [hplan]
    | ok q =>
      cases hsql : (restoreSql R manifest backup.files target q).2 with
      | error e => simp [hplan, hsql]
      | ok version =>
        cases hkv : (restoreKv R manifest backup.files target q).2 with
        | error e => simp [hplan, hsql, hkv]
        | ok sequence =>
          simp only [hplan, Except.ok.injEq, exists_eq_left', hsql, hkv, checkPoint_eq_ok]
          constructor
          · rintro ⟨rfl, hpoint⟩
            exact ⟨rfl, rfl, hpoint⟩
          · rintro ⟨hversion, hsequence, hpoint⟩
            exact ⟨by rw [hversion, hsequence], hpoint⟩

/-- What a restore that writes both logs leaves. -/
theorem destination_restore {q : Plan} {version sequence : Nat}
    (hopen : openBackup R backup destination = .ok manifest)
    (hplan : plan R manifest (backup :: walArchive.toList) target = .ok q)
    (hsql : (restoreSql R manifest backup.files target q).2 = .ok version)
    (hkv : (restoreKv R manifest backup.files target q).2 = .ok sequence) :
    (restore R backup walArchive destination target).destination =
      lockFiles ++ restoreFiles backup.files ++
        [⟨["sql_wal.log"], (restoreSql R manifest backup.files target q).1⟩] ++
        [⟨["rustydb.wal"], (restoreKv R manifest backup.files target q).1⟩] := by
  simp only [restore, hopen, hplan, hsql, hkv]

/-! ## Pruning -/

variable (R)

/-- `latest_record_timestamp`. -/
def latestRecordTimestamp (file : StoredFile) : Option Nat :=
  file.textLines.foldl (fun latest text =>
    let latest :=
      match R.sql.decode text with
      | some r => if r.valid R.sql then some (max (latest.getD 0) r.timestampMillis) else latest
      | none => latest
    match R.kv.decode text with
    | some r => if r.valid R.kvHost then some (max (latest.getD 0) r.timestampMillis) else latest
    | none => latest) none

/-- `BackupManager::prune` with `apply`: the archived files whose latest record is older. -/
def prune (source : Directory) (before : Int) : Except String Directory := do
  let cutoff ← systemTimeMillis before
  pure (source.filter fun file => !(file.path.head? == some "wal_archive" &&
    (latestRecordTimestamp R file).any (· < cutoff)))

end Restore

end Recovery
end RustyDB
