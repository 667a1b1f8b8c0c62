import Mathlib
import RustyDB.Sql.Wal

/-!
# Checkpoints and crashes

`save` writes the catalog to `catalog.json.tmp`, renames it to `catalog.json`, moves
the log to the archive and opens a new one.  Between the two renames the new snapshot
coexists with a log that it already contains.

* `SavePoint`, `SqlDisk.saveUntil` — the interruption points of `save` and the files it
  leaves there.
* `Catalog.SameView` — the same version, and tables that look the same.
* `unchanged_of_sameView` — a snapshot that is loaded with the same tables has kept its values.
* `save_crash_atomic` — **wherever `save` is interrupted, the next `open` recovers the
  catalog, exactly when its snapshot is readable.**
-/

namespace RustyDB
namespace Sql

open LineFile KeyedIndex

/-! ## The steps of a checkpoint -/

/-- Where a process can stop inside `save`. -/
inductive SavePoint where
  /-- Before anything has been written. -/
  | entered
  /-- `catalog.json.tmp` is there, with some of its bytes. -/
  | written (bytes : Bytes)
  /-- `catalog.json.tmp` has become `catalog.json`. -/
  | renamed
  /-- A log that is not empty has been moved to the archive. -/
  | archived
  /-- The new log exists. -/
  | reopened
  deriving DecidableEq, Repr

namespace SqlDisk

/-- The rename that publishes a snapshot. -/
def publishSnapshot (C : SnapshotCodec) (disk : SqlDisk) (catalog : Catalog) (now : Nat) :
    SqlDisk :=
  { disk with temporary := none, catalogFile := some (C.encode (catalog.snapshot now)) }

/-- A log that is not empty moves to the archive, under the version it leads to. -/
def archiveWal (disk : SqlDisk) (version now : Nat) : SqlDisk :=
  match disk.wal with
  | some (b :: bytes) =>
    { disk with
      wal := none
      archive := disk.archive ++ [(s!"sql-{version}-{now}.wal", b :: bytes)] }
  | _ => disk

/-- The log is opened for appending, and created if need be. -/
def openWal (disk : SqlDisk) : SqlDisk := { disk with wal := some (disk.wal.getD []) }

/-- The files `save` leaves when it stops at a point. -/
def saveUntil (C : SnapshotCodec) (disk : SqlDisk) (catalog : Catalog) (now : Nat) :
    SavePoint → SqlDisk
  | .entered => disk
  | .written bytes => { disk with temporary := some bytes }
  | .renamed => disk.publishSnapshot C catalog now
  | .archived => (disk.publishSnapshot C catalog now).archiveWal catalog.version now
  | .reopened => ((disk.publishSnapshot C catalog now).archiveWal catalog.version now).openWal

theorem catalogFile_archiveWal (disk : SqlDisk) (version now : Nat) :
    (disk.archiveWal version now).catalogFile = disk.catalogFile := by
  rw [archiveWal]
  split <;> rfl

theorem legacyTables_archiveWal (disk : SqlDisk) (version now : Nat) :
    (disk.archiveWal version now).legacyTables = disk.legacyTables := by
  rw [archiveWal]
  split <;> rfl

/-- Nothing is left of the log. -/
theorem wal_archiveWal (disk : SqlDisk) (version now : Nat) :
    (disk.archiveWal version now).wal = none ∨ (disk.archiveWal version now).wal = some [] := by
  rw [archiveWal]
  split
  · exact Or.inl rfl
  · rename_i hwal
    rcases hcase : disk.wal with _ | _ | ⟨b, bytes⟩
    · exact Or.inl rfl
    · exact Or.inr rfl
    · exact absurd hcase (hwal b bytes)

end SqlDisk

/-! ## What is recovered -/

/-- The same version, and tables that look the same. -/
structure Catalog.SameView (catalog catalog' : Catalog) : Prop where
  version : catalog'.version = catalog.version
  tables : catalog.tables.SameView catalog'.tables

section Recovery

variable {H : Host} {W : WalHost} {C : SnapshotCodec} {catalog loaded : Catalog}
  {disk : SqlDisk} {inserted now : Nat}

theorem Tables.Loadable.sameView_reload {tables : Tables} (h : tables.Loadable H inserted) :
    tables.SameView (migrateTables H tables.owned) := by
  rw [migrateTables_owned h]
  exact Tables.sameView_mapValues fun _ table => ⟨rfl, rfl⟩

/-- A published snapshot is loaded as the catalog it was made of. -/
theorem load_publishSnapshot (h : catalog.tables.Loadable H inserted)
    (hC : C.decode (C.encode (catalog.snapshot now)) = .ok (catalog.snapshot now))
    (legacyTables : List String) :
    ∃ loaded, loadCatalog H C (some (C.encode (catalog.snapshot now))) legacyTables =
      .ok loaded ∧ catalog.SameView loaded :=
  ⟨_, loadCatalog_snapshot hC legacyTables, rfl, h.sameView_reload⟩

/-- The log of a directory, replayed on the catalog that is loaded. -/
theorem openCatalog_of_load (hload : loadCatalog H C disk.catalogFile disk.legacyTables =
      .ok loaded) :
    openCatalog H W C disk =
      match disk.wal with
      | none => .ok loaded
      | some file => (replayLines H W loaded (lines file)).mapError .replay := by
  rw [openCatalog, hload]
  rfl

/-- The catalog that is opened has every record of the log. -/
theorem commits_of_openCatalog {file : Bytes} {records : List WalRecord}
    (hwal : disk.wal = some file) (hrecords : HoldsRecords W file records)
    (hopen : openCatalog H W C disk = .ok catalog) :
    ∀ r ∈ records, r.commitVersion ≤ catalog.version := by
  obtain ⟨loaded, hload, -⟩ := Result.bind_eq_ok.mp hopen
  rw [Result.mapError_eq_ok] at hload
  rw [openCatalog_of_load hload, hwal] at hopen
  simp only [Result.mapError_eq_ok, replayLines_records hrecords] at hopen
  exact (version_replayRecords hopen).2

/-- A directory whose log the loaded catalog already contains. -/
theorem openCatalog_contained (hload : loadCatalog H C disk.catalogFile disk.legacyTables =
      .ok loaded)
    (hwal : ∀ file, disk.wal = some file → ∃ records, HoldsRecords W file records ∧
      ∀ r ∈ records, r.commitVersion ≤ loaded.version) :
    openCatalog H W C disk = .ok loaded := by
  rw [openCatalog_of_load hload]
  cases hfile : disk.wal with
  | none => rfl
  | some file =>
    obtain ⟨records, hrecords, hcommits⟩ := hwal file hfile
    simp only [replayLines_records hrecords, replayRecords_skips hcommits]
    rfl

/-- A directory with a new log has the tables of its snapshot. -/
theorem tables_of_reopened {read : CatalogSnapshot}
    (hdecode : C.decode (C.encode (catalog.snapshot now)) = .ok read)
    (hopen : openCatalog H W C (disk.saveUntil C catalog now .reopened) = .ok loaded) :
    loaded.tables = migrateTables H read.tables := by
  obtain ⟨opened, hload, hreplay⟩ := Result.bind_eq_ok.mp hopen
  have hempty : (disk.saveUntil C catalog now .reopened).wal = some [] := by
    rcases SqlDisk.wal_archiveWal (disk.publishSnapshot C catalog now) catalog.version now
      with hempty | hempty <;> simp [SqlDisk.saveUntil, SqlDisk.openWal, hempty]
  rw [hempty] at hreplay
  have hsame : opened = loaded := by
    simpa [replayLines_records holdsRecords_nil, replayRecords, Except.mapError] using hreplay
  subst hsame
  rw [Result.mapError_eq_ok, SqlDisk.saveUntil, SqlDisk.openWal, SqlDisk.catalogFile_archiveWal,
    SqlDisk.publishSnapshot, loadCatalog, hdecode] at hload
  simp only at hload
  split_ifs at hload
  cases hload
  rfl

theorem keys_of_rereads {reread : F64 → F64} {entries read : List (String × TableData)}
    (h : List.Forall₂ (RereadTable reread) entries read) :
    read.map Prod.fst = entries.map Prod.fst := by
  induction h with
  | nil => rfl
  | cons hentry _ ih => rw [List.map_cons, List.map_cons, hentry.1, ih]

/-- The other doubles of a table are found under its name. -/
theorem lookup_of_rereads {reread : F64 → F64} {entries read : List (String × TableData)}
    (h : List.Forall₂ (RereadTable reread) entries read) {name : String} {data : TableData}
    (hlookup : entries.lookup name = some data) :
    ∃ data', read.lookup name = some data' ∧
      data'.values = data.values.map (Value.reread reread) := by
  induction h with
  | nil => cases hlookup
  | @cons entry entry' entries read hentry _ ih =>
    obtain ⟨key, first⟩ := entry
    obtain ⟨key', first'⟩ := entry'
    obtain ⟨hkey, hvalues⟩ := hentry
    simp only at hkey
    subst hkey
    rw [List.lookup_cons] at hlookup ⊢
    split at hlookup
    · obtain rfl := Option.some.inj hlookup
      exact ⟨first', rfl, hvalues⟩
    · exact ih hlookup

/-- **A snapshot that is loaded with the same tables** has kept its values: each is what its
text is read as. -/
theorem unchanged_of_sameView {reread : F64 → F64} {tables : Tables}
    {read : List (String × TableData)} (hlower : tables.Lowercase)
    (h : List.Forall₂ (RereadTable reread) tables.owned read)
    (hsame : tables.SameView (migrateTables H read)) :
    ∀ entry ∈ tables.owned, ∀ value ∈ entry.2.values, value.reread reread = value := by
  intro entry hentry value hvalue
  obtain ⟨⟨name, table⟩, hmem, rfl⟩ := List.mem_map.mp hentry
  have hlookup : tables.lookup name = some table := AList.mem_lookup_iff.mpr hmem
  obtain ⟨data, hdata, hvalues⟩ := lookup_of_rereads h
    (by rw [lookup_owned, hlookup, Option.map_some])
  have hnames : ∀ entry ∈ read, toAsciiLowercase entry.1 = entry.1 := by
    intro entry hentry
    have hkey := List.mem_map_of_mem (f := Prod.fst) hentry
    rw [keys_of_rereads h, Tables.owned, List.map_map] at hkey
    exact hlower entry.1 hkey
  have hview := hsame.tables name
  rw [hlookup, lookup_migrateTables hnames, hdata, Option.map_some] at hview
  cases hview with
  | some hview =>
    have hkept : (data.table.migrateLegacyRows H).data.values = table.data.values := by
      simp only [TableData.values, Table.data, hview.schema, hview.rows]
    rw [values_migrateLegacyRows, hvalues] at hkept
    exact List.map_inj_left.mp (hkept.trans (List.map_id _).symm) value hvalue

end Recovery

/-- **A checkpoint is atomic** under crashes exactly when `serde_json` gives the snapshot
back: the log holds valid records that lead from the earlier snapshot to the
published catalog, and wherever `save` is interrupted the next `open` recovers its
version, schemas and rows. -/
theorem save_crash_atomic (H : Host) (W : WalHost) (C : SnapshotCodec) (catalog replayed : Catalog)
    (disk : SqlDisk) (file : Bytes) (records : List WalRecord) (inserted now : Nat)
    (hpublished : Persisted H catalog.tables inserted) (hbound : inserted < 2 ^ 64 - 1)
    (hwal : disk.wal = some file) (hrecords : HoldsRecords W file records)
    (hopen : openCatalog H W C disk = .ok replayed) (hreplayed : catalog.SameView replayed)
    (hC : C.Lawful (catalog.snapshot now)) :
    (∀ point, ∃ recovered, openCatalog H W C (disk.saveUntil C catalog now point) =
      .ok recovered ∧ catalog.SameView recovered) ↔
      (catalog.snapshot now).Readable C.reread := by
  have hload := loadable_of_persisted hpublished hbound
  constructor
  · intro hatomic
    obtain ⟨recovered, hrecovered, hsame⟩ := hatomic .reopened
    obtain ⟨hfinite, hshallow⟩ : (catalog.snapshot now).Finite ∧
        (catalog.snapshot now).nesting < recursionLimit := by
      by_contra hnot
      obtain ⟨error, hdecode⟩ := hC.refused (by rwa [← Nat.not_lt, ← not_and_or])
      obtain ⟨loaded, hloaded, -⟩ := Result.bind_eq_ok.mp hrecovered
      simp [SqlDisk.saveUntil, SqlDisk.openWal, SqlDisk.catalogFile_archiveWal,
        SqlDisk.publishSnapshot, loadCatalog, hdecode, Except.mapError] at hloaded
    obtain ⟨read, hdecode, hrereads⟩ := hC.rereads hfinite hshallow
    have htables := tables_of_reopened hdecode hrecovered
    have hunchanged := unchanged_of_sameView hload.lowercase hrereads (htables ▸ hsame.tables)
    refine ⟨fun entry hentry value hvalue => ?_, hshallow⟩
    rw [Value.comesBack, hfinite entry hentry value hvalue,
      hunchanged entry hentry value hvalue, beq_self_eq_true]
    rfl
  · intro hreadable point
    obtain ⟨loaded, hloaded, hsame⟩ :=
      load_publishSnapshot hload (hC.decode_encode hreadable) disk.legacyTables
    have hcommits : ∀ r ∈ records, r.commitVersion ≤ loaded.version := by
      rw [hsame.version, ← hreplayed.version]
      exact commits_of_openCatalog hwal hrecords hopen
    cases point with
    | entered => exact ⟨replayed, hopen, hreplayed⟩
    | written bytes => exact ⟨replayed, hopen, hreplayed⟩
    | renamed =>
      refine ⟨loaded, openCatalog_contained hloaded fun other hother => ⟨records, ?_, hcommits⟩,
        hsame⟩
      obtain rfl : file = other := Option.some.inj (hwal.symm.trans hother)
      exact hrecords
    | archived =>
      refine ⟨loaded, openCatalog_contained ?_ fun other hother => ⟨[], ?_, by simp⟩, hsame⟩
      · rw [SqlDisk.saveUntil, SqlDisk.catalogFile_archiveWal, SqlDisk.legacyTables_archiveWal]
        exact hloaded
      · rcases SqlDisk.wal_archiveWal (disk.publishSnapshot C catalog now) catalog.version now with
          hempty | hempty
        · exact absurd (hempty.symm.trans hother) (by simp)
        · obtain rfl : [] = other := Option.some.inj (hempty.symm.trans hother)
          exact holdsRecords_nil
    | reopened =>
      refine ⟨loaded, openCatalog_contained ?_ fun other hother => ⟨[], ?_, by simp⟩, hsame⟩
      · rw [SqlDisk.saveUntil, SqlDisk.openWal, SqlDisk.catalogFile_archiveWal,
          SqlDisk.legacyTables_archiveWal]
        exact hloaded
      · obtain rfl : [] = other := by
          rcases SqlDisk.wal_archiveWal (disk.publishSnapshot C catalog now) catalog.version now
            with hempty | hempty <;>
          simpa [SqlDisk.saveUntil, SqlDisk.openWal, hempty] using hother
        exact holdsRecords_nil

/-! ## Two checkpoints -/

/-- The record of `CREATE TABLE t (v INTEGER)` and `INSERT INTO t VALUES (1), (2)`,
committed together. -/
def plainRecord : SampleRecord :=
  ⟨0, 1, 1700000000001, ["CREATE TABLE t (v INTEGER)", "INSERT INTO t VALUES (1), (2)"],
    1718794706⟩

/-- A host that reads two statements and knows one record. -/
def plainHost : WalHost := .ofSamples [plainRecord]
  [("CREATE TABLE t (v INTEGER)", createPlain), ("INSERT INTO t VALUES (1), (2)", insertTwo)]

/-- `CREATE TABLE t (v FLOAT)`. -/
def createFloat : Statement := .createTable "t" [plainColumn "v" .float] [] false

/-- `INSERT INTO t VALUES (1e999)`: the literal is parsed as infinity. -/
def insertInfinite : Statement :=
  .insert "t" none (.values [[.literal (.float ⟨0x7ff0000000000000⟩)]]) []

/-- The record of these two, committed together. -/
def infiniteRecord : SampleRecord :=
  ⟨0, 1, 1700000000001, ["CREATE TABLE t (v FLOAT)", "INSERT INTO t VALUES (1e999)"], 969181594⟩

/-- A host whose one record inserts a float that is not finite. -/
def infiniteHost : WalHost := .ofSamples [infiniteRecord]
  [("CREATE TABLE t (v FLOAT)", createFloat), ("INSERT INTO t VALUES (1e999)", insertInfinite)]

/-- `serde_json` on a snapshot with a float that is not finite. -/
def nullCodec : SnapshotCodec where
  encode _ := "\x7b\n  \"format_version\": 1,\n  \"catalog_version\": 1,\n" ++
    "  \"schema_version\": 1,\n  \"timestamp_millis\": 1700000000000,\n  \"tables\": \x7b\n" ++
    "    \"t\": \x7b\n      \"schema\": \x7b\n        \"name\": \"t\",\n" ++
    "        \"columns\": [\n          \x7b\n            \"name\": \"v\",\n" ++
    "            \"data_type\": \"Float\",\n            \"nullable\": true,\n" ++
    "            \"primary_key\": false,\n            \"unique\": false,\n" ++
    "            \"default\": null,\n            \"checks\": []\n          \x7d\n" ++
    "        ],\n        \"constraints\": [],\n        \"indexes\": []\n      \x7d,\n" ++
    "      \"rows\": [\n        \x7b\n          \"values\": [\n            \x7b\n" ++
    "              \"Float\": null\n            \x7d\n          ]\n        \x7d\n" ++
    "      ],\n      \"row_ids\": [\n        1\n      ],\n      \"next_row_id\": 2\n" ++
    "    \x7d\n  \x7d\n\x7d"
  decode _ := .error "invalid type: null, expected f64 at line 28 column 27"
  decodeTable _ := .error "expected value"
  reread := id

/-- The log of one sample record. -/
theorem holdsRecords_sample {sample : SampleRecord} {parsed : List (String × Statement)}
    (hvalid : sample.record.valid (.ofSamples [sample] parsed) = true)
    (hplain : newline ∉ utf8 sample.text ∧
      (utf8 sample.text).getLast? ≠ some carriageReturn)
    (hparsed : ∀ text ∈ parsed.map Prod.fst, ¬ utf8 text <+: utf8 sample.text) :
    HoldsRecords (.ofSamples [sample] parsed) (line sample.text) [sample.record] := by
  have hlength : ∀ other ∈ [sample], (utf8 other.text).length = (utf8 sample.text).length := by
    simp
  have hlawful : (WalHost.ofSamples [sample] parsed).Lawful sample.record :=
    lawful_ofSamples (List.mem_singleton_self sample) (by simpa using hplain) hlength
      (by simp) (by simpa using hparsed)
  have happend := holdsRecords_nil.append clean_nil hlawful (sample.readable_record _) hvalid
  rwa [encode_ofSamples] at happend

/-- A directory with only the log of one record. -/
theorem openCatalog_sample {H : Host} {W : WalHost} {C : SnapshotCodec} {file : Bytes}
    {sample : SampleRecord} {statements : List Statement} {tables : Tables} {inserted : Nat}
    (hprocess : ∀ version toCome, H.inProcess (W.process version toCome) = H)
    (hrecords : HoldsRecords W file [sample.record]) (hbase : sample.baseVersion = 0)
    (hcommit : 0 < sample.commitVersion)
    (hparse : List.Forall₂ (fun durable statement => durable.statement W = .ok statement)
      sample.record.statements statements)
    (hrun : runStatements H (∅, 0) statements = .ok (tables, inserted)) :
    openCatalog H W C { wal := some file } =
      .ok ⟨sample.commitVersion, schemaVersionAfter 0 statements, tables⟩ := by
  have hreplay := @replayStatements_of_run _ _ H W ⟨0, 0, ∅⟩ _ _ _ hprocess hparse hrun
  have hload : loadCatalog H C none [] = .ok ⟨0, 0, ∅⟩ := rfl
  rw [openCatalog_of_load hload]
  have hskip : ¬ sample.record.commitVersion ≤ 0 := Nat.not_le.mpr hcommit
  have hgap : ¬ sample.record.baseVersion ≠ 0 := not_not.mpr hbase
  simp only [replayLines_records hrecords, replayRecords, replayRecord, if_neg hskip, if_neg hgap,
    hreplay, Except.map, Except.bind, Except.mapError]
  rfl

/-- The log is there and the snapshot too: two rows are recovered at every point. -/
theorem plain_checkpoint_recovers : ∃ (catalog : Catalog) (C : SnapshotCodec),
    openCatalog Host.reference plainHost C { wal := some (line plainRecord.text) } =
        .ok catalog ∧
      ∀ point, ∃ recovered, openCatalog Host.reference plainHost C
        (SqlDisk.saveUntil C { wal := some (line plainRecord.text) } catalog 1700000000000 point) =
          .ok recovered ∧ catalog.SameView recovered := by
  have hrun : ((runStatements Host.reference (∅, 0) [createPlain, insertTwo]).map fun state =>
      (state.2, decide ((Catalog.snapshot ⟨1, 1, state.1⟩ 1700000000000).Readable id))).toOption =
      some (2, true) := by decide +kernel
  obtain ⟨⟨tables, inserted⟩, hstatements, hreport⟩ :=
    Result.map_eq_ok.mp (Result.toOption_eq_some.mp hrun)
  simp only [Prod.mk.injEq, decide_eq_true_eq] at hreport
  obtain ⟨rfl, hreadable⟩ := hreport
  have hreach : Persisted Host.reference tables 2 := persisted_runStatements Persisted.empty
    (by simp [createPlain, insertTwo, plainColumn, Statement.Parsed, Statement.Keyed,
      KeyFlagged]) hstatements
  have hrecords : HoldsRecords plainHost (line plainRecord.text) [plainRecord.record] :=
    holdsRecords_sample (by decide +kernel) (by decide +kernel) (by decide +kernel)
  have hparse : List.Forall₂ (fun durable statement => durable.statement plainHost = .ok statement)
      plainRecord.record.statements [createPlain, insertTwo] :=
    List.Forall₂.cons rfl (List.Forall₂.cons rfl List.Forall₂.nil)
  have hC := oneSnapshotCodec_lawful hreadable (plainSnapshotText 1 [1, 2] 3)
  have hopen : ∀ C, openCatalog Host.reference plainHost C
      { wal := some (line plainRecord.text) } = .ok ⟨1, 1, tables⟩ := fun C =>
    openCatalog_sample (fun _ _ => rfl) hrecords rfl (by decide) hparse hstatements
  exact ⟨⟨1, 1, tables⟩, _, hopen _, (save_crash_atomic Host.reference plainHost _ ⟨1, 1, tables⟩ _
    _ _ _ 2 1700000000000 hreach (by decide) rfl hrecords (hopen _)
    ⟨rfl, Tables.SameView.refl tables⟩ hC).mpr hreadable⟩

/-- **An infinite float** is written as `null`: a process that stops after the rename
leaves a directory that cannot be opened. -/
theorem infinite_float_blocks_open : ∃ catalog : Catalog,
    Persisted Host.reference catalog.tables 1 ∧
      HoldsRecords infiniteHost (line infiniteRecord.text) [infiniteRecord.record] ∧
      openCatalog Host.reference infiniteHost nullCodec
        { wal := some (line infiniteRecord.text) } = .ok catalog ∧
      nullCodec.Lawful (catalog.snapshot 1700000000000) ∧
      openCatalog Host.reference infiniteHost nullCodec
        (SqlDisk.saveUntil nullCodec { wal := some (line infiniteRecord.text) } catalog
          1700000000000 .renamed) = .error (.load
            "Failed to parse catalog: invalid type: null, expected f64 at line 28 column 27") := by
  have hrun : ((runStatements Host.reference (∅, 0) [createFloat, insertInfinite]).map fun state =>
      (state.2, decide (Catalog.snapshot ⟨1, 1, state.1⟩ 1700000000000).Finite)).toOption =
      some (1, false) := by decide +kernel
  obtain ⟨⟨tables, inserted⟩, hstatements, hreport⟩ :=
    Result.map_eq_ok.mp (Result.toOption_eq_some.mp hrun)
  simp only [Prod.mk.injEq, decide_eq_false_iff_not] at hreport
  obtain ⟨rfl, hinfinite⟩ := hreport
  have hreach : Persisted Host.reference tables 1 := persisted_runStatements Persisted.empty
    (by simp [createFloat, insertInfinite, plainColumn, Statement.Parsed, Statement.Keyed,
      KeyFlagged]) hstatements
  have hrecords : HoldsRecords infiniteHost (line infiniteRecord.text) [infiniteRecord.record] :=
    holdsRecords_sample (by decide +kernel) (by decide +kernel) (by decide +kernel)
  have hparse : List.Forall₂
      (fun durable statement => durable.statement infiniteHost = .ok statement)
      infiniteRecord.record.statements [createFloat, insertInfinite] :=
    List.Forall₂.cons rfl (List.Forall₂.cons rfl List.Forall₂.nil)
  exact ⟨⟨1, 1, tables⟩, hreach, hrecords,
    openCatalog_sample (fun _ _ => rfl) hrecords rfl (by decide) hparse hstatements,
    ⟨fun hreadable => absurd hreadable.finite hinfinite, fun _ => ⟨_, rfl⟩,
      fun hfinite => absurd hfinite hinfinite⟩, rfl⟩

end Sql
end RustyDB
