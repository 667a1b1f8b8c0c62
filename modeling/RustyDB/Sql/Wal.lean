import Mathlib
import RustyDB.Lib.LineFile
import RustyDB.Sql.Persist

/-!
# The SQL log

`log_transaction` appends one line of JSON to `sql_wal.log` for every commit, and the
next `open` replays the lines on top of the catalog that `load_catalog` has read.

* `DurableStatement`, `WalRecord`, `LegacyWalRecord` — what the lines hold.
* `WalRecord.Readable` — a record that `serde_json` gives back.
* `WalHost`, `WalHost.Lawful` — `serde_json` on the lines, the checksums and `parse_sql`.
* `replayStatements`, `replayRecord`, `replayLines` — `replay_wal`, with its two older
  formats.
* `SqlDisk`, `openCatalog` — the files of a directory, and what `open` makes of them.
* `replayLines_records` — over a log of valid records the reader is `replayRecords`.
* `replayRecords_skips` — **a catalog that a log leads to is left alone by the log.**
-/

namespace RustyDB
namespace Sql

open LineFile

/-! ## Records -/

/-- A statement as it is logged. -/
inductive DurableStatement where
  | sql (text : String)
  | bound (statement : Statement)

/-- The literals of an operation of ALTER TABLE. -/
def alterLiterals : AlterOperation → List Value
  | .addColumn column constraints _ =>
    columnLiterals column ++ constraints.flatMap constraintLiterals
  | .modifyColumn _ column constraints =>
    columnLiterals column ++ constraints.flatMap constraintLiterals
  | .setDefault _ value => value.toList
  | .addConstraint constraint => constraintLiterals constraint
  | _ => []

/-- The literals of assignments. -/
def assignmentLiterals (assignments : List (String × Expr)) : List Value :=
  assignments.flatMap fun assignment => exprLiterals assignment.2

/-- The literals of a statement. -/
def statementLiterals : Statement → List Value
  | .createTable _ columns constraints _ =>
    columns.flatMap columnLiterals ++ constraints.flatMap constraintLiterals
  | .alterTable _ operations => operations.flatMap alterLiterals
  | .insert _ _ (.values values) onDuplicate =>
    values.flatMap exprsLiterals ++ assignmentLiterals onDuplicate
  | .insert _ _ (.query query) onDuplicate =>
    queryLiterals query ++ assignmentLiterals onDuplicate
  | .query query => queryLiterals query
  | .update _ assignments selection =>
    assignmentLiterals assignments ++ optionLiterals selection
  | .delete _ selection => optionLiterals selection
  | .explain statement => statementLiterals statement
  | .setVariable _ value => [value]
  | _ => []

/-- The values that are written as such, and not inside of a text. -/
def DurableStatement.values : DurableStatement → List Value
  | .sql _ => []
  | .bound statement => statementLiterals statement

/-- The depth of the JSON of a logged statement. -/
def DurableStatement.nesting : DurableStatement → Nat
  | .sql _ => 1
  | .bound statement => 1 + statementNesting statement

/-- A record of the log: one commit. -/
structure WalRecord where
  formatVersion : Nat
  baseVersion : Nat
  commitVersion : Nat
  timestampMillis : Nat
  statements : List DurableStatement
  checksum : Nat

/-- The record of the first checksummed format, with plain SQL texts. -/
structure LegacyWalRecord where
  formatVersion : Nat
  baseVersion : Nat
  commitVersion : Nat
  statements : List String
  checksum : Nat

/-- `WAL_FORMAT_VERSION`. -/
def walFormatVersion : Nat := 2

/-- What the log uses of other crates, and the parser. -/
structure WalHost where
  /-- `wal_checksum`: a CRC-32 of the numbers and of the JSON of the statements. -/
  walChecksum : Nat → Nat → Nat → List DurableStatement → Nat
  /-- `legacy_wal_checksum`. -/
  legacyWalChecksum : Nat → Nat → List String → Nat
  /-- `serde_json::to_string` of a record. -/
  encode : WalRecord → String
  /-- `serde_json::from_str::<WalRecord>`. -/
  decode : String → Option WalRecord
  /-- `serde_json::from_str::<LegacyWalRecord>`. -/
  decodeLegacy : String → Option LegacyWalRecord
  /-- `parse_sql`. -/
  parseSql : String → Except String Statement
  /-- The double that `serde_json` reads in the text of a finite one. -/
  reread : F64 → F64
  /-- What the process that replays leaves open while it executes a statement on a catalog of
  that version, with that many statements of the record to come.  The statement before may
  have rebuilt every hash map. -/
  process : Nat → Nat → Process

/-- The same log, replayed by another process. -/
def WalHost.replaying (W : WalHost) (process : Nat → Nat → Process) : WalHost :=
  { W with process }

/-- `WalRecord::new`. -/
def WalRecord.new (W : WalHost) (baseVersion commitVersion timestampMillis : Nat)
    (statements : List DurableStatement) : WalRecord where
  formatVersion := walFormatVersion
  baseVersion := baseVersion
  commitVersion := commitVersion
  timestampMillis := timestampMillis
  statements := statements
  checksum := W.walChecksum baseVersion commitVersion timestampMillis statements

/-- `WalRecord::valid`: the format and the checksum. -/
def WalRecord.valid (W : WalHost) (r : WalRecord) : Bool :=
  r.formatVersion == walFormatVersion &&
    r.checksum == W.walChecksum r.baseVersion r.commitVersion r.timestampMillis r.statements

/-- The check of a record of format 1. -/
def LegacyWalRecord.valid (W : WalHost) (r : LegacyWalRecord) : Bool :=
  r.formatVersion == 1 &&
    r.checksum == W.legacyWalChecksum r.baseVersion r.commitVersion r.statements

theorem WalRecord.valid_new (W : WalHost) (base commit now : Nat)
    (statements : List DurableStatement) :
    (WalRecord.new W base commit now statements).valid W = true := by
  simp [WalRecord.valid, WalRecord.new]

/-- No statement of a record holds a float that is not finite. -/
def WalRecord.Finite (r : WalRecord) : Prop :=
  ∀ durable ∈ r.statements, ∀ value ∈ durable.values, value.isFinite = true

/-- How deep the JSON of a record is nested. -/
def WalRecord.nesting (r : WalRecord) : Nat :=
  1 + arrayNesting DurableStatement.nesting r.statements

/-- A record that `serde_json` gives back: the values of its trees come back, and its JSON is
not nested too deep. -/
structure WalRecord.Readable (reread : F64 → F64) (r : WalRecord) : Prop where
  values : ∀ durable ∈ r.statements, ∀ value ∈ durable.values, value.comesBack reread = true
  shallow : r.nesting < recursionLimit

/-- What the log relies on for one record: its text is one line of JSON, which is read
back if it is readable, while no beginning of it is JSON or SQL. -/
structure WalHost.Lawful (W : WalHost) (r : WalRecord) : Prop where
  plain : Plain (W.encode r)
  nonblank : isBlank (W.encode r) = false
  decode_encode : r.Readable W.reread → W.decode (W.encode r) = some r
  torn : ∀ text, utf8 text <+: utf8 (W.encode r) → text ≠ W.encode r →
    W.decode text = none ∧ W.decodeLegacy text = none ∧ ∃ error, W.parseSql text = .error error

/-! ## Reading a line -/

/-- A line of `sql_wal.log` as `replay_wal` sees it. -/
inductive WalLine where
  | blank
  | record (r : WalRecord)
  | legacy (r : LegacyWalRecord)
  | sql (text : String)

/-- What recovery makes of one line. -/
def WalHost.readLine (W : WalHost) (text : String) : WalLine :=
  if isBlank text then .blank
  else
    match W.decode text with
    | some r => .record r
    | none =>
      match W.decodeLegacy text with
      | some r => .legacy r
      | none => .sql text

theorem WalHost.Lawful.readLine_encode {W : WalHost} {r : WalRecord} (h : W.Lawful r)
    (hreadable : r.Readable W.reread) : W.readLine (W.encode r) = .record r := by
  simp [readLine, h.nonblank, h.decode_encode hreadable]

/-! ## Replay -/

/-- `is_schema_statement`. -/
def isSchemaStatement : Statement → Bool
  | .createTable _ _ _ _ => true
  | .dropTable _ _ => true
  | .createIndex _ _ _ _ _ => true
  | .dropIndex _ _ _ => true
  | .alterTable _ _ => true
  | _ => false

/-- Why `replay_wal` gives up. -/
inductive ReplayError where
  | read
  | gap (catalog base : Nat)
  | parse (error : String)
  | execute (fault : Fault)
  deriving DecidableEq, Repr

/-- What the caller of `open` gets to see. -/
def ReplayError.fault : ReplayError → Fault
  | .read => .error "Failed to read WAL: stream did not contain valid UTF-8"
  | .gap catalog base => .error s!"WAL version gap: catalog={catalog}, record base={base}"
  | .parse error => .error s!"Failed to parse WAL statement: {error}"
  | .execute (.error error) => .error s!"Failed to replay WAL statement: {error}"
  | .execute .panic => .panic

/-- One statement, with the schema version it leaves. -/
def replayStatement (H : Host) (catalog : Catalog) (statement : Statement) :
    Except Fault Catalog := do
  let (_, tables) ← executeCatalog H catalog.tables statement
  pure { catalog with
    schemaVersion :=
      if isSchemaStatement statement then saturatingSucc catalog.schemaVersion
      else catalog.schemaVersion
    tables := tables }

/-- The statement to replay. -/
def DurableStatement.statement (W : WalHost) : DurableStatement → Except ReplayError Statement
  | .sql text => (W.parseSql text).mapError .parse
  | .bound statement => .ok statement

/-- The statements of a record, one after another. -/
def replayStatements (H : Host) (W : WalHost) (catalog : Catalog) :
    List DurableStatement → Except ReplayError Catalog
  | [] => .ok catalog
  | durable :: rest => do
    let statement ← durable.statement W
    let next ← (replayStatement (H.inProcess (W.process catalog.version rest.length)) catalog
      statement).mapError .execute
    replayStatements H W next rest

/-- A valid record: skipped when the catalog has it already, refused when it does not
start where the catalog ends. -/
def replayRecord (H : Host) (W : WalHost) (catalog : Catalog) (base commit : Nat)
    (statements : List DurableStatement) : Except ReplayError Catalog :=
  if commit ≤ catalog.version then .ok catalog
  else if base ≠ catalog.version then .error (.gap catalog.version base)
  else (replayStatements H W catalog statements).map fun next => { next with version := commit }

/-- `replay_wal` over the lines of the file; `none` is a line that is not UTF-8. -/
def replayLines (H : Host) (W : WalHost) (catalog : Catalog) :
    List (Option String) → Except ReplayError Catalog
  | [] => .ok catalog
  | none :: _ => .error .read
  | some text :: rest =>
    match W.readLine text with
    | .blank => replayLines H W catalog rest
    | .record r =>
      if r.valid W then
        (replayRecord H W catalog r.baseVersion r.commitVersion r.statements).bind
          fun next => replayLines H W next rest
      else .ok catalog
    | .legacy r =>
      if r.valid W then
        (replayRecord H W catalog r.baseVersion r.commitVersion (r.statements.map .sql)).bind
          fun next => replayLines H W next rest
      else .ok catalog
    | .sql text =>
      match W.parseSql text with
      | .error _ => .ok catalog
      | .ok statement =>
        match replayStatement (H.inProcess (W.process catalog.version 0)) catalog statement with
        | .ok next => replayLines H W { next with version := saturatingSucc catalog.version } rest
        | .error (.error _) => replayLines H W catalog rest
        | .error .panic => .error (.execute .panic)

/-! ## The files -/

/-- The files of the SQL engine in a data directory. -/
structure SqlDisk where
  /-- `catalog.json`. -/
  catalogFile : Option String := none
  /-- `catalog.json.tmp`, which nobody reads. -/
  temporary : Option Bytes := none
  /-- The files of `tables/`, from before there was a `catalog.json`. -/
  legacyTables : List String := []
  /-- `sql_wal.log`. -/
  wal : Option Bytes := none
  /-- `wal_archive/sql`, by name. -/
  archive : List (String × Bytes) := []

/-- Why `open` fails. -/
inductive OpenError where
  | load (error : String)
  | replay (error : ReplayError)
  deriving DecidableEq, Repr

/-- The catalog that `open_with_options` builds from the files. -/
def openCatalog (H : Host) (W : WalHost) (C : SnapshotCodec) (disk : SqlDisk) :
    Except OpenError Catalog := do
  let catalog ← (loadCatalog H C disk.catalogFile disk.legacyTables).mapError .load
  match disk.wal with
  | none => pure catalog
  | some file => (replayLines H W catalog (lines file)).mapError .replay

/-! ## Logs of valid records -/

/-- The records of a log, one after another. -/
def replayRecords (H : Host) (W : WalHost) (catalog : Catalog) :
    List WalRecord → Except ReplayError Catalog
  | [] => .ok catalog
  | r :: rest =>
    (replayRecord H W catalog r.baseVersion r.commitVersion r.statements).bind
      fun next => replayRecords H W next rest

/-- A line that is read as a valid record. -/
def ReadsAs (W : WalHost) (text : Option String) (r : WalRecord) : Prop :=
  ∃ s, text = some s ∧ W.readLine s = .record r ∧ r.valid W = true

/-- A file whose lines are these valid records. -/
def HoldsRecords (W : WalHost) (file : Bytes) (records : List WalRecord) : Prop :=
  List.Forall₂ (ReadsAs W) (lines file) records

section Records

variable {H : Host} {W : WalHost} {catalog catalog' : Catalog} {records : List WalRecord}

theorem replayLines_append {texts : List (Option String)}
    (h : List.Forall₂ (ReadsAs W) texts records) (rest : List (Option String)) :
    replayLines H W catalog (texts ++ rest) =
      (replayRecords H W catalog records).bind fun next => replayLines H W next rest := by
  induction h generalizing catalog with
  | nil => rfl
  | @cons text r texts records hline _ ih =>
    obtain ⟨s, rfl, hread, hvalid⟩ := hline
    simp only [List.cons_append, replayLines, hread, hvalid, if_true, replayRecords]
    cases replayRecord H W catalog r.baseVersion r.commitVersion r.statements with
    | error e => rfl
    | ok next => exact ih

/-- **A log of valid records** is read record by record. -/
theorem replayLines_records {texts : List (Option String)}
    (h : List.Forall₂ (ReadsAs W) texts records) :
    replayLines H W catalog texts = replayRecords H W catalog records := by
  have happend := @replayLines_append H W catalog records texts h []
  rw [List.append_nil] at happend
  rw [happend]
  cases replayRecords H W catalog records <;> rfl

theorem replayRecords_append (first rest : List WalRecord) :
    replayRecords H W catalog (first ++ rest) =
      (replayRecords H W catalog first).bind fun next => replayRecords H W next rest := by
  induction first generalizing catalog with
  | nil => rfl
  | cons r first ih =>
    simp only [List.cons_append, replayRecords]
    cases replayRecord H W catalog r.baseVersion r.commitVersion r.statements with
    | error e => rfl
    | ok next => exact ih

/-- After a record the catalog has at least its version. -/
theorem version_replayRecord {base commit : Nat} {durables : List DurableStatement}
    (h : replayRecord H W catalog base commit durables = .ok catalog') :
    catalog.version ≤ catalog'.version ∧ commit ≤ catalog'.version := by
  rw [replayRecord] at h
  split at h
  · cases h
    omega
  · split at h
    · cases h
    · rename_i hlt _
      obtain ⟨next, hnext, rfl⟩ := Result.map_eq_ok.mp h
      exact ⟨by simp only; omega, Nat.le_refl _⟩

theorem version_replayRecords (h : replayRecords H W catalog records = .ok catalog') :
    catalog.version ≤ catalog'.version ∧ ∀ r ∈ records, r.commitVersion ≤ catalog'.version := by
  induction records generalizing catalog with
  | nil =>
    simp only [replayRecords, Except.ok.injEq] at h
    simp [h]
  | cons r records ih =>
    obtain ⟨next, hnext, h⟩ := Result.bind_eq_ok.mp h
    obtain ⟨hversion, hcommit⟩ := version_replayRecord hnext
    obtain ⟨hrest, hrecords⟩ := ih h
    refine ⟨by omega, fun other hother => ?_⟩
    rcases List.mem_cons.mp hother with rfl | hother
    · omega
    · exact hrecords other hother

/-- **Records that the catalog has already** change nothing. -/
theorem replayRecords_skips (h : ∀ r ∈ records, r.commitVersion ≤ catalog.version) :
    replayRecords H W catalog records = .ok catalog := by
  induction records with
  | nil => rfl
  | cons r records ih =>
    have hfirst : replayRecord H W catalog r.baseVersion r.commitVersion r.statements =
        .ok catalog := by
      rw [replayRecord, if_pos (h r (by simp))]
    rw [replayRecords, hfirst]
    exact ih fun other hother => h other (List.mem_cons_of_mem _ hother)

end Records

/-- The schema version that statements leave. -/
def schemaVersionAfter (version : Nat) (statements : List Statement) : Nat :=
  statements.foldl (fun version statement =>
    if isSchemaStatement statement then saturatingSucc version else version) version

/-- A log replays what its statements do when they are run in one process. -/
theorem replayStatements_of_run {durables : List DurableStatement} {statements : List Statement}
    {H : Host} {W : WalHost} {catalog : Catalog} {tables : Tables} {inserted inserted' : Nat}
    (hprocess : ∀ version toCome, H.inProcess (W.process version toCome) = H)
    (hparse : List.Forall₂ (fun durable statement => durable.statement W = .ok statement)
      durables statements)
    (hrun : runStatements H (catalog.tables, inserted) statements = .ok (tables, inserted')) :
    replayStatements H W catalog durables =
      .ok ⟨catalog.version, schemaVersionAfter catalog.schemaVersion statements, tables⟩ := by
  induction hparse generalizing catalog inserted with
  | nil =>
    simp only [runStatements, Except.ok.injEq, Prod.mk.injEq] at hrun
    rw [replayStatements, ← hrun.1]
    rfl
  | @cons durable statement durables statements hfirst _ ih =>
    obtain ⟨⟨result, next⟩, hexecute, hrun⟩ := Result.bind_eq_ok.mp hrun
    rw [replayStatements, hfirst, Result.ok_bind, hprocess, replayStatement, hexecute]
    exact @ih ⟨catalog.version, _, next⟩ _ hrun

/-! ## Appending -/

section Appending

variable {W : WalHost} {file : Bytes} {records : List WalRecord} {r : WalRecord}

theorem holdsRecords_nil : HoldsRecords W [] [] := List.Forall₂.nil

/-- **A record appended to a clean log** is its last one. -/
theorem HoldsRecords.append (h : HoldsRecords W file records) (hclean : Clean file)
    (hW : W.Lawful r) (hreadable : r.Readable W.reread) (hvalid : r.valid W = true) :
    HoldsRecords W (file ++ line (W.encode r)) (records ++ [r]) := by
  rw [HoldsRecords, lines_append_line hclean hW.plain]
  exact List.rel_append h
    (List.Forall₂.cons ⟨_, rfl, hW.readLine_encode hreadable, hvalid⟩ List.Forall₂.nil)

end Appending

/-! ## Finitely many records

`serde_json`, the checksum and the parser on a few texts that need no escapes. -/

/-- A record of SQL texts with its checksum. -/
structure SampleRecord where
  baseVersion : Nat
  commitVersion : Nat
  timestampMillis : Nat
  texts : List String
  checksum : Nat
  deriving DecidableEq, Repr

namespace SampleRecord

/-- The record of a sample. -/
def record (sample : SampleRecord) : WalRecord where
  formatVersion := walFormatVersion
  baseVersion := sample.baseVersion
  commitVersion := sample.commitVersion
  timestampMillis := sample.timestampMillis
  statements := sample.texts.map .sql
  checksum := sample.checksum

/-- The JSON of the record. -/
def text (sample : SampleRecord) : String :=
  "\x7b\"format_version\":2,\"base_version\":" ++ toString sample.baseVersion ++
    ",\"commit_version\":" ++ toString sample.commitVersion ++ ",\"timestamp_millis\":" ++
    toString sample.timestampMillis ++ ",\"statements\":[" ++
    String.intercalate "," (sample.texts.map fun sql => "\x7b\"Sql\":\"" ++ sql ++ "\"\x7d") ++
    "],\"checksum\":" ++ toString sample.checksum ++ "\x7d"

/-- A record of texts comes back, whatever the texts are. -/
theorem readable_record (sample : SampleRecord) (reread : F64 → F64) :
    sample.record.Readable reread := by
  refine ⟨fun durable hmem value hvalue => ?_, ?_⟩
  · obtain ⟨text, -, rfl⟩ := List.mem_map.mp hmem
    cases hvalue
  · have htexts : ∀ texts : List String,
        deepest ((texts.map DurableStatement.sql).map DurableStatement.nesting) ≤ 1 := by
      intro texts
      induction texts with
      | nil => exact Nat.zero_le 1
      | cons text texts ih => exact max_le (Nat.le_refl 1) ih
    have hdeepest := htexts sample.texts
    simp only [WalRecord.nesting, arrayNesting, record, recursionLimit]
    omega

/-- The text begins with a brace. -/
theorem isBlank_text (sample : SampleRecord) : isBlank sample.text = false := by
  have hbrace : isBlank "\x7b\"format_version\":2,\"base_version\":" = false := by decide +kernel
  unfold text
  iterate 10 apply isBlank_append_of_left
  exact hbrace

end SampleRecord

/-- The text of a statement that is logged as text. -/
def DurableStatement.text? : DurableStatement → Option String
  | .sql text => some text
  | .bound _ => none

/-- The host that knows these records and these statements. -/
def WalHost.ofSamples (samples : List SampleRecord) (parsed : List (String × Statement)) :
    WalHost where
  walChecksum base commit now statements :=
    ((samples.find? fun sample => (sample.baseVersion, sample.commitVersion,
      sample.timestampMillis, some sample.texts) = (base, commit, now, statements.mapM
        DurableStatement.text?)).map SampleRecord.checksum).getD 0
  legacyWalChecksum _ _ _ := 0
  encode r := ((r.statements.mapM DurableStatement.text?).map fun texts => SampleRecord.text
    ⟨r.baseVersion, r.commitVersion, r.timestampMillis, texts, r.checksum⟩).getD ""
  decode text := (samples.find? fun sample => sample.text = text).map SampleRecord.record
  decodeLegacy _ := none
  parseSql text :=
    match parsed.lookup text with
    | some statement => .ok statement
    | none => .error "sql parser error: Expected: an SQL statement"
  reread := id
  process _ _ := Process.reference

section Samples

variable {samples : List SampleRecord} {parsed : List (String × Statement)}
  {sample : SampleRecord}

theorem mapM_text (texts : List String) :
    (texts.map DurableStatement.sql).mapM DurableStatement.text? = some texts := by
  induction texts with
  | nil => rfl
  | cons text texts ih => simp [DurableStatement.text?, ih]

theorem encode_ofSamples (sample : SampleRecord) :
    (WalHost.ofSamples samples parsed).encode sample.record = sample.text := by
  simp only [WalHost.ofSamples, SampleRecord.record, mapM_text, Option.map_some, Option.getD_some]

/-- Records whose texts have one length are read back, and no beginning of one of them is
read as anything. -/
theorem lawful_ofSamples {length : Nat} (hmem : sample ∈ samples)
    (hplain : ∀ sample ∈ samples, newline ∉ utf8 sample.text ∧
      (utf8 sample.text).getLast? ≠ some carriageReturn)
    (hlength : ∀ sample ∈ samples, (utf8 sample.text).length = length)
    (hfind : ∀ sample ∈ samples, samples.find? (fun other => other.text = sample.text) =
      some sample)
    (hparsed : ∀ sample ∈ samples, ∀ text ∈ parsed.map Prod.fst, ¬ utf8 text <+: utf8 sample.text) :
    (WalHost.ofSamples samples parsed).Lawful sample.record := by
  obtain ⟨hnewline, hreturn⟩ := hplain sample hmem
  refine ⟨?_, ?_, ?_, ?_⟩
  · rw [encode_ofSamples]
    exact ⟨hnewline, hreturn⟩
  · rw [encode_ofSamples]
    exact sample.isBlank_text
  · rw [encode_ofSamples]
    intro _
    simp only [WalHost.ofSamples, hfind sample hmem, Option.map_some]
  · rw [encode_ofSamples]
    intro text hbegin hne
    refine ⟨?_, rfl, ?_⟩
    · simp only [WalHost.ofSamples, Option.map_eq_none_iff, List.find?_eq_none, decide_eq_true_eq]
      intro other hother heq
      subst heq
      refine hne (utf8_injective (hbegin.eq_of_length ?_))
      rw [hlength other hother, hlength sample hmem]
    · have hnone : parsed.lookup text = none := by
        rw [List.lookup_eq_none_iff]
        intro entry hentry
        have hother := hparsed sample hmem entry.1 (List.mem_map_of_mem hentry)
        rw [bne_iff_ne]
        rintro rfl
        exact hother hbegin
      refine ⟨"sql parser error: Expected: an SQL statement", ?_⟩
      simp only [WalHost.ofSamples, hnone]

end Samples

end Sql
end RustyDB
