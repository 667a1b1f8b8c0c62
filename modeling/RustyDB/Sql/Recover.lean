import Mathlib
import RustyDB.Sql.Process
import RustyDB.Sql.Serial

/-!
# What the next `open` recovers

The live database executes optimized statements on its own tables, `replay_wal` the
logged ones on the tables it has rebuilt.  The two agree where the optimizer is exact,
and then the files recover a catalog that looks like the published one.

* `HoldsLog` — a log of valid records, with at most a torn line behind them.
* `Faithful` — the logged form of a statement means the statement that was executed.
* `Replays`, `Applies` — statements lead to the same view on every catalog that looks
  the same, as `replay_wal` and as a serial run execute them.
* `Recovers` — the files of a directory, opened, look like a catalog.
* `Recovers.append`, `Recovers.tear`, `Recovers.save` — a record is logged, a write of
  the log fails half-way, a checkpoint is made.
-/

namespace RustyDB
namespace Sql

open LineFile KeyedIndex

/-! ## Logs with a torn end -/

/-- A line that `replay_wal` skips, or at which it ends. -/
def WalHost.Ends (W : WalHost) (text : String) : Prop :=
  W.readLine text = .blank ∨
    W.readLine text = .sql text ∧ ∃ error, W.parseSql text = .error error

/-- A file of valid records, with at most a torn line behind them. -/
def HoldsLog (W : WalHost) (file : Bytes) (records : List WalRecord) : Prop :=
  HoldsRecords W file records ∨ ¬ Clean file ∧ ∃ texts text, lines file = texts ++ [some text] ∧
    List.Forall₂ (ReadsAs W) texts records ∧ W.Ends text

section Logs

variable {H : Host} {W : WalHost} {catalog : Catalog} {file : Bytes} {records : List WalRecord}
  {r : WalRecord}

theorem WalHost.Ends.replayLines {text : String} (h : W.Ends text) :
    Sql.replayLines H W catalog [some text] = .ok catalog := by
  rcases h with hblank | ⟨hsql, error, hparse⟩
  · simp only [Sql.replayLines, hblank]
  · simp only [Sql.replayLines, hsql, hparse]

theorem HoldsLog.replayLines (h : HoldsLog W file records) :
    Sql.replayLines H W catalog (lines file) = replayRecords H W catalog records := by
  rcases h with h | ⟨-, texts, text, hlines, htexts, hends⟩
  · exact replayLines_records h
  · rw [hlines, replayLines_append htexts]
    cases replayRecords H W catalog records with
    | error e => rfl
    | ok next => exact hends.replayLines

theorem HoldsLog.of_clean (h : HoldsLog W file records) (hclean : Clean file) :
    HoldsRecords W file records := by
  rcases h with h | ⟨hnot, -⟩
  · exact h
  · exact absurd hclean hnot

/-- A proper beginning of a record ends the log. -/
theorem WalHost.Lawful.ends (h : W.Lawful r) {text : String}
    (hbegin : utf8 text <+: utf8 (W.encode r)) (hne : text ≠ W.encode r) : W.Ends text := by
  obtain ⟨hdecode, hlegacy, herror⟩ := h.torn text hbegin hne
  by_cases hblank : isBlank text = true
  · exact Or.inl (by simp [readLine, hblank])
  · exact Or.inr ⟨by simp [readLine, hblank, hdecode, hlegacy], herror⟩

/-- **A torn record** behind a clean log is not read. -/
theorem HoldsRecords.tear (h : HoldsRecords W file records) (hclean : Clean file)
    (hW : W.Lawful r) {kept : Nat} (hkept : kept < (utf8 (W.encode r)).length)
    (hutf8 : decode ((line (W.encode r)).take kept) ≠ none) :
    HoldsLog W (file ++ (line (W.encode r)).take kept) records := by
  have hline : kept < (line (W.encode r)).length := by
    simp only [line, List.length_append, List.length_singleton]
    omega
  obtain ⟨text, htext⟩ := Option.ne_none_iff_exists'.mp hutf8
  obtain ⟨htake, hnewline⟩ := prefix_of_take hW.plain hline
  obtain ⟨hbegin, -⟩ := lines_append_torn hclean hW.plain hline htext
  by_cases hempty : (line (W.encode r)).take kept = []
  · exact Or.inl (by rw [hempty, List.append_nil]; exact h)
  · have hunclean : ¬ Clean (file ++ (line (W.encode r)).take kept) := by
      rw [Clean] at hclean ⊢
      rw [split_append, hclean, List.nil_append, split_of_notMem hnewline]
      exact hempty
    have hlast : lines (file ++ (line (W.encode r)).take kept) = lines file ++ [some text] := by
      rw [lines_append_tail hclean hnewline hempty, htext]
    have hproper : text ≠ W.encode r := by
      rintro rfl
      have hlength := congrArg List.length (utf8_of_decode htext)
      rw [htake, List.length_take] at hlength
      omega
    exact Or.inr ⟨hunclean, lines file, text, hlast, h, hW.ends hbegin hproper⟩

/-- **A record without its newline** behind a clean log is read. -/
theorem HoldsRecords.whole (h : HoldsRecords W file records) (hclean : Clean file)
    (hW : W.Lawful r) (hreadable : r.Readable W.reread) (hvalid : r.valid W = true) :
    HoldsLog W (file ++ utf8 (W.encode r)) (records ++ [r]) := by
  have hnonempty : utf8 (W.encode r) ≠ [] := by
    intro hempty
    have htext : W.encode r = "" := utf8_injective (by rw [hempty]; rfl)
    have hblank := hW.nonblank
    rw [htext] at hblank
    exact absurd hblank (by decide)
  refine Or.inl ?_
  rw [HoldsRecords, lines_append_tail hclean hW.plain.newline hnonempty, decode_utf8]
  exact List.rel_append h
    (List.Forall₂.cons ⟨_, rfl, hW.readLine_encode hreadable, hvalid⟩ List.Forall₂.nil)

end Logs

/-! ## Statements and their logged form -/

/-- The logged form of a statement means, on these tables, the statement that was
executed: its text parses to a statement on which the optimizer is exact, and both do the
same in every process. -/
def Faithful (E : Engine) (tables : Tables) : DurableStatement → Statement → Prop
  | .sql text, statement => ∃ raw, E.wal.parseSql text = .ok raw ∧
      optimizeStatement E.host raw = .ok statement ∧ raw.Parsed ∧ raw.Keyed ∧
      exactStatement E.host raw ∧ statementStable E.host tables raw ∧
      Repeatable E.host tables raw ∧ Repeatable E.host tables statement
  | .bound logged, statement => logged = statement ∧ statement.Parsed ∧ statement.Keyed ∧
      Repeatable E.host tables statement

/-- The optimizer keeps the form of a statement. -/
theorem optimizeStatement_keeps {H : Host} {raw statement : Statement}
    (h : optimizeStatement H raw = .ok statement) :
    (raw.Parsed → statement.Parsed) ∧ (raw.Keyed → statement.Keyed) ∧
      (∀ tables tables', insertedRows tables tables' statement =
        insertedRows tables tables' raw) ∧
      Database.isSessionStatement statement = Database.isSessionStatement raw := by
  cases raw with
  | insert tableName columns source onDuplicate =>
    obtain ⟨source', -, h⟩ := Result.bind_eq_ok.mp h
    obtain ⟨onDuplicate', -, h⟩ := Result.bind_eq_ok.mp h
    simp only [Result.pure_eq_ok, Except.ok.injEq] at h
    subst h
    exact ⟨id, id, fun _ _ => rfl, rfl⟩
  | query query =>
    obtain ⟨query', -, h⟩ := Result.bind_eq_ok.mp h
    simp only [Result.pure_eq_ok, Except.ok.injEq] at h
    subst h
    exact ⟨id, id, fun _ _ => rfl, rfl⟩
  | update tableName assignments selection =>
    obtain ⟨assignments', -, h⟩ := Result.bind_eq_ok.mp h
    obtain ⟨selection', -, h⟩ := Result.bind_eq_ok.mp h
    simp only [Result.pure_eq_ok, Except.ok.injEq] at h
    subst h
    exact ⟨id, id, fun _ _ => rfl, rfl⟩
  | delete tableName selection =>
    obtain ⟨selection', -, h⟩ := Result.bind_eq_ok.mp h
    simp only [Result.pure_eq_ok, Except.ok.injEq] at h
    subst h
    exact ⟨id, id, fun _ _ => rfl, rfl⟩
  | explain inner =>
    obtain ⟨inner', -, h⟩ := Result.bind_eq_ok.mp h
    simp only [Result.pure_eq_ok, Except.ok.injEq] at h
    subst h
    exact ⟨id, id, fun _ _ => rfl, rfl⟩
  | _ =>
    simp only [optimizeStatement, Except.ok.injEq] at h
    subst h
    exact ⟨id, id, fun _ _ => rfl, rfl⟩

section Statements

variable {E : Engine} {tables tables' : Tables} {durable : DurableStatement}
  {statement : Statement} {result : ExecutionResult}

/-- What is replayed, by whatever process, does what was executed. -/
theorem Faithful.exists_raw (h : Faithful E tables durable statement)
    (hwrite : isWriteStatement statement = true)
    (hexecute : executeCatalog E.host tables statement = .ok (result, tables')) :
    ∃ raw, durable.statement E.wal = .ok raw ∧ raw.Parsed ∧ raw.Keyed ∧
      isWriteStatement raw = true ∧
      (∀ p, executeCatalog (E.host.inProcess p) tables raw = .ok (result, tables')) ∧
      insertedRows tables tables' raw = insertedRows tables tables' statement := by
  cases durable with
  | bound logged =>
    obtain ⟨rfl, hparsed, hkeyed, hrepeatable⟩ := h
    exact ⟨logged, rfl, hparsed, hkeyed, hwrite,
      fun _ => executeCatalog_inProcess hrepeatable hwrite hexecute, rfl⟩
  | sql text =>
    obtain ⟨raw, hparse, hoptimize, hparsed, hkeyed, hexact, hstable, hrepeatable, -⟩ := h
    obtain ⟨optimized, hoptimized, hkind, hsame⟩ := executeStatement_optimized hexact
    obtain rfl : optimized = statement := by
      rw [hoptimize, Except.ok.injEq] at hoptimized
      exact hoptimized.symm
    have hwriteRaw : isWriteStatement raw = true := by rw [← hkind, hwrite]
    have hexecuteRaw : executeCatalog E.host tables raw = .ok (result, tables') := by
      rw [← hexecute, executeCatalog, executeCatalog, hkind, hsame tables hstable]
    refine ⟨raw, ?_, hparsed, hkeyed, hwriteRaw,
      fun _ => executeCatalog_inProcess hrepeatable hwriteRaw hexecuteRaw,
      ((optimizeStatement_keeps hoptimize).2.2.1 _ _).symm⟩
    rw [DurableStatement.statement, hparse]
    rfl

theorem Faithful.parsed (h : Faithful E tables durable statement) :
    statement.Parsed ∧ statement.Keyed := by
  cases durable with
  | bound logged => exact ⟨h.2.1, h.2.2.1⟩
  | sql text =>
    obtain ⟨raw, -, hoptimize, hparsed, hkeyed, -⟩ := h
    obtain ⟨hkeepsParsed, hkeepsKeyed, -⟩ := optimizeStatement_keeps hoptimize
    exact ⟨hkeepsParsed hparsed, hkeepsKeyed hkeyed⟩

theorem Faithful.repeatable (h : Faithful E tables durable statement) :
    Repeatable E.host tables statement := by
  cases durable with
  | bound logged => exact h.2.2.2
  | sql text =>
    obtain ⟨_, -, -, -, -, -, -, -, hrepeatable⟩ := h
    exact hrepeatable

end Statements

/-! ## Replaying on a catalog that looks the same -/

/-- From every catalog that looks like `tables`, with that many rows inserted, replaying
the statements in whatever process leads to one that looks like `tables'`. -/
def Replays (E : Engine) (inserted : Nat) (tables : Tables) (statements : List DurableStatement)
    (inserted' : Nat) (tables' : Tables) : Prop :=
  ∀ (process : Nat → Nat → Process) (other : Catalog), tables.SameView other.tables →
    other.tables.Loadable E.host inserted →
    ∃ next, replayStatements E.host (E.wal.replaying process) other statements = .ok next ∧
      tables'.SameView next.tables ∧ next.tables.Loadable E.host inserted'

/-- The statements of a unit that write. -/
def applied (unit : List Executed) : List Statement :=
  (unit.map Prod.fst).filter isWriteStatement

/-- From every catalog that looks like `tables`, with that many rows inserted, executing
the writes of a unit leads to one that looks like `tables'`. -/
def Applies (E : Engine) (inserted : Nat) (tables : Tables) (unit : List Executed)
    (inserted' : Nat) (tables' : Tables) : Prop :=
  ∀ other : Tables, tables.SameView other → other.Loadable E.host inserted →
    ∃ results next, runUnit E.host other (applied unit) = .ok (results, next) ∧
      tables'.SameView next ∧ next.Loadable E.host inserted'

section Simulation

variable {E : Engine} {p : Process} {inserted inserted' : Nat}
  {tables tables' tables'' : Tables} {statements : List DurableStatement} {unit : List Executed}
  {durable : DurableStatement} {statement : Statement} {result : ExecutionResult}

theorem Tables.SameView.configure (tables : Tables) (rate : F64) :
    tables.SameView (tables.configureBloomFalsePositiveRate E.host rate) :=
  Tables.sameView_mapValues fun _ _ => ⟨rfl, rfl⟩

theorem replays_nil : Replays E inserted tables [] inserted tables :=
  fun _ other hsame hload => ⟨other, rfl, hsame, hload⟩

theorem applies_nil : Applies E inserted tables [] inserted tables :=
  fun other hsame hload => ⟨[], other, rfl, hsame, hload⟩

theorem statement_replaying {W : WalHost} (process : Nat → Nat → Process) :
    durable.statement (W.replaying process) = durable.statement W := by
  cases durable <;> rfl

theorem process_replaying {W : WalHost} (process : Nat → Nat → Process) :
    (W.replaying process).process = process := rfl

theorem replayStatements_append {H : Host} {W : WalHost} {process : Nat → Nat → Process}
    {catalog : Catalog} (statements : List DurableStatement) (durable : DurableStatement) :
    replayStatements H (W.replaying process) catalog (statements ++ [durable]) =
      (replayStatements H (W.replaying fun version toCome => process version (toCome + 1)) catalog
        statements).bind fun next => replayStatements H (W.replaying process) next [durable] := by
  induction statements generalizing catalog with
  | nil => rfl
  | cons first statements ih =>
    simp only [List.cons_append, replayStatements, statement_replaying, process_replaying,
      List.length_append, List.length_singleton] at ih ⊢
    cases first.statement W with
    | error e => rfl
    | ok raw =>
      simp only [Result.ok_bind]
      cases (replayStatement (H.inProcess (process catalog.version (statements.length + 1)))
          catalog raw).mapError ReplayError.execute with
      | error e => rfl
      | ok next => exact ih

/-- A write on a catalog that looks the same, with what it keeps. -/
theorem executeCatalog_loadable {H : Host} (hsame : tables.SameView tables')
    (hload : tables.Loadable H inserted) (hload' : tables'.Loadable H inserted)
    (hparsed : statement.Parsed) (hkeyed : statement.Keyed)
    (hwrite : isWriteStatement statement = true)
    (hexecute : executeCatalog H tables statement = .ok (result, tables''))
    (hbound : inserted + insertedRows tables tables'' statement < maxRowId) :
    ∃ next, executeCatalog H tables' statement = .ok (result, next) ∧
      tables''.SameView next ∧
      next.Loadable H (inserted + insertedRows tables tables'' statement) := by
  obtain ⟨next, hnext, hview, -, -⟩ :=
    executeCatalog_same hsame hload.sound hload'.sound hparsed hwrite hexecute hbound
  have hrows := insertedRows_same hsame hview statement
  have hstep := hload'.step hparsed hkeyed hnext (by rw [hrows]; exact hbound)
  rw [hrows] at hstep
  exact ⟨next, hnext, hview, hstep⟩

/-- What is executed in one process does the same in a serial run. -/
theorem Faithful.execute (h : Faithful (E.under p) tables durable statement)
    (hwrite : isWriteStatement statement = true)
    (hexecute : executeCatalog (E.under p).host tables statement = .ok (result, tables')) :
    executeCatalog E.host tables statement = .ok (result, tables') :=
  executeCatalog_inProcess (H := E.host.inProcess p) (p := E.host.toProcess) h.repeatable hwrite
    hexecute

/-- **One more statement is replayed** as it was executed, in a process of its own. -/
theorem Replays.append (h : Replays E inserted tables statements inserted' tables')
    (hload : tables'.Loadable E.host inserted')
    (hfaithful : Faithful (E.under p) tables' durable statement)
    (hwrite : isWriteStatement statement = true)
    (hexecute : executeCatalog (E.under p).host tables' statement = .ok (result, tables''))
    (hbound : inserted' + insertedRows tables' tables'' statement < maxRowId) :
    Replays E inserted tables (statements ++ [durable])
      (inserted' + insertedRows tables' tables'' statement) tables'' := by
  intro process other hsame hother
  obtain ⟨next, hnext, hview, hnextLoad⟩ :=
    h (fun version toCome => process version (toCome + 1)) other hsame hother
  obtain ⟨raw, hraw, hparsed, hkeyed, hwriteRaw, hexecuteRaw, hrows⟩ :=
    hfaithful.exists_raw hwrite hexecute
  change durable.statement E.wal = .ok raw at hraw
  rw [← hrows] at hbound ⊢
  obtain ⟨final, hfinal, hfinalView, hfinalLoad⟩ := executeCatalog_loadable hview
    hload.inProcess hnextLoad.inProcess hparsed hkeyed hwriteRaw
    (hexecuteRaw (process next.version 0)) hbound
  refine ⟨⟨next.version, if isSchemaStatement raw then saturatingSucc next.schemaVersion
    else next.schemaVersion, final⟩, ?_, hfinalView, hfinalLoad.inProcess⟩
  have hstatement : replayStatement (E.host.inProcess (process next.version 0)) next raw =
      .ok ⟨next.version, if isSchemaStatement raw then saturatingSucc next.schemaVersion
        else next.schemaVersion, final⟩ := by
    rw [replayStatement, hfinal]
    rfl
  rw [replayStatements_append, hnext]
  simp only [Except.bind, replayStatements, statement_replaying, process_replaying, hraw,
    Result.ok_bind, List.length_nil, hstatement, Except.mapError]

/-- One more statement of a serial run. -/
theorem Applies.append (h : Applies E inserted tables unit inserted' tables')
    (hload : tables'.Loadable E.host inserted') (hparsed : statement.Parsed)
    (hkeyed : statement.Keyed) (hwrite : isWriteStatement statement = true)
    (hexecute : executeCatalog E.host tables' statement = .ok (result, tables''))
    (hbound : inserted' + insertedRows tables' tables'' statement < maxRowId) :
    Applies E inserted tables (unit ++ [(statement, result)])
      (inserted' + insertedRows tables' tables'' statement) tables'' := by
  intro other hsame hother
  obtain ⟨results, next, hnext, hview, hnextLoad⟩ := h other hsame hother
  obtain ⟨final, hfinal, hfinalView, hfinalLoad⟩ := executeCatalog_loadable hview hload hnextLoad
    hparsed hkeyed hwrite hexecute hbound
  refine ⟨results ++ [result], final, ?_, hfinalView, hfinalLoad⟩
  have happend := runUnit_append hnext hfinal
  simpa [applied, hwrite] using happend

end Simulation

/-! ## Directories -/

/-- The files of a directory, opened by whatever process, look like a catalog, with that
many rows inserted. -/
structure Recovers (E : Engine) (disk : SqlDisk) (catalog : Catalog) (inserted : Nat) : Prop where
  exists_records : ∃ loaded records,
    loadCatalog E.host E.codec disk.catalogFile disk.legacyTables = .ok loaded ∧
      HoldsLog E.wal (disk.wal.getD []) records ∧
      ∀ process, ∃ recovered,
        replayRecords E.host (E.wal.replaying process) loaded records = .ok recovered ∧
          catalog.SameView recovered ∧ recovered.tables.Loadable E.host inserted

section Directories

variable {E : Engine} {disk : SqlDisk} {catalog catalog' : Catalog} {inserted inserted' : Nat}
  {statements : List DurableStatement} {tables : Tables} {file : Bytes} {r : WalRecord}

theorem Recovers.openCatalog (h : Recovers E disk catalog inserted)
    (process : Nat → Nat → Process) :
    ∃ recovered, Sql.openCatalog (E.replaying process).host (E.replaying process).wal
        (E.replaying process).codec disk = .ok recovered ∧
      catalog.SameView recovered ∧ recovered.tables.Loadable E.host inserted := by
  obtain ⟨loaded, records, hload, hlog, hreplays⟩ := h.exists_records
  obtain ⟨recovered, hreplay, hsame, hloadable⟩ := hreplays process
  have hlog : HoldsLog (E.wal.replaying process) (disk.wal.getD []) records := hlog
  refine ⟨recovered, ?_, hsame, hloadable⟩
  change Sql.openCatalog E.host (E.wal.replaying process) E.codec disk = _
  rw [openCatalog_of_load hload]
  cases hwal : disk.wal with
  | none =>
    have hlines : lines (disk.wal.getD []) = [] := by rw [hwal]; rfl
    have hempty := @HoldsLog.replayLines E.host _ loaded _ _ hlog
    rw [hlines, hreplay, Sql.replayLines, Except.ok.injEq] at hempty
    rw [hempty]
  | some bytes =>
    simp only [hwal, Option.getD_some] at hlog
    simp only [hlog.replayLines, hreplay]
    rfl

/-- A catalog that looks the same. -/
theorem Recovers.congr (h : Recovers E disk catalog inserted) (hsame : catalog'.SameView catalog) :
    Recovers E disk catalog' inserted := by
  obtain ⟨loaded, records, hload, hlog, hreplays⟩ := h.exists_records
  refine ⟨loaded, records, hload, hlog, fun process => ?_⟩
  obtain ⟨recovered, hreplay, hview, hloadable⟩ := hreplays process
  exact ⟨recovered, hreplay,
    ⟨hview.version.trans hsame.version, hsame.tables.trans hview.tables⟩, hloadable⟩

/-- **One more record** that starts where the catalog ends. -/
theorem Recovers.extend (h : Recovers E disk catalog inserted)
    (hclean : Clean (disk.wal.getD [])) (hbase : r.baseVersion = catalog.version)
    (hcommit : r.commitVersion = catalog.version + 1) (hstatements : r.statements = statements)
    (hreplays : Replays E inserted catalog.tables statements inserted' tables)
    (hversion : catalog'.version = catalog.version + 1) (htables : catalog'.tables.SameView tables)
    (hlog : ∀ records, HoldsRecords E.wal (disk.wal.getD []) records →
      HoldsLog E.wal file (records ++ [r])) :
    Recovers E { disk with wal := some file } catalog' inserted' := by
  obtain ⟨loaded, records, hload, hold, hrecords⟩ := h.exists_records
  refine ⟨loaded, records ++ [r], hload, hlog records (hold.of_clean hclean), fun process => ?_⟩
  obtain ⟨recovered, hreplay, hview, hloadable⟩ := hrecords process
  obtain ⟨next, hnext, hnextView, hnextLoad⟩ := hreplays process recovered hview.tables hloadable
  refine ⟨{ next with version := r.commitVersion }, ?_,
    ⟨by rw [hcommit, hversion], htables.trans hnextView⟩, hnextLoad⟩
  have hskip : ¬ r.commitVersion ≤ recovered.version := by
    rw [hcommit, hview.version]
    omega
  have hgap : ¬ r.baseVersion ≠ recovered.version := by
    rw [hbase, hview.version]
    exact not_not.mpr rfl
  rw [replayRecords_append, hreplay]
  simp only [Except.bind, replayRecords, replayRecord, if_neg hskip, if_neg hgap, hstatements,
    hnext, Except.map]

/-- A log with other bytes behind it that are not read. -/
theorem Recovers.ignore (h : Recovers E disk catalog inserted)
    (hclean : Clean (disk.wal.getD []))
    (hlog : ∀ records, HoldsRecords E.wal (disk.wal.getD []) records →
      HoldsLog E.wal file records) :
    Recovers E { disk with wal := some file } catalog inserted := by
  obtain ⟨loaded, records, hload, hold, hrest⟩ := h.exists_records
  exact ⟨loaded, records, hload, hlog records (hold.of_clean hclean), hrest⟩

theorem holdsLog_nil {W : WalHost} : HoldsLog W [] [] := Or.inl holdsRecords_nil

/-- **A checkpoint**, wherever it stops. -/
theorem Recovers.save (h : Recovers E disk catalog inserted)
    (hlive : catalog.tables.Loadable E.host inserted) (hbound : inserted < maxRowId) {now : Nat}
    (hC : E.codec.Lawful (catalog.snapshot now))
    (hreadable : (catalog.snapshot now).Readable E.codec.reread) (point : SavePoint) :
    Recovers E (disk.saveUntil E.codec catalog now point) catalog inserted := by
  obtain ⟨loaded, records, hload, hlog, hreplays⟩ := h.exists_records
  obtain ⟨recovered, hreplay, hview, -⟩ := hreplays E.wal.process
  obtain ⟨reloaded, hreload, hsame, hreloaded⟩ : ∃ reloaded : Catalog,
      loadCatalog E.host E.codec (some (E.codec.encode (catalog.snapshot now)))
        disk.legacyTables = .ok reloaded ∧ catalog.SameView reloaded ∧
      reloaded.tables.Loadable E.host inserted :=
    ⟨_, loadCatalog_snapshot (hC.decode_encode hreadable) disk.legacyTables,
      ⟨rfl, hlive.sameView_reload⟩, hlive.reload hbound⟩
  have hcommits : ∀ r ∈ records, r.commitVersion ≤ reloaded.version := by
    rw [hsame.version, ← hview.version]
    exact (version_replayRecords hreplay).2
  -- whatever is left of the log, the snapshot has its records
  have hpublished : ∀ {disk' : SqlDisk} {records' : List WalRecord},
      disk'.catalogFile = some (E.codec.encode (catalog.snapshot now)) →
      disk'.legacyTables = disk.legacyTables → HoldsLog E.wal (disk'.wal.getD []) records' →
      (∀ r ∈ records', r.commitVersion ≤ reloaded.version) →
      Recovers E disk' catalog inserted := by
    intro disk' records' hfile hlegacy hlog' hskip
    refine ⟨reloaded, records', ?_, hlog', fun _ =>
      ⟨reloaded, replayRecords_skips hskip, hsame, hreloaded⟩⟩
    rw [hfile, hlegacy]
    exact hreload
  have harchived : HoldsLog E.wal (((disk.publishSnapshot E.codec catalog now).archiveWal
      catalog.version now).wal.getD []) [] := by
    rcases SqlDisk.wal_archiveWal (disk.publishSnapshot E.codec catalog now) catalog.version now
      with hempty | hempty <;> rw [hempty] <;> exact holdsLog_nil
  cases point with
  | entered => exact h
  | written bytes => exact ⟨loaded, records, hload, hlog, hreplays⟩
  | renamed => exact hpublished rfl rfl hlog hcommits
  | archived =>
    refine hpublished ?_ ?_ harchived (by simp)
    · exact SqlDisk.catalogFile_archiveWal ..
    · exact SqlDisk.legacyTables_archiveWal ..
  | reopened =>
    refine hpublished ?_ ?_ harchived (by simp)
    · exact SqlDisk.catalogFile_archiveWal ..
    · exact SqlDisk.legacyTables_archiveWal ..

end Directories

end Sql
end RustyDB
