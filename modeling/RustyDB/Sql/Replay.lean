import Mathlib
import RustyDB.Sql.History

/-!
# Replay and live execution

The live database executes optimized statements and bound trees, transaction by
transaction; `replay_wal` parses the logged texts again and executes them as they are.

* `Statement.Settled`, `World.checks` — what has to be evaluated of a history of a few
  texts before the results about all histories apply to it.
* `replay_reproduces_live` — **without failures, reopening gives the published catalog,
  if every logged statement means what was executed.**
-/

namespace RustyDB
namespace Sql

open LineFile KeyedIndex

/-- Only three files are read. -/
theorem openCatalog_congr {H : Host} {W : WalHost} {C : SnapshotCodec} {disk disk' : SqlDisk}
    (hcatalog : disk.catalogFile = disk'.catalogFile)
    (hlegacy : disk.legacyTables = disk'.legacyTables) (hwal : disk.wal = disk'.wal) :
    openCatalog H W C disk = openCatalog H W C disk' := by
  rw [openCatalog, openCatalog, hcatalog, hlegacy, hwal]

theorem openDir_of_openCatalog {E : Engine} {disk : SqlDisk} {catalog : Catalog}
    (h : openCatalog E.host E.wal E.codec disk = .ok catalog) :
    Database.openDir E disk = .ok
      { catalog := { catalog with
          tables :=
            catalog.tables.configureBloomFalsePositiveRate E.host E.bloomFalsePositiveRate }
        autoSave := true
        wal := true
        disk := disk.openWal
        sessions := fun _ => {} } := by
  rw [Database.openDir, h]
  rfl

/-! ## Histories of a few texts

Whether the records of a history are the samples is evaluated. -/

/-- When everything happens. -/
def sampleTime : Nat := 1700000000001

/-- The catalog of an empty directory. -/
def blankCatalog : Catalog := ⟨0, 0, ∅⟩

/-- Whether a catalog is the one of an empty directory. -/
def Catalog.isBlank (catalog : Catalog) : Bool :=
  catalog.version == 0 && catalog.schemaVersion == 0 && catalog.tables.entries.isEmpty

/-- `serde_json` on the snapshot of an empty directory. -/
def blankCodec : SnapshotCodec :=
  oneSnapshotCodec (blankCatalog.snapshot sampleTime)
    ("\x7b\n  \"format_version\": 1,\n  \"catalog_version\": 0,\n  \"schema_version\": 0,\n" ++
      "  \"timestamp_millis\": 1700000000001,\n  \"tables\": \x7b\x7d\n\x7d")

/-- The engine that knows these records and these statements. -/
def sampleEngine (samples : List SampleRecord) (parsed : List (String × Statement)) : Engine where
  host := Host.reference
  wal := .ofSamples samples parsed
  codec := blankCodec
  bindParameters statement _ := .ok statement
  bloomFalsePositiveRate := defaultBloomFalsePositiveRate

/-- The record of a sample. -/
def SampleRecord.isRecord (sample : SampleRecord) (r : WalRecord) : Bool :=
  r.formatVersion == walFormatVersion && r.baseVersion == sample.baseVersion &&
    r.commitVersion == sample.commitVersion && r.timestampMillis == sample.timestampMillis &&
    r.statements.mapM DurableStatement.text? == some sample.texts && r.checksum == sample.checksum

/-- No table has a CHECK constraint. -/
def Tables.isUnchecked (tables : Tables) : Bool :=
  tables.entries.all fun entry => entry.2.schema.constraints.all fun
    | .check _ _ => false
    | _ => true

/-- The record of a request is a sample, nothing is saved but an empty catalog, and no CHECK
constraint is left. -/
def Database.isSampled (samples : List SampleRecord) (E : Engine) (db : Database) (io : Io)
    (request : Database.Request) : Bool :=
  ((db.saving E io request).all fun catalog => catalog.isBlank && io.now == sampleTime) &&
    ((db.pending E request).all fun statements =>
      samples.any fun sample => sample.isRecord (db.record E io statements)) &&
    (db.target request).all fun (tables, _, statement) =>
      match executeCatalog E.host tables statement with
      | .ok (_, tables') => tables'.isUnchecked
      | .error _ => true

/-- A test of every request of a history. -/
def World.checks (E : Engine) (test : Engine → Database → Io → Database.Request → Bool) :
    World → List Event → Bool
  | _, [] => true
  | w, event :: rest => (w.serving E event).all (fun (process, db, io, request) =>
      test (E.under process) db io request) && World.checks E test (w.step E event) rest

/-- A statement whose meaning no catalog can change by being optimized, and which scans none. -/
structure Statement.Settled (H : Host) (raw : Statement) : Prop where
  parsed : raw.Parsed
  keyed : raw.Keyed
  exact : exactStatement H raw
  stable : ∀ tables, statementStable H tables raw
  scanless : ∀ statement, statement = raw ∨ optimizeStatement H raw = .ok statement →
    statementReads statement = [] ∧ statement.Uncached

section Samples

variable {samples : List SampleRecord} {E : Engine} {w : World} {events : List Event}

theorem Tables.checksUntied_of_isUnchecked {H : Host} {tables : Tables}
    (h : tables.isUnchecked = true) : tables.ChecksUntied H := by
  intro tableName table hlookup name expr hcheck
  rw [isUnchecked, List.all_eq_true] at h
  have htable := h _ (AList.mem_lookup_iff.mp hlookup)
  rw [List.all_eq_true] at htable
  cases htable _ hcheck

/-- A settled statement that leaves no CHECK constraint, and its optimized form, do the same
in every process. -/
theorem Statement.Settled.repeatable {H : Host} {raw : Statement} (h : raw.Settled H)
    {tables : Tables} {statement : Statement} (hoptimize : optimizeStatement H raw = .ok statement)
    (hchecks : ∀ result tables', executeCatalog H tables statement = .ok (result, tables') →
      tables'.ChecksUntied H) :
    Repeatable H tables raw ∧ Repeatable H tables statement := by
  obtain ⟨optimized, hoptimized, hkind, hsame⟩ := executeStatement_optimized h.exact
  obtain rfl : optimized = statement := by
    rw [hoptimize, Except.ok.injEq] at hoptimized
    exact hoptimized.symm
  have hexecute : executeCatalog H tables optimized = executeCatalog H tables raw := by
    rw [executeCatalog, executeCatalog, hkind, hsame tables (h.stable tables)]
  obtain ⟨hreads, huncached⟩ := h.scanless raw (Or.inl rfl)
  obtain ⟨hreads', huncached'⟩ := h.scanless optimized (Or.inr hoptimize)
  exact ⟨⟨by simp [hreads], huncached, fun result tables' hraw =>
      hchecks result tables' (hexecute.trans hraw)⟩,
    ⟨by simp [hreads'], huncached', hchecks⟩⟩

theorem mapM_text_eq_some {statements : List DurableStatement} {texts : List String}
    (h : statements.mapM DurableStatement.text? = some texts) :
    statements = texts.map DurableStatement.sql := by
  induction statements generalizing texts with
  | nil =>
    simp only [List.mapM_nil, Option.pure_def, Option.some.injEq] at h
    rw [← h]
    rfl
  | cons durable statements ih =>
    rw [List.mapM_cons] at h
    obtain ⟨text, htext, h⟩ := Option.bind_eq_some_iff.mp h
    obtain ⟨rest, hrest, h⟩ := Option.bind_eq_some_iff.mp h
    obtain rfl : text :: rest = texts := Option.some.inj h
    cases durable with
    | bound statement => cases htext
    | sql logged =>
      obtain rfl : logged = text := Option.some.inj htext
      rw [ih hrest, List.map_cons]

theorem Catalog.eq_blank {catalog : Catalog} (h : catalog.isBlank = true) :
    catalog = blankCatalog := by
  obtain ⟨version, schemaVersion, tables⟩ := catalog
  simp only [Catalog.isBlank, Bool.and_eq_true, beq_iff_eq, List.isEmpty_iff] at h
  obtain ⟨⟨rfl, rfl⟩, hempty⟩ := h
  rw [blankCatalog, Catalog.mk.injEq]
  exact ⟨rfl, rfl, AList.ext hempty⟩

theorem readable_blank (reread : F64 → F64) :
    (blankCatalog.snapshot sampleTime).Readable reread := by
  refine ⟨fun entry hentry => ?_, by decide⟩
  cases hentry

theorem SampleRecord.eq_record {sample : SampleRecord} {r : WalRecord}
    (h : sample.isRecord r = true) : r = sample.record := by
  simp only [isRecord, Bool.and_eq_true, beq_iff_eq] at h
  obtain ⟨⟨⟨⟨⟨hformat, hbase⟩, hcommit⟩, hnow⟩, htexts⟩, hchecksum⟩ := h
  obtain ⟨_, _, _, _, _, _⟩ := r
  rw [record, WalRecord.mk.injEq]
  exact ⟨hformat, hbase, hcommit, hnow, mapM_text_eq_some htexts, hchecksum⟩

theorem World.along_of_checks {test : Engine → Database → Io → Database.Request → Bool}
    {P : Engine → Database → Io → Database.Request → Prop}
    (htest : ∀ process db io request, test (E.under process) db io request = true →
      P (E.under process) db io request)
    (h : World.checks E test w events = true) : w.Along E (World.Serves E P) events := by
  induction events generalizing w with
  | nil => exact trivial
  | cons event events ih =>
    simp only [World.checks, Bool.and_eq_true] at h
    refine ⟨fun process db io request hserving => htest process db io request ?_, ih h.2⟩
    have hfirst := h.1
    rwa [hserving, Option.all_some] at hfirst

/-- What is known of a sampled request. -/
theorem Database.exists_sample {db : Database} {io : Io} {request : Database.Request}
    (h : Database.isSampled samples E db io request = true) :
    (∀ catalog ∈ db.saving E io request, catalog.snapshot io.now =
        blankCatalog.snapshot sampleTime) ∧
      (∀ statements ∈ db.pending E request, ∃ sample ∈ samples,
        db.record E io statements = sample.record) ∧
      ∀ tables durable statement, db.target request = some (tables, durable, statement) →
        ∀ result tables', executeCatalog E.host tables statement = .ok (result, tables') →
          tables'.ChecksUntied E.host := by
  rw [Database.isSampled, Bool.and_eq_true, Bool.and_eq_true] at h
  obtain ⟨⟨hblank, hany⟩, hunchecked⟩ := h
  refine ⟨fun catalog hsaving => ?_, fun statements hstatements => ?_,
    fun tables durable statement htarget result tables' hexecute => ?_⟩
  · rw [hsaving, Option.all_some, Bool.and_eq_true, beq_iff_eq] at hblank
    rw [Catalog.eq_blank hblank.1, hblank.2]
  · rw [hstatements, Option.all_some, List.any_eq_true] at hany
    obtain ⟨sample, hsample, hrecord⟩ := hany
    exact ⟨sample, hsample, SampleRecord.eq_record hrecord⟩
  · simp only [htarget, Option.all_some, hexecute] at hunchecked
    exact Tables.checksUntied_of_isUnchecked hunchecked

theorem World.laws_of_sampled (hcodec : E.codec = blankCodec)
    (hlawful : ∀ sample ∈ samples, E.wal.Lawful sample.record)
    (h : World.checks E (Database.isSampled samples) w events = true) :
    w.Along E (World.Serves E Laws) events := by
  refine World.along_of_checks (fun process db io request hsampled => ?_) h
  obtain ⟨hsaving, hpending, -⟩ := Database.exists_sample hsampled
  refine ⟨fun statements hstatements => ?_, fun catalog hcatalog => ?_⟩
  · obtain ⟨sample, hsample, hrecord⟩ := hpending statements hstatements
    rw [hrecord]
    exact hlawful sample hsample
  · change E.codec.Lawful _
    rw [hcodec, hsaving catalog hcatalog]
    exact oneSnapshotCodec_lawful (readable_blank id) _

/-- A text of a session that is settled is logged as it is executed. -/
theorem faithful_resolveText {db : Database} {names : SessionNames} {id : Nat} {sql : String}
    {raw : Statement} (hparse : E.wal.parseSql (normalizeSql sql) = .ok raw)
    (htrim : trim sql = normalizeSql sql) (hsettled : raw.Settled E.host)
    (hplain : Database.isSessionStatement raw = false) {tables : Tables}
    {durable : DurableStatement} {statement : Statement}
    (htarget : db.target (.session id (db.resolveText E names sql)) =
      some (tables, durable, statement))
    (hchecks : ∀ result tables', executeCatalog E.host tables statement = .ok (result, tables') →
      tables'.ChecksUntied E.host) : Faithful E tables durable statement := by
  obtain ⟨optimized, hoptimize, -, -⟩ := executeStatement_optimized hsettled.exact
  obtain ⟨-, -, -, hkeeps⟩ := optimizeStatement_keeps hoptimize
  have hnot := hkeeps.trans hplain
  obtain ⟨rfl, rfl⟩ : durable = .sql (trim sql) ∧ statement = optimized := by
    by_cases hpoisoned : db.poisoned = true
    · simp [Database.resolveText, Database.parseCached, hpoisoned, Database.target] at htarget
    · simp only [Database.resolveText, Database.parseCached, if_neg hpoisoned, hparse,
        hoptimize] at htarget
      cases optimized with
      | setVariable _ _ => cases hnot
      | prepare _ _ => cases hnot
      | executePrepared _ _ => cases hnot
      | deallocatePrepared _ => cases hnot
      | begin => cases htarget
      | commit => cases htarget
      | rollback => cases htarget
      | _ =>
        simp only [Database.target] at htarget
        split at htarget <;> simp_all
  exact ⟨raw, by rw [htrim, hparse], hoptimize, hsettled.parsed, hsettled.keyed, hsettled.exact,
    hsettled.stable tables, hsettled.repeatable hoptimize hchecks⟩

/-- A call of a session with one of these texts, of `save`, or no call at all. -/
def Event.Texts (texts : List String) : Event → Prop
  | .reopen _ => True
  | .stop => True
  | .call _ .save _ => True
  | .call _ (.sessionExecute _ sql) _ => sql ∈ texts
  | .crash _ (.sessionExecute _ sql) _ _ => sql ∈ texts
  | _ => False

/-- The texts mean statements that are settled, whether they are normalized or trimmed. -/
def SettledTexts (E : Engine) (texts : List String) : Prop :=
  ∀ sql ∈ texts, trim sql = normalizeSql sql ∧ ∃ raw, E.wal.parseSql (normalizeSql sql) = .ok raw ∧
    (∀ process, raw.Settled (E.under process).host) ∧ Database.isSessionStatement raw = false

theorem World.exact_of_sampled {texts : List String} (htexts : SettledTexts E texts)
    (hevents : ∀ event ∈ events, event.Texts texts)
    (h : World.checks E (Database.isSampled samples) w events = true) :
    w.Along E (World.Serves E Exact) events := by
  have hall : w.Along E (World.Serves E fun E db io request =>
      Database.isSampled samples E db io request = true) events :=
    along_of_checks (fun _ _ _ _ => id) h
  refine ((along_of_forall hevents).and hall).mono ?_
  rintro w event ⟨hevent, hsampled⟩ process db io request hserving
  obtain ⟨hsaving, hpending, hchecks⟩ :=
    Database.exists_sample (hsampled process db io request hserving)
  refine ⟨fun tables durable statement htarget _ => ?_, fun statements hstatements => ?_,
    fun catalog hcatalog => by rw [hsaving catalog hcatalog]; exact readable_blank _⟩
  · obtain ⟨id, sql, hsql, rfl⟩ : ∃ id sql, sql ∈ texts ∧
        request = .session id
          (db.resolveText (E.under process) (db.sessions id).names sql) := by
      match event, hevent with
      | .call _ .save _, _ =>
        obtain ⟨other, -, hserved⟩ := Option.map_eq_some_iff.mp hserving
        simp only [Prod.mk.injEq] at hserved
        obtain ⟨rfl, rfl, -, rfl⟩ := hserved
        cases htarget
      | .call _ (.sessionExecute id sql) _, hsql =>
        obtain ⟨other, -, hserved⟩ := Option.map_eq_some_iff.mp hserving
        simp only [Prod.mk.injEq] at hserved
        obtain ⟨rfl, rfl, -, rfl⟩ := hserved
        exact ⟨id, sql, hsql, rfl⟩
      | .crash _ (.sessionExecute id sql) _ _, hsql =>
        obtain ⟨other, -, hserved⟩ := Option.map_eq_some_iff.mp hserving
        simp only [Prod.mk.injEq] at hserved
        obtain ⟨rfl, rfl, -, rfl⟩ := hserved
        exact ⟨id, sql, hsql, rfl⟩
    obtain ⟨htrim, raw, hparse, hsettled, hplain⟩ := htexts sql hsql
    exact @faithful_resolveText (E.under process) _ _ _ _ _ hparse htrim (hsettled process) hplain
      _ _ _ htarget (hchecks _ _ _ htarget)
  · obtain ⟨sample, -, hrecord⟩ := hpending statements hstatements
    rw [hrecord]
    exact sample.readable_record _

end Samples

/-- Statements of a session, one after another. -/
def sessionEvents (texts : List String) : List Event :=
  texts.map fun sql => .call Process.reference (.sessionExecute 0 sql) { now := sampleTime }

/-- The directory is opened. -/
def reopenEvent : Event := .reopen fun _ _ => Process.reference

/-- `CREATE TABLE w (v INTEGER)`. -/
def createOther : Statement := .createTable "w" [plainColumn "v" .integer] [] false

/-- `INSERT INTO w VALUES (1), (2)`. -/
def insertOther : Statement :=
  .insert "w" none (.values [[.literal (.integer 1)], [.literal (.integer 2)]]) []

/-- The texts of a short session, with their statements. -/
def shortTexts : List (String × Statement) :=
  [("BEGIN", .begin), ("COMMIT", .commit), ("ROLLBACK", .rollback),
    ("CREATE TABLE t (v INTEGER)", createPlain), ("INSERT INTO t VALUES (1), (2)", insertTwo),
    ("CREATE TABLE w (v INTEGER)", createOther), ("INSERT INTO w VALUES (1), (2)", insertOther)]

/-- An engine that reads `shortTexts`. -/
def shortEngine : Engine := sampleEngine [plainRecord] shortTexts

/-- A table with two rows, committed in one transaction. -/
def shortEvents : List Event := reopenEvent :: sessionEvents
  ["BEGIN", "CREATE TABLE t (v INTEGER)", "INSERT INTO t VALUES (1), (2)", "COMMIT"]

theorem settled_shortTexts (samples : List SampleRecord) :
    SettledTexts (sampleEngine samples shortTexts) (shortTexts.map Prod.fst) := by
  intro sql hsql
  have hnormal : ∀ sql ∈ shortTexts.map Prod.fst, trim sql = sql ∧ normalizeSql sql = sql := by
    decide +kernel
  obtain ⟨htrim, hnormalize⟩ := hnormal sql hsql
  rw [htrim, hnormalize]
  refine ⟨rfl, ?_⟩
  have hcreate : ∀ name H,
      (Statement.createTable name [plainColumn "v" .integer] [] false).Settled H := by
    refine fun name H => ⟨trivial, by simp [plainColumn, Statement.Keyed, KeyFlagged], trivial,
      fun _ => trivial, ?_⟩
    rintro statement (rfl | hoptimize)
    · exact ⟨rfl, trivial⟩
    · obtain rfl := Except.ok.inj hoptimize
      exact ⟨rfl, trivial⟩
  have hinsert : ∀ name H, (Statement.insert name none (.values [[.literal (.integer 1)],
      [.literal (.integer 2)]]) []).Settled H := by
    refine fun name H => ⟨trivial, trivial, ?_, fun tables => ?_, ?_⟩
    · simp [exactStatement, exactInsertSource, exactExprs, exactExpr]
    · simp [statementStable, insertScans, exprsScans, exprScans, SubqueryFree]
    · rintro statement (rfl | hoptimize)
      · exact ⟨rfl, by simp [Statement.Uncached, SubqueryFree]⟩
      · obtain rfl := Except.ok.inj hoptimize
        exact ⟨rfl, by simp [Statement.Uncached, SubqueryFree]⟩
  have hcontrol : ∀ statement : Statement,
      statement = .begin ∨ statement = .commit ∨ statement = .rollback →
        ∀ H, statement.Settled H := by
    rintro statement (rfl | rfl | rfl) H
    all_goals
      refine ⟨trivial, trivial, trivial, fun _ => trivial, ?_⟩
      rintro statement (rfl | hoptimize)
      · exact ⟨rfl, trivial⟩
      · obtain rfl := Except.ok.inj hoptimize
        exact ⟨rfl, trivial⟩
  simp only [shortTexts, List.map_cons, List.map_nil, List.mem_cons, List.not_mem_nil,
    or_false] at hsql
  rcases hsql with rfl | rfl | rfl | rfl | rfl | rfl | rfl
  · exact ⟨.begin, rfl, fun _ => hcontrol _ (by simp) _, rfl⟩
  · exact ⟨.commit, rfl, fun _ => hcontrol _ (by simp) _, rfl⟩
  · exact ⟨.rollback, rfl, fun _ => hcontrol _ (by simp) _, rfl⟩
  · exact ⟨createPlain, rfl, fun _ => hcreate "t" _, rfl⟩
  · exact ⟨insertTwo, rfl, fun _ => hinsert "t" _, rfl⟩
  · exact ⟨createOther, rfl, fun _ => hcreate "w" _, rfl⟩
  · exact ⟨insertOther, rfl, fun _ => hinsert "w" _, rfl⟩

theorem lawful_shortRecord : ∀ sample ∈ [plainRecord], shortEngine.wal.Lawful sample.record := by
  intro sample hsample
  have hlength : ∀ other ∈ [plainRecord],
      (utf8 other.text).length = (utf8 plainRecord.text).length := by simp
  exact lawful_ofSamples hsample (by decide +kernel) hlength (by decide +kernel)
    (by decide +kernel)

/-! ## Live execution and replay -/

/-- **Replay reproduces live execution** in every history of opens, calls and closes
without failures in which every write is exact: its logged form means the statement that
was executed, it does the same in every process, and the records and the snapshots are
readable.  Reopening the directory of a running database, in whatever process, gives its
version, its schemas and its rows in their order. -/
theorem replay_reproduces_live (E : Engine) (events : List Event) (db : Database)
    (process : Nat → Nat → Process)
    (hhealthy : ∀ event ∈ events, event.Logs ∧ event.Saves ∧ event.Completes)
    (hlaws : World.Along E (World.Serves E Laws) {} events)
    (hexact : World.Along E (World.Serves E Exact) {} events)
    (hrows : World.rows E {} events < 2 ^ 64 - 1) (hlength : events.length < 2 ^ 64 - 1)
    (hmachine : (World.run E {} events).machine = .running db) :
    ∃ reopened, Database.openDir (E.replaying process) db.disk = .ok reopened ∧
      db.catalog.SameView reopened.catalog :=
  World.openDir_running (World.fits_of_healthy hhealthy hlaws hexact) hlaws hrows hlength hmachine
    process

/-- A transaction, and the directory opened again. -/
theorem short_history_replays : ∃ db reopened,
    (World.run shortEngine {} shortEvents).machine = .running db ∧
      Database.openDir shortEngine db.disk = .ok reopened ∧
      (db.catalog.tables.lookup "t").map Table.rows = some [[.integer 1], [.integer 2]] ∧
      db.catalog.SameView reopened.catalog := by
  have hsampled : World.checks shortEngine (Database.isSampled [plainRecord]) {}
      shortEvents = true := by
    decide +kernel
  have hrows : World.rows shortEngine {} shortEvents = 2 := by decide +kernel
  have hreport : ((World.run shortEngine {} shortEvents).machine.database.map fun db =>
      (db.catalog.tables.lookup "t").map Table.rows) =
      some (some [[.integer 1], [.integer 2]]) := by decide +kernel
  cases hmachine : (World.run shortEngine {} shortEvents).machine with
  | stopped disk => simp [hmachine, Machine.database] at hreport
  | running db =>
    simp only [hmachine, Machine.database, Option.map_some, Option.some.injEq] at hreport
    obtain ⟨reopened, hopen, hsame⟩ := replay_reproduces_live shortEngine shortEvents db
      shortEngine.wal.process
      (by simp [shortEvents, reopenEvent, sessionEvents, Event.Logs, Event.Saves, Event.Completes])
      (World.laws_of_sampled rfl lawful_shortRecord hsampled)
      (World.exact_of_sampled (settled_shortTexts _)
        (by simp [shortEvents, reopenEvent, sessionEvents, Event.Texts, shortTexts]) hsampled)
      (by rw [hrows]; decide) (by decide) hmachine
    exact ⟨db, reopened, rfl, hopen, hreport, hsame⟩

/-- `DELETE FROM t WHERE NOT (NULL AND FALSE)`. -/
def deleteFolded : Statement :=
  .delete "t" (some (.unary .not (.binary (.literal .null) .and (.literal (.boolean false)))))

/-- The record of a transaction with a DELETE whose condition folds to a wrong truth value. -/
def foldedRecord : SampleRecord :=
  ⟨0, 1, 1700000000001, ["CREATE TABLE t (v INTEGER)", "INSERT INTO t VALUES (1), (2)",
    "DELETE FROM t WHERE NOT (NULL AND FALSE)"], 4131334543⟩

/-- An engine that also reads the DELETE. -/
def foldedEngine : Engine := sampleEngine [foldedRecord]
  (("DELETE FROM t WHERE NOT (NULL AND FALSE)", deleteFolded) :: shortTexts)

/-- The transaction of `foldedRecord`. -/
def foldedEvents : List Event := reopenEvent :: sessionEvents
  ["BEGIN", "CREATE TABLE t (v INTEGER)", "INSERT INTO t VALUES (1), (2)",
    "DELETE FROM t WHERE NOT (NULL AND FALSE)", "COMMIT"]

/-- **A DELETE that the optimizer folds** deletes nothing while the database runs, and
every row when it is opened again. -/
theorem folded_delete_diverges :
    (∀ event ∈ foldedEvents, event.Logs ∧ event.Saves ∧ event.Completes) ∧
      World.Along foldedEngine (World.Serves foldedEngine Laws) {} foldedEvents ∧
      ∃ db reopened, (World.run foldedEngine {} foldedEvents).machine = .running db ∧
        Database.openDir foldedEngine db.disk = .ok reopened ∧
        (db.catalog.tables.lookup "t").map Table.rows = some [[.integer 1], [.integer 2]] ∧
        (reopened.catalog.tables.lookup "t").map Table.rows = some [] := by
  have hsampled : World.checks foldedEngine (Database.isSampled [foldedRecord]) {}
      foldedEvents = true := by
    decide +kernel
  have hlength : ∀ other ∈ [foldedRecord],
      (utf8 other.text).length = (utf8 foldedRecord.text).length := by simp
  have hlawful : ∀ sample ∈ [foldedRecord], foldedEngine.wal.Lawful sample.record :=
    fun sample hsample => lawful_ofSamples hsample (by decide +kernel) hlength (by decide +kernel)
      (by decide +kernel)
  refine ⟨by simp [foldedEvents, reopenEvent, sessionEvents, Event.Logs, Event.Saves,
      Event.Completes],
    World.laws_of_sampled rfl hlawful hsampled, ?_⟩
  have hreport : ((World.run foldedEngine {} foldedEvents).machine.database.map fun db =>
      ((db.catalog.tables.lookup "t").map Table.rows, db.disk.catalogFile, db.disk.legacyTables,
        db.disk.wal)) =
      some (some [[.integer 1], [.integer 2]], none, [], some (line foldedRecord.text)) := by
    decide +kernel
  obtain ⟨db, hdb, hreport⟩ := Option.map_eq_some_iff.mp hreport
  simp only [Prod.mk.injEq] at hreport
  obtain ⟨hlive, hcatalog, hlegacy, hwal⟩ := hreport
  have hrun : ((runStatements Host.reference (∅, 0) [createPlain, insertTwo, deleteFolded]).map
      fun state => ((state.1.configureBloomFalsePositiveRate Host.reference
        defaultBloomFalsePositiveRate).lookup "t").map Table.rows).toOption = some (some []) := by
    decide +kernel
  obtain ⟨⟨tables, inserted⟩, hstatements, hempty⟩ :=
    Result.map_eq_ok.mp (Result.toOption_eq_some.mp hrun)
  have hrecords : HoldsRecords foldedEngine.wal (line foldedRecord.text) [foldedRecord.record] :=
    holdsRecords_sample (by decide +kernel) (by decide +kernel) (by decide +kernel)
  have hparse : List.Forall₂
      (fun durable statement => durable.statement foldedEngine.wal = .ok statement)
      foldedRecord.record.statements [createPlain, insertTwo, deleteFolded] :=
    List.Forall₂.cons rfl (List.Forall₂.cons rfl (List.Forall₂.cons rfl List.Forall₂.nil))
  have hopen := @openCatalog_sample Host.reference _ blankCodec _ _ _ _ _
    (fun _ _ => rfl) hrecords rfl (by decide)
    hparse hstatements
  exact ⟨db, _, Machine.database_eq_some.mp hdb, openDir_of_openCatalog
    ((openCatalog_congr hcatalog hlegacy hwal).trans hopen), hlive, hempty⟩

end Sql
end RustyDB
