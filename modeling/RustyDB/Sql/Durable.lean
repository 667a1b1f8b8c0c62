import Mathlib
import RustyDB.Sql.Recover

/-!
# A database and its files

The invariant of a running database whose log is in order: the files recover what is
published, and every open transaction that can still commit has logged statements that
replay to what it sees.

* `Parallel`, `Durable` — the invariant, with the serial run of what was committed.
* `Exact`, `Fit`, `Laws` — what a request needs for its record to be read back, and what
  is known of `serde_json` on what it writes.
* `Durable.step`, `Durable.save`, `Durable.serve` — **a request that is fit keeps the
  files in order.**
* `Stored`, `Stored.openDir` — the files alone, and the database that is opened on them.
-/

namespace RustyDB
namespace Sql

open LineFile KeyedIndex

/-! ## The invariant -/

/-- An open transaction that can still commit: its logged statements replay to what it
sees. -/
structure Parallel (E : Engine) (catalog : Catalog) (inserted total : Nat)
    (state : TransactionState) (opened : List Executed) : Prop where
  base : state.baseVersion ≤ catalog.version
  logged : state.statements = [] ↔ writes opened = false
  replays : state.baseVersion = catalog.version → ∃ rows, inserted + rows ≤ total ∧
    state.catalog.tables.Loadable E.host (inserted + rows) ∧
    Replays E inserted catalog.tables state.statements (inserted + rows) state.catalog.tables ∧
    Applies E inserted catalog.tables opened (inserted + rows) state.catalog.tables

/-- The serial run of the writes of committed units looks like a catalog. -/
def Reflects (E : Engine) (tables : Tables) (committed : List (List Executed)) (inserted : Nat) :
    Prop :=
  ∃ results final, serialRun E ∅ (committed.map applied) = .ok (results, final) ∧
    tables.SameView final ∧ final.Loadable E.host inserted

/-- The files recover what is published, which is the serial run of what was committed. -/
structure Durable (E : Engine) (db : Database) (client : Client) (inserted total : Nat) :
    Prop where
  bounded : inserted ≤ total
  live : db.catalog.tables.Loadable E.host inserted
  recovers : Recovers E db.disk db.catalog inserted
  reflects : Reflects E db.catalog.tables client.committed inserted
  session : ∀ id state, (db.sessions id).transaction = some state →
    Parallel E db.catalog inserted total state (client.opened id)

/-- A unit whose logged statements, replayed on a catalog, lead to the tables it
publishes. -/
structure Commits (E : Engine) (catalog : Catalog) (inserted total : Nat)
    (statements : List DurableStatement) (unit : List Executed) (tables : Tables) : Prop where
  writes : writes unit = true
  replays : ∃ rows, inserted + rows ≤ total ∧ tables.Loadable E.host (inserted + rows) ∧
    Replays E inserted catalog.tables statements (inserted + rows) tables ∧
    Applies E inserted catalog.tables unit (inserted + rows) tables

/-- What is known of `serde_json` on what a request writes. -/
structure Laws (E : Engine) (db : Database) (io : Io) (request : Database.Request) : Prop where
  wal : ∀ statements ∈ db.pending E request, E.wal.Lawful (db.record E io statements)
  codec : ∀ catalog ∈ db.saving E io request, E.codec.Lawful (catalog.snapshot io.now)

/-- What a request logs means what it executes, and the record and the snapshot that it writes
are readable. -/
structure Exact (E : Engine) (db : Database) (io : Io) (request : Database.Request) : Prop where
  faithful : ∀ tables durable statement, db.target request = some (tables, durable, statement) →
    isWriteStatement statement = true → Faithful E tables durable statement
  readable : ∀ statements ∈ db.pending E request,
    (db.record E io statements).Readable E.wal.reread
  saves : ∀ catalog ∈ db.saving E io request,
    (catalog.snapshot io.now).Readable E.codec.reread

/-- A request whose effect is read back: it is exact, it logs to an open log that ends
with a newline, and a write that fails leaves a part of the record that is text. -/
structure Fit (E : Engine) (db : Database) (io : Io) (request : Database.Request) : Prop
    extends Exact E db io request where
  opened : ∀ statements ∈ db.pending E request, db.wal = true
  clean : ∀ statements ∈ db.pending E request, Clean (db.disk.wal.getD [])
  tears : ∀ statements ∈ db.pending E request, ∀ failure ∈ io.log,
    failure.kept < (utf8 (E.wal.encode (db.record E io statements))).length ∧
      decode ((line (E.wal.encode (db.record E io statements))).take failure.kept) ≠ none

section Steps

variable {E : Engine} {p : Process} {io : Io} {db db' : Database} {client client' : Client}
  {request : Database.Request} {inserted total : Nat} {statements : List DurableStatement}

theorem Parallel.mono {catalog : Catalog} {state : TransactionState} {opened : List Executed}
    (h : Parallel E catalog inserted total state opened) {more : Nat} (hle : total ≤ more) :
    Parallel E catalog inserted more state opened := by
  refine ⟨h.base, h.logged, fun hbase => ?_⟩
  obtain ⟨rows, hrows, hrest⟩ := h.replays hbase
  exact ⟨rows, hrows.trans hle, hrest⟩

/-- A transaction whose version has passed. -/
theorem Parallel.stale {catalog catalog' : Catalog} {state : TransactionState}
    {opened : List Executed} (h : Parallel E catalog inserted total state opened)
    (hversion : catalog'.version = catalog.version + 1) (inserted' total' : Nat) :
    Parallel E catalog' inserted' total' state opened := by
  have hbase := h.base
  refine ⟨by omega, h.logged, fun hstale => ?_⟩
  omega

/-- The bytes that `log_transaction` appends. -/
def Database.logBytes (E : Engine) (db : Database) (io : Io)
    (statements : List DurableStatement) : Bytes :=
  match io.log with
  | none => line (E.wal.encode (db.record E io statements))
  | some failure => (line (E.wal.encode (db.record E io statements))).take failure.kept

/-- The database with these files. -/
def Database.withWal (db : Database) (file : Bytes) : Database :=
  { db with disk := { db.disk with wal := some file } }

theorem Database.logged_eq (hwal : db.wal = true) :
    db.logged E io statements =
      db.withWal (db.disk.wal.getD [] ++ db.logBytes E io statements) := by
  rw [Database.logged, Database.logTransaction, if_pos hwal, Database.logBytes]
  cases io.log <;> rfl

theorem Database.logError_eq (hwal : db.wal = true) :
    db.logError E io statements = io.log.map LogFailure.error := by
  rw [Database.logError, Database.logTransaction, if_pos hwal]
  cases io.log <;> rfl

/-- **A record is logged and published.** -/
theorem Durable.publish (h : Durable E db client inserted total) {unit : List Executed}
    {tables : Tables} {total' : Nat}
    (hcommits : Commits E db.catalog inserted total' statements unit tables)
    (hclean : Clean (db.disk.wal.getD [])) {file : Bytes}
    (hfile : ∀ records, HoldsRecords E.wal (db.disk.wal.getD []) records →
      HoldsLog E.wal file (records ++ [db.record E io statements]))
    (hsucc : saturatingSucc db.catalog.version = db.catalog.version + 1) (catalog : Catalog)
    (hversion : catalog.version = saturatingSucc db.catalog.version)
    (htables : catalog.tables =
      tables.configureBloomFalsePositiveRate E.host E.bloomFalsePositiveRate) :
    ∃ inserted', Durable E { db.withWal file with catalog }
      { client with committed := client.committed ++ [unit] } inserted' total' := by
  obtain ⟨hwrites, rows, hbound, hload, hreplays, happlies⟩ := hcommits
  have hview : catalog.tables.SameView tables := by
    rw [htables]
    exact (Tables.SameView.configure tables _).symm
  refine ⟨inserted + rows, hbound, ?_, ?_, ?_, fun id state hstate => ?_⟩
  · rw [htables]
    exact hload.configure _
  · exact h.recovers.extend hclean rfl hsucc rfl hreplays (hversion.trans hsucc) hview hfile
  · obtain ⟨results, final, hserial, hfinal, hfinalLoad⟩ := h.reflects
    obtain ⟨last, next, hunit, hnext, hnextLoad⟩ := happlies final hfinal hfinalLoad
    have happend := serialRun_append hserial hunit
    have hany : (applied unit).any isWriteStatement = true := by
      simpa [applied, writes, List.any_map] using hwrites
    rw [commitUnit, if_pos hany] at happend
    refine ⟨_, _, by simpa using happend, ?_, hnextLoad.configure _⟩
    exact (hview.trans hnext).trans (Tables.SameView.configure next _)
  · exact (h.session id state hstate).stale (hversion.trans hsucc) _ _

/-- The same catalog and files, and transactions that are in order. -/
theorem Durable.keep (h : Durable E db client inserted total) {total' : Nat} (hle : total ≤ total')
    (hcatalog : db'.catalog = db.catalog) (hdisk : db'.disk = db.disk)
    (hcommitted : Reflects E db.catalog.tables client'.committed inserted)
    (hsession : ∀ id state, (db'.sessions id).transaction = some state →
      Parallel E db.catalog inserted total' state (client'.opened id)) :
    Durable E db' client' inserted total' := by
  refine ⟨h.bounded.trans hle, ?_, ?_, ?_, fun id state hstate => ?_⟩
  · rw [hcatalog]
    exact h.live
  · rw [hcatalog, hdisk]
    exact h.recovers
  · rw [hcatalog]
    exact hcommitted
  · rw [hcatalog]
    exact hsession id state hstate

/-- The transactions of a database of which one session has changed. -/
theorem Durable.session_setSession (h : Durable E db client inserted total) {total' : Nat}
    (hle : total ≤ total') (id : Nat) {session : Session} {opened : Nat → List Executed}
    (hothers : ∀ other, other ≠ id → opened other = client.opened other)
    (hsession : ∀ state, session.transaction = some state →
      Parallel E db.catalog inserted total' state (opened id)) :
    ∀ other state, ((db.setSession id session).sessions other).transaction = some state →
      Parallel E db.catalog inserted total' state (opened other) := by
  intro other state hstate
  by_cases hother : other = id
  · subst hother
    rw [Database.sessions_setSession_self] at hstate
    exact hsession state hstate
  · rw [Database.sessions_setSession_of_ne db hother] at hstate
    rw [hothers other hother]
    exact (h.session other state hstate).mono hle

theorem applied_of_read {unit : List Executed} (h : writes unit = false) : applied unit = [] := by
  rw [applied, List.filter_eq_nil_iff]
  intro statement hmem
  obtain ⟨executed, hexecuted, rfl⟩ := List.mem_map.mp hmem
  have hread := List.any_eq_false.mp h executed hexecuted
  exact hread

/-- A read-only transaction ends. -/
theorem Reflects.readOnly {tables : Tables} {committed : List (List Executed)}
    (h : Reflects E tables committed inserted) {unit : List Executed}
    (hread : writes unit = false) : Reflects E tables (committed ++ [unit]) inserted := by
  obtain ⟨results, final, hserial, hview, hload⟩ := h
  have hunit : runUnit E.host final (applied unit) = .ok ([], final) := by
    rw [applied_of_read hread]
    rfl
  have happend := serialRun_append hserial hunit
  rw [applied_of_read hread] at happend
  refine ⟨results ++ [[]], final, ?_, hview, hload⟩
  simpa [applied_of_read hread, commitUnit] using happend

/-- One more statement of an open transaction. -/
theorem Parallel.executed {catalog : Catalog} {state : TransactionState} {opened : List Executed}
    {durable : DurableStatement} {statement : Statement} {result : ExecutionResult}
    {tables : Tables} (h : Parallel E catalog inserted total state opened)
    (hfaithful : isWriteStatement statement = true →
      Faithful (E.under p) state.catalog.tables durable statement)
    (hexecute : executeCatalog (E.under p).host state.catalog.tables statement =
      .ok (result, tables))
    (hbound : total + insertedRows state.catalog.tables tables statement < maxRowId) :
    Parallel E catalog inserted
      (total + insertedRows state.catalog.tables tables statement)
      (state.after durable statement tables) (opened ++ [(statement, result)]) := by
  by_cases hwrite : isWriteStatement statement = true
  · refine ⟨h.base, by simp [TransactionState.after, hwrite, writes], fun hbase => ?_⟩
    obtain ⟨rows, hrows, hload, hreplays, happlies⟩ := h.replays hbase
    obtain ⟨hparsed, hkeyed⟩ := (hfaithful hwrite).parsed
    have hroom : inserted + rows + insertedRows state.catalog.tables tables statement <
        maxRowId := by omega
    have hserial := (hfaithful hwrite).execute hwrite hexecute
    refine ⟨rows + insertedRows state.catalog.tables tables statement, by omega, ?_, ?_, ?_⟩
    · rw [← Nat.add_assoc]
      exact hload.step hparsed hkeyed hserial hroom
    · simp only [TransactionState.after, hwrite, if_true]
      rw [← Nat.add_assoc]
      exact hreplays.append hload (hfaithful hwrite) hwrite hexecute hroom
    · rw [← Nat.add_assoc]
      exact happlies.append hload hparsed hkeyed hwrite hserial hroom
  · have hread : isWriteStatement statement = false := by simpa using hwrite
    obtain rfl := executeCatalog_read hread hexecute
    have happlied : applied (opened ++ [(statement, result)]) = applied opened := by
      simp [applied, hread]
    refine ⟨h.base, ?_, fun hbase => ?_⟩
    · simpa [TransactionState.after, hread, writes] using h.logged
    · obtain ⟨rows, hrows, hload, hreplays, happlies⟩ := h.replays hbase
      refine ⟨rows, by omega, hload, ?_, ?_⟩
      · simpa [TransactionState.after, hread] using hreplays
      · rw [Applies, happlied]
        exact happlies

/-- A transaction that a failed COMMIT leaves behind. -/
theorem Parallel.retained {state : TransactionState} {opened : List Executed}
    (h : Parallel E db.catalog inserted total state opened) :
    Parallel E db.catalog inserted total (db.committing E state) opened := by
  refine ⟨h.base, h.logged, fun hbase => ?_⟩
  obtain ⟨rows, hrows, hload, hreplays, happlies⟩ := h.replays hbase
  have hview := (Tables.SameView.configure (E := E) state.catalog.tables
    E.bloomFalsePositiveRate).symm
  refine ⟨rows, hrows, hload.configure _, fun process other hsame hother => ?_,
    fun other hsame hother => ?_⟩
  · obtain ⟨next, hnext, hnextView, hnextLoad⟩ := hreplays process other hsame hother
    exact ⟨next, hnext, hview.trans hnextView, hnextLoad⟩
  · obtain ⟨results, next, hnext, hnextView, hnextLoad⟩ := happlies other hsame hother
    exact ⟨results, next, hnext, hview.trans hnextView, hnextLoad⟩

/-- **A write of the log fails**: what it leaves behind is not read. -/
theorem Fit.recovers_logged (hfit : Fit (E.under p) db io request)
    (hlaws : Laws (E.under p) db io request)
    (hpending : db.pending (E.under p) request = some statements) {error : String}
    (hlog : db.logError E io statements = some error) {catalog : Catalog}
    (h : Recovers E db.disk catalog inserted) :
    Recovers E (db.logged E io statements).disk catalog inserted := by
  have hwal := hfit.opened statements hpending
  have hclean := hfit.clean statements hpending
  have hlaw := hlaws.wal statements hpending
  rw [Database.logError_eq hwal] at hlog
  obtain ⟨failure, hfailure, -⟩ := Option.map_eq_some_iff.mp hlog
  obtain ⟨hkept, hutf8⟩ := hfit.tears statements hpending failure hfailure
  rw [Database.logged_eq hwal, Database.logBytes, hfailure]
  exact h.ignore hclean fun records hrecords => hrecords.tear hclean hlaw hkept hutf8

theorem Fit.holdsLog (hfit : Fit (E.under p) db io request) (hlaws : Laws (E.under p) db io request)
    (hpending : db.pending (E.under p) request = some statements) (records : List WalRecord)
    (hrecords : HoldsRecords E.wal (db.disk.wal.getD []) records) :
    HoldsLog E.wal (db.disk.wal.getD [] ++ line (E.wal.encode (db.record E io statements)))
      (records ++ [db.record E io statements]) :=
  Or.inl (hrecords.append (hfit.clean _ hpending) (hlaws.wal _ hpending)
    (hfit.readable _ hpending) (WalRecord.valid_new ..))

/-- A statement outside a transaction commits itself. -/
theorem Durable.commits_statement (h : Durable E db client inserted total)
    {durable : DurableStatement} {statement : Statement} {result : ExecutionResult}
    {tables : Tables} (hfaithful : Faithful (E.under p) db.catalog.tables durable statement)
    (hwrite : isWriteStatement statement = true)
    (htarget : db.target request = some (db.catalog.tables, durable, statement))
    (hexecute : executeCatalog (E.under p).host db.catalog.tables statement =
      .ok (result, tables))
    (hrows : total + db.insertedBy (E.under p) request < maxRowId) :
    Commits E db.catalog inserted (total + db.insertedBy (E.under p) request) [durable]
      [(statement, result)] tables := by
  have hcount : db.insertedBy (E.under p) request =
      insertedRows db.catalog.tables tables statement := by
    simp only [Database.insertedBy, htarget, hexecute]
  have hbounded := h.bounded
  obtain ⟨hparsed, hkeyed⟩ := hfaithful.parsed
  have hserial := hfaithful.execute hwrite hexecute
  have hroom : inserted + insertedRows db.catalog.tables tables statement < maxRowId := by omega
  refine ⟨by simp [writes, hwrite], _, by omega, h.live.step hparsed hkeyed hserial hroom, ?_, ?_⟩
  · exact replays_nil.append h.live hfaithful hwrite hexecute hroom
  · exact applies_nil.append h.live hparsed hkeyed hwrite hserial hroom

/-- A transaction that has written commits what it has done. -/
theorem Durable.commits_transaction (h : Durable E db client inserted total) {id more : Nat}
    {state : TransactionState} (hstate : (db.sessions id).transaction = some state)
    (hbase : state.baseVersion = db.catalog.version) (hne : state.statements ≠ []) :
    Commits E db.catalog inserted (total + more) state.statements (client.opened id)
      state.catalog.tables := by
  obtain ⟨-, hlogged, hreplays⟩ := h.session id state hstate
  obtain ⟨rows, hbound, hrest⟩ := hreplays hbase
  refine ⟨?_, rows, by omega, hrest⟩
  rw [← Bool.not_eq_false, ← hlogged]
  exact hne

/-- **One step** of a request that is fit. -/
theorem Durable.step (h : Durable E db client inserted total)
    (hstep : db.Step (E.under p) io client request db' client')
    (hfit : Fit (E.under p) db io request)
    (hlaws : Laws (E.under p) db io request)
    (hrows : total + db.insertedBy (E.under p) request < maxRowId)
    (hversion : db'.catalog.version < maxRowId) :
    ∃ inserted', Durable E db' client' inserted' (total + db.insertedBy (E.under p) request) := by
  have hle : total ≤ total + db.insertedBy (E.under p) request := Nat.le_add_right _ _
  cases hstep with
  | still hkeeps =>
    exact ⟨inserted, h.keep hle hkeeps.catalog hkeeps.disk h.reflects fun id state hstate =>
      (h.session id state (hkeeps.transaction id state hstate)).mono hle⟩
  | @begun id session hsession =>
    refine ⟨inserted, h.keep hle rfl rfl h.reflects (h.session_setSession hle id
      (fun other hother => Function.update_of_ne hother ..) fun state hstate => ?_)⟩
    obtain rfl : TransactionState.fresh db = state := Option.some.inj (hsession.symm.trans hstate)
    refine ⟨Nat.le_refl _, by simp [TransactionState.fresh, writes], fun _ => ⟨0, ?_, ?_, ?_, ?_⟩⟩
    · have := h.bounded
      omega
    · exact h.live
    · exact replays_nil
    · simp only [Function.update_self]
      exact applies_nil
  | @closed id session state hstate hbase hempty hsession =>
    have hread := (h.session id state hstate).logged.mp hempty
    exact ⟨inserted, h.keep hle rfl rfl (h.reflects.readOnly hread) (h.session_setSession hle id
      (fun _ _ => rfl) (by simp [hsession]))⟩
  | @executed id session state durable statement result tables hstate htarget hexecute hsession =>
    have hcount : db.insertedBy (E.under p) request =
        insertedRows state.catalog.tables tables statement := by
      simp only [Database.insertedBy, htarget, hexecute]
    rw [hcount] at hrows hle ⊢
    refine ⟨inserted, h.keep hle rfl rfl h.reflects (h.session_setSession hle id
      (fun other hother => Function.update_of_ne hother ..) fun after hafter => ?_)⟩
    obtain rfl : state.after durable statement tables = after :=
      Option.some.inj (hsession.symm.trans hafter)
    have hnext := (h.session id state hstate).executed
      (hfit.faithful _ _ _ htarget) hexecute hrows
    simpa [Client.executed] using hnext
  | @published durable statement result tables hwrite htarget hexecute hpending hlog =>
    have hwal := hfit.opened _ hpending
    obtain ⟨hsucc, -⟩ := saturatingSucc_of_lt hversion
    rw [Database.logError_eq hwal, Option.map_eq_none_iff] at hlog
    rw [Database.logged_eq hwal, Database.logBytes, hlog]
    exact h.publish (h.commits_statement (hfit.faithful _ _ _ htarget hwrite) hwrite htarget
      hexecute hrows)
      (hfit.clean _ hpending) (hfit.holdsLog hlaws hpending) hsucc (db.working E statement tables)
      rfl rfl
  | @committed id session state hstate hbase hne hpending hlog hsession =>
    have hwal := hfit.opened _ hpending
    obtain ⟨hsucc, -⟩ := saturatingSucc_of_lt hversion
    rw [Database.logError_eq hwal, Option.map_eq_none_iff] at hlog
    rw [Database.logged_eq hwal, Database.logBytes, hlog]
    obtain ⟨inserted', hpublished⟩ := h.publish (h.commits_transaction hstate hbase hne)
      (hfit.clean _ hpending) (hfit.holdsLog hlaws hpending) hsucc (db.committing E state).catalog
      rfl rfl
    refine ⟨inserted', hpublished.keep (Nat.le_refl _) rfl rfl hpublished.reflects
      (hpublished.session_setSession (Nat.le_refl _) id (fun _ _ => rfl) (by simp [hsession]))⟩
  | @refused durable error hpending hlog =>
    have hrecovers := hfit.recovers_logged hlaws hpending hlog h.recovers
    have hwal := hfit.opened _ hpending
    rw [Database.logged_eq hwal] at hrecovers ⊢
    exact ⟨inserted, h.bounded.trans hle, h.live, hrecovers, h.reflects,
      fun id state hstate => (h.session id state hstate).mono hle⟩
  | @retained id session state error hstate hbase hpending hlog hsession =>
    have hrecovers := hfit.recovers_logged hlaws hpending hlog h.recovers
    have hwal := hfit.opened _ hpending
    rw [Database.logged_eq hwal] at hrecovers ⊢
    have hlogged : Durable E (db.withWal (db.disk.wal.getD [] ++
        db.logBytes E io state.statements))
      client inserted (total + db.insertedBy (E.under p) request) :=
      ⟨h.bounded.trans hle, h.live, hrecovers, h.reflects,
        fun id state hstate => (h.session id state hstate).mono hle⟩
    refine ⟨inserted, hlogged.keep (Nat.le_refl _) rfl rfl hlogged.reflects
      (hlogged.session_setSession (Nat.le_refl _) id (fun _ _ => rfl) fun after hafter => ?_)⟩
    obtain rfl : db.committing E state = after := Option.some.inj (hsession.symm.trans hafter)
    exact ((h.session id state hstate).mono hle).retained

/-- **A checkpoint**, whether it succeeds or fails. -/
theorem Durable.save (h : Durable E db client inserted total) (htotal : total < maxRowId)
    (hC : E.codec.Lawful (db.catalog.snapshot io.now))
    (hreadable : (db.catalog.snapshot io.now).Readable E.codec.reread) :
    Durable E (db.save E io).1 client inserted total := by
  have hbound : inserted < maxRowId := Nat.lt_of_le_of_lt h.bounded htotal
  rw [Database.save]
  split
  · split
    · exact ⟨h.bounded, h.live, h.recovers.save h.live hbound hC hreadable _, h.reflects, h.session⟩
    · exact ⟨h.bounded, h.live, h.recovers.save h.live hbound hC hreadable _, h.reflects, h.session⟩
  · exact h

/-- **One request** that is fit. -/
theorem Durable.serve (h : Durable E db client inserted total)
    (hserves : db.Serves (E.under p) io client request db' client')
    (hfit : Fit (E.under p) db io request)
    (hlaws : Laws (E.under p) db io request)
    (hrows : total + db.insertedBy (E.under p) request < maxRowId)
    (hversion : db'.catalog.version < maxRowId) :
    ∃ inserted', Durable E db' client' inserted' (total + db.insertedBy (E.under p) request) := by
  obtain ⟨mid, hstep, rfl | ⟨hsaving, rfl⟩⟩ := hserves
  · exact h.step hstep hfit hlaws hrows hversion
  · rw [Database.catalog_save] at hversion
    obtain ⟨inserted', hmid⟩ := h.step hstep hfit hlaws hrows hversion
    exact ⟨inserted', hmid.save hrows (hlaws.codec _ hsaving) (hfit.saves _ hsaving)⟩

/-! ## What stays as it is -/

/-- Without a failed checkpoint the log stays open. -/
theorem Database.wal_save (hsave : io.save = none) : (db.save E io).1.wal = db.wal := by
  rw [Database.save, hsave]
  split <;> rfl

theorem Database.wal_logged : (db.logged E io statements).wal = db.wal := by
  rw [Database.logged, Database.logTransaction]
  split
  · cases io.log <;> rfl
  · rfl

theorem Database.Step.wal_eq (hstep : db.Step E io client request db' client') :
    db'.wal = db.wal := by
  cases hstep with
  | still hkeeps => exact hkeeps.wal
  | begun _ => rfl
  | closed _ _ _ _ => rfl
  | executed _ _ _ _ => rfl
  | published _ _ _ _ _ => exact Database.wal_logged
  | committed _ _ _ _ _ _ => exact Database.wal_logged
  | refused _ _ => exact Database.wal_logged
  | retained _ _ _ _ _ => exact Database.wal_logged

theorem Database.Serves.wal_eq (hserves : db.Serves E io client request db' client')
    (hsave : io.save = none) : db'.wal = db.wal := by
  obtain ⟨mid, hstep, rfl | ⟨-, rfl⟩⟩ := hserves
  · exact hstep.wal_eq
  · rw [Database.wal_save hsave, hstep.wal_eq]

/-- Without a failed write the log keeps ending with a newline. -/
theorem Database.clean_logged (hlog : io.log = none)
    (hlaw : E.wal.Lawful (db.record E io statements)) (hclean : Clean (db.disk.wal.getD [])) :
    Clean ((db.logged E io statements).disk.wal.getD []) := by
  cases hwal : db.wal with
  | false =>
    rw [Database.logged, Database.logTransaction, hwal]
    exact hclean
  | true =>
    rw [Database.logged_eq hwal, Database.logBytes, hlog]
    exact clean_append_line hclean hlaw.plain

theorem Database.clean_save (hclean : Clean (db.disk.wal.getD [])) :
    Clean ((db.save E io).1.disk.wal.getD []) := by
  have hpoint : ∀ point,
      Clean ((db.disk.saveUntil E.codec db.catalog io.now point).wal.getD []) := by
    intro point
    have hempty : ((db.disk.publishSnapshot E.codec db.catalog io.now).archiveWal
        db.catalog.version io.now).wal.getD [] = [] := by
      rcases SqlDisk.wal_archiveWal (db.disk.publishSnapshot E.codec db.catalog io.now)
        db.catalog.version io.now with hwal | hwal <;> rw [hwal] <;> rfl
    cases point with
    | entered => exact hclean
    | written bytes => exact hclean
    | renamed => exact hclean
    | archived =>
      rw [SqlDisk.saveUntil, hempty]
      exact clean_nil
    | reopened =>
      rw [SqlDisk.saveUntil, SqlDisk.openWal, hempty]
      exact clean_nil
  rw [Database.save]
  split
  · split
    · exact hpoint _
    · exact hpoint _
  · exact hclean

theorem Database.Serves.clean (hserves : db.Serves E io client request db' client')
    (hlaws : Laws E db io request) (hlog : io.log = none)
    (hclean : Clean (db.disk.wal.getD [])) : Clean (db'.disk.wal.getD []) := by
  obtain ⟨mid, hstep, hmid⟩ := hserves
  have hmidClean : Clean (mid.disk.wal.getD []) := by
    cases hstep with
    | still hkeeps =>
      rw [hkeeps.disk]
      exact hclean
    | begun _ => exact hclean
    | closed _ _ _ _ => exact hclean
    | executed _ _ _ _ => exact hclean
    | published _ _ _ hpending _ =>
      exact Database.clean_logged hlog (hlaws.wal _ hpending) hclean
    | committed _ _ _ hpending _ _ =>
      exact Database.clean_logged hlog (hlaws.wal _ hpending) hclean
    | refused hpending _ => exact Database.clean_logged hlog (hlaws.wal _ hpending) hclean
    | retained _ _ hpending _ _ =>
      exact Database.clean_logged hlog (hlaws.wal _ hpending) hclean
  rcases hmid with rfl | ⟨-, rfl⟩
  · exact hmidClean
  · exact Database.clean_save hmidClean

/-- A request moves the version by one at most. -/
theorem Database.Serves.version_le (hserves : db.Serves E io client request db' client') :
    db'.catalog.version ≤ db.catalog.version + 1 := by
  obtain ⟨mid, hstep, hmid⟩ := hserves
  have hsucc : saturatingSucc db.catalog.version ≤ db.catalog.version + 1 := Nat.min_le_left _ _
  have hle : mid.catalog.version ≤ db.catalog.version + 1 := by
    cases hstep with
    | still hkeeps =>
      rw [hkeeps.catalog]
      omega
    | begun _ => exact Nat.le_succ _
    | closed _ _ _ _ => exact Nat.le_succ _
    | executed _ _ _ _ => exact Nat.le_succ _
    | published _ _ _ _ _ => exact hsucc
    | committed _ _ _ _ _ _ => exact hsucc
    | refused _ _ =>
      rw [Database.catalog_logged]
      omega
    | retained _ _ _ _ _ =>
      change (db.logged E io _).catalog.version ≤ _
      rw [Database.catalog_logged]
      omega
  rcases hmid with rfl | ⟨-, rfl⟩
  · exact hle
  · rw [Database.catalog_save]
    exact hle

end Steps

/-! ## The files alone -/

/-- Files that recover the serial run of committed units. -/
def Stored (E : Engine) (disk : SqlDisk) (committed : List (List Executed))
    (inserted version : Nat) : Prop :=
  ∃ catalog, Recovers E disk catalog inserted ∧ Reflects E catalog.tables committed inserted ∧
    catalog.version = version

section Files

variable {E : Engine} {disk : SqlDisk} {committed : List (List Executed)}
  {inserted version : Nat}

theorem Durable.stored {db : Database} {client : Client} {total : Nat}
    (h : Durable E db client inserted total) :
    Stored E db.disk client.committed inserted db.catalog.version :=
  ⟨db.catalog, h.recovers, h.reflects, rfl⟩

theorem stored_empty : Stored E {} [] 0 0 := by
  refine ⟨⟨0, 0, ∅⟩, ⟨⟨0, 0, ∅⟩, [], rfl, holdsLog_nil, fun _ => ?_⟩,
    ⟨[], ∅, rfl, .refl ∅, Tables.loadable_empty⟩, rfl⟩
  exact ⟨⟨0, 0, ∅⟩, rfl, ⟨rfl, .refl ∅⟩, Tables.loadable_empty⟩

/-- **A directory that is opened**: what is published is what was committed. -/
theorem Stored.openDir (h : Stored E disk committed inserted version) {total : Nat}
    (hle : inserted ≤ total) (opened : Nat → List Executed) (process : Nat → Nat → Process) :
    ∃ db, Database.openDir (E.replaying process) disk = .ok db ∧ db.disk = disk.openWal ∧
      db.wal = true ∧
      db.catalog.version = version ∧ Durable E db ⟨committed, opened⟩ inserted total := by
  obtain ⟨catalog, hrecovers, ⟨results, final, hserial, hfinal, hfinalLoad⟩, rfl⟩ := h
  obtain ⟨recovered, hopen, hsame, hload⟩ := hrecovers.openCatalog process
  have hconfigured := @Tables.SameView.configure E recovered.tables E.bloomFalsePositiveRate
  refine ⟨_, by rw [Database.openDir, hopen]; rfl, rfl, rfl, hsame.version, hle, ?_, ?_, ?_, ?_⟩
  · exact hload.configure _
  · have hdisk : Recovers E disk.openWal catalog inserted := by
      obtain ⟨loaded, records, rest⟩ := hrecovers.exists_records
      refine ⟨loaded, records, ?_⟩
      simpa [SqlDisk.openWal] using rest
    exact hdisk.congr ⟨hsame.version.symm, (hsame.tables.trans hconfigured).symm⟩
  · exact ⟨results, final, hserial, (hsame.tables.trans hconfigured).symm.trans hfinal, hfinalLoad⟩
  · simp

end Files

end Sql
end RustyDB
