import Mathlib
import RustyDB.Sql.Replay
import RustyDB.Sql.Settled

/-!
# Values that are read back

A value gets into a row from a literal, from arithmetic or from a bound parameter.  What
writes it takes any double, and JSON of any depth; what reads it back takes no `null`, which is
what `serde_json` writes for a double that is not finite, and no JSON beyond the recursion limit.

* `Encodes` — what is known of `serde_json` on what a request writes.
* `ReadBack` — the record of a request is read back, and so is the catalog that it saves.
* `Legible` — the doubles of logged trees and of saved catalogs are finite, and no record and
  no catalog is nested too deep.
* `World.Lowercase` — the names of the catalogs of a running database, in every history.
* `values_survive_iff` — **every value of a history is read back exactly when the doubles
  that are written as numbers are finite and the JSON stays below the recursion limit.**
-/

namespace RustyDB
namespace Sql

open LineFile KeyedIndex

/-! ## What is written, and what is read -/

/-- What the log relies on for one record, when a finite double is read back as it is: the
record is read back if its doubles are finite and its JSON is not nested too deep, and is refused
otherwise. -/
structure WalHost.Encodes (W : WalHost) (r : WalRecord) : Prop where
  nonblank : isBlank (W.encode r) = false
  decode_encode : r.Finite → r.nesting < recursionLimit → W.decode (W.encode r) = some r
  refused : ¬ r.Finite ∨ recursionLimit ≤ r.nesting → W.decode (W.encode r) = none

/-- The same for a snapshot. -/
structure SnapshotCodec.Encodes (C : SnapshotCodec) (snapshot : CatalogSnapshot) : Prop where
  decode_encode : snapshot.Finite → snapshot.nesting < recursionLimit →
    C.decode (C.encode snapshot) = .ok snapshot
  refused : ¬ snapshot.Finite ∨ recursionLimit ≤ snapshot.nesting →
    ∃ error, C.decode (C.encode snapshot) = .error error

/-- What is known of `serde_json` on what a request writes. -/
structure Encodes (E : Engine) (db : Database) (io : Io) (request : Database.Request) :
    Prop where
  wal : ∀ statements ∈ db.pending E request, E.wal.Encodes (db.record E io statements)
  codec : ∀ catalog ∈ db.saving E io request, E.codec.Encodes (catalog.snapshot io.now)

/-- `replay_wal` reads these statements in the text of a record, and the record is valid. -/
def WalHost.ReadsBack (W : WalHost) (text : String) (statements : List DurableStatement) : Prop :=
  ∃ r, W.readLine text = .record r ∧ r.statements = statements ∧ r.valid W = true

/-- `load_catalog` accepts the text of a snapshot, with all tables and all rows of a
catalog. -/
def Catalog.LoadsBack (E : Engine) (catalog : Catalog) (text : String) : Prop :=
  ∀ legacyTables, ∃ loaded, loadCatalog E.host E.codec (some text) legacyTables = .ok loaded ∧
    ∀ name, (loaded.tables.lookup name).map Table.rows =
      (catalog.tables.lookup name).map Table.rows

/-- The record that a request logs is read back, and so is the catalog that it saves. -/
structure ReadBack (E : Engine) (db : Database) (io : Io) (request : Database.Request) :
    Prop where
  logged : ∀ statements ∈ db.pending E request,
    E.wal.ReadsBack (E.wal.encode (db.record E io statements)) statements
  saved : ∀ catalog ∈ db.saving E io request,
    catalog.LoadsBack E (E.codec.encode (catalog.snapshot io.now))

/-- The doubles that a request writes as numbers are finite: the literals of the statements
that it logs as trees, and the values of the catalog that it saves.  The JSON of its record and
of this catalog stays below the recursion limit. -/
structure Legible (E : Engine) (db : Database) (io : Io) (request : Database.Request) :
    Prop where
  logged : ∀ statements ∈ db.pending E request, ∀ statement, .bound statement ∈ statements →
    ∀ value ∈ statementLiterals statement, value.isFinite = true
  saved : ∀ catalog ∈ db.saving E io request, ∀ name table,
    catalog.tables.lookup name = some table → ∀ value ∈ table.data.values, value.isFinite = true
  shallowRecord : ∀ statements ∈ db.pending E request,
    (db.record E io statements).nesting < recursionLimit
  shallowCatalog : ∀ catalog ∈ db.saving E io request,
    (catalog.snapshot io.now).nesting < recursionLimit

section Reading

variable {E : Engine} {W : WalHost} {io : Io} {db : Database} {request : Database.Request}
  {catalog : Catalog}

/-- A statement that is logged as text is read back, whatever its literals are. -/
theorem WalRecord.finite_iff {r : WalRecord} :
    r.Finite ↔ ∀ statement, .bound statement ∈ r.statements →
      ∀ value ∈ statementLiterals statement, value.isFinite = true := by
  constructor
  · intro h statement hmem
    exact h _ hmem
  · intro h durable hmem
    cases durable with
    | sql text => exact nofun
    | bound statement => exact h statement hmem

theorem Catalog.finite_snapshot_iff (now : Nat) :
    (catalog.snapshot now).Finite ↔ ∀ name table, catalog.tables.lookup name = some table →
      ∀ value ∈ table.data.values, value.isFinite = true := by
  constructor
  · intro h name table hlookup
    have hentry : (name, table.data) ∈ catalog.tables.owned :=
      List.mem_map.mpr ⟨⟨name, table⟩, AList.mem_lookup_iff.mp hlookup, rfl⟩
    exact h _ hentry
  · intro h entry hentry
    obtain ⟨⟨name, table⟩, hmem, rfl⟩ := List.mem_map.mp hentry
    exact h name table (AList.mem_lookup_iff.mpr hmem)

/-- **One record** is read back exactly when its doubles are finite and it is shallow. -/
theorem WalHost.Encodes.readsBack_iff {base commit now : Nat} {statements : List DurableStatement}
    (h : W.Encodes (.new W base commit now statements)) :
    W.ReadsBack (W.encode (.new W base commit now statements)) statements ↔
      (WalRecord.new W base commit now statements).Finite ∧
        (WalRecord.new W base commit now statements).nesting < recursionLimit := by
  constructor
  · rintro ⟨r, hread, -, -⟩
    by_contra hnot
    have hnone := h.refused (by rwa [← Nat.not_lt, ← not_and_or])
    rw [WalHost.readLine, h.nonblank, hnone] at hread
    simp only [Bool.false_eq_true, if_false] at hread
    split at hread <;> cases hread
  · rintro ⟨hfinite, hshallow⟩
    refine ⟨.new W base commit now statements, ?_, rfl, WalRecord.valid_new ..⟩
    rw [WalHost.readLine, h.nonblank, h.decode_encode hfinite hshallow]
    rfl

/-- Loading migrates every table, which leaves its rows alone. -/
theorem rows_migrateTables {H : Host} {tables : Tables} (hlower : tables.Lowercase)
    (name : String) :
    ((migrateTables H tables.owned).lookup name).map Table.rows =
      (tables.lookup name).map Table.rows := by
  have hentries : ∀ entry ∈ tables.owned, toAsciiLowercase entry.1 = entry.1 := by
    intro entry hmem
    obtain ⟨found, hfound, rfl⟩ := List.mem_map.mp hmem
    exact hlower found.1 (List.mem_map_of_mem hfound)
  rw [lookup_migrateTables hentries, lookup_owned, Option.map_map, Option.map_map]
  rfl

/-- A catalog that is accepted has no `null` in the place of a double, and is shallow. -/
theorem Catalog.LoadsBack.legible {now : Nat} (hC : E.codec.Encodes (catalog.snapshot now))
    (hloads : catalog.LoadsBack E (E.codec.encode (catalog.snapshot now))) :
    (catalog.snapshot now).Finite ∧ (catalog.snapshot now).nesting < recursionLimit := by
  by_contra hnot
  obtain ⟨error, hdecode⟩ := hC.refused (by rwa [← Nat.not_lt, ← not_and_or])
  obtain ⟨loaded, hload, -⟩ := hloads []
  rw [loadCatalog] at hload
  simp only [hdecode] at hload
  cases hload

/-- **One catalog** is read back exactly when its doubles are finite and it is shallow. -/
theorem Catalog.loadsBack_iff {now : Nat} (hlower : catalog.tables.Lowercase)
    (hC : E.codec.Encodes (catalog.snapshot now)) :
    catalog.LoadsBack E (E.codec.encode (catalog.snapshot now)) ↔
      (catalog.snapshot now).Finite ∧ (catalog.snapshot now).nesting < recursionLimit := by
  refine ⟨Catalog.LoadsBack.legible hC, fun ⟨hfinite, hshallow⟩ legacyTables => ?_⟩
  exact ⟨_, loadCatalog_snapshot (hC.decode_encode hfinite hshallow) legacyTables,
    rows_migrateTables hlower⟩

/-- **One request.** -/
theorem Encodes.readBack_iff (h : Encodes E db io request)
    (hlower : ∀ catalog ∈ db.saving E io request, catalog.tables.Lowercase) :
    ReadBack E db io request ↔ Legible E db io request := by
  constructor
  · intro hread
    have hlogged := fun statements hpending =>
      (h.wal statements hpending).readsBack_iff.mp (hread.logged statements hpending)
    have hsaved := fun catalog hsaving =>
      (Catalog.loadsBack_iff (hlower catalog hsaving) (h.codec catalog hsaving)).mp
        (hread.saved catalog hsaving)
    exact ⟨fun statements hpending => WalRecord.finite_iff.mp (hlogged statements hpending).1,
      fun catalog hsaving =>
        (Catalog.finite_snapshot_iff io.now).mp (hsaved catalog hsaving).1,
      fun statements hpending => (hlogged statements hpending).2,
      fun catalog hsaving => (hsaved catalog hsaving).2⟩
  · intro hlegible
    refine ⟨fun statements hpending => ?_, fun catalog hsaving => ?_⟩
    · exact (h.wal statements hpending).readsBack_iff.mpr
        ⟨WalRecord.finite_iff.mpr (hlegible.logged statements hpending),
          hlegible.shallowRecord statements hpending⟩
    · exact (Catalog.loadsBack_iff (hlower catalog hsaving) (h.codec catalog hsaving)).mpr
        ⟨(Catalog.finite_snapshot_iff io.now).mpr (hlegible.saved catalog hsaving),
          hlegible.shallowCatalog catalog hsaving⟩

end Reading

/-! ## Names of a running database -/

/-- The names of the published tables, and of the tables of the open transactions, are in
lower case. -/
structure Database.Lowercase (db : Database) : Prop where
  live : db.catalog.tables.Lowercase
  transaction : ∀ id state, (db.sessions id).transaction = some state →
    state.catalog.tables.Lowercase

section Lowercase

variable {E : Engine} {io : Io} {db db' : Database} {client client' : Client}
  {request : Database.Request} {tables tables' : Tables}

theorem Tables.Lowercase.execute {H : Host} {statement : Statement} {result : ExecutionResult}
    (h : tables.Lowercase) (hexecute : executeCatalog H tables statement = .ok (result, tables')) :
    tables'.Lowercase := lowercase_step h (executeCatalog_ok hexecute).1

theorem Tables.Lowercase.configure {H : Host} (h : tables.Lowercase) (rate : F64) :
    (tables.configureBloomFalsePositiveRate H rate).Lowercase := by
  intro name hname
  rw [Tables.configureBloomFalsePositiveRate, keys_mapValues] at hname
  exact h name hname

theorem Database.Lowercase.setSession (h : db.Lowercase) (id : Nat) {session : Session}
    (hsession : ∀ state, session.transaction = some state → state.catalog.tables.Lowercase) :
    (db.setSession id session).Lowercase := by
  refine ⟨h.live, fun other state hstate => ?_⟩
  by_cases hother : other = id
  · subst hother
    rw [Database.sessions_setSession_self] at hstate
    exact hsession state hstate
  · rw [Database.sessions_setSession_of_ne db hother] at hstate
    exact h.transaction other state hstate

/-- Logging and checkpoints leave the sessions alone. -/
theorem Database.Lowercase.of_same (h : db.Lowercase) (hcatalog : db'.catalog.tables.Lowercase)
    (hsessions : db'.sessions = db.sessions) : db'.Lowercase :=
  ⟨hcatalog, fun id state hstate => h.transaction id state (by rwa [hsessions] at hstate)⟩

theorem Database.sessions_logged (statements : List DurableStatement) :
    (db.logged E io statements).sessions = db.sessions := by
  rw [Database.logged, Database.logTransaction]
  split
  · cases io.log <;> rfl
  · rfl

theorem Database.sessions_save : (db.save E io).1.sessions = db.sessions := by
  rw [Database.save]
  split
  · split <;> rfl
  · rfl

theorem Database.Lowercase.logged (h : db.Lowercase) (statements : List DurableStatement) :
    (db.logged E io statements).Lowercase := by
  refine h.of_same ?_ (Database.sessions_logged statements)
  rw [Database.catalog_logged]
  exact h.live

/-- **One step.** -/
theorem Database.Lowercase.step (h : db.Lowercase)
    (hstep : db.Step E io client request db' client') : db'.Lowercase := by
  cases hstep with
  | still hkeeps =>
    refine ⟨?_, fun id state hstate => h.transaction id state (hkeeps.transaction id state hstate)⟩
    rw [hkeeps.catalog]
    exact h.live
  | begun hsession =>
    refine h.setSession _ fun state hstate => ?_
    obtain rfl := Option.some.inj (hsession.symm.trans hstate)
    exact h.live
  | closed _ _ _ hsession =>
    refine h.setSession _ fun state hstate => ?_
    rw [hsession] at hstate
    cases hstate
  | executed hstate _ hexecute hsession =>
    refine h.setSession _ fun state hnext => ?_
    obtain rfl := Option.some.inj (hsession.symm.trans hnext)
    exact (h.transaction _ _ hstate).execute hexecute
  | published _ _ hexecute _ _ =>
    exact h.of_same ((h.live.execute hexecute).configure _) (Database.sessions_logged _)
  | @committed id session state hstate _ _ _ _ hsession =>
    have hpublished : Database.Lowercase { db.logged E io state.statements with
        catalog := (db.committing E state).catalog } :=
      h.of_same ((h.transaction id state hstate).configure _) (Database.sessions_logged _)
    refine hpublished.setSession id fun state hnext => ?_
    rw [hsession] at hnext
    cases hnext
  | refused _ _ => exact h.logged _
  | retained hstate _ _ _ hsession =>
    refine (h.logged _).setSession _ fun state hnext => ?_
    obtain rfl := Option.some.inj (hsession.symm.trans hnext)
    exact (h.transaction _ _ hstate).configure _

/-- **One request**, and the checkpoint that may come after it. -/
theorem Database.Lowercase.serves (h : db.Lowercase)
    (hserves : db.Serves E io client request db' client') : db'.Lowercase := by
  obtain ⟨mid, hstep, rfl | ⟨-, rfl⟩⟩ := hserves
  · exact h.step hstep
  · have hmid := h.step hstep
    refine hmid.of_same ?_ Database.sessions_save
    rw [Database.catalog_save]
    exact hmid.live

theorem Database.Lowercase.target (h : db.Lowercase) {durable : DurableStatement}
    {statement : Statement} (htarget : db.target request = some (tables, durable, statement)) :
    tables.Lowercase := by
  unfold Database.target at htarget
  split at htarget
  · cases htarget
    exact h.live
  · split at htarget
    · cases htarget
      exact h.live
    · rename_i state hstate
      cases htarget
      exact h.transaction _ state hstate
  · cases htarget

/-- The catalog that a request is about to save. -/
theorem Database.Lowercase.saving (h : db.Lowercase) {catalog : Catalog}
    (hsaving : db.saving E io request = some catalog) : catalog.tables.Lowercase := by
  unfold Database.saving at hsaving
  split_ifs at hsaving
  split at hsaving
  · obtain rfl := Option.some.inj hsaving
    exact h.live
  · rename_i htarget
    split_ifs at hsaving
    obtain ⟨⟨result, next⟩, hexecute, rfl⟩ := Option.map_eq_some_iff.mp hsaving
    exact ((h.target htarget).execute (Result.toOption_eq_some.mp hexecute)).configure _
  · cases hsaving

end Lowercase

/-! ## Names of an opened directory -/

section Opening

variable {E : Engine} {H : Host} {W : WalHost} {C : SnapshotCodec} {catalog catalog' : Catalog}

theorem lowercase_loadCatalog {catalogFile : Option String} {legacyTables : List String}
    (h : loadCatalog H C catalogFile legacyTables = .ok catalog) : catalog.tables.Lowercase := by
  unfold loadCatalog at h
  split at h
  · split at h
    · cases h
    · split_ifs at h
      obtain rfl := Except.ok.inj h
      exact lowercase_migrateTables _
  · obtain ⟨tables, -, rfl⟩ := Result.map_eq_ok.mp h
    exact lowercase_migrateTables _

theorem lowercase_replayStatement {statement : Statement} (hlower : catalog.tables.Lowercase)
    (h : replayStatement H catalog statement = .ok catalog') : catalog'.tables.Lowercase := by
  obtain ⟨⟨result, tables⟩, hexecute, h⟩ := Result.bind_eq_ok.mp h
  obtain rfl := Except.ok.inj h
  exact hlower.execute hexecute

theorem lowercase_replayStatements {durables : List DurableStatement}
    (hlower : catalog.tables.Lowercase)
    (h : replayStatements H W catalog durables = .ok catalog') : catalog'.tables.Lowercase := by
  induction durables generalizing catalog with
  | nil =>
    obtain rfl := Except.ok.inj h
    exact hlower
  | cons durable durables ih =>
    obtain ⟨statement, -, h⟩ := Result.bind_eq_ok.mp h
    obtain ⟨next, hnext, h⟩ := Result.bind_eq_ok.mp h
    exact ih (lowercase_replayStatement hlower (Result.mapError_eq_ok.mp hnext)) h

theorem lowercase_replayRecord {base commit : Nat} {durables : List DurableStatement}
    (hlower : catalog.tables.Lowercase)
    (h : replayRecord H W catalog base commit durables = .ok catalog') :
    catalog'.tables.Lowercase := by
  rw [replayRecord] at h
  split_ifs at h
  · obtain rfl := Except.ok.inj h
    exact hlower
  · obtain ⟨next, hnext, rfl⟩ := Result.map_eq_ok.mp h
    have hreplayed := lowercase_replayStatements hlower hnext
    exact hreplayed

theorem lowercase_replayLines {texts : List (Option String)} (hlower : catalog.tables.Lowercase)
    (h : replayLines H W catalog texts = .ok catalog') : catalog'.tables.Lowercase := by
  induction texts generalizing catalog with
  | nil =>
    obtain rfl := Except.ok.inj h
    exact hlower
  | cons text texts ih =>
    cases text with
    | none => cases h
    | some text =>
      rw [replayLines] at h
      split at h
      · exact ih hlower h
      · split_ifs at h
        · obtain ⟨next, hnext, h⟩ := Result.bind_eq_ok.mp h
          exact ih (lowercase_replayRecord hlower hnext) h
        · obtain rfl := Except.ok.inj h
          exact hlower
      · split_ifs at h
        · obtain ⟨next, hnext, h⟩ := Result.bind_eq_ok.mp h
          exact ih (lowercase_replayRecord hlower hnext) h
        · obtain rfl := Except.ok.inj h
          exact hlower
      · split at h
        · obtain rfl := Except.ok.inj h
          exact hlower
        · split at h
          · rename_i next hnext
            have hreplayed := lowercase_replayStatement hlower hnext
            refine ih ?_ h
            exact hreplayed
          · exact ih hlower h
          · cases h

/-- **A directory that is opened** has lower-case names, whatever its files hold. -/
theorem lowercase_openDir {disk : SqlDisk} {db : Database}
    (h : Database.openDir E disk = .ok db) : db.Lowercase := by
  obtain ⟨catalog, hopen, rfl⟩ := Result.map_eq_ok.mp h
  obtain ⟨loaded, hload, hopen⟩ := Result.bind_eq_ok.mp hopen
  have hlower := lowercase_loadCatalog (Result.mapError_eq_ok.mp hload)
  refine ⟨Tables.Lowercase.configure ?_ _, fun id state hstate => by cases hstate⟩
  split at hopen
  · obtain rfl := Except.ok.inj hopen
    exact hlower
  · exact lowercase_replayLines hlower (Result.mapError_eq_ok.mp hopen)

end Opening

/-! ## Histories -/

namespace World

variable {E : Engine} {w : World} {event : Event} {events : List Event}

/-- Events are served by a running database. -/
theorem running_of_serving {process : Process} {db : Database} {io : Io}
    {request : Database.Request} (h : w.serving E event = some (process, db, io, request)) :
    w.machine = .running db := by
  rw [← Machine.database_eq_some]
  cases event with
  | reopen process => cases h
  | stop => cases h
  | call process call io =>
    obtain ⟨found, hfound, hserved⟩ := Option.map_eq_some_iff.mp h
    simp only [Prod.mk.injEq] at hserved
    rw [hfound, hserved.2.1]
  | crash process call now kept =>
    obtain ⟨found, hfound, hserved⟩ := Option.map_eq_some_iff.mp h
    simp only [Prod.mk.injEq] at hserved
    rw [hfound, hserved.2.1]

/-- The database of a directory, if one is running, has lower-case names. -/
def Lowercase (w : World) : Prop := ∀ db, w.machine = .running db → db.Lowercase

theorem lowercase_empty : Lowercase {} := fun db hmachine => by cases hmachine

/-- **One event**, whatever it is. -/
theorem Lowercase.step (h : w.Lowercase) : (w.step E event).Lowercase := by
  intro db' hnext
  cases hmachine : w.machine with
  | stopped disk =>
    cases event with
    | reopen process =>
      simp only [World.step, hmachine] at hnext
      split at hnext
      · rw [hmachine] at hnext
        cases hnext
      · rename_i db hopen
        obtain rfl := Machine.running.inj hnext
        exact lowercase_openDir hopen
    | stop => cases hnext
    | call process call io =>
      simp only [World.step, hmachine] at hnext
      cases hnext
    | crash process call now kept =>
      simp only [World.step, hmachine] at hnext
      cases hnext
  | running db =>
    have hdb := h db hmachine
    cases event with
    | reopen process =>
      simp only [World.step, hmachine] at hnext
      obtain rfl := Machine.running.inj hnext
      exact hdb
    | stop => cases hnext
    | call process call io =>
      simp only [World.step, hmachine, World.serve] at hnext
      obtain rfl := Machine.running.inj hnext
      exact hdb.serves (@Database.serve_serves (E.under process) io db w.client
        (db.resolve (E.under process) call))
    | crash process call now kept =>
      simp only [World.step, hmachine, World.cutOff] at hnext
      split at hnext <;> cases hnext

end World

/-- **Stored values survive** exactly when the doubles that are written as numbers are
finite.  In every history of a directory, with opens, calls of any kind, failures, crashes
and closes: every record that is logged is read back with its statements and is valid, and
every catalog that is saved is loaded with all its rows, if and only if no statement that
is logged as a tree has a literal that is infinite or undefined, and no catalog that is
saved has such a value. -/
theorem values_survive_iff (E : Engine) (events : List Event)
    (hencodes : World.Along E (World.Serves E Encodes) {} events) :
    World.Along E (World.Serves E ReadBack) {} events ↔
      World.Along E (World.Serves E Legible) {} events := by
  have hstep : ∀ w event, World.Lowercase w → World.Serves E Encodes w event →
      (World.Serves E ReadBack w event ↔ World.Serves E Legible w event) := by
    intro w event hlower hencodes
    refine forall_congr' fun process => forall_congr' fun db => forall_congr' fun io =>
      forall_congr' fun request => forall_congr' fun hserving => ?_
    exact (hencodes process db io request hserving).readBack_iff fun catalog hsaving =>
      (hlower db (World.running_of_serving hserving)).saving hsaving
  constructor
  · intro hread
    refine (hread.and hencodes).invariant (I := World.Lowercase) (fun w event hlower h => ?_)
      World.lowercase_empty
    exact ⟨(hstep w event hlower h.2).mp h.1, hlower.step⟩
  · intro hfinite
    refine (hfinite.and hencodes).invariant (I := World.Lowercase) (fun w event hlower h => ?_)
      World.lowercase_empty
    exact ⟨(hstep w event hlower h.2).mpr h.1, hlower.step⟩

/-! ## Two histories -/

theorem WalRecord.Readable.finite {reread : F64 → F64} {r : WalRecord} (h : r.Readable reread) :
    r.Finite := by
  intro durable hmem value hvalue
  have hvalue := h.values durable hmem value hvalue
  rw [Value.comesBack, Bool.and_eq_true] at hvalue
  exact hvalue.1

/-- Records and snapshots that are readable anyway. -/
theorem Encodes.of_laws {E : Engine} {db : Database} {io : Io} {request : Database.Request}
    (hlaws : Laws E db io request)
    (hreadable : ∀ statements ∈ db.pending E request,
      (db.record E io statements).Readable E.wal.reread)
    (hsaves : ∀ catalog ∈ db.saving E io request,
      (catalog.snapshot io.now).Readable E.codec.reread) : Encodes E db io request := by
  refine ⟨fun statements hpending => ?_, fun catalog hsaving => ?_⟩
  · have hlawful := hlaws.wal statements hpending
    have hrecord := hreadable statements hpending
    refine ⟨hlawful.nonblank, fun _ _ => hlawful.decode_encode hrecord, ?_⟩
    rintro (hinfinite | hdeep)
    · exact absurd hrecord.finite hinfinite
    · exact absurd hrecord.shallow (Nat.not_lt.mpr hdeep)
  · have hlawful := hlaws.codec catalog hsaving
    exact ⟨fun _ _ => hlawful.decode_encode (hsaves catalog hsaving), hlawful.refused⟩

/-- A transaction with integers alone. -/
theorem short_history_reads_back :
    World.Along shortEngine (World.Serves shortEngine ReadBack) {} shortEvents := by
  have hsampled : World.checks shortEngine (Database.isSampled [plainRecord]) {}
      shortEvents = true := by
    decide +kernel
  have hlaws := World.laws_of_sampled rfl lawful_shortRecord hsampled
  have hexact := World.exact_of_sampled (settled_shortTexts _)
    (by simp [shortEvents, reopenEvent, sessionEvents, Event.Texts, shortTexts]) hsampled
  have hboth := hlaws.and hexact
  refine (values_survive_iff shortEngine shortEvents (hboth.mono ?_)).mpr (hexact.mono ?_)
  · rintro w event ⟨hlaws, hexact⟩ process db io request hserving
    have hrequest := hexact process db io request hserving
    exact .of_laws (hlaws process db io request hserving) hrequest.readable hrequest.saves
  · intro w event hexact process db io request hserving
    have hrequest := hexact process db io request hserving
    exact ⟨fun statements hpending =>
        WalRecord.finite_iff.mp (hrequest.readable statements hpending).finite,
      fun catalog hsaving =>
        (Catalog.finite_snapshot_iff io.now).mp (hrequest.saves catalog hsaving).finite,
      fun statements hpending => (hrequest.readable statements hpending).shallow,
      fun catalog hsaving => (hrequest.saves catalog hsaving).shallow⟩

/-- An engine whose codec writes a float that is not finite as `null`. -/
def infiniteEngine : Engine :=
  { sampleEngine [infiniteRecord] [("BEGIN", .begin), ("COMMIT", .commit),
      ("CREATE TABLE t (v FLOAT)", createFloat),
      ("INSERT INTO t VALUES (1e999)", insertInfinite)] with codec := nullCodec }

/-- A commit of `1e999`, and a snapshot of it. -/
def infiniteEvents : List Event := reopenEvent :: sessionEvents
  ["BEGIN", "CREATE TABLE t (v FLOAT)", "INSERT INTO t VALUES (1e999)", "COMMIT"] ++
  [.call Process.reference .save { now := 1700000000000 }]

/-- Whether every catalog that a request saves is finite. -/
def Database.savesFinite (E : Engine) (db : Database) (io : Io) (request : Database.Request) :
    Bool :=
  (db.saving E io request).all fun catalog => decide (catalog.snapshot io.now).Finite

/-- What is logged is the sample, and what is saved is not finite. -/
def Database.isInfinite (E : Engine) (db : Database) (io : Io) (request : Database.Request) :
    Bool :=
  ((db.saving E io request).all fun catalog => !decide (catalog.snapshot io.now).Finite) &&
    (db.pending E request).all fun statements =>
      infiniteRecord.isRecord (db.record E io statements)

theorem checks_of_along {E : Engine} {w : World} {events : List Event}
    {test : Engine → Database → Io → Database.Request → Bool}
    (h : w.Along E (World.Serves E fun E db io request => test E db io request = true) events) :
    World.checks E test w events = true := by
  induction events generalizing w with
  | nil => rfl
  | cons event events ih =>
    rw [World.checks, Bool.and_eq_true]
    refine ⟨?_, ih h.2⟩
    cases hserving : w.serving E event with
    | none => rfl
    | some served => exact h.1 _ _ _ _ hserving

/-- **1e999 is stored as infinity**: the INSERT is committed, and the checkpoint writes a
catalog that `load_catalog` refuses. -/
theorem infinite_value_is_lost :
    World.Along infiniteEngine (World.Serves infiniteEngine Encodes) {}
        infiniteEvents ∧
      ¬ World.Along infiniteEngine (World.Serves infiniteEngine ReadBack) {}
        infiniteEvents := by
  have hchecks : World.checks infiniteEngine Database.isInfinite {}
      infiniteEvents = true := by
    decide +kernel
  have hsaves : World.checks infiniteEngine Database.savesFinite {}
      infiniteEvents = false := by
    decide +kernel
  have hlength : ∀ other ∈ [infiniteRecord],
      (utf8 other.text).length = (utf8 infiniteRecord.text).length := by simp
  have hlawful : infiniteEngine.wal.Lawful infiniteRecord.record :=
    lawful_ofSamples (List.mem_singleton_self _) (by decide +kernel) hlength (by decide +kernel)
      (by decide +kernel)
  have hencodes : World.Along infiniteEngine
      (World.Serves infiniteEngine Encodes) {} infiniteEvents := by
    refine World.along_of_checks (fun process db io request hinfinite => ?_) hchecks
    rw [Database.isInfinite, Bool.and_eq_true] at hinfinite
    refine ⟨fun statements hpending => ?_, fun catalog hsaving => ?_⟩
    · have hrecord := hinfinite.2
      rw [hpending, Option.all_some] at hrecord
      rw [SampleRecord.eq_record hrecord]
      have hreadable := infiniteRecord.readable_record infiniteEngine.wal.reread
      change infiniteEngine.wal.Encodes _
      refine ⟨hlawful.nonblank, fun _ _ => hlawful.decode_encode hreadable, ?_⟩
      rintro (hinfinite | hdeep)
      · exact absurd hreadable.finite hinfinite
      · exact absurd hreadable.shallow (Nat.not_lt.mpr hdeep)
    · have hsaved := hinfinite.1
      rw [hsaving, Option.all_some, Bool.not_eq_true', decide_eq_false_iff_not] at hsaved
      exact ⟨fun hfinite _ => absurd hfinite hsaved, fun _ => ⟨_, rfl⟩⟩
  refine ⟨hencodes, fun hread => ?_⟩
  have hall : World.Along infiniteEngine (World.Serves infiniteEngine fun E db io request =>
      Database.savesFinite E db io request = true) {} infiniteEvents := by
    refine (hread.and hencodes).mono ?_
    rintro w event ⟨hread, hencodes⟩ process db io request hserving
    rw [Database.savesFinite]
    cases hsaving : db.saving (infiniteEngine.under process) io request with
    | none => rfl
    | some catalog =>
      rw [Option.all_some, decide_eq_true_eq]
      exact (Catalog.LoadsBack.legible
        ((hencodes process db io request hserving).codec catalog hsaving)
        ((hread process db io request hserving).saved catalog hsaving)).1
  have hfinite := checks_of_along hall
  rw [hsaves] at hfinite
  cases hfinite

end Sql
end RustyDB
