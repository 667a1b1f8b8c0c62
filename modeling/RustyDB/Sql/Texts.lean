import Mathlib
import RustyDB.Sql.Define
import RustyDB.Sql.Integrity

/-!
# What texts can do to a catalog

Clients send texts.  They are parsed, or kept as prepared statements and bound to values
later, and what they ask for is run on the published catalog or on that of a transaction.
What the executor takes for granted about a statement holds of everything that arrives this
way.

* `ParsesWith` — the engine parses and binds with the functions of `parser.rs`.
* `Database.FormedNames` — the prepared statements of all sessions are formed.
* `resolve_formed` — **a call asks for nothing but formed statements.**
* `Founded` — the catalogs that formed statements lead to.
* `texts_leave_sound_catalogs` — **whatever texts clients send, every statement they have
  run is formed, and the catalogs they see are settled, intact, and have the schemas and rows
  that a load makes of their data.**
-/

namespace RustyDB
namespace Sql

/-! ## Formed statements -/

/-- The engine parses with `parse_sql` and binds with `bind_parameters`. -/
structure ParsesWith (E : Engine) (P : SqlParser) : Prop where
  parse : ∀ {text : String} {statement : Statement}, E.wal.parseSql text = .ok statement →
    P.parseSql text = .ok statement
  bind : ∀ {statement bound : Statement} {values : List Value},
    E.bindParameters statement values = .ok bound → bindParameters statement values = .ok bound

/-- The text of an error; a panic has none. -/
def Fault.text : Fault → String
  | .error message => message
  | .panic => ""

/-- An engine with a parser. -/
def Engine.parsing (E : Engine) (P : SqlParser) : Engine :=
  { E with
    wal := { E.wal with parseSql := fun text => (P.parseSql text).mapError Fault.text }
    bindParameters := fun statement values =>
      (Sql.bindParameters statement values).mapError Fault.text }

theorem parseSql_parsing (E : Engine) (P : SqlParser) (text : String) :
    (E.parsing P).wal.parseSql text = (P.parseSql text).mapError Fault.text := by
  rw [Engine.parsing]

theorem bindParameters_parsing (E : Engine) (P : SqlParser) (statement : Statement)
    (values : List Value) : (E.parsing P).bindParameters statement values =
      (bindParameters statement values).mapError Fault.text := by
  rw [Engine.parsing]

theorem parsesWith_parsing (E : Engine) (P : SqlParser) : ParsesWith (E.parsing P) P := by
  refine ⟨?_, ?_⟩
  · intro text statement h
    rw [parseSql_parsing] at h
    exact Result.mapError_eq_ok.mp h
  · intro statement bound values h
    rw [bindParameters_parsing] at h
    exact Result.mapError_eq_ok.mp h

/-- The prepared statements of all sessions are formed. -/
def Database.FormedNames (db : Database) : Prop :=
  ∀ id name prepared, (db.sessions id).names.prepared.lookup name = some prepared →
    prepared.statement.Formed

/-- A prepared statement that is passed to a call has been made by `prepare`. -/
def Database.Call.FromPrepare (E : Engine) : Database.Call → Prop
  | .executePrepared _ prepared _ => ∃ (db : Database) (sql : String),
    db.prepare E sql = .ok prepared
  | _ => True

/-- The prepared statements that a command leaves in its session are formed. -/
def Database.Command.FormedNames : Database.Command → Prop
  | .answer _ names => ∀ name prepared, names.prepared.lookup name = some prepared →
    prepared.statement.Formed
  | _ => True

section Resolving

variable {E : Engine} {G : Grammar}
  {parse : List Char → Except String (List (SqlStatement (Ast.Clause Ast.Definition)))}
  {db : Database} {sql : String} {statement : Statement}

/-- The optimizer leaves definitions as they are. -/
theorem formed_optimizeStatement {H : Host} {optimized : Statement} (hformed : statement.Formed)
    (h : optimizeStatement H statement = .ok optimized) : optimized.Formed := by
  cases statement with
  | query query =>
    obtain ⟨query, -, h⟩ := Result.bind_eq_ok.mp h
    obtain rfl := Except.ok.inj h
    exact ⟨trivial, trivial, trivial⟩
  | insert tableName columns source onDuplicate =>
    obtain ⟨source, -, h⟩ := Result.bind_eq_ok.mp h
    obtain ⟨onDuplicate, -, h⟩ := Result.bind_eq_ok.mp h
    obtain rfl := Except.ok.inj h
    exact ⟨trivial, trivial, trivial⟩
  | update tableName assignments selection =>
    obtain ⟨assignments, -, h⟩ := Result.bind_eq_ok.mp h
    obtain ⟨selection, -, h⟩ := Result.bind_eq_ok.mp h
    obtain rfl := Except.ok.inj h
    exact ⟨trivial, trivial, trivial⟩
  | delete tableName selection =>
    obtain ⟨selection, -, h⟩ := Result.bind_eq_ok.mp h
    obtain rfl := Except.ok.inj h
    exact ⟨trivial, trivial, trivial⟩
  | explain statement =>
    obtain ⟨statement, -, h⟩ := Result.bind_eq_ok.mp h
    obtain rfl := Except.ok.inj h
    exact ⟨trivial, trivial, trivial⟩
  | _ =>
    obtain rfl := Except.ok.inj h
    exact hformed

theorem formed_parseCached (hparses : ParsesWith E (definitionParser G parse))
    (h : db.parseCached E sql = .ok statement) : statement.Formed := by
  rw [Database.parseCached] at h
  split at h
  · cases h
  · split at h
    · cases h
    · rename_i parsed hparsed
      exact formed_optimizeStatement (parseSql_formed (hparses.parse hparsed)) h

theorem formed_prepare (hparses : ParsesWith E (definitionParser G parse))
    {prepared : PreparedStatement} (h : db.prepare E sql = .ok prepared) :
    prepared.statement.Formed := by
  rw [Database.prepare] at h
  split at h
  · cases h
  · rename_i statement hstatement
    split at h
    · cases h
    · obtain rfl := Except.ok.inj h
      exact formed_parseCached hparses hstatement

/-- **A prepared statement** is run as one that is formed, whether it is parsed again or not. -/
theorem formed_bindPrepared (hparses : ParsesWith E (definitionParser G parse))
    {prepared : PreparedStatement} {parameters : List Value} (hprepared : prepared.statement.Formed)
    (h : db.bindPrepared E prepared parameters = .ok statement) : statement.Formed := by
  have hrest : ∀ {unbound bound : Statement}, unbound.Formed →
      E.bindParameters unbound parameters = .ok bound →
      optimizeStatement E.host bound = .ok statement → statement.Formed := by
    intro unbound bound hformed hbound hoptimize
    exact formed_optimizeStatement (formed_bindParameters hformed (hparses.bind hbound)) hoptimize
  rw [Database.bindPrepared] at h
  split at h
  · cases h
  · split at h
    · simp only [Result.ok_bind] at h
      split at h
      · cases h
      · rename_i bound hbound
        exact hrest hprepared hbound h
    · obtain ⟨parsed, hparsed, h⟩ := Result.bind_eq_ok.mp h
      simp only at h
      split at h
      · cases h
      · rename_i bound hbound
        exact hrest (formed_parseCached hparses hparsed) hbound h

theorem resolvePrepared_formed (hparses : ParsesWith E (definitionParser G parse))
    {names : SessionNames} {prepared : PreparedStatement} {parameters : List Value}
    (hnames : ∀ name prepared, names.prepared.lookup name = some prepared →
      prepared.statement.Formed) (hprepared : prepared.statement.Formed) (id : Nat) :
    (Database.Request.session id (db.resolvePrepared E names prepared parameters)).Runs
        Statement.Formed ∧ (db.resolvePrepared E names prepared parameters).FormedNames := by
  rw [Database.resolvePrepared]
  split
  · exact ⟨trivial, hnames⟩
  · rename_i statement hstatement
    exact ⟨formed_bindPrepared hparses hprepared hstatement, trivial⟩

/-- **A text** asks for a formed statement, and leaves formed statements prepared. -/
theorem resolveText_formed (hparses : ParsesWith E (definitionParser G parse))
    {names : SessionNames} (hnames : ∀ name prepared, names.prepared.lookup name = some prepared →
      prepared.statement.Formed) (id : Nat) :
    (Database.Request.session id (db.resolveText E names sql)).Runs Statement.Formed ∧
      (db.resolveText E names sql).FormedNames := by
  rw [Database.resolveText]
  split
  · exact ⟨trivial, hnames⟩
  · exact ⟨trivial, trivial⟩
  · exact ⟨trivial, trivial⟩
  · exact ⟨trivial, trivial⟩
  · exact ⟨trivial, hnames⟩
  · split
    · exact ⟨trivial, hnames⟩
    · split
      · exact ⟨trivial, hnames⟩
      · rename_i name _ _ _ _ _ _ prepared hprepared
        refine ⟨trivial, fun other found hfound => ?_⟩
        by_cases hother : other = name
        · subst hother
          rw [AList.lookup_insert] at hfound
          obtain rfl := Option.some.inj hfound
          exact formed_prepare hparses hprepared
        · rw [AList.lookup_insert_ne hother] at hfound
          exact hnames other found hfound
  · split
    · exact ⟨trivial, hnames⟩
    · rename_i prepared hlookup
      split
      · exact ⟨trivial, hnames⟩
      · exact resolvePrepared_formed hparses hnames (hnames _ prepared hlookup) id
  · split
    · exact ⟨trivial, hnames⟩
    · rename_i name _ _ _ _
      refine ⟨trivial, fun other found hfound => ?_⟩
      by_cases hother : other = name
      · subst hother
        rw [AList.lookup_erase] at hfound
        cases hfound
      · rw [AList.lookup_erase_ne hother] at hfound
        exact hnames other found hfound
  · rename_i statement _ _ _ _ _ _ _ hstatement
    exact ⟨formed_parseCached hparses hstatement, trivial⟩

/-- The prepared statements that a request leaves are formed. -/
def Database.Request.FormedNames : Database.Request → Prop
  | .session _ command => command.FormedNames
  | _ => True

/-- **A call asks for nothing but formed statements.** -/
theorem resolve_formed (hparses : ParsesWith E (definitionParser G parse))
    (hnames : db.FormedNames) {call : Database.Call} (hcall : call.FromPrepare E) :
    (db.resolve E call).Runs Statement.Formed ∧ (db.resolve E call).FormedNames := by
  cases call with
  | execute sql =>
    rw [Database.resolve]
    split
    · exact ⟨trivial, trivial⟩
    · rename_i statement hstatement
      split
      · exact ⟨trivial, trivial⟩
      · split
        · exact ⟨trivial, trivial⟩
        · exact ⟨formed_parseCached hparses hstatement, trivial⟩
  | sessionExecute id sql => exact resolveText_formed hparses (hnames id) id
  | executePrepared id prepared parameters =>
    obtain ⟨before, sql, hprepare⟩ := hcall
    exact resolvePrepared_formed hparses (hnames id) (formed_prepare hparses hprepare) id
  | begin id => exact ⟨trivial, trivial⟩
  | commit id => exact ⟨trivial, trivial⟩
  | rollback id => exact ⟨trivial, trivial⟩
  | save => exact ⟨trivial, trivial⟩

end Resolving

/-! ## Names that stay -/

/-- No session has other variables or other prepared statements. -/
def Database.SameNames (db next : Database) : Prop :=
  ∀ id, (next.sessions id).names = (db.sessions id).names

section Names

variable {E : Engine} {db next : Database} {io : Io} {id : Nat} {durable : DurableStatement}
  {statement : Statement}

theorem Database.SameNames.of_sessions (h : next.sessions = db.sessions) : db.SameNames next := by
  intro id
  rw [h]

/-- A session of a database whose sessions are those of another. -/
theorem Database.SameNames.setSession {session : Session} (h : next.sessions = db.sessions)
    (hnames : session.names = (db.sessions id).names) :
    db.SameNames (next.setSession id session) := by
  intro other
  by_cases hother : other = id
  · subst hother
    rw [Database.sessions_setSession_self]
    exact hnames
  · rw [Database.sessions_setSession_of_ne next hother, h]

theorem sessions_logTransaction {base commit : Nat} {statements : List DurableStatement}
    {error : Option String}
    (h : db.logTransaction E io base commit statements = (next, error)) :
    next.sessions = db.sessions := by
  rw [Database.logTransaction] at h
  split at h
  · cases hlog : io.log with
    | none =>
      rw [hlog] at h
      obtain ⟨rfl, -⟩ := Prod.mk.inj h
      rfl
    | some failure =>
      rw [hlog] at h
      obtain ⟨rfl, -⟩ := Prod.mk.inj h
      rfl
  · obtain ⟨rfl, -⟩ := Prod.mk.inj h
    rfl

theorem sessions_save {error : Option String} (h : db.save E io = (next, error)) :
    next.sessions = db.sessions := by
  rw [Database.save] at h
  split at h
  · split at h
    · obtain ⟨rfl, -⟩ := Prod.mk.inj h
      rfl
    · obtain ⟨rfl, -⟩ := Prod.mk.inj h
      rfl
  · obtain ⟨rfl, -⟩ := Prod.mk.inj h
    rfl

theorem sessions_executeAutocommit :
    (db.executeAutocommit E io durable statement).2.sessions = db.sessions := by
  rw [Database.executeAutocommit]
  split
  · rfl
  · split
    · rfl
    · rfl
    · split
      · simp only
        split
        · rename_i hlog
          exact sessions_logTransaction hlog
        · rename_i logged hlog
          have hsessions := sessions_logTransaction hlog
          split
          · split
            · rename_i hsave
              exact (sessions_save hsave).trans hsessions
            · rename_i hsave
              exact (sessions_save hsave).trans hsessions
          · exact hsessions
      · rfl

theorem sameNames_beginTransaction : db.SameNames (db.beginTransaction id).2 := by
  rw [Database.beginTransaction]
  split
  · exact .of_sessions rfl
  · split
    · exact .setSession rfl rfl
    · exact .setSession rfl rfl

theorem sameNames_commitTransaction : db.SameNames (db.commitTransaction E io id).2 := by
  rw [Database.commitTransaction]
  simp only
  split
  · exact .of_sessions rfl
  · split
    · exact .setSession rfl rfl
    · split
      · exact .setSession rfl rfl
      · split
        · exact .setSession rfl rfl
        · split
          · rename_i hlog
            exact .setSession (sessions_logTransaction hlog) rfl
          · rename_i logged hlog
            have hsessions : { logged with catalog := _ }.sessions = db.sessions :=
              sessions_logTransaction hlog
            exact .setSession hsessions rfl

theorem sameNames_runStatement : db.SameNames (db.runStatement E io id durable statement).2 := by
  rw [Database.runStatement]
  split
  · exact .of_sessions sessions_executeAutocommit
  · split
    · exact .of_sessions rfl
    · exact .setSession rfl rfl
    · split
      · exact .setSession rfl rfl
      · exact .of_sessions rfl

/-- **A request** leaves the names of all sessions, but for what it answers itself. -/
theorem formedNames_serve (h : db.FormedNames) {request : Database.Request}
    (hrequest : request.FormedNames) : (db.serve E io request).2.FormedNames := by
  have hsame : ∀ {next : Database}, db.SameNames next → next.FormedNames := by
    intro next hnext id name prepared hprepared
    rw [hnext id] at hprepared
    exact h id name prepared hprepared
  cases request with
  | autocommit durable statement => exact hsame (.of_sessions sessions_executeAutocommit)
  | answer reply => exact h
  | save =>
    rw [Database.serve]
    split
    · exact h
    · split
      · rename_i hsave
        exact hsame (.of_sessions (sessions_save hsave))
      · rename_i hsave
        exact hsame (.of_sessions (sessions_save hsave))
  | session id command =>
    rw [Database.serve]
    cases command with
    | answer reply names =>
      rw [Database.perform]
      intro other
      by_cases hother : other = id
      · subst hother
        rw [Database.sessions_setSession_self]
        exact hrequest
      · rw [Database.sessions_setSession_of_ne db hother]
        exact h other
    | begin =>
      rw [Database.perform]
      split
      · exact h
      · exact hsame sameNames_beginTransaction
    | commit =>
      rw [Database.perform]
      split
      · exact h
      · exact hsame sameNames_commitTransaction
    | rollback =>
      rw [Database.perform]
      split
      · exact h
      · exact hsame (.setSession rfl rfl)
    | run durable statement =>
      rw [Database.perform]
      split
      · exact h
      · exact hsame sameNames_runStatement

end Names

/-! ## Runs of calls -/

/-- A database after calls, in the order in which they are made. -/
def Database.calls (E : Engine) (db : Database) : List (Database.Call × Io) → Database
  | [] => db
  | (call, io) :: rest => Database.calls E (db.step E call io).2 rest

/-- The rows that the calls insert, those of transactions that never commit included. -/
def Database.rowsInsertedBy (E : Engine) (db : Database) : List (Database.Call × Io) → Nat
  | [] => 0
  | (call, io) :: rest =>
    db.insertedBy E (db.resolve E call) + Database.rowsInsertedBy E (db.step E call io).2 rest

/-- The catalogs that formed statements lead to, with at most so many rows inserted. -/
def Founded (H : Host) (tables : Tables) (total : Nat) : Prop :=
  ∃ inserted ≤ total, Persisted H tables inserted ∧ Reachable H tables inserted ∧ Built H tables

/-- A catalog whose schemas are settled, whose rows are what its declarations say, and from
whose data a load makes the same schemas and rows. -/
structure Tables.WellKept (H : Host) (tables : Tables) : Prop where
  standing : tables.Standing
  intact : tables.Intact H
  reload : tables.SameView (migrateTables H tables.owned)

section Calls

variable {E : Engine} {G : Grammar}
  {parse : List Char → Except String (List (SqlStatement (Ast.Clause Ast.Definition)))}
  {db : Database} {total : Nat}

/-- **Formed statements keep a catalog founded.** -/
theorem founded_kept (H : Host) : KeptBy H Statement.Formed (Founded H) where
  mono h hle := by
    obtain ⟨inserted, hinserted, hfounded⟩ := h
    exact ⟨inserted, hinserted.trans hle, hfounded⟩
  configure rate h := by
    obtain ⟨inserted, hinserted, hpersisted, hreach, hbuilt⟩ := h
    exact ⟨inserted, hinserted, hpersisted.configure rate, hreach.configure rate,
      hbuilt.configure rate⟩
  step h hformed hexecute := by
    obtain ⟨inserted, hinserted, hpersisted, hreach, hbuilt⟩ := h
    exact ⟨_, Nat.add_le_add_right hinserted _,
      hpersisted.step hformed.parsed hformed.keyed hexecute, hreach.step hformed.parsed hexecute,
      hbuilt.step hformed.parsed hformed.written hexecute⟩

theorem Founded.wellKept {H : Host} {tables : Tables} (h : Founded H tables total)
    (hbound : total < maxRowId) : tables.WellKept H := by
  obtain ⟨inserted, hinserted, hpersisted, hreach, hbuilt⟩ := h
  have hbound := Nat.lt_of_le_of_lt hinserted hbound
  exact ⟨standing_of_built hbuilt, intact_of_reachable hreach hbound,
    (loadable_of_persisted hpersisted hbound).sameView_reload⟩

/-- **A run of calls** leaves every prepared statement formed. -/
theorem formedNames_calls (hparses : ParsesWith E (definitionParser G parse))
    {calls : List (Database.Call × Io)} (hnames : db.FormedNames)
    (hprepared : ∀ entry ∈ calls, entry.1.FromPrepare E) : (db.calls E calls).FormedNames := by
  induction calls generalizing db with
  | nil => exact hnames
  | cons first calls ih =>
    obtain ⟨call, io⟩ := first
    have hleft := (resolve_formed hparses hnames (hprepared _ List.mem_cons_self)).2
    exact ih (formedNames_serve hnames hleft)
      fun entry hmem => hprepared entry (List.mem_cons_of_mem _ hmem)

/-- **A run of calls** keeps every catalog founded. -/
theorem Throughout.calls (hparses : ParsesWith E (definitionParser G parse))
    {calls : List (Database.Call × Io)} (h : Throughout (Founded E.host) db total)
    (hnames : db.FormedNames) (hprepared : ∀ entry ∈ calls, entry.1.FromPrepare E) :
    Throughout (Founded E.host) (db.calls E calls) (total + db.rowsInsertedBy E calls) := by
  induction calls generalizing db total with
  | nil => exact h
  | cons first calls ih =>
    obtain ⟨call, io⟩ := first
    obtain ⟨hruns, hleft⟩ := resolve_formed hparses hnames (hprepared _ List.mem_cons_self)
    rw [Database.rowsInsertedBy, ← Nat.add_assoc]
    exact ih (h.serve (founded_kept E.host) hruns) (formedNames_serve hnames hleft)
      fun entry hmem => hprepared entry (List.mem_cons_of_mem _ hmem)

end Calls

/-- **Whatever texts clients send.**  Start from an empty catalog, in memory or on any
files, and let any number of clients call: with SQL texts of any content, inside and outside
of sessions, with PREPARE and EXECUTE, with prepared statements bound to values, with
commits, rollbacks and checkpoints, while files fail as they like.  Whatever `sqlparser`
makes of the texts: the statement that each call has the executor run is formed.  And while
fewer than `2 ^ 64 - 1` rows are inserted, the published catalog and that of every open
transaction have settled schemas with an index behind every key flag and a target behind
every foreign key, rows that their declarations allow, and the schemas and rows that a load
makes of their data. -/
theorem texts_leave_sound_catalogs (E : Engine) (G : Grammar)
    (parse : List Char → Except String (List (SqlStatement (Ast.Clause Ast.Definition))))
    (hparses : ParsesWith E (definitionParser G parse)) (start : Database)
    (calls : List (Database.Call × Io)) (hempty : start.catalog.tables = ∅)
    (hfresh : ∀ id, start.sessions id = {})
    (hprepared : ∀ entry ∈ calls, entry.1.FromPrepare E)
    (hrows : start.rowsInsertedBy E calls < 2 ^ 64 - 1) :
    (∀ before call io after, calls = before ++ (call, io) :: after →
      ((start.calls E before).resolve E call).Runs Statement.Formed) ∧
    (start.calls E calls).catalog.tables.WellKept E.host ∧
      ∀ id state, ((start.calls E calls).sessions id).transaction = some state →
        state.catalog.tables.WellKept E.host := by
  have hstart : Throughout (Founded E.host) start 0 := by
    refine ⟨⟨0, Nat.le_refl 0, ?_⟩, fun id state hstate => ?_⟩
    · rw [hempty]
      exact ⟨.empty, .empty, .empty⟩
    · rw [hfresh id] at hstate
      cases hstate
  have hnames : start.FormedNames := by
    intro id name prepared hlookup
    rw [hfresh id] at hlookup
    cases hlookup
  have hfounded := hstart.calls hparses hnames hprepared
  rw [Nat.zero_add] at hfounded
  refine ⟨fun before call io after hcalls => ?_, hfounded.published.wellKept hrows,
    fun id state hstate => (hfounded.opened id state hstate).wellKept hrows⟩
  have hbefore : (start.calls E before).FormedNames :=
    formedNames_calls hparses hnames fun entry hmem =>
      hprepared entry (hcalls ▸ List.mem_append_left _ hmem)
  have hcall : call.FromPrepare E :=
    hprepared (call, io) (hcalls ▸ List.mem_append_right _ List.mem_cons_self)
  exact (resolve_formed hparses hbefore hcall).1

/-! ## A prepared INSERT -/

/-- `CREATE TABLE c (x INTEGER PRIMARY KEY CHECK (x > 0))`. -/
def sampleCreate : Ast.CreateTable where
  name := ["c"]
  columns := [⟨"x", "INTEGER", [⟨none, .unique true⟩,
    ⟨none, .check (.binaryOp (.identifier "x") .gt (.value (.number "0")))⟩]⟩]
  constraints := []
  ifNotExists := false
  query := false
  like := false
  clone := false

/-- `INSERT INTO c VALUES (?)`. -/
def sampleInsert : Ast.Insert where
  tableName := ["c"]
  columns := []
  source := some (.values none [[.value .placeholder]] none none false false false)
  on := none
  ignore := false
  replaceInto := false

/-- What `sqlparser` makes of these two texts. -/
def sampleParse (sql : List Char) :
    Except String (List (SqlStatement (Ast.Clause Ast.Definition))) :=
  if sql = "CREATE TABLE c (x INTEGER PRIMARY KEY CHECK (x > 0))".toList then
    .ok [.clause (.other (.createTable sampleCreate))]
  else if sql = "INSERT INTO c VALUES (?)".toList then
    .ok [.clause (.other (.insert sampleInsert))]
  else .error "sql parser error: Expected: an SQL statement"

/-- An engine in memory that parses with `parse_sql`. -/
def parsingEngine : Engine := plainEngine.parsing (definitionParser wholeNumbers sampleParse)

/-- A table is created, an INSERT prepared and run twice in a transaction: with 7, and with
0, which the CHECK refuses. -/
def preparedCalls : List (Database.Call × Io) :=
  [(.execute "CREATE TABLE c (x INTEGER PRIMARY KEY CHECK (x > 0));", ⟨0, none, none⟩),
    (.sessionExecute 1 "PREPARE s FROM 'INSERT INTO c VALUES (?)'", ⟨0, none, none⟩),
    (.sessionExecute 1 "SET @v = 7", ⟨0, none, none⟩), (.begin 1, ⟨0, none, none⟩),
    (.sessionExecute 1 "EXECUTE s USING @v", ⟨0, none, none⟩),
    (.sessionExecute 1 "SET @v = 0", ⟨0, none, none⟩),
    (.sessionExecute 1 "EXECUTE s USING @v", ⟨0, none, none⟩), (.commit 1, ⟨0, none, none⟩)]

theorem prepared_calls_leave_sound_catalog :
    (((Database.inMemory ⟨0, 0, ∅⟩).calls parsingEngine preparedCalls).catalog.tables.lookup
        "c").map Table.rows = some [[.integer 7]] ∧
      ((Database.inMemory ⟨0, 0, ∅⟩).calls parsingEngine
        preparedCalls).catalog.tables.WellKept parsingEngine.host := by
  have hparses := parsesWith_parsing plainEngine (definitionParser wholeNumbers sampleParse)
  have hprepared : ∀ entry ∈ preparedCalls, entry.1.FromPrepare parsingEngine := by
    simp [preparedCalls, Database.Call.FromPrepare]
  have hrows : (Database.inMemory ⟨0, 0, ∅⟩).rowsInsertedBy parsingEngine preparedCalls <
      2 ^ 64 - 1 := by
    decide +kernel
  refine ⟨by decide +kernel, ?_⟩
  exact (texts_leave_sound_catalogs parsingEngine wholeNumbers sampleParse hparses
    (Database.inMemory ⟨0, 0, ∅⟩) preparedCalls rfl (fun _ => rfl) hprepared hrows).2.1

end Sql
end RustyDB
