import Mathlib
import RustyDB.Sql.Database

/-!
# Transactions are serializable

Sessions work on private copies of the catalog, and COMMIT publishes a copy only if the
version has not moved since BEGIN.  What was committed is seen from outside: which calls
were answered with a result, and which transactions with a successful COMMIT.

* `Executed`, `Client`, `Client.observe` — the statements that succeeded, in the order
  of their commits.
* `runUnit`, `serialRun` — the same statements, one transaction after another.
* `InStep`, `Tracks` — the invariant: an open transaction whose version is the
  published one is its statements, run on the published tables.
* `transactions_serializable` — **the published tables and all results are those of the
  serial run in commit order, and the version counts the units that write.**
-/

namespace RustyDB
namespace Sql

/-! ## What the clients see -/

/-- A statement and the result it was answered with. -/
abbrev Executed := Statement × ExecutionResult

/-- What has been committed, unit by unit, and what the open transactions have done. -/
structure Client where
  committed : List (List Executed) := []
  opened : Nat → List Executed := fun _ => []

/-- Some statement of a unit writes. -/
def writes (unit : List Executed) : Bool := unit.any fun executed => isWriteStatement executed.1

namespace Client

/-- A statement outside a transaction: a unit of its own if it writes. -/
def autocommitted (client : Client) (statement : Statement) (result : ExecutionResult) : Client :=
  if isWriteStatement statement then
    { client with committed := client.committed ++ [[(statement, result)]] }
  else client

/-- A statement inside a transaction. -/
def executed (client : Client) (id : Nat) (statement : Statement) (result : ExecutionResult) :
    Client :=
  { client with
    opened := Function.update client.opened id (client.opened id ++ [(statement, result)]) }

/-- A statement of a session. -/
def ran (before : Database) (client : Client) (id : Nat) (statement : Statement)
    (result : ExecutionResult) : Client :=
  match (before.sessions id).transaction with
  | none => client.autocommitted statement result
  | some _ => client.executed id statement result

/-- What a successful COMMIT ends. -/
def closed (before : Database) (client : Client) (id : Nat) : Client :=
  match (before.sessions id).transaction with
  | none => client
  | some _ => { client with committed := client.committed ++ [client.opened id] }

/-- A request and its answer. -/
def observe (before : Database) (client : Client) : Database.Request → Reply → Client
  | .autocommit _ statement, .done result => client.autocommitted statement result
  | .autocommit _ statement, .unsaved result _ => client.autocommitted statement result
  | .session id (.run _ statement), .done result => client.ran before id statement result
  | .session id (.run _ statement), .unsaved result _ => client.ran before id statement result
  | .session id .begin, .done _ => { client with opened := Function.update client.opened id [] }
  | .session id .commit, .done _ => client.closed before id
  | _, _ => client

end Client

/-- A database and its clients after requests, in the order in which they are served. -/
def Database.run (E : Engine) (db : Database) (client : Client) :
    List (Database.Request × Io) → Database × Client
  | [] => (db, client)
  | (request, io) :: rest =>
    let (reply, next) := db.serve E io request
    Database.run E next (client.observe db request reply) rest

/-! ## Serial runs -/

/-- Statements one after another, with their results. -/
def runUnit (H : Host) (tables : Tables) :
    List Statement → Except Fault (List ExecutionResult × Tables)
  | [] => .ok ([], tables)
  | statement :: rest => do
    let (result, next) ← executeCatalog H tables statement
    let (results, final) ← runUnit H next rest
    pure (result :: results, final)

/-- What the catalog becomes when a unit is committed. -/
def commitUnit (E : Engine) (unit : List Statement) (tables : Tables) : Tables :=
  if unit.any isWriteStatement then
    tables.configureBloomFalsePositiveRate E.host E.bloomFalsePositiveRate
  else tables

/-- Units one after another, with the results of their statements. -/
def serialRun (E : Engine) (tables : Tables) :
    List (List Statement) → Except Fault (List (List ExecutionResult) × Tables)
  | [] => .ok ([], tables)
  | unit :: rest => do
    let (results, next) ← runUnit E.host tables unit
    let (others, final) ← serialRun E (commitUnit E unit next) rest
    pure (results :: others, final)

/-- A unit, run on `tables`, answers as it did and leads to `tables'`. -/
def UnitRuns (H : Host) (tables : Tables) (unit : List Executed) (tables' : Tables) : Prop :=
  runUnit H tables (unit.map Prod.fst) = .ok (unit.map Prod.snd, tables')

/-- Units, run on `tables` one after another, answer as they did and lead to `tables'`. -/
def UnitsRun (E : Engine) (tables : Tables) (units : List (List Executed)) (tables' : Tables) :
    Prop :=
  serialRun E tables (units.map (·.map Prod.fst)) = .ok (units.map (·.map Prod.snd), tables')

section Runs

variable {H : Host} {E : Engine} {tables tables' tables'' : Tables} {unit : List Executed}
  {units : List (List Executed)}

theorem runUnit_append {statements : List Statement} {results : List ExecutionResult}
    (h : runUnit H tables statements = .ok (results, tables')) {statement : Statement}
    {result : ExecutionResult}
    (hexecute : executeCatalog H tables' statement = .ok (result, tables'')) :
    runUnit H tables (statements ++ [statement]) = .ok (results ++ [result], tables'') := by
  induction statements generalizing tables results with
  | nil =>
    simp only [runUnit, Except.ok.injEq, Prod.mk.injEq] at h
    obtain ⟨rfl, rfl⟩ := h
    simp only [List.nil_append, runUnit, hexecute, Result.ok_bind, Result.pure_eq_ok]
  | cons first statements ih =>
    obtain ⟨⟨firstResult, next⟩, hfirst, h⟩ := Result.bind_eq_ok.mp h
    obtain ⟨⟨others, final⟩, hrest, h⟩ := Result.bind_eq_ok.mp h
    simp only [Result.pure_eq_ok, Except.ok.injEq, Prod.mk.injEq] at h
    obtain ⟨rfl, rfl⟩ := h
    simp only [List.cons_append, runUnit, hfirst, Result.ok_bind, ih hrest, Result.pure_eq_ok]

theorem serialRun_append {before : List (List Statement)} {results : List (List ExecutionResult)}
    (h : serialRun E tables before = .ok (results, tables')) {statements : List Statement}
    {last : List ExecutionResult}
    (hunit : runUnit E.host tables' statements = .ok (last, tables'')) :
    serialRun E tables (before ++ [statements]) =
      .ok (results ++ [last], commitUnit E statements tables'') := by
  induction before generalizing tables results with
  | nil =>
    simp only [serialRun, Except.ok.injEq, Prod.mk.injEq] at h
    obtain ⟨rfl, rfl⟩ := h
    simp only [List.nil_append, serialRun, hunit, Result.ok_bind, Result.pure_eq_ok]
  | cons first before ih =>
    obtain ⟨⟨firstResults, next⟩, hfirst, h⟩ := Result.bind_eq_ok.mp h
    obtain ⟨⟨others, final⟩, hrest, h⟩ := Result.bind_eq_ok.mp h
    simp only [Result.pure_eq_ok, Except.ok.injEq, Prod.mk.injEq] at h
    obtain ⟨rfl, rfl⟩ := h
    simp only [List.cons_append, serialRun, hfirst, Result.ok_bind, ih hrest, Result.pure_eq_ok]

theorem unitRuns_nil : UnitRuns H tables [] tables := rfl

theorem UnitRuns.append (h : UnitRuns H tables unit tables') {statement : Statement}
    {result : ExecutionResult}
    (hexecute : executeCatalog H tables' statement = .ok (result, tables'')) :
    UnitRuns H tables (unit ++ [(statement, result)]) tables'' := by
  simpa [UnitRuns] using runUnit_append h hexecute

/-- A read leaves the tables alone. -/
theorem executeCatalog_read {statement : Statement} {result : ExecutionResult}
    (hread : isWriteStatement statement = false)
    (hexecute : executeCatalog H tables statement = .ok (result, tables')) : tables' = tables := by
  rw [executeCatalog, hread] at hexecute
  exact executeStatement_read hread hexecute

theorem UnitRuns.eq_of_read (h : UnitRuns H tables unit tables') (hread : writes unit = false) :
    tables' = tables := by
  induction unit generalizing tables with
  | nil =>
    simp only [UnitRuns, List.map_nil, runUnit, Except.ok.injEq, Prod.mk.injEq, true_and] at h
    exact h.symm
  | cons executed unit ih =>
    simp only [writes, List.any_cons, Bool.or_eq_false_iff] at hread
    simp only [UnitRuns, List.map_cons, runUnit] at h
    obtain ⟨⟨first, next⟩, hfirst, h⟩ := Result.bind_eq_ok.mp h
    obtain ⟨⟨results, final⟩, hrest, h⟩ := Result.bind_eq_ok.mp h
    simp only [Result.pure_eq_ok, Except.ok.injEq, Prod.mk.injEq, List.cons.injEq] at h
    obtain ⟨⟨rfl, rfl⟩, rfl⟩ := h
    rw [ih hrest hread.2, executeCatalog_read hread.1 hfirst]

theorem any_isWriteStatement (unit : List Executed) :
    (unit.map Prod.fst).any isWriteStatement = writes unit := by
  simp [writes, List.any_map, Function.comp_def]

/-- One more unit is committed. -/
theorem UnitsRun.append (h : UnitsRun E tables units tables')
    (hunit : UnitRuns E.host tables' unit tables'') :
    UnitsRun E tables (units ++ [unit]) (commitUnit E (unit.map Prod.fst) tables'') := by
  simpa [UnitsRun] using serialRun_append h hunit

end Runs

/-! ## What one request does -/

/-- The published catalog and the files are the same, and no transaction is new. -/
structure Database.Keeps (db db' : Database) : Prop where
  catalog : db'.catalog = db.catalog
  autoSave : db'.autoSave = db.autoSave
  wal : db'.wal = db.wal
  disk : db'.disk = db.disk
  transaction : ∀ id state, (db'.sessions id).transaction = some state →
    (db.sessions id).transaction = some state

/-- The transaction that BEGIN opens. -/
def TransactionState.fresh (db : Database) : TransactionState where
  baseVersion := db.catalog.version
  catalog := db.catalog
  statements := []
  schemaChanged := false

/-- A transaction after one more statement. -/
def TransactionState.after (state : TransactionState) (durable : DurableStatement)
    (statement : Statement) (tables : Tables) : TransactionState where
  baseVersion := state.baseVersion
  catalog := { state.catalog with tables := tables }
  statements :=
    if isWriteStatement statement then state.statements ++ [durable] else state.statements
  schemaChanged := state.schemaChanged || isSchemaStatement statement

/-- The database after `log_transaction`. -/
def Database.logged (E : Engine) (db : Database) (io : Io) (statements : List DurableStatement) :
    Database :=
  (db.logTransaction E io db.catalog.version (saturatingSucc db.catalog.version) statements).1

/-- The error of `log_transaction`. -/
def Database.logError (E : Engine) (db : Database) (io : Io)
    (statements : List DurableStatement) : Option String :=
  (db.logTransaction E io db.catalog.version (saturatingSucc db.catalog.version) statements).2

/-- Everything that a request can do to the database and to what its clients know, up to
a checkpoint. -/
inductive Database.Step (E : Engine) (io : Io) (db : Database) (client : Client)
    (request : Database.Request) : Database → Client → Prop
  | still {db' : Database} (hkeeps : db.Keeps db') : Step E io db client request db' client
  | begun {id : Nat} {session : Session} (hsession : session.transaction = some (.fresh db)) :
      Step E io db client request (db.setSession id session)
        { client with opened := Function.update client.opened id [] }
  | closed {id : Nat} {session : Session} {state : TransactionState}
      (hstate : (db.sessions id).transaction = some state)
      (hversion : state.baseVersion = db.catalog.version) (hempty : state.statements = [])
      (hsession : session.transaction = none) :
      Step E io db client request (db.setSession id session)
        { client with committed := client.committed ++ [client.opened id] }
  | executed {id : Nat} {session : Session} {state : TransactionState}
      {durable : DurableStatement} {statement : Statement} {result : ExecutionResult}
      {tables : Tables} (hstate : (db.sessions id).transaction = some state)
      (htarget : db.target request = some (state.catalog.tables, durable, statement))
      (hexecute : executeCatalog E.host state.catalog.tables statement = .ok (result, tables))
      (hsession : session.transaction = some (state.after durable statement tables)) :
      Step E io db client request (db.setSession id session)
        (client.executed id statement result)
  | published {durable : DurableStatement} {statement : Statement} {result : ExecutionResult}
      {tables : Tables} (hwrite : isWriteStatement statement = true)
      (htarget : db.target request = some (db.catalog.tables, durable, statement))
      (hexecute : executeCatalog E.host db.catalog.tables statement = .ok (result, tables))
      (hpending : db.pending E request = some [durable])
      (hlog : db.logError E io [durable] = none) :
      Step E io db client request
        { db.logged E io [durable] with catalog := db.working E statement tables }
        { client with committed := client.committed ++ [[(statement, result)]] }
  | committed {id : Nat} {session : Session} {state : TransactionState}
      (hstate : (db.sessions id).transaction = some state)
      (hversion : state.baseVersion = db.catalog.version) (hne : state.statements ≠ [])
      (hpending : db.pending E request = some state.statements)
      (hlog : db.logError E io state.statements = none) (hsession : session.transaction = none) :
      Step E io db client request
        ({ db.logged E io state.statements with
          catalog := (db.committing E state).catalog }.setSession
          id session)
        { client with committed := client.committed ++ [client.opened id] }
  | refused {durable : DurableStatement} {error : String}
      (hpending : db.pending E request = some [durable])
      (hlog : db.logError E io [durable] = some error) :
      Step E io db client request (db.logged E io [durable]) client
  | retained {id : Nat} {session : Session} {state : TransactionState} {error : String}
      (hstate : (db.sessions id).transaction = some state)
      (hversion : state.baseVersion = db.catalog.version)
      (hpending : db.pending E request = some state.statements)
      (hlog : db.logError E io state.statements = some error)
      (hsession : session.transaction = some (db.committing E state)) :
      Step E io db client request ((db.logged E io state.statements).setSession id session) client

/-- A step, and the checkpoint that may come after it. -/
def Database.Serves (E : Engine) (io : Io) (db : Database) (client : Client)
    (request : Database.Request) (db' : Database) (client' : Client) : Prop :=
  ∃ mid, db.Step E io client request mid client' ∧
    (db' = mid ∨ db.saving E io request = some mid.catalog ∧ db' = (mid.save E io).1)

section Serving

variable {E : Engine} {io : Io} {db : Database} {client : Client}

theorem Database.Keeps.refl (db : Database) : db.Keeps db := ⟨rfl, rfl, rfl, rfl, fun _ _ h => h⟩

/-- A session that keeps its transaction or loses it. -/
theorem Database.keeps_setSession {id : Nat} {session : Session}
    (h : ∀ state, session.transaction = some state →
      (db.sessions id).transaction = some state) : db.Keeps (db.setSession id session) := by
  refine ⟨rfl, rfl, rfl, rfl, fun other state hstate => ?_⟩
  by_cases hother : other = id
  · subst hother
    rw [Database.sessions_setSession_self] at hstate
    exact h state hstate
  · rwa [Database.sessions_setSession_of_ne db hother] at hstate

theorem Database.Step.serves {request : Database.Request} {db' : Database} {client' : Client}
    (h : db.Step E io client request db' client') : db.Serves E io client request db' client' :=
  ⟨db', h, Or.inl rfl⟩

theorem Database.logTransaction_eq_none {base commit : Nat} {statements : List DurableStatement}
    {logged : Database} (h : db.logTransaction E io base commit statements = (logged, none)) :
    logged.autoSave = db.autoSave ∧ (db.wal && io.log.isSome) = false := by
  rw [Database.logTransaction] at h
  cases hwal : db.wal <;> cases hlog : io.log <;> simp_all
  rw [← h]

/-- A statement outside a transaction. -/
theorem Database.executeAutocommit_serves {request : Database.Request}
    (durable : DurableStatement) (statement : Statement) {client' : Client}
    (htarget : db.target request = some (db.catalog.tables, durable, statement))
    (hpending : db.pending E request = db.pendingStatement E durable statement)
    (hobserved : client' = match (db.executeAutocommit E io durable statement).1 with
      | .done result => client.autocommitted statement result
      | .unsaved result _ => client.autocommitted statement result
      | _ => client) :
    db.Serves E io client request (db.executeAutocommit E io durable statement).2 client' := by
  by_cases hpoisoned : db.poisoned = true
  · simp only [Database.executeAutocommit, hpoisoned, if_true] at hobserved ⊢
    subst hobserved
    exact (Step.still (.refl db)).serves
  · rcases hexecute : executeCatalog E.host db.catalog.tables statement with
      (message | _) | ⟨result, tables⟩
    · simp only [Database.executeAutocommit, hpoisoned, hexecute] at hobserved ⊢
      subst hobserved
      exact (Step.still (.refl db)).serves
    · simp only [Database.executeAutocommit, hpoisoned, hexecute, Bool.false_eq_true,
        if_false] at hobserved ⊢
      subst hobserved
      have hkeeps : db.Keeps { db with poisoned := isWriteStatement statement } :=
        ⟨rfl, rfl, rfl, rfl, fun _ _ h => h⟩
      exact (Step.still hkeeps).serves
    · by_cases hwrite : isWriteStatement statement = true
      · have hclient : ∀ result', client.autocommitted statement result' =
            { client with committed := client.committed ++ [[(statement, result')]] } := by
          intro result'
          rw [Client.autocommitted, if_pos hwrite]
        have hworking : Catalog.mk (saturatingSucc db.catalog.version)
            (if isSchemaStatement statement then saturatingSucc db.catalog.schemaVersion
              else db.catalog.schemaVersion)
            (tables.configureBloomFalsePositiveRate E.host E.bloomFalsePositiveRate) =
            db.working E statement tables := rfl
        have hlogs : db.pending E request = some [durable] := by
          rw [hpending, Database.pendingStatement, if_neg hpoisoned, hexecute]
          exact if_pos hwrite
        simp only [Database.executeAutocommit, hpoisoned, hexecute, hwrite, if_true, hclient,
          hworking] at hobserved ⊢
        rcases hlog : db.logTransaction E io db.catalog.version
            (saturatingSucc db.catalog.version) [durable] with ⟨logged, _ | error⟩
        · have hmid : { db.logged E io [durable] with catalog := db.working E statement tables } =
              { logged with catalog := db.working E statement tables } := by
            rw [Database.logged, hlog]
          have hpublished := @Step.published E io db client request durable statement result tables
            hwrite htarget hexecute hlogs (congrArg Prod.snd hlog)
          rw [hmid] at hpublished
          simp only [hlog] at hobserved ⊢
          obtain ⟨hauto, hlogs'⟩ := Database.logTransaction_eq_none hlog
          by_cases hschema : isSchemaStatement statement = true
          · simp only [hschema, if_true] at hobserved ⊢
            by_cases hsaves : db.autoSave = true
            · have hsaving : db.saving E io request = some (db.working E statement tables) := by
                have hnotSave : request ≠ .save := by
                  rintro rfl
                  cases htarget
                cases request with
                | save => exact absurd rfl hnotSave
                | _ => simp [Database.saving, hsaves, hlogs, htarget, hschema, hlogs', hexecute,
                    Except.toOption]
              rcases hsave : Database.save E
                { logged with catalog := db.working E statement tables } io with ⟨saved, _ | error⟩
              · simp only [hsave] at hobserved ⊢
                subst hobserved
                exact ⟨_, hpublished, Or.inr ⟨hsaving, (congrArg Prod.fst hsave).symm⟩⟩
              · simp only [hsave] at hobserved ⊢
                subst hobserved
                exact ⟨_, hpublished, Or.inr ⟨hsaving, (congrArg Prod.fst hsave).symm⟩⟩
            · have hsave : Database.save E
                  { logged with catalog := db.working E statement tables } io =
                  ({ logged with catalog := db.working E statement tables }, none) := by
                rw [Database.save, hauto, if_neg hsaves]
              simp only [hsave] at hobserved ⊢
              subst hobserved
              exact hpublished.serves
          · simp only [hschema] at hobserved ⊢
            subst hobserved
            exact hpublished.serves
        · have hrefused := @Step.refused E io db client request durable error hlogs
            (congrArg Prod.snd hlog)
          rw [Database.logged, hlog] at hrefused
          simp only [hlog] at hobserved ⊢
          subst hobserved
          exact hrefused.serves
      · simp only [Database.executeAutocommit, hpoisoned, hexecute, hwrite,
          Client.autocommitted] at hobserved ⊢
        subst hobserved
        exact (Step.still (.refl db)).serves

/-- A statement of an open transaction. -/
theorem Database.runStatement_step {id : Nat} {state : TransactionState}
    (hstate : (db.sessions id).transaction = some state) (durable : DurableStatement)
    (statement : Statement) {client' : Client}
    (hobserved : client' = match (db.runStatement E io id durable statement).1 with
      | .done result => client.executed id statement result
      | .unsaved result _ => client.executed id statement result
      | _ => client) :
    Step E io db client (.session id (.run durable statement))
      (db.runStatement E io id durable statement).2 client' := by
  have htarget : db.target (.session id (.run durable statement)) =
      some (state.catalog.tables, durable, statement) := by
    simp only [Database.target, hstate]
  rcases hexecute : executeCatalog E.host state.catalog.tables statement with
    (message | _) | ⟨result, tables⟩
  · simp only [Database.runStatement, hstate, hexecute] at hobserved ⊢
    subst hobserved
    exact .still (.refl db)
  · simp only [Database.runStatement, hstate, hexecute] at hobserved ⊢
    subst hobserved
    exact .still (Database.keeps_setSession fun other hother => hstate.trans hother)
  · by_cases hwrite : isWriteStatement statement = true
    · simp only [Database.runStatement, hstate, hexecute, hwrite, if_true] at hobserved ⊢
      subst hobserved
      refine @Step.executed E io db client _ id _ state durable statement result tables hstate
        htarget hexecute ?_
      simp only [TransactionState.after, hwrite, if_true]
    · simp only [Database.runStatement, hstate, hexecute, hwrite] at hobserved ⊢
      subst hobserved
      have hschema : isSchemaStatement statement = false := by
        cases statement <;> simp_all [isWriteStatement, isSchemaStatement]
      have htables : tables = state.catalog.tables :=
        executeCatalog_read (by simpa using hwrite) hexecute
      have hsame := @Step.executed E io db client _ id (db.sessions id) state durable statement
        result tables hstate htarget hexecute (by
          simp [TransactionState.after, hwrite, hschema, hstate, htables])
      rwa [show db.setSession id (db.sessions id) = db by
        simp [Database.setSession]] at hsame

/-- COMMIT. -/
theorem Database.commitTransaction_step (id : Nat) (hsound : (db.sessions id).poisoned = false)
    {client' : Client} (hobserved : client' = match (db.commitTransaction E io id).1 with
      | .done _ => client.closed db id
      | _ => client) :
    Step E io db client (.session id .commit) (db.commitTransaction E io id).2 client' := by
  cases hstate : (db.sessions id).transaction with
  | none =>
    simp only [Database.commitTransaction, hstate, Client.closed] at hobserved ⊢
    subst hobserved
    exact .still (.refl db)
  | some state =>
    by_cases hpoisoned : db.poisoned = true
    · simp only [Database.commitTransaction, hstate, hpoisoned, if_true] at hobserved ⊢
      subst hobserved
      exact .still (Database.keeps_setSession (by simp))
    · by_cases hversion : db.catalog.version = state.baseVersion
      · by_cases hempty : state.statements = []
        · simp only [Database.commitTransaction, hstate, hpoisoned, hversion, hempty, ne_eq,
            not_true_eq_false, if_false, Bool.false_eq_true, Client.closed, List.isEmpty_nil,
            if_true] at hobserved ⊢
          subst hobserved
          exact .closed hstate hversion.symm hempty (by rfl)
        · have hisEmpty : state.statements.isEmpty = false := by simpa using hempty
          have hne : ¬ db.catalog.version ≠ state.baseVersion := not_not.mpr hversion
          have hlogs : db.pending E (.session id .commit) = some state.statements := by
            simp [Database.pending, hsound, hpoisoned, hstate, hversion, hempty]
          have hbase : (db.committing E state).baseVersion = db.catalog.version := hversion.symm
          have hcommit : (db.committing E state).catalog.version =
              saturatingSucc db.catalog.version := rfl
          have hstatements : (db.committing E state).statements = state.statements := rfl
          have hlogged : db.logged E io state.statements = (db.logTransaction E io
              db.catalog.version (saturatingSucc db.catalog.version) state.statements).1 := rfl
          rcases hlog : db.logTransaction E io db.catalog.version
              (saturatingSucc db.catalog.version) state.statements with ⟨logged, _ | error⟩
          · simp only [Database.commitTransaction, hstate, hpoisoned, if_neg hne, hisEmpty, hbase,
              hcommit, hstatements, hlog, Bool.false_eq_true, if_false, Client.closed]
              at hobserved ⊢
            have hcommitted := @Step.committed E io db client (.session id .commit) id
              { db.sessions id with transaction := none } state hstate hversion.symm hempty hlogs
              (congrArg Prod.snd hlog) rfl
            rw [hlogged, hlog] at hcommitted
            subst hobserved
            exact hcommitted
          · simp only [Database.commitTransaction, hstate, hpoisoned, if_neg hne, hisEmpty, hbase,
              hcommit, hstatements, hlog, Bool.false_eq_true, if_false] at hobserved ⊢
            have hretained := @Step.retained E io db client (.session id .commit) id
              { db.sessions id with transaction := some (db.committing E state) } state error
              hstate hversion.symm hlogs (congrArg Prod.snd hlog) rfl
            rw [hlogged, hlog] at hretained
            subst hobserved
            exact hretained
      · simp only [Database.commitTransaction, hstate, hpoisoned, hversion, ne_eq,
          not_false_eq_true, if_true, if_false, Bool.false_eq_true] at hobserved ⊢
        subst hobserved
        exact .still (Database.keeps_setSession (by simp))

/-- BEGIN. -/
theorem Database.beginTransaction_step (id : Nat) :
    Step E io db client (.session id .begin) (db.beginTransaction id).2
      (client.observe db (.session id .begin) (db.beginTransaction id).1) := by
  cases hstate : (db.sessions id).transaction with
  | some state =>
    simp only [Database.beginTransaction, hstate]
    exact .still (.refl db)
  | none =>
    by_cases hpoisoned : db.poisoned = true
    · simp only [Database.beginTransaction, hstate, hpoisoned, if_true]
      exact .still (Database.keeps_setSession fun other hother => hstate.trans hother)
    · simp only [Database.beginTransaction, hstate, hpoisoned]
      exact .begun rfl

/-- **What a request can do**: one step, and then maybe a checkpoint. -/
theorem Database.serve_serves (request : Database.Request) :
    db.Serves E io client request (db.serve E io request).2
      (client.observe db request (db.serve E io request).1) := by
  cases request with
  | autocommit durable statement =>
    refine Database.executeAutocommit_serves durable statement rfl rfl ?_
    simp only [Database.serve]
    cases (db.executeAutocommit E io durable statement).1 <;> rfl
  | answer reply =>
    refine Step.serves ?_
    cases reply <;> exact .still (.refl db)
  | save =>
    simp only [Database.serve]
    split
    · exact (Step.still (.refl db)).serves
    · by_cases hsaves : db.autoSave = true
      · have hsaving : db.saving E io .save = some db.catalog := by
          simp [Database.saving, hsaves]
        rcases hsave : db.save E io with ⟨saved, _ | error⟩ <;>
          exact ⟨db, .still (.refl db), Or.inr ⟨hsaving, (congrArg Prod.fst hsave).symm⟩⟩
      · have hsave : db.save E io = (db, none) := by rw [Database.save, if_neg hsaves]
        simp only [hsave]
        exact (Step.still (.refl db)).serves
  | session id command =>
    cases command with
    | answer reply names =>
      have hkeeps : db.Keeps (db.setSession id { db.sessions id with names }) :=
        Database.keeps_setSession fun state hstate => hstate
      refine Step.serves ?_
      cases reply <;> exact .still hkeeps
    | begin =>
      refine Step.serves ?_
      by_cases hpoisoned : (db.sessions id).poisoned = true
      · simp only [Database.serve, Database.perform, hpoisoned, if_true]
        exact .still (.refl db)
      · simp only [Database.serve, Database.perform, hpoisoned]
        exact Database.beginTransaction_step id
    | commit =>
      refine Step.serves ?_
      by_cases hpoisoned : (db.sessions id).poisoned = true
      · simp only [Database.serve, Database.perform, hpoisoned, if_true]
        exact .still (.refl db)
      · simp only [Database.serve, Database.perform, hpoisoned]
        refine Database.commitTransaction_step id (by simpa using hpoisoned) ?_
        simp only [Bool.false_eq_true, if_false]
        cases (db.commitTransaction E io id).1 <;> rfl
    | rollback =>
      refine Step.serves ?_
      by_cases hpoisoned : (db.sessions id).poisoned = true
      · simp only [Database.serve, Database.perform, hpoisoned, if_true]
        exact .still (.refl db)
      · simp only [Database.serve, Database.perform, hpoisoned]
        exact .still (Database.keeps_setSession (by simp))
    | run durable statement =>
      by_cases hpoisoned : (db.sessions id).poisoned = true
      · simp only [Database.serve, Database.perform, hpoisoned, if_true]
        exact (Step.still (.refl db)).serves
      · simp only [Database.serve, Database.perform, hpoisoned, Bool.false_eq_true, if_false]
        cases hstate : (db.sessions id).transaction with
        | none =>
          simp only [Database.runStatement, hstate]
          refine Database.executeAutocommit_serves durable statement ?_ ?_ ?_
          · simp only [Database.target, hstate]
          · simp [Database.pending, hpoisoned, hstate]
          · cases (db.executeAutocommit E io durable statement).1 <;>
              simp [Client.observe, Client.ran, hstate]
        | some state =>
          refine (Database.runStatement_step hstate durable statement ?_).serves
          cases (db.runStatement E io id durable statement).1 <;>
            simp [Client.observe, Client.ran, hstate]

end Serving

/-! ## The invariant -/

/-- An open transaction whose version is the published one is its statements, run on the
published tables. -/
structure InStep (E : Engine) (catalog : Catalog) (state : TransactionState)
    (opened : List Executed) : Prop where
  base : state.baseVersion ≤ catalog.version
  runs : state.baseVersion = catalog.version →
    UnitRuns E.host catalog.tables opened state.catalog.tables
  logged : state.statements = [] ↔ writes opened = false

/-- The published catalog is the serial run of what was committed, and every open
transaction is in step. -/
structure Tracks (E : Engine) (initial : Catalog) (db : Database) (client : Client) : Prop where
  autoSave : db.autoSave = false
  wal : db.wal = false
  units : UnitsRun E initial.tables client.committed db.catalog.tables
  version : db.catalog.version = initial.version + (client.committed.filter writes).length
  session : ∀ id state, (db.sessions id).transaction = some state →
    InStep E db.catalog state (client.opened id)

section Invariant

variable {E : Engine} {io : Io} {initial : Catalog} {db db' : Database} {client client' : Client}

/-- A counter that is not full has been counted up. -/
theorem saturatingSucc_of_lt {n : Nat} (h : saturatingSucc n < maxRowId) :
    saturatingSucc n = n + 1 ∧ n < maxRowId := by
  rw [saturatingSucc] at h ⊢
  omega

/-- A database in memory logs nothing, and never fails to. -/
theorem Database.logTransaction_inMemory (hwal : db.wal = false)
    (statements : List DurableStatement) :
    db.logged E io statements = db ∧ db.logError E io statements = none := by
  simp [Database.logged, Database.logError, Database.logTransaction, hwal]

theorem Database.save_inMemory (hsave : db.autoSave = false) : db.save E io = (db, none) := by
  simp [Database.save, hsave]

theorem InStep.executed {state : TransactionState} {opened : List Executed} {catalog : Catalog}
    (h : InStep E catalog state opened) {durable : DurableStatement} {statement : Statement}
    {result : ExecutionResult} {tables : Tables}
    (hexecute : executeCatalog E.host state.catalog.tables statement = .ok (result, tables)) :
    InStep E catalog (state.after durable statement tables) (opened ++ [(statement, result)]) := by
  refine ⟨h.base, fun hbase => (h.runs hbase).append hexecute, ?_⟩
  by_cases hwrite : isWriteStatement statement = true
  · simp [TransactionState.after, hwrite, writes]
  · have hwrites : writes (opened ++ [(statement, result)]) = writes opened := by
      simp [writes, hwrite]
    rw [hwrites, ← h.logged]
    simp [TransactionState.after, hwrite]

/-- Changes of one session leave the published catalog alone. -/
theorem Tracks.setSession (h : Tracks E initial db client) (id : Nat) (session : Session)
    (opened : List Executed) (hsession : ∀ state, session.transaction = some state →
      InStep E db.catalog state opened) :
    Tracks E initial (db.setSession id session)
      { client with opened := Function.update client.opened id opened } := by
  refine ⟨h.autoSave, h.wal, h.units, h.version, fun other state hstate => ?_⟩
  by_cases hother : other = id
  · subst hother
    rw [Database.sessions_setSession_self] at hstate
    simp only [Function.update_self]
    exact hsession state hstate
  · rw [Database.sessions_setSession_of_ne db hother] at hstate
    simp only [Function.update_of_ne hother]
    exact h.session other state hstate

/-- A catalog one version further on: every open transaction falls behind. -/
theorem Tracks.publish (h : Tracks E initial db client) {unit : List Executed} {tables : Tables}
    (hunit : UnitRuns E.host db.catalog.tables unit tables) (hwrites : writes unit = true)
    (catalog : Catalog) (hversion : catalog.version = db.catalog.version + 1)
    (htables : catalog.tables =
      tables.configureBloomFalsePositiveRate E.host E.bloomFalsePositiveRate) :
    Tracks E initial { db with catalog }
      { client with committed := client.committed ++ [unit] } := by
  refine ⟨h.autoSave, h.wal, ?_, ?_, fun id state hstate => ?_⟩
  · have happend := h.units.append hunit
    rw [commitUnit, any_isWriteStatement, if_pos hwrites] at happend
    rw [htables]
    exact happend
  · simp only [hversion, h.version, List.filter_append, List.filter_cons, hwrites, if_true,
      List.filter_nil, List.length_append, List.length_singleton]
    omega
  · obtain ⟨hbase, -, hlogged⟩ := h.session id state hstate
    refine ⟨by simp only [hversion]; omega, fun hstale => ?_, hlogged⟩
    simp only [hversion] at hstale
    omega

/-- A read-only transaction ends. -/
theorem Tracks.closeReadOnly (h : Tracks E initial db client) {id : Nat} {session : Session}
    {state : TransactionState} (hstate : (db.sessions id).transaction = some state)
    (hversion : state.baseVersion = db.catalog.version) (hempty : state.statements = [])
    (hsession : session.transaction = none) :
    Tracks E initial (db.setSession id session)
      { client with committed := client.committed ++ [client.opened id] } := by
  obtain ⟨-, hruns, hlogged⟩ := h.session id state hstate
  have hread := hlogged.mp hempty
  have happend := h.units.append (hruns hversion)
  rw [commitUnit, any_isWriteStatement, hread, (hruns hversion).eq_of_read hread] at happend
  have hclosed := h.setSession id session (client.opened id) (by simp [hsession])
  refine ⟨h.autoSave, h.wal, happend, ?_, ?_⟩
  · simp [Database.setSession, h.version, hread]
  · simpa using hclosed.session

/-- **One step** keeps the published catalog a serial run. -/
theorem Tracks.step (h : Tracks E initial db client) {request : Database.Request}
    (hstep : db.Step E io client request db' client')
    (hbound : db'.catalog.version < maxRowId) : Tracks E initial db' client' := by
  cases hstep with
  | still hkeeps =>
    refine ⟨hkeeps.autoSave.trans h.autoSave, hkeeps.wal.trans h.wal, ?_, ?_, ?_⟩
    · rw [hkeeps.catalog]
      exact h.units
    · rw [hkeeps.catalog]
      exact h.version
    · intro id state hstate
      rw [hkeeps.catalog]
      exact h.session id state (hkeeps.transaction id state hstate)
  | begun hsession =>
    refine h.setSession _ _ _ fun state hstate => ?_
    obtain rfl : TransactionState.fresh db = state := Option.some.inj (hsession.symm.trans hstate)
    exact ⟨Nat.le_refl _, fun _ => unitRuns_nil, by simp [TransactionState.fresh, writes]⟩
  | closed hstate hversion hempty hsession =>
    exact h.closeReadOnly hstate hversion hempty hsession
  | @executed id session state durable statement result tables hstate _ hexecute hsession =>
    refine h.setSession _ _ _ fun after hafter => ?_
    obtain rfl : state.after durable statement tables = after :=
      Option.some.inj (hsession.symm.trans hafter)
    exact (h.session id state hstate).executed hexecute
  | @published durable statement result tables hwrite _ hexecute _ _ =>
    rw [(Database.logTransaction_inMemory h.wal _).1] at hbound ⊢
    obtain ⟨hsucc, -⟩ := saturatingSucc_of_lt hbound
    exact h.publish (unitRuns_nil.append hexecute) (by simp [writes, hwrite]) _ hsucc rfl
  | @committed id session state hstate hversion hne _ _ hsession =>
    rw [(Database.logTransaction_inMemory h.wal _).1] at hbound ⊢
    obtain ⟨hsucc, -⟩ := saturatingSucc_of_lt hbound
    obtain ⟨-, hruns, hlogged⟩ := h.session id state hstate
    have hwrites : writes (client.opened id) = true := by
      rw [← Bool.not_eq_false, ← hlogged]
      exact hne
    have hpublished := h.publish (hruns hversion) hwrites (db.committing E state).catalog hsucc rfl
    have hclosed := hpublished.setSession id session (client.opened id) (by simp [hsession])
    simpa using hclosed
  | refused _ hlog =>
    rw [(Database.logTransaction_inMemory h.wal _).2] at hlog
    cases hlog
  | retained _ _ _ hlog _ =>
    rw [(Database.logTransaction_inMemory h.wal _).2] at hlog
    cases hlog

theorem Database.catalog_logged (statements : List DurableStatement) :
    (db.logged E io statements).catalog = db.catalog := by
  rw [Database.logged, Database.logTransaction]
  split
  · cases io.log <;> rfl
  · rfl

theorem Database.catalog_save : (db.save E io).1.catalog = db.catalog := by
  rw [Database.save]
  split
  · split <;> rfl
  · rfl

/-- The version does not come back from saturation. -/
theorem Database.Step.version_lt {request : Database.Request}
    (hstep : db.Step E io client request db' client')
    (hbound : db'.catalog.version < maxRowId) : db.catalog.version < maxRowId := by
  cases hstep with
  | still hkeeps => rwa [hkeeps.catalog] at hbound
  | begun _ => exact hbound
  | closed _ _ _ _ => exact hbound
  | executed _ _ _ _ => exact hbound
  | published _ _ _ _ _ => exact (saturatingSucc_of_lt hbound).2
  | committed _ _ _ _ _ _ => exact (saturatingSucc_of_lt hbound).2
  | refused _ _ => rwa [Database.catalog_logged] at hbound
  | retained _ _ _ _ _ =>
    change (db.logged E io _).catalog.version < maxRowId at hbound
    rwa [Database.catalog_logged] at hbound

/-- **One request.** -/
theorem Tracks.serve (h : db.catalog.version < maxRowId → Tracks E initial db client)
    {request : Database.Request} (hserves : db.Serves E io client request db' client')
    (hbound : db'.catalog.version < maxRowId) : Tracks E initial db' client' := by
  obtain ⟨mid, hstep, rfl | ⟨-, rfl⟩⟩ := hserves
  · exact (h (hstep.version_lt hbound)).step hstep hbound
  · rw [Database.catalog_save] at hbound
    have hmid := (h (hstep.version_lt hbound)).step hstep hbound
    rwa [Database.save_inMemory hmid.autoSave]

theorem Tracks.run {requests : List (Database.Request × Io)}
    (h : db.catalog.version < maxRowId → Tracks E initial db client)
    (hrun : db.run E client requests = (db', client'))
    (hbound : db'.catalog.version < maxRowId) : Tracks E initial db' client' := by
  induction requests generalizing db client with
  | nil =>
    simp only [Database.run, Prod.mk.injEq] at hrun
    obtain ⟨rfl, rfl⟩ := hrun
    exact h hbound
  | cons first requests ih =>
    obtain ⟨request, io⟩ := first
    exact ih (fun hnext => Tracks.serve h (Database.serve_serves request) hnext) hrun

end Invariant

/-- **Transactions are serializable.**  Whatever the interleaving of the requests, while
the version is not saturated: the published tables and the results of all statements of
committed transactions are those of the serial run of the committed units, in the order
of their commits, from the initial catalog; and the version has grown by one for every
unit that writes. -/
theorem transactions_serializable (E : Engine) (initial : Catalog)
    (requests : List (Database.Request × Io)) (db : Database) (client : Client)
    (hrun : (Database.inMemory initial).run E {} requests = (db, client))
    (hversion : db.catalog.version < 2 ^ 64 - 1) :
    serialRun E initial.tables (client.committed.map (·.map Prod.fst)) =
        .ok (client.committed.map (·.map Prod.snd), db.catalog.tables) ∧
      db.catalog.version = initial.version + (client.committed.filter writes).length := by
  have hstart : Tracks E initial (Database.inMemory initial) {} :=
    ⟨rfl, rfl, rfl, rfl, by simp [Database.inMemory]⟩
  have htracks := Tracks.run (fun _ => hstart) hrun hversion
  exact ⟨htracks.units, htracks.version⟩

/-- An engine that logs nothing. -/
def plainEngine : Engine where
  host := Host.reference
  wal := plainHost
  codec := nullCodec
  bindParameters statement _ := .ok statement
  bloomFalsePositiveRate := defaultBloomFalsePositiveRate

/-- Two sessions insert into one table; the second COMMIT comes too late. -/
def conflictingRequests : List (Database.Request × Io) :=
  let insertRun := Database.Command.run (.sql "INSERT INTO t VALUES (1), (2)") insertTwo
  [(.autocommit (.sql "CREATE TABLE t (v INTEGER)") createPlain, ⟨0, none, none⟩),
    (.session 1 .begin, ⟨0, none, none⟩), (.session 2 .begin, ⟨0, none, none⟩),
    (.session 1 insertRun, ⟨0, none, none⟩), (.session 2 insertRun, ⟨0, none, none⟩),
    (.session 2 .commit, ⟨0, none, none⟩), (.session 1 .commit, ⟨0, none, none⟩)]

theorem conflicting_insert_is_dropped : ∃ db client,
    (Database.inMemory ⟨0, 0, ∅⟩).run plainEngine {} conflictingRequests = (db, client) ∧
      (db.catalog.tables.lookup "t").map (fun table => table.rows.length) = some 2 ∧
      serialRun plainEngine ∅ (client.committed.map (·.map Prod.fst)) =
        .ok (client.committed.map (·.map Prod.snd), db.catalog.tables) ∧
      db.catalog.version = 0 + (client.committed.filter writes).length := by
  obtain ⟨⟨db, client⟩, hrun⟩ : ∃ last,
      (Database.inMemory ⟨0, 0, ∅⟩).run plainEngine {} conflictingRequests = last := ⟨_, rfl⟩
  have hreport : (fun last : Database × Client => (last.1.catalog.version,
      (last.1.catalog.tables.lookup "t").map fun table => table.rows.length))
      ((Database.inMemory ⟨0, 0, ∅⟩).run plainEngine {} conflictingRequests) = (2, some 2) := by
    decide +kernel
  rw [hrun] at hreport
  rw [Prod.mk.injEq] at hreport
  exact ⟨db, client, hrun, hreport.2, transactions_serializable plainEngine ⟨0, 0, ∅⟩
    conflictingRequests db client hrun (by rw [hreport.1]; decide)⟩

end Sql
end RustyDB
