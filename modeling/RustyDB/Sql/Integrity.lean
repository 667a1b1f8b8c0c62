import Mathlib
import RustyDB.Sql.Batch
import RustyDB.Sql.ForeignKeys
import RustyDB.Sql.Serial

/-!
# Integrity under concurrent sessions

The checks of a catalog run once in each statement that writes, before anything is
published.  What a COMMIT publishes has its Bloom filters and indexes rebuilt, which no
check looks at again, and a COMMIT that could not be logged leaves such a catalog to later
statements of the session.

* `CheckHolds`, `References`, `Intact` — what the declarations of a catalog say of its rows.
* `intact_of_validate` — what a validation that passes has shown.
* `KeptBy`, `Throughout` — what statements keep, and where it holds between two requests.
* `Throughout.step`, `Throughout.run` — **what statements keep, sessions keep**: one request,
  and a run.
* `sessions_keep_integrity` — **no interleaving publishes, or shows to a transaction, a
  catalog that breaks a declaration.**
-/

namespace RustyDB
namespace Sql

/-! ## What the declarations say -/

/-- CHECK accepts what is true or unknown. -/
def CheckHolds (H : Host) (tables : Tables) (table : Table) (expr : Expr) (row : Row) : Prop :=
  ∃ value, evalExpr H tables expr (boundColumns table.schema.name table.schema) row none ∅ =
    .ok value ∧ value.truth ≠ .false

/-- A foreign key has a target, and a child row without NULL in its key has a parent row
that agrees with it on every column referenced. -/
def References (tables : Tables) (table : Table) (foreignKey : ForeignKeyConstraint) : Prop :=
  ∃ parent, IsTarget tables foreignKey parent ∧
    ∀ child ∈ table.rows, FullKey table foreignKey child →
      foreignKey.referredColumns.length ≤ foreignKey.columns.length ∧
        HasParentRow parent table foreignKey child

/-- The rows of a catalog are what its declarations say. -/
structure Tables.Intact (H : Host) (tables : Tables) : Prop where
  /-- One value for each column. -/
  widths : tables.All fun table => ∀ row ∈ table.rows, row.length = table.schema.columns.length
  /-- NOT NULL. -/
  notNull : tables.All fun table => ∀ row ∈ table.rows, ∀ (i : Nat) (column : ColumnDef),
    table.schema.columns[i]? = some column → row[i]? = some .null → column.nullable = true
  /-- CHECK. -/
  checks : tables.All fun table => ∀ row ∈ table.rows, ∀ (name : Option String) (expr : Expr),
    .check name expr ∈ table.schema.constraints → CheckHolds H tables table expr row
  /-- The unique indexes. -/
  keys : tables.All Table.Enforced
  /-- FOREIGN KEY. -/
  references : tables.All fun table => ∀ foreignKey ∈ foreignKeys table,
    References tables table foreignKey

section Validated

variable {H : Host} {tables : Tables} {table : Table} {row : Row}

theorem notNull_of_validateRow (h : table.schema.validateRow row = .ok ()) {i : Nat}
    {column : ColumnDef} (hcolumn : table.schema.columns[i]? = some column)
    (hnull : row[i]? = some .null) : column.nullable = true := by
  rw [TableSchema.validateRow] at h
  split_ifs at h
  have hmem : (Value.null, column) ∈ row.zip table.schema.columns :=
    List.mem_of_getElem? (List.getElem?_zip_eq_some.mpr ⟨hnull, hcolumn⟩)
  have hvalue := Result.forM_eq_ok.mp h _ hmem
  simp only [TableSchema.validateValue, Value.isNull, if_true] at hvalue
  by_contra hnullable
  rw [if_neg hnullable] at hvalue
  cases hvalue

theorem checkHolds_of_validateChecks (h : validateChecks H tables table row = .ok ())
    {name : Option String} {expr : Expr} (hmem : .check name expr ∈ table.schema.constraints) :
    CheckHolds H tables table expr row := by
  have hcheck := Result.forM_eq_ok.mp h _ hmem
  obtain ⟨value, hvalue, hpasses⟩ := Result.bind_eq_ok.mp hcheck
  refine ⟨value, hvalue, fun hfalse => ?_⟩
  rw [if_pos hfalse] at hpasses
  cases hpasses

/-- **A row that passes.** -/
theorem validated_row (h : validateTable H tables table = .ok ()) (hrow : row ∈ table.rows) :
    table.schema.validateRow row = .ok () ∧ validateChecks H tables table row = .ok () := by
  obtain ⟨⟨⟩, hrows, -⟩ := Result.bind_eq_ok.mp h
  obtain ⟨⟨⟩, hvalid, hchecks⟩ := Result.bind_eq_ok.mp (Result.forM_eq_ok.mp hrows row hrow)
  exact ⟨hvalid, hchecks⟩

theorem length_of_validateRow (h : table.schema.validateRow row = .ok ()) :
    row.length = table.schema.columns.length := by
  by_contra hlength
  rw [TableSchema.validateRow, if_pos hlength] at h
  cases h

/-- The foreign keys of a catalog that passes: a child row without NULL in its key passes
neither without a parent row nor with a key that is too short. -/
theorem references_of_validate (hcomplete : tables.All Table.Complete)
    (h : validateForeignKeys H tables = .ok ()) : tables.All fun table =>
      ∀ foreignKey ∈ foreignKeys table, References tables table foreignKey := by
  intro name table hlookup foreignKey hkey
  have hpasses := (validateForeignKeys_eq_ok_iff hcomplete).mp h
  have htarget := (hpasses ⟨table, foreignKey, none⟩
    (mem_keyChecks.mpr ⟨name, hlookup, hkey, fun row hrow => by cases hrow⟩)).2
  obtain ⟨parent, htarget, -⟩ := not_not.mp htarget
  refine ⟨parent, htarget, fun child hchild hfull => ?_⟩
  have hmem : (⟨table, foreignKey, some child⟩ : KeyCheck) ∈ keyChecks H tables :=
    mem_keyChecks.mpr ⟨name, hlookup, hkey, fun row hrow => Option.some.inj hrow ▸ hchild⟩
  obtain ⟨hoverruns, hfails⟩ := hpasses _ hmem
  obtain ⟨other, hother, hfound⟩ := not_not.mp hfails
  obtain rfl := htarget.unique hother
  have hparent := hfound child rfl hfull
  refine ⟨?_, hparent⟩
  by_contra hlonger
  exact hoverruns ⟨other, child, htarget, rfl, Nat.lt_of_not_le hlonger, hfull, hparent⟩

/-- **What a validation has shown.** -/
theorem intact_of_validate (hnamed : tables.All fun table => table.schema.Named)
    (henforced : tables.All Table.Enforced) (h : validateCatalog H tables = .ok ()) :
    tables.Intact H := by
  obtain ⟨htables, hkeys⟩ := validateCatalog_eq_ok.mp h
  have hwidths : tables.All fun table =>
      ∀ row ∈ table.rows, row.length = table.schema.columns.length := by
    intro name table hlookup row hrow
    exact length_of_validateRow (validated_row (htables name table hlookup) hrow).1
  refine ⟨hwidths, ?_, ?_, henforced, references_of_validate (fun name table hlookup =>
    ⟨hnamed name table hlookup, hwidths name table hlookup⟩) hkeys⟩
  · intro name table hlookup row hrow i column hcolumn hnull
    exact notNull_of_validateRow (validated_row (htables name table hlookup) hrow).1 hcolumn hnull
  · intro name table hlookup row hrow checkName expr hmem
    exact checkHolds_of_validateChecks (validated_row (htables name table hlookup) hrow).2 hmem

/-- **Every reachable catalog is intact.** -/
theorem intact_of_reachable {inserted : Nat} (h : Reachable H tables inserted)
    (hbound : inserted < maxRowId) : tables.Intact H :=
  intact_of_validate
    (fun name table hlookup => (catalogOk_of_reachable h hbound name table hlookup).named)
    (enforced_of_reachable h hbound) (validateCatalog_of_reachable h hbound)

end Validated

/-! ## Sessions -/

/-- What one kind of statements keeps of the tables they run on, where the rows inserted
count. -/
structure KeptBy (H : Host) (good : Statement → Prop) (holds : Tables → Nat → Prop) : Prop where
  mono : ∀ {tables : Tables} {total more : Nat}, holds tables total → total ≤ more →
    holds tables more
  configure : ∀ {tables : Tables} {total : Nat} (rate : F64), holds tables total →
    holds (tables.configureBloomFalsePositiveRate H rate) total
  step : ∀ {tables tables' : Tables} {total : Nat} {statement : Statement}
    {result : ExecutionResult}, holds tables total → good statement →
      executeCatalog H tables statement = .ok (result, tables') →
      holds tables' (total + insertedRows tables tables' statement)

/-- The statement of a request, if it runs one, is of one kind. -/
def Database.Request.Runs (good : Statement → Prop) : Database.Request → Prop
  | .autocommit _ statement => good statement
  | .session _ (.run _ statement) => good statement
  | _ => True

/-- The rows that a run inserts, those of transactions that never commit included. -/
def Database.rowsInserted (E : Engine) (db : Database) : List (Database.Request × Io) → Nat
  | [] => 0
  | (request, io) :: rest =>
    db.insertedBy E request + Database.rowsInserted E (db.serve E io request).2 rest

/-- A property of the published catalog and of those of open transactions. -/
structure Throughout (holds : Tables → Nat → Prop) (db : Database) (total : Nat) : Prop where
  published : holds db.catalog.tables total
  opened : ∀ id state, (db.sessions id).transaction = some state →
    holds state.catalog.tables total

section Sessions

variable {E : Engine} {io : Io} {db db' : Database} {client client' : Client} {total : Nat}
  {request : Database.Request} {tables tables' : Tables} {good : Statement → Prop}
  {holds : Tables → Nat → Prop}

/-- The statement that a request runs. -/
theorem good_of_target {durable : DurableStatement} {statement : Statement}
    (hruns : request.Runs good) (htarget : db.target request = some (tables, durable, statement)) :
    good statement := by
  unfold Database.target at htarget
  split at htarget
  · obtain ⟨-, -, rfl⟩ := htarget
    exact hruns
  · split at htarget
    · obtain ⟨-, -, rfl⟩ := htarget
      exact hruns
    · obtain ⟨-, -, rfl⟩ := htarget
      exact hruns
  · cases htarget

/-- **One statement**, on whichever catalog its request runs it. -/
theorem KeptBy.execute (hkept : KeptBy E.host good holds) {durable : DurableStatement}
    {statement : Statement} {result : ExecutionResult} (h : holds tables total)
    (hruns : request.Runs good) (htarget : db.target request = some (tables, durable, statement))
    (hexecute : executeCatalog E.host tables statement = .ok (result, tables')) :
    holds tables' (total + db.insertedBy E request) := by
  have hrows : db.insertedBy E request = insertedRows tables tables' statement := by
    simp only [Database.insertedBy, htarget, hexecute]
  rw [hrows]
  exact hkept.step h (good_of_target hruns htarget) hexecute

theorem Throughout.mono (h : Throughout holds db total) (hkept : KeptBy E.host good holds)
    {more : Nat} (hle : total ≤ more) : Throughout holds db more :=
  ⟨hkept.mono h.published hle, fun id state hstate => hkept.mono (h.opened id state hstate) hle⟩

/-- A session whose transaction, if it has one, has the property. -/
theorem Throughout.setSession (h : Throughout holds db total) (id : Nat) (session : Session)
    (hsession : ∀ state, session.transaction = some state → holds state.catalog.tables total) :
    Throughout holds (db.setSession id session) total := by
  refine ⟨h.published, fun other state hstate => ?_⟩
  by_cases hother : other = id
  · subst hother
    rw [Database.sessions_setSession_self] at hstate
    exact hsession state hstate
  · rw [Database.sessions_setSession_of_ne db hother] at hstate
    exact h.opened other state hstate

theorem Throughout.logged (h : Throughout holds db total) (statements : List DurableStatement) :
    Throughout holds (db.logged E io statements) total := by
  have hsessions : (db.logged E io statements).sessions = db.sessions := by
    rw [Database.logged, Database.logTransaction]
    split
    · cases io.log <;> rfl
    · rfl
  refine ⟨?_, ?_⟩
  · rw [Database.catalog_logged]
    exact h.published
  · rw [hsessions]
    exact h.opened

theorem Throughout.withCatalog (h : Throughout holds db total) {catalog : Catalog}
    (hcatalog : holds catalog.tables total) : Throughout holds { db with catalog } total :=
  ⟨hcatalog, h.opened⟩

/-- **One step**, whatever the files do. -/
theorem Throughout.step (h : Throughout holds db total) (hkept : KeptBy E.host good holds)
    (hruns : request.Runs good) (hstep : db.Step E io client request db' client') :
    Throughout holds db' (total + db.insertedBy E request) := by
  have hmono := h.mono hkept (Nat.le_add_right total (db.insertedBy E request))
  cases hstep with
  | still hkeeps =>
    refine ⟨?_, fun id state hstate => hmono.opened id state (hkeeps.transaction id state hstate)⟩
    rw [hkeeps.catalog]
    exact hmono.published
  | begun hsession =>
    refine hmono.setSession _ _ fun state hstate => ?_
    obtain rfl : TransactionState.fresh db = state := Option.some.inj (hsession.symm.trans hstate)
    exact hmono.published
  | closed hstate hversion hempty hsession =>
    exact hmono.setSession _ _ (by simp [hsession])
  | @executed id session state durable statement result tables hstate htarget hexecute hsession =>
    refine hmono.setSession _ _ fun after hafter => ?_
    obtain rfl : state.after durable statement tables = after :=
      Option.some.inj (hsession.symm.trans hafter)
    exact hkept.execute (h.opened id state hstate) hruns htarget hexecute
  | published hwrite htarget hexecute hpending hlog =>
    exact (hmono.logged _).withCatalog (hkept.configure E.bloomFalsePositiveRate
      (hkept.execute h.published hruns htarget hexecute))
  | @committed id session state hstate hversion hne hpending hlog hsession =>
    refine Throughout.setSession ((hmono.logged _).withCatalog ?_) _ _ (by simp [hsession])
    exact hkept.configure E.bloomFalsePositiveRate (hmono.opened id state hstate)
  | refused hpending hlog => exact hmono.logged _
  | @retained id session state error hstate hversion hpending hlog hsession =>
    -- the catalog of the failed COMMIT is what the session goes on with
    refine (hmono.logged _).setSession _ _ fun after hafter => ?_
    obtain rfl : db.committing E state = after := Option.some.inj (hsession.symm.trans hafter)
    exact hkept.configure E.bloomFalsePositiveRate (hmono.opened id state hstate)

theorem Throughout.save (h : Throughout holds db total) :
    Throughout holds (db.save E io).1 total := by
  have hsessions : (db.save E io).1.sessions = db.sessions := by
    rw [Database.save]
    split
    · split <;> rfl
    · rfl
  refine ⟨?_, ?_⟩
  · rw [Database.catalog_save]
    exact h.published
  · rw [hsessions]
    exact h.opened

/-- **One request**, and the checkpoint that it may end with. -/
theorem Throughout.serve (h : Throughout holds db total) (hkept : KeptBy E.host good holds)
    (hruns : request.Runs good) :
    Throughout holds (db.serve E io request).2 (total + db.insertedBy E request) := by
  obtain ⟨mid, hstep, hmid | ⟨-, hsaved⟩⟩ := @Database.serve_serves E io db {} request
  · rw [hmid]
    exact h.step hkept hruns hstep
  · rw [hsaved]
    exact (h.step hkept hruns hstep).save

/-- **A run** of any number of sessions. -/
theorem Throughout.run {requests : List (Database.Request × Io)} (h : Throughout holds db total)
    (hkept : KeptBy E.host good holds) (hruns : ∀ entry ∈ requests, entry.1.Runs good)
    (hrun : db.run E client requests = (db', client')) :
    Throughout holds db' (total + db.rowsInserted E requests) := by
  induction requests generalizing db client total with
  | nil =>
    simp only [Database.run, Prod.mk.injEq] at hrun
    obtain ⟨rfl, rfl⟩ := hrun
    exact h
  | cons first requests ih =>
    obtain ⟨request, io⟩ := first
    rw [Database.rowsInserted, ← Nat.add_assoc]
    exact ih (h.serve hkept (hruns _ List.mem_cons_self))
      (fun entry hmem => hruns entry (List.mem_cons_of_mem _ hmem)) hrun

end Sessions

/-- A catalog that statements lead to, with at most so many rows inserted on the way. -/
def ReachableWithin (H : Host) (tables : Tables) (total : Nat) : Prop :=
  ∃ inserted ≤ total, Reachable H tables inserted

/-- **The parser's statements keep a catalog reachable.** -/
theorem reachableWithin_kept (H : Host) :
    KeptBy H Statement.Parsed (ReachableWithin H) where
  mono h hle := by
    obtain ⟨inserted, hinserted, hreach⟩ := h
    exact ⟨inserted, hinserted.trans hle, hreach⟩
  configure rate h := by
    obtain ⟨inserted, hinserted, hreach⟩ := h
    exact ⟨inserted, hinserted, hreach.configure rate⟩
  step h hparsed hexecute := by
    obtain ⟨inserted, hinserted, hreach⟩ := h
    exact ⟨_, Nat.add_le_add_right hinserted _, hreach.step hparsed hexecute⟩

theorem ReachableWithin.intact {H : Host} {tables : Tables} {total : Nat}
    (h : ReachableWithin H tables total) (hbound : total < maxRowId) : tables.Intact H := by
  obtain ⟨inserted, hinserted, hreach⟩ := h
  exact intact_of_reachable hreach (Nat.lt_of_le_of_lt hinserted hbound)

/-- **Integrity under concurrent sessions.**  Start from an empty catalog, in memory or on
any files, and let any number of sessions and autocommit statements interleave, with writes
to the log and checkpoints that fail as they like.  While fewer than `2 ^ 64 - 1` rows are
inserted, the published catalog and the catalog that each open transaction sees have rows
that meet every NOT NULL, CHECK, unique index and foreign key declared. -/
theorem sessions_keep_integrity (E : Engine) (start : Database)
    (requests : List (Database.Request × Io)) (db : Database) (client client' : Client)
    (hempty : start.catalog.tables = ∅) (hfresh : ∀ id, (start.sessions id).transaction = none)
    (hparsed : ∀ entry ∈ requests, entry.1.Runs Statement.Parsed)
    (hrun : start.run E client requests = (db, client'))
    (hrows : start.rowsInserted E requests < 2 ^ 64 - 1) :
    db.catalog.tables.Intact E.host ∧
      ∀ id state, (db.sessions id).transaction = some state →
        state.catalog.tables.Intact E.host := by
  have hstart : Throughout (ReachableWithin E.host) start 0 := by
    refine ⟨⟨0, Nat.le_refl 0, ?_⟩, fun id state hstate => ?_⟩
    · rw [hempty]
      exact Reachable.empty
    · rw [hfresh id] at hstate
      cases hstate
  have hreach := hstart.run (reachableWithin_kept E.host) hparsed hrun
  rw [Nat.zero_add] at hreach
  exact ⟨hreach.published.intact hrows,
    fun id state hstate => (hreach.opened id state hstate).intact hrows⟩

/-- `CREATE TABLE c (x INTEGER, y INTEGER, FOREIGN KEY (x, y) REFERENCES p (a, b))`. -/
def createChild : Statement :=
  .createTable "c" [plainColumn "x" .integer, plainColumn "y" .integer]
    [.foreignKey ⟨none, ["x", "y"], "p", ["a", "b"]⟩] false

/-- `INSERT INTO c VALUES (1, y)`. -/
def insertChild (y : Int64) : Statement :=
  .insert "c" none (.values [[.literal (.integer 1), .literal (.integer y)]]) []

/-- One session inserts the parent row and a child row in a transaction; another cannot
insert a child row before the first has committed, and afterwards only one with a parent. -/
def familyRequests : List (Database.Request × Io) :=
  let childRun (y : Int64) := Database.Command.run (.sql "INSERT INTO c ...") (insertChild y)
  [(.autocommit (.sql "CREATE TABLE p ...") createParent, ⟨0, none, none⟩),
    (.autocommit (.sql "CREATE TABLE c ...") createChild, ⟨0, none, none⟩),
    (.session 1 .begin, ⟨0, none, none⟩),
    (.session 1 (.run (.sql "INSERT INTO p ...") insertParent), ⟨0, none, none⟩),
    (.session 1 (childRun 2), ⟨0, none, none⟩), (.session 2 (childRun 2), ⟨0, none, none⟩),
    (.session 1 .commit, ⟨0, none, none⟩), (.session 2 (childRun 2), ⟨0, none, none⟩),
    (.session 2 (childRun 3), ⟨0, none, none⟩)]

theorem family_sessions_intact : ∃ db client,
    (Database.inMemory ⟨0, 0, ∅⟩).run plainEngine {} familyRequests = (db, client) ∧
      (db.catalog.tables.lookup "c").map (fun table => table.rows.length) = some 2 ∧
      db.catalog.tables.Intact plainEngine.host := by
  obtain ⟨⟨db, client⟩, hrun⟩ : ∃ last,
      (Database.inMemory ⟨0, 0, ∅⟩).run plainEngine {} familyRequests = last := ⟨_, rfl⟩
  have hreport : (fun last : Database × Client =>
      (last.1.catalog.tables.lookup "c").map fun table => table.rows.length)
      ((Database.inMemory ⟨0, 0, ∅⟩).run plainEngine {} familyRequests) = some 2 := by
    decide +kernel
  have hrows : (Database.inMemory ⟨0, 0, ∅⟩).rowsInserted plainEngine familyRequests = 3 := by
    decide +kernel
  rw [hrun] at hreport
  refine ⟨db, client, hrun, hreport, (sessions_keep_integrity plainEngine
    (Database.inMemory ⟨0, 0, ∅⟩) familyRequests db {} client rfl (fun _ => rfl) ?_ hrun
    (by rw [hrows]; decide)).1⟩
  simp [familyRequests, Database.Request.Runs, createParent, createChild, insertParent,
    insertChild, Statement.Parsed]

end Sql
end RustyDB
