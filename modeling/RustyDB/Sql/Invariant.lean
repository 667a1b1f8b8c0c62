import Mathlib
import RustyDB.Sql.Index
import RustyDB.Sql.Spec

/-!
# The index representation invariant over whole runs

Every table of every catalog that statements can produce satisfies
`Table.RepInv`, and so does the table under construction between the rows of an
INSERT.

* `Table.Ok`, `CatalogOk` — the invariant with what its induction needs: names
  resolve, and the identifier counter is bounded by the rows inserted so far.
* `Reachable` — the catalogs of runs that start empty, with that number.
* `catalogOk_step` — one statement keeps the invariant.
* `repInv_of_reachable` — every table of every reachable catalog satisfies it.
-/

namespace RustyDB
namespace Sql

open KeyedIndex

/-! ## One table -/

/-- A table of a catalog into which `inserted` rows have been inserted. -/
structure Table.Ok (H : Host) (inserted : Nat) (table : Table) : Prop where
  repInv : table.RepInv H
  named : table.schema.Named
  counter : table.nextRowId ≤ inserted + 1

variable {H : Host} {inserted : Nat}

theorem TableSchema.Named.indexColumnsExist {schema : TableSchema} (h : schema.Named) :
    schema.IndexColumnsExist :=
  fun definition hmem column hcolumn =>
    TableSchema.isSome_columnIndex.mpr (h.indexes definition hmem column hcolumn)

theorem Table.Ok.mono {table : Table} {more : Nat} (h : table.Ok H inserted)
    (hle : inserted ≤ more) : table.Ok H more :=
  ⟨h.repInv, h.named, h.counter.trans (Nat.succ_le_succ hle)⟩

/-- Rebuilding the indexes of a table whose identifiers and names are in order. -/
theorem Table.ok_rebuildIndex (table : Table) (hids : table.IdsOrdered)
    (hnamed : table.schema.Named) (hcounter : table.nextRowId ≤ inserted + 1) :
    (table.rebuildIndex H).Ok H inserted :=
  ⟨Table.repInv_rebuildIndex hids hnamed.indexColumnsExist, hnamed, hcounter⟩

theorem Table.idsOrdered_of_alteredFrom {table table' : Table} (h : table.AlteredFrom table')
    (hids : table.IdsOrdered) : table'.IdsOrdered :=
  ⟨by rw [h.rowIds, h.rows, hids.lengths], h.rowIds ▸ hids.increasing,
    fun rowId hmem => h.nextRowId ▸ hids.below rowId (h.rowIds ▸ hmem)⟩

theorem Table.ok_refresh (table : Table) {table' : Table} (h : table.AlteredFrom table')
    (hok : table.Ok H inserted) : (refreshConstraintMetadata H table').Ok H inserted := by
  have hids := Table.idsOrdered_of_alteredFrom h hok.repInv.ids
  refine Table.ok_rebuildIndex { table' with schema := refreshSchema table'.schema }
    ⟨hids.lengths, hids.increasing, hids.below⟩ (named_refreshSchema (h.named hok.named)) ?_
  exact h.nextRowId ▸ hok.counter

theorem Table.ok_new {schema : TableSchema} (hnamed : schema.Named) :
    (Table.new H schema).Ok H inserted :=
  Table.ok_rebuildIndex _ ⟨rfl, List.Pairwise.nil, by simp⟩ hnamed (Nat.le_add_left 1 inserted)

theorem Table.ok_setBloomFalsePositiveRate {table : Table} (rate : F64)
    (h : table.Ok H inserted) : (table.setBloomFalsePositiveRate H rate).Ok H inserted := by
  have hids := h.repInv.ids
  exact Table.ok_rebuildIndex
    { table with bloomFalsePositiveRate := clampRate rate }
    ⟨hids.lengths, hids.increasing, hids.below⟩ h.named h.counter

/-! ## The rows of an INSERT -/

/-- What inserting rows changes in a table: it gains rows, and its counter moves
by at most as many. -/
structure Table.GrownFrom (table table' : Table) : Prop where
  schema : table'.schema = table.schema
  rows : table.rows.length ≤ table'.rows.length
  counter : table'.nextRowId + table.rows.length ≤ table.nextRowId + table'.rows.length

theorem insertRow_grown {tables : Tables} {name : String} {onDuplicate : List (String × Expr)}
    {table table' : Table} {row : Row} {added : Nat}
    (h : insertRow H tables name onDuplicate table row = .ok (table', added)) :
    table.GrownFrom table' := by
  rcases insertRow_ok h with ⟨h, -⟩ | ⟨position, updated, h⟩ | rfl
  · obtain ⟨-, rfl⟩ := Table.insertRowIndexed_eq_ok h
    refine ⟨rfl, by simp, ?_⟩
    simp only [saturatingSucc, List.length_append, List.length_singleton]
    omega
  · obtain ⟨-, previous, rowId, -, -, rfl⟩ := Table.replaceRowIndexed_eq_ok h
    exact ⟨rfl, by simp, by simp⟩
  · exact ⟨rfl, Nat.le_refl _, Nat.le_refl _⟩

theorem insertRows_grown {tables : Tables} {name : String} {onDuplicate : List (String × Expr)}
    {rows : List Row} {table table' : Table} {count count' : Nat}
    (h : insertRows H tables name onDuplicate table count rows = .ok (table', count')) :
    table.GrownFrom table' := by
  induction rows generalizing table count with
  | nil =>
    simp only [insertRows, Except.ok.injEq, Prod.mk.injEq] at h
    rw [← h.1]
    exact ⟨rfl, Nat.le_refl _, Nat.le_refl _⟩
  | cons row rows ih =>
    obtain ⟨⟨next, added⟩, hrow, hrest⟩ := Result.bind_eq_ok.mp h
    have hfirst := insertRow_grown hrow
    have hrest := ih hrest
    exact ⟨hrest.schema.trans hfirst.schema, hfirst.rows.trans hrest.rows, by
      have := hfirst.counter
      have := hrest.counter
      omega⟩

/-- **One row** keeps the invariant: the counter is not saturated when it adds one. -/
theorem insertRow_repInv {tables : Tables} {name : String} {onDuplicate : List (String × Expr)}
    {table table' : Table} {row : Row} {added : Nat}
    (h : insertRow H tables name onDuplicate table row = .ok (table', added))
    (hroom : table.nextRowId + (table'.rows.length - table.rows.length) ≤ maxRowId)
    (hinv : table.RepInv H) : table'.RepInv H := by
  rcases insertRow_ok h with ⟨h, -⟩ | ⟨position, updated, h⟩ | rfl
  · refine Table.repInv_insertRowIndexed hinv ?_ h
    obtain ⟨-, rfl⟩ := Table.insertRowIndexed_eq_ok h
    simp only [List.length_append, List.length_singleton, Nat.add_sub_cancel_left] at hroom
    exact hroom
  · exact Table.repInv_replaceRowIndexed hinv h
  · exact hinv

/-- **Any number of rows** keep the invariant, so it holds between the rows too. -/
theorem insertRows_repInv {tables : Tables} {name : String} {onDuplicate : List (String × Expr)}
    {rows : List Row} {table table' : Table} {count count' : Nat}
    (h : insertRows H tables name onDuplicate table count rows = .ok (table', count'))
    (hroom : table.nextRowId + (table'.rows.length - table.rows.length) ≤ maxRowId)
    (hinv : table.RepInv H) : table'.RepInv H := by
  induction rows generalizing table count with
  | nil =>
    simp only [insertRows, Except.ok.injEq, Prod.mk.injEq] at h
    exact h.1 ▸ hinv
  | cons row rows ih =>
    obtain ⟨⟨next, added⟩, hrow, hrest⟩ := Result.bind_eq_ok.mp h
    have hfirst := insertRow_grown hrow
    have hlast := insertRows_grown hrest
    have hlen := hfirst.rows
    have hlen' := hlast.rows
    have hcounter := hfirst.counter
    exact ih hrest (by omega) (insertRow_repInv hrow (by omega) hinv)

/-! ## Catalogs -/

/-- Every table of a catalog satisfies a predicate. -/
def Tables.All (P : Table → Prop) (tables : Tables) : Prop :=
  ∀ name table, tables.lookup name = some table → P table

namespace Tables.All

variable {P : Table → Prop} {tables : Tables}

theorem empty : Tables.All P ∅ :=
  fun name table hlookup => absurd hlookup (by simp)

theorem insert (h : tables.All P) {name : String} {table : Table} (htable : P table) :
    Tables.All P (AList.insert name table tables) := by
  intro other found hfound
  by_cases hname : other = name
  · subst hname
    rw [AList.lookup_insert, Option.some.injEq] at hfound
    exact hfound ▸ htable
  · rw [AList.lookup_insert_ne hname] at hfound
    exact h other found hfound

theorem erase (h : tables.All P) (name : String) : Tables.All P (AList.erase name tables) := by
  intro other found hfound
  by_cases hname : other = name
  · subst hname
    simp at hfound
  · rw [AList.lookup_erase_ne hname] at hfound
    exact h other found hfound

theorem mapValues (h : tables.All P) {f : String → Table → Table}
    (hf : ∀ name table, P table → P (f name table)) :
    Tables.All P (KeyedIndex.mapValues f tables) := by
  intro name table hlookup
  rw [lookup_mapValues] at hlookup
  obtain ⟨before, hbefore, rfl⟩ := Option.map_eq_some_iff.mp hlookup
  exact hf name before (h name before hbefore)

end Tables.All

/-- Every table of a catalog is in order. -/
abbrev CatalogOk (H : Host) (inserted : Nat) (tables : Tables) : Prop :=
  Tables.All (Table.Ok H inserted) tables

variable {tables tables' : Tables} {result : ExecutionResult}

theorem CatalogOk.mono (h : CatalogOk H inserted tables) {more : Nat} (hle : inserted ≤ more) :
    CatalogOk H more tables :=
  fun name table hlookup => (h name table hlookup).mono hle

theorem constraintColumns_renameReferred (tableName old new : String)
    (constraint : TableConstraint) :
    constraintColumns (renameReferred tableName old new constraint) =
      constraintColumns constraint := by
  cases constraint with
  | foreignKey foreignKey =>
    by_cases h : eqIgnoreAsciiCase foreignKey.foreignTable tableName = true
    · simp [renameReferred, constraintColumns, h]
    · simp [renameReferred, constraintColumns, h]
  | primaryKey name columns => rfl
  | unique name columns => rfl
  | check name expr => rfl

theorem catalogOk_renameInOthers (h : CatalogOk H inserted tables)
    (tableName old new : String) :
    CatalogOk H inserted (renameInOthers H tables tableName old new) := by
  refine h.mapValues fun name table hok => ?_
  split
  · exact hok
  · split
    · refine Table.ok_refresh table
        ⟨rfl, rfl, rfl, fun hnamed => ⟨?_, hnamed.indexes⟩⟩ hok
      intro constraint hc column hcol
      obtain ⟨before, hbefore, rfl⟩ := List.mem_map.mp hc
      rw [constraintColumns_renameReferred] at hcol
      exact hnamed.constraints before hbefore column hcol
    · exact hok

theorem catalogOk_alterOthers (h : CatalogOk H inserted tables) (tableName : String)
    (operation : AlterOperation) :
    CatalogOk H inserted (alterOthers H tables tableName operation) := by
  cases operation with
  | renameColumn oldName newName => exact catalogOk_renameInOthers h tableName oldName newName
  | _ => exact h

theorem applyAlterOperations_ok {others : Tables} {tableName : String} {table table' : Table}
    {operations : List AlterOperation} (hparsed : ∀ operation ∈ operations, operation.Parsed)
    (hcatalog : CatalogOk H inserted tables) (htable : table.Ok H inserted)
    (h : applyAlterOperations H tableName tables table operations = .ok (others, table')) :
    CatalogOk H inserted others ∧ table'.Ok H inserted := by
  induction operations generalizing tables table with
  | nil =>
    simp only [applyAlterOperations, Except.ok.injEq, Prod.mk.injEq] at h
    obtain ⟨rfl, rfl⟩ := h
    exact ⟨hcatalog, htable⟩
  | cons operation operations ih =>
    obtain ⟨⟨next, nextTable⟩, hoperation, hrest⟩ := Result.bind_eq_ok.mp h
    have hparsed' : ∀ operation ∈ operations, operation.Parsed :=
      fun operation hmem => hparsed operation (List.mem_cons_of_mem _ hmem)
    rcases applyAlterOperation_ok hoperation with ⟨rfl, rfl⟩ | ⟨altered, halter, rfl, rfl⟩
    · exact ih hparsed' hcatalog htable hrest
    · have hkeeps := alterTable_keeps (hparsed operation (by simp)) halter
      exact ih hparsed' (catalogOk_alterOthers hcatalog tableName operation)
        (Table.ok_refresh _ hkeeps htable) hrest

/-! ## Runs -/

/-- A statement as the parser builds it. -/
def Statement.Parsed : Statement → Prop
  | .alterTable _ operations => ∀ operation ∈ operations, operation.Parsed
  | _ => True

/-- The number of rows of a table, none for a missing one. -/
def rowCount (tables : Tables) (name : String) : Nat :=
  ((tables.lookup name).map (fun table => table.rows.length)).getD 0

/-- The number of rows a statement has inserted. -/
def insertedRows (tables tables' : Tables) : Statement → Nat
  | .insert tableName _ _ _ =>
    rowCount tables' (toAsciiLowercase tableName) - rowCount tables (toAsciiLowercase tableName)
  | _ => 0

/-- The catalogs that runs produce from the empty one, with the number of rows
inserted on the way.  A failed statement changes nothing; the Bloom filters may be
rebuilt at any time. -/
inductive Reachable (H : Host) : Tables → Nat → Prop
  | empty : Reachable H ∅ 0
  | step {tables tables' : Tables} {inserted : Nat} {statement : Statement}
      {result : ExecutionResult} :
      Reachable H tables inserted → statement.Parsed →
      executeCatalog H tables statement = .ok (result, tables') →
      Reachable H tables' (inserted + insertedRows tables tables' statement)
  | configure {tables : Tables} {inserted : Nat} (rate : F64) :
      Reachable H tables inserted →
      Reachable H (tables.configureBloomFalsePositiveRate H rate) inserted

/-- Statements one after another, counting the rows inserted. -/
def runStatements (H : Host) (state : Tables × Nat) :
    List Statement → Except Fault (Tables × Nat)
  | [] => .ok state
  | statement :: statements => do
    let (_, tables) ← executeCatalog H state.1 statement
    runStatements H (tables, state.2 + insertedRows state.1 tables statement) statements

theorem reachable_runStatements {statements : List Statement} {state state' : Tables × Nat}
    (hbefore : Reachable H state.1 state.2)
    (hparsed : ∀ statement ∈ statements, statement.Parsed)
    (h : runStatements H state statements = .ok state') : Reachable H state'.1 state'.2 := by
  induction statements generalizing state with
  | nil =>
    simp only [runStatements, Except.ok.injEq] at h
    exact h ▸ hbefore
  | cons statement statements ih =>
    obtain ⟨⟨result, tables⟩, hexecute, hrest⟩ := Result.bind_eq_ok.mp h
    exact ih (hbefore.step (hparsed statement (by simp)) hexecute)
      (fun other hmem => hparsed other (List.mem_cons_of_mem _ hmem)) hrest

/-- The table an INSERT leaves behind is in order when the counter had room. -/
theorem ok_of_insertRows {name : String} {onDuplicate : List (String × Expr)} {rows : List Row}
    {existing table : Table} {count : Nat} (hexisting : existing.Ok H inserted)
    (h : insertRows H tables name onDuplicate existing 0 rows = .ok (table, count))
    (hbound : inserted + (table.rows.length - existing.rows.length) < maxRowId) :
    table.Ok H (inserted + (table.rows.length - existing.rows.length)) := by
  have hgrown := insertRows_grown h
  have hcounter := hexisting.counter
  have hgrownCounter := hgrown.counter
  have hrows := hgrown.rows
  refine ⟨insertRows_repInv h (by omega) hexisting.repInv, ?_, by omega⟩
  rw [hgrown.schema]
  exact hexisting.named

/-- The rows and identifiers that a DELETE keeps still go together. -/
theorem Table.idsOrdered_keepRows {table : Table} (hids : table.IdsOrdered) {name : String}
    {candidates : Option BestIndex} {selection : Option Expr} {kept : List (Option (Row × Nat))}
    (hkept : table.rows.zipIdx.mapM (keepRow H tables name table candidates selection) =
      .ok kept) :
    ({ table with
      rows := (kept.filterMap id).map Prod.fst
      rowIds := (kept.filterMap id).map Prod.snd } : Table).IdsOrdered := by
  obtain ⟨flags, -, hremaining, -⟩ := keepRow_loop table.rowIds
    (fun i _ => by rw [Nat.zero_add]) hids.lengths (Result.mapM_eq_ok.mp hkept)
  have hsublist : ((kept.filterMap id).map Prod.snd).Sublist table.rowIds := by
    rw [hremaining]
    have := (unflagged_sublist (table.rows.zip table.rowIds) flags).map Prod.snd
    rwa [List.map_snd_zip (by rw [hids.lengths])] at this
  exact ⟨by simp, hids.increasing.sublist hsublist,
    fun rowId hmem => hids.below rowId (hsublist.subset hmem)⟩

/-- **One statement keeps the invariant.** -/
theorem catalogOk_step {statement : Statement} (hparsed : statement.Parsed)
    (h : executeStatement H tables statement = .ok (result, tables'))
    (hbound : inserted + insertedRows tables tables' statement < maxRowId)
    (hcatalog : CatalogOk H inserted tables) :
    CatalogOk H (inserted + insertedRows tables tables' statement) tables' := by
  cases hwrite : isWriteStatement statement with
  | false =>
    rw [executeStatement_read hwrite h]
    exact hcatalog.mono (Nat.le_add_right _ _)
  | true =>
    cases statement with
    | createTable tableName columns constraints ifNotExists =>
      rcases executeCreateTable_ok h with rfl | ⟨schema, rfl, -, -, -, hnamed⟩
      · exact hcatalog
      · exact hcatalog.insert (Table.ok_new hnamed)
    | dropTable tableName ifExists =>
      rcases executeDropTable_ok h with rfl | rfl
      · exact hcatalog
      · exact hcatalog.erase _
    | createIndex name tableName columns unique ifNotExists =>
      rcases executeCreateIndex_ok h with rfl | ⟨existing, definition, hlookup, hknown, -, rfl⟩
      · exact hcatalog
      · have hok := hcatalog _ existing hlookup
        refine hcatalog.insert (Table.ok_rebuildIndex _ ?_ ⟨hok.named.constraints, ?_⟩ hok.counter)
        · exact ⟨hok.repInv.ids.lengths, hok.repInv.ids.increasing, hok.repInv.ids.below⟩
        · intro found hmem column hcolumn
          rcases List.mem_append.mp hmem with hmem | hmem
          · exact hok.named.indexes found hmem column hcolumn
          · exact hknown column (List.mem_singleton.mp hmem ▸ hcolumn)
    | dropIndex name tableName ifExists =>
      rcases executeDropIndex_ok h with rfl | ⟨existing, position, definition, hlookup, -, -, rfl⟩
      · exact hcatalog
      · have hok := hcatalog _ existing hlookup
        refine hcatalog.insert (Table.ok_rebuildIndex _ ?_ ⟨hok.named.constraints, ?_⟩ hok.counter)
        · exact ⟨hok.repInv.ids.lengths, hok.repInv.ids.increasing, hok.repInv.ids.below⟩
        · exact fun found hmem => hok.named.indexes found (List.mem_of_mem_eraseIdx hmem)
    | alterTable tableName operations =>
      obtain ⟨existing, table, others, hlookup, hoperations, rfl⟩ := executeAlterTable_ok h
      obtain ⟨hothers, htable⟩ := applyAlterOperations_ok hparsed hcatalog
        (hcatalog _ existing hlookup) hoperations
      exact hothers.insert (Table.ok_refresh _ ⟨rfl, rfl, rfl, id⟩ htable)
    | insert tableName columns source onDuplicate =>
      obtain ⟨values, existing, table, rows, count, -, hlookup, -, hinsert, rfl, -, -⟩ :=
        executeInsert_ok h
      have hgrowth : insertedRows tables (tables.insert (toAsciiLowercase tableName) table)
          (.insert tableName columns source onDuplicate) =
          table.rows.length - existing.rows.length := by
        simp [insertedRows, rowCount, hlookup]
      rw [hgrowth] at hbound ⊢
      exact (hcatalog.mono (Nat.le_add_right _ _)).insert
        (ok_of_insertRows (hcatalog _ existing hlookup) hinsert hbound)
    | update tableName assignments selection =>
      obtain ⟨table, updated, hlookup, hupdated, rfl, -, -⟩ := executeUpdate_ok h
      have hok := hcatalog _ table hlookup
      refine hcatalog.insert (Table.ok_rebuildIndex _ ⟨?_, hok.repInv.ids.increasing,
        hok.repInv.ids.below⟩ hok.named hok.counter)
      simpa [Result.length_of_mapM hupdated] using hok.repInv.ids.lengths
    | delete tableName selection =>
      obtain ⟨table, kept, hlookup, hkept, rfl, -, -⟩ := executeDelete_ok h
      have hok := hcatalog _ table hlookup
      exact hcatalog.insert (Table.ok_rebuildIndex _
        (Table.idsOrdered_keepRows hok.repInv.ids hkept) hok.named hok.counter)
    | _ => simp [isWriteStatement] at hwrite

/-- Every reachable catalog is in order, as long as the counter has not run out. -/
theorem catalogOk_of_reachable (h : Reachable H tables inserted) (hbound : inserted < maxRowId) :
    CatalogOk H inserted tables := by
  induction h with
  | empty => exact Tables.All.empty
  | step hbefore hparsed hexecute ih =>
    exact catalogOk_step hparsed (executeCatalog_ok hexecute).1 hbound
      (ih (Nat.lt_of_le_of_lt (Nat.le_add_right _ _) hbound))
  | configure rate hbefore ih =>
    exact (ih hbound).mapValues fun name table => Table.ok_setBloomFalsePositiveRate rate

/-- **The index representation invariant.** In every catalog reachable from the
empty one with fewer than `2 ^ 64 - 1` rows inserted, every table satisfies the
invariant; and it holds of the table under construction after any number of rows
of an INSERT, with or without ON DUPLICATE KEY UPDATE. -/
theorem repInv_of_reachable (h : Reachable H tables inserted) (hbound : inserted < 2 ^ 64 - 1) :
    (∀ name table, tables.lookup name = some table → table.RepInv H) ∧
    ∀ name existing onDuplicate rows table count, tables.lookup name = some existing →
      insertRows H tables name onDuplicate existing 0 rows = .ok (table, count) →
      inserted + (table.rows.length - existing.rows.length) < 2 ^ 64 - 1 → table.RepInv H := by
  have hcatalog := catalogOk_of_reachable h hbound
  refine ⟨fun name table hlookup => (hcatalog name table hlookup).repInv, ?_⟩
  intro name existing onDuplicate rows table count hlookup hinsert hroom
  exact (ok_of_insertRows (hcatalog name existing hlookup) hinsert hroom).repInv

/-- A column without flags. -/
def plainColumn (name : String) (dataType : DataType) : ColumnDef :=
  { name, dataType, nullable := true, primaryKey := false, unique := false, default := none,
    checks := [] }

/-- `CREATE TABLE t (id INTEGER PRIMARY KEY, v INTEGER)`. -/
def createKeyed : Statement :=
  .createTable "t"
    [{ plainColumn "id" .integer with nullable := false, primaryKey := true, unique := true },
     plainColumn "v" .integer]
    [.primaryKey none ["id"]] false

/-- `INSERT INTO t VALUES (1, 10), (1, 20) ON DUPLICATE KEY UPDATE v = VALUES(v)`. -/
def upsertTwice : Statement :=
  .insert "t" none
    (.values [[.literal (.integer 1), .literal (.integer 10)],
      [.literal (.integer 1), .literal (.integer 20)]])
    [("v", .incoming "v")]

/-- The second row replaces the first, and the invariant holds after it. -/
theorem repInv_after_upsert : ∃ tables, Reachable Host.reference tables 1 ∧
    (tables.lookup "t").map Table.rows = some [[.integer 1, .integer 20]] ∧
    ∀ name table, tables.lookup name = some table → table.RepInv Host.reference := by
  have hrun : ((runStatements Host.reference (∅, 0) [createKeyed, upsertTwice]).map
      (fun state => (state.2, (state.1.lookup "t").map Table.rows))).toOption =
      some (1, some [[.integer 1, .integer 20]]) := by
    decide +kernel
  obtain ⟨⟨tables, inserted⟩, hstatements, hreport⟩ :=
    Result.map_eq_ok.mp (Result.toOption_eq_some.mp hrun)
  obtain ⟨rfl, hrows⟩ := Prod.mk.inj hreport
  have hreach : Reachable Host.reference tables 1 := reachable_runStatements Reachable.empty
    (by simp [createKeyed, upsertTwice, Statement.Parsed]) hstatements
  exact ⟨tables, hreach, hrows, (repInv_of_reachable hreach (by decide)).1⟩

end Sql
end RustyDB
