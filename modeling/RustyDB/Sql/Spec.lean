import Mathlib
import RustyDB.Lib.Result
import RustyDB.Sql.Execute
import RustyDB.Sql.Schema

/-!
# What a successful statement has done

One inversion lemma for each statement: when it succeeds, how the tables after it
come from the tables before it.  Invariants are proved from these lemmas and do
not unfold the statements again.

* `executeCatalog_ok`, `publishTable_ok` — the frame around every write.
* `executeCreateTable_ok`, `executeCreateIndex_ok`, `executeDropIndex_ok`,
  `executeDropTable_ok`, `executeAlterTable_ok`.
* `executeInsert_ok`, `executeUpdate_ok`, `executeDelete_ok`.
-/

namespace RustyDB
namespace Sql

variable {H : Host} {tables tables' : Tables} {result : ExecutionResult}

/-! ## The frame -/

theorem executeCatalog_ok {statement : Statement}
    (h : executeCatalog H tables statement = .ok (result, tables')) :
    executeStatement H tables statement = .ok (result, tables') ∧
      (isWriteStatement statement = true → validateCatalog H tables' = .ok ()) := by
  unfold executeCatalog at h
  split at h
  · obtain ⟨⟨found, working⟩, hexecute, h⟩ := Result.bind_eq_ok.mp h
    obtain ⟨⟨⟩, hvalid, h⟩ := Result.bind_eq_ok.mp h
    simp only [Result.pure_eq_ok, Except.ok.injEq, Prod.mk.injEq] at h
    obtain ⟨rfl, rfl⟩ := h
    exact ⟨hexecute, fun _ => hvalid⟩
  · rename_i hread
    exact ⟨h, fun hwrite => absurd hwrite hread⟩

theorem publishTable_ok {name : String} {table : Table} {count : Nat}
    (h : publishTable H tables name table count = .ok (result, tables')) :
    tables' = tables.insert name table ∧ validateCatalog H tables' = .ok () ∧
      result = .rowsAffected count := by
  obtain ⟨⟨⟩, hvalid, h⟩ := Result.bind_eq_ok.mp h
  simp only [Result.pure_eq_ok, Except.ok.injEq, Prod.mk.injEq] at h
  obtain ⟨rfl, rfl⟩ := h
  exact ⟨rfl, hvalid, rfl⟩

/-! ## CREATE and DROP -/

theorem applyConstraints_ok {seen : List String} {columns columns' : List ColumnDef}
    {primaryKeys primaryKeys' : Nat} {constraints : List TableConstraint}
    (h : applyConstraints seen columns primaryKeys constraints = .ok (columns', primaryKeys')) :
    columns'.map ColumnDef.name = columns.map ColumnDef.name ∧
      ∀ constraint ∈ constraints, ∀ column ∈ constraintColumns constraint,
        toAsciiLowercase column ∈ seen := by
  induction constraints generalizing columns primaryKeys with
  | nil =>
    simp only [applyConstraints, Except.ok.injEq, Prod.mk.injEq] at h
    exact ⟨by rw [h.1], by simp⟩
  | cons constraint constraints ih =>
    rw [applyConstraints] at h
    split at h
    · simp [refuse] at h
    · rename_i hknown
      obtain ⟨hnames, hseen⟩ := ih h
      refine ⟨hnames.trans ?_, ?_⟩
      · cases constraint with
        | primaryKey name keyColumns => exact names_markPrimaryKey keyColumns columns
        | unique name columns => rfl
        | check name expr => rfl
        | foreignKey foreignKey => rfl
      · intro found hfound column hcolumn
        rcases List.mem_cons.mp hfound with rfl | hfound
        · simpa using List.find?_eq_none.mp hknown column hcolumn
        · exact hseen found hfound column hcolumn

/-- The constraints of CREATE TABLE name columns of the table. -/
theorem hasColumn_of_applyConstraints {columns flagged : List ColumnDef}
    {constraints : List TableConstraint} {primaryKeys primaryKeys' : Nat}
    (h : applyConstraints (columns.map fun column => toAsciiLowercase column.name) columns
      primaryKeys constraints = .ok (flagged, primaryKeys')) :
    ∀ constraint ∈ constraints, ∀ column ∈ constraintColumns constraint,
      ∃ found ∈ flagged, eqIgnoreAsciiCase found.name column = true := by
  obtain ⟨hnames, hseen⟩ := applyConstraints_ok h
  intro constraint hc column hcol
  obtain ⟨declared, hdeclared, hlower⟩ := List.mem_map.mp (hseen constraint hc column hcol)
  have hmem : declared.name ∈ flagged.map ColumnDef.name := by
    rw [hnames]
    exact List.mem_map_of_mem hdeclared
  obtain ⟨found, hfound, hname⟩ := List.mem_map.mp hmem
  exact ⟨found, hfound, toAsciiLowercase_inj.mp (hname ▸ hlower)⟩

/-- CREATE TABLE adds one empty table whose constraints name known columns. -/
theorem executeCreateTable_ok {tableName : String} {columns : List ColumnDef}
    {constraints : List TableConstraint} {ifNotExists : Bool}
    (h : executeCreateTable H tables tableName columns constraints ifNotExists =
      .ok (result, tables')) :
    tables' = tables ∨ ∃ schema : TableSchema,
      tables' = tables.insert (toAsciiLowercase tableName) (Table.new H schema) ∧
      schema.name = toAsciiLowercase tableName ∧ schema.constraints = constraints ∧
      schema.indexes = automaticIndexes schema ∧ schema.Named := by
  unfold executeCreateTable at h
  simp only at h
  split at h
  · split at h
    · simp only [Except.ok.injEq, Prod.mk.injEq] at h
      exact Or.inl h.2.symm
    · simp [refuse] at h
  · split at h
    · simp [refuse] at h
    · obtain ⟨⟨flagged, primaryKeys⟩, hconstraints, h⟩ := Result.bind_eq_ok.mp h
      split at h
      · simp [refuse] at h
      · simp only [Result.pure_eq_ok, Except.ok.injEq, Prod.mk.injEq] at h
        obtain ⟨-, rfl⟩ := h
        have hcolumns := hasColumn_of_applyConstraints hconstraints
        exact Or.inr ⟨_, rfl, rfl, rfl, rfl, hcolumns, hasColumn_automaticIndexes hcolumns⟩

theorem executeDropTable_ok {tableName : String} {ifExists : Bool}
    (h : executeDropTable H tables tableName ifExists = .ok (result, tables')) :
    tables' = tables ∨ tables' = tables.erase (toAsciiLowercase tableName) := by
  unfold executeDropTable at h
  simp only at h
  split at h
  · split at h
    · simp only [Except.ok.injEq, Prod.mk.injEq] at h
      exact Or.inl h.2.symm
    · simp [refuse] at h
  · split at h
    · simp [refuse] at h
    · simp only [Except.ok.injEq, Prod.mk.injEq] at h
      exact Or.inr h.2.symm

/-- CREATE INDEX rebuilds its table with one definition more. -/
theorem executeCreateIndex_ok {name tableName : String} {columns : List String}
    {unique ifNotExists : Bool}
    (h : executeCreateIndex H tables name tableName columns unique ifNotExists =
      .ok (result, tables')) :
    tables' = tables ∨ ∃ (existing : Table) (definition : IndexDef),
      tables.lookup (toAsciiLowercase tableName) = some existing ∧
      (∀ column ∈ definition.columns, existing.schema.HasColumn column) ∧
      definition.automatic = false ∧
      tables' = tables.insert (toAsciiLowercase tableName) (Table.rebuildIndex H { existing with
        schema := { existing.schema with
          indexes := existing.schema.indexes ++ [definition] } }) := by
  unfold executeCreateIndex at h
  simp only at h
  cases hlookup : tables.lookup (toAsciiLowercase tableName) with
  | none => simp [hlookup, refuse] at h
  | some existing =>
    simp only [hlookup] at h
    split at h
    · split at h
      · simp only [Except.ok.injEq, Prod.mk.injEq] at h
        exact Or.inl h.2.symm
      · simp [refuse] at h
    · split at h
      · simp [refuse] at h
      · split at h
        · simp [refuse] at h
        · rename_i hknown
          obtain ⟨⟨⟩, -, h⟩ := Result.bind_eq_ok.mp h
          simp only [Result.pure_eq_ok, Except.ok.injEq, Prod.mk.injEq] at h
          refine Or.inr ⟨existing, _, rfl, ?_, rfl, h.2.symm⟩
          intro column hcolumn
          have hsome := List.find?_eq_none.mp hknown column hcolumn
          rw [Bool.not_eq_true, Option.isNone_eq_false_iff] at hsome
          exact TableSchema.isSome_columnIndex.mp hsome

/-- DROP INDEX rebuilds its table without one definition, which is not automatic. -/
theorem executeDropIndex_ok {name tableName : String} {ifExists : Bool}
    (h : executeDropIndex H tables name tableName ifExists = .ok (result, tables')) :
    tables' = tables ∨ ∃ (existing : Table) (position : Nat) (definition : IndexDef),
      tables.lookup (toAsciiLowercase tableName) = some existing ∧
      existing.schema.indexes[position]? = some definition ∧ definition.automatic = false ∧
      tables' = tables.insert (toAsciiLowercase tableName) (Table.rebuildIndex H { existing with
        schema := { existing.schema with
          indexes := existing.schema.indexes.eraseIdx position } }) := by
  unfold executeDropIndex at h
  simp only at h
  cases hlookup : tables.lookup (toAsciiLowercase tableName) with
  | none => simp [hlookup, refuse] at h
  | some existing =>
    simp only [hlookup] at h
    split at h
    · split at h
      · simp only [Except.ok.injEq, Prod.mk.injEq] at h
        exact Or.inl h.2.symm
      · simp [refuse] at h
    · rename_i position hposition
      obtain ⟨hlt, -, -⟩ := List.findIdx?_eq_some_iff_getElem.mp hposition
      split at h
      · simp [refuse] at h
      · rename_i hmanual
        simp only [Except.ok.injEq, Prod.mk.injEq] at h
        refine Or.inr ⟨existing, position, _, rfl, List.getElem?_eq_getElem hlt, ?_, h.2.symm⟩
        simpa [List.getElem?_eq_getElem hlt] using hmanual

/-- ALTER TABLE runs its operations and refreshes the metadata. -/
theorem executeAlterTable_ok {tableName : String} {operations : List AlterOperation}
    (h : executeAlterTable H tables tableName operations = .ok (result, tables')) :
    ∃ (existing table : Table) (others : Tables),
      tables.lookup (toAsciiLowercase tableName) = some existing ∧
      applyAlterOperations H (toAsciiLowercase tableName) tables existing operations =
        .ok (others, table) ∧
      tables' = others.insert (toAsciiLowercase tableName) (refreshConstraintMetadata H table) := by
  unfold executeAlterTable at h
  simp only at h
  cases hlookup : tables.lookup (toAsciiLowercase tableName) with
  | none => simp [hlookup, refuse] at h
  | some existing =>
    simp only [hlookup] at h
    obtain ⟨⟨others, table⟩, hoperations, h⟩ := Result.bind_eq_ok.mp h
    simp only [Result.pure_eq_ok, Except.ok.injEq, Prod.mk.injEq] at h
    exact ⟨existing, table, others, rfl, hoperations, h.2.symm⟩

theorem applyAlterOperation_ok {others : Tables} {tableName : String} {table table' : Table}
    {operation : AlterOperation}
    (h : applyAlterOperation H tables tableName table operation = .ok (others, table')) :
    (others = tables ∧ table' = table) ∨ ∃ altered,
      alterTable H tables tableName table operation = .ok (some altered) ∧
      others = alterOthers H tables tableName operation ∧
      table' = refreshConstraintMetadata H altered := by
  obtain ⟨altered, halter, h⟩ := Result.bind_eq_ok.mp h
  cases altered with
  | none =>
    simp only [Result.pure_eq_ok, Except.ok.injEq, Prod.mk.injEq] at h
    exact Or.inl ⟨h.1.symm, h.2.symm⟩
  | some altered =>
    simp only [Result.pure_eq_ok, Except.ok.injEq, Prod.mk.injEq] at h
    exact Or.inr ⟨altered, halter, h.1.symm, h.2.symm⟩

/-! ## INSERT -/

/-- INSERT evaluates its rows and files them one after another. -/
theorem executeInsert_ok {tableName : String} {columns : Option (List String)}
    {source : InsertSource} {onDuplicate : List (String × Expr)}
    (h : executeInsert H tables tableName columns source onDuplicate = .ok (result, tables')) :
    ∃ (values : List (List Expr)) (existing table : Table) (rows : List Row) (count : Nat),
      insertValues H tables source = .ok values ∧
      tables.lookup (toAsciiLowercase tableName) = some existing ∧
      values.mapM (incomingRow H existing.schema columns) = .ok rows ∧
      insertRows H tables (toAsciiLowercase tableName) onDuplicate existing 0 rows =
        .ok (table, count) ∧
      tables' = tables.insert (toAsciiLowercase tableName) table ∧
      validateCatalog H tables' = .ok () ∧ result = .rowsAffected count := by
  obtain ⟨values, hvalues, h⟩ := Result.bind_eq_ok.mp h
  cases hlookup : tables.lookup (toAsciiLowercase tableName) with
  | none => simp [hlookup, refuse] at h
  | some existing =>
    simp only [hlookup] at h
    obtain ⟨rows, hrows, h⟩ := Result.bind_eq_ok.mp h
    obtain ⟨⟨table, count⟩, hinsert, h⟩ := Result.bind_eq_ok.mp h
    exact ⟨values, existing, table, rows, count, hvalues, rfl, hrows, hinsert, publishTable_ok h⟩

/-- One row of an INSERT: filed, merged into the row it collides with, or left as
that row is. -/
theorem insertRow_ok {name : String} {onDuplicate : List (String × Expr)} {table table' : Table}
    {row : Row} {added : Nat}
    (h : insertRow H tables name onDuplicate table row = .ok (table', added)) :
    (table.insertRowIndexed H row = .ok table' ∧ conflictPositions H table row = []) ∨
    (∃ (position : Nat) (updated : Row),
      table.replaceRowIndexed H position updated = .ok table') ∨
    table' = table := by
  unfold insertRow at h
  split at h
  · rename_i hconflicts
    obtain ⟨inserted, hinsert, h⟩ := Result.bind_eq_ok.mp h
    simp only [Result.pure_eq_ok, Except.ok.injEq, Prod.mk.injEq] at h
    obtain ⟨rfl, -⟩ := h
    exact Or.inl ⟨hinsert, hconflicts⟩
  · split at h
    · simp [refuse] at h
    · split at h
      · simp [refuse] at h
      · split at h
        · simp at h
        · obtain ⟨updated, -, h⟩ := Result.bind_eq_ok.mp h
          split at h
          · simp only [Result.pure_eq_ok, Except.ok.injEq, Prod.mk.injEq] at h
            exact Or.inr (Or.inr h.1.symm)
          · obtain ⟨replaced, hreplace, h⟩ := Result.bind_eq_ok.mp h
            simp only [Result.pure_eq_ok, Except.ok.injEq, Prod.mk.injEq] at h
            obtain ⟨rfl, -⟩ := h
            exact Or.inr (Or.inl ⟨_, updated, hreplace⟩)

/-! ## UPDATE and DELETE -/

/-- UPDATE rewrites each row in place and rebuilds the indexes. -/
theorem executeUpdate_ok {tableName : String} {assignments : List (String × Expr)}
    {selection : Option Expr}
    (h : executeUpdate H tables tableName assignments selection = .ok (result, tables')) :
    ∃ (table : Table) (updated : List (Row × Bool)),
      tables.lookup (toAsciiLowercase tableName) = some table ∧
      table.rows.zipIdx.mapM (updateRow H tables (toAsciiLowercase tableName) table
        (table.candidateRowIds H selection) assignments selection) = .ok updated ∧
      tables' = tables.insert (toAsciiLowercase tableName)
        (Table.rebuildIndex H { table with rows := updated.map Prod.fst }) ∧
      validateCatalog H tables' = .ok () ∧
      result = .rowsAffected (updated.filter Prod.snd).length := by
  unfold executeUpdate at h
  simp only at h
  cases hlookup : tables.lookup (toAsciiLowercase tableName) with
  | none => simp [hlookup, refuse] at h
  | some table =>
    simp only [hlookup] at h
    obtain ⟨updated, hupdated, h⟩ := Result.bind_eq_ok.mp h
    exact ⟨table, updated, rfl, hupdated, publishTable_ok h⟩

/-- The items whose flag is down. -/
def unflagged {α : Type} (items : List α) (flags : List Bool) : List α :=
  (items.zip flags).filterMap (fun entry => if entry.2 then none else some entry.1)

theorem unflagged_sublist {α : Type} (items : List α) (flags : List Bool) :
    (unflagged items flags).Sublist items := by
  induction items generalizing flags with
  | nil => simp [unflagged]
  | cons item items ih =>
    cases flags with
    | nil => simp [unflagged]
    | cons flag flags =>
      cases flag with
      | true => simpa [unflagged] using (ih flags).cons item
      | false => simpa [unflagged] using ih flags

/-- The DELETE loop, from position `k` on. -/
theorem keepRow_loop {name : String} {table : Table} {candidates : Option BestIndex}
    {selection : Option Expr} {rows : List Row} (rowIds : List Nat) {k : Nat}
    {kept : List (Option (Row × Nat))}
    (hids : ∀ i, i < rows.length → table.rowIds[k + i]? = rowIds[i]?)
    (hlengths : rowIds.length = rows.length)
    (h : List.Forall₂ (fun entry o =>
      keepRow H tables name table candidates selection entry = .ok o)
      (rows.zipIdx k) kept) :
    ∃ flags : List Bool,
      List.Forall₂ (fun entry flag =>
        affects H tables name table candidates selection entry = .ok flag)
        (rows.zipIdx k) flags ∧
      kept.filterMap id = unflagged (rows.zip rowIds) flags ∧
      (kept.filter Option.isNone).length = (flags.filter id).length := by
  induction rows generalizing rowIds k kept with
  | nil =>
    cases h
    exact ⟨[], List.Forall₂.nil, by simp [unflagged], rfl⟩
  | cons row rows ih =>
    cases rowIds with
    | nil => simp at hlengths
    | cons rowId rowIds =>
      rw [List.zipIdx_cons] at h ⊢
      cases h with
      | cons hrow hrest =>
        rename_i o kept
        have hids' : ∀ i, i < rows.length → table.rowIds[k + 1 + i]? = rowIds[i]? := by
          intro i hi
          have := hids (i + 1) (by simpa using hi)
          rwa [List.getElem?_cons_succ, ← Nat.add_assoc, Nat.add_right_comm] at this
        obtain ⟨flags, hflags, hkept, hcount⟩ :=
          ih rowIds hids' (by simpa using hlengths) hrest
        obtain ⟨flag, hflag, ho⟩ := Result.bind_eq_ok.mp hrow
        refine ⟨flag :: flags, List.Forall₂.cons hflag hflags, ?_⟩
        have hself : table.rowIds[k]? = some rowId := by simpa using hids 0 (by simp)
        cases flag with
        | true =>
          simp only [if_true, Result.pure_eq_ok, Except.ok.injEq] at ho
          subst ho
          simpa [unflagged] using ⟨hkept, hcount⟩
        | false =>
          simp only [Bool.false_eq_true, if_false, hself, Result.pure_eq_ok,
            Except.ok.injEq] at ho
          subst ho
          simpa [unflagged] using ⟨hkept, hcount⟩

/-- DELETE keeps the rows it does not select, with their identifiers, and rebuilds
the indexes. -/
theorem executeDelete_ok {tableName : String} {selection : Option Expr}
    (h : executeDelete H tables tableName selection = .ok (result, tables')) :
    ∃ (table : Table) (kept : List (Option (Row × Nat))),
      tables.lookup (toAsciiLowercase tableName) = some table ∧
      table.rows.zipIdx.mapM (keepRow H tables (toAsciiLowercase tableName) table
        (table.candidateRowIds H selection) selection) = .ok kept ∧
      tables' = tables.insert (toAsciiLowercase tableName) (Table.rebuildIndex H { table with
        rows := (kept.filterMap id).map Prod.fst
        rowIds := (kept.filterMap id).map Prod.snd }) ∧
      validateCatalog H tables' = .ok () ∧
      result = .rowsAffected (kept.filter Option.isNone).length := by
  unfold executeDelete at h
  simp only at h
  cases hlookup : tables.lookup (toAsciiLowercase tableName) with
  | none => simp [hlookup, refuse] at h
  | some table =>
    simp only [hlookup] at h
    obtain ⟨kept, hkept, h⟩ := Result.bind_eq_ok.mp h
    exact ⟨table, kept, rfl, hkept, publishTable_ok h⟩

/-! ## Statements that do not write -/

theorem executeStatement_read {statement : Statement} (hread : isWriteStatement statement = false)
    (h : executeStatement H tables statement = .ok (result, tables')) : tables' = tables := by
  cases statement with
  | query query =>
    obtain ⟨relation, -, h⟩ := Result.bind_eq_ok.mp h
    simp only [Result.pure_eq_ok, Except.ok.injEq, Prod.mk.injEq] at h
    exact h.2.symm
  | showIndexes tableName =>
    simp only [executeStatement] at h
    split at h
    · simp only [Except.ok.injEq, Prod.mk.injEq] at h
      exact h.2.symm
    · simp [refuse] at h
  | describeTable tableName =>
    simp only [executeStatement] at h
    split at h
    · simp only [Except.ok.injEq, Prod.mk.injEq] at h
      exact h.2.symm
    · simp [refuse] at h
  | showTables =>
    simp only [executeStatement, Except.ok.injEq, Prod.mk.injEq] at h
    exact h.2.symm
  | explain statement =>
    simp only [executeStatement, Except.ok.injEq, Prod.mk.injEq] at h
    exact h.2.symm
  | begin => simp [executeStatement, refuse] at h
  | commit => simp [executeStatement, refuse] at h
  | rollback => simp [executeStatement, refuse] at h
  | setVariable name value => simp [executeStatement, refuse] at h
  | prepare name source => simp [executeStatement, refuse] at h
  | executePrepared name using_ => simp [executeStatement, refuse] at h
  | deallocatePrepared name => simp [executeStatement, refuse] at h
  | createTable tableName columns constraints ifNotExists => simp [isWriteStatement] at hread
  | dropTable tableName ifExists => simp [isWriteStatement] at hread
  | createIndex name tableName columns unique ifNotExists => simp [isWriteStatement] at hread
  | dropIndex name tableName ifExists => simp [isWriteStatement] at hread
  | alterTable tableName operations => simp [isWriteStatement] at hread
  | insert tableName columns source onDuplicate => simp [isWriteStatement] at hread
  | update tableName assignments selection => simp [isWriteStatement] at hread
  | delete tableName selection => simp [isWriteStatement] at hread

end Sql
end RustyDB
