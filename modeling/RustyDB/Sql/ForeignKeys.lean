import Mathlib
import RustyDB.Sql.Keys
import RustyDB.Sql.Fold

/-!
# Foreign keys

A foreign key lists referencing and referenced columns, and no statement compares the
lengths of the two lists.  The check of the catalog walks the referenced columns and
indexes the key of the child row by their positions: with more referenced columns than
referencing ones it leaves the key as soon as a parent row agrees on the pairs there are,
and with fewer it passes keys that name no parent.

* `ForeignKeyHolds` — what a foreign key says.
* `validateChildRow_eq` — the check of one child row.
* `keyChecks`, `validateForeignKeys_eq_checks` — the checks in the order they are made.
* `foreign_keys_exact_iff` — **when the check is total and exact.**
* `overrun_by_insert` — an INSERT that makes it panic.
-/

namespace RustyDB
namespace Sql

/-! ## What a foreign key says -/

/-- The value of a row in the column of a name. -/
def cell (schema : TableSchema) (row : Row) (column : String) : Option Value :=
  (schema.columnIndex column).bind (fun index => row[index]?)

/-- The parent table of a foreign key: it exists, and the referenced columns are, in order,
the columns of one of its unique indexes. -/
def IsTarget (tables : Tables) (foreignKey : ForeignKeyConstraint) (parent : Table) : Prop :=
  tables.lookup foreignKey.foreignTable = some parent ∧
    ∃ index ∈ parent.schema.indexes, index.unique = true ∧
      index.columns.map toAsciiLowercase = foreignKey.referredColumns.map toAsciiLowercase

/-- No referencing column of a child row is NULL. -/
def FullKey (table : Table) (foreignKey : ForeignKeyConstraint) (child : Row) : Prop :=
  ∀ column ∈ foreignKey.columns, cell table.schema child column ≠ some .null

/-- Some parent row equals the child row on every pair of a referencing and a referenced
column. -/
def HasParentRow (parent table : Table) (foreignKey : ForeignKeyConstraint) (child : Row) : Prop :=
  ∃ row ∈ parent.rows, ∀ pair ∈ foreignKey.columns.zip foreignKey.referredColumns,
    ∃ wanted value, cell table.schema child pair.1 = some wanted ∧
      cell parent.schema row pair.2 = some value ∧ value.eq wanted = true

/-- The two lists pair up. -/
def Paired (foreignKey : ForeignKeyConstraint) : Prop :=
  foreignKey.columns.length = foreignKey.referredColumns.length

/-- A foreign key holds: it has a target, its lists pair up, and every child row without
NULL in its key has a parent row. -/
def ForeignKeyHolds (tables : Tables) (table : Table) (foreignKey : ForeignKeyConstraint) : Prop :=
  ∃ parent, IsTarget tables foreignKey parent ∧ Paired foreignKey ∧
    ∀ child ∈ table.rows, FullKey table foreignKey child →
      HasParentRow parent table foreignKey child

/-- What CREATE TABLE, CREATE INDEX and ALTER TABLE check of names, and the validation of
the rows of their number of values: the two hold before the foreign keys are looked at. -/
structure Table.Complete (table : Table) : Prop where
  named : table.schema.Named
  rows : ∀ row ∈ table.rows, row.length = table.schema.columns.length

/-! ## One child row -/

/-- A parent row agrees with a key as far as both the positions and the key go. -/
def agrees (parentIndices : List Nat) (key : List Value) (row : Row) : Bool :=
  (parentIndices.zip key).all fun pair => row[pair.1]?.any fun value => value.eq pair.2

section Rows

variable {parentIndices : List Nat} {key : List Value}

/-- The loop over the referenced columns, from the position `start` on. -/
theorem parentMatches_from {start : Nat} {rest : List Value} (hrest : key.drop start = rest)
    {row : Row} (hrow : ∀ i ∈ parentIndices, i < row.length) :
    ((parentIndices.zipIdx start).allM fun entry => do
      let value ← rowAt row entry.1
      let wanted ← keyAt key entry.2
      pure (value.eq wanted) : Except Fault Bool) =
    if agrees parentIndices rest row then
      if parentIndices.length ≤ rest.length then .ok true else .error .panic
    else .ok false := by
  induction parentIndices generalizing start rest with
  | nil => rfl
  | cons index parentIndices ih =>
    have hlt : index < row.length := hrow index (by simp)
    have hvalue : rowAt row index = .ok row[index] := by
      rw [rowAt, List.getElem?_eq_getElem hlt]
    rw [List.zipIdx_cons, List.allM_cons, hvalue, Result.ok_bind]
    cases rest with
    | nil =>
      -- the key ends before the referenced columns do
      have hkey : keyAt key start = .error .panic := by
        have hlen : key.length ≤ start := List.drop_eq_nil_iff.mp hrest
        rw [keyAt, rowAt, List.getElem?_eq_none hlen]
      simp [hkey, agrees]
    | cons wanted rest =>
      have hkey : keyAt key start = .ok wanted := by
        have hget : key[start]? = some wanted := by
          rw [← Nat.add_zero start, ← List.getElem?_drop, hrest, List.getElem?_cons_zero]
        rw [keyAt, rowAt, hget]
      have hdrop : key.drop (start + 1) = rest := by
        rw [← List.drop_drop, hrest, List.drop_one, List.tail_cons]
      have hagrees : agrees (index :: parentIndices) (wanted :: rest) row =
          (row[index].eq wanted && agrees parentIndices rest row) := by
        simp [agrees, List.getElem?_eq_getElem hlt]
      have hlater := ih hdrop fun i hi => hrow i (List.mem_cons_of_mem _ hi)
      simp only [hkey, Result.ok_bind, hagrees, List.length_cons, Nat.add_le_add_iff_right]
      cases hequal : row[index].eq wanted with
      | true => simpa using hlater
      | false => simp

/-- **One parent row**: it matches, it does not, or it agrees on all of a key that is too
short. -/
theorem parentMatches_eq {row : Row} (hrow : ∀ i ∈ parentIndices, i < row.length) :
    parentMatches parentIndices key row =
      if agrees parentIndices key row then
        if parentIndices.length ≤ key.length then .ok true else .error .panic
      else .ok false :=
  parentMatches_from List.drop_zero hrow

/-- **All parent rows**, up to the first that agrees. -/
theorem anyM_parentMatches {parentRows : List Row}
    (hrows : ∀ row ∈ parentRows, ∀ i ∈ parentIndices, i < row.length) :
    parentRows.anyM (parentMatches parentIndices key) =
      if parentRows.any (agrees parentIndices key) then
        if parentIndices.length ≤ key.length then .ok true else .error .panic
      else .ok false := by
  induction parentRows with
  | nil => rfl
  | cons row parentRows ih =>
    rw [List.anyM_cons, parentMatches_eq (hrows row (by simp)), List.any_cons,
      ih fun other hmem => hrows other (List.mem_cons_of_mem _ hmem)]
    cases agrees parentIndices key row with
    | false => simp
    | true =>
      simp only [if_true, Bool.true_or]
      split_ifs <;> simp

/-- **One child row** whose key is `key`. -/
theorem validateChildRow_eq {foreignKey : ForeignKeyConstraint} {childIndices : List Nat}
    {parentRows : List Row} {child : Row}
    (hkey : childIndices.mapM (rowAt child) = .ok key)
    (hrows : ∀ row ∈ parentRows, ∀ i ∈ parentIndices, i < row.length) :
    validateChildRow foreignKey childIndices parentIndices parentRows child =
      if key.any Value.isNull then .ok ()
      else if parentRows.any (agrees parentIndices key) then
        if parentIndices.length ≤ key.length then .ok () else .error .panic
      else
        let shown := foreignKey.name.getD "<unnamed>"
        refuse s!"FOREIGN KEY constraint '{shown}' failed" := by
  simp only [validateChildRow, hkey, Result.ok_bind, anyM_parentMatches hrows]
  split_ifs <;> simp

end Rows

/-! ## Names and positions -/

section Positions

variable {schema parentSchema : TableSchema} {columns referred : List String}
  {child row : Row} {key : List Value} {indices parentIndices : List Nat}

/-- The positions of columns that exist. -/
theorem exists_columnPositions (h : ∀ column ∈ columns, schema.HasColumn column) (what : String) :
    ∃ indices, columnPositions schema columns what = .ok indices ∧
      List.Forall₂ (fun column index => schema.columnIndex column = some index)
        columns indices := by
  induction columns with
  | nil => exact ⟨[], rfl, List.Forall₂.nil⟩
  | cons column columns ih =>
    obtain ⟨indices, hindices, hpositions⟩ := ih fun other hmem => h other (by simp [hmem])
    obtain ⟨index, hindex⟩ := Option.isSome_iff_exists.mp
      (TableSchema.isSome_columnIndex.mpr (h column (by simp)))
    refine ⟨index :: indices, ?_, List.Forall₂.cons hindex hpositions⟩
    unfold columnPositions at hindices ⊢
    rw [Result.mapM_eq_ok] at hindices ⊢
    exact List.Forall₂.cons (by rw [hindex]) hindices

theorem lt_of_columnIndex {column : String} {index : Nat}
    (h : schema.columnIndex column = some index) : index < schema.columns.length := by
  obtain ⟨found, hfound, -⟩ := TableSchema.columnIndex_eq_some h
  exact (List.getElem?_eq_some_iff.mp hfound).1

theorem lt_of_positions
    (h : List.Forall₂ (fun column index => schema.columnIndex column = some index)
      columns indices) : ∀ index ∈ indices, index < schema.columns.length := by
  induction h with
  | nil => simp
  | cons hindex _ ih => exact List.forall_mem_cons.mpr ⟨lt_of_columnIndex hindex, ih⟩

/-- The key of a row that has a value for every column. -/
theorem exists_key (hrow : child.length = schema.columns.length)
    (hpositions : List.Forall₂ (fun column index => schema.columnIndex column = some index)
      columns indices) :
    ∃ key, indices.mapM (rowAt child) = .ok key ∧
      List.Forall₂ (fun column value => cell schema child column = some value) columns key := by
  induction hpositions with
  | nil => exact ⟨[], rfl, List.Forall₂.nil⟩
  | @cons column index columns indices hindex _ ih =>
    obtain ⟨key, hkey, hcells⟩ := ih
    have hlt : index < child.length := by
      rw [hrow]
      exact lt_of_columnIndex hindex
    have hvalue := List.getElem?_eq_getElem hlt
    refine ⟨child[index] :: key, ?_, List.Forall₂.cons ?_ hcells⟩
    · rw [Result.mapM_eq_ok] at hkey ⊢
      exact List.Forall₂.cons (by rw [rowAt, hvalue]) hkey
    · rw [cell, hindex, Option.bind_some, hvalue]

theorem any_isNull_iff
    (hcells : List.Forall₂ (fun column value => cell schema child column = some value)
      columns key) :
    key.any Value.isNull = true ↔ ¬ ∀ column ∈ columns, cell schema child column ≠ some .null := by
  induction hcells with
  | nil => simp
  | @cons column value columns key hcell _ ih =>
    rw [List.any_cons, Bool.or_eq_true, ih, List.forall_mem_cons, hcell, Value.isNull_iff]
    by_cases hvalue : value = .null
    · simp [hvalue]
    · simp [hvalue]

/-- Positions and columns agree alike. -/
theorem agrees_iff
    (hcells : List.Forall₂ (fun column value => cell schema child column = some value)
      columns key)
    (hpositions : List.Forall₂ (fun column index => parentSchema.columnIndex column = some index)
      referred parentIndices) :
    agrees parentIndices key row = true ↔ ∀ pair ∈ columns.zip referred,
      ∃ wanted value, cell schema child pair.1 = some wanted ∧
        cell parentSchema row pair.2 = some value ∧ value.eq wanted = true := by
  induction hcells generalizing referred parentIndices with
  | nil => simp [agrees]
  | @cons column wanted columns key hcell _ ih =>
    cases hpositions with
    | nil => simp [agrees]
    | @cons name index referred parentIndices hindex hpositions =>
      have hcons : agrees (index :: parentIndices) (wanted :: key) row =
          (row[index]?.any (fun value => value.eq wanted) && agrees parentIndices key row) := rfl
      rw [hcons, Bool.and_eq_true, ih hpositions, List.zip_cons_cons, List.forall_mem_cons]
      refine and_congr_left fun _ => ?_
      have hparent : cell parentSchema row name = row[index]? := by
        rw [cell, hindex, Option.bind_some]
      simp only [hcell, hparent, Option.any_eq_true, Option.some.injEq, exists_eq_left',
        exists_and_left]

end Positions

/-! ## One foreign key -/

section Checks

variable {H : Host} {tables : Tables} {table parent : Table} {foreignKey : ForeignKeyConstraint}

theorem IsTarget.unique {other : Table} (h : IsTarget tables foreignKey parent)
    (h' : IsTarget tables foreignKey other) : other = parent :=
  Option.some.inj (h'.1.symm.trans h.1)

/-- The referenced columns of a target exist. -/
theorem IsTarget.hasColumn (h : IsTarget tables foreignKey parent)
    (hparent : parent.schema.Named) :
    ∀ column ∈ foreignKey.referredColumns, parent.schema.HasColumn column := by
  intro column hcolumn
  obtain ⟨-, index, hindex, -, hnames⟩ := h
  have hmem := List.mem_map_of_mem (f := toAsciiLowercase) hcolumn
  rw [← hnames] at hmem
  obtain ⟨found, hfound, hsame⟩ := List.mem_map.mp hmem
  rw [toAsciiLowercase_inj] at hsame
  obtain ⟨definition, hdefinition, hname⟩ := hparent.indexes index hindex found hfound
  exact ⟨definition, hdefinition, eqIgnoreAsciiCase_trans hname hsame⟩

/-- What the check of one foreign key can do: without a target it refuses whatever the
rows are, and with one it goes through the child rows. -/
theorem validateForeignKey_cases (hcomplete : tables.All Table.Complete) (table : Table)
    (hcolumns : ∀ column ∈ foreignKey.columns, table.schema.HasColumn column) :
    ((∀ parent, ¬ IsTarget tables foreignKey parent) ∧ ∃ message, ∀ rows,
      validateForeignKey tables { table with rows } foreignKey = .error (.error message)) ∨
    ∃ parent childIndices parentIndices, IsTarget tables foreignKey parent ∧
      List.Forall₂ (fun column index => table.schema.columnIndex column = some index)
        foreignKey.columns childIndices ∧
      List.Forall₂ (fun column index => parent.schema.columnIndex column = some index)
        foreignKey.referredColumns parentIndices ∧
      ∀ rows, validateForeignKey tables { table with rows } foreignKey =
        rows.forM (validateChildRow foreignKey childIndices parentIndices parent.rows) := by
  cases hlookup : tables.lookup foreignKey.foreignTable with
  | none =>
    refine Or.inl ⟨fun parent h => ?_, _, fun rows => by rw [validateForeignKey, hlookup]; rfl⟩
    rw [h.1] at hlookup
    cases hlookup
  | some parent =>
    cases hunique : parent.schema.indexes.any fun index => index.unique &&
        index.columns.map toAsciiLowercase == foreignKey.referredColumns.map toAsciiLowercase with
    | false =>
      refine Or.inl ⟨fun other h => ?_, _, fun rows => by
        simp only [validateForeignKey, hlookup, hunique]
        rfl⟩
      obtain rfl := Option.some.inj (hlookup.symm.trans h.1)
      obtain ⟨-, index, hindex, huniqueIndex, hnames⟩ := h
      have hnone := List.any_eq_false.mp hunique index hindex
      simp [huniqueIndex, hnames] at hnone
    | true =>
      obtain ⟨index, hindex, hnames⟩ := List.any_eq_true.mp hunique
      rw [Bool.and_eq_true, beq_iff_eq] at hnames
      have htarget : IsTarget tables foreignKey parent := ⟨hlookup, index, hindex, hnames⟩
      obtain ⟨childIndices, hchild, hchildPositions⟩ :=
        exists_columnPositions hcolumns "foreign-key"
      obtain ⟨parentIndices, hparent, hparentPositions⟩ := exists_columnPositions
        (htarget.hasColumn (hcomplete _ parent hlookup).named) "referenced"
      refine Or.inr ⟨parent, childIndices, parentIndices, htarget, hchildPositions,
        hparentPositions, fun rows => ?_⟩
      simp only [validateForeignKey, hlookup, hunique, Bool.not_true, Bool.false_eq_true, if_false,
        hchild, hparent, Result.ok_bind]

/-! ## The checks in order -/

/-- One step of the validation: the target of a foreign key, or one child row. -/
structure KeyCheck where
  table : Table
  foreignKey : ForeignKeyConstraint
  row : Option Row

/-- The foreign keys of a table, in the order they were declared. -/
def foreignKeys (table : Table) : List ForeignKeyConstraint :=
  table.schema.constraints.filterMap fun constraint =>
    match constraint with
    | .foreignKey foreignKey => some foreignKey
    | _ => none

theorem mem_foreignKeys :
    foreignKey ∈ foreignKeys table ↔ .foreignKey foreignKey ∈ table.schema.constraints := by
  rw [foreignKeys, List.mem_filterMap]
  constructor
  · rintro ⟨constraint, hmem, h⟩
    cases constraint with
    | foreignKey found =>
      obtain rfl := Option.some.inj h
      exact hmem
    | _ => cases h
  · exact fun hmem => ⟨.foreignKey foreignKey, hmem, rfl⟩

/-- A loop over the constraints that looks at the foreign keys only. -/
theorem forM_constraints (f : ForeignKeyConstraint → Except Fault Unit) :
    (table.schema.constraints.forM fun constraint =>
      match constraint with
      | .foreignKey foreignKey => f foreignKey
      | _ => pure ()) = (foreignKeys table).forM f := by
  rw [foreignKeys]
  induction table.schema.constraints with
  | nil => rfl
  | cons constraint constraints ih =>
    cases constraint with
    | foreignKey foreignKey =>
      exact congrArg (fun rest => f foreignKey >>= fun _ => rest) ih
    | _ => exact ih

/-- The target comes first, then the child rows as they are stored. -/
def checksOf (table : Table) (foreignKey : ForeignKeyConstraint) : List KeyCheck :=
  ⟨table, foreignKey, none⟩ :: table.rows.map fun row => ⟨table, foreignKey, some row⟩

/-- The steps of the validation: table by table in the order of the hash map, foreign key
by foreign key. -/
def keyChecks (H : Host) (tables : Tables) : List KeyCheck :=
  (tables.inOrder H).flatMap fun entry => (foreignKeys entry.2).flatMap (checksOf entry.2)

/-- A step that the validation refuses: there is no target, or the child row has a key
without NULL and no parent row. -/
def KeyCheck.Fails (tables : Tables) (check : KeyCheck) : Prop :=
  ¬ ∃ parent, IsTarget tables check.foreignKey parent ∧ ∀ child, check.row = some child →
    FullKey check.table check.foreignKey child →
      HasParentRow parent check.table check.foreignKey child

/-- A step that indexes the key of a child row past its end: more columns are referenced
than refer, and a parent row equals the child row on all the pairs there are. -/
def KeyCheck.Overruns (tables : Tables) (check : KeyCheck) : Prop :=
  ∃ parent child, IsTarget tables check.foreignKey parent ∧ check.row = some child ∧
    check.foreignKey.columns.length < check.foreignKey.referredColumns.length ∧
    FullKey check.table check.foreignKey child ∧
    HasParentRow parent check.table check.foreignKey child

/-- One step, as the validation of a table with that row or with none. -/
def KeyCheck.run (tables : Tables) (check : KeyCheck) : Except Fault Unit :=
  validateForeignKey tables { check.table with rows := check.row.toList } check.foreignKey

/-- The columns that a step names exist, and its row has a value for each. -/
def KeyCheck.Complete (check : KeyCheck) : Prop :=
  (∀ column ∈ check.foreignKey.columns, check.table.schema.HasColumn column) ∧
    ∀ child, check.row = some child → child.length = check.table.schema.columns.length

/-- **One step** panics, refuses or passes. -/
theorem KeyCheck.run_cases (hcomplete : tables.All Table.Complete) {check : KeyCheck}
    (hcheck : check.Complete) :
    (check.Overruns tables ∧ check.run tables = .error .panic) ∨
    (check.Fails tables ∧ ∃ message, check.run tables = .error (.error message)) ∨
    (¬ check.Overruns tables ∧ ¬ check.Fails tables ∧ check.run tables = .ok ()) := by
  obtain ⟨table, foreignKey, row⟩ := check
  rcases validateForeignKey_cases hcomplete table hcheck.1 with
    ⟨hnone, message, hrun⟩ | ⟨parent, childIndices, parentIndices, htarget, hchild, hparent, hrun⟩
  · exact Or.inr (Or.inl ⟨fun ⟨parent, htarget, _⟩ => hnone parent htarget, message, hrun _⟩)
  · have hrunCheck : KeyCheck.run tables ⟨table, foreignKey, row⟩ = row.toList.forM
        (validateChildRow foreignKey childIndices parentIndices parent.rows) := hrun _
    cases row with
    | none =>
      refine Or.inr (Or.inr ⟨?_, ?_, hrunCheck⟩)
      · rintro ⟨parent, child, -, h, -⟩
        cases h
      · exact fun h => h ⟨parent, htarget, fun child h => by cases h⟩
    | some child =>
      obtain ⟨key, hkey, hcells⟩ := exists_key (hcheck.2 child rfl) hchild
      have hfull : FullKey table foreignKey child ↔ ¬ key.any Value.isNull = true := by
        rw [any_isNull_iff hcells, not_not, FullKey]
      have hfound : HasParentRow parent table foreignKey child ↔
          parent.rows.any (agrees parentIndices key) = true := by
        simp only [HasParentRow, List.any_eq_true, agrees_iff hcells hparent]
      have hrows : ∀ row ∈ parent.rows, ∀ i ∈ parentIndices, i < row.length := by
        intro row hrow i hi
        rw [(hcomplete _ parent htarget.1).rows row hrow]
        exact lt_of_positions hparent i hi
      have hfits : parentIndices.length ≤ key.length ↔
          ¬ foreignKey.columns.length < foreignKey.referredColumns.length := by
        rw [← hparent.length_eq, ← hcells.length_eq, Nat.not_lt]
      have hloop : KeyCheck.run tables ⟨table, foreignKey, some child⟩ =
          validateChildRow foreignKey childIndices parentIndices parent.rows child := by
        rw [hrunCheck]
        exact bind_pure _
      rw [hloop, validateChildRow_eq hkey hrows]
      by_cases hnull : key.any Value.isNull = true
      · -- a key with NULL is not looked up
        have hnotFull : ¬ FullKey table foreignKey child := fun h => hfull.mp h hnull
        refine Or.inr (Or.inr ⟨?_, ?_, if_pos hnull⟩)
        · rintro ⟨-, found, -, hrow, -, h, -⟩
          obtain rfl := Option.some.inj hrow
          exact hnotFull h
        · refine fun h => h ⟨parent, htarget, fun found hrow h => absurd h ?_⟩
          obtain rfl := Option.some.inj hrow
          exact hnotFull
      · rw [if_neg hnull]
        by_cases hmatch : parent.rows.any (agrees parentIndices key) = true
        · rw [if_pos hmatch]
          have hpasses : ¬ KeyCheck.Fails tables ⟨table, foreignKey, some child⟩ := by
            refine fun h => h ⟨parent, htarget, fun found hrow _ => ?_⟩
            obtain rfl := Option.some.inj hrow
            exact hfound.mpr hmatch
          by_cases hlonger : foreignKey.columns.length < foreignKey.referredColumns.length
          · rw [if_neg fun h => hfits.mp h hlonger]
            exact Or.inl ⟨⟨parent, child, htarget, rfl, hlonger, hfull.mpr hnull,
              hfound.mpr hmatch⟩, rfl⟩
          · rw [if_pos (hfits.mpr hlonger)]
            exact Or.inr (Or.inr ⟨fun ⟨_, _, _, _, h, _⟩ => hlonger h, hpasses, rfl⟩)
        · rw [if_neg hmatch]
          refine Or.inr (Or.inl ⟨?_, _, rfl⟩)
          rintro ⟨other, hother, h⟩
          obtain rfl := htarget.unique hother
          exact hmatch (hfound.mp (h child rfl (hfull.mpr hnull)))

theorem KeyCheck.Overruns.not_fails {check : KeyCheck} (h : check.Overruns tables) :
    ¬ check.Fails tables := by
  obtain ⟨parent, child, htarget, hrow, -, -, hfound⟩ := h
  refine fun hfails => hfails ⟨parent, htarget, fun other hother _ => ?_⟩
  obtain rfl := Option.some.inj (hrow.symm.trans hother)
  exact hfound

/-- **The validation is its steps** in their order. -/
theorem validateForeignKeys_eq_checks (hcomplete : tables.All Table.Complete) :
    validateForeignKeys H tables = (keyChecks H tables).forM (KeyCheck.run tables) := by
  have hkey : ∀ {table : Table}, table.Complete → ∀ foreignKey ∈ foreignKeys table,
      validateForeignKey tables table foreignKey =
        (checksOf table foreignKey).forM (KeyCheck.run tables) := by
    intro table htable foreignKey hmem
    have hcolumns : ∀ column ∈ foreignKey.columns, table.schema.HasColumn column :=
      htable.named.constraints _ (mem_foreignKeys.mp hmem)
    have hsteps : (checksOf table foreignKey).forM (KeyCheck.run tables) =
        (KeyCheck.run tables ⟨table, foreignKey, none⟩ >>= fun _ =>
          table.rows.forM fun row => KeyCheck.run tables ⟨table, foreignKey, some row⟩) := by
      have hmap : (table.rows.map fun row => (⟨table, foreignKey, some row⟩ : KeyCheck)).forM
          (KeyCheck.run tables) =
          table.rows.forM fun row => KeyCheck.run tables ⟨table, foreignKey, some row⟩ :=
        List.forM_map
      rw [← hmap]
      rfl
    rw [hsteps]
    rcases validateForeignKey_cases hcomplete table hcolumns with
      ⟨-, message, hrun⟩ | ⟨parent, childIndices, parentIndices, -, -, -, hrun⟩
    · have hnone : KeyCheck.run tables ⟨table, foreignKey, none⟩ = .error (.error message) :=
        hrun []
      rw [hnone, Result.error_bind]
      exact hrun table.rows
    · have hnone : KeyCheck.run tables ⟨table, foreignKey, none⟩ = .ok () := hrun []
      rw [hnone, Result.ok_bind]
      refine (hrun table.rows).trans (congrArg (List.forM table.rows) (funext fun row => ?_))
      refine Eq.trans ?_ (hrun [row]).symm
      exact (bind_pure _).symm
  rw [keyChecks, Result.forM_flatMap, validateForeignKeys]
  refine Result.forM_congr_of_forall₂ (List.forall₂_same.mpr fun entry hentry => ?_)
  have htable : entry.2.Complete := hcomplete entry.1 entry.2 (mem_inOrder.mp hentry)
  rw [Result.forM_flatMap]
  refine (forM_constraints (validateForeignKey tables entry.2)).trans ?_
  exact Result.forM_congr_of_forall₂ (List.forall₂_same.mpr (hkey htable))

theorem mem_keyChecks {check : KeyCheck} : check ∈ keyChecks H tables ↔
    ∃ name, tables.lookup name = some check.table ∧
      check.foreignKey ∈ foreignKeys check.table ∧
      ∀ row, check.row = some row → row ∈ check.table.rows := by
  simp only [keyChecks, List.mem_flatMap, mem_inOrder]
  constructor
  · rintro ⟨⟨name, table⟩, hlookup, foreignKey, hmem, hcheck⟩
    rcases List.mem_cons.mp hcheck with rfl | hcheck
    · exact ⟨name, hlookup, hmem, fun row h => by cases h⟩
    · obtain ⟨row, hrow, rfl⟩ := List.mem_map.mp hcheck
      exact ⟨name, hlookup, hmem, fun other h => Option.some.inj h ▸ hrow⟩
  · rintro ⟨name, hlookup, hmem, hrow⟩
    refine ⟨(name, check.table), hlookup, check.foreignKey, hmem, ?_⟩
    obtain ⟨table, foreignKey, row⟩ := check
    cases row with
    | none => exact List.mem_cons_self
    | some row => exact List.mem_cons_of_mem _ (List.mem_map.mpr ⟨row, hrow row rfl, rfl⟩)

theorem KeyCheck.complete_of_mem (hcomplete : tables.All Table.Complete) {check : KeyCheck}
    (h : check ∈ keyChecks H tables) : check.Complete := by
  obtain ⟨name, hlookup, hmem, hrow⟩ := mem_keyChecks.mp h
  have htable := hcomplete name check.table hlookup
  exact ⟨htable.named.constraints _ (mem_foreignKeys.mp hmem),
    fun child hchild => htable.rows child (hrow child hchild)⟩

/-! ## When the validation is exact -/

/-- Every foreign key of a catalog holds. -/
def ForeignKeysHold (tables : Tables) : Prop :=
  tables.All fun table => ∀ foreignKey ∈ foreignKeys table, ForeignKeyHolds tables table foreignKey

/-- The lists of every foreign key pair up. -/
def AllPaired (tables : Tables) : Prop :=
  tables.All fun table => ∀ foreignKey ∈ foreignKeys table, Paired foreignKey

/-- Some step is refused before any runs past the end of a key. -/
def RefusedFirst (H : Host) (tables : Tables) : Prop :=
  ∃ before check after, keyChecks H tables = before ++ check :: after ∧ check.Fails tables ∧
    ∀ earlier ∈ before, ¬ earlier.Overruns tables

/-- The validation ends without an access out of range, and passes exactly the catalogs
whose foreign keys hold. -/
def ValidatesExactly (H : Host) (tables : Tables) : Prop :=
  validateForeignKeys H tables ≠ .error .panic ∧
    (validateForeignKeys H tables = .ok () ↔ ForeignKeysHold tables)

/-- Foreign keys that hold leave nothing to refuse. -/
theorem ForeignKeysHold.not_fails (h : ForeignKeysHold tables) {check : KeyCheck}
    (hmem : check ∈ keyChecks H tables) : ¬ check.Fails tables := by
  obtain ⟨name, hlookup, hkey, hrow⟩ := mem_keyChecks.mp hmem
  obtain ⟨parent, htarget, -, hchildren⟩ := h name check.table hlookup check.foreignKey hkey
  exact fun hfails => hfails ⟨parent, htarget, fun child hchild hfull =>
    hchildren child (hrow child hchild) hfull⟩

theorem foreignKeysHold_of_not_fails (hpaired : AllPaired tables)
    (h : ∀ check ∈ keyChecks H tables, ¬ check.Fails tables) : ForeignKeysHold tables := by
  intro name table hlookup foreignKey hkey
  have htarget := h ⟨table, foreignKey, none⟩
    (mem_keyChecks.mpr ⟨name, hlookup, hkey, fun row h => by cases h⟩)
  obtain ⟨parent, htarget, -⟩ := not_not.mp htarget
  refine ⟨parent, htarget, hpaired name table hlookup foreignKey hkey, fun child hchild hfull => ?_⟩
  have hrow := h ⟨table, foreignKey, some child⟩
    (mem_keyChecks.mpr ⟨name, hlookup, hkey, fun row h => Option.some.inj h ▸ hchild⟩)
  obtain ⟨other, hother, hfound⟩ := not_not.mp hrow
  obtain rfl := htarget.unique hother
  exact hfound child rfl hfull

theorem AllPaired.not_overruns (h : AllPaired tables) {check : KeyCheck}
    (hmem : check ∈ keyChecks H tables) : ¬ check.Overruns tables := by
  obtain ⟨name, hlookup, hkey, -⟩ := mem_keyChecks.mp hmem
  rintro ⟨parent, child, -, -, hlonger, -⟩
  have hequal := h name check.table hlookup check.foreignKey hkey
  rw [Paired] at hequal
  omega

theorem KeyCheck.run_eq_ok (hcomplete : tables.All Table.Complete) {check : KeyCheck}
    (hcheck : check.Complete) :
    check.run tables = .ok () ↔ ¬ check.Overruns tables ∧ ¬ check.Fails tables := by
  rcases KeyCheck.run_cases hcomplete hcheck with ⟨h, hrun⟩ | ⟨h, message, hrun⟩ | ⟨h, h', hrun⟩
  · simp [h, hrun]
  · simp [h, hrun]
  · simp [h, h', hrun]

theorem KeyCheck.run_eq_panic (hcomplete : tables.All Table.Complete) {check : KeyCheck}
    (hcheck : check.Complete) : check.run tables = .error .panic ↔ check.Overruns tables := by
  rcases KeyCheck.run_cases hcomplete hcheck with ⟨h, hrun⟩ | ⟨h, message, hrun⟩ | ⟨h, -, hrun⟩
  · simp [h, hrun]
  · have hnot : ¬ check.Overruns tables := fun hoverruns => hoverruns.not_fails h
    simp [hnot, hrun]
  · simp [h, hrun]

/-- The validation passes when no step is refused and none overruns. -/
theorem validateForeignKeys_eq_ok_iff (hcomplete : tables.All Table.Complete) :
    validateForeignKeys H tables = .ok () ↔
      ∀ check ∈ keyChecks H tables, ¬ check.Overruns tables ∧ ¬ check.Fails tables := by
  rw [validateForeignKeys_eq_checks hcomplete, Result.forM_eq_ok]
  exact forall₂_congr fun check hmem =>
    KeyCheck.run_eq_ok hcomplete (KeyCheck.complete_of_mem hcomplete hmem)

/-- The validation panics when some step overruns and the ones before it pass. -/
theorem validateForeignKeys_eq_panic_iff (hcomplete : tables.All Table.Complete) :
    validateForeignKeys H tables = .error .panic ↔
      ∃ before check after, keyChecks H tables = before ++ check :: after ∧
        (∀ earlier ∈ before, ¬ earlier.Overruns tables ∧ ¬ earlier.Fails tables) ∧
        check.Overruns tables := by
  rw [validateForeignKeys_eq_checks hcomplete, Result.forM_eq_error]
  refine exists_congr fun before => exists_congr fun check => exists_congr fun after =>
    and_congr_right fun hsplit => and_congr (forall₂_congr fun earlier hmem => ?_) ?_
  · exact KeyCheck.run_eq_ok hcomplete
      (KeyCheck.complete_of_mem (H := H) hcomplete (by rw [hsplit]; simp [hmem]))
  · exact KeyCheck.run_eq_panic hcomplete
      (KeyCheck.complete_of_mem (H := H) hcomplete (by rw [hsplit]; simp))

/-- A step refused before any overruns is what an ordinary error amounts to. -/
theorem refusedFirst_iff (hcomplete : tables.All Table.Complete) : RefusedFirst H tables ↔
    validateForeignKeys H tables ≠ .ok () ∧ validateForeignKeys H tables ≠ .error .panic := by
  constructor
  · rintro ⟨before, check, after, hsplit, hfails, hbefore⟩
    have hmem : check ∈ keyChecks H tables := by rw [hsplit]; simp
    refine ⟨fun hok => ?_, fun hpanic => ?_⟩
    · rw [validateForeignKeys_eq_ok_iff hcomplete] at hok
      exact (hok check hmem).2 hfails
    · rw [validateForeignKeys_eq_panic_iff hcomplete] at hpanic
      obtain ⟨before', check', after', hsplit', hbefore', hoverruns⟩ := hpanic
      -- which of the two steps comes first
      rcases List.append_eq_append_iff.mp (hsplit.symm.trans hsplit') with
        ⟨between, rfl, hrest⟩ | ⟨between, rfl, hrest⟩
      · cases between with
        | nil =>
          obtain ⟨rfl, -⟩ := List.cons.inj hrest
          exact hoverruns.not_fails hfails
        | cons first between =>
          obtain ⟨rfl, -⟩ := List.cons.inj hrest
          exact (hbefore' check (by simp)).2 hfails
      · cases between with
        | nil =>
          obtain ⟨rfl, -⟩ := List.cons.inj hrest
          exact hoverruns.not_fails hfails
        | cons first between =>
          obtain ⟨rfl, -⟩ := List.cons.inj hrest
          exact hbefore check' (by simp) hoverruns
  · rintro ⟨hok, hpanic⟩
    cases hresult : validateForeignKeys H tables with
    | ok u => exact absurd hresult hok
    | error fault =>
      rw [hresult] at hpanic
      rw [validateForeignKeys_eq_checks hcomplete, Result.forM_eq_error] at hresult
      obtain ⟨before, check, after, hsplit, hbefore, hcheck⟩ := hresult
      have hmem : check ∈ keyChecks H tables := by rw [hsplit]; simp
      refine ⟨before, check, after, hsplit, ?_, fun earlier hmem => ?_⟩
      · rcases KeyCheck.run_cases hcomplete (KeyCheck.complete_of_mem hcomplete hmem) with
          ⟨-, hrun⟩ | ⟨hfails, -⟩ | ⟨-, -, hrun⟩
        · exact absurd (hcheck.symm.trans hrun) hpanic
        · exact hfails
        · rw [hrun] at hcheck
          cases hcheck
      · exact ((KeyCheck.run_eq_ok hcomplete (KeyCheck.complete_of_mem (H := H) hcomplete
          (by rw [hsplit]; simp [hmem]))).mp (hbefore earlier hmem)).1

/-- **When the validation of foreign keys is total and exact**: every foreign key has as
many referencing as referenced columns, or some step is refused before any runs past the
end of a key. -/
theorem foreign_keys_exact_iff (hcomplete : tables.All Table.Complete) :
    ValidatesExactly H tables ↔ AllPaired tables ∨ RefusedFirst H tables := by
  constructor
  · rintro ⟨hpanic, hexact⟩
    by_cases hpaired : AllPaired tables
    · exact Or.inl hpaired
    · -- the lists do not pair up, so the catalog has to be refused
      refine Or.inr ((refusedFirst_iff hcomplete).mpr ⟨fun hok => hpaired ?_, hpanic⟩)
      intro name table hlookup foreignKey hkey
      obtain ⟨parent, -, hpair, -⟩ := hexact.mp hok name table hlookup foreignKey hkey
      exact hpair
  · rintro (hpaired | hrefused)
    · refine ⟨fun hpanic => ?_, fun hok => ?_, fun hhold => ?_⟩
      · rw [validateForeignKeys_eq_panic_iff hcomplete] at hpanic
        obtain ⟨before, check, after, hsplit, -, hoverruns⟩ := hpanic
        exact hpaired.not_overruns (H := H) (by rw [hsplit]; simp) hoverruns
      · rw [validateForeignKeys_eq_ok_iff hcomplete] at hok
        exact foreignKeysHold_of_not_fails hpaired fun check hmem => (hok check hmem).2
      · rw [validateForeignKeys_eq_ok_iff hcomplete]
        exact fun check hmem => ⟨hpaired.not_overruns hmem, hhold.not_fails hmem⟩
    · obtain ⟨hok, hpanic⟩ := (refusedFirst_iff hcomplete).mp hrefused
      obtain ⟨before, check, after, hsplit, hfails, -⟩ := hrefused
      refine ⟨hpanic, fun h => absurd h hok, fun hhold => absurd hfails ?_⟩
      exact hhold.not_fails (H := H) (by rw [hsplit]; simp)

/-- What a statement leaves on a reachable catalog is complete when its rows pass, and that
is checked before the foreign keys are. -/
theorem complete_of_statement {tables' : Tables} {inserted : Nat} {statement : Statement}
    {result : ExecutionResult} (hreach : Reachable H tables inserted) (hparsed : statement.Parsed)
    (h : executeStatement H tables statement = .ok (result, tables'))
    (hbound : inserted + insertedRows tables tables' statement < maxRowId)
    (hrows : tables'.All fun table => validateTable H tables' table = .ok ()) :
    tables'.All Table.Complete := by
  have hcatalog := catalogOk_step hparsed h hbound
    (catalogOk_of_reachable hreach (Nat.lt_of_le_of_lt (Nat.le_add_right _ _) hbound))
  intro name table hlookup
  refine ⟨(hcatalog name table hlookup).named, fun row hrow => ?_⟩
  obtain ⟨⟨⟩, hvalid, -⟩ := Result.bind_eq_ok.mp (hrows name table hlookup)
  obtain ⟨⟨⟩, hrow, -⟩ := Result.bind_eq_ok.mp (Result.forM_eq_ok.mp hvalid row hrow)
  by_contra hlength
  rw [TableSchema.validateRow, if_pos hlength] at hrow
  cases hrow

end Checks

/-! ## A key that is too short -/

/-- `CREATE TABLE p (a INTEGER, b INTEGER, PRIMARY KEY (a, b))`. -/
def createParent : Statement :=
  .createTable "p" [plainColumn "a" .integer, plainColumn "b" .integer]
    [.primaryKey none ["a", "b"]] false

/-- `CREATE TABLE c (x INTEGER, FOREIGN KEY (x) REFERENCES p (a, b))`. -/
def createShortChild : Statement :=
  .createTable "c" [plainColumn "x" .integer] [.foreignKey ⟨none, ["x"], "p", ["a", "b"]⟩] false

/-- `INSERT INTO p VALUES (1, 2)`. -/
def insertParent : Statement :=
  .insert "p" none (.values [[.literal (.integer 1), .literal (.integer 2)]]) []

/-- `INSERT INTO c VALUES (1)`. -/
def insertShortChild : Statement := .insert "c" none (.values [[.literal (.integer 1)]]) []

/-- The table `p` with its row `(1, 2)`. -/
def parentTable : Table :=
  { Table.new Host.reference
      ⟨"p", [plainColumn "a" .integer, plainColumn "b" .integer], [.primaryKey none ["a", "b"]],
        [⟨"p_a_b_pk", ["a", "b"], true, true⟩]⟩ with
    rows := [[.integer 1, .integer 2]], rowIds := [1], nextRowId := 2 }

/-- A table `c` with one foreign key and one row. -/
def childTable (columns : List ColumnDef) (foreignKey : ForeignKeyConstraint) (row : Row) :
    Table :=
  { Table.new Host.reference ⟨"c", columns, [.foreignKey foreignKey], []⟩ with
    rows := [row], rowIds := [1], nextRowId := 2 }

/-- The two tables. -/
def familyCatalog (columns : List ColumnDef) (foreignKey : ForeignKeyConstraint) (row : Row) :
    Tables :=
  AList.insert "c" (childTable columns foreignKey row) (AList.insert "p" parentTable ∅)

theorem complete_familyCatalog {columns : List ColumnDef} {foreignKey : ForeignKeyConstraint}
    {row : Row} (hcolumns : ∀ column ∈ foreignKey.columns,
      ∃ definition ∈ columns, eqIgnoreAsciiCase definition.name column = true)
    (hrow : row.length = columns.length) :
    (familyCatalog columns foreignKey row).All Table.Complete := by
  have hparent : parentTable.Complete := by
    have hkey : ∀ column ∈ ["a", "b"], parentTable.schema.HasColumn column := by
      intro column hcolumn
      refine TableSchema.isSome_columnIndex.mp ?_
      fin_cases hcolumn <;> rfl
    refine ⟨⟨fun constraint hmem => ?_, fun index hmem => ?_⟩, fun row hmem => ?_⟩
    · obtain rfl := List.mem_singleton.mp hmem
      exact hkey
    · obtain rfl := List.mem_singleton.mp hmem
      exact hkey
    · obtain rfl := List.mem_singleton.mp hmem
      rfl
  have hchild : (childTable columns foreignKey row).Complete := by
    refine ⟨⟨fun constraint hmem => ?_, fun index hmem => ?_⟩, fun other hmem => ?_⟩
    · obtain rfl := List.mem_singleton.mp hmem
      exact hcolumns
    · cases hmem
    · obtain rfl := List.mem_singleton.mp hmem
      exact hrow
  exact (Tables.All.empty.insert hparent).insert hchild

/-- The computation panicked. -/
def panicked {α : Type} : Except Fault α → Bool
  | .error .panic => true
  | _ => false

/-- **An INSERT that the definitions of a catalog make panic.** The catalog is reached by
statements that all succeed, and the INSERT offers a row of the declared type: its key has
one value, the parent row agrees on it, and the validation asks for a second. -/
theorem overrun_by_insert :
    (∃ tables, Reachable Host.reference tables 1 ∧
      executeCatalog Host.reference tables insertShortChild = .error .panic) ∧
    ∃ tables : Tables, tables.All Table.Complete ∧ ¬ ValidatesExactly Host.reference tables := by
  constructor
  · have hrun : ((runStatements Host.reference (∅, 0)
        [createParent, insertParent, createShortChild]).map fun state =>
          (state.2, panicked (executeCatalog Host.reference state.1 insertShortChild))).toOption =
        some (1, true) := by
      decide +kernel
    obtain ⟨⟨tables, inserted⟩, hstatements, hreport⟩ :=
      Result.map_eq_ok.mp (Result.toOption_eq_some.mp hrun)
    obtain ⟨rfl, hpanicked⟩ := Prod.mk.inj hreport
    refine ⟨tables, reachable_runStatements Reachable.empty ?_ hstatements, ?_⟩
    · simp [createParent, insertParent, createShortChild, Statement.Parsed]
    · unfold panicked at hpanicked
      split at hpanicked
      · assumption
      · cases hpanicked
  · refine ⟨familyCatalog [plainColumn "x" .integer] ⟨none, ["x"], "p", ["a", "b"]⟩ [.integer 1],
      complete_familyCatalog ?_ rfl, fun h => h.1 (by rfl)⟩
    exact fun column hmem => ⟨_, List.mem_singleton_self _, by
      rw [List.mem_singleton.mp hmem]
      rfl⟩

/-- Two referencing columns for the two referenced ones. -/
theorem family_validates : ValidatesExactly Host.reference
    (familyCatalog [plainColumn "x" .integer, plainColumn "y" .integer]
      ⟨none, ["x", "y"], "p", ["a", "b"]⟩ [.integer 1, .integer 2]) := by
  refine (foreign_keys_exact_iff (complete_familyCatalog ?_ rfl)).mpr (Or.inl ?_)
  · intro column hmem
    fin_cases hmem
    · exact ⟨_, List.mem_cons_self, rfl⟩
    · exact ⟨_, List.mem_cons_of_mem _ (List.mem_singleton_self _), rfl⟩
  · have hparent : ∀ foreignKey ∈ foreignKeys parentTable, Paired foreignKey := by
      intro foreignKey hmem
      cases hmem
    have hchild : ∀ foreignKey ∈ foreignKeys (childTable
        [plainColumn "x" .integer, plainColumn "y" .integer]
        ⟨none, ["x", "y"], "p", ["a", "b"]⟩ [.integer 1, .integer 2]), Paired foreignKey := by
      intro foreignKey hmem
      obtain rfl := List.mem_singleton.mp hmem
      rfl
    exact (Tables.All.empty.insert hparent).insert hchild

end Sql
end RustyDB
