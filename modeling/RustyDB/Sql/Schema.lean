import Mathlib
import RustyDB.Lib.Result
import RustyDB.Sql.Alter

/-!
# Columns named by constraints and indexes

Every column that a constraint or an index definition names is a column of the
schema, and every schema change keeps it so.

* `TableSchema.HasColumn` — a name resolves, ignoring ASCII case.
* `TableSchema.Named` — the invariant.
* `mem_automaticIndexes` — where an automatic index comes from.
* `named_refreshSchema`, `alterTable_keeps` — the schema changes keep it, and
  ALTER TABLE keeps the number of rows and their identifiers.
-/

namespace RustyDB
namespace Sql

/-! ## ASCII case -/

theorem eqIgnoreAsciiCase_iff {a b : String} :
    eqIgnoreAsciiCase a b = true ↔ a.toList.map Char.toLower = b.toList.map Char.toLower := by
  simp [eqIgnoreAsciiCase]

theorem eqIgnoreAsciiCase_refl (a : String) : eqIgnoreAsciiCase a a = true :=
  eqIgnoreAsciiCase_iff.mpr rfl

theorem eqIgnoreAsciiCase_symm {a b : String} (h : eqIgnoreAsciiCase a b = true) :
    eqIgnoreAsciiCase b a = true :=
  eqIgnoreAsciiCase_iff.mpr (eqIgnoreAsciiCase_iff.mp h).symm

theorem eqIgnoreAsciiCase_trans {a b c : String} (hab : eqIgnoreAsciiCase a b = true)
    (hbc : eqIgnoreAsciiCase b c = true) : eqIgnoreAsciiCase a c = true :=
  eqIgnoreAsciiCase_iff.mpr ((eqIgnoreAsciiCase_iff.mp hab).trans (eqIgnoreAsciiCase_iff.mp hbc))

theorem toAsciiLowercase_inj {a b : String} :
    toAsciiLowercase a = toAsciiLowercase b ↔ eqIgnoreAsciiCase a b = true := by
  rw [toAsciiLowercase, toAsciiLowercase, String.ofList_inj, eqIgnoreAsciiCase_iff]

/-! ## Column names -/

namespace TableSchema

/-- A name is that of a column. -/
def HasColumn (schema : TableSchema) (name : String) : Prop :=
  ∃ column ∈ schema.columns, eqIgnoreAsciiCase column.name name = true

theorem isSome_columnIndex {schema : TableSchema} {name : String} :
    (schema.columnIndex name).isSome = true ↔ schema.HasColumn name := by
  simp [columnIndex, HasColumn]

theorem columnIndex_eq_some {schema : TableSchema} {name : String} {index : Nat}
    (h : schema.columnIndex name = some index) :
    ∃ column, schema.columns[index]? = some column ∧ eqIgnoreAsciiCase column.name name = true := by
  obtain ⟨hlt, hname, -⟩ := List.findIdx?_eq_some_iff_getElem.mp h
  exact ⟨_, List.getElem?_eq_getElem hlt, hname⟩

theorem HasColumn.of_names {schema schema' : TableSchema} {name : String}
    (hnames : schema'.columns.map ColumnDef.name = schema.columns.map ColumnDef.name)
    (h : schema.HasColumn name) : schema'.HasColumn name := by
  obtain ⟨column, hmem, heq⟩ := h
  have hmem' : column.name ∈ schema'.columns.map ColumnDef.name := by
    rw [hnames]
    exact List.mem_map_of_mem hmem
  obtain ⟨column', hmem', hname⟩ := List.mem_map.mp hmem'
  exact ⟨column', hmem', hname ▸ heq⟩

/-- Every column named by a constraint or an index definition exists. -/
structure Named (schema : TableSchema) : Prop where
  constraints : ∀ constraint ∈ schema.constraints, ∀ column ∈ constraintColumns constraint,
    schema.HasColumn column
  indexes : ∀ definition ∈ schema.indexes, ∀ column ∈ definition.columns, schema.HasColumn column

end TableSchema

theorem names_updateColumn (name : String) (f : ColumnDef → ColumnDef)
    (hf : ∀ column, (f column).name = column.name) (columns : List ColumnDef) :
    (updateColumn name f columns).map ColumnDef.name = columns.map ColumnDef.name := by
  induction columns with
  | nil => rfl
  | cons column columns ih =>
    by_cases h : eqIgnoreAsciiCase column.name name = true
    · simp [updateColumn, h, hf]
    · simp [updateColumn, h, ih]

theorem names_markPrimaryKey (keyColumns : List String) (columns : List ColumnDef) :
    (markPrimaryKey keyColumns columns).map ColumnDef.name = columns.map ColumnDef.name := by
  unfold markPrimaryKey
  generalize (keyColumns.length == 1) = single
  induction keyColumns generalizing columns with
  | nil => rfl
  | cons name names ih =>
    rw [List.foldl_cons, ih]
    apply names_updateColumn
    exact fun _ => rfl

theorem names_markConstraint (constraint : TableConstraint) (columns : List ColumnDef) :
    (markConstraint columns constraint).map ColumnDef.name = columns.map ColumnDef.name := by
  unfold markConstraint
  split
  · exact names_markPrimaryKey _ columns
  · apply names_updateColumn
    exact fun _ => rfl
  · rfl

theorem names_foldl_markConstraint (constraints : List TableConstraint)
    (columns : List ColumnDef) :
    (constraints.foldl markConstraint columns).map ColumnDef.name =
      columns.map ColumnDef.name := by
  induction constraints generalizing columns with
  | nil => rfl
  | cons constraint constraints ih => rw [List.foldl_cons, ih, names_markConstraint]

theorem names_refreshSchema (schema : TableSchema) :
    (refreshSchema schema).columns.map ColumnDef.name = schema.columns.map ColumnDef.name := by
  simp only [refreshSchema]
  rw [names_foldl_markConstraint, List.map_map]
  rfl

/-! ## Automatic indexes -/

theorem mem_foldl_columnIndexDef {tableName : String} {columns : List ColumnDef}
    {indexes : List IndexDef} {definition : IndexDef} :
    definition ∈ columns.foldl
        (fun indexes column => indexes ++ (columnIndexDef tableName indexes column).toList)
        indexes →
      definition ∈ indexes ∨ ∃ column ∈ columns, definition.columns = [column.name] := by
  induction columns generalizing indexes with
  | nil => exact Or.inl
  | cons column columns ih =>
    intro h
    rcases ih h with h | ⟨column', hmem, hcolumns⟩
    · rcases List.mem_append.mp h with h | h
      · exact Or.inl h
      · refine Or.inr ⟨column, by simp, ?_⟩
        simp only [columnIndexDef, Option.mem_toList] at h
        split at h
        · simp at h
        · split at h
          · simp only [Option.some.injEq] at h
            simp [← h]
          · split at h
            · simp only [Option.some.injEq] at h
              simp [← h]
            · simp at h
    · exact Or.inr ⟨column', by simp [hmem], hcolumns⟩

theorem mem_foldl_columnIndexDef_of_mem {tableName : String} {columns : List ColumnDef}
    {indexes : List IndexDef} {definition : IndexDef} (h : definition ∈ indexes) :
    definition ∈ columns.foldl
        (fun indexes column => indexes ++ (columnIndexDef tableName indexes column).toList)
        indexes := by
  induction columns generalizing indexes with
  | nil => exact h
  | cons column columns ih => exact ih (List.mem_append_left _ h)

/-- An automatic index is that of a constraint or that of a column flag. -/
theorem mem_automaticIndexes {schema : TableSchema} {definition : IndexDef}
    (h : definition ∈ automaticIndexes schema) :
    (∃ constraint ∈ schema.constraints,
      constraintIndex schema.name constraint = some definition) ∨
    ∃ column ∈ schema.columns, definition.columns = [column.name] := by
  rcases mem_foldl_columnIndexDef h with h | h
  · exact Or.inl (List.mem_filterMap.mp h)
  · exact Or.inr h

/-- Every constraint has its automatic index. -/
theorem constraintIndex_mem_automaticIndexes {schema : TableSchema}
    {constraint : TableConstraint} {definition : IndexDef} (hmem : constraint ∈ schema.constraints)
    (h : constraintIndex schema.name constraint = some definition) :
    definition ∈ automaticIndexes schema :=
  mem_foldl_columnIndexDef_of_mem (List.mem_filterMap.mpr ⟨constraint, hmem, h⟩)

theorem constraintIndex_columns {tableName : String} {constraint : TableConstraint}
    {definition : IndexDef} (h : constraintIndex tableName constraint = some definition) :
    definition.columns = constraintColumns constraint := by
  cases constraint <;>
    simp only [constraintIndex, constraintColumns, reduceCtorEq, Option.some.injEq] at h ⊢ <;>
    rw [← h]

theorem hasColumn_automaticIndexes {schema : TableSchema}
    (hconstraints : ∀ constraint ∈ schema.constraints, ∀ column ∈ constraintColumns constraint,
      schema.HasColumn column) :
    ∀ definition ∈ automaticIndexes schema, ∀ column ∈ definition.columns,
      schema.HasColumn column := by
  intro definition hmem column hcolumn
  rcases mem_automaticIndexes hmem with ⟨constraint, hc, hindex⟩ | ⟨owner, howner, hcolumns⟩
  · rw [constraintIndex_columns hindex] at hcolumn
    exact hconstraints constraint hc column hcolumn
  · rw [hcolumns, List.mem_singleton] at hcolumn
    exact ⟨owner, howner, hcolumn ▸ eqIgnoreAsciiCase_refl _⟩

/-- Recomputing the metadata keeps every name resolved. -/
theorem named_refreshSchema {schema : TableSchema} (h : schema.Named) :
    (refreshSchema schema).Named := by
  have hcolumn : ∀ {name}, schema.HasColumn name → (refreshSchema schema).HasColumn name :=
    fun hname => hname.of_names (names_refreshSchema schema)
  have hconstraints : ∀ constraint ∈ (refreshSchema schema).constraints,
      ∀ column ∈ constraintColumns constraint, (refreshSchema schema).HasColumn column :=
    fun constraint hc column hcol => hcolumn (h.constraints constraint hc column hcol)
  refine ⟨hconstraints, fun definition hmem column hcol => ?_⟩
  rcases List.mem_append.mp hmem with hmem | hmem
  · -- `automaticIndexes` reads the name, the columns and the constraints only.
    exact hasColumn_automaticIndexes hconstraints definition hmem column hcol
  · exact hcolumn (h.indexes definition (List.mem_filter.mp hmem).1 column hcol)

/-! ## ALTER TABLE -/

/-- The constraints that come with a column definition name that column only:
`convert_column_def` builds them so. -/
def AlterOperation.Parsed : AlterOperation → Prop
  | .addColumn column constraints _ =>
    ∀ constraint ∈ constraints, ∀ name ∈ constraintColumns constraint, name = column.name
  | .modifyColumn _ column constraints =>
    ∀ constraint ∈ constraints, ∀ name ∈ constraintColumns constraint, name = column.name
  | _ => True

/-- What ALTER TABLE keeps of its table: the number of rows, their identifiers,
and that names resolve. -/
structure Table.AlteredFrom (table table' : Table) : Prop where
  rows : table'.rows.length = table.rows.length
  rowIds : table'.rowIds = table.rowIds
  nextRowId : table'.nextRowId = table.nextRowId
  named : table.schema.Named → table'.schema.Named

section Alter

variable {table table' : Table}

theorem TableSchema.Named.of_names {schema schema' : TableSchema} (h : schema.Named)
    (hnames : schema'.columns.map ColumnDef.name = schema.columns.map ColumnDef.name)
    (hconstraints : ∀ constraint ∈ schema'.constraints, constraint ∈ schema.constraints)
    (hindexes : schema'.indexes = schema.indexes) : schema'.Named :=
  ⟨fun constraint hc column hcol =>
      (h.constraints constraint (hconstraints constraint hc) column hcol).of_names hnames,
    fun definition hmem column hcol =>
      (h.indexes definition (hindexes ▸ hmem) column hcol).of_names hnames⟩

theorem names_modifyColumn (schema : TableSchema) (index : Nat) (f : ColumnDef → ColumnDef)
    (hf : ∀ column, (f column).name = column.name) :
    (schema.modifyColumn index f).columns.map ColumnDef.name =
      schema.columns.map ColumnDef.name := by
  apply List.ext_getElem?
  intro i
  simp only [TableSchema.modifyColumn, List.getElem?_map, List.getElem?_modify]
  cases schema.columns[i]? with
  | none => simp
  | some column =>
    by_cases h : index = i
    · simp [h, hf]
    · simp [h]

/-- Changing one column in other things than its name. -/
theorem alteredFrom_modifyColumn (table : Table) (index : Nat) (f : ColumnDef → ColumnDef)
    (hf : ∀ column, (f column).name = column.name) :
    table.AlteredFrom { table with schema := table.schema.modifyColumn index f } :=
  ⟨rfl, rfl, rfl, fun h => h.of_names (names_modifyColumn table.schema index f hf)
    (fun _ hc => hc) rfl⟩

theorem hasColumn_append {schema : TableSchema} {column : ColumnDef} {name : String}
    (h : schema.HasColumn name) (constraints : List TableConstraint) :
    TableSchema.HasColumn
      { schema with columns := schema.columns ++ [column], constraints } name := by
  obtain ⟨found, hmem, heq⟩ := h
  exact ⟨found, List.mem_append_left _ hmem, heq⟩

theorem addColumn_keeps {column : ColumnDef} {constraints : List TableConstraint}
    {ifNotExists : Bool}
    (hparsed : ∀ constraint ∈ constraints, ∀ name ∈ constraintColumns constraint,
      name = column.name)
    (h : addColumn table column constraints ifNotExists = .ok (some table')) :
    table.AlteredFrom table' := by
  unfold addColumn at h
  split at h
  · split at h <;> simp [refuse] at h
  · split at h
    · simp [refuse] at h
    · split at h
      · simp [refuse] at h
      · simp only [Except.ok.injEq, Option.some.injEq] at h
        subst h
        refine ⟨by simp, rfl, rfl, fun hnamed => ⟨?_, ?_⟩⟩
        · intro constraint hc name hname
          rcases List.mem_append.mp hc with hc | hc
          · exact hasColumn_append (hnamed.constraints constraint hc name hname) _
          · refine ⟨column, by simp, ?_⟩
            rw [hparsed constraint hc name hname]
            exact eqIgnoreAsciiCase_refl _
        · exact fun definition hmem name hname =>
            hasColumn_append (hnamed.indexes definition hmem name hname) _

/-- Erasing a column leaves the columns of other names. -/
theorem hasColumn_eraseIdx {schema : TableSchema} {index : Nat} {dropped : ColumnDef}
    {name : String} (hdropped : schema.columns[index]? = some dropped)
    (h : schema.HasColumn name) (hne : eqIgnoreAsciiCase dropped.name name = false) :
    TableSchema.HasColumn { schema with columns := schema.columns.eraseIdx index } name := by
  obtain ⟨column, hmem, heq⟩ := h
  obtain ⟨i, hi⟩ := List.mem_iff_getElem?.mp hmem
  refine ⟨column, ?_, heq⟩
  have hii : i ≠ index := by
    rintro rfl
    rw [hdropped, Option.some.injEq] at hi
    rw [hi, heq] at hne
    exact absurd hne (by decide)
  exact List.mem_eraseIdx_iff_getElem?.mpr ⟨i, hii, hi⟩

theorem dropColumn_keeps {H : Host} {tables : Tables} {tableName name : String}
    {ifExists : Bool}
    (h : dropColumn H tables tableName table name ifExists = .ok (some table')) :
    table.AlteredFrom table' := by
  unfold dropColumn at h
  cases hindex : table.schema.columnIndex name with
  | none =>
    simp only [hindex] at h
    split at h <;> simp [refuse] at h
  | some index =>
    simp only [hindex] at h
    split at h
    · simp [refuse] at h
    · split at h
      · simp [refuse] at h
      · rename_i hreferenced
        obtain ⟨rows, hrows, htable⟩ := Result.bind_eq_ok.mp h
        simp only [Result.pure_eq_ok, Except.ok.injEq, Option.some.injEq] at htable
        subst htable
        obtain ⟨dropped, hdropped, hname⟩ := TableSchema.columnIndex_eq_some hindex
        simp only [Bool.or_eq_true, List.any_eq_true, not_or, not_exists, not_and] at hreferenced
        have hother : ∀ column, ¬eqIgnoreAsciiCase column name = true →
            eqIgnoreAsciiCase dropped.name column = false := by
          intro column hcolumn
          rw [← Bool.not_eq_true]
          exact fun hd => hcolumn
            (eqIgnoreAsciiCase_trans (eqIgnoreAsciiCase_symm hd) hname)
        refine ⟨Result.length_of_mapM hrows, rfl, rfl, fun hnamed => ⟨?_, ?_⟩⟩
        · intro constraint hc column hcol
          exact hasColumn_eraseIdx hdropped (hnamed.constraints constraint hc column hcol)
            (hother column (hreferenced.1.1 constraint hc column hcol))
        · intro definition hmem column hcol
          exact hasColumn_eraseIdx hdropped (hnamed.indexes definition hmem column hcol)
            (hother column (hreferenced.1.2 definition hmem column hcol))

/-- A name follows a renamed column. -/
theorem hasColumn_rename {schema schema' : TableSchema} {index : Nat} {old new name : String}
    (hindex : schema.columnIndex old = some index)
    (hnew : ∃ column, schema'.columns[index]? = some column ∧ column.name = new)
    (hothers : ∀ i, i ≠ index → schema'.columns[i]? = schema.columns[i]?)
    (h : schema.HasColumn name) : schema'.HasColumn (renameName old new name) := by
  obtain ⟨renamed, hrenamed, rfl⟩ := hnew
  unfold renameName
  by_cases hname : eqIgnoreAsciiCase name old = true
  · rw [if_pos hname]
    exact ⟨renamed, List.mem_of_getElem? hrenamed, eqIgnoreAsciiCase_refl _⟩
  · rw [if_neg hname]
    obtain ⟨column, hmem, heq⟩ := h
    obtain ⟨i, hi⟩ := List.mem_iff_getElem?.mp hmem
    have hii : i ≠ index := by
      rintro rfl
      obtain ⟨found, hfound, hold⟩ := TableSchema.columnIndex_eq_some hindex
      rw [hfound, Option.some.injEq] at hi
      subst hi
      exact hname (eqIgnoreAsciiCase_trans (eqIgnoreAsciiCase_symm heq) hold)
    exact ⟨column, List.mem_of_getElem? ((hothers i hii).trans hi), heq⟩

theorem constraintColumns_rename (schemaName old new : String) (constraint : TableConstraint) :
    constraintColumns (renameInConstraint schemaName old new constraint) =
      (constraintColumns constraint).map (renameName old new) := by
  cases constraint <;> simp [renameInConstraint, constraintColumns]

theorem named_rename {schema schema' : TableSchema} {index : Nat} {old new : String}
    (hnamed : schema.Named) (hindex : schema.columnIndex old = some index)
    (hnew : ∃ column, schema'.columns[index]? = some column ∧ column.name = new)
    (hothers : ∀ i, i ≠ index → schema'.columns[i]? = schema.columns[i]?)
    (hconstraints : schema'.constraints =
      schema.constraints.map (renameInConstraint schema.name old new))
    (hindexes : schema'.indexes = schema.indexes.map (fun definition =>
      { definition with columns := definition.columns.map (renameName old new) })) :
    schema'.Named := by
  have hcolumn : ∀ {name}, schema.HasColumn name → schema'.HasColumn (renameName old new name) :=
    hasColumn_rename hindex hnew hothers
  refine ⟨fun constraint hc column hcol => ?_, fun definition hmem column hcol => ?_⟩
  · rw [hconstraints] at hc
    obtain ⟨before, hbefore, rfl⟩ := List.mem_map.mp hc
    rw [constraintColumns_rename] at hcol
    obtain ⟨name, hname, rfl⟩ := List.mem_map.mp hcol
    exact hcolumn (hnamed.constraints before hbefore name hname)
  · rw [hindexes] at hmem
    obtain ⟨before, hbefore, rfl⟩ := List.mem_map.mp hmem
    obtain ⟨name, hname, rfl⟩ := List.mem_map.mp hcol
    exact hcolumn (hnamed.indexes before hbefore name hname)

theorem getElem?_modifyColumn_self {schema : TableSchema} {index : Nat}
    {f : ColumnDef → ColumnDef} {column : ColumnDef} (h : schema.columns[index]? = some column) :
    (schema.modifyColumn index f).columns[index]? = some (f column) := by
  simp [TableSchema.modifyColumn, h]

theorem getElem?_modifyColumn_ne {schema : TableSchema} {index i : Nat}
    {f : ColumnDef → ColumnDef} (h : i ≠ index) :
    (schema.modifyColumn index f).columns[i]? = schema.columns[i]? := by
  simp [TableSchema.modifyColumn, Ne.symm h]

theorem requireColumn_eq_ok {schema : TableSchema} {name : String} {index : Nat}
    (h : requireColumn schema name = .ok index) : schema.columnIndex name = some index := by
  unfold requireColumn at h
  cases hfound : schema.columnIndex name with
  | none => simp [hfound, refuse] at h
  | some found => simpa [hfound] using h

theorem renameColumn_keeps {oldName newName : String}
    (h : renameColumn table oldName newName = .ok table') : table.AlteredFrom table' := by
  unfold renameColumn at h
  split at h
  · simp [refuse] at h
  · obtain ⟨index, hindex, htable⟩ := Result.bind_eq_ok.mp h
    simp only [Result.pure_eq_ok, Except.ok.injEq] at htable
    subst htable
    have hindex := requireColumn_eq_ok hindex
    obtain ⟨column, hcolumn, -⟩ := TableSchema.columnIndex_eq_some hindex
    refine ⟨rfl, rfl, rfl, fun hnamed => ?_⟩
    exact named_rename hnamed hindex ⟨_, getElem?_modifyColumn_self hcolumn, rfl⟩
      (fun i hi => getElem?_modifyColumn_ne hi) rfl rfl

theorem mem_addNewConstraints {constraints added : List TableConstraint}
    {constraint : TableConstraint} (h : constraint ∈ addNewConstraints constraints added) :
    constraint ∈ constraints ∨ constraint ∈ added := by
  unfold addNewConstraints at h
  induction added generalizing constraints with
  | nil => exact Or.inl h
  | cons new added ih =>
    rw [List.foldl_cons] at h
    rcases ih h with h | h
    · split at h
      · exact Or.inl h
      · rcases List.mem_append.mp h with h | h
        · exact Or.inl h
        · exact Or.inr (by simp [List.mem_singleton.mp h])
    · exact Or.inr (by simp [h])

/-- A column definition replaced by one of the same name, ignoring case. -/
theorem named_replace {schema : TableSchema} {index : Nat} {old : String} {column : ColumnDef}
    (hnamed : schema.Named) (hindex : schema.columnIndex old = some index)
    (hsame : eqIgnoreAsciiCase old column.name = true) :
    (schema.modifyColumn index (fun _ => column)).Named := by
  obtain ⟨before, hbefore, hold⟩ := TableSchema.columnIndex_eq_some hindex
  have hcolumn : ∀ {name}, schema.HasColumn name →
      (schema.modifyColumn index (fun _ => column)).HasColumn name := by
    rintro name ⟨found, hmem, heq⟩
    obtain ⟨i, hi⟩ := List.mem_iff_getElem?.mp hmem
    by_cases hii : i = index
    · subst hii
      rw [hbefore, Option.some.injEq] at hi
      subst hi
      refine ⟨column, List.mem_of_getElem? (getElem?_modifyColumn_self hbefore), ?_⟩
      exact eqIgnoreAsciiCase_trans (eqIgnoreAsciiCase_symm hsame)
        (eqIgnoreAsciiCase_trans (eqIgnoreAsciiCase_symm hold) heq)
    · exact ⟨found, List.mem_of_getElem? ((getElem?_modifyColumn_ne hii).trans hi), heq⟩
  exact ⟨fun constraint hc name hname => hcolumn (hnamed.constraints constraint hc name hname),
    fun definition hmem name hname => hcolumn (hnamed.indexes definition hmem name hname)⟩

theorem renameModified_named {schema schema' : TableSchema} {index : Nat} {old : String}
    {column : ColumnDef} (hnamed : schema.Named) (hindex : schema.columnIndex old = some index)
    (h : renameModified schema old column.name = .ok schema') :
    schema'.columns = schema.columns ∧ (schema'.modifyColumn index (fun _ => column)).Named := by
  obtain ⟨before, hbefore, -⟩ := TableSchema.columnIndex_eq_some hindex
  unfold renameModified at h
  split at h
  · rename_i hsame
    simp only [Except.ok.injEq] at h
    subst h
    exact ⟨rfl, named_replace hnamed hindex hsame⟩
  · split at h
    · simp [refuse] at h
    · simp only [Except.ok.injEq] at h
      subst h
      exact ⟨rfl, named_rename hnamed hindex ⟨column, getElem?_modifyColumn_self hbefore, rfl⟩
        (fun i hi => getElem?_modifyColumn_ne hi) rfl rfl⟩

theorem modifyColumn_keeps {oldName : String} {column : ColumnDef}
    {constraints : List TableConstraint}
    (hparsed : ∀ constraint ∈ constraints, ∀ name ∈ constraintColumns constraint,
      name = column.name)
    (h : modifyColumn table oldName column constraints = .ok table') :
    table.AlteredFrom table' := by
  obtain ⟨index, hindex, h⟩ := Result.bind_eq_ok.mp h
  obtain ⟨schema, hschema, h⟩ := Result.bind_eq_ok.mp h
  obtain ⟨rows, hrows, htable⟩ := Result.bind_eq_ok.mp h
  simp only [Result.pure_eq_ok, Except.ok.injEq] at htable
  subst htable
  have hindex := requireColumn_eq_ok hindex
  obtain ⟨before, hbefore, hold⟩ := TableSchema.columnIndex_eq_some hindex
  refine ⟨Result.length_of_mapM hrows, rfl, rfl, fun hnamed => ?_⟩
  obtain ⟨hcolumns, hkept⟩ : schema.columns = table.schema.columns ∧
      (schema.modifyColumn index (fun _ => column)).Named :=
    renameModified_named hnamed hindex hschema
  have hself : (schema.modifyColumn index (fun _ => column)).columns[index]? = some column :=
    getElem?_modifyColumn_self (hcolumns ▸ hbefore)
  refine ⟨fun constraint hc name hname => ?_, hkept.indexes⟩
  rcases mem_addNewConstraints hc with hc | hc
  · exact hkept.constraints constraint hc name hname
  · rw [hparsed constraint hc name hname]
    exact ⟨column, List.mem_of_getElem? hself, eqIgnoreAsciiCase_refl _⟩

theorem setDefault_keeps {column : String} {value : Option Value}
    (h : setDefault table column value = .ok table') : table.AlteredFrom table' := by
  obtain ⟨index, -, h⟩ := Result.bind_eq_ok.mp h
  split at h
  · simp at h
  · simp only [Result.pure_eq_ok, Except.ok.injEq] at h
    subst h
    exact alteredFrom_modifyColumn table index _ (fun _ => rfl)
  · split at h
    · simp [refuse] at h
    · simp only [Result.pure_eq_ok, Except.ok.injEq] at h
      subst h
      exact alteredFrom_modifyColumn table index _ (fun _ => rfl)

theorem setNullable_keeps {column : String} {nullable : Bool}
    (h : setNullable table column nullable = .ok table') : table.AlteredFrom table' := by
  obtain ⟨index, -, h⟩ := Result.bind_eq_ok.mp h
  have hmodified : table.AlteredFrom { table with
      schema := table.schema.modifyColumn index (fun c => { c with nullable }) } :=
    alteredFrom_modifyColumn table index _ (fun _ => rfl)
  split at h
  · simp at h
  · split at h
    · split at h
      · simp [refuse] at h
      · exact Except.ok.inj h ▸ hmodified
    · obtain ⟨found, -, h⟩ := Result.bind_eq_ok.mp h
      split at h
      · simp [refuse] at h
      · exact Except.ok.inj h ▸ hmodified

theorem setDataType_keeps {column : String} {dataType : DataType}
    (h : setDataType table column dataType = .ok table') : table.AlteredFrom table' := by
  obtain ⟨index, -, h⟩ := Result.bind_eq_ok.mp h
  obtain ⟨rows, hrows, h⟩ := Result.bind_eq_ok.mp h
  split at h
  · simp at h
  · obtain ⟨default, -, h⟩ := Result.bind_eq_ok.mp h
    simp only [Result.pure_eq_ok, Except.ok.injEq] at h
    subst h
    exact ⟨Result.length_of_mapM hrows, rfl, rfl, fun hnamed =>
      hnamed.of_names (names_modifyColumn table.schema index _ (fun _ => rfl)) (fun _ hc => hc) rfl⟩

theorem addConstraint_keeps {constraint : TableConstraint}
    (h : addConstraint table constraint = .ok table') : table.AlteredFrom table' := by
  unfold addConstraint at h
  split at h
  · simp [refuse] at h
  · split at h
    · simp [refuse] at h
    · split at h
      · simp [refuse] at h
      · rename_i hknown
        obtain ⟨⟨⟩, -, h⟩ := Result.bind_eq_ok.mp h
        simp only [Result.pure_eq_ok, Except.ok.injEq] at h
        subst h
        refine ⟨rfl, rfl, rfl, fun hnamed => ⟨?_, hnamed.indexes⟩⟩
        intro found hc column hcol
        rcases List.mem_append.mp hc with hc | hc
        · exact hnamed.constraints found hc column hcol
        · rw [List.mem_singleton.mp hc] at hcol
          have hsome := List.find?_eq_none.mp hknown column hcol
          rw [Bool.not_eq_true, Option.isNone_eq_false_iff] at hsome
          exact TableSchema.isSome_columnIndex.mp hsome

/-- Dropping a constraint. -/
theorem alteredFrom_eraseConstraint (table : Table) (position : Nat) :
    table.AlteredFrom { table with
      schema := { table.schema with
        constraints := table.schema.constraints.eraseIdx position } } :=
  ⟨rfl, rfl, rfl, fun hnamed => hnamed.of_names rfl
    (fun _ hc => List.mem_of_mem_eraseIdx hc) rfl⟩

theorem dropConstraint_keeps {name : String} {ifExists : Bool}
    (h : dropConstraint table name ifExists = .ok table') : table.AlteredFrom table' := by
  unfold dropConstraint at h
  split at h
  · simp only [Except.ok.injEq] at h
    exact h ▸ alteredFrom_eraseConstraint table _
  · split at h
    · simp only [Except.ok.injEq] at h
      subst h
      exact ⟨rfl, rfl, rfl, fun hnamed => hnamed⟩
    · simp [refuse] at h

theorem dropPrimaryKey_keeps (h : dropPrimaryKey table = .ok table') :
    table.AlteredFrom table' := by
  unfold dropPrimaryKey at h
  split at h
  · simp only [Except.ok.injEq] at h
    exact h ▸ alteredFrom_eraseConstraint table _
  · simp [refuse] at h

/-- **Every ALTER operation** keeps the number of rows, their identifiers and the
resolution of names. -/
theorem alterTable_keeps {H : Host} {tables : Tables} {tableName : String}
    {operation : AlterOperation} (hparsed : operation.Parsed)
    (h : alterTable H tables tableName table operation = .ok (some table')) :
    table.AlteredFrom table' := by
  cases operation with
  | addColumn column constraints ifNotExists => exact addColumn_keeps hparsed h
  | dropColumn name ifExists => exact dropColumn_keeps h
  | renameColumn oldName newName =>
    obtain ⟨_, h, heq⟩ := Result.map_eq_ok.mp h
    exact Option.some.inj heq ▸ renameColumn_keeps h
  | modifyColumn oldName column constraints =>
    obtain ⟨_, h, heq⟩ := Result.map_eq_ok.mp h
    exact Option.some.inj heq ▸ modifyColumn_keeps hparsed h
  | setDefault column value =>
    obtain ⟨_, h, heq⟩ := Result.map_eq_ok.mp h
    exact Option.some.inj heq ▸ setDefault_keeps h
  | setNullable column nullable =>
    obtain ⟨_, h, heq⟩ := Result.map_eq_ok.mp h
    exact Option.some.inj heq ▸ setNullable_keeps h
  | setDataType column dataType =>
    obtain ⟨_, h, heq⟩ := Result.map_eq_ok.mp h
    exact Option.some.inj heq ▸ setDataType_keeps h
  | addConstraint constraint =>
    obtain ⟨_, h, heq⟩ := Result.map_eq_ok.mp h
    exact Option.some.inj heq ▸ addConstraint_keeps h
  | dropConstraint name ifExists =>
    obtain ⟨_, h, heq⟩ := Result.map_eq_ok.mp h
    exact Option.some.inj heq ▸ dropConstraint_keeps h
  | dropPrimaryKey =>
    obtain ⟨_, h, heq⟩ := Result.map_eq_ok.mp h
    exact Option.some.inj heq ▸ dropPrimaryKey_keeps h

end Alter

end Sql
end RustyDB
