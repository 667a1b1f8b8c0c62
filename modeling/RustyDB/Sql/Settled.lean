import Mathlib
import RustyDB.Sql.Persist
import RustyDB.Sql.WellFormed
import RustyDB.Sql.Stored
import RustyDB.Sql.ForeignKeys

/-!
# Settled schemas

The parser writes every name of a schema in lower case and gives a column that is flagged
as a key its own constraint.  Catalogs built from such statements have schemas that
`refresh_constraint_metadata` would not change in anything but the key flags: the indexes
are those of the constraints followed by the manual ones, and the columns of a PRIMARY KEY
are NOT NULL already.

* `Statement.Written` — a statement as the parser builds it.
* `Alters`, `alterTable_alters` — what one operation of ALTER TABLE does.
* `TableSchema.Settled` — distinct lower-case names, and metadata that are up to date.
* `refreshSchema_indexes`, `refreshSchema_shapes` — refreshing a settled schema.
* `Built`, `standing_of_built` — **every catalog that is built from parsed statements has
  settled schemas, rows that fit their columns, and foreign keys with a target.**
-/

namespace RustyDB
namespace Sql

/-! ## Names in lower case -/

/-- A name as the parser writes it. -/
def Lower (name : String) : Prop := toAsciiLowercase name = name

/-- Every column that the constraints name is written in lower case. -/
def LowerColumns (constraints : List TableConstraint) : Prop :=
  ∀ constraint ∈ constraints, ∀ name ∈ constraintColumns constraint, Lower name

/-- A column that is flagged as a key has a key constraint of its own. -/
def OwnKeys (columns : List ColumnDef) (constraints : List TableConstraint) : Prop :=
  ∀ column ∈ columns, column.primaryKey = true ∨ column.unique = true →
    ∃ constraint ∈ constraints, constraint.keyColumns = some [column.name]

/-- Names of an ALTER operation as `convert_alter_operation` writes them. -/
def AlterOperation.Written : AlterOperation → Prop
  | .addColumn column constraints _ => Lower column.name ∧ LowerColumns constraints
  | .renameColumn _ newName => Lower newName
  | .modifyColumn _ column constraints => Lower column.name ∧ LowerColumns constraints
  | .addConstraint constraint => LowerColumns [constraint]
  | _ => True

/-- A statement as the parser builds it: `convert_column_def` and
`convert_table_constraint` write names in lower case, and the former gives every flagged
column its constraint. -/
def Statement.Written : Statement → Prop
  | .createTable _ columns constraints _ =>
    (∀ column ∈ columns, Lower column.name) ∧ LowerColumns constraints ∧
      OwnKeys columns constraints
  | .alterTable _ operations => ∀ operation ∈ operations, operation.Written
  | _ => True

theorem Lower.eq {a b : String} (ha : Lower a) (hb : Lower b)
    (h : eqIgnoreAsciiCase a b = true) : a = b := by
  rw [← ha, ← hb]
  exact toAsciiLowercase_inj.mpr h

theorem LowerColumns.append {first second : List TableConstraint} (hfirst : LowerColumns first)
    (hsecond : LowerColumns second) : LowerColumns (first ++ second) := by
  intro constraint hmem
  rcases List.mem_append.mp hmem with hmem | hmem
  · exact hfirst constraint hmem
  · exact hsecond constraint hmem

theorem LowerColumns.mono {constraints fewer : List TableConstraint} (h : LowerColumns constraints)
    (hsub : ∀ constraint ∈ fewer, constraint ∈ constraints) : LowerColumns fewer :=
  fun constraint hmem => h constraint (hsub constraint hmem)

theorem lower_renameName {old new name : String} (hnew : Lower new) (hname : Lower name) :
    Lower (renameName old new name) := by
  unfold renameName
  split_ifs
  · exact hnew
  · exact hname

theorem LowerColumns.rename {constraints : List TableConstraint} (h : LowerColumns constraints)
    {new : String} (hnew : Lower new) (schemaName old : String) :
    LowerColumns (constraints.map (renameInConstraint schemaName old new)) := by
  intro constraint hmem name hname
  obtain ⟨before, hbefore, rfl⟩ := List.mem_map.mp hmem
  rw [constraintColumns_rename] at hname
  obtain ⟨found, hfound, rfl⟩ := List.mem_map.mp hname
  exact lower_renameName hnew (h before hbefore found hfound)

/-! ## One operation of ALTER TABLE -/

/-- What an operation of ALTER TABLE does to its table when it does anything. -/
inductive Alters (table : Table) : AlterOperation → Table → Prop
  | addColumn {column : ColumnDef} {constraints : List TableConstraint} {ifNotExists : Bool}
      {value : Value} :
      table.schema.columnIndex column.name = none →
      (column.default.getD .null).coerceTo column.dataType = some value →
      Alters table (.addColumn column constraints ifNotExists) { table with
        rows := table.rows.map (fun row => row ++ [value])
        schema := { table.schema with
          columns := table.schema.columns ++ [column]
          constraints := table.schema.constraints ++ constraints } }
  | dropColumn {name : String} {ifExists : Bool} {index : Nat} {rows : List Row} :
      table.schema.columnIndex name = some index →
      removeColumn table.rows index = .ok rows →
      Alters table (.dropColumn name ifExists) { table with
        rows
        schema := { table.schema with columns := table.schema.columns.eraseIdx index } }
  | renameColumn {oldName newName : String} {index : Nat} :
      table.schema.columnIndex newName = none →
      table.schema.columnIndex oldName = some index →
      Alters table (.renameColumn oldName newName) { table with
        schema := renameSchemaReferences
          (table.schema.modifyColumn index (fun column => { column with name := newName }))
          oldName newName }
  | modifyColumn {oldName : String} {column : ColumnDef} {constraints : List TableConstraint}
      {index : Nat} {schema : TableSchema} {rows : List Row} {message : String} :
      table.schema.columnIndex oldName = some index →
      renameModified table.schema oldName column.name = .ok schema →
      coerceColumn table.rows index column.dataType message = .ok rows →
      Alters table (.modifyColumn oldName column constraints) { table with
        rows
        schema := { schema.modifyColumn index (fun _ => column) with
          constraints := addNewConstraints schema.constraints constraints } }
  | setDefault {column : String} {value default : Option Value} {index : Nat} :
      table.schema.columnIndex column = some index →
      Alters table (.setDefault column value) { table with
        schema := table.schema.modifyColumn index (fun c => { c with default }) }
  | setNullable {column : String} {nullable : Bool} {index : Nat} :
      table.schema.columnIndex column = some index →
      Alters table (.setNullable column nullable) { table with
        schema := table.schema.modifyColumn index (fun c => { c with nullable }) }
  | setDataType {column : String} {dataType : DataType} {index : Nat} {rows : List Row}
      {message : String} {default : Option Value} :
      table.schema.columnIndex column = some index →
      coerceColumn table.rows index dataType message = .ok rows →
      Alters table (.setDataType column dataType) { table with
        rows
        schema := table.schema.modifyColumn index (fun c => { c with default, dataType }) }
  | addConstraint {constraint : TableConstraint} :
      Alters table (.addConstraint constraint) { table with
        schema := { table.schema with
          constraints := table.schema.constraints ++ [constraint] } }
  | dropConstraint {name : String} {ifExists : Bool} {constraints : List TableConstraint} :
      constraints.Sublist table.schema.constraints →
      Alters table (.dropConstraint name ifExists) { table with
        schema := { table.schema with constraints } }
  | dropPrimaryKey {constraints : List TableConstraint} :
      constraints.Sublist table.schema.constraints →
      Alters table .dropPrimaryKey { table with schema := { table.schema with constraints } }

section Operation

variable {H : Host} {tables : Tables} {table table' : Table}

theorem addColumn_alters {column : ColumnDef} {constraints : List TableConstraint}
    {ifNotExists : Bool} (h : addColumn table column constraints ifNotExists = .ok (some table')) :
    Alters table (.addColumn column constraints ifNotExists) table' := by
  unfold addColumn at h
  split at h
  · split at h <;> simp [refuse] at h
  · rename_i hnew
    split at h
    · simp [refuse] at h
    · rename_i hvalue
      split at h
      · simp [refuse] at h
      · obtain rfl := Option.some.inj (Except.ok.inj h)
        exact .addColumn (by simpa using hnew) hvalue

theorem dropColumn_alters {tableName name : String} {ifExists : Bool}
    (h : dropColumn H tables tableName table name ifExists = .ok (some table')) :
    Alters table (.dropColumn name ifExists) table' := by
  unfold dropColumn at h
  cases hindex : table.schema.columnIndex name with
  | none =>
    simp only [hindex] at h
    split at h <;> simp [refuse] at h
  | some index =>
    simp only [hindex] at h
    split at h
    · simp [refuse] at h
    · split at h
      · simp [refuse] at h
      · obtain ⟨rows, hrows, htable⟩ := Result.bind_eq_ok.mp h
        obtain rfl := Option.some.inj (Except.ok.inj htable)
        exact .dropColumn hindex hrows

theorem renameColumn_alters {oldName newName : String}
    (h : renameColumn table oldName newName = .ok table') :
    Alters table (.renameColumn oldName newName) table' := by
  unfold renameColumn at h
  split at h
  · simp [refuse] at h
  · rename_i hnew
    obtain ⟨index, hindex, htable⟩ := Result.bind_eq_ok.mp h
    obtain rfl := Except.ok.inj htable
    exact .renameColumn (by simpa using hnew) (requireColumn_eq_ok hindex)

theorem modifyColumn_alters {oldName : String} {column : ColumnDef}
    {constraints : List TableConstraint}
    (h : modifyColumn table oldName column constraints = .ok table') :
    Alters table (.modifyColumn oldName column constraints) table' := by
  obtain ⟨index, hindex, h⟩ := Result.bind_eq_ok.mp h
  obtain ⟨schema, hschema, h⟩ := Result.bind_eq_ok.mp h
  obtain ⟨rows, hrows, htable⟩ := Result.bind_eq_ok.mp h
  obtain rfl := Except.ok.inj htable
  exact .modifyColumn (requireColumn_eq_ok hindex) hschema hrows

theorem setDefault_alters {column : String} {value : Option Value}
    (h : setDefault table column value = .ok table') :
    Alters table (.setDefault column value) table' := by
  obtain ⟨index, hindex, h⟩ := Result.bind_eq_ok.mp h
  have hindex := requireColumn_eq_ok hindex
  split at h
  · simp at h
  · obtain rfl := Except.ok.inj h
    exact .setDefault hindex
  · split at h
    · simp [refuse] at h
    · obtain rfl := Except.ok.inj h
      exact .setDefault hindex

theorem setNullable_alters {column : String} {nullable : Bool}
    (h : setNullable table column nullable = .ok table') :
    Alters table (.setNullable column nullable) table' := by
  obtain ⟨index, hindex, h⟩ := Result.bind_eq_ok.mp h
  have hindex := requireColumn_eq_ok hindex
  split at h
  · simp at h
  · split at h
    · split at h
      · simp [refuse] at h
      · obtain rfl := Except.ok.inj h
        exact .setNullable hindex
    · obtain ⟨found, -, h⟩ := Result.bind_eq_ok.mp h
      split at h
      · simp [refuse] at h
      · obtain rfl := Except.ok.inj h
        exact .setNullable hindex

theorem setDataType_alters {column : String} {dataType : DataType}
    (h : setDataType table column dataType = .ok table') :
    Alters table (.setDataType column dataType) table' := by
  obtain ⟨index, hindex, h⟩ := Result.bind_eq_ok.mp h
  obtain ⟨rows, hrows, h⟩ := Result.bind_eq_ok.mp h
  split at h
  · simp at h
  · obtain ⟨default, -, h⟩ := Result.bind_eq_ok.mp h
    obtain rfl := Except.ok.inj h
    exact .setDataType (requireColumn_eq_ok hindex) hrows

theorem addConstraint_alters {constraint : TableConstraint}
    (h : addConstraint table constraint = .ok table') :
    Alters table (.addConstraint constraint) table' := by
  unfold addConstraint at h
  split at h
  · simp [refuse] at h
  · split at h
    · simp [refuse] at h
    · split at h
      · simp [refuse] at h
      · obtain ⟨⟨⟩, -, h⟩ := Result.bind_eq_ok.mp h
        obtain rfl := Except.ok.inj h
        exact .addConstraint

theorem dropConstraint_alters {name : String} {ifExists : Bool}
    (h : dropConstraint table name ifExists = .ok table') :
    Alters table (.dropConstraint name ifExists) table' := by
  unfold dropConstraint at h
  split at h
  · obtain rfl := Except.ok.inj h
    exact .dropConstraint (List.eraseIdx_sublist _ _)
  · split at h
    · obtain rfl := Except.ok.inj h
      exact .dropConstraint (List.Sublist.refl _)
    · simp [refuse] at h

theorem dropPrimaryKey_alters (h : dropPrimaryKey table = .ok table') :
    Alters table .dropPrimaryKey table' := by
  unfold dropPrimaryKey at h
  split at h
  · obtain rfl := Except.ok.inj h
    exact .dropPrimaryKey (List.eraseIdx_sublist _ _)
  · simp [refuse] at h

/-- **What one operation does**, when it does anything. -/
theorem alterTable_alters {tableName : String} {operation : AlterOperation}
    (h : alterTable H tables tableName table operation = .ok (some table')) :
    Alters table operation table' := by
  have hmapped : ∀ {result : Except Fault Table}, result.map some = .ok (some table') →
      result = .ok table' := by
    intro result hresult
    obtain ⟨altered, haltered, heq⟩ := Result.map_eq_ok.mp hresult
    exact Option.some.inj heq ▸ haltered
  cases operation with
  | addColumn column constraints ifNotExists => exact addColumn_alters h
  | dropColumn name ifExists => exact dropColumn_alters h
  | renameColumn oldName newName => exact renameColumn_alters (hmapped h)
  | modifyColumn oldName column constraints => exact modifyColumn_alters (hmapped h)
  | setDefault column value => exact setDefault_alters (hmapped h)
  | setNullable column nullable => exact setNullable_alters (hmapped h)
  | setDataType column dataType => exact setDataType_alters (hmapped h)
  | addConstraint constraint => exact addConstraint_alters (hmapped h)
  | dropConstraint name ifExists => exact dropConstraint_alters (hmapped h)
  | dropPrimaryKey => exact dropPrimaryKey_alters (hmapped h)

end Operation

/-! ## Key flags and automatic indexes -/

section Flags

variable {constraints : List TableConstraint}

theorem ownKeys_updateColumn {columns : List ColumnDef} {name : String}
    {f : ColumnDef → ColumnDef} (h : OwnKeys columns constraints)
    (hf : ∀ column ∈ columns, eqIgnoreAsciiCase column.name name = true →
      (f column).primaryKey = true ∨ (f column).unique = true →
        ∃ constraint ∈ constraints, constraint.keyColumns = some [(f column).name]) :
    OwnKeys (updateColumn name f columns) constraints := by
  induction columns with
  | nil => exact h
  | cons column columns ih =>
    have htail : OwnKeys columns constraints := fun c hc => h c (List.mem_cons_of_mem _ hc)
    rw [updateColumn]
    split_ifs with heq
    · intro c hc hflag
      rcases List.mem_cons.mp hc with rfl | hc
      · exact hf column List.mem_cons_self heq hflag
      · exact htail c hc hflag
    · intro c hc hflag
      rcases List.mem_cons.mp hc with rfl | hc
      · exact h c List.mem_cons_self hflag
      · exact ih htail (fun c hc => hf c (List.mem_cons_of_mem _ hc)) c hc hflag

/-- Marking the columns of a PRIMARY KEY flags a column only when it is the whole key. -/
theorem ownKeys_markPrimaryKey {columns : List ColumnDef} {name : Option String}
    {keyColumns : List String} (h : OwnKeys columns constraints)
    (hcolumns : ∀ column ∈ columns, Lower column.name)
    (hmem : .primaryKey name keyColumns ∈ constraints) (hkeys : ∀ key ∈ keyColumns, Lower key) :
    OwnKeys (markPrimaryKey keyColumns columns) constraints := by
  unfold markPrimaryKey
  cases hsingle : keyColumns.length == 1 with
  | true =>
    obtain ⟨key, rfl⟩ := List.length_eq_one_iff.mp (beq_iff_eq.mp hsingle)
    refine ownKeys_updateColumn h fun column hcolumn heq _ => ⟨_, hmem, ?_⟩
    have hname : column.name = key := (hcolumns column hcolumn).eq (hkeys key (by simp)) heq
    simp [TableConstraint.keyColumns, hname]
  | false =>
    -- The columns of a longer key lose their flags.
    clear hmem hsingle hcolumns
    induction keyColumns generalizing columns with
    | nil => exact h
    | cons key keyColumns ih =>
      have hfirst := @ownKeys_updateColumn _ _ key (fun column => { column with
        nullable := false, unique := false, primaryKey := false }) h
        fun column _ _ hflag => by simp at hflag
      exact ih hfirst fun other hother => hkeys other (List.mem_cons_of_mem _ hother)

theorem ownKeys_markConstraint {columns : List ColumnDef} {constraint : TableConstraint}
    (h : OwnKeys columns constraints) (hcolumns : ∀ column ∈ columns, Lower column.name)
    (hmem : constraint ∈ constraints) (hlower : LowerColumns constraints) :
    OwnKeys (markConstraint columns constraint) constraints := by
  unfold markConstraint
  split
  · exact ownKeys_markPrimaryKey h hcolumns hmem (hlower _ hmem)
  · rename_i name
    refine ownKeys_updateColumn h fun column hcolumn heq _ => ⟨_, hmem, ?_⟩
    have hname : column.name = name :=
      (hcolumns column hcolumn).eq (hlower _ hmem name (by simp [constraintColumns])) heq
    simp [TableConstraint.keyColumns, hname]
  · exact h

theorem lower_of_names {columns columns' : List ColumnDef}
    (hnames : columns'.map ColumnDef.name = columns.map ColumnDef.name)
    (h : ∀ column ∈ columns, Lower column.name) : ∀ column ∈ columns', Lower column.name := by
  intro column hcolumn
  have hmem : column.name ∈ columns.map ColumnDef.name := hnames ▸ List.mem_map_of_mem hcolumn
  obtain ⟨before, hbefore, hname⟩ := List.mem_map.mp hmem
  exact hname ▸ h before hbefore

theorem ownKeys_foldl_markConstraint {columns : List ColumnDef} {marking : List TableConstraint}
    (h : OwnKeys columns constraints) (hcolumns : ∀ column ∈ columns, Lower column.name)
    (hmem : ∀ constraint ∈ marking, constraint ∈ constraints)
    (hlower : LowerColumns constraints) :
    OwnKeys (marking.foldl markConstraint columns) constraints := by
  induction marking generalizing columns with
  | nil => exact h
  | cons constraint marking ih =>
    refine ih ?_ (lower_of_names (names_markConstraint constraint columns) hcolumns)
      fun other hother => hmem other (List.mem_cons_of_mem _ hother)
    exact ownKeys_markConstraint h hcolumns (hmem _ List.mem_cons_self) hlower

/-- The loop of CREATE TABLE flags columns of the PRIMARY KEY only. -/
theorem ownKeys_applyConstraints {seen : List String} {columns columns' : List ColumnDef}
    {primaryKeys primaryKeys' : Nat} {applied : List TableConstraint}
    (h : applyConstraints seen columns primaryKeys applied = .ok (columns', primaryKeys'))
    (hown : OwnKeys columns constraints) (hcolumns : ∀ column ∈ columns, Lower column.name)
    (hmem : ∀ constraint ∈ applied, constraint ∈ constraints)
    (hlower : LowerColumns constraints) : OwnKeys columns' constraints := by
  induction applied generalizing columns primaryKeys with
  | nil =>
    obtain ⟨rfl, -⟩ := Prod.mk.inj (Except.ok.inj h)
    exact hown
  | cons constraint applied ih =>
    rw [applyConstraints] at h
    have hrest : ∀ other ∈ applied, other ∈ constraints :=
      fun other hother => hmem other (List.mem_cons_of_mem _ hother)
    split at h
    · simp [refuse] at h
    · cases constraint with
      | primaryKey name keyColumns =>
        have hkey := hmem _ List.mem_cons_self
        exact ih h (ownKeys_markPrimaryKey hown hcolumns hkey (hlower _ hkey))
          (lower_of_names (names_markPrimaryKey keyColumns columns) hcolumns) hrest
      | _ => exact ih h hown hcolumns hrest

/-- Flagged columns ask for no index of their own when their constraints do. -/
theorem automaticIndexes_eq {schema : TableSchema}
    (h : OwnKeys schema.columns schema.constraints) :
    automaticIndexes schema = schema.constraints.filterMap (constraintIndex schema.name) := by
  have hnone : ∀ column ∈ schema.columns, columnIndexDef schema.name
      (schema.constraints.filterMap (constraintIndex schema.name)) column = none := by
    intro column hcolumn
    by_cases hflag : column.primaryKey = true ∨ column.unique = true
    · obtain ⟨constraint, hmem, hkey⟩ := h column hcolumn hflag
      have hindex : ∃ definition, constraintIndex schema.name constraint = some definition ∧
          definition.columns = [column.name] := by
        cases constraint with
        | primaryKey name columns => exact ⟨_, rfl, Option.some.inj hkey⟩
        | unique name columns => exact ⟨_, rfl, Option.some.inj hkey⟩
        | _ => cases hkey
      obtain ⟨definition, hdefinition, hcolumns⟩ := hindex
      refine if_pos (List.any_eq_true.mpr ⟨definition, ?_, by simp [hcolumns]⟩)
      exact List.mem_filterMap.mpr ⟨constraint, hmem, hdefinition⟩
    · rw [not_or] at hflag
      simp [columnIndexDef, hflag.1, hflag.2]
  rw [automaticIndexes]
  generalize schema.columns = columns at hnone
  induction columns with
  | nil => rfl
  | cons column columns ih =>
    rw [List.foldl_cons, hnone column List.mem_cons_self, Option.toList_none, List.append_nil]
    exact ih fun other hother => hnone other (List.mem_cons_of_mem _ hother)

end Flags

/-! ## Settled schemas -/

/-- What DESCRIBE shows of a column besides its key flags and its default. -/
def ColumnDef.shape (column : ColumnDef) : String × DataType × Bool :=
  (column.name, column.dataType, column.nullable)

/-- The indexes that the constraints of a schema ask for. -/
def TableSchema.constraintIndexes (schema : TableSchema) : List IndexDef :=
  schema.constraints.filterMap (constraintIndex schema.name)

/-- The indexes that CREATE INDEX has added. -/
def TableSchema.manualIndexes (schema : TableSchema) : List IndexDef :=
  schema.indexes.filter (fun index => !index.automatic)

/-- Names that are distinct, in lower case, and resolve. -/
structure TableSchema.Plain (schema : TableSchema) : Prop where
  distinct : DistinctNames (schema.columns.map ColumnDef.name)
  columns : ∀ column ∈ schema.columns, Lower column.name
  constraints : LowerColumns schema.constraints
  named : schema.Named

/-- A schema whose metadata are up to date. -/
structure TableSchema.Settled (schema : TableSchema) : Prop extends schema.Plain where
  ownKeys : OwnKeys schema.columns schema.constraints
  notNull : schema.KeysNotNull
  indexes : schema.indexes = schema.constraintIndexes ++ schema.manualIndexes

section Refresh

variable {schema : TableSchema}

theorem lower_cleared (h : schema.Plain) :
    ∀ column ∈ schema.columns.map (fun column =>
      { column with primaryKey := false, unique := false }), Lower column.name := by
  intro column hcolumn
  obtain ⟨before, hbefore, rfl⟩ := List.mem_map.mp hcolumn
  exact h.columns before hbefore

theorem ownKeys_refreshSchema (h : schema.Plain) :
    OwnKeys (refreshSchema schema).columns schema.constraints := by
  refine ownKeys_foldl_markConstraint ?_ (lower_cleared h) (fun _ hmem => hmem) h.constraints
  intro column hcolumn hflag
  obtain ⟨before, -, rfl⟩ := List.mem_map.mp hcolumn
  simp at hflag

/-- **Refreshing leaves the indexes of the constraints, then the manual ones.** -/
theorem indexes_refreshSchema (h : schema.Plain) :
    (refreshSchema schema).indexes = schema.constraintIndexes ++ schema.manualIndexes := by
  have hown : OwnKeys (refreshSchema schema).columns (refreshSchema schema).constraints :=
    ownKeys_refreshSchema h
  have hautomatic := automaticIndexes_eq hown
  show automaticIndexes (refreshSchema schema) ++ schema.manualIndexes = _
  rw [hautomatic]
  rfl

theorem automatic_of_mem_constraintIndexes {definition : IndexDef}
    (h : definition ∈ schema.constraintIndexes) : definition.automatic = true := by
  obtain ⟨constraint, -, hindex⟩ := List.mem_filterMap.mp h
  exact automatic_of_constraintIndex hindex

theorem filter_constraintIndexes :
    schema.constraintIndexes.filter (fun index => !index.automatic) = [] := by
  rw [List.filter_eq_nil_iff]
  intro definition hmem
  simp [automatic_of_mem_constraintIndexes hmem]

/-- **Refreshing settles a schema.** -/
theorem settled_refreshSchema (h : schema.Plain) : (refreshSchema schema).Settled := by
  refine ⟨⟨?_, lower_of_names (names_refreshSchema schema) h.columns, h.constraints,
    named_refreshSchema h.named⟩, ownKeys_refreshSchema h, ?_, ?_⟩
  · rw [names_refreshSchema]
    exact h.distinct
  · intro constraint hmem hprimary name hname column hcolumn heq
    have hcleared : DistinctNames ((schema.columns.map fun column =>
        { column with primaryKey := false, unique := false }).map ColumnDef.name) := by
      rw [List.map_map]
      exact h.distinct
    have hnotNull := (notNull_foldl_markConstraint hcleared (notNull_nil _)
      schema.constraints).2 constraint hmem hprimary
    by_contra hnull
    rw [hnotNull column hcolumn (by simpa using hnull) name hname] at heq
    cases heq
  · have hindexes := indexes_refreshSchema h
    have hmanual : (refreshSchema schema).manualIndexes = schema.manualIndexes := by
      rw [TableSchema.manualIndexes, hindexes, List.filter_append, filter_constraintIndexes,
        List.nil_append]
      exact List.filter_filter.trans (by simp [TableSchema.manualIndexes])
    rw [hmanual]
    exact hindexes

theorem shapes_updateColumn {columns : List ColumnDef} {name : String}
    {f : ColumnDef → ColumnDef}
    (hf : ∀ column ∈ columns, eqIgnoreAsciiCase column.name name = true →
      (f column).shape = column.shape) :
    (updateColumn name f columns).map ColumnDef.shape = columns.map ColumnDef.shape := by
  induction columns with
  | nil => rfl
  | cons column columns ih =>
    rw [updateColumn]
    split_ifs with heq
    · rw [List.map_cons, List.map_cons, hf column List.mem_cons_self heq]
    · rw [List.map_cons, List.map_cons, ih fun c hc => hf c (List.mem_cons_of_mem _ hc)]

theorem names_of_shapes {columns columns' : List ColumnDef}
    (h : columns'.map ColumnDef.shape = columns.map ColumnDef.shape) :
    columns'.map ColumnDef.name = columns.map ColumnDef.name := by
  have := congrArg (List.map Prod.fst) h
  simpa [List.map_map, Function.comp_def, ColumnDef.shape] using this

/-- The columns of these names are NOT NULL. -/
theorem notNull_of_shapes {columns columns' : List ColumnDef} {names : List String}
    (hshapes : columns'.map ColumnDef.shape = columns.map ColumnDef.shape)
    (h : NotNull names columns) : NotNull names columns' := by
  intro column hcolumn hnull name hname
  have hmem : column.shape ∈ columns.map ColumnDef.shape := hshapes ▸ List.mem_map_of_mem hcolumn
  obtain ⟨before, hbefore, hshape⟩ := List.mem_map.mp hmem
  simp only [ColumnDef.shape, Prod.mk.injEq] at hshape
  rw [← hshape.1]
  exact h before hbefore (hshape.2.2.trans hnull) name hname

theorem shapes_markPrimaryKey {columns : List ColumnDef} {keyColumns : List String}
    (h : NotNull keyColumns columns) :
    (markPrimaryKey keyColumns columns).map ColumnDef.shape = columns.map ColumnDef.shape := by
  unfold markPrimaryKey
  generalize (keyColumns.length == 1) = single
  induction keyColumns generalizing columns with
  | nil => rfl
  | cons key keyColumns ih =>
    have hfirst : (updateColumn key (fun column => { column with
        nullable := false, unique := single, primaryKey := single }) columns).map
          ColumnDef.shape = columns.map ColumnDef.shape := by
      refine shapes_updateColumn fun column hcolumn heq => ?_
      have hnullable : column.nullable = false := by
        by_contra hnull
        rw [h column hcolumn (by simpa using hnull) key List.mem_cons_self] at heq
        cases heq
      simp [ColumnDef.shape, hnullable]
    rw [List.foldl_cons, ih, hfirst]
    refine notNull_of_shapes hfirst fun column hcolumn hnull name hname => ?_
    exact h column hcolumn hnull name (List.mem_cons_of_mem _ hname)

theorem shapes_foldl_markConstraint {columns : List ColumnDef}
    {constraints : List TableConstraint}
    (h : ∀ constraint ∈ constraints, isPrimaryKey constraint = true →
      NotNull (constraintColumns constraint) columns) :
    (constraints.foldl markConstraint columns).map ColumnDef.shape =
      columns.map ColumnDef.shape := by
  induction constraints generalizing columns with
  | nil => rfl
  | cons constraint constraints ih =>
    have hfirst : (markConstraint columns constraint).map ColumnDef.shape =
        columns.map ColumnDef.shape := by
      unfold markConstraint
      split
      · exact shapes_markPrimaryKey (h _ List.mem_cons_self rfl)
      · exact shapes_updateColumn fun _ _ _ => rfl
      · rfl
    rw [List.foldl_cons, ih, hfirst]
    intro other hother hprimary
    exact notNull_of_shapes hfirst (h other (List.mem_cons_of_mem _ hother) hprimary)

/-- **Refreshing a settled schema changes key flags only.** -/
theorem shapes_refreshSchema (h : schema.KeysNotNull) :
    (refreshSchema schema).columns.map ColumnDef.shape =
      schema.columns.map ColumnDef.shape := by
  have hmark := @shapes_foldl_markConstraint (schema.columns.map fun column =>
    { column with primaryKey := false, unique := false }) schema.constraints ?_
  · refine hmark.trans ?_
    rw [List.map_map]
    rfl
  · intro constraint hmem hprimary column hcolumn hnull name hname
    obtain ⟨before, hbefore, rfl⟩ := List.mem_map.mp hcolumn
    rw [← Bool.not_eq_true]
    intro heq
    rw [h constraint hmem hprimary name hname before hbefore heq] at hnull
    cases hnull

end Refresh

/-! ## ALTER TABLE -/

section Alter

variable {H : Host} {tables : Tables} {table table' : Table}

theorem lower_modifyColumn {schema : TableSchema} {index : Nat} {f : ColumnDef → ColumnDef}
    {name : String} (h : ∀ column ∈ schema.columns, Lower column.name) (hname : Lower name)
    (hf : ∀ column, (f column).name = name) :
    ∀ column ∈ (schema.modifyColumn index f).columns, Lower column.name := by
  intro column hcolumn
  have hmem : column.name ∈ (schema.columns.map ColumnDef.name).set index name := by
    rw [← names_modifyColumn_name schema index f name hf]
    exact List.mem_map_of_mem hcolumn
  rcases List.mem_or_eq_of_mem_set hmem with hmem | heq
  · obtain ⟨before, hbefore, hsame⟩ := List.mem_map.mp hmem
    exact hsame ▸ h before hbefore
  · exact heq ▸ hname

/-- A column keeps its name under MODIFY COLUMN when the two names agree up to case. -/
theorem set_name_of_same {schema : TableSchema} (h : schema.Plain) {oldName name : String}
    {index : Nat} (hindex : schema.columnIndex oldName = some index) (hname : Lower name)
    (hsame : eqIgnoreAsciiCase oldName name = true) :
    (schema.columns.map ColumnDef.name).set index name = schema.columns.map ColumnDef.name := by
  obtain ⟨before, hbefore, hold⟩ := TableSchema.columnIndex_eq_some hindex
  have hbeforeName : before.name = name :=
    (h.columns before (List.mem_of_getElem? hbefore)).eq hname (eqIgnoreAsciiCase_trans hold hsame)
  apply List.ext_getElem?
  intro i
  rw [List.getElem?_set, List.length_map, List.getElem?_map]
  split_ifs with hi hlt
  · rw [← hi, hbefore, Option.map_some, hbeforeName]
  · rw [← hi, hbefore]
    exact absurd (List.getElem?_eq_some_iff.mp hbefore).1 hlt
  · rfl

/-- A schema with the same column names and other constraints. -/
theorem TableSchema.Plain.of_names {schema schema' : TableSchema} (h : schema.Plain)
    (hnames : schema'.columns.map ColumnDef.name = schema.columns.map ColumnDef.name)
    (hconstraints : LowerColumns schema'.constraints) (hnamed : schema'.Named) : schema'.Plain :=
  ⟨hnames ▸ h.distinct, lower_of_names hnames h.columns, hconstraints, hnamed⟩

/-- **Every operation keeps names plain.** -/
theorem plain_alters {operation : AlterOperation} (hwritten : operation.Written)
    (h : Alters table operation table') (hnamed : table'.schema.Named)
    (hplain : table.schema.Plain) : table'.schema.Plain := by
  cases h with
  | @addColumn column constraints _ value hnew _ =>
    refine ⟨?_, ?_, hplain.constraints.append hwritten.2, hnamed⟩
    · show DistinctNames ((table.schema.columns ++ [column]).map ColumnDef.name)
      rw [List.map_append]
      exact hplain.distinct.append (names_of_not_columnIndex (by simp [hnew]))
    · intro found hmem
      rcases List.mem_append.mp hmem with hmem | hmem
      · exact hplain.columns found hmem
      · exact List.mem_singleton.mp hmem ▸ hwritten.1
  | @dropColumn _ _ index rows _ _ =>
    refine ⟨?_, fun found hmem => hplain.columns found (List.mem_of_mem_eraseIdx hmem),
      hplain.constraints, hnamed⟩
    show DistinctNames ((table.schema.columns.eraseIdx index).map ColumnDef.name)
    rw [← List.eraseIdx_map]
    exact hplain.distinct.eraseIdx index
  | @renameColumn oldName newName index hnew hindex =>
    refine ⟨?_, lower_modifyColumn hplain.columns hwritten fun _ => rfl,
      hplain.constraints.rename hwritten _ _, hnamed⟩
    show DistinctNames
      ((table.schema.modifyColumn index fun c => { c with name := newName }).columns.map
        ColumnDef.name)
    rw [names_modifyColumn_name _ _ _ newName fun _ => rfl]
    exact hplain.distinct.set fun i other hi _ =>
      names_of_not_columnIndex (by simp [hnew]) other (List.mem_of_getElem? hi)
  | @modifyColumn oldName column constraints index schema rows message hindex hschema _ =>
    obtain ⟨hcolumns, -, -, hnew⟩ := renameModified_eq hschema constraints
    have hlower : LowerColumns schema.constraints := by
      unfold renameModified at hschema
      split_ifs at hschema
      · obtain rfl := Except.ok.inj hschema
        exact hplain.constraints
      · simp [refuse] at hschema
      · obtain rfl := Except.ok.inj hschema
        exact hplain.constraints.rename hwritten.1 _ _
    refine ⟨?_, ?_, ?_, hnamed⟩
    · show DistinctNames ((schema.modifyColumn index fun _ => column).columns.map ColumnDef.name)
      rw [names_modifyColumn_name _ _ _ column.name fun _ => rfl, hcolumns]
      cases hrenames : renames oldName column.name with
      | true =>
        exact hplain.distinct.set fun i other hi _ =>
          names_of_not_columnIndex (hnew hrenames) other (List.mem_of_getElem? hi)
      | false =>
        rw [renames, Bool.not_eq_false'] at hrenames
        rw [set_name_of_same hplain hindex hwritten.1 hrenames]
        exact hplain.distinct
    · refine lower_modifyColumn ?_ hwritten.1 fun _ => rfl
      rw [hcolumns]
      exact hplain.columns
    · intro constraint hmem
      rcases mem_addNewConstraints hmem with hmem | hmem
      · exact hlower constraint hmem
      · exact hwritten.2 constraint hmem
  | @setDefault column value default index _ =>
    exact hplain.of_names (names_modifyColumn _ _ _ fun _ => rfl) hplain.constraints hnamed
  | @setNullable column nullable index _ =>
    exact hplain.of_names (names_modifyColumn _ _ _ fun _ => rfl) hplain.constraints hnamed
  | @setDataType column dataType index rows message default _ _ =>
    exact hplain.of_names (names_modifyColumn _ _ _ fun _ => rfl) hplain.constraints hnamed
  | addConstraint => exact hplain.of_names rfl (hplain.constraints.append hwritten) hnamed
  | dropConstraint hsub =>
    exact hplain.of_names rfl (hplain.constraints.mono fun _ hmem => hsub.subset hmem) hnamed
  | dropPrimaryKey hsub =>
    exact hplain.of_names rfl (hplain.constraints.mono fun _ hmem => hsub.subset hmem) hnamed

/-- A table with a settled schema. -/
def Table.Settled (table : Table) : Prop := table.schema.Settled

theorem settled_refresh (h : table.schema.Plain) : (refreshConstraintMetadata H table).Settled :=
  settled_refreshSchema h

/-- The schema of another table after a column that it refers to has been renamed. -/
def TableSchema.renameReferred (schema : TableSchema) (tableName old new : String) :
    TableSchema :=
  { schema with constraints := schema.constraints.map (Sql.renameReferred tableName old new) }

theorem constraintIndex_renameReferred (schemaName tableName old new : String)
    (constraint : TableConstraint) :
    constraintIndex schemaName (renameReferred tableName old new constraint) =
      constraintIndex schemaName constraint := by
  cases constraint with
  | foreignKey foreignKey =>
    rw [renameReferred]
    split_ifs <;> rfl
  | _ => rfl

theorem isPrimaryKey_renameReferred (tableName old new : String) (constraint : TableConstraint) :
    isPrimaryKey (renameReferred tableName old new constraint) = isPrimaryKey constraint := by
  cases constraint with
  | foreignKey foreignKey =>
    rw [renameReferred]
    split_ifs <;> rfl
  | _ => rfl

theorem plain_renameReferred {schema : TableSchema} (h : schema.Plain)
    (tableName old new : String) : (schema.renameReferred tableName old new).Plain := by
  refine ⟨h.distinct, h.columns, ?_, ⟨?_, h.named.indexes⟩⟩
  all_goals
    intro constraint hmem column hcolumn
    obtain ⟨before, hbefore, rfl⟩ := List.mem_map.mp hmem
    rw [constraintColumns_renameReferred] at hcolumn
  · exact h.constraints before hbefore column hcolumn
  · exact h.named.constraints before hbefore column hcolumn

theorem settled_alterOthers (h : tables.All Table.Settled) (tableName : String)
    (operation : AlterOperation) :
    (alterOthers H tables tableName operation).All Table.Settled := by
  cases operation with
  | renameColumn oldName newName =>
    refine h.mapValues fun name table hsettled => ?_
    split
    · exact hsettled
    · split
      · exact settled_refreshSchema
          (plain_renameReferred hsettled.toPlain tableName oldName newName)
      · exact hsettled
  | _ => exact h

theorem settled_applyAlterOperation {others : Tables} {tableName : String}
    {operation : AlterOperation} (hparsed : operation.Parsed) (hwritten : operation.Written)
    (hcatalog : tables.All Table.Settled) (htable : table.Settled)
    (h : applyAlterOperation H tables tableName table operation = .ok (others, table')) :
    others.All Table.Settled ∧ table'.Settled := by
  rcases applyAlterOperation_ok h with ⟨rfl, rfl⟩ | ⟨altered, halter, rfl, rfl⟩
  · exact ⟨hcatalog, htable⟩
  · have hnamed := (alterTable_keeps hparsed halter).named htable.toPlain.named
    exact ⟨settled_alterOthers hcatalog tableName operation,
      settled_refresh (plain_alters hwritten (alterTable_alters halter) hnamed htable.toPlain)⟩

end Alter

/-! ## Statements -/

/-- Every table of a catalog satisfies a predicate of its name and itself. -/
def Tables.Each (P : String → Table → Prop) (tables : Tables) : Prop :=
  ∀ name table, tables.lookup name = some table → P name table

theorem Tables.Each.insert {P : String → Table → Prop} {tables : Tables} (h : tables.Each P)
    {name : String} {table : Table} (htable : P name table) :
    Tables.Each P (AList.insert name table tables) := by
  intro other found hfound
  by_cases hname : other = name
  · subst hname
    rw [AList.lookup_insert, Option.some.injEq] at hfound
    exact hfound ▸ htable
  · rw [AList.lookup_insert_ne hname] at hfound
    exact h other found hfound

theorem Tables.Each.erase {P : String → Table → Prop} {tables : Tables} (h : tables.Each P)
    (name : String) : Tables.Each P (AList.erase name tables) := by
  intro other found hfound
  by_cases hname : other = name
  · subst hname
    simp at hfound
  · rw [AList.lookup_erase_ne hname] at hfound
    exact h other found hfound

/-- A table with a settled schema that carries its name. -/
structure Table.Rooted (name : String) (table : Table) : Prop where
  settled : table.Settled
  name : table.schema.name = name

section Statements

variable {H : Host} {tables tables' : Tables} {result : ExecutionResult}

theorem rooted_alterOthers (h : tables.Each Table.Rooted) (tableName : String)
    (operation : AlterOperation) :
    (alterOthers H tables tableName operation).Each Table.Rooted := by
  intro name table hlookup
  have hsettled := settled_alterOthers (H := H) (fun name table h' => (h name table h').settled)
    tableName operation name table hlookup
  refine ⟨hsettled, ?_⟩
  cases operation with
  | renameColumn oldName newName =>
    rw [alterOthers, renameInOthers, KeyedIndex.lookup_mapValues] at hlookup
    obtain ⟨before, hbefore, rfl⟩ := Option.map_eq_some_iff.mp hlookup
    have hname := (h name before hbefore).name
    dsimp only
    split_ifs <;> exact hname
  | _ => exact (h name table hlookup).name

theorem name_alters {table table' : Table} {operation : AlterOperation}
    (h : Alters table operation table') : table'.schema.name = table.schema.name := by
  cases h with
  | modifyColumn hindex hschema hrows =>
    exact (renameModified_eq hschema []).2.1
  | _ => rfl

theorem rooted_applyAlterOperation {others : Tables} {tableName name : String}
    {table table' : Table} {operation : AlterOperation} (hparsed : operation.Parsed)
    (hwritten : operation.Written) (hcatalog : tables.Each Table.Rooted)
    (htable : table.Rooted name)
    (h : applyAlterOperation H tables tableName table operation = .ok (others, table')) :
    others.Each Table.Rooted ∧ table'.Rooted name := by
  have hsettled := (settled_applyAlterOperation hparsed hwritten
    (fun name table h' => (hcatalog name table h').settled) htable.settled h).2
  rcases applyAlterOperation_ok h with ⟨rfl, rfl⟩ | ⟨altered, halter, rfl, rfl⟩
  · exact ⟨hcatalog, htable⟩
  · exact ⟨rooted_alterOthers hcatalog tableName operation, hsettled,
      (name_alters (alterTable_alters halter)).trans htable.name⟩

theorem rooted_applyAlterOperations {others : Tables} {tableName name : String}
    {table table' : Table} {operations : List AlterOperation}
    (hparsed : ∀ operation ∈ operations, operation.Parsed ∧ operation.Written)
    (hcatalog : tables.Each Table.Rooted) (htable : table.Rooted name)
    (h : applyAlterOperations H tableName tables table operations = .ok (others, table')) :
    others.Each Table.Rooted ∧ table'.Rooted name := by
  induction operations generalizing tables table with
  | nil =>
    obtain ⟨rfl, rfl⟩ := Prod.mk.inj (Except.ok.inj h)
    exact ⟨hcatalog, htable⟩
  | cons operation operations ih =>
    obtain ⟨⟨next, nextTable⟩, hoperation, hrest⟩ := Result.bind_eq_ok.mp h
    obtain ⟨hfirst, hnames⟩ := hparsed operation List.mem_cons_self
    obtain ⟨hnext, hnextTable⟩ :=
      rooted_applyAlterOperation hfirst hnames hcatalog htable hoperation
    exact ih (fun other hmem => hparsed other (List.mem_cons_of_mem _ hmem)) hnext hnextTable hrest

theorem executeCreateTable_rooted {tableName : String} {columns : List ColumnDef}
    {constraints : List TableConstraint} {ifNotExists : Bool}
    (hwritten : Statement.Written (.createTable tableName columns constraints ifNotExists))
    (hcatalog : tables.Each Table.Rooted)
    (h : executeCreateTable H tables tableName columns constraints ifNotExists =
      .ok (result, tables')) : tables'.Each Table.Rooted := by
  obtain ⟨hcolumns, hlower, hown⟩ := hwritten
  unfold executeCreateTable at h
  simp only at h
  split at h
  · split at h
    · obtain ⟨-, rfl⟩ := Prod.mk.inj (Except.ok.inj h)
      exact hcatalog
    · simp [refuse] at h
  · split at h
    · simp [refuse] at h
    · rename_i hduplicate
      obtain ⟨⟨flagged, primaryKeys⟩, hconstraints, h⟩ := Result.bind_eq_ok.mp h
      split at h
      · simp [refuse] at h
      · obtain ⟨-, rfl⟩ := Prod.mk.inj (Except.ok.inj h)
        obtain ⟨hdistinct, -⟩ := distinct_of_firstDuplicate hduplicate
        obtain ⟨hnames, -⟩ := applyConstraints_ok hconstraints
        obtain ⟨-, -, hnotNull⟩ :=
          applyConstraints_flags hdistinct (notNull_nil columns) hconstraints
        have hknown := hasColumn_of_applyConstraints hconstraints
        have hflagged : OwnKeys flagged constraints :=
          ownKeys_applyConstraints hconstraints hown hcolumns (fun _ hmem => hmem) hlower
        refine hcatalog.insert ⟨⟨⟨?_, lower_of_names hnames hcolumns, hlower,
          ⟨hknown, hasColumn_automaticIndexes hknown⟩⟩, hflagged, ?_, ?_⟩, rfl⟩
        · show DistinctNames (flagged.map ColumnDef.name)
          rw [hnames]
          exact hdistinct
        · intro constraint hmem hprimary name hname column hcolumn heq
          by_contra hnull
          rw [hnotNull constraint hmem hprimary column hcolumn (by simpa using hnull) name hname]
            at heq
          cases heq
        · have hautomatic := @automaticIndexes_eq
            ⟨toAsciiLowercase tableName, flagged, constraints, []⟩ hflagged
          show automaticIndexes _ = _ ++ List.filter _ (automaticIndexes _)
          rw [hautomatic]
          exact (List.append_nil _).symm.trans (congrArg _ filter_constraintIndexes.symm)

/-- Indexes that start with those of the constraints, other manual ones behind them. -/
theorem TableSchema.Settled.of_manual {schema : TableSchema} (h : schema.Settled)
    {manual : List IndexDef} (hmanual : ∀ definition ∈ manual, definition.automatic = false)
    (hnamed : ∀ definition ∈ manual, ∀ column ∈ definition.columns, schema.HasColumn column) :
    TableSchema.Settled { schema with indexes := schema.constraintIndexes ++ manual } := by
  refine ⟨⟨h.distinct, h.columns, h.constraints, h.named.constraints, ?_⟩, h.ownKeys, h.notNull, ?_⟩
  · intro definition hmem column hcolumn
    rcases List.mem_append.mp hmem with hmem | hmem
    · refine h.named.indexes definition ?_ column hcolumn
      rw [h.indexes]
      exact List.mem_append_left _ hmem
    · exact hnamed definition hmem column hcolumn
  · show _ = _ ++ List.filter _ (schema.constraintIndexes ++ manual)
    rw [List.filter_append, filter_constraintIndexes, List.nil_append,
      List.filter_eq_self.mpr fun definition hmem => by simp [hmanual definition hmem]]
    rfl

theorem automatic_of_mem_manualIndexes {schema : TableSchema} {definition : IndexDef}
    (h : definition ∈ schema.manualIndexes) : definition.automatic = false := by
  simpa using (List.mem_filter.mp h).2

theorem settled_createIndex {schema : TableSchema} (h : schema.Settled) {definition : IndexDef}
    (hautomatic : definition.automatic = false)
    (hnamed : ∀ column ∈ definition.columns, schema.HasColumn column) :
    TableSchema.Settled { schema with indexes := schema.indexes ++ [definition] } := by
  have hmanual := @TableSchema.Settled.of_manual _ h (schema.manualIndexes ++ [definition])
    (fun found hmem => ?_) fun found hmem => ?_
  · rwa [← List.append_assoc, ← h.indexes] at hmanual
  · rcases List.mem_append.mp hmem with hmem | hmem
    · exact automatic_of_mem_manualIndexes hmem
    · exact List.mem_singleton.mp hmem ▸ hautomatic
  · rcases List.mem_append.mp hmem with hmem | hmem
    · exact h.named.indexes found (List.mem_filter.mp hmem).1
    · exact List.mem_singleton.mp hmem ▸ hnamed

theorem settled_dropIndex {schema : TableSchema} (h : schema.Settled) {position : Nat}
    {definition : IndexDef} (hdefinition : schema.indexes[position]? = some definition)
    (hautomatic : definition.automatic = false) :
    TableSchema.Settled { schema with indexes := schema.indexes.eraseIdx position } := by
  have hle : schema.constraintIndexes.length ≤ position := by
    by_contra hlt
    rw [h.indexes, List.getElem?_append_left (by omega)] at hdefinition
    rw [automatic_of_mem_constraintIndexes (List.mem_of_getElem? hdefinition)] at hautomatic
    cases hautomatic
  have hmanual := @TableSchema.Settled.of_manual _ h
    (schema.manualIndexes.eraseIdx (position - schema.constraintIndexes.length))
    (fun found hmem => automatic_of_mem_manualIndexes (List.mem_of_mem_eraseIdx hmem))
    fun found hmem =>
      h.named.indexes found (List.mem_filter.mp (List.mem_of_mem_eraseIdx hmem)).1
  rwa [← List.eraseIdx_append_of_length_le hle, ← h.indexes] at hmanual

/-- **Every statement of the parser keeps schemas settled.** -/
theorem rooted_step {statement : Statement} (hparsed : statement.Parsed)
    (hwritten : statement.Written)
    (h : executeStatement H tables statement = .ok (result, tables'))
    (hcatalog : tables.Each Table.Rooted) : tables'.Each Table.Rooted := by
  cases hwrite : isWriteStatement statement with
  | false =>
    rw [executeStatement_read hwrite h]
    exact hcatalog
  | true =>
    cases statement with
    | createTable tableName columns constraints ifNotExists =>
      exact executeCreateTable_rooted hwritten hcatalog h
    | dropTable tableName ifExists =>
      rcases executeDropTable_ok h with rfl | rfl
      · exact hcatalog
      · exact hcatalog.erase _
    | createIndex name tableName columns unique ifNotExists =>
      rcases executeCreateIndex_ok h with
        rfl | ⟨existing, definition, hlookup, hknown, hmanual, rfl⟩
      · exact hcatalog
      · obtain ⟨hsettled, hname⟩ := hcatalog _ existing hlookup
        exact hcatalog.insert ⟨settled_createIndex hsettled hmanual hknown, hname⟩
    | dropIndex name tableName ifExists =>
      rcases executeDropIndex_ok h with
        rfl | ⟨existing, position, dropped, hlookup, hdropped, hmanual, rfl⟩
      · exact hcatalog
      · obtain ⟨hsettled, hname⟩ := hcatalog _ existing hlookup
        exact hcatalog.insert ⟨settled_dropIndex hsettled hdropped hmanual, hname⟩
    | alterTable tableName operations =>
      obtain ⟨existing, table, others, hlookup, hoperations, rfl⟩ := executeAlterTable_ok h
      obtain ⟨hothers, htable⟩ := rooted_applyAlterOperations
        (fun operation hmem => ⟨hparsed operation hmem, hwritten operation hmem⟩) hcatalog
        (hcatalog _ existing hlookup) hoperations
      exact hothers.insert ⟨settled_refresh htable.settled.toPlain, htable.name⟩
    | insert tableName columns source onDuplicate =>
      obtain ⟨values, existing, table, rows, count, -, hlookup, -, hinsert, rfl, -, -⟩ :=
        executeInsert_ok h
      obtain ⟨hsettled, hname⟩ := hcatalog _ existing hlookup
      rw [Table.Settled] at hsettled
      rw [← (insertRows_grown hinsert).schema] at hsettled hname
      exact hcatalog.insert ⟨hsettled, hname⟩
    | update tableName assignments selection =>
      obtain ⟨table, updated, hlookup, -, rfl, -, -⟩ := executeUpdate_ok h
      obtain ⟨hsettled, hname⟩ := hcatalog _ table hlookup
      exact hcatalog.insert ⟨hsettled, hname⟩
    | delete tableName selection =>
      obtain ⟨table, kept, hlookup, -, rfl, -, -⟩ := executeDelete_ok h
      obtain ⟨hsettled, hname⟩ := hcatalog _ table hlookup
      exact hcatalog.insert ⟨hsettled, hname⟩
    | _ => simp [isWriteStatement] at hwrite

end Statements

/-! ## Runs -/

/-- What holds of a catalog between two statements. -/
structure Tables.Standing (tables : Tables) : Prop where
  rooted : tables.Each Table.Rooted
  exact : tables.All Table.Exact
  lowercase : tables.Lowercase
  targets : tables.All fun table => ∀ foreignKey,
    .foreignKey foreignKey ∈ table.schema.constraints →
      ∃ parent, IsTarget tables foreignKey parent

/-- The catalogs of runs that start empty: statements as the parser builds them, new Bloom
filters, and reloads of a snapshot. -/
inductive Built (H : Host) : Tables → Prop
  | empty : Built H ∅
  | step {tables tables' : Tables} {statement : Statement} {result : ExecutionResult} :
      Built H tables → statement.Parsed → statement.Written →
      executeCatalog H tables statement = .ok (result, tables') → Built H tables'
  | configure {tables : Tables} (rate : F64) :
      Built H tables → Built H (tables.configureBloomFalsePositiveRate H rate)
  | reload {tables : Tables} : Built H tables → Built H (migrateTables H tables.owned)

section Runs

variable {H : Host} {tables tables' : Tables}

theorem isTarget_of_validate {table : Table} {foreignKey : ForeignKeyConstraint}
    (h : validateForeignKey tables table foreignKey = .ok ()) :
    ∃ parent, IsTarget tables foreignKey parent := by
  unfold validateForeignKey at h
  split at h
  · simp [refuse] at h
  · rename_i parent hlookup
    simp only at h
    split at h
    · simp [refuse] at h
    · rename_i hunique
      rw [Bool.not_eq_true', Bool.not_eq_false, List.any_eq_true] at hunique
      obtain ⟨index, hindex, hmatch⟩ := hunique
      rw [Bool.and_eq_true, beq_iff_eq] at hmatch
      exact ⟨parent, hlookup, index, hindex, hmatch⟩

/-- A catalog with the same schemas and rows stands as well. -/
theorem Tables.Standing.of_same (h : tables.Standing) (hlowercase : tables'.Lowercase)
    (hsame : ∀ name, (tables'.lookup name).map (fun table => (table.schema, table.rows)) =
      (tables.lookup name).map fun table => (table.schema, table.rows)) : tables'.Standing := by
  have hback : ∀ name table, tables'.lookup name = some table → ∃ before,
      tables.lookup name = some before ∧ before.schema = table.schema ∧
        before.rows = table.rows := by
    intro name table hlookup
    have hpair := hsame name
    rw [hlookup, Option.map_some] at hpair
    obtain ⟨before, hbefore, heq⟩ := Option.map_eq_some_iff.mp hpair.symm
    exact ⟨before, hbefore, (Prod.mk.inj heq).1, (Prod.mk.inj heq).2⟩
  refine ⟨fun name table hlookup => ?_, fun name table hlookup => ?_, hlowercase,
    fun name table hlookup foreignKey hmem => ?_⟩
  · obtain ⟨before, hbefore, hschema, -⟩ := hback name table hlookup
    obtain ⟨hsettled, hname⟩ := h.rooted name before hbefore
    rw [Table.Settled, hschema] at hsettled
    exact ⟨hsettled, hschema ▸ hname⟩
  · obtain ⟨before, hbefore, hschema, hrows⟩ := hback name table hlookup
    have hexact := h.exact name before hbefore
    rw [Table.Exact, hschema, hrows] at hexact
    exact hexact
  · obtain ⟨before, hbefore, hschema, -⟩ := hback name table hlookup
    obtain ⟨parent, hparent, htarget⟩ := h.targets name before hbefore foreignKey (hschema ▸ hmem)
    have hpair := hsame foreignKey.foreignTable
    rw [hparent, Option.map_some] at hpair
    obtain ⟨parent', hparent', heq⟩ := Option.map_eq_some_iff.mp hpair
    refine ⟨parent', hparent', ?_⟩
    rw [(Prod.mk.inj heq).1]
    exact htarget

/-- Migration changes nothing about the schema of a settled table. -/
theorem schema_migrateLegacyRows {table : Table} (h : table.Settled) :
    (table.data.table.migrateLegacyRows H).schema = table.schema := by
  have hconstraints : (if table.schema.constraints.isEmpty = true then
      table.schema.columns.filterMap (fun column =>
        if column.primaryKey then some (TableConstraint.primaryKey none [column.name])
        else if column.unique then some (TableConstraint.unique none [column.name])
        else none)
      else table.schema.constraints) = table.schema.constraints := by
    split
    · rename_i hempty
      rw [List.isEmpty_iff] at hempty
      rw [hempty, List.filterMap_eq_nil_iff]
      intro column hcolumn
      have hflag : ¬ (column.primaryKey = true ∨ column.unique = true) := by
        intro hflag
        obtain ⟨constraint, hmem, -⟩ := h.ownKeys column hcolumn hflag
        rw [hempty] at hmem
        cases hmem
      rw [not_or] at hflag
      simp [hflag.1, hflag.2]
    · rfl
  have hindexes : table.schema.indexes.isEmpty = true →
      automaticIndexes table.schema = table.schema.indexes := by
    intro hempty
    rw [List.isEmpty_iff] at hempty
    have hnil := h.indexes
    rw [hempty] at hnil
    rw [automaticIndexes_eq h.ownKeys, hempty]
    exact (List.append_eq_nil_iff.mp hnil.symm).1
  dsimp only [Table.migrateLegacyRows, Table.data, TableData.table]
  rw [hconstraints]
  split
  · rename_i hempty
    rw [hindexes hempty]
    rfl
  · rfl

theorem lowercase_migrateTables (entries : List (String × TableData)) :
    (migrateTables H entries).Lowercase := by
  induction entries with
  | nil => exact fun name hname => by simp [migrateTables] at hname
  | cons entry entries ih => exact ih.insert entry.1 _

theorem Tables.Standing.reload (h : tables.Standing) :
    (migrateTables H tables.owned).Standing := by
  refine h.of_same (lowercase_migrateTables _) fun name => ?_
  have hlower : ∀ entry ∈ tables.owned, toAsciiLowercase entry.1 = entry.1 := by
    intro entry hmem
    obtain ⟨found, hfound, rfl⟩ := List.mem_map.mp hmem
    exact h.lowercase found.1 (List.mem_map_of_mem hfound)
  rw [lookup_migrateTables hlower, lookup_owned, Option.map_map, Option.map_map]
  cases hlookup : tables.lookup name with
  | none => rfl
  | some table =>
    simp only [Option.map_some, Function.comp_apply, Option.some.injEq]
    rw [schema_migrateLegacyRows (h.rooted name table hlookup).settled]
    rfl

theorem Tables.Standing.configure (h : tables.Standing) (rate : F64) :
    (tables.configureBloomFalsePositiveRate H rate).Standing := by
  refine h.of_same (fun name hname => h.lowercase name ?_) fun name => ?_
  · simpa [Tables.configureBloomFalsePositiveRate] using hname
  · rw [Tables.configureBloomFalsePositiveRate, KeyedIndex.lookup_mapValues, Option.map_map]
    rfl

/-- **One statement of the parser.** -/
theorem Tables.Standing.step {statement : Statement} {result : ExecutionResult}
    (h : tables.Standing) (hparsed : statement.Parsed) (hwritten : statement.Written)
    (hexecute : executeCatalog H tables statement = .ok (result, tables')) :
    tables'.Standing := by
  obtain ⟨hstatement, hvalid⟩ := executeCatalog_ok hexecute
  cases hwrite : isWriteStatement statement with
  | false =>
    rw [executeStatement_read hwrite hstatement]
    exact h
  | true =>
    obtain ⟨htables, hkeys⟩ := validateCatalog_eq_ok.mp (hvalid hwrite)
    have hcoerced : tables'.All Table.Coerced :=
      coerced_step hstatement fun name table hlookup => (h.exact name table hlookup).coerced
    refine ⟨rooted_step hparsed hwritten hstatement h.rooted, fun name table hlookup => ?_,
      lowercase_step h.lowercase hstatement, fun name table hlookup foreignKey hmem => ?_⟩
    · exact exact_of_validate (hcoerced name table hlookup) (htables name table hlookup)
    · exact isTarget_of_validate
        (validateForeignKeys_eq_ok.mp hkeys name table hlookup foreignKey hmem)

/-- **Every catalog that is built from parsed statements stands.** -/
theorem standing_of_built (h : Built H tables) : tables.Standing := by
  induction h with
  | empty =>
    refine ⟨fun name table hlookup => ?_, Tables.All.empty, fun name hname => by simp at hname,
      Tables.All.empty⟩
    simp at hlookup
  | step _ hparsed hwritten hexecute ih => exact ih.step hparsed hwritten hexecute
  | configure rate _ ih => exact ih.configure rate
  | reload _ ih => exact ih.reload

theorem built_runStatements {statements : List Statement} {state state' : Tables × Nat}
    (hbefore : Built H state.1)
    (hwritten : ∀ statement ∈ statements, statement.Parsed ∧ statement.Written)
    (h : runStatements H state statements = .ok state') : Built H state'.1 := by
  induction statements generalizing state with
  | nil =>
    obtain rfl := Except.ok.inj h
    exact hbefore
  | cons statement statements ih =>
    obtain ⟨⟨result, tables⟩, hexecute, hrest⟩ := Result.bind_eq_ok.mp h
    obtain ⟨hparsed, hnames⟩ := hwritten statement List.mem_cons_self
    exact ih (hbefore.step hparsed hnames hexecute)
      (fun other hmem => hwritten other (List.mem_cons_of_mem _ hmem)) hrest

end Runs

end Sql
end RustyDB
