import Mathlib
import RustyDB.Sql.Keys

/-!
# Stored types

The values of a stored row have exactly the types that its columns declare.  The
validation of a catalog asks for less, since it lets an integer stand in a FLOAT column;
every path that writes a value has coerced it before.

* `RowFits` — one value for each type, each in a relation to it.
* `Value.HasType`, `Value.Coerced` — the exact type, and what coercion leaves to the
  validation.
* `coerced_step` — every statement keeps rows coerced.
* `exact_of_reachable` — **every value of every reachable catalog is NULL or of the type
  of its column.**
-/

namespace RustyDB
namespace Sql

/-! ## Rows against types -/

/-- A row has one value for each type, and each value is in the relation to its type. -/
structure RowFits (P : Value → DataType → Prop) (types : List DataType) (row : Row) : Prop where
  length : row.length = types.length
  values : ∀ (i : Nat) (value : Value) (type : DataType), row[i]? = some value →
    types[i]? = some type → P value type

section RowFits

variable {P : Value → DataType → Prop} {types : List DataType} {row : Row}

theorem RowFits.mono {Q : Value → DataType → Prop} (h : RowFits P types row)
    (hle : ∀ value type, P value type → Q value type) : RowFits Q types row :=
  ⟨h.length, fun i value type hvalue htype => hle value type (h.values i value type hvalue htype)⟩

/-- One value replaced, and its type with it. -/
theorem RowFits.set (h : RowFits P types row) (index : Nat) {value : Value} {type : DataType}
    (hP : P value type) : RowFits P (types.set index type) (row.set index value) := by
  refine ⟨by simp [h.length], fun i found declared hfound hdeclared => ?_⟩
  by_cases hi : index = i
  · subst hi
    have hlt : index < row.length := by
      simpa using (List.getElem?_eq_some_iff.mp hfound).1
    rw [List.getElem?_set_self hlt] at hfound
    rw [List.getElem?_set_self (h.length ▸ hlt)] at hdeclared
    cases hfound
    cases hdeclared
    exact hP
  · rw [List.getElem?_set_ne hi] at hfound hdeclared
    exact h.values i found declared hfound hdeclared

/-- One value replaced under the same types. -/
theorem RowFits.assign (h : RowFits P types row) {index : Nat} {value : Value}
    (hP : ∀ type, types[index]? = some type → P value type) :
    RowFits P types (row.set index value) := by
  cases htype : types[index]? with
  | none =>
    have hle : row.length ≤ index := h.length ▸ List.getElem?_eq_none_iff.mp htype
    rwa [List.set_eq_of_length_le hle]
  | some type =>
    have hset := h.set index (hP type htype)
    obtain ⟨hlt, hget⟩ := List.getElem?_eq_some_iff.mp htype
    rwa [← hget, List.set_getElem_self hlt] at hset

theorem RowFits.eraseIdx (h : RowFits P types row) (index : Nat) :
    RowFits P (types.eraseIdx index) (row.eraseIdx index) := by
  refine ⟨by simp [List.length_eraseIdx, h.length], fun i value type hvalue htype => ?_⟩
  rw [List.getElem?_eraseIdx] at hvalue htype
  by_cases hi : i < index
  · rw [if_pos hi] at hvalue htype
    exact h.values i value type hvalue htype
  · rw [if_neg hi] at hvalue htype
    exact h.values (i + 1) value type hvalue htype

theorem RowFits.append (h : RowFits P types row) {value : Value} {type : DataType}
    (hP : P value type) : RowFits P (types ++ [type]) (row ++ [value]) := by
  refine ⟨by simp [h.length], fun i found declared hfound hdeclared => ?_⟩
  by_cases hi : i < row.length
  · rw [List.getElem?_append_left hi] at hfound
    rw [List.getElem?_append_left (h.length ▸ hi)] at hdeclared
    exact h.values i found declared hfound hdeclared
  · rw [List.getElem?_append_right (Nat.le_of_not_lt hi), List.getElem?_singleton] at hfound
    rw [List.getElem?_append_right (h.length ▸ Nat.le_of_not_lt hi), List.getElem?_singleton]
      at hdeclared
    split_ifs at hfound hdeclared
    cases hfound
    cases hdeclared
    exact hP

end RowFits

/-! ## Types of values -/

namespace Value

/-- A value is NULL or of the type. -/
def HasType (value : Value) (type : DataType) : Prop := value ≠ .null → value.dataType = type

/-- A value that passes the validation is of the type. -/
def Coerced (value : Value) (type : DataType) : Prop :=
  value.isCompatibleWith type = true → value.HasType type

theorem HasType.coerced {value : Value} {type : DataType} (h : value.HasType type) :
    value.Coerced type := fun _ => h

theorem hasType_null (type : DataType) : Value.null.HasType type := fun h => absurd rfl h

theorem hasType_coerceTo {value coerced : Value} {type : DataType}
    (h : value.coerceTo type = some coerced) : coerced.HasType type := by
  intro _
  cases value <;> cases type <;> cases h <;> first | rfl | contradiction

theorem isSome_coerceTo {value : Value} {type : DataType}
    (h : value.isCompatibleWith type = true) : (value.coerceTo type).isSome = true := by
  cases value <;> cases type <;> first | rfl | cases h

/-- A value that is coerced where it can be. -/
theorem coerced_getD (value : Value) (type : DataType) :
    ((value.coerceTo type).getD value).Coerced type := by
  cases hcoerce : value.coerceTo type with
  | none =>
    intro hcompatible
    have hsome := isSome_coerceTo hcompatible
    rw [Option.getD_none, hcoerce] at hsome
    cases hsome
  | some coerced => exact (hasType_coerceTo hcoerce).coerced

end Value

/-! ## Tables -/

/-- The types that a schema declares. -/
def TableSchema.types (schema : TableSchema) : List DataType :=
  schema.columns.map ColumnDef.dataType

/-- Every stored value is NULL or of the type of its column. -/
def Table.Exact (table : Table) : Prop :=
  ∀ row ∈ table.rows, RowFits Value.HasType table.schema.types row

/-- Every stored value that passes the validation is NULL or of the type of its column. -/
def Table.Coerced (table : Table) : Prop :=
  ∀ row ∈ table.rows, RowFits Value.Coerced table.schema.types row

theorem hasType_of_validateValue {column : ColumnDef} {value : Value}
    (hcoerced : value.Coerced column.dataType)
    (h : TableSchema.validateValue value column = .ok ()) : value.HasType column.dataType := by
  rw [TableSchema.validateValue] at h
  cases value with
  | null => exact Value.hasType_null _
  | _ =>
    simp only [Value.isNull, Bool.false_eq_true, if_false] at h
    split_ifs at h with hcompatible
    exact hcoerced hcompatible

/-- What the writing paths leave open, the validation settles. -/
theorem exact_of_validateRow {schema : TableSchema} {row : Row}
    (hcoerced : RowFits Value.Coerced schema.types row) (h : schema.validateRow row = .ok ()) :
    RowFits Value.HasType schema.types row := by
  refine ⟨hcoerced.length, fun i value type hvalue htype => ?_⟩
  rw [TableSchema.types, List.getElem?_map] at htype
  obtain ⟨column, hcolumn, rfl⟩ := Option.map_eq_some_iff.mp htype
  rw [TableSchema.validateRow] at h
  split_ifs at h with hlength
  have hmem : (value, column) ∈ row.zip schema.columns :=
    List.mem_of_getElem? (List.getElem?_zip_eq_some.mpr ⟨hvalue, hcolumn⟩)
  have htype : schema.types[i]? = some column.dataType := by
    rw [TableSchema.types, List.getElem?_map, hcolumn]
    rfl
  exact hasType_of_validateValue (hcoerced.values i value _ hvalue htype)
    (Result.forM_eq_ok.mp h _ hmem)

section Stored

variable {H : Host} {tables tables' : Tables} {table table' : Table} {result : ExecutionResult}

theorem Table.Exact.coerced (h : table.Exact) : table.Coerced :=
  fun row hrow => (h row hrow).mono fun _ _ => Value.HasType.coerced

theorem exact_of_validate (hcoerced : table.Coerced) (h : validateTable H tables table = .ok ()) :
    table.Exact := by
  obtain ⟨⟨⟩, hrows, -⟩ := Result.bind_eq_ok.mp h
  intro row hrow
  obtain ⟨⟨⟩, hvalid, -⟩ := Result.bind_eq_ok.mp (Result.forM_eq_ok.mp hrows row hrow)
  exact exact_of_validateRow (hcoerced row hrow) hvalid

/-! ## Schema changes -/

theorem types_updateColumn (name : String) (f : ColumnDef → ColumnDef)
    (hf : ∀ column, (f column).dataType = column.dataType) (columns : List ColumnDef) :
    (updateColumn name f columns).map ColumnDef.dataType = columns.map ColumnDef.dataType := by
  induction columns with
  | nil => rfl
  | cons column columns ih =>
    by_cases h : eqIgnoreAsciiCase column.name name = true
    · simp [updateColumn, h, hf]
    · simp [updateColumn, h, ih]

theorem types_markPrimaryKey (keyColumns : List String) (columns : List ColumnDef) :
    (markPrimaryKey keyColumns columns).map ColumnDef.dataType =
      columns.map ColumnDef.dataType := by
  unfold markPrimaryKey
  generalize (keyColumns.length == 1) = single
  induction keyColumns generalizing columns with
  | nil => rfl
  | cons name names ih =>
    rw [List.foldl_cons, ih]
    apply types_updateColumn
    exact fun _ => rfl

theorem types_markConstraint (constraint : TableConstraint) (columns : List ColumnDef) :
    (markConstraint columns constraint).map ColumnDef.dataType =
      columns.map ColumnDef.dataType := by
  unfold markConstraint
  split
  · exact types_markPrimaryKey _ columns
  · apply types_updateColumn
    exact fun _ => rfl
  · rfl

@[simp] theorem types_refreshSchema (schema : TableSchema) :
    (refreshSchema schema).types = schema.types := by
  have hfold : ∀ (constraints : List TableConstraint) (columns : List ColumnDef),
      (constraints.foldl markConstraint columns).map ColumnDef.dataType =
        columns.map ColumnDef.dataType := by
    intro constraints
    induction constraints with
    | nil => exact fun _ => rfl
    | cons constraint constraints ih =>
      intro columns
      rw [List.foldl_cons, ih, types_markConstraint]
  simp only [TableSchema.types, refreshSchema]
  rw [hfold, List.map_map]
  rfl

theorem coerced_refresh (h : table.Coerced) : (refreshConstraintMetadata H table).Coerced := by
  intro row hrow
  have hfits := h row hrow
  rw [← types_refreshSchema] at hfits
  exact hfits

theorem types_modifyColumn (schema : TableSchema) (index : Nat) (f : ColumnDef → ColumnDef)
    (hf : ∀ column, (f column).dataType = column.dataType) :
    (schema.modifyColumn index f).types = schema.types := by
  apply List.ext_getElem?
  intro i
  simp only [TableSchema.types, TableSchema.modifyColumn, List.getElem?_map, List.getElem?_modify]
  cases schema.columns[i]? with
  | none => simp
  | some column =>
    by_cases h : index = i
    · simp [h, hf]
    · simp [h]

/-- Changing one column's type. -/
theorem types_modifyColumn_type (schema : TableSchema) (index : Nat) (f : ColumnDef → ColumnDef)
    (type : DataType) (hf : ∀ column, (f column).dataType = type) :
    (schema.modifyColumn index f).types = schema.types.set index type := by
  apply List.ext_getElem?
  intro i
  simp only [TableSchema.types, TableSchema.modifyColumn, List.getElem?_map, List.getElem?_modify,
    List.getElem?_set, List.length_map]
  by_cases h : index = i
  · subst h
    cases hcolumn : schema.columns[index]? with
    | none => simp [List.getElem?_eq_none_iff.mp hcolumn]
    | some column =>
      simp [hf, (List.getElem?_eq_some_iff.mp hcolumn).1]
  · simp [h]

theorem coerced_modifyColumn (h : table.Coerced) (index : Nat) (f : ColumnDef → ColumnDef)
    (hf : ∀ column, (f column).dataType = column.dataType) :
    Table.Coerced { table with schema := table.schema.modifyColumn index f } := by
  intro row hrow
  show RowFits _ (table.schema.modifyColumn index f).types row
  rw [types_modifyColumn _ _ _ hf]
  exact h row hrow

/-- A column that is converted as a whole fits its new type. -/
theorem coerced_coerceColumn {rows : List Row} {index : Nat} {type : DataType} {message : String}
    (hrows : coerceColumn table.rows index type message = .ok rows) (h : table.Coerced) :
    ∀ row ∈ rows, RowFits Value.Coerced (table.schema.types.set index type) row := by
  intro row hrow
  obtain ⟨before, hbefore, hcoerce⟩ := Result.mem_of_mapM hrows hrow
  obtain ⟨value, -, hcoerce⟩ := Result.bind_eq_ok.mp hcoerce
  cases hvalue : value.coerceTo type with
  | none =>
    rw [hvalue] at hcoerce
    cases hcoerce
  | some coerced =>
    rw [hvalue] at hcoerce
    obtain rfl := Except.ok.inj hcoerce
    exact (h before hbefore).set index (Value.hasType_coerceTo hvalue).coerced

theorem addColumn_coerced {column : ColumnDef} {constraints : List TableConstraint}
    {ifNotExists : Bool} (hcoerced : table.Coerced)
    (h : addColumn table column constraints ifNotExists = .ok (some table')) : table'.Coerced := by
  unfold addColumn at h
  split at h
  · split at h <;> simp [refuse] at h
  · split at h
    · simp [refuse] at h
    · rename_i value hvalue
      split at h
      · simp [refuse] at h
      · simp only [Except.ok.injEq, Option.some.injEq] at h
        subst h
        intro row hrow
        obtain ⟨before, hbefore, rfl⟩ := List.mem_map.mp hrow
        have hfits := (hcoerced before hbefore).append (Value.hasType_coerceTo hvalue).coerced
        simpa [TableSchema.types] using hfits

theorem dropColumn_coerced {tableName name : String} {ifExists : Bool} (hcoerced : table.Coerced)
    (h : dropColumn H tables tableName table name ifExists = .ok (some table')) :
    table'.Coerced := by
  unfold dropColumn at h
  cases hindex : table.schema.columnIndex name with
  | none =>
    simp only [hindex] at h
    split at h <;> simp [refuse] at h
  | some index =>
    simp only [hindex] at h
    split at h
    · simp [refuse] at h
    · split at h
      · simp [refuse] at h
      · obtain ⟨rows, hrows, htable⟩ := Result.bind_eq_ok.mp h
        simp only [Result.pure_eq_ok, Except.ok.injEq, Option.some.injEq] at htable
        subst htable
        intro row hrow
        obtain ⟨before, hbefore, hremove⟩ := Result.mem_of_mapM hrows hrow
        obtain ⟨value, -, hremove⟩ := Result.bind_eq_ok.mp hremove
        obtain rfl := Except.ok.inj hremove
        have hfits := (hcoerced before hbefore).eraseIdx index
        rwa [TableSchema.types, List.eraseIdx_map] at hfits

theorem renameColumn_coerced {oldName newName : String} (hcoerced : table.Coerced)
    (h : renameColumn table oldName newName = .ok table') : table'.Coerced := by
  unfold renameColumn at h
  split at h
  · simp [refuse] at h
  · obtain ⟨index, -, htable⟩ := Result.bind_eq_ok.mp h
    simp only [Result.pure_eq_ok, Except.ok.injEq] at htable
    subst htable
    exact coerced_modifyColumn hcoerced index _ fun _ => rfl

theorem renameModified_columns {schema schema' : TableSchema} {oldName newName : String}
    (h : renameModified schema oldName newName = .ok schema') :
    schema'.columns = schema.columns := by
  unfold renameModified at h
  split at h
  · obtain rfl := Except.ok.inj h
    rfl
  · split at h
    · simp [refuse] at h
    · obtain rfl := Except.ok.inj h
      rfl

theorem modifyColumn_coerced {oldName : String} {column : ColumnDef}
    {constraints : List TableConstraint} (hcoerced : table.Coerced)
    (h : modifyColumn table oldName column constraints = .ok table') : table'.Coerced := by
  obtain ⟨index, -, h⟩ := Result.bind_eq_ok.mp h
  obtain ⟨schema, hschema, h⟩ := Result.bind_eq_ok.mp h
  obtain ⟨rows, hrows, htable⟩ := Result.bind_eq_ok.mp h
  simp only [Result.pure_eq_ok, Except.ok.injEq] at htable
  subst htable
  intro row hrow
  have hfits := coerced_coerceColumn hrows hcoerced row hrow
  rw [TableSchema.types, ← renameModified_columns hschema] at hfits
  show RowFits _ (schema.modifyColumn index fun _ => column).types row
  rw [types_modifyColumn_type _ _ _ column.dataType fun _ => rfl]
  exact hfits

theorem setDefault_coerced {column : String} {value : Option Value} (hcoerced : table.Coerced)
    (h : setDefault table column value = .ok table') : table'.Coerced := by
  obtain ⟨index, -, h⟩ := Result.bind_eq_ok.mp h
  split at h
  · simp at h
  · obtain rfl := Except.ok.inj h
    exact coerced_modifyColumn hcoerced index _ fun _ => rfl
  · split at h
    · simp [refuse] at h
    · obtain rfl := Except.ok.inj h
      exact coerced_modifyColumn hcoerced index _ fun _ => rfl

theorem setNullable_coerced {column : String} {nullable : Bool} (hcoerced : table.Coerced)
    (h : setNullable table column nullable = .ok table') : table'.Coerced := by
  obtain ⟨index, -, h⟩ := Result.bind_eq_ok.mp h
  have hmodified := coerced_modifyColumn hcoerced index (fun c => { c with nullable })
    fun _ => rfl
  split at h
  · simp at h
  · split at h
    · split at h
      · simp [refuse] at h
      · obtain rfl := Except.ok.inj h
        exact hmodified
    · obtain ⟨found, -, h⟩ := Result.bind_eq_ok.mp h
      split at h
      · simp [refuse] at h
      · obtain rfl := Except.ok.inj h
        exact hmodified

theorem setDataType_coerced {column : String} {dataType : DataType} (hcoerced : table.Coerced)
    (h : setDataType table column dataType = .ok table') : table'.Coerced := by
  obtain ⟨index, -, h⟩ := Result.bind_eq_ok.mp h
  obtain ⟨rows, hrows, h⟩ := Result.bind_eq_ok.mp h
  split at h
  · simp at h
  · obtain ⟨default, -, h⟩ := Result.bind_eq_ok.mp h
    obtain rfl := Except.ok.inj h
    intro row hrow
    show RowFits _ (table.schema.modifyColumn index fun c => { c with default, dataType }).types row
    rw [types_modifyColumn_type _ _ _ dataType fun _ => rfl]
    exact coerced_coerceColumn hrows hcoerced row hrow

theorem addConstraint_coerced {constraint : TableConstraint} (hcoerced : table.Coerced)
    (h : addConstraint table constraint = .ok table') : table'.Coerced := by
  unfold addConstraint at h
  split at h
  · simp [refuse] at h
  · split at h
    · simp [refuse] at h
    · split at h
      · simp [refuse] at h
      · obtain ⟨⟨⟩, -, h⟩ := Result.bind_eq_ok.mp h
        obtain rfl := Except.ok.inj h
        exact hcoerced

theorem dropConstraint_coerced {name : String} {ifExists : Bool} (hcoerced : table.Coerced)
    (h : dropConstraint table name ifExists = .ok table') : table'.Coerced := by
  unfold dropConstraint at h
  split at h
  · obtain rfl := Except.ok.inj h
    exact hcoerced
  · split at h
    · obtain rfl := Except.ok.inj h
      exact hcoerced
    · simp [refuse] at h

theorem dropPrimaryKey_coerced (hcoerced : table.Coerced)
    (h : dropPrimaryKey table = .ok table') : table'.Coerced := by
  unfold dropPrimaryKey at h
  split at h
  · obtain rfl := Except.ok.inj h
    exact hcoerced
  · simp [refuse] at h

/-- **Every ALTER operation keeps rows coerced**, the columns it adds, drops and converts
included. -/
theorem alterTable_coerced {tableName : String} {operation : AlterOperation}
    (hcoerced : table.Coerced)
    (h : alterTable H tables tableName table operation = .ok (some table')) :
    table'.Coerced := by
  cases operation with
  | addColumn column constraints ifNotExists => exact addColumn_coerced hcoerced h
  | dropColumn name ifExists => exact dropColumn_coerced hcoerced h
  | renameColumn oldName newName =>
    obtain ⟨_, h, heq⟩ := Result.map_eq_ok.mp h
    exact Option.some.inj heq ▸ renameColumn_coerced hcoerced h
  | modifyColumn oldName column constraints =>
    obtain ⟨_, h, heq⟩ := Result.map_eq_ok.mp h
    exact Option.some.inj heq ▸ modifyColumn_coerced hcoerced h
  | setDefault column value =>
    obtain ⟨_, h, heq⟩ := Result.map_eq_ok.mp h
    exact Option.some.inj heq ▸ setDefault_coerced hcoerced h
  | setNullable column nullable =>
    obtain ⟨_, h, heq⟩ := Result.map_eq_ok.mp h
    exact Option.some.inj heq ▸ setNullable_coerced hcoerced h
  | setDataType column dataType =>
    obtain ⟨_, h, heq⟩ := Result.map_eq_ok.mp h
    exact Option.some.inj heq ▸ setDataType_coerced hcoerced h
  | addConstraint constraint =>
    obtain ⟨_, h, heq⟩ := Result.map_eq_ok.mp h
    exact Option.some.inj heq ▸ addConstraint_coerced hcoerced h
  | dropConstraint name ifExists =>
    obtain ⟨_, h, heq⟩ := Result.map_eq_ok.mp h
    exact Option.some.inj heq ▸ dropConstraint_coerced hcoerced h
  | dropPrimaryKey =>
    obtain ⟨_, h, heq⟩ := Result.map_eq_ok.mp h
    exact Option.some.inj heq ▸ dropPrimaryKey_coerced hcoerced h

/-- RENAME COLUMN changes the foreign keys of other tables, and no column. -/
theorem coerced_alterOthers (h : tables.All Table.Coerced) (tableName : String)
    (operation : AlterOperation) :
    (alterOthers H tables tableName operation).All Table.Coerced := by
  cases operation with
  | renameColumn oldName newName =>
    refine h.mapValues fun name table hcoerced => ?_
    split
    · exact hcoerced
    · split
      · have hrenamed : Table.Coerced { table with
            schema := { table.schema with
              constraints :=
                table.schema.constraints.map (renameReferred tableName oldName newName) } } :=
          hcoerced
        exact coerced_refresh hrenamed
      · exact hcoerced
  | _ => exact h

theorem coerced_applyAlterOperations {others : Tables} {tableName : String}
    {operations : List AlterOperation} (hcatalog : tables.All Table.Coerced)
    (htable : table.Coerced)
    (h : applyAlterOperations H tableName tables table operations = .ok (others, table')) :
    others.All Table.Coerced ∧ table'.Coerced := by
  induction operations generalizing tables table with
  | nil =>
    obtain ⟨rfl, rfl⟩ := Prod.mk.inj (Except.ok.inj h)
    exact ⟨hcatalog, htable⟩
  | cons operation operations ih =>
    obtain ⟨⟨next, nextTable⟩, hoperation, hrest⟩ := Result.bind_eq_ok.mp h
    rcases applyAlterOperation_ok hoperation with ⟨rfl, rfl⟩ | ⟨altered, halter, rfl, rfl⟩
    · exact ih hcatalog htable hrest
    · exact ih (coerced_alterOthers hcatalog tableName operation)
        (coerced_refresh (alterTable_coerced htable halter)) hrest

/-! ## INSERT -/

theorem length_placeValues {schema : TableSchema} {ordered row : Row} {used : List Nat}
    {entries : List (String × Value)} (h : placeValues schema ordered used entries = .ok row) :
    row.length = ordered.length := by
  induction entries generalizing ordered used with
  | nil =>
    obtain rfl := Except.ok.inj h
    rfl
  | cons entry entries ih =>
    rw [placeValues] at h
    split at h
    · simp [refuse] at h
    · split at h
      · simp [refuse] at h
      · rw [ih h, List.length_set]

theorem length_orderValues {schema : TableSchema} {columns : Option (List String)} {raw row : Row}
    (h : orderValues schema columns raw = .ok row) : row.length = schema.columns.length := by
  unfold orderValues at h
  split at h
  · split at h
    · simp [refuse] at h
    · rw [length_placeValues h, List.length_replicate]
  · split at h
    · simp [refuse] at h
    · rename_i hlength
      obtain rfl := Except.ok.inj h
      exact not_not.mp hlength

/-- A complete row is coerced, defaults included. -/
theorem coerced_incomingRow {schema : TableSchema} {columns : Option (List String)}
    {expressions : List Expr} {row : Row} (h : incomingRow H schema columns expressions = .ok row) :
    RowFits Value.Coerced schema.types row := by
  obtain ⟨raw, -, h⟩ := Result.bind_eq_ok.mp h
  obtain ⟨ordered, hordered, h⟩ := Result.bind_eq_ok.mp h
  obtain rfl := Except.ok.inj h
  have hlength := length_orderValues hordered
  refine ⟨by simp [TableSchema.types, hlength], fun i value type hvalue htype => ?_⟩
  rw [TableSchema.types, List.getElem?_map] at htype
  obtain ⟨column, hcolumn, rfl⟩ := Option.map_eq_some_iff.mp htype
  rw [List.getElem?_zipWith, hcolumn] at hvalue
  cases hplaced : ordered[i]? with
  | none =>
    rw [hplaced] at hvalue
    cases hvalue
  | some placed =>
    rw [hplaced] at hvalue
    obtain rfl := Option.some.inj hvalue
    exact Value.coerced_getD _ column.dataType

theorem coerced_applyDuplicateUpdates {name : String} {schema : TableSchema}
    {incoming current updated : Row} {onDuplicate : List (String × Expr)}
    (hcurrent : RowFits Value.Coerced schema.types current)
    (h : applyDuplicateUpdates H tables name schema incoming current onDuplicate = .ok updated) :
    RowFits Value.Coerced schema.types updated := by
  induction onDuplicate generalizing current with
  | nil =>
    obtain rfl := Except.ok.inj h
    exact hcurrent
  | cons assignment rest ih =>
    rw [applyDuplicateUpdates] at h
    split at h
    · simp [refuse] at h
    · rename_i index hindex
      obtain ⟨value, -, h⟩ := Result.bind_eq_ok.mp h
      obtain ⟨assigned, hassigned, h⟩ := Result.bind_eq_ok.mp h
      obtain ⟨before, -, hassigned⟩ := Result.bind_eq_ok.mp hassigned
      obtain rfl := Except.ok.inj hassigned
      refine ih (hcurrent.assign fun type htype => ?_) h
      rw [TableSchema.types, List.getElem?_map] at htype
      rw [htype]
      exact Value.coerced_getD value type

theorem insertRow_coerced {name : String} {onDuplicate : List (String × Expr)} {row : Row}
    {added : Nat} (hcoerced : table.Coerced) (hrow : RowFits Value.Coerced table.schema.types row)
    (h : insertRow H tables name onDuplicate table row = .ok (table', added)) :
    table'.Coerced := by
  unfold insertRow at h
  split at h
  · obtain ⟨inserted, hinsert, h⟩ := Result.bind_eq_ok.mp h
    obtain ⟨rfl, -⟩ := Prod.mk.inj (Except.ok.inj h)
    obtain ⟨-, rfl⟩ := Table.insertRowIndexed_eq_ok hinsert
    intro stored hstored
    rcases List.mem_append.mp hstored with hstored | hstored
    · exact hcoerced stored hstored
    · rw [List.mem_singleton.mp hstored]
      exact hrow
  · split at h
    · simp [refuse] at h
    · split at h
      · simp [refuse] at h
      · split at h
        · simp at h
        · rename_i position others _ _ _ current hcurrent
          obtain ⟨updated, hupdated, h⟩ := Result.bind_eq_ok.mp h
          split at h
          · obtain ⟨rfl, -⟩ := Prod.mk.inj (Except.ok.inj h)
            exact hcoerced
          · obtain ⟨replaced, hreplace, h⟩ := Result.bind_eq_ok.mp h
            obtain ⟨rfl, -⟩ := Prod.mk.inj (Except.ok.inj h)
            obtain ⟨-, previous, rowId, -, -, rfl⟩ := Table.replaceRowIndexed_eq_ok hreplace
            have hfits := coerced_applyDuplicateUpdates
              (hcoerced current (List.mem_of_getElem? hcurrent)) hupdated
            intro stored hstored
            rcases List.mem_or_eq_of_mem_set hstored with hstored | rfl
            · exact hcoerced stored hstored
            · exact hfits

theorem insertRows_coerced {name : String} {onDuplicate : List (String × Expr)} {rows : List Row}
    {count count' : Nat} (hcoerced : table.Coerced)
    (hrows : ∀ row ∈ rows, RowFits Value.Coerced table.schema.types row)
    (h : insertRows H tables name onDuplicate table count rows = .ok (table', count')) :
    table'.Coerced := by
  induction rows generalizing table count with
  | nil =>
    obtain ⟨rfl, -⟩ := Prod.mk.inj (Except.ok.inj h)
    exact hcoerced
  | cons row rows ih =>
    obtain ⟨⟨next, added⟩, hrow, hrest⟩ := Result.bind_eq_ok.mp h
    have hschema := (insertRow_grown hrow).schema
    refine ih (insertRow_coerced hcoerced (hrows row List.mem_cons_self) hrow) ?_ hrest
    intro other hother
    rw [hschema]
    exact hrows other (List.mem_cons_of_mem _ hother)

/-! ## UPDATE and DELETE -/

theorem coerced_applyAssignments {name : String} {schema : TableSchema}
    {original row updated : Row} {assignments : List (String × Expr)}
    (hrow : RowFits Value.Coerced schema.types row)
    (h : applyAssignments H tables name schema original row assignments = .ok updated) :
    RowFits Value.Coerced schema.types updated := by
  induction assignments generalizing row with
  | nil =>
    obtain rfl := Except.ok.inj h
    exact hrow
  | cons assignment rest ih =>
    rw [applyAssignments] at h
    split at h
    · simp [refuse] at h
    · rename_i index hindex
      obtain ⟨value, -, h⟩ := Result.bind_eq_ok.mp h
      simp only at h
      split at h
      · simp [refuse] at h
      · rename_i coerced hcoerced
        obtain ⟨assigned, hassigned, h⟩ := Result.bind_eq_ok.mp h
        obtain ⟨before, -, hassigned⟩ := Result.bind_eq_ok.mp hassigned
        obtain rfl := Except.ok.inj hassigned
        refine ih (hrow.assign fun type htype => ?_) h
        rw [TableSchema.types, List.getElem?_map] at htype
        rw [htype] at hcoerced
        exact (Value.hasType_coerceTo hcoerced).coerced

theorem updateRow_coerced {name : String} {candidates : Option BestIndex}
    {assignments : List (String × Expr)} {selection : Option Expr} {entry : Row × Nat}
    {updated : Row × Bool} (hrow : RowFits Value.Coerced table.schema.types entry.1)
    (h : updateRow H tables name table candidates assignments selection entry = .ok updated) :
    RowFits Value.Coerced table.schema.types updated.1 := by
  obtain ⟨selected, -, h⟩ := Result.bind_eq_ok.mp h
  cases selected with
  | true =>
    obtain ⟨row, happly, h⟩ := Result.bind_eq_ok.mp h
    obtain rfl := Except.ok.inj h
    exact coerced_applyAssignments hrow happly
  | false =>
    obtain rfl := Except.ok.inj h
    exact hrow

theorem coerced_keepRow {name : String} {candidates : Option BestIndex} {selection : Option Expr}
    {kept : List (Option (Row × Nat))} (hcoerced : table.Coerced)
    (h : table.rows.zipIdx.mapM (keepRow H tables name table candidates selection) = .ok kept) :
    Table.Coerced { table with
      rows := (kept.filterMap id).map Prod.fst
      rowIds := (kept.filterMap id).map Prod.snd } := by
  intro row hrow
  obtain ⟨entry, hentry, rfl⟩ := List.mem_map.mp hrow
  obtain ⟨found, hfound, hsome⟩ := List.mem_filterMap.mp hentry
  obtain ⟨⟨stored, position⟩, hposition, hkeep⟩ := Result.mem_of_mapM h hfound
  obtain ⟨deleted, -, hkeep⟩ := Result.bind_eq_ok.mp hkeep
  cases deleted with
  | true =>
    obtain rfl := Except.ok.inj hkeep
    cases hsome
  | false =>
    simp only [Bool.false_eq_true, if_false] at hkeep
    split at hkeep
    · obtain rfl := Except.ok.inj hkeep
      obtain rfl := Option.some.inj hsome
      exact hcoerced stored (List.fst_mem_of_mem_zipIdx hposition)
    · cases hkeep

/-! ## Runs -/

/-- **Every statement keeps rows coerced.** -/
theorem coerced_step {statement : Statement}
    (h : executeStatement H tables statement = .ok (result, tables'))
    (hcatalog : tables.All Table.Coerced) : tables'.All Table.Coerced := by
  cases hwrite : isWriteStatement statement with
  | false =>
    rw [executeStatement_read hwrite h]
    exact hcatalog
  | true =>
    cases statement with
    | createTable tableName columns constraints ifNotExists =>
      rcases executeCreateTable_ok h with rfl | ⟨schema, rfl, -, -, -, -⟩
      · exact hcatalog
      · refine hcatalog.insert ?_
        intro row hrow
        cases hrow
    | dropTable tableName ifExists =>
      rcases executeDropTable_ok h with rfl | rfl
      · exact hcatalog
      · exact hcatalog.erase _
    | createIndex name tableName columns unique ifNotExists =>
      rcases executeCreateIndex_ok h with rfl | ⟨existing, definition, hlookup, -, -, rfl⟩
      · exact hcatalog
      · refine hcatalog.insert ?_
        exact hcatalog _ existing hlookup
    | dropIndex name tableName ifExists =>
      rcases executeDropIndex_ok h with rfl | ⟨existing, position, dropped, hlookup, -, -, rfl⟩
      · exact hcatalog
      · refine hcatalog.insert ?_
        exact hcatalog _ existing hlookup
    | alterTable tableName operations =>
      obtain ⟨existing, table, others, hlookup, hoperations, rfl⟩ := executeAlterTable_ok h
      obtain ⟨hothers, htable⟩ :=
        coerced_applyAlterOperations hcatalog (hcatalog _ existing hlookup) hoperations
      exact hothers.insert (coerced_refresh htable)
    | insert tableName columns source onDuplicate =>
      obtain ⟨values, existing, table, rows, count, -, hlookup, hincoming, hinsert, rfl, -, -⟩ :=
        executeInsert_ok h
      refine hcatalog.insert (insertRows_coerced (hcatalog _ existing hlookup) ?_ hinsert)
      intro row hrow
      obtain ⟨expressions, -, hcomplete⟩ := Result.mem_of_mapM hincoming hrow
      exact coerced_incomingRow hcomplete
    | update tableName assignments selection =>
      obtain ⟨table, updated, hlookup, hupdated, rfl, -, -⟩ := executeUpdate_ok h
      refine hcatalog.insert ?_
      intro row hrow
      obtain ⟨entry, hentry, rfl⟩ := List.mem_map.mp hrow
      obtain ⟨⟨stored, position⟩, hposition, hupdate⟩ := Result.mem_of_mapM hupdated hentry
      have hstored := hcatalog _ table hlookup stored (List.fst_mem_of_mem_zipIdx hposition)
      exact (updateRow_coerced hstored hupdate : RowFits _ table.schema.types _)
    | delete tableName selection =>
      obtain ⟨table, kept, hlookup, hkept, rfl, -, -⟩ := executeDelete_ok h
      have hremaining := coerced_keepRow (hcatalog _ table hlookup) hkept
      exact hcatalog.insert hremaining
    | _ => simp [isWriteStatement] at hwrite

/-- **Stored values have exactly the declared type.** In every catalog that statements
produce from the empty one, every row has one value for each column, and that value is NULL
or of the type that the column declares. -/
theorem exact_of_reachable {inserted : Nat} (h : Reachable H tables inserted) :
    tables.All Table.Exact := by
  induction h with
  | empty => exact Tables.All.empty
  | step _ _ hexecute ih =>
    rename_i tables tables' inserted statement result _ _
    obtain ⟨hstatement, hvalid⟩ := executeCatalog_ok hexecute
    cases hwrite : isWriteStatement statement with
    | false =>
      rw [executeStatement_read hwrite hstatement]
      exact ih
    | true =>
      have hcoerced : tables'.All Table.Coerced :=
        coerced_step hstatement fun name table hlookup => (ih name table hlookup).coerced
      intro name table hlookup
      exact exact_of_validate (hcoerced name table hlookup)
        (validateTable_of_validateCatalog (hvalid hwrite) name table hlookup)
  | configure rate _ ih => exact ih.mapValues fun name table hexact => hexact

/-- `CREATE TABLE m (x FLOAT)`. -/
def createMeasures : Statement := .createTable "m" [plainColumn "x" .float] [] false

/-- `INSERT INTO m VALUES (1)`. -/
def insertWhole : Statement := .insert "m" none (.values [[.literal (.integer 1)]]) []

/-- An integer that goes into a FLOAT column is stored as a float. -/
theorem integer_stored_as_float : ∃ tables : Tables,
    (tables.lookup "m").map Table.rows = some [[.float (F64.ofInt 1)]] ∧
    tables.All Table.Exact := by
  have hrun : ((runStatements Host.reference (∅, 0) [createMeasures, insertWhole]).map
      (fun state => (state.1.lookup "m").map Table.rows)).toOption =
      some (some [[.float (F64.ofInt 1)]]) := by
    decide +kernel
  obtain ⟨⟨tables, inserted⟩, hstatements, hrows⟩ :=
    Result.map_eq_ok.mp (Result.toOption_eq_some.mp hrun)
  have hreach : Reachable Host.reference tables inserted :=
    reachable_runStatements Reachable.empty
      (by simp [createMeasures, insertWhole, Statement.Parsed]) hstatements
  exact ⟨tables, hrows, exact_of_reachable hreach⟩

end Stored

end Sql
end RustyDB
