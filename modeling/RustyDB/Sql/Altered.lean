import Mathlib
import RustyDB.Sql.Settled

/-!
# What ALTER TABLE touches

A list of ALTER operations is followed column by column: every column of the table that it
leaves was there before, under a position that later drops have shifted and a name that
renames have changed, or was added by the list, and has been converted to the types that the
list gave it.  The other tables only ever see the new names of columns they refer to.

* `TrackedColumn`, `AlterOperation.track` — where the values of a column come from.
* `TracksColumns`, `tracksColumns_alters` — one operation moves the rows as it moves the tracked
  columns.
* `KeptBut`, `keptBut_alterOthers` — what a renaming does to another table.
* `alter_touches_only_named` — **a list of operations touches what it names.**
-/

namespace RustyDB
namespace Sql

/-! ## Tracked columns -/

/-- Where the values of a column come from. -/
inductive Origin where
  /-- The column that stood at a position before the statement. -/
  | kept (position : Nat)
  /-- A default, in a column that the statement adds. -/
  | added (default : Value)
  deriving DecidableEq

/-- A column as a list of ALTER operations leaves it: its name, where its values come from,
and the types that they are converted to, in order. -/
structure TrackedColumn where
  name : String
  origin : Origin
  types : List DataType

namespace TrackedColumn

/-- The value of the column in a row that had some values before. -/
def value (row : Row) (column : TrackedColumn) : Option Value :=
  let origin := match column.origin with
    | .kept position => row[position]?
    | .added default => some default
  origin.bind (fun value => column.types.foldlM Value.coerceTo value)

/-- The column has a name. -/
def isNamed (name : String) (column : TrackedColumn) : Bool := eqIgnoreAsciiCase column.name name

/-- The column under another name. -/
def rename (name : String) (column : TrackedColumn) : TrackedColumn := { column with name }

/-- The column converted to another type. -/
def retype (type : DataType) (column : TrackedColumn) : TrackedColumn :=
  { column with types := column.types ++ [type] }

@[simp] theorem rename_name (newName : String) (column : TrackedColumn) :
    (column.rename newName).name = newName := rfl

@[simp] theorem rename_value (newName : String) (row : Row) (column : TrackedColumn) :
    (column.rename newName).value row = column.value row := rfl

@[simp] theorem retype_name (type : DataType) (column : TrackedColumn) :
    (column.retype type).name = column.name := rfl

@[simp] theorem retype_value (type : DataType) (row : Row) (column : TrackedColumn) :
    (column.retype type).value row =
      (column.value row).bind (fun value => value.coerceTo type) := by
  rw [TrackedColumn.value, TrackedColumn.value, Option.bind_assoc]
  simp [TrackedColumn.retype]

end TrackedColumn

/-- The columns of a schema before anything has happened to them. -/
def TableSchema.tracked (schema : TableSchema) : List TrackedColumn :=
  schema.columns.zipIdx.map (fun entry => ⟨entry.1.name, .kept entry.2, []⟩)

/-- Change the column of a name. -/
def changeNamed (name : String) (f : TrackedColumn → TrackedColumn)
    (columns : List TrackedColumn) : List TrackedColumn :=
  columns.map (fun column => if column.isNamed name then f column else column)

/-- What an operation does to the tracked columns. -/
def AlterOperation.track : AlterOperation → List TrackedColumn → List TrackedColumn
  | .addColumn column _ _, columns =>
    if columns.any (TrackedColumn.isNamed column.name) then columns
    else columns ++ [⟨column.name, .added (column.default.getD .null), [column.dataType]⟩]
  | .dropColumn name _, columns => columns.filter (fun column => !column.isNamed name)
  | .renameColumn oldName newName, columns =>
    changeNamed oldName (TrackedColumn.rename newName) columns
  | .modifyColumn oldName column _, columns =>
    changeNamed oldName (fun c => (c.rename column.name).retype column.dataType) columns
  | .setDataType name dataType, columns => changeNamed name (TrackedColumn.retype dataType) columns
  | _, columns => columns

/-- What a list of operations does to the tracked columns, each seeing the names that those
before it leave. -/
def trackAll (operations : List AlterOperation) (columns : List TrackedColumn) :
    List TrackedColumn :=
  operations.foldl (fun columns operation => operation.track columns) columns

/-- A table has the tracked columns, and row by row the values that they describe. -/
structure TracksColumns (before : List Row) (columns : List TrackedColumn) (table : Table) :
    Prop where
  names : table.schema.columns.map ColumnDef.name = columns.map TrackedColumn.name
  rows : List.Forall₂ (fun old new => columns.map (TrackedColumn.value old) = new.map some)
    before table.rows

/-! ## Columns by name and by position -/

section Named

variable {α : Type} {nameOf : α → String} {name : String} {columns : List α} {index : Nat}

/-- Of columns with distinct names, the one of a name is changed at its position. -/
theorem map_named_eq_modify (hdistinct : DistinctNames (columns.map nameOf))
    (hindex : columns.findIdx? (fun column => eqIgnoreAsciiCase (nameOf column) name) =
      some index) (f : α → α) :
    columns.map (fun column =>
        if eqIgnoreAsciiCase (nameOf column) name then f column else column) =
      columns.modify index f := by
  obtain ⟨hlt, hnamed, -⟩ := List.findIdx?_eq_some_iff_getElem.mp hindex
  have hfound : columns[index]? = some columns[index] := List.getElem?_eq_getElem hlt
  apply List.ext_getElem?
  intro i
  rw [List.getElem?_map, List.getElem?_modify]
  by_cases hi : index = i
  · subst hi
    rw [hfound]
    simp [hnamed]
  · cases hcolumn : columns[i]? with
    | none => simp
    | some column =>
      have hother : ¬ eqIgnoreAsciiCase (nameOf column) name = true := by
        intro hsame
        refine hi (hdistinct index i _ _ (by rw [List.getElem?_map, hfound]; rfl)
          (by rw [List.getElem?_map, hcolumn]; rfl) ?_)
        exact eqIgnoreAsciiCase_trans hnamed (eqIgnoreAsciiCase_symm hsame)
      simp [hi, hother]

/-- Of columns with distinct names, the one of a name is taken out at its position. -/
theorem filter_named_eq_eraseIdx (hdistinct : DistinctNames (columns.map nameOf))
    (hindex : columns.findIdx? (fun column => eqIgnoreAsciiCase (nameOf column) name) =
      some index) :
    columns.filter (fun column => !eqIgnoreAsciiCase (nameOf column) name) =
      columns.eraseIdx index := by
  induction columns generalizing index with
  | nil => simp at hindex
  | cons column columns ih =>
    rw [List.findIdx?_cons] at hindex
    split_ifs at hindex with hnamed
    · obtain rfl := Option.some.inj hindex
      rw [List.filter_cons_of_neg (by simp [hnamed]), List.eraseIdx_cons_zero,
        List.filter_eq_self]
      intro other hother
      have hne := hdistinct.not_mem (nameOf other) (List.mem_map_of_mem hother)
      rw [Bool.not_eq_true', ← Bool.not_eq_true]
      intro hsame
      rw [eqIgnoreAsciiCase_trans hnamed (eqIgnoreAsciiCase_symm hsame)] at hne
      cases hne
    · obtain ⟨rest, hrest, rfl⟩ := Option.map_eq_some_iff.mp hindex
      rw [List.filter_cons_of_pos (by simp [hnamed]), List.eraseIdx_cons_succ,
        ih hdistinct.tail hrest]

theorem findIdx?_of_names {β : Type} {nameOf' : β → String} {others : List β}
    (hnames : columns.map nameOf = others.map nameOf') :
    columns.findIdx? (fun column => eqIgnoreAsciiCase (nameOf column) name) =
      others.findIdx? (fun column => eqIgnoreAsciiCase (nameOf' column) name) := by
  have hleft := List.findIdx?_map (p := fun found => eqIgnoreAsciiCase found name)
    (f := nameOf) (l := columns)
  have hright := List.findIdx?_map (p := fun found => eqIgnoreAsciiCase found name)
    (f := nameOf') (l := others)
  rw [hnames] at hleft
  exact hleft.symm.trans hright

end Named

/-! ## One operation -/

section Step

variable {before : List Row} {columns : List TrackedColumn} {table table' : Table}

/-- Before the first operation every column is the one at its position. -/
theorem tracksColumns_initial (h : table.Exact) :
    TracksColumns table.rows table.schema.tracked table := by
  constructor
  · apply List.ext_getElem?
    intro i
    rw [TableSchema.tracked, List.map_map, List.getElem?_map, List.getElem?_map,
      List.getElem?_zipIdx]
    cases table.schema.columns[i]? <;> rfl
  · rw [List.forall₂_same]
    intro row hrow
    have hlength : row.length = table.schema.columns.length := by
      rw [(h row hrow).length, TableSchema.types, List.length_map]
    apply List.ext_getElem?
    intro i
    rw [TableSchema.tracked, List.map_map, List.getElem?_map, List.getElem?_map,
      List.getElem?_zipIdx]
    by_cases hi : i < table.schema.columns.length
    · rw [List.getElem?_eq_getElem hi, List.getElem?_eq_getElem (hlength ▸ hi)]
      simp [TrackedColumn.value, List.getElem?_eq_getElem (hlength ▸ hi)]
    · rw [List.getElem?_eq_none (by omega), List.getElem?_eq_none (by omega)]
      rfl

/-- The column of a name stands at the position that the schema finds. -/
theorem TracksColumns.findIdx? (h : TracksColumns before columns table) (name : String) :
    columns.findIdx? (TrackedColumn.isNamed name) = table.schema.columnIndex name :=
  findIdx?_of_names h.names.symm

theorem TracksColumns.distinct (h : TracksColumns before columns table)
    (hplain : table.schema.Plain) :
    DistinctNames (columns.map TrackedColumn.name) :=
  h.names ▸ hplain.distinct

/-- Changing the column of a name changes it at its position. -/
theorem TracksColumns.changeNamed_eq (h : TracksColumns before columns table)
    (hplain : table.schema.Plain)
    {name : String} {index : Nat} (hindex : table.schema.columnIndex name = some index)
    (f : TrackedColumn → TrackedColumn) : changeNamed name f columns = columns.modify index f :=
  map_named_eq_modify (h.distinct hplain) ((h.findIdx? name).trans hindex) f

theorem map_modify_of_same {β : Type} {g : TrackedColumn → β} {f : TrackedColumn → TrackedColumn}
    (hf : ∀ column, g (f column) = g column) (columns : List TrackedColumn) (index : Nat) :
    (columns.modify index f).map g = columns.map g := by
  apply List.ext_getElem?
  intro i
  rw [List.getElem?_map, List.getElem?_modify, List.getElem?_map]
  cases columns[i]? with
  | none => rfl
  | some column =>
    by_cases hi : index = i
    · simp [hi, hf]
    · simp [hi]

theorem names_modify (columns : List TrackedColumn) (index : Nat)
    {f : TrackedColumn → TrackedColumn} {name : String} (hf : ∀ column, (f column).name = name) :
    (columns.modify index f).map TrackedColumn.name =
      (columns.map TrackedColumn.name).set index name := by
  apply List.ext_getElem?
  intro i
  rw [List.getElem?_map, List.getElem?_modify, List.getElem?_set, List.getElem?_map,
    List.length_map]
  by_cases hi : index = i
  · subst hi
    by_cases hlt : index < columns.length
    · simp [hlt, hf]
    · simp [hlt]
  · cases columns[i]? <;> simp [hi]

/-- **The values follow a column that is converted.** -/
theorem values_retype {old new new' : Row} {index : Nat} {type : DataType} {message : String}
    {f : TrackedColumn → TrackedColumn}
    (hf : ∀ row column, (f column).value row =
      (column.value row).bind fun value => value.coerceTo type)
    (hvalues : columns.map (TrackedColumn.value old) = new.map some)
    (hcoerce : (do
      let value ← rowAt new index
      match value.coerceTo type with
      | some value => pure (new.set index value)
      | none => refuse message : Except Fault Row) = .ok new') :
    (columns.modify index f).map (TrackedColumn.value old) = new'.map some := by
  obtain ⟨value, hvalue, hcoerce⟩ := Result.bind_eq_ok.mp hcoerce
  have hat : new[index]? = some value := by
    unfold rowAt at hvalue
    split at hvalue
    · rename_i found hfound
      rw [hfound, Except.ok.inj hvalue]
    · cases hvalue
  cases hconverted : value.coerceTo type with
  | none =>
    rw [hconverted] at hcoerce
    simp [refuse] at hcoerce
  | some converted =>
    rw [hconverted] at hcoerce
    obtain rfl := Except.ok.inj hcoerce
    apply List.ext_getElem?
    intro i
    have hi := congrArg (fun values => values[i]?) hvalues
    simp only [List.getElem?_map] at hi
    rw [List.getElem?_map, List.getElem?_modify, List.getElem?_map]
    by_cases heq : index = i
    · subst heq
      rw [hat] at hi
      obtain ⟨column, hcolumn, hsame⟩ := Option.map_eq_some_iff.mp hi
      rw [List.getElem?_set_self (List.getElem?_eq_some_iff.mp hat).1, hcolumn]
      simp [hf, hsame, hconverted]
    · rw [List.getElem?_set_ne heq, ← hi]
      cases columns[i]? <;> simp [heq]

theorem rows_retype {rows : List Row} {index : Nat} {type : DataType} {message : String}
    {f : TrackedColumn → TrackedColumn}
    (hf : ∀ row column, (f column).value row =
      (column.value row).bind fun value => value.coerceTo type)
    (hrows : List.Forall₂ (fun old new => columns.map (TrackedColumn.value old) = new.map some)
      before table.rows)
    (hcoerce : coerceColumn table.rows index type message = .ok rows) :
    List.Forall₂ (fun old new =>
      (columns.modify index f).map (TrackedColumn.value old) = new.map some) before rows := by
  have hloop := Result.mapM_eq_ok.mp hcoerce
  clear hcoerce
  revert hrows hloop
  generalize table.rows = current
  intro hrows hloop
  induction hrows generalizing rows with
  | nil =>
    cases hloop
    exact .nil
  | cons hvalues _ ih =>
    cases hloop with
    | cons hfirst hrest => exact .cons (values_retype hf hvalues hfirst) (ih hrest)

theorem rows_drop {rows : List Row} {index : Nat}
    (hrows : List.Forall₂ (fun old new => columns.map (TrackedColumn.value old) = new.map some)
      before table.rows)
    (hremove : removeColumn table.rows index = .ok rows) :
    List.Forall₂ (fun old new =>
      (columns.eraseIdx index).map (TrackedColumn.value old) = new.map some) before rows := by
  have hloop := Result.mapM_eq_ok.mp hremove
  clear hremove
  revert hrows hloop
  generalize table.rows = current
  intro hrows hloop
  induction hrows generalizing rows with
  | nil =>
    cases hloop
    exact .nil
  | cons hvalues _ ih =>
    cases hloop with
    | cons hfirst hrest =>
      refine .cons ?_ (ih hrest)
      obtain ⟨value, -, hremoved⟩ := Result.bind_eq_ok.mp hfirst
      obtain rfl := Except.ok.inj hremoved
      rw [← List.eraseIdx_map, hvalues, List.eraseIdx_map]

/-- An operation that returns early changes no column. -/
theorem track_of_none {H : Host} {tables : Tables} {tableName : String}
    {operation : AlterOperation} (h : TracksColumns before columns table)
    (halter : alterTable H tables tableName table operation = .ok none) :
    operation.track columns = columns := by
  have hmapped : ∀ {result : Except Fault Table}, result.map some ≠ .ok none := by
    intro result hresult
    obtain ⟨altered, -, heq⟩ := Result.map_eq_ok.mp hresult
    cases heq
  cases operation with
  | addColumn column constraints ifNotExists =>
    have halter : addColumn table column constraints ifNotExists = .ok none := halter
    unfold addColumn at halter
    split at halter
    · rename_i hexists
      rw [← h.findIdx?, List.findIdx?_isSome] at hexists
      exact if_pos hexists
    · split at halter
      · simp [refuse] at halter
      · split at halter
        · simp [refuse] at halter
        · simp at halter
  | dropColumn name ifExists =>
    have halter : dropColumn H tables tableName table name ifExists = .ok none := halter
    unfold dropColumn at halter
    cases hindex : table.schema.columnIndex name with
    | none =>
      rw [← h.findIdx?, List.findIdx?_eq_none_iff] at hindex
      exact List.filter_eq_self.mpr fun column hmem => by simp [hindex column hmem]
    | some index =>
      simp only [hindex] at halter
      split at halter
      · simp [refuse] at halter
      · split at halter
        · simp [refuse] at halter
        · obtain ⟨rows, -, htable⟩ := Result.bind_eq_ok.mp halter
          cases htable
  | renameColumn oldName newName => exact absurd halter hmapped
  | modifyColumn oldName column constraints => exact absurd halter hmapped
  | setDataType column dataType => exact absurd halter hmapped
  | _ => rfl

/-- **The rows follow one operation.** -/
theorem tracksColumns_alters {operation : AlterOperation} (h : TracksColumns before columns table)
    (hplain : table.schema.Plain) (halters : Alters table operation table') :
    TracksColumns before (operation.track columns) table' := by
  cases halters with
  | @addColumn column constraints _ value hnew hvalue =>
    have hany : ¬ columns.any (TrackedColumn.isNamed column.name) = true := by
      rw [← List.findIdx?_isSome, h.findIdx?, hnew]
      simp
    rw [AlterOperation.track, if_neg hany]
    constructor
    · show (table.schema.columns ++ [column]).map ColumnDef.name = _
      rw [List.map_append, List.map_append, h.names]
      rfl
    · rw [List.forall₂_map_right_iff]
      refine h.rows.imp fun old new hvalues => ?_
      rw [List.map_append, List.map_append, hvalues]
      simp [TrackedColumn.value, hvalue]
  | @dropColumn name _ index rows hindex hremove =>
    have herase : AlterOperation.track (.dropColumn name true) columns = columns.eraseIdx index :=
      filter_named_eq_eraseIdx (h.distinct hplain) ((h.findIdx? name).trans hindex)
    show TracksColumns before (AlterOperation.track (.dropColumn name true) columns) _
    rw [herase]
    constructor
    · show (table.schema.columns.eraseIdx index).map ColumnDef.name = _
      rw [← List.eraseIdx_map, h.names, List.eraseIdx_map]
    · exact rows_drop h.rows hremove
  | @renameColumn oldName newName index _ hindex =>
    rw [AlterOperation.track, h.changeNamed_eq hplain hindex]
    constructor
    · show (table.schema.modifyColumn index fun c => { c with name := newName }).columns.map
        ColumnDef.name = _
      rw [names_modifyColumn_name _ _ _ newName fun _ => rfl, h.names]
      exact (names_modify columns index (TrackedColumn.rename_name newName)).symm
    · refine h.rows.imp fun old new hvalues => ?_
      rw [map_modify_of_same (TrackedColumn.rename_value newName old)]
      exact hvalues
  | @modifyColumn oldName column constraints index schema rows message hindex hschema hcoerce =>
    obtain ⟨hcolumns, -, -, -⟩ := renameModified_eq hschema constraints
    rw [AlterOperation.track, h.changeNamed_eq hplain hindex]
    constructor
    · show (schema.modifyColumn index fun _ => column).columns.map ColumnDef.name = _
      rw [names_modifyColumn_name _ _ _ column.name fun _ => rfl, hcolumns, h.names]
      refine (names_modify columns index fun c => ?_).symm
      simp
    · refine rows_retype (fun row c => ?_) h.rows hcoerce
      simp
  | @setDataType name dataType index rows message default hindex hcoerce =>
    rw [AlterOperation.track, h.changeNamed_eq hplain hindex]
    constructor
    · rw [map_modify_of_same (TrackedColumn.retype_name dataType), ← h.names]
      exact names_modifyColumn _ _ _ fun _ => rfl
    · exact rows_retype (TrackedColumn.retype_value dataType) h.rows hcoerce
  | setDefault _ =>
    refine ⟨Eq.trans ?_ h.names, h.rows⟩
    exact names_modifyColumn _ _ _ fun _ => rfl
  | setNullable _ =>
    refine ⟨Eq.trans ?_ h.names, h.rows⟩
    exact names_modifyColumn _ _ _ fun _ => rfl
  | addConstraint => exact ⟨h.names, h.rows⟩
  | dropConstraint _ => exact ⟨h.names, h.rows⟩
  | dropPrimaryKey _ => exact ⟨h.names, h.rows⟩

theorem TracksColumns.refresh (h : TracksColumns before columns table) (H : Host) :
    TracksColumns before columns (refreshConstraintMetadata H table) :=
  ⟨(names_refreshSchema table.schema).trans h.names, h.rows⟩

end Step

/-! ## The other tables -/

/-- A constraint that is the same up to the columns that a foreign key to a table refers to. -/
inductive OnlyReferred (tableName : String) : TableConstraint → TableConstraint → Prop
  | same (constraint : TableConstraint) : OnlyReferred tableName constraint constraint
  | referred (foreignKey : ForeignKeyConstraint) (referredColumns : List String) :
      eqIgnoreAsciiCase foreignKey.foreignTable tableName = true →
      OnlyReferred tableName (.foreignKey foreignKey)
        (.foreignKey { foreignKey with referredColumns })

theorem OnlyReferred.trans {tableName : String} {first second third : TableConstraint}
    (h : OnlyReferred tableName first second) (h' : OnlyReferred tableName second third) :
    OnlyReferred tableName first third := by
  cases h with
  | same => exact h'
  | referred foreignKey columns hforeign =>
    cases h' with
    | same => exact .referred foreignKey columns hforeign
    | referred _ columns' _ => exact .referred foreignKey columns' hforeign

theorem onlyReferred_renameReferred (tableName old new : String) (constraint : TableConstraint) :
    OnlyReferred tableName constraint (renameReferred tableName old new constraint) := by
  cases constraint with
  | foreignKey foreignKey =>
    rw [renameReferred]
    split_ifs with hforeign
    · exact .referred foreignKey _ hforeign
    · exact .same _
  | _ => exact .same _

/-- What ALTER TABLE keeps of another table: its rows and their identifiers, the names,
types and nullability of its columns, its index definitions, and its constraints up to the
columns that foreign keys to the altered table refer to. -/
structure KeptBut (tableName : String) (table table' : Table) : Prop where
  rows : table'.rows = table.rows
  rowIds : table'.rowIds = table.rowIds
  nextRowId : table'.nextRowId = table.nextRowId
  name : table'.schema.name = table.schema.name
  columns : table'.schema.columns.map ColumnDef.shape = table.schema.columns.map ColumnDef.shape
  indexes : table'.schema.indexes = table.schema.indexes
  constraints : List.Forall₂ (OnlyReferred tableName) table.schema.constraints
    table'.schema.constraints

section Others

variable {H : Host} {tables : Tables} {table table' : Table} {tableName : String}

theorem KeptBut.refl (tableName : String) (table : Table) : KeptBut tableName table table :=
  ⟨rfl, rfl, rfl, rfl, rfl, rfl, List.forall₂_same.mpr fun constraint _ => .same constraint⟩

theorem KeptBut.trans {table'' : Table} (h : KeptBut tableName table table')
    (h' : KeptBut tableName table' table'') : KeptBut tableName table table'' where
  rows := h'.rows.trans h.rows
  rowIds := h'.rowIds.trans h.rowIds
  nextRowId := h'.nextRowId.trans h.nextRowId
  name := h'.name.trans h.name
  columns := h'.columns.trans h.columns
  indexes := h'.indexes.trans h.indexes
  constraints := by
    have hfirst := h.constraints
    have hsecond := h'.constraints
    revert hfirst hsecond
    generalize table.schema.constraints = first
    generalize table'.schema.constraints = second
    generalize table''.schema.constraints = third
    intro hfirst hsecond
    induction hfirst generalizing third with
    | nil =>
      cases hsecond
      exact .nil
    | cons hhead _ ih =>
      cases hsecond with
      | cons hhead' hrest => exact .cons (hhead.trans hhead') (ih _ hrest)

/-- **The metadata of a settled table do not depend on the columns it refers to.** -/
theorem keptBut_renameReferred (h : table.Settled) (H : Host) (tableName old new : String) :
    KeptBut tableName table (refreshConstraintMetadata H { table with
      schema := table.schema.renameReferred tableName old new }) := by
  have hplain := plain_renameReferred h.toPlain tableName old new
  refine ⟨rfl, rfl, rfl, rfl, ?_, ?_, ?_⟩
  · refine @shapes_refreshSchema (table.schema.renameReferred tableName old new) ?_
    intro constraint hmem hprimary name hname column hcolumn heq
    obtain ⟨before, hbefore, rfl⟩ := List.mem_map.mp hmem
    rw [isPrimaryKey_renameReferred] at hprimary
    rw [constraintColumns_renameReferred] at hname
    exact h.notNull before hbefore hprimary name hname column hcolumn heq
  · have hindexes := indexes_refreshSchema hplain
    have hconstraint : (table.schema.renameReferred tableName old new).constraintIndexes =
        table.schema.constraintIndexes := by
      rw [TableSchema.constraintIndexes, TableSchema.renameReferred, List.filterMap_map]
      exact List.filterMap_congr fun constraint _ =>
        constraintIndex_renameReferred _ tableName old new constraint
    rw [hconstraint] at hindexes
    exact hindexes.trans h.indexes.symm
  · show List.Forall₂ _ table.schema.constraints
      (table.schema.constraints.map (renameReferred tableName old new))
    rw [List.forall₂_map_right_iff, List.forall₂_same]
    exact fun constraint _ => onlyReferred_renameReferred tableName old new constraint

/-- The catalog has the same other tables, and they are kept. -/
def OthersKept (tableName : String) (tables tables' : Tables) : Prop :=
  ∀ name, name ≠ tableName →
    Option.Rel (KeptBut tableName) (tables.lookup name) (tables'.lookup name)

theorem OthersKept.refl (tableName : String) (tables : Tables) :
    OthersKept tableName tables tables := by
  intro name _
  cases tables.lookup name with
  | none => exact .none
  | some table => exact .some (KeptBut.refl tableName table)

theorem OthersKept.trans {tables' tables'' : Tables} (h : OthersKept tableName tables tables')
    (h' : OthersKept tableName tables' tables'') : OthersKept tableName tables tables'' := by
  intro name hname
  have hfirst := h name hname
  have hsecond := h' name hname
  revert hfirst hsecond
  generalize tables.lookup name = first
  generalize tables'.lookup name = second
  generalize tables''.lookup name = third
  intro hfirst hsecond
  cases hfirst with
  | none =>
    cases hsecond
    exact .none
  | some hkept =>
    cases hsecond with
    | some hkept' => exact .some (hkept.trans hkept')

/-- **Another table after one operation.** -/
theorem keptBut_alterOthers (h : tables.All Table.Settled) (tableName : String)
    (operation : AlterOperation) :
    OthersKept tableName tables (alterOthers H tables tableName operation) := by
  cases operation with
  | renameColumn oldName newName =>
    intro name hname
    rw [alterOthers, renameInOthers, KeyedIndex.lookup_mapValues]
    cases hlookup : tables.lookup name with
    | none => exact .none
    | some table =>
      refine .some ?_
      dsimp only
      rw [if_neg hname]
      split_ifs
      · exact keptBut_renameReferred (h name table hlookup) H tableName oldName newName
      · exact KeptBut.refl tableName table
  | _ => exact OthersKept.refl tableName tables

/-- **What a list of operations keeps**: row by row the values of the tracked columns, the
identifiers, and the other tables. -/
theorem applyAlterOperations_keeps {others : Tables} {operations : List AlterOperation}
    {before : List Row} {columns : List TrackedColumn}
    (hparsed : ∀ operation ∈ operations, operation.Parsed ∧ operation.Written)
    (hcatalog : tables.All Table.Settled) (htable : table.Settled)
    (htracks : TracksColumns before columns table)
    (h : applyAlterOperations H tableName tables table operations = .ok (others, table')) :
    TracksColumns before (trackAll operations columns) table' ∧ table'.rowIds = table.rowIds ∧
      table'.nextRowId = table.nextRowId ∧ OthersKept tableName tables others := by
  induction operations generalizing tables table columns with
  | nil =>
    obtain ⟨rfl, rfl⟩ := Prod.mk.inj (Except.ok.inj h)
    exact ⟨htracks, rfl, rfl, OthersKept.refl tableName tables⟩
  | cons operation operations ih =>
    obtain ⟨⟨next, nextTable⟩, hoperation, hrest⟩ := Result.bind_eq_ok.mp h
    obtain ⟨hfirst, hwritten⟩ := hparsed operation List.mem_cons_self
    have hparsed' : ∀ other ∈ operations, other.Parsed ∧ other.Written :=
      fun other hmem => hparsed other (List.mem_cons_of_mem _ hmem)
    obtain ⟨hnext, hnextTable⟩ :=
      settled_applyAlterOperation hfirst hwritten hcatalog htable hoperation
    have hstep : TracksColumns before (operation.track columns) nextTable ∧
        nextTable.rowIds = table.rowIds ∧ nextTable.nextRowId = table.nextRowId ∧
        OthersKept tableName tables next := by
      obtain ⟨altered, halter, hpure⟩ := Result.bind_eq_ok.mp hoperation
      cases altered with
      | none =>
        obtain ⟨rfl, rfl⟩ := Prod.mk.inj (Except.ok.inj hpure)
        rw [track_of_none htracks halter]
        exact ⟨htracks, rfl, rfl, OthersKept.refl tableName tables⟩
      | some altered =>
        obtain ⟨rfl, rfl⟩ := Prod.mk.inj (Except.ok.inj hpure)
        have hkeeps := alterTable_keeps hfirst halter
        exact ⟨(tracksColumns_alters htracks htable.toPlain (alterTable_alters halter)).refresh H,
          hkeeps.rowIds, hkeeps.nextRowId, keptBut_alterOthers hcatalog tableName operation⟩
    obtain ⟨htracks', hrowIds, hnextRowId, hothers⟩ := hstep
    obtain ⟨hall, hrestIds, hrestNext, hrestOthers⟩ :=
      ih hparsed' hnext hnextTable htracks' hrest
    exact ⟨hall, hrestIds.trans hrowIds, hrestNext.trans hnextRowId, hothers.trans hrestOthers⟩

end Others

/-! ## The statement -/

/-- **ALTER TABLE touches only what it names.**  In every catalog that parsed statements
build, a list of operations that succeeds leaves the table its rows, in their order, with
their identifiers; in every row, every column has the value that its origin had, or the
default it was added with, converted to the types that the operations gave it; and every
other table is kept, up to the columns that its foreign keys to the table refer to. -/
theorem alter_touches_only_named {H : Host} {tables tables' : Tables} {tableName : String}
    {operations : List AlterOperation} {result : ExecutionResult} (hbuilt : Built H tables)
    (hparsed : Statement.Parsed (.alterTable tableName operations))
    (hwritten : Statement.Written (.alterTable tableName operations))
    (h : executeCatalog H tables (.alterTable tableName operations) = .ok (result, tables')) :
    ∃ table table', tables.lookup (toAsciiLowercase tableName) = some table ∧
      tables'.lookup (toAsciiLowercase tableName) = some table' ∧
      TracksColumns table.rows (trackAll operations table.schema.tracked) table' ∧
      table'.rowIds = table.rowIds ∧ table'.nextRowId = table.nextRowId ∧
      OthersKept (toAsciiLowercase tableName) tables tables' := by
  obtain ⟨hrooted, hexact, -, -⟩ := standing_of_built hbuilt
  have hcatalog : tables.All Table.Settled := fun name table hlookup =>
    (hrooted name table hlookup).settled
  obtain ⟨existing, table, others, hlookup, hoperations, rfl⟩ :=
    executeAlterTable_ok (executeCatalog_ok h).1
  obtain ⟨htracks, hrowIds, hnextRowId, hothers⟩ := applyAlterOperations_keeps
    (fun operation hmem => ⟨hparsed operation hmem, hwritten operation hmem⟩) hcatalog
    (hcatalog _ existing hlookup) (tracksColumns_initial (hexact _ existing hlookup)) hoperations
  refine ⟨existing, _, hlookup, AList.lookup_insert _, htracks.refresh H, hrowIds, hnextRowId, ?_⟩
  intro name hname
  rw [AList.lookup_insert_ne hname]
  exact hothers name hname

/-- `CREATE TABLE u (r INTEGER REFERENCES t (id))`. -/
def createReferring : Statement :=
  .createTable "u" [plainColumn "r" .integer]
    [.foreignKey { name := none, columns := ["r"], foreignTable := "t", referredColumns := ["id"] }]
    false

/-- `INSERT INTO t VALUES (1, 10)`. -/
def insertPair : Statement :=
  .insert "t" none (.values [[.literal (.integer 1), .literal (.integer 10)]]) []

/-- Operations that rename the columns `id` and `v`, convert the second to FLOAT and give its
old name to a new column. -/
def reuseName : List AlterOperation :=
  [.renameColumn "id" "key", .setDataType "v" .float, .renameColumn "v" "label",
    .addColumn { plainColumn "v" .integer with default := some (.integer 7) } [] false]

/-- The old values stay with the renamed columns, and the default goes into the new one. -/
theorem reused_name_tracked : ∃ tables tables' table table',
    tables.lookup "t" = some table ∧ tables'.lookup "t" = some table' ∧
    table'.rows = [[.integer 1, .float (F64.ofInt 10), .integer 7]] ∧
    TracksColumns table.rows (trackAll reuseName table.schema.tracked) table' ∧
    OthersKept "t" tables tables' := by
  have hrun : ((runStatements Host.reference (∅, 0)
      [createKeyed, createReferring, insertPair]).bind fun state =>
        (executeCatalog Host.reference state.1 (.alterTable "t" reuseName)).map fun done =>
          (done.2.lookup "t").map Table.rows).toOption =
      some (some [[.integer 1, .float (F64.ofInt 10), .integer 7]]) := by
    decide +kernel
  obtain ⟨⟨tables, inserted⟩, hstatements, halter⟩ :=
    Result.bind_eq_ok.mp (Result.toOption_eq_some.mp hrun)
  obtain ⟨⟨result, tables'⟩, hexecute, hrows⟩ := Result.map_eq_ok.mp halter
  have hlower : ∀ name ∈ ["id", "v", "r", "key", "label"], Lower name := by
    unfold Lower
    decide
  have hbuilt : Built Host.reference tables := by
    refine built_runStatements Built.empty (fun statement hmem => ?_) hstatements
    simp only [List.mem_cons, List.not_mem_nil, or_false] at hmem
    rcases hmem with rfl | rfl | rfl
    · refine ⟨trivial, ?_, ?_, ?_⟩
      · intro column hcolumn
        simp only [List.mem_cons, List.not_mem_nil, or_false] at hcolumn
        rcases hcolumn with rfl | rfl
        · exact hlower "id" (by simp)
        · exact hlower "v" (by simp)
      · intro constraint hconstraint name hname
        obtain rfl := List.mem_singleton.mp hconstraint
        obtain rfl := List.mem_singleton.mp hname
        exact hlower "id" (by simp)
      · intro column hcolumn hflag
        simp only [List.mem_cons, List.not_mem_nil, or_false] at hcolumn
        rcases hcolumn with rfl | rfl
        · exact ⟨_, List.mem_singleton_self _, rfl⟩
        · simp [plainColumn] at hflag
    · refine ⟨trivial, ?_, ?_, ?_⟩
      · intro column hcolumn
        obtain rfl := List.mem_singleton.mp hcolumn
        exact hlower "r" (by simp)
      · intro constraint hconstraint name hname
        obtain rfl := List.mem_singleton.mp hconstraint
        obtain rfl := List.mem_singleton.mp hname
        exact hlower "r" (by simp)
      · intro column hcolumn hflag
        obtain rfl := List.mem_singleton.mp hcolumn
        simp [plainColumn] at hflag
    · exact ⟨trivial, trivial⟩
  have hwritten : Statement.Written (.alterTable "t" reuseName) := by
    intro operation hmem
    simp only [reuseName, List.mem_cons, List.not_mem_nil, or_false] at hmem
    rcases hmem with rfl | rfl | rfl | rfl
    · exact hlower "key" (by simp)
    · trivial
    · exact hlower "label" (by simp)
    · exact ⟨hlower "v" (by simp), fun constraint hconstraint => by cases hconstraint⟩
  have hparsed : Statement.Parsed (.alterTable "t" reuseName) := by
    simp [Statement.Parsed, reuseName, AlterOperation.Parsed]
  obtain ⟨table, table', htable, htable', htracks, -, -, hothers⟩ :=
    alter_touches_only_named hbuilt hparsed hwritten hexecute
  have hname : toAsciiLowercase "t" = "t" := by decide
  rw [hname] at htable htable' hothers
  rw [htable', Option.map_some, Option.some.injEq] at hrows
  exact ⟨tables, tables', table, table', htable, htable', hrows, htracks, hothers⟩

end Sql
end RustyDB
