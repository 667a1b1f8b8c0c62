import Mathlib
import RustyDB.Sql.Batch
import RustyDB.Sql.Rename
import RustyDB.Sql.RenameQuery

/-!
# RENAME COLUMN and the constraints

What one RENAME COLUMN leaves of the constraints and the indexes of its table, and of the
foreign keys of the other tables.

* `TableSchema.positions`, `Constrains`, `SameIndex`, `KeepsPositions` — constraints and
  indexes over the same positions.
* `Renamed`, `renamed_of_execute` — the table with the renamed column, and the other tables.
* `Renamed.keeps`, `Renamed.keepsOther` — **keys, indexes and foreign keys stay where they
  were.**
* `Renamed.scansUnmoved` — the scans that a WHERE clause does not tie to the name return the
  rows that they did.
* `verdict`, `Unmixed`, `LosesNothing`, `rename_keeps_meaning_iff` — **when the CHECK
  expressions keep their verdicts.**
* `operand_is_lost` — a CHECK over `IN (subquery)` that RENAME COLUMN breaks.
-/

namespace RustyDB
namespace Sql

open KeyedIndex

/-! ## Positions -/

/-- The positions of columns in a table. -/
def TableSchema.positions (schema : TableSchema) (names : List String) : List (Option Nat) :=
  names.map schema.columnIndex

/-- The positions of columns in a table of a catalog. -/
def Tables.positions (tables : Tables) (name : String) (columns : List String) :
    Option (List (Option Nat)) :=
  (tables.lookup name).map fun table => table.schema.positions columns

/-- The CHECK expressions of a table. -/
def TableSchema.checks (schema : TableSchema) : List Expr :=
  schema.constraints.filterMap fun constraint =>
    match constraint with
    | .check _ expr => some expr
    | _ => none

theorem mem_checks {schema : TableSchema} {expr : Expr} :
    expr ∈ schema.checks ↔ ∃ name, .check name expr ∈ schema.constraints := by
  rw [TableSchema.checks, List.mem_filterMap]
  constructor
  · rintro ⟨constraint, hmem, hcheck⟩
    cases constraint with
    | check name expr =>
      obtain rfl := Option.some.inj hcheck
      exact ⟨name, hmem⟩
    | _ => cases hcheck
  · rintro ⟨name, hmem⟩
    exact ⟨_, hmem, rfl⟩

/-- Two constraints over the same positions, of this table and of the table that a foreign
key refers to, with CHECK expressions that are related. -/
inductive Constrains (checks : Expr → Expr → Prop) (tables tables' : Tables)
    (schema schema' : TableSchema) : TableConstraint → TableConstraint → Prop
  | primaryKey {name : Option String} {columns columns' : List String} :
      schema'.positions columns' = schema.positions columns →
      Constrains checks tables tables' schema schema' (.primaryKey name columns)
        (.primaryKey name columns')
  | unique {name : Option String} {columns columns' : List String} :
      schema'.positions columns' = schema.positions columns →
      Constrains checks tables tables' schema schema' (.unique name columns)
        (.unique name columns')
  | check {name : Option String} {expr expr' : Expr} : checks expr expr' →
      Constrains checks tables tables' schema schema' (.check name expr) (.check name expr')
  | foreignKey {foreignKey : ForeignKeyConstraint} {columns referredColumns : List String} :
      schema'.positions columns = schema.positions foreignKey.columns →
      tables'.positions foreignKey.foreignTable referredColumns =
        tables.positions foreignKey.foreignTable foreignKey.referredColumns →
      Constrains checks tables tables' schema schema' (.foreignKey foreignKey)
        (.foreignKey { foreignKey with columns, referredColumns })

/-- Two indexes over the same positions. -/
structure SameIndex (schema schema' : TableSchema) (index index' : IndexDef) : Prop where
  unique : index'.unique = index.unique
  automatic : index'.automatic = index.automatic
  positions : schema'.positions index'.columns = schema.positions index.columns

/-- The same rows, and constraints and indexes over the same positions. -/
structure KeepsPositions (checks : Expr → Expr → Prop) (tables tables' : Tables)
    (table table' : Table) : Prop where
  rows : table'.rows = table.rows
  rowIds : table'.rowIds = table.rowIds
  constraints : List.Forall₂ (Constrains checks tables tables' table.schema table'.schema)
    table.schema.constraints table'.schema.constraints
  indexes : List.Forall₂ (SameIndex table.schema table'.schema) table.schema.indexes
    table'.schema.indexes

/-! ## One schema -/

/-- A schema, and the same one with another name for a column. -/
structure NewName (old new : String) (schema schema' : TableSchema) : Prop where
  exists_index : ∃ index, positionOf (schema.columns.map ColumnDef.name) old = some index ∧
    schema'.columns.map ColumnDef.name = (schema.columns.map ColumnDef.name).set index new
  fresh : positionOf (schema.columns.map ColumnDef.name) new = none

section Schema

variable {old new : String} {schema schema' : TableSchema}

theorem not_new_of_hasColumn (h : NewName old new schema schema') {name : String}
    (hname : schema.HasColumn name) : eqIgnoreAsciiCase name new = false := by
  rw [← Bool.not_eq_true]
  intro heq
  rw [← TableSchema.isSome_columnIndex, columnIndex_eq_positionOf, positionOf_congr heq,
    h.fresh] at hname
  cases hname

/-- A name that is not the old one stands where it stood. -/
theorem columnIndex_of_not_old (h : NewName old new schema schema') {name : String}
    (hname : schema.HasColumn name) (hold : eqIgnoreAsciiCase name old = false) :
    schema'.columnIndex name = schema.columnIndex name := by
  obtain ⟨index, hindex, hnames⟩ := h.exists_index
  rw [columnIndex_eq_positionOf, columnIndex_eq_positionOf, hnames]
  exact positionOf_set_other hindex hold (not_new_of_hasColumn h hname)

/-- **A renamed reference** stands where the reference stood. -/
theorem columnIndex_renameName (h : NewName old new schema schema') {name : String}
    (hname : schema.HasColumn name) :
    schema'.columnIndex (renameName old new name) = schema.columnIndex name := by
  rw [renameName]
  split_ifs with hold
  · obtain ⟨index, hindex, hnames⟩ := h.exists_index
    rw [columnIndex_eq_positionOf, columnIndex_eq_positionOf, hnames,
      positionOf_set_new hindex h.fresh, positionOf_congr hold, hindex]
  · exact columnIndex_of_not_old h hname (by simpa using hold)

theorem positions_renameName (h : NewName old new schema schema') {names : List String}
    (hnames : ∀ name ∈ names, schema.HasColumn name) :
    schema'.positions (names.map (renameName old new)) = schema.positions names := by
  rw [TableSchema.positions, TableSchema.positions, List.map_map]
  exact List.map_congr_left fun name hmem => columnIndex_renameName h (hnames name hmem)

/-- The column names of the new schema, one by one. -/
theorem set_eq_map_renameName {names : List String} {index : Nat} (hdistinct : DistinctNames names)
    (hindex : positionOf names old = some index) :
    names.set index new = names.map (renameName old new) := by
  induction names generalizing index with
  | nil => simp [positionOf] at hindex
  | cons other names ih =>
    simp only [positionOf, List.findIdx?_cons] at hindex ih
    split_ifs at hindex with hother
    · obtain rfl := Option.some.inj hindex
      have hrest : ∀ name ∈ names, renameName old new name = name := by
        intro name hname
        refine if_neg fun hold => ?_
        have hsame := eqIgnoreAsciiCase_trans hother (eqIgnoreAsciiCase_symm hold)
        rw [hdistinct.not_mem name hname] at hsame
        cases hsame
      rw [List.set_cons_zero, List.map_cons, renameName, if_pos hother,
        List.map_congr_left hrest, List.map_id']
    · obtain ⟨rest, hrest, rfl⟩ := Option.map_eq_some_iff.mp hindex
      rw [List.set_cons_succ, List.map_cons, renameName, if_neg hother,
        ih hdistinct.tail hrest]

theorem names_of_newName (h : NewName old new schema schema')
    (hdistinct : DistinctNames (schema.columns.map ColumnDef.name)) :
    schema'.columns.map ColumnDef.name =
      (schema.columns.map ColumnDef.name).map (renameName old new) := by
  obtain ⟨index, hindex, hnames⟩ := h.exists_index
  rw [hnames, set_eq_map_renameName hdistinct hindex]

theorem positions_of_names
    (h : schema'.columns.map ColumnDef.name = schema.columns.map ColumnDef.name)
    (names : List String) : schema'.positions names = schema.positions names :=
  List.map_congr_left fun name _ => by
    rw [columnIndex_eq_positionOf, columnIndex_eq_positionOf, h]

/-- Names in a table resolve as before, but for the renamed column. -/
theorem renames_boundColumns (h : NewName old new schema schema')
    (hdistinct : DistinctNames (schema.columns.map ColumnDef.name))
    (hdistinct' : DistinctNames (schema'.columns.map ColumnDef.name)) (visibleName : String) :
    Renames old new (boundColumns visibleName schema) (boundColumns visibleName schema') := by
  obtain ⟨index, hindex, hnames⟩ := h.exists_index
  refine ⟨fun qualifier name hold hnew => ?_, fun qualifier name hold => ?_,
    fun qualifier name hold => ?_⟩
  · rw [untexted_resolveColumn visibleName hdistinct, untexted_resolveColumn visibleName hdistinct',
      hnames, positionOf_set_other hindex hold hnew]
  · rw [untexted_resolveColumn visibleName hdistinct, untexted_resolveColumn visibleName hdistinct',
      hnames, positionOf_set_new hindex h.fresh, positionOf_congr hold, hindex]
  · rw [untexted_resolveColumn visibleName hdistinct', hnames, positionOf_congr hold,
      positionOf_set_old hdistinct hindex h.fresh, ite_self]
    rfl

end Schema

/-! ## The statement -/

/-- What RENAME COLUMN does to a catalog: the table with its new column name and renamed
references, and the other tables with foreign keys that follow. -/
structure Renamed (H : Host) (tableName old new : String) (tables tables' : Tables)
    (table table' : Table) : Prop where
  before : tables.lookup tableName = some table
  after : tables'.lookup tableName = some table'
  rows : table'.rows = table.rows
  rowIds : table'.rowIds = table.rowIds
  name : table'.schema.name = table.schema.name
  columns : NewName old new table.schema table'.schema
  constraints : table'.schema.constraints =
    table.schema.constraints.map (renameInConstraint table.schema.name old new)
  indexes : table'.schema.indexes =
    table'.schema.constraintIndexes ++ table.schema.manualIndexes.map fun index =>
      { index with columns := index.columns.map (renameName old new) }
  distinct : DistinctNames (table'.schema.columns.map ColumnDef.name)
  others : ∀ name, name ≠ tableName → tables'.lookup name =
    (tables.lookup name).map fun other =>
      if other.schema.constraints.any (refersTo tableName old) then
        refreshConstraintMetadata H { other with
          schema := other.schema.renameReferred tableName old new }
      else other

section Statement

variable {H : Host} {tables tables' : Tables} {table table' : Table}
  {tableName old new : String} {result : ExecutionResult}

/-- **One RENAME COLUMN.** -/
theorem renamed_of_execute (hstanding : tables.Standing) (hlower : Lower new)
    (h : executeCatalog H tables (.alterTable tableName [.renameColumn old new]) =
      .ok (result, tables')) :
    ∃ table table', Renamed H (toAsciiLowercase tableName) old new tables tables' table
      table' := by
  obtain ⟨table, altered, others, hlookup, hoperations, rfl⟩ :=
    executeAlterTable_ok (executeCatalog_ok h).1
  obtain ⟨⟨next, nextTable⟩, hoperation, hrest⟩ := Result.bind_eq_ok.mp hoperations
  obtain ⟨rfl, rfl⟩ := Prod.mk.inj (Except.ok.inj hrest)
  obtain ⟨changed, halter, hpure⟩ := Result.bind_eq_ok.mp hoperation
  obtain ⟨renamed, hrename, rfl⟩ := Result.map_eq_ok.mp halter
  obtain ⟨rfl, rfl⟩ := Prod.mk.inj (Except.ok.inj hpure)
  obtain ⟨hsettled, hname⟩ := hstanding.rooted _ table hlookup
  have hparsed : AlterOperation.Parsed (.renameColumn old new) := trivial
  have hwritten : AlterOperation.Written (.renameColumn old new) := hlower
  have hnamed := (alterTable_keeps hparsed halter).named hsettled.toPlain.named
  have halters := renameColumn_alters hrename
  have hplain := plain_alters hwritten halters hnamed hsettled.toPlain
  -- The metadata are refreshed behind the operation, and once more behind the last one.
  have honce := settled_refreshSchema hplain
  have htwice : (refreshSchema (refreshSchema renamed.schema)).indexes =
      renamed.schema.constraintIndexes ++ renamed.schema.manualIndexes := by
    rw [indexes_refreshSchema honce.toPlain, ← honce.indexes, indexes_refreshSchema hplain]
  have hnames : (refreshSchema (refreshSchema renamed.schema)).columns.map ColumnDef.name =
      renamed.schema.columns.map ColumnDef.name :=
    (names_refreshSchema _).trans (names_refreshSchema _)
  cases halters with
  | @renameColumn _ _ index hnew hindex =>
    rw [columnIndex_eq_positionOf] at hnew hindex
    refine ⟨table, _, hlookup, AList.lookup_insert _, rfl, rfl, rfl, ⟨⟨index, hindex, ?_⟩, hnew⟩,
      rfl, ?_, ?_, ?_⟩
    · refine hnames.trans ?_
      exact names_modifyColumn_name table.schema index _ new fun _ => rfl
    · refine htwice.trans (congrArg _ ?_)
      show List.filter _ (table.schema.indexes.map _) = _
      rw [List.filter_map]
      rfl
    · rw [show (refreshConstraintMetadata H (refreshConstraintMetadata H _)).schema.columns.map
        ColumnDef.name = _ from hnames]
      exact hplain.distinct
    · intro name hother
      rw [AList.lookup_insert_ne hother, alterOthers, renameInOthers, lookup_mapValues]
      congr 1
      funext other
      rw [if_neg hother]
      rfl

/-- A key of the catalog is found under its own name alone, ignoring case. -/
theorem eq_of_eqIgnoreAsciiCase (hlower : tables.Lowercase) {name other : String}
    {found found' : Table} (hname : tables.lookup name = some found)
    (hother : tables.lookup other = some found') (h : eqIgnoreAsciiCase name other = true) :
    name = other := by
  have hkey : ∀ {key : String} {entry : Table}, tables.lookup key = some entry → Lower key := by
    intro key entry hentry
    refine hlower key ?_
    rw [← AList.mem_keys, ← AList.lookup_isSome, hentry]
    rfl
  exact (hkey hname).eq (hkey hother) h

/-- The columns of the other tables stand where they stood. -/
theorem Renamed.positions_other (h : Renamed H tableName old new tables tables' table table')
    {name : String} (hname : name ≠ tableName) (columns : List String) :
    tables'.positions name columns = tables.positions name columns := by
  rw [Tables.positions, Tables.positions, h.others name hname, Option.map_map]
  congr 1
  funext other
  refine positions_of_names ?_ columns
  dsimp only
  split_ifs
  · exact names_refreshSchema _
  · rfl

/-- What refers to the table under the renamed names. -/
theorem Renamed.positions_self (h : Renamed H tableName old new tables tables' table table')
    {columns : List String} (hcolumns : ∀ column ∈ columns, table.schema.HasColumn column) :
    tables'.positions tableName (columns.map (renameName old new)) =
      tables.positions tableName columns := by
  rw [Tables.positions, Tables.positions, h.before, h.after, Option.map_some, Option.map_some,
    positions_renameName h.columns hcolumns]

/-- **What a foreign key refers to**, followed to the renamed column, stands where it stood. -/
theorem Renamed.positions_referred (hstanding : tables.Standing)
    (h : Renamed H tableName old new tables tables' table table')
    {foreignKey : ForeignKeyConstraint} {parent : Table}
    (htarget : IsTarget tables foreignKey parent) :
    tables'.positions foreignKey.foreignTable
        (if eqIgnoreAsciiCase foreignKey.foreignTable tableName then
          foreignKey.referredColumns.map (renameName old new)
        else foreignKey.referredColumns) =
      tables.positions foreignKey.foreignTable foreignKey.referredColumns := by
  have hparent := hstanding.rooted _ parent htarget.1
  have hreferred := htarget.hasColumn hparent.settled.toPlain.named
  have hlookup := htarget.1
  split_ifs with hsame
  · rw [eq_of_eqIgnoreAsciiCase hstanding.lowercase htarget.1 h.before hsame] at hlookup ⊢
    obtain rfl := Option.some.inj (h.before.symm.trans hlookup)
    exact h.positions_self hreferred
  · refine h.positions_other (fun heq => hsame ?_) _
    rw [heq]
    exact eqIgnoreAsciiCase_refl tableName

/-- A foreign key that does not refer to the old name need not follow. -/
theorem Renamed.positions_referred_of_not_old (hstanding : tables.Standing)
    (h : Renamed H tableName old new tables tables' table table')
    {foreignKey : ForeignKeyConstraint} {parent : Table}
    (htarget : IsTarget tables foreignKey parent)
    (hnot : refersTo tableName old (.foreignKey foreignKey) = false) :
    tables'.positions foreignKey.foreignTable foreignKey.referredColumns =
      tables.positions foreignKey.foreignTable foreignKey.referredColumns := by
  have hfollowed := h.positions_referred hstanding htarget
  split_ifs at hfollowed with hsame
  · rw [refersTo, hsame, Bool.true_and, List.any_eq_false] at hnot
    have hkept : foreignKey.referredColumns.map (renameName old new) =
        foreignKey.referredColumns :=
      (List.map_congr_left fun name hmem => if_neg (hnot name hmem)).trans (List.map_id _)
    rwa [hkept] at hfollowed
  · exact hfollowed

/-- **The constraints of the table** are over the same positions. -/
theorem Renamed.constrains {checks : Expr → Expr → Prop} (hstanding : tables.Standing)
    (h : Renamed H tableName old new tables tables' table table')
    (hchecks : ∀ expr ∈ table.schema.checks, checks expr (renameExpr old new expr)) :
    List.Forall₂ (Constrains checks tables tables' table.schema table'.schema)
      table.schema.constraints table'.schema.constraints := by
  obtain ⟨hsettled, hname⟩ := hstanding.rooted _ table h.before
  rw [h.constraints, List.forall₂_map_right_iff, List.forall₂_same]
  intro constraint hmem
  have hcolumns := hsettled.toPlain.named.constraints constraint hmem
  cases constraint with
  | primaryKey name columns => exact .primaryKey (positions_renameName h.columns hcolumns)
  | unique name columns => exact .unique (positions_renameName h.columns hcolumns)
  | check name expr => exact .check (hchecks expr (mem_checks.mpr ⟨name, hmem⟩))
  | foreignKey foreignKey =>
    refine .foreignKey (positions_renameName h.columns hcolumns) ?_
    obtain ⟨parent, htarget⟩ := hstanding.targets _ table h.before foreignKey hmem
    rw [hname]
    exact h.positions_referred hstanding htarget

/-- **The indexes of the table** are over the same positions. -/
theorem Renamed.sameIndexes (hstanding : tables.Standing)
    (h : Renamed H tableName old new tables tables' table table') :
    List.Forall₂ (SameIndex table.schema table'.schema) table.schema.indexes
      table'.schema.indexes := by
  obtain ⟨hsettled, -⟩ := hstanding.rooted _ table h.before
  rw [h.indexes, hsettled.indexes]
  refine List.rel_append ?_ ?_
  · rw [TableSchema.constraintIndexes, TableSchema.constraintIndexes]
    have hconstrains : List.Forall₂ (Constrains (fun _ _ => True) tables tables' table.schema
        table'.schema) table.schema.constraints table'.schema.constraints :=
      h.constrains hstanding fun _ _ => trivial
    refine List.rel_filterMap ?_ hconstrains
    intro constraint constraint' hconstrains
    cases hconstrains with
    | primaryKey hpositions => exact .some ⟨rfl, rfl, hpositions⟩
    | unique hpositions => exact .some ⟨rfl, rfl, hpositions⟩
    | check _ => exact .none
    | foreignKey hpositions _ => exact .some ⟨rfl, rfl, hpositions⟩
  · rw [List.forall₂_map_right_iff, List.forall₂_same]
    intro index hmem
    have hcolumns := hsettled.toPlain.named.indexes index (List.mem_of_mem_filter hmem)
    exact ⟨rfl, rfl, positions_renameName h.columns hcolumns⟩

/-- **The table itself**: keys, indexes and foreign keys stay where they were. -/
theorem Renamed.keeps {checks : Expr → Expr → Prop} (hstanding : tables.Standing)
    (h : Renamed H tableName old new tables tables' table table')
    (hchecks : ∀ expr ∈ table.schema.checks, checks expr (renameExpr old new expr)) :
    KeepsPositions checks tables tables' table table' :=
  ⟨h.rows, h.rowIds, h.constrains hstanding hchecks, h.sameIndexes hstanding⟩

/-- **Another table**: its foreign keys follow, the rest is as it was. -/
theorem Renamed.keepsOther (hstanding : tables.Standing)
    (h : Renamed H tableName old new tables tables' table table') {name : String}
    (hname : name ≠ tableName) :
    Option.Rel (KeepsPositions (fun expr expr' => expr' = expr) tables tables')
      (tables.lookup name) (tables'.lookup name) := by
  rw [h.others name hname]
  cases hlookup : tables.lookup name with
  | none => exact .none
  | some other =>
    refine .some ?_
    have hsettled := (hstanding.rooted name other hlookup).settled
    have htargets := hstanding.targets name other hlookup
    dsimp only
    split_ifs with hany
    · have hkept := keptBut_renameReferred hsettled H tableName old new
      have hnames := names_of_shapes hkept.columns
      refine ⟨rfl, rfl, ?_, ?_⟩
      · show List.Forall₂ _ other.schema.constraints
          (other.schema.constraints.map (renameReferred tableName old new))
        rw [List.forall₂_map_right_iff, List.forall₂_same]
        intro constraint hmem
        cases constraint with
        | primaryKey name columns => exact .primaryKey (positions_of_names hnames columns)
        | unique name columns => exact .unique (positions_of_names hnames columns)
        | check name expr => exact .check rfl
        | foreignKey foreignKey =>
          obtain ⟨parent, htarget⟩ := htargets foreignKey hmem
          have hfollowed := h.positions_referred hstanding htarget
          rw [renameReferred]
          split_ifs at hfollowed ⊢ with hsame
          · exact .foreignKey (positions_of_names hnames foreignKey.columns) hfollowed
          · exact .foreignKey (positions_of_names hnames foreignKey.columns) hfollowed
      · rw [hkept.indexes, List.forall₂_same]
        exact fun index _ => ⟨rfl, rfl, positions_of_names hnames index.columns⟩
    · refine ⟨rfl, rfl, ?_, List.forall₂_same.mpr fun index _ => ⟨rfl, rfl, rfl⟩⟩
      rw [List.forall₂_same]
      intro constraint hmem
      cases constraint with
      | primaryKey name columns => exact .primaryKey rfl
      | unique name columns => exact .unique rfl
      | check name expr => exact .check rfl
      | foreignKey foreignKey =>
        obtain ⟨parent, htarget⟩ := htargets foreignKey hmem
        rw [Bool.not_eq_true, List.any_eq_false] at hany
        have hnot := hany (.foreignKey foreignKey) hmem
        rw [Bool.not_eq_true] at hnot
        exact .foreignKey rfl (h.positions_referred_of_not_old hstanding htarget hnot)

end Statement

/-! ## Scans -/

section Scans

variable {H : Host} {tables tables' : Tables} {table table' : Table} {inserted : Nat}
  {tableName old new : String}

/-- A name that is neither the old nor the new one means the same column. -/
theorem eqIgnoreAsciiCase_renameName {name : String} (hold : eqIgnoreAsciiCase name old = false)
    (hnew : eqIgnoreAsciiCase name new = false) (column : String) :
    eqIgnoreAsciiCase name (renameName old new column) = eqIgnoreAsciiCase name column := by
  rw [renameName]
  split_ifs with hcolumn
  · rw [hnew, eq_comm, ← Bool.not_eq_true]
    intro hname
    rw [eqIgnoreAsciiCase_trans hname hcolumn] at hold
    cases hold
  · rfl

/-- The key of a row over columns that stand at the same positions. -/
theorem indexKey_map {f : String → String} {schema schema' : TableSchema} {columns : List String}
    (h : ∀ column ∈ columns, schema'.columnIndex (f column) = schema.columnIndex column)
    (row : Row) : schema'.indexKey row (columns.map f) = schema.indexKey row columns := by
  rw [TableSchema.indexKey, TableSchema.indexKey, List.mapM_map]
  induction columns with
  | nil => rfl
  | cons column columns ih =>
    rw [List.forall_mem_cons] at h
    rw [List.mapM_cons, List.mapM_cons, ih h.2, Function.comp_apply, h.1]

theorem columns_constraintIndex (schemaName : String) (constraint : TableConstraint) :
    (constraintIndex schemaName (renameInConstraint schemaName old new constraint)).map
        IndexDef.columns =
      (constraintIndex schemaName constraint).map fun definition =>
        definition.columns.map (renameName old new) := by
  cases constraint <;> rfl

/-- The index of a constraint keeps its name when that is not made of the renamed column. -/
theorem constraintIndex_rename (schemaName : String) {constraint : TableConstraint}
    (h : namesIndex old constraint = false) :
    constraintIndex schemaName (renameInConstraint schemaName old new constraint) =
      (constraintIndex schemaName constraint).map
        (IndexDef.overColumns · (renameName old new)) := by
  have hkept : ∀ {names : List String}, (names.any fun name => eqIgnoreAsciiCase name old) = false →
      names.map (renameName old new) = names := by
    intro names hnames
    rw [List.any_eq_false] at hnames
    exact (List.map_congr_left fun name hmem => if_neg (hnames name hmem)).trans (List.map_id _)
  cases constraint with
  | primaryKey name columns => rfl
  | check name expr => rfl
  | unique name columns =>
    cases name with
    | some name => rfl
    | none =>
      rw [namesIndex] at h
      simp only [renameInConstraint, constraintIndex, Option.map_some, IndexDef.overColumns,
        hkept h]
  | foreignKey foreignKey =>
    cases hname : foreignKey.name with
    | some name =>
      simp only [renameInConstraint, constraintIndex, hname, Option.map_some,
        IndexDef.overColumns, Option.getD_some]
    | none =>
      rw [namesIndex, hname, Option.isNone_none, Bool.true_and] at h
      simp only [renameInConstraint, constraintIndex, hname, Option.map_some,
        IndexDef.overColumns, hkept h]

/-- An index of the renamed table is over the columns of one that was there. -/
theorem Renamed.exists_index (hstanding : tables.Standing)
    (h : Renamed H tableName old new tables tables' table table') {definition : IndexDef}
    (hmem : definition ∈ table'.schema.indexes) :
    ∃ before ∈ table.schema.indexes,
      definition.columns = before.columns.map (renameName old new) := by
  obtain ⟨hsettled, -⟩ := hstanding.rooted _ table h.before
  rw [hsettled.indexes]
  rw [h.indexes] at hmem
  rcases List.mem_append.mp hmem with hmem | hmem
  · rw [TableSchema.constraintIndexes, h.constraints, h.name, List.mem_filterMap] at hmem
    obtain ⟨constraint', hmem, hindex⟩ := hmem
    obtain ⟨constraint, hconstraint, rfl⟩ := List.mem_map.mp hmem
    have hcolumns := @columns_constraintIndex old new table.schema.name constraint
    rw [hindex, Option.map_some] at hcolumns
    obtain ⟨before, hbefore, heq⟩ := Option.map_eq_some_iff.mp hcolumns.symm
    exact ⟨before, List.mem_append_left _ (List.mem_filterMap.mpr ⟨_, hconstraint, hbefore⟩),
      heq.symm⟩
  · obtain ⟨before, hbefore, rfl⟩ := List.mem_map.mp hmem
    exact ⟨before, List.mem_append_right _ hbefore, rfl⟩

/-- **The indexes of the renamed table** under their names of before. -/
theorem Renamed.reindexed (hstanding : tables.Standing)
    (h : Renamed H tableName old new tables tables' table table')
    (hnames : ∀ constraint ∈ table.schema.constraints, namesIndex old constraint = false) :
    table.Reindexed (renameName old new) table' := by
  obtain ⟨hsettled, -⟩ := hstanding.rooted _ table h.before
  refine ⟨h.name, h.rows, ?_, fun definition hmem row => ?_⟩
  · rw [h.indexes, hsettled.indexes, List.map_append, TableSchema.constraintIndexes,
      TableSchema.constraintIndexes, h.constraints, h.name, List.filterMap_map,
      List.map_filterMap]
    congr 1
    exact List.filterMap_congr fun constraint hmem =>
      constraintIndex_rename table.schema.name (hnames constraint hmem)
  · have hcolumns := hsettled.toPlain.named.indexes definition hmem
    exact indexKey_map (fun column hcolumn =>
      columnIndex_renameName h.columns (hcolumns column hcolumn)) row

/-- A table whose foreign keys follow has the indexes that it had. -/
theorem reindexed_renameReferred (hsettled : table.Settled) :
    table.Reindexed id (refreshConstraintMetadata H { table with
      schema := table.schema.renameReferred tableName old new }) := by
  have hkept := keptBut_renameReferred hsettled H tableName old new
  have hnames := names_of_shapes hkept.columns
  refine ⟨rfl, rfl, ?_, fun definition _ row => ?_⟩
  · rw [hkept.indexes]
    simp
  · refine indexKey_map (fun column _ => ?_) row
    rw [id_eq, columnIndex_eq_positionOf, columnIndex_eq_positionOf, hnames]

theorem candidateRowIds_of_vacuous (hbacked : table.Backed) {e : Expr}
    (h : ∀ definition ∈ table.schema.indexes,
      (indexProbe (collectIndexPredicates e) definition.columns).isVacuous = true) :
    table.candidateRowIds H (some e) = none := by
  have hvalues : ∀ index ∈ table.indexValues H,
      (indexProbe (collectIndexPredicates e) index.definition.columns).isVacuous = true := by
    intro index hmem
    obtain ⟨name, hlookup⟩ := Table.mem_indexValues hmem
    exact h _ (hbacked.mem_indexes hlookup)
  rw [Table.candidateRowIds]
  generalize table.indexValues H = indexes at hvalues
  induction indexes with
  | nil => rfl
  | cons index indexes ih =>
    rw [List.forall_mem_cons] at hvalues
    rw [List.foldl_cons, Table.betterIndex, if_pos hvalues.1]
    exact ih hvalues.2

theorem heads_relationFromTable {heading : Heading} {visibleName : String}
    {selection : Option Expr} (hbefore : boundColumns visibleName table.schema = heading.before)
    (hafter : boundColumns visibleName table'.schema = heading.after)
    (hrows : table'.rows = table.rows)
    (hcandidates : ∀ position, table'.isCandidate (table'.candidateRowIds H selection) position =
      table.isCandidate (table.candidateRowIds H selection) position) :
    Heads heading (relationFromTable H table visibleName selection)
      (relationFromTable H table' visibleName selection) := by
  refine ⟨hbefore, hafter, ?_⟩
  simp only [relationFromTable, hrows, hcandidates]

theorem boundColumns_eq_map (visibleName : String) (schema : TableSchema) :
    boundColumns visibleName schema =
      (schema.columns.map ColumnDef.name).map fun name => ⟨visibleName, name⟩ :=
  List.map_map.symm

/-- **A scan of the renamed table** that keeps its rows. -/
theorem Renamed.isCandidate (hstanding : tables.Standing)
    (h : Renamed H tableName old new tables tables' table table')
    (hs : table.Sound H inserted) (hs' : table'.Sound H inserted) {e : Expr}
    (hkeeps : Renaming.keepsScan ⟨tableName, old, new⟩ table e = true) (position : Nat) :
    table'.isCandidate (table'.candidateRowIds H (some e)) position =
      table.isCandidate (table.candidateRowIds H (some e)) position := by
  rw [Renaming.keepsScan, Bool.and_eq_true, List.all_eq_true, Bool.or_eq_true, List.all_eq_true,
    List.all_eq_true] at hkeeps
  obtain ⟨hpredicates, hprobes⟩ := hkeeps
  have hsame : ∀ column, ∀ predicate ∈ collectIndexPredicates e,
      eqIgnoreAsciiCase predicate.column (renameName old new column) =
        eqIgnoreAsciiCase predicate.column column := by
    intro column predicate hmem
    have hnot := hpredicates predicate hmem
    rw [Bool.and_eq_true, Bool.not_eq_true', Bool.not_eq_true'] at hnot
    exact eqIgnoreAsciiCase_renameName hnot.1 hnot.2 column
  rcases hprobes with hvacuous | hnames
  · rw [candidateRowIds_of_vacuous hs.backed hvacuous, candidateRowIds_of_vacuous hs'.backed]
    · rfl
    · intro definition hmem
      obtain ⟨before, hbefore, hcolumns⟩ := h.exists_index hstanding hmem
      rw [hcolumns, indexProbe_map fun column _ => hsame column]
      exact hvacuous before hbefore
  · have hreindexed := h.reindexed hstanding fun constraint hmem => by
      simpa using hnames constraint hmem
    refine hreindexed.isCandidate hs hs' (fun scanned hscanned => ?_) position
    obtain rfl := Option.some.inj hscanned
    exact fun definition _ column _ => hsame column

/-- **The scans of the catalog**: those that are unmoved return the rows that they did. -/
theorem Renamed.scansUnmoved (hstanding : tables.Standing)
    (h : Renamed H tableName old new tables tables' table table')
    (hs : tables.Sound H inserted) (hs' : tables'.Sound H inserted) :
    ScansUnmoved H ⟨tableName, old, new⟩ tables tables' := by
  intro name selection hunmoved visibleName
  by_cases hname : name = tableName
  · subst hname
    rw [h.before, h.after]
    have hdistinct := (hstanding.rooted _ table h.before).settled.toPlain.distinct
    refine .some (heads_relationFromTable ?_ ?_ h.rows fun position => ?_)
    · simp only [tableHeading, h.before, Heading.before, List.map_map]
      rfl
    · rw [boundColumns_eq_map, names_of_newName h.columns hdistinct]
      simp only [tableHeading, h.before, Heading.after, List.map_map, if_true]
      rfl
    · cases selection with
      | none => rfl
      | some e =>
        simp only [scanUnmoved, h.before, bne_self_eq_false, Bool.false_or] at hunmoved
        exact h.isCandidate hstanding (hs _ _ h.before) (hs' _ _ h.after) hunmoved position
  · have hafter := h.others name hname
    cases hlookup : tables.lookup name with
    | none =>
      rw [hlookup, Option.map_none] at hafter
      rw [hafter]
      exact .none
    | some other =>
      rw [hlookup, Option.map_some] at hafter
      rw [hafter]
      have hsettled := (hstanding.rooted name other hlookup).settled
      have hsound := hs _ _ hlookup
      have hsound' := hs' _ _ hafter
      have hreindexed : other.Reindexed id (if other.schema.constraints.any
          (refersTo tableName old) then refreshConstraintMetadata H { other with
            schema := other.schema.renameReferred tableName old new } else other) := by
        split_ifs
        · exact reindexed_renameReferred hsettled
        · exact (Table.SameView.refl other).reindexed
      have hnames : (if other.schema.constraints.any
          (refersTo tableName old) then refreshConstraintMetadata H { other with
            schema := other.schema.renameReferred tableName old new } else other).schema.columns.map
              ColumnDef.name = other.schema.columns.map ColumnDef.name := by
        split_ifs
        · exact names_refreshSchema _
        · rfl
      refine .some (heads_relationFromTable ?_ ?_ hreindexed.rows fun position => ?_)
      · simp only [tableHeading, hlookup, Heading.before, List.map_map]
        rfl
      · rw [boundColumns_eq_map, hnames]
        simp only [tableHeading, hlookup, Heading.after, List.map_map, if_neg hname]
        rfl
      · exact hreindexed.isCandidate hsound hsound' (fun e _ => namesAlike_id other _) position

end Scans

/-! ## Verdicts -/

/-- What a CHECK expression says of a row of a table: a truth value, or how it fails. -/
def verdict (H : Host) (tables : Tables) (schema : TableSchema) (expr : Expr) (row : Row) :
    Except Bool SqlTruth :=
  untexted ((evalExpr H tables expr (boundColumns schema.name schema) row none ∅).map Value.truth)

/-- Two CHECK expressions with the same verdict on every row. -/
def SameVerdicts (H : Host) (tables tables' : Tables) (schema schema' : TableSchema)
    (expr expr' : Expr) : Prop :=
  ∀ row, verdict H tables' schema' expr' row = verdict H tables schema expr row

/-- Evaluating a CHECK expression, on whatever row, arrives at no name and at no subquery that
the renaming may give another meaning: at no name like the new one, and at no subquery that is
not unmoved. -/
def Unmixed (H : Host) (tables : Tables) (schema : TableSchema) (r : Renaming) (expr : Expr) :
    Prop :=
  ∀ row, mixes H tables (boundColumns schema.name schema) row r.new
    (fun query => !queryUnmoved tables r ∅ query) false expr = false

/-- A CHECK expression refused every row on which its evaluation arrives at the old name in the
operand of `IN (subquery)`. -/
def LosesNothing (H : Host) (tables : Tables) (schema : TableSchema) (old : String)
    (expr : Expr) : Prop :=
  ∀ row, loses H tables (boundColumns schema.name schema) row old false expr = true →
    verdict H tables schema expr row = .error false

section Verdicts

variable {H : Host} {tables tables' : Tables} {table table' : Table} {inserted : Nat}
  {tableName old new : String}

/-- **A subquery that is unmoved** has the answer that it had. -/
theorem answer_of_unmoved {r : Renaming} (hscans : ScansUnmoved H r tables tables')
    {query : Query} (h : queryUnmoved tables r ∅ query = true) :
    answer (executeQuery H tables' query ∅) = answer (executeQuery H tables query ∅) := by
  have hboth := executeQuery_unmoved hscans query ctesHead_empty h
  generalize executeQuery H tables query ∅ = x at hboth ⊢
  generalize executeQuery H tables' query ∅ = x' at hboth ⊢
  cases hboth with
  | error fault => rfl
  | ok hheads =>
    simp only [answer, Except.map, hheads.before, hheads.after, hheads.rows,
      Heading.length_before, Heading.length_after]

/-- **The verdict of a renamed CHECK expression.** -/
theorem Renamed.verdict_renameExpr (hstanding : tables.Standing)
    (h : Renamed H tableName old new tables tables' table table')
    (hs : tables.Sound H inserted) (hs' : tables'.Sound H inserted) {expr : Expr}
    (hunmixed : Unmixed H tables table.schema ⟨tableName, old, new⟩ expr) (row : Row) :
    verdict H tables' table'.schema (renameExpr old new expr) row =
      if loses H tables (boundColumns table.schema.name table.schema) row old false expr then
        .error false
      else verdict H tables table.schema expr row := by
  have hdistinct := (hstanding.rooted _ table h.before).settled.toPlain.distinct
  have hrenames := renames_boundColumns h.columns hdistinct h.distinct table.schema.name
  have hscans := h.scansUnmoved hstanding hs hs'
  have hshown : untexted (evalExpr H tables' (shown old new false expr)
      (boundColumns table.schema.name table'.schema) row none ∅) = _ :=
    evalExpr_shown hrenames (fun query hmoves => answer_of_unmoved hscans (by simpa using hmoves))
      false expr (hunmixed row)
  rw [shown, if_neg Bool.false_ne_true] at hshown
  rw [verdict, verdict, h.name, untexted_map, untexted_map, hshown]
  split_ifs <;> rfl

theorem Renamed.sameVerdicts_iff (hstanding : tables.Standing)
    (h : Renamed H tableName old new tables tables' table table')
    (hs : tables.Sound H inserted) (hs' : tables'.Sound H inserted) {expr : Expr}
    (hunmixed : Unmixed H tables table.schema ⟨tableName, old, new⟩ expr) :
    SameVerdicts H tables tables' table.schema table'.schema expr (renameExpr old new expr) ↔
      LosesNothing H tables table.schema old expr := by
  unfold SameVerdicts LosesNothing
  refine forall_congr' fun row => ?_
  rw [h.verdict_renameExpr hstanding hs hs' hunmixed]
  split_ifs with hloses
  · rw [eq_comm]
    exact ⟨fun hsame _ => hsame, fun hlost => hlost hloses⟩
  · exact ⟨fun _ hnot => absurd hnot hloses, fun _ => rfl⟩

/-- The CHECK expressions of the table keep their verdicts when none of them loses anything. -/
theorem Renamed.keeps_sameVerdicts_iff (hstanding : tables.Standing)
    (h : Renamed H tableName old new tables tables' table table')
    (hs : tables.Sound H inserted) (hs' : tables'.Sound H inserted)
    (hunmixed : ∀ expr ∈ table.schema.checks,
      Unmixed H tables table.schema ⟨tableName, old, new⟩ expr) :
    KeepsPositions (SameVerdicts H tables tables' table.schema table'.schema) tables tables'
      table table' ↔
      ∀ expr ∈ table.schema.checks, LosesNothing H tables table.schema old expr := by
  constructor
  · intro hkept expr hexpr
    obtain ⟨name, hmem⟩ := mem_checks.mp hexpr
    have hconstrains := hkept.constraints
    rw [h.constraints, List.forall₂_map_right_iff, List.forall₂_same] at hconstrains
    cases hconstrains _ hmem with
    | check hsame => exact (h.sameVerdicts_iff hstanding hs hs' (hunmixed expr hexpr)).mp hsame
  · intro hlost
    refine h.keeps hstanding fun expr hexpr => ?_
    exact (h.sameVerdicts_iff hstanding hs hs' (hunmixed expr hexpr)).mpr (hlost expr hexpr)

/-- **What RENAME COLUMN keeps**: the rows, and the positions of every key, index and foreign
key, in its table and in every other one.  Where the indexes are in order and no CHECK
expression of the table, on any row, comes to something that the renaming may give another
meaning, the expressions keep their verdicts exactly when none arrives at the old name in the
operand of `IN (subquery)`, unless it was refused already. -/
theorem rename_keeps_meaning_iff {result : ExecutionResult} (hbuilt : Built H tables)
    (hwritten : Statement.Written (.alterTable tableName [.renameColumn old new]))
    (h : executeCatalog H tables (.alterTable tableName [.renameColumn old new]) =
      .ok (result, tables')) :
    ∃ table table', tables.lookup (toAsciiLowercase tableName) = some table ∧
      tables'.lookup (toAsciiLowercase tableName) = some table' ∧
      KeepsPositions (fun expr expr' => expr' = renameExpr old new expr) tables tables' table
        table' ∧
      (∀ name, name ≠ toAsciiLowercase tableName →
        Option.Rel (KeepsPositions (fun expr expr' => expr' = expr) tables tables')
          (tables.lookup name) (tables'.lookup name)) ∧
      (∀ inserted, inserted < maxRowId → tables.Sound H inserted →
        (∀ expr ∈ table.schema.checks,
          Unmixed H tables table.schema ⟨toAsciiLowercase tableName, old, new⟩ expr) →
        (KeepsPositions (SameVerdicts H tables tables' table.schema table'.schema) tables
            tables' table table' ↔
          ∀ expr ∈ table.schema.checks, LosesNothing H tables table.schema old expr)) := by
  have hstanding := standing_of_built hbuilt
  have hlower : Lower new := hwritten _ (List.mem_singleton_self _)
  obtain ⟨table, table', hrenamed⟩ := renamed_of_execute hstanding hlower h
  refine ⟨table, table', hrenamed.before, hrenamed.after, ?_, ?_, ?_⟩
  · exact hrenamed.keeps hstanding fun _ _ => rfl
  · exact fun name hname => hrenamed.keepsOther hstanding hname
  · intro inserted hbound hs hunmixed
    have hparsed : Statement.Parsed (.alterTable tableName [.renameColumn old new]) := by
      intro operation hmem
      obtain rfl := List.mem_singleton.mp hmem
      exact trivial
    have hs' : tables'.Sound H inserted :=
      sound_step hparsed (executeCatalog_ok h).1 hbound hs
    exact hrenamed.keeps_sameVerdicts_iff hstanding hs hs' hunmixed

/-- Constraints that are kept have their CHECK expressions in the same order. -/
theorem KeepsPositions.verdicts (h : KeepsPositions
      (SameVerdicts H tables tables' table.schema table'.schema) tables tables' table table')
    (row : Row) :
    table'.schema.checks.map (fun expr => verdict H tables' table'.schema expr row) =
      table.schema.checks.map fun expr => verdict H tables table.schema expr row := by
  have hchecks : List.Forall₂ (SameVerdicts H tables tables' table.schema table'.schema)
      table.schema.checks table'.schema.checks := by
    refine List.rel_filterMap ?_ h.constraints
    intro constraint constraint' hconstrains
    cases hconstrains with
    | check hsame => exact .some hsame
    | _ => exact .none
  generalize table.schema.checks = checks at hchecks
  generalize table'.schema.checks = checks' at hchecks
  induction hchecks with
  | nil => rfl
  | cons hsame _ ih => rw [List.map_cons, List.map_cons, hsame row, ih]

end Verdicts

/-! ## One column, two CHECK constraints -/

/-- `SELECT x FROM u`. -/
def selectX : Query :=
  { ctes := [], distinct := false, projection := [.expr (.column none "x") none]
    source := some (.table "u" none), joins := [], selection := none, groupBy := []
    having := none, orderBy := [], limit := none }

/-- `CREATE TABLE u (x INTEGER)`, `INSERT INTO u VALUES (1)` and
`CREATE TABLE t (a INTEGER, CHECK (…))`. -/
def createWithCheck (check : Expr) : List Statement :=
  [.createTable "u" [plainColumn "x" .integer] [] false,
    .insert "u" none (.values [[.literal (.integer 1)]]) [],
    .createTable "t" [plainColumn "a" .integer] [.check none check] false]

theorem written_createWithCheck (check : Expr) :
    ∀ statement ∈ createWithCheck check, statement.Parsed ∧ statement.Written := by
  intro statement hmem
  simp only [createWithCheck, List.mem_cons, List.not_mem_nil, or_false] at hmem
  rcases hmem with rfl | rfl | rfl
  · refine ⟨trivial, ?_, ?_, ?_⟩
    · intro column hcolumn
      obtain rfl := List.mem_singleton.mp hcolumn
      show toAsciiLowercase "x" = "x"
      decide
    · intro constraint hconstraint
      cases hconstraint
    · intro column hcolumn hflag
      obtain rfl := List.mem_singleton.mp hcolumn
      simp [plainColumn] at hflag
  · exact ⟨trivial, trivial⟩
  · refine ⟨trivial, ?_, ?_, ?_⟩
    · intro column hcolumn
      obtain rfl := List.mem_singleton.mp hcolumn
      show toAsciiLowercase "a" = "a"
      decide
    · intro constraint hconstraint name hname
      obtain rfl := List.mem_singleton.mp hconstraint
      cases hname
    · intro column hcolumn hflag
      obtain rfl := List.mem_singleton.mp hcolumn
      simp [plainColumn] at hflag

theorem built_createWithCheck {check : Expr} {state : Tables × Nat}
    (h : runStatements Host.reference (∅, 0) (createWithCheck check) = .ok state) :
    Built Host.reference state.1 :=
  built_runStatements Built.empty (written_createWithCheck check) h

/-- The indexes of the catalog are in order. -/
theorem sound_createWithCheck {check : Expr} {state : Tables × Nat}
    (h : runStatements Host.reference (∅, 0) (createWithCheck check) = .ok state)
    (hbound : state.2 < maxRowId) : state.1.Sound Host.reference state.2 := by
  refine sound_of_reachable (reachable_runStatements Reachable.empty ?_ h) hbound
  exact fun statement hmem => (written_createWithCheck check statement hmem).1

theorem lookup_created {H : Host} {tables tables' : Tables} {tableName : String}
    {columns : List ColumnDef} {constraints : List TableConstraint} {result : ExecutionResult}
    (h : executeStatement H tables (.createTable tableName columns constraints false) =
      .ok (result, tables')) :
    ∃ table, tables'.lookup (toAsciiLowercase tableName) = some table ∧
      table.schema.constraints = constraints := by
  change executeCreateTable H tables tableName columns constraints false = _ at h
  unfold executeCreateTable at h
  simp only at h
  split at h
  · simp [refuse] at h
  · split at h
    · simp [refuse] at h
    · obtain ⟨⟨flagged, primaryKeys⟩, -, h⟩ := Result.bind_eq_ok.mp h
      split at h
      · simp [refuse] at h
      · obtain ⟨-, rfl⟩ := Prod.mk.inj (Except.ok.inj h)
        exact ⟨_, AList.lookup_insert _, rfl⟩

/-- `ALTER TABLE t RENAME COLUMN a TO b`. -/
def renameA : Statement := .alterTable "t" [.renameColumn "a" "b"]

theorem written_renameA : renameA.Written := by
  intro operation hmem
  obtain rfl := List.mem_singleton.mp hmem
  show toAsciiLowercase "b" = "b"
  decide

/-- `a > 0 AND 1 IN (SELECT x FROM u)`. -/
def positiveCheck : Expr :=
  .binary (.binary (.column none "a") (.compare .greaterThan) (.literal (.integer 0))) .and
    (.inSubquery (.literal (.integer 1)) selectX false)

/-- `a IN (SELECT x FROM u)`. -/
def operandCheck : Expr := .inSubquery (.column none "a") selectX false

/-- The verdicts of the CHECK expressions of a table on a row. -/
def verdictsOf (tables : Tables) (name : String) (row : Row) :
    Option (List (Except Bool SqlTruth)) :=
  (tables.lookup name).map fun table =>
    table.schema.checks.map fun expr => verdict Host.reference tables table.schema expr row

/-- **A CHECK over `IN (subquery)`** that was true of a row and is refused after RENAME COLUMN:
the operand still names the old column. -/
theorem operand_is_lost : ∃ tables tables' table table' result, Built Host.reference tables ∧
    executeCatalog Host.reference tables renameA = .ok (result, tables') ∧
    tables.lookup "t" = some table ∧ tables'.lookup "t" = some table' ∧
    verdictsOf tables "t" [.integer 1] = some [.ok .true] ∧
    verdictsOf tables' "t" [.integer 1] = some [.error false] ∧
    ¬ KeepsPositions (SameVerdicts Host.reference tables tables' table.schema table'.schema)
      tables tables' table table' := by
  have hrun : ((runStatements Host.reference (∅, 0) (createWithCheck operandCheck)).bind
      fun state =>
      (executeCatalog Host.reference state.1 renameA).map fun done =>
        (verdictsOf state.1 "t" [.integer 1], verdictsOf done.2 "t" [.integer 1])).toOption =
      some (some [.ok .true], some [.error false]) := by
    decide +kernel
  obtain ⟨⟨tables, inserted⟩, hstatements, halter⟩ :=
    Result.bind_eq_ok.mp (Result.toOption_eq_some.mp hrun)
  obtain ⟨⟨result, tables'⟩, hexecute, hverdicts⟩ := Result.map_eq_ok.mp halter
  obtain ⟨hbefore, hafter⟩ := Prod.mk.inj hverdicts
  obtain ⟨table, htable, hchecks⟩ := Option.map_eq_some_iff.mp hbefore
  obtain ⟨table', htable', hchecks'⟩ := Option.map_eq_some_iff.mp hafter
  refine ⟨tables, tables', table, table', result, built_createWithCheck hstatements, hexecute,
    htable, htable', hbefore, hafter, fun hkept => ?_⟩
  have hsame := hkept.verdicts [.integer 1]
  rw [hchecks, hchecks'] at hsame
  cases hsame

/-- The CHECK expressions are those of the last statement. -/
theorem checks_createWithCheck {check : Expr} {state : Tables × Nat}
    (h : runStatements Host.reference (∅, 0) (createWithCheck check) = .ok state) :
    ∃ table, state.1.lookup "t" = some table ∧ table.schema.checks = [check] := by
  obtain ⟨⟨result, first⟩, -, h⟩ := Result.bind_eq_ok.mp h
  obtain ⟨⟨result', second⟩, -, h⟩ := Result.bind_eq_ok.mp h
  obtain ⟨⟨result'', third⟩, hcreate, h⟩ := Result.bind_eq_ok.mp h
  obtain rfl := Except.ok.inj h
  obtain ⟨table, hlookup, hconstraints⟩ := lookup_created (executeCatalog_ok hcreate).1
  refine ⟨table, hlookup, ?_⟩
  rw [TableSchema.checks, hconstraints]
  rfl

/-- A CHECK whose operand is not the renamed column keeps its verdicts. -/
theorem positive_check_kept : ∃ tables tables' table table',
    tables.lookup "t" = some table ∧ tables'.lookup "t" = some table' ∧
    table.schema.checks = [positiveCheck] ∧
    KeepsPositions (SameVerdicts Host.reference tables tables' table.schema table'.schema)
      tables tables' table table' := by
  have hrun : ((runStatements Host.reference (∅, 0) (createWithCheck positiveCheck)).bind
      fun state => (executeCatalog Host.reference state.1 renameA).map fun _ =>
        decide (state.2 < maxRowId)).toOption = some true := by
    decide +kernel
  obtain ⟨⟨tables, inserted⟩, hstatements, halter⟩ :=
    Result.bind_eq_ok.mp (Result.toOption_eq_some.mp hrun)
  obtain ⟨⟨result, tables'⟩, hexecute, hroom⟩ := Result.map_eq_ok.mp halter
  have hbound := of_decide_eq_true hroom
  obtain ⟨created, hcreated, hchecks⟩ := checks_createWithCheck hstatements
  obtain ⟨table, table', hlookup, hlookup', -, -, hiff⟩ :=
    rename_keeps_meaning_iff (built_createWithCheck hstatements) written_renameA hexecute
  have hname : toAsciiLowercase "t" = "t" := by decide
  rw [hname] at hlookup hlookup' hiff
  obtain rfl := Option.some.inj (hcreated.symm.trans hlookup)
  have hsound := sound_createWithCheck hstatements hbound
  refine ⟨tables, tables', created, table', hlookup, hlookup', hchecks,
    (hiff inserted hbound hsound ?_).mpr ?_⟩
  · intro expr hexpr row
    rw [hchecks, List.mem_singleton] at hexpr
    subst hexpr
    have hother : eqIgnoreAsciiCase "a" "b" = false := by decide
    have hunmoved : queryUnmoved tables ⟨"t", "a", "b"⟩ ∅ selectX = true := by
      refine queryUnmoved_of_reads selectX CtesFixed.empty fun read hread => ?_
      obtain rfl : read = ("u", none) := List.mem_singleton.mp hread
      decide
    simp [positiveCheck, mixes, arrives, hunmoved, hother]
  · intro expr hexpr row hloses
    rw [hchecks, List.mem_singleton] at hexpr
    subst hexpr
    simp [positiveCheck, loses, arrives, lostName] at hloses

end Sql
end RustyDB
