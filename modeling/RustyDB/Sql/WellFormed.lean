import Mathlib
import RustyDB.Sql.Keys

/-!
# Well-formed schemas

What a schema should promise: distinct column names, at most one PRIMARY KEY over columns
that are NOT NULL, and that constraints, indexes and CHECK expressions name columns of the
table.  CREATE TABLE and the operations of ALTER TABLE check different parts of it.

* `columnReferences` — the columns that an expression reads outside of its subqueries.
* `TableSchema.Sane`, `TableSchema.WellFormed` — the promise, before and after the flags
  of the PRIMARY KEY are set.
* `AlterOperation.Fits`, `Statement.Fits` — what an operation does not check.
* `alterTable_sane`, `wellFormed_step` — one operation, one statement.
* `wellFormed_of_guarded` — **schemas stay well-formed in every run whose statements
  fit.**
* `unknown_only_in_subqueries` — a CHECK of a well-formed schema reports an unknown column
  only when a subquery of it does.
-/

namespace RustyDB
namespace Sql

/-! ## The columns that an expression reads -/

mutual

/-- The columns that an expression reads outside of its subqueries. -/
def columnReferences : Expr → List (Option String × String)
  | .column qualifier name => [(qualifier, name)]
  | .binary left _ right => columnReferences left ++ columnReferences right
  | .unary _ expr => columnReferences expr
  | .isNull expr _ => columnReferences expr
  | .like expr pattern _ => columnReferences expr ++ columnReferences pattern
  | .inList expr list _ => columnReferences expr ++ columnReferencesOf list
  | .inSubquery expr _ _ => columnReferences expr
  | .aggregate _ (some expr) _ => columnReferences expr
  | _ => []

/-- The column references of a list of expressions. -/
def columnReferencesOf : List Expr → List (Option String × String)
  | [] => []
  | expr :: exprs => columnReferences expr ++ columnReferencesOf exprs

end

mutual

/-- The columns among them that `rename_expr` and `validate_expr_columns` do not reach. -/
def hiddenReferences : Expr → List (Option String × String)
  | .binary left _ right => hiddenReferences left ++ hiddenReferences right
  | .unary _ expr => hiddenReferences expr
  | .isNull expr _ => hiddenReferences expr
  | .like expr pattern _ => hiddenReferences expr ++ hiddenReferences pattern
  | .inList expr list _ => hiddenReferences expr ++ hiddenReferencesOf list
  | .inSubquery expr _ _ => columnReferences expr
  | .aggregate _ (some expr) _ => columnReferences expr
  | _ => []

/-- The references that a list of expressions hides. -/
def hiddenReferencesOf : List Expr → List (Option String × String)
  | [] => []
  | expr :: exprs => hiddenReferences expr ++ hiddenReferencesOf exprs

end

/-- The columns that a CHECK constraint reads. -/
def checkReferences : TableConstraint → List (Option String × String)
  | .check _ expr => columnReferences expr
  | _ => []

/-- The references that a CHECK hides. -/
def hiddenCheckReferences : TableConstraint → List (Option String × String)
  | .check _ expr => hiddenReferences expr
  | _ => []

/-- Names other than the renamed one stay. -/
theorem map_unrenamed {old new : String} {names : List (Option String × String)}
    (h : ∀ reference ∈ names, eqIgnoreAsciiCase reference.2 old = false) :
    names.map (fun reference => (reference.1, renameName old new reference.2)) = names := by
  refine (List.map_congr_left fun reference hmem => ?_).trans (List.map_id names)
  rw [renameName, h reference hmem]
  rfl

mutual

theorem columnReferences_renameExpr {old new : String} (expr : Expr)
    (h : ∀ reference ∈ hiddenReferences expr, eqIgnoreAsciiCase reference.2 old = false) :
    columnReferences (renameExpr old new expr) =
      (columnReferences expr).map fun reference =>
        (reference.1, renameName old new reference.2) := by
  cases expr with
  | column qualifier name => rfl
  | binary left op right =>
    simp only [hiddenReferences, List.forall_mem_append] at h
    simp only [renameExpr, columnReferences, List.map_append]
    rw [columnReferences_renameExpr left h.1, columnReferences_renameExpr right h.2]
  | unary op expr => exact columnReferences_renameExpr expr h
  | isNull expr negated => exact columnReferences_renameExpr expr h
  | like expr pattern negated =>
    simp only [hiddenReferences, List.forall_mem_append] at h
    simp only [renameExpr, columnReferences, List.map_append]
    rw [columnReferences_renameExpr expr h.1, columnReferences_renameExpr pattern h.2]
  | inList expr list negated =>
    simp only [hiddenReferences, List.forall_mem_append] at h
    simp only [renameExpr, columnReferences, List.map_append]
    rw [columnReferences_renameExpr expr h.1, columnReferencesOf_renameExprs list h.2]
  | inSubquery expr query negated => exact (map_unrenamed h).symm
  | aggregate function expr distinct =>
    cases expr with
    | none => rfl
    | some expr => exact (map_unrenamed h).symm
  | literal value => rfl
  | parameter index => rfl
  | incoming column => rfl
  | exist query negated => rfl
  | scalarSubquery query => rfl
termination_by structural expr

theorem columnReferencesOf_renameExprs {old new : String} (exprs : List Expr)
    (h : ∀ reference ∈ hiddenReferencesOf exprs, eqIgnoreAsciiCase reference.2 old = false) :
    columnReferencesOf (renameExprs old new exprs) =
      (columnReferencesOf exprs).map fun reference =>
        (reference.1, renameName old new reference.2) := by
  cases exprs with
  | nil => rfl
  | cons expr exprs =>
    simp only [hiddenReferencesOf, List.forall_mem_append] at h
    simp only [renameExprs, columnReferencesOf, List.map_append]
    rw [columnReferences_renameExpr expr h.1, columnReferencesOf_renameExprs exprs h.2]
termination_by structural exprs

end

/-! ## Well-formed schemas -/

/-- Names that are pairwise distinct, ignoring ASCII case. -/
def DistinctNames (names : List String) : Prop :=
  ∀ (i j : Nat) (a b : String), names[i]? = some a → names[j]? = some b →
    eqIgnoreAsciiCase a b = true → i = j

namespace TableSchema

/-- A reference names a column of the table, and the table if it names one. -/
def Knows (schema : TableSchema) (reference : Option String × String) : Prop :=
  schema.HasColumn reference.2 ∧
    ∀ table ∈ reference.1, eqIgnoreAsciiCase schema.name table = true

/-- A schema is well-formed, up to the flags of its PRIMARY KEY. -/
structure Sane (schema : TableSchema) : Prop where
  distinct : DistinctNames (schema.columns.map ColumnDef.name)
  primaryKey : (schema.constraints.filter isPrimaryKey).length ≤ 1
  named : schema.Named
  checks : ∀ constraint ∈ schema.constraints, ∀ reference ∈ checkReferences constraint,
    schema.Knows reference

/-- The columns of the PRIMARY KEY are NOT NULL. -/
def KeysNotNull (schema : TableSchema) : Prop :=
  ∀ constraint ∈ schema.constraints, isPrimaryKey constraint = true →
    ∀ name ∈ constraintColumns constraint, ∀ column ∈ schema.columns,
      eqIgnoreAsciiCase column.name name = true → column.nullable = false

/-- A schema is well-formed. -/
structure WellFormed (schema : TableSchema) : Prop extends Sane schema where
  notNull : schema.KeysNotNull

end TableSchema

/-! ## Flags -/

theorem eqIgnoreAsciiCase_comm (a b : String) :
    eqIgnoreAsciiCase a b = eqIgnoreAsciiCase b a :=
  Bool.eq_iff_iff.mpr ⟨eqIgnoreAsciiCase_symm, eqIgnoreAsciiCase_symm⟩

theorem DistinctNames.tail {name : String} {names : List String}
    (h : DistinctNames (name :: names)) : DistinctNames names := by
  intro i j a b ha hb hab
  have hsucc := h (i + 1) (j + 1) a b ha hb hab
  omega

theorem DistinctNames.not_mem {name : String} {names : List String}
    (h : DistinctNames (name :: names)) :
    ∀ other ∈ names, eqIgnoreAsciiCase name other = false := by
  intro other hmem
  obtain ⟨i, hi⟩ := List.mem_iff_getElem?.mp hmem
  rw [← Bool.not_eq_true]
  intro heq
  have hzero := h 0 (i + 1) name other rfl hi heq
  omega

/-- No column that may be NULL has one of the names. -/
def NotNull (names : List String) (columns : List ColumnDef) : Prop :=
  ∀ column ∈ columns, column.nullable = true → ∀ name ∈ names,
    eqIgnoreAsciiCase column.name name = false

theorem notNull_nil (columns : List ColumnDef) : NotNull [] columns :=
  fun _ _ _ _ hname => by cases hname

theorem notNull_updateColumn {names : List String} {columns : List ColumnDef}
    (h : NotNull names columns) (name : String) {f : ColumnDef → ColumnDef}
    (hname : ∀ column, (f column).name = column.name)
    (hnullable : ∀ column, (f column).nullable = true → column.nullable = true) :
    NotNull names (updateColumn name f columns) := by
  induction columns with
  | nil => exact h
  | cons column columns ih =>
    have htail : NotNull names columns := fun c hc => h c (List.mem_cons_of_mem _ hc)
    rw [updateColumn]
    split_ifs with heq
    · intro c hc hnull key hkey
      rcases List.mem_cons.mp hc with rfl | hc
      · rw [hname]
        exact h column List.mem_cons_self (hnullable column hnull) key hkey
      · exact htail c hc hnull key hkey
    · intro c hc hnull key hkey
      rcases List.mem_cons.mp hc with rfl | hc
      · exact h c List.mem_cons_self hnull key hkey
      · exact ih htail c hc hnull key hkey

/-- Of columns with distinct names, the one that is changed is the only one of its name. -/
theorem notNull_updateColumn_self {columns : List ColumnDef}
    (hdistinct : DistinctNames (columns.map ColumnDef.name)) (name : String)
    {f : ColumnDef → ColumnDef}
    (hnullable : ∀ column, (f column).nullable = false) :
    NotNull [name] (updateColumn name f columns) := by
  induction columns with
  | nil => exact fun c hc => by cases hc
  | cons column columns ih =>
    have hothers := hdistinct.not_mem
    rw [updateColumn]
    intro c hc hnull key hkey
    obtain rfl := List.mem_singleton.mp hkey
    split_ifs at hc with heq
    · rcases List.mem_cons.mp hc with rfl | hc
      · rw [hnullable] at hnull
        cases hnull
      · have hother := hothers c.name (List.mem_map_of_mem hc)
        rw [← Bool.not_eq_true] at hother ⊢
        exact fun hsame =>
          hother (eqIgnoreAsciiCase_trans heq (eqIgnoreAsciiCase_symm hsame))
    · rcases List.mem_cons.mp hc with rfl | hc
      · exact Bool.eq_false_iff.mpr heq
      · exact ih hdistinct.tail c hc hnull key List.mem_cons_self

theorem NotNull.append {first second : List String} {columns : List ColumnDef}
    (hfirst : NotNull first columns) (hsecond : NotNull second columns) :
    NotNull (first ++ second) columns := by
  intro column hcolumn hnull name hname
  rcases List.mem_append.mp hname with hname | hname
  · exact hfirst column hcolumn hnull name hname
  · exact hsecond column hcolumn hnull name hname

theorem notNull_markPrimaryKey {columns : List ColumnDef} {names : List String}
    (hdistinct : DistinctNames (columns.map ColumnDef.name)) (h : NotNull names columns)
    (keyColumns : List String) :
    NotNull (names ++ keyColumns) (markPrimaryKey keyColumns columns) := by
  unfold markPrimaryKey
  generalize (keyColumns.length == 1) = single
  induction keyColumns generalizing names columns with
  | nil => simpa using h
  | cons name keyColumns ih =>
    rw [List.foldl_cons, ← List.singleton_append, ← List.append_assoc]
    refine ih ?_ ?_
    · rw [names_updateColumn]
      · exact hdistinct
      · exact fun _ => rfl
    · have hstay := notNull_updateColumn h name
        (f := fun column => { column with
          nullable := false, unique := single, primaryKey := single })
        (fun _ => rfl) fun _ hnull => absurd hnull Bool.false_ne_true
      exact hstay.append (notNull_updateColumn_self hdistinct name fun _ => rfl)

theorem notNull_markConstraint {columns : List ColumnDef} {names : List String}
    (hdistinct : DistinctNames (columns.map ColumnDef.name)) (h : NotNull names columns)
    (constraint : TableConstraint) : NotNull names (markConstraint columns constraint) := by
  unfold markConstraint
  split
  · intro column hcolumn hnull name hname
    exact notNull_markPrimaryKey hdistinct h _ column hcolumn hnull name
      (List.mem_append_left _ hname)
  · exact notNull_updateColumn h _ (fun _ => rfl) fun _ hnull => hnull
  · exact h

/-- After all constraints have set their flags, the columns of every PRIMARY KEY are
NOT NULL. -/
theorem notNull_foldl_markConstraint {columns : List ColumnDef}
    (hdistinct : DistinctNames (columns.map ColumnDef.name)) {names : List String}
    (h : NotNull names columns) (constraints : List TableConstraint) :
    NotNull names (constraints.foldl markConstraint columns) ∧
      ∀ constraint ∈ constraints, isPrimaryKey constraint = true →
        NotNull (constraintColumns constraint) (constraints.foldl markConstraint columns) := by
  induction constraints generalizing columns names with
  | nil => exact ⟨h, fun constraint hmem => by cases hmem⟩
  | cons first constraints ih =>
    rw [List.foldl_cons]
    have hdistinct' : DistinctNames ((markConstraint columns first).map ColumnDef.name) := by
      rw [names_markConstraint]
      exact hdistinct
    refine ⟨(ih hdistinct' (notNull_markConstraint hdistinct h first)).1, ?_⟩
    intro constraint hmem hprimary
    rcases List.mem_cons.mp hmem with rfl | hmem
    · cases constraint with
      | primaryKey name keyColumns =>
        have hself : NotNull keyColumns (markConstraint columns (.primaryKey name keyColumns)) :=
          notNull_markPrimaryKey hdistinct (notNull_nil columns) keyColumns
        exact (ih hdistinct' hself).1
      | _ => cases hprimary
    · exact (ih hdistinct' (notNull_markConstraint hdistinct h first)).2 constraint hmem hprimary

theorem TableSchema.Knows.of_names {schema schema' : TableSchema}
    {reference : Option String × String} (hname : schema'.name = schema.name)
    (hnames : schema'.columns.map ColumnDef.name = schema.columns.map ColumnDef.name)
    (h : schema.Knows reference) : schema'.Knows reference :=
  ⟨h.1.of_names hnames, fun table htable => hname ▸ h.2 table htable⟩

/-- Recomputing the metadata of a sane schema makes it well-formed. -/
theorem wellFormed_refreshSchema {schema : TableSchema} (h : schema.Sane) :
    (refreshSchema schema).WellFormed := by
  have hnames := names_refreshSchema schema
  refine ⟨⟨?_, h.primaryKey, named_refreshSchema h.named, ?_⟩, ?_⟩
  · rw [hnames]
    exact h.distinct
  · intro constraint hmem reference hreference
    have hknown : schema.Knows reference := h.checks constraint hmem reference hreference
    have hname : (refreshSchema schema).name = schema.name := rfl
    exact hknown.of_names hname hnames
  · intro constraint hmem hprimary name hname column hcolumn heq
    have hcleared : DistinctNames ((schema.columns.map fun column =>
        { column with primaryKey := false, unique := false }).map ColumnDef.name) := by
      rw [List.map_map]
      exact h.distinct
    have hnotNull :=
      (notNull_foldl_markConstraint hcleared (notNull_nil _) schema.constraints).2
        constraint hmem hprimary
    by_contra hnull
    rw [hnotNull column hcolumn (by simpa using hnull) name hname] at heq
    cases heq

/-! ## What an operation does not check -/

/-- MODIFY COLUMN gives the column another name. -/
def renames (oldName newName : String) : Bool := !eqIgnoreAsciiCase oldName newName

/-- The constraints of a table after MODIFY COLUMN: the new ones join those there are, with
a renamed column followed. -/
def joinedConstraints (schema : TableSchema) (oldName : String) (column : ColumnDef)
    (constraints : List TableConstraint) : List TableConstraint :=
  addNewConstraints
    (if renames oldName column.name then
      schema.constraints.map (renameInConstraint schema.name oldName column.name)
    else schema.constraints)
    constraints

/-- The CHECK expressions read the column in no place that a renaming does not reach. -/
def TableSchema.Renamable (schema : TableSchema) (oldName : String) : Prop :=
  ∀ constraint ∈ schema.constraints, ∀ reference ∈ hiddenCheckReferences constraint,
    eqIgnoreAsciiCase reference.2 oldName = false

/-- What an operation of ALTER TABLE does not check. -/
def AlterOperation.Fits (schema : TableSchema) : AlterOperation → Prop
  | .addColumn column constraints _ =>
    schema.columnIndex column.name = none →
      ((schema.constraints ++ constraints).filter isPrimaryKey).length ≤ 1 ∧
      ∀ constraint ∈ constraints, ∀ reference ∈ checkReferences constraint,
        TableSchema.Knows { schema with columns := schema.columns ++ [column] } reference
  | .dropColumn name _ =>
    ∀ constraint ∈ schema.constraints, ∀ reference ∈ checkReferences constraint,
      eqIgnoreAsciiCase reference.2 name = false
  | .renameColumn oldName _ => schema.Renamable oldName
  | .modifyColumn oldName column constraints =>
    (renames oldName column.name = true → schema.Renamable oldName) ∧
    ((joinedConstraints schema oldName column constraints).filter isPrimaryKey).length ≤ 1 ∧
    ∀ constraint ∈ constraints,
      constraint ∈ joinedConstraints schema oldName column constraints →
      ∀ reference ∈ checkReferences constraint,
        (∀ table ∈ reference.1, eqIgnoreAsciiCase schema.name table = true) ∧
        (eqIgnoreAsciiCase column.name reference.2 = true ∨
          schema.HasColumn reference.2 ∧ eqIgnoreAsciiCase reference.2 oldName = false)
  | .addConstraint constraint =>
    ∀ reference ∈ checkReferences constraint, schema.Knows reference
  | _ => True

/-! ## One operation -/

section Alter

variable {H : Host} {tables : Tables} {table table' : Table}

theorem DistinctNames.append {names : List String} {name : String} (h : DistinctNames names)
    (hnew : ∀ other ∈ names, eqIgnoreAsciiCase other name = false) :
    DistinctNames (names ++ [name]) := by
  have hmem : ∀ {i a}, i < names.length → (names ++ [name])[i]? = some a → a ∈ names := by
    intro i a hi ha
    rw [List.getElem?_append_left hi] at ha
    exact List.mem_of_getElem? ha
  have hlast : ∀ {i a}, ¬ i < names.length → (names ++ [name])[i]? = some a →
      i = names.length ∧ a = name := by
    intro i a hi ha
    rw [List.getElem?_append_right (Nat.le_of_not_lt hi), List.getElem?_singleton] at ha
    split_ifs at ha with hzero
    exact ⟨by omega, (Option.some.inj ha).symm⟩
  intro i j a b ha hb hab
  by_cases hi : i < names.length <;> by_cases hj : j < names.length
  · rw [List.getElem?_append_left hi] at ha
    rw [List.getElem?_append_left hj] at hb
    exact h i j a b ha hb hab
  · obtain ⟨-, rfl⟩ := hlast hj hb
    rw [hnew a (hmem hi ha)] at hab
    cases hab
  · obtain ⟨-, rfl⟩ := hlast hi ha
    rw [eqIgnoreAsciiCase_comm, hnew b (hmem hj hb)] at hab
    cases hab
  · rw [(hlast hi ha).1, (hlast hj hb).1]

theorem DistinctNames.eraseIdx {names : List String} (h : DistinctNames names) (index : Nat) :
    DistinctNames (names.eraseIdx index) := by
  intro i j a b ha hb hab
  rw [List.getElem?_eraseIdx] at ha hb
  split_ifs at ha hb
  · exact h i j a b ha hb hab
  · have := h i (j + 1) a b ha hb hab
    omega
  · have := h (i + 1) j a b ha hb hab
    omega
  · have := h (i + 1) (j + 1) a b ha hb hab
    omega

/-- One name replaced by one that no other column has. -/
theorem DistinctNames.set {names : List String} {index : Nat} {name : String}
    (h : DistinctNames names)
    (hnew : ∀ i other, names[i]? = some other → i ≠ index →
      eqIgnoreAsciiCase other name = false) : DistinctNames (names.set index name) := by
  have hself : ∀ {j a}, (names.set index name)[j]? = some a → index = j → a = name := by
    rintro j a ha rfl
    rw [List.getElem?_set, if_pos rfl] at ha
    split_ifs at ha
    exact (Option.some.inj ha).symm
  have hother : ∀ {j a}, (names.set index name)[j]? = some a → index ≠ j →
      names[j]? = some a := by
    intro j a ha hj
    rwa [List.getElem?_set_ne hj] at ha
  intro i j a b ha hb hab
  by_cases hi : index = i <;> by_cases hj : index = j
  · exact hi.symm.trans hj
  · rw [hself ha hi, eqIgnoreAsciiCase_comm, hnew j b (hother hb hj) (Ne.symm hj)] at hab
    cases hab
  · rw [hself hb hj, hnew i a (hother ha hi) (Ne.symm hi)] at hab
    cases hab
  · exact h i j a b (hother ha hi) (hother hb hj) hab

theorem names_of_not_columnIndex {schema : TableSchema} {name : String}
    (h : ¬ (schema.columnIndex name).isSome = true) :
    ∀ other ∈ schema.columns.map ColumnDef.name, eqIgnoreAsciiCase other name = false := by
  intro other hmem
  obtain ⟨column, hcolumn, rfl⟩ := List.mem_map.mp hmem
  rw [← Bool.not_eq_true]
  exact fun heq => h (TableSchema.isSome_columnIndex.mpr ⟨column, hcolumn, heq⟩)

theorem names_modifyColumn_name (schema : TableSchema) (index : Nat) (f : ColumnDef → ColumnDef)
    (name : String) (hf : ∀ column, (f column).name = name) :
    (schema.modifyColumn index f).columns.map ColumnDef.name =
      (schema.columns.map ColumnDef.name).set index name := by
  apply List.ext_getElem?
  intro i
  simp only [TableSchema.modifyColumn, List.getElem?_map, List.getElem?_modify,
    List.getElem?_set, List.length_map]
  by_cases h : index = i
  · subst h
    cases hcolumn : schema.columns[index]? with
    | none => simp [List.getElem?_eq_none_iff.mp hcolumn]
    | some column => simp [hf, (List.getElem?_eq_some_iff.mp hcolumn).1]
  · simp [h]

/-- One column replaced: the names of the others are known, and its own under its name. -/
theorem hasColumn_replace {schema schema' : TableSchema} {index : Nat} {before column : ColumnDef}
    {name : String} (hbefore : schema.columns[index]? = some before)
    (hself : schema'.columns[index]? = some column)
    (hothers : ∀ i, i ≠ index → schema'.columns[i]? = schema.columns[i]?)
    (h : schema.HasColumn name)
    (hname : eqIgnoreAsciiCase before.name name = true →
      eqIgnoreAsciiCase column.name name = true) :
    schema'.HasColumn name := by
  obtain ⟨found, hmem, heq⟩ := h
  obtain ⟨i, hi⟩ := List.mem_iff_getElem?.mp hmem
  by_cases hii : i = index
  · subst hii
    obtain rfl : before = found := Option.some.inj (hbefore.symm.trans hi)
    exact ⟨column, List.mem_of_getElem? hself, hname heq⟩
  · exact ⟨found, List.mem_of_getElem? ((hothers i hii).trans hi), heq⟩

/-- Fewer constraints over columns of the same names. -/
theorem TableSchema.Sane.of_sublist {schema schema' : TableSchema} (h : schema.Sane)
    (hname : schema'.name = schema.name)
    (hnames : schema'.columns.map ColumnDef.name = schema.columns.map ColumnDef.name)
    (hconstraints : schema'.constraints.Sublist schema.constraints) (hnamed : schema'.Named) :
    schema'.Sane := by
  refine ⟨hnames ▸ h.distinct, ?_, hnamed, ?_⟩
  · exact ((hconstraints.filter isPrimaryKey).length_le).trans h.primaryKey
  · intro constraint hmem reference hreference
    exact (h.checks constraint (hconstraints.subset hmem) reference hreference).of_names
      hname hnames

theorem isPrimaryKey_renameInConstraint (schemaName old new : String)
    (constraint : TableConstraint) :
    isPrimaryKey (renameInConstraint schemaName old new constraint) = isPrimaryKey constraint := by
  cases constraint <;> rfl

theorem filter_renameInConstraint (schemaName old new : String)
    (constraints : List TableConstraint) :
    ((constraints.map (renameInConstraint schemaName old new)).filter isPrimaryKey).length =
      (constraints.filter isPrimaryKey).length := by
  have hcomp : isPrimaryKey ∘ renameInConstraint schemaName old new = isPrimaryKey :=
    funext (isPrimaryKey_renameInConstraint schemaName old new)
  rw [List.filter_map, List.length_map, hcomp]

theorem checkReferences_renameInConstraint {schemaName old new : String}
    {constraint : TableConstraint}
    (h : ∀ reference ∈ hiddenCheckReferences constraint,
      eqIgnoreAsciiCase reference.2 old = false) :
    checkReferences (renameInConstraint schemaName old new constraint) =
      (checkReferences constraint).map fun reference =>
        (reference.1, renameName old new reference.2) := by
  cases constraint with
  | check name expr => exact columnReferences_renameExpr expr h
  | primaryKey name columns => rfl
  | unique name columns => rfl
  | foreignKey foreignKey => rfl

/-- The CHECK expressions follow a renamed column. -/
theorem knows_rename {schema schema' : TableSchema} {index : Nat} {old new : String}
    (h : schema.Sane) (hrenamable : schema.Renamable old) (hname : schema'.name = schema.name)
    (hindex : schema.columnIndex old = some index)
    (hnew : ∃ column, schema'.columns[index]? = some column ∧ column.name = new)
    (hothers : ∀ i, i ≠ index → schema'.columns[i]? = schema.columns[i]?) :
    ∀ constraint ∈ schema.constraints.map (renameInConstraint schema.name old new),
      ∀ reference ∈ checkReferences constraint, schema'.Knows reference := by
  intro constraint hmem reference hreference
  obtain ⟨before, hbefore, rfl⟩ := List.mem_map.mp hmem
  rw [checkReferences_renameInConstraint (hrenamable before hbefore)] at hreference
  obtain ⟨read, hread, rfl⟩ := List.mem_map.mp hreference
  have hknown := h.checks before hbefore read hread
  exact ⟨hasColumn_rename hindex hnew hothers hknown.1,
    fun table htable => hname ▸ hknown.2 table htable⟩

theorem addColumn_sane {column : ColumnDef} {constraints : List TableConstraint}
    {ifNotExists : Bool}
    (hfits : AlterOperation.Fits table.schema (.addColumn column constraints ifNotExists))
    (h : addColumn table column constraints ifNotExists = .ok (some table'))
    (hnamed : table'.schema.Named) (hsane : table.schema.Sane) : table'.schema.Sane := by
  unfold addColumn at h
  split at h
  · split at h <;> simp [refuse] at h
  · rename_i hnew
    obtain ⟨hprimary, hchecks⟩ := hfits (by simpa using hnew)
    split at h
    · simp [refuse] at h
    · split at h
      · simp [refuse] at h
      · obtain rfl := Option.some.inj (Except.ok.inj h)
        refine ⟨?_, hprimary, hnamed, ?_⟩
        · show DistinctNames ((table.schema.columns ++ [column]).map ColumnDef.name)
          rw [List.map_append]
          exact hsane.distinct.append (names_of_not_columnIndex hnew)
        · intro constraint hmem reference hreference
          rcases List.mem_append.mp hmem with hmem | hmem
          · have hknown := hsane.checks constraint hmem reference hreference
            exact ⟨hasColumn_append hknown.1 _, hknown.2⟩
          · exact hchecks constraint hmem reference hreference

theorem dropColumn_sane {tableName name : String} {ifExists : Bool}
    (hfits : AlterOperation.Fits table.schema (.dropColumn name ifExists))
    (h : dropColumn H tables tableName table name ifExists = .ok (some table'))
    (hnamed : table'.schema.Named) (hsane : table.schema.Sane) : table'.schema.Sane := by
  unfold dropColumn at h
  cases hindex : table.schema.columnIndex name with
  | none =>
    simp only [hindex] at h
    split at h <;> simp [refuse] at h
  | some index =>
    simp only [hindex] at h
    split at h
    · simp [refuse] at h
    · split at h
      · simp [refuse] at h
      · obtain ⟨rows, -, htable⟩ := Result.bind_eq_ok.mp h
        obtain rfl := Option.some.inj (Except.ok.inj htable)
        obtain ⟨dropped, hdropped, hname⟩ := TableSchema.columnIndex_eq_some hindex
        refine ⟨?_, hsane.primaryKey, hnamed, ?_⟩
        · show DistinctNames ((table.schema.columns.eraseIdx index).map ColumnDef.name)
          rw [← List.eraseIdx_map]
          exact hsane.distinct.eraseIdx index
        · intro constraint hmem reference hreference
          have hknown := hsane.checks constraint hmem reference hreference
          have hother := hfits constraint hmem reference hreference
          refine ⟨hasColumn_eraseIdx hdropped hknown.1 ?_, hknown.2⟩
          rw [← Bool.not_eq_true] at hother ⊢
          exact fun hsame =>
            hother (eqIgnoreAsciiCase_trans (eqIgnoreAsciiCase_symm hsame) hname)

theorem renameColumn_sane {oldName newName : String}
    (hfits : AlterOperation.Fits table.schema (.renameColumn oldName newName))
    (h : renameColumn table oldName newName = .ok table') (hnamed : table'.schema.Named)
    (hsane : table.schema.Sane) : table'.schema.Sane := by
  unfold renameColumn at h
  split at h
  · simp [refuse] at h
  · rename_i hnew
    obtain ⟨index, hindex, htable⟩ := Result.bind_eq_ok.mp h
    obtain rfl := Except.ok.inj htable
    have hindex := requireColumn_eq_ok hindex
    obtain ⟨column, hcolumn, -⟩ := TableSchema.columnIndex_eq_some hindex
    refine ⟨?_, ?_, hnamed, ?_⟩
    · show DistinctNames
        ((table.schema.modifyColumn index fun c => { c with name := newName }).columns.map
          ColumnDef.name)
      rw [names_modifyColumn_name _ _ _ newName fun _ => rfl]
      exact hsane.distinct.set fun i other hi _ =>
        names_of_not_columnIndex hnew other (List.mem_of_getElem? hi)
    · exact (filter_renameInConstraint _ _ _ _).trans_le hsane.primaryKey
    · intro constraint hmem
      have hmem : constraint ∈ table.schema.constraints.map
          (renameInConstraint table.schema.name oldName newName) := hmem
      refine knows_rename hsane hfits ?_ hindex ?_ ?_ constraint hmem
      · rfl
      · exact ⟨_, getElem?_modifyColumn_self hcolumn, rfl⟩
      · exact fun i hi => getElem?_modifyColumn_ne hi

/-- What MODIFY COLUMN makes of the references to its column. -/
theorem renameModified_eq {schema schema' : TableSchema} {oldName : String} {column : ColumnDef}
    (h : renameModified schema oldName column.name = .ok schema')
    (constraints : List TableConstraint) :
    schema'.columns = schema.columns ∧ schema'.name = schema.name ∧
      addNewConstraints schema'.constraints constraints =
        joinedConstraints schema oldName column constraints ∧
      (renames oldName column.name = true → ¬ (schema.columnIndex column.name).isSome = true) := by
  unfold renameModified at h
  unfold joinedConstraints renames
  by_cases hsame : eqIgnoreAsciiCase oldName column.name = true
  · rw [if_pos hsame] at h
    obtain rfl := Except.ok.inj h
    simp [hsame]
  · rw [if_neg hsame] at h
    split_ifs at h with hnew
    · simp [refuse] at h
    · obtain rfl := Except.ok.inj h
      rw [Bool.not_eq_true] at hsame
      exact ⟨rfl, rfl, by rw [hsame]; rfl, fun _ => hnew⟩

theorem modifyColumn_sane {oldName : String} {column : ColumnDef}
    {constraints : List TableConstraint}
    (hfits : AlterOperation.Fits table.schema (.modifyColumn oldName column constraints))
    (h : modifyColumn table oldName column constraints = .ok table')
    (hnamed : table'.schema.Named) (hsane : table.schema.Sane) : table'.schema.Sane := by
  obtain ⟨hrenamable, hprimary, hchecks⟩ := hfits
  obtain ⟨index, hindex, h⟩ := Result.bind_eq_ok.mp h
  obtain ⟨schema, hschema, h⟩ := Result.bind_eq_ok.mp h
  obtain ⟨rows, -, htable⟩ := Result.bind_eq_ok.mp h
  obtain rfl := Except.ok.inj htable
  have hindex := requireColumn_eq_ok hindex
  obtain ⟨before, hbefore, hold⟩ := TableSchema.columnIndex_eq_some hindex
  obtain ⟨hcolumns, hname, hjoined, hnew⟩ := renameModified_eq hschema constraints
  have hself : (schema.modifyColumn index fun _ => column).columns[index]? = some column :=
    getElem?_modifyColumn_self (hcolumns ▸ hbefore)
  have hothers : ∀ i, i ≠ index →
      (schema.modifyColumn index fun _ => column).columns[i]? = table.schema.columns[i]? := by
    intro i hi
    rw [getElem?_modifyColumn_ne hi, hcolumns]
  refine ⟨?_, ?_, hnamed, ?_⟩
  · show DistinctNames ((schema.modifyColumn index fun _ => column).columns.map ColumnDef.name)
    rw [names_modifyColumn_name _ _ _ column.name fun _ => rfl, hcolumns]
    refine hsane.distinct.set fun i other hi hne => ?_
    cases hrenames : renames oldName column.name with
    | true => exact names_of_not_columnIndex (hnew hrenames) other (List.mem_of_getElem? hi)
    | false =>
      -- The column keeps its name up to case, and no other column has it.
      rw [renames, Bool.not_eq_false'] at hrenames
      rw [← Bool.not_eq_true]
      intro heq
      have hbeforeName : (table.schema.columns.map ColumnDef.name)[index]? = some before.name := by
        rw [List.getElem?_map, hbefore]
        rfl
      exact hne (hsane.distinct i index other before.name hi hbeforeName
        (eqIgnoreAsciiCase_trans heq
          (eqIgnoreAsciiCase_symm (eqIgnoreAsciiCase_trans hold hrenames))))
  · show ((addNewConstraints schema.constraints constraints).filter isPrimaryKey).length ≤ 1
    rw [hjoined]
    exact hprimary
  · intro constraint hmem reference hreference
    have hmem : constraint ∈ joinedConstraints table.schema oldName column constraints := by
      rw [← hjoined]
      exact hmem
    have hnamed' : (schema.modifyColumn index fun _ => column).name = table.schema.name := hname
    rcases mem_addNewConstraints hmem with hmem' | hmem'
    · cases hrenames : renames oldName column.name with
      | true =>
        rw [hrenames, if_pos rfl] at hmem'
        exact knows_rename hsane (hrenamable hrenames) hnamed' hindex ⟨column, hself, rfl⟩ hothers
          constraint hmem' reference hreference
      | false =>
        rw [hrenames, if_neg Bool.false_ne_true] at hmem'
        rw [renames, Bool.not_eq_false'] at hrenames
        have hknown := hsane.checks constraint hmem' reference hreference
        have hcolumn := hasColumn_replace hbefore hself hothers hknown.1 fun hread =>
          eqIgnoreAsciiCase_trans
            (eqIgnoreAsciiCase_symm (eqIgnoreAsciiCase_trans hold hrenames)) hread
        exact ⟨hcolumn, fun table htable => hnamed' ▸ hknown.2 table htable⟩
    · obtain ⟨hqualifier, hown | ⟨hother, hne⟩⟩ :=
        hchecks constraint hmem' hmem reference hreference
      · exact ⟨⟨column, List.mem_of_getElem? hself, hown⟩,
          fun table htable => hnamed' ▸ hqualifier table htable⟩
      · have hcolumn := hasColumn_replace hbefore hself hothers hother fun hread => by
          rw [eqIgnoreAsciiCase_trans (eqIgnoreAsciiCase_symm hread) hold] at hne
          cases hne
        exact ⟨hcolumn, fun table htable => hnamed' ▸ hqualifier table htable⟩

theorem addConstraint_sane {constraint : TableConstraint}
    (hfits : AlterOperation.Fits table.schema (.addConstraint constraint))
    (h : addConstraint table constraint = .ok table') (hnamed : table'.schema.Named)
    (hsane : table.schema.Sane) : table'.schema.Sane := by
  unfold addConstraint at h
  split at h
  · simp [refuse] at h
  · split at h
    · simp [refuse] at h
    · rename_i hprimary
      split at h
      · simp [refuse] at h
      · obtain ⟨⟨⟩, -, h⟩ := Result.bind_eq_ok.mp h
        obtain rfl := Except.ok.inj h
        refine ⟨hsane.distinct, ?_, hnamed, ?_⟩
        · show ((table.schema.constraints ++ [constraint]).filter isPrimaryKey).length ≤ 1
          rw [List.filter_append, List.length_append]
          cases hkind : isPrimaryKey constraint with
          | false => simpa [hkind] using hsane.primaryKey
          | true =>
            rw [hkind, Bool.true_and, Bool.not_eq_true, List.any_eq_false] at hprimary
            rw [List.filter_eq_nil_iff.mpr hprimary]
            simp [hkind]
        · intro found hmem reference hreference
          rcases List.mem_append.mp hmem with hmem | hmem
          · exact hsane.checks found hmem reference hreference
          · rw [List.mem_singleton.mp hmem] at hreference
            exact hfits reference hreference

theorem sane_eraseConstraint (hsane : table.schema.Sane) (position : Nat) :
    TableSchema.Sane { table.schema with
      constraints := table.schema.constraints.eraseIdx position } :=
  hsane.of_sublist rfl rfl (List.eraseIdx_sublist _ _)
    ((alteredFrom_eraseConstraint table position).named hsane.named)

/-- A column changed in other things than its name. -/
theorem sane_modifyColumn (hsane : table.schema.Sane) (index : Nat) (f : ColumnDef → ColumnDef)
    (hf : ∀ column, (f column).name = column.name) :
    (table.schema.modifyColumn index f).Sane := by
  refine hsane.of_sublist rfl (names_modifyColumn table.schema index f hf) ?_
    ((alteredFrom_modifyColumn table index f hf).named hsane.named)
  exact List.Sublist.refl _

theorem setDefault_sane {column : String} {value : Option Value}
    (h : setDefault table column value = .ok table') (hsane : table.schema.Sane) :
    table'.schema.Sane := by
  obtain ⟨index, -, h⟩ := Result.bind_eq_ok.mp h
  split at h
  · simp at h
  · obtain rfl := Except.ok.inj h
    exact sane_modifyColumn hsane index _ fun _ => rfl
  · split at h
    · simp [refuse] at h
    · obtain rfl := Except.ok.inj h
      exact sane_modifyColumn hsane index _ fun _ => rfl

theorem setNullable_sane {column : String} {nullable : Bool}
    (h : setNullable table column nullable = .ok table') (hsane : table.schema.Sane) :
    table'.schema.Sane := by
  obtain ⟨index, -, h⟩ := Result.bind_eq_ok.mp h
  have hmodified := sane_modifyColumn hsane index (fun c => { c with nullable }) fun _ => rfl
  split at h
  · simp at h
  · split at h
    · split at h
      · simp [refuse] at h
      · obtain rfl := Except.ok.inj h
        exact hmodified
    · obtain ⟨found, -, h⟩ := Result.bind_eq_ok.mp h
      split at h
      · simp [refuse] at h
      · obtain rfl := Except.ok.inj h
        exact hmodified

theorem setDataType_sane {column : String} {dataType : DataType}
    (h : setDataType table column dataType = .ok table') (hsane : table.schema.Sane) :
    table'.schema.Sane := by
  obtain ⟨index, -, h⟩ := Result.bind_eq_ok.mp h
  obtain ⟨rows, -, h⟩ := Result.bind_eq_ok.mp h
  split at h
  · simp at h
  · obtain ⟨default, -, h⟩ := Result.bind_eq_ok.mp h
    obtain rfl := Except.ok.inj h
    exact sane_modifyColumn hsane index _ fun _ => rfl

theorem dropConstraint_sane {name : String} {ifExists : Bool}
    (h : dropConstraint table name ifExists = .ok table') (hsane : table.schema.Sane) :
    table'.schema.Sane := by
  unfold dropConstraint at h
  split at h
  · obtain rfl := Except.ok.inj h
    exact sane_eraseConstraint hsane _
  · split at h
    · obtain rfl := Except.ok.inj h
      exact hsane
    · simp [refuse] at h

theorem dropPrimaryKey_sane (h : dropPrimaryKey table = .ok table') (hsane : table.schema.Sane) :
    table'.schema.Sane := by
  unfold dropPrimaryKey at h
  split at h
  · obtain rfl := Except.ok.inj h
    exact sane_eraseConstraint hsane _
  · simp [refuse] at h

/-- **Every ALTER operation that fits** leaves a sane schema. -/
theorem alterTable_sane {tableName : String} {operation : AlterOperation}
    (hparsed : operation.Parsed) (hfits : operation.Fits table.schema)
    (h : alterTable H tables tableName table operation = .ok (some table'))
    (hsane : table.schema.Sane) : table'.schema.Sane := by
  have hnamed := (alterTable_keeps hparsed h).named hsane.named
  cases operation with
  | addColumn column constraints ifNotExists => exact addColumn_sane hfits h hnamed hsane
  | dropColumn name ifExists => exact dropColumn_sane hfits h hnamed hsane
  | renameColumn oldName newName =>
    obtain ⟨altered, haltered, heq⟩ := Result.map_eq_ok.mp h
    obtain rfl := Option.some.inj heq
    exact renameColumn_sane hfits haltered hnamed hsane
  | modifyColumn oldName column constraints =>
    obtain ⟨altered, haltered, heq⟩ := Result.map_eq_ok.mp h
    obtain rfl := Option.some.inj heq
    exact modifyColumn_sane hfits haltered hnamed hsane
  | setDefault column value =>
    obtain ⟨altered, haltered, heq⟩ := Result.map_eq_ok.mp h
    exact Option.some.inj heq ▸ setDefault_sane haltered hsane
  | setNullable column nullable =>
    obtain ⟨altered, haltered, heq⟩ := Result.map_eq_ok.mp h
    exact Option.some.inj heq ▸ setNullable_sane haltered hsane
  | setDataType column dataType =>
    obtain ⟨altered, haltered, heq⟩ := Result.map_eq_ok.mp h
    exact Option.some.inj heq ▸ setDataType_sane haltered hsane
  | addConstraint constraint =>
    obtain ⟨altered, haltered, heq⟩ := Result.map_eq_ok.mp h
    obtain rfl := Option.some.inj heq
    exact addConstraint_sane hfits haltered hnamed hsane
  | dropConstraint name ifExists =>
    obtain ⟨altered, haltered, heq⟩ := Result.map_eq_ok.mp h
    exact Option.some.inj heq ▸ dropConstraint_sane haltered hsane
  | dropPrimaryKey =>
    obtain ⟨altered, haltered, heq⟩ := Result.map_eq_ok.mp h
    exact Option.some.inj heq ▸ dropPrimaryKey_sane haltered hsane

/-- RENAME COLUMN changes the columns that the foreign keys of other tables refer to. -/
theorem wellFormed_renameReferred {schema : TableSchema} (h : schema.WellFormed)
    (tableName old new : String) :
    TableSchema.Sane { schema with
      constraints := schema.constraints.map (renameReferred tableName old new) } := by
  have hprimary : isPrimaryKey ∘ renameReferred tableName old new = isPrimaryKey := by
    funext constraint
    cases constraint with
    | foreignKey foreignKey =>
      by_cases hforeign : eqIgnoreAsciiCase foreignKey.foreignTable tableName = true
      · simp [renameReferred, hforeign, isPrimaryKey]
      · simp [renameReferred, hforeign, isPrimaryKey]
    | primaryKey name columns => rfl
    | unique name columns => rfl
    | check name expr => rfl
  refine ⟨h.distinct, ?_, ⟨?_, h.named.indexes⟩, ?_⟩
  · rw [List.filter_map, List.length_map, hprimary]
    exact h.primaryKey
  · intro constraint hmem column hcolumn
    obtain ⟨before, hbefore, rfl⟩ := List.mem_map.mp hmem
    rw [constraintColumns_renameReferred] at hcolumn
    exact h.named.constraints before hbefore column hcolumn
  · intro constraint hmem reference hreference
    obtain ⟨before, hbefore, rfl⟩ := List.mem_map.mp hmem
    cases before with
    | check name expr => exact h.checks _ hbefore reference hreference
    | foreignKey foreignKey =>
      rw [renameReferred] at hreference
      split_ifs at hreference <;> cases hreference
    | primaryKey name columns => cases hreference
    | unique name columns => cases hreference

/-- A table whose schema is well-formed. -/
def Table.WellFormed (table : Table) : Prop := table.schema.WellFormed

theorem wellFormed_alterOthers (h : tables.All Table.WellFormed) (tableName : String)
    (operation : AlterOperation) :
    (alterOthers H tables tableName operation).All Table.WellFormed := by
  cases operation with
  | renameColumn oldName newName =>
    refine h.mapValues fun name table hwell => ?_
    split
    · exact hwell
    · split
      · exact wellFormed_refreshSchema (wellFormed_renameReferred hwell tableName oldName newName)
      · exact hwell
  | _ => exact h

/-- Operations that fit, each the tables that those before it leave. -/
def OperationsFit (H : Host) (tableName : String) :
    Tables → Table → List AlterOperation → Prop
  | _, _, [] => True
  | tables, table, operation :: operations =>
    operation.Fits table.schema ∧
      ∀ tables' table', applyAlterOperation H tables tableName table operation =
        .ok (tables', table') → OperationsFit H tableName tables' table' operations

theorem wellFormed_applyAlterOperations {others : Tables} {tableName : String}
    {operations : List AlterOperation} (hparsed : ∀ operation ∈ operations, operation.Parsed)
    (hfits : OperationsFit H tableName tables table operations)
    (hcatalog : tables.All Table.WellFormed) (htable : table.WellFormed)
    (h : applyAlterOperations H tableName tables table operations = .ok (others, table')) :
    others.All Table.WellFormed ∧ table'.WellFormed := by
  induction operations generalizing tables table with
  | nil =>
    obtain ⟨rfl, rfl⟩ := Prod.mk.inj (Except.ok.inj h)
    exact ⟨hcatalog, htable⟩
  | cons operation operations ih =>
    obtain ⟨hfit, hrestFit⟩ := hfits
    obtain ⟨⟨next, nextTable⟩, hoperation, hrest⟩ := Result.bind_eq_ok.mp h
    have hparsed' : ∀ operation ∈ operations, operation.Parsed :=
      fun operation hmem => hparsed operation (List.mem_cons_of_mem _ hmem)
    have hfits' := hrestFit next nextTable hoperation
    rcases applyAlterOperation_ok hoperation with ⟨rfl, rfl⟩ | ⟨altered, halter, rfl, rfl⟩
    · exact ih hparsed' hfits' hcatalog htable hrest
    · have hsane := alterTable_sane (hparsed operation List.mem_cons_self) hfit halter htable.toSane
      exact ih hparsed' hfits' (wellFormed_alterOthers hcatalog tableName operation)
        (wellFormed_refreshSchema hsane) hrest

end Alter

/-! ## CREATE TABLE -/

theorem distinct_of_firstDuplicate {columns : List ColumnDef} {seen : List String}
    (h : firstDuplicate seen columns = none) :
    DistinctNames (columns.map ColumnDef.name) ∧
      ∀ column ∈ columns, toAsciiLowercase column.name ∉ seen := by
  induction columns generalizing seen with
  | nil => exact ⟨fun i j a b ha => by simp at ha, fun column hmem => by cases hmem⟩
  | cons column columns ih =>
    rw [firstDuplicate] at h
    split_ifs at h with hseen
    obtain ⟨hdistinct, hfresh⟩ := ih h
    have hother : ∀ (i : Nat) (b : String), (columns.map ColumnDef.name)[i]? = some b →
        eqIgnoreAsciiCase column.name b = false := by
      intro i b hb
      obtain ⟨other, hmem, rfl⟩ := List.mem_map.mp (List.mem_of_getElem? hb)
      rw [← Bool.not_eq_true]
      intro heq
      refine hfresh other hmem ?_
      rw [← toAsciiLowercase_inj.mpr heq]
      exact List.mem_cons_self
    constructor
    · intro i j a b ha hb hab
      cases i with
      | zero =>
        obtain rfl := Option.some.inj ha
        cases j with
        | zero => rfl
        | succ j =>
          rw [hother j b hb] at hab
          cases hab
      | succ i =>
        cases j with
        | zero =>
          obtain rfl := Option.some.inj hb
          rw [eqIgnoreAsciiCase_comm, hother i a ha] at hab
          cases hab
        | succ j => rw [hdistinct i j a b ha hb hab]
    · intro found hmem
      rcases List.mem_cons.mp hmem with rfl | hmem
      · exact hseen
      · exact fun hin => hfresh found hmem (List.mem_cons_of_mem _ hin)

/-- The constraint loop of CREATE TABLE counts the PRIMARY KEYs and marks their columns. -/
theorem applyConstraints_flags {seen : List String} {columns columns' : List ColumnDef}
    {primaryKeys primaryKeys' : Nat} {constraints : List TableConstraint} {names : List String}
    (hdistinct : DistinctNames (columns.map ColumnDef.name)) (hnames : NotNull names columns)
    (h : applyConstraints seen columns primaryKeys constraints = .ok (columns', primaryKeys')) :
    primaryKeys' = primaryKeys + (constraints.filter isPrimaryKey).length ∧
      NotNull names columns' ∧
      ∀ constraint ∈ constraints, isPrimaryKey constraint = true →
        NotNull (constraintColumns constraint) columns' := by
  induction constraints generalizing columns primaryKeys names with
  | nil =>
    obtain ⟨rfl, rfl⟩ := Prod.mk.inj (Except.ok.inj h)
    exact ⟨rfl, hnames, fun constraint hmem => by cases hmem⟩
  | cons first constraints ih =>
    rw [applyConstraints] at h
    split at h
    · simp [refuse] at h
    · cases first with
      | primaryKey name keyColumns =>
        have hdistinct' :
          DistinctNames ((markPrimaryKey keyColumns columns).map ColumnDef.name) := by
          rw [names_markPrimaryKey]
          exact hdistinct
        have hmarked := notNull_markPrimaryKey hdistinct hnames keyColumns
        obtain ⟨hcount, hkept, hrest⟩ := ih hdistinct' hmarked h
        refine ⟨?_, fun c hc hnull n hn => hkept c hc hnull n (List.mem_append_left _ hn), ?_⟩
        · rw [hcount, List.filter_cons_of_pos rfl, List.length_cons]
          simp only [applyKeyFlags]
          omega
        · intro constraint hmem hprimary
          rcases List.mem_cons.mp hmem with rfl | hmem
          · exact fun c hc hnull n hn => hkept c hc hnull n (List.mem_append_right _ hn)
          · exact hrest constraint hmem hprimary
      | _ =>
        obtain ⟨hcount, hkept, hrest⟩ := ih hdistinct hnames h
        refine ⟨by rw [hcount, List.filter_cons_of_neg (by simp [isPrimaryKey])]; rfl, hkept, ?_⟩
        intro constraint hmem hprimary
        rcases List.mem_cons.mp hmem with rfl | hmem
        · cases hprimary
        · exact hrest constraint hmem hprimary

/-- What CREATE TABLE does not check: that the CHECK expressions read columns of the table. -/
def CreateFits (tables : Tables) (tableName : String) (columns : List ColumnDef)
    (constraints : List TableConstraint) : Prop :=
  tables.lookup (toAsciiLowercase tableName) = none →
    ∀ constraint ∈ constraints, ∀ reference ∈ checkReferences constraint,
      (∃ column ∈ columns, eqIgnoreAsciiCase column.name reference.2 = true) ∧
        ∀ table ∈ reference.1, eqIgnoreAsciiCase (toAsciiLowercase tableName) table = true

section Runs

variable {H : Host} {tables tables' : Tables} {result : ExecutionResult}

theorem executeCreateTable_wellFormed {tableName : String} {columns : List ColumnDef}
    {constraints : List TableConstraint} {ifNotExists : Bool}
    (hfits : CreateFits tables tableName columns constraints)
    (hcatalog : tables.All Table.WellFormed)
    (h : executeCreateTable H tables tableName columns constraints ifNotExists =
      .ok (result, tables')) : tables'.All Table.WellFormed := by
  unfold executeCreateTable at h
  simp only at h
  split at h
  · split at h
    · obtain ⟨-, rfl⟩ := Prod.mk.inj (Except.ok.inj h)
      exact hcatalog
    · simp [refuse] at h
  · rename_i hnew
    split at h
    · simp [refuse] at h
    · rename_i hduplicate
      obtain ⟨⟨flagged, primaryKeys⟩, hconstraints, h⟩ := Result.bind_eq_ok.mp h
      obtain ⟨hdistinct, -⟩ := distinct_of_firstDuplicate hduplicate
      obtain ⟨hnames, -⟩ := applyConstraints_ok hconstraints
      obtain ⟨hcount, -, hnotNull⟩ :=
        applyConstraints_flags hdistinct (notNull_nil columns) hconstraints
      have hcolumns := hasColumn_of_applyConstraints hconstraints
      split at h
      · simp [refuse] at h
      · rename_i hone
        obtain ⟨-, rfl⟩ := Prod.mk.inj (Except.ok.inj h)
        refine hcatalog.insert ⟨⟨?_, ?_, ⟨hcolumns, hasColumn_automaticIndexes hcolumns⟩, ?_⟩, ?_⟩
        · show DistinctNames (flagged.map ColumnDef.name)
          rw [hnames]
          exact hdistinct
        · show (constraints.filter isPrimaryKey).length ≤ 1
          omega
        · intro constraint hmem reference hreference
          have hnone : tables.lookup (toAsciiLowercase tableName) = none := by simpa using hnew
          obtain ⟨⟨column, hcolumn, heq⟩, hqualifier⟩ :=
            hfits hnone constraint hmem reference hreference
          have hname : column.name ∈ flagged.map ColumnDef.name := by
            rw [hnames]
            exact List.mem_map_of_mem hcolumn
          obtain ⟨found, hfound, hfoundName⟩ := List.mem_map.mp hname
          exact ⟨⟨found, hfound, hfoundName ▸ heq⟩, hqualifier⟩
        · intro constraint hmem hprimary name hname column hcolumn heq
          by_contra hnull
          rw [hnotNull constraint hmem hprimary column hcolumn (by simpa using hnull) name hname]
            at heq
          cases heq

/-! ## Runs -/

/-- What a statement does not check about the schemas that it leaves behind. -/
def Statement.Fits (H : Host) (tables : Tables) : Statement → Prop
  | .createTable tableName columns constraints _ => CreateFits tables tableName columns constraints
  | .alterTable tableName operations =>
    ∀ existing, tables.lookup (toAsciiLowercase tableName) = some existing →
      OperationsFit H (toAsciiLowercase tableName) tables existing operations
  | _ => True

/-- **Every statement that fits keeps schemas well-formed.** -/
theorem wellFormed_step {statement : Statement} (hparsed : statement.Parsed)
    (hfits : statement.Fits H tables)
    (h : executeStatement H tables statement = .ok (result, tables'))
    (hcatalog : tables.All Table.WellFormed) : tables'.All Table.WellFormed := by
  cases hwrite : isWriteStatement statement with
  | false =>
    rw [executeStatement_read hwrite h]
    exact hcatalog
  | true =>
    cases statement with
    | createTable tableName columns constraints ifNotExists =>
      exact executeCreateTable_wellFormed hfits hcatalog h
    | dropTable tableName ifExists =>
      rcases executeDropTable_ok h with rfl | rfl
      · exact hcatalog
      · exact hcatalog.erase _
    | createIndex name tableName columns unique ifNotExists =>
      rcases executeCreateIndex_ok h with rfl | ⟨existing, definition, hlookup, hknown, -, rfl⟩
      · exact hcatalog
      · have hwell : existing.schema.WellFormed := hcatalog _ existing hlookup
        refine hcatalog.insert ⟨⟨hwell.distinct, hwell.primaryKey,
          ⟨hwell.named.constraints, ?_⟩, hwell.checks⟩, hwell.notNull⟩
        intro found hmem column hcolumn
        rcases List.mem_append.mp hmem with hmem | hmem
        · exact hwell.named.indexes found hmem column hcolumn
        · exact hknown column (List.mem_singleton.mp hmem ▸ hcolumn)
    | dropIndex name tableName ifExists =>
      rcases executeDropIndex_ok h with rfl | ⟨existing, position, dropped, hlookup, -, -, rfl⟩
      · exact hcatalog
      · have hwell : existing.schema.WellFormed := hcatalog _ existing hlookup
        exact hcatalog.insert ⟨⟨hwell.distinct, hwell.primaryKey,
          ⟨hwell.named.constraints, fun found hmem =>
            hwell.named.indexes found (List.mem_of_mem_eraseIdx hmem)⟩, hwell.checks⟩,
          hwell.notNull⟩
    | alterTable tableName operations =>
      obtain ⟨existing, table, others, hlookup, hoperations, rfl⟩ := executeAlterTable_ok h
      obtain ⟨hothers, htable⟩ := wellFormed_applyAlterOperations hparsed (hfits existing hlookup)
        hcatalog (hcatalog _ existing hlookup) hoperations
      exact hothers.insert (wellFormed_refreshSchema htable.toSane)
    | insert tableName columns source onDuplicate =>
      obtain ⟨values, existing, table, rows, count, -, hlookup, -, hinsert, rfl, -, -⟩ :=
        executeInsert_ok h
      refine hcatalog.insert ?_
      rw [Table.WellFormed, (insertRows_grown hinsert).schema]
      exact hcatalog _ existing hlookup
    | update tableName assignments selection =>
      obtain ⟨table, updated, hlookup, -, rfl, -, -⟩ := executeUpdate_ok h
      have hwell : table.schema.WellFormed := hcatalog _ table hlookup
      exact hcatalog.insert hwell
    | delete tableName selection =>
      obtain ⟨table, kept, hlookup, -, rfl, -, -⟩ := executeDelete_ok h
      have hwell : table.schema.WellFormed := hcatalog _ table hlookup
      exact hcatalog.insert hwell
    | _ => simp [isWriteStatement] at hwrite

end Runs

/-! ## Unknown columns -/

/-- The error that names an unknown column. -/
def Fault.isUnknownColumn : Fault → Bool
  | .error message => "Unknown column".toList.isPrefixOf message.toList
  | .panic => false

section Unknown

variable {H : Host} {tables : Tables} {ctes : Ctes} {queries : List Query} {α β : Type}

/-- A computation reports an unknown column only when one of the queries does. -/
def BlamesOnly (H : Host) (tables : Tables) (ctes : Ctes) (queries : List Query)
    (result : Except Fault α) : Prop :=
  ∀ fault, result = .error fault → fault.isUnknownColumn = true →
    ∃ query ∈ queries, executeQuery H tables query ctes = .error fault

theorem BlamesOnly.mono {more : List Query} {result : Except Fault α}
    (h : BlamesOnly H tables ctes queries result) (hle : queries ⊆ more) :
    BlamesOnly H tables ctes more result := by
  intro fault hfault hunknown
  obtain ⟨query, hmem, hquery⟩ := h fault hfault hunknown
  exact ⟨query, hle hmem, hquery⟩

theorem BlamesOnly.ok (a : α) : BlamesOnly H tables ctes queries (.ok a) :=
  fun fault hfault => by cases hfault

theorem BlamesOnly.of_other {result : Except Fault α}
    (h : ∀ fault, result = .error fault → fault.isUnknownColumn = false) :
    BlamesOnly H tables ctes queries result := by
  intro fault hfault hunknown
  rw [h fault hfault] at hunknown
  cases hunknown

theorem BlamesOnly.error {message : String}
    (h : ¬ "Unknown column".toList <+: message.toList) :
    BlamesOnly H tables ctes queries (.error (.error message) : Except Fault α) := by
  refine .of_other fun fault hfault => ?_
  obtain rfl := Except.error.inj hfault
  rw [Fault.isUnknownColumn, Bool.eq_false_iff, Ne, List.isPrefixOf_iff_prefix]
  exact h

theorem BlamesOnly.panic : BlamesOnly H tables ctes queries (.error .panic : Except Fault α) := by
  refine .of_other fun fault hfault => ?_
  obtain rfl := Except.error.inj hfault
  rfl

theorem BlamesOnly.bind {result : Except Fault α} {next : α → Except Fault β}
    (h : BlamesOnly H tables ctes queries result)
    (hnext : ∀ a, BlamesOnly H tables ctes queries (next a)) :
    BlamesOnly H tables ctes queries (result >>= next) := by
  cases result with
  | error fault => exact fun found hfound => h found (by rw [Except.error.inj hfound])
  | ok a => exact hnext a

theorem blamesOnly_query (query : Query) :
    BlamesOnly H tables ctes [query] (executeQuery H tables query ctes) :=
  fun _ hfault _ => ⟨query, List.mem_singleton_self query, hfault⟩

theorem blamesOnly_overflowing (n : Int) : BlamesOnly H tables ctes queries (overflowing H n) := by
  unfold overflowing
  split_ifs
  · exact .panic
  · exact .ok _

theorem blamesOnly_divideIntegers (a b : Int64) :
    BlamesOnly H tables ctes queries (divideIntegers a b) := by
  unfold divideIntegers
  split_ifs
  · exact .panic
  · exact .ok _

theorem blamesOnly_numericBinary {left right : Value} {op : BinaryOp} {float : F64 → F64 → F64} :
    BlamesOnly H tables ctes queries (numericBinary left right (integerOp H op) float) := by
  unfold numericBinary
  split
  · exact .ok _
  · exact .ok _
  · unfold integerOp
    split
    · exact blamesOnly_overflowing _
    · exact blamesOnly_overflowing _
    · exact blamesOnly_overflowing _
    · exact blamesOnly_divideIntegers _ _
  · exact .ok _
  · exact .ok _
  · exact .ok _
  · exact .error (by simp)

theorem blamesOnly_evalBinary (op : BinaryOp) (left right : Value) :
    BlamesOnly H tables ctes queries (evalBinary H op left right) := by
  unfold evalBinary
  split
  · exact .ok _
  · split_ifs
    · exact .error (by simp)
    · exact blamesOnly_numericBinary
  · exact blamesOnly_numericBinary

theorem blamesOnly_evalUnary (op : UnaryOp) (value : Value) :
    BlamesOnly H tables ctes queries (evalUnary H op value) := by
  unfold evalUnary
  split
  · exact .ok _
  · exact .ok _
  · exact blamesOnly_overflowing _
  · exact .ok _
  · exact .ok _
  · exact .ok _
  · exact .error (by simp)

theorem blamesOnly_scalarSubqueryValue (relation : Relation) :
    BlamesOnly H tables ctes queries (scalarSubqueryValue relation) := by
  unfold scalarSubqueryValue
  split_ifs
  · exact .error (by simp)
  · split
    · exact .ok _
    · unfold rowAt
      split
      · exact .ok _
      · exact .panic
    · exact .error (by simp)

/-- A column that the schema knows is found, if not unambiguously. -/
theorem blamesOnly_resolveColumn {schema : TableSchema} {qualifier : Option String} {name : String}
    (h : schema.Knows (qualifier, name)) :
    BlamesOnly H tables ctes queries
      (resolveColumn (boundColumns schema.name schema) qualifier name) := by
  obtain ⟨⟨column, hmem, heq⟩, hqualifier⟩ := h
  unfold resolveColumn
  simp only
  split
  · exact .ok _
  · rename_i hnone
    obtain ⟨i, hi⟩ := List.mem_iff_getElem?.mp hmem
    have hbound : ({ table := schema.name, name := column.name }, i) ∈
        (boundColumns schema.name schema).zipIdx := by
      rw [List.mk_mem_zipIdx_iff_getElem?, boundColumns, List.getElem?_map, hi]
      rfl
    have hskipped := List.filterMap_eq_nil_iff.mp hnone _ hbound
    have htable : qualifier.all (fun table => eqIgnoreAsciiCase schema.name table) = true := by
      cases qualifier with
      | none => rfl
      | some table => exact hqualifier table rfl
    simp [heq, htable] at hskipped
  · exact .error (by simp [toString, String.toList_append])

variable {schema : TableSchema} {row : Row}

mutual

/-- The value of an expression all of whose columns the schema knows. -/
theorem blamesOnly_evalExpr (expr : Expr)
    (h : ∀ reference ∈ columnReferences expr, schema.Knows reference) :
    BlamesOnly H tables ctes (subqueries expr)
      (evalExpr H tables expr (boundColumns schema.name schema) row none ctes) := by
  cases expr with
  | literal value =>
    rw [evalExpr]
    exact .ok _
  | parameter index =>
    rw [evalExpr]
    exact .error (by simp [toString, String.toList_append])
  | incoming column =>
    rw [evalExpr]
    exact .error (by simp [toString, String.toList_append])
  | column qualifier name =>
    rw [evalExpr]
    refine (blamesOnly_resolveColumn (h _ (List.mem_singleton_self _))).bind fun index => ?_
    split
    · exact .ok _
    · exact .error (by simp [toString, String.toList_append])
  | unary op expr =>
    rw [evalExpr]
    exact (blamesOnly_evalExpr expr h).bind fun value => blamesOnly_evalUnary op value
  | binary left op right =>
    simp only [columnReferences, List.forall_mem_append] at h
    have hleft := (blamesOnly_evalExpr left h.1).mono
      (List.subset_append_left (subqueries left) (subqueries right))
    have hright := (blamesOnly_evalExpr right h.2).mono
      (List.subset_append_right (subqueries left) (subqueries right))
    rw [evalExpr]
    refine hleft.bind fun value => ?_
    split
    · split_ifs
      · exact .ok _
      · exact hright.bind fun _ => .ok _
    · split_ifs
      · exact .ok _
      · exact hright.bind fun _ => .ok _
    · exact hright.bind fun _ => blamesOnly_evalBinary _ _ _
  | isNull expr negated =>
    rw [evalExpr]
    exact (blamesOnly_evalExpr expr h).bind fun _ => .ok _
  | like expr pattern negated =>
    simp only [columnReferences, List.forall_mem_append] at h
    rw [evalExpr]
    refine ((blamesOnly_evalExpr expr h.1).mono (List.subset_append_left _ _)).bind fun _ => ?_
    exact ((blamesOnly_evalExpr pattern h.2).mono (List.subset_append_right _ _)).bind
      fun _ => .ok _
  | inList expr list negated =>
    simp only [columnReferences, List.forall_mem_append] at h
    rw [evalExpr]
    refine ((blamesOnly_evalExpr expr h.1).mono (List.subset_append_left _ _)).bind fun _ => ?_
    exact ((blamesOnly_evalExprs list h.2).mono (List.subset_append_right _ _)).bind fun _ => .ok _
  | inSubquery expr query negated =>
    rw [evalExpr]
    refine ((blamesOnly_evalExpr expr h).mono (List.subset_append_left _ _)).bind fun _ => ?_
    refine ((blamesOnly_query query).mono (List.subset_append_right _ _)).bind fun relation => ?_
    split
    · exact .error (by simp)
    · exact .ok _
  | exist query negated =>
    rw [evalExpr]
    exact (blamesOnly_query query).bind fun _ => .ok _
  | scalarSubquery query =>
    rw [evalExpr]
    exact (blamesOnly_query query).bind fun relation => blamesOnly_scalarSubqueryValue relation
  | aggregate function expr distinct =>
    cases expr with
    | none =>
      rw [evalExpr]
      exact .error (by simp)
    | some expr =>
      rw [evalExpr]
      exact .error (by simp)
termination_by structural expr

theorem blamesOnly_evalExprs (exprs : List Expr)
    (h : ∀ reference ∈ columnReferencesOf exprs, schema.Knows reference) :
    BlamesOnly H tables ctes (subqueriesOf exprs)
      (evalExprs H tables exprs (boundColumns schema.name schema) row none ctes) := by
  cases exprs with
  | nil =>
    rw [evalExprs]
    exact .ok _
  | cons expr exprs =>
    simp only [columnReferencesOf, List.forall_mem_append] at h
    rw [evalExprs]
    refine ((blamesOnly_evalExpr expr h.1).mono (List.subset_append_left _ _)).bind fun _ => ?_
    exact ((blamesOnly_evalExprs exprs h.2).mono (List.subset_append_right _ _)).bind fun _ => .ok _
termination_by structural exprs

end

theorem BlamesOnly.forM {f : α → Except Fault Unit} {items : List α}
    (h : ∀ item ∈ items, BlamesOnly H tables ctes queries (f item)) :
    BlamesOnly H tables ctes queries (items.forM f) := by
  induction items with
  | nil => exact .ok ()
  | cons item items ih =>
    exact (h item List.mem_cons_self).bind fun _ =>
      ih fun other hmem => h other (List.mem_cons_of_mem _ hmem)

/-- The subqueries of a CHECK. -/
def checkSubqueries : TableConstraint → List Query
  | .check _ expr => subqueries expr
  | _ => []

/-- **Checking a row of a well-formed schema** reports an unknown column only when a
subquery of a CHECK does. -/
theorem unknown_only_in_subqueries {table : Table} (h : table.schema.WellFormed) (row : Row) :
    BlamesOnly H tables ∅ (table.schema.constraints.flatMap checkSubqueries)
      (validateChecks H tables table row) := by
  refine BlamesOnly.forM fun constraint hmem => ?_
  cases constraint with
  | check name expr =>
    have hvalue : BlamesOnly H tables ∅ (subqueries expr)
        (evalExpr H tables expr (boundColumns table.schema.name table.schema) row none ∅) :=
      blamesOnly_evalExpr expr (h.checks _ hmem)
    refine (hvalue.mono fun query hquery => List.mem_flatMap.mpr ⟨_, hmem, hquery⟩).bind
      fun value => ?_
    split
    · exact .error (by simp [toString, String.toList_append])
    · exact .ok ()
  | primaryKey name columns => exact .ok ()
  | unique name columns => exact .ok ()
  | foreignKey foreignKey => exact .ok ()

end Unknown

/-! ## Guarded runs -/

/-- The catalogs of runs from the empty one in which every statement fits. -/
inductive Guarded (H : Host) : Tables → Prop
  | empty : Guarded H ∅
  | step {tables tables' : Tables} {statement : Statement} {result : ExecutionResult} :
      Guarded H tables → statement.Parsed → statement.Fits H tables →
      executeCatalog H tables statement = .ok (result, tables') → Guarded H tables'
  | configure {tables : Tables} (rate : F64) :
      Guarded H tables → Guarded H (tables.configureBloomFalsePositiveRate H rate)

/-- **Schemas stay well-formed in every run whose statements fit**, and no row that is
checked later is rejected because of an unknown column, unless a subquery of a CHECK names
one. -/
theorem wellFormed_of_guarded {H : Host} {tables : Tables} (h : Guarded H tables) :
    tables.All fun table => table.schema.WellFormed ∧
      ∀ (later : Tables) (row : Row),
        BlamesOnly H later ∅ (table.schema.constraints.flatMap checkSubqueries)
          (validateChecks H later table row) := by
  have hwell : tables.All Table.WellFormed := by
    induction h with
    | empty => exact Tables.All.empty
    | step _ hparsed hfits hexecute ih =>
      exact wellFormed_step hparsed hfits (executeCatalog_ok hexecute).1 ih
    | configure rate _ ih => exact ih.mapValues fun name table hwell => hwell
  intro name table hlookup
  have htable := hwell name table hlookup
  exact ⟨htable, fun later row => unknown_only_in_subqueries htable row⟩

/-- `CREATE TABLE t (a INTEGER, CHECK (name > 0))`. -/
def createChecked (name : String) : Statement :=
  .createTable "t" [plainColumn "a" .integer]
    [.check none (.binary (.column none name) (.compare .greaterThan) (.literal (.integer 0)))]
    false

/-- A CHECK over the column of the table fits, and the table is well-formed. -/
theorem checked_table_is_wellFormed : ∃ tables : Tables,
    (tables.lookup "t").isSome = true ∧ tables.All Table.WellFormed := by
  have hrun : ((executeCatalog Host.reference ∅ (createChecked "a")).map fun done =>
      (done.2.lookup "t").isSome).toOption = some true := by
    decide +kernel
  obtain ⟨⟨result, tables⟩, hexecute, hsome⟩ :=
    Result.map_eq_ok.mp (Result.toOption_eq_some.mp hrun)
  have hfits : (createChecked "a").Fits Host.reference ∅ := by
    intro _ constraint hmem reference hreference
    obtain rfl := List.mem_singleton.mp hmem
    obtain rfl := List.mem_singleton.mp hreference
    exact ⟨⟨plainColumn "a" .integer, List.mem_singleton_self _, by decide⟩,
      fun table h => by cases h⟩
  have hguarded : Guarded Host.reference tables :=
    Guarded.step Guarded.empty (by simp [createChecked, Statement.Parsed]) hfits hexecute
  exact ⟨tables, hsome, fun name table hlookup =>
    (wellFormed_of_guarded hguarded name table hlookup).1⟩

/-- `ALTER TABLE t ADD COLUMN name INTEGER PRIMARY KEY`. -/
def addKey (name : String) : Statement :=
  .alterTable "t"
    [.addColumn
      { plainColumn name .integer with nullable := false, primaryKey := true, unique := true }
      [.primaryKey none [name]] false]

/-- `INSERT INTO t VALUES (1)`. -/
def insertOne : Statement := .insert "t" none (.values [[.literal (.integer 1)]]) []

/-- The message of a statement that fails. -/
def refusal (outcome : Outcome) : Option String :=
  match outcome with
  | .error (.error message) => some message
  | _ => none

/-- Two runs that end with a schema that is not well-formed: a CHECK over a column that the
table does not have, after which every INSERT is rejected, and two PRIMARY KEYs. -/
theorem schemas_break :
    (∃ tables : Tables, Reachable Host.reference tables 0 ∧ ¬ tables.All Table.WellFormed ∧
      refusal (executeCatalog Host.reference tables insertOne) = some "Unknown column 'b'") ∧
    ∃ tables : Tables, Reachable Host.reference tables 0 ∧ ¬ tables.All Table.WellFormed := by
  constructor
  · have hrun : ((runStatements Host.reference (∅, 0) [createChecked "b"]).map fun state =>
        (state.2, (state.1.lookup "t").map fun table =>
          table.schema.columns.map ColumnDef.name)).toOption = some (0, some ["a"]) := by
      decide +kernel
    have hcheck : ((runStatements Host.reference (∅, 0) [createChecked "b"]).map fun state =>
        ((state.1.lookup "t").map fun table =>
          table.schema.constraints.flatMap checkReferences)).toOption =
        some (some [(none, "b")]) := by
      decide +kernel
    have hinsert : ((runStatements Host.reference (∅, 0) [createChecked "b"]).map fun state =>
        refusal (executeCatalog Host.reference state.1 insertOne)).toOption =
        some (some "Unknown column 'b'") := by
      decide +kernel
    obtain ⟨⟨tables, inserted⟩, hstatements, hreport⟩ :=
      Result.map_eq_ok.mp (Result.toOption_eq_some.mp hrun)
    obtain ⟨rfl, htable⟩ := Prod.mk.inj hreport
    obtain ⟨table, hlookup, hnames⟩ := Option.map_eq_some_iff.mp htable
    rw [hstatements] at hcheck hinsert
    have hrefused := Option.some.inj hinsert
    have hreferences := Option.some.inj hcheck
    simp only [hlookup, Option.map_some, Option.some.injEq] at hreferences
    have hreach : Reachable Host.reference tables 0 := reachable_runStatements Reachable.empty
      (by simp [createChecked, Statement.Parsed]) hstatements
    refine ⟨tables, hreach, fun hwell => ?_, hrefused⟩
    obtain ⟨constraint, hmem, hreference⟩ : ∃ constraint ∈ table.schema.constraints,
        (none, "b") ∈ checkReferences constraint := by
      rw [← List.mem_flatMap, hreferences]
      exact List.mem_singleton_self _
    obtain ⟨⟨column, hcolumn, heq⟩, -⟩ :=
      (hwell "t" table hlookup).checks constraint hmem _ hreference
    have hname : column.name ∈ ["a"] := hnames ▸ List.mem_map_of_mem hcolumn
    rw [List.mem_singleton.mp hname] at heq
    exact absurd heq (by decide)
  · have hrun : ((runStatements Host.reference (∅, 0) [createKeyed, addKey "k"]).map fun state =>
        (state.2, (state.1.lookup "t").map fun table =>
          (table.schema.constraints.filter isPrimaryKey).length)).toOption =
        some (0, some 2) := by
      decide +kernel
    obtain ⟨⟨tables, inserted⟩, hstatements, hreport⟩ :=
      Result.map_eq_ok.mp (Result.toOption_eq_some.mp hrun)
    obtain ⟨rfl, htable⟩ := Prod.mk.inj hreport
    obtain ⟨table, hlookup, hkeys⟩ := Option.map_eq_some_iff.mp htable
    have hreach : Reachable Host.reference tables 0 := reachable_runStatements Reachable.empty
      (by simp [createKeyed, addKey, plainColumn, Statement.Parsed, AlterOperation.Parsed,
        constraintColumns]) hstatements
    refine ⟨tables, hreach, fun hwell => ?_⟩
    have hone := (hwell "t" table hlookup).primaryKey
    omega

end Sql
end RustyDB
