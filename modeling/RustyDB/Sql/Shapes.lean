import Mathlib
import RustyDB.Sql.AggregateOrder
import RustyDB.Sql.JoinScan
import RustyDB.Sql.Metadata
import RustyDB.Sql.RowKeys
import RustyDB.Sql.Stored

/-!
# Shapes of relations

A relation of `src/sql/executor.rs` has named columns and rows of any values.  A shape gives
each column a type, and the stages of a query take relations of one shape to relations of
another.

* `Shape`, `Shape.Admits`, `Relation.Fits` — columns with types, and what is of a shape.
* `hasType_evalBinary`, `hasType_evalUnary`, `hasType_finishAggregate` — **the type of a
  result from the types of the operands.**
* `fits_cteRelation`, `fits_relationFromTable`, `fits_joinRelations` — where rows come from.
* `fits_finishQuery` — **every stage behind the joins**, for any evaluators that project into
  a shape.
-/

namespace RustyDB
namespace Sql

/-! ## Shapes -/

/-- The columns of a relation, each with a type. -/
abbrev Shape := List (BoundColumn × DataType)

/-- The columns without their types. -/
def Shape.columns (shape : Shape) : List BoundColumn := shape.map Prod.fst

/-- The shape of a table under the name that a query gives it. -/
def schemaShape (visibleName : String) (schema : TableSchema) : Shape :=
  schema.columns.map fun column => (⟨visibleName, column.name⟩, column.dataType)

/-- The shape under the alias of a derived table. -/
def Shape.renameTable (shape : Shape) (name : String) : Shape :=
  shape.map fun entry => ({ entry.1 with table := name }, entry.2)

/-- The shape of a CTE, under its column list when there is one. -/
def cteShape (name : String) (columns : List String) (shape : Shape) : Shape :=
  if columns.isEmpty then shape.renameTable name
  else Shape.renameTable
    (shape.zipWith (fun entry name => ({ entry.1 with name }, entry.2)) columns) name

/-- The type of what a binary operator computes. -/
def binaryType (op : BinaryOp) (left right : DataType) : DataType :=
  match op with
  | .and => .boolean
  | .or => .boolean
  | .compare _ => .boolean
  | _ => arithmeticType left right

/-- The type of what a unary operator computes. -/
def unaryType (op : UnaryOp) (type : DataType) : DataType :=
  match op with
  | .not => .boolean
  | _ => type

/-- The type of what an aggregate function computes. -/
def aggregateType (function : AggregateFunction) (type : DataType) : DataType :=
  match function with
  | .count => .integer
  | .avg => .float
  | _ => type

/-! ## Values of a shape -/

/-- A row has one value for each column, and each is NULL or of the type. -/
def Shape.Admits (shape : Shape) (row : Row) : Prop :=
  List.Forall₂ (fun entry value => value.HasType entry.2) shape row

/-- A relation has the columns of a shape, and rows that it admits. -/
structure Relation.Fits (relation : Relation) (shape : Shape) : Prop where
  columns : relation.columns = shape.columns
  rows : ∀ row ∈ relation.rows, shape.Admits row

/-- Sorting never makes rows up: what `sort_by` and `select_nth_unstable_by` leave is a
permutation, also when the comparison is no order. -/
structure Host.Rearranges (H : Host) : Prop where
  sortBy : ∀ {cmp rows sorted}, H.sortBy cmp rows = .ok sorted → sorted.Perm rows
  selectNthUnstableBy : ∀ {n cmp rows selected},
    H.selectNthUnstableBy n cmp rows = .ok selected → selected.Perm rows

theorem rearranges_reference : Host.reference.Rearranges where
  sortBy h := by
    unfold Host.reference at h
    simp only [referenceSort] at h
    split_ifs at h
    obtain rfl := Except.ok.inj h
    exact List.perm_insertionSort _ _
  selectNthUnstableBy h := by
    unfold Host.reference at h
    simp only [referenceSort] at h
    split_ifs at h
    obtain rfl := Except.ok.inj h
    exact List.perm_insertionSort _ _

section Scalars

variable {H : Host} {value left right : Value} {type leftType rightType : DataType}

theorem hasType_dataType (value : Value) : value.HasType value.dataType := fun _ => rfl

theorem hasType_truthValue (truth : SqlTruth) : (truthValue truth).HasType .boolean := by
  cases truth with
  | unknown => exact Value.hasType_null _
  | _ => exact fun _ => rfl

theorem hasType_overflowing {n : Int} (h : overflowing H n = .ok value) :
    value.HasType .integer := by
  rw [overflowing] at h
  split_ifs at h
  obtain rfl := Except.ok.inj h
  exact fun _ => rfl

theorem hasType_integerOp {op : BinaryOp} {a b : Int64} (h : integerOp H op a b = .ok value) :
    value.HasType .integer := by
  have hdivide : divideIntegers a b = .ok value → value.HasType .integer := by
    intro h
    rw [divideIntegers] at h
    split_ifs at h
    obtain rfl := Except.ok.inj h
    exact fun _ => rfl
  cases op with
  | add => exact hasType_overflowing h
  | subtract => exact hasType_overflowing h
  | multiply => exact hasType_overflowing h
  | _ => exact hdivide h

/-- A type whose values are not all NULL is that of one of them. -/
theorem eq_of_hasType (h : value.HasType type) (hnull : value ≠ .null) :
    type = value.dataType := (h hnull).symm

theorem hasType_numericBinary {integer : Int64 → Int64 → Except Fault Value}
    {float : F64 → F64 → F64} (hleft : left.HasType leftType) (hright : right.HasType rightType)
    (hinteger : ∀ {a b value}, integer a b = .ok value → value.HasType .integer)
    (h : numericBinary left right integer float = .ok value) :
    value.HasType (arithmeticType leftType rightType) := by
  by_cases hleftNull : left = .null
  · subst hleftNull
    obtain rfl := Except.ok.inj h
    exact Value.hasType_null _
  by_cases hrightNull : right = .null
  · subst hrightNull
    have hnull : value = .null := by
      cases left <;> exact (Except.ok.inj h).symm
    rw [hnull]
    exact Value.hasType_null _
  obtain rfl := eq_of_hasType hleft hleftNull
  obtain rfl := eq_of_hasType hright hrightNull
  cases left <;> cases right <;> first
    | contradiction
    | exact hinteger h
    | (obtain rfl := Except.ok.inj h; exact fun _ => rfl)

theorem hasType_evalBinary {op : BinaryOp} (hand : op ≠ .and) (hor : op ≠ .or)
    (hleft : left.HasType leftType) (hright : right.HasType rightType)
    (h : evalBinary H op left right = .ok value) :
    value.HasType (binaryType op leftType rightType) := by
  cases op with
  | and => exact absurd rfl hand
  | or => exact absurd rfl hor
  | compare operator =>
    obtain rfl := Except.ok.inj h
    exact hasType_truthValue _
  | divide =>
    rw [evalBinary] at h
    split_ifs at h
    exact hasType_numericBinary hleft hright hasType_integerOp h
  | _ => exact hasType_numericBinary hleft hright hasType_integerOp h

theorem hasType_evalUnary {op : UnaryOp} (hvalue : left.HasType type)
    (h : evalUnary H op left = .ok value) : value.HasType (unaryType op type) := by
  by_cases hnull : left = .null
  · subst hnull
    cases op with
    | not =>
      obtain rfl := Except.ok.inj h
      exact hasType_truthValue _
    | _ =>
      obtain rfl := Except.ok.inj h
      exact Value.hasType_null _
  obtain rfl := eq_of_hasType hvalue hnull
  cases op with
  | not =>
    obtain rfl := Except.ok.inj h
    exact hasType_truthValue _
  | negate =>
    cases left with
    | integer n => exact hasType_overflowing h
    | float x =>
      obtain rfl := Except.ok.inj h
      exact fun _ => rfl
    | null => exact absurd rfl hnull
    | _ => cases h
  | plus =>
    cases left with
    | null => exact absurd rfl hnull
    | integer n =>
      obtain rfl := Except.ok.inj h
      exact fun _ => rfl
    | float x =>
      obtain rfl := Except.ok.inj h
      exact fun _ => rfl
    | _ => cases h

end Scalars

/-! ## Aggregates -/

section Aggregates

variable {value : Value} {values : List Value} {type : DataType}

theorem sumValues_false {sum total : F64} {allIntegers : Bool}
    (h : sumValues sum false values = .ok (total, allIntegers)) : allIntegers = false := by
  induction values generalizing sum with
  | nil => exact (Prod.mk.inj (Except.ok.inj h)).2.symm
  | cons value values ih =>
    cases value with
    | integer n => exact ih h
    | float x => exact ih h
    | _ => cases h

/-- What a sum says of the values it has gone through. -/
theorem sumValues_ok {sum total : F64} {allInteger allIntegers : Bool}
    (h : sumValues sum allInteger values = .ok (total, allIntegers)) :
    (allIntegers = true → ∀ value ∈ values, value.dataType = .integer) ∧
      (allIntegers = false → allInteger = false ∨ ∃ value ∈ values, value.dataType = .float) := by
  induction values generalizing sum allInteger with
  | nil =>
    obtain ⟨-, rfl⟩ := Prod.mk.inj (Except.ok.inj h)
    exact ⟨fun _ value hvalue => absurd hvalue List.not_mem_nil, Or.inl⟩
  | cons value values ih =>
    cases value with
    | integer n =>
      rw [sumValues] at h
      obtain ⟨hall, hfloat⟩ := ih h
      refine ⟨fun htrue => List.forall_mem_cons.mpr ⟨rfl, hall htrue⟩, fun hfalse => ?_⟩
      refine (hfloat hfalse).imp_right ?_
      rintro ⟨value, hvalue, htype⟩
      exact ⟨value, List.mem_cons_of_mem _ hvalue, htype⟩
    | float x =>
      rw [sumValues] at h
      refine ⟨fun htrue => ?_, fun _ => Or.inr ⟨_, List.mem_cons_self, rfl⟩⟩
      rw [sumValues_false h] at htrue
      cases htrue
    | _ => cases h

theorem mem_foldl_choice {choose : Value → Value → Value}
    (hchoose : ∀ x y, choose x y = x ∨ choose x y = y) (first : Value) (rest : List Value) :
    rest.foldl choose first ∈ first :: rest := by
  induction rest generalizing first with
  | nil => exact List.mem_cons_self
  | cons second rest ih =>
    have hmem := ih (choose first second)
    rw [List.foldl_cons]
    rcases List.mem_cons.mp hmem with heq | hrest
    · rcases hchoose first second with hfirst | hsecond
      · rw [heq, hfirst]
        exact List.mem_cons_self
      · rw [heq, hsecond]
        exact List.mem_cons_of_mem _ List.mem_cons_self
    · exact List.mem_cons_of_mem _ (List.mem_cons_of_mem _ hrest)

theorem minBy_mem (first : Value) (rest : List Value) : minBy first rest ∈ first :: rest := by
  apply mem_foldl_choice
  intro x y
  by_cases hgt : (x.partialCmp y).getD .eq = .gt
  · exact Or.inr (if_pos hgt)
  · exact Or.inl (if_neg hgt)

theorem maxBy_mem (first : Value) (rest : List Value) : maxBy first rest ∈ first :: rest := by
  apply mem_foldl_choice
  intro x y
  by_cases hgt : (x.partialCmp y).getD .eq = .gt
  · exact Or.inl (if_pos hgt)
  · exact Or.inr (if_neg hgt)

/-- **An aggregate** of values of one type. -/
theorem hasType_finishAggregate {function : AggregateFunction} {distinct : Bool}
    (hvalues : ∀ value ∈ values, value.HasType type)
    (h : finishAggregate function distinct values = .ok value) :
    value.HasType (aggregateType function type) := by
  rw [finishAggregate] at h
  generalize hpresent : (if distinct then retainFirst valueKey [] values else values).filter
    (fun value => !value.isNull) = present at h
  have hmem : ∀ value ∈ present, value ≠ .null ∧ value.HasType type := by
    intro value hvalue
    rw [← hpresent, List.mem_filter] at hvalue
    refine ⟨?_, hvalues value ?_⟩
    · rintro rfl
      exact absurd hvalue.2 (by decide)
    · split at hvalue
      · exact retainFirst_subset hvalue.1
      · exact hvalue.1
  cases present with
  | nil =>
    cases function with
    | count =>
      obtain rfl := Except.ok.inj h
      exact fun _ => rfl
    | _ =>
      obtain rfl := Except.ok.inj h
      exact Value.hasType_null _
  | cons first rest =>
    obtain ⟨hfirst, htype⟩ := hmem first List.mem_cons_self
    have hsum : ∀ {total all}, sumValues ⟨0⟩ true (first :: rest) = .ok (total, all) →
        type = if all then .integer else .float := by
      intro total all hsum
      obtain ⟨hall, hfloat⟩ := sumValues_ok hsum
      cases all with
      | true => exact (eq_of_hasType htype hfirst).trans (hall rfl first List.mem_cons_self)
      | false =>
        obtain ⟨float, hfloat, hdata⟩ := (hfloat rfl).resolve_left (by decide)
        obtain ⟨hnull, hfloatType⟩ := hmem float hfloat
        exact (eq_of_hasType hfloatType hnull).trans hdata
    cases function with
    | count =>
      obtain rfl := Except.ok.inj h
      exact fun _ => rfl
    | min =>
      obtain rfl := Except.ok.inj h
      exact (hmem _ (minBy_mem first rest)).2
    | max =>
      obtain rfl := Except.ok.inj h
      exact (hmem _ (maxBy_mem first rest)).2
    | avg =>
      obtain ⟨⟨total, all⟩, -, h⟩ := Result.bind_eq_ok.mp h
      obtain rfl := Except.ok.inj h
      exact fun _ => rfl
    | sum =>
      obtain ⟨⟨total, all⟩, hrun, h⟩ := Result.bind_eq_ok.mp h
      obtain rfl := hsum hrun
      cases all with
      | true =>
        obtain rfl := Except.ok.inj h
        exact fun _ => rfl
      | false =>
        obtain rfl := Except.ok.inj h
        exact fun _ => rfl

end Aggregates

/-! ## Rows -/

section Rows

variable {shape shape' : Shape} {row row' : Row} {value : Value}

theorem columns_renameTable (shape : Shape) (name : String) :
    (shape.renameTable name).columns =
      shape.columns.map fun column => { column with table := name } := by
  simp [Shape.columns, Shape.renameTable]

theorem columns_append (shape shape' : Shape) :
    Shape.columns (shape ++ shape') = shape.columns ++ shape'.columns := List.map_append

theorem Shape.Admits.renameTable (h : shape.Admits row) (name : String) :
    (shape.renameTable name).Admits row :=
  List.forall₂_map_left_iff.mpr h

theorem Shape.Admits.append (h : shape.Admits row) (h' : shape'.Admits row') :
    Shape.Admits (shape ++ shape') (row ++ row') :=
  List.rel_append h h'

theorem admits_nulls (shape : Shape) :
    shape.Admits (List.replicate shape.columns.length .null) := by
  induction shape with
  | nil => exact List.Forall₂.nil
  | cons entry shape ih => exact List.Forall₂.cons (Value.hasType_null _) ih

/-- The value at a position is of the type there. -/
theorem Shape.Admits.hasType_getElem (h : shape.Admits row) {i : Nat}
    (hvalue : row[i]? = some value) : ∃ entry, shape[i]? = some entry ∧ value.HasType entry.2 := by
  induction h generalizing i with
  | nil => cases hvalue
  | @cons entry first shape row hfirst hrest ih =>
    cases i with
    | zero =>
      obtain rfl := Option.some.inj hvalue
      exact ⟨entry, rfl, hfirst⟩
    | succ i => exact ih hvalue

theorem admits_schemaShape {schema : TableSchema} (h : RowFits Value.HasType schema.types row)
    (visibleName : String) : (schemaShape visibleName schema).Admits row := by
  refine List.forall₂_iff_get.mpr ⟨?_, ?_⟩
  · rw [h.length]
    simp [schemaShape, TableSchema.types]
  · intro i hi hrow
    refine h.values i _ _ (List.getElem?_eq_getElem hrow) ?_
    simp [schemaShape, TableSchema.types] at hi ⊢
    exact ⟨_, List.getElem?_eq_getElem hi, rfl⟩

theorem Shape.Admits.rename (h : shape.Admits row) {columns : List String}
    (hlength : columns.length = shape.columns.length) :
    Shape.Admits (shape.zipWith (fun entry name => ({ entry.1 with name }, entry.2)) columns)
      row := by
  induction h generalizing columns with
  | nil => exact List.Forall₂.nil
  | cons hfirst _ ih =>
    cases columns with
    | nil => cases hlength
    | cons name columns => exact List.Forall₂.cons hfirst (ih (Nat.succ.inj hlength))

/-- The values behind a wildcard are of the types that it covers. -/
theorem admits_wildcardValues {qualifier : Option String} {before values : Row}
    (hrow : shape.Admits row)
    (h : ((shape.columns.zipIdx before.length).filter
      fun entry => wildcardCovers qualifier entry.1).mapM
        (fun entry => rowAt (before ++ row) entry.2) = .ok values) :
    Shape.Admits (shape.filter fun entry => wildcardCovers qualifier entry.1) values := by
  induction hrow generalizing before values with
  | nil =>
    obtain rfl := Except.ok.inj h
    exact List.Forall₂.nil
  | @cons entry first shape row hfirst _ ih =>
    have hnext : before ++ first :: row = (before ++ [first]) ++ row := by simp
    have hlength : before.length + 1 = (before ++ [first]).length := by simp
    rw [Shape.columns, List.map_cons, List.zipIdx_cons, List.filter_cons] at h
    rw [List.filter_cons]
    by_cases hcovers : wildcardCovers qualifier entry.1 = true
    · rw [if_pos hcovers, List.mapM_cons] at h
      rw [if_pos hcovers]
      obtain ⟨value, hvalue, h⟩ := Result.bind_eq_ok.mp h
      obtain ⟨rest, hrest, h⟩ := Result.bind_eq_ok.mp h
      obtain rfl := Except.ok.inj h
      rw [hnext, hlength] at hrest
      refine List.Forall₂.cons ?_ (ih hrest)
      have hself : (before ++ first :: row)[before.length]? = some first := by simp
      rw [rowAt, hself] at hvalue
      obtain rfl := Except.ok.inj hvalue
      exact hfirst
    · rw [if_neg hcovers, hnext, hlength] at h
      rw [if_neg hcovers]
      exact ih h

end Rows

/-! ## Stages of a query -/

section Stages

variable {H : Host} {E : Evaluators} {query : Query} {relation left right result : Relation}
  {shape leftShape rightShape out : Shape} {rows : List Row}

/-- Rows of a relation, in any number and order. -/
theorem Relation.Fits.of_subset (h : relation.Fits shape) (hrows : rows ⊆ relation.rows) :
    Relation.Fits { relation with rows } shape :=
  ⟨h.columns, fun row hrow => h.rows row (hrows hrow)⟩

theorem Relation.Fits.renameTable (h : relation.Fits shape) (name : String) :
    (relation.renameTable name).Fits (shape.renameTable name) := by
  refine ⟨?_, fun row hrow => (h.rows row hrow).renameTable name⟩
  rw [columns_renameTable, ← h.columns]
  rfl

theorem fits_cteRelation {name : String} {columns : List String} (hfits : relation.Fits shape)
    (h : cteRelation name columns relation = .ok result) :
    result.Fits (cteShape name columns shape) := by
  rw [cteRelation] at h
  rw [cteShape]
  split_ifs at h ⊢ with hempty hlength
  · obtain rfl := Except.ok.inj h
    exact hfits.renameTable name
  · obtain rfl := Except.ok.inj h
    have hsame : columns.length = shape.columns.length := by
      rw [not_not.mp hlength, hfits.columns]
    have hcolumns : relation.columns.zipWith (fun column name => { column with name }) columns =
        Shape.columns (shape.zipWith (fun entry name => ({ entry.1 with name }, entry.2))
          columns) := by
      rw [hfits.columns, Shape.columns, Shape.columns, List.map_zipWith, List.zipWith_map_left]
    have hrenamed : Relation.Fits { relation with columns := _ } _ :=
      ⟨hcolumns, fun row hrow => (hfits.rows row hrow).rename hsame⟩
    exact hrenamed.renameTable name

theorem fits_relationFromTable {table : Table} (hexact : table.Exact) (visibleName : String)
    (selection : Option Expr) : (relationFromTable H table visibleName selection).Fits
      (schemaShape visibleName table.schema) := by
  refine ⟨?_, ?_⟩
  · simp [relationFromTable, boundColumns, Shape.columns, schemaShape]
  · intro row hrow
    obtain ⟨entry, hentry, hkept⟩ := List.mem_filterMap.mp hrow
    split at hkept
    · obtain rfl := Option.some.inj hkept
      exact admits_schemaShape (hexact _ (List.fst_mem_of_mem_zipIdx hentry)) visibleName
    · cases hkept

/-- **A join** puts rows side by side, or NULLs in the place of one. -/
theorem fits_joinRelations {joinType : JoinType} {on : Option Expr}
    {test : List BoundColumn → Row → Except Fault Bool} (hleft : left.Fits leftShape)
    (hright : right.Fits rightShape)
    (h : joinRelations H left right joinType on test = .ok result) :
    result.Fits (leftShape ++ rightShape) := by
  rw [joinRelations_eq] at h
  obtain ⟨matcher, -, h⟩ := Result.bind_eq_ok.mp h
  obtain ⟨matched, -, h⟩ := Result.bind_eq_ok.mp h
  obtain rfl := Except.ok.inj h
  have hnulls : ∀ {columns} {shape : Shape}, columns = shape.columns →
      shape.Admits (List.replicate columns.length .null) := by
    rintro columns shape rfl
    exact admits_nulls shape
  refine ⟨?_, ?_⟩
  · rw [columns_append, hleft.columns, hright.columns]
  · intro row hrow
    rcases List.mem_append.mp hrow with hjoined | hunmatched
    · obtain ⟨⟨leftRow, flags⟩, hentry, hfound⟩ := List.mem_flatMap.mp hjoined
      have hleftRow := hleft.rows leftRow (List.of_mem_zip hentry).1
      simp only at hfound
      split at hfound
      · obtain rfl := List.mem_singleton.mp hfound
        exact hleftRow.append (hnulls hright.columns)
      · obtain ⟨⟨rightRow, flag⟩, hcandidate, hpair⟩ := List.mem_filterMap.mp hfound
        split at hpair
        · obtain rfl := Option.some.inj hpair
          exact hleftRow.append (hright.rows rightRow (List.of_mem_zip hcandidate).1)
        · cases hpair
    · split at hunmatched
      · obtain ⟨⟨rightRow, i⟩, hentry, hkept⟩ := List.mem_filterMap.mp hunmatched
        split at hkept
        · cases hkept
        · obtain rfl := Option.some.inj hkept
          exact (hnulls hleft.columns).append
            (hright.rows rightRow (List.fst_mem_of_mem_zipIdx hentry))
      · cases hunmatched

theorem filterRows_subset {test : Row → Except Fault Value} {filtered : List Row}
    (h : filterRows test rows = .ok filtered) : filtered ⊆ rows := by
  induction rows generalizing filtered with
  | nil =>
    obtain rfl := Except.ok.inj h
    exact List.Subset.refl _
  | cons row rows ih =>
    obtain ⟨value, -, h⟩ := Result.bind_eq_ok.mp h
    obtain ⟨rest, hrest, h⟩ := Result.bind_eq_ok.mp h
    obtain rfl := Except.ok.inj h
    split
    · exact List.cons_subset_cons row (ih hrest)
    · exact fun found hfound => List.mem_cons_of_mem _ (ih hrest hfound)

theorem fits_applySelection {selection : Option (List BoundColumn → Row → Except Fault Value)}
    (hfits : relation.Fits shape) (h : applySelection selection relation = .ok result) :
    result.Fits shape := by
  cases selection with
  | none =>
    obtain rfl := Except.ok.inj h
    exact hfits
  | some test =>
    obtain ⟨rows, hrows, h⟩ := Result.bind_eq_ok.mp h
    obtain rfl := Except.ok.inj h
    exact hfits.of_subset (filterRows_subset hrows)

theorem fits_orderSource (hhost : H.Rearranges) (hfits : relation.Fits shape)
    (h : orderSource H query E relation = .ok result) : result.Fits shape := by
  rw [orderSource] at h
  split_ifs at h
  · obtain ⟨rows, hrows, h⟩ := Result.bind_eq_ok.mp h
    obtain rfl := Except.ok.inj h
    exact hfits.of_subset (hhost.sortBy hrows).subset
  · obtain rfl := Except.ok.inj h
    exact hfits

theorem orderProjected_subset (hhost : H.Rearranges) {limit : Option Nat} {cmp : RowCompare}
    {sorted : List Row} (h : orderProjected H limit cmp rows = .ok sorted) : sorted ⊆ rows := by
  cases limit with
  | none => exact (hhost.sortBy h).subset
  | some limit =>
    rw [orderProjected] at h
    split_ifs at h
    · obtain rfl := Except.ok.inj h
      exact List.nil_subset _
    · obtain ⟨selected, hselected, h⟩ := Result.bind_eq_ok.mp h
      intro row hrow
      have htaken := List.mem_of_mem_take ((hhost.sortBy h).subset hrow)
      exact (hhost.selectNthUnstableBy hselected).subset htaken
    · exact (hhost.sortBy h).subset

theorem fits_orderOutput (hhost : H.Rearranges) {sorted : Bool} (hfits : relation.Fits shape)
    (h : orderOutput H query E sorted relation = .ok result) : result.Fits shape := by
  rw [orderOutput] at h
  split_ifs at h
  · obtain ⟨rows, hrows, h⟩ := Result.bind_eq_ok.mp h
    obtain rfl := Except.ok.inj h
    exact hfits.of_subset (orderProjected_subset hhost hrows)
  · obtain rfl := Except.ok.inj h
    exact hfits

theorem fits_distinctRows (hfits : relation.Fits shape) :
    (distinctRows query relation).Fits shape := by
  rw [distinctRows]
  split
  · exact hfits.of_subset retainFirst_subset
  · exact hfits

theorem fits_limitRows (hfits : relation.Fits shape) : (limitRows query relation).Fits shape := by
  rw [limitRows]
  split
  · exact hfits.of_subset (List.take_subset _ _)
  · exact hfits

/-- Grouping only distributes rows. -/
theorem groupRows_perm {groupKey : Row → Except Fault (List Value)}
    {groups groups' : List (String × List Row)} (h : groupRows groupKey groups rows = .ok groups') :
    ((groups'.map Prod.snd).flatten).Perm ((groups.map Prod.snd).flatten ++ rows) := by
  induction rows generalizing groups with
  | nil =>
    obtain rfl := Except.ok.inj h
    simp
  | cons row rows ih =>
    obtain ⟨values, -, h⟩ := Result.bind_eq_ok.mp h
    refine (ih h).trans ((flatten_insertGroup.append_right rows).trans ?_)
    rw [List.append_assoc]
    rfl

/-- **Grouping or projection**, when the evaluator projects into a shape. -/
theorem fits_outputRelation (hfits : relation.Fits shape)
    (hcolumns : ∀ {columns}, projectionColumns query.projection shape.columns = .ok columns →
      columns = out.columns)
    (hproject : ∀ {row group projected}, shape.Admits row →
      (∀ rows ∈ group, ∀ member ∈ rows, shape.Admits member) →
      E.project shape.columns row group = .ok projected → out.Admits projected)
    (h : outputRelation query E relation = .ok result) : result.Fits out := by
  rw [outputRelation] at h
  split_ifs at h
  · obtain ⟨groups, hgroups, h⟩ := Result.bind_eq_ok.mp h
    obtain ⟨columns, hheader, h⟩ := Result.bind_eq_ok.mp h
    obtain ⟨rows, hrows, h⟩ := Result.bind_eq_ok.mp h
    obtain rfl := Except.ok.inj h
    rw [hfits.columns] at hheader hrows
    refine ⟨hcolumns hheader, fun row hrow => ?_⟩
    obtain ⟨projected, hmem, hsome⟩ := List.mem_filterMap.mp hrow
    obtain rfl : projected = some row := hsome
    obtain ⟨⟨key, group⟩, hgroup, hrun⟩ := Result.mem_of_mapM hrows hmem
    have hmembers : ∀ member ∈ group, shape.Admits member := by
      intro member hmember
      split at hgroup
      · obtain ⟨-, rfl⟩ := Prod.mk.inj (List.mem_singleton.mp hgroup)
        cases hmember
      · have hflat : member ∈ (groups.map Prod.snd).flatten :=
          List.mem_flatten_of_mem (List.mem_map_of_mem hgroup) hmember
        exact hfits.rows member (by simpa using (groupRows_perm hgroups).subset hflat)
    obtain ⟨accepted, -, hrun⟩ := Result.bind_eq_ok.mp hrun
    split at hrun
    · obtain ⟨output, houtput, hrun⟩ := Result.bind_eq_ok.mp hrun
      obtain rfl := Option.some.inj (Except.ok.inj hrun)
      refine hproject ?_ (fun rows hrows => ?_) houtput
      · cases group with
        | nil => exact admits_nulls shape
        | cons first rest => exact hmembers first List.mem_cons_self
      · obtain rfl := Option.some.inj hrows
        exact hmembers
    · cases hrun
  · obtain ⟨columns, hheader, h⟩ := Result.bind_eq_ok.mp h
    obtain ⟨rows, hrows, h⟩ := Result.bind_eq_ok.mp h
    obtain rfl := Except.ok.inj h
    rw [hfits.columns] at hheader hrows
    refine ⟨hcolumns hheader, fun row hrow => ?_⟩
    obtain ⟨source, hsource, hrun⟩ := Result.mem_of_mapM hrows hrow
    refine hproject (hfits.rows source hsource) (fun rows hrows => ?_) hrun
    cases hrows

/-- **All stages** behind the joins. -/
theorem fits_finishQuery (hhost : H.Rearranges) (hfits : relation.Fits shape)
    (hcolumns : ∀ {columns}, projectionColumns query.projection shape.columns = .ok columns →
      columns = out.columns)
    (hproject : ∀ {row group projected}, shape.Admits row →
      (∀ rows ∈ group, ∀ member ∈ rows, shape.Admits member) →
      E.project shape.columns row group = .ok projected → out.Admits projected)
    (h : finishQuery H query E relation = .ok result) : result.Fits out := by
  obtain ⟨filtered, hfiltered, h⟩ := Result.bind_eq_ok.mp h
  obtain ⟨ordered, hordered, h⟩ := Result.bind_eq_ok.mp h
  obtain ⟨projected, hprojected, h⟩ := Result.bind_eq_ok.mp h
  obtain ⟨output, houtput, h⟩ := Result.bind_eq_ok.mp h
  obtain rfl := Except.ok.inj h
  have hsource := fits_orderSource hhost (fits_applySelection hfits hfiltered) hordered
  have hgrouped := fits_outputRelation hsource hcolumns hproject hprojected
  exact fits_limitRows (fits_orderOutput hhost (fits_distinctRows hgrouped) houtput)

end Stages

end Sql
end RustyDB
