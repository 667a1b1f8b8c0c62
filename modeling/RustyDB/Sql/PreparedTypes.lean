import Mathlib
import RustyDB.Sql.Prepared
import RustyDB.Sql.ResultTypes
import RustyDB.Sql.SingleTable
import RustyDB.Sql.WellFormed

/-!
# Announced types

`prepared_result_metadata` announces the columns of a prepared SELECT from the text, the one
table it selects from and the parameters.  What runs afterwards is optimized: the constants of
an expression are folded, so that it need not have the announced type any more.  Its values do.

* `inferable`, `Query.Inferable` — what the inference of `prepared_expression_type` is made
  for: one table, and neither the value of a subquery nor SUM(*) and the like.
* `hasType_prepared` — **the values of a folded expression** are of the announced type.
* `fits_optimized` — what an optimized query returns.
* `announced_of_step` — **what is announced is what comes**, names and types.
-/

namespace RustyDB
namespace Sql

/-! ## Queries with inferable types -/

/-- `prepared_expression_type` knows the type of the values of an expression. -/
def inferable : Expr → Bool
  | .unary op expr =>
    match op with
    | .not => true
    | _ => inferable expr
  | .binary left op right =>
    match op with
    | .compare _ => true
    | .and => true
    | .or => true
    | _ => inferable left && inferable right
  | .scalarSubquery _ => false
  | .aggregate function none _ =>
    match function with
    | .count => true
    | .avg => true
    | _ => false
  | .aggregate function (some expr) _ =>
    match function with
    | .count => true
    | .avg => true
    | _ => inferable expr
  | _ => true

/-- A query of one table or none, of which each output column has an inferable type. -/
structure Query.Inferable (query : Query) : Prop where
  ctes : query.ctes = []
  joins : query.joins = []
  source : ∀ source ∈ query.source, ∃ name asName, source = .table name asName
  projection : ∀ expr asName, SelectItem.expr expr asName ∈ query.projection →
    inferable expr = true

/-- The shape of the table that a query selects from. -/
def metadataShape (source : Option (Table × String)) : Shape :=
  (source.map fun entry => schemaShape entry.2 entry.1.schema).getD []

/-- The announced columns of one item, as the columns of a shape. -/
def announcedItem (source : Option (Table × String)) : SelectItem → Shape
  | .wildcard qualifier =>
    (metadataShape source).filter fun entry => wildcardCovers qualifier entry.1
  | .expr expr asName =>
    [(outputColumn expr asName, preparedExpressionType (source.map Prod.fst) expr)]

/-- **The announced columns**, as a shape. -/
def announcedShape (source : Option (Table × String)) (items : List SelectItem) : Shape :=
  items.flatMap (announcedItem source)

theorem announcedShape_cons (source : Option (Table × String)) (item : SelectItem)
    (items : List SelectItem) : announcedShape source (item :: items) =
      announcedItem source item ++ announcedShape source items :=
  List.flatMap_cons

theorem preparedName_eq {expr : Expr} (h : inferable expr = true) :
    preparedName expr = expressionName expr := by
  cases expr with
  | scalarSubquery query => cases h
  | _ => rfl

theorem announcedItem_metadata {source : Option (Table × String)} {item : SelectItem}
    (h : ∀ expr asName, item = .expr expr asName → inferable expr = true) :
    (announcedItem source item).map (fun entry => (entry.1.name, entry.2)) =
      itemMetadata source item := by
  cases item with
  | wildcard qualifier =>
    cases source with
    | none => rfl
    | some entry =>
      obtain ⟨table, visibleName⟩ := entry
      have hcovers : ∀ name, wildcardCovers qualifier ⟨visibleName, name⟩ =
          qualifier.all fun name => eqIgnoreAsciiCase name visibleName := by
        intro name
        cases qualifier with
        | none => rfl
        | some qualifier => exact eqIgnoreAsciiCase_comm visibleName qualifier
      rw [announcedItem, itemMetadata, metadataShape, Option.map_some, Option.getD_some,
        schemaShape, List.filter_map, List.map_map]
      cases hall : qualifier.all (fun name => eqIgnoreAsciiCase name visibleName) with
      | true => simp [Function.comp_def, hcovers, hall]
      | false => simp [Function.comp_def, hcovers, hall]
  | expr expr asName =>
    rw [announcedItem, itemMetadata, preparedName_eq (h expr asName rfl)]
    rfl

theorem announcedShape_metadata {source : Option (Table × String)} {items : List SelectItem}
    (h : ∀ expr asName, SelectItem.expr expr asName ∈ items → inferable expr = true) :
    (announcedShape source items).map (fun entry => (entry.1.name, entry.2)) =
      items.flatMap (itemMetadata source) := by
  induction items with
  | nil => rfl
  | cons item items ih =>
    have hitem := @announcedItem_metadata source item fun expr asName heq =>
      h expr asName (heq ▸ List.mem_cons_self)
    have hitems := ih fun expr asName hmem => h expr asName (List.mem_cons_of_mem _ hmem)
    rw [announcedShape_cons, List.map_append, hitem, hitems, List.flatMap_cons]

/-! ## Folded nodes -/

section Folded

variable {H : Host} {tables : Tables} {ctes : Ctes} {a b v value : Value}
  {leftType rightType type : DataType} {columns : List BoundColumn} {row : Row}
  {group : Option (List Row)}

theorem numericBinary_of_foldNumeric {integer : Int64 → Int64 → Except Fault Value}
    {float : F64 → F64 → F64} (h : foldNumeric a b integer float = .ok (some v)) :
    numericBinary a b integer float = .ok v := by
  cases a <;> cases b <;> first
    | (obtain ⟨found, hfound, heq⟩ := Result.map_eq_ok.mp h
       rw [Option.some.inj heq] at hfound
       exact hfound)
    | cases h
  all_goals rfl

theorem hasType_foldBinary {op : BinaryOp} (hleft : a.HasType leftType)
    (hright : b.HasType rightType) (h : foldBinary H a op b = .ok (some v)) :
    v.HasType (binaryType op leftType rightType) := by
  unfold foldBinary at h
  split at h
  · obtain rfl := Option.some.inj (Except.ok.inj h)
    exact Value.hasType_null _
  · cases op with
    | compare operator =>
      obtain rfl := Option.some.inj (Except.ok.inj h)
      exact hasType_truthValue _
    | and =>
      obtain rfl := Option.some.inj (Except.ok.inj h)
      exact hasType_truthValue _
    | or =>
      obtain rfl := Option.some.inj (Except.ok.inj h)
      exact hasType_truthValue _
    | divide =>
      simp only at h
      split_ifs at h
      · cases h
      · exact hasType_numericBinary hleft hright hasType_integerOp
          (numericBinary_of_foldNumeric h)
    | _ =>
      exact hasType_numericBinary hleft hright hasType_integerOp (numericBinary_of_foldNumeric h)

theorem evalUnary_of_foldUnary {op : UnaryOp} (h : foldUnary H op a = .ok (some v)) :
    evalUnary H op a = .ok v := by
  cases op <;> cases a <;> first
    | (obtain ⟨found, hfound, heq⟩ := Result.map_eq_ok.mp h
       rw [Option.some.inj heq] at hfound
       exact hfound)
    | cases h
  all_goals rfl

theorem eq_of_evalExpr_literal
    (h : evalExpr H tables (.literal v) columns row group ctes = .ok value) : value = v := by
  rw [evalExpr] at h
  exact (Except.ok.inj h).symm

/-- A literal over literals is what the fold of their values gives. -/
theorem foldBinary_of_node {op : BinaryOp}
    (h : foldBinaryNode H (.literal a) op (.literal b) = .ok (.literal v)) :
    foldBinary H a op b = .ok (some v) := by
  obtain ⟨folded, hfolded, h⟩ := Result.bind_eq_ok.mp h
  cases folded with
  | none => cases h
  | some found =>
    obtain rfl : found = v := Expr.literal.inj (Except.ok.inj h)
    exact hfolded

theorem foldUnary_of_node {op : UnaryOp}
    (h : foldUnaryNode H op (.literal a) = .ok (.literal v)) :
    foldUnary H op a = .ok (some v) := by
  obtain ⟨folded, hfolded, h⟩ := Result.bind_eq_ok.mp h
  cases folded with
  | none => cases h
  | some found =>
    obtain rfl : found = v := Expr.literal.inj (Except.ok.inj h)
    exact hfolded

/-- **A folded binary node**: the operator decides the type, or the operands do. -/
theorem hasType_foldBinaryNode {op : BinaryOp} {left right e : Expr}
    (hfold : foldBinaryNode H left op right = .ok e)
    (htypes : (∀ type type', binaryType op type type' = .boolean) ∨
      (∀ value, evalExpr H tables left columns row group ctes = .ok value →
        value.HasType leftType) ∧
      ∀ value, evalExpr H tables right columns row group ctes = .ok value →
        value.HasType rightType)
    (h : evalExpr H tables e columns row group ctes = .ok value) :
    value.HasType (binaryType op leftType rightType) := by
  have hoperands : ∀ {first second},
      evalExpr H tables left columns row group ctes = .ok first →
      evalExpr H tables right columns row group ctes = .ok second →
      ∃ firstType secondType, first.HasType firstType ∧ second.HasType secondType ∧
        binaryType op firstType secondType = binaryType op leftType rightType := by
    intro first second hfirst hsecond
    rcases htypes with hboolean | ⟨hleft, hright⟩
    · exact ⟨_, _, hasType_dataType first, hasType_dataType second,
        (hboolean _ _).trans (hboolean _ _).symm⟩
    · exact ⟨_, _, hleft first hfirst, hright second hsecond, rfl⟩
  rcases foldBinaryNode_cases hfold with rfl | ⟨a, b, v, rfl, rfl, rfl⟩
  · by_cases hand : op = .and
    · subst hand
      exact hasType_and h
    by_cases hor : op = .or
    · subst hor
      exact hasType_or h
    rw [evalExpr_binary _ _ _ _ _ _ _ _ hand hor] at h
    obtain ⟨first, hfirst, h⟩ := Result.bind_eq_ok.mp h
    obtain ⟨second, hsecond, h⟩ := Result.bind_eq_ok.mp h
    obtain ⟨firstType, secondType, hfirstType, hsecondType, heq⟩ := hoperands hfirst hsecond
    rw [← heq]
    exact hasType_evalBinary hand hor hfirstType hsecondType h
  · obtain rfl := eq_of_evalExpr_literal h
    have hfirst : evalExpr H tables (.literal a) columns row group ctes = .ok a := by
      rw [evalExpr]
    have hsecond : evalExpr H tables (.literal b) columns row group ctes = .ok b := by
      rw [evalExpr]
    obtain ⟨firstType, secondType, hfirstType, hsecondType, heq⟩ := hoperands hfirst hsecond
    rw [← heq]
    exact hasType_foldBinary hfirstType hsecondType (foldBinary_of_node hfold)

/-- **A folded unary node**: the operator decides the type, or the operand does. -/
theorem hasType_foldUnaryNode {op : UnaryOp} {operand e : Expr}
    (hfold : foldUnaryNode H op operand = .ok e)
    (htype : (∀ type, unaryType op type = .boolean) ∨
      ∀ value, evalExpr H tables operand columns row group ctes = .ok value →
        value.HasType type)
    (h : evalExpr H tables e columns row group ctes = .ok value) :
    value.HasType (unaryType op type) := by
  have hoperand : ∃ before, evalExpr H tables operand columns row group ctes = .ok before ∧
      evalUnary H op before = .ok value := by
    rcases foldUnaryNode_cases hfold with rfl | ⟨a, v, rfl, rfl⟩
    · rw [evalExpr] at h
      exact Result.bind_eq_ok.mp h
    · obtain rfl := eq_of_evalExpr_literal h
      refine ⟨a, ?_, evalUnary_of_foldUnary (foldUnary_of_node hfold)⟩
      rw [evalExpr]
  obtain ⟨before, hbefore, hvalue⟩ := hoperand
  rcases htype with hboolean | htype
  · rw [hboolean type, ← hboolean before.dataType]
    exact hasType_evalUnary (hasType_dataType before) hvalue
  · exact hasType_evalUnary (htype before hbefore) hvalue

theorem hasType_foldIsNullNode {operand : Expr} {negated : Bool}
    (h : evalExpr H tables (foldIsNullNode operand negated) columns row group ctes = .ok value) :
    value.HasType .boolean := by
  unfold foldIsNullNode at h
  split at h
  · rw [eq_of_evalExpr_literal h]
    exact fun _ => rfl
  · rw [evalExpr] at h
    obtain ⟨before, -, h⟩ := Result.bind_eq_ok.mp h
    obtain rfl := Except.ok.inj h
    exact fun _ => rfl

theorem hasType_foldLikeNode {operand pattern : Expr} {negated : Bool}
    (h : evalExpr H tables (foldLikeNode H operand pattern negated) columns row group ctes =
      .ok value) : value.HasType .boolean := by
  unfold foldLikeNode at h
  split at h
  · rw [eq_of_evalExpr_literal h]
    exact hasType_truthValue _
  · rw [evalExpr] at h
    obtain ⟨before, -, h⟩ := Result.bind_eq_ok.mp h
    obtain ⟨shown, -, h⟩ := Result.bind_eq_ok.mp h
    obtain rfl := Except.ok.inj h
    exact hasType_truthValue _

/-- **A folded aggregate**: the function decides the type, or the operand does. -/
theorem hasType_aggregate {function : AggregateFunction} {operand : Expr} {distinct : Bool}
    (htype : ∀ rows ∈ group, ∀ member ∈ rows, ∀ value,
      evalExpr H tables operand columns member none ctes = .ok value → value.HasType type)
    (h : evalExpr H tables (.aggregate function (some operand) distinct) columns row group ctes =
      .ok value) : value.HasType (aggregateType function type) := by
  cases group with
  | none =>
    rw [evalExpr] at h
    cases h
  | some rows =>
    rw [evalExpr] at h
    obtain ⟨values, hvalues, h⟩ := Result.bind_eq_ok.mp h
    refine hasType_finishAggregate (fun value hvalue => ?_) h
    obtain ⟨member, hmember, hrun⟩ := Result.mem_of_mapM hvalues hvalue
    exact htype rows rfl member hmember value hrun

end Folded

/-! ## Folded expressions -/

section Expressions

variable {H : Host} {tables : Tables} {source : Option (Table × String)} {ctes : Ctes}
  {shapes : CteShapes} {row : Row} {group : Option (List Row)} {value : Value}

theorem columns_schemaShape (visibleName : String) (schema : TableSchema) :
    (schemaShape visibleName schema).columns = boundColumns visibleName schema := by
  simp [Shape.columns, schemaShape, boundColumns]

/-- A column that is found by its qualified name is the first one of its name. -/
theorem hasType_column_prepared {qualifier : Option String} {name : String}
    (hrow : (metadataShape source).Admits row)
    (h : evalExpr H tables (.column qualifier name) (metadataShape source).columns row group ctes =
      .ok value) :
    value.HasType (preparedExpressionType (source.map Prod.fst) (.column qualifier name)) := by
  have hvalue := hasType_column hrow h
  rw [evalExpr] at h
  obtain ⟨index, hindex, -⟩ := Result.bind_eq_ok.mp h
  rw [columnType, hindex] at hvalue
  cases source with
  | none =>
    obtain ⟨⟨column, hcolumn, -⟩, -⟩ := resolveColumn_eq_ok hindex
    cases hcolumn
  | some entry =>
    obtain ⟨table, visibleName⟩ := entry
    have hresolved : resolveColumn (boundColumns visibleName table.schema) qualifier name =
        .ok index := by
      rw [← columns_schemaShape]
      exact hindex
    obtain ⟨hlt, hname, hfirst⟩ :=
      List.findIdx?_eq_some_iff_getElem.mp (columnIndex_of_resolve hresolved)
    have hfind : table.schema.columns.find? (fun column => eqIgnoreAsciiCase column.name name) =
        some table.schema.columns[index] :=
      List.find?_eq_some_iff_getElem.mpr
        ⟨hname, index, hlt, rfl, fun j hj => by simpa using hfirst j hj⟩
    have htype : preparedExpressionType (some table) (.column qualifier name) =
        table.schema.columns[index].dataType := by
      simp [preparedExpressionType, hfind]
    have hshape : (metadataShape (some (table, visibleName)))[index]? =
        some (⟨visibleName, table.schema.columns[index].name⟩,
          table.schema.columns[index].dataType) := by
      simp [metadataShape, schemaShape, hlt]
    simp only [hshape, Option.map_some, Option.getD_some] at hvalue
    rw [Option.map_some, htype]
    exact hvalue

/-- **The values of a folded expression** are of the announced type. -/
theorem hasType_prepared (hexact : tables.All Table.Exact) (hhost : H.Rearranges)
    (hctes : CtesFit ctes shapes) (e : Expr) {e' : Expr} {row : Row} {group : Option (List Row)}
    {value : Value} (hinferable : inferable e = true) (hfold : foldExpr H e = .ok e')
    (hrow : (metadataShape source).Admits row)
    (hgroup : ∀ rows ∈ group, ∀ member ∈ rows, (metadataShape source).Admits member)
    (h : evalExpr H tables e' (metadataShape source).columns row group ctes = .ok value) :
    value.HasType (preparedExpressionType (source.map Prod.fst) e) := by
  have hdirect := hasType_evalExpr hexact hhost e' hctes hrow hgroup h
  cases e with
  | literal literal =>
    rw [foldExpr] at hfold
    obtain rfl := Except.ok.inj hfold
    rw [eq_of_evalExpr_literal h, preparedExpressionType]
    exact hasType_dataType literal
  | parameter _ =>
    rw [foldExpr] at hfold
    obtain rfl := Except.ok.inj hfold
    rw [evalExpr] at h
    cases h
  | incoming _ =>
    rw [foldExpr] at hfold
    obtain rfl := Except.ok.inj hfold
    rw [evalExpr] at h
    cases h
  | column qualifier name =>
    rw [foldExpr] at hfold
    obtain rfl := Except.ok.inj hfold
    exact hasType_column_prepared hrow h
  | unary op operand =>
    rw [foldExpr] at hfold
    obtain ⟨folded, hfolded, hfold⟩ := Result.bind_eq_ok.mp hfold
    have htype : preparedExpressionType (source.map Prod.fst) (.unary op operand) =
        unaryType op (preparedExpressionType (source.map Prod.fst) operand) := by
      cases op <;> rfl
    rw [htype]
    refine hasType_foldUnaryNode hfold ?_ h
    cases op with
    | not => exact Or.inl fun _ => rfl
    | _ => exact Or.inr fun before hbefore =>
        hasType_prepared hexact hhost hctes operand hinferable hfolded hrow hgroup hbefore
  | binary left op right =>
    rw [foldExpr] at hfold
    obtain ⟨first, hfirst, hfold⟩ := Result.bind_eq_ok.mp hfold
    obtain ⟨second, hsecond, hfold⟩ := Result.bind_eq_ok.mp hfold
    have htype : preparedExpressionType (source.map Prod.fst) (.binary left op right) =
        binaryType op (preparedExpressionType (source.map Prod.fst) left)
          (preparedExpressionType (source.map Prod.fst) right) := by
      cases op <;> rfl
    rw [htype]
    refine hasType_foldBinaryNode hfold ?_ h
    cases op with
    | compare _ => exact Or.inl fun _ _ => rfl
    | and => exact Or.inl fun _ _ => rfl
    | or => exact Or.inl fun _ _ => rfl
    | _ =>
      have hboth : (inferable left && inferable right) = true := hinferable
      obtain ⟨hleft, hright⟩ := Bool.and_eq_true_iff.mp hboth
      exact Or.inr
        ⟨fun before hbefore =>
          hasType_prepared hexact hhost hctes left hleft hfirst hrow hgroup hbefore,
        fun before hbefore =>
          hasType_prepared hexact hhost hctes right hright hsecond hrow hgroup hbefore⟩
  | isNull operand negated =>
    rw [foldExpr] at hfold
    obtain ⟨folded, -, hfold⟩ := Result.bind_eq_ok.mp hfold
    obtain rfl := Except.ok.inj hfold
    rw [preparedExpressionType]
    exact hasType_foldIsNullNode h
  | like operand pattern negated =>
    rw [foldExpr] at hfold
    obtain ⟨first, -, hfold⟩ := Result.bind_eq_ok.mp hfold
    obtain ⟨second, -, hfold⟩ := Result.bind_eq_ok.mp hfold
    obtain rfl := Except.ok.inj hfold
    rw [preparedExpressionType]
    exact hasType_foldLikeNode h
  | inList operand list negated =>
    rw [foldExpr] at hfold
    obtain ⟨first, -, hfold⟩ := Result.bind_eq_ok.mp hfold
    obtain ⟨second, -, hfold⟩ := Result.bind_eq_ok.mp hfold
    obtain rfl := Except.ok.inj hfold
    rw [exprType] at hdirect
    rw [preparedExpressionType]
    exact hdirect
  | inSubquery operand query negated =>
    rw [foldExpr] at hfold
    obtain ⟨first, -, hfold⟩ := Result.bind_eq_ok.mp hfold
    obtain ⟨second, -, hfold⟩ := Result.bind_eq_ok.mp hfold
    obtain rfl := Except.ok.inj hfold
    rw [exprType] at hdirect
    rw [preparedExpressionType]
    exact hdirect
  | exist query negated =>
    rw [foldExpr] at hfold
    obtain ⟨folded, -, hfold⟩ := Result.bind_eq_ok.mp hfold
    obtain rfl := Except.ok.inj hfold
    rw [exprType] at hdirect
    rw [preparedExpressionType]
    exact hdirect
  | scalarSubquery query => cases hinferable
  | aggregate function operand distinct =>
    rw [foldExpr] at hfold
    obtain ⟨folded, hfolded, hfold⟩ := Result.bind_eq_ok.mp hfold
    obtain rfl := Except.ok.inj hfold
    cases operand with
    | none =>
      rw [foldOption] at hfolded
      obtain rfl := Except.ok.inj hfolded
      rw [exprType] at hdirect
      cases function with
      | count => exact hdirect
      | avg => exact hdirect
      | _ => cases hinferable
    | some operand =>
      rw [foldOption] at hfolded
      obtain ⟨inner, hinner, hfolded⟩ := Result.bind_eq_ok.mp hfolded
      obtain rfl := Except.ok.inj hfolded
      have htype : preparedExpressionType (source.map Prod.fst)
          (.aggregate function (some operand) distinct) =
          aggregateType function (preparedExpressionType (source.map Prod.fst) operand) := by
        cases function <;> rfl
      rw [htype]
      have hoperand : inferable operand = true →
          value.HasType
            (aggregateType function (preparedExpressionType (source.map Prod.fst) operand)) := by
        intro hoperand
        refine hasType_aggregate (fun rows hrows member hmember before hbefore => ?_) h
        exact hasType_prepared hexact hhost hctes operand hoperand hinner
          (hgroup rows hrows member hmember) (fun rows hrows => by cases hrows) hbefore
      rw [exprType] at hdirect
      cases function with
      | count => exact hdirect
      | avg => exact hdirect
      | _ => exact hoperand hinferable

/-- Folding leaves the column that an expression is output as. -/
theorem outputColumn_folded {e e' : Expr} (hfold : foldExpr H e = .ok e')
    (asName : Option String) : outputColumn e' asName = outputColumn e asName := by
  cases e with
  | unary op operand =>
    rw [foldExpr] at hfold
    obtain ⟨folded, -, hfold⟩ := Result.bind_eq_ok.mp hfold
    rcases foldUnaryNode_cases hfold with rfl | ⟨a, v, -, rfl⟩ <;> rfl
  | binary left op right =>
    rw [foldExpr] at hfold
    obtain ⟨first, -, hfold⟩ := Result.bind_eq_ok.mp hfold
    obtain ⟨second, -, hfold⟩ := Result.bind_eq_ok.mp hfold
    rcases foldBinaryNode_cases hfold with rfl | ⟨a, b, v, -, -, rfl⟩ <;> rfl
  | isNull operand negated =>
    rw [foldExpr] at hfold
    obtain ⟨folded, -, hfold⟩ := Result.bind_eq_ok.mp hfold
    obtain rfl := Except.ok.inj hfold
    unfold foldIsNullNode
    split <;> rfl
  | like operand pattern negated =>
    rw [foldExpr] at hfold
    obtain ⟨first, -, hfold⟩ := Result.bind_eq_ok.mp hfold
    obtain ⟨second, -, hfold⟩ := Result.bind_eq_ok.mp hfold
    obtain rfl := Except.ok.inj hfold
    unfold foldLikeNode
    split <;> rfl
  | inList operand list negated =>
    rw [foldExpr] at hfold
    obtain ⟨first, -, hfold⟩ := Result.bind_eq_ok.mp hfold
    obtain ⟨second, -, hfold⟩ := Result.bind_eq_ok.mp hfold
    obtain rfl := Except.ok.inj hfold
    rfl
  | inSubquery operand query negated =>
    rw [foldExpr] at hfold
    obtain ⟨first, -, hfold⟩ := Result.bind_eq_ok.mp hfold
    obtain ⟨second, -, hfold⟩ := Result.bind_eq_ok.mp hfold
    obtain rfl := Except.ok.inj hfold
    rfl
  | exist query negated =>
    rw [foldExpr] at hfold
    obtain ⟨folded, -, hfold⟩ := Result.bind_eq_ok.mp hfold
    obtain rfl := Except.ok.inj hfold
    rfl
  | scalarSubquery query =>
    rw [foldExpr] at hfold
    obtain ⟨folded, -, hfold⟩ := Result.bind_eq_ok.mp hfold
    obtain rfl := Except.ok.inj hfold
    rfl
  | aggregate function operand distinct =>
    rw [foldExpr] at hfold
    obtain ⟨folded, -, hfold⟩ := Result.bind_eq_ok.mp hfold
    obtain rfl := Except.ok.inj hfold
    rfl
  | _ =>
    rw [foldExpr] at hfold
    obtain rfl := Except.ok.inj hfold
    rfl

end Expressions

/-! ## Optimized queries -/

section Optimized

variable {H : Host} {tables : Tables} {source : Option (Table × String)}
  {items items' : List SelectItem}

/-- The header of the folded items is that of the announced ones. -/
theorem projectionColumns_announced {columns : List BoundColumn}
    (hfold : foldItems H items = .ok items')
    (h : projectionColumns items' (metadataShape source).columns = .ok columns) :
    columns = (announcedShape source items).columns := by
  induction items generalizing items' columns with
  | nil =>
    rw [foldItems] at hfold
    obtain rfl := Except.ok.inj hfold
    obtain rfl := Except.ok.inj h
    rfl
  | cons item items ih =>
    cases item with
    | wildcard qualifier =>
      rw [foldItems] at hfold
      obtain ⟨rest', hrest', hfold⟩ := Result.bind_eq_ok.mp hfold
      obtain rfl := Except.ok.inj hfold
      obtain ⟨first, rest, hfirst, hrest, rfl⟩ := projectionColumns_cons_eq_ok h
      obtain rfl := ih hrest' hrest
      rw [announcedShape_cons, columns_append, announcedItem]
      simp only [itemColumns] at hfirst
      split_ifs at hfirst
      obtain rfl := Except.ok.inj hfirst
      rw [Shape.columns, List.filter_map]
      rfl
    | expr expr asName =>
      rw [foldItems] at hfold
      obtain ⟨expr', hexpr', hfold⟩ := Result.bind_eq_ok.mp hfold
      obtain ⟨rest', hrest', hfold⟩ := Result.bind_eq_ok.mp hfold
      obtain rfl := Except.ok.inj hfold
      obtain ⟨first, rest, hfirst, hrest, rfl⟩ := projectionColumns_cons_eq_ok h
      obtain rfl := ih hrest' hrest
      have hcolumn : first = [outputColumn expr' asName] := (Except.ok.inj hfirst).symm
      rw [hcolumn, outputColumn_folded hexpr', announcedShape_cons, columns_append]
      rfl

variable (hexact : tables.All Table.Exact) (hhost : H.Rearranges)

include hexact hhost

/-- **The folded items** give rows of the announced shape. -/
theorem admits_projectRow_announced {row projected : Row} {group : Option (List Row)}
    (hinferable : ∀ expr asName, SelectItem.expr expr asName ∈ items → inferable expr = true)
    (hfold : foldItems H items = .ok items') (hrow : (metadataShape source).Admits row)
    (hgroup : ∀ rows ∈ group, ∀ member ∈ rows, (metadataShape source).Admits member)
    (h : projectRow H tables items' (metadataShape source).columns row group ∅ = .ok projected) :
    (announcedShape source items).Admits projected := by
  induction items generalizing items' projected with
  | nil =>
    rw [foldItems] at hfold
    obtain rfl := Except.ok.inj hfold
    rw [projectRow] at h
    obtain rfl := Except.ok.inj h
    exact List.Forall₂.nil
  | cons item items ih =>
    have hitems := fun expr asName hmem =>
      hinferable expr asName (List.mem_cons_of_mem item hmem)
    cases item with
    | wildcard qualifier =>
      rw [foldItems] at hfold
      obtain ⟨rest', hrest', hfold⟩ := Result.bind_eq_ok.mp hfold
      obtain rfl := Except.ok.inj hfold
      rw [projectRow] at h
      obtain ⟨values, hvalues, h⟩ := Result.bind_eq_ok.mp h
      obtain ⟨rest, hrest, h⟩ := Result.bind_eq_ok.mp h
      obtain rfl := Except.ok.inj h
      have hwild := @admits_wildcardValues _ _ qualifier [] _ hrow hvalues
      exact hwild.append (ih hitems hrest' hrest)
    | expr expr asName =>
      rw [foldItems] at hfold
      obtain ⟨expr', hexpr', hfold⟩ := Result.bind_eq_ok.mp hfold
      obtain ⟨rest', hrest', hfold⟩ := Result.bind_eq_ok.mp hfold
      obtain rfl := Except.ok.inj hfold
      rw [projectRow] at h
      obtain ⟨value, hvalue, h⟩ := Result.bind_eq_ok.mp h
      obtain ⟨rest, hrest, h⟩ := Result.bind_eq_ok.mp h
      obtain rfl := Except.ok.inj h
      have hself := hinferable expr asName List.mem_cons_self
      exact List.Forall₂.cons
        (hasType_prepared hexact hhost ctesFit_empty expr hself hexpr' hrow hgroup hvalue)
        (ih hitems hrest' hrest)

/-- **What an optimized query returns** has the announced columns. -/
theorem fits_optimized {query query' : Query} {relation : Relation}
    (hinferable : query.Inferable) (hoptimize : optimizeQuery H query = .ok query')
    (h : executeQuery H tables query' ∅ = .ok relation) :
    relation.Fits (announcedShape (metadataSource tables query.source) query.projection) := by
  obtain ⟨clauses, distinct, projection, source, joins, selection, groupBy, having, orderBy,
    limit⟩ := query
  obtain ⟨rfl, rfl, hsource, hprojection⟩ := hinferable
  rw [optimizeQuery] at hoptimize
  obtain ⟨clauses', hclauses, hoptimize⟩ := Result.bind_eq_ok.mp hoptimize
  obtain ⟨projection', hitems, hoptimize⟩ := Result.bind_eq_ok.mp hoptimize
  obtain ⟨source', hfrom, hoptimize⟩ := Result.bind_eq_ok.mp hoptimize
  obtain ⟨joins', hjoins, hoptimize⟩ := Result.bind_eq_ok.mp hoptimize
  obtain ⟨selection', -, hoptimize⟩ := Result.bind_eq_ok.mp hoptimize
  obtain ⟨groupBy', -, hoptimize⟩ := Result.bind_eq_ok.mp hoptimize
  obtain ⟨having', -, hoptimize⟩ := Result.bind_eq_ok.mp hoptimize
  obtain ⟨orderBy', -, hoptimize⟩ := Result.bind_eq_ok.mp hoptimize
  obtain rfl := Except.ok.inj hoptimize
  rw [optimizeCtes] at hclauses
  obtain rfl := Except.ok.inj hclauses
  rw [optimizeJoins] at hjoins
  obtain rfl := Except.ok.inj hjoins
  rw [executeQuery] at h
  obtain ⟨ctes, hctes, h⟩ := Result.bind_eq_ok.mp h
  rw [executeCtes] at hctes
  obtain rfl := Except.ok.inj hctes
  obtain ⟨first, hfirst, h⟩ := Result.bind_eq_ok.mp h
  obtain ⟨joined, hjoined, h⟩ := Result.bind_eq_ok.mp h
  rw [executeJoins] at hjoined
  obtain rfl := Except.ok.inj hjoined
  have hfits : first.Fits (metadataShape (metadataSource tables source)) := by
    cases source with
    | none =>
      rw [optimizeFrom] at hfrom
      obtain rfl := Except.ok.inj hfrom
      rw [fromRelation] at hfirst
      obtain rfl := Except.ok.inj hfirst
      exact ⟨rfl, fun row hrow => List.mem_singleton.mp hrow ▸ List.Forall₂.nil⟩
    | some source =>
      obtain ⟨name, asName, rfl⟩ := hsource source rfl
      rw [optimizeFrom, optimizeSource] at hfrom
      obtain rfl := Except.ok.inj hfrom
      rw [fromRelation, sourceRelation, AList.lookup_empty] at hfirst
      cases htable : tables.lookup name with
      | none =>
        simp only [htable] at hfirst
        cases hfirst
      | some table =>
        simp only [htable] at hfirst
        obtain rfl := Except.ok.inj hfirst
        have hshape : metadataShape (metadataSource tables (some (.table name asName))) =
            schemaShape (asName.getD name) table.schema := by
          simp only [metadataShape, metadataSource, htable, Option.map_some, Option.getD_some]
        rw [hshape]
        exact fits_relationFromTable (hexact name table htable) _ _
  exact fits_finishQuery hhost hfits (projectionColumns_announced hitems)
    (fun hrow hgroup hrun =>
      admits_projectRow_announced hexact hhost hprojection hitems hrow hgroup hrun) h

end Optimized

/-! ## Prepared statements -/

/-- A result has the names of the announced columns, and values of their types. -/
def ResultSet.Announced (result : ResultSet) (metadata : List (String × DataType)) : Prop :=
  result.columns = metadata.map Prod.fst ∧
    ∀ row ∈ result.rows, List.Forall₂ (fun entry value => value.HasType entry.2) metadata row

section Announced

variable {E : Engine} {db : Database} {io : Io} {id : Nat} {prepared : PreparedStatement}
  {parameters : List Value} {query : Query} {result : ResultSet}

theorem announced_of_fits {tables : Tables} {relation : Relation} (hinferable : query.Inferable)
    (h : relation.Fits (announcedShape (metadataSource tables query.source) query.projection)) :
    (relationToResult relation).Announced (statementMetadata tables (.query query)) := by
  rw [statementMetadata, ← announcedShape_metadata hinferable.projection]
  refine ⟨?_, fun row hrow => List.forall₂_map_left_iff.mpr (h.rows row hrow)⟩
  show relation.columns.map BoundColumn.name = _
  rw [h.columns, List.map_map, Shape.columns, List.map_map]
  rfl

/-- **What is announced is what comes**, when the statement is still the prepared one and runs
on the published catalog. -/
theorem announced_of_step (hexact : db.catalog.tables.All Table.Exact)
    (hhost : E.host.Rearranges) (hversion : db.catalog.schemaVersion = prepared.schemaVersion)
    (hclosed : (db.sessions id).transaction = none)
    (hbind : E.bindParameters prepared.statement parameters = .ok (.query query))
    (hinferable : query.Inferable)
    (h : (db.step E (.executePrepared id prepared parameters) io).1 = .done (.select result)) :
    ∃ metadata, db.preparedResultMetadata E prepared (some parameters) = .ok metadata ∧
      result.Announced metadata := by
  obtain ⟨tables, durable, query', relation, htarget, hrun, rfl⟩ := query_of_step h
  rw [Database.resolve, Database.resolvePrepared] at htarget
  cases hprepared : db.bindPrepared E prepared parameters with
  | error fault =>
    rw [hprepared] at htarget
    cases htarget
  | ok statement =>
    rw [hprepared] at htarget
    simp only [Database.target, hclosed] at htarget
    cases htarget
    have hpoisoned : ¬db.poisoned = true := by
      intro hpoisoned
      rw [Database.bindPrepared, if_pos hpoisoned] at hprepared
      cases hprepared
    rw [Database.bindPrepared, if_neg hpoisoned, if_pos hversion, Result.ok_bind] at hprepared
    simp only [hbind] at hprepared
    obtain ⟨optimized, hquery, heq⟩ := Result.bind_eq_ok.mp hprepared
    obtain rfl := Statement.query.inj (Except.ok.inj heq)
    refine ⟨_, ?_, announced_of_fits hinferable
      (fits_optimized hexact hhost hinferable hquery hrun)⟩
    simp only [Database.preparedResultMetadata, Option.bind_some, hbind, Except.toOption,
      Option.getD_some, if_neg hpoisoned]

end Announced

end Sql
end RustyDB
