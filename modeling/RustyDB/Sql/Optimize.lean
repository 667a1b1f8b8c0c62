import Mathlib
import RustyDB.Sql.Fold

/-!
# The optimizer preserves meaning

Folding an exact tree gives a tree that evaluates to the same results, errors
included, in every row, group, catalog and CTE environment in which no scan depends
on it; so do queries and statements.

* `Folded` — what is the same of an expression and its folded form.
* `fold_expr`, …, `optimize_query` — one induction over the syntax tree.
* `optimizer_preserves` — statements.
-/

namespace RustyDB
namespace Sql

/-! ## Folded expressions -/

/-- VALUES(column) is bound in the expressions of ON DUPLICATE KEY UPDATE only. -/
def bindWith (binding : Option (TableSchema × Row)) (e : Expr) : Expr :=
  match binding with
  | none => e
  | some (schema, incoming) => bindIncoming schema incoming e

/-- `bindIncomings` under an optional incoming row. -/
def bindAll (binding : Option (TableSchema × Row)) (exprs : List Expr) : List Expr :=
  match binding with
  | none => exprs
  | some (schema, incoming) => bindIncomings schema incoming exprs

section Bind

variable (binding : Option (TableSchema × Row))

attribute [local simp] bindWith bindAll bindIncoming bindIncomings

@[simp] theorem bindWith_literal (value : Value) :
    bindWith binding (.literal value) = .literal value := by
  cases binding <;> simp

@[simp] theorem bindWith_binary (left right : Expr) (op : BinaryOp) :
    bindWith binding (.binary left op right) =
      .binary (bindWith binding left) op (bindWith binding right) := by
  cases binding <;> simp

@[simp] theorem bindWith_unary (op : UnaryOp) (expr : Expr) :
    bindWith binding (.unary op expr) = .unary op (bindWith binding expr) := by
  cases binding <;> simp

@[simp] theorem bindWith_isNull (expr : Expr) (negated : Bool) :
    bindWith binding (.isNull expr negated) = .isNull (bindWith binding expr) negated := by
  cases binding <;> simp

@[simp] theorem bindWith_like (expr pattern : Expr) (negated : Bool) :
    bindWith binding (.like expr pattern negated) =
      .like (bindWith binding expr) (bindWith binding pattern) negated := by
  cases binding <;> simp

@[simp] theorem bindWith_inList (expr : Expr) (list : List Expr) (negated : Bool) :
    bindWith binding (.inList expr list negated) =
      .inList (bindWith binding expr) (bindAll binding list) negated := by
  cases binding <;> simp

@[simp] theorem bindWith_inSubquery (expr : Expr) (query : Query) (negated : Bool) :
    bindWith binding (.inSubquery expr query negated) = .inSubquery expr query negated := by
  cases binding <;> simp

@[simp] theorem bindWith_exist (query : Query) (negated : Bool) :
    bindWith binding (.exist query negated) = .exist query negated := by
  cases binding <;> simp

@[simp] theorem bindWith_scalarSubquery (query : Query) :
    bindWith binding (.scalarSubquery query) = .scalarSubquery query := by
  cases binding <;> simp

@[simp] theorem bindWith_aggregate (function : AggregateFunction) (expr : Option Expr)
    (distinct : Bool) :
    bindWith binding (.aggregate function expr distinct) = .aggregate function expr distinct := by
  cases binding <;> simp

@[simp] theorem bindAll_nil : bindAll binding [] = [] := by
  cases binding <;> simp

@[simp] theorem bindAll_cons (expr : Expr) (exprs : List Expr) :
    bindAll binding (expr :: exprs) = bindWith binding expr :: bindAll binding exprs := by
  cases binding <;> simp

end Bind

/-- Two expressions have the same value everywhere. -/
def SameValue (H : Host) (tables : Tables) (ctes : Ctes) (e e' : Expr) : Prop :=
  ∀ binding columns row group,
    evalExpr H tables (bindWith binding e') columns row group ctes =
      evalExpr H tables (bindWith binding e) columns row group ctes

/-- An expression and its folded form: a constant has become a literal, everything else
has kept its shape; names, aggregates and join keys are the same, the conjuncts that an
index can use are those with constants, and the values are the same. -/
structure Folded (H : Host) (e e' : Expr) : Prop where
  literal : ∀ value, e' = .literal value ↔ constantValue H e = some value
  column : ∀ qualifier name, e' = .column qualifier name ↔ e = .column qualifier name
  aggregates : exprHasAggregate e' = exprHasAggregate e
  resolves : ∀ columns, expressionResolves columns e' = expressionResolves columns e
  name : expressionName e' = expressionName e
  order : ∀ columns row evaluated,
    orderValue e' columns row evaluated = orderValue e columns row evaluated
  isHash : isHashJoin e' = isHashJoin e
  hash : ∀ left right, hashJoinIndices e' left right = hashJoinIndices e left right
  conjuncts : indexConjuncts e' = constantConjuncts H e
  evaluates : ∀ tables ctes, exprScans H tables ctes e → SameValue H tables ctes e e'

section Constructors

variable {H : Host}

attribute [local simp] constantConjuncts indexConjuncts constantValue exprHasAggregate
  expressionResolves exprScans

/-- A node of another shape than the foldable ones is related to a node of its shape. -/
theorem Folded.refl_column (qualifier : Option String) (name : String) :
    Folded H (.column qualifier name) (.column qualifier name) where
  literal := by simp
  column := by simp
  aggregates := rfl
  resolves := fun _ => rfl
  name := rfl
  order := fun _ _ _ => rfl
  isHash := rfl
  hash := fun _ _ => rfl
  conjuncts := by simp
  evaluates := fun _ _ _ _ _ _ _ => rfl

theorem Folded.refl_parameter (index : Nat) :
    Folded H (.parameter index) (.parameter index) where
  literal := by simp
  column := by simp
  aggregates := rfl
  resolves := fun _ => rfl
  name := rfl
  order := fun _ _ _ => rfl
  isHash := rfl
  hash := fun _ _ => rfl
  conjuncts := by simp
  evaluates := fun _ _ _ _ _ _ _ => rfl

theorem Folded.refl_incoming (name : String) : Folded H (.incoming name) (.incoming name) where
  literal := by simp
  column := by simp
  aggregates := rfl
  resolves := fun _ => rfl
  name := rfl
  order := fun _ _ _ => rfl
  isHash := rfl
  hash := fun _ _ => rfl
  conjuncts := by simp
  evaluates := fun _ _ _ _ _ _ _ => rfl

theorem Folded.of_literal (value : Value) : Folded H (.literal value) (.literal value) where
  literal := by simp
  column := by simp
  aggregates := rfl
  resolves := fun _ => rfl
  name := rfl
  order := fun _ _ _ => rfl
  isHash := rfl
  hash := fun _ _ => rfl
  conjuncts := by simp
  evaluates := fun _ _ _ _ _ _ _ => rfl

variable {left left' right right' : Expr}

theorem Folded.evalExpr_literal {value : Value} (h : Folded H left (.literal value))
    {tables : Tables} {ctes : Ctes} (hscans : exprScans H tables ctes left)
    (binding : Option (TableSchema × Row)) (columns : List BoundColumn) (row : Row)
    (group : Option (List Row)) :
    evalExpr H tables (bindWith binding left) columns row group ctes = .ok value := by
  rw [← h.evaluates tables ctes hscans, bindWith_literal, evalExpr]

/-- A constant that became a literal. -/
theorem Folded.of_constant {e : Expr} {value : Value} (hvalue : constantValue H e = some value)
    (hcolumn : ∀ qualifier name, e ≠ .column qualifier name)
    (haggregates : exprHasAggregate e = false)
    (hresolves : ∀ columns, expressionResolves columns e = true)
    (hname : expressionName e = "expression")
    (horder : ∀ columns row evaluated, orderValue e columns row evaluated = evaluated)
    (hisHash : isHashJoin e = false) (hhash : ∀ left right, hashJoinIndices e left right = none)
    (hconjuncts : constantConjuncts H e = [])
    (hevaluates : ∀ tables ctes, exprScans H tables ctes e → ∀ binding columns row group,
      evalExpr H tables (bindWith binding e) columns row group ctes = .ok value) :
    Folded H e (.literal value) where
  literal := by simp [hvalue]
  column := fun qualifier name => by simp [hcolumn]
  aggregates := haggregates.symm
  resolves := fun columns => (hresolves columns).symm
  name := hname.symm
  order := fun columns row evaluated => (horder columns row evaluated).symm
  isHash := hisHash.symm
  hash := fun left right => (hhash left right).symm
  conjuncts := by simp [hconjuncts]
  evaluates := fun tables ctes hscans binding columns row group => by
    rw [bindWith_literal, evalExpr, hevaluates tables ctes hscans]

/-! ### Binary nodes -/

theorem indexConjuncts_compare_eq_nil {c : ComparisonOp}
    (hcolumn : ∀ qualifier name value, left = .column qualifier name → right ≠ .literal value)
    (hliteral : ∀ qualifier name value, left = .literal value → right ≠ .column qualifier name) :
    indexConjuncts (.binary left (.compare c) right) = [] := by
  rw [indexConjuncts]
  · simp
  · rintro qualifier name op value h
    simp only [Expr.binary.injEq] at h
    exact hcolumn qualifier name value h.1 h.2.2
  · rintro value op qualifier name h
    simp only [Expr.binary.injEq] at h
    exact hliteral qualifier name value h.1 h.2.2

theorem constantConjuncts_compare {c : ComparisonOp} (hleft : ∀ q n, left ≠ .column q n)
    (hright : ∀ q n, right ≠ .column q n) :
    constantConjuncts H (.binary left (.compare c) right) = [] := by
  rw [constantConjuncts]
  · simp
  · rintro qualifier name op value h
    simp only [Expr.binary.injEq] at h
    exact hleft qualifier name h.1
  · rintro value op qualifier name h
    simp only [Expr.binary.injEq] at h
    exact hright _ _ h.2.2

/-- The conjuncts of a comparison, from those of its folded operands. -/
theorem conjuncts_compare (hleft : Folded H left left') (hright : Folded H right right')
    (c : ComparisonOp) :
    indexConjuncts (.binary left' (.compare c) right') =
      constantConjuncts H (.binary left (.compare c) right) := by
  by_cases hl : ∃ q n, left = .column q n
  · obtain ⟨q, n, rfl⟩ := hl
    obtain rfl := (hleft.column q n).mpr rfl
    rw [constantConjuncts]
    cases hvalue : constantValue H right with
    | some value =>
      obtain rfl := (hright.literal value).mpr hvalue
      simp
    | none =>
      rw [indexConjuncts_compare_eq_nil]
      · rfl
      · intro _ _ value _ hliteral
        simp [(hright.literal value).mp hliteral] at hvalue
      · simp
  · have hl : ∀ q n, left ≠ .column q n := fun q n h => hl ⟨q, n, h⟩
    have hl' : ∀ q n, left' ≠ .column q n := fun q n h => hl q n ((hleft.column q n).mp h)
    by_cases hr : ∃ q n, right = .column q n
    · obtain ⟨q, n, rfl⟩ := hr
      obtain rfl := (hright.column q n).mpr rfl
      have hconjuncts : constantConjuncts H (.binary left (.compare c) (.column q n)) =
          ((constantValue H left).map (fun value =>
            (q, { column := n, operator := reverseComparison c, value }))).toList := by
        rw [constantConjuncts]
        exact fun qualifier name h => hl qualifier name h
      rw [hconjuncts]
      cases hvalue : constantValue H left with
      | some value =>
        obtain rfl := (hleft.literal value).mpr hvalue
        simp
      | none =>
        rw [indexConjuncts_compare_eq_nil]
        · rfl
        · simp
        · intro _ _ value hliteral
          simp [(hleft.literal value).mp hliteral] at hvalue
    · have hr : ∀ q n, right ≠ .column q n := fun q n h => hr ⟨q, n, h⟩
      rw [constantConjuncts_compare hl hr, indexConjuncts_compare_eq_nil]
      · exact fun q n value h => absurd h (hl' q n)
      · exact fun q n value _ h => hr q n ((hright.column q n).mp h)

theorem conjuncts_binary (hleft : Folded H left left') (hright : Folded H right right')
    (op : BinaryOp) :
    indexConjuncts (.binary left' op right') = constantConjuncts H (.binary left op right) := by
  cases op with
  | and => rw [indexConjuncts, constantConjuncts, hleft.conjuncts, hright.conjuncts]
  | compare c => exact conjuncts_compare hleft hright c
  | _ => simp

theorem isHashJoin_eq_false {op : BinaryOp}
    (h : ∀ q n q' n', left = .column q n → right ≠ .column q' n') :
    isHashJoin (.binary left op right) = false := by
  unfold isHashJoin
  split
  · rename_i heq
    simp only [Expr.binary.injEq] at heq
    exact absurd heq.2.2 (h _ _ _ _ heq.1)
  · rfl

theorem hashJoinIndices_eq_none {op : BinaryOp} {leftColumns rightColumns : List BoundColumn}
    (h : ∀ q n q' n', left = .column q n → right ≠ .column q' n') :
    hashJoinIndices (.binary left op right) leftColumns rightColumns = none := by
  unfold hashJoinIndices
  split
  · rename_i heq
    simp only [Expr.binary.injEq] at heq
    exact absurd heq.2.2 (h _ _ _ _ heq.1)
  · rfl

/-- Both operands are columns before folding exactly when they are after it. -/
theorem columns_or (hleft : Folded H left left') (hright : Folded H right right') :
    (left' = left ∧ right' = right) ∨
      (∀ q n q' n', left = .column q n → right ≠ .column q' n') ∧
      (∀ q n q' n', left' = .column q n → right' ≠ .column q' n') := by
  by_cases h : ∃ q n q' n', left = .column q n ∧ right = .column q' n'
  · obtain ⟨q, n, q', n', rfl, rfl⟩ := h
    exact Or.inl ⟨(hleft.column q n).mpr rfl, (hright.column q' n').mpr rfl⟩
  · refine Or.inr ⟨fun q n q' n' hl hr => h ⟨q, n, q', n', hl, hr⟩, fun q n q' n' hl hr => ?_⟩
    exact h ⟨q, n, q', n', (hleft.column q n).mp hl, (hright.column q' n').mp hr⟩

/-- A binary node that stays one. -/
theorem Folded.binary_kept (hleft : Folded H left left') (hright : Folded H right right')
    {op : BinaryOp} (hnone : constantValue H (.binary left op right) = none) :
    Folded H (.binary left op right) (.binary left' op right') where
  literal := by simp [-constantValue, hnone]
  column := by simp
  aggregates := by simp [hleft.aggregates, hright.aggregates]
  resolves := fun columns => by
    simp [hleft.resolves, hright.resolves]
  name := rfl
  order := fun _ _ _ => rfl
  isHash := by
    rcases columns_or hleft hright with ⟨rfl, rfl⟩ | ⟨h, h'⟩
    · rfl
    · rw [isHashJoin_eq_false h, isHashJoin_eq_false h']
  hash := fun leftColumns rightColumns => by
    rcases columns_or hleft hright with ⟨rfl, rfl⟩ | ⟨h, h'⟩
    · rfl
    · rw [hashJoinIndices_eq_none h, hashJoinIndices_eq_none h']
  conjuncts := conjuncts_binary hleft hright op
  evaluates := fun tables ctes hscans binding columns row group => by
    rw [exprScans] at hscans
    rw [bindWith_binary, bindWith_binary, evalExpr, evalExpr,
      hleft.evaluates tables ctes hscans.1, hright.evaluates tables ctes hscans.2]

theorem constantValue_ne_column {e : Expr} {value : Value} (h : constantValue H e = some value)
    (qualifier : Option String) (name : String) : e ≠ .column qualifier name := by
  rintro rfl
  simp at h

/-- A binary node over constants that has become a literal. -/
theorem Folded.binary_constant {a b value : Value} (hleft : Folded H left (.literal a))
    (hright : Folded H right (.literal b)) {op : BinaryOp}
    (hvalue : binaryValue H op a b = .ok value) :
    Folded H (.binary left op right) (.literal value) := by
  have ha := (hleft.literal a).mp rfl
  have hb := (hright.literal b).mp rfl
  have hcolumns : ∀ q n q' n', left = .column q n → right ≠ .column q' n' :=
    fun q n _ _ h => absurd h (constantValue_ne_column ha q n)
  refine Folded.of_constant ?_ (by simp) ?_ ?_ rfl (fun _ _ _ => rfl)
    (isHashJoin_eq_false hcolumns) (fun _ _ => hashJoinIndices_eq_none hcolumns) ?_ ?_
  · simp [ha, hb, hvalue, Except.toOption]
  · rw [exprHasAggregate, ← hleft.aggregates, ← hright.aggregates]
    rfl
  · intro columns
    rw [expressionResolves, ← hleft.resolves, ← hright.resolves]
    rfl
  · rw [← conjuncts_binary hleft hright op]
    cases op <;> simp
  · intro tables ctes hscans binding columns row group
    rw [exprScans] at hscans
    rw [bindWith_binary, evalExpr_binary_values op
      (hleft.evalExpr_literal hscans.1 binding columns row group)
      (hright.evalExpr_literal hscans.2 binding columns row group), hvalue]

theorem foldBinaryNode_kept {op : BinaryOp}
    (h : ∀ a b, left = .literal a → right = .literal b → foldBinary H a op b = .ok none) :
    foldBinaryNode H left op right = .ok (.binary left op right) := by
  unfold foldBinaryNode
  split
  · rename_i a b
    rw [h a b rfl rfl, Result.ok_bind]
    rfl
  · rfl

/-- **A binary node** over folded operands. -/
theorem Folded.binary (hleft : Folded H left left') (hright : Folded H right right')
    {op : BinaryOp}
    (hexact : ∀ a b, constantValue H left = some a → constantValue H right = some b →
      NodeExact H op a b) :
    ∃ e', foldBinaryNode H left' op right' = .ok e' ∧ Folded H (.binary left op right) e' := by
  have hfold : ∀ a b, left' = .literal a → right' = .literal b →
      foldBinary H a op b = .ok (binaryValue H op a b).toOption := fun a b hl hr =>
    nodeExact_iff.mp (hexact a b ((hleft.literal a).mp hl) ((hright.literal b).mp hr))
  by_cases hconstant : ∃ a b value, left' = .literal a ∧ right' = .literal b ∧
      binaryValue H op a b = .ok value
  · obtain ⟨a, b, value, rfl, rfl, hvalue⟩ := hconstant
    refine ⟨.literal value, ?_, Folded.binary_constant hleft hright hvalue⟩
    simp only [foldBinaryNode, hfold a b rfl rfl, hvalue, Except.toOption, Result.ok_bind]
    rfl
  · have hnone : ∀ a b, left' = .literal a → right' = .literal b →
        (binaryValue H op a b).toOption = none := by
      intro a b hl hr
      cases hvalue : binaryValue H op a b with
      | error fault => rfl
      | ok value => exact absurd ⟨a, b, value, hl, hr, hvalue⟩ hconstant
    refine ⟨_, foldBinaryNode_kept fun a b hl hr => by rw [hfold a b hl hr, hnone a b hl hr],
      Folded.binary_kept hleft hright ?_⟩
    rw [constantValue]
    cases ha : constantValue H left with
    | none => rfl
    | some a =>
      cases hb : constantValue H right with
      | none => rfl
      | some b => exact hnone a b ((hleft.literal a).mpr ha) ((hright.literal b).mpr hb)

/-! ### Other nodes -/

variable {expr expr' pattern pattern' : Expr}

/-- **A unary node** over a folded operand. -/
theorem Folded.unary (hexpr : Folded H expr expr') {op : UnaryOp}
    (hexact : ∀ a, constantValue H expr = some a → evalUnary H op a ≠ .error .panic) :
    ∃ e', foldUnaryNode H op expr' = .ok e' ∧ Folded H (.unary op expr) e' := by
  have hkept : constantValue H (.unary op expr) = none →
      Folded H (.unary op expr) (.unary op expr') := fun hnone =>
    { literal := by simp [-constantValue, hnone]
      column := by simp
      aggregates := by simp [hexpr.aggregates]
      resolves := fun columns => by simp [hexpr.resolves]
      name := rfl
      order := fun _ _ _ => rfl
      isHash := rfl
      hash := fun _ _ => rfl
      conjuncts := by simp
      evaluates := fun tables ctes hscans binding columns row group => by
        rw [exprScans] at hscans
        rw [bindWith_unary, bindWith_unary, evalExpr, evalExpr,
          hexpr.evaluates tables ctes hscans] }
  by_cases hliteral : ∃ a, expr' = .literal a
  · obtain ⟨a, rfl⟩ := hliteral
    have ha := (hexpr.literal a).mp rfl
    rw [foldUnaryNode, foldUnary_eq (hexact a ha), Result.ok_bind]
    cases hvalue : unaryConstant H op a with
    | none =>
      exact ⟨_, rfl, hkept (by simp [ha, hvalue])⟩
    | some value =>
      refine ⟨_, rfl, Folded.of_constant ?_ (by simp) ?_ ?_ rfl (fun _ _ _ => rfl) rfl
        (fun _ _ => rfl) (by simp) ?_⟩
      · simp [ha, hvalue]
      · rw [exprHasAggregate, ← hexpr.aggregates]
        rfl
      · intro columns
        rw [expressionResolves, ← hexpr.resolves]
        rfl
      · intro tables ctes hscans binding columns row group
        rw [exprScans] at hscans
        rw [bindWith_unary, evalExpr, hexpr.evalExpr_literal hscans, Result.ok_bind]
        unfold unaryConstant at hvalue
        split at hvalue
        · simp at hvalue
        · exact Result.toOption_eq_some.mp hvalue
  · have hother : ∀ a, expr' ≠ .literal a := fun a h => hliteral ⟨a, h⟩
    refine ⟨.unary op expr', ?_, hkept ?_⟩
    · unfold foldUnaryNode
      split
      · exact absurd rfl (hother _)
      · rfl
    · cases ha : constantValue H expr with
      | none => simp [ha]
      | some a => exact absurd ((hexpr.literal a).mpr ha) (hother a)

/-- **IS NULL** over a folded operand. -/
theorem Folded.isNull (hexpr : Folded H expr expr') (negated : Bool) :
    Folded H (.isNull expr negated) (foldIsNullNode expr' negated) := by
  unfold foldIsNullNode
  split
  · rename_i a
    have ha := (hexpr.literal a).mp rfl
    refine Folded.of_constant ?_ (by simp) ?_ ?_ rfl (fun _ _ _ => rfl) rfl (fun _ _ => rfl)
      (by simp) ?_
    · simp [ha]
    · rw [exprHasAggregate, ← hexpr.aggregates]
      rfl
    · intro columns
      rw [expressionResolves, ← hexpr.resolves]
      rfl
    · intro tables ctes hscans binding columns row group
      rw [exprScans] at hscans
      rw [bindWith_isNull, evalExpr, hexpr.evalExpr_literal hscans]
      rfl
  · rename_i hother
    have hnone : constantValue H expr = none := by
      cases ha : constantValue H expr with
      | none => rfl
      | some a => exact absurd ((hexpr.literal a).mpr ha) (hother a)
    exact
      { literal := by simp [hnone]
        column := by simp
        aggregates := by simp [hexpr.aggregates]
        resolves := fun columns => by simp [hexpr.resolves]
        name := rfl
        order := fun _ _ _ => rfl
        isHash := rfl
        hash := fun _ _ => rfl
        conjuncts := by simp
        evaluates := fun tables ctes hscans binding columns row group => by
          rw [exprScans] at hscans
          rw [bindWith_isNull, bindWith_isNull, evalExpr, evalExpr,
            hexpr.evaluates tables ctes hscans] }

/-- **LIKE** over folded operands. -/
theorem Folded.like (hexpr : Folded H expr expr') (hpattern : Folded H pattern pattern')
    (negated : Bool) :
    Folded H (.like expr pattern negated) (foldLikeNode H expr' pattern' negated) := by
  unfold foldLikeNode
  split
  · rename_i a b
    have ha := (hexpr.literal a).mp rfl
    have hb := (hpattern.literal b).mp rfl
    refine Folded.of_constant ?_ (by simp) ?_ ?_ rfl (fun _ _ _ => rfl) rfl (fun _ _ => rfl)
      (by simp) ?_
    · simp [ha, hb]
    · rw [exprHasAggregate, ← hexpr.aggregates]
      rfl
    · intro columns
      rw [expressionResolves, ← hexpr.resolves]
      rfl
    · intro tables ctes hscans binding columns row group
      rw [exprScans] at hscans
      rw [bindWith_like, evalExpr, hexpr.evalExpr_literal hscans.1, Result.ok_bind,
        hpattern.evalExpr_literal hscans.2]
      rfl
  · rename_i hother
    have hnone : constantValue H (.like expr pattern negated) = none := by
      rw [constantValue]
      cases ha : constantValue H expr with
      | none => rfl
      | some a =>
        cases hb : constantValue H pattern with
        | none => rfl
        | some b =>
        exact absurd ((hpattern.literal b).mpr hb) (hother a b ((hexpr.literal a).mpr ha))
    exact
      { literal := by simp [-constantValue, hnone]
        column := by simp
        aggregates := by simp [hexpr.aggregates]
        resolves := fun columns => by simp [hexpr.resolves]
        name := rfl
        order := fun _ _ _ => rfl
        isHash := rfl
        hash := fun _ _ => rfl
        conjuncts := by simp
        evaluates := fun tables ctes hscans binding columns row group => by
          rw [exprScans] at hscans
          rw [bindWith_like, bindWith_like, evalExpr, evalExpr,
            hexpr.evaluates tables ctes hscans.1, hpattern.evaluates tables ctes hscans.2] }

end Constructors

/-! ## Folded lists, sources and queries -/

/-- Optional expressions. -/
def FoldedOption (H : Host) : Option Expr → Option Expr → Prop
  | none, none => True
  | some e, some e' => Folded H e e'
  | _, _ => False

/-- Optional expressions are both there or both absent. -/
theorem FoldedOption.cases {H : Host} {option option' : Option Expr}
    (h : FoldedOption H option option') :
    (option = none ∧ option' = none) ∨
      ∃ e e', option = some e ∧ option' = some e' ∧ Folded H e e' := by
  cases option with
  | none =>
    cases option' with
    | none => exact Or.inl ⟨rfl, rfl⟩
    | some e' => exact absurd h (by simp [FoldedOption])
  | some e =>
    cases option' with
    | none => exact absurd h (by simp [FoldedOption])
    | some e' => exact Or.inr ⟨e, e', rfl, rfl, h⟩

/-- What folding keeps of a list of expressions. -/
structure FoldedAll (H : Host) (exprs exprs' : List Expr) : Prop where
  isEmpty : exprs'.isEmpty = exprs.isEmpty
  aggregates : anyHasAggregate exprs' = anyHasAggregate exprs
  resolves : ∀ columns, allResolve columns exprs' = allResolve columns exprs
  evaluates : ∀ tables ctes, exprsScans H tables ctes exprs → ∀ binding columns row group,
    evalExprs H tables (bindAll binding exprs') columns row group ctes =
      evalExprs H tables (bindAll binding exprs) columns row group ctes

/-- What folding keeps of a SELECT list. -/
structure FoldedItems (H : Host) (items items' : List SelectItem) : Prop where
  aggregates : items'.any selectItemHasAggregate = items.any selectItemHasAggregate
  columns : ∀ source, projectionColumns items' source = projectionColumns items source
  projects : ∀ tables ctes, itemsScans H tables ctes items → ∀ columns row group,
    projectRow H tables items' columns row group ctes =
      projectRow H tables items columns row group ctes

/-- What folding keeps of an ORDER BY. -/
structure FoldedOrders (H : Host) (orders orders' : List OrderBy) : Prop where
  isEmpty : orders'.isEmpty = orders.isEmpty
  resolves : ∀ columns, orders'.all (fun order => expressionResolves columns order.expr) =
    orders.all (fun order => expressionResolves columns order.expr)
  values : ∀ tables ctes, ordersScans H tables ctes orders → ∀ columns row,
    evalOrderValues H tables orders' columns row ctes =
      evalOrderValues H tables orders columns row ctes

/-- What folding keeps of a query: its execution, its scans and its plan. -/
structure FoldedQuery (H : Host) (query query' : Query) : Prop where
  executes : ∀ tables inherited, queryScans H tables inherited query →
    executeQuery H tables query' inherited = executeQuery H tables query inherited
  agrees : ∀ tables inherited ctes name asName table e relation,
    PartsStable H tables query inherited →
    query.ScansTable H tables inherited ctes name asName table e →
    FoldsRightly H tables ctes query.joins (asName.getD name) table e →
    executeQuery H tables query inherited = .ok relation →
    (executeQuery H tables query' inherited = .ok relation ↔
      FoldedAddedEvaluate H tables ctes query.joins (asName.getD name) table e)
  plans : ∀ tables, queryPlans H tables query → plan H tables query' = plan H tables query

/-- What folding keeps of the common table expressions. -/
structure FoldedCtes (H : Host) (clauses clauses' : List Cte) : Prop where
  executes : ∀ tables ctes, ctesScans H tables ctes clauses →
    executeCtes H tables clauses' ctes = executeCtes H tables clauses ctes
  plans : ∀ tables, ctesPlans H tables clauses → ∀ input,
    planCtes H tables clauses' input = planCtes H tables clauses input

/-- What folding keeps of a table of FROM. -/
structure FoldedSource (H : Host) (source source' : TableSource) : Prop where
  table : ∀ name asName, source' = .table name asName ↔ source = .table name asName
  relation : ∀ tables ctes, sourceScans H tables ctes source → ∀ selection,
    sourceRelation H tables source' ctes selection = sourceRelation H tables source ctes selection
  plans : ∀ tables selection selection', FoldedOption H selection selection' →
    sourcePlans H tables selection source →
    planSource H tables source' selection' = planSource H tables source selection

/-- Optional sources. -/
def FoldedFrom (H : Host) : Option TableSource → Option TableSource → Prop
  | none, none => True
  | some source, some source' => FoldedSource H source source'
  | _, _ => False

/-- What folding keeps of a chain of joins. -/
structure FoldedJoins (H : Host) (joins joins' : List Join) : Prop where
  executes : ∀ tables ctes, joinsScans H tables ctes joins → ∀ relation,
    executeJoins H tables joins' relation ctes = executeJoins H tables joins relation ctes
  plans : ∀ tables, joinsPlans H tables joins → ∀ left,
    planJoins H tables joins' left = planJoins H tables joins left

section Composite

variable {H : Host} {expr expr' : Expr} {list list' : List Expr} {query query' : Query}

theorem Folded.inList (hexpr : Folded H expr expr') (hlist : FoldedAll H list list')
    (negated : Bool) : Folded H (.inList expr list negated) (.inList expr' list' negated) where
  literal := by simp [constantValue]
  column := by simp
  aggregates := by simp [exprHasAggregate, hexpr.aggregates, hlist.aggregates]
  resolves := fun columns => by simp [expressionResolves, hexpr.resolves, hlist.resolves]
  name := rfl
  order := fun _ _ _ => rfl
  isHash := rfl
  hash := fun _ _ => rfl
  conjuncts := by simp [indexConjuncts, constantConjuncts]
  evaluates := fun tables ctes hscans binding columns row group => by
    rw [exprScans] at hscans
    rw [bindWith_inList, bindWith_inList, evalExpr, evalExpr,
      hexpr.evaluates tables ctes hscans.1, hlist.evaluates tables ctes hscans.2]

theorem Folded.inSubquery (hexpr : Folded H expr expr') (hquery : FoldedQuery H query query')
    (negated : Bool) :
    Folded H (.inSubquery expr query negated) (.inSubquery expr' query' negated) where
  literal := by simp [constantValue]
  column := by simp
  aggregates := rfl
  resolves := fun _ => rfl
  name := rfl
  order := fun _ _ _ => rfl
  isHash := rfl
  hash := fun _ _ => rfl
  conjuncts := by simp [indexConjuncts, constantConjuncts]
  evaluates := fun tables ctes hscans binding columns row group => by
    rw [exprScans] at hscans
    -- VALUES(column) is not bound below a subquery.
    have hvalue := hexpr.evaluates tables ctes hscans.1 none columns row group
    simp only [bindWith] at hvalue
    rw [bindWith_inSubquery, bindWith_inSubquery, evalExpr, evalExpr, hvalue,
      hquery.executes tables ctes hscans.2]

theorem Folded.exist (hquery : FoldedQuery H query query') (negated : Bool) :
    Folded H (.exist query negated) (.exist query' negated) where
  literal := by simp [constantValue]
  column := by simp
  aggregates := rfl
  resolves := fun _ => rfl
  name := rfl
  order := fun _ _ _ => rfl
  isHash := rfl
  hash := fun _ _ => rfl
  conjuncts := by simp [indexConjuncts, constantConjuncts]
  evaluates := fun tables ctes hscans binding columns row group => by
    rw [exprScans] at hscans
    rw [bindWith_exist, bindWith_exist, evalExpr, evalExpr, hquery.executes tables ctes hscans]

theorem Folded.scalarSubquery (hquery : FoldedQuery H query query') :
    Folded H (.scalarSubquery query) (.scalarSubquery query') where
  literal := by simp [constantValue]
  column := by simp
  aggregates := rfl
  resolves := fun _ => rfl
  name := rfl
  order := fun _ _ _ => rfl
  isHash := rfl
  hash := fun _ _ => rfl
  conjuncts := by simp [indexConjuncts, constantConjuncts]
  evaluates := fun tables ctes hscans binding columns row group => by
    rw [exprScans] at hscans
    rw [bindWith_scalarSubquery, bindWith_scalarSubquery, evalExpr, evalExpr,
      hquery.executes tables ctes hscans]

theorem Folded.aggregate {inner inner' : Option Expr} (hinner : FoldedOption H inner inner')
    (function : AggregateFunction) (distinct : Bool) :
    Folded H (.aggregate function inner distinct) (.aggregate function inner' distinct) where
  literal := by simp [constantValue]
  column := by simp
  aggregates := rfl
  resolves := fun _ => rfl
  name := rfl
  order := fun _ _ _ => rfl
  isHash := rfl
  hash := fun _ _ => rfl
  conjuncts := by simp [indexConjuncts, constantConjuncts]
  evaluates := fun tables ctes hscans binding columns row group => by
    rw [exprScans] at hscans
    rw [bindWith_aggregate, bindWith_aggregate]
    rcases hinner.cases with ⟨rfl, rfl⟩ | ⟨expr, expr', rfl, rfl, hinner⟩
    · rfl
    · rw [optionScans] at hscans
      have hvalue := fun other => hinner.evaluates tables ctes hscans none columns other none
      simp only [bindWith] at hvalue
      cases group with
      | none => rw [evalExpr, evalExpr]
      | some group =>
        rw [evalExpr, evalExpr]
        simp only [hvalue]

theorem FoldedAll.nil : FoldedAll H [] [] :=
  ⟨rfl, rfl, fun _ => rfl, fun _ _ _ _ _ _ _ => rfl⟩

theorem FoldedAll.cons (hexpr : Folded H expr expr') (hlist : FoldedAll H list list') :
    FoldedAll H (expr :: list) (expr' :: list') where
  isEmpty := rfl
  aggregates := by simp [anyHasAggregate, hexpr.aggregates, hlist.aggregates]
  resolves := fun columns => by simp [allResolve, hexpr.resolves, hlist.resolves]
  evaluates := fun tables ctes hscans binding columns row group => by
    rw [exprsScans] at hscans
    rw [bindAll_cons, bindAll_cons, evalExprs, evalExprs, hexpr.evaluates tables ctes hscans.1,
      hlist.evaluates tables ctes hscans.2]

theorem FoldedItems.nil : FoldedItems H [] [] :=
  ⟨rfl, fun _ => rfl, fun _ _ _ _ _ _ => rfl⟩

theorem FoldedItems.cons_wildcard {items items' : List SelectItem}
    (hitems : FoldedItems H items items')
    (qualifier : Option String) :
    FoldedItems H (.wildcard qualifier :: items) (.wildcard qualifier :: items') where
  aggregates := by simp [hitems.aggregates]
  columns := fun source => by rw [projectionColumns_cons, projectionColumns_cons, hitems.columns]
  projects := fun tables ctes hscans columns row group => by
    rw [itemsScans] at hscans
    rw [projectRow, projectRow, hitems.projects tables ctes hscans]

/-- The output column of an item has the same name and table. -/
theorem Folded.itemColumns (hexpr : Folded H expr expr') (source : List BoundColumn)
    (asName : Option String) :
    itemColumns source (.expr expr' asName) = itemColumns source (.expr expr asName) := by
  by_cases hcolumn : ∃ qualifier name, expr = .column qualifier name
  · obtain ⟨qualifier, name, rfl⟩ := hcolumn
    rw [(hexpr.column qualifier name).mpr rfl]
  · have htable : ∀ e : Expr, (¬ ∃ qualifier name, e = .column qualifier name) →
        Sql.itemColumns source (.expr e asName) =
          .ok [{ table := "", name := asName.getD (expressionName e) }] := by
      intro e he
      cases e with
      | column qualifier name => exact absurd ⟨qualifier, name, rfl⟩ he
      | _ => rfl
    rw [htable expr hcolumn, htable expr', hexpr.name]
    rintro ⟨qualifier, name, h⟩
    exact hcolumn ⟨qualifier, name, (hexpr.column qualifier name).mp h⟩

theorem FoldedItems.cons_expr {items items' : List SelectItem} (hexpr : Folded H expr expr')
    (hitems : FoldedItems H items items') (asName : Option String) :
    FoldedItems H (.expr expr asName :: items) (.expr expr' asName :: items') where
  aggregates := by
    rw [List.any_cons, List.any_cons, hitems.aggregates]
    simp only [selectItemHasAggregate, hexpr.aggregates]
  columns := fun source => by
    rw [projectionColumns_cons, projectionColumns_cons, hitems.columns, hexpr.itemColumns]
  projects := fun tables ctes hscans columns row group => by
    rw [itemsScans] at hscans
    have hvalue := hexpr.evaluates tables ctes hscans.1 none columns row group
    simp only [bindWith] at hvalue
    rw [projectRow, projectRow, hvalue, hitems.projects tables ctes hscans.2]

theorem FoldedOrders.nil : FoldedOrders H [] [] :=
  ⟨rfl, fun _ => rfl, fun _ _ _ _ _ => rfl⟩

theorem FoldedOrders.cons {orders orders' : List OrderBy} (hexpr : Folded H expr expr')
    (horders : FoldedOrders H orders orders') (descending : Bool) :
    FoldedOrders H (⟨expr, descending⟩ :: orders) (⟨expr', descending⟩ :: orders') where
  isEmpty := rfl
  resolves := fun columns => by
    rw [List.all_cons, List.all_cons, horders.resolves, hexpr.resolves]
  values := fun tables ctes hscans columns row => by
    rw [ordersScans] at hscans
    have hvalue := hexpr.evaluates tables ctes hscans.1 none columns row none
    simp only [bindWith] at hvalue
    rw [evalOrderValues, evalOrderValues, hexpr.order, hvalue,
      horders.values tables ctes hscans.2]

theorem FoldedCtes.nil : FoldedCtes H [] [] :=
  ⟨fun _ _ _ => rfl, fun _ _ _ => rfl⟩

theorem FoldedCtes.cons {clauses clauses' : List Cte} (hquery : FoldedQuery H query query')
    (hclauses : FoldedCtes H clauses clauses') (name : String) (columns : List String) :
    FoldedCtes H (⟨name, columns, query⟩ :: clauses) (⟨name, columns, query'⟩ :: clauses') where
  executes := fun tables ctes hscans => by
    rw [ctesScans] at hscans
    rw [executeCtes, executeCtes, hquery.executes tables ctes hscans.1]
    refine Result.bind_congr_of_ok fun relation hrelation => ?_
    refine Result.bind_congr_of_ok fun renamed hrenamed => ?_
    exact hclauses.executes tables _ (hscans.2 relation renamed hrelation hrenamed)
  plans := fun tables hplans input => by
    rw [ctesPlans] at hplans
    rw [planCtes, planCtes, hquery.plans tables hplans.1, hclauses.plans tables hplans.2]

theorem FoldedSource.derived (hquery : FoldedQuery H query query') (asName : String) :
    FoldedSource H (.derived query asName) (.derived query' asName) where
  table := by simp
  relation := fun tables ctes hscans selection => by
    rw [sourceScans] at hscans
    rw [sourceRelation, sourceRelation, hquery.executes tables ctes hscans]
  plans := fun tables selection selection' _ hplans => by
    rw [sourcePlans] at hplans
    rw [planSource, planSource, hquery.plans tables hplans]

theorem Folded.candidateRowIds (hexpr : Folded H expr expr') (table : Table) :
    table.candidateRowIds H (some expr') = table.foldedCandidates H expr := by
  rw [Table.candidateRowIds_eq, hexpr.conjuncts, Table.foldedCandidates]

theorem FoldedOption.bestIndexName {selection selection' : Option Expr}
    (h : FoldedOption H selection selection') {tables : Tables} {name : String}
    (hplan : PlanStable H tables name selection) {table : Table}
    (hlookup : tables.lookup name = some table) :
    table.bestIndexName H selection' = table.bestIndexName H selection := by
  rcases h.cases with ⟨rfl, rfl⟩ | ⟨e, e', rfl, rfl, h⟩
  · rfl
  · rw [Table.bestIndexName, Table.bestIndexName, h.candidateRowIds, Table.candidateRowIds_eq]
    exact hplan table e hlookup rfl

theorem FoldedSource.table_refl (name : String) (asName : Option String) :
    FoldedSource H (.table name asName) (.table name asName) where
  table := by simp
  relation := fun _ _ _ _ => rfl
  plans := fun tables selection selection' hselection hplans => by
    rw [sourcePlans] at hplans
    rw [planSource, planSource]
    cases hlookup : tables.lookup name with
    | none => rfl
    | some table => simp only [Option.bind_some, hselection.bestIndexName hplans hlookup]

theorem FoldedJoins.nil : FoldedJoins H [] [] :=
  ⟨fun _ _ _ _ => rfl, fun _ _ _ => rfl⟩

theorem FoldedOption.isHashJoin {on on' : Option Expr} (h : FoldedOption H on on') :
    on'.any isHashJoin = on.any isHashJoin := by
  rcases h.cases with ⟨rfl, rfl⟩ | ⟨e, e', rfl, rfl, h⟩
  · rfl
  · exact h.isHash

/-- A join with a folded condition. -/
theorem FoldedOption.joinRelations {on on' : Option Expr} (h : FoldedOption H on on')
    {tables : Tables} {ctes : Ctes} (hscans : optionScans H tables ctes on)
    (left right : Relation) (joinType : JoinType) :
    joinRelations H left right joinType on' (joinTest H tables on' ctes) =
      joinRelations H left right joinType on (joinTest H tables on ctes) := by
  rcases h.cases with ⟨rfl, rfl⟩ | ⟨e, e', rfl, rfl, h⟩
  · rfl
  · rw [optionScans] at hscans
    have htest : joinTest H tables (some e') ctes = joinTest H tables (some e) ctes := by
      funext columns row
      have hvalue := h.evaluates tables ctes hscans none columns row none
      simp only [bindWith] at hvalue
      simp only [joinTest, hvalue]
    unfold Sql.joinRelations
    simp only [Option.bind_some, h.hash, htest]

theorem FoldedJoins.cons {joins joins' : List Join} {source source' : TableSource}
    {on on' : Option Expr} (hsource : FoldedSource H source source') (hon : FoldedOption H on on')
    (hjoins : FoldedJoins H joins joins') (joinType : JoinType) :
    FoldedJoins H (⟨joinType, source, on⟩ :: joins) (⟨joinType, source', on'⟩ :: joins') where
  executes := fun tables ctes hscans relation => by
    rw [joinsScans] at hscans
    rw [executeJoins_cons, executeJoins_cons, hsource.relation tables ctes hscans.1]
    simp only [hon.joinRelations hscans.2.1, hjoins.executes tables ctes hscans.2.2]
  plans := fun tables hplans left => by
    rw [joinsPlans] at hplans
    rw [planJoins, planJoins, hsource.plans tables none none trivial hplans.1]
    simp only [hon.isHashJoin, hjoins.plans tables hplans.2]

end Composite

/-! ## Folded queries -/

/-- The parts of a query and of its folded form, one by one. -/
structure FoldedParts (H : Host) (query query' : Query) : Prop where
  ctes : FoldedCtes H query.ctes query'.ctes
  distinct : query'.distinct = query.distinct
  projection : FoldedItems H query.projection query'.projection
  source : FoldedFrom H query.source query'.source
  joins : FoldedJoins H query.joins query'.joins
  selection : FoldedOption H query.selection query'.selection
  groupBy : FoldedAll H query.groupBy query'.groupBy
  having : FoldedOption H query.having query'.having
  orderBy : FoldedOrders H query.orderBy query'.orderBy
  limit : query'.limit = query.limit

section Queries

variable {H : Host} {tables : Tables} {ctes : Ctes} {query query' : Query}

theorem FoldedOption.isSome {option option' : Option Expr} (h : FoldedOption H option option') :
    option'.isSome = option.isSome := by
  rcases h.cases with ⟨rfl, rfl⟩ | ⟨e, e', rfl, rfl, -⟩ <;> rfl

theorem FoldedOption.anyHasAggregate {option option' : Option Expr}
    (h : FoldedOption H option option') :
    option'.any exprHasAggregate = option.any exprHasAggregate := by
  rcases h.cases with ⟨rfl, rfl⟩ | ⟨e, e', rfl, rfl, h⟩
  · rfl
  · exact h.aggregates

theorem FoldedOption.whereEvaluator {selection selection' : Option Expr}
    (h : FoldedOption H selection selection') (hscans : optionScans H tables ctes selection) :
    whereEvaluator H tables selection' ctes = whereEvaluator H tables selection ctes := by
  rcases h.cases with ⟨rfl, rfl⟩ | ⟨e, e', rfl, rfl, h⟩
  · rfl
  · rw [optionScans] at hscans
    simp only [Sql.whereEvaluator, Option.some.injEq]
    funext columns row
    exact h.evaluates tables ctes hscans none columns row none

theorem FoldedOption.havingEvaluator {having having' : Option Expr}
    (h : FoldedOption H having having') (hscans : optionScans H tables ctes having) :
    havingEvaluator H tables having' ctes = havingEvaluator H tables having ctes := by
  rcases h.cases with ⟨rfl, rfl⟩ | ⟨e, e', rfl, rfl, h⟩
  · rfl
  · rw [optionScans] at hscans
    simp only [Sql.havingEvaluator, Option.some.injEq]
    funext columns row group
    exact h.evaluates tables ctes hscans none columns row (some group)

namespace FoldedParts

theorem isAggregate (h : FoldedParts H query query') : query'.isAggregate = query.isAggregate := by
  rw [Query.isAggregate, Query.isAggregate, h.groupBy.isEmpty, h.projection.aggregates,
    h.having.anyHasAggregate]

theorem ordersSource (h : FoldedParts H query query') (columns : List BoundColumn) :
    query'.ordersSource columns = query.ordersSource columns := by
  rw [Query.ordersSource, Query.ordersSource, h.isAggregate, h.orderBy.isEmpty,
    h.orderBy.resolves]

/-- The stages after the joins read the same of both queries. -/
theorem finishQuery (h : FoldedParts H query query') (E : Evaluators) (relation : Relation) :
    finishQuery H query' E relation = finishQuery H query E relation := by
  have horder : ∀ relation, orderSource H query' E relation = orderSource H query E relation := by
    intro relation
    rw [orderSource, orderSource, h.ordersSource]
  have houtput : ∀ relation,
      outputRelation query' E relation = outputRelation query E relation := by
    intro relation
    rw [outputRelation, outputRelation, h.isAggregate, aggregateQuery, aggregateQuery,
      projectQuery, projectQuery, h.projection.columns, h.groupBy.isEmpty]
  have hsorted : ∀ sorted relation,
      orderOutput H query' E sorted relation = orderOutput H query E sorted relation := by
    intro sorted relation
    rw [orderOutput, orderOutput, h.orderBy.isEmpty, h.limit]
  have hdistinct : distinctRows query' = distinctRows query := by
    funext relation
    rw [distinctRows, distinctRows, h.distinct]
  have hlimit : limitRows query' = limitRows query := by
    funext relation
    rw [limitRows, limitRows, h.limit]
  simp only [Sql.finishQuery, horder, houtput, hsorted, hdistinct, hlimit, h.ordersSource]

theorem evaluators (h : FoldedParts H query query') (hscans : PartScans H tables ctes query) :
    query'.evaluators H tables ctes = query.evaluators H tables ctes := by
  have hgroup : (fun columns row => evalExprs H tables query'.groupBy columns row none ctes) =
      fun columns row => evalExprs H tables query.groupBy columns row none ctes := by
    funext columns row
    exact h.groupBy.evaluates tables ctes hscans.groupBy none columns row none
  have horder : (fun columns row => evalOrderValues H tables query'.orderBy columns row ctes) =
      fun columns row => evalOrderValues H tables query.orderBy columns row ctes := by
    funext columns row
    exact h.orderBy.values tables ctes hscans.orderBy columns row
  rw [Query.evaluators, Query.evaluators, h.selection.whereEvaluator hscans.selection,
    h.having.havingEvaluator hscans.having, hgroup, horder]
  congr 1
  funext columns row group
  exact h.projection.projects tables ctes hscans.projection columns row group

theorem fromRelation (h : FoldedParts H query query') (hscans : PartScans H tables ctes query)
    (selection : Option Expr) :
    fromRelation H tables query'.source ctes selection =
      fromRelation H tables query.source ctes selection := by
  have hsource := h.source
  have hfrom := hscans.source
  cases hs : query.source with
  | none =>
    cases hs' : query'.source with
    | none => rfl
    | some source' => simp [FoldedFrom, hs, hs'] at hsource
  | some source =>
    cases hs' : query'.source with
    | none => simp [FoldedFrom, hs, hs'] at hsource
    | some source' =>
      rw [hs, hs'] at hsource
      rw [hs, fromScans] at hfrom
      rw [Sql.fromRelation, Sql.fromRelation]
      exact hsource.relation tables ctes hfrom selection

/-- Both queries give the same result when their FROM scans are handed the same
expression. -/
theorem scanning (h : FoldedParts H query query') {inherited : Ctes}
    (hparts : PartsStable H tables query inherited) (scanned : Option Expr) :
    executeQueryScanning H tables query' inherited scanned =
      executeQueryScanning H tables query inherited scanned := by
  rw [executeQueryScanning, executeQueryScanning, h.ctes.executes tables inherited hparts.1]
  refine Result.bind_congr_of_ok fun ctes hok => ?_
  have hparts := hparts.2 ctes hok
  simp only [h.fromRelation hparts, h.joins.executes tables ctes hparts.joins,
    h.evaluators hparts, h.finishQuery]

end FoldedParts

/-- The folded WHERE clause is not true where a conjunct `column op constant` fails. -/
theorem Folded.not_holdsOn {e e' : Expr} (he : Folded H e e') (hscans : exprScans H tables ctes e)
    {columns : List BoundColumn} {width : Nat} {row : Row}
    (h : FailsConjunct H (constantConjuncts H e) columns width row) :
    holdsOn (fun row => evalExpr H tables e columns row none ctes) row = false := by
  have hsame : (fun row => evalExpr H tables e columns row none ctes) =
      fun row => evalExpr H tables e' columns row none ctes := by
    funext row
    have hvalue := he.evaluates tables ctes hscans none columns row none
    exact hvalue.symm
  rw [hsame]
  exact h.not_holdsOn fun conjunct hmem => by rwa [he.conjuncts]

/-- **A query that succeeds** keeps its result exactly if the conditions evaluate on what the
folded scan adds, when what only one of the scans reaches is dropped by WHERE. -/
theorem FoldedParts.agrees (h : FoldedParts H query query') {inherited : Ctes} {name : String}
    {asName : Option String} {table : Table} {e : Expr} {relation : Relation}
    (hparts : PartsStable H tables query inherited)
    (hscans : query.ScansTable H tables inherited ctes name asName table e)
    (hrightly : FoldsRightly H tables ctes query.joins (asName.getD name) table e)
    (hrelation : executeQuery H tables query inherited = .ok relation) :
    executeQuery H tables query' inherited = .ok relation ↔
      FoldedAddedEvaluate H tables ctes query.joins (asName.getD name) table e := by
  obtain ⟨e', hsome', he⟩ : ∃ e', query'.selection = some e' ∧ Folded H e e' := by
    rcases h.selection.cases with ⟨hnone, -⟩ | ⟨found, e', hfound, hsome', he⟩
    · exact absurd (hnone.symm.trans hscans.selection) nofun
    · obtain rfl := Option.some.inj (hfound.symm.trans hscans.selection)
      exact ⟨e', hsome', he⟩
  have hselection := (hparts.2 ctes hscans.executed).selection
  rw [hscans.selection, optionScans] at hselection
  rw [executeQuery_eq, hscans.selection] at hrelation
  have hagree := @executeQueryScanning_scans _ _ _ _ _ _ _ _ _ relation (some e) (some e') _
    hscans fun _ _ hfails => he.not_holdsOn hselection hfails
  rw [he.candidateRowIds] at hagree
  rw [executeQuery_eq, hsome', h.scanning hparts]
  exact hagree hrightly hrelation

/-- The FROM scan of a stable query reads the same rows for a folded WHERE clause. -/
theorem FoldedParts.scanning_selection (h : FoldedParts H query query') {inherited : Ctes}
    (hscans : queryScans H tables inherited query) :
    executeQueryScanning H tables query' inherited query'.selection =
      executeQueryScanning H tables query inherited query.selection := by
  obtain ⟨hctes, hparts⟩ := (queryScans_iff H tables inherited query).mp hscans
  have hstableParts : PartsStable H tables query inherited :=
    ⟨hctes, fun ctes hok => (hparts ctes hok).1⟩
  have hsame := h.scanning hstableParts
  rcases h.selection.cases with ⟨hnone, hnone'⟩ | ⟨e, e', hsome, hsome', he⟩
  · rw [hnone, hnone', hsame]
  rw [hsome, hsome']
  cases hok : executeCtes H tables query.ctes inherited with
  | error fault =>
    rw [hsame, executeQueryScanning, executeQueryScanning, hok]
    rfl
  | ok ctes =>
    rcases fromRelation_cases H tables query.source ctes with
      hfull | ⟨name, asName, table, hsource, hcte, hlookup⟩
    · rw [hsame]
      refine executeQueryScanning_congr fun other hother => ?_
      rw [hok, Except.ok.injEq] at hother
      subst hother
      rw [hfull (some e'), hfull (some e)]
    have hscanned : query.ScansTable H tables inherited ctes name asName table e :=
      ⟨hok, hsource, hcte, hlookup, hsome⟩
    rcases (hparts ctes hok).2 name asName table e hscanned with
      hreaches | ⟨⟨relation, hrelation⟩, hrightly, hadded⟩
    · -- The same rows are scanned.
      rw [hsame]
      refine executeQueryScanning_congr fun other hother => ?_
      rw [hok, Except.ok.injEq] at hother
      subst hother
      rw [hsource, fromRelation_table hcte hlookup, fromRelation_table hcte hlookup,
        he.candidateRowIds, Table.scan_congr hreaches]
    · have hfolded := (h.agrees hstableParts hscanned hrightly hrelation).mpr hadded
      rw [executeQuery_eq, hsome'] at hfolded
      rw [executeQuery_eq, hsome] at hrelation
      rw [hfolded, hrelation]

theorem planFrom_folded {source source' : Option TableSource} (h : FoldedFrom H source source')
    {selection selection' : Option Expr} (hselection : FoldedOption H selection selection')
    (hplans : fromPlans H tables selection source) :
    planFrom H tables source' selection' = planFrom H tables source selection := by
  cases source with
  | none =>
    cases source' with
    | none => rfl
    | some source' => exact absurd h (by simp [FoldedFrom])
  | some source =>
    cases source' with
    | none => exact absurd h (by simp [FoldedFrom])
    | some source' =>
      rw [fromPlans] at hplans
      rw [planFrom, planFrom]
      exact FoldedSource.plans h tables selection selection' hselection hplans

/-- **A query of folded parts** gives the same result and the same plan. -/
theorem FoldedParts.foldedQuery (h : FoldedParts H query query') : FoldedQuery H query query' where
  executes := fun tables inherited hscans => by
    rw [executeQuery_eq, executeQuery_eq]
    exact h.scanning_selection hscans
  agrees := fun _ _ _ _ _ _ _ _ => h.agrees
  plans := fun tables hplans => by
    have hstages : planStages query' = planStages query := by
      funext input
      simp only [planStages, h.selection.isSome, h.isAggregate, h.orderBy.isEmpty, h.limit]
    cases query
    cases query'
    rw [queryPlans] at hplans
    rw [plan, plan]
    simp only [hstages]
    rw [planFrom_folded h.source h.selection hplans.2.1, h.joins.plans tables hplans.2.2,
      h.ctes.plans tables hplans.1]

end Queries

/-! ## The induction over the syntax tree -/

mutual

/-- **Folding an exact expression** succeeds and gives a folded form of it. -/
theorem fold_expr (H : Host) (e : Expr) (h : exactExpr H e) :
    ∃ e', foldExpr H e = .ok e' ∧ Folded H e e' := by
  match e, h with
  | .binary left op right, h =>
    rw [exactExpr] at h
    obtain ⟨left', hleft, hfleft⟩ := fold_expr H left h.1
    obtain ⟨right', hright, hfright⟩ := fold_expr H right h.2.1
    obtain ⟨e', he, hfolded⟩ := hfleft.binary hfright h.2.2
    exact ⟨e', by rw [foldExpr, hleft, Result.ok_bind, hright, Result.ok_bind, he], hfolded⟩
  | .unary op expr, h =>
    rw [exactExpr] at h
    obtain ⟨expr', hexpr, hfexpr⟩ := fold_expr H expr h.1
    obtain ⟨e', he, hfolded⟩ := hfexpr.unary h.2
    exact ⟨e', by rw [foldExpr, hexpr, Result.ok_bind, he], hfolded⟩
  | .isNull expr negated, h =>
    rw [exactExpr] at h
    obtain ⟨expr', hexpr, hfexpr⟩ := fold_expr H expr h
    exact ⟨_, by rw [foldExpr, hexpr, Result.ok_bind, Result.pure_eq_ok], hfexpr.isNull negated⟩
  | .like expr pattern negated, h =>
    rw [exactExpr] at h
    obtain ⟨expr', hexpr, hfexpr⟩ := fold_expr H expr h.1
    obtain ⟨pattern', hpattern, hfpattern⟩ := fold_expr H pattern h.2
    exact ⟨_, by rw [foldExpr, hexpr, Result.ok_bind, hpattern, Result.ok_bind,
      Result.pure_eq_ok], hfexpr.like hfpattern negated⟩
  | .inList expr list negated, h =>
    rw [exactExpr] at h
    obtain ⟨expr', hexpr, hfexpr⟩ := fold_expr H expr h.1
    obtain ⟨list', hlist, hflist⟩ := fold_exprs H list h.2
    exact ⟨_, by rw [foldExpr, hexpr, Result.ok_bind, hlist, Result.ok_bind,
      Result.pure_eq_ok], hfexpr.inList hflist negated⟩
  | .inSubquery expr query negated, h =>
    rw [exactExpr] at h
    obtain ⟨expr', hexpr, hfexpr⟩ := fold_expr H expr h.1
    obtain ⟨query', hquery, hfquery⟩ := optimize_query H query h.2
    exact ⟨_, by rw [foldExpr, hexpr, Result.ok_bind, hquery, Result.ok_bind,
      Result.pure_eq_ok], hfexpr.inSubquery hfquery negated⟩
  | .exist query negated, h =>
    rw [exactExpr] at h
    obtain ⟨query', hquery, hfquery⟩ := optimize_query H query h
    exact ⟨_, by rw [foldExpr, hquery, Result.ok_bind, Result.pure_eq_ok],
      Folded.exist hfquery negated⟩
  | .scalarSubquery query, h =>
    rw [exactExpr] at h
    obtain ⟨query', hquery, hfquery⟩ := optimize_query H query h
    exact ⟨_, by rw [foldExpr, hquery, Result.ok_bind, Result.pure_eq_ok],
      Folded.scalarSubquery hfquery⟩
  | .aggregate function inner distinct, h =>
    rw [exactExpr] at h
    obtain ⟨inner', hinner, hfinner⟩ := fold_option H inner h
    exact ⟨_, by rw [foldExpr, hinner, Result.ok_bind, Result.pure_eq_ok],
      Folded.aggregate hfinner function distinct⟩
  | .column qualifier name, _ => exact ⟨_, by rw [foldExpr], Folded.refl_column qualifier name⟩
  | .literal value, _ => exact ⟨_, by rw [foldExpr], Folded.of_literal value⟩
  | .parameter index, _ => exact ⟨_, by rw [foldExpr], Folded.refl_parameter index⟩
  | .incoming name, _ => exact ⟨_, by rw [foldExpr], Folded.refl_incoming name⟩

theorem fold_exprs (H : Host) (exprs : List Expr) (h : exactExprs H exprs) :
    ∃ exprs', foldExprs H exprs = .ok exprs' ∧ FoldedAll H exprs exprs' := by
  match exprs, h with
  | [], _ => exact ⟨_, by rw [foldExprs], FoldedAll.nil⟩
  | expr :: exprs, h =>
    rw [exactExprs] at h
    obtain ⟨expr', hexpr, hfexpr⟩ := fold_expr H expr h.1
    obtain ⟨exprs', hexprs, hfexprs⟩ := fold_exprs H exprs h.2
    exact ⟨_, by rw [foldExprs, hexpr, Result.ok_bind, hexprs, Result.ok_bind,
      Result.pure_eq_ok], FoldedAll.cons hfexpr hfexprs⟩

theorem fold_option (H : Host) (option : Option Expr) (h : exactOption H option) :
    ∃ option', foldOption H option = .ok option' ∧ FoldedOption H option option' := by
  match option, h with
  | none, _ => exact ⟨none, by rw [foldOption], trivial⟩
  | some expr, h =>
    rw [exactOption] at h
    obtain ⟨expr', hexpr, hfexpr⟩ := fold_expr H expr h
    exact ⟨some expr', by rw [foldOption, hexpr, Result.ok_bind, Result.pure_eq_ok], hfexpr⟩

theorem fold_items (H : Host) (items : List SelectItem) (h : exactItems H items) :
    ∃ items', foldItems H items = .ok items' ∧ FoldedItems H items items' := by
  match items, h with
  | [], _ => exact ⟨_, by rw [foldItems], FoldedItems.nil⟩
  | .wildcard qualifier :: items, h =>
    rw [exactItems] at h
    obtain ⟨items', hitems, hfitems⟩ := fold_items H items h
    exact ⟨_, by rw [foldItems, hitems, Result.ok_bind, Result.pure_eq_ok],
      hfitems.cons_wildcard qualifier⟩
  | .expr expr asName :: items, h =>
    rw [exactItems] at h
    obtain ⟨expr', hexpr, hfexpr⟩ := fold_expr H expr h.1
    obtain ⟨items', hitems, hfitems⟩ := fold_items H items h.2
    exact ⟨_, by rw [foldItems, hexpr, Result.ok_bind, hitems, Result.ok_bind,
      Result.pure_eq_ok], FoldedItems.cons_expr hfexpr hfitems asName⟩

theorem fold_orders (H : Host) (orders : List OrderBy) (h : exactOrders H orders) :
    ∃ orders', foldOrders H orders = .ok orders' ∧ FoldedOrders H orders orders' := by
  match orders, h with
  | [], _ => exact ⟨_, by rw [foldOrders], FoldedOrders.nil⟩
  | ⟨expr, descending⟩ :: orders, h =>
    rw [exactOrders] at h
    obtain ⟨expr', hexpr, hfexpr⟩ := fold_expr H expr h.1
    obtain ⟨orders', horders, hforders⟩ := fold_orders H orders h.2
    exact ⟨_, by rw [foldOrders, hexpr, Result.ok_bind, horders, Result.ok_bind,
      Result.pure_eq_ok], FoldedOrders.cons hfexpr hforders descending⟩

theorem optimize_ctes (H : Host) (clauses : List Cte) (h : exactCtes H clauses) :
    ∃ clauses', optimizeCtes H clauses = .ok clauses' ∧ FoldedCtes H clauses clauses' := by
  match clauses, h with
  | [], _ => exact ⟨_, by rw [optimizeCtes], FoldedCtes.nil⟩
  | ⟨name, columns, query⟩ :: clauses, h =>
    rw [exactCtes] at h
    obtain ⟨query', hquery, hfquery⟩ := optimize_query H query h.1
    obtain ⟨clauses', hclauses, hfclauses⟩ := optimize_ctes H clauses h.2
    exact ⟨_, by rw [optimizeCtes, hquery, Result.ok_bind, hclauses, Result.ok_bind,
      Result.pure_eq_ok], FoldedCtes.cons hfquery hfclauses name columns⟩

theorem optimize_source (H : Host) (source : TableSource) (h : exactSource H source) :
    ∃ source', optimizeSource H source = .ok source' ∧ FoldedSource H source source' := by
  match source, h with
  | .derived query asName, h =>
    rw [exactSource] at h
    obtain ⟨query', hquery, hfquery⟩ := optimize_query H query h
    exact ⟨_, by rw [optimizeSource, hquery, Result.ok_bind, Result.pure_eq_ok],
      FoldedSource.derived hfquery asName⟩
  | .table name asName, _ => exact ⟨_, by rw [optimizeSource], FoldedSource.table_refl name asName⟩

theorem optimize_from (H : Host) (source : Option TableSource) (h : exactFrom H source) :
    ∃ source', optimizeFrom H source = .ok source' ∧ FoldedFrom H source source' := by
  match source, h with
  | none, _ => exact ⟨none, by rw [optimizeFrom], trivial⟩
  | some source, h =>
    rw [exactFrom] at h
    obtain ⟨source', hsource, hfsource⟩ := optimize_source H source h
    exact ⟨some source', by rw [optimizeFrom, hsource, Result.ok_bind, Result.pure_eq_ok], hfsource⟩

theorem optimize_joins (H : Host) (joins : List Join) (h : exactJoins H joins) :
    ∃ joins', optimizeJoins H joins = .ok joins' ∧ FoldedJoins H joins joins' := by
  match joins, h with
  | [], _ => exact ⟨_, by rw [optimizeJoins], FoldedJoins.nil⟩
  | ⟨joinType, source, on⟩ :: joins, h =>
    rw [exactJoins] at h
    obtain ⟨source', hsource, hfsource⟩ := optimize_source H source h.1
    obtain ⟨on', hon, hfon⟩ := fold_option H on h.2.1
    obtain ⟨joins', hjoins, hfjoins⟩ := optimize_joins H joins h.2.2
    exact ⟨_, by rw [optimizeJoins, hsource, Result.ok_bind, hon, Result.ok_bind, hjoins,
      Result.ok_bind, Result.pure_eq_ok], FoldedJoins.cons hfsource hfon hfjoins joinType⟩

/-- **Optimizing an exact query** succeeds and gives a folded form of it. -/
theorem optimize_query (H : Host) (query : Query) (h : exactQuery H query) :
    ∃ query', optimizeQuery H query = .ok query' ∧ FoldedQuery H query query' := by
  match query, h with
  | ⟨clauses, distinct, projection, source, joins, selection, groupBy, having, orderBy, limit⟩,
    h =>
    rw [exactQuery] at h
    obtain ⟨clauses', hclauses, hfclauses⟩ := optimize_ctes H clauses h.1
    obtain ⟨projection', hprojection, hfprojection⟩ := fold_items H projection h.2.1
    obtain ⟨source', hsource, hfsource⟩ := optimize_from H source h.2.2.1
    obtain ⟨joins', hjoins, hfjoins⟩ := optimize_joins H joins h.2.2.2.1
    obtain ⟨selection', hselection, hfselection⟩ := fold_option H selection h.2.2.2.2.1
    obtain ⟨groupBy', hgroupBy, hfgroupBy⟩ := fold_exprs H groupBy h.2.2.2.2.2.1
    obtain ⟨having', hhaving, hfhaving⟩ := fold_option H having h.2.2.2.2.2.2.1
    obtain ⟨orderBy', horderBy, hforderBy⟩ := fold_orders H orderBy h.2.2.2.2.2.2.2
    refine ⟨⟨clauses', distinct, projection', source', joins', selection', groupBy', having',
      orderBy', limit⟩, ?_, FoldedParts.foldedQuery ⟨hfclauses, rfl, hfprojection, hfsource,
      hfjoins, hfselection, hfgroupBy, hfhaving, hforderBy, rfl⟩⟩
    rw [optimizeQuery, hclauses, Result.ok_bind, hprojection, Result.ok_bind, hsource,
      Result.ok_bind, hjoins, Result.ok_bind, hselection, Result.ok_bind, hgroupBy,
      Result.ok_bind, hhaving, Result.ok_bind, horderBy, Result.ok_bind, Result.pure_eq_ok]

end

end Sql
end RustyDB
