import Mathlib
import RustyDB.Sql.Execute
import RustyDB.Sql.JoinScan

/-!
# Constant folding, node by node

`fold_binary` is a second evaluator of literals.  It agrees with `eval_expr` on a node
over constants except where it takes NULL for the result too early, or computes what
`eval_expr` would never reach.

* `binaryValue` — a binary operator on evaluated operands, as `eval_expr` has it.
* `NodeExact` — the nodes on which the two evaluators agree (`nodeExact_iff`).
* `constantValue`, `constantConjuncts` — the constant expressions of a tree and the
  WHERE conjuncts that compare a column with one.
* `exactExpr`, …, `exactQuery` — every node of a tree is exact.
* `FoldsRightly`, `FoldedAddedEvaluate` — two scans that differ in rows that WHERE drops, and
  what the joins build from the folded one alone.
* `exprScans`, …, `queryScans` — no scan depends on whether the constants are folded.
* `queryPlans` — no scan of the plan that EXPLAIN prints does.
-/

namespace RustyDB
namespace Sql

/-! ## Nodes -/

/-- A binary operator on the values of its operands, when both are evaluated. -/
def binaryValue (H : Host) (op : BinaryOp) (left right : Value) : Except Fault Value :=
  match op with
  | .and => .ok (truthValue (left.truth.and right.truth))
  | .or => .ok (truthValue (left.truth.or right.truth))
  | op => evalBinary H op left right

/-- `fold_binary` and `eval_expr` agree on two literals: neither is a NULL beside an
operand that decides AND or OR, NULL is not divided by zero, and nothing overflows. -/
structure NodeExact (H : Host) (op : BinaryOp) (left right : Value) : Prop where
  and : op = .and → ¬(left = .null ∧ right.truth = .false) ∧ ¬(right = .null ∧ left.truth = .false)
  or : op = .or → ¬(left = .null ∧ right.truth = .true) ∧ ¬(right = .null ∧ left.truth = .true)
  divide : op = .divide → ¬(left = .null ∧ isZeroNumber right = true)
  overflow : binaryValue H op left right ≠ .error .panic

section Nodes

variable {H : Host} {tables : Tables} {columns : List BoundColumn} {row : Row}
  {group : Option (List Row)} {ctes : Ctes}

theorem evalExpr_binary_values {left right : Expr} {a b : Value} (op : BinaryOp)
    (hleft : evalExpr H tables left columns row group ctes = .ok a)
    (hright : evalExpr H tables right columns row group ctes = .ok b) :
    evalExpr H tables (.binary left op right) columns row group ctes = binaryValue H op a b := by
  by_cases hand : op = .and
  · subst hand
    rw [evalExpr_and, hleft, hright]
    simp only [Result.ok_bind, binaryValue]
    split
    · rename_i hfalse
      rw [hfalse]
      rfl
    · rfl
  · by_cases hor : op = .or
    · subst hor
      rw [evalExpr_or, hleft, hright]
      simp only [Result.ok_bind, binaryValue]
      split
      · rename_i htrue
        rw [htrue]
        rfl
      · rfl
    · rw [evalExpr_binary _ _ _ _ _ _ _ _ hand hor, hleft, hright, Result.ok_bind, Result.ok_bind]
      cases op with
      | and => exact absurd rfl hand
      | or => exact absurd rfl hor
      | _ => rfl

theorem Value.isNull_iff {value : Value} : value.isNull = true ↔ value = .null := by
  cases value <;> simp [Value.isNull]

theorem numericBinary_null {a b : Value} {integer : Int64 → Int64 → Except Fault Value}
    {float : F64 → F64 → F64} (h : (a.isNull || b.isNull) = true) :
    numericBinary a b integer float = .ok .null := by
  cases a <;> cases b <;> simp_all [Value.isNull, numericBinary]

/-- Without NULL the two numeric evaluators differ only in how a type error shows. -/
theorem foldNumeric_eq {a b : Value} {integer : Int64 → Int64 → Except Fault Value}
    {float : F64 → F64 → F64} (h : (a.isNull || b.isNull) = false)
    (hinteger : ∀ m n, integer m n = .error .panic ∨ ∃ value, integer m n = .ok value) :
    (numericBinary a b integer float ≠ .error .panic ↔
      foldNumeric a b integer float = .ok (numericBinary a b integer float).toOption) := by
  cases a <;> cases b <;> simp_all [Value.isNull, numericBinary, foldNumeric, Except.toOption]
  rename_i m n
  rcases hinteger m n with hpanic | ⟨value, hvalue⟩
  · simp [hpanic, Except.map]
  · simp [hvalue, Except.map]

theorem integerOp_cases (op : BinaryOp) (m n : Int64) :
    integerOp H op m n = .error .panic ∨ ∃ value, integerOp H op m n = .ok value := by
  unfold integerOp overflowing divideIntegers
  cases op <;> simp only <;> split <;> simp

theorem foldBinary_of_null {op : BinaryOp} {a b : Value} (h : (a.isNull || b.isNull) = true) :
    foldBinary H a op b = .ok (some .null) := by
  unfold foldBinary
  rw [if_pos h]

theorem nodeExact_and_iff {a b : Value} :
    NodeExact H .and a b ↔ foldBinary H a .and b = .ok (binaryValue H .and a b).toOption := by
  have hfields : NodeExact H .and a b ↔
      ¬(a = .null ∧ b.truth = .false) ∧ ¬(b = .null ∧ a.truth = .false) :=
    ⟨fun h => h.and rfl, fun h => ⟨fun _ => h, nofun, nofun, by simp [binaryValue]⟩⟩
  rw [hfields]
  by_cases ha : a = .null
  · subst ha
    have hvalue : binaryValue H .and .null b = .ok
        (truthValue (SqlTruth.unknown.and b.truth)) := rfl
    have hnull : Value.null.truth = .unknown := rfl
    rw [foldBinary_of_null rfl, hvalue, hnull]
    cases b.truth <;> simp [SqlTruth.and, truthValue, Except.toOption]
  · by_cases hb : b = .null
    · subst hb
      have hvalue : binaryValue H .and a .null = .ok (truthValue (a.truth.and .unknown)) := rfl
      rw [foldBinary_of_null (by simp [Value.isNull]), hvalue]
      cases a.truth <;> simp [ha, SqlTruth.and, truthValue, Except.toOption]
    · have hnull : (a.isNull || b.isNull) = false := by
        simpa [← Bool.not_eq_true, Value.isNull_iff] using ⟨ha, hb⟩
      simp [foldBinary, hnull, ha, hb, binaryValue, Except.toOption]

theorem nodeExact_or_iff {a b : Value} :
    NodeExact H .or a b ↔ foldBinary H a .or b = .ok (binaryValue H .or a b).toOption := by
  have hfields : NodeExact H .or a b ↔
      ¬(a = .null ∧ b.truth = .true) ∧ ¬(b = .null ∧ a.truth = .true) :=
    ⟨fun h => h.or rfl, fun h => ⟨nofun, fun _ => h, nofun, by simp [binaryValue]⟩⟩
  rw [hfields]
  by_cases ha : a = .null
  · subst ha
    have hvalue : binaryValue H .or .null b = .ok (truthValue (SqlTruth.unknown.or b.truth)) := rfl
    have hnull : Value.null.truth = .unknown := rfl
    rw [foldBinary_of_null rfl, hvalue, hnull]
    cases b.truth <;> simp [SqlTruth.or, truthValue, Except.toOption]
  · by_cases hb : b = .null
    · subst hb
      have hvalue : binaryValue H .or a .null = .ok (truthValue (a.truth.or .unknown)) := rfl
      rw [foldBinary_of_null (by simp [Value.isNull]), hvalue]
      cases a.truth <;> simp [ha, SqlTruth.or, truthValue, Except.toOption]
    · have hnull : (a.isNull || b.isNull) = false := by
        simpa [← Bool.not_eq_true, Value.isNull_iff] using ⟨ha, hb⟩
      simp [foldBinary, hnull, ha, hb, binaryValue, Except.toOption]

theorem nodeExact_divide_iff {a b : Value} :
    NodeExact H .divide a b ↔
      foldBinary H a .divide b = .ok (binaryValue H .divide a b).toOption := by
  have hfields : NodeExact H .divide a b ↔
      ¬(a = .null ∧ isZeroNumber b = true) ∧ binaryValue H .divide a b ≠ .error .panic :=
    ⟨fun h => ⟨h.divide rfl, h.overflow⟩, fun h => ⟨nofun, nofun, fun _ => h.1, h.2⟩⟩
  rw [hfields]
  by_cases hzero : isZeroNumber b = true
  · have hvalue : binaryValue H .divide a b = .error (.error "Division by zero") := by
      simp [binaryValue, evalBinary, hzero]
    rw [hvalue]
    by_cases ha : a = .null
    · subst ha
      rw [foldBinary_of_null rfl]
      simp [hzero, Except.toOption]
    · have hb : b.isNull = false := by
        cases b <;> simp_all [isZeroNumber, Value.isNull]
      have hnull : a.isNull = false := by simpa [← Bool.not_eq_true, Value.isNull_iff] using ha
      simp [foldBinary, ha, hb, hnull, hzero, Except.toOption]
  · have hvalue : binaryValue H .divide a b =
        numericBinary a b (integerOp H .divide) (floatOp .divide) := by
      simp [binaryValue, evalBinary, hzero]
    rw [hvalue]
    cases hnull : (a.isNull || b.isNull) with
    | true =>
      rw [foldBinary_of_null hnull, numericBinary_null hnull]
      simp [hzero, Except.toOption]
    | false =>
      have hfold : foldBinary H a .divide b =
          foldNumeric a b (integerOp H .divide) (floatOp .divide) := by
        simp [foldBinary, hnull, hzero]
      rw [hfold, ← foldNumeric_eq hnull (integerOp_cases .divide)]
      simp [hzero]

/-- Addition, subtraction and multiplication. -/
theorem nodeExact_arithmetic_iff {op : BinaryOp} {a b : Value}
    (hop : op = .add ∨ op = .subtract ∨ op = .multiply) :
    NodeExact H op a b ↔ foldBinary H a op b = .ok (binaryValue H op a b).toOption := by
  have hvalue : binaryValue H op a b = numericBinary a b (integerOp H op) (floatOp op) := by
    rcases hop with rfl | rfl | rfl <;> rfl
  have hfields : NodeExact H op a b ↔
      numericBinary a b (integerOp H op) (floatOp op) ≠ .error .panic := by
    rw [← hvalue]
    refine ⟨fun h => h.overflow, fun h => ⟨?_, ?_, ?_, h⟩⟩ <;> rintro rfl <;> simp at hop
  rw [hfields, hvalue]
  cases hnull : (a.isNull || b.isNull) with
  | true =>
    rw [foldBinary_of_null hnull, numericBinary_null hnull]
    simp [Except.toOption]
  | false =>
    have hfold : foldBinary H a op b = foldNumeric a b (integerOp H op) (floatOp op) := by
      rcases hop with rfl | rfl | rfl <;> simp [foldBinary, hnull]
    rw [hfold, ← foldNumeric_eq hnull (integerOp_cases op)]

/-- **Folding a node** over two literals yields what `eval_expr` yields, exactly on the
exact nodes; a node that does not evaluate is left alone. -/
theorem nodeExact_iff {op : BinaryOp} {a b : Value} :
    NodeExact H op a b ↔ foldBinary H a op b = .ok (binaryValue H op a b).toOption := by
  cases op with
  | add => exact nodeExact_arithmetic_iff (by simp)
  | subtract => exact nodeExact_arithmetic_iff (by simp)
  | multiply => exact nodeExact_arithmetic_iff (by simp)
  | divide => exact nodeExact_divide_iff
  | and => exact nodeExact_and_iff
  | or => exact nodeExact_or_iff
  | compare c =>
    have hfold : foldBinary H a (.compare c) b = .ok (binaryValue H (.compare c) a b).toOption := by
      cases hnull : (a.isNull || b.isNull) with
      | true =>
        rw [foldBinary_of_null hnull]
        simp [binaryValue, evalBinary, Value.compareSql, hnull, truthValue, Except.toOption]
      | false => simp [foldBinary, hnull, binaryValue, evalBinary, Except.toOption]
    refine ⟨fun _ => hfold, fun _ => ⟨?_, ?_, ?_, by simp [binaryValue, evalBinary]⟩⟩
    all_goals
      intro h
      cases h

/-- The value of a unary operator on a constant; a sign before NULL is not folded. -/
def unaryConstant (H : Host) (op : UnaryOp) (value : Value) : Option Value :=
  if value.isNull && op != .not then none else (evalUnary H op value).toOption

theorem foldUnary_eq {op : UnaryOp} {value : Value} (h : evalUnary H op value ≠ .error .panic) :
    foldUnary H op value = .ok (unaryConstant H op value) := by
  cases op with
  | not => simp [foldUnary, unaryConstant, evalUnary, Except.toOption]
  | plus => cases value <;>
      simp [foldUnary, unaryConstant, evalUnary, Value.isNull, Except.toOption]
  | negate =>
    cases value with
    | integer n =>
      have hcases : overflowing H (-n.toInt) = .error .panic ∨
          ∃ value, overflowing H (-n.toInt) = .ok value := by
        unfold overflowing
        split <;> simp
      rcases hcases with hpanic | ⟨value, hvalue⟩
      · exact absurd hpanic h
      · simp [foldUnary, unaryConstant, evalUnary, Value.isNull, hvalue, Except.map,
          Except.toOption]
    | _ => simp [foldUnary, unaryConstant, evalUnary, Value.isNull, Except.toOption]

end Nodes

/-! ## Constants -/

/-- The value of an expression built from literals, when every operator in it has one. -/
def constantValue (H : Host) : Expr → Option Value
  | .literal value => some value
  | .binary left op right =>
    (constantValue H left).bind (fun a => (constantValue H right).bind (fun b =>
      (binaryValue H op a b).toOption))
  | .unary op expr => (constantValue H expr).bind (unaryConstant H op)
  | .isNull expr negated =>
    (constantValue H expr).map (fun a => .boolean (if negated then !a.isNull else a.isNull))
  | .like expr pattern negated =>
    (constantValue H expr).bind (fun a => (constantValue H pattern).map (fun b =>
      evalLike H a b negated))
  | _ => none

/-- The conjuncts of a WHERE clause that compare a column with a constant expression. -/
def constantConjuncts (H : Host) : Expr → List (Option String × IndexPredicate)
  | .binary left .and right => constantConjuncts H left ++ constantConjuncts H right
  | .binary (.column qualifier name) (.compare operator) right =>
    ((constantValue H right).map (fun value =>
      (qualifier, { column := name, operator, value }))).toList
  | .binary left (.compare operator) (.column qualifier name) =>
    ((constantValue H left).map (fun value =>
      (qualifier, { column := name, operator := reverseComparison operator, value }))).toList
  | _ => []

/-! ## Exact trees -/

mutual

/-- Every node over constants is one on which the two evaluators agree. -/
def exactExpr (H : Host) : Expr → Prop
  | .binary left op right => exactExpr H left ∧ exactExpr H right ∧
      ∀ a b, constantValue H left = some a → constantValue H right = some b → NodeExact H op a b
  | .unary op expr => exactExpr H expr ∧
      ∀ a, constantValue H expr = some a → evalUnary H op a ≠ .error .panic
  | .isNull expr _ => exactExpr H expr
  | .like expr pattern _ => exactExpr H expr ∧ exactExpr H pattern
  | .inList expr list _ => exactExpr H expr ∧ exactExprs H list
  | .inSubquery expr query _ => exactExpr H expr ∧ exactQuery H query
  | .exist query _ => exactQuery H query
  | .scalarSubquery query => exactQuery H query
  | .aggregate _ expr _ => exactOption H expr
  | .column _ _ => True
  | .literal _ => True
  | .parameter _ => True
  | .incoming _ => True

/-- `exactExpr` of every expression of a list. -/
def exactExprs (H : Host) : List Expr → Prop
  | [] => True
  | expr :: exprs => exactExpr H expr ∧ exactExprs H exprs

/-- `exactExpr` of an optional expression. -/
def exactOption (H : Host) : Option Expr → Prop
  | none => True
  | some expr => exactExpr H expr

/-- `exactExpr` of every item of a SELECT list. -/
def exactItems (H : Host) : List SelectItem → Prop
  | [] => True
  | .wildcard _ :: items => exactItems H items
  | .expr expr _ :: items => exactExpr H expr ∧ exactItems H items

/-- `exactExpr` of every key of an ORDER BY. -/
def exactOrders (H : Host) : List OrderBy → Prop
  | [] => True
  | ⟨expr, _⟩ :: orders => exactExpr H expr ∧ exactOrders H orders

/-- `exactQuery` of every common table expression. -/
def exactCtes (H : Host) : List Cte → Prop
  | [] => True
  | ⟨_, _, query⟩ :: clauses => exactQuery H query ∧ exactCtes H clauses

/-- `exactQuery` of a derived table. -/
def exactSource (H : Host) : TableSource → Prop
  | .derived query _ => exactQuery H query
  | .table _ _ => True

/-- `exactSource` of an optional FROM. -/
def exactFrom (H : Host) : Option TableSource → Prop
  | none => True
  | some source => exactSource H source

/-- `exactSource` and `exactOption` along a chain of joins. -/
def exactJoins (H : Host) : List Join → Prop
  | [] => True
  | ⟨_, source, on⟩ :: joins => exactSource H source ∧ exactOption H on ∧ exactJoins H joins

/-- Every node over constants inside of a query is one on which the two evaluators agree. -/
def exactQuery (H : Host) : Query → Prop
  | ⟨clauses, _, projection, source, joins, selection, groupBy, having, orderBy, _⟩ =>
    exactCtes H clauses ∧ exactItems H projection ∧ exactFrom H source ∧ exactJoins H joins ∧
      exactOption H selection ∧ exactExprs H groupBy ∧ exactOption H having ∧
      exactOrders H orderBy

end

/-! ## Scans -/

/-- The candidates of a scan once the constants of its WHERE clause are folded. -/
def Table.foldedCandidates (H : Host) (table : Table) (e : Expr) : Option BestIndex :=
  table.chooseIndex H ((constantConjuncts H e).map Prod.snd)

/-- On every row of the FROM table that only one of the raw and the folded scan reaches, a
conjunct `column op constant` on a column of that table fails. -/
def FoldsRightly (H : Host) (tables : Tables) (ctes : Ctes) (joins : List Join)
    (visibleName : String) (table : Table) (e : Expr) : Prop :=
  ∀ columns,
    joinedColumns H tables ctes joins (boundColumns visibleName table.schema) = .ok columns →
    table.DifferRightly H (constantConjuncts H e) columns (table.candidateRowIds H (some e))
      (table.foldedCandidates H e)

/-- The ON conditions and WHERE evaluate on what the joins build from the folded scan alone. -/
def FoldedAddedEvaluate (H : Host) (tables : Tables) (ctes : Ctes) (joins : List Join)
    (visibleName : String) (table : Table) (e : Expr) : Prop :=
  AddedEvaluate H tables ctes e joins
    (table.scan visibleName (table.candidateRowIds H (some e)))
    (table.scan visibleName (table.foldedCandidates H e))

/-- The scan of the FROM table does not depend on whether constants are folded: it reaches
the same rows; or the query succeeds, what only one of the scans reaches is dropped by WHERE,
and the conditions evaluate on what the folded scan adds. -/
def ScanStable (H : Host) (tables : Tables) (query : Query) (inherited ctes : Ctes) : Prop :=
  ∀ name asName table e, query.ScansTable H tables inherited ctes name asName table e →
    (∀ position < table.rows.length, table.isCandidate (table.foldedCandidates H e) position =
      table.isCandidate (table.candidateRowIds H (some e)) position) ∨
    ((∃ relation, executeQuery H tables query inherited = .ok relation) ∧
      FoldsRightly H tables ctes query.joins (asName.getD name) table e ∧
      FoldedAddedEvaluate H tables ctes query.joins (asName.getD name) table e)

mutual

/-- Every scan below is stable, in the CTE environment in which it runs. -/
def exprScans (H : Host) (tables : Tables) (ctes : Ctes) : Expr → Prop
  | .binary left _ right => exprScans H tables ctes left ∧ exprScans H tables ctes right
  | .unary _ expr => exprScans H tables ctes expr
  | .isNull expr _ => exprScans H tables ctes expr
  | .like expr pattern _ => exprScans H tables ctes expr ∧ exprScans H tables ctes pattern
  | .inList expr list _ => exprScans H tables ctes expr ∧ exprsScans H tables ctes list
  | .inSubquery expr query _ => exprScans H tables ctes expr ∧ queryScans H tables ctes query
  | .exist query _ => queryScans H tables ctes query
  | .scalarSubquery query => queryScans H tables ctes query
  | .aggregate _ expr _ => optionScans H tables ctes expr
  | .column _ _ => True
  | .literal _ => True
  | .parameter _ => True
  | .incoming _ => True

/-- `exprScans` of every expression of a list. -/
def exprsScans (H : Host) (tables : Tables) (ctes : Ctes) : List Expr → Prop
  | [] => True
  | expr :: exprs => exprScans H tables ctes expr ∧ exprsScans H tables ctes exprs

/-- `exprScans` of an optional expression. -/
def optionScans (H : Host) (tables : Tables) (ctes : Ctes) : Option Expr → Prop
  | none => True
  | some expr => exprScans H tables ctes expr

/-- `exprScans` of every item of a SELECT list. -/
def itemsScans (H : Host) (tables : Tables) (ctes : Ctes) : List SelectItem → Prop
  | [] => True
  | .wildcard _ :: items => itemsScans H tables ctes items
  | .expr expr _ :: items => exprScans H tables ctes expr ∧ itemsScans H tables ctes items

/-- `exprScans` of every key of an ORDER BY. -/
def ordersScans (H : Host) (tables : Tables) (ctes : Ctes) : List OrderBy → Prop
  | [] => True
  | ⟨expr, _⟩ :: orders => exprScans H tables ctes expr ∧ ordersScans H tables ctes orders

/-- Each WITH clause runs with the ones before it bound. -/
def ctesScans (H : Host) (tables : Tables) (ctes : Ctes) : List Cte → Prop
  | [] => True
  | ⟨name, columns, query⟩ :: clauses => queryScans H tables ctes query ∧
      ∀ relation renamed, executeQuery H tables query ctes = .ok relation →
        cteRelation name columns relation = .ok renamed →
        ctesScans H tables (ctes.insert name renamed) clauses

/-- `queryScans` of a derived table. -/
def sourceScans (H : Host) (tables : Tables) (ctes : Ctes) : TableSource → Prop
  | .derived query _ => queryScans H tables ctes query
  | .table _ _ => True

/-- `sourceScans` of an optional FROM. -/
def fromScans (H : Host) (tables : Tables) (ctes : Ctes) : Option TableSource → Prop
  | none => True
  | some source => sourceScans H tables ctes source

/-- `sourceScans` and `optionScans` along a chain of joins. -/
def joinsScans (H : Host) (tables : Tables) (ctes : Ctes) : List Join → Prop
  | [] => True
  | ⟨_, source, on⟩ :: joins => sourceScans H tables ctes source ∧ optionScans H tables ctes on ∧
      joinsScans H tables ctes joins

/-- The scans of a query, its subqueries included, are stable under folding. -/
def queryScans (H : Host) (tables : Tables) (inherited : Ctes) : Query → Prop
  | ⟨clauses, distinct, projection, source, joins, selection, groupBy, having, orderBy, limit⟩ =>
    ctesScans H tables inherited clauses ∧
      ∀ ctes, executeCtes H tables clauses inherited = .ok ctes →
        itemsScans H tables ctes projection ∧ fromScans H tables ctes source ∧
        joinsScans H tables ctes joins ∧ optionScans H tables ctes selection ∧
        exprsScans H tables ctes groupBy ∧ optionScans H tables ctes having ∧
        ordersScans H tables ctes orderBy ∧
        ScanStable H tables
          ⟨clauses, distinct, projection, source, joins, selection, groupBy, having, orderBy, limit⟩
          inherited ctes

end

/-- Every part of a query evaluates in an environment where no scan below it changes. -/
structure PartScans (H : Host) (tables : Tables) (ctes : Ctes) (query : Query) : Prop where
  projection : itemsScans H tables ctes query.projection
  source : fromScans H tables ctes query.source
  joins : joinsScans H tables ctes query.joins
  selection : optionScans H tables ctes query.selection
  groupBy : exprsScans H tables ctes query.groupBy
  having : optionScans H tables ctes query.having
  orderBy : ordersScans H tables ctes query.orderBy

theorem queryScans_iff (H : Host) (tables : Tables) (inherited : Ctes) (query : Query) :
    queryScans H tables inherited query ↔
      ctesScans H tables inherited query.ctes ∧
        ∀ ctes, executeCtes H tables query.ctes inherited = .ok ctes →
          PartScans H tables ctes query ∧ ScanStable H tables query inherited ctes := by
  cases query
  rw [queryScans]
  refine and_congr_right fun _ => forall₂_congr fun ctes _ => ?_
  exact ⟨fun ⟨h₁, h₂, h₃, h₄, h₅, h₆, h₇, h₈⟩ => ⟨⟨h₁, h₂, h₃, h₄, h₅, h₆, h₇⟩, h₈⟩,
    fun ⟨⟨h₁, h₂, h₃, h₄, h₅, h₆, h₇⟩, h₈⟩ => ⟨h₁, h₂, h₃, h₄, h₅, h₆, h₇, h₈⟩⟩

/-- No scan below the FROM scan of a query depends on whether constants are folded. -/
def PartsStable (H : Host) (tables : Tables) (query : Query) (inherited : Ctes) : Prop :=
  ctesScans H tables inherited query.ctes ∧
    ∀ ctes, executeCtes H tables query.ctes inherited = .ok ctes → PartScans H tables ctes query

/-! ## Plans -/

/-- The plan of a scan names the same index whether or not constants are folded. -/
def PlanStable (H : Host) (tables : Tables) (name : String) (selection : Option Expr) : Prop :=
  ∀ table e, tables.lookup name = some table → selection = some e →
    (table.chooseIndex H ((constantConjuncts H e).map Prod.snd)).map BestIndex.name =
      (table.chooseIndex H ((indexConjuncts e).map Prod.snd)).map BestIndex.name

mutual

/-- Every scan of the plan of a query is stable. -/
def queryPlans (H : Host) (tables : Tables) : Query → Prop
  | ⟨clauses, _, _, source, joins, selection, _, _, _, _⟩ =>
    ctesPlans H tables clauses ∧ fromPlans H tables selection source ∧ joinsPlans H tables joins

/-- `sourcePlans` of an optional FROM. -/
def fromPlans (H : Host) (tables : Tables) (selection : Option Expr) :
    Option TableSource → Prop
  | none => True
  | some source => sourcePlans H tables selection source

/-- The plan of a table of FROM is stable under folding its filter. -/
def sourcePlans (H : Host) (tables : Tables) (selection : Option Expr) : TableSource → Prop
  | .table name _ => PlanStable H tables name selection
  | .derived query _ => queryPlans H tables query

/-- `sourcePlans` along a chain of joins, which have no filter of their own. -/
def joinsPlans (H : Host) (tables : Tables) : List Join → Prop
  | [] => True
  | ⟨_, source, _⟩ :: joins => sourcePlans H tables none source ∧ joinsPlans H tables joins

/-- `queryPlans` of every common table expression. -/
def ctesPlans (H : Host) (tables : Tables) : List Cte → Prop
  | [] => True
  | ⟨_, _, query⟩ :: clauses => queryPlans H tables query ∧ ctesPlans H tables clauses

end

end Sql
end RustyDB
