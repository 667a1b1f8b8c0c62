import Mathlib
import RustyDB.Sql.Query

/-!
# Plans and the optimizer

The model of `src/sql/planner.rs`.

* `plan`, `explainLines` — the logical plan that EXPLAIN prints, with the fields
  the printer reads.
* `foldExpr`, `optimizeQuery`, `optimizeStatement` — constant folding, applied to
  every statement that comes in as text.

Folding computes with the same integers as the evaluator, so that it can panic
too: the optimizer returns in `Except Fault`.
-/

namespace RustyDB
namespace Sql

/-! ## Plans -/

/-- How a join is run. -/
inductive JoinAlgorithm where
  | hash
  | nestedLoop
  deriving DecidableEq, Repr

/-- A plan, as EXPLAIN shows it. -/
inductive LogicalPlan where
  | values
  | tableScan (table : String) (asName : Option String) (index : Option String)
  | derivedScan (asName : String) (input : LogicalPlan)
  | filter (input : LogicalPlan)
  | projection (input : LogicalPlan)
  | join (joinType : JoinType) (algorithm : JoinAlgorithm) (left right : LogicalPlan)
  | aggregate (input : LogicalPlan)
  | sort (input : LogicalPlan)
  | topN (count : Nat) (input : LogicalPlan)
  | limit (count : Nat) (input : LogicalPlan)
  | materializeCte (name : String) (cte input : LogicalPlan)

/-- An ON condition that is an equality of two columns. -/
def isHashJoin : Expr → Bool
  | .binary (.column _ _) (.compare .equal) (.column _ _) => true
  | _ => false

/-- The plan above the joins. -/
def planStages (query : Query) (input : LogicalPlan) : LogicalPlan :=
  let input := if query.selection.isSome then .filter input else input
  let input := if query.isAggregate then .aggregate input else input
  let input := LogicalPlan.projection input
  if !query.orderBy.isEmpty then
    match query.limit with
    | some limit => .topN limit input
    | none => .sort input
  else
    match query.limit with
    | some limit => .limit limit input
    | none => input

mutual

/-- `Planner::plan`. -/
def plan (H : Host) (tables : Tables) (query : Query) : LogicalPlan :=
  match query with
  | ⟨clauses, distinct, projection, source, joins, selection, groupBy, having, orderBy, limit⟩ =>
    let scanned := planFrom H tables source selection
    let joined := planJoins H tables joins scanned
    let staged := planStages
      ⟨clauses, distinct, projection, source, joins, selection, groupBy, having, orderBy, limit⟩
      joined
    planCtes H tables clauses staged

/-- The plan of a FROM clause. -/
def planFrom (H : Host) (tables : Tables) (source : Option TableSource)
    (selection : Option Expr) : LogicalPlan :=
  match source with
  | none => .values
  | some source => planSource H tables source selection

/-- The plan of one source. -/
def planSource (H : Host) (tables : Tables) (source : TableSource) (selection : Option Expr) :
    LogicalPlan :=
  match source with
  | .table name asName =>
    .tableScan name asName
      ((tables.lookup name).bind (fun table => table.bestIndexName H selection))
  | .derived query asName => .derivedScan asName (plan H tables query)

/-- The plan of the joins behind a source. -/
def planJoins (H : Host) (tables : Tables) (joins : List Join) (left : LogicalPlan) :
    LogicalPlan :=
  match joins with
  | [] => left
  | ⟨joinType, source, on⟩ :: joins =>
    let algorithm := if on.any isHashJoin then JoinAlgorithm.hash else .nestedLoop
    planJoins H tables joins
      (.join joinType algorithm left (planSource H tables source none))

/-- The WITH clauses wrap the plan, the first one outermost. -/
def planCtes (H : Host) (tables : Tables) (clauses : List Cte) (input : LogicalPlan) :
    LogicalPlan :=
  match clauses with
  | [] => input
  | ⟨name, _, query⟩ :: clauses =>
    .materializeCte name (plan H tables query) (planCtes H tables clauses input)

end

/-- The debug text of a join. -/
def JoinType.debug : JoinType → String
  | .inner => "Inner"
  | .left => "Left"
  | .right => "Right"
  | .cross => "Cross"

/-- The debug text of an algorithm. -/
def JoinAlgorithm.debug : JoinAlgorithm → String
  | .hash => "Hash"
  | .nestedLoop => "NestedLoop"

/-- `write_explain`: the lines of a plan, indented by depth. -/
def LogicalPlan.explainAt (depth : Nat) : LogicalPlan → List String
  | .values => [indent depth ++ "Values(one_row)"]
  | .tableScan table asName index =>
    let visible := asName.getD table
    match index with
    | some index =>
      [indent depth ++ s!"IndexScan(table={table}, alias={visible}, index={index}, bloom=true)"]
    | none => [indent depth ++ s!"SeqScan(table={table}, alias={visible})"]
  | .derivedScan asName input =>
    (indent depth ++ s!"DerivedScan(alias={asName})") :: input.explainAt (depth + 1)
  | .filter input =>
    (indent depth ++ "Filter(predicate_pushdown=true, constants_folded=true)") ::
      input.explainAt (depth + 1)
  | .projection input => (indent depth ++ "Projection(pruned=true)") :: input.explainAt (depth + 1)
  | .join joinType algorithm left right =>
    (indent depth ++ s!"{algorithm.debug}Join(type={joinType.debug})") ::
      (left.explainAt (depth + 1) ++ right.explainAt (depth + 1))
  | .aggregate input => (indent depth ++ "HashAggregate") :: input.explainAt (depth + 1)
  | .sort input => (indent depth ++ "Sort") :: input.explainAt (depth + 1)
  | .topN count input => (indent depth ++ s!"TopN(limit={count})") :: input.explainAt (depth + 1)
  | .limit count input => (indent depth ++ s!"Limit({count})") :: input.explainAt (depth + 1)
  | .materializeCte name cte input =>
    (indent depth ++ s!"MaterializeCTE(name={name})") ::
      (cte.explainAt (depth + 1) ++ input.explainAt (depth + 1))
where
  /-- `"  ".repeat(depth)`. -/
  indent (depth : Nat) : String := String.join (List.replicate depth "  ")

/-- EXPLAIN of a query. -/
def explainQuery (H : Host) (tables : Tables) (query : Query) : List String :=
  (plan H tables query).explainAt 0

/-- EXPLAIN of an UPDATE or a DELETE: the scan of its table. -/
def explainScan (H : Host) (tables : Tables) (tableName : String) (selection : Option Expr) :
    List String :=
  match tables.lookup (toAsciiLowercase tableName) with
  | some table =>
    match table.bestIndexName H selection with
    | some index => [s!"IndexScan(table={tableName}, index={index}, bloom=true)"]
    | none => [s!"SeqScan(table={tableName})"]
  | none => [s!"MissingTable({tableName})"]

/-- `explain_statement`. -/
def explainStatement (H : Host) (tables : Tables) : Statement → List String
  | .query query => explainQuery H tables query
  | .update tableName _ selection => explainScan H tables tableName selection
  | .delete tableName selection => explainScan H tables tableName selection
  | .insert tableName _ _ _ => [s!"Insert(table={tableName})"]
  | .createIndex name tableName columns _ _ =>
    let joined := String.intercalate "," columns
    [s!"CreateBTreeIndex(name={name}, table={tableName}, columns={joined})"]
  | other =>
    let shown := H.debugStatement other
    [s!"Utility({shown})"]

/-! ## Constant folding -/

/-- An arithmetic operation on two literals; none when it is left to the run. -/
def foldNumeric (left right : Value) (integer : Int64 → Int64 → Except Fault Value)
    (float : F64 → F64 → F64) : Except Fault (Option Value) :=
  match left, right with
  | .integer a, .integer b => (integer a b).map some
  | .integer a, .float b => .ok (some (.float (float (Value.intToFloat a) b)))
  | .float a, .integer b => .ok (some (.float (float a (Value.intToFloat b))))
  | .float a, .float b => .ok (some (.float (float a b)))
  | _, _ => .ok none

/-- `fold_binary`. -/
def foldBinary (H : Host) (left : Value) (operator : BinaryOp) (right : Value) :
    Except Fault (Option Value) :=
  if left.isNull || right.isNull then .ok (some .null)
  else
    match operator with
    | .compare operator => .ok (some (truthValue (left.compareSql H.lowercase right operator)))
    | .and => .ok (some (truthValue (left.truth.and right.truth)))
    | .or => .ok (some (truthValue (left.truth.or right.truth)))
    | .divide =>
      if isZeroNumber right then .ok none
      else foldNumeric left right (integerOp H .divide) (floatOp .divide)
    | operator => foldNumeric left right (integerOp H operator) (floatOp operator)

/-- The unary operators of `fold_expr`. -/
def foldUnary (H : Host) (op : UnaryOp) (value : Value) : Except Fault (Option Value) :=
  match op, value with
  | .not, value => .ok (some (truthValue value.truth.negate))
  | .negate, .integer n => (overflowing H (-n.toInt)).map some
  | .negate, .float x => .ok (some (.float x.neg))
  | .plus, .integer n => .ok (some (.integer n))
  | .plus, .float x => .ok (some (.float x))
  | _, _ => .ok none

/-- A binary node over folded operands. -/
def foldBinaryNode (H : Host) (left : Expr) (op : BinaryOp) (right : Expr) :
    Except Fault Expr :=
  match left, right with
  | .literal leftValue, .literal rightValue => do
    match ← foldBinary H leftValue op rightValue with
    | some value => pure (.literal value)
    | none => pure (.binary left op right)
  | _, _ => .ok (.binary left op right)

/-- A unary node over a folded operand. -/
def foldUnaryNode (H : Host) (op : UnaryOp) (expr : Expr) : Except Fault Expr :=
  match expr with
  | .literal value => do
    match ← foldUnary H op value with
    | some value => pure (.literal value)
    | none => pure (.unary op expr)
  | _ => .ok (.unary op expr)

/-- An IS NULL node over a folded operand. -/
def foldIsNullNode (expr : Expr) (negated : Bool) : Expr :=
  match expr with
  | .literal value => .literal (.boolean (if negated then !value.isNull else value.isNull))
  | _ => .isNull expr negated

/-- A LIKE node over folded operands. -/
def foldLikeNode (H : Host) (expr pattern : Expr) (negated : Bool) : Expr :=
  match expr, pattern with
  | .literal value, .literal patternValue => .literal (evalLike H value patternValue negated)
  | _, _ => .like expr pattern negated

mutual

/-- `fold_expr`. -/
def foldExpr (H : Host) (expression : Expr) : Except Fault Expr :=
  match expression with
  | .binary left op right => do
    let left ← foldExpr H left
    let right ← foldExpr H right
    foldBinaryNode H left op right
  | .unary op expr => do
    let expr ← foldExpr H expr
    foldUnaryNode H op expr
  | .isNull expr negated => do
    let expr ← foldExpr H expr
    pure (foldIsNullNode expr negated)
  | .like expr pattern negated => do
    let expr ← foldExpr H expr
    let pattern ← foldExpr H pattern
    pure (foldLikeNode H expr pattern negated)
  | .inList expr list negated => do
    let expr ← foldExpr H expr
    let list ← foldExprs H list
    pure (.inList expr list negated)
  | .inSubquery expr query negated => do
    let expr ← foldExpr H expr
    let query ← optimizeQuery H query
    pure (.inSubquery expr query negated)
  | .exist query negated => do
    let query ← optimizeQuery H query
    pure (.exist query negated)
  | .scalarSubquery query => do
    let query ← optimizeQuery H query
    pure (.scalarSubquery query)
  | .aggregate function expr distinct => do
    let expr ← foldOption H expr
    pure (.aggregate function expr distinct)
  | .column qualifier name => .ok (.column qualifier name)
  | .literal value => .ok (.literal value)
  | .parameter index => .ok (.parameter index)
  | .incoming name => .ok (.incoming name)

/-- `fold_expr` on each expression of a list. -/
def foldExprs (H : Host) (expressions : List Expr) : Except Fault (List Expr) :=
  match expressions with
  | [] => .ok []
  | expr :: exprs => do
    let expr ← foldExpr H expr
    let exprs ← foldExprs H exprs
    pure (expr :: exprs)

/-- `fold_expr` on a clause that may be missing. -/
def foldOption (H : Host) (expression : Option Expr) : Except Fault (Option Expr) :=
  match expression with
  | none => .ok none
  | some expr => do
    let expr ← foldExpr H expr
    pure (some expr)

/-- `fold_expr` on the items of a projection. -/
def foldItems (H : Host) (items : List SelectItem) : Except Fault (List SelectItem) :=
  match items with
  | [] => .ok []
  | .wildcard qualifier :: items => do
    let items ← foldItems H items
    pure (.wildcard qualifier :: items)
  | .expr expr asName :: items => do
    let expr ← foldExpr H expr
    let items ← foldItems H items
    pure (.expr expr asName :: items)

/-- `fold_expr` on the expressions of ORDER BY. -/
def foldOrders (H : Host) (orders : List OrderBy) : Except Fault (List OrderBy) :=
  match orders with
  | [] => .ok []
  | ⟨expr, descending⟩ :: orders => do
    let expr ← foldExpr H expr
    let orders ← foldOrders H orders
    pure (⟨expr, descending⟩ :: orders)

/-- `optimize_query` on the WITH clauses. -/
def optimizeCtes (H : Host) (clauses : List Cte) : Except Fault (List Cte) :=
  match clauses with
  | [] => .ok []
  | ⟨name, columns, query⟩ :: clauses => do
    let query ← optimizeQuery H query
    let clauses ← optimizeCtes H clauses
    pure (⟨name, columns, query⟩ :: clauses)

/-- `optimize_query` in a source. -/
def optimizeSource (H : Host) (source : TableSource) : Except Fault TableSource :=
  match source with
  | .derived query asName => do
    let query ← optimizeQuery H query
    pure (.derived query asName)
  | .table name asName => .ok (.table name asName)

/-- `optimize_query` in a FROM clause. -/
def optimizeFrom (H : Host) (source : Option TableSource) :
    Except Fault (Option TableSource) :=
  match source with
  | none => .ok none
  | some source => do
    let source ← optimizeSource H source
    pure (some source)

/-- `optimize_query` in the joins. -/
def optimizeJoins (H : Host) (joins : List Join) : Except Fault (List Join) :=
  match joins with
  | [] => .ok []
  | ⟨joinType, source, on⟩ :: joins => do
    let source ← optimizeSource H source
    let on ← foldOption H on
    let joins ← optimizeJoins H joins
    pure (⟨joinType, source, on⟩ :: joins)

/-- `Optimizer::optimize_query`. -/
def optimizeQuery (H : Host) (query : Query) : Except Fault Query :=
  match query with
  | ⟨clauses, distinct, projection, source, joins, selection, groupBy, having, orderBy, limit⟩ => do
    let clauses ← optimizeCtes H clauses
    let projection ← foldItems H projection
    let source ← optimizeFrom H source
    let joins ← optimizeJoins H joins
    let selection ← foldOption H selection
    let groupBy ← foldExprs H groupBy
    let having ← foldOption H having
    let orderBy ← foldOrders H orderBy
    pure
      ⟨clauses, distinct, projection, source, joins, selection, groupBy, having, orderBy, limit⟩

end

/-- The assignments of UPDATE and ON DUPLICATE KEY UPDATE. -/
def foldAssignments (H : Host) (assignments : List (String × Expr)) :
    Except Fault (List (String × Expr)) :=
  assignments.mapM (fun assignment => do
    let expr ← foldExpr H assignment.2
    pure (assignment.1, expr))

/-- `optimize_query` and `fold_expr` in the rows of INSERT. -/
def optimizeInsertSource (H : Host) : InsertSource → Except Fault InsertSource
  | .values values => do
    let values ← values.mapM (foldExprs H)
    pure (.values values)
  | .query query => do
    let query ← optimizeQuery H query
    pure (.query query)

/-- `Optimizer::optimize_statement`. -/
def optimizeStatement (H : Host) : Statement → Except Fault Statement
  | .query query => do
    let query ← optimizeQuery H query
    pure (.query query)
  | .insert tableName columns source onDuplicate => do
    let source ← optimizeInsertSource H source
    let onDuplicate ← foldAssignments H onDuplicate
    pure (.insert tableName columns source onDuplicate)
  | .update tableName assignments selection => do
    let assignments ← foldAssignments H assignments
    let selection ← foldOption H selection
    pure (.update tableName assignments selection)
  | .delete tableName selection => do
    let selection ← foldOption H selection
    pure (.delete tableName selection)
  | .explain statement => do
    let statement ← optimizeStatement H statement
    pure (.explain statement)
  | other => .ok other

end Sql
end RustyDB
