import Mathlib
import RustyDB.Lib.Result
import RustyDB.Sql.Table

/-!
# Query execution

The evaluator of `src/sql/executor.rs`: `eval_expr` over a row, and
`execute_query` over the tables of a catalog, which call each other through
subqueries.

* The stages of a query — scanning (`relationFromTable`), joining
  (`joinRelations`), filtering, grouping (`aggregateQuery`), projecting, sorting
  and limiting (`finishQuery`) — are functions of the evaluators of the query's
  expressions, packed in `Evaluators`.
* `evalExpr`, `executeQuery` and the functions between them are one structural
  recursion over the syntax tree that supplies these evaluators.

A subquery is evaluated each time it is reached.  The cache of the source is
cleared at every statement and keyed by the addresses of the query and of its CTE
environment, so that it returns what evaluating again would as long as neither is
freed.  The assignments of ON DUPLICATE KEY UPDATE are, row by row: what they may
get instead is `Process.recycled`.
-/

namespace RustyDB
namespace Sql

/-- A column of a relation, with the name under which its table is visible. -/
structure BoundColumn where
  table : String
  name : String
  deriving DecidableEq, Repr

/-- Rows on their way through a query. -/
structure Relation where
  columns : List BoundColumn
  rows : List Row
  deriving DecidableEq, Repr

/-- The relations that WITH clauses have bound. -/
abbrev Ctes := AList (fun _ : String => Relation)

/-- A relation as a client gets it. -/
def relationToResult (relation : Relation) : ResultSet :=
  { columns := relation.columns.map BoundColumn.name, rows := relation.rows }

/-- An indexing expression `row[index]`. -/
def rowAt (row : Row) (index : Nat) : Except Fault Value :=
  match row[index]? with
  | some value => .ok value
  | none => .error .panic

/-! ## Scalars -/

/-- `resolve_column`: the one position that a name stands for. -/
def resolveColumn (columns : List BoundColumn) (qualifier : Option String) (name : String) :
    Except Fault Nat :=
  let found := columns.zipIdx.filterMap (fun entry =>
    if eqIgnoreAsciiCase entry.1.name name &&
        qualifier.all (fun table => eqIgnoreAsciiCase entry.1.table table) then some entry.2
    else none)
  match found with
  | [index] => .ok index
  | [] =>
    let shown := match qualifier with
      | some value => s!"{value}."
      | none => ""
    .error (.error s!"Unknown column '{shown}{name}'")
  | _ => .error (.error s!"Ambiguous column '{name}'")

/-- The value of a truth value: unknown is NULL. -/
def truthValue : SqlTruth → Value
  | .true => .boolean true
  | .false => .boolean false
  | .unknown => .null

/-- An `i64` operation whose exact result is `n`: it panics or wraps on overflow. -/
def overflowing (H : Host) (n : Int) : Except Fault Value :=
  if H.overflowChecks ∧ ¬(-2 ^ 63 ≤ n ∧ n < 2 ^ 63) then .error .panic
  else .ok (.integer (Int64.ofInt n))

/-- `a / b` on `i64`, with `b` not zero: the one quotient that does not fit
panics in every build. -/
def divideIntegers (a b : Int64) : Except Fault Value :=
  if a = Int64.minValue ∧ b = -1 then .error .panic
  else .ok (.integer (Int64.ofInt (a.toInt.tdiv b.toInt)))

/-- `numeric_binary`: NULL with anything is NULL, and mixed operands are floats. -/
def numericBinary (left right : Value) (integer : Int64 → Int64 → Except Fault Value)
    (float : F64 → F64 → F64) : Except Fault Value :=
  match left, right with
  | .null, _ => .ok .null
  | _, .null => .ok .null
  | .integer a, .integer b => integer a b
  | .integer a, .float b => .ok (.float (float (Value.intToFloat a) b))
  | .float a, .integer b => .ok (.float (float a (Value.intToFloat b)))
  | .float a, .float b => .ok (.float (float a b))
  | _, _ => .error (.error "Arithmetic requires numeric values")

/-- `matches!(value, Value::Integer(0) | Value::Float(0.0))`. -/
def isZeroNumber : Value → Bool
  | .integer n => n == 0
  | .float x => x.isZero
  | _ => false

/-- The integer operation of an arithmetic operator. -/
def integerOp (H : Host) (op : BinaryOp) (a b : Int64) : Except Fault Value :=
  match op with
  | .add => overflowing H (a.toInt + b.toInt)
  | .subtract => overflowing H (a.toInt - b.toInt)
  | .multiply => overflowing H (a.toInt * b.toInt)
  | _ => divideIntegers a b

/-- The float operation of an arithmetic operator. -/
def floatOp (op : BinaryOp) : F64 → F64 → F64 :=
  match op with
  | .add => F64.add
  | .subtract => F64.sub
  | .multiply => F64.mul
  | _ => F64.div

/-- A binary operator other than AND and OR, on the values of its operands. -/
def evalBinary (H : Host) (op : BinaryOp) (left right : Value) : Except Fault Value :=
  match op with
  | .compare operator => .ok (truthValue (left.compareSql H.lowercase right operator))
  | .divide =>
    if isZeroNumber right then .error (.error "Division by zero")
    else numericBinary left right (integerOp H .divide) (floatOp .divide)
  | op => numericBinary left right (integerOp H op) (floatOp op)

/-- A unary operator on the value of its operand. -/
def evalUnary (H : Host) (op : UnaryOp) (value : Value) : Except Fault Value :=
  match op, value with
  | .not, value => .ok (truthValue value.truth.negate)
  | _, .null => .ok .null
  | .negate, .integer n => overflowing H (-n.toInt)
  | .negate, .float x => .ok (.float x.neg)
  | .plus, .integer n => .ok (.integer n)
  | .plus, .float x => .ok (.float x)
  | _, _ => .error (.error "Unary operator requires a numeric/boolean value")

/-- LIKE on the values of its operands. -/
def evalLike (H : Host) (value pattern : Value) (negated : Bool) : Value :=
  let truth := value.compareSql H.lowercase pattern .like
  truthValue (if negated then truth.negate else truth)

/-- The loop of `in_values` after the NULL check. -/
def inValuesLoop (H : Host) (value : Value) (negated unknown : Bool) : List Value → SqlTruth
  | [] =>
    let result := if unknown then SqlTruth.unknown else .false
    if negated then result.negate else result
  | candidate :: values =>
    match value.compareSql H.lowercase candidate .equal with
    | .true => if negated then .false else .true
    | .unknown => inValuesLoop H value negated true values
    | .false => inValuesLoop H value negated unknown values

/-- `in_values`: NULL is in no list. -/
def inValues (H : Host) (value : Value) (values : List Value) (negated : Bool) : SqlTruth :=
  if value.isNull then .unknown else inValuesLoop H value negated false values

/-! ## Keys of values -/

/-- `{:016x}`. -/
def hex16 (bits : UInt64) : String :=
  let digits := Nat.toDigits 16 bits.toNat
  String.ofList (List.replicate (16 - digits.length) '0' ++ digits)

/-- `value_key`: the text under which DISTINCT and GROUP BY file a value. -/
def valueKey : Value → String
  | .null => "n"
  | .boolean b => if b then "b:true" else "b:false"
  | .integer n => s!"i:{n.toInt}"
  | .float x => "f:" ++ hex16 x.bits
  | .text s => s!"s:{s.utf8ByteSize}:{s}"

/-- `row_key`. -/
def rowKey (row : Row) : String := String.intercalate "\u001f" (row.map valueKey)

/-- `hash_join_key`: numbers are filed under the bits of their float. -/
def hashJoinKey : Value → String
  | .integer n => "number:" ++ hex16 (Value.intToFloat n).bits
  | .float x => "number:" ++ hex16 x.bits
  | value => valueKey value

/-- Keep the first item of every key. -/
def retainFirst {α : Type} (key : α → String) (seen : List String) : List α → List α
  | [] => []
  | item :: items =>
    if key item ∈ seen then retainFirst key seen items
    else item :: retainFirst key (key item :: seen) items

/-- `IN (subquery)` against the first column of the subquery's rows. -/
def inSubqueryTruth (value : Value) (relation : Relation) : SqlTruth :=
  let firsts := relation.rows.filterMap List.head?
  if value.isNull then .unknown
  else if (firsts.filter (fun v => !v.isNull)).any (fun v => hashJoinKey v == hashJoinKey value)
  then .true
  else if firsts.any Value.isNull then .unknown
  else .false

/-- The value of a scalar subquery: NULL without a row. -/
def scalarSubqueryValue (relation : Relation) : Except Fault Value :=
  if relation.columns.length ≠ 1 then .error (.error "Scalar subquery must return one column")
  else
    match relation.rows with
    | [] => .ok .null
    | [row] => rowAt row 0
    | _ => .error (.error "Scalar subquery returned more than one row")

/-! ## Aggregates -/

/-- The running sum of `SUM` and `AVG`, and whether every value was an integer. -/
def sumValues (sum : F64) (allInteger : Bool) : List Value → Except Fault (F64 × Bool)
  | [] => .ok (sum, allInteger)
  | .integer n :: values => sumValues (sum.add (Value.intToFloat n)) allInteger values
  | .float x :: values => sumValues (sum.add x) false values
  | _ :: _ => .error (.error "SUM/AVG requires numeric values")

/-- `Iterator::min_by`: the first of the least values. -/
def minBy (first : Value) (values : List Value) : Value :=
  values.foldl (fun x y => if (x.partialCmp y).getD .eq = .gt then y else x) first

/-- `Iterator::max_by`: the last of the greatest values. -/
def maxBy (first : Value) (values : List Value) : Value :=
  values.foldl (fun x y => if (x.partialCmp y).getD .eq = .gt then x else y) first

/-- `eval_aggregate` on the values of the aggregated expression. -/
def finishAggregate (function : AggregateFunction) (distinct : Bool) (values : List Value) :
    Except Fault Value :=
  let values := if distinct then retainFirst valueKey [] values else values
  let present := values.filter (fun value => !value.isNull)
  if function = .count then .ok (.integer (Int64.ofNat present.length))
  else
    match present with
    | [] => .ok .null
    | first :: rest =>
      match function with
      | .min => .ok (minBy first rest)
      | .max => .ok (maxBy first rest)
      | function => do
        let (sum, allInteger) ← sumValues ⟨0⟩ true present
        if function = .avg then pure (.float (sum.div (F64.ofInt present.length)))
        else if allInteger then pure (.integer sum.toInt64)
        else pure (.float sum)

mutual

/-- `expr_has_aggregate`. -/
def exprHasAggregate : Expr → Bool
  | .aggregate _ _ _ => true
  | .binary left _ right => exprHasAggregate left || exprHasAggregate right
  | .unary _ expr => exprHasAggregate expr
  | .isNull expr _ => exprHasAggregate expr
  | .like expr _ _ => exprHasAggregate expr
  | .inList expr list _ => exprHasAggregate expr || anyHasAggregate list
  | _ => false

/-- An expression of the list has an aggregate. -/
def anyHasAggregate : List Expr → Bool
  | [] => false
  | expr :: exprs => exprHasAggregate expr || anyHasAggregate exprs

end

/-- `select_item_has_aggregate`. -/
def selectItemHasAggregate : SelectItem → Bool
  | .expr expr _ => exprHasAggregate expr
  | .wildcard _ => false

/-- The query goes through `aggregate_query`. -/
def Query.isAggregate (query : Query) : Bool :=
  !query.groupBy.isEmpty || query.projection.any selectItemHasAggregate ||
    query.having.any exprHasAggregate

mutual

/-- `expression_resolves`: every name of the expression is a column; a subquery or an
aggregate never resolves. -/
def expressionResolves (columns : List BoundColumn) : Expr → Bool
  | .column qualifier name => (resolveColumn columns qualifier name).isOk
  | .literal _ => true
  | .parameter _ => true
  | .incoming _ => true
  | .binary left _ right => expressionResolves columns left && expressionResolves columns right
  | .unary _ expr => expressionResolves columns expr
  | .isNull expr _ => expressionResolves columns expr
  | .like expr _ _ => expressionResolves columns expr
  | .inList expr list _ => expressionResolves columns expr && allResolve columns list
  | .aggregate _ _ _ => false
  | .inSubquery _ _ _ => false
  | .exist _ _ => false
  | .scalarSubquery _ => false

/-- Every expression of the list resolves. -/
def allResolve (columns : List BoundColumn) : List Expr → Bool
  | [] => true
  | expr :: exprs => expressionResolves columns expr && allResolve columns exprs

end

/-! ## Scanning and joining -/

/-- The columns of a table in a FROM clause. -/
def boundColumns (visibleName : String) (schema : TableSchema) : List BoundColumn :=
  schema.columns.map (fun column => { table := visibleName, name := column.name })

/-- `relation_from_table`: the rows that the chosen index leaves. -/
def relationFromTable (H : Host) (table : Table) (visibleName : String)
    (selection : Option Expr) : Relation :=
  let candidates := table.candidateRowIds H selection
  { columns := boundColumns visibleName table.schema
    rows := table.rows.zipIdx.filterMap (fun entry =>
      if table.isCandidate candidates entry.2 then some entry.1 else none) }

/-- Every column gets a new table name. -/
def Relation.renameTable (relation : Relation) (name : String) : Relation :=
  { relation with columns := relation.columns.map (fun column => { column with table := name }) }

/-- The columns of a CTE, under its column list when there is one. -/
def cteRelation (name : String) (columns : List String) (relation : Relation) :
    Except Fault Relation :=
  if columns.isEmpty then .ok (relation.renameTable name)
  else if columns.length ≠ relation.columns.length then
    .error (.error s!"CTE '{name}' column count does not match")
  else
    let renamed := relation.columns.zipWith (fun column name => { column with name }) columns
    .ok ({ relation with columns := renamed }.renameTable name)

/-- `hash_join_indices`: the two columns of an equality between the sides of a join. -/
def hashJoinIndices (expression : Expr) (left right : List BoundColumn) : Option (Nat × Nat) :=
  match expression with
  | .binary (.column leftQualifier leftName) (.compare .equal)
      (.column rightQualifier rightName) =>
    match resolveColumn left leftQualifier leftName,
      resolveColumn right rightQualifier rightName with
    | .ok leftIndex, .ok rightIndex => some (leftIndex, rightIndex)
    | _, _ =>
      match resolveColumn left rightQualifier rightName,
        resolveColumn right leftQualifier leftName with
      | .ok leftIndex, .ok rightIndex => some (leftIndex, rightIndex)
      | _, _ => none
  | _ => none

/-- The output of either join loop, from which pairs of rows match: for each left
row its matches or, in a LEFT join, the row extended by NULLs; in a RIGHT join,
then, the right rows no left row matched. -/
def joinRows (joinType : JoinType) (leftWidth rightWidth : Nat) (left right : List Row)
    (matched : List (List Bool)) : List Row :=
  let joined := (left.zip matched).flatMap (fun entry =>
    let found := (right.zip entry.2).filterMap (fun candidate =>
      if candidate.2 then some (entry.1 ++ candidate.1) else none)
    if found.isEmpty && joinType == .left then
      [entry.1 ++ List.replicate rightWidth Value.null]
    else found)
  let unmatched :=
    if joinType == .right then
      right.zipIdx.filterMap (fun entry =>
        if matched.any (fun row => row.getD entry.2 false) then none
        else some (List.replicate leftWidth Value.null ++ entry.1))
    else []
  joined ++ unmatched

/-- Which right rows the nested loop matches with a left row. -/
def nestedLoopMatches (test : Row → Except Fault Bool) (right : List Row) (leftRow : Row) :
    Except Fault (List Bool) :=
  right.mapM (fun rightRow => test (leftRow ++ rightRow))

/-- The key a right row is hashed under; a NULL is not entered. -/
def hashEntry (rightIndex : Nat) (row : Row) : Except Fault (Option String × Value) := do
  let value ← rowAt row rightIndex
  pure (if value.isNull then none else some (hashJoinKey value), value)

/-- Which right rows the hash join matches with a left row. -/
def hashMatches (H : Host) (leftIndex : Nat) (entries : List (Option String × Value))
    (leftRow : Row) : Except Fault (List Bool) := do
  let value ← rowAt leftRow leftIndex
  pure (entries.map (fun entry =>
    !value.isNull && entry.1 == some (hashJoinKey value) &&
      -- Hash keys normalize numeric values; the SQL equality is checked again.
      value.compareSql H.lowercase entry.2 .equal == .true))

/-- `hash_join`. -/
def hashJoin (H : Host) (left right : Relation) (joinType : JoinType)
    (leftIndex rightIndex : Nat) : Except Fault Relation := do
  let entries ← right.rows.mapM (hashEntry rightIndex)
  let matched ← left.rows.mapM (hashMatches H leftIndex entries)
  pure { columns := left.columns ++ right.columns
         rows := joinRows joinType left.columns.length right.columns.length left.rows right.rows
           matched }

/-- `join_relations`; `test` evaluates the ON condition, given in `on`. -/
def joinRelations (H : Host) (left right : Relation) (joinType : JoinType) (on : Option Expr)
    (test : List BoundColumn → Row → Except Fault Bool) : Except Fault Relation :=
  match on.bind (fun expression => hashJoinIndices expression left.columns right.columns) with
  | some (leftIndex, rightIndex) => hashJoin H left right joinType leftIndex rightIndex
  | none => do
    let columns := left.columns ++ right.columns
    let matched ← left.rows.mapM (nestedLoopMatches (test columns) right.rows)
    pure { columns
           rows := joinRows joinType left.columns.length right.columns.length left.rows right.rows
             matched }

/-! ## The stages after the joins -/

/-- The evaluators of the expressions of one query, at a fixed catalog and CTE
environment. -/
structure Evaluators where
  selection : Option (List BoundColumn → Row → Except Fault Value)
  groupBy : List BoundColumn → Row → Except Fault (List Value)
  having : Option (List BoundColumn → Row → List Row → Except Fault Value)
  project : List BoundColumn → Row → Option (List Row) → Except Fault Row
  /-- The ORDER BY values of a row, each with its `descending` flag. -/
  orderBy : List BoundColumn → Row → List (Except Fault Value × Bool)

/-- The rows on which a test is true. -/
def filterRows (test : Row → Except Fault Value) : List Row → Except Fault (List Row)
  | [] => .ok []
  | row :: rows => do
    let value ← test row
    let rest ← filterRows test rows
    pure (if value.truth = .true then row :: rest else rest)

/-- WHERE. -/
def applySelection (selection : Option (List BoundColumn → Row → Except Fault Value))
    (relation : Relation) : Except Fault Relation :=
  match selection with
  | none => .ok relation
  | some test => do
    let rows ← filterRows (test relation.columns) relation.rows
    pure { relation with rows }

/-- `expression_name`: the output name of an expression without an alias. -/
def expressionName : Expr → String
  | .column _ name => name
  | .aggregate function _ _ =>
    match function with
    | .count => "count"
    | .sum => "sum"
    | .avg => "avg"
    | .max => "max"
    | .min => "min"
  | .scalarSubquery _ => "subquery"
  | _ => "expression"

/-- The source columns a wildcard covers. -/
def wildcardCovers (qualifier : Option String) (column : BoundColumn) : Bool :=
  qualifier.all (fun name => eqIgnoreAsciiCase column.table name)

/-- The output columns of one projection item. -/
def itemColumns (source : List BoundColumn) : SelectItem → Except Fault (List BoundColumn)
  | .wildcard qualifier =>
    let covered := source.filter (wildcardCovers qualifier)
    if covered.isEmpty then
      let shown := qualifier.getD "*"
      .error (.error s!"Unknown wildcard qualifier '{shown}'")
    else .ok covered
  | .expr expr asName =>
    let table := match expr, asName with
      | .column (some qualifier) _, none => qualifier
      | _, _ => ""
    .ok [{ table, name := asName.getD (expressionName expr) }]

/-- The column that an expression is output as. -/
def outputColumn (expr : Expr) (asName : Option String) : BoundColumn where
  table := match expr, asName with
    | .column (some qualifier) _, none => qualifier
    | _, _ => ""
  name := asName.getD (expressionName expr)

/-- `projection_columns`. -/
def projectionColumns (projection : List SelectItem) (source : List BoundColumn) :
    Except Fault (List BoundColumn) := do
  let columns ← projection.mapM (itemColumns source)
  pure columns.flatten

theorem projectionColumns_cons (item : SelectItem) (items : List SelectItem)
    (source : List BoundColumn) :
    projectionColumns (item :: items) source =
      (do
        let columns ← itemColumns source item
        let rest ← projectionColumns items source
        pure (columns ++ rest)) := by
  simp only [projectionColumns, List.mapM_cons]
  cases itemColumns source item with
  | error fault => rfl
  | ok columns =>
    simp only [Result.ok_bind]
    cases items.mapM (itemColumns source) <;> rfl

/-- The values a wildcard copies from a row. -/
def wildcardValues (qualifier : Option String) (source : List BoundColumn) (row : Row) :
    Except Fault Row :=
  (source.zipIdx.filter (fun entry => wildcardCovers qualifier entry.1)).mapM
    (fun entry => rowAt row entry.2)

/-- File a row under its group; the groups are a B-tree map, in key order. -/
def insertGroup (key : String) (row : Row) :
    List (String × List Row) → List (String × List Row)
  | [] => [(key, [row])]
  | (k, rows) :: groups =>
    if key = k then (k, rows ++ [row]) :: groups
    else if key < k then (key, [row]) :: (k, rows) :: groups
    else (k, rows) :: insertGroup key row groups

/-- The rows by the key of their GROUP BY values. -/
def groupRows (groupKey : Row → Except Fault (List Value)) (groups : List (String × List Row)) :
    List Row → Except Fault (List (String × List Row))
  | [] => .ok groups
  | row :: rows => do
    let values ← groupKey row
    groupRows groupKey (insertGroup (rowKey values) row groups) rows

/-- HAVING accepts a group. -/
def acceptsGroup (E : Evaluators) (columns : List BoundColumn) (representative : Row)
    (group : List Row) : Except Fault Bool :=
  match E.having with
  | none => .ok true
  | some having => do
    let value ← having columns representative group
    pure (decide (value.truth = .true))

/-- The output of one group, `none` when HAVING rejects it. -/
def projectGroup (E : Evaluators) (columns : List BoundColumn) (group : List Row) :
    Except Fault (Option Row) := do
  let representative := group.headD (List.replicate columns.length Value.null)
  let accepted ← acceptsGroup E columns representative group
  if accepted then
    let row ← E.project columns representative (some group)
    pure (some row)
  else pure none

/-- `aggregate_query`. -/
def aggregateQuery (query : Query) (E : Evaluators) (source : Relation) :
    Except Fault Relation := do
  let groups ← groupRows (E.groupBy source.columns) [] source.rows
  let groups := if groups.isEmpty && query.groupBy.isEmpty then [("", [])] else groups
  let columns ← projectionColumns query.projection source.columns
  let rows ← groups.mapM (fun group => projectGroup E source.columns group.2)
  pure { columns, rows := rows.filterMap id }

/-- `project_query`. -/
def projectQuery (query : Query) (E : Evaluators) (source : Relation) :
    Except Fault Relation := do
  let columns ← projectionColumns query.projection source.columns
  let rows ← source.rows.mapM (fun row => E.project source.columns row none)
  pure { columns, rows }

/-- The order of two ORDER BY values: NULL first, incomparable values equal. -/
def compareOrderValues (left right : Value) (descending : Bool) : Ordering :=
  let ordering :=
    match left, right with
    | .null, .null => .eq
    | .null, _ => .lt
    | _, .null => .gt
    | left, right => (left.partialCmp right).getD .eq
  if descending then ordering.swap else ordering

/-- `compare_order_rows(..).unwrap_or(Equal)`: an error on the way makes the rows
equal, a panic stays one. -/
def compareOrderRows :
    List (Except Fault Value × Bool) → List (Except Fault Value × Bool) → Except Fault Ordering
  | (left, descending) :: lefts, (right, _) :: rights =>
    match left with
    | .error .panic => .error .panic
    | .error (.error _) => .ok .eq
    | .ok leftValue =>
      match right with
      | .error .panic => .error .panic
      | .error (.error _) => .ok .eq
      | .ok rightValue =>
        match compareOrderValues leftValue rightValue descending with
        | .eq => compareOrderRows lefts rights
        | ordering => .ok ordering
  | _, _ => .ok .eq

/-- `compare_order_rows` on two rows of a relation. -/
def orderCompare (E : Evaluators) (columns : List BoundColumn) : RowCompare :=
  fun left right => compareOrderRows (E.orderBy columns left) (E.orderBy columns right)

/-- Sorting after the projection: with a LIMIT, the first rows are selected
before they are sorted. -/
def orderProjected (H : Host) (limit : Option Nat) (cmp : RowCompare) (rows : List Row) :
    Except Fault (List Row) :=
  match limit with
  | none => H.sortBy cmp rows
  | some limit =>
    if limit = 0 then .ok []
    else if limit < rows.length then do
      let selected ← H.selectNthUnstableBy limit cmp rows
      H.sortBy cmp (selected.take limit)
    else H.sortBy cmp rows

/-- The rows are sorted before they are projected: every ORDER BY expression
resolves in the source columns. -/
def Query.ordersSource (query : Query) (columns : List BoundColumn) : Bool :=
  !query.isAggregate && !query.orderBy.isEmpty &&
    query.orderBy.all (fun order => expressionResolves columns order.expr)

/-- ORDER BY on the source columns. -/
def orderSource (H : Host) (query : Query) (E : Evaluators) (relation : Relation) :
    Except Fault Relation :=
  if query.ordersSource relation.columns then do
    let rows ← H.sortBy (orderCompare E relation.columns) relation.rows
    pure { relation with rows }
  else .ok relation

/-- Grouping or projection. -/
def outputRelation (query : Query) (E : Evaluators) (relation : Relation) :
    Except Fault Relation :=
  if query.isAggregate then aggregateQuery query E relation else projectQuery query E relation

/-- DISTINCT. -/
def distinctRows (query : Query) (relation : Relation) : Relation :=
  if query.distinct then { relation with rows := retainFirst rowKey [] relation.rows }
  else relation

/-- ORDER BY on the output columns, when the source was not sorted. -/
def orderOutput (H : Host) (query : Query) (E : Evaluators) (sorted : Bool)
    (relation : Relation) : Except Fault Relation :=
  if !query.orderBy.isEmpty && !sorted then do
    let rows ← orderProjected H query.limit (orderCompare E relation.columns) relation.rows
    pure { relation with rows }
  else .ok relation

/-- LIMIT. -/
def limitRows (query : Query) (relation : Relation) : Relation :=
  match query.limit with
  | some limit => { relation with rows := relation.rows.take limit }
  | none => relation

/-- Everything after the joins: WHERE, ORDER BY on source columns, grouping or
projection, DISTINCT, ORDER BY on output columns, LIMIT. -/
def finishQuery (H : Host) (query : Query) (E : Evaluators) (relation : Relation) :
    Except Fault Relation := do
  let filtered ← applySelection E.selection relation
  let ordered ← orderSource H query E filtered
  let projected ← outputRelation query E ordered
  let output ← orderOutput H query E (query.ordersSource filtered.columns)
    (distinctRows query projected)
  pure (limitRows query output)

/-! ## The evaluator -/

/-- `eval_order_value`: an aggregate is the output column of its name, any other
expression has the value it evaluates to. -/
def orderValue (expression : Expr) (columns : List BoundColumn) (row : Row)
    (evaluated : Except Fault Value) : Except Fault Value :=
  match expression with
  | .aggregate _ _ _ => do
    let name := expressionName expression
    let index ← resolveColumn columns none name
    match row[index]? with
    | some value => .ok value
    | none => .error (.error s!"ORDER BY expression '{name}' is unavailable")
  | _ => evaluated

mutual

/-- `eval_expr`. -/
def evalExpr (H : Host) (tables : Tables) (expression : Expr) (columns : List BoundColumn)
    (row : Row) (group : Option (List Row)) (ctes : Ctes) : Except Fault Value :=
  match expression with
  | .literal value => .ok value
  | .parameter index => .error (.error s!"Unbound prepared-statement parameter {index}")
  | .incoming column =>
    .error (.error s!"Incoming value '{column}' is only valid in ON DUPLICATE KEY UPDATE")
  | .column qualifier name => do
    let index ← resolveColumn columns qualifier name
    match row[index]? with
    | some value => .ok value
    | none => .error (.error s!"Column '{name}' is unavailable")
  | .unary op expr => do
    let value ← evalExpr H tables expr columns row group ctes
    evalUnary H op value
  | .binary left op right => do
    let leftValue ← evalExpr H tables left columns row group ctes
    match op with
    | .and =>
      if leftValue.truth = .false then pure (.boolean false)
      else do
        let rightValue ← evalExpr H tables right columns row group ctes
        pure (truthValue (leftValue.truth.and rightValue.truth))
    | .or =>
      if leftValue.truth = .true then pure (.boolean true)
      else do
        let rightValue ← evalExpr H tables right columns row group ctes
        pure (truthValue (leftValue.truth.or rightValue.truth))
    | op => do
      let rightValue ← evalExpr H tables right columns row group ctes
      evalBinary H op leftValue rightValue
  | .isNull expr negated => do
    let value ← evalExpr H tables expr columns row group ctes
    pure (.boolean (if negated then !value.isNull else value.isNull))
  | .like expr pattern negated => do
    let value ← evalExpr H tables expr columns row group ctes
    let patternValue ← evalExpr H tables pattern columns row group ctes
    pure (evalLike H value patternValue negated)
  | .inList expr list negated => do
    let value ← evalExpr H tables expr columns row group ctes
    let values ← evalExprs H tables list columns row group ctes
    pure (truthValue (inValues H value values negated))
  | .inSubquery expr query negated => do
    let value ← evalExpr H tables expr columns row group ctes
    let relation ← executeQuery H tables query ctes
    if relation.columns.length ≠ 1 then .error (.error "IN subquery must return one column")
    else
      let truth := inSubqueryTruth value relation
      pure (truthValue (if negated then truth.negate else truth))
  | .exist query negated => do
    let relation ← executeQuery H tables query ctes
    let exist := !relation.rows.isEmpty
    pure (.boolean (if negated then !exist else exist))
  | .scalarSubquery query => do
    let relation ← executeQuery H tables query ctes
    scalarSubqueryValue relation
  | .aggregate function none distinct =>
    match group with
    | none => .error (.error "Aggregate used outside grouping")
    | some group =>
      finishAggregate function distinct (List.replicate group.length (.integer 1))
  | .aggregate function (some expr) distinct =>
    match group with
    | none => .error (.error "Aggregate used outside grouping")
    | some group => do
      let values ← group.mapM (fun row => evalExpr H tables expr columns row none ctes)
      finishAggregate function distinct values

/-- Expressions in order, up to the first fault. -/
def evalExprs (H : Host) (tables : Tables) (expressions : List Expr)
    (columns : List BoundColumn) (row : Row) (group : Option (List Row)) (ctes : Ctes) :
    Except Fault (List Value) :=
  match expressions with
  | [] => .ok []
  | expr :: exprs => do
    let value ← evalExpr H tables expr columns row group ctes
    let values ← evalExprs H tables exprs columns row group ctes
    pure (value :: values)

/-- `project_row`. -/
def projectRow (H : Host) (tables : Tables) (projection : List SelectItem)
    (columns : List BoundColumn) (row : Row) (group : Option (List Row)) (ctes : Ctes) :
    Except Fault Row :=
  match projection with
  | [] => .ok []
  | .wildcard qualifier :: items => do
    let values ← wildcardValues qualifier columns row
    let rest ← projectRow H tables items columns row group ctes
    pure (values ++ rest)
  | .expr expr _ :: items => do
    let value ← evalExpr H tables expr columns row group ctes
    let rest ← projectRow H tables items columns row group ctes
    pure (value :: rest)

/-- The value of every ORDER BY expression, with its direction. -/
def evalOrderValues (H : Host) (tables : Tables) (orders : List OrderBy)
    (columns : List BoundColumn) (row : Row) (ctes : Ctes) : List (Except Fault Value × Bool) :=
  match orders with
  | [] => []
  | ⟨expr, descending⟩ :: orders =>
    (orderValue expr columns row (evalExpr H tables expr columns row none ctes), descending) ::
      evalOrderValues H tables orders columns row ctes

/-- The WITH clauses, each visible to the later ones. -/
def executeCtes (H : Host) (tables : Tables) (clauses : List Cte) (ctes : Ctes) :
    Except Fault Ctes :=
  match clauses with
  | [] => .ok ctes
  | ⟨name, columns, query⟩ :: clauses => do
    let relation ← executeQuery H tables query ctes
    let relation ← cteRelation name columns relation
    executeCtes H tables clauses (ctes.insert name relation)

/-- `source_relation`. -/
def sourceRelation (H : Host) (tables : Tables) (source : TableSource) (ctes : Ctes)
    (selection : Option Expr) : Except Fault Relation :=
  match source with
  | .table name asName =>
    let visibleName := asName.getD name
    match ctes.lookup name with
    | some relation => .ok (relation.renameTable visibleName)
    | none =>
      match tables.lookup name with
      | some table => .ok (relationFromTable H table visibleName selection)
      | none => .error (.error s!"Table '{name}' does not exist")
  | .derived query asName => do
    let relation ← executeQuery H tables query ctes
    pure (relation.renameTable asName)

/-- The joins in order, each against the relation so far. -/
def executeJoins (H : Host) (tables : Tables) (joins : List Join) (relation : Relation)
    (ctes : Ctes) : Except Fault Relation :=
  match joins with
  | [] => .ok relation
  | ⟨joinType, source, none⟩ :: joins => do
    let right ← sourceRelation H tables source ctes none
    let relation ← joinRelations H relation right joinType none (fun _ _ => .ok true)
    executeJoins H tables joins relation ctes
  | ⟨joinType, source, some on⟩ :: joins => do
    let right ← sourceRelation H tables source ctes none
    let relation ← joinRelations H relation right joinType (some on) (fun columns row => do
      let value ← evalExpr H tables on columns row none ctes
      pure (decide (value.truth = .true)))
    executeJoins H tables joins relation ctes

/-- The relation of the FROM clause, restricted by what `selection` lets an index skip. -/
def fromRelation (H : Host) (tables : Tables) (source : Option TableSource) (ctes : Ctes)
    (selection : Option Expr) : Except Fault Relation :=
  match source with
  | some source => sourceRelation H tables source ctes selection
  | none => .ok { columns := [], rows := [[]] }

/-- The evaluator of a WHERE clause. -/
def whereEvaluator (H : Host) (tables : Tables) (selection : Option Expr) (ctes : Ctes) :
    Option (List BoundColumn → Row → Except Fault Value) :=
  match selection with
  | none => none
  | some expr => some (fun columns row => evalExpr H tables expr columns row none ctes)

/-- The evaluator of a HAVING clause. -/
def havingEvaluator (H : Host) (tables : Tables) (having : Option Expr) (ctes : Ctes) :
    Option (List BoundColumn → Row → List Row → Except Fault Value) :=
  match having with
  | none => none
  | some expr =>
    some (fun columns row group => evalExpr H tables expr columns row (some group) ctes)

/-- `execute_query`. -/
def executeQuery (H : Host) (tables : Tables) (query : Query) (inherited : Ctes) :
    Except Fault Relation :=
  match query with
  | ⟨clauses, distinct, projection, source, joins, selection, groupBy, having, orderBy, limit⟩ => do
    let ctes ← executeCtes H tables clauses inherited
    let relation ← fromRelation H tables source ctes selection
    let relation ← executeJoins H tables joins relation ctes
    finishQuery H
      ⟨clauses, distinct, projection, source, joins, selection, groupBy, having, orderBy, limit⟩
      { selection := whereEvaluator H tables selection ctes
        groupBy := fun columns row => evalExprs H tables groupBy columns row none ctes
        having := havingEvaluator H tables having ctes
        project := fun columns row group => projectRow H tables projection columns row group ctes
        orderBy := fun columns row => evalOrderValues H tables orderBy columns row ctes }
      relation

end

section Equations

variable (H : Host) (tables : Tables) (left right : Expr) (columns : List BoundColumn) (row : Row)
  (group : Option (List Row)) (ctes : Ctes)

theorem evalExpr_and : evalExpr H tables (.binary left .and right) columns row group ctes =
    (do
      let leftValue ← evalExpr H tables left columns row group ctes
      if leftValue.truth = .false then pure (.boolean false)
      else do
        let rightValue ← evalExpr H tables right columns row group ctes
        pure (truthValue (leftValue.truth.and rightValue.truth))) := by
  rw [evalExpr]

theorem evalExpr_or : evalExpr H tables (.binary left .or right) columns row group ctes =
    (do
      let leftValue ← evalExpr H tables left columns row group ctes
      if leftValue.truth = .true then pure (.boolean true)
      else do
        let rightValue ← evalExpr H tables right columns row group ctes
        pure (truthValue (leftValue.truth.or rightValue.truth))) := by
  rw [evalExpr]

theorem evalExpr_binary {op : BinaryOp} (hand : op ≠ .and) (hor : op ≠ .or) :
    evalExpr H tables (.binary left op right) columns row group ctes =
    (do
      let leftValue ← evalExpr H tables left columns row group ctes
      let rightValue ← evalExpr H tables right columns row group ctes
      evalBinary H op leftValue rightValue) := by
  rw [evalExpr]
  cases op with
  | and => exact absurd rfl hand
  | or => exact absurd rfl hor
  | _ => rfl

theorem evalExpr_compare (op : ComparisonOp) :
    evalExpr H tables (.binary left (.compare op) right) columns row group ctes =
    (do
      let leftValue ← evalExpr H tables left columns row group ctes
      let rightValue ← evalExpr H tables right columns row group ctes
      pure (truthValue (leftValue.compareSql H.lowercase rightValue op))) := by
  rw [evalExpr_binary _ _ _ _ _ _ _ _ (by simp) (by simp)]
  rfl

end Equations

/-- The evaluators `executeQuery` hands to the stages of a query. -/
def Query.evaluators (H : Host) (tables : Tables) (query : Query) (ctes : Ctes) : Evaluators :=
  { selection := whereEvaluator H tables query.selection ctes
    groupBy := fun columns row => evalExprs H tables query.groupBy columns row none ctes
    having := havingEvaluator H tables query.having ctes
    project := fun columns row group =>
      projectRow H tables query.projection columns row group ctes
    orderBy := fun columns row => evalOrderValues H tables query.orderBy columns row ctes }

/-- `execute_query`, with the expression handed to the FROM scan made explicit. -/
def executeQueryScanning (H : Host) (tables : Tables) (query : Query) (inherited : Ctes)
    (scanned : Option Expr) : Except Fault Relation := do
  let ctes ← executeCtes H tables query.ctes inherited
  let relation ← fromRelation H tables query.source ctes scanned
  let relation ← executeJoins H tables query.joins relation ctes
  finishQuery H query (query.evaluators H tables ctes) relation

/-- The source hands the WHERE clause to the FROM scan. -/
theorem executeQuery_eq (H : Host) (tables : Tables) (query : Query) (inherited : Ctes) :
    executeQuery H tables query inherited =
      executeQueryScanning H tables query inherited query.selection := by
  cases query
  rw [executeQuery, executeQueryScanning]
  rfl

/-- An expression without a catalog, as INSERT evaluates its values. -/
def evalConstant (H : Host) (expression : Expr) : Except Fault Value :=
  evalExpr H ∅ expression [] [] none ∅

end Sql
end RustyDB
