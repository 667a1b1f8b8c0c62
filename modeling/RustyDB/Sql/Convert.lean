import Mathlib
import RustyDB.Sql.Parser

/-!
# Conversion of queries

The model of `convert_query` and of the arms of `convert_statement` for UPDATE and DELETE of
`src/sql/parser.rs`, with the conversion of everything a query consists of.

* `Ast.Query`, `Ast.Update`, `Ast.Delete` — the nodes of `sqlparser`, with the parts that are
  converted, checked or passed over here.
* `convertExpr`, `convertQuery`, `convertClause` — the conversion.
* `clauseParser` — a parser whose statements have these clauses.
-/

namespace RustyDB
namespace Sql

open Text

/-! ## The nodes of the grammar -/

namespace Ast

/-- `sql::BinaryOperator`. -/
inductive BinaryOperator where
  | plus | minus | multiply | divide
  | eq | notEq | lt | ltEq | gt | gtEq
  | and | or
  /-- Any other operator, as it is displayed. -/
  | other (display : String)

/-- `sql::UnaryOperator`; an operator that the engine lacks, as it is displayed. -/
inductive UnaryOperator where
  | not | minus | plus
  | other (display : String)

/-- `sql::Value`. -/
inductive Literal where
  | number (text : String)
  | singleQuotedString (text : String)
  | doubleQuotedString (text : String)
  | nationalStringLiteral (text : String)
  | escapedStringLiteral (text : String)
  | boolean (b : Bool)
  | null
  | placeholder
  | other (display : String)

/-- The parts of a dotted name. -/
abbrev ObjectName := List String

mutual

/-- An expression of the parser. -/
inductive Expr where
  | identifier (name : String)
  | compoundIdentifier (names : List String)
  | value (value : Literal)
  | nested (expr : Expr)
  | binaryOp (left : Expr) (op : BinaryOperator) (right : Expr)
  | unaryOp (op : UnaryOperator) (expr : Expr)
  | isNull (expr : Expr)
  | isNotNull (expr : Expr)
  | like (negated any : Bool) (expr pattern : Expr) (escapeChar : Option String)
  | inList (expr : Expr) (list : List Expr) (negated : Bool)
  | inSubquery (expr : Expr) (subquery : Query) (negated : Bool)
  | exist (subquery : Query) (negated : Bool)
  | subquery (query : Query)
  | function (name : ObjectName) (window : Bool) (args : FunctionArguments)
  /-- Any other expression. -/
  | other

/-- The arguments of a function, and whether they are DISTINCT. -/
inductive FunctionArguments where
  | list (args : List FunctionArg) (distinct : Bool)
  | other

/-- An argument of a function call. -/
inductive FunctionArg where
  | wildcard
  | expr (expr : Expr)
  | other

/-- The items of a projection; a wildcard is `plain` when it has no options. -/
inductive SelectItem where
  | wildcard (plain : Bool)
  | qualifiedWildcard (name : ObjectName) (plain : Bool)
  | unnamedExpr (expr : Expr)
  | exprWithAlias (expr : Expr) (asName : String)

/-- The sources of rows; a table function has arguments. -/
inductive TableFactor where
  | table (name : ObjectName) (asName : Option String) (args : Bool)
  | derived (lateral : Bool) (subquery : Query) (asName : Option String)
  | other

/-- The condition of a join. -/
inductive JoinConstraint where
  | on (expr : Expr)
  | using
  | natural
  | none

/-- The kind of a join with its condition. -/
inductive JoinOperator where
  | inner (constraint : JoinConstraint)
  | leftOuter (constraint : JoinConstraint)
  | rightOuter (constraint : JoinConstraint)
  | crossJoin
  | fullOuter
  | other

/-- One join of a chain. -/
inductive Join where
  | mk (relation : TableFactor) (joinOperator : JoinOperator)

/-- An element of FROM: a table and the chain of its joins. -/
inductive TableWithJoins where
  | mk (relation : TableFactor) (joins : List Join)

/-- GROUP BY ALL, or expressions that may have modifiers. -/
inductive GroupByExpr where
  | all
  | expressions (exprs : List Expr) (modifiers : Bool)

/-- A SELECT without the clauses that its query carries. -/
inductive Select where
  | mk (distinct : Bool) (projection : List SelectItem) (source : List TableWithJoins)
      (selection : Option Expr) (groupBy : GroupByExpr) (having : Option Expr)

/-- The body of a query: SELECT, a query in parentheses, or a set operation and the like. -/
inductive SetExpr where
  | select (select : Select)
  | query (query : Query)
  | other

/-- A key of ORDER BY: its direction, where its NULLs go, and whether gaps are filled. -/
inductive OrderByExpr where
  | mk (expr : Expr) (asc nullsFirst : Option Bool) (withFill : Bool)

/-- An ORDER BY; of INTERPOLATE only whether there is one. -/
inductive OrderBy where
  | mk (exprs : List OrderByExpr) (interpolate : Bool)

/-- A common table expression: its name, the columns of its alias and its query. -/
inductive Cte where
  | mk (name : String) (columns : List String) (query : Query)

/-- A WITH clause. -/
inductive With where
  | mk (recursive : Bool) (cteTables : List Cte)

/-- A query; of OFFSET, FETCH and LIMIT BY only whether there is one. -/
inductive Query where
  | mk (withClause : Option With) (body : SetExpr) (orderBy : Option OrderBy)
      (limit : Option Expr) (limitBy offset fetch : Bool)

end

/-- An assignment of UPDATE to one column, or to a tuple. -/
inductive AssignmentTarget where
  | columnName (name : ObjectName)
  | tuple

/-- UPDATE; `source` is the table behind its FROM. -/
structure Update where
  table : TableWithJoins
  assignments : List (AssignmentTarget × Expr)
  source : Option TableWithJoins
  selection : Option Expr

/-- DELETE; `tables` are the names between DELETE and FROM. -/
structure Delete where
  tables : List ObjectName
  source : List TableWithJoins
  usingTables : Option (List TableWithJoins)
  selection : Option Expr
  orderBy : List OrderByExpr
  limit : Option Expr

/-- The statements with clauses: a query, UPDATE, DELETE, and the others. -/
inductive Clause (Other : Type) where
  | query (query : Query)
  | update (update : Update)
  | delete (delete : Delete)
  | other (clause : Other)

end Ast

/-! ## Conversion -/

/-- What the conversion calls outside of the repository: `str::parse::<f64>`, and the text of
an expression in an error. -/
structure Grammar where
  parseF64 : List Char → Option F64
  display : Ast.Expr → String

/-- A grammar for texts without fractions. -/
def wholeNumbers : Grammar where
  parseF64 _ := none
  display _ := ""

/-- `object_name`. -/
def objectName (name : Ast.ObjectName) : String := (name.getLast?.map toAsciiLowercase).getD ""

/-- `convert_binary_op`. -/
def convertBinaryOp : Ast.BinaryOperator → Except String BinaryOp
  | .plus => .ok .add
  | .minus => .ok .subtract
  | .multiply => .ok .multiply
  | .divide => .ok .divide
  | .eq => .ok (.compare .equal)
  | .notEq => .ok (.compare .notEqual)
  | .lt => .ok (.compare .lessThan)
  | .ltEq => .ok (.compare .lessThanOrEqual)
  | .gt => .ok (.compare .greaterThan)
  | .gtEq => .ok (.compare .greaterThanOrEqual)
  | .and => .ok .and
  | .or => .ok .or
  | .other display => .error s!"Unsupported binary operator: {display}"

/-- The operators of `sql::Expr::UnaryOp`. -/
def convertUnaryOp : Ast.UnaryOperator → Except String UnaryOp
  | .not => .ok .not
  | .minus => .ok .negate
  | .plus => .ok .plus
  | .other display => .error s!"Unsupported unary operator: {display}"

/-- The aggregates of `convert_function`. -/
def convertAggregate (name : String) : Except String AggregateFunction :=
  if name = "count" then .ok .count
  else if name = "sum" then .ok .sum
  else if name = "avg" then .ok .avg
  else if name = "max" then .ok .max
  else if name = "min" then .ok .min
  else .error s!"Unsupported function: {name}"

section Convert

variable (G : Grammar)

/-- `convert_value`. -/
def convertValue : Ast.Literal → Except String Value
  | .number text =>
    if text.toList.any fun c => c == '.' || c == 'e' || c == 'E' then
      match G.parseF64 text.toList with
      | some x => .ok (.float x)
      | none => .error s!"Invalid number: {text}"
    else
      match parseI64 text.toList with
      | some n => .ok (.integer n)
      | none => .error s!"Invalid integer: {text}"
  | .singleQuotedString text => .ok (.text text)
  | .doubleQuotedString text => .ok (.text text)
  | .nationalStringLiteral text => .ok (.text text)
  | .escapedStringLiteral text => .ok (.text text)
  | .boolean b => .ok (.boolean b)
  | .null => .ok .null
  | .placeholder => .error "Unsupported literal: ?"
  | .other display => .error s!"Unsupported literal: {display}"

mutual

/-- `convert_expr`. -/
def convertExpr (expr : Ast.Expr) : Except String Expr :=
  match expr with
  | .identifier name => .ok (.column none (toAsciiLowercase name))
  | .compoundIdentifier [qualifier, name] =>
    .ok (.column (some (toAsciiLowercase qualifier)) (toAsciiLowercase name))
  | .value .placeholder => .ok (.parameter (2 ^ 64 - 1))
  | .value value => (convertValue G value).map .literal
  | .nested expr => convertExpr expr
  | .binaryOp left op right => do
    let left ← convertExpr left
    let op ← convertBinaryOp op
    let right ← convertExpr right
    pure (.binary left op right)
  | .unaryOp op expr => do
    let op ← convertUnaryOp op
    let expr ← convertExpr expr
    pure (.unary op expr)
  | .isNull expr => do
    let expr ← convertExpr expr
    pure (.isNull expr false)
  | .isNotNull expr => do
    let expr ← convertExpr expr
    pure (.isNull expr true)
  | .like negated false expr pattern none => do
    let expr ← convertExpr expr
    let pattern ← convertExpr pattern
    pure (.like expr pattern negated)
  | .inList expr list negated => do
    let expr ← convertExpr expr
    let list ← convertExprs list
    pure (.inList expr list negated)
  | .inSubquery expr subquery negated => do
    let expr ← convertExpr expr
    let query ← convertQuery subquery
    pure (.inSubquery expr query negated)
  | .exist subquery negated => do
    let query ← convertQuery subquery
    pure (.exist query negated)
  | .subquery query => do
    let query ← convertQuery query
    pure (.scalarSubquery query)
  | .function name window args =>
    if window then .error "Window/FILTER/WITHIN GROUP functions are unsupported"
    else if objectName name = "values" then
      match args with
      | .list [.expr (.identifier column)] _ => .ok (.incoming (toAsciiLowercase column))
      | _ => .error "VALUES() requires one column argument"
    else do
      let function ← convertAggregate (objectName name)
      match args with
      | .list [.wildcard] distinct =>
        if function = .count then pure (.aggregate function none distinct)
        else .error "Only COUNT supports '*'"
      | .list [.expr expr] distinct =>
        let expr ← convertExpr expr
        pure (.aggregate function (some expr) distinct)
      | .list [.other] _ => .error "Unsupported aggregate argument"
      | .list _ _ => .error "Aggregate functions require exactly one argument"
      | .other => .error "Aggregate functions require a normal argument list"
  | unsupported => .error s!"Unsupported expression: {G.display unsupported}"

/-- `convert_expr` over a list, up to the first error. -/
def convertExprs (exprs : List Ast.Expr) : Except String (List Expr) :=
  match exprs with
  | [] => .ok []
  | expr :: exprs => do
    let expr ← convertExpr expr
    let exprs ← convertExprs exprs
    pure (expr :: exprs)

/-- `convert_expr` on an optional expression. -/
def convertOption (expr : Option Ast.Expr) : Except String (Option Expr) :=
  match expr with
  | none => .ok none
  | some expr => do
    let expr ← convertExpr expr
    pure (some expr)

/-- `convert_select_item`, of every item. -/
def convertSelectItems (items : List Ast.SelectItem) : Except String (List SelectItem) :=
  match items with
  | [] => .ok []
  | item :: items => do
    let item ← convertSelectItem item
    let items ← convertSelectItems items
    pure (item :: items)

/-- `convert_select_item`. -/
def convertSelectItem (item : Ast.SelectItem) : Except String SelectItem :=
  match item with
  | .wildcard true => .ok (.wildcard none)
  | .qualifiedWildcard name true => .ok (.wildcard (some (objectName name)))
  | .unnamedExpr expr => do
    let expr ← convertExpr expr
    pure (.expr expr none)
  | .exprWithAlias expr asName => do
    let expr ← convertExpr expr
    pure (.expr expr (some (toAsciiLowercase asName)))
  | _ => .error "Wildcard modifiers are unsupported"

/-- `convert_table_source`. -/
def convertTableSource (source : Ast.TableFactor) : Except String TableSource :=
  match source with
  | .table name asName false => .ok (.table (objectName name) (asName.map toAsciiLowercase))
  | .derived false subquery (some asName) => do
    let query ← convertQuery subquery
    pure (.derived query (toAsciiLowercase asName))
  | .derived true _ _ => .error "LATERAL subqueries are unsupported"
  | .derived _ _ none => .error "Derived tables require an alias"
  | _ => .error "Unsupported table source"

/-- The constraint of a join. -/
def convertConstraint (constraint : Ast.JoinConstraint) : Except String (Option Expr) :=
  match constraint with
  | .none => .ok none
  | .on expr => do
    let expr ← convertExpr expr
    pure (some expr)
  | .using => .error "NATURAL/USING joins are unsupported; use ON"
  | .natural => .error "NATURAL/USING joins are unsupported; use ON"

/-- `convert_join`, of every join. -/
def convertJoins (joins : List Ast.Join) : Except String (List Join) :=
  match joins with
  | [] => .ok []
  | .mk relation joinOperator :: joins => do
    let (joinType, on) ← convertJoinOperator joinOperator
    let source ← convertTableSource relation
    let joins ← convertJoins joins
    pure (⟨joinType, source, on⟩ :: joins)

/-- The kind and the condition of a join, in `convert_join`. -/
def convertJoinOperator (joinOperator : Ast.JoinOperator) :
    Except String (JoinType × Option Expr) :=
  match joinOperator with
  | .inner constraint => do
    let on ← convertConstraint constraint
    pure (.inner, on)
  | .leftOuter constraint => do
    let on ← convertConstraint constraint
    pure (.left, on)
  | .rightOuter constraint => do
    let on ← convertConstraint constraint
    pure (.right, on)
  | .crossJoin => .ok (.cross, none)
  | .fullOuter => .error "FULL JOIN is unsupported"
  | .other => .error "Unsupported JOIN type"

/-- The keys of ORDER BY.  Of a key the expression and the direction are taken. -/
def convertOrderKeys (keys : List Ast.OrderByExpr) : Except String (List OrderBy) :=
  match keys with
  | [] => .ok []
  | .mk expr asc _ _ :: keys => do
    let expr ← convertExpr expr
    let keys ← convertOrderKeys keys
    pure (⟨expr, asc == some false⟩ :: keys)

/-- The ORDER BY of `convert_query`. -/
def convertOrderBy (orderBy : Option Ast.OrderBy) : Except String (List OrderBy) :=
  match orderBy with
  | none => .ok []
  | some (.mk exprs _) => convertOrderKeys exprs

/-- The common table expressions of `convert_query`, in order. -/
def convertCtes (ctes : List Ast.Cte) : Except String (List Cte) :=
  match ctes with
  | [] => .ok []
  | .mk name columns query :: ctes => do
    let query ← convertQuery query
    let ctes ← convertCtes ctes
    pure (⟨toAsciiLowercase name, columns.map toAsciiLowercase, query⟩ :: ctes)

/-- The WITH of `convert_query`, which refuses a recursive one. -/
def convertWith (withClause : Option Ast.With) : Except String (List Cte) :=
  match withClause with
  | none => .ok []
  | some (.mk recursive cteTables) =>
    if recursive then .error "Recursive CTEs are unsupported" else convertCtes cteTables

/-- The GROUP BY of `convert_query`. -/
def convertGroupBy (groupBy : Ast.GroupByExpr) : Except String (List Expr) :=
  match groupBy with
  | .expressions exprs false => convertExprs exprs
  | _ => .error "GROUP BY modifiers/ALL are unsupported"

/-- The table behind FROM, and its joins. -/
def convertFrom (tables : List Ast.TableWithJoins) :
    Except String (Option TableSource × List Join) :=
  match tables with
  | [] => .ok (none, [])
  | [.mk relation joins] => do
    let source ← convertTableSource relation
    let joins ← convertJoins joins
    pure (some source, joins)
  | _ => .error "Comma joins are unsupported; use explicit JOIN syntax"

/-- `literal_usize`, of a LIMIT. -/
def convertLimit (limit : Option Ast.Expr) : Except String (Option Nat) :=
  match limit with
  | none => .ok none
  | some expr => do
    match ← convertExpr expr with
    | .literal (.integer value) =>
      if 0 ≤ value.toInt then pure (some value.toInt.toNat)
      else .error "LIMIT must be a non-negative integer"
    | _ => .error "LIMIT must be a non-negative integer"

/-- `convert_query`. -/
def convertQuery (query : Ast.Query) : Except String Query :=
  match query with
  | .mk withClause body orderBy limit limitBy offset fetch =>
    if offset || fetch || limitBy then .error "OFFSET/FETCH/LIMIT BY are unsupported"
    else do
      let ctes ← convertWith withClause
      match body with
      -- What stands behind the parentheses is left where it is.
      | .query query => convertQuery query
      | .other => .error "Set operations are unsupported"
      | .select (.mk distinct projection source selection groupBy having) =>
        let (source, joins) ← convertFrom source
        let groupBy ← convertGroupBy groupBy
        let orderBy ← convertOrderBy orderBy
        let limit ← convertLimit limit
        let projection ← convertSelectItems projection
        let selection ← convertOption selection
        let having ← convertOption having
        pure ⟨ctes, distinct, projection, source, joins, selection, groupBy, having, orderBy,
          limit⟩

end

/-- `table_factor_name`. -/
def tableFactorName : Ast.TableFactor → Except String String
  | .table name _ false => .ok (objectName name)
  | _ => .error "Expected a table name"

/-- The assignments of UPDATE. -/
def convertAssignments : List (Ast.AssignmentTarget × Ast.Expr) →
    Except String (List (String × Expr))
  | [] => .ok []
  | (.columnName name, expr) :: assignments => do
    let expr ← convertExpr G expr
    let assignments ← convertAssignments assignments
    pure ((objectName name, expr) :: assignments)
  | (.tuple, _) :: _ => .error "Tuple assignment is unsupported"

/-- The arm of `convert_statement` for UPDATE. -/
def convertUpdate (update : Ast.Update) : Except String Statement :=
  match update.table with
  | .mk relation joins =>
    if !joins.isEmpty then .error "UPDATE with JOIN is unsupported"
    else do
      let tableName ← tableFactorName relation
      let assignments ← convertAssignments G update.assignments
      let selection ← convertOption G update.selection
      pure (.update tableName assignments selection)

/-- The arm of `convert_statement` for DELETE. -/
def convertDelete (delete : Ast.Delete) : Except String Statement :=
  match delete.source with
  | [.mk relation []] => do
    let tableName ← tableFactorName relation
    let selection ← convertOption G delete.selection
    pure (.delete tableName selection)
  | _ => .error "Only single-table DELETE is supported"

/-- The arms of `convert_statement` for statements with clauses; the conversion of the others
is `convertOther`. -/
def convertClause {Other : Type} (convertOther : Other → Except String Statement) :
    Ast.Clause Other → Except String Statement
  | .query query => (convertQuery G query).map .query
  | .update update => convertUpdate G update
  | .delete delete => convertDelete G delete
  | .other clause => convertOther clause

/-- A parser whose statements have these clauses. -/
def clauseParser {Other : Type} (convertOther : Other → Except String Statement)
    (parse : List Char → Except String (List (SqlStatement (Ast.Clause Other)))) : SqlParser where
  Clause := Ast.Clause Other
  convertClause := convertClause G convertOther
  parse := parse
  parseF64 := G.parseF64

end Convert

end Sql
end RustyDB
