import Mathlib
import RustyDB.Sql.Define

/-!
# What a conversion keeps

Which clauses of a statement are still there when `convert_statement` of `src/sql/parser.rs` has
converted it, for every query inside of the statement.

* `ReadsExpr`, `ReadsQuery`, … — what the nodes of the grammar say in terms of RustyDB, told
  without the conversion: every clause that stands somewhere is found again.
* `Ast.queryQueries`, `Ast.statementQueries` — the queries of a statement, at any depth.
* `Represents` — a converted statement says what the parsed one says.
* `Repeated`, `KeepsClauses` — the condition on the parsed statement alone.
* `convertQuery_of_reads`, `readsQuery_of_kept` — a query that is read so is converted so, and a
  converted one is read so when every query in parentheses repeats the clauses around it.
* `conversion_keeps_clauses_iff` — **a converted statement has all clauses exactly when every
  query in parentheses, wherever it stands, repeats the clauses around it, and no statement has a
  part that cannot be expressed.**
-/

namespace RustyDB
namespace Sql

open Text

/-! ## The queries of a statement -/

namespace Ast

namespace Query

/-- The WITH of a query. -/
def withClause : Query → Option With
  | .mk withClause _ _ _ _ _ _ => withClause

/-- The ORDER BY of a query. -/
def orderBy : Query → Option OrderBy
  | .mk _ _ orderBy _ _ _ _ => orderBy

/-- The LIMIT of a query. -/
def limit : Query → Option Expr
  | .mk _ _ _ limit _ _ _ => limit

/-- The query inside of all parentheses. -/
def innermost (query : Query) : Query :=
  match query with
  | .mk withClause body orderBy limit limitBy offset fetch =>
    match body with
    | .query inner => inner.innermost
    | body => .mk withClause body orderBy limit limitBy offset fetch

end Query

mutual

/-- The queries in an expression, and those inside of them. -/
def exprQueries (expr : Expr) : List Query :=
  match expr with
  | .nested expr => exprQueries expr
  | .binaryOp left _ right => exprQueries left ++ exprQueries right
  | .unaryOp _ expr => exprQueries expr
  | .isNull expr => exprQueries expr
  | .isNotNull expr => exprQueries expr
  | .like _ _ expr pattern _ => exprQueries expr ++ exprQueries pattern
  | .inList expr list _ => exprQueries expr ++ exprsQueries list
  | .inSubquery expr subquery _ => exprQueries expr ++ queryQueries subquery
  | .exist subquery _ => queryQueries subquery
  | .subquery query => queryQueries query
  -- A function of more arguments is refused.
  | .function _ _ (.list [.expr expr] _) => exprQueries expr
  | _ => []

/-- The queries inside of a list of expressions. -/
def exprsQueries (exprs : List Expr) : List Query :=
  match exprs with
  | [] => []
  | expr :: exprs => exprQueries expr ++ exprsQueries exprs

/-- The queries inside of an optional expression. -/
def optionQueries (expr : Option Expr) : List Query :=
  match expr with
  | none => []
  | some expr => exprQueries expr

/-- The queries inside of a SELECT list. -/
def itemsQueries (items : List SelectItem) : List Query :=
  match items with
  | [] => []
  | item :: items => itemQueries item ++ itemsQueries items

/-- The queries inside of one item of a SELECT list. -/
def itemQueries (item : SelectItem) : List Query :=
  match item with
  | .unnamedExpr expr => exprQueries expr
  | .exprWithAlias expr _ => exprQueries expr
  | _ => []

/-- The queries inside of a table of FROM: those of a derived table. -/
def tableQueries (table : TableFactor) : List Query :=
  match table with
  | .derived _ subquery _ => queryQueries subquery
  | _ => []

/-- The queries inside of the condition of a join. -/
def constraintQueries (constraint : JoinConstraint) : List Query :=
  match constraint with
  | .on expr => exprQueries expr
  | _ => []

/-- The queries inside of a join operator. -/
def operatorQueries (joinOperator : JoinOperator) : List Query :=
  match joinOperator with
  | .inner constraint => constraintQueries constraint
  | .leftOuter constraint => constraintQueries constraint
  | .rightOuter constraint => constraintQueries constraint
  | _ => []

/-- The queries inside of a chain of joins. -/
def joinsQueries (joins : List Join) : List Query :=
  match joins with
  | [] => []
  | .mk relation joinOperator :: joins =>
    operatorQueries joinOperator ++ tableQueries relation ++ joinsQueries joins

/-- The queries inside of the keys of an ORDER BY. -/
def keysQueries (keys : List OrderByExpr) : List Query :=
  match keys with
  | [] => []
  | .mk expr _ _ _ :: keys => exprQueries expr ++ keysQueries keys

/-- The queries inside of an ORDER BY. -/
def orderByQueries (orderBy : Option OrderBy) : List Query :=
  match orderBy with
  | none => []
  | some (.mk exprs _) => keysQueries exprs

/-- The queries inside of the common table expressions. -/
def ctesQueries (ctes : List Cte) : List Query :=
  match ctes with
  | [] => []
  | .mk _ _ query :: ctes => queryQueries query ++ ctesQueries ctes

/-- The queries inside of a WITH. -/
def withQueries (withClause : Option With) : List Query :=
  match withClause with
  | none => []
  | some (.mk _ cteTables) => ctesQueries cteTables

/-- The queries inside of a GROUP BY. -/
def groupByQueries (groupBy : GroupByExpr) : List Query :=
  match groupBy with
  | .expressions exprs _ => exprsQueries exprs
  | .all => []

/-- The queries behind FROM; more than one table is refused. -/
def fromQueries (tables : List TableWithJoins) : List Query :=
  match tables with
  | [.mk relation joins] => tableQueries relation ++ joinsQueries joins
  | _ => []

/-- A query, and the queries inside of it. -/
def queryQueries (query : Query) : List Query :=
  match query with
  | .mk withClause body orderBy limit limitBy offset fetch =>
    .mk withClause body orderBy limit limitBy offset fetch ::
      (withQueries withClause ++
        match body with
        | .query inner => queryQueries inner ++ orderByQueries orderBy ++ optionQueries limit
        | .other => []
        | .select (.mk _ projection source selection groupBy having) =>
          fromQueries source ++ groupByQueries groupBy ++ orderByQueries orderBy ++
            optionQueries limit ++ itemsQueries projection ++ optionQueries selection ++
            optionQueries having)

end

/-- The queries inside of the assignments of UPDATE and of ON DUPLICATE KEY UPDATE. -/
def assignmentsQueries (assignments : List (AssignmentTarget × Expr)) : List Query :=
  assignments.flatMap fun assignment => exprQueries assignment.2

/-- The conditions of CHECK in a definition. -/
def ColumnOption.checks : ColumnOption → List Expr
  | .check expr => [expr]
  | _ => []

/-- The conditions of CHECK among the options of a column. -/
def ColumnDef.checks (column : ColumnDef) : List Expr :=
  column.options.flatMap fun option => option.option.checks

/-- The condition of a table constraint, where it is a CHECK. -/
def TableConstraint.checks : TableConstraint → List Expr
  | .check _ expr => [expr]
  | _ => []

/-- The conditions of CHECK in an ALTER TABLE operation. -/
def AlterTableOperation.checks : AlterTableOperation → List Expr
  | .addColumn columnDef _ _ => columnDef.checks
  | .changeColumn _ _ _ options _ => options.flatMap ColumnOption.checks
  | .modifyColumn _ _ options _ => options.flatMap ColumnOption.checks
  | .addConstraint constraint => constraint.checks
  | _ => []

/-- The conditions of CHECK in a statement. -/
def Definition.checks : Definition → List Expr
  | .createTable create =>
    create.columns.flatMap ColumnDef.checks ++ create.constraints.flatMap TableConstraint.checks
  | .alterTable alter => alter.operations.flatMap AlterTableOperation.checks
  | _ => []

/-- The queries of the source of an INSERT. -/
def InsertSource.queries : InsertSource → List Query
  | .values _ rows _ _ _ _ _ => rows.flatMap exprsQueries
  | .query selected => queryQueries selected

/-- The queries of a conflict clause. -/
def OnInsert.queries : OnInsert → List Query
  | .duplicateKeyUpdate assignments => assignmentsQueries assignments
  | .other _ => []

/-- Every query of a statement, nested ones included. -/
def Definition.queries : Definition → List Query
  | .insert statement =>
    (statement.source.map InsertSource.queries).getD [] ++
      (statement.on.map OnInsert.queries).getD []
  | definition => exprsQueries definition.checks

/-- **The queries of a statement**, at any depth. -/
def statementQueries : SqlStatement (Clause Definition) → List Query
  | .clause (.query query) => queryQueries query
  | .clause (.update update) =>
    assignmentsQueries update.assignments ++ optionQueries update.selection
  | .clause (.delete delete) => optionQueries delete.selection
  | .clause (.other definition) => definition.queries
  | .explain statement => statementQueries statement
  | _ => []

/-- The table has this name, or goes by it. -/
def TableFactor.Named (name : String) : TableFactor → Prop
  | .table tableName asName _ =>
    objectName tableName = name ∨ asName.map toAsciiLowercase = some name
  | _ => False

/-- The names between DELETE and FROM are names of the one table behind FROM. -/
def Delete.NamesItsTable (delete : Delete) : Prop :=
  ∀ name ∈ delete.tables, ∃ relation, delete.source = [.mk relation []] ∧
    relation.Named (objectName name)

/-- DELETE has nothing besides its table and WHERE. -/
def Delete.Bare (delete : Delete) : Prop :=
  delete.usingTables = none ∧ delete.orderBy = [] ∧ delete.limit = none ∧ delete.NamesItsTable

end Ast

/-- The conditions of CHECK in a converted definition. -/
def TableConstraint.checks : TableConstraint → List Expr
  | .check _ expr => [expr]
  | _ => []

/-- The conditions of CHECK in a converted ALTER TABLE operation. -/
def AlterOperation.checks : AlterOperation → List Expr
  | .addColumn _ constraints _ => constraints.flatMap TableConstraint.checks
  | .modifyColumn _ _ constraints => constraints.flatMap TableConstraint.checks
  | .addConstraint constraint => constraint.checks
  | _ => []

/-- The conditions of CHECK in a converted statement. -/
def Statement.checks : Statement → List Expr
  | .createTable _ _ constraints _ => constraints.flatMap TableConstraint.checks
  | .alterTable _ operations => operations.flatMap AlterOperation.checks
  | _ => []

/-! ## What the nodes say -/

/-- The operators of the grammar and those of RustyDB. -/
inductive ReadsBinary : Ast.BinaryOperator → BinaryOp → Prop
  | plus : ReadsBinary .plus .add
  | minus : ReadsBinary .minus .subtract
  | multiply : ReadsBinary .multiply .multiply
  | divide : ReadsBinary .divide .divide
  | eq : ReadsBinary .eq (.compare .equal)
  | notEq : ReadsBinary .notEq (.compare .notEqual)
  | lt : ReadsBinary .lt (.compare .lessThan)
  | ltEq : ReadsBinary .ltEq (.compare .lessThanOrEqual)
  | gt : ReadsBinary .gt (.compare .greaterThan)
  | gtEq : ReadsBinary .gtEq (.compare .greaterThanOrEqual)
  | and : ReadsBinary .and .and
  | or : ReadsBinary .or .or

/-- The unary operators that the engine has, and what each is there. -/
inductive ReadsUnary : Ast.UnaryOperator → UnaryOp → Prop
  | not : ReadsUnary .not .not
  | minus : ReadsUnary .minus .negate
  | plus : ReadsUnary .plus .plus

/-- The aggregates, by name. -/
inductive ReadsAggregate : String → AggregateFunction → Prop
  | count : ReadsAggregate "count" .count
  | sum : ReadsAggregate "sum" .sum
  | avg : ReadsAggregate "avg" .avg
  | max : ReadsAggregate "max" .max
  | min : ReadsAggregate "min" .min

/-- A LIMIT that lets no more rows through than another. -/
def NoLarger (limit bound : Option Nat) : Prop :=
  ∀ n, bound = some n → ∃ m, limit = some m ∧ m ≤ n

section Reads

variable (G : Grammar)

/-- A literal; a number with a point or an exponent is a double. -/
inductive ReadsLiteral : Ast.Literal → Expr → Prop
  | float {text x} : (text.toList.any fun c => c == '.' || c == 'e' || c == 'E') = true →
      G.parseF64 text.toList = some x → ReadsLiteral (.number text) (.literal (.float x))
  | integer {text n} : (text.toList.any fun c => c == '.' || c == 'e' || c == 'E') = false →
      parseI64 text.toList = some n → ReadsLiteral (.number text) (.literal (.integer n))
  | singleQuoted {text} : ReadsLiteral (.singleQuotedString text) (.literal (.text text))
  | doubleQuoted {text} : ReadsLiteral (.doubleQuotedString text) (.literal (.text text))
  | national {text} : ReadsLiteral (.nationalStringLiteral text) (.literal (.text text))
  | escaped {text} : ReadsLiteral (.escapedStringLiteral text) (.literal (.text text))
  | boolean {b} : ReadsLiteral (.boolean b) (.literal (.boolean b))
  | null : ReadsLiteral .null (.literal .null)
  /-- A parameter, that is not numbered yet. -/
  | placeholder : ReadsLiteral .placeholder (.parameter (2 ^ 64 - 1))

mutual

/-- What an expression says. -/
def ReadsExpr (expr : Ast.Expr) (result : Expr) : Prop :=
  match expr with
  | .identifier name => result = .column none (toAsciiLowercase name)
  | .compoundIdentifier names => ∃ qualifier name, names = [qualifier, name] ∧
      result = .column (some (toAsciiLowercase qualifier)) (toAsciiLowercase name)
  | .value value => ReadsLiteral G value result
  | .nested expr => ReadsExpr expr result
  | .binaryOp left op right => ∃ left' op' right', ReadsExpr left left' ∧ ReadsBinary op op' ∧
      ReadsExpr right right' ∧ result = .binary left' op' right'
  | .unaryOp op expr => ∃ op' expr', ReadsUnary op op' ∧ ReadsExpr expr expr' ∧
      result = .unary op' expr'
  | .isNull expr => ∃ expr', ReadsExpr expr expr' ∧ result = .isNull expr' false
  | .isNotNull expr => ∃ expr', ReadsExpr expr expr' ∧ result = .isNull expr' true
  | .like negated any expr pattern escapeChar => any = false ∧ escapeChar = none ∧
      ∃ expr' pattern', ReadsExpr expr expr' ∧ ReadsExpr pattern pattern' ∧
        result = .like expr' pattern' negated
  | .inList expr list negated => ∃ expr' list', ReadsExpr expr expr' ∧ ReadsExprs list list' ∧
      result = .inList expr' list' negated
  | .inSubquery expr subquery negated => ∃ expr' query', ReadsExpr expr expr' ∧
      ReadsQuery subquery query' ∧ result = .inSubquery expr' query' negated
  | .exist subquery negated => ∃ query', ReadsQuery subquery query' ∧
      result = .exist query' negated
  | .subquery query => ∃ query', ReadsQuery query query' ∧ result = .scalarSubquery query'
  | .function name window args => window = false ∧
      match args with
      | .list [.expr expr] distinct =>
        if objectName name = "values" then
          ∃ column, expr = .identifier column ∧ result = .incoming (toAsciiLowercase column)
        else ∃ function expr', ReadsAggregate (objectName name) function ∧
          ReadsExpr expr expr' ∧ result = .aggregate function (some expr') distinct
      | .list [.wildcard] distinct => objectName name = "count" ∧
          result = .aggregate .count none distinct
      | _ => False
  | .other => False

/-- A list of expressions, one by one and in order. -/
def ReadsExprs (exprs : List Ast.Expr) (result : List Expr) : Prop :=
  match exprs with
  | [] => result = []
  | expr :: exprs => ∃ expr' exprs', ReadsExpr expr expr' ∧ ReadsExprs exprs exprs' ∧
      result = expr' :: exprs'

/-- An optional expression. -/
def ReadsOption (expr : Option Ast.Expr) (result : Option Expr) : Prop :=
  match expr with
  | none => result = none
  | some expr => ∃ expr', ReadsExpr expr expr' ∧ result = some expr'

/-- The items of a projection. -/
def ReadsItems (items : List Ast.SelectItem) (result : List SelectItem) : Prop :=
  match items with
  | [] => result = []
  | item :: items => ∃ item' items', ReadsItem item item' ∧ ReadsItems items items' ∧
      result = item' :: items'

/-- An item of the SELECT list. -/
def ReadsItem (item : Ast.SelectItem) (result : SelectItem) : Prop :=
  match item with
  | .wildcard plain => plain = true ∧ result = .wildcard none
  | .qualifiedWildcard name plain => plain = true ∧ result = .wildcard (some (objectName name))
  | .unnamedExpr expr => ∃ expr', ReadsExpr expr expr' ∧ result = .expr expr' none
  | .exprWithAlias expr asName => ∃ expr', ReadsExpr expr expr' ∧
      result = .expr expr' (some (toAsciiLowercase asName))

/-- A table of FROM: a named table, or a derived one with its alias. -/
def ReadsTable (table : Ast.TableFactor) (result : TableSource) : Prop :=
  match table with
  | .table name asName args => args = false ∧
      result = .table (objectName name) (asName.map toAsciiLowercase)
  | .derived lateral subquery asName => lateral = false ∧ ∃ name query', asName = some name ∧
      ReadsQuery subquery query' ∧ result = .derived query' (toAsciiLowercase name)
  | .other => False

/-- The condition of a join. -/
def ReadsConstraint (constraint : Ast.JoinConstraint) (result : Option Expr) : Prop :=
  match constraint with
  | .none => result = none
  | .on expr => ∃ expr', ReadsExpr expr expr' ∧ result = some expr'
  | .using => False
  | .natural => False

/-- The kind of a join with its condition. -/
def ReadsOperator (joinOperator : Ast.JoinOperator) (joinType : JoinType) (on : Option Expr) :
    Prop :=
  match joinOperator with
  | .inner constraint => joinType = .inner ∧ ReadsConstraint constraint on
  | .leftOuter constraint => joinType = .left ∧ ReadsConstraint constraint on
  | .rightOuter constraint => joinType = .right ∧ ReadsConstraint constraint on
  | .crossJoin => joinType = .cross ∧ on = none
  | .fullOuter => False
  | .other => False

/-- A chain of joins, in order. -/
def ReadsJoins (joins : List Ast.Join) (result : List Join) : Prop :=
  match joins with
  | [] => result = []
  | .mk relation joinOperator :: joins => ∃ joinType on source' joins',
      ReadsOperator joinOperator joinType on ∧ ReadsTable relation source' ∧
        ReadsJoins joins joins' ∧ result = ⟨joinType, source', on⟩ :: joins'

/-- The keys of ORDER BY.  RustyDB sorts so: NULLs are first in an ascending order and last in a
descending one, and no gaps are filled. -/
def ReadsKeys (keys : List Ast.OrderByExpr) (result : List OrderBy) : Prop :=
  match keys with
  | [] => result = []
  | .mk expr asc nullsFirst withFill :: keys => ∃ expr' keys', ReadsExpr expr expr' ∧
      (nullsFirst = none ∨ nullsFirst = some (asc != some false)) ∧ withFill = false ∧
        ReadsKeys keys keys' ∧ result = ⟨expr', asc == some false⟩ :: keys'

/-- An ORDER BY, key for key. -/
def ReadsOrderBy (orderBy : Option Ast.OrderBy) (result : List OrderBy) : Prop :=
  match orderBy with
  | none => result = []
  | some (.mk exprs interpolate) => interpolate = false ∧ ReadsKeys exprs result

/-- LIMIT is a number of rows. -/
def ReadsLimit (limit : Option Ast.Expr) (result : Option Nat) : Prop :=
  match limit with
  | none => result = none
  | some expr => ∃ value, ReadsExpr expr (.literal (.integer value)) ∧ 0 ≤ value.toInt ∧
      result = some value.toInt.toNat

/-- The common table expressions, in order. -/
def ReadsCtes (ctes : List Ast.Cte) (result : List Cte) : Prop :=
  match ctes with
  | [] => result = []
  | .mk name columns query :: ctes => ∃ query' ctes', ReadsQuery query query' ∧
      ReadsCtes ctes ctes' ∧
        result = ⟨toAsciiLowercase name, columns.map toAsciiLowercase, query'⟩ :: ctes'

/-- A WITH that is not recursive. -/
def ReadsWith (withClause : Option Ast.With) (result : List Cte) : Prop :=
  match withClause with
  | none => result = []
  | some (.mk recursive cteTables) => recursive = false ∧ ReadsCtes cteTables result

/-- A GROUP BY without modifiers. -/
def ReadsGroupBy (groupBy : Ast.GroupByExpr) (result : List Expr) : Prop :=
  match groupBy with
  | .all => False
  | .expressions exprs modifiers => modifiers = false ∧ ReadsExprs exprs result

/-- The table behind FROM, and its joins. -/
def ReadsFrom (tables : List Ast.TableWithJoins) (source : Option TableSource)
    (joins : List Join) : Prop :=
  match tables with
  | [] => source = none ∧ joins = []
  | [.mk relation joined] => ∃ source', ReadsTable relation source' ∧ source = some source' ∧
      ReadsJoins joined joins
  | _ => False

/-- What a query says.  Around a query in parentheses the CTEs are the first ones of the result,
the order is its order, and LIMIT lets no fewer rows through than the result has. -/
def ReadsQuery (query : Ast.Query) (result : Query) : Prop :=
  match query with
  | .mk withClause body orderBy limit limitBy offset fetch =>
    limitBy = false ∧ offset = false ∧ fetch = false ∧
    match body with
    | .query inner => ReadsQuery inner result ∧
        (∃ ctes, ReadsWith withClause ctes ∧ ctes <+: result.ctes) ∧
        (orderBy = none ∨ ReadsOrderBy orderBy result.orderBy) ∧
        ∃ bound, ReadsLimit limit bound ∧ NoLarger result.limit bound
    | .other => False
    | .select (.mk distinct projection source selection groupBy having) =>
      distinct = result.distinct ∧ ReadsWith withClause result.ctes ∧
        ReadsFrom source result.source result.joins ∧ ReadsGroupBy groupBy result.groupBy ∧
        ReadsOrderBy orderBy result.orderBy ∧ ReadsLimit limit result.limit ∧
        ReadsItems projection result.projection ∧ ReadsOption selection result.selection ∧
        ReadsOption having result.having

end

/-- An assignment of UPDATE or of ON DUPLICATE KEY UPDATE. -/
def ReadsAssignment (assignment : Ast.AssignmentTarget × Ast.Expr) (result : String × Expr) :
    Prop :=
  ∃ name, assignment.1 = .columnName name ∧ result.1 = objectName name ∧
    ReadsExpr G assignment.2 result.2

/-- Nothing that stands around the rows of VALUES takes one of them away. -/
def BareSource : Ast.InsertSource → Prop
  | .values withClause rows orderBy limit limitBy offset fetch =>
    withClause = none ∧ orderBy = none ∧ limitBy = false ∧ offset = false ∧ fetch = false ∧
      ∃ bound, ReadsLimit G limit bound ∧ NoLarger (some rows.length) bound
  | .query _ => True

/-- The source of an INSERT: the rows of VALUES, or a query. -/
def ReadsSource (source : Ast.InsertSource) (result : InsertSource) : Prop :=
  BareSource G source ∧
    match source, result with
    | .values _ rows _ _ _ _ _, .values rows' => List.Forall₂ (ReadsExprs G) rows rows'
    | .query query, .query query' => ReadsQuery G query query'
    | _, _ => False

/-- The assignments of ON DUPLICATE KEY UPDATE. -/
def ReadsOnInsert (on : Option Ast.OnInsert) (result : List (String × Expr)) : Prop :=
  match on with
  | none => result = []
  | some (.duplicateKeyUpdate assignments) =>
    List.Forall₂ (ReadsAssignment G) assignments result
  | some (.other _) => False

/-- **A converted statement represents the parsed one**: every clause of every query in it is
there, and so are all parts of UPDATE, DELETE and the rows of INSERT. -/
def Represents : SqlStatement (Ast.Clause Ast.Definition) → Statement → Prop
  | .clause (.query query), converted => ∃ result, converted = .query result ∧
      ReadsQuery G query result
  | .clause (.update update), converted => update.source = none ∧
      ∃ name asName assignments selection, update.table = .mk (.table name asName false) [] ∧
        converted = .update (objectName name) assignments selection ∧
        List.Forall₂ (ReadsAssignment G) update.assignments assignments ∧
        ReadsOption G update.selection selection
  | .clause (.delete delete), converted => delete.Bare ∧
      ∃ name asName selection, delete.source = [.mk (.table name asName false) []] ∧
        converted = .delete (objectName name) selection ∧
        ReadsOption G delete.selection selection
  | .clause (.other (.insert insert)), converted =>
    ∃ tableName columns source source' onDuplicate, insert.source = some source ∧
      converted = .insert tableName columns source' onDuplicate ∧ ReadsSource G source source' ∧
      ReadsOnInsert G insert.on onDuplicate
  | .clause (.other definition), converted => ReadsExprs G definition.checks converted.checks
  | .explain statement, converted =>
    ∃ inner, converted = .explain inner ∧ Represents statement inner
  | _, _ => True

/-! ## The condition -/

/-- The clauses of a level are repeated in another query: its CTEs are the first ones there, its
order is the same, and its LIMIT is not the smaller one. -/
structure Repeated (level query : Ast.Query) : Prop where
  ctes : ∃ ctes others, ReadsWith G level.withClause ctes ∧ ReadsWith G query.withClause others ∧
    ctes <+: others
  orderBy : level.orderBy = none ∨
    ∃ keys, ReadsOrderBy G level.orderBy keys ∧ ReadsOrderBy G query.orderBy keys
  limit : ∃ bound limit, ReadsLimit G level.limit bound ∧ ReadsLimit G query.limit limit ∧
    NoLarger limit bound

/-- Each of the queries has its clauses repeated inside of all its parentheses. -/
def Kept (queries : List Ast.Query) : Prop :=
  ∀ query ∈ queries, Repeated G query query.innermost

/-- A statement has no part that its conversion cannot express: UPDATE has no FROM, DELETE has
only its table and WHERE, and nothing stands around the rows of VALUES. -/
def Expressible : SqlStatement (Ast.Clause Ast.Definition) → Prop
  | .clause (.update update) => update.source = none
  | .clause (.delete delete) => delete.Bare
  | .clause (.other (.insert insert)) => ∀ source, insert.source = some source → BareSource G source
  | .explain statement => Expressible statement
  | _ => True

/-- **The condition**: every query in parentheses, wherever it stands in the statement, repeats
the clauses around it, and the statement has no part that cannot be expressed. -/
structure KeepsClauses (statement : SqlStatement (Ast.Clause Ast.Definition)) : Prop where
  kept : Kept G (Ast.statementQueries statement)
  expressible : Expressible G statement

end Reads

/-! ## What is read so is converted so -/

section Converted

variable {G : Grammar}

@[simp] theorem kept_nil : Kept G [] := by simp [Kept]

@[simp] theorem kept_append {queries others : List Ast.Query} :
    Kept G (queries ++ others) ↔ Kept G queries ∧ Kept G others := List.forall_mem_append

@[simp] theorem kept_cons {query : Ast.Query} {queries : List Ast.Query} :
    Kept G (query :: queries) ↔ Repeated G query query.innermost ∧ Kept G queries :=
  List.forall_mem_cons

theorem NoLarger.refl (limit : Option Nat) : NoLarger limit limit :=
  fun n hlimit => ⟨n, hlimit, Nat.le_refl n⟩

theorem readsBinary_iff {op : Ast.BinaryOperator} {result : BinaryOp} :
    ReadsBinary op result ↔ convertBinaryOp op = .ok result := by
  constructor
  · rintro ⟨⟩ <;> rfl
  · intro h
    cases op <;> cases h <;> constructor

theorem readsUnary_iff {op : Ast.UnaryOperator} {result : UnaryOp} :
    ReadsUnary op result ↔ convertUnaryOp op = .ok result := by
  constructor
  · rintro ⟨⟩ <;> rfl
  · intro h
    cases op <;> cases h <;> constructor

theorem readsAggregate_iff {name : String} {function : AggregateFunction} :
    ReadsAggregate name function ↔ convertAggregate name = .ok function := by
  constructor
  · rintro ⟨⟩ <;> rfl
  · intro h
    unfold convertAggregate at h
    split_ifs at h with hcount hsum havg hmax hmin <;> cases h <;> subst name <;> constructor

theorem readsLiteral_iff {value : Ast.Literal} {result : Expr} :
    ReadsLiteral G value result ↔ convertExpr G (.value value) = .ok result := by
  constructor
  · intro h
    cases h with
    | float hmark hparse => simp [convertExpr, convertValue, hmark, hparse, Except.map]
    | integer hmark hparse => simp [convertExpr, convertValue, hmark, hparse, Except.map]
    | _ => rfl
  · intro h
    cases value with
    | number text =>
      rw [convertExpr] at h
      · obtain ⟨value, hvalue, rfl⟩ := Result.map_eq_ok.mp h
        rw [convertValue] at hvalue
        split_ifs at hvalue with hmark
        · split at hvalue
          · rename_i x hparse
            cases hvalue
            exact .float hmark hparse
          · cases hvalue
        · split at hvalue
          · rename_i n hparse
            cases hvalue
            exact .integer (by simpa using hmark) hparse
          · cases hvalue
      · exact nofun
    | other display => cases h
    | _ =>
      cases h
      constructor

/-- The conversion of a function of one expression. -/
theorem convertExpr_function (name : Ast.ObjectName) (expr : Ast.Expr) (distinct : Bool) :
    convertExpr G (.function name false (.list [.expr expr] distinct)) =
      if objectName name = "values" then
        match expr with
        | .identifier column => .ok (.incoming (toAsciiLowercase column))
        | _ => .error "VALUES() requires one column argument"
      else convertAggregate (objectName name) >>= fun function =>
        convertExpr G expr >>= fun expr =>
        pure (.aggregate function (some expr) distinct) := by
  cases expr <;> simp [convertExpr]

theorem convertExpr_count {name : Ast.ObjectName} (distinct : Bool)
    (hname : objectName name = "count") :
    convertExpr G (.function name false (.list [.wildcard] distinct)) =
      .ok (.aggregate .count none distinct) := by
  simp [convertExpr, hname, convertAggregate]

/-- A query that is read is read by its innermost query. -/
theorem readsQuery_innermost (query : Ast.Query) {result : Query}
    (h : ReadsQuery G query result) :
    ReadsWith G query.innermost.withClause result.ctes ∧
      ReadsOrderBy G query.innermost.orderBy result.orderBy ∧
      ReadsLimit G query.innermost.limit result.limit := by
  match query with
  | .mk withClause (.query inner) orderBy limit limitBy offset fetch =>
    rw [ReadsQuery] at h
    exact readsQuery_innermost inner h.2.2.2.1
  | .mk withClause .other orderBy limit limitBy offset fetch =>
    rw [ReadsQuery] at h
    exact h.2.2.2.elim
  | .mk withClause (.select (.mk distinct projection source selection groupBy having)) orderBy
      limit limitBy offset fetch =>
    rw [ReadsQuery] at h
    obtain ⟨-, -, -, -, hctes, -, -, horderBy, hlimit, -⟩ := h
    exact ⟨hctes, horderBy, hlimit⟩

mutual

/-- **An expression is converted to what it says**, and its queries keep their clauses. -/
theorem convertExpr_of_reads (expr : Ast.Expr) {result : Expr} (h : ReadsExpr G expr result) :
    convertExpr G expr = .ok result ∧ Kept G (Ast.exprQueries expr) := by
  match expr with
  | .identifier name =>
    rw [ReadsExpr] at h
    subst h
    exact ⟨by rw [convertExpr], by simp [Ast.exprQueries]⟩
  | .compoundIdentifier names =>
    rw [ReadsExpr] at h
    obtain ⟨qualifier, name, rfl, rfl⟩ := h
    exact ⟨by rw [convertExpr], by simp [Ast.exprQueries]⟩
  | .value value =>
    rw [ReadsExpr] at h
    exact ⟨readsLiteral_iff.mp h, by simp [Ast.exprQueries]⟩
  | .nested expr =>
    rw [ReadsExpr] at h
    rw [convertExpr, Ast.exprQueries]
    exact convertExpr_of_reads expr h
  | .binaryOp left op right =>
    rw [ReadsExpr] at h
    obtain ⟨left', op', right', hleft, hop, hright, rfl⟩ := h
    obtain ⟨hleft, hleftKept⟩ := convertExpr_of_reads left hleft
    obtain ⟨hright, hrightKept⟩ := convertExpr_of_reads right hright
    rw [convertExpr, hleft, readsBinary_iff.mp hop, hright, Ast.exprQueries, kept_append]
    exact ⟨rfl, hleftKept, hrightKept⟩
  | .unaryOp op expr =>
    rw [ReadsExpr] at h
    obtain ⟨op', expr', hop, hexpr, rfl⟩ := h
    obtain ⟨hexpr, hkept⟩ := convertExpr_of_reads expr hexpr
    rw [convertExpr, readsUnary_iff.mp hop, hexpr, Ast.exprQueries]
    exact ⟨rfl, hkept⟩
  | .isNull expr =>
    rw [ReadsExpr] at h
    obtain ⟨expr', hexpr, rfl⟩ := h
    obtain ⟨hexpr, hkept⟩ := convertExpr_of_reads expr hexpr
    rw [convertExpr, hexpr, Ast.exprQueries]
    exact ⟨rfl, hkept⟩
  | .isNotNull expr =>
    rw [ReadsExpr] at h
    obtain ⟨expr', hexpr, rfl⟩ := h
    obtain ⟨hexpr, hkept⟩ := convertExpr_of_reads expr hexpr
    rw [convertExpr, hexpr, Ast.exprQueries]
    exact ⟨rfl, hkept⟩
  | .like negated any expr pattern escapeChar =>
    rw [ReadsExpr] at h
    obtain ⟨rfl, rfl, expr', pattern', hexpr, hpattern, rfl⟩ := h
    obtain ⟨hexpr, hexprKept⟩ := convertExpr_of_reads expr hexpr
    obtain ⟨hpattern, hpatternKept⟩ := convertExpr_of_reads pattern hpattern
    rw [convertExpr, hexpr, hpattern, Ast.exprQueries, kept_append]
    exact ⟨rfl, hexprKept, hpatternKept⟩
  | .inList expr list negated =>
    rw [ReadsExpr] at h
    obtain ⟨expr', list', hexpr, hlist, rfl⟩ := h
    obtain ⟨hexpr, hexprKept⟩ := convertExpr_of_reads expr hexpr
    obtain ⟨hlist, hlistKept⟩ := convertExprs_of_reads list hlist
    rw [convertExpr, hexpr, hlist, Ast.exprQueries, kept_append]
    exact ⟨rfl, hexprKept, hlistKept⟩
  | .inSubquery expr subquery negated =>
    rw [ReadsExpr] at h
    obtain ⟨expr', query', hexpr, hquery, rfl⟩ := h
    obtain ⟨hexpr, hexprKept⟩ := convertExpr_of_reads expr hexpr
    obtain ⟨hquery, hqueryKept⟩ := convertQuery_of_reads subquery hquery
    rw [convertExpr, hexpr, hquery, Ast.exprQueries, kept_append]
    exact ⟨rfl, hexprKept, hqueryKept⟩
  | .exist subquery negated =>
    rw [ReadsExpr] at h
    obtain ⟨query', hquery, rfl⟩ := h
    obtain ⟨hquery, hkept⟩ := convertQuery_of_reads subquery hquery
    rw [convertExpr, hquery, Ast.exprQueries]
    exact ⟨rfl, hkept⟩
  | .subquery query =>
    rw [ReadsExpr] at h
    obtain ⟨query', hquery, rfl⟩ := h
    obtain ⟨hquery, hkept⟩ := convertQuery_of_reads query hquery
    rw [convertExpr, hquery, Ast.exprQueries]
    exact ⟨rfl, hkept⟩
  | .function name window (.list [.expr expr] distinct) =>
    rw [ReadsExpr] at h
    obtain ⟨rfl, h⟩ := h
    rw [convertExpr_function, Ast.exprQueries]
    split_ifs at h ⊢ with hvalues
    · obtain ⟨column, rfl, rfl⟩ := h
      exact ⟨rfl, by simp [Ast.exprQueries]⟩
    · obtain ⟨function, expr', hfunction, hexpr, rfl⟩ := h
      obtain ⟨hexpr, hkept⟩ := convertExpr_of_reads expr hexpr
      rw [readsAggregate_iff.mp hfunction, hexpr]
      exact ⟨rfl, hkept⟩
  | .function name window (.list [.wildcard] distinct) =>
    rw [ReadsExpr] at h
    obtain ⟨rfl, hcount, rfl⟩ := h
    exact ⟨convertExpr_count distinct hcount, by simp [Ast.exprQueries]⟩
  | .function name window (.list [.other] distinct) => simp [ReadsExpr] at h
  | .function name window (.list [] distinct) => simp [ReadsExpr] at h
  | .function name window (.list (_ :: _ :: _) distinct) => simp [ReadsExpr] at h
  | .function name window .other => simp [ReadsExpr] at h
  | .other =>
    rw [ReadsExpr] at h
    exact h.elim

theorem convertExprs_of_reads (exprs : List Ast.Expr) {result : List Expr}
    (h : ReadsExprs G exprs result) :
    convertExprs G exprs = .ok result ∧ Kept G (Ast.exprsQueries exprs) := by
  match exprs with
  | [] =>
    rw [ReadsExprs] at h
    subst h
    exact ⟨by rw [convertExprs], by simp [Ast.exprsQueries]⟩
  | expr :: exprs =>
    rw [ReadsExprs] at h
    obtain ⟨expr', exprs', hexpr, hexprs, rfl⟩ := h
    obtain ⟨hexpr, hexprKept⟩ := convertExpr_of_reads expr hexpr
    obtain ⟨hexprs, hexprsKept⟩ := convertExprs_of_reads exprs hexprs
    rw [convertExprs, hexpr, hexprs, Ast.exprsQueries, kept_append]
    exact ⟨rfl, hexprKept, hexprsKept⟩

theorem convertOption_of_reads (expr : Option Ast.Expr) {result : Option Expr}
    (h : ReadsOption G expr result) :
    convertOption G expr = .ok result ∧ Kept G (Ast.optionQueries expr) := by
  match expr with
  | none =>
    rw [ReadsOption] at h
    subst h
    exact ⟨by rw [convertOption], by simp [Ast.optionQueries]⟩
  | some expr =>
    rw [ReadsOption] at h
    obtain ⟨expr', hexpr, rfl⟩ := h
    obtain ⟨hexpr, hkept⟩ := convertExpr_of_reads expr hexpr
    rw [convertOption, hexpr, Ast.optionQueries]
    exact ⟨rfl, hkept⟩

theorem convertSelectItems_of_reads (items : List Ast.SelectItem) {result : List SelectItem}
    (h : ReadsItems G items result) :
    convertSelectItems G items = .ok result ∧ Kept G (Ast.itemsQueries items) := by
  match items with
  | [] =>
    rw [ReadsItems] at h
    subst h
    exact ⟨by rw [convertSelectItems], by simp [Ast.itemsQueries]⟩
  | item :: items =>
    rw [ReadsItems] at h
    obtain ⟨item', items', hitem, hitems, rfl⟩ := h
    obtain ⟨hitem, hitemKept⟩ := convertSelectItem_of_reads item hitem
    obtain ⟨hitems, hitemsKept⟩ := convertSelectItems_of_reads items hitems
    rw [convertSelectItems, hitem, hitems, Ast.itemsQueries, kept_append]
    exact ⟨rfl, hitemKept, hitemsKept⟩

theorem convertSelectItem_of_reads (item : Ast.SelectItem) {result : SelectItem}
    (h : ReadsItem G item result) :
    convertSelectItem G item = .ok result ∧ Kept G (Ast.itemQueries item) := by
  match item with
  | .wildcard plain =>
    rw [ReadsItem] at h
    obtain ⟨rfl, rfl⟩ := h
    exact ⟨by rw [convertSelectItem], by simp [Ast.itemQueries]⟩
  | .qualifiedWildcard name plain =>
    rw [ReadsItem] at h
    obtain ⟨rfl, rfl⟩ := h
    exact ⟨by rw [convertSelectItem], by simp [Ast.itemQueries]⟩
  | .unnamedExpr expr =>
    rw [ReadsItem] at h
    obtain ⟨expr', hexpr, rfl⟩ := h
    obtain ⟨hexpr, hkept⟩ := convertExpr_of_reads expr hexpr
    rw [convertSelectItem, hexpr, Ast.itemQueries]
    exact ⟨rfl, hkept⟩
  | .exprWithAlias expr asName =>
    rw [ReadsItem] at h
    obtain ⟨expr', hexpr, rfl⟩ := h
    obtain ⟨hexpr, hkept⟩ := convertExpr_of_reads expr hexpr
    rw [convertSelectItem, hexpr, Ast.itemQueries]
    exact ⟨rfl, hkept⟩

theorem convertTableSource_of_reads (table : Ast.TableFactor) {result : TableSource}
    (h : ReadsTable G table result) :
    convertTableSource G table = .ok result ∧ Kept G (Ast.tableQueries table) := by
  match table with
  | .table name asName args =>
    rw [ReadsTable] at h
    obtain ⟨rfl, rfl⟩ := h
    exact ⟨by rw [convertTableSource], by simp [Ast.tableQueries]⟩
  | .derived lateral subquery asName =>
    rw [ReadsTable] at h
    obtain ⟨rfl, name, query', rfl, hquery, rfl⟩ := h
    obtain ⟨hquery, hkept⟩ := convertQuery_of_reads subquery hquery
    rw [convertTableSource, hquery, Ast.tableQueries]
    exact ⟨rfl, hkept⟩
  | .other =>
    rw [ReadsTable] at h
    exact h.elim

theorem convertConstraint_of_reads (constraint : Ast.JoinConstraint) {result : Option Expr}
    (h : ReadsConstraint G constraint result) :
    convertConstraint G constraint = .ok result ∧ Kept G (Ast.constraintQueries constraint) := by
  match constraint with
  | .none =>
    rw [ReadsConstraint] at h
    subst h
    exact ⟨by rw [convertConstraint], by simp [Ast.constraintQueries]⟩
  | .on expr =>
    rw [ReadsConstraint] at h
    obtain ⟨expr', hexpr, rfl⟩ := h
    obtain ⟨hexpr, hkept⟩ := convertExpr_of_reads expr hexpr
    rw [convertConstraint, hexpr, Ast.constraintQueries]
    exact ⟨rfl, hkept⟩
  | .using =>
    rw [ReadsConstraint] at h
    exact h.elim
  | .natural =>
    rw [ReadsConstraint] at h
    exact h.elim

theorem convertJoinOperator_of_reads (joinOperator : Ast.JoinOperator) {joinType : JoinType}
    {on : Option Expr} (h : ReadsOperator G joinOperator joinType on) :
    convertJoinOperator G joinOperator = .ok (joinType, on) ∧
      Kept G (Ast.operatorQueries joinOperator) := by
  match joinOperator with
  | .inner constraint =>
    rw [ReadsOperator] at h
    obtain ⟨rfl, hconstraint⟩ := h
    obtain ⟨hon, hkept⟩ := convertConstraint_of_reads constraint hconstraint
    rw [convertJoinOperator, hon, Ast.operatorQueries]
    exact ⟨rfl, hkept⟩
  | .leftOuter constraint =>
    rw [ReadsOperator] at h
    obtain ⟨rfl, hconstraint⟩ := h
    obtain ⟨hon, hkept⟩ := convertConstraint_of_reads constraint hconstraint
    rw [convertJoinOperator, hon, Ast.operatorQueries]
    exact ⟨rfl, hkept⟩
  | .rightOuter constraint =>
    rw [ReadsOperator] at h
    obtain ⟨rfl, hconstraint⟩ := h
    obtain ⟨hon, hkept⟩ := convertConstraint_of_reads constraint hconstraint
    rw [convertJoinOperator, hon, Ast.operatorQueries]
    exact ⟨rfl, hkept⟩
  | .crossJoin =>
    rw [ReadsOperator] at h
    obtain ⟨rfl, rfl⟩ := h
    exact ⟨by rw [convertJoinOperator], by simp [Ast.operatorQueries]⟩
  | .fullOuter =>
    rw [ReadsOperator] at h
    exact h.elim
  | .other =>
    rw [ReadsOperator] at h
    exact h.elim

theorem convertJoins_of_reads (joins : List Ast.Join) {result : List Join}
    (h : ReadsJoins G joins result) :
    convertJoins G joins = .ok result ∧ Kept G (Ast.joinsQueries joins) := by
  match joins with
  | [] =>
    rw [ReadsJoins] at h
    subst h
    exact ⟨by rw [convertJoins], by simp [Ast.joinsQueries]⟩
  | .mk relation joinOperator :: joins =>
    rw [ReadsJoins] at h
    obtain ⟨joinType, on, source', joins', hoperator, hsource, hjoins, rfl⟩ := h
    obtain ⟨hoperator, hoperatorKept⟩ := convertJoinOperator_of_reads joinOperator hoperator
    obtain ⟨hsource, hsourceKept⟩ := convertTableSource_of_reads relation hsource
    obtain ⟨hjoins, hjoinsKept⟩ := convertJoins_of_reads joins hjoins
    rw [convertJoins, hoperator, Result.ok_bind, hsource, hjoins, Ast.joinsQueries, kept_append,
      kept_append]
    exact ⟨rfl, ⟨hoperatorKept, hsourceKept⟩, hjoinsKept⟩

theorem convertOrderKeys_of_reads (keys : List Ast.OrderByExpr) {result : List OrderBy}
    (h : ReadsKeys G keys result) :
    convertOrderKeys G keys = .ok result ∧ Kept G (Ast.keysQueries keys) := by
  match keys with
  | [] =>
    rw [ReadsKeys] at h
    subst h
    exact ⟨by rw [convertOrderKeys], by simp [Ast.keysQueries]⟩
  | .mk expr asc nullsFirst withFill :: keys =>
    rw [ReadsKeys] at h
    obtain ⟨expr', keys', hexpr, -, -, hkeys, rfl⟩ := h
    obtain ⟨hexpr, hexprKept⟩ := convertExpr_of_reads expr hexpr
    obtain ⟨hkeys, hkeysKept⟩ := convertOrderKeys_of_reads keys hkeys
    rw [convertOrderKeys, hexpr, hkeys, Ast.keysQueries, kept_append]
    exact ⟨rfl, hexprKept, hkeysKept⟩

theorem convertOrderBy_of_reads (orderBy : Option Ast.OrderBy) {result : List OrderBy}
    (h : ReadsOrderBy G orderBy result) :
    convertOrderBy G orderBy = .ok result ∧ Kept G (Ast.orderByQueries orderBy) := by
  match orderBy with
  | none =>
    rw [ReadsOrderBy] at h
    subst h
    exact ⟨by rw [convertOrderBy], by simp [Ast.orderByQueries]⟩
  | some (.mk exprs interpolate) =>
    rw [ReadsOrderBy] at h
    rw [convertOrderBy, Ast.orderByQueries]
    exact convertOrderKeys_of_reads exprs h.2

theorem convertLimit_of_reads (limit : Option Ast.Expr) {result : Option Nat}
    (h : ReadsLimit G limit result) :
    convertLimit G limit = .ok result ∧ Kept G (Ast.optionQueries limit) := by
  match limit with
  | none =>
    rw [ReadsLimit] at h
    subst h
    exact ⟨by rw [convertLimit], by simp [Ast.optionQueries]⟩
  | some expr =>
    rw [ReadsLimit] at h
    obtain ⟨value, hexpr, hpositive, rfl⟩ := h
    obtain ⟨hexpr, hkept⟩ := convertExpr_of_reads expr hexpr
    rw [convertLimit, hexpr, Ast.optionQueries]
    exact ⟨if_pos hpositive, hkept⟩

theorem convertCtes_of_reads (ctes : List Ast.Cte) {result : List Cte}
    (h : ReadsCtes G ctes result) :
    convertCtes G ctes = .ok result ∧ Kept G (Ast.ctesQueries ctes) := by
  match ctes with
  | [] =>
    rw [ReadsCtes] at h
    subst h
    exact ⟨by rw [convertCtes], by simp [Ast.ctesQueries]⟩
  | .mk name columns query :: ctes =>
    rw [ReadsCtes] at h
    obtain ⟨query', ctes', hquery, hctes, rfl⟩ := h
    obtain ⟨hquery, hqueryKept⟩ := convertQuery_of_reads query hquery
    obtain ⟨hctes, hctesKept⟩ := convertCtes_of_reads ctes hctes
    rw [convertCtes, hquery, hctes, Ast.ctesQueries, kept_append]
    exact ⟨rfl, hqueryKept, hctesKept⟩

theorem convertWith_of_reads (withClause : Option Ast.With) {result : List Cte}
    (h : ReadsWith G withClause result) :
    convertWith G withClause = .ok result ∧ Kept G (Ast.withQueries withClause) := by
  match withClause with
  | none =>
    rw [ReadsWith] at h
    subst h
    exact ⟨by rw [convertWith], by simp [Ast.withQueries]⟩
  | some (.mk recursive cteTables) =>
    rw [ReadsWith] at h
    obtain ⟨rfl, h⟩ := h
    rw [convertWith, Ast.withQueries, if_neg Bool.false_ne_true]
    exact convertCtes_of_reads cteTables h

theorem convertGroupBy_of_reads (groupBy : Ast.GroupByExpr) {result : List Expr}
    (h : ReadsGroupBy G groupBy result) :
    convertGroupBy G groupBy = .ok result ∧ Kept G (Ast.groupByQueries groupBy) := by
  match groupBy with
  | .all =>
    rw [ReadsGroupBy] at h
    exact h.elim
  | .expressions exprs modifiers =>
    rw [ReadsGroupBy] at h
    obtain ⟨rfl, h⟩ := h
    rw [convertGroupBy, Ast.groupByQueries]
    exact convertExprs_of_reads exprs h

theorem convertFrom_of_reads (tables : List Ast.TableWithJoins) {source : Option TableSource}
    {joins : List Join} (h : ReadsFrom G tables source joins) :
    convertFrom G tables = .ok (source, joins) ∧ Kept G (Ast.fromQueries tables) := by
  match tables with
  | [] =>
    rw [ReadsFrom] at h
    obtain ⟨rfl, rfl⟩ := h
    exact ⟨by rw [convertFrom], by simp [Ast.fromQueries]⟩
  | [.mk relation joined] =>
    rw [ReadsFrom] at h
    obtain ⟨source', hsource, rfl, hjoins⟩ := h
    obtain ⟨hsource, hsourceKept⟩ := convertTableSource_of_reads relation hsource
    obtain ⟨hjoins, hjoinsKept⟩ := convertJoins_of_reads joined hjoins
    rw [convertFrom, hsource, hjoins, Ast.fromQueries, kept_append]
    exact ⟨rfl, hsourceKept, hjoinsKept⟩
  | _ :: _ :: _ =>
    rw [ReadsFrom] at h
    · exact h.elim
    · exact nofun
    · exact nofun

/-- **A query is converted to what it says**, and in it and in the queries inside of it the
parentheses repeat the clauses around them. -/
theorem convertQuery_of_reads (query : Ast.Query) {result : Query}
    (h : ReadsQuery G query result) :
    convertQuery G query = .ok result ∧ Kept G (Ast.queryQueries query) := by
  match query with
  | .mk withClause (.query inner) orderBy limit limitBy offset fetch =>
    rw [ReadsQuery] at h
    obtain ⟨rfl, rfl, rfl, hinner, ⟨ctes, hctes, hfirst⟩, horderBy, bound, hbound, hlarger⟩ := h
    obtain ⟨hquery, hinnerKept⟩ := convertQuery_of_reads inner hinner
    obtain ⟨hwith, hwithKept⟩ := convertWith_of_reads withClause hctes
    obtain ⟨-, hlimitKept⟩ := convertLimit_of_reads limit hbound
    obtain ⟨hinnerCtes, hinnerOrder, hinnerLimit⟩ := readsQuery_innermost inner hinner
    have horderKept : Kept G (Ast.orderByQueries orderBy) := by
      rcases horderBy with rfl | horderBy
      · simp [Ast.orderByQueries]
      · exact (convertOrderBy_of_reads orderBy horderBy).2
    refine ⟨?_, ?_⟩
    · rw [convertQuery, hwith]
      exact hquery
    · simp only [Ast.queryQueries, kept_cons, kept_append]
      exact ⟨⟨⟨ctes, result.ctes, hctes, hinnerCtes, hfirst⟩,
        horderBy.imp_right fun horderBy => ⟨result.orderBy, horderBy, hinnerOrder⟩,
        bound, result.limit, hbound, hinnerLimit, hlarger⟩,
        hwithKept, ⟨hinnerKept, horderKept⟩, hlimitKept⟩
  | .mk withClause .other orderBy limit limitBy offset fetch =>
    rw [ReadsQuery] at h
    exact h.2.2.2.elim
  | .mk withClause (.select (.mk distinct projection source selection groupBy having)) orderBy
      limit limitBy offset fetch =>
    rw [ReadsQuery] at h
    obtain ⟨rfl, rfl, rfl, rfl, hctes, hfrom, hgroupBy, horderBy, hlimit, hprojection,
      hselection, hhaving⟩ := h
    obtain ⟨hwith, hwithKept⟩ := convertWith_of_reads withClause hctes
    obtain ⟨hsource, hsourceKept⟩ := convertFrom_of_reads source hfrom
    obtain ⟨hgroup, hgroupKept⟩ := convertGroupBy_of_reads groupBy hgroupBy
    obtain ⟨horder, horderKept⟩ := convertOrderBy_of_reads orderBy horderBy
    obtain ⟨hrows, hrowsKept⟩ := convertLimit_of_reads limit hlimit
    obtain ⟨hitems, hitemsKept⟩ := convertSelectItems_of_reads projection hprojection
    obtain ⟨hwhere, hwhereKept⟩ := convertOption_of_reads selection hselection
    obtain ⟨hfilter, hfilterKept⟩ := convertOption_of_reads having hhaving
    refine ⟨?_, ?_⟩
    · simp only [convertQuery, hwith, hsource, hgroup, horder, hrows, hitems, hwhere, hfilter,
        Result.ok_bind]
      cases result
      rfl
    · simp only [Ast.queryQueries, kept_cons, kept_append]
      exact ⟨⟨⟨result.ctes, result.ctes, hctes, hctes, List.prefix_refl _⟩,
        Or.inr ⟨result.orderBy, horderBy, horderBy⟩,
        result.limit, result.limit, hlimit, hlimit, NoLarger.refl _⟩,
        hwithKept, ⟨⟨⟨⟨⟨hsourceKept, hgroupKept⟩, horderKept⟩, hrowsKept⟩, hitemsKept⟩,
          hwhereKept⟩, hfilterKept⟩

end

/-! ## What is converted and kept is read so -/

theorem readsWith_unique {withClause : Option Ast.With} {ctes others : List Cte}
    (h : ReadsWith G withClause ctes) (hothers : ReadsWith G withClause others) : ctes = others :=
  Except.ok.inj ((convertWith_of_reads withClause h).1.symm.trans
    (convertWith_of_reads withClause hothers).1)

theorem readsOrderBy_unique {orderBy : Option Ast.OrderBy} {keys others : List OrderBy}
    (h : ReadsOrderBy G orderBy keys) (hothers : ReadsOrderBy G orderBy others) : keys = others :=
  Except.ok.inj ((convertOrderBy_of_reads orderBy h).1.symm.trans
    (convertOrderBy_of_reads orderBy hothers).1)

theorem readsLimit_unique {limit : Option Ast.Expr} {rows others : Option Nat}
    (h : ReadsLimit G limit rows) (hothers : ReadsLimit G limit others) : rows = others :=
  Except.ok.inj ((convertLimit_of_reads limit h).1.symm.trans
    (convertLimit_of_reads limit hothers).1)

/-- The WITH of a repeated level says what it is converted to. -/
theorem Repeated.readsWith {level query : Ast.Query} {ctes : List Cte}
    (h : Repeated G level query) (hctes : convertWith G level.withClause = .ok ctes) :
    ReadsWith G level.withClause ctes := by
  obtain ⟨read, -, hread, -, -⟩ := h.ctes
  rwa [Except.ok.inj (hctes.symm.trans (convertWith_of_reads _ hread).1)]

theorem Repeated.readsOrderBy {level query : Ast.Query} {keys : List OrderBy}
    (h : Repeated G level query) (hkeys : convertOrderBy G level.orderBy = .ok keys) :
    ReadsOrderBy G level.orderBy keys := by
  rcases h.orderBy with hnone | ⟨read, hread, -⟩
  · rw [hnone, convertOrderBy] at hkeys
    cases hkeys
    rw [hnone, ReadsOrderBy]
  · rwa [Except.ok.inj (hkeys.symm.trans (convertOrderBy_of_reads _ hread).1)]

theorem Repeated.readsLimit {level query : Ast.Query} {rows : Option Nat}
    (h : Repeated G level query) (hrows : convertLimit G level.limit = .ok rows) :
    ReadsLimit G level.limit rows := by
  obtain ⟨read, -, hread, -, -⟩ := h.limit
  rwa [Except.ok.inj (hrows.symm.trans (convertLimit_of_reads _ hread).1)]

/-- More than one table behind FROM is refused. -/
theorem convertFrom_length {tables : List Ast.TableWithJoins}
    {converted : Option TableSource × List Join} (h : convertFrom G tables = .ok converted) :
    tables.length ≤ 1 := by
  unfold convertFrom at h
  split at h
  · exact Nat.zero_le 1
  · exact Nat.le_refl 1
  · cases h

/-- A query that is accepted has none of the clauses that are refused. -/
theorem accepted_of_clear {offset fetch limitBy : Bool} {converted : Except String Query}
    {result : Query}
    (h : (if offset || fetch || limitBy then .error "OFFSET/FETCH/LIMIT BY are unsupported"
      else converted) = .ok result) :
    (offset = false ∧ fetch = false ∧ limitBy = false) ∧ converted = .ok result := by
  split_ifs at h with hclauses
  simpa [h, and_assoc] using hclauses

/-- A function that is converted has one argument. -/
theorem convertExpr_arguments {name : Ast.ObjectName} {args : Ast.FunctionArguments}
    {result : Expr} (h : convertExpr G (.function name false args) = .ok result) :
    (∃ expr distinct, args = .list [.expr expr] distinct) ∨
      ∃ distinct, args = .list [.wildcard] distinct := by
  match args with
  | .list [.expr expr] distinct => exact Or.inl ⟨expr, distinct, rfl⟩
  | .list [.wildcard] distinct => exact Or.inr ⟨distinct, rfl⟩
  | .list [] _ | .list [.other] _ | .list (_ :: _ :: _) _ | .other =>
    simp only [convertExpr, Bool.false_eq_true, if_false] at h
    split_ifs at h
    obtain ⟨function, -, h⟩ := Result.bind_eq_ok.mp h
    cases h

mutual

/-- **An expression says what it is converted to** when its queries keep their clauses. -/
theorem readsExpr_of_kept (expr : Ast.Expr) {result : Expr} (h : convertExpr G expr = .ok result)
    (hkept : Kept G (Ast.exprQueries expr)) : ReadsExpr G expr result := by
  match expr with
  | .identifier name =>
    rw [convertExpr] at h
    cases h
    rw [ReadsExpr]
  | .compoundIdentifier [qualifier, name] =>
    rw [convertExpr] at h
    cases h
    rw [ReadsExpr]
    exact ⟨qualifier, name, rfl, rfl⟩
  | .compoundIdentifier [] => simp [convertExpr] at h
  | .compoundIdentifier [_] => simp [convertExpr] at h
  | .compoundIdentifier (_ :: _ :: _ :: _) => simp [convertExpr] at h
  | .value value =>
    rw [ReadsExpr]
    exact readsLiteral_iff.mpr h
  | .nested expr =>
    rw [convertExpr] at h
    rw [Ast.exprQueries] at hkept
    rw [ReadsExpr]
    exact readsExpr_of_kept expr h hkept
  | .binaryOp left op right =>
    rw [convertExpr] at h
    obtain ⟨left', hleft, h⟩ := Result.bind_eq_ok.mp h
    obtain ⟨op', hop, h⟩ := Result.bind_eq_ok.mp h
    obtain ⟨right', hright, h⟩ := Result.bind_eq_ok.mp h
    cases h
    rw [Ast.exprQueries, kept_append] at hkept
    rw [ReadsExpr]
    exact ⟨left', op', right', readsExpr_of_kept left hleft hkept.1, readsBinary_iff.mpr hop,
      readsExpr_of_kept right hright hkept.2, rfl⟩
  | .unaryOp op expr =>
    rw [convertExpr] at h
    obtain ⟨op', hop, h⟩ := Result.bind_eq_ok.mp h
    obtain ⟨expr', hexpr, h⟩ := Result.bind_eq_ok.mp h
    cases h
    rw [Ast.exprQueries] at hkept
    rw [ReadsExpr]
    exact ⟨op', expr', readsUnary_iff.mpr hop, readsExpr_of_kept expr hexpr hkept, rfl⟩
  | .isNull expr =>
    rw [convertExpr] at h
    obtain ⟨expr', hexpr, h⟩ := Result.bind_eq_ok.mp h
    cases h
    rw [Ast.exprQueries] at hkept
    rw [ReadsExpr]
    exact ⟨expr', readsExpr_of_kept expr hexpr hkept, rfl⟩
  | .isNotNull expr =>
    rw [convertExpr] at h
    obtain ⟨expr', hexpr, h⟩ := Result.bind_eq_ok.mp h
    cases h
    rw [Ast.exprQueries] at hkept
    rw [ReadsExpr]
    exact ⟨expr', readsExpr_of_kept expr hexpr hkept, rfl⟩
  | .like negated false expr pattern none =>
    rw [convertExpr] at h
    obtain ⟨expr', hexpr, h⟩ := Result.bind_eq_ok.mp h
    obtain ⟨pattern', hpattern, h⟩ := Result.bind_eq_ok.mp h
    cases h
    rw [Ast.exprQueries, kept_append] at hkept
    rw [ReadsExpr]
    exact ⟨rfl, rfl, expr', pattern', readsExpr_of_kept expr hexpr hkept.1,
      readsExpr_of_kept pattern hpattern hkept.2, rfl⟩
  | .like negated true expr pattern escapeChar => simp [convertExpr] at h
  | .like negated false expr pattern (some escapeChar) => simp [convertExpr] at h
  | .inList expr list negated =>
    rw [convertExpr] at h
    obtain ⟨expr', hexpr, h⟩ := Result.bind_eq_ok.mp h
    obtain ⟨list', hlist, h⟩ := Result.bind_eq_ok.mp h
    cases h
    rw [Ast.exprQueries, kept_append] at hkept
    rw [ReadsExpr]
    exact ⟨expr', list', readsExpr_of_kept expr hexpr hkept.1,
      readsExprs_of_kept list hlist hkept.2, rfl⟩
  | .inSubquery expr subquery negated =>
    rw [convertExpr] at h
    obtain ⟨expr', hexpr, h⟩ := Result.bind_eq_ok.mp h
    obtain ⟨query', hquery, h⟩ := Result.bind_eq_ok.mp h
    cases h
    rw [Ast.exprQueries, kept_append] at hkept
    rw [ReadsExpr]
    exact ⟨expr', query', readsExpr_of_kept expr hexpr hkept.1,
      readsQuery_of_kept subquery hquery hkept.2, rfl⟩
  | .exist subquery negated =>
    rw [convertExpr] at h
    obtain ⟨query', hquery, h⟩ := Result.bind_eq_ok.mp h
    cases h
    rw [Ast.exprQueries] at hkept
    rw [ReadsExpr]
    exact ⟨query', readsQuery_of_kept subquery hquery hkept, rfl⟩
  | .subquery query =>
    rw [convertExpr] at h
    obtain ⟨query', hquery, h⟩ := Result.bind_eq_ok.mp h
    cases h
    rw [Ast.exprQueries] at hkept
    rw [ReadsExpr]
    exact ⟨query', readsQuery_of_kept query hquery hkept, rfl⟩
  | .function name true args =>
    unfold convertExpr at h
    cases h
  | .function name false (.list [.expr expr] distinct) =>
    rw [convertExpr_function] at h
    rw [Ast.exprQueries] at hkept
    rw [ReadsExpr]
    refine ⟨rfl, ?_⟩
    split_ifs at h ⊢ with hvalues
    · split at h
      · rename_i column
        cases h
        exact ⟨column, rfl, rfl⟩
      · cases h
    · obtain ⟨function, hfunction, h⟩ := Result.bind_eq_ok.mp h
      obtain ⟨expr', hexpr, h⟩ := Result.bind_eq_ok.mp h
      cases h
      exact ⟨function, expr', readsAggregate_iff.mpr hfunction,
        readsExpr_of_kept expr hexpr hkept, rfl⟩
  | .function name false (.list [.wildcard] distinct) =>
    have hcount : objectName name = "count" := by
      by_contra hother
      simp only [convertExpr, Bool.false_eq_true, if_false, convertAggregate, hother] at h
      split_ifs at h <;> cases h
    rw [convertExpr_count distinct hcount] at h
    cases h
    rw [ReadsExpr]
    exact ⟨rfl, hcount, rfl⟩
  | .function name false (.list [.other] distinct) => simpa using convertExpr_arguments h
  | .function name false (.list [] distinct) => simpa using convertExpr_arguments h
  | .function name false (.list (_ :: _ :: _) distinct) => simpa using convertExpr_arguments h
  | .function name false .other => simpa using convertExpr_arguments h
  | .other => simp [convertExpr] at h

theorem readsExprs_of_kept (exprs : List Ast.Expr) {result : List Expr}
    (h : convertExprs G exprs = .ok result) (hkept : Kept G (Ast.exprsQueries exprs)) :
    ReadsExprs G exprs result := by
  match exprs with
  | [] =>
    rw [convertExprs] at h
    cases h
    rw [ReadsExprs]
  | expr :: exprs =>
    rw [convertExprs] at h
    obtain ⟨expr', hexpr, h⟩ := Result.bind_eq_ok.mp h
    obtain ⟨exprs', hexprs, h⟩ := Result.bind_eq_ok.mp h
    cases h
    rw [Ast.exprsQueries, kept_append] at hkept
    rw [ReadsExprs]
    exact ⟨expr', exprs', readsExpr_of_kept expr hexpr hkept.1,
      readsExprs_of_kept exprs hexprs hkept.2, rfl⟩

theorem readsOption_of_kept (expr : Option Ast.Expr) {result : Option Expr}
    (h : convertOption G expr = .ok result) (hkept : Kept G (Ast.optionQueries expr)) :
    ReadsOption G expr result := by
  match expr with
  | none =>
    rw [convertOption] at h
    cases h
    rw [ReadsOption]
  | some expr =>
    rw [convertOption] at h
    obtain ⟨expr', hexpr, h⟩ := Result.bind_eq_ok.mp h
    cases h
    rw [Ast.optionQueries] at hkept
    rw [ReadsOption]
    exact ⟨expr', readsExpr_of_kept expr hexpr hkept, rfl⟩

theorem readsItems_of_kept (items : List Ast.SelectItem) {result : List SelectItem}
    (h : convertSelectItems G items = .ok result) (hkept : Kept G (Ast.itemsQueries items)) :
    ReadsItems G items result := by
  match items with
  | [] =>
    rw [convertSelectItems] at h
    cases h
    rw [ReadsItems]
  | item :: items =>
    rw [convertSelectItems] at h
    obtain ⟨item', hitem, h⟩ := Result.bind_eq_ok.mp h
    obtain ⟨items', hitems, h⟩ := Result.bind_eq_ok.mp h
    cases h
    rw [Ast.itemsQueries, kept_append] at hkept
    rw [ReadsItems]
    exact ⟨item', items', readsItem_of_kept item hitem hkept.1,
      readsItems_of_kept items hitems hkept.2, rfl⟩

theorem readsItem_of_kept (item : Ast.SelectItem) {result : SelectItem}
    (h : convertSelectItem G item = .ok result) (hkept : Kept G (Ast.itemQueries item)) :
    ReadsItem G item result := by
  match item with
  | .wildcard true =>
    rw [convertSelectItem] at h
    cases h
    rw [ReadsItem]
    exact ⟨rfl, rfl⟩
  | .wildcard false => simp [convertSelectItem] at h
  | .qualifiedWildcard name true =>
    rw [convertSelectItem] at h
    cases h
    rw [ReadsItem]
    exact ⟨rfl, rfl⟩
  | .qualifiedWildcard name false => simp [convertSelectItem] at h
  | .unnamedExpr expr =>
    rw [convertSelectItem] at h
    obtain ⟨expr', hexpr, h⟩ := Result.bind_eq_ok.mp h
    cases h
    rw [Ast.itemQueries] at hkept
    rw [ReadsItem]
    exact ⟨expr', readsExpr_of_kept expr hexpr hkept, rfl⟩
  | .exprWithAlias expr asName =>
    rw [convertSelectItem] at h
    obtain ⟨expr', hexpr, h⟩ := Result.bind_eq_ok.mp h
    cases h
    rw [Ast.itemQueries] at hkept
    rw [ReadsItem]
    exact ⟨expr', readsExpr_of_kept expr hexpr hkept, rfl⟩

theorem readsTable_of_kept (table : Ast.TableFactor) {result : TableSource}
    (h : convertTableSource G table = .ok result) (hkept : Kept G (Ast.tableQueries table)) :
    ReadsTable G table result := by
  match table with
  | .table name asName false =>
    rw [convertTableSource] at h
    cases h
    rw [ReadsTable]
    exact ⟨rfl, rfl⟩
  | .table name asName true => simp [convertTableSource] at h
  | .derived false subquery (some asName) =>
    rw [convertTableSource] at h
    obtain ⟨query', hquery, h⟩ := Result.bind_eq_ok.mp h
    cases h
    rw [Ast.tableQueries] at hkept
    rw [ReadsTable]
    exact ⟨rfl, asName, query', rfl, readsQuery_of_kept subquery hquery hkept, rfl⟩
  | .derived true subquery asName => simp [convertTableSource] at h
  | .derived false subquery none => simp [convertTableSource] at h
  | .other => simp [convertTableSource] at h

theorem readsConstraint_of_kept (constraint : Ast.JoinConstraint) {result : Option Expr}
    (h : convertConstraint G constraint = .ok result)
    (hkept : Kept G (Ast.constraintQueries constraint)) :
    ReadsConstraint G constraint result := by
  match constraint with
  | .none =>
    rw [convertConstraint] at h
    cases h
    rw [ReadsConstraint]
  | .on expr =>
    rw [convertConstraint] at h
    obtain ⟨expr', hexpr, h⟩ := Result.bind_eq_ok.mp h
    cases h
    rw [Ast.constraintQueries] at hkept
    rw [ReadsConstraint]
    exact ⟨expr', readsExpr_of_kept expr hexpr hkept, rfl⟩
  | .using => simp [convertConstraint] at h
  | .natural => simp [convertConstraint] at h

theorem readsOperator_of_kept (joinOperator : Ast.JoinOperator) {joinType : JoinType}
    {on : Option Expr} (h : convertJoinOperator G joinOperator = .ok (joinType, on))
    (hkept : Kept G (Ast.operatorQueries joinOperator)) :
    ReadsOperator G joinOperator joinType on := by
  match joinOperator with
  | .inner constraint =>
    rw [convertJoinOperator] at h
    obtain ⟨on', hon, h⟩ := Result.bind_eq_ok.mp h
    cases h
    rw [Ast.operatorQueries] at hkept
    rw [ReadsOperator]
    exact ⟨rfl, readsConstraint_of_kept constraint hon hkept⟩
  | .leftOuter constraint =>
    rw [convertJoinOperator] at h
    obtain ⟨on', hon, h⟩ := Result.bind_eq_ok.mp h
    cases h
    rw [Ast.operatorQueries] at hkept
    rw [ReadsOperator]
    exact ⟨rfl, readsConstraint_of_kept constraint hon hkept⟩
  | .rightOuter constraint =>
    rw [convertJoinOperator] at h
    obtain ⟨on', hon, h⟩ := Result.bind_eq_ok.mp h
    cases h
    rw [Ast.operatorQueries] at hkept
    rw [ReadsOperator]
    exact ⟨rfl, readsConstraint_of_kept constraint hon hkept⟩
  | .crossJoin =>
    rw [convertJoinOperator] at h
    cases h
    rw [ReadsOperator]
    exact ⟨rfl, rfl⟩
  | .fullOuter => simp [convertJoinOperator] at h
  | .other => simp [convertJoinOperator] at h

theorem readsJoins_of_kept (joins : List Ast.Join) {result : List Join}
    (h : convertJoins G joins = .ok result) (hkept : Kept G (Ast.joinsQueries joins)) :
    ReadsJoins G joins result := by
  match joins with
  | [] =>
    rw [convertJoins] at h
    cases h
    rw [ReadsJoins]
  | .mk relation joinOperator :: joins =>
    rw [convertJoins] at h
    obtain ⟨⟨joinType, on⟩, hoperator, h⟩ := Result.bind_eq_ok.mp h
    obtain ⟨source', hsource, h⟩ := Result.bind_eq_ok.mp h
    obtain ⟨joins', hjoins, h⟩ := Result.bind_eq_ok.mp h
    cases h
    rw [Ast.joinsQueries, kept_append, kept_append] at hkept
    rw [ReadsJoins]
    exact ⟨joinType, on, source', joins',
      readsOperator_of_kept joinOperator hoperator hkept.1.1,
      readsTable_of_kept relation hsource hkept.1.2, readsJoins_of_kept joins hjoins hkept.2, rfl⟩

theorem readsGroupBy_of_kept (groupBy : Ast.GroupByExpr) {result : List Expr}
    (h : convertGroupBy G groupBy = .ok result) (hkept : Kept G (Ast.groupByQueries groupBy)) :
    ReadsGroupBy G groupBy result := by
  match groupBy with
  | .all => simp [convertGroupBy] at h
  | .expressions exprs false =>
    rw [convertGroupBy] at h
    rw [Ast.groupByQueries] at hkept
    rw [ReadsGroupBy]
    exact ⟨rfl, readsExprs_of_kept exprs h hkept⟩
  | .expressions exprs true => simp [convertGroupBy] at h

theorem readsFrom_of_kept (tables : List Ast.TableWithJoins) {source : Option TableSource}
    {joins : List Join} (h : convertFrom G tables = .ok (source, joins))
    (hkept : Kept G (Ast.fromQueries tables)) : ReadsFrom G tables source joins := by
  match tables with
  | [] =>
    rw [convertFrom] at h
    cases h
    rw [ReadsFrom]
    exact ⟨rfl, rfl⟩
  | [.mk relation joined] =>
    rw [convertFrom] at h
    obtain ⟨source', hsource, h⟩ := Result.bind_eq_ok.mp h
    obtain ⟨joins', hjoins, h⟩ := Result.bind_eq_ok.mp h
    cases h
    rw [Ast.fromQueries, kept_append] at hkept
    rw [ReadsFrom]
    exact ⟨source', readsTable_of_kept relation hsource hkept.1, rfl,
      readsJoins_of_kept joined hjoins hkept.2⟩
  | _ :: _ :: _ => exact absurd (convertFrom_length h) (by simp)

/-- **A query says what it is converted to** when, in it and in the queries inside of it, the
parentheses repeat the clauses around them. -/
theorem readsQuery_of_kept (query : Ast.Query) {result : Query}
    (h : convertQuery G query = .ok result) (hkept : Kept G (Ast.queryQueries query)) :
    ReadsQuery G query result := by
  match query with
  | .mk withClause (.query inner) orderBy limit limitBy offset fetch =>
    rw [convertQuery] at h
    obtain ⟨⟨hoffset, hfetch, hlimitBy⟩, h⟩ := accepted_of_clear h
    obtain ⟨_, -, h⟩ := Result.bind_eq_ok.mp h
    simp only [Ast.queryQueries, kept_cons, kept_append] at hkept
    obtain ⟨hrepeated, -, ⟨hinnerKept, -⟩, -⟩ := hkept
    have hinner := readsQuery_of_kept inner h hinnerKept
    obtain ⟨hctes, horderBy, hlimit⟩ := readsQuery_innermost inner hinner
    obtain ⟨ctes, others, hfirst, hothers, hprefix⟩ := hrepeated.ctes
    obtain ⟨bound, rows, hbound, hrows, hlarger⟩ := hrepeated.limit
    rw [ReadsQuery]
    refine ⟨hlimitBy, hoffset, hfetch, hinner, ⟨ctes, hfirst, ?_⟩,
      hrepeated.orderBy.imp_right ?_, bound, hbound, ?_⟩
    · exact readsWith_unique hothers hctes ▸ hprefix
    · rintro ⟨keys, hkeys, hsame⟩
      exact readsOrderBy_unique hsame horderBy ▸ hkeys
    · exact readsLimit_unique hrows hlimit ▸ hlarger
  | .mk withClause .other orderBy limit limitBy offset fetch =>
    rw [convertQuery] at h
    obtain ⟨-, h⟩ := accepted_of_clear h
    obtain ⟨_, -, h⟩ := Result.bind_eq_ok.mp h
    cases h
  | .mk withClause (.select (.mk distinct projection source selection groupBy having)) orderBy
      limit limitBy offset fetch =>
    rw [convertQuery] at h
    obtain ⟨⟨hoffset, hfetch, hlimitBy⟩, h⟩ := accepted_of_clear h
    obtain ⟨ctes, hctes, h⟩ := Result.bind_eq_ok.mp h
    obtain ⟨⟨source', joins'⟩, hsource, h⟩ := Result.bind_eq_ok.mp h
    obtain ⟨groupBy', hgroup, h⟩ := Result.bind_eq_ok.mp h
    obtain ⟨orderBy', horderBy, h⟩ := Result.bind_eq_ok.mp h
    obtain ⟨limit', hlimit, h⟩ := Result.bind_eq_ok.mp h
    obtain ⟨projection', hitems, h⟩ := Result.bind_eq_ok.mp h
    obtain ⟨selection', hwhere, h⟩ := Result.bind_eq_ok.mp h
    obtain ⟨having', hfilter, h⟩ := Result.bind_eq_ok.mp h
    cases h
    simp only [Ast.queryQueries, kept_cons, kept_append] at hkept
    obtain ⟨hrepeated, -, ⟨⟨⟨⟨⟨hsourceKept, hgroupKept⟩, -⟩, -⟩, hitemsKept⟩, hwhereKept⟩,
      hfilterKept⟩ := hkept
    rw [ReadsQuery]
    exact ⟨hlimitBy, hoffset, hfetch, rfl, hrepeated.readsWith hctes,
      readsFrom_of_kept source hsource hsourceKept, readsGroupBy_of_kept groupBy hgroup hgroupKept,
      hrepeated.readsOrderBy horderBy, hrepeated.readsLimit hlimit,
      readsItems_of_kept projection hitems hitemsKept,
      readsOption_of_kept selection hwhere hwhereKept,
      readsOption_of_kept having hfilter hfilterKept⟩

end

/-! ## Statements -/

theorem convertExprs_eq_mapM (exprs : List Ast.Expr) :
    convertExprs G exprs = exprs.mapM (convertExpr G) := by
  induction exprs with
  | nil => rw [convertExprs, List.mapM_nil]; rfl
  | cons expr exprs ih => rw [convertExprs, List.mapM_cons, ih]

theorem convertExprs_nil : convertExprs G [] = .ok [] := by rw [convertExprs]

theorem convertExprs_singleton {expr : Ast.Expr} {result : Expr}
    (h : convertExpr G expr = .ok result) : convertExprs G [expr] = .ok [result] := by
  rw [convertExprs, h, convertExprs_nil]
  rfl

theorem convertExprs_append {exprs others : List Ast.Expr} {results rest : List Expr}
    (h : convertExprs G exprs = .ok results) (hrest : convertExprs G others = .ok rest) :
    convertExprs G (exprs ++ others) = .ok (results ++ rest) := by
  rw [convertExprs_eq_mapM] at h hrest ⊢
  rw [List.mapM_append, h, hrest]
  rfl

/-- When every part has its conditions converted, so has the whole. -/
theorem convertExprs_flatMap {α β : Type} {f : α → Except String β} {checks : α → List Ast.Expr}
    {converted : β → List Expr}
    (hparts : ∀ x y, f x = .ok y → convertExprs G (checks x) = .ok (converted y))
    {xs : List α} {ys : List β} (h : xs.mapM f = .ok ys) :
    convertExprs G (xs.flatMap checks) = .ok (ys.flatMap converted) := by
  induction Result.mapM_eq_ok.mp h with
  | nil => rw [List.flatMap_nil, List.flatMap_nil, convertExprs]
  | cons hxy _ ih =>
    rename_i x y xs ys hrest
    rw [List.flatMap_cons, List.flatMap_cons]
    exact convertExprs_append (hparts x y hxy) (ih (Result.mapM_eq_ok.mpr hrest))

theorem checks_convertForeignKey {name : Option String} {columns : List String}
    {foreignTable : Ast.ObjectName} {referredColumns : List String}
    {onDelete onUpdate : Option Ast.ReferentialAction} {constraint : TableConstraint}
    (h : convertForeignKey name columns foreignTable referredColumns onDelete onUpdate =
      .ok constraint) : constraint.checks = [] := by
  obtain ⟨-, -, h⟩ := Result.bind_eq_ok.mp h
  cases h
  rfl

theorem checks_convertColumnOption {column : ColumnDef} {option : Ast.ColumnOptionDef}
    {converted : ColumnDef × List TableConstraint}
    (h : convertColumnOption G column option = .ok converted) :
    convertExprs G option.option.checks =
      .ok (converted.2.flatMap TableConstraint.checks) := by
  obtain ⟨name, option⟩ := option
  cases option with
  | null =>
    cases h
    exact convertExprs_nil
  | notNull =>
    cases h
    exact convertExprs_nil
  | default expr =>
    obtain ⟨value, -, h⟩ := Result.bind_eq_ok.mp h
    cases h
    exact convertExprs_nil
  | unique isPrimary =>
    cases isPrimary <;> cases h <;> exact convertExprs_nil
  | check expr =>
    obtain ⟨expr', hexpr, h⟩ := Result.bind_eq_ok.mp h
    cases h
    exact convertExprs_singleton hexpr
  | foreignKey foreignTable referredColumns onDelete onUpdate =>
    obtain ⟨constraint, hkey, h⟩ := Result.bind_eq_ok.mp h
    cases h
    rw [List.flatMap_singleton, checks_convertForeignKey hkey]
    exact convertExprs_nil
  | other display => cases h

theorem checks_convertColumnOptions {options : List Ast.ColumnOptionDef} {column : ColumnDef}
    {converted : ColumnDef × List TableConstraint}
    (h : convertColumnOptions G column options = .ok converted) :
    convertExprs G (options.flatMap fun option => option.option.checks) =
      .ok (converted.2.flatMap TableConstraint.checks) := by
  induction options generalizing column converted with
  | nil =>
    cases h
    rw [List.flatMap_nil, List.flatMap_nil, convertExprs]
  | cons option options ih =>
    obtain ⟨⟨first, constraints⟩, hfirst, h⟩ := Result.bind_eq_ok.mp h
    obtain ⟨⟨last, others⟩, hlast, h⟩ := Result.bind_eq_ok.mp h
    cases h
    rw [List.flatMap_cons, List.flatMap_append]
    exact convertExprs_append (checks_convertColumnOption hfirst) (ih hlast)

theorem checks_flagConstraints (column : ColumnDef) :
    (flagConstraints column).flatMap TableConstraint.checks = [] := by
  unfold flagConstraints
  split_ifs <;> rfl

/-- **The conditions of a column** are those of its constraints. -/
theorem checks_convertColumnDef {column : Ast.ColumnDef}
    {converted : ColumnDef × List TableConstraint} (h : convertColumnDef G column = .ok converted) :
    convertExprs G column.checks = .ok (converted.2.flatMap TableConstraint.checks) := by
  obtain ⟨dataType, -, h⟩ := Result.bind_eq_ok.mp h
  obtain ⟨⟨last, constraints⟩, hoptions, h⟩ := Result.bind_eq_ok.mp h
  cases h
  rw [List.flatMap_append, checks_flagConstraints, List.append_nil]
  exact checks_convertColumnOptions hoptions

theorem checks_convertTableConstraint {constraint : Ast.TableConstraint}
    {converted : TableConstraint} (h : convertTableConstraint G constraint = .ok converted) :
    convertExprs G constraint.checks = .ok converted.checks := by
  cases constraint with
  | primaryKey name columns =>
    cases h
    exact convertExprs_nil
  | unique name columns =>
    cases h
    exact convertExprs_nil
  | check name expr =>
    obtain ⟨expr', hexpr, h⟩ := Result.bind_eq_ok.mp h
    cases h
    exact convertExprs_singleton hexpr
  | foreignKey name columns foreignTable referredColumns onDelete onUpdate =>
    rw [checks_convertForeignKey h]
    exact convertExprs_nil
  | index => cases h
  | other display => cases h

/-- ALTER COLUMN adds no conditions. -/
theorem checks_convertAlterColumn {column : String} {op : Ast.AlterColumnOperation}
    {converted : AlterOperation} (h : convertAlterColumn G column op = .ok converted) :
    converted.checks = [] := by
  cases op with
  | setNotNull =>
    cases h
    rfl
  | dropNotNull =>
    cases h
    rfl
  | setDefault value =>
    obtain ⟨value', -, h⟩ := Result.bind_eq_ok.mp h
    cases h
    rfl
  | dropDefault =>
    cases h
    rfl
  | setDataType dataType usingExpr =>
    cases usingExpr with
    | true => cases h
    | false =>
      obtain ⟨dataType', -, h⟩ := Result.bind_eq_ok.mp h
      cases h
      rfl
  | other => cases h

theorem checks_convertAlterOperation {operation : Ast.AlterTableOperation}
    {converted : AlterOperation} (h : convertAlterOperation G operation = .ok converted) :
    convertExprs G operation.checks = .ok converted.checks := by
  cases operation with
  | addColumn columnDef ifNotExists columnPosition =>
    rw [convertAlterOperation] at h
    split_ifs at h
    obtain ⟨⟨column, constraints⟩, hcolumn, h⟩ := Result.bind_eq_ok.mp h
    cases h
    exact checks_convertColumnDef hcolumn
  | changeColumn oldName newName dataType options columnPosition =>
    rw [convertAlterOperation] at h
    split_ifs at h
    obtain ⟨⟨column, constraints⟩, hcolumn, h⟩ := Result.bind_eq_ok.mp h
    cases h
    have hchecks := checks_convertColumnDef hcolumn
    rw [Ast.ColumnDef.checks, List.flatMap_map] at hchecks
    exact hchecks
  | modifyColumn colName dataType options columnPosition =>
    rw [convertAlterOperation] at h
    split_ifs at h
    obtain ⟨⟨column, constraints⟩, hcolumn, h⟩ := Result.bind_eq_ok.mp h
    cases h
    have hchecks := checks_convertColumnDef hcolumn
    rw [Ast.ColumnDef.checks, List.flatMap_map] at hchecks
    exact hchecks
  | alterColumn columnName op =>
    rw [convertAlterOperation] at h
    rw [checks_convertAlterColumn h]
    exact convertExprs_nil
  | addConstraint constraint =>
    obtain ⟨constraint', hconstraint, rfl⟩ := Result.map_eq_ok.mp h
    exact checks_convertTableConstraint hconstraint
  | dropColumn columnName ifExists cascade =>
    rw [convertAlterOperation] at h
    split_ifs at h
    cases h
    exact convertExprs_nil
  | dropConstraint ifExists name cascade =>
    rw [convertAlterOperation] at h
    split_ifs at h
    cases h
    exact convertExprs_nil
  | renameColumn oldColumnName newColumnName =>
    cases h
    exact convertExprs_nil
  | dropPrimaryKey =>
    cases h
    exact convertExprs_nil
  | other display => cases h

/-- **A converted INSERT** has a source. -/
theorem convertInsert_eq_ok {insert : Ast.Insert} {converted : Statement}
    (h : convertInsert G insert = .ok converted) :
    ∃ source source' onDuplicate columns, insert.source = some source ∧
      convertInsertSource G source = .ok source' ∧ convertOnInsert G insert.on = .ok onDuplicate ∧
      converted = .insert (objectName insert.tableName) columns source' onDuplicate := by
  unfold convertInsert at h
  split at h
  · cases h
  · split at h
    · cases h
    · rename_i source hsource
      obtain ⟨source', hsource', h⟩ := Result.bind_eq_ok.mp h
      obtain ⟨onDuplicate, honDuplicate, h⟩ := Result.bind_eq_ok.mp h
      exact ⟨source, source', onDuplicate, _, hsource, hsource', honDuplicate,
        (Except.ok.inj h).symm⟩

/-- **The conditions of a definition** are converted to those of the result. -/
theorem checks_convertDefinition {definition : Ast.Definition} {converted : Statement}
    (h : convertDefinition G definition = .ok converted) :
    convertExprs G definition.checks = .ok converted.checks := by
  cases definition with
  | createTable create =>
    have h : convertCreateTable G create = .ok converted := h
    unfold convertCreateTable at h
    split_ifs at h
    obtain ⟨columns, hcolumns, h⟩ := Result.bind_eq_ok.mp h
    obtain ⟨constraints, hconstraints, h⟩ := Result.bind_eq_ok.mp h
    cases h
    rw [Statement.checks, List.flatMap_append, List.flatMap_assoc]
    exact convertExprs_append (convertExprs_flatMap (fun _ _ => checks_convertColumnDef) hcolumns)
      (convertExprs_flatMap (fun _ _ => checks_convertTableConstraint) hconstraints)
  | createIndex create =>
    have h : convertCreateIndex create = .ok converted := h
    unfold convertCreateIndex at h
    split_ifs at h
    split at h
    · cases h
    · obtain ⟨columns, -, h⟩ := Result.bind_eq_ok.mp h
      cases h
      exact convertExprs_nil
  | alterTable alter =>
    have h : convertAlterTable G alter = .ok converted := h
    unfold convertAlterTable at h
    split_ifs at h
    obtain ⟨operations, hoperations, h⟩ := Result.bind_eq_ok.mp h
    cases h
    exact convertExprs_flatMap (fun _ _ => checks_convertAlterOperation) hoperations
  | drop drop =>
    have h : convertDrop drop = .ok converted := h
    unfold convertDrop at h
    split at h
    · cases h
      exact convertExprs_nil
    · cases h
  | insert insert =>
    obtain ⟨_, _, _, _, -, -, -, rfl⟩ := convertInsert_eq_ok h
    exact convertExprs_nil

theorem readsExprs_iff {exprs : List Ast.Expr} {results : List Expr}
    (h : convertExprs G exprs = .ok results) :
    ReadsExprs G exprs results ↔ Kept G (Ast.exprsQueries exprs) :=
  ⟨fun hreads => (convertExprs_of_reads exprs hreads).2, readsExprs_of_kept exprs h⟩

theorem readsOption_iff {expr : Option Ast.Expr} {result : Option Expr}
    (h : convertOption G expr = .ok result) :
    ReadsOption G expr result ↔ Kept G (Ast.optionQueries expr) :=
  ⟨fun hreads => (convertOption_of_reads expr hreads).2, readsOption_of_kept expr h⟩

theorem readsQuery_iff {query : Ast.Query} {result : Query}
    (h : convertQuery G query = .ok result) :
    ReadsQuery G query result ↔ Kept G (Ast.queryQueries query) :=
  ⟨fun hreads => (convertQuery_of_reads query hreads).2, readsQuery_of_kept query h⟩

theorem readsRows_iff {rows : List (List Ast.Expr)} {results : List (List Expr)}
    (h : (rows.mapM fun row => row.mapM (convertExpr G)) = .ok results) :
    List.Forall₂ (ReadsExprs G) rows results ↔ Kept G (rows.flatMap Ast.exprsQueries) := by
  induction Result.mapM_eq_ok.mp h with
  | nil => simp
  | cons hrow _ ih =>
    rename_i row result rows results hrows
    rw [List.forall₂_cons, List.flatMap_cons, kept_append, ih (Result.mapM_eq_ok.mpr hrows),
      readsExprs_iff (by rwa [convertExprs_eq_mapM])]

theorem readsAssignments_iff {assignments : List (Ast.AssignmentTarget × Ast.Expr)}
    {results : List (String × Expr)} (h : convertAssignments G assignments = .ok results) :
    List.Forall₂ (ReadsAssignment G) assignments results ↔
      Kept G (Ast.assignmentsQueries assignments) := by
  induction assignments generalizing results with
  | nil =>
    cases h
    simp [Ast.assignmentsQueries]
  | cons assignment assignments ih =>
    obtain ⟨target, expr⟩ := assignment
    cases target with
    | tuple => cases h
    | columnName name =>
      obtain ⟨expr', hexpr, h⟩ := Result.bind_eq_ok.mp h
      obtain ⟨assignments', hassignments, h⟩ := Result.bind_eq_ok.mp h
      cases h
      have hhead : ReadsAssignment G (.columnName name, expr) (objectName name, expr') ↔
          Kept G (Ast.exprQueries expr) := by
        constructor
        · rintro ⟨_, -, -, hreads⟩
          exact (convertExpr_of_reads expr hreads).2
        · intro hkept
          exact ⟨name, rfl, rfl, readsExpr_of_kept expr hexpr hkept⟩
      rw [List.forall₂_cons, hhead, ih hassignments]
      exact kept_append.symm

theorem tableFactorName_eq_ok {relation : Ast.TableFactor} {tableName : String}
    (h : tableFactorName relation = .ok tableName) :
    ∃ name asName, relation = .table name asName false ∧ tableName = objectName name := by
  unfold tableFactorName at h
  split at h
  · cases h
    exact ⟨_, _, rfl, rfl⟩
  · cases h

theorem readsSource_iff {source : Ast.InsertSource} {result : InsertSource}
    (h : convertInsertSource G source = .ok result) :
    ReadsSource G source result ↔ BareSource G source ∧ Kept G source.queries := by
  cases source with
  | values withClause rows orderBy limit limitBy offset fetch =>
    obtain ⟨rows', hrows, h⟩ := Result.bind_eq_ok.mp h
    cases h
    exact and_congr_right fun _ => readsRows_iff hrows
  | query query =>
    obtain ⟨query', hquery, h⟩ := Result.bind_eq_ok.mp h
    cases h
    exact and_congr_right fun _ => readsQuery_iff hquery

theorem readsOnInsert_iff {on : Option Ast.OnInsert} {result : List (String × Expr)}
    (h : convertOnInsert G on = .ok result) :
    ReadsOnInsert G on result ↔ Kept G ((on.map Ast.OnInsert.queries).getD []) := by
  match on with
  | none =>
    cases h
    simp [ReadsOnInsert]
  | some (.duplicateKeyUpdate assignments) => exact readsAssignments_iff h
  | some (.other display) => cases h

theorem represents_update_iff {update : Ast.Update} {converted : Statement}
    (h : convertUpdate G update = .ok converted) :
    Represents G (.clause (.update update)) converted ↔
      KeepsClauses G (.clause (.update update)) := by
  have hparts : ∃ name asName assignments selection,
      update.table = .mk (.table name asName false) [] ∧
        converted = .update (objectName name) assignments selection ∧
        convertAssignments G update.assignments = .ok assignments ∧
        convertOption G update.selection = .ok selection := by
    unfold convertUpdate at h
    split at h
    rename_i relation joins htable
    split_ifs at h with hjoins
    obtain ⟨tableName, hname, h⟩ := Result.bind_eq_ok.mp h
    obtain ⟨assignments, hassignments, h⟩ := Result.bind_eq_ok.mp h
    obtain ⟨selection, hselection, h⟩ := Result.bind_eq_ok.mp h
    cases h
    obtain ⟨name, asName, rfl, rfl⟩ := tableFactorName_eq_ok hname
    obtain rfl : joins = [] := by simpa using hjoins
    exact ⟨name, asName, assignments, selection, htable, rfl, hassignments, hselection⟩
  obtain ⟨name, asName, assignments, selection, htable, rfl, hassignments, hselection⟩ := hparts
  constructor
  · rintro ⟨hsource, _, _, assignments, selection, -, hconverted, hreads, hwhere⟩
    obtain ⟨-, rfl, rfl⟩ := Statement.update.inj hconverted
    refine ⟨kept_append.mpr ⟨(readsAssignments_iff hassignments).mp hreads,
      (readsOption_iff hselection).mp hwhere⟩, hsource⟩
  · rintro ⟨hkept, hsource⟩
    obtain ⟨hassigned, hwhere⟩ := kept_append.mp hkept
    exact ⟨hsource, name, asName, assignments, selection, htable, rfl,
      (readsAssignments_iff hassignments).mpr hassigned, (readsOption_iff hselection).mpr hwhere⟩

theorem represents_delete_iff {delete : Ast.Delete} {converted : Statement}
    (h : convertDelete G delete = .ok converted) :
    Represents G (.clause (.delete delete)) converted ↔
      KeepsClauses G (.clause (.delete delete)) := by
  have hparts : ∃ name asName selection, delete.source = [.mk (.table name asName false) []] ∧
      converted = .delete (objectName name) selection ∧
      convertOption G delete.selection = .ok selection := by
    unfold convertDelete at h
    split at h
    · rename_i relation hsource
      obtain ⟨tableName, hname, h⟩ := Result.bind_eq_ok.mp h
      obtain ⟨selection, hselection, h⟩ := Result.bind_eq_ok.mp h
      cases h
      obtain ⟨name, asName, rfl, rfl⟩ := tableFactorName_eq_ok hname
      exact ⟨name, asName, selection, hsource, rfl, hselection⟩
    · cases h
  obtain ⟨name, asName, selection, hsource, rfl, hselection⟩ := hparts
  constructor
  · rintro ⟨hbare, _, _, selection, -, hconverted, hwhere⟩
    obtain ⟨-, rfl⟩ := Statement.delete.inj hconverted
    exact ⟨(readsOption_iff hselection).mp hwhere, hbare⟩
  · rintro ⟨hkept, hbare⟩
    exact ⟨hbare, name, asName, selection, hsource, rfl, (readsOption_iff hselection).mpr hkept⟩

theorem represents_insert_iff {insert : Ast.Insert} {converted : Statement}
    (h : convertInsert G insert = .ok converted) :
    Represents G (.clause (.other (.insert insert))) converted ↔
      KeepsClauses G (.clause (.other (.insert insert))) := by
  obtain ⟨source, source', onDuplicate, columns, hsource, hconverted, honDuplicate, rfl⟩ :=
    convertInsert_eq_ok h
  have hqueries : Kept G (Ast.statementQueries (.clause (.other (.insert insert)))) ↔
      Kept G source.queries ∧ Kept G ((insert.on.map Ast.OnInsert.queries).getD []) := by
    rw [Ast.statementQueries, Ast.Definition.queries, hsource]
    exact kept_append
  constructor
  · rintro ⟨_, _, source, source', onDuplicate, hsame, hstatement, hreads, hon⟩
    cases hstatement
    obtain rfl := Option.some.inj (hsource.symm.trans hsame)
    obtain ⟨hbare, hkept⟩ := (readsSource_iff hconverted).mp hreads
    refine ⟨hqueries.mpr ⟨hkept, (readsOnInsert_iff honDuplicate).mp hon⟩, fun source hsame => ?_⟩
    rwa [← Option.some.inj (hsource.symm.trans hsame)]
  · rintro ⟨hkept, hbare⟩
    obtain ⟨hkept, hon⟩ := hqueries.mp hkept
    exact ⟨_, columns, source, source', onDuplicate, hsource, rfl,
      (readsSource_iff hconverted).mpr ⟨hbare source hsource, hkept⟩,
      (readsOnInsert_iff honDuplicate).mpr hon⟩

/-- **A converted statement represents the parsed one** exactly when every query in parentheses,
wherever it stands, repeats the WITH, ORDER BY and LIMIT around it, and the statement has no part
that cannot be expressed. -/
theorem conversion_keeps_clauses_iff (G : Grammar)
    (parse : List Char → Except String (List (SqlStatement (Ast.Clause Ast.Definition))))
    (statement : SqlStatement (Ast.Clause Ast.Definition)) (converted : Statement)
    (h : (definitionParser G parse).convertStatement statement = .ok converted) :
    Represents G statement converted ↔ KeepsClauses G statement := by
  induction statement generalizing converted with
  | clause clause =>
    have hclause : convertClause G (convertDefinition G) clause = .ok converted :=
      Result.mapError_eq_ok.mp h
    cases clause with
    | query query =>
      obtain ⟨result, hquery, rfl⟩ := Result.map_eq_ok.mp hclause
      constructor
      · rintro ⟨result, hconverted, hreads⟩
        cases hconverted
        exact ⟨(readsQuery_iff hquery).mp hreads, trivial⟩
      · rintro ⟨hkept, -⟩
        exact ⟨result, rfl, (readsQuery_iff hquery).mpr hkept⟩
    | update update => exact represents_update_iff hclause
    | delete delete => exact represents_delete_iff hclause
    | other definition =>
      have hdefinition : ReadsExprs G definition.checks converted.checks ↔
          Kept G (Ast.exprsQueries definition.checks) :=
        readsExprs_iff (checks_convertDefinition hclause)
      cases definition with
      | insert insert => exact represents_insert_iff hclause
      | _ => exact hdefinition.trans ⟨fun hkept => ⟨hkept, trivial⟩, KeepsClauses.kept⟩
  | explain statement ih =>
    obtain ⟨inner, hinner, rfl⟩ := Result.map_eq_ok.mp h
    constructor
    · rintro ⟨inner, hconverted, hrepresents⟩
      cases hconverted
      obtain ⟨hkept, hexpressible⟩ := (ih inner hinner).mp hrepresents
      exact ⟨hkept, hexpressible⟩
    · rintro ⟨hkept, hexpressible⟩
      exact ⟨inner, rfl, (ih inner hinner).mpr ⟨hkept, hexpressible⟩⟩
  | other display => cases h
  | _ => exact ⟨fun _ => ⟨kept_nil, trivial⟩, fun _ => trivial⟩

end Converted

/-! ## Sample statements -/

/-- `SELECT a FROM t`, with ORDER BY and LIMIT. -/
def selectA (orderBy : Option Ast.OrderBy) (limit : Option Ast.Expr) : Ast.Query :=
  .mk none (.select (.mk false [.unnamedExpr (.identifier "a")]
    [.mk (.table ["t"] none false) []] none (.expressions [] false) none)) orderBy limit false
    false false

/-- What it becomes. -/
def selectedA (orderBy : List OrderBy) (limit : Option Nat) : Query :=
  ⟨[], false, [.expr (.column none "a") none], some (.table "t" none), [], none, [], none, orderBy,
    limit⟩

/-- `DELETE FROM t`, with WHERE and LIMIT. -/
def deleteT (selection limit : Option Ast.Expr) : Ast.Delete where
  tables := []
  source := [.mk (.table ["t"] none false) []]
  usingTables := none
  selection := selection
  orderBy := []
  limit := limit

/-- A number in a text. -/
def numeral (text : String) : Option Ast.Expr := some (.value (.number text))

/-- `DELETE FROM t WHERE EXISTS (SELECT a FROM t ORDER BY a DESC LIMIT 2)` is converted whole. -/
theorem ordered_query_kept :
    Represents wholeNumbers
      (.clause (.delete (deleteT
        (some (.exist (selectA (some (.mk [.mk (.identifier "a") (some false) none false] false))
          (numeral "2")) false)) none)))
      (.delete "t" (some (.exist (selectedA [⟨.column none "a", true⟩] (some 2)) false))) := by
  refine (conversion_keeps_clauses_iff wholeNumbers (fun _ => .ok []) _ _ (by rfl)).mpr
    ⟨?_, rfl, rfl, rfl, nofun⟩
  intro query hquery
  obtain rfl : query = _ := List.mem_singleton.mp hquery
  have hwith : ReadsWith wholeNumbers none [] := by rw [ReadsWith]
  have horder : ReadsOrderBy wholeNumbers
      (some (.mk [.mk (.identifier "a") (some false) none false] false))
      [⟨.column none "a", true⟩] := by
    rw [ReadsOrderBy, ReadsKeys]
    exact ⟨rfl, .column none "a", [], by rw [ReadsExpr]; rfl, Or.inl rfl, rfl, by rw [ReadsKeys],
      rfl⟩
  have hlimit : ReadsLimit wholeNumbers (numeral "2") (some 2) := by
    rw [numeral, ReadsLimit]
    exact ⟨2, by rw [ReadsExpr]; exact .integer (by decide) (by decide), by decide, rfl⟩
  exact ⟨⟨[], [], hwith, hwith, List.prefix_refl []⟩, Or.inr ⟨_, horder, horder⟩,
    some 2, some 2, hlimit, hlimit, NoLarger.refl _⟩

/-- `DELETE FROM t LIMIT 1` becomes `DELETE FROM t`, and
`DELETE FROM t WHERE EXISTS ((SELECT a FROM t) LIMIT 0)` becomes
`DELETE FROM t WHERE EXISTS (SELECT a FROM t)`. -/
theorem limits_are_dropped :
    ((definitionParser wholeNumbers fun _ => .ok []).convertStatement
        (.clause (.delete (deleteT none (numeral "1")))) = .ok (.delete "t" none) ∧
      ¬ Represents wholeNumbers (.clause (.delete (deleteT none (numeral "1"))))
        (.delete "t" none)) ∧
    (definitionParser wholeNumbers fun _ => .ok []).convertStatement
        (.clause (.delete (deleteT (some (.exist
          (.mk none (.query (selectA none none)) none (numeral "0") false false false) false))
          none))) =
      .ok (.delete "t" (some (.exist (selectedA [] none) false))) ∧
    ¬ Represents wholeNumbers
      (.clause (.delete (deleteT (some (.exist
          (.mk none (.query (selectA none none)) none (numeral "0") false false false) false))
          none)))
      (.delete "t" (some (.exist (selectedA [] none) false))) := by
  refine ⟨⟨by rfl, ?_⟩, by rfl, ?_⟩
  · rintro ⟨⟨-, -, hlimit, -⟩, -⟩
    cases hlimit
  · rintro ⟨-, _, _, _, -, -, hreads⟩
    obtain ⟨bound, limit, hbound, hlimit, hlarger⟩ := ((convertOption_of_reads _ hreads).2
      (.mk none (.query (selectA none none)) none (numeral "0") false false false)
      List.mem_cons_self).limit
    have hzero : bound = some 0 :=
      (Except.ok.inj (convertLimit_of_reads _ hbound).1).symm
    have hnone : limit = none := (Except.ok.inj (convertLimit_of_reads _ hlimit).1).symm
    subst hzero hnone
    obtain ⟨_, hsome, -⟩ := hlarger 0 rfl
    cases hsome

end Sql
end RustyDB
