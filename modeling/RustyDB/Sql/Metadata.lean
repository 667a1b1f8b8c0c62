import Mathlib
import RustyDB.Sql.Database

/-!
# Metadata of prepared statements

The model of `prepared_expression_type` and `SQLSession::prepared_result_metadata` of
`src/sql/database.rs`: the names and the types of the columns that a prepared query will
return, inferred from the query and from the one table it selects from.

* `preparedExpressionType` — the type of an expression.
* `Database.preparedResultMetadata` — the columns of a prepared query.
-/

namespace RustyDB
namespace Sql

/-! ## Types of expressions -/

/-- The type of an arithmetic operation. -/
def arithmeticType : DataType → DataType → DataType
  | .float, _ => .float
  | _, .float => .float
  | .integer, .integer => .integer
  | .null, type => type
  | type, .null => type
  | _, _ => .text

/-- `prepared_expression_type`. -/
def preparedExpressionType (sourceTable : Option Table) : Expr → DataType
  | .literal value => value.dataType
  | .column _ name =>
    ((sourceTable.bind fun table =>
      table.schema.columns.find? fun column => eqIgnoreAsciiCase column.name name).map
        ColumnDef.dataType).getD .text
  | .binary left op right =>
    match op with
    | .compare _ => .boolean
    | .and => .boolean
    | .or => .boolean
    | _ =>
      arithmeticType (preparedExpressionType sourceTable left)
        (preparedExpressionType sourceTable right)
  | .unary op expr =>
    match op with
    | .not => .boolean
    | _ => preparedExpressionType sourceTable expr
  | .isNull _ _ => .boolean
  | .like _ _ _ => .boolean
  | .inList _ _ _ => .boolean
  | .inSubquery _ _ _ => .boolean
  | .exist _ _ => .boolean
  | .aggregate function none _ =>
    match function with
    | .count => .integer
    | .avg => .float
    | _ => .text
  | .aggregate function (some expr) _ =>
    match function with
    | .count => .integer
    | .avg => .float
    | _ => preparedExpressionType sourceTable expr
  | .parameter _ => .text
  | .incoming _ => .text
  | .scalarSubquery _ => .text

/-! ## Columns of queries -/

/-- The name of a column without an alias. -/
def preparedName : Expr → String
  | .column _ name => name
  | .aggregate function expr distinct => expressionName (.aggregate function expr distinct)
  | _ => "expression"

/-- The columns of one item of the projection; `source` has the name under which its table
is visible. -/
def itemMetadata (source : Option (Table × String)) : SelectItem → List (String × DataType)
  | .wildcard qualifier =>
    match source with
    | none => []
    | some (table, visibleName) =>
      if qualifier.all (fun name => eqIgnoreAsciiCase name visibleName) then
        table.schema.columns.map fun column => (column.name, column.dataType)
      else []
  | .expr expr asName =>
    [(asName.getD (preparedName expr), preparedExpressionType (source.map Prod.fst) expr)]

/-- The table that a query selects from, when that is a table of the catalog. -/
def metadataSource (tables : Tables) : Option TableSource → Option (Table × String)
  | some (.table name asName) => (tables.lookup name).map fun table => (table, asName.getD name)
  | _ => none

/-- The columns of a query; any other statement has none. -/
def statementMetadata (tables : Tables) : Statement → List (String × DataType)
  | .query query => query.projection.flatMap (itemMetadata (metadataSource tables query.source))
  | _ => []

/-- `SQLSession::prepared_result_metadata`.  Parameters that cannot be bound are left alone;
the catalog is the published one, also in a transaction. -/
def Database.preparedResultMetadata (E : Engine) (db : Database) (prepared : PreparedStatement)
    (parameters : Option (List Value)) : Except Fault (List (String × DataType)) :=
  let bound := (parameters.bind fun values =>
    (E.bindParameters prepared.statement values).toOption).getD prepared.statement
  match bound with
  | .query query =>
    if db.poisoned then .error .panic
    else .ok (statementMetadata db.catalog.tables (.query query))
  | _ => .ok []

end Sql
end RustyDB
