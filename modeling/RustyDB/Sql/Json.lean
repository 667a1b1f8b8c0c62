import Mathlib
import RustyDB.Sql.Types

/-!
# How deep the JSON of a statement is nested

`serde_json` writes a struct as an object and a variant with data as an object around it, and
reads at most `recursionLimit - 1` objects and arrays inside of one another.

* `Value.nesting`, `exprNesting`, `queryNesting`, `statementNesting`, … — the depth of the JSON
  of a value, an expression, a query and a statement.
* `Value.comesBack` — a value that its own text gives back.
-/

namespace RustyDB
namespace Sql

/-! ## The limit -/

/-- The recursion limit of `serde_json`: so many nested objects and arrays are refused. -/
def recursionLimit : Nat := 128

/-- The deepest of several parts. -/
def deepest (depths : List Nat) : Nat := depths.foldr max 0

/-- An array of parts. -/
def arrayNesting {α : Type} (nesting : α → Nat) (parts : List α) : Nat :=
  1 + deepest (parts.map nesting)

/-! ## Values -/

/-- NULL is a string, any other value an object. -/
def Value.nesting : Value → Nat
  | .null => 0
  | _ => 1

/-- A value that `serde_json` does not write as `null`. -/
def Value.isFinite : Value → Bool
  | .float x => x.isFinite
  | _ => true

/-- What the text of a value is read as, when a double is read as `reread` says. -/
def Value.reread (reread : F64 → F64) : Value → Value
  | .float x => .float (reread x)
  | value => value

/-- A value that its own text gives back: a double is finite, and is what it is read as. -/
def Value.comesBack (reread : F64 → F64) (value : Value) : Bool :=
  value.isFinite && value.reread reread == value

/-! ## Expressions and queries -/

/-- A comparison is an object around its name. -/
def BinaryOp.nesting : BinaryOp → Nat
  | .compare _ => 1
  | _ => 0

mutual

/-- The depth of the JSON of an expression: a variant with fields is an object in an object. -/
def exprNesting : Expr → Nat
  | .column _ _ => 2
  | .literal value => 1 + value.nesting
  | .parameter _ => 1
  | .incoming _ => 1
  | .binary left op right => 2 + deepest [exprNesting left, op.nesting, exprNesting right]
  | .unary _ expr => 2 + exprNesting expr
  | .isNull expr _ => 2 + exprNesting expr
  | .like expr pattern _ => 2 + deepest [exprNesting expr, exprNesting pattern]
  | .inList expr list _ => 2 + deepest [exprNesting expr, exprsNesting list]
  | .inSubquery expr query _ => 2 + deepest [exprNesting expr, queryNesting query]
  | .exist query _ => 2 + queryNesting query
  | .scalarSubquery query => 1 + queryNesting query
  | .aggregate _ none _ => 2
  | .aggregate _ (some expr) _ => 2 + exprNesting expr

/-- The nesting of a list of expressions. -/
def exprsNesting : List Expr → Nat
  | [] => 1
  | expr :: exprs => max (1 + exprNesting expr) (exprsNesting exprs)

/-- The nesting of a SELECT list. -/
def itemsNesting : List SelectItem → Nat
  | [] => 1
  | .wildcard _ :: items => max 2 (itemsNesting items)
  | .expr expr _ :: items => max (3 + exprNesting expr) (itemsNesting items)

/-- The nesting of a table of FROM. -/
def sourceNesting : TableSource → Nat
  | .table _ _ => 2
  | .derived query _ => 2 + queryNesting query

/-- The nesting of a chain of joins. -/
def joinsNesting : List Join → Nat
  | [] => 1
  | ⟨_, source, none⟩ :: joins => max (2 + sourceNesting source) (joinsNesting joins)
  | ⟨_, source, some on⟩ :: joins =>
    max (2 + deepest [sourceNesting source, exprNesting on]) (joinsNesting joins)

/-- The nesting of an ORDER BY. -/
def ordersNesting : List OrderBy → Nat
  | [] => 1
  | ⟨expr, _⟩ :: orders => max (2 + exprNesting expr) (ordersNesting orders)

/-- The names of the columns of a CTE are an array. -/
def ctesNesting : List Cte → Nat
  | [] => 1
  | ⟨_, _, query⟩ :: ctes => max (2 + deepest [1, queryNesting query]) (ctesNesting ctes)

/-- The nesting of an optional expression, which is `null` when it is not there. -/
def optionNesting : Option Expr → Nat
  | none => 0
  | some expr => exprNesting expr

/-- The nesting of an optional FROM. -/
def fromNesting : Option TableSource → Nat
  | none => 0
  | some source => sourceNesting source

/-- The depth of the JSON of a query. -/
def queryNesting : Query → Nat
  | ⟨ctes, _, projection, source, joins, selection, groupBy, having, orderBy, _⟩ =>
    1 + deepest [ctesNesting ctes, itemsNesting projection, fromNesting source,
      joinsNesting joins, optionNesting selection, exprsNesting groupBy, optionNesting having,
      ordersNesting orderBy]

end

/-! ## Schemas -/

/-- The names of the columns of a key are an array. -/
def TableConstraint.nesting : TableConstraint → Nat
  | .check _ expr => 2 + exprNesting expr
  | _ => 3

/-- The nesting of a column: that of its default and of its checks. -/
def ColumnDef.nesting (column : ColumnDef) : Nat :=
  1 + deepest [(column.default.map Value.nesting).getD 0, exprsNesting column.checks]

/-- The nesting of a schema. -/
def TableSchema.nesting (schema : TableSchema) : Nat :=
  1 + deepest [arrayNesting ColumnDef.nesting schema.columns,
    arrayNesting TableConstraint.nesting schema.constraints,
    arrayNesting (fun _ => 2) schema.indexes]

/-! ## Statements -/

/-- A pair is an array. -/
def assignmentsNesting (assignments : List (String × Expr)) : Nat :=
  arrayNesting (fun assignment => 1 + exprNesting assignment.2) assignments

/-- The nesting of the source of an INSERT. -/
def InsertSource.nesting : InsertSource → Nat
  | .values rows => 1 + arrayNesting exprsNesting rows
  | .query selected => 1 + queryNesting selected

/-- The nesting of an ALTER TABLE operation. -/
def AlterOperation.nesting : AlterOperation → Nat
  | .addColumn column constraints _ =>
    2 + deepest [column.nesting, arrayNesting TableConstraint.nesting constraints]
  | .modifyColumn _ column constraints =>
    2 + deepest [column.nesting, arrayNesting TableConstraint.nesting constraints]
  | .setDefault _ value => 2 + (value.map Value.nesting).getD 0
  | .addConstraint constraint => 1 + constraint.nesting
  | .dropPrimaryKey => 0
  | _ => 2

/-- The depth of the JSON of a statement. -/
def statementNesting : Statement → Nat
  | .createTable _ columns constraints _ =>
    2 + deepest [arrayNesting ColumnDef.nesting columns,
      arrayNesting TableConstraint.nesting constraints]
  | .createIndex _ _ _ _ _ => 3
  | .alterTable _ operations => 2 + arrayNesting AlterOperation.nesting operations
  | .insert _ columns source onDuplicate =>
    2 + deepest [(columns.map fun _ => 1).getD 0, source.nesting, assignmentsNesting onDuplicate]
  | .query query => 1 + queryNesting query
  | .update _ assignments selection =>
    2 + deepest [assignmentsNesting assignments, optionNesting selection]
  | .delete _ selection => 2 + optionNesting selection
  | .explain statement => 1 + statementNesting statement
  | .setVariable _ value => 2 + value.nesting
  | .prepare _ _ => 3
  | .executePrepared _ _ => 3
  | .showTables => 0
  | .begin => 0
  | .commit => 0
  | .rollback => 0
  | _ => 2

end Sql
end RustyDB
