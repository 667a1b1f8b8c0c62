import Mathlib
import RustyDB.Lib.F64

/-!
# Values, expressions and statements

The data model of `src/sql/types.rs` and the statement types of
`src/sql/parser.rs`.

* `Value` — scalar values, with SQL truth (`Value.truth`), the partial order
  behind every comparison (`Value.partialCmp`) and `Value.compareSql`.
* `Expr`, `Query` — the expression tree and the query it nests with.
* `TableSchema.validateRow` — the check every stored row passes.
* `Statement` — what the parser hands to the executor.
* `KeyPart` — a value as part of an index key.
-/

namespace RustyDB
namespace Sql

/-- How a computation ends without a value: an error it returns, or a panic. -/
inductive Fault where
  | error (message : String)
  | panic
  deriving DecidableEq, Repr

/-! ## ASCII case -/

/-- `str::to_ascii_lowercase`. -/
def toAsciiLowercase (s : String) : String := String.ofList (s.toList.map Char.toLower)

/-- `str::eq_ignore_ascii_case`. -/
def eqIgnoreAsciiCase (a b : String) : Bool :=
  a.toList.map Char.toLower == b.toList.map Char.toLower

/-! ## Values -/

/-- Supported SQL data types. -/
inductive DataType where
  | integer
  | float
  | text
  | boolean
  | null
  deriving DecidableEq, Repr

/-- The SQL name of a type. -/
def DataType.display : DataType → String
  | .integer => "INTEGER"
  | .float => "FLOAT"
  | .text => "TEXT"
  | .boolean => "BOOLEAN"
  | .null => "NULL"

/-- A scalar SQL value. -/
inductive Value where
  | integer (value : Int64)
  | float (value : F64)
  | text (value : String)
  | boolean (value : Bool)
  | null
  deriving DecidableEq, Repr, Inhabited

/-- The three truth values of SQL. -/
inductive SqlTruth where
  | true
  | false
  | unknown
  deriving DecidableEq, Repr

namespace SqlTruth

/-- `SqlTruth::and`. -/
def and : SqlTruth → SqlTruth → SqlTruth
  | .false, _ => .false
  | _, .false => .false
  | .true, .true => .true
  | _, _ => .unknown

/-- `SqlTruth::or`. -/
def or : SqlTruth → SqlTruth → SqlTruth
  | .true, _ => .true
  | _, .true => .true
  | .false, .false => .false
  | _, _ => .unknown

/-- `SqlTruth::not`. -/
def negate : SqlTruth → SqlTruth
  | .true => .false
  | .false => .true
  | .unknown => .unknown

/-- A Boolean as a truth value. -/
def ofBool (b : Bool) : SqlTruth := if b then .true else .false

end SqlTruth

/-- The comparison operators. -/
inductive ComparisonOp where
  | equal
  | notEqual
  | lessThan
  | lessThanOrEqual
  | greaterThan
  | greaterThanOrEqual
  | like
  deriving DecidableEq, Repr

/-- The operators between two expressions. -/
inductive BinaryOp where
  | add
  | subtract
  | multiply
  | divide
  | compare (op : ComparisonOp)
  | and
  | or
  deriving DecidableEq, Repr

/-- The operators on one expression. -/
inductive UnaryOp where
  | not
  | negate
  | plus
  deriving DecidableEq, Repr

/-- The aggregate functions. -/
inductive AggregateFunction where
  | count
  | sum
  | avg
  | max
  | min
  deriving DecidableEq, Repr

namespace Value

/-- The type of a value. -/
def dataType : Value → DataType
  | .integer _ => .integer
  | .float _ => .float
  | .text _ => .text
  | .boolean _ => .boolean
  | .null => .null

/-- `Value::is_compatible_with`: NULL fits every type, an integer a float. -/
def isCompatibleWith : Value → DataType → Bool
  | .null, _ => true
  | .integer _, .integer => true
  | .integer _, .float => true
  | .float _, .float => true
  | .text _, .text => true
  | .boolean _, .boolean => true
  | _, _ => false

/-- `value as f64`. -/
def intToFloat (n : Int64) : F64 := F64.ofInt n.toInt

/-- `Value::coerce_to`. -/
def coerceTo : Value → DataType → Option Value
  | .null, _ => some .null
  | .integer n, .integer => some (.integer n)
  | .integer n, .float => some (.float (intToFloat n))
  | .float x, .float => some (.float x)
  | .text s, .text => some (.text s)
  | .boolean b, .boolean => some (.boolean b)
  | _, _ => none

/-- `Value::is_null`. -/
def isNull : Value → Bool
  | .null => true
  | _ => false

/-- The truth value of a value: NULL is unknown. -/
def truth : Value → SqlTruth
  | .boolean true => .true
  | .boolean false => .false
  | .null => .unknown
  | .integer n => if n = 0 then .false else .true
  | .float x => if x.isZero then .false else .true
  | .text s => if s = "" then .false else .true

/-- `PartialOrd for Value`: `None` between values of different kinds. -/
def partialCmp : Value → Value → Option Ordering
  | .integer a, .integer b => some (compare a.toInt b.toInt)
  | .float a, .float b => a.partialCmp b
  | .integer a, .float b => (intToFloat a).partialCmp b
  | .float a, .integer b => a.partialCmp (intToFloat b)
  | .text a, .text b => some (compare a b)
  | .boolean a, .boolean b => some (compare a b)
  | .null, .null => some .eq
  | _, _ => none

/-- The derived `PartialEq`: floats compare as numbers, not by their bits. -/
def eq : Value → Value → Bool
  | .integer a, .integer b => a == b
  | .float a, .float b => a.eq b
  | .text a, .text b => a == b
  | .boolean a, .boolean b => a == b
  | .null, .null => true
  | _, _ => false

end Value

/-! ## LIKE -/

/-- One row of the table of `like_match`: from the row of the text read so far
(`above`) to the row one character later. `left` is the entry before. -/
def likeRow (character : Char) (pattern : List Char) (above : List Bool) (left : Bool) :
    List Bool :=
  match pattern, above with
  | p :: pattern, diagonal :: up :: above =>
    let entry :=
      if p = '%' then left || up
      else if p = '_' then diagonal
      else p == character && diagonal
    entry :: likeRow character pattern (up :: above) entry
  | _, _ => []

/-- The first row of the table: the empty text matches a run of `%`. -/
def likeFirstRow (pattern : List Char) (left : Bool) : List Bool :=
  match pattern with
  | [] => []
  | p :: pattern =>
    let entry := p == '%' && left
    entry :: likeFirstRow pattern entry

/-- The table of `like_match`, row by row, on lower-cased characters. -/
def likeTable (text pattern : List Char) : List Bool :=
  text.foldl (fun above character => false :: likeRow character pattern above false)
    (true :: likeFirstRow pattern true)

/-- SQL LIKE pattern matching with `%` and `_`. -/
def likeMatch (lowercase : String → String) (text pattern : String) : Bool :=
  (likeTable (lowercase text).toList (lowercase pattern).toList).getLastD false

example : likeMatch id "cat" "c_t" = true := by decide
example : likeMatch id "hello world" "hello%" = true := by decide
example : likeMatch id "cat" "d%" = false := by decide

namespace Value

/-- `compare_sql`: unknown as soon as one side is NULL. -/
def compareSql (lowercase : String → String) (left right : Value) (op : ComparisonOp) :
    SqlTruth :=
  if left.isNull || right.isNull then .unknown
  else .ofBool <|
    match op with
    | .equal => left.partialCmp right == some .eq
    | .notEqual => left.partialCmp right != some .eq
    | .lessThan => left.partialCmp right == some .lt
    | .lessThanOrEqual =>
      left.partialCmp right == some .lt || left.partialCmp right == some .eq
    | .greaterThan => left.partialCmp right == some .gt
    | .greaterThanOrEqual =>
      left.partialCmp right == some .gt || left.partialCmp right == some .eq
    | .like =>
      match left, right with
      | .text s, .text pattern => likeMatch lowercase s pattern
      | _, _ => false

end Value

/-! ## Expressions and queries -/

/-- The joins. -/
inductive JoinType where
  | inner
  | left
  | right
  | cross
  deriving DecidableEq, Repr

mutual

/-- The expression tree. -/
inductive Expr where
  | column (qualifier : Option String) (name : String)
  | literal (value : Value)
  /-- Positional `?` parameter assigned during statement preparation. -/
  | parameter (index : Nat)
  /-- Value proposed by an INSERT ... ON DUPLICATE KEY UPDATE statement. -/
  | incoming (name : String)
  | binary (left : Expr) (op : BinaryOp) (right : Expr)
  | unary (op : UnaryOp) (expr : Expr)
  | isNull (expr : Expr) (negated : Bool)
  | like (expr pattern : Expr) (negated : Bool)
  | inList (expr : Expr) (list : List Expr) (negated : Bool)
  | inSubquery (expr : Expr) (query : Query) (negated : Bool)
  | exist (query : Query) (negated : Bool)
  | scalarSubquery (query : Query)
  | aggregate (function : AggregateFunction) (expr : Option Expr) (distinct : Bool)

/-- An item of a projection. -/
inductive SelectItem where
  | wildcard (qualifier : Option String)
  | expr (expr : Expr) (asName : Option String)

/-- What a FROM clause or a join reads: a table, or a subquery under a name. -/
inductive TableSource where
  | table (name : String) (asName : Option String)
  | derived (query : Query) (asName : String)

/-- A join with its source and its ON condition. -/
structure Join where
  joinType : JoinType
  source : TableSource
  on : Option Expr

/-- One expression of ORDER BY. -/
structure OrderBy where
  expr : Expr
  descending : Bool

/-- One WITH clause. -/
structure Cte where
  name : String
  columns : List String
  query : Query

/-- A SELECT. -/
structure Query where
  ctes : List Cte
  distinct : Bool
  projection : List SelectItem
  source : Option TableSource
  joins : List Join
  selection : Option Expr
  groupBy : List Expr
  having : Option Expr
  orderBy : List OrderBy
  limit : Option Nat

end

instance : Inhabited Expr := ⟨.literal .null⟩

mutual

/-- The subqueries of an expression, not those inside of them. -/
def subqueries : Expr → List Query
  | .binary left _ right => subqueries left ++ subqueries right
  | .unary _ expr => subqueries expr
  | .isNull expr _ => subqueries expr
  | .like expr pattern _ => subqueries expr ++ subqueries pattern
  | .inList expr list _ => subqueries expr ++ subqueriesOf list
  | .inSubquery expr query _ => subqueries expr ++ [query]
  | .exist query _ => [query]
  | .scalarSubquery query => [query]
  | _ => []

/-- The subqueries of a list of expressions. -/
def subqueriesOf : List Expr → List Query
  | [] => []
  | expr :: exprs => subqueries expr ++ subqueriesOf exprs

end

/-- No assignment of an ON DUPLICATE KEY UPDATE list has a subquery. -/
def SubqueryFree (onDuplicate : List (String × Expr)) : Prop :=
  ∀ assignment ∈ onDuplicate, subqueries assignment.2 = []

/-! ## Schemas -/

/-- A foreign key. -/
structure ForeignKeyConstraint where
  name : Option String
  columns : List String
  foreignTable : String
  referredColumns : List String
  deriving DecidableEq, Repr

/-- A constraint of a table. -/
inductive TableConstraint where
  | primaryKey (name : Option String) (columns : List String)
  | unique (name : Option String) (columns : List String)
  | check (name : Option String) (expr : Expr)
  | foreignKey (foreignKey : ForeignKeyConstraint)

/-- The definition of an index; an automatic one belongs to a constraint. -/
structure IndexDef where
  name : String
  columns : List String
  unique : Bool
  automatic : Bool
  deriving DecidableEq, Repr

/-- Column definition for CREATE TABLE. -/
structure ColumnDef where
  name : String
  dataType : DataType
  nullable : Bool
  primaryKey : Bool
  unique : Bool
  default : Option Value
  checks : List Expr

/-- The schema of a table. -/
structure TableSchema where
  name : String
  columns : List ColumnDef
  constraints : List TableConstraint
  indexes : List IndexDef

namespace TableSchema

/-- `TableSchema::column_index`: the position of a column, ignoring the case of its name. -/
def columnIndex (schema : TableSchema) (name : String) : Option Nat :=
  schema.columns.findIdx? (fun column => eqIgnoreAsciiCase column.name name)

/-- The check of one value against its column. -/
def validateValue (value : Value) (column : ColumnDef) : Except Fault Unit :=
  if value.isNull then
    if column.nullable then .ok ()
    else .error (.error s!"Column '{column.name}' cannot be NULL")
  else if value.isCompatibleWith column.dataType then .ok ()
  else
    .error (.error
      s!"Column '{column.name}' expects {column.dataType.display}, got {value.dataType.display}")

/-- `TableSchema::validate_row`. -/
def validateRow (schema : TableSchema) (row : List Value) : Except Fault Unit :=
  if row.length ≠ schema.columns.length then
    .error (.error s!"Expected {schema.columns.length} columns, got {row.length}")
  else (row.zip schema.columns).forM (fun entry => validateValue entry.1 entry.2)

end TableSchema

/-- `Row`: the values of one stored row. -/
abbrev Row := List Value

/-- The rows that a query answers. -/
structure ResultSet where
  columns : List String
  rows : List Row
  deriving DecidableEq, Repr

/-! ## Statements -/

/-- Where PREPARE takes its statement from. -/
inductive PrepareSource where
  | sql (text : String)
  | variable (name : String)

/-- Where INSERT takes its rows from. -/
inductive InsertSource where
  | values (values : List (List Expr))
  | query (query : Query)

/-- One operation of ALTER TABLE. -/
inductive AlterOperation where
  | addColumn (column : ColumnDef) (constraints : List TableConstraint) (ifNotExists : Bool)
  | dropColumn (name : String) (ifExists : Bool)
  | renameColumn (oldName newName : String)
  | modifyColumn (oldName : String) (column : ColumnDef) (constraints : List TableConstraint)
  | setDefault (column : String) (value : Option Value)
  | setNullable (column : String) (nullable : Bool)
  | setDataType (column : String) (dataType : DataType)
  | addConstraint (constraint : TableConstraint)
  | dropConstraint (name : String) (ifExists : Bool)
  | dropPrimaryKey

/-- A parsed statement. -/
inductive Statement where
  | createTable (tableName : String) (columns : List ColumnDef)
      (constraints : List TableConstraint) (ifNotExists : Bool)
  | dropTable (tableName : String) (ifExists : Bool)
  | createIndex (name tableName : String) (columns : List String) (unique ifNotExists : Bool)
  | dropIndex (name tableName : String) (ifExists : Bool)
  | alterTable (tableName : String) (operations : List AlterOperation)
  | insert (tableName : String) (columns : Option (List String)) (source : InsertSource)
      (onDuplicate : List (String × Expr))
  | query (query : Query)
  | update (tableName : String) (assignments : List (String × Expr)) (selection : Option Expr)
  | delete (tableName : String) (selection : Option Expr)
  | showTables
  | showIndexes (tableName : String)
  | describeTable (tableName : String)
  | explain (statement : Statement)
  | setVariable (name : String) (value : Value)
  | prepare (name : String) (source : PrepareSource)
  | executePrepared (name : String) (using_ : List String)
  | deallocatePrepared (name : String)
  | begin
  | commit
  | rollback

/-! ## Index keys -/

/-- One column of an index key. -/
inductive KeyPart where
  | null
  | boolean (value : Bool)
  | integer (value : Int64)
  | float (ordered : UInt64)
  | text (value : String)
  deriving DecidableEq, Repr

/-- The key of a row in an index. -/
abbrev IndexKey := List KeyPart

namespace KeyPart

/-- `KeyPart::from_value`: the bits of a double are turned so that they sort as
unsigned integers. -/
def fromValue : Value → KeyPart
  | .null => .null
  | .boolean b => .boolean b
  | .integer n => .integer n
  | .float x =>
    .float (if x.bits &&& 0x8000000000000000 ≠ 0 then ~~~x.bits
      else x.bits ^^^ 0x8000000000000000)
  | .text s => .text s

/-- The position of a variant in the derived order. -/
def rank : KeyPart → Nat
  | .null => 0
  | .boolean _ => 1
  | .integer _ => 2
  | .float _ => 3
  | .text _ => 4

/-- The derived `Ord`. -/
def cmp : KeyPart → KeyPart → Ordering
  | .boolean a, .boolean b => compare a b
  | .integer a, .integer b => compare a.toInt b.toInt
  | .float a, .float b => compare a.toNat b.toNat
  | .text a, .text b => compare a b
  | a, b => compare a.rank b.rank

end KeyPart

end Sql
end RustyDB
