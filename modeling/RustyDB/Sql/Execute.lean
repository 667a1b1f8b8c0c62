import Mathlib
import RustyDB.Sql.Alter
import RustyDB.Sql.Planner

/-!
# Statements

The rest of `src/sql/executor.rs`: INSERT, UPDATE and DELETE, the validation of a
catalog, and the dispatch of a statement.

* `executeInsert`, `executeUpdate`, `executeDelete`.
* `validateCatalog` — row types, CHECK constraints, unique indexes and foreign
  keys of every table.
* `executeStatement`, `executeCatalog` — a statement on a working copy of the
  tables, kept only when it and the validation succeed.
-/

namespace RustyDB
namespace Sql

/-! ## Validation -/

/-- `validate_checks`: a row passes unless a CHECK is false of it. -/
def validateChecks (H : Host) (tables : Tables) (table : Table) (row : Row) :
    Except Fault Unit :=
  table.schema.constraints.forM (fun constraint =>
    match constraint with
    | .check name expr => do
      let result ← evalExpr H tables expr (boundColumns table.schema.name table.schema) row none ∅
      -- SQL CHECK accepts TRUE or UNKNOWN and rejects FALSE.
      if result.truth = .false then
        let shown := name.getD "<unnamed>"
        refuse s!"CHECK constraint '{shown}' failed"
      else pure ()
    | _ => pure ())

/-- The positions of columns that a foreign key names. -/
def columnPositions (schema : TableSchema) (columns : List String) (what : String) :
    Except Fault (List Nat) :=
  columns.mapM (fun column =>
    match schema.columnIndex column with
    | some index => .ok index
    | none => refuse s!"Unknown {what} column '{column}'")

/-- `key[index]`. -/
def keyAt (key : List Value) (index : Nat) : Except Fault Value := rowAt key index

/-- A parent row carries the key of a child row. -/
def parentMatches (parentIndices : List Nat) (key : List Value) (row : Row) :
    Except Fault Bool :=
  parentIndices.zipIdx.allM (fun entry => do
    let value ← rowAt row entry.1
    let wanted ← keyAt key entry.2
    pure (value.eq wanted))

/-- One child row against the parent table. -/
def validateChildRow (foreignKey : ForeignKeyConstraint) (childIndices parentIndices : List Nat)
    (parentRows : List Row) (childRow : Row) : Except Fault Unit := do
  let key ← childIndices.mapM (rowAt childRow)
  if key.any Value.isNull then pure ()
  else do
    let found ← parentRows.anyM (parentMatches parentIndices key)
    if found then pure ()
    else
      let shown := foreignKey.name.getD "<unnamed>"
      refuse s!"FOREIGN KEY constraint '{shown}' failed"

/-- The check of one foreign key of a table, over all its rows. -/
def validateForeignKey (tables : Tables) (table : Table) (foreignKey : ForeignKeyConstraint) :
    Except Fault Unit :=
  match tables.lookup foreignKey.foreignTable with
  | none => refuse s!"Foreign key references missing table '{foreignKey.foreignTable}'"
  | some parent =>
    let parentIsUnique := parent.schema.indexes.any (fun index =>
      index.unique && index.columns.map toAsciiLowercase ==
        foreignKey.referredColumns.map toAsciiLowercase)
    if !parentIsUnique then
      let joined := String.intercalate ", " foreignKey.referredColumns
      refuse
        s!"Foreign key target {foreignKey.foreignTable}({joined}) is not PRIMARY KEY or UNIQUE"
    else do
      let childIndices ← columnPositions table.schema foreignKey.columns "foreign-key"
      let parentIndices ← columnPositions parent.schema foreignKey.referredColumns "referenced"
      table.rows.forM (validateChildRow foreignKey childIndices parentIndices parent.rows)

/-- `validate_foreign_keys`. -/
def validateForeignKeys (H : Host) (tables : Tables) : Except Fault Unit :=
  (tables.inOrder H).forM (fun entry =>
    entry.2.schema.constraints.forM (fun constraint =>
      match constraint with
      | .foreignKey foreignKey => validateForeignKey tables entry.2 foreignKey
      | _ => pure ()))

/-- The rows and unique indexes of one table. -/
def validateTable (H : Host) (tables : Tables) (table : Table) : Except Fault Unit := do
  table.rows.forM (fun row => do
    table.schema.validateRow row
    validateChecks H tables table row)
  validateUniqueIndexes H table

/-- `validate_catalog`. -/
def validateCatalog (H : Host) (tables : Tables) : Except Fault Unit := do
  (tables.inOrder H).forM (fun entry => validateTable H tables entry.2)
  validateForeignKeys H tables

/-- The last step of INSERT, UPDATE and DELETE. -/
def publishTable (H : Host) (tables : Tables) (name : String) (table : Table) (count : Nat) :
    Outcome := do
  let tables := tables.insert name table
  validateCatalog H tables
  pure (.rowsAffected count, tables)

/-! ## INSERT -/

/-- The rows a source yields, as expressions. -/
def insertValues (H : Host) (tables : Tables) : InsertSource → Except Fault (List (List Expr))
  | .values values => .ok values
  | .query query => do
    let relation ← executeQuery H tables query ∅
    pure (relation.rows.map (fun row => row.map Expr.literal))

/-- The values of a row put at the columns that the statement names. -/
def placeValues (schema : TableSchema) (ordered : Row) (used : List Nat) :
    List (String × Value) → Except Fault Row
  | [] => .ok ordered
  | (column, value) :: rest =>
    match schema.columnIndex column with
    | none => refuse s!"Unknown column '{column}'"
    | some index =>
      if index ∈ used then refuse s!"Duplicate column '{column}'"
      else placeValues schema (ordered.set index value) (index :: used) rest

/-- A NULL takes the column's default, and a value its column's type where it can. -/
def completeValue (value : Value) (column : ColumnDef) : Value :=
  let value := if value.isNull then column.default.getD value else value
  (value.coerceTo column.dataType).getD value

/-- The values of a row in column order. -/
def orderValues (schema : TableSchema) (columns : Option (List String)) (raw : Row) :
    Except Fault Row :=
  match columns with
  | some columns =>
    if columns.length ≠ raw.length then
      refuse s!"Column count ({columns.length}) doesn't match value count ({raw.length})"
    else placeValues schema (List.replicate schema.columns.length Value.null) [] (columns.zip raw)
  | none =>
    if raw.length ≠ schema.columns.length then
      refuse s!"Expected {schema.columns.length} values, got {raw.length}"
    else .ok raw

/-- One row of an INSERT, complete and in column order. -/
def incomingRow (H : Host) (schema : TableSchema) (columns : Option (List String))
    (expressions : List Expr) : Except Fault Row := do
  let raw ← expressions.mapM (evalConstant H)
  let ordered ← orderValues schema columns raw
  pure (ordered.zipWith completeValue schema.columns)

mutual

/-- `bind_incoming`: VALUES(column) becomes the value of the incoming row. -/
def bindIncoming (schema : TableSchema) (incoming : Row) : Expr → Expr
  | .incoming column =>
    .literal (((schema.columnIndex column).bind (fun index => incoming[index]?)).getD .null)
  | .binary left op right =>
    .binary (bindIncoming schema incoming left) op (bindIncoming schema incoming right)
  | .unary op expr => .unary op (bindIncoming schema incoming expr)
  | .isNull expr negated => .isNull (bindIncoming schema incoming expr) negated
  | .like expr pattern negated =>
    .like (bindIncoming schema incoming expr) (bindIncoming schema incoming pattern) negated
  | .inList expr list negated =>
    .inList (bindIncoming schema incoming expr) (bindIncomings schema incoming list) negated
  | other => other

/-- `bind_incoming` on each expression of a list. -/
def bindIncomings (schema : TableSchema) (incoming : Row) : List Expr → List Expr
  | [] => []
  | expr :: exprs => bindIncoming schema incoming expr :: bindIncomings schema incoming exprs

end

/-- `row[index] = value`. -/
def assign (row : Row) (index : Nat) (value : Value) : Except Fault Row := do
  let _ ← rowAt row index
  pure (row.set index value)

/-- The assignments of ON DUPLICATE KEY UPDATE, each seeing the ones before. -/
def applyDuplicateUpdates (H : Host) (tables : Tables) (name : String) (schema : TableSchema)
    (incoming : Row) (updated : Row) : List (String × Expr) → Except Fault Row
  | [] => .ok updated
  | (column, expression) :: rest =>
    match schema.columnIndex column with
    | none => refuse s!"Unknown column '{column}'"
    | some index => do
      let bound := bindIncoming schema incoming expression
      let value ← evalExpr H tables bound (boundColumns name schema) updated none ∅
      let dataType := ((schema.columns[index]?).map ColumnDef.dataType).getD .null
      let updated ← assign updated index ((value.coerceTo dataType).getD value)
      applyDuplicateUpdates H tables name schema incoming updated rest

/-- `==` on rows. -/
def rowsEqual (left right : Row) : Bool :=
  left.length == right.length && (left.zip right).all (fun entry => entry.1.eq entry.2)

/-- The positions of the rows that an incoming row collides with, in order. -/
def conflictPositions (H : Host) (table : Table) (row : Row) : List Nat :=
  (List.range table.rowIds.length).filter
    (fun position => decide (position ∈ table.uniqueConflictPositions H row))

/-- One incoming row: inserted, or merged into the one row it collides with. -/
def insertRow (H : Host) (tables : Tables) (name : String) (onDuplicate : List (String × Expr))
    (table : Table) (row : Row) : Except Fault (Table × Nat) :=
  match conflictPositions H table row with
  | [] => do
    let table ← table.insertRowIndexed H row
    pure (table, 1)
  | position :: others =>
    if onDuplicate.isEmpty then refuse "Duplicate entry for PRIMARY or UNIQUE key"
    else if !others.isEmpty then refuse "ON DUPLICATE KEY matched multiple destination rows"
    else
      match table.rows[position]? with
      | none => .error .panic
      | some current => do
        let updated ← applyDuplicateUpdates H tables name table.schema row current onDuplicate
        if rowsEqual updated current then pure (table, 0)
        else do
          let table ← table.replaceRowIndexed H position updated
          pure (table, 2)

/-- The row loop of an INSERT.  The assignments of ON DUPLICATE KEY UPDATE are cloned for
each row, and a subquery in them may get the cached result of one cloned before. -/
def insertRows (H : Host) (tables : Tables) (name : String) (onDuplicate : List (String × Expr))
    (table : Table) (count : Nat) : List Row → Except Fault (Table × Nat)
  | [] => .ok (table, count)
  | row :: rows => do
    let (table, added) ←
      insertRow H tables name (H.recycled rows.length onDuplicate) table row
    insertRows H tables name onDuplicate table (count + added) rows

/-- `execute_insert`. -/
def executeInsert (H : Host) (tables : Tables) (tableName : String)
    (columns : Option (List String)) (source : InsertSource)
    (onDuplicate : List (String × Expr)) : Outcome := do
  let name := toAsciiLowercase tableName
  let values ← insertValues H tables source
  match tables.lookup name with
  | none => refuse s!"Table '{name}' does not exist"
  | some existing => do
    let rows ← values.mapM (incomingRow H existing.schema columns)
    let (table, count) ← insertRows H tables name onDuplicate existing 0 rows
    publishTable H tables name table count

/-! ## UPDATE and DELETE -/

/-- WHERE holds on a row. -/
def selectsRow (H : Host) (tables : Tables) (name : String) (schema : TableSchema)
    (selection : Option Expr) (row : Row) : Except Fault Bool :=
  match selection with
  | none => .ok true
  | some expr => do
    let value ← evalExpr H tables expr (boundColumns name schema) row none ∅
    pure (decide (value.truth = .true))

/-- A position is reached by the scan and its row is selected. -/
def affects (H : Host) (tables : Tables) (name : String) (table : Table)
    (candidates : Option BestIndex) (selection : Option Expr) (entry : Row × Nat) :
    Except Fault Bool :=
  if table.isCandidate candidates entry.2 then
    selectsRow H tables name table.schema selection entry.1
  else .ok false

/-- The assignments of UPDATE, evaluated on the row as it was. -/
def applyAssignments (H : Host) (tables : Tables) (name : String) (schema : TableSchema)
    (original : Row) (row : Row) : List (String × Expr) → Except Fault Row
  | [] => .ok row
  | (column, expression) :: rest =>
    match schema.columnIndex column with
    | none => refuse s!"Unknown column '{column}'"
    | some index => do
      let value ← evalExpr H tables expression (boundColumns name schema) original none ∅
      let dataType := ((schema.columns[index]?).map ColumnDef.dataType).getD .null
      match value.coerceTo dataType with
      | none => refuse s!"Type mismatch for column '{column}'"
      | some coerced => do
        let row ← assign row index coerced
        applyAssignments H tables name schema original row rest

/-- One position of the UPDATE loop: the row after it, and whether it was updated. -/
def updateRow (H : Host) (tables : Tables) (name : String) (table : Table)
    (candidates : Option BestIndex) (assignments : List (String × Expr))
    (selection : Option Expr) (entry : Row × Nat) : Except Fault (Row × Bool) := do
  let selected ← affects H tables name table candidates selection entry
  if selected then
    let row ← applyAssignments H tables name table.schema entry.1 entry.1 assignments
    pure (row, true)
  else pure (entry.1, false)

/-- `execute_update`. -/
def executeUpdate (H : Host) (tables : Tables) (tableName : String)
    (assignments : List (String × Expr)) (selection : Option Expr) : Outcome :=
  let name := toAsciiLowercase tableName
  match tables.lookup name with
  | none => refuse s!"Table '{name}' does not exist"
  | some table => do
    let candidates := table.candidateRowIds H selection
    let updated ← table.rows.zipIdx.mapM
      (updateRow H tables name table candidates assignments selection)
    let rows := updated.map Prod.fst
    publishTable H tables name (Table.rebuildIndex H { table with rows })
      (updated.filter Prod.snd).length

/-- One position of the DELETE loop: the row and identifier kept, or nothing. -/
def keepRow (H : Host) (tables : Tables) (name : String) (table : Table)
    (candidates : Option BestIndex) (selection : Option Expr) (entry : Row × Nat) :
    Except Fault (Option (Row × Nat)) := do
  let deleted ← affects H tables name table candidates selection entry
  if deleted then pure none
  else
    match table.rowIds[entry.2]? with
    | some rowId => pure (some (entry.1, rowId))
    | none => .error .panic

/-- `execute_delete`. -/
def executeDelete (H : Host) (tables : Tables) (tableName : String) (selection : Option Expr) :
    Outcome :=
  let name := toAsciiLowercase tableName
  match tables.lookup name with
  | none => refuse s!"Table '{name}' does not exist"
  | some table => do
    let candidates := table.candidateRowIds H selection
    let kept ← table.rows.zipIdx.mapM (keepRow H tables name table candidates selection)
    let remaining := kept.filterMap id
    publishTable H tables name
      (Table.rebuildIndex H
        { table with rows := remaining.map Prod.fst, rowIds := remaining.map Prod.snd })
      (kept.filter Option.isNone).length

/-! ## Dispatch -/

/-- `is_write_statement`. -/
def isWriteStatement : Statement → Bool
  | .createTable _ _ _ _ => true
  | .dropTable _ _ => true
  | .createIndex _ _ _ _ _ => true
  | .dropIndex _ _ _ => true
  | .alterTable _ _ => true
  | .insert _ _ _ _ => true
  | .update _ _ _ => true
  | .delete _ _ => true
  | _ => false

/-- BEGIN, COMMIT and ROLLBACK. -/
def isTransactionControl : Statement → Bool
  | .begin => true
  | .commit => true
  | .rollback => true
  | _ => false

/-- `execute_statement`. -/
def executeStatement (H : Host) (tables : Tables) : Statement → Outcome
  | .createTable tableName columns constraints ifNotExists =>
    executeCreateTable H tables tableName columns constraints ifNotExists
  | .dropTable tableName ifExists => executeDropTable H tables tableName ifExists
  | .createIndex name tableName columns unique ifNotExists =>
    executeCreateIndex H tables name tableName columns unique ifNotExists
  | .dropIndex name tableName ifExists => executeDropIndex H tables name tableName ifExists
  | .alterTable tableName operations => executeAlterTable H tables tableName operations
  | .insert tableName columns source onDuplicate =>
    executeInsert H tables tableName columns source onDuplicate
  | .query query => do
    let relation ← executeQuery H tables query ∅
    pure (.select (relationToResult relation), tables)
  | .update tableName assignments selection =>
    executeUpdate H tables tableName assignments selection
  | .delete tableName selection => executeDelete H tables tableName selection
  | .showTables => .ok (.tables (tables.keys.insertionSort (· ≤ ·)), tables)
  | .showIndexes tableName =>
    match tables.lookup (toAsciiLowercase tableName) with
    | some table => .ok (.indexes table.schema.indexes, tables)
    | none => refuse s!"Table '{tableName}' does not exist"
  | .describeTable tableName =>
    match tables.lookup (toAsciiLowercase tableName) with
    | some table => .ok (.tableDescription table.schema.name table.schema.columns, tables)
    | none => refuse s!"Table '{tableName}' does not exist"
  | .explain statement => .ok (.explain (explainStatement H tables statement), tables)
  | .begin => refuse "Transaction control requires a session"
  | .commit => refuse "Transaction control requires a session"
  | .rollback => refuse "Transaction control requires a session"
  | _ => refuse "Prepared statements and user variables require a session"

/-- `Executor::execute_catalog`: a write is validated before it is kept. -/
def executeCatalog (H : Host) (tables : Tables) (statement : Statement) : Outcome :=
  if isWriteStatement statement then do
    let (result, working) ← executeStatement H tables statement
    validateCatalog H working
    pure (result, working)
  else executeStatement H tables statement

end Sql
end RustyDB
