import Mathlib
import RustyDB.Sql.Query

/-!
# Schema changes

The DDL of `src/sql/executor.rs`: CREATE and DROP TABLE, CREATE and DROP INDEX,
and the operations of ALTER TABLE.

* `executeCreateTable`, `executeDropTable`, `executeCreateIndex`,
  `executeDropIndex`, `executeAlterTable` — the statements.
* `refreshConstraintMetadata` — column flags and automatic indexes recomputed from
  the constraints, the manual indexes kept, every runtime index rebuilt.
* `applyAlterOperation` — one operation, which may also rewrite the foreign keys
  of other tables.
-/

namespace RustyDB
namespace Sql

/-- The result of a statement that succeeds. -/
inductive ExecutionResult where
  | select (result : ResultSet)
  | rowsAffected (count : Nat)
  | tableCreated (name : String)
  | tableDropped (name : String)
  | indexCreated (name : String)
  | indexDropped (name : String)
  | tables (names : List String)
  | indexes (indexes : List IndexDef)
  | tableDescription (tableName : String) (columns : List ColumnDef)
  | explain (lines : List String)
  | transactionStarted
  | transactionCommitted
  | transactionRolledBack

/-- What a statement does to the tables when it succeeds, or its error. -/
abbrev Outcome := Except Fault (ExecutionResult × Tables)

/-- Return an error. -/
def refuse {α : Type} (message : String) : Except Fault α := .error (.error message)

/-! ## Columns and constraints -/

/-- Change the first column of a name. -/
def updateColumn (name : String) (f : ColumnDef → ColumnDef) : List ColumnDef → List ColumnDef
  | [] => []
  | column :: columns =>
    if eqIgnoreAsciiCase column.name name then f column :: columns
    else column :: updateColumn name f columns

/-- The flags a PRIMARY KEY gives its columns. -/
def markPrimaryKey (keyColumns : List String) (columns : List ColumnDef) : List ColumnDef :=
  let single := keyColumns.length == 1
  keyColumns.foldl
    (fun columns name => updateColumn name
      (fun column => { column with nullable := false, unique := single, primaryKey := single })
      columns)
    columns

/-- The columns that a constraint is over. -/
def constraintColumns : TableConstraint → List String
  | .primaryKey _ columns => columns
  | .unique _ columns => columns
  | .foreignKey foreignKey => foreignKey.columns
  | .check _ _ => []

/-- The name that a constraint was given. -/
def constraintName : TableConstraint → Option String
  | .primaryKey name _ => name
  | .unique name _ => name
  | .check name _ => name
  | .foreignKey foreignKey => foreignKey.name

/-- The name of a constraint, given or generated. -/
def generatedConstraintName (table : String) : TableConstraint → String
  | .primaryKey name _ => name.getD s!"{table}_pk"
  | .unique name columns =>
    let joined := String.intercalate "_" columns
    name.getD s!"{table}_{joined}_uk"
  | .foreignKey foreignKey =>
    let joined := String.intercalate "_" foreignKey.columns
    foreignKey.name.getD s!"{table}_{joined}_fk"
  | .check name _ => name.getD s!"{table}_check"

/-- A PRIMARY KEY. -/
def isPrimaryKey : TableConstraint → Bool
  | .primaryKey _ _ => true
  | _ => false

/-- `std::mem::discriminant` equality. -/
def sameKind : TableConstraint → TableConstraint → Bool
  | .primaryKey _ _, .primaryKey _ _ => true
  | .unique _ _, .unique _ _ => true
  | .check _ _, .check _ _ => true
  | .foreignKey _, .foreignKey _ => true
  | _, _ => false

/-- A constraint is a foreign key to a table. -/
def references (tableName : String) : TableConstraint → Bool
  | .foreignKey foreignKey => eqIgnoreAsciiCase foreignKey.foreignTable tableName
  | _ => false

/-! ## CREATE and DROP TABLE -/

/-- The first column whose name occurs before. -/
def firstDuplicate (seen : List String) : List ColumnDef → Option ColumnDef
  | [] => none
  | column :: columns =>
    if toAsciiLowercase column.name ∈ seen then some column
    else firstDuplicate (toAsciiLowercase column.name :: seen) columns

/-- The column flags and the number of primary keys after one constraint. -/
def applyKeyFlags (columns : List ColumnDef) (primaryKeys : Nat) :
    TableConstraint → List ColumnDef × Nat
  | .primaryKey _ keyColumns => (markPrimaryKey keyColumns columns, primaryKeys + 1)
  | _ => (columns, primaryKeys)

/-- The constraint loop of `execute_create_table`: the columns with their key
flags and the number of primary keys. -/
def applyConstraints (seen : List String) (columns : List ColumnDef) (primaryKeys : Nat) :
    List TableConstraint → Except Fault (List ColumnDef × Nat)
  | [] => .ok (columns, primaryKeys)
  | constraint :: constraints =>
    match (constraintColumns constraint).find?
        (fun column => !seen.contains (toAsciiLowercase column)) with
    | some column => refuse s!"Unknown constrained column '{column}'"
    | none =>
      let flagged := applyKeyFlags columns primaryKeys constraint
      applyConstraints seen flagged.1 flagged.2 constraints

/-- `execute_create_table`. -/
def executeCreateTable (H : Host) (tables : Tables) (tableName : String)
    (columns : List ColumnDef) (constraints : List TableConstraint) (ifNotExists : Bool) :
    Outcome :=
  let name := toAsciiLowercase tableName
  if (tables.lookup name).isSome then
    if ifNotExists then .ok (.tableCreated name, tables)
    else refuse s!"Table '{name}' already exists"
  else
    match firstDuplicate [] columns with
    | some column => refuse s!"Duplicate column '{column.name}'"
    | none => do
      let seen := columns.map (fun column => toAsciiLowercase column.name)
      let (columns, primaryKeys) ← applyConstraints seen columns 0 constraints
      if 1 < primaryKeys then refuse "A table may have only one PRIMARY KEY"
      else
        let schema : TableSchema := { name, columns, constraints, indexes := [] }
        let schema := { schema with indexes := automaticIndexes schema }
        pure (.tableCreated name, tables.insert name (Table.new H schema))

/-- `execute_drop_table`. -/
def executeDropTable (H : Host) (tables : Tables) (tableName : String) (ifExists : Bool) :
    Outcome :=
  let name := toAsciiLowercase tableName
  if (tables.lookup name).isNone then
    if ifExists then .ok (.tableDropped name, tables)
    else refuse s!"Table '{name}' does not exist"
  else
    match (tables.inOrder H).find? (fun entry =>
        entry.1 != name && entry.2.schema.constraints.any (references name)) with
    | some entry =>
      refuse s!"Cannot drop table '{name}': referenced by table '{entry.1}'"
    | none => .ok (.tableDropped name, tables.erase name)

/-! ## Unique indexes -/

/-- A unique index holds two rows under one key without NULL. -/
def BTreeIndex.hasDuplicate (index : BTreeIndex) : Bool :=
  index.entries.entries.any (fun entry =>
    decide (KeyPart.null ∉ entry.1) && decide (1 < entry.2.card))

/-- `validate_unique_indexes`. -/
def validateUniqueIndexes (H : Host) (table : Table) : Except Fault Unit :=
  match (table.indexValues H).find? (fun index =>
      index.definition.unique && index.hasDuplicate) with
  | some index => refuse s!"UNIQUE constraint '{index.definition.name}' failed"
  | none => .ok ()

/-! ## CREATE and DROP INDEX -/

/-- `execute_create_index`. -/
def executeCreateIndex (H : Host) (tables : Tables) (name tableName : String)
    (columns : List String) (unique ifNotExists : Bool) : Outcome :=
  let tableName := toAsciiLowercase tableName
  match tables.lookup tableName with
  | none => refuse s!"Table '{tableName}' does not exist"
  | some existing =>
    if existing.schema.indexes.any (fun index => eqIgnoreAsciiCase index.name name) then
      if ifNotExists then .ok (.indexCreated name, tables)
      else refuse s!"Index '{name}' already exists"
    else if columns.isEmpty then refuse "An index requires at least one column"
    else
      match columns.find? (fun column => (existing.schema.columnIndex column).isNone) with
      | some column => refuse s!"Unknown column '{column}'"
      | none => do
        let definition : IndexDef :=
          { name := toAsciiLowercase name, columns, unique, automatic := false }
        let schema := { existing.schema with indexes := existing.schema.indexes ++ [definition] }
        let table := Table.rebuildIndex H { existing with schema }
        validateUniqueIndexes H table
        pure (.indexCreated name, tables.insert tableName table)

/-- `execute_drop_index`. -/
def executeDropIndex (H : Host) (tables : Tables) (name tableName : String) (ifExists : Bool) :
    Outcome :=
  let tableName := toAsciiLowercase tableName
  match tables.lookup tableName with
  | none => refuse s!"Table '{tableName}' does not exist"
  | some existing =>
    match existing.schema.indexes.findIdx? (fun index => eqIgnoreAsciiCase index.name name) with
    | none =>
      if ifExists then .ok (.indexDropped name, tables)
      else refuse s!"Index '{name}' does not exist"
    | some position =>
      if ((existing.schema.indexes[position]?).map IndexDef.automatic).getD false then
        refuse s!"Cannot drop index '{name}': required by a constraint"
      else
        let schema := { existing.schema with
          indexes := existing.schema.indexes.eraseIdx position }
        .ok (.indexDropped name,
          tables.insert tableName (Table.rebuildIndex H { existing with schema }))

/-! ## ALTER TABLE -/

/-- One constraint's part in `refresh_constraint_metadata`. -/
def markConstraint (columns : List ColumnDef) : TableConstraint → List ColumnDef
  | .primaryKey _ keyColumns => markPrimaryKey keyColumns columns
  | .unique _ [name] => updateColumn name (fun column => { column with unique := true }) columns
  | _ => columns

/-- The schema with its column flags and automatic indexes recomputed. -/
def refreshSchema (schema : TableSchema) : TableSchema :=
  let cleared := schema.columns.map (fun column =>
    { column with primaryKey := false, unique := false })
  let columns := schema.constraints.foldl markConstraint cleared
  let manual := schema.indexes.filter (fun index => !index.automatic)
  let schema := { schema with columns }
  { schema with indexes := automaticIndexes schema ++ manual }

/-- `refresh_constraint_metadata`. -/
def refreshConstraintMetadata (H : Host) (table : Table) : Table :=
  Table.rebuildIndex H { table with schema := refreshSchema table.schema }

/-- `rename_names` on one name. -/
def renameName (old new name : String) : String := if eqIgnoreAsciiCase name old then new else name

mutual

/-- `rename_expr`: an operand of `IN (subquery)`, a subquery and the argument of an aggregate are
left alone. -/
def renameExpr (old new : String) : Expr → Expr
  | .column qualifier name => .column qualifier (renameName old new name)
  | .binary left op right => .binary (renameExpr old new left) op (renameExpr old new right)
  | .unary op expr => .unary op (renameExpr old new expr)
  | .isNull expr negated => .isNull (renameExpr old new expr) negated
  | .like expr pattern negated =>
    .like (renameExpr old new expr) (renameExpr old new pattern) negated
  | .inList expr list negated =>
    .inList (renameExpr old new expr) (renameExprs old new list) negated
  | other => other

/-- `rename_expr` on each expression of a list. -/
def renameExprs (old new : String) : List Expr → List Expr
  | [] => []
  | expr :: exprs => renameExpr old new expr :: renameExprs old new exprs

end

/-- The references of one constraint follow a renamed column. -/
def renameInConstraint (schemaName old new : String) : TableConstraint → TableConstraint
  | .primaryKey name columns => .primaryKey name (columns.map (renameName old new))
  | .unique name columns => .unique name (columns.map (renameName old new))
  | .foreignKey foreignKey =>
    .foreignKey { foreignKey with
      columns := foreignKey.columns.map (renameName old new)
      referredColumns :=
        if eqIgnoreAsciiCase foreignKey.foreignTable schemaName then
          foreignKey.referredColumns.map (renameName old new)
        else foreignKey.referredColumns }
  | .check name expr => .check name (renameExpr old new expr)

/-- `rename_schema_references`. -/
def renameSchemaReferences (schema : TableSchema) (old new : String) : TableSchema :=
  { schema with
    constraints := schema.constraints.map (renameInConstraint schema.name old new)
    indexes := schema.indexes.map (fun index =>
      { index with columns := index.columns.map (renameName old new) }) }

/-- The foreign keys of another table follow a renamed column they refer to. -/
def renameReferred (tableName old new : String) : TableConstraint → TableConstraint
  | .foreignKey foreignKey =>
    if eqIgnoreAsciiCase foreignKey.foreignTable tableName then
      .foreignKey { foreignKey with
        referredColumns := foreignKey.referredColumns.map (renameName old new) }
    else .foreignKey foreignKey
  | other => other

/-- A foreign key of another table refers to the column. -/
def refersTo (tableName column : String) : TableConstraint → Bool
  | .foreignKey foreignKey =>
    eqIgnoreAsciiCase foreignKey.foreignTable tableName &&
      foreignKey.referredColumns.any (fun name => eqIgnoreAsciiCase name column)
  | _ => false

/-- The other tables after a column has been renamed. -/
def renameInOthers (H : Host) (tables : Tables) (tableName old new : String) : Tables :=
  KeyedIndex.mapValues
    (fun name other =>
      if name = tableName then other
      else if other.schema.constraints.any (refersTo tableName old) then
        refreshConstraintMetadata H { other with
          schema := { other.schema with
            constraints := other.schema.constraints.map (renameReferred tableName old new) } }
      else other)
    tables

mutual

/-- `validate_expr_columns`. -/
def validateExprColumns (schema : TableSchema) : Expr → Except Fault Unit
  | .column _ name =>
    if (schema.columnIndex name).isNone then refuse s!"Unknown column '{name}'" else .ok ()
  | .binary left _ right => do
    validateExprColumns schema left
    validateExprColumns schema right
  | .unary _ expr => validateExprColumns schema expr
  | .isNull expr _ => validateExprColumns schema expr
  | .like expr pattern _ => do
    validateExprColumns schema expr
    validateExprColumns schema pattern
  | .inList expr list _ => do
    validateExprColumns schema expr
    validateExprsColumns schema list
  | _ => .ok ()

/-- `validate_expr_columns` on each expression of a list. -/
def validateExprsColumns (schema : TableSchema) : List Expr → Except Fault Unit
  | [] => .ok ()
  | expr :: exprs => do
    validateExprColumns schema expr
    validateExprsColumns schema exprs

end

/-- Convert one column of every row, or refuse. -/
def coerceColumn (rows : List Row) (index : Nat) (dataType : DataType) (message : String) :
    Except Fault (List Row) :=
  rows.mapM (fun row => do
    let value ← rowAt row index
    match value.coerceTo dataType with
    | some value => pure (row.set index value)
    | none => refuse message)

/-- `row.values.remove(index)`. -/
def removeColumn (rows : List Row) (index : Nat) : Except Fault (List Row) :=
  rows.mapM (fun row => do
    let _ ← rowAt row index
    pure (row.eraseIdx index))

/-- A schema with one column definition changed. -/
def TableSchema.modifyColumn (schema : TableSchema) (index : Nat)
    (f : ColumnDef → ColumnDef) : TableSchema :=
  { schema with columns := schema.columns.modify index f }

/-- The constraints of MODIFY COLUMN join those of the table unless one of their
kind has the same columns. -/
def addNewConstraints (constraints added : List TableConstraint) : List TableConstraint :=
  added.foldl
    (fun constraints constraint =>
      if constraints.any (fun existing => sameKind existing constraint &&
          constraintColumns existing == constraintColumns constraint) then constraints
      else constraints ++ [constraint])
    constraints

/-- The position of a column that an operation names. -/
def requireColumn (schema : TableSchema) (name : String) : Except Fault Nat :=
  match schema.columnIndex name with
  | some index => .ok index
  | none => refuse s!"Column '{name}' does not exist"

/-- ADD COLUMN; none when it exists and may. -/
def addColumn (table : Table) (column : ColumnDef) (constraints : List TableConstraint)
    (ifNotExists : Bool) : Except Fault (Option Table) :=
  if (table.schema.columnIndex column.name).isSome then
    if ifNotExists then .ok none else refuse s!"Column '{column.name}' already exists"
  else
    match (column.default.getD .null).coerceTo column.dataType with
    | none =>
      refuse
        s!"Default for column '{column.name}' cannot be converted to {column.dataType.display}"
    | some value =>
      if value.isNull && !column.nullable && !table.rows.isEmpty then
        refuse s!"Column '{column.name}' cannot be NULL"
      else
        .ok (some { table with
          rows := table.rows.map (fun row => row ++ [value])
          schema := { table.schema with
            columns := table.schema.columns ++ [column]
            constraints := table.schema.constraints ++ constraints } })

/-- DROP COLUMN; none when it is missing and may be. -/
def dropColumn (H : Host) (tables : Tables) (tableName : String) (table : Table) (name : String)
    (ifExists : Bool) : Except Fault (Option Table) :=
  match table.schema.columnIndex name with
  | none => if ifExists then .ok none else refuse s!"Column '{name}' does not exist"
  | some index =>
    let named := fun columns : List String =>
      columns.any (fun column => eqIgnoreAsciiCase column name)
    let localReference :=
      table.schema.constraints.any (fun constraint => named (constraintColumns constraint)) ||
        table.schema.indexes.any (fun index => named index.columns)
    let inboundReference := (tables.inOrder H).any (fun entry =>
      entry.1 != tableName && entry.2.schema.constraints.any (refersTo tableName name))
    if table.schema.columns.length = 1 then refuse "Cannot drop the final column of a table"
    else if localReference || inboundReference then
      refuse s!"Cannot drop column '{name}': referenced by an index or constraint"
    else do
      let rows ← removeColumn table.rows index
      pure (some { table with
        rows
        schema := { table.schema with columns := table.schema.columns.eraseIdx index } })

/-- RENAME COLUMN, on its own table. -/
def renameColumn (table : Table) (oldName newName : String) : Except Fault Table :=
  if (table.schema.columnIndex newName).isSome then
    refuse s!"Column '{newName}' already exists"
  else do
    let index ← requireColumn table.schema oldName
    let schema := table.schema.modifyColumn index (fun column => { column with name := newName })
    pure { table with schema := renameSchemaReferences schema oldName newName }

/-- The references after MODIFY COLUMN has given a column another name. -/
def renameModified (schema : TableSchema) (oldName newName : String) :
    Except Fault TableSchema :=
  if eqIgnoreAsciiCase oldName newName then .ok schema
  else if (schema.columnIndex newName).isSome then refuse s!"Column '{newName}' already exists"
  else .ok (renameSchemaReferences schema oldName newName)

/-- MODIFY COLUMN and CHANGE COLUMN. -/
def modifyColumn (table : Table) (oldName : String) (column : ColumnDef)
    (constraints : List TableConstraint) : Except Fault Table := do
  let index ← requireColumn table.schema oldName
  let schema ← renameModified table.schema oldName column.name
  let rows ← coerceColumn table.rows index column.dataType
    s!"Value in column '{oldName}' cannot be converted to {column.dataType.display}"
  let schema := schema.modifyColumn index (fun _ => column)
  pure { table with
    rows
    schema := { schema with constraints := addNewConstraints schema.constraints constraints } }

/-- SET DEFAULT and DROP DEFAULT. -/
def setDefault (table : Table) (column : String) (value : Option Value) : Except Fault Table := do
  let index ← requireColumn table.schema column
  match table.schema.columns[index]?, value with
  | none, _ => .error .panic
  | some _, none =>
    pure { table with
      schema := table.schema.modifyColumn index (fun c => { c with default := none }) }
  | some definition, some value =>
    match value.coerceTo definition.dataType with
    | none => refuse s!"Default for column '{column}' has an incompatible type"
    | some value =>
      pure { table with
        schema := table.schema.modifyColumn index (fun c => { c with default := some value }) }

/-- Some row holds NULL at a position. -/
def holdsNull (rows : List Row) (index : Nat) : Except Fault Bool :=
  rows.anyM (fun row => do
    let value ← rowAt row index
    pure value.isNull)

/-- SET NOT NULL and DROP NOT NULL. -/
def setNullable (table : Table) (column : String) (nullable : Bool) : Except Fault Table := do
  let index ← requireColumn table.schema column
  match table.schema.columns[index]? with
  | none => .error .panic
  | some definition =>
    let altered := { table with
      schema := table.schema.modifyColumn index (fun c => { c with nullable }) }
    if nullable then
      if definition.primaryKey then refuse "PRIMARY KEY columns cannot be nullable"
      else pure altered
    else do
      let found ← holdsNull table.rows index
      if found then refuse s!"Column '{column}' contains NULL values" else pure altered

/-- The default of a column after its type has changed. -/
def coerceDefault (default : Option Value) (dataType : DataType) (message : String) :
    Except Fault (Option Value) :=
  match default with
  | none => .ok none
  | some value =>
    match value.coerceTo dataType with
    | some value => .ok (some value)
    | none => refuse message

/-- SET DATA TYPE. -/
def setDataType (table : Table) (column : String) (dataType : DataType) :
    Except Fault Table := do
  let index ← requireColumn table.schema column
  let rows ← coerceColumn table.rows index dataType
    s!"Value in column '{column}' cannot be converted to {dataType.display}"
  match table.schema.columns[index]? with
  | none => .error .panic
  | some definition =>
    let default ← coerceDefault definition.default dataType
      s!"Default in column '{column}' cannot be converted to {dataType.display}"
    pure { table with
      rows
      schema := table.schema.modifyColumn index (fun c => { c with default, dataType }) }

/-- The name of a new constraint when another one has it. -/
def takenName (schema : TableSchema) (constraint : TableConstraint) : Option String :=
  (constraintName constraint).filter (fun name =>
    (schema.constraints.filterMap constraintName).any
      (fun existing => eqIgnoreAsciiCase existing name))

/-- The columns of a CHECK constraint are known. -/
def validateCheckColumns (schema : TableSchema) : TableConstraint → Except Fault Unit
  | .check _ expr => validateExprColumns schema expr
  | _ => .ok ()

/-- ADD CONSTRAINT. -/
def addConstraint (table : Table) (constraint : TableConstraint) : Except Fault Table :=
  match takenName table.schema constraint with
  | some name => refuse s!"Constraint '{name}' already exists"
  | none =>
    if isPrimaryKey constraint && table.schema.constraints.any isPrimaryKey then
      refuse "A table may have only one PRIMARY KEY"
    else
      match (constraintColumns constraint).find?
          (fun column => (table.schema.columnIndex column).isNone) with
      | some column => refuse s!"Unknown constrained column '{column}'"
      | none => do
        validateCheckColumns table.schema constraint
        pure { table with
          schema := { table.schema with
            constraints := table.schema.constraints ++ [constraint] } }

/-- DROP CONSTRAINT means this constraint, by its own or its generated name. -/
def constraintIsNamed (tableName name : String) (constraint : TableConstraint) : Bool :=
  (constraintName constraint).any (fun value => eqIgnoreAsciiCase value name) ||
    eqIgnoreAsciiCase (generatedConstraintName tableName constraint) name

/-- DROP CONSTRAINT. -/
def dropConstraint (table : Table) (name : String) (ifExists : Bool) : Except Fault Table :=
  match table.schema.constraints.findIdx? (constraintIsNamed table.schema.name name) with
  | some position =>
    .ok { table with
      schema := { table.schema with
        constraints := table.schema.constraints.eraseIdx position } }
  | none => if ifExists then .ok table else refuse s!"Constraint '{name}' does not exist"

/-- DROP PRIMARY KEY. -/
def dropPrimaryKey (table : Table) : Except Fault Table :=
  match table.schema.constraints.findIdx? isPrimaryKey with
  | some position =>
    .ok { table with
      schema := { table.schema with
        constraints := table.schema.constraints.eraseIdx position } }
  | none => refuse "PRIMARY KEY does not exist"

/-- What an operation changes in its own table: `none` when it returns early with
nothing to do. -/
def alterTable (H : Host) (tables : Tables) (tableName : String) (table : Table) :
    AlterOperation → Except Fault (Option Table)
  | .addColumn column constraints ifNotExists => addColumn table column constraints ifNotExists
  | .dropColumn name ifExists => dropColumn H tables tableName table name ifExists
  | .renameColumn oldName newName => (renameColumn table oldName newName).map some
  | .modifyColumn oldName column constraints =>
    (modifyColumn table oldName column constraints).map some
  | .setDefault column value => (setDefault table column value).map some
  | .setNullable column nullable => (setNullable table column nullable).map some
  | .setDataType column dataType => (setDataType table column dataType).map some
  | .addConstraint constraint => (addConstraint table constraint).map some
  | .dropConstraint name ifExists => (dropConstraint table name ifExists).map some
  | .dropPrimaryKey => (dropPrimaryKey table).map some

/-- The other tables after an operation: only RENAME COLUMN reaches them. -/
def alterOthers (H : Host) (tables : Tables) (tableName : String) : AlterOperation → Tables
  | .renameColumn oldName newName => renameInOthers H tables tableName oldName newName
  | _ => tables

/-- `apply_alter_operation`. -/
def applyAlterOperation (H : Host) (tables : Tables) (tableName : String) (table : Table)
    (operation : AlterOperation) : Except Fault (Tables × Table) := do
  match ← alterTable H tables tableName table operation with
  | none => pure (tables, table)
  | some table =>
    pure (alterOthers H tables tableName operation, refreshConstraintMetadata H table)

/-- The operations of one statement, in order. -/
def applyAlterOperations (H : Host) (tableName : String) (tables : Tables) (table : Table) :
    List AlterOperation → Except Fault (Tables × Table)
  | [] => .ok (tables, table)
  | operation :: operations => do
    let (tables, table) ← applyAlterOperation H tables tableName table operation
    applyAlterOperations H tableName tables table operations

/-- `execute_alter_table`. -/
def executeAlterTable (H : Host) (tables : Tables) (tableName : String)
    (operations : List AlterOperation) : Outcome :=
  let name := toAsciiLowercase tableName
  match tables.lookup name with
  | none => refuse s!"Table '{name}' does not exist"
  | some existing => do
    let (tables, table) ← applyAlterOperations H name tables existing operations
    pure (.rowsAffected 0, tables.insert name (refreshConstraintMetadata H table))

end Sql
end RustyDB
