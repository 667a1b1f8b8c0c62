import Mathlib
import RustyDB.Sql.Convert
import RustyDB.Sql.Settled
import RustyDB.Sql.Persist

/-!
# Conversion of definitions

The model of the arms of `convert_statement` in `src/sql/parser.rs` for CREATE TABLE, CREATE
INDEX, ALTER TABLE, DROP and INSERT.  With the queries, UPDATE and DELETE these are all
statements with clauses.

* `Ast.CreateTable`, `Ast.AlterTable`, `Ast.Insert`, … — the nodes of `sqlparser`.
* `convertColumnDef`, `convertTableConstraint`, `convertAlterOperation`, `convertDefinition` —
  the conversion.
* `Statement.Formed` — names in lower case, constraints of a column about that column only,
  and a constraint behind every key flag.
* `Statement.SameNames` — what the numbering and the binding of parameters leave alone.
* `parseSql_formed`, `formed_bindParameters` — **whatever is parsed, or bound to values, is
  formed.**
-/

namespace RustyDB
namespace Sql

open Text

/-! ## The nodes of the grammar -/

namespace Ast

/-- The actions of ON DELETE and ON UPDATE. -/
inductive ReferentialAction where
  | restrict | cascade | setNull | noAction | setDefault

/-- The options of a column. -/
inductive ColumnOption where
  | null
  | notNull
  | default (expr : Expr)
  | unique (isPrimary : Bool)
  | check (expr : Expr)
  | foreignKey (foreignTable : ObjectName) (referredColumns : List String)
      (onDelete onUpdate : Option ReferentialAction)
  /-- Any other option, as it is displayed. -/
  | other (display : String)

/-- An option of a column with the name of its constraint. -/
structure ColumnOptionDef where
  name : Option String
  option : ColumnOption

/-- A column; its type as it is displayed. -/
structure ColumnDef where
  name : String
  dataType : String
  options : List ColumnOptionDef

/-- A table constraint of CREATE TABLE and ALTER TABLE. -/
inductive TableConstraint where
  | primaryKey (name : Option String) (columns : List String)
  | unique (name : Option String) (columns : List String)
  | check (name : Option String) (expr : Expr)
  | foreignKey (name : Option String) (columns : List String) (foreignTable : ObjectName)
      (referredColumns : List String) (onDelete onUpdate : Option ReferentialAction)
  | index
  /-- Any other constraint, as it is displayed. -/
  | other (display : String)

/-- CREATE TABLE; of AS, LIKE and CLONE only whether there is one. -/
structure CreateTable where
  name : ObjectName
  columns : List ColumnDef
  constraints : List TableConstraint
  ifNotExists : Bool
  query : Bool
  like : Bool
  clone : Bool

/-- CREATE INDEX; of USING, WHERE and INCLUDE only whether there is one. -/
structure CreateIndex where
  name : Option ObjectName
  tableName : ObjectName
  columns : List Expr
  unique : Bool
  ifNotExists : Bool
  usingMethod : Bool
  predicate : Bool
  included : Bool

/-- The operations of ALTER COLUMN. -/
inductive AlterColumnOperation where
  | setNotNull
  | dropNotNull
  | setDefault (value : Expr)
  | dropDefault
  | setDataType (dataType : String) (usingExpr : Bool)
  | other

/-- The operations of ALTER TABLE; of FIRST and AFTER only whether there is one. -/
inductive AlterTableOperation where
  | addColumn (columnDef : ColumnDef) (ifNotExists columnPosition : Bool)
  | dropColumn (columnName : String) (ifExists cascade : Bool)
  | renameColumn (oldColumnName newColumnName : String)
  | changeColumn (oldName newName dataType : String) (options : List ColumnOption)
      (columnPosition : Bool)
  | modifyColumn (colName dataType : String) (options : List ColumnOption)
      (columnPosition : Bool)
  | alterColumn (columnName : String) (op : AlterColumnOperation)
  | addConstraint (constraint : TableConstraint)
  | dropConstraint (ifExists : Bool) (name : String) (cascade : Bool)
  | dropPrimaryKey
  /-- Any other operation, as it is displayed. -/
  | other (display : String)

/-- ALTER TABLE; of LOCATION and ON CLUSTER only whether there is one. -/
structure AlterTable where
  name : ObjectName
  operations : List AlterTableOperation
  ifExists : Bool
  only : Bool
  location : Bool
  onCluster : Bool

/-- DROP; of the type of the objects only whether they are tables. -/
structure Drop where
  isTable : Bool
  ifExists : Bool
  names : List ObjectName

/-- The source of INSERT: a query that is VALUES with what may stand around the rows, or
another query. -/
inductive InsertSource where
  | values (withClause : Option With) (rows : List (List Expr)) (orderBy : Option OrderBy)
      (limit : Option Expr) (limitBy offset fetch : Bool)
  | query (query : Query)

/-- The conflict clause of an INSERT. -/
inductive OnInsert where
  | duplicateKeyUpdate (assignments : List (AssignmentTarget × Expr))
  /-- Any other conflict clause, as it is displayed. -/
  | other (display : String)

/-- An INSERT statement. -/
structure Insert where
  tableName : ObjectName
  columns : List String
  source : Option InsertSource
  on : Option OnInsert
  ignore : Bool
  replaceInto : Bool

/-- The statements with clauses that are no queries, UPDATE or DELETE. -/
inductive Definition where
  | createTable (create : CreateTable)
  | createIndex (create : CreateIndex)
  | alterTable (alter : AlterTable)
  | drop (drop : Drop)
  | insert (insert : Insert)

end Ast

/-! ## Conversion -/

/-- `to_ascii_uppercase`. -/
def toAsciiUppercase (text : String) : String := String.ofList (text.toList.map Char.toUpper)

/-- Whether a text starts with one of the words. -/
def startsWithAny (words : List String) (text : String) : Bool :=
  words.any fun word => word.toList.isPrefixOf text.toList

/-- `convert_data_type`, of a type as it is displayed. -/
def convertDataType (dataType : String) : Except String DataType :=
  let text := toAsciiUppercase dataType
  if startsWithAny ["INT", "INTEGER", "BIGINT", "SMALLINT"] text then .ok .integer
  else if startsWithAny ["FLOAT", "DOUBLE", "REAL", "DECIMAL", "NUMERIC"] text then .ok .float
  else if startsWithAny ["TEXT", "VARCHAR", "CHAR", "STRING"] text then .ok .text
  else if startsWithAny ["BOOL"] text then .ok .boolean
  else .error s!"Unsupported data type: {dataType}"

/-- `validate_referential_actions`. -/
def validateReferentialActions (onDelete onUpdate : Option Ast.ReferentialAction) :
    Except String Unit :=
  ([onDelete, onUpdate].filterMap id).forM fun action =>
    match action with
    | .restrict => .ok ()
    | .noAction => .ok ()
    | _ => .error "Only RESTRICT/NO ACTION foreign keys are supported"

/-- `ColumnDef::new`. -/
def ColumnDef.new (name : String) (dataType : DataType) : ColumnDef where
  name := name
  dataType := dataType
  nullable := true
  primaryKey := false
  unique := false
  default := none
  checks := []

section Convert

variable (G : Grammar)

/-- `literal_value`. -/
def literalValue (expr : Ast.Expr) : Except String Value := do
  match ← convertExpr G expr with
  | .literal value => pure value
  | _ => .error "DEFAULT must be a literal"

/-- The constraint of a foreign key. -/
def convertForeignKey (name : Option String) (columns : List String)
    (foreignTable : Ast.ObjectName) (referredColumns : List String)
    (onDelete onUpdate : Option Ast.ReferentialAction) : Except String TableConstraint := do
  validateReferentialActions onDelete onUpdate
  pure (.foreignKey ⟨name, columns, objectName foreignTable, referredColumns.map toAsciiLowercase⟩)

/-- One option of `convert_column_def`: the column, and the constraints it adds. -/
def convertColumnOption (converted : ColumnDef) (option : Ast.ColumnOptionDef) :
    Except String (ColumnDef × List TableConstraint) :=
  let constraintName := option.name.map toAsciiLowercase
  match option.option with
  | .null => .ok ({ converted with nullable := true }, [])
  | .notNull => .ok ({ converted with nullable := false }, [])
  | .default expr => do
    let value ← literalValue G expr
    pure ({ converted with default := some value }, [])
  | .unique true =>
    .ok ({ converted with primaryKey := true, unique := true, nullable := false }, [])
  | .unique false => .ok ({ converted with unique := true }, [])
  | .check expr => do
    let expr ← convertExpr G expr
    pure ({ converted with checks := converted.checks ++ [expr] }, [.check constraintName expr])
  | .foreignKey foreignTable referredColumns onDelete onUpdate => do
    let constraint ← convertForeignKey constraintName [converted.name] foreignTable
      referredColumns onDelete onUpdate
    pure (converted, [constraint])
  | .other display => .error s!"Unsupported column option: {display}"

/-- The loop over the options of a column in `convert_column_def`. -/
def convertColumnOptions (converted : ColumnDef) : List Ast.ColumnOptionDef →
    Except String (ColumnDef × List TableConstraint)
  | [] => .ok (converted, [])
  | option :: options => do
    let (converted, constraints) ← convertColumnOption G converted option
    let (converted, others) ← convertColumnOptions converted options
    pure (converted, constraints ++ others)

/-- The constraint behind the flags of a column. -/
def flagConstraints (converted : ColumnDef) : List TableConstraint :=
  if converted.primaryKey then [.primaryKey none [converted.name]]
  else if converted.unique then [.unique none [converted.name]]
  else []

/-- `convert_column_def`. -/
def convertColumnDef (column : Ast.ColumnDef) :
    Except String (ColumnDef × List TableConstraint) := do
  let dataType ← convertDataType column.dataType
  let (converted, constraints) ← convertColumnOptions G
    (.new (toAsciiLowercase column.name) dataType) column.options
  pure (converted, constraints ++ flagConstraints converted)

/-- `convert_table_constraint`. -/
def convertTableConstraint : Ast.TableConstraint → Except String TableConstraint
  | .primaryKey name columns =>
    .ok (.primaryKey (name.map toAsciiLowercase) (columns.map toAsciiLowercase))
  | .unique name columns =>
    .ok (.unique (name.map toAsciiLowercase) (columns.map toAsciiLowercase))
  | .check name expr => do
    let expr ← convertExpr G expr
    pure (.check (name.map toAsciiLowercase) expr)
  | .foreignKey name columns foreignTable referredColumns onDelete onUpdate =>
    convertForeignKey (name.map toAsciiLowercase) (columns.map toAsciiLowercase) foreignTable
      referredColumns onDelete onUpdate
  | .index =>
    .error "Inline INDEX declarations are unsupported; use CREATE INDEX after CREATE TABLE"
  | .other display => .error s!"Unsupported table constraint: {display}"

/-- `convert_create_table`. -/
def convertCreateTable (create : Ast.CreateTable) : Except String Statement :=
  if create.query || create.like || create.clone then
    .error "CREATE TABLE AS/LIKE/CLONE is unsupported"
  else do
    let columns ← create.columns.mapM (convertColumnDef G)
    let constraints ← create.constraints.mapM (convertTableConstraint G)
    pure (.createTable (objectName create.name) (columns.map Prod.fst)
      (columns.flatMap Prod.snd ++ constraints) create.ifNotExists)

/-- A column of an index. -/
def convertIndexColumn : Ast.Expr → Except String String
  | .identifier name => .ok (toAsciiLowercase name)
  | _ => .error "Index expressions are unsupported"

/-- The arm of `convert_statement` for CREATE INDEX. -/
def convertCreateIndex (create : Ast.CreateIndex) : Except String Statement :=
  if create.usingMethod || create.predicate || create.included then
    .error "Partial, covering, and non-B-tree indexes are unsupported"
  else
    match create.name with
    | none => .error "CREATE INDEX requires an index name"
    | some name => do
      let columns ← create.columns.mapM convertIndexColumn
      pure (.createIndex (objectName name) (objectName create.tableName) columns create.unique
        create.ifNotExists)

/-- The operations of ALTER COLUMN. -/
def convertAlterColumn (column : String) : Ast.AlterColumnOperation →
    Except String AlterOperation
  | .setNotNull => .ok (.setNullable column false)
  | .dropNotNull => .ok (.setNullable column true)
  | .setDefault value => do
    let value ← literalValue G value
    pure (.setDefault column (some value))
  | .dropDefault => .ok (.setDefault column none)
  | .setDataType dataType false => do
    let dataType ← convertDataType dataType
    pure (.setDataType column dataType)
  | _ => .error "Unsupported ALTER COLUMN operation"

/-- `convert_alter_operation`. -/
def convertAlterOperation : Ast.AlterTableOperation → Except String AlterOperation
  | .addColumn columnDef ifNotExists columnPosition =>
    if columnPosition then .error "ALTER TABLE column positioning is unsupported"
    else do
      let (column, constraints) ← convertColumnDef G columnDef
      pure (.addColumn column constraints ifNotExists)
  | .dropColumn columnName ifExists cascade =>
    if cascade then .error "ALTER TABLE DROP COLUMN CASCADE is unsupported"
    else .ok (.dropColumn (toAsciiLowercase columnName) ifExists)
  | .renameColumn oldColumnName newColumnName =>
    .ok (.renameColumn (toAsciiLowercase oldColumnName) (toAsciiLowercase newColumnName))
  | .changeColumn oldName newName dataType options columnPosition =>
    if columnPosition then .error "ALTER TABLE column positioning is unsupported"
    else do
      let (column, constraints) ← convertColumnDef G
        ⟨newName, dataType, options.map (Ast.ColumnOptionDef.mk none)⟩
      pure (.modifyColumn (toAsciiLowercase oldName) column constraints)
  | .modifyColumn colName dataType options columnPosition =>
    if columnPosition then .error "ALTER TABLE column positioning is unsupported"
    else do
      let (column, constraints) ← convertColumnDef G
        ⟨colName, dataType, options.map (Ast.ColumnOptionDef.mk none)⟩
      pure (.modifyColumn (toAsciiLowercase colName) column constraints)
  | .alterColumn columnName op => convertAlterColumn G (cleanIdentifier columnName.toList) op
  | .addConstraint constraint => (convertTableConstraint G constraint).map .addConstraint
  | .dropConstraint ifExists name cascade =>
    if cascade then .error "ALTER TABLE DROP CONSTRAINT CASCADE is unsupported"
    else .ok (.dropConstraint (toAsciiLowercase name) ifExists)
  | .dropPrimaryKey => .ok .dropPrimaryKey
  | .other display => .error s!"Unsupported ALTER TABLE operation: {display}"

/-- The arm of `convert_statement` for ALTER TABLE. -/
def convertAlterTable (alter : Ast.AlterTable) : Except String Statement :=
  if alter.ifExists || alter.only || alter.location || alter.onCluster then
    .error "ALTER TABLE IF EXISTS/ONLY/location/cluster is unsupported"
  else do
    let operations ← alter.operations.mapM (convertAlterOperation G)
    pure (.alterTable (objectName alter.name) operations)

/-- The arm of `convert_statement` for DROP. -/
def convertDrop (drop : Ast.Drop) : Except String Statement :=
  match drop.isTable, drop.names with
  | true, [name] => .ok (.dropTable (objectName name) drop.ifExists)
  | _, _ => .error "Only DROP TABLE is supported by this form"

/-- The source of INSERT.  Of VALUES the rows are taken. -/
def convertInsertSource : Ast.InsertSource → Except String InsertSource
  | .values _ rows _ _ _ _ _ => do
    let rows ← rows.mapM fun row => row.mapM (convertExpr G)
    pure (.values rows)
  | .query query => do
    let query ← convertQuery G query
    pure (.query query)

/-- The conflict clause of `convert_insert`. -/
def convertOnInsert : Option Ast.OnInsert → Except String (List (String × Expr))
  | none => .ok []
  | some (.duplicateKeyUpdate assignments) => convertAssignments G assignments
  | some (.other display) => .error s!"Unsupported INSERT conflict clause: {display}"

/-- `convert_insert`. -/
def convertInsert (insert : Ast.Insert) : Except String Statement :=
  if insert.ignore || insert.replaceInto then
    .error "INSERT IGNORE/REPLACE clauses are unsupported"
  else
    match insert.source with
    | none => .error "INSERT requires VALUES"
    | some source => do
      let source ← convertInsertSource G source
      let onDuplicate ← convertOnInsert G insert.on
      let columns :=
        if insert.columns.isEmpty then none else some (insert.columns.map toAsciiLowercase)
      pure (.insert (objectName insert.tableName) columns source onDuplicate)

/-- The arms of `convert_statement` for these statements. -/
def convertDefinition : Ast.Definition → Except String Statement
  | .createTable create => convertCreateTable G create
  | .createIndex create => convertCreateIndex create
  | .alterTable alter => convertAlterTable G alter
  | .drop drop => convertDrop drop
  | .insert insert => convertInsert G insert

/-- A parser for all statements, over what `sqlparser` reads. -/
def definitionParser
    (parse : List Char → Except String (List (SqlStatement (Ast.Clause Ast.Definition)))) :
    SqlParser :=
  clauseParser G (convertDefinition G) parse

end Convert

/-! ## What is formed -/

/-- A statement as the parser builds it, in all that the executor relies on. -/
structure Statement.Formed (statement : Statement) : Prop where
  parsed : statement.Parsed
  written : statement.Written
  keyed : statement.Keyed

/-- A column and the constraints that come with it: they are about this column, and there is
one behind its flags. -/
structure FormedColumn (converted : ColumnDef × List TableConstraint) : Prop where
  lower : Lower converted.1.name
  about : ∀ constraint ∈ converted.2, ∀ name ∈ constraintColumns constraint,
    name = converted.1.name
  ownKey : converted.1.primaryKey = true ∨ converted.1.unique = true →
    ∃ constraint ∈ converted.2, constraint.keyColumns = some [converted.1.name]

section Formed

variable {G : Grammar} {statement : Statement}

theorem lower_toAsciiLowercase (name : String) : Lower (toAsciiLowercase name) :=
  toAsciiLowercase_idem name

theorem lower_of_mem_map {names : List String} {name : String}
    (h : name ∈ names.map toAsciiLowercase) : Lower name := by
  obtain ⟨written, -, rfl⟩ := List.mem_map.mp h
  exact lower_toAsciiLowercase written

theorem FormedColumn.lowerColumns {converted : ColumnDef × List TableConstraint}
    (h : FormedColumn converted) : LowerColumns converted.2 := by
  intro constraint hmem name hname
  rw [h.about constraint hmem name hname]
  exact h.lower

theorem constraintColumns_convertForeignKey {name : Option String} {columns : List String}
    {foreignTable : Ast.ObjectName} {referredColumns : List String}
    {onDelete onUpdate : Option Ast.ReferentialAction} {constraint : TableConstraint}
    (h : convertForeignKey name columns foreignTable referredColumns onDelete onUpdate =
      .ok constraint) : constraintColumns constraint = columns := by
  obtain ⟨-, -, h⟩ := Result.bind_eq_ok.mp h
  obtain rfl := Except.ok.inj h
  rfl

/-- **One option** leaves the name, and adds constraints about the column only. -/
theorem convertColumnOption_ok {column : ColumnDef} {option : Ast.ColumnOptionDef}
    {converted : ColumnDef × List TableConstraint}
    (h : convertColumnOption G column option = .ok converted) :
    converted.1.name = column.name ∧ ∀ constraint ∈ converted.2,
      ∀ name ∈ constraintColumns constraint, name = column.name := by
  unfold convertColumnOption at h
  split at h
  · obtain rfl := Except.ok.inj h
    simp
  · obtain rfl := Except.ok.inj h
    simp
  · obtain ⟨value, -, h⟩ := Result.bind_eq_ok.mp h
    obtain rfl := Except.ok.inj h
    simp
  · obtain rfl := Except.ok.inj h
    simp
  · obtain rfl := Except.ok.inj h
    simp
  · obtain ⟨expr, -, h⟩ := Result.bind_eq_ok.mp h
    obtain rfl := Except.ok.inj h
    simp [constraintColumns]
  · obtain ⟨constraint, hkey, h⟩ := Result.bind_eq_ok.mp h
    obtain rfl := Except.ok.inj h
    simp [constraintColumns_convertForeignKey hkey]
  · cases h

theorem convertColumnOptions_ok {options : List Ast.ColumnOptionDef} {column : ColumnDef}
    {converted : ColumnDef × List TableConstraint}
    (h : convertColumnOptions G column options = .ok converted) :
    converted.1.name = column.name ∧ ∀ constraint ∈ converted.2,
      ∀ name ∈ constraintColumns constraint, name = column.name := by
  induction options generalizing column converted with
  | nil =>
    obtain rfl := Except.ok.inj h
    simp
  | cons option options ih =>
    obtain ⟨⟨next, constraints⟩, hoption, h⟩ := Result.bind_eq_ok.mp h
    obtain ⟨⟨last, others⟩, hoptions, h⟩ := Result.bind_eq_ok.mp h
    obtain rfl := Except.ok.inj h
    obtain ⟨hnext, hconstraints⟩ := convertColumnOption_ok hoption
    obtain ⟨hlast, hothers⟩ := ih hoptions
    have hnext : next.name = column.name := hnext
    rw [hnext] at hlast hothers
    refine ⟨hlast, fun constraint hmem => ?_⟩
    rcases List.mem_append.mp hmem with hmem | hmem
    · exact hconstraints constraint hmem
    · exact hothers constraint hmem

/-- The flags of a column have their constraint. -/
theorem keyColumns_flagConstraints {column : ColumnDef}
    (h : column.primaryKey = true ∨ column.unique = true) :
    ∃ constraint ∈ flagConstraints column, constraint.keyColumns = some [column.name] := by
  rw [flagConstraints]
  by_cases hprimary : column.primaryKey = true
  · rw [if_pos hprimary]
    exact ⟨_, List.mem_singleton_self _, rfl⟩
  · rw [if_neg hprimary, if_pos (h.resolve_left hprimary)]
    exact ⟨_, List.mem_singleton_self _, rfl⟩

theorem constraintColumns_flagConstraints {column : ColumnDef} :
    ∀ constraint ∈ flagConstraints column, ∀ name ∈ constraintColumns constraint,
      name = column.name := by
  intro constraint hmem
  rw [flagConstraints] at hmem
  split_ifs at hmem
  · rw [List.mem_singleton.mp hmem]
    simp [constraintColumns]
  · rw [List.mem_singleton.mp hmem]
    simp [constraintColumns]
  · cases hmem

/-- **A converted column** is formed. -/
theorem formed_convertColumnDef {column : Ast.ColumnDef}
    {converted : ColumnDef × List TableConstraint} (h : convertColumnDef G column = .ok converted) :
    FormedColumn converted := by
  obtain ⟨dataType, -, h⟩ := Result.bind_eq_ok.mp h
  obtain ⟨⟨last, constraints⟩, hoptions, h⟩ := Result.bind_eq_ok.mp h
  obtain rfl := Except.ok.inj h
  obtain ⟨hname, hconstraints⟩ := convertColumnOptions_ok hoptions
  have hname : last.name = toAsciiLowercase column.name := hname
  refine ⟨?_, fun constraint hmem => ?_, fun hflag => ?_⟩
  · show Lower last.name
    rw [hname]
    exact lower_toAsciiLowercase _
  · show ∀ name ∈ constraintColumns constraint, name = last.name
    rcases List.mem_append.mp hmem with hmem | hmem
    · rw [hname]
      exact hconstraints constraint hmem
    · exact constraintColumns_flagConstraints constraint hmem
  · obtain ⟨constraint, hmem, hkey⟩ := keyColumns_flagConstraints hflag
    exact ⟨constraint, List.mem_append_right _ hmem, hkey⟩

theorem lowerColumns_convertTableConstraint {constraint : Ast.TableConstraint}
    {converted : TableConstraint} (h : convertTableConstraint G constraint = .ok converted) :
    LowerColumns [converted] := by
  intro other hmem name hname
  obtain rfl := List.mem_singleton.mp hmem
  cases constraint with
  | primaryKey constraintName columns =>
    obtain rfl := Except.ok.inj h
    exact lower_of_mem_map hname
  | unique constraintName columns =>
    obtain rfl := Except.ok.inj h
    exact lower_of_mem_map hname
  | check constraintName expr =>
    obtain ⟨expr, -, h⟩ := Result.bind_eq_ok.mp h
    obtain rfl := Except.ok.inj h
    cases hname
  | foreignKey constraintName columns foreignTable referredColumns onDelete onUpdate =>
    rw [constraintColumns_convertForeignKey h] at hname
    exact lower_of_mem_map hname
  | index => cases h
  | other display => cases h

theorem formed_convertCreateTable {create : Ast.CreateTable}
    (h : convertCreateTable G create = .ok statement) : statement.Formed := by
  unfold convertCreateTable at h
  split at h
  · cases h
  · obtain ⟨columns, hcolumns, h⟩ := Result.bind_eq_ok.mp h
    obtain ⟨constraints, hconstraints, h⟩ := Result.bind_eq_ok.mp h
    obtain rfl := Except.ok.inj h
    have hformed : ∀ converted ∈ columns, FormedColumn converted := by
      intro converted hmem
      obtain ⟨column, -, hcolumn⟩ := Result.mem_of_mapM hcolumns hmem
      exact formed_convertColumnDef hcolumn
    have hown : OwnKeys (columns.map Prod.fst) (columns.flatMap Prod.snd ++ constraints) := by
      intro column hmem hflag
      obtain ⟨converted, hconverted, rfl⟩ := List.mem_map.mp hmem
      obtain ⟨constraint, hkey, hnamed⟩ := (hformed converted hconverted).ownKey hflag
      exact ⟨constraint,
        List.mem_append_left _ (List.mem_flatMap.mpr ⟨converted, hconverted, hkey⟩), hnamed⟩
    refine ⟨trivial, ⟨fun column hmem => ?_, ?_, hown⟩, fun column hmem hflag => ?_⟩
    · obtain ⟨converted, hconverted, rfl⟩ := List.mem_map.mp hmem
      exact (hformed converted hconverted).lower
    · refine LowerColumns.append (fun constraint hmem => ?_) fun constraint hmem => ?_
      · obtain ⟨converted, hconverted, hmem⟩ := List.mem_flatMap.mp hmem
        exact (hformed converted hconverted).lowerColumns constraint hmem
      · obtain ⟨written, -, hwritten⟩ := Result.mem_of_mapM hconstraints hmem
        exact lowerColumns_convertTableConstraint hwritten constraint (List.mem_singleton_self _)
    · obtain ⟨constraint, hconstraint, hkey⟩ := hown column hmem hflag
      refine ⟨constraint, hconstraint, ?_⟩
      rw [TableConstraint.isKey, hkey]
      rfl

/-- **A converted operation** is formed. -/
theorem formed_convertAlterOperation {operation : Ast.AlterTableOperation}
    {converted : AlterOperation} (h : convertAlterOperation G operation = .ok converted) :
    converted.Parsed ∧ converted.Written := by
  have hmodify : ∀ (oldName : String) (column : Ast.ColumnDef),
      ((convertColumnDef G column) >>= fun converted =>
        Except.ok (AlterOperation.modifyColumn oldName converted.1 converted.2)) =
          .ok converted → converted.Parsed ∧ converted.Written := by
    intro oldName column h
    obtain ⟨formed, hcolumn, h⟩ := Result.bind_eq_ok.mp h
    obtain rfl := Except.ok.inj h
    have hformed := formed_convertColumnDef hcolumn
    exact ⟨hformed.about, hformed.lower, hformed.lowerColumns⟩
  cases operation with
  | addColumn columnDef ifNotExists columnPosition =>
    rw [convertAlterOperation] at h
    split at h
    · cases h
    · obtain ⟨formed, hcolumn, h⟩ := Result.bind_eq_ok.mp h
      obtain rfl := Except.ok.inj h
      have hformed := formed_convertColumnDef hcolumn
      exact ⟨hformed.about, hformed.lower, hformed.lowerColumns⟩
  | dropColumn columnName ifExists cascade =>
    rw [convertAlterOperation] at h
    split at h
    · cases h
    · obtain rfl := Except.ok.inj h
      exact ⟨trivial, trivial⟩
  | renameColumn oldColumnName newColumnName =>
    obtain rfl := Except.ok.inj h
    exact ⟨trivial, lower_toAsciiLowercase _⟩
  | changeColumn oldName newName dataType options columnPosition =>
    rw [convertAlterOperation] at h
    split at h
    · cases h
    · exact hmodify _ _ h
  | modifyColumn colName dataType options columnPosition =>
    rw [convertAlterOperation] at h
    split at h
    · cases h
    · exact hmodify _ _ h
  | alterColumn columnName op =>
    have h : convertAlterColumn G (cleanIdentifier columnName.toList) op = .ok converted := h
    unfold convertAlterColumn at h
    split at h
    · obtain rfl := Except.ok.inj h
      exact ⟨trivial, trivial⟩
    · obtain rfl := Except.ok.inj h
      exact ⟨trivial, trivial⟩
    · obtain ⟨value, -, h⟩ := Result.bind_eq_ok.mp h
      obtain rfl := Except.ok.inj h
      exact ⟨trivial, trivial⟩
    · obtain rfl := Except.ok.inj h
      exact ⟨trivial, trivial⟩
    · obtain ⟨dataType, -, h⟩ := Result.bind_eq_ok.mp h
      obtain rfl := Except.ok.inj h
      exact ⟨trivial, trivial⟩
    · cases h
  | addConstraint constraint =>
    obtain ⟨formed, hconstraint, rfl⟩ := Result.map_eq_ok.mp h
    exact ⟨trivial, lowerColumns_convertTableConstraint hconstraint⟩
  | dropConstraint ifExists name cascade =>
    rw [convertAlterOperation] at h
    split at h
    · cases h
    · obtain rfl := Except.ok.inj h
      exact ⟨trivial, trivial⟩
  | dropPrimaryKey =>
    obtain rfl := Except.ok.inj h
    exact ⟨trivial, trivial⟩
  | other display => cases h

theorem formed_convertAlterTable {alter : Ast.AlterTable}
    (h : convertAlterTable G alter = .ok statement) : statement.Formed := by
  unfold convertAlterTable at h
  split at h
  · cases h
  · obtain ⟨operations, hoperations, h⟩ := Result.bind_eq_ok.mp h
    obtain rfl := Except.ok.inj h
    have hformed : ∀ operation ∈ operations, operation.Parsed ∧ operation.Written := by
      intro operation hmem
      obtain ⟨written, -, hwritten⟩ := Result.mem_of_mapM hoperations hmem
      exact formed_convertAlterOperation hwritten
    exact ⟨fun operation hmem => (hformed operation hmem).1,
      fun operation hmem => (hformed operation hmem).2, trivial⟩

/-- **A converted definition** is formed. -/
theorem formed_convertDefinition {definition : Ast.Definition}
    (h : convertDefinition G definition = .ok statement) : statement.Formed := by
  cases definition with
  | createTable create => exact formed_convertCreateTable h
  | alterTable alter => exact formed_convertAlterTable h
  | createIndex create =>
    have h : convertCreateIndex create = .ok statement := h
    unfold convertCreateIndex at h
    split at h
    · cases h
    · split at h
      · cases h
      · obtain ⟨columns, -, h⟩ := Result.bind_eq_ok.mp h
        obtain rfl := Except.ok.inj h
        exact ⟨trivial, trivial, trivial⟩
  | drop drop =>
    have h : convertDrop drop = .ok statement := h
    unfold convertDrop at h
    split at h
    · obtain rfl := Except.ok.inj h
      exact ⟨trivial, trivial, trivial⟩
    · cases h
  | insert insert =>
    have h : convertInsert G insert = .ok statement := h
    unfold convertInsert at h
    split at h
    · cases h
    · split at h
      · cases h
      · obtain ⟨source, -, h⟩ := Result.bind_eq_ok.mp h
        obtain ⟨onDuplicate, -, h⟩ := Result.bind_eq_ok.mp h
        obtain rfl := Except.ok.inj h
        exact ⟨trivial, trivial, trivial⟩

theorem formed_convertClause {clause : Ast.Clause Ast.Definition}
    (h : convertClause G (convertDefinition G) clause = .ok statement) : statement.Formed := by
  cases clause with
  | query query =>
    obtain ⟨converted, -, rfl⟩ := Result.map_eq_ok.mp h
    exact ⟨trivial, trivial, trivial⟩
  | update update =>
    have h : convertUpdate G update = .ok statement := h
    unfold convertUpdate at h
    split at h
    split at h
    · cases h
    · obtain ⟨tableName, -, h⟩ := Result.bind_eq_ok.mp h
      obtain ⟨assignments, -, h⟩ := Result.bind_eq_ok.mp h
      obtain ⟨selection, -, h⟩ := Result.bind_eq_ok.mp h
      obtain rfl := Except.ok.inj h
      exact ⟨trivial, trivial, trivial⟩
  | delete delete =>
    have h : convertDelete G delete = .ok statement := h
    unfold convertDelete at h
    split at h
    · obtain ⟨tableName, -, h⟩ := Result.bind_eq_ok.mp h
      obtain ⟨selection, -, h⟩ := Result.bind_eq_ok.mp h
      obtain rfl := Except.ok.inj h
      exact ⟨trivial, trivial, trivial⟩
    · cases h
  | other definition => exact formed_convertDefinition h

theorem formed_convertStatement
    {parse : List Char → Except String (List (SqlStatement (Ast.Clause Ast.Definition)))}
    {parsed : SqlStatement (Ast.Clause Ast.Definition)}
    (h : (definitionParser G parse).convertStatement parsed = .ok statement) :
    statement.Formed := by
  cases parsed with
  | clause clause => exact formed_convertClause (Result.mapError_eq_ok.mp h)
  | explain parsed =>
    obtain ⟨converted, -, rfl⟩ := Result.map_eq_ok.mp h
    exact ⟨trivial, trivial, trivial⟩
  | other display => cases h
  | _ =>
    obtain rfl := Except.ok.inj h
    exact ⟨trivial, trivial, trivial⟩

end Formed

/-! ## Parameters -/

/-- A constraint without its expression. -/
def TableConstraint.bare : TableConstraint → TableConstraint
  | .check name _ => .check name (.literal .null)
  | constraint => constraint

/-- A column without its expressions. -/
def ColumnDef.bare (column : ColumnDef) : ColumnDef := { column with checks := [] }

/-- An operation with its expressions left out. -/
def AlterOperation.bare : AlterOperation → AlterOperation
  | .addColumn column constraints ifNotExists =>
    .addColumn column.bare (constraints.map TableConstraint.bare) ifNotExists
  | .modifyColumn oldName column constraints =>
    .modifyColumn oldName column.bare (constraints.map TableConstraint.bare)
  | .addConstraint constraint => .addConstraint constraint.bare
  | operation => operation

/-- A definition without its expressions; other statements have no names that matter here. -/
def Statement.bare : Statement → Statement
  | .createTable tableName columns constraints ifNotExists =>
    .createTable tableName (columns.map ColumnDef.bare) (constraints.map TableConstraint.bare)
      ifNotExists
  | .alterTable tableName operations => .alterTable tableName (operations.map AlterOperation.bare)
  | _ => .showTables

section Bare

variable {statement : Statement}

@[simp] theorem constraintColumns_bare (constraint : TableConstraint) :
    constraintColumns constraint.bare = constraintColumns constraint := by
  cases constraint <;> rfl

@[simp] theorem keyColumns_bare (constraint : TableConstraint) :
    constraint.bare.keyColumns = constraint.keyColumns := by
  cases constraint <;> rfl

@[simp] theorem lowerColumns_bare {constraints : List TableConstraint} :
    LowerColumns (constraints.map TableConstraint.bare) ↔ LowerColumns constraints := by
  simp [LowerColumns]

@[simp] theorem ownKeys_bare {columns : List ColumnDef} {constraints : List TableConstraint} :
    OwnKeys (columns.map ColumnDef.bare) (constraints.map TableConstraint.bare) ↔
      OwnKeys columns constraints := by
  simp [OwnKeys, ColumnDef.bare]

@[simp] theorem keyFlagged_bare {columns : List ColumnDef} {constraints : List TableConstraint} :
    KeyFlagged (columns.map ColumnDef.bare) (constraints.map TableConstraint.bare) ↔
      KeyFlagged columns constraints := by
  simp [KeyFlagged, TableConstraint.isKey, ColumnDef.bare]

theorem parsed_bare_operation {operation : AlterOperation} :
    operation.bare.Parsed ↔ operation.Parsed := by
  cases operation <;> simp [AlterOperation.bare, AlterOperation.Parsed, ColumnDef.bare]

theorem written_bare_operation {operation : AlterOperation} :
    operation.bare.Written ↔ operation.Written := by
  cases operation with
  | addConstraint constraint =>
    exact @lowerColumns_bare [constraint]
  | _ => simp [AlterOperation.bare, AlterOperation.Written, ColumnDef.bare]

/-- Whether a statement is formed, its expressions do not say. -/
theorem formed_bare : statement.bare.Formed ↔ statement.Formed := by
  have hparsed : statement.bare.Parsed ↔ statement.Parsed := by
    cases statement <;> simp [Statement.bare, Statement.Parsed, parsed_bare_operation]
  have hwritten : statement.bare.Written ↔ statement.Written := by
    cases statement <;>
      simp [Statement.bare, Statement.Written, written_bare_operation, ColumnDef.bare]
  have hkeyed : statement.bare.Keyed ↔ statement.Keyed := by
    cases statement <;> simp [Statement.bare, Statement.Keyed]
  exact ⟨fun h => ⟨hparsed.mp h.parsed, hwritten.mp h.written, hkeyed.mp h.keyed⟩,
    fun h => ⟨hparsed.mpr h.parsed, hwritten.mpr h.written, hkeyed.mpr h.keyed⟩⟩

end Bare

section Visit

variable {m : Type → Type} [Monad m] [LawfulMonad m] {visit : Nat → m Expr}

/-- A loop over a list leaves what each round leaves. -/
theorem satisfiesM_mapM {α β : Type} {f : α → m α} {g : α → β}
    (hf : ∀ a, SatisfiesM (fun b => g b = g a) (f a)) (xs : List α) :
    SatisfiesM (fun ys => ys.map g = xs.map g) (xs.mapM f) := by
  induction xs with
  | nil =>
    rw [List.mapM_nil]
    exact SatisfiesM.pure rfl
  | cons x xs ih =>
    rw [List.mapM_cons]
    refine (hf x).bind fun y hy => ih.bind fun ys hys => SatisfiesM.pure ?_
    rw [List.map_cons, List.map_cons, hy, hys]

theorem bare_visitConstraint (constraint : TableConstraint) :
    SatisfiesM (fun visited => visited.bare = constraint.bare)
      (visitConstraint visit constraint) := by
  cases constraint with
  | check name expr =>
    exact (SatisfiesM.trivial (x := visitExpr visit expr)).bind fun expr _ => SatisfiesM.pure rfl
  | _ => exact SatisfiesM.pure rfl

theorem bare_visitColumn (column : ColumnDef) :
    SatisfiesM (fun visited => visited.bare = column.bare) (visitColumn visit column) :=
  (SatisfiesM.trivial (x := visitExprs visit column.checks)).bind fun _ _ =>
    SatisfiesM.pure rfl

theorem bare_visitOperation (operation : AlterOperation) :
    SatisfiesM (fun visited => visited.bare = operation.bare)
      (visitOperation visit operation) := by
  cases operation with
  | addColumn column constraints ifNotExists =>
    refine (bare_visitColumn column).bind fun column hcolumn =>
      (satisfiesM_mapM bare_visitConstraint constraints).bind fun constraints hconstraints =>
        SatisfiesM.pure ?_
    simp only [AlterOperation.bare, hcolumn, hconstraints]
  | modifyColumn oldName column constraints =>
    refine (bare_visitColumn column).bind fun column hcolumn =>
      (satisfiesM_mapM bare_visitConstraint constraints).bind fun constraints hconstraints =>
        SatisfiesM.pure ?_
    simp only [AlterOperation.bare, hcolumn, hconstraints]
  | addConstraint constraint =>
    refine (bare_visitConstraint constraint).bind fun constraint hconstraint =>
      SatisfiesM.pure ?_
    simp only [AlterOperation.bare, hconstraint]
  | _ => exact SatisfiesM.pure rfl

/-- **The walk over the expressions** of a statement leaves everything else. -/
theorem bare_visitStatement (statement : Statement) :
    SatisfiesM (fun visited => visited.bare = statement.bare)
      (visitStatement visit statement) := by
  cases statement with
  | createTable tableName columns constraints ifNotExists =>
    refine (satisfiesM_mapM bare_visitColumn columns).bind fun columns hcolumns =>
      (satisfiesM_mapM bare_visitConstraint constraints).bind fun constraints hconstraints =>
        SatisfiesM.pure ?_
    simp only [Statement.bare, hcolumns, hconstraints]
  | alterTable tableName operations =>
    refine (satisfiesM_mapM bare_visitOperation operations).bind fun operations hoperations =>
      SatisfiesM.pure ?_
    simp only [Statement.bare, hoperations]
  | insert tableName columns source onDuplicate =>
    exact (SatisfiesM.trivial (x := visitInsertSource visit source)).bind fun source _ =>
      (SatisfiesM.trivial (x := onDuplicate.mapM (visitAssignment visit))).bind fun _ _ =>
        SatisfiesM.pure rfl
  | query query =>
    exact (SatisfiesM.trivial (x := visitQuery visit query)).bind fun _ _ => SatisfiesM.pure rfl
  | update tableName assignments selection =>
    exact (SatisfiesM.trivial (x := assignments.mapM (visitAssignment visit))).bind fun _ _ =>
      (SatisfiesM.trivial (x := visitOption visit selection)).bind fun _ _ =>
        SatisfiesM.pure rfl
  | delete tableName selection =>
    exact (SatisfiesM.trivial (x := visitOption visit selection)).bind fun _ _ =>
      SatisfiesM.pure rfl
  | explain statement =>
    exact (SatisfiesM.trivial (x := visitStatement visit statement)).bind fun _ _ =>
      SatisfiesM.pure rfl
  | _ => exact SatisfiesM.pure rfl

end Visit

section Parsing

variable {G : Grammar} {statement : Statement}

theorem formed_assignParameters : (assignParameters statement).Formed ↔ statement.Formed := by
  have hvisit := @bare_visitStatement (StateM Nat) _ _ assignVisitor statement
  have hrun := SatisfiesM_StateT_eq.mp hvisit 0
  rw [SatisfiesM_Id_eq] at hrun
  have hbare : (assignParameters statement).bare = statement.bare := hrun
  rw [← formed_bare, hbare, formed_bare]

/-- **Binding** leaves a statement formed. -/
theorem formed_bindParameters {values : List Value} {bound : Statement}
    (hformed : statement.Formed) (h : bindParameters statement values = .ok bound) :
    bound.Formed := by
  unfold bindParameters at h
  split at h
  · cases h
  · have hvisit := @bare_visitStatement (Except Fault) _ _ (bindVisitor values) statement
    have hbare := SatisfiesM_Except_eq.mp hvisit bound h
    rw [← formed_bare, hbare, formed_bare]
    exact hformed

theorem formed_parseSetVariable {parseF64 : List Char → Option F64} {sql : List Char}
    (h : parseSetVariable parseF64 sql = .ok (some statement)) : statement.Formed := by
  obtain ⟨rest, -, h⟩ := Result.bind_eq_ok.mp h
  split at h
  · cases h
  · split at h
    · cases h
    · split_ifs at h with hvariable
      · obtain ⟨value, -, h⟩ := Result.map_eq_ok.mp h
        obtain rfl := Option.some.inj h
        exact ⟨trivial, trivial, trivial⟩
      · cases h

theorem formed_parsePrepare {sql : List Char} (h : parsePrepare sql = .ok (some statement)) :
    statement.Formed := by
  obtain ⟨rest, -, h⟩ := Result.bind_eq_ok.mp h
  split at h
  · cases h
  · split at h
    · cases h
    · simp only at h
      split_ifs at h with hvariable
      · obtain rfl := Option.some.inj (Except.ok.inj h)
        exact ⟨trivial, trivial, trivial⟩
      · obtain ⟨text, -, h⟩ := Result.map_eq_ok.mp h
        obtain rfl := Option.some.inj h
        exact ⟨trivial, trivial, trivial⟩

theorem formed_parseExecute {sql : List Char} (h : parseExecute sql = .ok (some statement)) :
    statement.Formed := by
  obtain ⟨rest, -, h⟩ := Result.bind_eq_ok.mp h
  split at h
  · cases h
  · simp only at h
    split at h
    · obtain rfl := Option.some.inj (Except.ok.inj h)
      exact ⟨trivial, trivial, trivial⟩
    · obtain rfl := Option.some.inj (Except.ok.inj h)
      exact ⟨trivial, trivial, trivial⟩

theorem formed_parseDeallocate {keyword : String} {sql : List Char}
    (h : parseDeallocate keyword sql = .ok (some statement)) : statement.Formed := by
  obtain ⟨rest, -, h⟩ := Result.bind_eq_ok.mp h
  split at h
  · cases h
  · obtain rfl := Option.some.inj (Except.ok.inj h)
    exact ⟨trivial, trivial, trivial⟩

theorem formed_parseShowIndexes {words : List (List Char)}
    (h : parseShowIndexes words = .ok (some statement)) : statement.Formed := by
  rw [parseShowIndexes] at h
  split at h
  · split at h
    · cases h
    · obtain rfl := Option.some.inj (Except.ok.inj h)
      exact ⟨trivial, trivial, trivial⟩
  · cases h

theorem formed_parseDropIndex {words : List (List Char)}
    (h : parseDropIndex words = .ok (some statement)) : statement.Formed := by
  rw [parseDropIndex] at h
  split at h
  · simp only at h
    generalize (if (isWord "IF" words[2]? && isWord "EXISTS" words[3]?) = true then 4 else 2) =
      offset at h
    split at h
    · cases h
    · split at h
      · split at h
        · cases h
        · obtain rfl := Option.some.inj (Except.ok.inj h)
          exact ⟨trivial, trivial, trivial⟩
      · cases h
  · cases h

/-- The statements that are read by hand define nothing; one of them drops a constraint. -/
theorem formed_extension {parseF64 : List Char → Option F64} {sql : List Char}
    (h : parseRustydbExtension parseF64 sql = .ok (some statement)) : statement.Formed := by
  have hreading := mem_of_firstStatement h
  simp only [List.mem_cons, List.not_mem_nil, or_false] at hreading
  rcases hreading with h | h | h | h | h | h | h | h
  · have h := Except.ok.inj h
    rw [parseDropConstraint] at h
    split_ifs at h with hwords
    obtain rfl := Option.some.inj h
    refine ⟨fun operation hmem => ?_, fun operation hmem => ?_, trivial⟩
    · rw [List.mem_singleton.mp hmem]
      trivial
    · rw [List.mem_singleton.mp hmem]
      trivial
  · exact formed_parseSetVariable h.symm
  · exact formed_parsePrepare h.symm
  · exact formed_parseExecute h.symm
  · exact formed_parseDeallocate h.symm
  · exact formed_parseDeallocate h.symm
  · exact formed_parseShowIndexes h.symm
  · exact formed_parseDropIndex h.symm

/-- **Whatever is parsed is formed.** -/
theorem parseSql_formed
    {parse : List Char → Except String (List (SqlStatement (Ast.Clause Ast.Definition)))}
    {input : String} (h : (definitionParser G parse).parseSql input = .ok statement) :
    statement.Formed := by
  rw [SqlParser.parseSql] at h
  split_ifs at h with hempty
  obtain ⟨read, hread, hnext⟩ := Result.bind_eq_ok.mp h
  cases read with
  | some read =>
    obtain rfl : read = statement := Except.ok.inj hnext
    exact formed_extension hread
  | none =>
    simp only at hnext
    split at hnext
    · cases hnext
    · obtain ⟨converted, hconvert, rfl⟩ := Result.map_eq_ok.mp hnext
      exact formed_assignParameters.mpr (formed_convertStatement hconvert)
    · cases hnext

end Parsing

end Sql
end RustyDB
