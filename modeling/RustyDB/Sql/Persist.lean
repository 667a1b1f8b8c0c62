import Mathlib
import RustyDB.Sql.SameStatement
import RustyDB.Sql.Json

/-!
# The catalog snapshot

`save` writes the catalog to `catalog.json` and `load_catalog` reads it back.  What is
written of a table is its schema, its rows, their identifiers and the identifier
counter; `migrate_legacy_rows` then recomputes missing constraints, missing indexes,
missing identifiers and, always, the counter.

* `TableData`, `CatalogSnapshot`, `SnapshotCodec` — what is written, and `serde_json`.
* `CatalogSnapshot.Readable`, `SnapshotCodec.Lawful` — the snapshots that `serde_json` gives
  back, and what it does to the others.
* `loadCatalog` — `load_catalog`, with the older layout of one file a table.
* `Statement.Keyed`, `Table.Flagged` — a key flag of a column comes with a key
  constraint, as the parser and every refresh of the metadata have it.
* `Persisted` — the catalogs of runs that are saved and loaded on the way.
* `snapshot_round_trip` — **everything but the counter survives a round trip, and the
  counter does exactly when the identifier handed out last is still in use.**
-/

namespace RustyDB
namespace Sql

open KeyedIndex

/-! ## What is written -/

/-- The serialized fields of a table. -/
structure TableData where
  schema : TableSchema
  rows : List Row
  rowIds : List Nat
  nextRowId : Nat

/-- What is stored of a table. -/
def Table.data (table : Table) : TableData where
  schema := table.schema
  rows := table.rows
  rowIds := table.rowIds
  nextRowId := table.nextRowId

/-- A table as `serde_json` rebuilds it: the skipped fields have their defaults. -/
def TableData.table (data : TableData) : Table where
  schema := data.schema
  rows := data.rows
  rowIds := data.rowIds
  nextRowId := data.nextRowId
  indexes := ∅
  bloomFalsePositiveRate := defaultBloomFalsePositiveRate

/-- `CatalogSnapshot`: what `catalog.json` holds. -/
structure CatalogSnapshot where
  formatVersion : Nat
  catalogVersion : Nat
  schemaVersion : Nat
  timestampMillis : Nat
  tables : List (String × TableData)

/-- `CATALOG_FORMAT_VERSION`. -/
def catalogFormatVersion : Nat := 1

/-- `owned_tables`, as they are written. -/
def Tables.owned (tables : Tables) : List (String × TableData) :=
  tables.entries.map (fun entry => (entry.1, entry.2.data))

/-- The snapshot `save` makes of a catalog. -/
def Catalog.snapshot (catalog : Catalog) (now : Nat) : CatalogSnapshot where
  formatVersion := catalogFormatVersion
  catalogVersion := catalog.version
  schemaVersion := catalog.schemaVersion
  timestampMillis := now
  tables := catalog.tables.owned

/-- `serde_json` on `catalog.json` and on the files of the older layout. -/
structure SnapshotCodec where
  /-- `to_vec_pretty` of a snapshot. -/
  encode : CatalogSnapshot → String
  /-- `from_str::<CatalogSnapshot>`. -/
  decode : String → Except String CatalogSnapshot
  /-- `from_str::<PersistedTable>`: a schema and its rows. -/
  decodeTable : String → Except String (TableSchema × List Row)
  /-- The double that is read in the text of a finite one. -/
  reread : F64 → F64

/-! ## Values

`serde_json` writes a double that is not finite as `null`, which it does not read back as a
double; the text of a finite one it may read as a neighbour. -/

mutual

/-- The literals of an expression. -/
def exprLiterals : Expr → List Value
  | .literal value => [value]
  | .column _ _ => []
  | .parameter _ => []
  | .incoming _ => []
  | .binary left _ right => exprLiterals left ++ exprLiterals right
  | .unary _ expr => exprLiterals expr
  | .isNull expr _ => exprLiterals expr
  | .like expr pattern _ => exprLiterals expr ++ exprLiterals pattern
  | .inList expr list _ => exprLiterals expr ++ exprsLiterals list
  | .inSubquery expr query _ => exprLiterals expr ++ queryLiterals query
  | .exist query _ => queryLiterals query
  | .scalarSubquery query => queryLiterals query
  | .aggregate _ none _ => []
  | .aggregate _ (some expr) _ => exprLiterals expr

/-- The literals of a list of expressions. -/
def exprsLiterals : List Expr → List Value
  | [] => []
  | expr :: exprs => exprLiterals expr ++ exprsLiterals exprs

/-- The literals of a projection. -/
def itemsLiterals : List SelectItem → List Value
  | [] => []
  | .wildcard _ :: items => itemsLiterals items
  | .expr expr _ :: items => exprLiterals expr ++ itemsLiterals items

/-- The literals of a source. -/
def sourceLiterals : TableSource → List Value
  | .table _ _ => []
  | .derived query _ => queryLiterals query

/-- The literals of the joins. -/
def joinsLiterals : List Join → List Value
  | [] => []
  | ⟨_, source, none⟩ :: joins => sourceLiterals source ++ joinsLiterals joins
  | ⟨_, source, some on⟩ :: joins =>
    sourceLiterals source ++ exprLiterals on ++ joinsLiterals joins

/-- The literals of ORDER BY. -/
def ordersLiterals : List OrderBy → List Value
  | [] => []
  | ⟨expr, _⟩ :: orders => exprLiterals expr ++ ordersLiterals orders

/-- The literals of the WITH clauses. -/
def ctesLiterals : List Cte → List Value
  | [] => []
  | ⟨_, _, query⟩ :: ctes => queryLiterals query ++ ctesLiterals ctes

/-- The literals of a clause that may be missing. -/
def optionLiterals : Option Expr → List Value
  | none => []
  | some expr => exprLiterals expr

/-- The literals of a FROM clause. -/
def fromLiterals : Option TableSource → List Value
  | none => []
  | some source => sourceLiterals source

/-- The literals of a query. -/
def queryLiterals : Query → List Value
  | ⟨ctes, _, projection, source, joins, selection, groupBy, having, orderBy, _⟩ =>
    ctesLiterals ctes ++ itemsLiterals projection ++ fromLiterals source ++ joinsLiterals joins ++
      optionLiterals selection ++ exprsLiterals groupBy ++ optionLiterals having ++
      ordersLiterals orderBy

end

/-- The literals of a constraint. -/
def constraintLiterals : TableConstraint → List Value
  | .check _ expr => exprLiterals expr
  | _ => []

/-- The literals of a column. -/
def columnLiterals (column : ColumnDef) : List Value :=
  column.default.toList ++ exprsLiterals column.checks

/-- Every value that is written of a table. -/
def TableData.values (data : TableData) : List Value :=
  data.schema.columns.flatMap columnLiterals ++
    data.schema.constraints.flatMap constraintLiterals ++ data.rows.flatten

/-- No table of a snapshot holds an infinite or undefined float. -/
def CatalogSnapshot.Finite (snapshot : CatalogSnapshot) : Prop :=
  ∀ entry ∈ snapshot.tables, ∀ value ∈ entry.2.values, value.isFinite = true

instance (snapshot : CatalogSnapshot) : Decidable snapshot.Finite :=
  inferInstanceAs (Decidable (∀ entry ∈ snapshot.tables, ∀ value ∈ entry.2.values, _ = true))

/-- The depth of the JSON of a table: a row is an object around an array. -/
def TableData.nesting (data : TableData) : Nat :=
  1 + deepest [data.schema.nesting,
    arrayNesting (fun row : Row => 1 + arrayNesting Value.nesting row) data.rows, 1]

/-- How deep the JSON of a snapshot is nested. -/
def CatalogSnapshot.nesting (snapshot : CatalogSnapshot) : Nat :=
  1 + arrayNesting (fun entry => entry.2.nesting) snapshot.tables

/-- A snapshot that `serde_json` gives back: its values come back, and its JSON is not nested
too deep. -/
structure CatalogSnapshot.Readable (reread : F64 → F64) (snapshot : CatalogSnapshot) : Prop where
  values : ∀ entry ∈ snapshot.tables, ∀ value ∈ entry.2.values, value.comesBack reread = true
  shallow : snapshot.nesting < recursionLimit

instance (reread : F64 → F64) (snapshot : CatalogSnapshot) :
    Decidable (snapshot.Readable reread) :=
  decidable_of_iff ((∀ entry ∈ snapshot.tables, ∀ value ∈ entry.2.values,
      value.comesBack reread = true) ∧ snapshot.nesting < recursionLimit)
    ⟨fun h => ⟨h.1, h.2⟩, fun h => ⟨h.values, h.shallow⟩⟩

/-- Two tables of snapshots, the second with other doubles. -/
def RereadTable (reread : F64 → F64) (entry read : String × TableData) : Prop :=
  read.1 = entry.1 ∧ read.2.values = entry.2.values.map (Value.reread reread)

/-- What `load_catalog` relies on for one snapshot: it comes back if it is readable, one with a
`null` in the place of a double or with too deep JSON is refused, and in any other the doubles
are what their texts are read as. -/
structure SnapshotCodec.Lawful (C : SnapshotCodec) (snapshot : CatalogSnapshot) : Prop where
  decode_encode : snapshot.Readable C.reread → C.decode (C.encode snapshot) = .ok snapshot
  refused : ¬ snapshot.Finite ∨ recursionLimit ≤ snapshot.nesting →
    ∃ error, C.decode (C.encode snapshot) = .error error
  rereads : snapshot.Finite → snapshot.nesting < recursionLimit →
    ∃ read, C.decode (C.encode snapshot) = .ok read ∧
      List.Forall₂ (RereadTable C.reread) snapshot.tables read.tables

/-! ## Loading -/

/-- The tables of a map, migrated and under lower-case names.  The order in which a map
lists its entries carries no meaning, so that of the argument is kept. -/
def migrateTables (H : Host) : List (String × TableData) → Tables
  | [] => ∅
  | (name, data) :: rest =>
    (migrateTables H rest).insert (toAsciiLowercase name) (data.table.migrateLegacyRows H)

/-- `Catalog::from_tables`. -/
def Catalog.fromTables (H : Host) (tables : List (String × TableData)) : Catalog where
  version := 0
  schemaVersion := 0
  tables := migrateTables H tables

/-- One file of the older layout. -/
def loadLegacyTable (H : Host) (C : SnapshotCodec) (content : String) :
    Except String (String × TableData) :=
  match C.decodeTable content with
  | .error error => .error s!"Failed to parse legacy table: {error}"
  | .ok (schema, rows) =>
    let table := { Table.new H schema with rows }
    .ok (schema.name, (table.migrateLegacyRows H).data)

/-- `load_catalog`: `catalog.json` if there is one, else the files of `tables/`. -/
def loadCatalog (H : Host) (C : SnapshotCodec) (catalogFile : Option String)
    (legacyTables : List String) : Except String Catalog :=
  match catalogFile with
  | some content =>
    match C.decode content with
    | .error error => .error s!"Failed to parse catalog: {error}"
    | .ok snapshot =>
      if snapshot.formatVersion ≠ catalogFormatVersion then
        .error s!"Unsupported catalog format {snapshot.formatVersion}"
      else .ok { Catalog.fromTables H snapshot.tables with
        version := snapshot.catalogVersion
        schemaVersion := snapshot.schemaVersion }
  | none => (legacyTables.mapM (loadLegacyTable H C)).map (Catalog.fromTables H)

theorem lookup_owned (tables : Tables) (name : String) :
    tables.owned.lookup name = (tables.lookup name).map Table.data := by
  rw [Tables.owned, AList.lookup]
  induction tables.entries with
  | nil => rfl
  | cons entry entries ih =>
    rw [List.map_cons, List.lookup_cons, ih]
    by_cases hname : name = entry.1
    · subst hname
      rw [beq_self_eq_true, List.dlookup_cons_eq]
      rfl
    · rw [beq_eq_false_iff_ne.mpr hname, List.dlookup_cons_ne _ _ hname]

theorem lookup_migrateTables {H : Host} {entries : List (String × TableData)}
    (h : ∀ entry ∈ entries, toAsciiLowercase entry.1 = entry.1) (name : String) :
    (migrateTables H entries).lookup name =
      (entries.lookup name).map fun data => data.table.migrateLegacyRows H := by
  induction entries with
  | nil => rfl
  | cons entry entries ih =>
    have hrest := ih fun other hother => h other (List.mem_cons_of_mem _ hother)
    obtain ⟨key, data⟩ := entry
    rw [migrateTables, h (key, data) List.mem_cons_self, List.lookup_cons]
    by_cases hname : name = key
    · subst hname
      rw [AList.lookup_insert, beq_self_eq_true]
      rfl
    · rw [AList.lookup_insert_ne hname, hrest, beq_eq_false_iff_ne.mpr hname]

/-- The migration leaves the values of a table: the constraints that it adds have none. -/
theorem values_migrateLegacyRows (H : Host) (data : TableData) :
    (data.table.migrateLegacyRows H).data.values = data.values := by
  have hadded : (data.schema.columns.filterMap fun column =>
      if column.primaryKey then some (TableConstraint.primaryKey none [column.name])
      else if column.unique then some (TableConstraint.unique none [column.name])
      else none).flatMap constraintLiterals = [] := by
    rw [List.flatMap_eq_nil_iff]
    intro constraint hmem
    obtain ⟨column, -, hcolumn⟩ := List.mem_filterMap.mp hmem
    split_ifs at hcolumn <;> cases hcolumn <;> rfl
  have hconstraints : (if data.schema.constraints.isEmpty then
      data.schema.columns.filterMap fun column =>
        if column.primaryKey then some (TableConstraint.primaryKey none [column.name])
        else if column.unique then some (TableConstraint.unique none [column.name])
        else none
      else data.schema.constraints).flatMap constraintLiterals =
      data.schema.constraints.flatMap constraintLiterals := by
    split_ifs with hempty
    · rw [hadded, List.isEmpty_iff.mp hempty, List.flatMap_nil]
    · rfl
  dsimp only [Table.migrateLegacyRows, TableData.table, TableData.values, Table.data,
    Table.rebuildIndex]
  split
  · rw [hconstraints]
  · rw [hconstraints]

/-- Loading what was saved, when it is decoded, rebuilds the migrated tables. -/
theorem loadCatalog_snapshot {H : Host} {C : SnapshotCodec} {catalog : Catalog} {now : Nat}
    (hC : C.decode (C.encode (catalog.snapshot now)) = .ok (catalog.snapshot now))
    (legacyTables : List String) :
    loadCatalog H C (some (C.encode (catalog.snapshot now))) legacyTables =
      .ok { catalog with tables := migrateTables H catalog.tables.owned } := by
  simp only [loadCatalog, hC]
  rfl

/-! ## Key flags -/

/-- A constraint that makes its columns a key. -/
def TableConstraint.isKey (constraint : TableConstraint) : Prop :=
  constraint.keyColumns.isSome = true

/-- A flagged column comes with a key constraint. -/
def KeyFlagged (columns : List ColumnDef) (constraints : List TableConstraint) : Prop :=
  ∀ column ∈ columns, column.primaryKey = true ∨ column.unique = true →
    ∃ constraint ∈ constraints, constraint.isKey

/-- CREATE TABLE as the parser builds it: `convert_column_def` gives every flagged column
its constraint. -/
def Statement.Keyed : Statement → Prop
  | .createTable _ columns constraints _ => KeyFlagged columns constraints
  | _ => True

/-- The key flags of a table are backed by constraints. -/
def Table.Flagged (table : Table) : Prop :=
  KeyFlagged table.schema.columns table.schema.constraints

section Flags

variable {constraints : List TableConstraint}

/-- Flags that any key constraint may raise. -/
theorem keyFlagged_of_key {constraint : TableConstraint} (hmem : constraint ∈ constraints)
    (hkey : constraint.isKey) (columns : List ColumnDef) : KeyFlagged columns constraints :=
  fun _ _ _ => ⟨constraint, hmem, hkey⟩

theorem keyFlagged_markConstraint {constraint : TableConstraint} (hmem : constraint ∈ constraints)
    {columns : List ColumnDef} (h : KeyFlagged columns constraints) :
    KeyFlagged (markConstraint columns constraint) constraints := by
  cases constraint with
  | primaryKey name keyColumns => exact keyFlagged_of_key hmem rfl _
  | unique name keyColumns => exact keyFlagged_of_key hmem rfl _
  | check name expr => exact h
  | foreignKey foreignKey => exact h

theorem keyFlagged_foldl_markConstraint {marking : List TableConstraint}
    (hmem : ∀ constraint ∈ marking, constraint ∈ constraints) {columns : List ColumnDef}
    (h : KeyFlagged columns constraints) :
    KeyFlagged (marking.foldl markConstraint columns) constraints := by
  induction marking generalizing columns with
  | nil => exact h
  | cons constraint marking ih =>
    exact ih (fun c hc => hmem c (by simp [hc])) (keyFlagged_markConstraint (hmem _ (by simp)) h)

/-- Recomputing the metadata leaves only flags of constraints. -/
theorem Table.flagged_refresh (H : Host) (table : Table) :
    (refreshConstraintMetadata H table).Flagged := by
  refine keyFlagged_foldl_markConstraint (fun c hc => hc) ?_
  intro column hcolumn hflag
  obtain ⟨old, -, rfl⟩ := List.mem_map.mp hcolumn
  simp at hflag

theorem keyFlagged_applyConstraints {seen : List String} {columns columns' : List ColumnDef}
    {primaryKeys primaryKeys' : Nat} {applied : List TableConstraint}
    (hmem : ∀ constraint ∈ applied, constraint ∈ constraints)
    (h : applyConstraints seen columns primaryKeys applied = .ok (columns', primaryKeys'))
    (hflagged : KeyFlagged columns constraints) : KeyFlagged columns' constraints := by
  induction applied generalizing columns primaryKeys with
  | nil =>
    simp only [applyConstraints, Except.ok.injEq, Prod.mk.injEq] at h
    exact h.1 ▸ hflagged
  | cons constraint applied ih =>
    rw [applyConstraints] at h
    split at h
    · simp [refuse] at h
    · refine ih (fun c hc => hmem c (by simp [hc])) h ?_
      cases constraint with
      | primaryKey name keyColumns =>
        exact keyFlagged_of_key (hmem (.primaryKey name keyColumns) (by simp)) rfl _
      | unique name keyColumns => exact hflagged
      | check name expr => exact hflagged
      | foreignKey foreignKey => exact hflagged

variable {H : Host} {tables tables' : Tables} {result : ExecutionResult}

theorem executeCreateTable_flagged {tableName : String} {columns : List ColumnDef}
    {ifNotExists : Bool} (hkeyed : KeyFlagged columns constraints)
    (hcatalog : tables.All Table.Flagged)
    (h : executeCreateTable H tables tableName columns constraints ifNotExists =
      .ok (result, tables')) : tables'.All Table.Flagged := by
  simp only [executeCreateTable] at h
  split at h
  · split at h
    · cases h
      exact hcatalog
    · simp [refuse] at h
  · split at h
    · simp [refuse] at h
    · obtain ⟨⟨flagged, primaryKeys⟩, hconstraints, h⟩ := Result.bind_eq_ok.mp h
      split at h
      · simp [refuse] at h
      · simp only [Result.pure_eq_ok, Except.ok.injEq, Prod.mk.injEq] at h
        obtain ⟨-, rfl⟩ := h
        exact hcatalog.insert (keyFlagged_applyConstraints (fun c hc => hc) hconstraints hkeyed)

theorem flagged_applyAlterOperations {others : Tables} {tableName : String} {table table' : Table}
    {operations : List AlterOperation} (hcatalog : tables.All Table.Flagged)
    (h : applyAlterOperations H tableName tables table operations = .ok (others, table')) :
    others.All Table.Flagged := by
  induction operations generalizing tables table with
  | nil =>
    simp only [applyAlterOperations, Except.ok.injEq, Prod.mk.injEq] at h
    exact h.1 ▸ hcatalog
  | cons operation operations ih =>
    obtain ⟨⟨next, nextTable⟩, hoperation, hrest⟩ := Result.bind_eq_ok.mp h
    refine ih ?_ hrest
    rcases applyAlterOperation_ok hoperation with ⟨rfl, rfl⟩ | ⟨altered, -, rfl, rfl⟩
    · exact hcatalog
    · cases operation with
      | renameColumn oldName newName =>
        refine hcatalog.mapValues fun name table hflagged => ?_
        split
        · exact hflagged
        · split
          · exact Table.flagged_refresh H _
          · exact hflagged
      | _ => exact hcatalog

/-- **One statement keeps the key flags backed.** -/
theorem flagged_step {statement : Statement} (hkeyed : statement.Keyed)
    (hcatalog : tables.All Table.Flagged)
    (h : executeStatement H tables statement = .ok (result, tables')) :
    tables'.All Table.Flagged := by
  cases hwrite : isWriteStatement statement with
  | false =>
    rw [executeStatement_read hwrite h]
    exact hcatalog
  | true =>
    cases statement with
    | createTable tableName columns constraints ifNotExists =>
      exact executeCreateTable_flagged hkeyed hcatalog h
    | dropTable tableName ifExists =>
      rcases executeDropTable_ok h with rfl | rfl
      · exact hcatalog
      · exact hcatalog.erase _
    | createIndex name tableName columns unique ifNotExists =>
      rcases executeCreateIndex_ok h with rfl | ⟨existing, definition, hlookup, -, -, rfl⟩
      · exact hcatalog
      · exact hcatalog.insert (hcatalog _ existing hlookup)
    | dropIndex name tableName ifExists =>
      rcases executeDropIndex_ok h with rfl | ⟨existing, position, dropped, hlookup, -, -, rfl⟩
      · exact hcatalog
      · exact hcatalog.insert (hcatalog _ existing hlookup)
    | alterTable tableName operations =>
      obtain ⟨existing, table, others, -, hoperations, rfl⟩ := executeAlterTable_ok h
      exact (flagged_applyAlterOperations hcatalog hoperations).insert (Table.flagged_refresh H _)
    | insert tableName columns source onDuplicate =>
      obtain ⟨values, existing, table, rows, count, -, hlookup, -, hinsert, rfl, -, -⟩ :=
        executeInsert_ok h
      refine hcatalog.insert ?_
      rw [Table.Flagged, (insertRows_grown hinsert).schema]
      exact hcatalog _ existing hlookup
    | update tableName assignments selection =>
      obtain ⟨table, updated, hlookup, -, rfl, -, -⟩ := executeUpdate_ok h
      exact hcatalog.insert (hcatalog _ table hlookup)
    | delete tableName selection =>
      obtain ⟨table, kept, hlookup, -, rfl, -, -⟩ := executeDelete_ok h
      exact hcatalog.insert (hcatalog _ table hlookup)
    | _ => simp [isWriteStatement] at hwrite

end Flags

/-! ## Names -/

/-- The names of a catalog are in lower case. -/
def Tables.Lowercase (tables : Tables) : Prop :=
  ∀ name ∈ tables.keys, toAsciiLowercase name = name

section Names

variable {H : Host} {tables tables' : Tables} {result : ExecutionResult}

theorem toAsciiLowercase_idem (name : String) :
    toAsciiLowercase (toAsciiLowercase name) = toAsciiLowercase name := by
  have hlower : Char.toLower ∘ Char.toLower = Char.toLower :=
    funext Char.toLower_toLower_eq_toLower
  rw [toAsciiLowercase, toAsciiLowercase, String.toList_ofList, List.map_map, hlower]

theorem Tables.Lowercase.insert (h : tables.Lowercase) (name : String) (table : Table) :
    Tables.Lowercase (AList.insert (toAsciiLowercase name) table tables) := by
  intro other hother
  rw [AList.keys_insert] at hother
  rcases List.mem_cons.mp hother with rfl | hother
  · exact toAsciiLowercase_idem name
  · exact h other (List.mem_of_mem_erase hother)

theorem Tables.Lowercase.erase (h : tables.Lowercase) (name : String) :
    Tables.Lowercase (AList.erase name tables) := fun other hother =>
  h other (List.mem_of_mem_erase (AList.keys_erase name tables ▸ hother))

theorem lowercase_applyAlterOperations {others : Tables} {tableName : String} {table table' : Table}
    {operations : List AlterOperation} (hcatalog : tables.Lowercase)
    (h : applyAlterOperations H tableName tables table operations = .ok (others, table')) :
    others.Lowercase := by
  induction operations generalizing tables table with
  | nil =>
    simp only [applyAlterOperations, Except.ok.injEq, Prod.mk.injEq] at h
    exact h.1 ▸ hcatalog
  | cons operation operations ih =>
    obtain ⟨⟨next, nextTable⟩, hoperation, hrest⟩ := Result.bind_eq_ok.mp h
    refine ih ?_ hrest
    rcases applyAlterOperation_ok hoperation with ⟨rfl, rfl⟩ | ⟨altered, -, rfl, rfl⟩
    · exact hcatalog
    · cases operation with
      | renameColumn oldName newName =>
        intro name hname
        exact hcatalog name (by simpa [alterOthers, renameInOthers] using hname)
      | _ => exact hcatalog

/-- Every name a statement adds is in lower case. -/
theorem lowercase_step {statement : Statement} (hcatalog : tables.Lowercase)
    (h : executeStatement H tables statement = .ok (result, tables')) : tables'.Lowercase := by
  cases hwrite : isWriteStatement statement with
  | false =>
    rw [executeStatement_read hwrite h]
    exact hcatalog
  | true =>
    cases statement with
    | createTable tableName columns constraints ifNotExists =>
      rcases executeCreateTable_ok h with rfl | ⟨schema, rfl, -⟩
      · exact hcatalog
      · exact hcatalog.insert _ _
    | dropTable tableName ifExists =>
      rcases executeDropTable_ok h with rfl | rfl
      · exact hcatalog
      · exact hcatalog.erase _
    | createIndex name tableName columns unique ifNotExists =>
      rcases executeCreateIndex_ok h with rfl | ⟨existing, definition, -, -, -, rfl⟩
      · exact hcatalog
      · exact hcatalog.insert _ _
    | dropIndex name tableName ifExists =>
      rcases executeDropIndex_ok h with rfl | ⟨existing, position, dropped, -, -, -, rfl⟩
      · exact hcatalog
      · exact hcatalog.insert _ _
    | alterTable tableName operations =>
      obtain ⟨existing, table, others, -, hoperations, rfl⟩ := executeAlterTable_ok h
      exact (lowercase_applyAlterOperations hcatalog hoperations).insert _ _
    | insert tableName columns source onDuplicate =>
      obtain ⟨values, existing, table, rows, count, -, -, -, -, rfl, -, -⟩ := executeInsert_ok h
      exact hcatalog.insert _ _
    | update tableName assignments selection =>
      obtain ⟨table, updated, -, -, rfl, -, -⟩ := executeUpdate_ok h
      exact hcatalog.insert _ _
    | delete tableName selection =>
      obtain ⟨table, kept, -, -, rfl, -, -⟩ := executeDelete_ok h
      exact hcatalog.insert _ _
    | _ => simp [isWriteStatement] at hwrite

end Names

/-! ## Migration -/

/-- A catalog that `save` can write and `load_catalog` can read back as it is. -/
structure Tables.Loadable (H : Host) (inserted : Nat) (tables : Tables) : Prop where
  sound : tables.Sound H inserted
  flagged : tables.All Table.Flagged
  lowercase : tables.Lowercase

section Migration

variable {H : Host} {inserted : Nat} {tables tables' : Tables} {table : Table}

/-- The table that migration leaves of a table in order: only the counter is new. -/
def Table.reloaded (H : Host) (table : Table) : Table :=
  Table.rebuildIndex H { table with
    nextRowId := saturatingSucc (table.rowIds.foldl max 0)
    indexes := ∅
    bloomFalsePositiveRate := defaultBloomFalsePositiveRate }

theorem automaticIndexes_of_unflagged {schema : TableSchema}
    (hconstraints : schema.constraints.filterMap (constraintIndex schema.name) = [])
    (hcolumns : ∀ column ∈ schema.columns, column.primaryKey = false ∧ column.unique = false) :
    automaticIndexes schema = [] := by
  rw [automaticIndexes, hconstraints]
  generalize schema.columns = columns at hcolumns
  induction columns with
  | nil => rfl
  | cons column columns ih =>
    obtain ⟨hprimary, hunique⟩ := hcolumns column (by simp)
    have hnone : columnIndexDef schema.name [] column = none := by
      simp [columnIndexDef, hprimary, hunique]
    rw [List.foldl_cons, hnone]
    exact ih fun other hother => hcolumns other (by simp [hother])

theorem Table.migrate_eq_reloaded (hs : table.Sound H inserted) (hflagged : table.Flagged) :
    table.data.table.migrateLegacyRows H = table.reloaded H := by
  have hunflagged : (∀ constraint ∈ table.schema.constraints, ¬ constraint.isKey) →
      ∀ column ∈ table.schema.columns, column.primaryKey = false ∧ column.unique = false := by
    intro hnone column hcolumn
    by_contra hflag
    obtain ⟨constraint, hmem, hkey⟩ := hflagged column hcolumn (by
      cases hp : column.primaryKey <;> cases hu : column.unique <;> simp_all)
    exact hnone constraint hmem hkey
  have hconstraints : (if table.schema.constraints.isEmpty = true then
      table.schema.columns.filterMap (fun column =>
        if column.primaryKey then some (TableConstraint.primaryKey none [column.name])
        else if column.unique then some (TableConstraint.unique none [column.name])
        else none)
      else table.schema.constraints) = table.schema.constraints := by
    split
    · rename_i hempty
      rw [List.isEmpty_iff] at hempty
      rw [hempty, List.filterMap_eq_nil_iff]
      intro column hcolumn
      obtain ⟨hprimary, hunique⟩ := hunflagged (by simp [hempty]) column hcolumn
      simp [hprimary, hunique]
    · rfl
  have hindexes : table.schema.indexes.isEmpty = true →
      automaticIndexes table.schema = table.schema.indexes := by
    intro hempty
    rw [List.isEmpty_iff] at hempty
    have hbacked : ∀ constraint ∈ table.schema.constraints,
        constraintIndex table.schema.name constraint = none := by
      intro constraint hmem
      cases hindex : constraintIndex table.schema.name constraint with
      | none => rfl
      | some definition =>
        have := hs.backed.backed constraint hmem definition hindex
        simp [hempty] at this
    rw [hempty]
    refine automaticIndexes_of_unflagged (List.filterMap_eq_nil_iff.mpr hbacked)
      (hunflagged fun constraint hmem hkey => ?_)
    have hnone := hbacked constraint hmem
    cases constraint <;> simp [TableConstraint.isKey, TableConstraint.keyColumns,
      constraintIndex] at hkey hnone
  have hlengths : ¬ table.rowIds.length ≠ table.rows.length := by
    rw [not_not]
    exact hs.ok.repInv.ids.lengths
  dsimp only [Table.migrateLegacyRows, Table.data, TableData.table]
  rw [hconstraints, if_neg hlengths]
  split
  · rename_i hempty
    rw [hindexes hempty]
    rfl
  · rfl

theorem migrateTables_owned (h : tables.Loadable H inserted) :
    migrateTables H tables.owned = mapValues (fun _ table => table.reloaded H) tables := by
  obtain ⟨hsound, hflagged, hlower⟩ := h
  have hentries : ∀ entries : List (Sigma fun _ : String => Table),
      (∀ entry ∈ entries, tables.lookup entry.1 = some entry.2) → entries.NodupKeys →
      (migrateTables H (entries.map fun entry => (entry.1, entry.2.data))).entries =
        entries.map fun entry => ⟨entry.1, entry.2.reloaded H⟩ := by
    intro entries
    induction entries with
    | nil => exact fun _ _ => rfl
    | cons entry entries ih =>
      intro hmem hnodup
      rw [List.nodupKeys_cons] at hnodup
      have hlookup := hmem entry (by simp)
      have hname : toAsciiLowercase entry.1 = entry.1 := by
        refine hlower entry.1 ?_
        rw [← AList.mem_keys, ← AList.lookup_isSome, hlookup]
        rfl
      have hrest := ih (fun e he => hmem e (by simp [he])) hnodup.2
      rw [List.map_cons, migrateTables, hname, AList.entries_insert_of_notMem, hrest,
        Table.migrate_eq_reloaded (hsound _ _ hlookup) (hflagged _ _ hlookup), List.map_cons]
      rw [AList.mem_keys, AList.keys, hrest]
      simpa [List.keys] using hnodup.1
  refine AList.ext ?_
  refine hentries tables.entries (fun entry hentry => ?_) tables.nodupKeys
  exact AList.mem_lookup_iff.mpr hentry

/-! ## The counter -/

theorem le_foldl_max {ids : List Nat} {start : Nat} :
    start ≤ ids.foldl max start ∧ ∀ id ∈ ids, id ≤ ids.foldl max start := by
  induction ids generalizing start with
  | nil => simp
  | cons id ids ih =>
    obtain ⟨hstart, hids⟩ := @ih (max start id)
    refine ⟨(Nat.le_max_left _ _).trans hstart, fun other hother => ?_⟩
    rcases List.mem_cons.mp hother with rfl | hother
    · exact (Nat.le_max_right _ _).trans hstart
    · exact hids other hother

theorem foldl_max_mem {ids : List Nat} {start : Nat} :
    ids.foldl max start = start ∨ ids.foldl max start ∈ ids := by
  induction ids generalizing start with
  | nil => exact Or.inl rfl
  | cons id ids ih =>
    rcases @ih (max start id) with h | h
    · rw [List.foldl_cons, h]
      rcases Nat.le_total start id with hle | hle
      · exact Or.inr (by simp [Nat.max_eq_right hle])
      · exact Or.inl (Nat.max_eq_left hle)
    · exact Or.inr (List.mem_cons_of_mem _ h)

theorem foldl_max_lt {ids : List Nat} {start bound : Nat} (hstart : start < bound)
    (h : ∀ id ∈ ids, id < bound) : ids.foldl max start < bound := by
  induction ids generalizing start with
  | nil => exact hstart
  | cons id ids ih =>
    exact ih (Nat.max_lt.mpr ⟨hstart, h id (by simp)⟩)
      fun other hother => h other (by simp [hother])

/-- The identifier handed out last belongs to a row, if any has been handed out. -/
def Table.LastIdKept (table : Table) : Prop :=
  table.nextRowId = 1 ∨ table.nextRowId - 1 ∈ table.rowIds

theorem Table.Sound.largest_lt (h : table.Sound H inserted) (hbound : inserted < maxRowId) :
    table.rowIds.foldl max 0 < maxRowId ∧ table.rowIds.foldl max 0 ≤ inserted := by
  have hlt : ∀ bound, inserted < bound → table.rowIds.foldl max 0 < bound := fun bound hb =>
    foldl_max_lt (by omega) fun id hid => by
      have := h.ok.repInv.ids.below id hid
      have := h.ok.counter
      omega
  exact ⟨hlt _ hbound, Nat.lt_succ_iff.mp (hlt _ (Nat.lt_succ_self _))⟩

theorem Table.Sound.reloaded (h : table.Sound H inserted) (hbound : inserted < maxRowId) :
    (table.reloaded H).Sound H inserted := by
  obtain ⟨hlargest, hinserted⟩ := h.largest_lt hbound
  have hnext : saturatingSucc (table.rowIds.foldl max 0) = table.rowIds.foldl max 0 + 1 :=
    Nat.min_eq_left hlargest
  have hids := h.ok.repInv.ids
  refine ⟨Table.ok_rebuildIndex _ ⟨hids.lengths, hids.increasing, fun id hid => ?_⟩ h.ok.named ?_,
    Table.backed_rebuildIndex h.backed.backed, Table.keys_rebuildIndex⟩
  · show id < saturatingSucc (table.rowIds.foldl max 0)
    rw [hnext]
    exact Nat.lt_succ_of_le (le_foldl_max.2 id hid)
  · show saturatingSucc (table.rowIds.foldl max 0) ≤ inserted + 1
    rw [hnext]
    exact Nat.succ_le_succ hinserted

/-- **Reloading keeps the counter** exactly when the last identifier is in use. -/
theorem Table.Sound.reloaded_nextRowId (h : table.Sound H inserted)
    (hbound : inserted < maxRowId) :
    (table.reloaded H).nextRowId = table.nextRowId ↔ table.LastIdKept := by
  have hnext : (table.reloaded H).nextRowId = table.rowIds.foldl max 0 + 1 :=
    Nat.min_eq_left (h.largest_lt hbound).1
  have hbelow := h.ok.repInv.ids.below
  rw [hnext, Table.LastIdKept]
  constructor
  · intro hlast
    rcases @foldl_max_mem table.rowIds 0 with hzero | hmem
    · exact Or.inl (by omega)
    · exact Or.inr (by rwa [← hlast, Nat.add_sub_cancel])
  · rintro (hone | hmem)
    · have : table.rowIds.foldl max 0 < 1 :=
        foldl_max_lt Nat.zero_lt_one fun id hid => hone ▸ hbelow id hid
      omega
    · have hlast := (@le_foldl_max table.rowIds 0).2 _ hmem
      have hlt : table.rowIds.foldl max 0 < table.nextRowId :=
        foldl_max_lt (Nat.lt_of_le_of_lt (Nat.zero_le _) (hbelow _ hmem)) hbelow
      omega

theorem Tables.Loadable.reload (h : tables.Loadable H inserted) (hbound : inserted < maxRowId) :
    (migrateTables H tables.owned).Loadable H inserted := by
  rw [migrateTables_owned h]
  refine ⟨h.sound.mapValues fun _ table hs => hs.reloaded hbound,
    h.flagged.mapValues fun _ table hf => hf, fun name hname => h.lowercase name ?_⟩
  simpa using hname

theorem Tables.Loadable.step (h : tables.Loadable H inserted) {statement : Statement}
    {result : ExecutionResult} (hparsed : statement.Parsed) (hkeyed : statement.Keyed)
    (hexecute : executeCatalog H tables statement = .ok (result, tables'))
    (hbound : inserted + insertedRows tables tables' statement < maxRowId) :
    tables'.Loadable H (inserted + insertedRows tables tables' statement) := by
  have hstatement := (executeCatalog_ok hexecute).1
  exact ⟨sound_step hparsed hstatement hbound h.sound, flagged_step hkeyed h.flagged hstatement,
    lowercase_step h.lowercase hstatement⟩

theorem Table.Sound.setBloomFalsePositiveRate (h : table.Sound H inserted) (rate : F64) :
    (table.setBloomFalsePositiveRate H rate).Sound H inserted :=
  ⟨Table.ok_setBloomFalsePositiveRate rate h.ok, Table.backed_rebuildIndex h.backed.backed,
    Table.keys_rebuildIndex⟩

theorem Tables.Loadable.configure (h : tables.Loadable H inserted) (rate : F64) :
    (tables.configureBloomFalsePositiveRate H rate).Loadable H inserted := by
  refine ⟨h.sound.mapValues fun _ table hs => hs.setBloomFalsePositiveRate rate,
    h.flagged.mapValues fun _ table hf => hf, fun name hname => h.lowercase name ?_⟩
  simpa [Tables.configureBloomFalsePositiveRate] using hname

theorem Tables.loadable_empty : (∅ : Tables).Loadable H inserted :=
  ⟨Tables.All.empty, Tables.All.empty, fun name hname => by simp at hname⟩

end Migration

/-! ## Runs -/

/-- The catalogs of runs that start empty, with the number of rows inserted on the way:
statements as the parser builds them, new Bloom filters, and reloads of a snapshot. -/
inductive Persisted (H : Host) : Tables → Nat → Prop
  | empty : Persisted H ∅ 0
  | step {tables tables' : Tables} {inserted : Nat} {statement : Statement}
      {result : ExecutionResult} :
      Persisted H tables inserted → statement.Parsed → statement.Keyed →
      executeCatalog H tables statement = .ok (result, tables') →
      Persisted H tables' (inserted + insertedRows tables tables' statement)
  | configure {tables : Tables} {inserted : Nat} (rate : F64) :
      Persisted H tables inserted →
      Persisted H (tables.configureBloomFalsePositiveRate H rate) inserted
  | reload {tables : Tables} {inserted : Nat} :
      Persisted H tables inserted → Persisted H (migrateTables H tables.owned) inserted

theorem loadable_of_persisted {H : Host} {tables : Tables} {inserted : Nat}
    (h : Persisted H tables inserted) (hbound : inserted < maxRowId) :
    tables.Loadable H inserted := by
  induction h with
  | empty => exact Tables.loadable_empty
  | step _ hparsed hkeyed hexecute ih =>
    exact (ih (Nat.lt_of_le_of_lt (Nat.le_add_right _ _) hbound)).step hparsed hkeyed hexecute
      hbound
  | configure rate _ ih => exact (ih hbound).configure rate
  | reload _ ih => exact (ih hbound).reload hbound

/-- **The round trip of a snapshot.**  In every catalog a run reaches, saved and loaded
back: the versions, the names and, for every table, the schema, the rows and the row
identifiers are the same; the identifier counters are the same exactly when in every
table the identifier handed out last still belongs to a row. -/
theorem snapshot_round_trip (H : Host) (C : SnapshotCodec) (catalog : Catalog)
    (inserted now : Nat) (h : Persisted H catalog.tables inserted)
    (hbound : inserted < 2 ^ 64 - 1) (hfinite : (catalog.snapshot now).Finite)
    (hC : (catalog.snapshot now).Finite →
      C.decode (C.encode (catalog.snapshot now)) = .ok (catalog.snapshot now)) :
    ∃ loaded, loadCatalog H C (some (C.encode (catalog.snapshot now))) [] = .ok loaded ∧
      loaded.version = catalog.version ∧ loaded.schemaVersion = catalog.schemaVersion ∧
      loaded.tables.keys = catalog.tables.keys ∧
      (∀ name, (loaded.tables.lookup name).map (fun t => (t.schema, t.rows, t.rowIds)) =
        (catalog.tables.lookup name).map (fun t => (t.schema, t.rows, t.rowIds))) ∧
      ((∀ name, (loaded.tables.lookup name).map Table.data =
          (catalog.tables.lookup name).map Table.data) ↔
        catalog.tables.All Table.LastIdKept) := by
  have hload := loadable_of_persisted h hbound
  refine ⟨_, loadCatalog_snapshot (hC hfinite) [], rfl, rfl, ?_, ?_, ?_⟩
  · simp [migrateTables_owned hload]
  · intro name
    simp only [migrateTables_owned hload, lookup_mapValues, Option.map_map]
    rfl
  · simp only [migrateTables_owned hload, lookup_mapValues, Option.map_map]
    constructor
    · intro hsame name table hlookup
      have hdata := hsame name
      rw [hlookup, Option.map_some, Option.map_some, Option.some.injEq] at hdata
      exact ((hload.sound name table hlookup).reloaded_nextRowId hbound).mp
        (congrArg TableData.nextRowId hdata)
    · intro hkept name
      cases hlookup : catalog.tables.lookup name with
      | none => rfl
      | some table =>
        have hnext := ((hload.sound name table hlookup).reloaded_nextRowId hbound).mpr
          (hkept name table hlookup)
        rw [Option.map_some, Option.map_some, Option.some.injEq]
        show TableData.mk _ _ _ _ = TableData.mk _ _ _ _
        rw [hnext]
        rfl

theorem persisted_runStatements {H : Host} {statements : List Statement}
    {state state' : Tables × Nat} (hbefore : Persisted H state.1 state.2)
    (hparsed : ∀ statement ∈ statements, statement.Parsed ∧ statement.Keyed)
    (h : runStatements H state statements = .ok state') : Persisted H state'.1 state'.2 := by
  induction statements generalizing state with
  | nil =>
    simp only [runStatements, Except.ok.injEq] at h
    exact h ▸ hbefore
  | cons statement statements ih =>
    obtain ⟨⟨result, tables⟩, hexecute, hrest⟩ := Result.bind_eq_ok.mp h
    obtain ⟨hfirst, hkeyed⟩ := hparsed statement (by simp)
    exact ih (hbefore.step hfirst hkeyed hexecute)
      (fun other hmem => hparsed other (List.mem_cons_of_mem _ hmem)) hrest

/-! ## Two snapshots -/

/-- `CREATE TABLE t (v INTEGER)`. -/
def createPlain : Statement := .createTable "t" [plainColumn "v" .integer] [] false

/-- `INSERT INTO t VALUES (1), (2)`. -/
def insertTwo : Statement :=
  .insert "t" none (.values [[.literal (.integer 1)], [.literal (.integer 2)]]) []

/-- `DELETE FROM t WHERE v = 2`. -/
def deleteSecond : Statement :=
  .delete "t" (some (.binary (.column none "v") (.compare .equal) (.literal (.integer 2))))

/-- `catalog.json` for a table `t` with one INTEGER column `v`. -/
def plainSnapshotText (version : Nat) (values : List Nat) (nextRowId : Nat) : String :=
  let row := fun value : Nat =>
    "        \x7b\n          \"values\": [\n            \x7b\n              \"Integer\": " ++
      toString value ++ "\n            \x7d\n          ]\n        \x7d"
  let rowId := fun id : Nat => "        " ++ toString id
  "\x7b\n  \"format_version\": 1,\n  \"catalog_version\": " ++ toString version ++
    ",\n  \"schema_version\": 1,\n  \"timestamp_millis\": 1700000000000,\n" ++
    "  \"tables\": \x7b\n    \"t\": \x7b\n      \"schema\": \x7b\n        \"name\": \"t\",\n" ++
    "        \"columns\": [\n          \x7b\n            \"name\": \"v\",\n" ++
    "            \"data_type\": \"Integer\",\n            \"nullable\": true,\n" ++
    "            \"primary_key\": false,\n            \"unique\": false,\n" ++
    "            \"default\": null,\n            \"checks\": []\n          \x7d\n        ],\n" ++
    "        \"constraints\": [],\n        \"indexes\": []\n      \x7d,\n      \"rows\": [\n" ++
    String.intercalate ",\n" (values.map row) ++ "\n      ],\n      \"row_ids\": [\n" ++
    String.intercalate ",\n" (values.map rowId) ++ "\n      ],\n      \"next_row_id\": " ++
    toString nextRowId ++ "\n    \x7d\n  \x7d\n\x7d"

/-- `serde_json` on one snapshot and its text. -/
def oneSnapshotCodec (snapshot : CatalogSnapshot) (text : String) : SnapshotCodec where
  encode _ := text
  decode content := if content = text then .ok snapshot else .error "expected value"
  decodeTable _ := .error "expected value"
  reread := id

@[simp] theorem Value.reread_id (value : Value) : value.reread id = value := by cases value <;> rfl

theorem CatalogSnapshot.Readable.finite {reread : F64 → F64} {snapshot : CatalogSnapshot}
    (h : snapshot.Readable reread) : snapshot.Finite := by
  intro entry hentry value hvalue
  have hvalue := h.values entry hentry value hvalue
  rw [Value.comesBack, Bool.and_eq_true] at hvalue
  exact hvalue.1

theorem rereadTables_id (tables : List (String × TableData)) :
    List.Forall₂ (RereadTable id) tables tables := by
  refine List.forall₂_same.mpr fun entry _ => ⟨rfl, ?_⟩
  rw [List.map_congr_left fun value _ => Value.reread_id value, List.map_id']

theorem oneSnapshotCodec_decode (snapshot : CatalogSnapshot) (text : String) :
    (oneSnapshotCodec snapshot text).decode ((oneSnapshotCodec snapshot text).encode snapshot) =
      .ok snapshot := if_pos rfl

theorem oneSnapshotCodec_lawful {snapshot : CatalogSnapshot} (h : snapshot.Readable id)
    (text : String) : (oneSnapshotCodec snapshot text).Lawful snapshot := by
  refine ⟨fun _ => oneSnapshotCodec_decode snapshot text, ?_, fun _ _ =>
    ⟨snapshot, oneSnapshotCodec_decode snapshot text, rereadTables_id snapshot.tables⟩⟩
  rintro (hinfinite | hdeep)
  · exact absurd h.finite hinfinite
  · exact absurd h.shallow (Nat.not_lt.mpr hdeep)

/-- What is asked of a run before its catalog is saved: the rows inserted, whether its
values come back, and the counter of `t` before and after a reload. -/
def counterReport (state : Tables × Nat) : Nat × Bool × Option Nat × Option Nat :=
  (state.2, decide ((Catalog.snapshot ⟨3, 1, state.1⟩ 1700000000000).Readable id),
    (state.1.lookup "t").map Table.nextRowId,
    ((migrateTables Host.reference state.1.owned).lookup "t").map Table.nextRowId)

/-- The rows of `t` and their identifiers. -/
def rowsReport (state : Tables × Nat) : Option (List Row) × Option (List Nat) :=
  ((state.1.lookup "t").map Table.rows, (state.1.lookup "t").map Table.rowIds)

/-- **The identifier of a deleted row is handed out again** after a reload: of the
identifiers 1 and 2 the second is deleted, and the counter comes back as 2. -/
theorem deleted_id_is_reused : ∃ (catalog loaded : Catalog) (C : SnapshotCodec),
    Persisted Host.reference catalog.tables 2 ∧ (catalog.snapshot 1700000000000).Finite ∧
      C.decode (C.encode (catalog.snapshot 1700000000000)) =
        .ok (catalog.snapshot 1700000000000) ∧
      loadCatalog Host.reference C (some (C.encode (catalog.snapshot 1700000000000))) [] =
        .ok loaded ∧
      (catalog.tables.lookup "t").map Table.nextRowId = some 3 ∧
      (loaded.tables.lookup "t").map Table.nextRowId = some 2 := by
  have hrun : ((runStatements Host.reference (∅, 0) [createPlain, insertTwo, deleteSecond]).map
      counterReport).toOption = some (2, true, some 3, some 2) := by decide +kernel
  obtain ⟨⟨tables, inserted⟩, hstatements, hreport⟩ :=
    Result.map_eq_ok.mp (Result.toOption_eq_some.mp hrun)
  simp only [counterReport, Prod.mk.injEq, decide_eq_true_eq] at hreport
  obtain ⟨rfl, hreadable, hbefore, hafter⟩ := hreport
  have hreach : Persisted Host.reference tables 2 := persisted_runStatements Persisted.empty
    (by simp [createPlain, insertTwo, deleteSecond, plainColumn, Statement.Parsed, Statement.Keyed,
      KeyFlagged]) hstatements
  have hC := oneSnapshotCodec_decode (Catalog.snapshot ⟨3, 1, tables⟩ 1700000000000)
    (plainSnapshotText 3 [1] 3)
  exact ⟨⟨3, 1, tables⟩, _, _, hreach, hreadable.finite, hC, loadCatalog_snapshot hC [], hbefore,
    hafter⟩

/-- Nothing is deleted: the whole catalog comes back. -/
theorem inserted_rows_reload : ∃ (catalog loaded : Catalog) (C : SnapshotCodec),
    loadCatalog Host.reference C (some (C.encode (catalog.snapshot 1700000000000))) [] =
        .ok loaded ∧
      (catalog.tables.lookup "t").map Table.rows = some [[.integer 1], [.integer 2]] ∧
      ∀ name, (loaded.tables.lookup name).map Table.data =
        (catalog.tables.lookup name).map Table.data := by
  have hrun : ((runStatements Host.reference (∅, 0) [createPlain, insertTwo]).map
      fun state => (state.1.keys, counterReport state)).toOption =
      some (["t"], 2, true, some 3, some 3) := by decide +kernel
  have hrows : ((runStatements Host.reference (∅, 0) [createPlain, insertTwo]).map
      rowsReport).toOption = some (some [[.integer 1], [.integer 2]], some [1, 2]) := by
    decide +kernel
  obtain ⟨⟨tables, inserted⟩, hstatements, hreport⟩ :=
    Result.map_eq_ok.mp (Result.toOption_eq_some.mp hrun)
  rw [hstatements] at hrows
  simp only [counterReport, Prod.mk.injEq, decide_eq_true_eq] at hreport
  obtain ⟨hkeys, rfl, hreadable, hnext, -⟩ := hreport
  obtain ⟨hrows, hids⟩ : (tables.lookup "t").map Table.rows = some [[.integer 1], [.integer 2]] ∧
      (tables.lookup "t").map Table.rowIds = some [1, 2] := by
    simpa [Except.map, Except.toOption, rowsReport] using hrows
  have hreach : Persisted Host.reference tables 2 := persisted_runStatements Persisted.empty
    (by simp [createPlain, insertTwo, plainColumn, Statement.Parsed, Statement.Keyed,
      KeyFlagged]) hstatements
  have hC := oneSnapshotCodec_decode (Catalog.snapshot ⟨3, 1, tables⟩ 1700000000000)
    (plainSnapshotText 3 [1, 2] 3)
  obtain ⟨loaded, hload, -, -, -, -, hcounter⟩ := snapshot_round_trip Host.reference _
    ⟨3, 1, tables⟩ 2 1700000000000 hreach (by decide) hreadable.finite fun _ => hC
  refine ⟨⟨3, 1, tables⟩, loaded, _, hload, hrows, hcounter.mpr ?_⟩
  intro name table hlookup
  obtain rfl : name = "t" := by
    have hmem : name ∈ tables.keys := by
      rw [← AList.mem_keys, ← AList.lookup_isSome, hlookup]
      rfl
    simpa [hkeys] using hmem
  change tables.lookup "t" = some table at hlookup
  simp only [hlookup, Option.map_some, Option.some.injEq] at hnext hids
  exact Or.inr (by simp [hnext, hids])

end Sql
end RustyDB
