import Mathlib
import RustyDB.Sql.Invariant
import RustyDB.Sql.Scan

/-!
# Declared keys

PRIMARY KEY and UNIQUE constraints are checked through runtime indexes, and these sit
in a map under their names: of several definitions with one name only the last is
built.  A constraint is therefore enforced as long as the definition that its index
name stands for is a unique index over its columns.

* `TableSchema.liveIndex` — the definition an index name stands for.
* `Table.Backed` — every constraint has its index among the definitions, and the
  runtime indexes are the live ones.  Every statement keeps it.
* `Table.Distinct` — no two rows share a key without NULL.
* `key_enforced` — the constraints of every reachable catalog.
* `clashing_names_drop_key` — two generated names that clash.
-/

namespace RustyDB
namespace Sql

open KeyedIndex

/-- The definition that an index name stands for at run time: the last one of the
name, since `rebuild_index` overwrites. -/
def TableSchema.liveIndex (schema : TableSchema) (name : String) : Option IndexDef :=
  schema.indexes.reverse.find? (fun definition => definition.name == name)

/-- The columns of a PRIMARY KEY or UNIQUE constraint. -/
def TableConstraint.keyColumns : TableConstraint → Option (List String)
  | .primaryKey _ columns => some columns
  | .unique _ columns => some columns
  | _ => none

/-! ## Constraints and their indexes -/

/-- The runtime indexes are the live definitions, and every constraint that asks for
an index has it among the definitions. -/
structure Table.Backed (table : Table) : Prop where
  listed : ∀ name, (table.indexes.lookup name).map BTreeIndex.definition =
    table.schema.liveIndex name
  backed : ∀ constraint ∈ table.schema.constraints, ∀ definition,
    constraintIndex table.schema.name constraint = some definition →
    definition ∈ table.schema.indexes

section Backed

variable {H : Host} {tables tables' : Tables} {table table' : Table} {result : ExecutionResult}

theorem Table.backed_rebuildIndex
    (h : ∀ constraint ∈ table.schema.constraints, ∀ definition,
      constraintIndex table.schema.name constraint = some definition →
      definition ∈ table.schema.indexes) : (table.rebuildIndex H).Backed := by
  refine ⟨fun name => ?_, h⟩
  rw [Table.lookup_rebuildIndex, Option.map_map]
  have hid : BTreeIndex.definition ∘ table.buildIndex H = id := by
    funext definition
    simp
  rw [hid, Option.map_id]
  rfl

/-- Recomputing the metadata backs every constraint, whatever was there before. -/
theorem Table.backed_refresh (table : Table) : (refreshConstraintMetadata H table).Backed := by
  refine Table.backed_rebuildIndex fun constraint hmem definition hindex => ?_
  exact List.mem_append_left _ (constraintIndex_mem_automaticIndexes hmem hindex)

theorem lookup_definition_mapValues {indexes : AList (fun _ : String => BTreeIndex)}
    {f : String → BTreeIndex → BTreeIndex}
    (hf : ∀ name index, (f name index).definition = index.definition) (name : String) :
    ((mapValues f indexes).lookup name).map BTreeIndex.definition =
      (indexes.lookup name).map BTreeIndex.definition := by
  rw [lookup_mapValues, Option.map_map]
  congr 1
  funext index
  exact hf name index

theorem insertRow_backed {name : String} {onDuplicate : List (String × Expr)} {row : Row}
    {added : Nat} (h : insertRow H tables name onDuplicate table row = .ok (table', added))
    (hbacked : table.Backed) : table'.Backed := by
  rcases insertRow_ok h with ⟨h, -⟩ | ⟨position, updated, h⟩ | rfl
  · obtain ⟨-, rfl⟩ := Table.insertRowIndexed_eq_ok h
    refine ⟨fun other => ?_, hbacked.backed⟩
    exact (lookup_definition_mapValues (fun _ index => BTreeIndex.insertKeyed_definition _)
      other).trans (hbacked.listed other)
  · obtain ⟨-, previous, rowId, -, -, rfl⟩ := Table.replaceRowIndexed_eq_ok h
    refine ⟨fun other => ?_, hbacked.backed⟩
    exact (lookup_definition_mapValues (fun _ index => BTreeIndex.moveEntry_definition _ _ _)
      other).trans (hbacked.listed other)
  · exact hbacked

theorem insertRows_backed {name : String} {onDuplicate : List (String × Expr)} {rows : List Row}
    {count count' : Nat}
    (h : insertRows H tables name onDuplicate table count rows = .ok (table', count'))
    (hbacked : table.Backed) : table'.Backed := by
  induction rows generalizing table count with
  | nil =>
    simp only [insertRows, Except.ok.injEq, Prod.mk.injEq] at h
    exact h.1 ▸ hbacked
  | cons row rows ih =>
    obtain ⟨⟨next, added⟩, hrow, hrest⟩ := Result.bind_eq_ok.mp h
    exact ih hrest (insertRow_backed hrow hbacked)

theorem automatic_of_constraintIndex {tableName : String} {constraint : TableConstraint}
    {definition : IndexDef} (h : constraintIndex tableName constraint = some definition) :
    definition.automatic = true := by
  cases constraint <;> simp only [constraintIndex, reduceCtorEq, Option.some.injEq] at h <;>
    rw [← h]

/-- Only RENAME COLUMN reaches other tables, and it recomputes their metadata. -/
theorem backed_alterOthers (h : tables.All Table.Backed) (tableName : String)
    (operation : AlterOperation) : (alterOthers H tables tableName operation).All Table.Backed := by
  cases operation with
  | renameColumn oldName newName =>
    refine h.mapValues fun name table hbacked => ?_
    split
    · exact hbacked
    · split
      · exact Table.backed_refresh _
      · exact hbacked
  | _ => exact h

theorem backed_applyAlterOperations {others : Tables} {tableName : String}
    {operations : List AlterOperation} (hcatalog : tables.All Table.Backed)
    (h : applyAlterOperations H tableName tables table operations = .ok (others, table')) :
    others.All Table.Backed := by
  induction operations generalizing tables table with
  | nil =>
    simp only [applyAlterOperations, Except.ok.injEq, Prod.mk.injEq] at h
    exact h.1 ▸ hcatalog
  | cons operation operations ih =>
    obtain ⟨⟨next, nextTable⟩, hoperation, hrest⟩ := Result.bind_eq_ok.mp h
    rcases applyAlterOperation_ok hoperation with ⟨rfl, rfl⟩ | ⟨altered, -, rfl, rfl⟩
    · exact ih hcatalog hrest
    · exact ih (backed_alterOthers hcatalog tableName operation) hrest

/-- **One statement keeps every constraint backed.** -/
theorem backed_step {statement : Statement}
    (h : executeStatement H tables statement = .ok (result, tables'))
    (hcatalog : tables.All Table.Backed) : tables'.All Table.Backed := by
  cases hwrite : isWriteStatement statement with
  | false =>
    rw [executeStatement_read hwrite h]
    exact hcatalog
  | true =>
    cases statement with
    | createTable tableName columns constraints ifNotExists =>
      rcases executeCreateTable_ok h with rfl | ⟨schema, rfl, -, -, hindexes, -⟩
      · exact hcatalog
      · refine hcatalog.insert (Table.backed_rebuildIndex fun constraint hmem definition hd => ?_)
        exact hindexes ▸ constraintIndex_mem_automaticIndexes hmem hd
    | dropTable tableName ifExists =>
      rcases executeDropTable_ok h with rfl | rfl
      · exact hcatalog
      · exact hcatalog.erase _
    | createIndex name tableName columns unique ifNotExists =>
      rcases executeCreateIndex_ok h with rfl | ⟨existing, definition, hlookup, -, -, rfl⟩
      · exact hcatalog
      · refine hcatalog.insert (Table.backed_rebuildIndex fun constraint hmem found hfound => ?_)
        exact List.mem_append_left _
          ((hcatalog _ existing hlookup).backed constraint hmem found hfound)
    | dropIndex name tableName ifExists =>
      rcases executeDropIndex_ok h with
        rfl | ⟨existing, position, dropped, hlookup, hdropped, hmanual, rfl⟩
      · exact hcatalog
      · refine hcatalog.insert (Table.backed_rebuildIndex fun constraint hmem found hfound => ?_)
        -- The index of a constraint is automatic, the dropped one is not.
        have hindex := (hcatalog _ existing hlookup).backed constraint hmem found hfound
        obtain ⟨i, hi⟩ := List.mem_iff_getElem?.mp hindex
        refine List.mem_eraseIdx_iff_getElem?.mpr ⟨i, ?_, hi⟩
        rintro rfl
        rw [hdropped, Option.some.injEq] at hi
        subst hi
        rw [automatic_of_constraintIndex hfound] at hmanual
        simp at hmanual
    | alterTable tableName operations =>
      obtain ⟨existing, table, others, -, hoperations, rfl⟩ := executeAlterTable_ok h
      exact (backed_applyAlterOperations hcatalog hoperations).insert (Table.backed_refresh _)
    | insert tableName columns source onDuplicate =>
      obtain ⟨values, existing, table, rows, count, -, hlookup, -, hinsert, rfl, -, -⟩ :=
        executeInsert_ok h
      exact hcatalog.insert (insertRows_backed hinsert (hcatalog _ existing hlookup))
    | update tableName assignments selection =>
      obtain ⟨table, updated, hlookup, -, rfl, -, -⟩ := executeUpdate_ok h
      exact hcatalog.insert (Table.backed_rebuildIndex (hcatalog _ table hlookup).backed)
    | delete tableName selection =>
      obtain ⟨table, kept, hlookup, -, rfl, -, -⟩ := executeDelete_ok h
      exact hcatalog.insert (Table.backed_rebuildIndex (hcatalog _ table hlookup).backed)
    | _ => simp [isWriteStatement] at hwrite

theorem backed_of_reachable {inserted : Nat} (h : Reachable H tables inserted) :
    tables.All Table.Backed := by
  induction h with
  | empty => exact Tables.All.empty
  | step _ _ hexecute ih => exact backed_step (executeCatalog_ok hexecute).1 ih
  | configure rate _ ih => exact ih.mapValues fun name table hbacked =>
      Table.backed_rebuildIndex hbacked.backed

end Backed

/-! ## Validation -/

/-- No two rows share a key without NULL. -/
def Table.Distinct (table : Table) (columns : List String) : Prop :=
  ∀ (p q : Nat) (first second : Row) (key : IndexKey), table.rows[p]? = some first →
    table.rows[q]? = some second → table.schema.indexKey first columns = some key →
    table.schema.indexKey second columns = some key → KeyPart.null ∉ key → p = q

/-- The live unique indexes of a table have no duplicates. -/
def Table.Enforced (table : Table) : Prop :=
  ∀ name definition, table.schema.liveIndex name = some definition → definition.unique = true →
    table.Distinct definition.columns

section Validation

variable {H : Host} {tables : Tables} {table : Table}

theorem mem_inOrder {entry : String × Table} :
    entry ∈ tables.inOrder H ↔ tables.lookup entry.1 = some entry.2 := by
  rw [Tables.inOrder, List.mem_filterMap]
  constructor
  · rintro ⟨name, -, h⟩
    obtain ⟨found, hfound, rfl⟩ := Option.map_eq_some_iff.mp h
    exact hfound
  · intro h
    refine ⟨entry.1, ?_, by rw [h]; rfl⟩
    rw [(H.hashOrder_perm _ _).mem_iff, ← AList.mem_keys, ← AList.lookup_isSome, h]
    rfl

/-- The order in which the tables are visited does not decide whether the foreign keys
pass. -/
theorem validateForeignKeys_eq_ok : validateForeignKeys H tables = .ok () ↔
    tables.All (fun table => ∀ foreignKey, .foreignKey foreignKey ∈ table.schema.constraints →
      validateForeignKey tables table foreignKey = .ok ()) := by
  rw [validateForeignKeys, Result.forM_eq_ok]
  constructor
  · intro h name table hlookup foreignKey hmem
    exact Result.forM_eq_ok.mp (h (name, table) (mem_inOrder.mpr hlookup)) _ hmem
  · intro h entry hentry
    refine Result.forM_eq_ok.mpr fun constraint hmem => ?_
    cases constraint with
    | foreignKey foreignKey => exact h entry.1 entry.2 (mem_inOrder.mp hentry) foreignKey hmem
    | _ => rfl

theorem validateCatalog_eq_ok : validateCatalog H tables = .ok () ↔
    tables.All (fun table => validateTable H tables table = .ok ()) ∧
      validateForeignKeys H tables = .ok () := by
  rw [validateCatalog, Result.bind_eq_ok]
  constructor
  · rintro ⟨⟨⟩, htables, hkeys⟩
    exact ⟨fun name table hlookup =>
      Result.forM_eq_ok.mp htables (name, table) (mem_inOrder.mpr hlookup), hkeys⟩
  · rintro ⟨htables, hkeys⟩
    exact ⟨(), Result.forM_eq_ok.mpr fun entry hentry =>
      htables entry.1 entry.2 (mem_inOrder.mp hentry), hkeys⟩

theorem validateTable_of_validateCatalog (h : validateCatalog H tables = .ok ()) :
    tables.All (fun table => validateTable H tables table = .ok ()) :=
  (validateCatalog_eq_ok.mp h).1

theorem hasDuplicate_of_validate (h : validateUniqueIndexes H table = .ok ()) {name : String}
    {index : BTreeIndex} (hlookup : table.indexes.lookup name = some index)
    (hunique : index.definition.unique = true) : index.hasDuplicate = false := by
  unfold validateUniqueIndexes at h
  split at h
  · simp [refuse] at h
  · rename_i hnone
    have hindex := List.find?_eq_none.mp hnone index (Table.indexValues_of_lookup hlookup)
    simpa [hunique] using hindex

/-- **The check is complete.** A unique index without duplicates keeps its rows apart. -/
theorem distinct_of_hasDuplicate (hinv : table.RepInv H) {name : String} {index : BTreeIndex}
    (hlookup : table.indexes.lookup name = some index) (hnone : index.hasDuplicate = false) :
    table.Distinct index.definition.columns := by
  intro p q first second key hp hq hfirst hsecond hnull
  have hholds := (hinv.indexes name index hlookup).holds
  have hid : ∀ {i : Nat} {row : Row}, table.rows[i]? = some row → ∃ rowId,
      table.rowIds[i]? = some rowId := by
    intro i row hi
    obtain ⟨hlt, -⟩ := List.getElem?_eq_some_iff.mp hi
    exact ⟨_, List.getElem?_eq_getElem (hinv.ids.lengths ▸ hlt)⟩
  obtain ⟨idp, hidp⟩ := hid hp
  obtain ⟨idq, hidq⟩ := hid hq
  have hmemp := (hholds.entries.mem_ids key idp).mpr ⟨p, first, hp, hidp, hfirst⟩
  have hmemq := (hholds.entries.mem_ids key idq).mpr ⟨q, second, hq, hidq, hsecond⟩
  obtain ⟨ids, hentry, hmemp⟩ := mem_entries_of_mem_ids hmemp
  have hids : index.entries.ids key = ids := by
    unfold Entries.ids
    rw [AList.mem_lookup_iff.mpr hentry]
    rfl
  rw [hids] at hmemq
  have hcard : ids.card ≤ 1 := by
    have hentries := List.any_eq_false.mp hnone _ hentry
    simpa [hnull] using hentries
  have hsame : idp = idq := Finset.card_le_one.mp hcard idp hmemp idq hmemq
  exact hinv.ids.rowId_inj hidp (hsame ▸ hidq)

theorem enforced_of_validate (hinv : table.RepInv H) (hbacked : table.Backed)
    (h : validateTable H tables table = .ok ()) : table.Enforced := by
  obtain ⟨⟨⟩, -, hunique⟩ := Result.bind_eq_ok.mp h
  intro name definition hlive hdefinition
  have hlisted := hbacked.listed name
  rw [hlive] at hlisted
  obtain ⟨index, hlookup, rfl⟩ := Option.map_eq_some_iff.mp hlisted
  exact distinct_of_hasDuplicate hinv hlookup (hasDuplicate_of_validate hunique hlookup hdefinition)

/-- **Live unique indexes are enforced** in every reachable catalog: the last write
was validated, and nothing else touches the rows. -/
theorem enforced_of_reachable {inserted : Nat} (h : Reachable H tables inserted)
    (hbound : inserted < maxRowId) : tables.All Table.Enforced := by
  induction h with
  | empty => exact Tables.All.empty
  | step hbefore hparsed hexecute ih =>
    rename_i tables tables' inserted statement result
    have hafter := hbefore.step hparsed hexecute
    obtain ⟨hstatement, hvalid⟩ := executeCatalog_ok hexecute
    cases hwrite : isWriteStatement statement with
    | false =>
      rw [executeStatement_read hwrite hstatement]
      exact ih (Nat.lt_of_le_of_lt (Nat.le_add_right _ _) hbound)
    | true =>
      intro name table hlookup
      exact enforced_of_validate (catalogOk_of_reachable hafter hbound name table hlookup).repInv
        (backed_of_reachable hafter name table hlookup)
        (validateTable_of_validateCatalog (hvalid hwrite) name table hlookup)
  | configure rate _ ih => exact (ih hbound).mapValues fun name table henforced => henforced

end Validation

/-! ## Constraints -/

/-- Two rows have equal values, none of them NULL, in all the columns. -/
def TableSchema.SameKey (schema : TableSchema) (columns : List String) (first second : Row) :
    Prop :=
  ∀ column ∈ columns, ∃ (i : Nat) (x y : Value), schema.columnIndex column = some i ∧
    first[i]? = some x ∧ second[i]? = some y ∧ x ≠ .null ∧ y ≠ .null ∧ x.eq y = true

/-- A key holds: no two rows have equal values in its columns unless one is NULL. -/
def Table.KeyHolds (table : Table) (columns : List String) : Prop :=
  ∀ (p q : Nat) (first second : Row), table.rows[p]? = some first →
    table.rows[q]? = some second → table.schema.SameKey columns first second → p = q

/-- The name of a key's index stands for a unique index over columns of the key: no
definition that came later has taken it for something else. -/
def TableSchema.KeepsIndex (schema : TableSchema) (constraint : TableConstraint) : Prop :=
  ∀ own ∈ constraintIndex schema.name constraint, ∀ live ∈ schema.liveIndex own.name,
    live.unique = true ∧ ∀ column ∈ live.columns,
      ∃ c ∈ constraintColumns constraint, eqIgnoreAsciiCase c column = true

instance (schema : TableSchema) (constraint : TableConstraint) :
    Decidable (schema.KeepsIndex constraint) := by
  unfold TableSchema.KeepsIndex
  infer_instance

/-- No row holds minus zero in the columns. -/
def Table.NoNegZero (table : Table) (columns : List String) : Prop :=
  ∀ row ∈ table.rows, ∀ column ∈ columns, ∀ i ∈ table.schema.columnIndex column,
    row[i]? ≠ some (.float F64.negZero)

instance (table : Table) (columns : List String) : Decidable (table.NoNegZero columns) := by
  unfold Table.NoNegZero
  infer_instance

theorem Value.eq_of_eq {x y : Value} (h : x.eq y = true) (hx : x ≠ .float F64.negZero)
    (hy : y ≠ .float F64.negZero) : x = y := by
  cases x with
  | integer a =>
    cases y with
    | integer b => exact congrArg Value.integer (eq_of_beq h)
    | _ => exact absurd h nofun
  | float a =>
    cases y with
    | float b =>
      exact congrArg Value.float
        (F64.eq_of_eq h (fun ha => hx (ha ▸ rfl)) (fun hb => hy (hb ▸ rfl)))
    | _ => exact absurd h nofun
  | text a =>
    cases y with
    | text b => exact congrArg Value.text (eq_of_beq h)
    | _ => exact absurd h nofun
  | boolean a =>
    cases y with
    | boolean b => exact congrArg Value.boolean (eq_of_beq h)
    | _ => exact absurd h nofun
  | null =>
    cases y with
    | null => rfl
    | _ => exact absurd h nofun

/-- Rows that agree in the columns of a key have one key in an index over them. -/
theorem indexKey_of_sameKey {table : Table} {columns : List String} {first second : Row}
    (hfirst : first ∈ table.rows) (hsecond : second ∈ table.rows) (hzero : table.NoNegZero columns)
    (h : table.schema.SameKey columns first second) {indexed : List String}
    (hindexed : ∀ column ∈ indexed, ∃ c ∈ columns, eqIgnoreAsciiCase c column = true) :
    ∃ key, table.schema.indexKey first indexed = some key ∧
      table.schema.indexKey second indexed = some key ∧ KeyPart.null ∉ key := by
  induction indexed with
  | nil => exact ⟨[], rfl, rfl, by simp⟩
  | cons column indexed ih =>
    obtain ⟨key, hkey, hkey', hnull⟩ := ih fun c hc => hindexed c (List.mem_cons_of_mem _ hc)
    obtain ⟨c, hc, hname⟩ := hindexed column (by simp)
    obtain ⟨i, x, y, hi, hx, hy, hxnull, -, heq⟩ := h c hc
    have hxy : x = y := Value.eq_of_eq heq (fun hneg => hzero first hfirst c hc i hi (hneg ▸ hx))
      (fun hneg => hzero second hsecond c hc i hi (hneg ▸ hy))
    subst hxy
    rw [columnIndex_congr hname] at hi
    refine ⟨KeyPart.fromValue x :: key, ?_, ?_, ?_⟩
    · exact indexKey_cons_eq hi hx hkey
    · exact indexKey_cons_eq hi hy hkey'
    · rw [List.mem_cons, not_or]
      refine ⟨?_, hnull⟩
      cases x <;> simp_all [KeyPart.fromValue]

theorem exists_liveIndex {schema : TableSchema} {own : IndexDef} (h : own ∈ schema.indexes) :
    ∃ live, schema.liveIndex own.name = some live := by
  rw [← Option.isSome_iff_exists, TableSchema.liveIndex, List.find?_isSome]
  exact ⟨own, by simpa using h, by simp⟩

theorem constraintIndex_of_keyColumns {tableName : String} {constraint : TableConstraint}
    {columns : List String} (h : constraint.keyColumns = some columns) :
    constraintColumns constraint = columns ∧
      ∃ own, constraintIndex tableName constraint = some own := by
  cases constraint with
  | primaryKey name keyColumns => exact ⟨Option.some.inj h, _, rfl⟩
  | unique name keyColumns => exact ⟨Option.some.inj h, _, rfl⟩
  | check name expr => simp [TableConstraint.keyColumns] at h
  | foreignKey foreignKey => simp [TableConstraint.keyColumns] at h

/-- **Declared keys are enforced** in every reachable catalog with fewer than
`2 ^ 64 - 1` rows inserted, as long as the name of the constraint's index stands for a
unique index over its columns and these columns hold no minus zero. -/
theorem key_enforced (H : Host) (tables : Tables) (inserted : Nat)
    (h : Reachable H tables inserted) (hbound : inserted < 2 ^ 64 - 1) :
    ∀ name table, tables.lookup name = some table →
      ∀ constraint ∈ table.schema.constraints, ∀ columns,
        constraint.keyColumns = some columns → table.schema.KeepsIndex constraint →
        table.NoNegZero columns → table.KeyHolds columns := by
  intro name table hlookup constraint hmem columns hkey hkeeps hzero p q first second hp hq hsame
  obtain ⟨rfl, own, hown⟩ := @constraintIndex_of_keyColumns table.schema.name _ _ hkey
  obtain ⟨live, hlive⟩ := exists_liveIndex
    ((backed_of_reachable h name table hlookup).backed constraint hmem own hown)
  obtain ⟨hunique, hcolumns⟩ := hkeeps own hown live hlive
  obtain ⟨key, hfirst, hsecond, hnull⟩ := indexKey_of_sameKey (List.mem_of_getElem? hp)
    (List.mem_of_getElem? hq) hzero hsame hcolumns
  exact enforced_of_reachable h hbound name table hlookup own.name live hlive hunique
    p q first second key hp hq hfirst hsecond hnull

/-! ## Keys that are and are not enforced -/

/-- `CREATE TABLE t (a_b INTEGER, c INTEGER, a INTEGER, b_c INTEGER, UNIQUE (a_b, c),
UNIQUE (a, b_c))` and two rows that agree on `(a_b, c)`. -/
def clashingNames : List Statement :=
  [.createTable "t" [plainColumn "a_b" .integer, plainColumn "c" .integer,
      plainColumn "a" .integer, plainColumn "b_c" .integer]
      [.unique none ["a_b", "c"], .unique none ["a", "b_c"]] false,
    .insert "t" none (.values [
      [.literal (.integer 1), .literal (.integer 1), .literal (.integer 1), .literal (.integer 1)],
      [.literal (.integer 1), .literal (.integer 1), .literal (.integer 2), .literal (.integer 2)]])
      []]

/-- `CREATE TABLE t (x FLOAT UNIQUE)` and the rows `0.0` and `-0.0`. -/
def bothZeros : List Statement :=
  [.createTable "t" [{ plainColumn "x" .float with unique := true }] [.unique none ["x"]] false,
    .insert "t" none (.values [[.literal (.float ⟨0⟩)],
      [.unary .negate (.literal (.float ⟨0⟩))]]) []]

/-- What a run leaves in table `t`. -/
structure KeyReport where
  inserted : Nat
  rows : List Row
  keys : List (Option (List String))
  /-- Where the columns of interest are. -/
  positions : List (Option Nat)
  deriving DecidableEq

/-- What two INSERTs leave in the table `t`, and whether its key holds there. -/
def keyReport (columns : List String) (state : Tables × Nat) : Option KeyReport :=
  (state.1.lookup "t").map (fun table =>
    { inserted := state.2
      rows := table.rows
      keys := table.schema.constraints.map TableConstraint.keyColumns
      positions := columns.map table.schema.columnIndex })

/-- A run that leaves equal rows under a declared key. -/
theorem key_violated_of_report {H : Host} {statements : List Statement} {columns : List String}
    {first second : Row} {report : KeyReport}
    (hparsed : ∀ statement ∈ statements, statement.Parsed)
    (hrun : ((runStatements H (∅, 0) statements).map (keyReport columns)).toOption =
      some (some report))
    (hrows : report.rows = [first, second]) (hkeys : some columns ∈ report.keys)
    (hsame : ∀ position ∈ report.positions, ∃ i x y, position = some i ∧
      first[i]? = some x ∧ second[i]? = some y ∧ x ≠ .null ∧ y ≠ .null ∧ x.eq y = true) :
    ∃ tables table, Reachable H tables report.inserted ∧ tables.lookup "t" = some table ∧
      (∃ constraint ∈ table.schema.constraints, constraint.keyColumns = some columns) ∧
      ¬ table.KeyHolds columns := by
  obtain ⟨⟨tables, count⟩, hstatements, hreport⟩ :=
    Result.map_eq_ok.mp (Result.toOption_eq_some.mp hrun)
  obtain ⟨table, hlookup, rfl⟩ := Option.map_eq_some_iff.mp hreport
  refine ⟨tables, table, reachable_runStatements Reachable.empty hparsed hstatements, hlookup,
    List.mem_map.mp hkeys, fun hholds => ?_⟩
  have hsameKey : table.schema.SameKey columns first second :=
    fun column hcolumn => hsame _ (List.mem_map_of_mem hcolumn)
  have hpositions : (0 : Nat) = 1 := hholds 0 1 first second
    (by simp only at hrows; rw [hrows]; rfl)
    (by simp only at hrows; rw [hrows]; rfl) hsameKey
  simp at hpositions

/-- **Clashing names drop a key.** Both constraints ask for the index `t_a_b_c_uk`; only
the second one is built, and the rows agree on the columns of the first. -/
theorem clashing_names_drop_key : ∃ tables table, Reachable Host.reference tables 2 ∧
    tables.lookup "t" = some table ∧
    (∃ constraint ∈ table.schema.constraints, constraint.keyColumns = some ["a_b", "c"]) ∧
    ¬ table.KeyHolds ["a_b", "c"] := by
  have hrun : ((runStatements Host.reference (∅, 0) clashingNames).map
      (keyReport ["a_b", "c"])).toOption =
      some (some ⟨2, [[.integer 1, .integer 1, .integer 1, .integer 1],
        [.integer 1, .integer 1, .integer 2, .integer 2]],
        [some ["a_b", "c"], some ["a", "b_c"]], [some 0, some 1]⟩) := by
    decide +kernel
  refine key_violated_of_report (by simp [clashingNames, Statement.Parsed]) hrun rfl (by simp) ?_
  intro position hposition
  rcases List.mem_pair.mp hposition with rfl | rfl
  · exact ⟨0, .integer 1, .integer 1, rfl, rfl, rfl, by simp, by simp, by decide⟩
  · exact ⟨1, .integer 1, .integer 1, rfl, rfl, rfl, by simp, by simp, by decide⟩

/-- The two zeros are equal values with different index keys. -/
theorem both_zeros_pass_key : ∃ tables table, Reachable Host.reference tables 2 ∧
    tables.lookup "t" = some table ∧
    (∃ constraint ∈ table.schema.constraints, constraint.keyColumns = some ["x"]) ∧
    ¬ table.KeyHolds ["x"] := by
  have hrun : ((runStatements Host.reference (∅, 0) bothZeros).map
      (keyReport ["x"])).toOption =
      some (some ⟨2, [[.float ⟨0⟩], [.float F64.negZero]], [some ["x"]], [some 0]⟩) := by
    decide +kernel
  refine key_violated_of_report (by simp [bothZeros, Statement.Parsed]) hrun rfl (by simp) ?_
  intro position hposition
  obtain rfl := List.mem_singleton.mp hposition
  exact ⟨0, .float ⟨0⟩, .float F64.negZero, rfl, rfl, rfl, by simp, by simp, by decide +kernel⟩

/-- In the same run the second constraint is enforced: its index is the one built. -/
theorem last_key_enforced : ∃ tables table, Reachable Host.reference tables 2 ∧
    tables.lookup "t" = some table ∧ table.rows.length = 2 ∧
    (∃ constraint ∈ table.schema.constraints, constraint.keyColumns = some ["a", "b_c"]) ∧
    table.KeyHolds ["a", "b_c"] := by
  have hrun : ((runStatements Host.reference (∅, 0) clashingNames).map (fun state =>
      (state.2, (state.1.lookup "t").map (fun table => (table.rows.length, decide (
        (∃ constraint ∈ table.schema.constraints, constraint.keyColumns = some ["a", "b_c"] ∧
          table.schema.KeepsIndex constraint) ∧ table.NoNegZero ["a", "b_c"])))))).toOption =
      some (2, some (2, true)) := by
    decide +kernel
  obtain ⟨⟨tables, inserted⟩, hstatements, hreport⟩ :=
    Result.map_eq_ok.mp (Result.toOption_eq_some.mp hrun)
  obtain ⟨rfl, hreport⟩ := Prod.mk.inj hreport
  obtain ⟨table, hlookup, hreport⟩ := Option.map_eq_some_iff.mp hreport
  obtain ⟨hrows, hkeys⟩ := Prod.mk.inj hreport
  obtain ⟨⟨constraint, hmem, hkey, hkeeps⟩, hzero⟩ := of_decide_eq_true hkeys
  have hreach : Reachable Host.reference tables 2 := reachable_runStatements Reachable.empty
    (by simp [clashingNames, Statement.Parsed]) hstatements
  exact ⟨tables, table, hreach, hlookup, hrows, ⟨constraint, hmem, hkey⟩,
    key_enforced Host.reference tables 2 hreach (by decide) "t" table hlookup constraint hmem
      _ hkey hkeeps hzero⟩

end Sql
end RustyDB
