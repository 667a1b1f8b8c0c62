import Mathlib
import RustyDB.Lib.KeyedIndex
import RustyDB.Sql.Host

/-!
# Tables and their runtime indexes

The storage half of `src/sql/executor.rs`: a table keeps its rows, a stable
identifier for each, and one B-tree index with a Bloom filter for every index
definition of its schema.

* `Table.rebuildIndex` — the indexes built from the rows.
* `Table.insertRowIndexed`, `Table.replaceRowIndexed` — the incremental path of
  INSERT ... ON DUPLICATE KEY UPDATE.
* `Table.uniqueConflictPositions` — the rows a new row collides with.
* `Table.candidateRowIds` — the index scan: which rows a WHERE clause can touch.
* `automaticIndexes` — the indexes that constraints ask for.

A hash map is an `AList` iterated in the order of `Host.hashOrder`; a B-tree map
is an `AList` too, since the source only looks keys up and folds over all of
them.
-/

namespace RustyDB
namespace Sql

open KeyedIndex

/-! ## Bloom filters -/

/-- A Bloom filter over the keys of an index. -/
structure BloomFilter where
  /-- The number of 64-bit words. -/
  words : Nat
  hashes : Nat
  bits : Bits
  deriving DecidableEq

/-- `DEFAULT_BLOOM_FALSE_POSITIVE_RATE`: 0.01. -/
def defaultBloomFalsePositiveRate : F64 := ⟨0x3f847ae147ae147b⟩

/-- `rate.clamp(0.000_001, 0.5)`. -/
def clampRate (rate : F64) : F64 :=
  let low : F64 := ⟨0x3eb0c6f7a0b5ed8d⟩
  let high : F64 := ⟨0x3fe0000000000000⟩
  if rate.partialCmp low = some .lt then low
  else if rate.partialCmp high = some .gt then high
  else rate

/-- The FNV-1a hash. -/
def fnv1a (bytes : List UInt8) (seed : UInt64) : UInt64 :=
  bytes.foldl (fun hash byte => (hash ^^^ byte.toUInt64) * 0x100000001b3) seed

namespace BloomFilter

/-- `BloomFilter::new`. -/
def new (H : Host) (expectedItems : Nat) (falsePositiveRate : F64) : BloomFilter :=
  let expected := max expectedItems 1
  let rate := clampRate falsePositiveRate
  { words := (max (H.bloomBitCount expected rate) 64 + 63) / 64
    hashes := min (max (H.bloomHashCount expected rate) 1) 16
    bits := ∅ }

/-- `BloomFilter::positions`: double hashing of the debug text of the key. -/
def positions (H : Host) (bloom : BloomFilter) (key : IndexKey) : List Nat :=
  let text := H.debugKey key
  let first := fnv1a text 0xcbf29ce484222325
  let second := fnv1a text 0x84222325cbf29ce4 ||| 1
  let bitCount := bloom.words * 64
  (List.range bloom.hashes).map
    (fun index => (first + UInt64.ofNat index * second).toNat % bitCount)

/-- `BloomFilter::insert`. -/
def insert (H : Host) (bloom : BloomFilter) (key : IndexKey) : BloomFilter :=
  { bloom with bits := bloom.bits.insert (bloom.positions H key) }

/-- `BloomFilter::might_contain`. -/
def mightContain (H : Host) (bloom : BloomFilter) (key : IndexKey) : Bool :=
  bloom.bits.mightContain (bloom.positions H key)

end BloomFilter

/-! ## B-tree indexes -/

/-- An index at run time. -/
structure BTreeIndex where
  definition : IndexDef
  entries : Entries IndexKey Nat
  bloom : BloomFilter

namespace BTreeIndex

/-- An index without rows. -/
def empty (H : Host) (definition : IndexDef) (expectedItems : Nat) (rate : F64) : BTreeIndex :=
  { definition, entries := ∅, bloom := BloomFilter.new H expectedItems rate }

/-- `entries.entry(key).or_default().insert(row_id)` and `bloom.insert(&key)`. -/
def insertEntry (H : Host) (index : BTreeIndex) (key : IndexKey) (rowId : Nat) : BTreeIndex :=
  { index with entries := index.entries.add key rowId, bloom := index.bloom.insert H key }

/-- The body of the loop that builds an index: a row without a key is skipped. -/
def insertKeyed (H : Host) (index : BTreeIndex) (item : Option IndexKey × Nat) : BTreeIndex :=
  match item.1 with
  | some key => index.insertEntry H key item.2
  | none => index

/-- The change of one index when a row is replaced. -/
def moveEntry (H : Host) (index : BTreeIndex) (previous next : Option IndexKey) (rowId : Nat) :
    BTreeIndex :=
  if previous = next then index
  else
    let withdrawn := match previous with
      | some key => { index with entries := index.entries.remove key rowId }
      | none => index
    withdrawn.insertKeyed H (next, rowId)

end BTreeIndex

/-! ## Tables -/

/-- The largest row identifier, `u64::MAX`. -/
def maxRowId : Nat := 2 ^ 64 - 1

/-- `saturating_add(1)` on a 64-bit counter. -/
def saturatingSucc (n : Nat) : Nat := min (n + 1) maxRowId

/-- A table with stable row IDs and runtime B-tree indexes. -/
structure Table where
  schema : TableSchema
  rows : List Row
  rowIds : List Nat
  nextRowId : Nat
  indexes : AList (fun _ : String => BTreeIndex)
  bloomFalsePositiveRate : F64

namespace TableSchema

/-- `TableSchema::index_key`: no key when a column of the index is missing. -/
def indexKey (schema : TableSchema) (row : Row) (columns : List String) : Option IndexKey :=
  columns.mapM (fun column =>
    ((schema.columnIndex column).bind (fun index => row[index]?)).map KeyPart.fromValue)

end TableSchema

namespace Table

/-- The keyed row identifiers an index with these columns is built from. -/
def keyedRowIds (table : Table) (columns : List String) : List (Option IndexKey × Nat) :=
  table.rows.zipIdx.map (fun entry =>
    (table.schema.indexKey entry.1 columns, (table.rowIds[entry.2]?).getD (entry.2 + 1)))

/-- One index, built from every row. -/
def buildIndex (H : Host) (table : Table) (definition : IndexDef) : BTreeIndex :=
  (table.keyedRowIds definition.columns).foldl (BTreeIndex.insertKeyed H)
    (BTreeIndex.empty H definition table.rows.length table.bloomFalsePositiveRate)

/-- `Table::rebuild_index`. -/
def rebuildIndex (H : Host) (table : Table) : Table :=
  { table with
    indexes := table.schema.indexes.foldl
      (fun indexes definition => indexes.insert definition.name (table.buildIndex H definition))
      ∅ }

/-- `Table::new`. -/
def new (H : Host) (schema : TableSchema) : Table :=
  rebuildIndex H
    { schema, rows := [], rowIds := [], nextRowId := 1, indexes := ∅,
      bloomFalsePositiveRate := defaultBloomFalsePositiveRate }

/-- `Table::set_bloom_false_positive_rate`. -/
def setBloomFalsePositiveRate (H : Host) (table : Table) (rate : F64) : Table :=
  rebuildIndex H { table with bloomFalsePositiveRate := clampRate rate }

/-- The runtime indexes in the order the hash map yields them. -/
def indexValues (H : Host) (table : Table) : List BTreeIndex :=
  (H.hashOrder (some table.schema.name) table.indexes.keys).filterMap table.indexes.lookup

/-- `Table::insert_row_indexed`. -/
def insertRowIndexed (H : Host) (table : Table) (row : Row) : Except Fault Table := do
  table.schema.validateRow row
  let rowId := table.nextRowId
  pure { table with
    rows := table.rows ++ [row]
    rowIds := table.rowIds ++ [rowId]
    nextRowId := saturatingSucc table.nextRowId
    indexes := mapValues
      (fun _ index => index.insertKeyed H
        (table.schema.indexKey row index.definition.columns, rowId))
      table.indexes }

/-- `Table::replace_row_indexed`. -/
def replaceRowIndexed (H : Host) (table : Table) (position : Nat) (row : Row) :
    Except Fault Table := do
  table.schema.validateRow row
  match table.rows[position]? with
  | none => .error (.error "Row position is out of bounds")
  | some previous =>
    match table.rowIds[position]? with
    | none => .error (.error "Row ID is unavailable")
    | some rowId =>
      pure { table with
        rows := table.rows.set position row
        indexes := mapValues
          (fun _ index => index.moveEntry H
            (table.schema.indexKey previous index.definition.columns)
            (table.schema.indexKey row index.definition.columns) rowId)
          table.indexes }

/-- `slice::binary_search` on sorted identifiers: a position that holds `rowId`. -/
def binarySearch (rowIds : List Nat) (rowId : Nat) : Option Nat :=
  go rowIds.length 0 rowIds.length
where
  /-- The search between two positions; `fuel` bounds the halvings. -/
  go : Nat → Nat → Nat → Option Nat
    | 0, _, _ => none
    | fuel + 1, low, high =>
      if high ≤ low then none
      else
        let middle := low + (high - low) / 2
        match rowIds[middle]? with
        | none => none
        | some found =>
          if found = rowId then some middle
          else if found < rowId then go fuel (middle + 1) high
          else go fuel low middle

/-- The positions one unique index reports for a row. -/
def conflictsIn (H : Host) (table : Table) (row : Row) (index : BTreeIndex) : Finset Nat :=
  match table.schema.indexKey row index.definition.columns with
  | none => ∅
  | some key =>
    -- SQL UNIQUE constraints permit multiple NULL-containing keys.
    if KeyPart.null ∈ key ∨ index.bloom.mightContain H key = false then ∅
    else (index.entries.ids key).biUnion (fun rowId => (binarySearch table.rowIds rowId).toFinset)

/-- `Table::unique_conflict_positions`. -/
def uniqueConflictPositions (H : Host) (table : Table) (row : Row) : Finset Nat :=
  ((table.indexValues H).filter (fun index => index.definition.unique)).foldl
    (fun conflicts index => conflicts ∪ table.conflictsIn H row index) ∅

end Table

/-! ## The index scan -/

/-- A comparison between two parts of keys. -/
def compareKeyPart (left right : KeyPart) (operator : ComparisonOp) : Bool :=
  let ordering := left.cmp right
  match operator with
  | .equal => ordering == .eq
  | .notEqual => ordering != .eq
  | .lessThan => ordering == .lt
  | .lessThanOrEqual => ordering != .gt
  | .greaterThan => ordering == .gt
  | .greaterThanOrEqual => ordering != .lt
  | .like => false

/-- A comparison of a column with a literal that an index may answer. -/
structure IndexPredicate where
  column : String
  operator : ComparisonOp
  value : Value
  deriving DecidableEq, Repr

/-- The operator with its operands exchanged. -/
def reverseComparison : ComparisonOp → ComparisonOp
  | .lessThan => .greaterThan
  | .lessThanOrEqual => .greaterThanOrEqual
  | .greaterThan => .lessThan
  | .greaterThanOrEqual => .lessThanOrEqual
  | other => other

/-- `collect_index_predicates`: the conjuncts that compare a column, by its bare
name, with a literal. -/
def collectIndexPredicates : Expr → List IndexPredicate
  | .binary left .and right => collectIndexPredicates left ++ collectIndexPredicates right
  | .binary (.column _ name) (.compare operator) (.literal value) =>
    [{ column := name, operator, value }]
  | .binary (.literal value) (.compare operator) (.column _ name) =>
    [{ column := name, operator := reverseComparison operator, value }]
  | _ => []

/-- What the predicates give an index to search for: values of its first
columns, and a range on the next one. -/
structure IndexProbe where
  keyPrefix : List KeyPart
  range : Option (ComparisonOp × KeyPart)
  deriving DecidableEq, Repr

/-- An operator that an index answers by a range. -/
def isRangeOperator : ComparisonOp → Bool
  | .lessThan | .lessThanOrEqual | .greaterThan | .greaterThanOrEqual => true
  | _ => false

/-- The loop over the columns of one index. -/
def indexProbe (predicates : List IndexPredicate) : List String → IndexProbe
  | [] => ⟨[], none⟩
  | column :: columns =>
    match predicates.find? (fun predicate => eqIgnoreAsciiCase predicate.column column) with
    | some predicate =>
      if predicate.operator = .equal then
        let rest := indexProbe predicates columns
        ⟨KeyPart.fromValue predicate.value :: rest.keyPrefix, rest.range⟩
      else if isRangeOperator predicate.operator then
        ⟨[], some (predicate.operator, KeyPart.fromValue predicate.value)⟩
      else ⟨[], none⟩
    | none => ⟨[], none⟩

namespace IndexProbe

/-- A probe that restricts nothing. -/
def isVacuous (probe : IndexProbe) : Bool := probe.keyPrefix.isEmpty && probe.range.isNone

/-- A key of the index passes the scan. -/
def admits (probe : IndexProbe) (key : IndexKey) : Bool :=
  probe.keyPrefix.isPrefixOf key &&
    match probe.range with
    | some (operator, value) =>
      match key[probe.keyPrefix.length]? with
      | some part => compareKeyPart part value operator
      | none => false
    | none => true

/-- How much a probe restricts: two for a value, one for a range. -/
def score (probe : IndexProbe) : Nat :=
  probe.keyPrefix.length * 2 + if probe.range.isSome then 1 else 0

end IndexProbe

namespace BTreeIndex

/-- The row identifiers one index yields for a probe: a point lookup when every
column has its value, a scan of the entries otherwise. -/
def search (H : Host) (index : BTreeIndex) (probe : IndexProbe) : Finset Nat :=
  if probe.keyPrefix.length = index.definition.columns.length ∧ probe.range = none then
    if index.bloom.mightContain H probe.keyPrefix then index.entries.ids probe.keyPrefix else ∅
  else
    index.entries.entries.foldl
      (fun ids entry => if probe.admits entry.1 then ids ∪ entry.2 else ids) ∅

end BTreeIndex

/-- The best index so far: its identifiers, its name and its score. -/
structure BestIndex where
  ids : Finset Nat
  name : String
  score : Nat

namespace Table

/-- One step of the choice: an index replaces the best so far when it scores higher. -/
def betterIndex (H : Host) (predicates : List IndexPredicate) (best : Option BestIndex)
    (index : BTreeIndex) : Option BestIndex :=
  let probe := indexProbe predicates index.definition.columns
  if probe.isVacuous then best
  else
    let found : BestIndex := ⟨index.search H probe, index.definition.name, probe.score⟩
    match best with
    | none => some found
    | some current => if current.score < probe.score then some found else best

/-- `candidate_row_ids`: the rows that the best index leaves of a scan. -/
def candidateRowIds (H : Host) (table : Table) (selection : Option Expr) : Option BestIndex :=
  match selection with
  | none => none
  | some selection =>
    (table.indexValues H).foldl (betterIndex H (collectIndexPredicates selection)) none

/-- The name of the index that a scan takes. -/
def bestIndexName (H : Host) (table : Table) (selection : Option Expr) : Option String :=
  (table.candidateRowIds H selection).map BestIndex.name

/-- A position survives the index scan. -/
def isCandidate (table : Table) (candidates : Option BestIndex) (position : Nat) : Bool :=
  match candidates with
  | none => true
  | some best =>
    match table.rowIds[position]? with
    | some rowId => decide (rowId ∈ best.ids)
    | none => false

end Table

/-! ## The indexes constraints ask for -/

/-- The index a constraint asks for, under the constraint's name or a generated one. -/
def constraintIndex (tableName : String) : TableConstraint → Option IndexDef
  | .primaryKey name columns =>
    some { name := name.getD s!"{tableName}_pk", columns, unique := true, automatic := true }
  | .unique name columns =>
    let joined := String.intercalate "_" columns
    some { name := name.getD s!"{tableName}_{joined}_uk", columns, unique := true,
           automatic := true }
  | .foreignKey foreignKey =>
    let joined := String.intercalate "_" foreignKey.columns
    some { name := foreignKey.name.getD s!"{tableName}_{joined}_fk",
           columns := foreignKey.columns, unique := false, automatic := true }
  | .check _ _ => none

/-- The index a column flag asks for when no index has exactly that column. -/
def columnIndexDef (tableName : String) (indexes : List IndexDef) (column : ColumnDef) :
    Option IndexDef :=
  if indexes.any (fun index => index.columns == [column.name]) then none
  else if column.primaryKey then
    some { name := s!"{tableName}_{column.name}_pk", columns := [column.name], unique := true,
           automatic := true }
  else if column.unique then
    some { name := s!"{tableName}_{column.name}_uk", columns := [column.name], unique := true,
           automatic := true }
  else none

/-- `automatic_indexes`. -/
def automaticIndexes (schema : TableSchema) : List IndexDef :=
  schema.columns.foldl
    (fun indexes column => indexes ++ (columnIndexDef schema.name indexes column).toList)
    (schema.constraints.filterMap (constraintIndex schema.name))

namespace Table

/-- `migrate_legacy_rows`, run on every table that is read from disk. -/
def migrateLegacyRows (H : Host) (table : Table) : Table :=
  let constraints :=
    if table.schema.constraints.isEmpty then
      table.schema.columns.filterMap (fun column =>
        if column.primaryKey then some (TableConstraint.primaryKey none [column.name])
        else if column.unique then some (TableConstraint.unique none [column.name])
        else none)
    else table.schema.constraints
  let schema := { table.schema with constraints }
  let schema :=
    if schema.indexes.isEmpty then { schema with indexes := automaticIndexes schema } else schema
  let rowIds :=
    if table.rowIds.length ≠ table.rows.length then List.range' 1 table.rows.length
    else table.rowIds
  rebuildIndex H
    { table with schema, rowIds, nextRowId := saturatingSucc (rowIds.foldl max 0) }

end Table

/-! ## Catalogs -/

/-- The tables of a catalog, by lower-case name. -/
abbrev Tables := AList (fun _ : String => Table)

/-- The tables with their versions. -/
structure Catalog where
  version : Nat
  schemaVersion : Nat
  tables : Tables

namespace Tables

/-- The tables with their names, in the order the hash map yields them. -/
def inOrder (H : Host) (tables : Tables) : List (String × Table) :=
  (H.hashOrder none tables.keys).filterMap fun name =>
    (tables.lookup name).map (fun t => (name, t))

end Tables

/-- `configure_bloom_false_positive_rate` on a catalog. -/
def Tables.configureBloomFalsePositiveRate (H : Host) (tables : Tables) (rate : F64) : Tables :=
  mapValues (fun _ table => table.setBloomFalsePositiveRate H rate) tables

end Sql
end RustyDB
