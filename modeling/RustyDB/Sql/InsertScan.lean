import Mathlib
import RustyDB.Lib.Cabinet
import RustyDB.Sql.Batch
import RustyDB.Sql.NumericKeys

/-!
# INSERT by a scan

An INSERT finds the rows that a new row collides with through B-tree indexes guarded by
Bloom filters, and keeps both up to date row by row.  The same statement is described here
without any index: the rows of a table stand in a cabinet under their identifiers, and a new
row is compared with each of them.

* `TableSchema.clash` — two rows share the values of a unique index, none of them NULL.
* `scanInsert` — the statement on the cabinet of its table.
* `insertRow_scan`, `insertRows_scan` — one row, and the row loop, do what the scan does.
* `Tables.Accepted` — what the checks of a catalog come to, read off the rows.
* `insert_by_scan` — **an INSERT does what the scan says**, with the same errors.
-/

namespace RustyDB
namespace Sql

open KeyedIndex

variable {H : Host} {tables : Tables} {table : Table} {inserted : Nat}

/-! ## Rows that clash -/

/-- The value of a column of a row. -/
def TableSchema.cell (schema : TableSchema) (row : Row) (column : String) : Option Value :=
  (schema.columnIndex column).bind (fun index => row[index]?)

/-- Two rows have equal values, none of them NULL, in all the columns. -/
def TableSchema.shareKey (schema : TableSchema) (columns : List String) (first second : Row) :
    Bool :=
  columns.all (fun column =>
    match schema.cell first column with
    | some value => !value.isNull && decide (schema.cell second column = some value)
    | none => false)

/-- Two rows share the key of a unique index, one whose name no later index has taken. -/
def TableSchema.clash (schema : TableSchema) (first second : Row) : Bool :=
  schema.indexes.any (fun definition =>
    definition.unique && decide (schema.liveIndex definition.name = some definition) &&
      schema.shareKey definition.columns first second)

/-! ## The statement without indexes -/

/-- The rows of a table under their identifiers. -/
def Table.cabinet (table : Table) : Cabinet Row :=
  { entries := table.rowIds.zip table.rows, next := table.nextRowId }

/-- One incoming row: filed, or merged into the one row it clashes with. -/
def scanInsertRow (H : Host) (tables : Tables) (name : String)
    (onDuplicate : List (String × Expr)) (schema : TableSchema) (cabinet : Cabinet Row)
    (row : Row) : Except Fault (Cabinet Row × Nat) :=
  match cabinet.hits schema.clash row with
  | [] => do
    schema.validateRow row
    pure (cabinet.file row, 1)
  | (rowId, current) :: others =>
    if onDuplicate.isEmpty then refuse "Duplicate entry for PRIMARY or UNIQUE key"
    else if !others.isEmpty then refuse "ON DUPLICATE KEY matched multiple destination rows"
    else do
      let updated ← applyDuplicateUpdates H tables name schema row current onDuplicate
      if rowsEqual updated current then pure (cabinet, 0)
      else do
        schema.validateRow updated
        pure (cabinet.put rowId updated, 2)

/-- The rows one after another; a subquery of an assignment has the result that the process
has cached for its address. -/
def scanInsertRows (H : Host) (tables : Tables) (name : String)
    (onDuplicate : List (String × Expr)) (schema : TableSchema) (cabinet : Cabinet Row)
    (count : Nat) : List Row → Except Fault (Cabinet Row × Nat)
  | [] => .ok (cabinet, count)
  | row :: rows => do
    let (cabinet, added) ←
      scanInsertRow H tables name (H.recycled rows.length onDuplicate) schema cabinet row
    scanInsertRows H tables name onDuplicate schema cabinet (count + added) rows

/-- The rows that an INSERT leaves in its table, and the number of rows affected. -/
def scanInsert (H : Host) (tables : Tables) (tableName : String)
    (columns : Option (List String)) (source : InsertSource)
    (onDuplicate : List (String × Expr)) : Except Fault (Cabinet Row × Nat) := do
  let name := toAsciiLowercase tableName
  let values ← insertValues H tables source
  match tables.lookup name with
  | none => refuse s!"Table '{name}' does not exist"
  | some existing => do
    let rows ← values.mapM (incomingRow H existing.schema columns)
    scanInsertRows H tables name onDuplicate existing.schema existing.cabinet 0 rows

/-! ## Keys -/

theorem orderedBits_injective : Function.Injective orderedBits := by
  intro x y h
  have hbits := congrArg UInt64.toNat h
  have hx := x.bits.toNat_lt
  have hy := y.bits.toNat_lt
  rw [toNat_orderedBits, toNat_orderedBits] at hbits
  simp only [F64.sign, F64.magnitude, decide_eq_true_eq] at hbits
  refine F64.ext_bits ?_
  split at hbits <;> split at hbits <;> omega

theorem fromValue_injective : Function.Injective KeyPart.fromValue := by
  intro x y h
  cases x with
  | float x =>
    cases y with
    | float y =>
      rw [fromValue_float, fromValue_float] at h
      rw [orderedBits_injective (KeyPart.float.inj h)]
    | _ => cases h
  | _ => cases y <;> cases h; rfl

theorem fromValue_eq_null {value : Value} : KeyPart.fromValue value = .null ↔ value = .null := by
  rw [← fromValue_injective.eq_iff]
  rfl

theorem isNull_eq_false {value : Value} : value.isNull = false ↔ value ≠ .null := by
  cases value <;> simp [Value.isNull]

/-- Two rows share a key when an index over the columns files them together. -/
theorem TableSchema.shareKey_iff {schema : TableSchema} {columns : List String}
    {first second : Row} : schema.shareKey columns first second = true ↔
      ∃ key, schema.indexKey first columns = some key ∧ KeyPart.null ∉ key ∧
        schema.indexKey second columns = some key := by
  induction columns with
  | nil => simp [shareKey, indexKey]
  | cons column columns ih =>
    have hcons : schema.shareKey (column :: columns) first second = true ↔
        (∃ value, schema.cell first column = some value ∧ value ≠ .null ∧
          schema.cell second column = some value) ∧
        schema.shareKey columns first second = true := by
      rw [shareKey, List.all_cons, Bool.and_eq_true]
      refine and_congr ?_ Iff.rfl
      cases schema.cell first column with
      | none => simp
      | some value => simp [isNull_eq_false]
    rw [hcons, ih]
    constructor
    · rintro ⟨⟨value, hfirst, hnull, hsecond⟩, key, hkey, hfree, hkey'⟩
      obtain ⟨index, hindex, hvalue⟩ := Option.bind_eq_some_iff.mp hfirst
      obtain ⟨index', hindex', hvalue'⟩ := Option.bind_eq_some_iff.mp hsecond
      refine ⟨KeyPart.fromValue value :: key, indexKey_cons_eq hindex hvalue hkey, ?_,
        indexKey_cons_eq hindex' hvalue' hkey'⟩
      rw [List.mem_cons, not_or]
      exact ⟨fun h => hnull (fromValue_eq_null.mp h.symm), hfree⟩
    · rintro ⟨key, hkey, hfree, hkey'⟩
      obtain ⟨index, value, rest, hindex, hvalue, hrest, rfl⟩ := indexKey_cons hkey
      obtain ⟨index', value', rest', hindex', hvalue', hrest', heq⟩ := indexKey_cons hkey'
      obtain ⟨hpart, rfl⟩ := List.cons.inj heq
      obtain rfl := fromValue_injective hpart
      rw [List.mem_cons, not_or] at hfree
      refine ⟨⟨value, Option.bind_eq_some_iff.mpr ⟨index, hindex, hvalue⟩, ?_,
        Option.bind_eq_some_iff.mpr ⟨index', hindex', hvalue'⟩⟩, rest, hrest, hfree.2, hrest'⟩
      exact fun h => hfree.1 (fromValue_eq_null.mpr h).symm

theorem TableSchema.clash_comm (schema : TableSchema) (first second : Row) :
    schema.clash first second = schema.clash second first := by
  have hshare : ∀ columns, schema.shareKey columns first second =
      schema.shareKey columns second first := by
    intro columns
    rw [Bool.eq_iff_iff, shareKey_iff, shareKey_iff]
    constructor
    · rintro ⟨key, hfirst, hnull, hsecond⟩
      exact ⟨key, hsecond, hnull, hfirst⟩
    · rintro ⟨key, hfirst, hnull, hsecond⟩
      exact ⟨key, hsecond, hnull, hfirst⟩
  simp only [clash, hshare]

theorem TableSchema.clash_iff {schema : TableSchema} {first second : Row} :
    schema.clash first second = true ↔ ∃ name definition,
      schema.liveIndex name = some definition ∧ definition.unique = true ∧
      schema.shareKey definition.columns first second = true := by
  simp only [clash, List.any_eq_true, Bool.and_eq_true, decide_eq_true_eq]
  constructor
  · rintro ⟨definition, -, ⟨hunique, hlive⟩, hshare⟩
    exact ⟨_, definition, hlive, hunique, hshare⟩
  · rintro ⟨name, definition, hlive, hunique, hshare⟩
    have hmem : definition ∈ schema.indexes := by
      simpa using List.mem_of_find?_eq_some hlive
    have hname : definition.name = name := by
      simpa using List.find?_some hlive
    exact ⟨definition, hmem, ⟨hunique, hname ▸ hlive⟩, hshare⟩

/-- **The indexes find** exactly the rows that a scan finds. -/
theorem Table.mem_conflicts_iff (hinv : table.RepInv H) (hbacked : table.Backed) (row : Row)
    {position : Nat} (hposition : position < table.rowIds.length) :
    position ∈ table.uniqueConflictPositions H row ↔
      ∃ stored, table.rows[position]? = some stored ∧ table.schema.clash row stored = true := by
  rw [Table.mem_uniqueConflictPositions]
  constructor
  · rintro ⟨index, hindex, hunique, hmem⟩
    obtain ⟨name, hlookup⟩ := Table.mem_indexValues hindex
    obtain ⟨key, hkey, hnull, stored, hstored, hkey'⟩ :=
      (Table.mem_conflictsIn hinv hlookup row hposition).mp hmem
    have hlive := hbacked.listed name
    rw [hlookup, Option.map_some] at hlive
    exact ⟨stored, hstored, TableSchema.clash_iff.mpr ⟨name, _, hlive.symm, hunique,
      TableSchema.shareKey_iff.mpr ⟨key, hkey, hnull, hkey'⟩⟩⟩
  · rintro ⟨stored, hstored, hclash⟩
    obtain ⟨name, definition, hlive, hunique, hshare⟩ := TableSchema.clash_iff.mp hclash
    obtain ⟨key, hkey, hnull, hkey'⟩ := TableSchema.shareKey_iff.mp hshare
    have hlisted := hbacked.listed name
    rw [hlive] at hlisted
    obtain ⟨index, hlookup, rfl⟩ := Option.map_eq_some_iff.mp hlisted
    exact ⟨index, Table.indexValues_of_lookup hlookup, hunique,
      (Table.mem_conflictsIn hinv hlookup row hposition).mpr
        ⟨key, hkey, hnull, stored, hstored, hkey'⟩⟩

/-! ## One row -/

theorem Table.getElem?_cabinet {position rowId : Nat} {row : Row} :
    table.cabinet.entries[position]? = some (rowId, row) ↔
      table.rowIds[position]? = some rowId ∧ table.rows[position]? = some row := by
  rw [Table.cabinet, List.getElem?_zip_eq_some]

theorem Table.length_cabinet (hids : table.IdsOrdered) :
    table.cabinet.entries.length = table.rowIds.length := by
  rw [Table.cabinet, List.length_zip, ← hids.lengths, Nat.min_self]

theorem Table.numbers_cabinet (hids : table.IdsOrdered) :
    table.cabinet.entries.map Prod.fst = table.rowIds := by
  rw [Table.cabinet, List.map_fst_zip hids.lengths.le]

/-- The rows a new row collides with are the hits of a scan. -/
theorem hits_cabinet (hinv : table.RepInv H) (hbacked : table.Backed) (row : Row) :
    table.cabinet.hits table.schema.clash row =
      (conflictPositions H table row).filterMap (table.cabinet.entries[·]?) := by
  rw [Cabinet.hits_eq_filterMap, conflictPositions, Table.length_cabinet hinv.ids]
  congr 1
  refine List.filter_congr fun position hposition => ?_
  rw [List.mem_range] at hposition
  rw [Bool.eq_iff_iff, decide_eq_true_eq, Table.mem_conflicts_iff hinv hbacked row hposition]
  rw [Option.any_eq_true]
  constructor
  · rintro ⟨⟨rowId, stored⟩, hentry, hclash⟩
    exact ⟨stored, (Table.getElem?_cabinet.mp hentry).2, hclash⟩
  · rintro ⟨stored, hstored, hclash⟩
    exact ⟨(_, stored), Table.getElem?_cabinet.mpr
      ⟨List.getElem?_eq_getElem hposition, hstored⟩, hclash⟩

/-- Every row a new row collides with stands in the cabinet. -/
theorem entry_of_mem_conflictPositions (hids : table.IdsOrdered) {row : Row} {position : Nat}
    (h : position ∈ conflictPositions H table row) :
    ∃ rowId stored, table.cabinet.entries[position]? = some (rowId, stored) := by
  have hlt := List.mem_range.mp (List.mem_filter.mp h).1
  rw [← Table.length_cabinet hids] at hlt
  exact ⟨_, _, List.getElem?_eq_getElem hlt⟩

theorem isEmpty_filterMap {α β : Type} {f : α → Option β} {xs : List α}
    (h : ∀ x ∈ xs, ∃ y, f x = some y) : (xs.filterMap f).isEmpty = xs.isEmpty := by
  cases xs with
  | nil => rfl
  | cons x xs =>
    obtain ⟨y, hy⟩ := h x List.mem_cons_self
    rw [List.filterMap_cons_some hy]
    rfl

/-- What a row loop leaves, without the indexes. -/
def onCabinet (state : Table × Nat) : Cabinet Row × Nat := (state.1.cabinet, state.2)

theorem map_counted {x : Except Fault Table} {y : Except Fault (Cabinet Row)}
    (h : x.map Table.cabinet = y) (n : Nat) :
    (do let table ← x; pure (table, n)).map onCabinet = (do let filed ← y; pure (filed, n)) := by
  subst h
  cases x <;> rfl

theorem cabinet_insertRowIndexed (hids : table.IdsOrdered) (hnext : table.nextRowId < maxRowId)
    (row : Row) : (table.insertRowIndexed H row).map Table.cabinet =
      (do table.schema.validateRow row; pure (table.cabinet.file row)) := by
  rw [Table.insertRowIndexed]
  cases table.schema.validateRow row with
  | error fault => rfl
  | ok _ =>
    have hsucc : saturatingSucc table.nextRowId = table.nextRowId + 1 := by
      rw [saturatingSucc]
      exact Nat.min_eq_left hnext
    simp only [Result.ok_bind, Result.pure_eq_ok, Except.map, Table.cabinet, Cabinet.file, hsucc,
      List.zip_append hids.lengths, List.zip_cons_cons, List.zip_nil_right]

theorem zip_set {α β : Type} {xs : List α} (ys : List β) {position : Nat} {x : α}
    (hx : xs[position]? = some x) (y : β) :
    xs.zip (ys.set position y) = (xs.zip ys).set position (x, y) := by
  induction xs generalizing ys position with
  | nil => cases hx
  | cons x' xs ih =>
    cases ys with
    | nil => rfl
    | cons y' ys =>
      cases position with
      | zero =>
        obtain rfl := Option.some.inj hx
        rfl
      | succ position =>
        rw [List.set_cons_succ, List.zip_cons_cons, List.zip_cons_cons, List.set_cons_succ,
          ih ys hx]

theorem cabinet_replaceRowIndexed (hids : table.IdsOrdered) {position rowId : Nat} {old : Row}
    (hentry : table.cabinet.entries[position]? = some (rowId, old)) (row : Row) :
    (table.replaceRowIndexed H position row).map Table.cabinet =
      (do table.schema.validateRow row; pure (table.cabinet.put rowId row)) := by
  obtain ⟨hid, hrow⟩ := Table.getElem?_cabinet.mp hentry
  rw [Table.replaceRowIndexed]
  cases table.schema.validateRow row with
  | error fault => rfl
  | ok _ =>
    have hnumbers : (table.cabinet.entries.map Prod.fst).Nodup := by
      rw [Table.numbers_cabinet hids]
      exact hids.increasing.imp fun h => Nat.ne_of_lt h
    have hput := Cabinet.entries_put hnumbers hentry row
    have hzip := zip_set table.rows hid row
    simp only [Result.ok_bind, Result.pure_eq_ok, hrow, hid, Except.map]
    refine congrArg Except.ok ?_
    show (⟨table.rowIds.zip (table.rows.set position row), table.nextRowId⟩ : Cabinet Row) =
      table.cabinet.put rowId row
    rw [hzip]
    exact congrArg (fun entries => (⟨entries, table.nextRowId⟩ : Cabinet Row)) hput.symm

/-- **One row** does what the scan does. -/
theorem insertRow_scan (hinv : table.RepInv H) (hbacked : table.Backed)
    (hnext : table.nextRowId < maxRowId) (name : String) (onDuplicate : List (String × Expr))
    (row : Row) : (insertRow H tables name onDuplicate table row).map onCabinet =
      scanInsertRow H tables name onDuplicate table.schema table.cabinet row := by
  have hhits := hits_cabinet hinv hbacked row
  have hentries := fun position (h : position ∈ conflictPositions H table row) =>
    entry_of_mem_conflictPositions hinv.ids h
  cases hconflicts : conflictPositions H table row with
  | nil =>
    rw [hconflicts, List.filterMap_nil] at hhits
    rw [insertRow, hconflicts, scanInsertRow, hhits]
    refine (map_counted (cabinet_insertRowIndexed hinv.ids hnext row) 1).trans ?_
    cases table.schema.validateRow row <;> rfl
  | cons position others =>
    rw [hconflicts] at hhits hentries
    obtain ⟨rowId, current, hentry⟩ := hentries position List.mem_cons_self
    rw [List.filterMap_cons_some hentry] at hhits
    have hempty : (others.filterMap (table.cabinet.entries[·]?)).isEmpty = others.isEmpty :=
      isEmpty_filterMap fun other hother => by
        obtain ⟨rowId, stored, hstored⟩ := hentries other (List.mem_cons_of_mem _ hother)
        exact ⟨_, hstored⟩
    have hcurrent := (Table.getElem?_cabinet.mp hentry).2
    rw [insertRow, hconflicts, scanInsertRow, hhits]
    simp only [hempty, hcurrent]
    by_cases hnone : onDuplicate.isEmpty = true
    · rw [if_pos hnone, if_pos hnone]
      rfl
    rw [if_neg hnone, if_neg hnone]
    by_cases hmany : (!others.isEmpty) = true
    · rw [if_pos hmany, if_pos hmany]
      rfl
    rw [if_neg hmany, if_neg hmany]
    cases applyDuplicateUpdates H tables name table.schema row current onDuplicate with
    | error fault => rfl
    | ok updated =>
      simp only [Result.ok_bind]
      by_cases hsame : rowsEqual updated current = true
      · rw [if_pos hsame, if_pos hsame]
        rfl
      rw [if_neg hsame, if_neg hsame]
      refine (map_counted (cabinet_replaceRowIndexed hinv.ids hentry updated) 2).trans ?_
      cases table.schema.validateRow updated <;> rfl

/-- **The row loop** does what the scan does, as long as it does not run out of identifiers. -/
theorem insertRows_scan {name : String} {onDuplicate : List (String × Expr)} (rows : List Row)
    (hinv : table.RepInv H) (hbacked : table.Backed)
    (hroom : table.nextRowId + rows.length ≤ maxRowId) (count : Nat) :
    (insertRows H tables name onDuplicate table count rows).map onCabinet =
      scanInsertRows H tables name onDuplicate table.schema table.cabinet count rows := by
  induction rows generalizing table count with
  | nil => rfl
  | cons row rows ih =>
    rw [List.length_cons] at hroom
    have hrow : (insertRow H tables name (H.recycled rows.length onDuplicate) table row).map
        onCabinet = _ :=
      insertRow_scan hinv hbacked (by omega) name (H.recycled rows.length onDuplicate) row
    rw [insertRows, scanInsertRows, ← hrow]
    cases hinsert : insertRow H tables name (H.recycled rows.length onDuplicate) table row with
    | error fault => rfl
    | ok next =>
      obtain ⟨next, added⟩ := next
      have hgrown := insertRow_grown hinsert
      have hlength : next.rows.length ≤ table.rows.length + 1 := by
        rcases insertRow_ids hinsert with ⟨h, -⟩ | ⟨h, -⟩ <;> omega
      have hcounter := hgrown.counter
      have hrest := ih (insertRow_repInv hinsert (by omega) hinv)
        (insertRow_backed hinsert hbacked) (by omega) (count + added)
      rw [hgrown.schema] at hrest
      exact hrest

/-! ## The checks of the catalog -/

/-- The keys of a table hold: no two of its rows clash. -/
theorem Table.apart_iff (hids : table.IdsOrdered) :
    table.cabinet.Apart table.schema.clash ↔ table.Enforced := by
  have hentries : ∀ (p : Nat) (row : Row), table.rows[p]? = some row →
      ∃ rowId, table.cabinet.entries[p]? = some (rowId, row) := by
    intro p row hrow
    obtain ⟨hlt, -⟩ := List.getElem?_eq_some_iff.mp hrow
    exact ⟨_, Table.getElem?_cabinet.mpr
      ⟨List.getElem?_eq_getElem (hids.lengths ▸ hlt), hrow⟩⟩
  constructor
  · intro hapart name definition hlive hunique p q first second key hp hq hfirst hsecond hnull
    have hclash : table.schema.clash first second = true := TableSchema.clash_iff.mpr
      ⟨name, definition, hlive, hunique, TableSchema.shareKey_iff.mpr ⟨key, hfirst, hnull, hsecond⟩⟩
    obtain ⟨idp, hp⟩ := hentries p first hp
    obtain ⟨idq, hq⟩ := hentries q second hq
    obtain ⟨hplt, hpget⟩ := List.getElem?_eq_some_iff.mp hp
    obtain ⟨hqlt, hqget⟩ := List.getElem?_eq_some_iff.mp hq
    rcases Nat.lt_trichotomy p q with hlt | heq | hlt
    · have hmiss := List.pairwise_iff_getElem.mp hapart p q hplt hqlt hlt
      rw [hpget, hqget] at hmiss
      exact absurd (hclash.symm.trans hmiss) (by decide)
    · exact heq
    · have hmiss := List.pairwise_iff_getElem.mp hapart q p hqlt hplt hlt
      rw [hpget, hqget, TableSchema.clash_comm] at hmiss
      exact absurd (hclash.symm.trans hmiss) (by decide)
  · intro henforced
    refine List.pairwise_iff_getElem.mpr fun p q hp hq hlt => ?_
    rw [Bool.eq_false_iff]
    intro hclash
    obtain ⟨name, definition, hlive, hunique, hshare⟩ := TableSchema.clash_iff.mp hclash
    obtain ⟨key, hfirst, hnull, hsecond⟩ := TableSchema.shareKey_iff.mp hshare
    have hrow : ∀ {i : Nat} (hi : i < table.cabinet.entries.length),
        table.rows[i]? = some (table.cabinet.entries[i]).2 := fun hi =>
      (Table.getElem?_cabinet.mp (List.getElem?_eq_getElem hi)).2
    have := henforced name definition hlive hunique p q _ _ key (hrow hp) (hrow hq) hfirst hsecond
      hnull
    omega

/-- The unique indexes pass their check exactly when no two rows clash. -/
theorem Table.validateUniqueIndexes_iff (hinv : table.RepInv H) (hbacked : table.Backed) :
    validateUniqueIndexes H table = .ok () ↔ table.cabinet.Apart table.schema.clash := by
  rw [Table.apart_iff hinv.ids]
  constructor
  · intro h name definition hlive hunique
    have hlisted := hbacked.listed name
    rw [hlive] at hlisted
    obtain ⟨index, hlookup, rfl⟩ := Option.map_eq_some_iff.mp hlisted
    exact distinct_of_hasDuplicate hinv hlookup (hasDuplicate_of_validate h hlookup hunique)
  · intro henforced
    have hnone : (table.indexValues H).find? (fun index =>
        index.definition.unique && index.hasDuplicate) = none := by
      refine List.find?_eq_none.mpr fun index hindex => ?_
      obtain ⟨name, hlookup⟩ := Table.mem_indexValues hindex
      have hlive := hbacked.listed name
      rw [hlookup, Option.map_some] at hlive
      rw [Bool.and_eq_true, not_and]
      intro hunique
      rw [(Table.hasDuplicate_eq_false_iff hinv hlookup).mpr
        (henforced name _ hlive.symm hunique)]
      decide
    rw [validateUniqueIndexes, hnone]

/-- What the checks of a catalog come to: every row passes those of its table, no two rows of
a table clash, and the foreign keys hold. -/
structure Tables.Accepted (H : Host) (tables : Tables) : Prop where
  rows : tables.All fun table => ∀ row ∈ table.rows,
    table.schema.validateRow row = .ok () ∧ validateChecks H tables table row = .ok ()
  keys : tables.All fun table => table.cabinet.Apart table.schema.clash
  references : validateForeignKeys H tables = .ok ()

theorem validateCatalog_iff (hinv : tables.All (Table.RepInv H))
    (hbacked : tables.All Table.Backed) :
    validateCatalog H tables = .ok () ↔ tables.Accepted H := by
  have htable : ∀ name table, tables.lookup name = some table →
      (validateTable H tables table = .ok () ↔
        (∀ row ∈ table.rows, table.schema.validateRow row = .ok () ∧
          validateChecks H tables table row = .ok ()) ∧
        table.cabinet.Apart table.schema.clash) := by
    intro name table hlookup
    rw [validateTable, Result.bind_eq_ok,
      ← Table.validateUniqueIndexes_iff (hinv name table hlookup) (hbacked name table hlookup)]
    have hrow : ∀ row, (do table.schema.validateRow row; validateChecks H tables table row) =
        .ok () ↔ table.schema.validateRow row = .ok () ∧
          validateChecks H tables table row = .ok () := by
      intro row
      rw [Result.bind_eq_ok]
      constructor
      · rintro ⟨⟨⟩, hvalid, hchecks⟩
        exact ⟨hvalid, hchecks⟩
      · rintro ⟨hvalid, hchecks⟩
        exact ⟨(), hvalid, hchecks⟩
    constructor
    · rintro ⟨⟨⟩, hrows, hunique⟩
      exact ⟨fun row hmem => (hrow row).mp (Result.forM_eq_ok.mp hrows row hmem), hunique⟩
    · rintro ⟨hrows, hunique⟩
      exact ⟨(), Result.forM_eq_ok.mpr fun row hmem => (hrow row).mpr (hrows row hmem), hunique⟩
  rw [validateCatalog_eq_ok]
  constructor
  · rintro ⟨htables, hreferences⟩
    exact ⟨fun name table hlookup => ((htable name table hlookup).mp
        (htables name table hlookup)).1,
      fun name table hlookup => ((htable name table hlookup).mp (htables name table hlookup)).2,
      hreferences⟩
  · intro h
    exact ⟨fun name table hlookup => (htable name table hlookup).mpr
      ⟨h.rows name table hlookup, h.keys name table hlookup⟩, h.references⟩

/-! ## The statement -/

section Statement

variable {name tableName : String} {columns : Option (List String)} {source : InsertSource}
  {onDuplicate : List (String × Expr)}

theorem insertRows_length {rows : List Row} {table table' : Table} {count count' : Nat}
    (h : insertRows H tables name onDuplicate table count rows = .ok (table', count')) :
    table'.rows.length ≤ table.rows.length + rows.length := by
  induction rows generalizing table count with
  | nil =>
    simp only [insertRows, Except.ok.injEq, Prod.mk.injEq] at h
    rw [← h.1]
    exact Nat.le_refl _
  | cons row rows ih =>
    obtain ⟨⟨next, added⟩, hrow, hrest⟩ := Result.bind_eq_ok.mp h
    have hrest := ih hrest
    rw [List.length_cons]
    rcases insertRow_ids hrow with ⟨hlength, -⟩ | ⟨hlength, -⟩ <;> omega

/-- Rows that are only filed leave the rows apart. -/
theorem apart_scanInsertRows {schema : TableSchema} {rows : List Row}
    {filed filed' : Cabinet Row} {count count' : Nat} (h : filed.Apart schema.clash)
    (hscan : scanInsertRows H tables name [] schema filed count rows = .ok (filed', count')) :
    filed'.Apart schema.clash := by
  induction rows generalizing filed count with
  | nil =>
    simp only [scanInsertRows, Except.ok.injEq, Prod.mk.injEq] at hscan
    exact hscan.1 ▸ h
  | cons row rows ih =>
    obtain ⟨⟨next, added⟩, hrow, hrest⟩ := Result.bind_eq_ok.mp hscan
    refine ih ?_ hrest
    rw [H.recycled_free _ _ (by simp [SubqueryFree]), scanInsertRow] at hrow
    split at hrow
    · rename_i hhits
      obtain ⟨⟨⟩, -, hrow⟩ := Result.bind_eq_ok.mp hrow
      obtain ⟨rfl, -⟩ := Prod.mk.inj (Except.ok.inj hrow)
      exact h.file schema.clash_comm hhits
    · rw [if_pos List.isEmpty_nil] at hrow
      cases hrow

/-- What an INSERT does up to the checks of the catalog. -/
theorem executeInsert_scan (tableName : String) (columns : Option (List String))
    (onDuplicate : List (String × Expr)) (hreach : Reachable H tables inserted)
    (hroom : ∀ values, insertValues H tables source = .ok values →
      inserted + values.length < 2 ^ 64 - 1) :
    (∃ fault, scanInsert H tables tableName columns source onDuplicate = .error fault ∧
      executeInsert H tables tableName columns source onDuplicate = .error fault) ∨
    ∃ existing table count, tables.lookup (toAsciiLowercase tableName) = some existing ∧
      table.schema = existing.schema ∧ table.RepInv H ∧
      (validateCatalog H (tables.insert (toAsciiLowercase tableName) table) = .ok () ↔
        Tables.Accepted H (tables.insert (toAsciiLowercase tableName) table)) ∧
      scanInsert H tables tableName columns source onDuplicate = .ok (table.cabinet, count) ∧
      (onDuplicate = [] → table.cabinet.Apart table.schema.clash) ∧
      executeInsert H tables tableName columns source onDuplicate =
        publishTable H tables (toAsciiLowercase tableName) table count := by
  rw [scanInsert, executeInsert]
  cases hvalues : insertValues H tables source with
  | error fault => exact Or.inl ⟨fault, rfl, rfl⟩
  | ok values =>
    have hbound := hroom values hvalues
    simp only [Result.ok_bind]
    cases hlookup : tables.lookup (toAsciiLowercase tableName) with
    | none => exact Or.inl ⟨_, rfl, rfl⟩
    | some existing =>
      simp only
      cases hrows : values.mapM (incomingRow H existing.schema columns) with
      | error fault => exact Or.inl ⟨fault, rfl, rfl⟩
      | ok rows =>
        have hlength := Result.length_of_mapM hrows
        have hmax : maxRowId = 2 ^ 64 - 1 := rfl
        have hcatalog := catalogOk_of_reachable hreach (by omega)
        have hok := hcatalog _ existing hlookup
        have hbacked := backed_of_reachable hreach _ existing hlookup
        have hcounter := hok.counter
        have hscan : (insertRows H tables (toAsciiLowercase tableName) onDuplicate existing 0
            rows).map onCabinet = _ :=
          insertRows_scan rows hok.repInv hbacked (by omega) 0
        simp only [Result.ok_bind, ← hscan]
        cases hinsert : insertRows H tables (toAsciiLowercase tableName) onDuplicate existing 0
            rows with
        | error fault => exact Or.inl ⟨fault, rfl, rfl⟩
        | ok state =>
          obtain ⟨table, count⟩ := state
          have hgrown := insertRows_length hinsert
          rw [hinsert] at hscan
          have hschema := (insertRows_grown hinsert).schema
          have hinv := insertRows_repInv hinsert (by omega) hok.repInv
          refine Or.inr ⟨existing, table, count, rfl, hschema, hinv,
            validateCatalog_iff
              (Tables.All.insert (fun name table h => (hcatalog name table h).repInv) hinv)
              (Tables.All.insert (backed_of_reachable hreach) (insertRows_backed hinsert hbacked)),
            rfl, ?_, rfl⟩
          rintro rfl
          rw [hschema]
          exact apart_scanInsertRows ((Table.apart_iff hok.repInv.ids).mpr
            (enforced_of_reachable hreach (by omega) _ existing hlookup)) hscan.symm

theorem executeCatalog_insert (hvalid : ∀ result after,
      executeInsert H tables tableName columns source onDuplicate = .ok (result, after) →
        validateCatalog H after = .ok ()) :
    executeCatalog H tables (.insert tableName columns source onDuplicate) =
      executeInsert H tables tableName columns source onDuplicate := by
  have hwrite : isWriteStatement (.insert tableName columns source onDuplicate) = true := rfl
  have hstatement : executeStatement H tables (.insert tableName columns source onDuplicate) =
      executeInsert H tables tableName columns source onDuplicate := by
    simp only [executeStatement]
  rw [executeCatalog, if_pos hwrite, hstatement]
  cases h : executeInsert H tables tableName columns source onDuplicate with
  | error fault => rfl
  | ok state =>
    simp only [Result.ok_bind, hvalid state.1 state.2 h, Result.pure_eq_ok]

/-- **An INSERT does what a scan of the rows says.**  In every catalog that statements reach,
whatever rows it is given and by VALUES or by a query, with or without ON DUPLICATE KEY UPDATE:
where comparing each new row with every row that stands already stops with an error, the
statement stops with the same one; and where it ends, the statement leaves those rows under
those identifiers if the catalog with them is accepted, and is refused if it is not.  Rows that
are only filed never fail on a key any more. -/
theorem insert_by_scan (hreach : Reachable H tables inserted)
    (hroom : ∀ values, insertValues H tables source = .ok values →
      inserted + values.length < 2 ^ 64 - 1) :
    (∀ fault, scanInsert H tables tableName columns source onDuplicate = .error fault →
      executeCatalog H tables (.insert tableName columns source onDuplicate) = .error fault) ∧
    ∀ filed count, scanInsert H tables tableName columns source onDuplicate = .ok (filed, count) →
      ∃ table, table.cabinet = filed ∧
        (tables.lookup (toAsciiLowercase tableName)).map Table.schema = some table.schema ∧
        table.RepInv H ∧ (onDuplicate = [] → filed.Apart table.schema.clash) ∧
        (Tables.Accepted H (tables.insert (toAsciiLowercase tableName) table) →
          executeCatalog H tables (.insert tableName columns source onDuplicate) =
            .ok (.rowsAffected count, tables.insert (toAsciiLowercase tableName) table)) ∧
        (¬ Tables.Accepted H (tables.insert (toAsciiLowercase tableName) table) →
          ∃ fault, executeCatalog H tables (.insert tableName columns source onDuplicate) =
            .error fault) := by
  rw [executeCatalog_insert fun result after h => by
    obtain ⟨_, _, _, _, _, -, -, -, -, -, hvalid, -⟩ := executeInsert_ok h
    exact hvalid]
  rcases executeInsert_scan tableName columns onDuplicate hreach hroom with
    ⟨fault, hscan, hexecute⟩ |
    ⟨existing, table, count, hlookup, hschema, hinv, haccepted, hscan, hapart, hexecute⟩
  · rw [hscan, hexecute]
    refine ⟨fun other h => ?_, fun filed total h => ?_⟩
    · rw [Except.error.inj h]
    · cases h
  · rw [hscan, hexecute]
    refine ⟨fun fault h => ?_, fun filed total h => ?_⟩
    · cases h
    obtain ⟨rfl, rfl⟩ := Prod.mk.inj (Except.ok.inj h)
    refine ⟨table, rfl, ?_, hinv, hapart, fun h => ?_, fun h => ?_⟩
    · rw [hlookup, Option.map_some, hschema]
    · rw [publishTable, haccepted.mpr h]
      rfl
    · rw [publishTable]
      rcases Result.error_or_ok (validateCatalog H
        (tables.insert (toAsciiLowercase tableName) table)) with ⟨fault, hfault⟩ | ⟨⟨⟩, hvalid⟩
      · rw [hfault]
        exact ⟨fault, rfl⟩
      · exact absurd (haccepted.mp hvalid) h

end Statement

/-- `upsertTwice`: the first row is filed and the second one merged into it. -/
theorem upsert_by_scan : ∃ tables table, Reachable Host.reference tables 0 ∧
    table.cabinet = ⟨[(1, [.integer 1, .integer 20])], 2⟩ ∧
    executeCatalog Host.reference tables upsertTwice =
      .ok (.rowsAffected 3, tables.insert "t" table) := by
  have hrun : ((do
      let created ← runStatements Host.reference (∅, 0) [createKeyed]
      let scanned ← scanInsert Host.reference created.1 "t" none
        (.values [[.literal (.integer 1), .literal (.integer 10)],
          [.literal (.integer 1), .literal (.integer 20)]]) [("v", .incoming "v")]
      let executed ← executeCatalog Host.reference created.1 upsertTwice
      pure (created.2, scanned, affectedRows executed.1) :
        Except Fault (Nat × (Cabinet Row × Nat) × Nat))).toOption =
      some (0, (⟨[(1, [.integer 1, .integer 20])], 2⟩, 3), 3) := by
    decide +kernel
  obtain ⟨⟨tables, inserted⟩, hcreated, hrun⟩ :=
    Result.bind_eq_ok.mp (Result.toOption_eq_some.mp hrun)
  obtain ⟨scanned, hscanned, hrun⟩ := Result.bind_eq_ok.mp hrun
  obtain ⟨executed, hexecuted, hrun⟩ := Result.bind_eq_ok.mp hrun
  simp only [Result.pure_eq_ok, Except.ok.injEq, Prod.mk.injEq] at hrun
  obtain ⟨rfl, rfl, -⟩ := hrun
  have hreach : Reachable Host.reference tables 0 := reachable_runStatements Reachable.empty
    (by simp [createKeyed, Statement.Parsed]) hcreated
  obtain ⟨table, hcabinet, -, -, -, haccepted, hrefused⟩ :=
    (insert_by_scan hreach (fun values h => by
      obtain rfl := Except.ok.inj h
      decide)).2 _ _ hscanned
  refine ⟨tables, table, hreach, hcabinet, haccepted ?_⟩
  by_contra h
  obtain ⟨fault, hfault⟩ := hrefused h
  have hclash := hexecuted.symm.trans hfault
  cases hclash

end Sql
end RustyDB
