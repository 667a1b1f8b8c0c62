import Mathlib
import RustyDB.Lib.Result
import RustyDB.Sql.Table

/-!
# The index representation invariant of a table

Every runtime index of a table files exactly the identifiers of its rows under
their keys.  Both ways the source maintains indexes keep it: building them from
the rows, and changing them row by row.

* `Table.keyed` — the relation an index stands for: which row has which key.
* `BTreeIndex.Holds` — an index holds a relation, and its Bloom filter covers it.
* `Table.RepInv` — the invariant.
* `Table.repInv_rebuildIndex` — the full rebuild establishes it.
* `Table.repInv_insertRowIndexed`, `Table.repInv_replaceRowIndexed` — the
  incremental path keeps it.
-/

namespace RustyDB
namespace Sql

open KeyedIndex

/-! ## One index -/

/-- An index holds the relation `R`: its entries are exactly `R`, and its Bloom
filter answers for every key of `R`. -/
structure BTreeIndex.Holds (H : Host) (index : BTreeIndex) (R : IndexKey → Nat → Prop) : Prop where
  entries : Represents index.entries R
  bloom : ∀ key rowId, R key rowId → index.bloom.mightContain H key = true

namespace BTreeIndex

variable {H : Host} {index : BTreeIndex} {R S : IndexKey → Nat → Prop}

theorem Holds.congr (h : index.Holds H R) (hRS : ∀ key rowId, R key rowId ↔ S key rowId) :
    index.Holds H S :=
  ⟨h.entries.congr hRS, fun key rowId hS => h.bloom key rowId ((hRS key rowId).mpr hS)⟩

theorem holds_empty (definition : IndexDef) (n : Nat) (rate : F64) :
    (BTreeIndex.empty H definition n rate).Holds H (fun _ _ => False) :=
  ⟨represents_empty, fun _ _ h => h.elim⟩

theorem mightContain_insert {bloom : BloomFilter} {key key' : IndexKey}
    (h : bloom.mightContain H key' = true ∨ key' = key) :
    (bloom.insert H key).mightContain H key' = true := by
  have hcovers : bloom.bits.Covers (bloom.positions H)
      (fun k => bloom.mightContain H k = true) := fun k hk => hk
  exact Bits.covers_insert hcovers key key' h

theorem Holds.insertEntry (h : index.Holds H R) (key : IndexKey) (rowId : Nat) :
    (index.insertEntry H key rowId).Holds H (fun k i => R k i ∨ (k = key ∧ i = rowId)) := by
  refine ⟨h.entries.add key rowId, fun k i hki => mightContain_insert ?_⟩
  rcases hki with hR | ⟨hk, -⟩
  · exact Or.inl (h.bloom k i hR)
  · exact Or.inr hk

theorem Holds.insertKeyed (h : index.Holds H R) (item : Option IndexKey × Nat) :
    (index.insertKeyed H item).Holds H (fun k i => R k i ∨ (some k, i) = item) := by
  obtain ⟨key, rowId⟩ := item
  cases key with
  | none => exact h.congr (by simp)
  | some key => exact (h.insertEntry key rowId).congr (by simp)

theorem Holds.foldl_insertKeyed (items : List (Option IndexKey × Nat)) (h : index.Holds H R) :
    (items.foldl (BTreeIndex.insertKeyed H) index).Holds H
      (fun k i => R k i ∨ (some k, i) ∈ items) := by
  induction items generalizing index R with
  | nil => exact h.congr (by simp)
  | cons item items ih =>
    refine (ih (h.insertKeyed item)).congr fun k i => ?_
    simp only [List.mem_cons, or_assoc]

/-- Replacing a row re-files its identifier, which had exactly the previous key. -/
theorem Holds.moveEntry (h : index.Holds H R) {previous : Option IndexKey} {rowId : Nat}
    (hprevious : ∀ key, R key rowId ↔ some key = previous) (next : Option IndexKey) :
    (index.moveEntry H previous next rowId).Holds H
      (fun k i => (R k i ∧ i ≠ rowId) ∨ (some k, i) = (next, rowId)) := by
  unfold BTreeIndex.moveEntry
  by_cases hsame : previous = next
  · rw [if_pos hsame]
    refine h.congr fun k i => ?_
    by_cases hi : i = rowId
    · subst hi
      simp [hprevious k, hsame]
    · simp [hi]
  · rw [if_neg hsame]
    -- Withdrawn from its previous key, the identifier has none.
    apply Holds.insertKeyed
    cases previous with
    | none =>
      refine h.congr fun k i => ⟨fun hR => ⟨hR, ?_⟩, fun hR => hR.1⟩
      rintro rfl
      simpa using (hprevious k).mp hR
    | some key =>
      refine ⟨(h.entries.remove key rowId).congr fun k i => and_congr_right fun hR => ?_,
        fun k i hki => h.bloom k i hki.1⟩
      refine not_congr ⟨fun hki => hki.2, fun hi => ⟨?_, hi⟩⟩
      subst hi
      simpa using (hprevious k).mp hR

@[simp] theorem insertKeyed_definition (item : Option IndexKey × Nat) :
    (index.insertKeyed H item).definition = index.definition := by
  obtain ⟨key, rowId⟩ := item
  cases key <;> rfl

@[simp] theorem moveEntry_definition (previous next : Option IndexKey) (rowId : Nat) :
    (index.moveEntry H previous next rowId).definition = index.definition := by
  unfold BTreeIndex.moveEntry
  by_cases hsame : previous = next
  · rw [if_pos hsame]
  · rw [if_neg hsame]
    cases previous <;> simp

theorem foldl_insertKeyed_definition (items : List (Option IndexKey × Nat)) :
    (items.foldl (BTreeIndex.insertKeyed H) index).definition = index.definition := by
  induction items generalizing index with
  | nil => rfl
  | cons item items ih => rw [List.foldl_cons, ih, insertKeyed_definition]

end BTreeIndex

/-! ## The invariant -/

/-- Every column an index definition names is a column of the schema. -/
def TableSchema.IndexColumnsExist (schema : TableSchema) : Prop :=
  ∀ definition ∈ schema.indexes, ∀ column ∈ definition.columns,
    (schema.columnIndex column).isSome = true

namespace Table

/-- The relation an index over `columns` stands for. -/
def keyed (table : Table) (columns : List String) (key : IndexKey) (rowId : Nat) : Prop :=
  ∃ (position : Nat) (row : Row), table.rows[position]? = some row ∧
    table.rowIds[position]? = some rowId ∧ table.schema.indexKey row columns = some key

/-- Row identifiers go with the rows, increase, and stay below the next one. -/
structure IdsOrdered (table : Table) : Prop where
  lengths : table.rowIds.length = table.rows.length
  increasing : table.rowIds.Pairwise (· < ·)
  below : ∀ rowId ∈ table.rowIds, rowId < table.nextRowId

/-- A runtime index agrees with the schema and with the rows. -/
structure IndexConsistent (H : Host) (table : Table) (index : BTreeIndex) : Prop where
  definition_mem : index.definition ∈ table.schema.indexes
  columns_exist : ∀ column ∈ index.definition.columns,
    (table.schema.columnIndex column).isSome = true
  holds : index.Holds H (table.keyed index.definition.columns)

/-- The index representation invariant. -/
structure RepInv (H : Host) (table : Table) : Prop where
  ids : table.IdsOrdered
  indexes : ∀ name index, table.indexes.lookup name = some index → table.IndexConsistent H index

variable {H : Host} {table : Table}

theorem IdsOrdered.rowId_inj (h : table.IdsOrdered) {p q rowId : Nat}
    (hp : table.rowIds[p]? = some rowId) (hq : table.rowIds[q]? = some rowId) : p = q := by
  have hnodup : table.rowIds.Nodup := h.increasing.imp (fun hab => Nat.ne_of_lt hab)
  obtain ⟨hp', hpe⟩ := List.getElem?_eq_some_iff.mp hp
  obtain ⟨hq', hqe⟩ := List.getElem?_eq_some_iff.mp hq
  exact (List.Nodup.getElem_inj_iff hnodup).mp (hpe.trans hqe.symm)

/-! ### Rebuilding -/

theorem mem_keyedRowIds (hlengths : table.rowIds.length = table.rows.length)
    {columns : List String} {key : IndexKey} {rowId : Nat} :
    (some key, rowId) ∈ table.keyedRowIds columns ↔ table.keyed columns key rowId := by
  simp only [keyedRowIds, List.mem_map, Prod.exists, List.mem_zipIdx_iff_getElem?, Prod.mk.injEq,
    keyed]
  constructor
  · rintro ⟨row, position, hrow, hkey, hid⟩
    obtain ⟨hp, -⟩ := List.getElem?_eq_some_iff.mp hrow
    have hp' : position < table.rowIds.length := hlengths ▸ hp
    refine ⟨position, row, hrow, ?_, hkey⟩
    simpa [List.getElem?_eq_getElem hp'] using hid
  · rintro ⟨position, row, hrow, hid, hkey⟩
    exact ⟨row, position, hrow, hkey, by simp [hid]⟩

@[simp] theorem buildIndex_definition (definition : IndexDef) :
    (table.buildIndex H definition).definition = definition :=
  BTreeIndex.foldl_insertKeyed_definition _

theorem holds_buildIndex (hlengths : table.rowIds.length = table.rows.length)
    (definition : IndexDef) :
    (table.buildIndex H definition).Holds H (table.keyed definition.columns) := by
  refine ((BTreeIndex.holds_empty definition _ _).foldl_insertKeyed _).congr fun key rowId => ?_
  rw [mem_keyedRowIds hlengths]
  simp

/-- The index that `rebuild_index` leaves under a name is the one of the last
definition of that name. -/
theorem lookup_rebuildIndex (name : String) :
    (table.rebuildIndex H).indexes.lookup name =
      ((table.schema.indexes.reverse.find? (fun definition => definition.name == name)).map
        (table.buildIndex H)) := by
  simp only [rebuildIndex]
  generalize table.schema.indexes = definitions
  induction definitions using List.reverseRecOn with
  | nil => simp
  | append_singleton definitions definition ih =>
    rw [List.foldl_append, List.reverse_append]
    simp only [List.foldl_cons, List.foldl_nil, List.reverse_cons, List.reverse_nil,
      List.nil_append, List.cons_append, List.find?_cons]
    by_cases h : definition.name = name
    · subst h
      simp
    · have hbeq : (definition.name == name) = false := by simpa using h
      rw [AList.lookup_insert_ne (Ne.symm h), ih, hbeq]

theorem mem_rebuildIndex {name : String} {index : BTreeIndex}
    (h : (table.rebuildIndex H).indexes.lookup name = some index) :
    ∃ definition ∈ table.schema.indexes, definition.name = name ∧
      index = table.buildIndex H definition := by
  rw [lookup_rebuildIndex] at h
  obtain ⟨definition, hfound, hindex⟩ := Option.map_eq_some_iff.mp h
  refine ⟨definition, ?_, ?_, hindex.symm⟩
  · simpa using List.mem_of_find?_eq_some hfound
  · simpa using List.find?_some hfound

theorem idsOrdered_rebuildIndex (h : table.IdsOrdered) : (table.rebuildIndex H).IdsOrdered :=
  ⟨h.lengths, h.increasing, h.below⟩

/-- **The full rebuild establishes the invariant.** -/
theorem repInv_rebuildIndex (hids : table.IdsOrdered) (hcolumns : table.schema.IndexColumnsExist) :
    (table.rebuildIndex H).RepInv H := by
  refine ⟨idsOrdered_rebuildIndex hids, fun name index hindex => ?_⟩
  obtain ⟨definition, hmem, -, rfl⟩ := mem_rebuildIndex hindex
  refine ⟨?_, ?_, ?_⟩
  · rw [buildIndex_definition]
    exact hmem
  · rw [buildIndex_definition]
    exact hcolumns definition hmem
  · rw [buildIndex_definition]
    exact holds_buildIndex hids.lengths definition

/-! ### The incremental path -/

theorem insertRowIndexed_eq_ok {row : Row} {table' : Table}
    (h : table.insertRowIndexed H row = .ok table') :
    table.schema.validateRow row = .ok () ∧
    table' = { table with
      rows := table.rows ++ [row]
      rowIds := table.rowIds ++ [table.nextRowId]
      nextRowId := saturatingSucc table.nextRowId
      indexes := mapValues
        (fun _ index => index.insertKeyed H
          (table.schema.indexKey row index.definition.columns, table.nextRowId))
        table.indexes } := by
  obtain ⟨⟨⟩, hvalid, htable⟩ := Result.bind_eq_ok.mp h
  exact ⟨hvalid, by simpa using htable.symm⟩

theorem getElem?_append_singleton {α : Type} (l : List α) (a : α) (i : Nat) (b : α) :
    (l ++ [a])[i]? = some b ↔ l[i]? = some b ∨ (i = l.length ∧ b = a) := by
  rcases lt_trichotomy i l.length with h | h | h
  · simp [List.getElem?_append_left h, Nat.ne_of_lt h]
  · subst h
    simp [eq_comm]
  · have hlong : (l ++ [a]).length ≤ i := by simpa using h
    simp [List.getElem?_eq_none hlong, List.getElem?_eq_none (Nat.le_of_lt h), Nat.ne_of_gt h]

/-- **Inserting a row keeps the invariant**, as long as the counter is not saturated. -/
theorem repInv_insertRowIndexed {row : Row} {table' : Table} (hinv : table.RepInv H)
    (hnext : table.nextRowId < maxRowId) (h : table.insertRowIndexed H row = .ok table') :
    table'.RepInv H := by
  obtain ⟨-, rfl⟩ := insertRowIndexed_eq_ok h
  have hsucc : saturatingSucc table.nextRowId = table.nextRowId + 1 := by
    rw [saturatingSucc]
    exact Nat.min_eq_left hnext
  refine ⟨⟨?_, ?_, ?_⟩, fun name index hindex => ?_⟩
  · simp [hinv.ids.lengths]
  · refine List.pairwise_append.mpr ⟨hinv.ids.increasing, by simp, ?_⟩
    intro a ha b hb
    rw [List.mem_singleton.mp hb]
    exact hinv.ids.below a ha
  · intro rowId hmem
    rw [hsucc]
    rcases List.mem_append.mp hmem with hmem | hmem
    · exact Nat.lt_succ_of_lt (hinv.ids.below rowId hmem)
    · rw [List.mem_singleton.mp hmem]
      exact Nat.lt_succ_self _
  · rw [lookup_mapValues] at hindex
    obtain ⟨index, hlookup, rfl⟩ := Option.map_eq_some_iff.mp hindex
    have hold := hinv.indexes name index hlookup
    refine ⟨?_, ?_, ?_⟩
    · simpa using hold.definition_mem
    · simpa using hold.columns_exist
    · rw [BTreeIndex.insertKeyed_definition]
      refine (hold.holds.insertKeyed _).congr fun key rowId => ?_
      simp only [keyed, getElem?_append_singleton, Prod.mk.injEq]
      constructor
      · rintro (⟨position, old, hrow, hid, hkey⟩ | ⟨hkey, hid⟩)
        · exact ⟨position, old, Or.inl hrow, Or.inl hid, hkey⟩
        · exact ⟨table.rows.length, row, Or.inr ⟨rfl, rfl⟩,
            Or.inr ⟨hinv.ids.lengths.symm, hid⟩, hkey.symm⟩
      · rintro ⟨position, found, hrow, hid, hkey⟩
        rcases hrow with hrow | ⟨hp, rfl⟩ <;> rcases hid with hid | ⟨hq, hid⟩
        · exact Or.inl ⟨position, found, hrow, hid, hkey⟩
        · have := (List.getElem?_eq_some_iff.mp hrow).1
          exact absurd (hq.trans hinv.ids.lengths) (Nat.ne_of_lt this)
        · have := (List.getElem?_eq_some_iff.mp hid).1
          exact absurd (hp.trans hinv.ids.lengths.symm) (Nat.ne_of_lt this)
        · exact Or.inr ⟨hkey.symm, hid⟩

theorem replaceRowIndexed_eq_ok {position : Nat} {row : Row} {table' : Table}
    (h : table.replaceRowIndexed H position row = .ok table') :
    table.schema.validateRow row = .ok () ∧
    ∃ previous rowId, table.rows[position]? = some previous ∧
      table.rowIds[position]? = some rowId ∧
      table' = { table with
        rows := table.rows.set position row
        indexes := mapValues
          (fun _ index => index.moveEntry H
            (table.schema.indexKey previous index.definition.columns)
            (table.schema.indexKey row index.definition.columns) rowId)
          table.indexes } := by
  obtain ⟨⟨⟩, hvalid, htable⟩ := Result.bind_eq_ok.mp h
  refine ⟨hvalid, ?_⟩
  cases hrow : table.rows[position]? with
  | none => simp [hrow] at htable
  | some previous =>
    cases hid : table.rowIds[position]? with
    | none => simp [hrow, hid] at htable
    | some rowId =>
      simp only [hrow, hid, Result.pure_eq_ok, Except.ok.injEq] at htable
      exact ⟨previous, rowId, rfl, rfl, htable.symm⟩

/-- **Replacing a row keeps the invariant.** -/
theorem repInv_replaceRowIndexed {position : Nat} {row : Row} {table' : Table}
    (hinv : table.RepInv H) (h : table.replaceRowIndexed H position row = .ok table') :
    table'.RepInv H := by
  obtain ⟨-, previous, rowId, hrow, hid, rfl⟩ := replaceRowIndexed_eq_ok h
  refine ⟨⟨?_, hinv.ids.increasing, hinv.ids.below⟩, fun name index hindex => ?_⟩
  · simpa using hinv.ids.lengths
  · rw [lookup_mapValues] at hindex
    obtain ⟨index, hlookup, rfl⟩ := Option.map_eq_some_iff.mp hindex
    have hold := hinv.indexes name index hlookup
    refine ⟨?_, ?_, ?_⟩
    · simpa using hold.definition_mem
    · simpa using hold.columns_exist
    · rw [BTreeIndex.moveEntry_definition]
      -- The identifier belongs to one position, so its only key is the previous one.
      have hprevious : ∀ key, table.keyed index.definition.columns key rowId ↔
          some key = table.schema.indexKey previous index.definition.columns := by
        intro key
        constructor
        · rintro ⟨p, found, hfound, hfid, hkey⟩
          rw [hinv.ids.rowId_inj hfid hid, hrow, Option.some.injEq] at hfound
          rw [hfound, hkey]
        · intro hkey
          exact ⟨position, previous, hrow, hid, hkey.symm⟩
      have hlt : position < table.rows.length := (List.getElem?_eq_some_iff.mp hrow).1
      refine (hold.holds.moveEntry hprevious _).congr fun key i => ?_
      simp only [keyed, Prod.mk.injEq]
      constructor
      · rintro (⟨⟨p, found, hfound, hfid, hkey⟩, hne⟩ | ⟨hkey, hi⟩)
        · have hp : position ≠ p := by
            rintro rfl
            exact hne (Option.some.inj (hfid.symm.trans hid))
          exact ⟨p, found, by rw [List.getElem?_set_ne hp]; exact hfound, hfid, hkey⟩
        · exact ⟨position, row, by simp [hlt], hi ▸ hid, hkey.symm⟩
      · rintro ⟨p, found, hfound, hfid, hkey⟩
        by_cases hp : position = p
        · subst hp
          rw [List.getElem?_set_self hlt, Option.some.injEq] at hfound
          exact Or.inr ⟨hfound ▸ hkey.symm, Option.some.inj (hfid.symm.trans hid)⟩
        · rw [List.getElem?_set_ne hp] at hfound
          refine Or.inl ⟨⟨p, found, hfound, hfid, hkey⟩, fun hi => hp ?_⟩
          exact hinv.ids.rowId_inj hid (hi ▸ hfid)

end Table

end Sql
end RustyDB
