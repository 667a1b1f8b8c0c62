import Mathlib
import RustyDB.Sql.Keys

/-!
# What a statement sees of a table

Row identifiers, Bloom filters and the layout of the indexes are bookkeeping: two
tables with the same schema and the same rows, each with its indexes in order, are
the same to every scan, every uniqueness check and every search for conflicts.

* `Table.Sound` — a table with its bookkeeping in order.
* `Table.SameView` — the same schema and the same rows.
* `SameView.isCandidate`, `SameView.hasDuplicate`, `SameView.conflictPositions` —
  an index scan, a uniqueness check and an INSERT do not tell the two apart.
-/

namespace RustyDB
namespace Sql

open KeyedIndex

/-! ## Sound tables -/

/-- The keys of the index map after `rebuild_index`: a repeated name moves to the front. -/
def TableSchema.indexNames (schema : TableSchema) : List String :=
  schema.indexes.foldl (fun names definition => definition.name :: names.erase definition.name) []

/-- A table whose bookkeeping is in order. -/
structure Table.Sound (H : Host) (inserted : Nat) (table : Table) : Prop where
  ok : table.Ok H inserted
  backed : table.Backed
  keys : table.indexes.keys = table.schema.indexNames

/-- The same schema and the same rows. -/
structure Table.SameView (table table' : Table) : Prop where
  schema : table'.schema = table.schema
  rows : table'.rows = table.rows

theorem Table.SameView.refl (table : Table) : table.SameView table := ⟨rfl, rfl⟩

theorem Table.SameView.symm {table table' : Table} (h : table.SameView table') :
    table'.SameView table := ⟨h.schema.symm, h.rows.symm⟩

theorem Table.SameView.trans {table table' table'' : Table} (h : table.SameView table')
    (h' : table'.SameView table'') : table.SameView table'' :=
  ⟨h'.schema.trans h.schema, h'.rows.trans h.rows⟩

/-- An index over columns under other names. -/
def IndexDef.overColumns (definition : IndexDef) (f : String → String) : IndexDef :=
  { definition with columns := definition.columns.map f }

@[simp]
theorem IndexDef.overColumns_id (definition : IndexDef) :
    definition.overColumns id = definition := by
  rw [overColumns, List.map_id]

/-- The same rows, and the same indexes over columns that may have other names. -/
structure Table.Reindexed (f : String → String) (table table' : Table) : Prop where
  name : table'.schema.name = table.schema.name
  rows : table'.rows = table.rows
  indexes : table'.schema.indexes = table.schema.indexes.map (IndexDef.overColumns · f)
  keys : ∀ definition ∈ table.schema.indexes, ∀ row,
    table'.schema.indexKey row (definition.columns.map f) =
      table.schema.indexKey row definition.columns

theorem Table.SameView.reindexed {table table' : Table} (h : table.SameView table') :
    table.Reindexed id table' where
  name := by rw [h.schema]
  rows := h.rows
  indexes := by simp [h.schema]
  keys _ _ _ := by rw [h.schema, List.map_id]

section Keys

variable {H : Host} {tables tables' : Tables} {table table' : Table}

theorem Table.keys_rebuildIndex : (table.rebuildIndex H).indexes.keys =
    table.schema.indexNames := by
  have hfold : ∀ (definitions : List IndexDef) (indexes : AList (fun _ : String => BTreeIndex))
      (names : List String), indexes.keys = names →
      (definitions.foldl (fun indexes definition =>
        indexes.insert definition.name (table.buildIndex H definition)) indexes).keys =
      definitions.foldl (fun names definition =>
        definition.name :: names.erase definition.name) names := by
    intro definitions
    induction definitions with
    | nil => exact fun indexes names h => h
    | cons definition definitions ih =>
      intro indexes names h
      exact ih _ _ (by rw [AList.keys_insert, h])
  exact hfold table.schema.indexes ∅ [] rfl

/-- A property of rebuilt tables that filing and replacing rows keeps holds of every table
after a statement. -/
theorem all_step {P : Table → Prop} (hrebuild : ∀ table : Table, P (table.rebuildIndex H))
    (hinsert : ∀ (table table' : Table) row, P table → table.insertRowIndexed H row = .ok table' →
      P table')
    (hreplace : ∀ (table table' : Table) position row, P table →
      table.replaceRowIndexed H position row = .ok table' → P table')
    {statement : Statement} {result : ExecutionResult} (hcatalog : tables.All P)
    (h : executeStatement H tables statement = .ok (result, tables')) : tables'.All P := by
  have hrows : ∀ {name onDuplicate count count' rows} {table table' : Table}, P table →
      insertRows H tables name onDuplicate table count rows = .ok (table', count') →
      P table' := by
    intro name onDuplicate count count' rows
    induction rows generalizing count with
    | nil =>
      intro table table' htable h
      simp only [insertRows, Except.ok.injEq, Prod.mk.injEq] at h
      exact h.1 ▸ htable
    | cons row rows ih =>
      intro table table' htable h
      obtain ⟨⟨next, added⟩, hrow, hrest⟩ := Result.bind_eq_ok.mp h
      refine ih ?_ hrest
      rcases insertRow_ok hrow with ⟨hrow, -⟩ | ⟨position, updated, hrow⟩ | rfl
      · exact hinsert table next row htable hrow
      · exact hreplace table next position updated htable hrow
      · exact htable
  have halter : ∀ {tableName operations} {tables others : Tables} {table table' : Table},
      tables.All P →
      applyAlterOperations H tableName tables table operations = .ok (others, table') →
      others.All P := by
    intro tableName operations
    induction operations with
    | nil =>
      intro tables others table table' hcatalog h
      simp only [applyAlterOperations, Except.ok.injEq, Prod.mk.injEq] at h
      exact h.1 ▸ hcatalog
    | cons operation operations ih =>
      intro tables others table table' hcatalog h
      obtain ⟨⟨next, nextTable⟩, hoperation, hrest⟩ := Result.bind_eq_ok.mp h
      refine ih ?_ hrest
      rcases applyAlterOperation_ok hoperation with ⟨rfl, rfl⟩ | ⟨altered, -, rfl, rfl⟩
      · exact hcatalog
      · cases operation with
        | renameColumn oldName newName =>
          refine hcatalog.mapValues fun name table htable => ?_
          split
          · exact htable
          · split
            · exact hrebuild _
            · exact htable
        | _ => exact hcatalog
  cases hwrite : isWriteStatement statement with
  | false =>
    rw [executeStatement_read hwrite h]
    exact hcatalog
  | true =>
    cases statement with
    | createTable tableName columns constraints ifNotExists =>
      rcases executeCreateTable_ok h with rfl | ⟨schema, rfl, -⟩
      · exact hcatalog
      · exact hcatalog.insert (hrebuild _)
    | dropTable tableName ifExists =>
      rcases executeDropTable_ok h with rfl | rfl
      · exact hcatalog
      · exact hcatalog.erase _
    | createIndex name tableName columns unique ifNotExists =>
      rcases executeCreateIndex_ok h with rfl | ⟨existing, definition, -, -, -, rfl⟩
      · exact hcatalog
      · exact hcatalog.insert (hrebuild _)
    | dropIndex name tableName ifExists =>
      rcases executeDropIndex_ok h with rfl | ⟨existing, position, dropped, -, -, -, rfl⟩
      · exact hcatalog
      · exact hcatalog.insert (hrebuild _)
    | alterTable tableName operations =>
      obtain ⟨existing, table, others, -, hoperations, rfl⟩ := executeAlterTable_ok h
      exact (halter hcatalog hoperations).insert (hrebuild _)
    | insert tableName columns source onDuplicate =>
      obtain ⟨values, existing, table, rows, count, -, hlookup, -, hinsert, rfl, -, -⟩ :=
        executeInsert_ok h
      exact hcatalog.insert (hrows (hcatalog _ existing hlookup) hinsert)
    | update tableName assignments selection =>
      obtain ⟨table, updated, -, -, rfl, -, -⟩ := executeUpdate_ok h
      exact hcatalog.insert (hrebuild _)
    | delete tableName selection =>
      obtain ⟨table, kept, -, -, rfl, -, -⟩ := executeDelete_ok h
      exact hcatalog.insert (hrebuild _)
    | _ => simp [isWriteStatement] at hwrite

/-- **One statement keeps every table sound.** -/
theorem sound_step {inserted : Nat} {statement : Statement} {result : ExecutionResult}
    (hparsed : statement.Parsed) (h : executeStatement H tables statement = .ok (result, tables'))
    (hbound : inserted + insertedRows tables tables' statement < maxRowId)
    (hcatalog : tables.All (Table.Sound H inserted)) :
    tables'.All (Table.Sound H (inserted + insertedRows tables tables' statement)) := by
  have hok := catalogOk_step hparsed h hbound fun name table hl => (hcatalog name table hl).ok
  have hbacked := backed_step h fun name table hl => (hcatalog name table hl).backed
  have hkeys : tables'.All fun table => table.indexes.keys = table.schema.indexNames := by
    refine all_step (fun table => Table.keys_rebuildIndex) ?_ ?_
      (fun name table hl => (hcatalog name table hl).keys) h
    · intro table table' row hkeys h
      obtain ⟨-, rfl⟩ := Table.insertRowIndexed_eq_ok h
      simpa using hkeys
    · intro table table' position row hkeys h
      obtain ⟨-, previous, rowId, -, -, rfl⟩ := Table.replaceRowIndexed_eq_ok h
      simpa using hkeys
  exact fun name table hl => ⟨hok name table hl, hbacked name table hl, hkeys name table hl⟩

end Keys

/-! ## Positions instead of identifiers -/

/-- The row at a position has a key. -/
def Table.KeyAt (table : Table) (columns : List String) (key : IndexKey) (position : Nat) : Prop :=
  ∃ row, table.rows[position]? = some row ∧ table.schema.indexKey row columns = some key

theorem Table.SameView.keyAt {table table' : Table} (h : table.SameView table')
    (columns : List String) (key : IndexKey) (position : Nat) :
    table'.KeyAt columns key position ↔ table.KeyAt columns key position := by
  simp only [Table.KeyAt, h.rows, h.schema]

theorem Table.Reindexed.keyAt {f : String → String} {table table' : Table}
    (h : table.Reindexed f table') {definition : IndexDef}
    (hmem : definition ∈ table.schema.indexes) (key : IndexKey) (position : Nat) :
    table'.KeyAt (definition.overColumns f).columns key position ↔
      table.KeyAt definition.columns key position := by
  simp only [Table.KeyAt, h.rows, IndexDef.overColumns, h.keys definition hmem]

section Positions

variable {H : Host} {table table' : Table} {inserted : Nat}

theorem Table.keyed_iff (hids : table.IdsOrdered) {columns : List String} {key : IndexKey}
    {position rowId : Nat} (hid : table.rowIds[position]? = some rowId) :
    table.keyed columns key rowId ↔ table.KeyAt columns key position := by
  constructor
  · rintro ⟨p, row, hrow, hp, hkey⟩
    rw [hids.rowId_inj hp hid] at hrow
    exact ⟨row, hrow, hkey⟩
  · rintro ⟨row, hrow, hkey⟩
    exact ⟨position, row, hrow, hid, hkey⟩

/-- What a search returns, by position: the rows whose key the probe admits. -/
theorem Table.mem_search_iff (hinv : table.RepInv H) {name : String} {index : BTreeIndex}
    (hlookup : table.indexes.lookup name = some index) (probe : IndexProbe)
    {position rowId : Nat} (hid : table.rowIds[position]? = some rowId) :
    rowId ∈ index.search H probe ↔ ∃ key, probe.admits key = true ∧
      table.KeyAt index.definition.columns key position := by
  have hholds := (hinv.indexes name index hlookup).holds
  have hkeyAt : ∀ key, rowId ∈ index.entries.ids key ↔
      table.KeyAt index.definition.columns key position := fun key =>
    (hholds.entries.mem_ids key rowId).trans (Table.keyed_iff hinv.ids hid)
  constructor
  · intro h
    unfold BTreeIndex.search at h
    split at h
    · rename_i hfull
      split at h
      · refine ⟨probe.keyPrefix, ?_, (hkeyAt _).mp h⟩
        simp [IndexProbe.admits, hfull.2]
      · simp at h
    · rw [mem_foldl_union] at h
      rcases h with h | ⟨⟨key, ids⟩, hentry, hadmits, hmem⟩
      · simp at h
      · refine ⟨key, hadmits, (hkeyAt key).mp ?_⟩
        rw [Entries.ids, AList.mem_lookup_iff.mpr hentry]
        exact hmem
  · rintro ⟨key, hadmits, hkey⟩
    obtain ⟨row, hrow, hindexKey⟩ := hkey
    exact BTreeIndex.mem_search hholds ⟨position, row, hrow, hid, hindexKey⟩
      (length_of_indexKey hindexKey) hadmits

/-- A definition that a name stands for is among the indexes of the schema. -/
theorem Table.Backed.mem_indexes (h : table.Backed) {name : String} {index : BTreeIndex}
    (hlookup : table.indexes.lookup name = some index) :
    index.definition ∈ table.schema.indexes := by
  have hlive := h.listed name
  rw [hlookup, Option.map_some] at hlive
  exact List.mem_reverse.mp (List.mem_of_find?_eq_some hlive.symm)

/-- The runtime indexes of two tables with the same rows and indexes, pair by pair. -/
def PairedIndex (f : String → String) (table table' : Table) (index index' : BTreeIndex) : Prop :=
  index'.definition = index.definition.overColumns f ∧ ∃ name,
    table.indexes.lookup name = some index ∧ table'.indexes.lookup name = some index'

theorem Table.Reindexed.indexNames {f : String → String} (h : table.Reindexed f table') :
    table'.schema.indexNames = table.schema.indexNames := by
  rw [TableSchema.indexNames, h.indexes, List.foldl_map]
  rfl

theorem Table.Reindexed.liveIndex {f : String → String} (h : table.Reindexed f table')
    (name : String) : table'.schema.liveIndex name =
      (table.schema.liveIndex name).map (IndexDef.overColumns · f) := by
  rw [TableSchema.liveIndex, h.indexes, ← List.map_reverse, List.find?_map]
  rfl

theorem Table.Reindexed.indexValues {f : String → String} (h : table.Reindexed f table')
    (hs : table.Sound H inserted) (hs' : table'.Sound H inserted) :
    List.Forall₂ (PairedIndex f table table') (table.indexValues H) (table'.indexValues H) := by
  have hkeys : table'.indexes.keys = table.indexes.keys := by
    rw [hs'.keys, hs.keys, h.indexNames]
  have hdefinitions : ∀ name, (table'.indexes.lookup name).map BTreeIndex.definition =
      ((table.indexes.lookup name).map BTreeIndex.definition).map
        (IndexDef.overColumns · f) := fun name => by
    rw [hs'.backed.listed, hs.backed.listed, h.liveIndex]
  rw [Table.indexValues, Table.indexValues, hkeys, h.name]
  generalize H.hashOrder (some table.schema.name) table.indexes.keys = names
  induction names with
  | nil => exact List.Forall₂.nil
  | cons name names ih =>
    have hname := hdefinitions name
    rw [List.filterMap_cons, List.filterMap_cons]
    cases hindex : table.indexes.lookup name with
    | none =>
      rw [hindex, Option.map_none, Option.map_none, Option.map_eq_none_iff] at hname
      rw [hname]
      exact ih
    | some index =>
      rw [hindex, Option.map_some, Option.map_some] at hname
      obtain ⟨index', hindex', hdefinition⟩ := Option.map_eq_some_iff.mp hname
      rw [hindex']
      exact List.Forall₂.cons ⟨hdefinition, name, hindex, hindex'⟩ ih

theorem Table.SameView.indexValues (h : table.SameView table') (hs : table.Sound H inserted)
    (hs' : table'.Sound H inserted) :
    List.Forall₂ (PairedIndex id table table') (table.indexValues H) (table'.indexValues H) :=
  h.reindexed.indexValues hs hs'

/-- Two candidate sets that mean the same positions. -/
def SameBest (table table' : Table) : Option BestIndex → Option BestIndex → Prop
  | none, none => True
  | some best, some best' => best'.name = best.name ∧ best'.score = best.score ∧
      ∀ position rowId rowId' : Nat, table.rowIds[position]? = some rowId →
        table'.rowIds[position]? = some rowId' → (rowId' ∈ best'.ids ↔ rowId ∈ best.ids)
  | _, _ => False

/-- The predicates of a WHERE clause mean the same columns under the other names. -/
def NamesAlike (f : String → String) (table : Table) (predicates : List IndexPredicate) : Prop :=
  ∀ definition ∈ table.schema.indexes, ∀ column ∈ definition.columns,
    ∀ predicate ∈ predicates,
      eqIgnoreAsciiCase predicate.column (f column) = eqIgnoreAsciiCase predicate.column column

theorem namesAlike_id (table : Table) (predicates : List IndexPredicate) :
    NamesAlike id table predicates :=
  fun _ _ _ _ _ _ => rfl

theorem indexProbe_map {f : String → String} {predicates : List IndexPredicate}
    {columns : List String} (h : ∀ column ∈ columns, ∀ predicate ∈ predicates,
      eqIgnoreAsciiCase predicate.column (f column) =
        eqIgnoreAsciiCase predicate.column column) :
    indexProbe predicates (columns.map f) = indexProbe predicates columns := by
  induction columns with
  | nil => rfl
  | cons column columns ih =>
    rw [List.forall_mem_cons] at h
    have hfind : predicates.find? (fun predicate =>
          eqIgnoreAsciiCase predicate.column (f column)) =
        predicates.find? (fun predicate => eqIgnoreAsciiCase predicate.column column) :=
      List.find?_congr h.1
    rw [List.map_cons, indexProbe, indexProbe, hfind, ih h.2]

theorem Table.Reindexed.betterIndex {f : String → String} (h : table.Reindexed f table')
    (hs : table.Sound H inserted) (hs' : table'.Sound H inserted)
    {predicates : List IndexPredicate} (halike : NamesAlike f table predicates)
    {best best' : Option BestIndex} (hbest : SameBest table table' best best')
    {index index' : BTreeIndex} (hindex : PairedIndex f table table' index index') :
    SameBest table table' (Table.betterIndex H predicates best index)
      (Table.betterIndex H predicates best' index') := by
  obtain ⟨hdefinition, name, hlookup, hlookup'⟩ := hindex
  have hmem := hs.backed.mem_indexes hlookup
  have hprobe : indexProbe predicates index'.definition.columns =
      indexProbe predicates index.definition.columns := by
    rw [hdefinition]
    exact indexProbe_map (halike _ hmem)
  have hname : index'.definition.name = index.definition.name := by rw [hdefinition]; rfl
  have hfound : SameBest table table'
      (some ⟨index.search H (indexProbe predicates index.definition.columns),
        index.definition.name, (indexProbe predicates index.definition.columns).score⟩)
      (some ⟨index'.search H (indexProbe predicates index.definition.columns),
        index.definition.name, (indexProbe predicates index.definition.columns).score⟩) := by
    refine ⟨rfl, rfl, fun position rowId rowId' hid hid' => ?_⟩
    rw [Table.mem_search_iff hs.ok.repInv hlookup _ hid,
      Table.mem_search_iff hs'.ok.repInv hlookup' _ hid', hdefinition]
    simp only [h.keyAt hmem]
  simp only [Table.betterIndex, hprobe, hname]
  split
  · exact hbest
  · match best, best', hbest with
    | none, none, _ => exact hfound
    | some best, some best', hbest =>
      simp only [hbest.2.1]
      split
      · exact hfound
      · exact hbest

/-- **An index scan** chooses the same index and the same positions. -/
theorem Table.Reindexed.candidateRowIds {f : String → String} (h : table.Reindexed f table')
    (hs : table.Sound H inserted) (hs' : table'.Sound H inserted) {selection : Option Expr}
    (halike : ∀ e ∈ selection, NamesAlike f table (collectIndexPredicates e)) :
    SameBest table table' (table.candidateRowIds H selection)
      (table'.candidateRowIds H selection) := by
  cases selection with
  | none => trivial
  | some selection =>
    have hfold : ∀ {indexes indexes' : List BTreeIndex} {best best' : Option BestIndex},
        List.Forall₂ (PairedIndex f table table') indexes indexes' →
        SameBest table table' best best' →
        SameBest table table'
          (indexes.foldl (Table.betterIndex H (collectIndexPredicates selection)) best)
          (indexes'.foldl (Table.betterIndex H (collectIndexPredicates selection)) best') := by
      intro indexes indexes' best best' hpaired
      induction hpaired generalizing best best' with
      | nil => exact id
      | cons hindex _ ih =>
        exact fun hbest => ih (h.betterIndex hs hs' (halike selection rfl) hbest hindex)
    exact hfold (h.indexValues hs hs') trivial

theorem Table.Reindexed.isCandidate {f : String → String} (h : table.Reindexed f table')
    (hs : table.Sound H inserted) (hs' : table'.Sound H inserted) {selection : Option Expr}
    (halike : ∀ e ∈ selection, NamesAlike f table (collectIndexPredicates e)) (position : Nat) :
    table'.isCandidate (table'.candidateRowIds H selection) position =
      table.isCandidate (table.candidateRowIds H selection) position := by
  have hlength : table'.rowIds.length = table.rowIds.length := by
    rw [hs'.ok.repInv.ids.lengths, hs.ok.repInv.ids.lengths, h.rows]
  have hbest := h.candidateRowIds hs hs' halike
  cases hc : table.candidateRowIds H selection with
  | none =>
    cases hc' : table'.candidateRowIds H selection with
    | none => rfl
    | some best' => rw [hc, hc'] at hbest; exact hbest.elim
  | some best =>
    cases hc' : table'.candidateRowIds H selection with
    | none => rw [hc, hc'] at hbest; exact hbest.elim
    | some best' =>
      rw [hc, hc'] at hbest
      by_cases hlt : position < table.rowIds.length
      · have hid := List.getElem?_eq_getElem hlt
        have hid' := List.getElem?_eq_getElem (hlength ▸ hlt)
        simp only [Table.isCandidate, hid, hid', hbest.2.2 position _ _ hid hid']
      · have hid := List.getElem?_eq_none (Nat.not_lt.mp hlt)
        have hid' := List.getElem?_eq_none (hlength ▸ Nat.not_lt.mp hlt)
        simp only [Table.isCandidate, hid, hid']

theorem Table.SameView.candidateRowIds (h : table.SameView table') (hs : table.Sound H inserted)
    (hs' : table'.Sound H inserted) (selection : Option Expr) :
    SameBest table table' (table.candidateRowIds H selection)
      (table'.candidateRowIds H selection) :=
  h.reindexed.candidateRowIds hs hs' fun _ _ => namesAlike_id _ _

theorem Table.SameView.length_rowIds (h : table.SameView table') (hs : table.Sound H inserted)
    (hs' : table'.Sound H inserted) : table'.rowIds.length = table.rowIds.length := by
  rw [hs'.ok.repInv.ids.lengths, hs.ok.repInv.ids.lengths, h.rows]

theorem Table.SameView.isCandidate (h : table.SameView table') (hs : table.Sound H inserted)
    (hs' : table'.Sound H inserted) (selection : Option Expr) (position : Nat) :
    table'.isCandidate (table'.candidateRowIds H selection) position =
      table.isCandidate (table.candidateRowIds H selection) position :=
  h.reindexed.isCandidate hs hs' (fun _ _ => namesAlike_id _ _) position

theorem Table.SameView.bestIndexName (h : table.SameView table') (hs : table.Sound H inserted)
    (hs' : table'.Sound H inserted) (selection : Option Expr) :
    table'.bestIndexName H selection = table.bestIndexName H selection := by
  have hbest := h.candidateRowIds hs hs' selection
  unfold Table.bestIndexName
  match table.candidateRowIds H selection, table'.candidateRowIds H selection, hbest with
  | none, none, _ => rfl
  | some best, some best', hbest => exact congrArg some hbest.1

/-! ## Uniqueness -/

/-- A duplicate in an index is two rows with one key. -/
theorem Table.hasDuplicate_eq_false_iff (hinv : table.RepInv H) {name : String}
    {index : BTreeIndex} (hlookup : table.indexes.lookup name = some index) :
    index.hasDuplicate = false ↔ table.Distinct index.definition.columns := by
  refine ⟨distinct_of_hasDuplicate hinv hlookup, fun hdistinct => ?_⟩
  have hholds := (hinv.indexes name index hlookup).holds
  refine List.any_eq_false.mpr fun ⟨key, ids⟩ hentry => ?_
  simp only [Bool.and_eq_true, decide_eq_true_eq, not_and, not_lt]
  intro hnull
  refine Finset.card_le_one.mpr fun a ha b hb => ?_
  have hids : index.entries.ids key = ids := by
    rw [Entries.ids, AList.mem_lookup_iff.mpr hentry]
    rfl
  obtain ⟨p, first, hp, hidp, hfirst⟩ := (hholds.entries.mem_ids key a).mp (hids ▸ ha)
  obtain ⟨q, second, hq, hidq, hsecond⟩ := (hholds.entries.mem_ids key b).mp (hids ▸ hb)
  have hpq := hdistinct p q first second key hp hq hfirst hsecond hnull
  subst hpq
  exact Option.some.inj (hidp.symm.trans hidq)

theorem Table.SameView.distinct (h : table.SameView table') (columns : List String) :
    table'.Distinct columns ↔ table.Distinct columns := by
  simp only [Table.Distinct, h.rows, h.schema]

theorem Table.SameView.hasDuplicate (h : table.SameView table') (hinv : table.RepInv H)
    (hinv' : table'.RepInv H) {index index' : BTreeIndex}
    (hindex : PairedIndex id table table' index index') :
    index'.hasDuplicate = index.hasDuplicate := by
  obtain ⟨hdefinition, name, hlookup, hlookup'⟩ := hindex
  rw [IndexDef.overColumns_id] at hdefinition
  rw [Bool.eq_iff_iff, ← not_iff_not, Bool.not_eq_true, Bool.not_eq_true,
    Table.hasDuplicate_eq_false_iff hinv' hlookup', Table.hasDuplicate_eq_false_iff hinv hlookup,
    hdefinition, h.distinct]

theorem Table.SameView.validateUniqueIndexes (h : table.SameView table')
    (hs : table.Sound H inserted) (hs' : table'.Sound H inserted) :
    validateUniqueIndexes H table' = validateUniqueIndexes H table := by
  have hfind : ((table'.indexValues H).find? fun index =>
        index.definition.unique && index.hasDuplicate).map BTreeIndex.definition =
      ((table.indexValues H).find? fun index =>
        index.definition.unique && index.hasDuplicate).map BTreeIndex.definition := by
    have hpaired := h.indexValues hs hs'
    generalize table.indexValues H = indexes at hpaired ⊢
    generalize table'.indexValues H = indexes' at hpaired ⊢
    induction hpaired with
    | nil => rfl
    | @cons index index' rest rest' hindex hrest ih =>
      rw [List.find?_cons, List.find?_cons, hindex.1, IndexDef.overColumns_id,
        h.hasDuplicate hs.ok.repInv hs'.ok.repInv hindex]
      cases index.definition.unique && index.hasDuplicate with
      | true => simp only [Option.map_some, hindex.1, IndexDef.overColumns_id]
      | false => exact ih
  unfold Sql.validateUniqueIndexes
  cases hfirst : (table.indexValues H).find? fun index =>
      index.definition.unique && index.hasDuplicate with
  | none =>
    rw [hfirst, Option.map_none, Option.map_eq_none_iff] at hfind
    rw [hfind]
  | some index =>
    rw [hfirst, Option.map_some] at hfind
    obtain ⟨index', hindex', hdefinition⟩ := Option.map_eq_some_iff.mp hfind
    rw [hindex']
    simp only [hdefinition]

/-! ## Conflicts -/

theorem binarySearch_go_sound {rowIds : List Nat} {rowId fuel low high position : Nat}
    (h : Table.binarySearch.go rowIds rowId fuel low high = some position) :
    rowIds[position]? = some rowId := by
  induction fuel generalizing low high with
  | zero => simp [Table.binarySearch.go] at h
  | succ fuel ih =>
    rw [Table.binarySearch.go] at h
    simp only at h
    split at h
    · simp at h
    · split at h
      · simp at h
      · rename_i found hfound
        split at h
        · rename_i heq
          rw [← Option.some.inj h, hfound, heq]
        · split at h
          · exact ih h
          · exact ih h

theorem binarySearch_go_complete {rowIds : List Nat} (hsorted : rowIds.Pairwise (· < ·))
    {rowId position : Nat} (hposition : rowIds[position]? = some rowId) {fuel low high : Nat}
    (hlow : low ≤ position) (hhigh : position < high) (hlength : high ≤ rowIds.length)
    (hfuel : high - low ≤ fuel) :
    (Table.binarySearch.go rowIds rowId fuel low high).isSome = true := by
  obtain ⟨hlt, hid⟩ := List.getElem?_eq_some_iff.mp hposition
  induction fuel generalizing low high with
  | zero => omega
  | succ fuel ih =>
    rw [Table.binarySearch.go]
    simp only
    split
    · omega
    · rename_i hrange
      split
      · rename_i hnone
        rw [List.getElem?_eq_getElem (by omega)] at hnone
        simp at hnone
      · rename_i found hfound
        obtain ⟨hmiddle, hfoundId⟩ := List.getElem?_eq_some_iff.mp hfound
        split
        · rfl
        · split
          · rename_i hne hless
            refine ih ?_ hhigh hlength (by omega)
            by_contra hle
            rcases Nat.lt_or_ge position (low + (high - low) / 2) with hp | hp
            · have := List.pairwise_iff_getElem.mp hsorted _ _ hlt hmiddle hp
              omega
            · have : position = low + (high - low) / 2 := by omega
              subst this
              omega
          · rename_i hne hless
            refine ih hlow ?_ (by omega) (by omega)
            by_contra hge
            rcases Nat.lt_or_ge (low + (high - low) / 2) position with hp | hp
            · have := List.pairwise_iff_getElem.mp hsorted _ _ hmiddle hlt hp
              omega
            · have : position = low + (high - low) / 2 := by omega
              subst this
              omega

/-- **The binary search** finds the position of an identifier. -/
theorem Table.IdsOrdered.binarySearch_eq_some (hids : table.IdsOrdered) {rowId position : Nat} :
    Table.binarySearch table.rowIds rowId = some position ↔
      table.rowIds[position]? = some rowId := by
  refine ⟨binarySearch_go_sound, fun h => ?_⟩
  have hlt := (List.getElem?_eq_some_iff.mp h).1
  obtain ⟨found, hfound⟩ := Option.isSome_iff_exists.mp
    (binarySearch_go_complete hids.increasing h (Nat.zero_le _) hlt (Nat.le_refl _)
      (Nat.sub_le _ _))
  rw [Table.binarySearch, hfound]
  exact congrArg some (hids.rowId_inj (binarySearch_go_sound hfound) h)

/-- A row collides, in one index, with the rows that have its key. -/
theorem Table.mem_conflictsIn (hinv : table.RepInv H) {name : String} {index : BTreeIndex}
    (hlookup : table.indexes.lookup name = some index) (row : Row) {position : Nat}
    (hposition : position < table.rowIds.length) :
    position ∈ table.conflictsIn H row index ↔
      ∃ key, table.schema.indexKey row index.definition.columns = some key ∧
        KeyPart.null ∉ key ∧ table.KeyAt index.definition.columns key position := by
  have hholds := (hinv.indexes name index hlookup).holds
  have hid := List.getElem?_eq_getElem hposition
  unfold Table.conflictsIn
  cases hkey : table.schema.indexKey row index.definition.columns with
  | none => simp
  | some key =>
    have hfiled : table.KeyAt index.definition.columns key position ↔
        table.rowIds[position] ∈ index.entries.ids key := by
      rw [hholds.entries.mem_ids, Table.keyed_iff hinv.ids hid]
    simp only [Option.some.injEq, exists_eq_left', hfiled]
    split
    · rename_i hskip
      simp only [Finset.notMem_empty, false_iff, not_and]
      intro hnull hmem
      rcases hskip with hskip | hskip
      · exact hnull hskip
      · rw [hholds.bloom key _ ((hholds.entries.mem_ids key _).mp hmem)] at hskip
        simp at hskip
    · rename_i hkept
      simp only [not_or] at hkept
      simp only [Finset.mem_biUnion, Option.mem_toFinset, Option.mem_def,
        hinv.ids.binarySearch_eq_some, hid, Option.some.injEq, hkept.1, not_false_eq_true,
        true_and]
      constructor
      · rintro ⟨rowId, hmem, rfl⟩
        exact hmem
      · intro hmem
        exact ⟨_, hmem, rfl⟩

theorem mem_foldl_union_map {α : Type} {f : α → Finset Nat} {xs : List α} {start : Finset Nat}
    {n : Nat} : n ∈ xs.foldl (fun found x => found ∪ f x) start ↔
      n ∈ start ∨ ∃ x ∈ xs, n ∈ f x := by
  induction xs generalizing start with
  | nil => simp
  | cons x xs ih => simp [ih, or_assoc]

theorem exists_mem_iff_of_forall₂ {α : Type} {R : α → α → Prop} {P Q : α → Prop} {xs ys : List α}
    (h : List.Forall₂ R xs ys) (hPQ : ∀ x y, R x y → (P x ↔ Q y)) :
    (∃ x ∈ xs, P x) ↔ ∃ y ∈ ys, Q y := by
  induction h with
  | nil => simp
  | cons hxy _ ih =>
    simp only [List.mem_cons, or_and_right, exists_or, exists_eq_left]
    exact or_congr (hPQ _ _ hxy) ih

theorem Table.mem_uniqueConflictPositions (row : Row) {position : Nat} :
    position ∈ table.uniqueConflictPositions H row ↔
      ∃ index ∈ table.indexValues H, index.definition.unique = true ∧
        position ∈ table.conflictsIn H row index := by
  rw [Table.uniqueConflictPositions, mem_foldl_union_map]
  simp [and_assoc]

/-- **An INSERT** meets the same conflicts. -/
theorem Table.SameView.conflictPositions (h : table.SameView table')
    (hs : table.Sound H inserted) (hs' : table'.Sound H inserted) (row : Row) :
    conflictPositions H table' row = conflictPositions H table row := by
  have hlength := h.length_rowIds hs hs'
  have hpaired := h.indexValues hs hs'
  rw [Sql.conflictPositions, Sql.conflictPositions, hlength]
  refine List.filter_congr fun position hposition => ?_
  rw [List.mem_range] at hposition
  rw [decide_eq_decide, Table.mem_uniqueConflictPositions, Table.mem_uniqueConflictPositions]
  have hsame : ∀ {index index'}, PairedIndex id table table' index index' →
      (position ∈ table'.conflictsIn H row index' ↔ position ∈ table.conflictsIn H row index) := by
    rintro index index' ⟨hdefinition, name, hlookup, hlookup'⟩
    rw [IndexDef.overColumns_id] at hdefinition
    rw [Table.mem_conflictsIn hs.ok.repInv hlookup row hposition,
      Table.mem_conflictsIn hs'.ok.repInv hlookup' row (hlength ▸ hposition), hdefinition, h.schema]
    simp only [h.keyAt]
  refine (exists_mem_iff_of_forall₂ hpaired fun index index' hindex => ?_).symm
  rw [hsame hindex, hindex.1, IndexDef.overColumns_id]

end Positions

end Sql
end RustyDB
