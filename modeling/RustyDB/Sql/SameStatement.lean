import Mathlib
import RustyDB.Sql.SameTables

/-!
# Statements on catalogs that look the same

A write that succeeds on one catalog of sound tables succeeds on every other that
has the same names, schemas and rows, with the same result, and the two look the
same after it: row identifiers, Bloom filters and index layouts never show.

* `alterTable_same`, `applyAlterOperations_same` — the operations of ALTER TABLE.
* `insertRows_same` — the row loop of an INSERT.
* `keepRows_same` — the loop of a DELETE.
* `executeCatalog_same` — **one write.**
-/

namespace RustyDB
namespace Sql

open KeyedIndex

variable {H : Host} {tables tables' : Tables} {table table' : Table} {inserted : Nat}

/-! ## Schema changes -/

/-- What is seen of the table that an operation leaves. -/
def seen (altered : Except Fault (Option Table)) :
    Except Fault (Option (TableSchema × List Row)) :=
  altered.map (Option.map fun table => (table.schema, table.rows))

theorem Table.SameView.rebuildIndex (h : table.SameView table') :
    (table.rebuildIndex H).SameView (table'.rebuildIndex H) := ⟨h.schema, h.rows⟩

theorem Table.SameView.refresh (h : table.SameView table') :
    (refreshConstraintMetadata H table).SameView (refreshConstraintMetadata H table') :=
  ⟨congrArg refreshSchema h.schema, h.rows⟩

/-- **One operation** leaves tables that look the same, or fails alike. -/
theorem alterTable_same (h : tables.SameView tables') (hview : table.SameView table')
    (tableName : String) (operation : AlterOperation) :
    seen (alterTable H tables' tableName table' operation) =
      seen (alterTable H tables tableName table operation) := by
  obtain ⟨schema, rows, rowIds, nextRowId, indexes, rate⟩ := table
  obtain ⟨schema', rows', rowIds', nextRowId', indexes', rate'⟩ := table'
  obtain ⟨hschema, hrows⟩ := hview
  simp only at hschema hrows
  subst hschema hrows
  cases operation with
  | addColumn column constraints ifNotExists =>
    simp only [alterTable, addColumn]
    repeat' split
    all_goals rfl
  | dropColumn name ifExists =>
    have hinbound : ((tables'.inOrder H).any fun entry => entry.1 != tableName &&
          entry.2.schema.constraints.any (refersTo tableName name)) =
        (tables.inOrder H).any fun entry => entry.1 != tableName &&
          entry.2.schema.constraints.any (refersTo tableName name) := by
      have horder := h.inOrder (H := H)
      generalize tables.inOrder H = entries at horder ⊢
      generalize tables'.inOrder H = entries' at horder ⊢
      induction horder with
      | nil => rfl
      | cons hentry _ ih => simp only [List.any_cons, ih, hentry.1, hentry.2.1.schema]
    simp only [alterTable, dropColumn, hinbound]
    split
    · rfl
    · split
      · rfl
      · split
        · rfl
        · simp only [seen, Result.map_bind]
          rfl
  | renameColumn oldName newName =>
    simp only [alterTable, renameColumn, seen]
    split
    · rfl
    · simp only [Result.map_bind]
      rfl
  | modifyColumn oldName column constraints =>
    simp only [alterTable, modifyColumn, seen, Result.map_bind]
    rfl
  | setDefault column value =>
    simp only [alterTable, setDefault, seen, Result.map_bind]
    congr 1
    funext index
    repeat' split
    all_goals rfl
  | setNullable column nullable =>
    simp only [alterTable, setNullable, seen, Result.map_bind]
    congr 1
    funext index
    split
    · rfl
    · split
      · split <;> rfl
      · simp only [Result.map_bind]
        congr 1
        funext found
        split <;> rfl
  | setDataType column dataType =>
    simp only [alterTable, setDataType, seen, Result.map_bind]
    congr 1
    funext index
    congr 1
    funext rows
    split
    · rfl
    · simp only [Result.map_bind]
      rfl
  | addConstraint constraint =>
    simp only [alterTable, addConstraint, seen]
    split
    · rfl
    · split
      · rfl
      · split
        · rfl
        · simp only [Result.map_bind]
          rfl
  | dropConstraint name ifExists =>
    simp only [alterTable, dropConstraint, seen]
    split
    · rfl
    · split <;> rfl
  | dropPrimaryKey =>
    simp only [alterTable, dropPrimaryKey, seen]
    split <;> rfl

theorem alterOthers_same (h : tables.SameView tables') (tableName : String)
    (operation : AlterOperation) :
    Tables.SameView (alterOthers H tables tableName operation)
      (alterOthers H tables' tableName operation) := by
  cases operation with
  | renameColumn oldName newName =>
    simp only [alterOthers, renameInOthers]
    refine h.mapValues fun name table table' hview => ?_
    simp only [hview.schema]
    split
    · exact hview
    · split
      · exact Table.SameView.refresh ⟨rfl, hview.rows⟩
      · exact hview
  | _ => exact h

theorem applyAlterOperation_same (h : tables.SameView tables') (hview : table.SameView table')
    {tableName : String} {operation : AlterOperation} {others : Tables} {altered : Table}
    (halter : applyAlterOperation H tables tableName table operation = .ok (others, altered)) :
    ∃ others' altered', applyAlterOperation H tables' tableName table' operation =
      .ok (others', altered') ∧ others.SameView others' ∧ altered.SameView altered' := by
  have hsame := alterTable_same (H := H) h hview tableName operation
  unfold applyAlterOperation at halter ⊢
  obtain ⟨found, hfound, halter⟩ := Result.bind_eq_ok.mp halter
  rw [hfound] at hsame
  obtain ⟨found', hfound', hseen⟩ := Result.map_eq_ok.mp hsame
  rw [hfound', Result.ok_bind]
  cases found with
  | none =>
    simp only [Result.pure_eq_ok, Except.ok.injEq, Prod.mk.injEq] at halter
    obtain ⟨rfl, rfl⟩ := halter
    rw [Option.map_none, Option.map_eq_none_iff] at hseen
    subst hseen
    exact ⟨tables', table', rfl, h, hview⟩
  | some found =>
    simp only [Result.pure_eq_ok, Except.ok.injEq, Prod.mk.injEq] at halter
    obtain ⟨rfl, rfl⟩ := halter
    rw [Option.map_some] at hseen
    obtain ⟨found', rfl, hpair⟩ := Option.map_eq_some_iff.mp hseen
    obtain ⟨hschema, hrows⟩ := Prod.mk.inj hpair
    exact ⟨_, _, rfl, alterOthers_same h tableName operation,
      Table.SameView.refresh ⟨hschema, hrows⟩⟩

theorem applyAlterOperations_same (h : tables.SameView tables') (hview : table.SameView table')
    {tableName : String} {operations : List AlterOperation} {others : Tables} {altered : Table}
    (halter : applyAlterOperations H tableName tables table operations = .ok (others, altered)) :
    ∃ others' altered', applyAlterOperations H tableName tables' table' operations =
      .ok (others', altered') ∧ others.SameView others' ∧ altered.SameView altered' := by
  induction operations generalizing tables tables' table table' with
  | nil =>
    simp only [applyAlterOperations, Except.ok.injEq, Prod.mk.injEq] at halter
    obtain ⟨rfl, rfl⟩ := halter
    exact ⟨tables', table', rfl, h, hview⟩
  | cons operation operations ih =>
    obtain ⟨⟨next, nextTable⟩, hoperation, hrest⟩ := Result.bind_eq_ok.mp halter
    obtain ⟨next', nextTable', hoperation', hnext, hnextTable⟩ :=
      applyAlterOperation_same h hview hoperation
    obtain ⟨others', altered', hrest', hothers, haltered⟩ := ih hnext hnextTable hrest
    exact ⟨others', altered', by rw [applyAlterOperations, hoperation']; exact hrest', hothers,
      haltered⟩

/-! ## INSERT -/

theorem insertRowIndexed_same (hview : table.SameView table') {row : Row} {next : Table}
    (h : table.insertRowIndexed H row = .ok next) :
    ∃ next', table'.insertRowIndexed H row = .ok next' ∧ next.SameView next' := by
  obtain ⟨hvalid, rfl⟩ := Table.insertRowIndexed_eq_ok h
  obtain ⟨next', hnext'⟩ : ∃ next', table'.insertRowIndexed H row = .ok next' :=
    ⟨_, by rw [Table.insertRowIndexed, hview.schema, hvalid]; rfl⟩
  obtain ⟨-, rfl⟩ := Table.insertRowIndexed_eq_ok hnext'
  exact ⟨_, hnext', hview.schema, by simp only [hview.rows]⟩

theorem replaceRowIndexed_same (hview : table.SameView table')
    (hlength : table'.rowIds.length = table.rowIds.length) {position : Nat} {row : Row}
    {next : Table} (h : table.replaceRowIndexed H position row = .ok next) :
    ∃ next', table'.replaceRowIndexed H position row = .ok next' ∧ next.SameView next' := by
  obtain ⟨hvalid, previous, rowId, hrow, hid, rfl⟩ := Table.replaceRowIndexed_eq_ok h
  have hlt := (List.getElem?_eq_some_iff.mp hid).1
  have hid' := List.getElem?_eq_getElem (hlength ▸ hlt : position < table'.rowIds.length)
  obtain ⟨next', hnext'⟩ : ∃ next', table'.replaceRowIndexed H position row = .ok next' := by
    rw [Table.replaceRowIndexed, hview.schema, hvalid, Result.ok_bind, hview.rows, hrow, hid']
    exact ⟨_, rfl⟩
  obtain ⟨-, previous', rowId', -, -, rfl⟩ := Table.replaceRowIndexed_eq_ok hnext'
  exact ⟨_, hnext', hview.schema, by simp only [hview.rows]⟩

theorem applyDuplicateUpdates_same (hscans : SameScans H tables tables') (name : String)
    (schema : TableSchema) (incoming updated : Row) (assignments : List (String × Expr)) :
    applyDuplicateUpdates H tables' name schema incoming updated assignments =
      applyDuplicateUpdates H tables name schema incoming updated assignments := by
  induction assignments generalizing updated with
  | nil => rfl
  | cons assignment assignments ih =>
    obtain ⟨column, expression⟩ := assignment
    simp only [applyDuplicateUpdates, evalExpr_same hscans, ih]

/-- **One row of an INSERT.** -/
theorem insertRow_same (hscans : SameScans H tables tables') (hview : table.SameView table')
    (hs : table.Sound H inserted) (hs' : table'.Sound H inserted) {name : String}
    {onDuplicate : List (String × Expr)} {row : Row} {next : Table} {added : Nat}
    (h : insertRow H tables name onDuplicate table row = .ok (next, added)) :
    ∃ next', insertRow H tables' name onDuplicate table' row = .ok (next', added) ∧
      next.SameView next' := by
  unfold insertRow at h ⊢
  rw [hview.conflictPositions hs hs']
  cases hconflicts : conflictPositions H table row with
  | nil =>
    simp only [hconflicts] at h ⊢
    obtain ⟨filed, hfiled, h⟩ := Result.bind_eq_ok.mp h
    simp only [Result.pure_eq_ok, Except.ok.injEq, Prod.mk.injEq] at h
    obtain ⟨rfl, rfl⟩ := h
    obtain ⟨next', hnext', hsame⟩ := insertRowIndexed_same hview hfiled
    exact ⟨next', by rw [hnext']; rfl, hsame⟩
  | cons position others =>
    simp only [hconflicts, hview.rows, hview.schema, applyDuplicateUpdates_same hscans] at h ⊢
    split at h
    · simp [refuse] at h
    · rename_i hupdates
      rw [if_neg hupdates]
      split at h
      · simp [refuse] at h
      · rename_i hsingle
        rw [if_neg hsingle]
        split at h
        · simp at h
        · rename_i current hcurrent
          obtain ⟨updated, hupdated, h⟩ := Result.bind_eq_ok.mp h
          simp only [hupdated, Result.ok_bind]
          split at h
          · rename_i hequal
            simp only [Result.pure_eq_ok, Except.ok.injEq, Prod.mk.injEq] at h
            obtain ⟨rfl, rfl⟩ := h
            rw [if_pos hequal]
            exact ⟨table', rfl, hview⟩
          · rename_i hdiffer
            obtain ⟨replaced, hreplaced, h⟩ := Result.bind_eq_ok.mp h
            simp only [Result.pure_eq_ok, Except.ok.injEq, Prod.mk.injEq] at h
            obtain ⟨rfl, rfl⟩ := h
            obtain ⟨next', hnext', hsame⟩ :=
              replaceRowIndexed_same hview (hview.length_rowIds hs hs') hreplaced
            rw [if_neg hdiffer]
            exact ⟨next', by rw [hnext']; rfl, hsame⟩

theorem Table.Sound.mono (h : table.Sound H inserted) {more : Nat} (hle : inserted ≤ more) :
    table.Sound H more :=
  ⟨h.ok.mono hle, h.backed, h.keys⟩

/-- Filing or merging one row keeps a table sound, as long as the counter has room. -/
theorem Table.Sound.insertRow (h : table.Sound H inserted) {name : String}
    {onDuplicate : List (String × Expr)} {row : Row} {next : Table} {added : Nat}
    (hrow : Sql.insertRow H tables name onDuplicate table row = .ok (next, added))
    (hroom : inserted + (next.rows.length - table.rows.length) < maxRowId) :
    next.Sound H (inserted + (next.rows.length - table.rows.length)) := by
  have hgrown := insertRow_grown hrow
  have hcounter := h.ok.counter
  have hgrownCounter := hgrown.counter
  have hrows := hgrown.rows
  refine ⟨⟨insertRow_repInv hrow (by omega) h.ok.repInv, ?_, by omega⟩,
    insertRow_backed hrow h.backed, ?_⟩
  · rw [hgrown.schema]
    exact h.ok.named
  · rw [hgrown.schema, ← h.keys]
    rcases insertRow_ok hrow with ⟨hrow, -⟩ | ⟨position, updated, hrow⟩ | rfl
    · obtain ⟨-, rfl⟩ := Table.insertRowIndexed_eq_ok hrow
      simp
    · obtain ⟨-, previous, rowId, -, -, rfl⟩ := Table.replaceRowIndexed_eq_ok hrow
      simp
    · rfl

/-- **The row loop of an INSERT**, by induction over its rows. -/
theorem insertRows_same (hscans : SameScans H tables tables') {name : String}
    {onDuplicate : List (String × Expr)} {rows : List Row} {next : Table} {count count' : Nat}
    (hview : table.SameView table') (hs : table.Sound H inserted) (hs' : table'.Sound H inserted)
    (h : insertRows H tables name onDuplicate table count rows = .ok (next, count'))
    (hroom : inserted + (next.rows.length - table.rows.length) < maxRowId) :
    ∃ next', insertRows H tables' name onDuplicate table' count rows = .ok (next', count') ∧
      next.SameView next' ∧
      next.Sound H (inserted + (next.rows.length - table.rows.length)) ∧
      next'.Sound H (inserted + (next.rows.length - table.rows.length)) := by
  induction rows generalizing table table' count inserted with
  | nil =>
    simp only [insertRows, Except.ok.injEq, Prod.mk.injEq] at h
    obtain ⟨rfl, rfl⟩ := h
    rw [Nat.sub_self, Nat.add_zero]
    exact ⟨table', rfl, hview, hs, hs'⟩
  | cons row rows ih =>
    obtain ⟨⟨middle, added⟩, hrow, hrest⟩ := Result.bind_eq_ok.mp h
    have hlen := (insertRow_grown hrow).rows
    have hlen' := (insertRows_grown hrest).rows
    obtain ⟨middle', hrow', hmiddle⟩ := insertRow_same hscans hview hs hs' hrow
    have hgrowth : middle'.rows.length - table'.rows.length =
        middle.rows.length - table.rows.length := by rw [hmiddle.rows, hview.rows]
    have hsmiddle := hs.insertRow hrow (by omega)
    have hsmiddle' := hs'.insertRow hrow' (by omega)
    rw [hgrowth] at hsmiddle'
    obtain ⟨next', hrest', hsame, hfirst, hsecond⟩ :=
      ih hmiddle hsmiddle hsmiddle' hrest (by omega)
    have htotal : inserted + (middle.rows.length - table.rows.length) +
        (next.rows.length - middle.rows.length) =
        inserted + (next.rows.length - table.rows.length) := by omega
    rw [htotal] at hfirst hsecond
    exact ⟨next', by rw [insertRows, hrow']; exact hrest', hsame, hfirst, hsecond⟩

/-! ## UPDATE and DELETE -/

theorem affects_same (hscans : SameScans H tables tables') (hview : table.SameView table')
    (hs : table.Sound H inserted) (hs' : table'.Sound H inserted) (name : String)
    (selection : Option Expr) (entry : Row × Nat) :
    affects H tables' name table' (table'.candidateRowIds H selection) selection entry =
      affects H tables name table (table.candidateRowIds H selection) selection entry := by
  have hselects : selectsRow H tables' name table.schema selection entry.1 =
      selectsRow H tables name table.schema selection entry.1 := by
    cases selection with
    | none => rfl
    | some expr => simp only [selectsRow, evalExpr_same hscans]
  simp only [affects, hview.isCandidate hs hs', hview.schema, hselects]

theorem applyAssignments_same (hscans : SameScans H tables tables') (name : String)
    (schema : TableSchema) (original row : Row) (assignments : List (String × Expr)) :
    applyAssignments H tables' name schema original row assignments =
      applyAssignments H tables name schema original row assignments := by
  induction assignments generalizing row with
  | nil => rfl
  | cons assignment assignments ih =>
    obtain ⟨column, expression⟩ := assignment
    simp only [applyAssignments, evalExpr_same hscans, ih]

theorem updateRows_same (hscans : SameScans H tables tables') (hview : table.SameView table')
    (hs : table.Sound H inserted) (hs' : table'.Sound H inserted) (name : String)
    (assignments : List (String × Expr)) (selection : Option Expr) :
    table'.rows.zipIdx.mapM (updateRow H tables' name table' (table'.candidateRowIds H selection)
      assignments selection) =
    table.rows.zipIdx.mapM (updateRow H tables name table (table.candidateRowIds H selection)
      assignments selection) := by
  rw [hview.rows]
  refine Result.mapM_congr fun entry _ => ?_
  simp only [updateRow, affects_same hscans hview hs hs', hview.schema,
    applyAssignments_same hscans]

/-- Two rounds of the DELETE loop keep the same row, or none. -/
def SameKept (kept kept' : Option (Row × Nat)) : Prop := kept'.map Prod.fst = kept.map Prod.fst

/-- **The DELETE loop** keeps the same rows. -/
theorem keepRows_same (hscans : SameScans H tables tables') (hview : table.SameView table')
    (hs : table.Sound H inserted) (hs' : table'.Sound H inserted) {name : String}
    {selection : Option Expr} {entries : List (Row × Nat)}
    (hentries : ∀ entry ∈ entries, entry.2 < table.rows.length)
    {kept : List (Option (Row × Nat))}
    (h : entries.mapM (keepRow H tables name table (table.candidateRowIds H selection) selection) =
      .ok kept) :
    ∃ kept', entries.mapM
        (keepRow H tables' name table' (table'.candidateRowIds H selection) selection) =
        .ok kept' ∧ List.Forall₂ SameKept kept kept' := by
  have hrounds := Result.mapM_eq_ok.mp h
  simp only [Result.mapM_eq_ok]
  clear h
  induction hrounds with
  | nil => exact ⟨[], List.Forall₂.nil, List.Forall₂.nil⟩
  | @cons entry o entries kept hround _ ih =>
    obtain ⟨kept', hrounds', hsame⟩ := ih fun e he => hentries e (List.mem_cons_of_mem _ he)
    have hlt : entry.2 < table'.rowIds.length := by
      rw [hs'.ok.repInv.ids.lengths, hview.rows]
      exact hentries entry (by simp)
    obtain ⟨deleted, hdeleted, hround⟩ := Result.bind_eq_ok.mp hround
    have hdeleted' := (affects_same hscans hview hs hs' name selection entry).trans hdeleted
    cases deleted with
    | true =>
      simp only [if_true, Result.pure_eq_ok, Except.ok.injEq] at hround
      subst hround
      refine ⟨none :: kept', List.Forall₂.cons ?_ hrounds', List.Forall₂.cons rfl hsame⟩
      rw [keepRow, hdeleted']
      rfl
    | false =>
      simp only [Bool.false_eq_true, if_false] at hround
      have ho : o.map Prod.fst = some entry.1 := by
        split at hround
        · simp only [Result.pure_eq_ok, Except.ok.injEq] at hround
          rw [← hround]
          rfl
        · simp at hround
      refine ⟨some (entry.1, table'.rowIds[entry.2]) :: kept', List.Forall₂.cons ?_ hrounds',
        List.Forall₂.cons ho.symm hsame⟩
      rw [keepRow, hdeleted', Result.ok_bind]
      simp only [Bool.false_eq_true, if_false, List.getElem?_eq_getElem hlt, Result.pure_eq_ok]

theorem sameKept_rows {kept kept' : List (Option (Row × Nat))}
    (h : List.Forall₂ SameKept kept kept') :
    (kept'.filterMap id).map Prod.fst = (kept.filterMap id).map Prod.fst ∧
      (kept'.filter Option.isNone).length = (kept.filter Option.isNone).length := by
  induction h with
  | nil => exact ⟨rfl, rfl⟩
  | @cons o o' kept kept' ho _ ih =>
    cases o with
    | none =>
      rw [SameKept, Option.map_none, Option.map_eq_none_iff] at ho
      subst ho
      simpa using ih
    | some entry =>
      rw [SameKept, Option.map_some] at ho
      obtain ⟨entry', rfl, hfst⟩ := Option.map_eq_some_iff.mp ho
      simpa [hfst] using ih

/-! ## Statements -/

theorem Tables.Sound.mono (h : tables.Sound H inserted) {more : Nat} (hle : inserted ≤ more) :
    tables.Sound H more :=
  fun name table hlookup => (h name table hlookup).mono hle

/-- A sound table with other rows, rebuilt. -/
theorem Table.Sound.rebuildIndex (h : table.Sound H inserted) {rows : List Row}
    {rowIds : List Nat} (hids : ({ table with rows, rowIds } : Table).IdsOrdered) :
    (Table.rebuildIndex H { table with rows, rowIds }).Sound H inserted :=
  ⟨Table.ok_rebuildIndex { table with rows, rowIds } hids h.ok.named h.ok.counter,
    Table.backed_rebuildIndex h.backed.backed, Table.keys_rebuildIndex⟩

theorem Tables.SameView.isSome_lookup (h : tables.SameView tables') (name : String) :
    (tables'.lookup name).isSome = (tables.lookup name).isSome := by
  rcases h.cases name with ⟨hnone, hnone'⟩ | ⟨table, table', hlookup, hlookup', -⟩
  · rw [hnone, hnone']
  · rw [hlookup, hlookup']
    rfl

/-- Publishing tables that look the same. -/
theorem publishTable_same (h : tables.SameView tables') (hs : tables.Sound H inserted)
    (hs' : tables'.Sound H inserted) (hview : table.SameView table')
    (ht : table.Sound H inserted) (ht' : table'.Sound H inserted) {name : String} {count : Nat}
    {result : ExecutionResult} {next : Tables}
    (hpublish : publishTable H tables name table count = .ok (result, next)) :
    ∃ next', publishTable H tables' name table' count = .ok (result, next') ∧
      next.SameView next' := by
  obtain ⟨rfl, hvalid, rfl⟩ := publishTable_ok hpublish
  have hsame := h.insert name hview
  refine ⟨tables'.insert name table', ?_, hsame⟩
  rw [publishTable, hsame.validateCatalog (hs.insert ht) (hs'.insert ht'), hvalid]
  rfl

theorem executeCreateTable_same (h : tables.SameView tables') {tableName : String}
    {columns : List ColumnDef} {constraints : List TableConstraint} {ifNotExists : Bool}
    {result : ExecutionResult} {next : Tables}
    (hexecute : executeCreateTable H tables tableName columns constraints ifNotExists =
      .ok (result, next)) :
    ∃ next', executeCreateTable H tables' tableName columns constraints ifNotExists =
      .ok (result, next') ∧ next.SameView next' := by
  simp only [executeCreateTable, h.isSome_lookup] at hexecute ⊢
  split at hexecute
  · rename_i hexists
    rw [if_pos hexists]
    split at hexecute
    · rename_i hif
      cases hexecute
      exact ⟨tables', by rw [if_pos hif], h⟩
    · simp [refuse] at hexecute
  · rename_i hexists
    rw [if_neg hexists]
    split at hexecute
    · simp [refuse] at hexecute
    · obtain ⟨⟨flagged, primaryKeys⟩, hflagged, hexecute⟩ := Result.bind_eq_ok.mp hexecute
      simp only [hflagged, Result.ok_bind]
      split at hexecute
      · simp [refuse] at hexecute
      · rename_i hkeys
        simp only [Result.pure_eq_ok, Except.ok.injEq, Prod.mk.injEq] at hexecute
        obtain ⟨rfl, rfl⟩ := hexecute
        exact ⟨_, by rw [if_neg hkeys]; rfl, h.insert _ (Table.SameView.refl _)⟩

theorem executeDropTable_same (h : tables.SameView tables') {tableName : String} {ifExists : Bool}
    {result : ExecutionResult} {next : Tables}
    (hexecute : executeDropTable H tables tableName ifExists = .ok (result, next)) :
    ∃ next', executeDropTable H tables' tableName ifExists = .ok (result, next') ∧
      next.SameView next' := by
  have hnone : ∀ name, (tables'.lookup name).isNone = (tables.lookup name).isNone := fun name => by
    rw [← Option.not_isSome, ← Option.not_isSome, h.isSome_lookup]
  simp only [executeDropTable, hnone] at hexecute ⊢
  split at hexecute
  · rename_i hmissing
    rw [if_pos hmissing]
    split at hexecute
    · rename_i hif
      cases hexecute
      exact ⟨tables', by rw [if_pos hif], h⟩
    · simp [refuse] at hexecute
  · rename_i hmissing
    rw [if_neg hmissing]
    split at hexecute
    · simp [refuse] at hexecute
    · rename_i hfree
      cases hexecute
      have hfree' : (tables'.inOrder H).find? (fun entry =>
          entry.1 != toAsciiLowercase tableName && entry.2.schema.constraints.any
            (references (toAsciiLowercase tableName))) = none := by
        have horder := h.inOrder (H := H)
        generalize tables.inOrder H = entries at horder hfree
        generalize tables'.inOrder H = entries' at horder ⊢
        induction horder with
        | nil => rfl
        | cons hentry _ ih =>
          rw [List.find?_cons] at hfree ⊢
          rw [hentry.1, hentry.2.1.schema]
          split at hfree
          · simp at hfree
          · exact ih hfree
      exact ⟨tables'.erase _, by rw [hfree'], h.erase _⟩

/-- A sound table with one more index over its columns. -/
theorem Table.Sound.addIndex (h : table.Sound H inserted) (definition : IndexDef)
    (hcolumns : ∀ column ∈ definition.columns, table.schema.HasColumn column) :
    (Table.rebuildIndex H { table with schema := { table.schema with
      indexes := table.schema.indexes ++ [definition] } }).Sound H inserted := by
  have hids := h.ok.repInv.ids
  refine ⟨Table.ok_rebuildIndex _ ⟨hids.lengths, hids.increasing, hids.below⟩
    ⟨h.ok.named.constraints, ?_⟩ h.ok.counter, Table.backed_rebuildIndex ?_,
    Table.keys_rebuildIndex⟩
  · intro found hmem column hcolumn
    rcases List.mem_append.mp hmem with hmem | hmem
    · exact h.ok.named.indexes found hmem column hcolumn
    · exact hcolumns column (List.mem_singleton.mp hmem ▸ hcolumn)
  · exact fun constraint hmem found hfound =>
      List.mem_append_left _ (h.backed.backed constraint hmem found hfound)

theorem executeCreateIndex_same (h : tables.SameView tables') (hs : tables.Sound H inserted)
    (hs' : tables'.Sound H inserted) {name tableName : String} {columns : List String}
    {unique ifNotExists : Bool} {result : ExecutionResult} {next : Tables}
    (hexecute : executeCreateIndex H tables name tableName columns unique ifNotExists =
      .ok (result, next)) :
    ∃ next', executeCreateIndex H tables' name tableName columns unique ifNotExists =
      .ok (result, next') ∧ next.SameView next' := by
  simp only [executeCreateIndex] at hexecute ⊢
  rcases h.cases (toAsciiLowercase tableName) with ⟨hnone, -⟩ |
    ⟨existing, existing', hlookup, hlookup', hview⟩
  · simp [hnone, refuse] at hexecute
  · simp only [hlookup, hlookup', hview.schema] at hexecute ⊢
    split at hexecute
    · rename_i hexists
      rw [if_pos hexists]
      split at hexecute
      · rename_i hif
        cases hexecute
        exact ⟨tables', by rw [if_pos hif], h⟩
      · simp [refuse] at hexecute
    · rename_i hexists
      rw [if_neg hexists]
      split at hexecute
      · simp [refuse] at hexecute
      · rename_i hcolumns
        rw [if_neg hcolumns]
        split at hexecute
        · simp [refuse] at hexecute
        · rename_i hknown
          obtain ⟨⟨⟩, hunique, hexecute⟩ := Result.bind_eq_ok.mp hexecute
          simp only [Result.pure_eq_ok, Except.ok.injEq, Prod.mk.injEq] at hexecute
          obtain ⟨rfl, rfl⟩ := hexecute
          have hcolumn : ∀ column ∈ columns, existing.schema.HasColumn column := fun column hc => by
            have hsome := List.find?_eq_none.mp hknown column hc
            rw [Bool.not_eq_true, Option.isNone_eq_false_iff] at hsome
            exact TableSchema.isSome_columnIndex.mp hsome
          have hsound := (hs _ existing hlookup).addIndex
            ⟨toAsciiLowercase name, columns, unique, false⟩ hcolumn
          have hsound' := (hs' _ existing' hlookup').addIndex
            ⟨toAsciiLowercase name, columns, unique, false⟩ (by rw [hview.schema]; exact hcolumn)
          rw [hview.schema] at hsound'
          have hsame : (Table.rebuildIndex H { existing with schema := { existing.schema with
              indexes := existing.schema.indexes ++
                [⟨toAsciiLowercase name, columns, unique, false⟩] } }).SameView
              (Table.rebuildIndex H { existing' with schema := { existing.schema with
              indexes := existing.schema.indexes ++
                [⟨toAsciiLowercase name, columns, unique, false⟩] } }) :=
            ⟨rfl, hview.rows⟩
          refine ⟨_, ?_, h.insert _ hsame⟩
          rw [hsame.validateUniqueIndexes hsound hsound', hunique]
          rfl

theorem executeDropIndex_same (h : tables.SameView tables') {name tableName : String}
    {ifExists : Bool} {result : ExecutionResult} {next : Tables}
    (hexecute : executeDropIndex H tables name tableName ifExists = .ok (result, next)) :
    ∃ next', executeDropIndex H tables' name tableName ifExists = .ok (result, next') ∧
      next.SameView next' := by
  simp only [executeDropIndex] at hexecute ⊢
  rcases h.cases (toAsciiLowercase tableName) with ⟨hnone, -⟩ |
    ⟨existing, existing', hlookup, hlookup', hview⟩
  · simp [hnone, refuse] at hexecute
  · simp only [hlookup, hlookup', hview.schema] at hexecute ⊢
    split at hexecute
    · split at hexecute
      · rename_i hif
        cases hexecute
        exact ⟨tables', by rw [if_pos hif], h⟩
      · simp [refuse] at hexecute
    · split at hexecute
      · simp [refuse] at hexecute
      · rename_i hmanual
        cases hexecute
        refine ⟨_, by rw [if_neg hmanual], ?_⟩
        exact h.insert _ ⟨rfl, hview.rows⟩

theorem executeAlterTable_same (h : tables.SameView tables') {tableName : String}
    {operations : List AlterOperation} {result : ExecutionResult} {next : Tables}
    (hexecute : executeAlterTable H tables tableName operations = .ok (result, next)) :
    ∃ next', executeAlterTable H tables' tableName operations = .ok (result, next') ∧
      next.SameView next' := by
  simp only [executeAlterTable] at hexecute ⊢
  rcases h.cases (toAsciiLowercase tableName) with ⟨hnone, -⟩ |
    ⟨existing, existing', hlookup, hlookup', hview⟩
  · simp [hnone, refuse] at hexecute
  · simp only [hlookup, hlookup'] at hexecute ⊢
    obtain ⟨⟨others, altered⟩, halter, hexecute⟩ := Result.bind_eq_ok.mp hexecute
    simp only [Result.pure_eq_ok, Except.ok.injEq, Prod.mk.injEq] at hexecute
    obtain ⟨rfl, rfl⟩ := hexecute
    obtain ⟨others', altered', halter', hothers, haltered⟩ :=
      applyAlterOperations_same h hview halter
    exact ⟨_, by rw [halter']; rfl, hothers.insert _ haltered.refresh⟩

theorem insertValues_same (hscans : SameScans H tables tables') (source : InsertSource) :
    insertValues H tables' source = insertValues H tables source := by
  cases source with
  | values values => rfl
  | query query => simp only [insertValues, executeQuery_same hscans]

theorem executeInsert_same (h : tables.SameView tables') (hs : tables.Sound H inserted)
    (hs' : tables'.Sound H inserted) {tableName : String} {columns : Option (List String)}
    {source : InsertSource} {onDuplicate : List (String × Expr)} {result : ExecutionResult}
    {next : Tables}
    (hexecute : executeInsert H tables tableName columns source onDuplicate = .ok (result, next))
    (hbound : inserted + insertedRows tables next (.insert tableName columns source onDuplicate) <
      maxRowId) :
    ∃ next', executeInsert H tables' tableName columns source onDuplicate =
      .ok (result, next') ∧ next.SameView next' := by
  have hscans := h.scans hs hs'
  obtain ⟨values, existing, table, rows, count, hvalues, hlookup, hrows, hinsert, rfl, hvalid,
    rfl⟩ := executeInsert_ok hexecute
  rcases h.cases (toAsciiLowercase tableName) with ⟨hnone, -⟩ |
    ⟨found, existing', hfound, hlookup', hview⟩
  · rw [hlookup] at hnone
    cases hnone
  · rw [hlookup, Option.some.injEq] at hfound
    subst hfound
    have hgrowth : insertedRows tables (tables.insert (toAsciiLowercase tableName) table)
        (.insert tableName columns source onDuplicate) =
        table.rows.length - existing.rows.length := by
      simp [insertedRows, rowCount, hlookup]
    rw [hgrowth] at hbound
    obtain ⟨table', hinsert', hsame, ht, ht'⟩ := insertRows_same hscans hview
      (hs _ existing hlookup) (hs' _ existing' hlookup') hinsert hbound
    have hpublish : publishTable H tables (toAsciiLowercase tableName) table count =
        .ok (.rowsAffected count, tables.insert (toAsciiLowercase tableName) table) := by
      rw [publishTable, hvalid]
      rfl
    obtain ⟨next', hnext', hnext⟩ := publishTable_same h (hs.mono (Nat.le_add_right _ _))
      (hs'.mono (Nat.le_add_right _ _)) hsame ht ht' hpublish
    refine ⟨next', ?_, hnext⟩
    simp only [executeInsert, insertValues_same hscans, hvalues, Result.ok_bind, hlookup',
      hview.schema, hrows, hinsert', hnext']

theorem executeUpdate_same (h : tables.SameView tables') (hs : tables.Sound H inserted)
    (hs' : tables'.Sound H inserted) {tableName : String} {assignments : List (String × Expr)}
    {selection : Option Expr} {result : ExecutionResult} {next : Tables}
    (hexecute : executeUpdate H tables tableName assignments selection = .ok (result, next)) :
    ∃ next', executeUpdate H tables' tableName assignments selection = .ok (result, next') ∧
      next.SameView next' := by
  have hscans := h.scans hs hs'
  simp only [executeUpdate] at hexecute ⊢
  rcases h.cases (toAsciiLowercase tableName) with ⟨hnone, -⟩ |
    ⟨table, table', hlookup, hlookup', hview⟩
  · simp [hnone, refuse] at hexecute
  · have ht := hs _ table hlookup
    have ht' := hs' _ table' hlookup'
    simp only [hlookup, hlookup', updateRows_same hscans hview ht ht'] at hexecute ⊢
    obtain ⟨updated, hupdated, hexecute⟩ := Result.bind_eq_ok.mp hexecute
    rw [hupdated, Result.ok_bind]
    have hids : ∀ {table : Table}, table.IdsOrdered → table.rows.length = updated.length →
        ({ table with rows := updated.map Prod.fst } : Table).IdsOrdered := fun hids hlen =>
      ⟨by simpa [hlen] using hids.lengths, hids.increasing, hids.below⟩
    have hlen : table.rows.length = updated.length := by simp [Result.length_of_mapM hupdated]
    refine publishTable_same h hs hs' ?_ (ht.rebuildIndex (hids ht.ok.repInv.ids hlen))
      (ht'.rebuildIndex (hids ht'.ok.repInv.ids (by rw [hview.rows, hlen]))) hexecute
    exact ⟨hview.schema, rfl⟩

theorem executeDelete_same (h : tables.SameView tables') (hs : tables.Sound H inserted)
    (hs' : tables'.Sound H inserted) {tableName : String} {selection : Option Expr}
    {result : ExecutionResult} {next : Tables}
    (hexecute : executeDelete H tables tableName selection = .ok (result, next)) :
    ∃ next', executeDelete H tables' tableName selection = .ok (result, next') ∧
      next.SameView next' := by
  have hscans := h.scans hs hs'
  simp only [executeDelete] at hexecute ⊢
  rcases h.cases (toAsciiLowercase tableName) with ⟨hnone, -⟩ |
    ⟨table, table', hlookup, hlookup', hview⟩
  · simp [hnone, refuse] at hexecute
  · have ht := hs _ table hlookup
    have ht' := hs' _ table' hlookup'
    simp only [hlookup, hlookup'] at hexecute ⊢
    obtain ⟨kept, hkept, hexecute⟩ := Result.bind_eq_ok.mp hexecute
    have hentries : ∀ entry ∈ table.rows.zipIdx, entry.2 < table.rows.length := fun entry he => by
      exact (List.getElem?_eq_some_iff.mp (List.mem_zipIdx_iff_getElem?.mp he)).1
    obtain ⟨kept', hkept', hsame⟩ := keepRows_same hscans hview ht ht' hentries hkept
    rw [← hview.rows] at hkept'
    obtain ⟨hrows, hcount⟩ := sameKept_rows hsame
    rw [hkept', Result.ok_bind, hcount]
    refine publishTable_same h hs hs' ?_
      (ht.rebuildIndex (Table.idsOrdered_keepRows ht.ok.repInv.ids hkept))
      (ht'.rebuildIndex (Table.idsOrdered_keepRows ht'.ok.repInv.ids hkept')) hexecute
    exact ⟨hview.schema, hrows⟩

/-- A write does the same on both catalogs. -/
theorem executeStatement_same (h : tables.SameView tables') (hs : tables.Sound H inserted)
    (hs' : tables'.Sound H inserted) {statement : Statement} (hwrite : isWriteStatement statement)
    {result : ExecutionResult} {next : Tables}
    (hexecute : executeStatement H tables statement = .ok (result, next))
    (hbound : inserted + insertedRows tables next statement < maxRowId) :
    ∃ next', executeStatement H tables' statement = .ok (result, next') ∧
      next.SameView next' := by
  cases statement with
  | createTable tableName columns constraints ifNotExists =>
    exact executeCreateTable_same h hexecute
  | dropTable tableName ifExists => exact executeDropTable_same h hexecute
  | createIndex name tableName columns unique ifNotExists =>
    exact executeCreateIndex_same h hs hs' hexecute
  | dropIndex name tableName ifExists => exact executeDropIndex_same h hexecute
  | alterTable tableName operations => exact executeAlterTable_same h hexecute
  | insert tableName columns source onDuplicate =>
    exact executeInsert_same h hs hs' hexecute hbound
  | update tableName assignments selection => exact executeUpdate_same h hs hs' hexecute
  | delete tableName selection => exact executeDelete_same h hs hs' hexecute
  | _ => simp [isWriteStatement] at hwrite

theorem insertedRows_same (h : tables.SameView tables') {next next' : Tables}
    (hnext : next.SameView next') (statement : Statement) :
    insertedRows tables' next' statement = insertedRows tables next statement := by
  have hcount : ∀ {tables tables' : Tables}, tables.SameView tables' → ∀ name,
      rowCount tables' name = rowCount tables name := by
    intro tables tables' h name
    rcases h.cases name with ⟨hnone, hnone'⟩ | ⟨table, table', hlookup, hlookup', hview⟩
    · rw [rowCount, rowCount, hnone, hnone']
    · rw [rowCount, rowCount, hlookup, hlookup']
      simp only [Option.map_some, hview.rows]
  cases statement with
  | insert tableName columns source onDuplicate =>
    simp only [insertedRows, hcount h, hcount hnext]
  | _ => rfl

/-- **One write.**  It succeeds on a catalog that looks the same, with the same result,
and both catalogs are sound and look the same after it. -/
theorem executeCatalog_same (h : tables.SameView tables') (hs : tables.Sound H inserted)
    (hs' : tables'.Sound H inserted) {statement : Statement} (hparsed : statement.Parsed)
    (hwrite : isWriteStatement statement) {result : ExecutionResult} {next : Tables}
    (hexecute : executeCatalog H tables statement = .ok (result, next))
    (hbound : inserted + insertedRows tables next statement < maxRowId) :
    ∃ next', executeCatalog H tables' statement = .ok (result, next') ∧ next.SameView next' ∧
      next.Sound H (inserted + insertedRows tables next statement) ∧
      next'.Sound H (inserted + insertedRows tables next statement) := by
  obtain ⟨hstatement, hvalid⟩ := executeCatalog_ok hexecute
  obtain ⟨next', hstatement', hsame⟩ := executeStatement_same h hs hs' hwrite hstatement hbound
  have hnext := sound_step hparsed hstatement hbound hs
  have hrows := insertedRows_same h hsame statement
  have hnext' := sound_step hparsed hstatement' (by rw [hrows]; exact hbound) hs'
  rw [hrows] at hnext'
  refine ⟨next', ?_, hsame, hnext, hnext'⟩
  rw [executeCatalog, if_pos hwrite, hstatement', Result.ok_bind]
  simp only [hsame.validateCatalog hnext hnext', hvalid hwrite, Result.ok_bind, Result.pure_eq_ok]

end Sql
end RustyDB
