import Mathlib
import RustyDB.Sql.Persist
import RustyDB.Sql.WellFormed

/-!
# Multi-row INSERT

A multi-row INSERT finds conflicts through indexes that it maintains row by row, and the
checks of the catalog run once, after its last row.  Inserted one by one, the same rows
meet the checks after every row and, outside of a transaction, indexes rebuilt in between.

* `subqueries_bindIncoming`, `insertRow_congr` — without subqueries the row loop does
  not read the catalog.
* `Table.SameStored`, `insertRow_stored` — two tables that agree on all but their
  bookkeeping agree after one more row.
* `SingleInserts` — rows inserted by one statement each.
* `insert_rows_one_by_one` — **the multi-row statement does the same.**
-/

namespace RustyDB
namespace Sql

open KeyedIndex

variable {H : Host} {p : Process} {tables tables' : Tables} {inserted : Nat}

/-! ## Expressions without subqueries -/

mutual

/-- Only subqueries read the catalog, and depend on the process. -/
theorem evalExpr_of_subqueries_eq_nil (e : Expr) (hfree : subqueries e = [])
    (columns : List BoundColumn) (row : Row) (ctes : Ctes) :
    evalExpr (H.inProcess p) tables' e columns row none ctes =
      evalExpr H tables e columns row none ctes := by
  match e with
  | .literal _ => rfl
  | .parameter _ => rfl
  | .incoming _ => rfl
  | .column _ _ => rfl
  | .unary op expr =>
    rw [subqueries] at hfree
    simp only [evalExpr, evalExpr_of_subqueries_eq_nil expr hfree, evalUnary_inProcess]
  | .binary left op right =>
    rw [subqueries, List.append_eq_nil_iff] at hfree
    simp only [evalExpr, evalExpr_of_subqueries_eq_nil left hfree.1,
      evalExpr_of_subqueries_eq_nil right hfree.2, evalBinary_inProcess]
  | .isNull expr negated =>
    rw [subqueries] at hfree
    simp only [evalExpr, evalExpr_of_subqueries_eq_nil expr hfree]
  | .like expr pattern negated =>
    rw [subqueries, List.append_eq_nil_iff] at hfree
    simp only [evalExpr, evalExpr_of_subqueries_eq_nil expr hfree.1,
      evalExpr_of_subqueries_eq_nil pattern hfree.2, evalLike_inProcess]
  | .inList expr list negated =>
    rw [subqueries, List.append_eq_nil_iff] at hfree
    simp only [evalExpr, evalExpr_of_subqueries_eq_nil expr hfree.1,
      evalExprs_of_subqueriesOf_eq_nil list hfree.2, inValues_inProcess]
  | .inSubquery expr query negated => simp [subqueries] at hfree
  | .exist query negated => simp [subqueries] at hfree
  | .scalarSubquery query => simp [subqueries] at hfree
  | .aggregate function none distinct => simp only [evalExpr]
  | .aggregate function (some expr) distinct => simp only [evalExpr]

theorem evalExprs_of_subqueriesOf_eq_nil (exprs : List Expr) (hfree : subqueriesOf exprs = [])
    (columns : List BoundColumn) (row : Row) (ctes : Ctes) :
    evalExprs (H.inProcess p) tables' exprs columns row none ctes =
      evalExprs H tables exprs columns row none ctes := by
  match exprs with
  | [] => simp only [evalExprs]
  | expr :: exprs =>
    rw [subqueriesOf, List.append_eq_nil_iff] at hfree
    simp only [evalExprs, evalExpr_of_subqueries_eq_nil expr hfree.1,
      evalExprs_of_subqueriesOf_eq_nil exprs hfree.2]

end

mutual

/-- Binding VALUES(column) to the incoming row adds no subquery and removes none. -/
theorem subqueries_bindIncoming (schema : TableSchema) (incoming : Row) (e : Expr) :
    subqueries (bindIncoming schema incoming e) = subqueries e := by
  match e with
  | .literal _ => rfl
  | .parameter _ => rfl
  | .incoming _ => simp only [bindIncoming, subqueries]
  | .column _ _ => rfl
  | .unary op expr =>
    simp only [bindIncoming, subqueries, subqueries_bindIncoming schema incoming expr]
  | .binary left op right =>
    simp only [bindIncoming, subqueries, subqueries_bindIncoming schema incoming left,
      subqueries_bindIncoming schema incoming right]
  | .isNull expr negated =>
    simp only [bindIncoming, subqueries, subqueries_bindIncoming schema incoming expr]
  | .like expr pattern negated =>
    simp only [bindIncoming, subqueries, subqueries_bindIncoming schema incoming expr,
      subqueries_bindIncoming schema incoming pattern]
  | .inList expr list negated =>
    simp only [bindIncoming, subqueries, subqueries_bindIncoming schema incoming expr,
      subqueriesOf_bindIncomings schema incoming list]
  | .inSubquery expr query negated => simp only [bindIncoming]
  | .exist query negated => simp only [bindIncoming]
  | .scalarSubquery query => simp only [bindIncoming]
  | .aggregate function none distinct => simp only [bindIncoming]
  | .aggregate function (some expr) distinct => simp only [bindIncoming]

theorem subqueriesOf_bindIncomings (schema : TableSchema) (incoming : Row) (exprs : List Expr) :
    subqueriesOf (bindIncomings schema incoming exprs) = subqueriesOf exprs := by
  match exprs with
  | [] => simp only [bindIncomings]
  | expr :: exprs =>
    simp only [bindIncomings, subqueriesOf, subqueries_bindIncoming schema incoming expr,
      subqueriesOf_bindIncomings schema incoming exprs]

end

theorem applyDuplicateUpdates_congr (p : Process) (tables tables' : Tables) {name : String}
    {schema : TableSchema} {incoming updated : Row} {onDuplicate : List (String × Expr)}
    (hfree : SubqueryFree onDuplicate) :
    applyDuplicateUpdates (H.inProcess p) tables' name schema incoming updated onDuplicate =
      applyDuplicateUpdates H tables name schema incoming updated onDuplicate := by
  induction onDuplicate generalizing updated with
  | nil => rfl
  | cons assignment assignments ih =>
    obtain ⟨column, expression⟩ := assignment
    have hbound : subqueries (bindIncoming schema incoming expression) = [] := by
      rw [subqueries_bindIncoming]
      exact hfree (column, expression) (by simp)
    have hrest : SubqueryFree assignments :=
      fun other hmem => hfree other (List.mem_cons_of_mem _ hmem)
    simp only [applyDuplicateUpdates, ih hrest,
      @evalExpr_of_subqueries_eq_nil H p tables tables' _ hbound]

/-- **One row** is inserted alike into a table of either catalog. -/
theorem insertRow_congr (tables tables' : Tables) {name : String}
    {onDuplicate : List (String × Expr)} {table : Table} {row : Row}
    (hfree : SubqueryFree onDuplicate) :
    insertRow H tables' name onDuplicate table row =
      insertRow H tables name onDuplicate table row := by
  have hupdates : ∀ {schema incoming updated},
      applyDuplicateUpdates H tables' name schema incoming updated onDuplicate =
        applyDuplicateUpdates H tables name schema incoming updated onDuplicate :=
    applyDuplicateUpdates_congr H.toProcess tables tables' hfree
  simp only [insertRow, hupdates]

theorem insertRows_congr (tables tables' : Tables) {name : String}
    {onDuplicate : List (String × Expr)} {table : Table} {count : Nat} {rows : List Row}
    (hfree : SubqueryFree onDuplicate) :
    insertRows H tables' name onDuplicate table count rows =
      insertRows H tables name onDuplicate table count rows := by
  induction rows generalizing table count with
  | nil => rfl
  | cons row rows ih =>
    simp only [insertRows, H.recycled_free _ _ hfree, insertRow_congr tables tables' hfree, ih]

/-! ## What is stored -/

/-- Two tables that differ at most in their Bloom filters and the layout of their indexes. -/
structure Table.SameStored (table table' : Table) : Prop extends table.SameView table' where
  rowIds : table'.rowIds = table.rowIds
  nextRowId : table'.nextRowId = table.nextRowId

theorem Table.SameStored.refl (table : Table) : table.SameStored table :=
  ⟨Table.SameView.refl table, rfl, rfl⟩

theorem Table.SameStored.symm {table table' : Table} (h : table.SameStored table') :
    table'.SameStored table :=
  ⟨h.toSameView.symm, h.rowIds.symm, h.nextRowId.symm⟩

theorem Table.SameStored.trans {table table' table'' : Table} (h : table.SameStored table')
    (h' : table'.SameStored table'') : table.SameStored table'' :=
  ⟨h.toSameView.trans h'.toSameView, h'.rowIds.trans h.rowIds, h'.nextRowId.trans h.nextRowId⟩

theorem Table.sameStored_setBloomFalsePositiveRate (table : Table) (rate : F64) :
    table.SameStored (table.setBloomFalsePositiveRate H rate) :=
  ⟨⟨rfl, rfl⟩, rfl, rfl⟩

/-- A row that is filed takes the next identifier, and any other changes none: which of
the two happened shows in the number of rows. -/
theorem insertRow_ids {name : String} {onDuplicate : List (String × Expr)} {table next : Table}
    {row : Row} {added : Nat}
    (h : insertRow H tables name onDuplicate table row = .ok (next, added)) :
    (next.rows.length = table.rows.length + 1 ∧
      next.rowIds = table.rowIds ++ [table.nextRowId] ∧
      next.nextRowId = saturatingSucc table.nextRowId) ∨
    (next.rows.length = table.rows.length ∧ next.rowIds = table.rowIds ∧
      next.nextRowId = table.nextRowId) := by
  rcases insertRow_ok h with ⟨h, -⟩ | ⟨position, updated, h⟩ | rfl
  · obtain ⟨-, rfl⟩ := Table.insertRowIndexed_eq_ok h
    exact Or.inl ⟨by simp, rfl, rfl⟩
  · obtain ⟨-, previous, rowId, -, -, rfl⟩ := Table.replaceRowIndexed_eq_ok h
    exact Or.inr ⟨by simp, rfl, rfl⟩
  · exact Or.inr ⟨rfl, rfl, rfl⟩

/-- **One row** keeps two tables the same in all that is stored. -/
theorem insertRow_stored {name : String} {onDuplicate : List (String × Expr)}
    {table table' next : Table} {row : Row} {added : Nat} (hfree : SubqueryFree onDuplicate)
    (hsame : table.SameStored table') (hs : table.Sound H inserted) (hs' : table'.Sound H inserted)
    (h : insertRow H tables name onDuplicate table row = .ok (next, added)) :
    ∃ next', insertRow H tables' name onDuplicate table' row = .ok (next', added) ∧
      next.SameStored next' := by
  rw [insertRow_congr tables' tables hfree] at h
  obtain ⟨next', h', hview⟩ := insertRow_same (fun _ _ _ => rfl) hsame.toSameView hs hs' h
  have hrows := congrArg List.length hview.rows
  have hrows' := congrArg List.length hsame.rows
  have hids : next'.rowIds = next.rowIds ∧ next'.nextRowId = next.nextRowId := by
    rcases insertRow_ids h with ⟨hlen, hids, hnext⟩ | ⟨hlen, hids, hnext⟩
    · rcases insertRow_ids h' with ⟨hlen', hids', hnext'⟩ | ⟨hlen', -, -⟩
      · rw [hids, hids', hnext, hnext', hsame.rowIds, hsame.nextRowId]
        exact ⟨rfl, rfl⟩
      · omega
    · rcases insertRow_ids h' with ⟨hlen', -, -⟩ | ⟨hlen', hids', hnext'⟩
      · omega
      · rw [hids, hids', hnext, hnext', hsame.rowIds, hsame.nextRowId]
        exact ⟨rfl, rfl⟩
  exact ⟨next', h', hview, hids.1, hids.2⟩

/-! ## Valid catalogs -/

theorem sound_of_reachable (h : Reachable H tables inserted) (hbound : inserted < maxRowId) :
    tables.Sound H inserted := by
  induction h with
  | empty => exact Tables.All.empty
  | step hbefore hparsed hexecute ih =>
    exact sound_step hparsed (executeCatalog_ok hexecute).1 hbound
      (ih (Nat.lt_of_le_of_lt (Nat.le_add_right _ _) hbound))
  | configure rate hbefore ih =>
    exact (ih hbound).mapValues fun _ table hs => hs.setBloomFalsePositiveRate rate

theorem sameLookups_configure (tables : Tables) (rate : F64) :
    tables.SameLookups (tables.configureBloomFalsePositiveRate H rate) :=
  (Tables.sameView_mapValues fun _ table =>
    (table.sameStored_setBloomFalsePositiveRate rate).toSameView).tables

/-- **Every reachable catalog passes its checks.** -/
theorem validateCatalog_of_reachable (h : Reachable H tables inserted)
    (hbound : inserted < maxRowId) : validateCatalog H tables = .ok () := by
  induction h with
  | empty =>
    rw [validateCatalog_eq_ok, validateForeignKeys_eq_ok]
    exact ⟨Tables.All.empty, Tables.All.empty⟩
  | @step tables tables' inserted statement result hbefore hparsed hexecute ih =>
    cases hwrite : isWriteStatement statement with
    | true => exact (executeCatalog_ok hexecute).2 hwrite
    | false =>
      rw [executeStatement_read hwrite (executeCatalog_ok hexecute).1]
      exact ih (Nat.lt_of_le_of_lt (Nat.le_add_right _ _) hbound)
  | configure rate hbefore ih =>
    exact (sameLookups_configure _ rate).validateCatalog (sound_of_reachable hbefore hbound)
      (sound_of_reachable (hbefore.configure rate) hbound) (ih hbound)

/-! ## One statement for each row -/

/-- `INSERT INTO tableName columns VALUES rows ON DUPLICATE KEY UPDATE onDuplicate`. -/
abbrev insertStatement (tableName : String) (columns : Option (List String))
    (onDuplicate : List (String × Expr)) (rows : List (List Expr)) : Statement :=
  .insert tableName columns (.values rows) onDuplicate

/-- Rows inserted by one statement each, with the sum of the rows affected.  What happens
to the catalog between two statements is `settles`. -/
inductive SingleInserts (H : Host) (settles : Tables → Tables → Prop) (tableName : String)
    (columns : Option (List String)) (onDuplicate : List (String × Expr)) :
    Tables → List (List Expr) → Nat → Tables → Prop
  | done (tables : Tables) :
      SingleInserts H settles tableName columns onDuplicate tables [] 0 tables
  | insert {tables next settled final : Tables} {row : List Expr} {rows : List (List Expr)}
      {count total : Nat} :
      executeCatalog H tables (insertStatement tableName columns onDuplicate [row]) =
        .ok (.rowsAffected count, next) →
      settles next settled →
      SingleInserts H settles tableName columns onDuplicate settled rows total final →
      SingleInserts H settles tableName columns onDuplicate tables (row :: rows) (count + total)
        final

/-- What autocommit does to the catalog that a statement leaves: the Bloom filters may be
rebuilt, and the indexes with them. -/
def Rebuilt (H : Host) (tables tables' : Tables) : Prop :=
  tables' = tables ∨ ∃ rate, tables' = tables.configureBloomFalsePositiveRate H rate

section Singles

variable {tableName : String} {columns : Option (List String)}
  {onDuplicate : List (String × Expr)} {settles : Tables → Tables → Prop}

/-- A statement of one row inserts that row. -/
theorem executeCatalog_single (hfree : SubqueryFree onDuplicate) {row : List Expr} {count : Nat}
    {next : Tables}
    (h : executeCatalog H tables (insertStatement tableName columns onDuplicate [row]) =
      .ok (.rowsAffected count, next)) :
    ∃ existing incoming table, tables.lookup (toAsciiLowercase tableName) = some existing ∧
      incomingRow H existing.schema columns row = .ok incoming ∧
      insertRow H tables (toAsciiLowercase tableName) onDuplicate existing incoming =
        .ok (table, count) ∧
      next = tables.insert (toAsciiLowercase tableName) table ∧
      validateCatalog H next = .ok () := by
  obtain ⟨values, existing, table, rows, found, hvalues, hlookup, hrows, hinsert, hnext, hvalid,
    hresult⟩ := executeInsert_ok (executeCatalog_ok h).1
  obtain rfl := ExecutionResult.rowsAffected.inj hresult
  obtain rfl := Except.ok.inj hvalues
  rw [Result.mapM_eq_ok] at hrows
  obtain ⟨incoming, hincoming⟩ : ∃ incoming, rows = [incoming] ∧
      incomingRow H existing.schema columns row = .ok incoming := by
    cases hrows with
    | cons hrow hrest => cases hrest; exact ⟨_, rfl, hrow⟩
  obtain ⟨rfl, hincoming⟩ := hincoming
  obtain ⟨⟨middle, added⟩, hrow, hrest⟩ := Result.bind_eq_ok.mp hinsert
  rw [H.recycled_free _ _ hfree] at hrow
  simp only [insertRows, Nat.zero_add, Except.ok.injEq, Prod.mk.injEq] at hrest
  obtain ⟨rfl, rfl⟩ := hrest
  exact ⟨existing, incoming, middle, hlookup, hincoming, hrow, hnext, hvalid⟩

/-- A statement of many rows runs the row loop on the table it finds, and checks the
catalog after it. -/
theorem executeCatalog_insertStatement {rows : List (List Expr)} {existing table : Table}
    {incoming : List Row} {count : Nat}
    (hlookup : tables.lookup (toAsciiLowercase tableName) = some existing)
    (hrows : rows.mapM (incomingRow H existing.schema columns) = .ok incoming)
    (hinsert : insertRows H tables (toAsciiLowercase tableName) onDuplicate existing 0 incoming =
      .ok (table, count))
    (hvalid : validateCatalog H (tables.insert (toAsciiLowercase tableName) table) = .ok ()) :
    executeCatalog H tables (insertStatement tableName columns onDuplicate rows) =
      .ok (.rowsAffected count, tables.insert (toAsciiLowercase tableName) table) := by
  have hpublish : publishTable H tables (toAsciiLowercase tableName) table count =
      .ok (.rowsAffected count, tables.insert (toAsciiLowercase tableName) table) := by
    rw [publishTable, hvalid]
    rfl
  have hexecute : executeStatement H tables (insertStatement tableName columns onDuplicate rows) =
      .ok (.rowsAffected count, tables.insert (toAsciiLowercase tableName) table) := by
    simp only [executeStatement, executeInsert, insertValues, Result.ok_bind, hlookup, hrows,
      hinsert, hpublish]
  have hwrite : isWriteStatement (insertStatement tableName columns onDuplicate rows) = true := rfl
  rw [executeCatalog, if_pos hwrite, hexecute, Result.ok_bind]
  simp only [hvalid, Result.ok_bind, Result.pure_eq_ok]

/-- One more row in front of a row loop. -/
theorem insertRows_cons (hfree : SubqueryFree onDuplicate) {name : String}
    {table next last : Table} {row : Row} {rows : List Row} {start added total : Nat}
    (hrow : insertRow H tables name onDuplicate table row = .ok (next, added))
    (hrows : ∀ start, insertRows H tables name onDuplicate next start rows =
      .ok (last, start + total)) :
    insertRows H tables name onDuplicate table start (row :: rows) =
      .ok (last, start + (added + total)) := by
  rw [insertRows, H.recycled_free _ _ hfree, hrow, Result.ok_bind]
  simp only [hrows, Nat.add_assoc]

/-! ### Inside of a transaction -/

/-- **Without a rebuild** the single statements run the row loop on the same table. -/
theorem SingleInserts.insertRows_eq (hfree : SubqueryFree onDuplicate) {row : List Expr}
    {rows : List (List Expr)} {count : Nat} {final : Tables}
    (hrun : SingleInserts H Eq tableName columns onDuplicate tables (row :: rows) count final) :
    ∃ existing incoming table,
      tables.lookup (toAsciiLowercase tableName) = some existing ∧
      (row :: rows).mapM (incomingRow H existing.schema columns) = .ok incoming ∧
      (∀ start, insertRows H tables (toAsciiLowercase tableName) onDuplicate existing start
        incoming = .ok (table, start + count)) ∧
      final = tables.insert (toAsciiLowercase tableName) table ∧
      validateCatalog H final = .ok () := by
  induction rows generalizing tables row count with
  | nil =>
    cases hrun with
    | insert hfirst hsettles hrest =>
      subst hsettles
      cases hrest
      obtain ⟨existing, incoming, table, hlookup, hincoming, hrow, hnext, hvalid⟩ :=
        executeCatalog_single hfree hfirst
      refine ⟨existing, [incoming], table, hlookup, ?_, fun start => ?_, hnext, hvalid⟩
      · rw [Result.mapM_eq_ok]
        exact List.Forall₂.cons hincoming List.Forall₂.nil
      · exact insertRows_cons hfree hrow fun start => rfl
  | cons second rows ih =>
    cases hrun with
    | insert hfirst hsettles hrest =>
      subst hsettles
      obtain ⟨existing, incoming, middle, hlookup, hincoming, hrow, rfl, -⟩ :=
        executeCatalog_single hfree hfirst
      obtain ⟨found, incomings, table, hfound, hincomings, hrows, hfinal, hvalid⟩ := ih hrest
      rw [AList.lookup_insert, Option.some.injEq] at hfound
      subst hfound
      rw [AList.insert_insert] at hfinal
      rw [(insertRow_grown hrow).schema, Result.mapM_eq_ok] at hincomings
      refine ⟨existing, incoming :: incomings, table, hlookup, ?_, fun start => ?_, hfinal, hvalid⟩
      · rw [Result.mapM_eq_ok]
        exact List.Forall₂.cons hincoming hincomings
      · refine insertRows_cons hfree hrow fun start => ?_
        rw [← hrows start]
        exact insertRows_congr _ _ hfree

/-! ### With rebuilds in between -/

/-- The catalog between two of the single statements, against the table that the row loop
of the multi-row statement on `tables` has reached after as many rows. -/
structure BatchInStep (H : Host) (tables : Tables) (name : String) (inserted : Nat)
    (current : Tables) (table : Table) : Prop where
  reachable : Reachable H current inserted
  sound : table.Sound H inserted
  stored : ∃ single, current.lookup name = some single ∧ single.SameStored table
  others : ∀ other, other ≠ name →
    Option.Rel Table.SameStored (tables.lookup other) (current.lookup other)

/-- **One single statement** is one round of the row loop. -/
theorem BatchInStep.insert {current next : Tables} {table : Table} {row : List Expr} {count : Nat}
    (h : BatchInStep H tables (toAsciiLowercase tableName) inserted current table)
    (hfree : SubqueryFree onDuplicate) (hbound : inserted + 1 < maxRowId)
    (hsingle : executeCatalog H current (insertStatement tableName columns onDuplicate [row]) =
      .ok (.rowsAffected count, next)) :
    ∃ incoming table' more, incomingRow H table.schema columns row = .ok incoming ∧
      insertRow H tables (toAsciiLowercase tableName) onDuplicate table incoming =
        .ok (table', count) ∧
      inserted ≤ more ∧ more ≤ inserted + 1 ∧ table'.schema = table.schema ∧
      BatchInStep H tables (toAsciiLowercase tableName) more next table' := by
  obtain ⟨existing, hexisting, hsame⟩ := h.stored
  obtain ⟨found, incoming, single, hfound, hincoming, hrow, hnext, -⟩ :=
    executeCatalog_single hfree hsingle
  obtain rfl : existing = found := Option.some.inj (hexisting.symm.trans hfound)
  have hs := sound_of_reachable h.reachable (by omega) _ existing hexisting
  obtain ⟨table', hrow', hstored⟩ := insertRow_stored hfree hsame hs h.sound hrow
  have hgrowth : insertedRows current next (insertStatement tableName columns onDuplicate [row]) =
      single.rows.length - existing.rows.length := by
    simp [insertedRows, rowCount, hnext, hexisting]
  have hgrowth' : table'.rows.length - table.rows.length =
      single.rows.length - existing.rows.length := by rw [hstored.rows, hsame.rows]
  have hone : single.rows.length - existing.rows.length ≤ 1 := by
    rcases insertRow_ids hrow with ⟨hlen, -, -⟩ | ⟨hlen, -, -⟩ <;> omega
  have hsound := h.sound.insertRow hrow' (by omega)
  have hparsed : (insertStatement tableName columns onDuplicate [row]).Parsed := trivial
  have hreachable := h.reachable.step hparsed hsingle
  rw [hgrowth'] at hsound
  rw [hgrowth] at hreachable
  refine ⟨incoming, table', _, by rw [hsame.schema]; exact hincoming, hrow', by omega, by omega,
    (insertRow_grown hrow').schema, hreachable, hsound, ⟨single, ?_, hstored⟩,
    fun other hother => ?_⟩
  · rw [hnext, AList.lookup_insert]
  · rw [hnext, AList.lookup_insert_ne hother]
    exact h.others other hother

/-- A rebuild changes nothing that is stored. -/
theorem BatchInStep.rebuilt {name : String} {current settled : Tables} {table : Table}
    (h : BatchInStep H tables name inserted current table) (hsettled : Rebuilt H current settled) :
    BatchInStep H tables name inserted settled table := by
  rcases hsettled with rfl | ⟨rate, rfl⟩
  · exact h
  · obtain ⟨single, hsingle, hsame⟩ := h.stored
    refine ⟨h.reachable.configure rate, h.sound, ⟨single.setBloomFalsePositiveRate H rate, ?_, ?_⟩,
      fun other hother => ?_⟩
    · rw [Tables.configureBloomFalsePositiveRate, lookup_mapValues, hsingle, Option.map_some]
    · exact (single.sameStored_setBloomFalsePositiveRate rate).symm.trans hsame
    · rw [Tables.configureBloomFalsePositiveRate, lookup_mapValues]
      exact rel_map (h.others other hother) fun _ other hsame =>
        hsame.trans (other.sameStored_setBloomFalsePositiveRate rate)

/-- **All single statements** are the row loop, by induction over them. -/
theorem BatchInStep.run {current final : Tables} {table : Table} {rows : List (List Expr)}
    {count : Nat} (h : BatchInStep H tables (toAsciiLowercase tableName) inserted current table)
    (hfree : SubqueryFree onDuplicate) (hbound : inserted + rows.length < maxRowId)
    (hrun : SingleInserts H (Rebuilt H) tableName columns onDuplicate current rows count final) :
    ∃ incoming table' more,
      rows.mapM (incomingRow H table.schema columns) = .ok incoming ∧
      (∀ start, insertRows H tables (toAsciiLowercase tableName) onDuplicate table start
        incoming = .ok (table', start + count)) ∧
      inserted ≤ more ∧ more < maxRowId ∧
      BatchInStep H tables (toAsciiLowercase tableName) more final table' := by
  induction hrun generalizing table inserted with
  | done current =>
    exact ⟨[], table, inserted, rfl, fun start => rfl, Nat.le_refl _, by simpa using hbound, h⟩
  | @insert current next settled final row rows count total hfirst hsettles _ ih =>
    rw [List.length_cons] at hbound
    obtain ⟨incoming, middle, more, hincoming, hrow, hle, hge, hschema, hmiddle⟩ :=
      h.insert hfree (by omega) hfirst
    obtain ⟨incomings, table', last, hincomings, hrows, hle', hlast, hfinal⟩ :=
      ih (hmiddle.rebuilt hsettles) (by omega)
    rw [hschema, Result.mapM_eq_ok] at hincomings
    refine ⟨incoming :: incomings, table', last, ?_, fun start => insertRows_cons hfree hrow hrows,
      hle.trans hle', hlast, hfinal⟩
    rw [Result.mapM_eq_ok]
    exact List.Forall₂.cons hincoming hincomings

/-- The two ways of inserting rows end the same: the multi-row statement on `tables`
succeeds with that count, and `final` differs from what it leaves at most in Bloom filters
and the layout of indexes.  Tables other than the target it leaves as they are. -/
def BatchAgrees (H : Host) (tables : Tables) (tableName : String)
    (columns : Option (List String)) (onDuplicate : List (String × Expr))
    (rows : List (List Expr)) (count : Nat) (final : Tables) : Prop :=
  ∃ after, executeCatalog H tables (insertStatement tableName columns onDuplicate rows) =
      .ok (.rowsAffected count, after) ∧
    (∀ name, Option.Rel Table.SameStored (final.lookup name) (after.lookup name)) ∧
    ∀ other, other ≠ toAsciiLowercase tableName → after.lookup other = tables.lookup other

/-- **A multi-row INSERT equals its rows inserted one by one**, in a transaction and, while
the identifiers last, with autocommit too. -/
theorem insert_rows_one_by_one (hreach : Reachable H tables inserted) {existing : Table}
    (htable : tables.lookup (toAsciiLowercase tableName) = some existing)
    (hfree : ∀ assignment ∈ onDuplicate, subqueries assignment.2 = [])
    (rows : List (List Expr)) (count : Nat) (final : Tables) :
    (rows ≠ [] → SingleInserts H Eq tableName columns onDuplicate tables rows count final →
      BatchAgrees H tables tableName columns onDuplicate rows count final) ∧
    (inserted + rows.length < 2 ^ 64 - 1 →
      SingleInserts H (Rebuilt H) tableName columns onDuplicate tables rows count final →
      BatchAgrees H tables tableName columns onDuplicate rows count final) := by
  constructor
  · intro hrows hrun
    obtain ⟨row, rest, rfl⟩ := List.exists_cons_of_ne_nil hrows
    obtain ⟨found, incoming, table, hfound, hincoming, hinsert, rfl, hvalid⟩ :=
      hrun.insertRows_eq hfree
    have hstart := hinsert 0
    rw [Nat.zero_add] at hstart
    exact ⟨_, executeCatalog_insertStatement hfound hincoming hstart hvalid,
      fun name => rel_refl Table.SameStored.refl _,
      fun other hother => AList.lookup_insert_ne hother⟩
  · intro hbound hrun
    have hsound := sound_of_reachable hreach (by simp only [maxRowId]; omega)
    have hstart : BatchInStep H tables (toAsciiLowercase tableName) inserted tables existing :=
      ⟨hreach, hsound _ existing htable, ⟨existing, htable, Table.SameStored.refl existing⟩,
        fun other _ => rel_refl Table.SameStored.refl _⟩
    obtain ⟨incoming, table, more, hincoming, hinsert, hle, hmore, hfinal⟩ :=
      hstart.run hfree hbound hrun
    have hinsert := hinsert 0
    rw [Nat.zero_add] at hinsert
    obtain ⟨single, hsingle, hsame⟩ := hfinal.stored
    have hstored : ∀ name, Option.Rel Table.SameStored (final.lookup name)
        ((tables.insert (toAsciiLowercase tableName) table).lookup name) := by
      intro name
      by_cases hname : name = toAsciiLowercase tableName
      · subst hname
        rw [hsingle, AList.lookup_insert]
        exact Option.Rel.some hsame
      · rw [AList.lookup_insert_ne hname]
        exact rel_swap (hfinal.others name hname) fun _ _ hother => hother.symm
    have hlookups : final.SameLookups (tables.insert (toAsciiLowercase tableName) table) :=
      fun name => rel_imp (hstored name) fun _ _ hsame => hsame.toSameView
    have hvalid := hlookups.validateCatalog (sound_of_reachable hfinal.reachable hmore)
      ((hsound.mono hle).insert hfinal.sound) (validateCatalog_of_reachable hfinal.reachable hmore)
    exact ⟨_, executeCatalog_insertStatement htable hincoming hinsert hvalid, hstored,
      fun other hother => AList.lookup_insert_ne hother⟩

end Singles

/-- A row that an INSERT changes counts twice, one that it files once. -/
def affectedRows : ExecutionResult → Nat
  | .rowsAffected count => count
  | _ => 0

/-- `upsertTwice` row by row, with a rebuild in between. -/
theorem upsert_row_by_row : ∃ tables after, Reachable Host.reference tables 0 ∧
    executeCatalog Host.reference tables upsertTwice = .ok (.rowsAffected 3, after) ∧
    (after.lookup "t").map Table.rows = some [[.integer 1, .integer 20]] := by
  have hrun : ((do
      let created ← runStatements Host.reference (∅, 0) [createKeyed]
      let first ← executeCatalog Host.reference created.1
        (insertStatement "t" none [("v", .incoming "v")]
          [[.literal (.integer 1), .literal (.integer 10)]])
      let second ← executeCatalog Host.reference
        (first.2.configureBloomFalsePositiveRate Host.reference defaultBloomFalsePositiveRate)
        (insertStatement "t" none [("v", .incoming "v")]
          [[.literal (.integer 1), .literal (.integer 20)]])
      pure ((created.2, affectedRows first.1, affectedRows second.1),
        (second.2.lookup "t").map Table.rows) :
        Except Fault ((Nat × Nat × Nat) × Option (List Row)))).toOption =
      some ((0, 1, 2), some [[.integer 1, .integer 20]]) := by
    decide +kernel
  obtain ⟨⟨tables, inserted⟩, hcreated, hrun⟩ :=
    Result.bind_eq_ok.mp (Result.toOption_eq_some.mp hrun)
  obtain ⟨⟨result, next⟩, hfirst, hrun⟩ := Result.bind_eq_ok.mp hrun
  obtain ⟨⟨result', final⟩, hsecond, hrun⟩ := Result.bind_eq_ok.mp hrun
  simp only [Result.pure_eq_ok, Except.ok.injEq, Prod.mk.injEq] at hrun
  obtain ⟨⟨rfl, hone, htwo⟩, hrows⟩ := hrun
  have hcount : ∀ {tables next : Tables} {result : ExecutionResult} {row},
      executeCatalog Host.reference tables
        (insertStatement "t" none [("v", .incoming "v")] [row]) = .ok (result, next) →
      result = .rowsAffected (affectedRows result) := by
    intro tables next result row h
    obtain ⟨_, _, _, _, count, -, -, -, -, -, -, rfl⟩ := executeInsert_ok (executeCatalog_ok h).1
    rfl
  rw [hcount hfirst, hone] at hfirst
  rw [hcount hsecond, htwo] at hsecond
  have hreach : Reachable Host.reference tables 0 := reachable_runStatements Reachable.empty
    (by simp [createKeyed, Statement.Parsed]) hcreated
  obtain ⟨existing, -, -, hexisting, -⟩ :=
    executeCatalog_single (by simp [SubqueryFree, subqueries]) hfirst
  obtain ⟨after, hbatch, hsame, -⟩ := (insert_rows_one_by_one hreach hexisting
    (by simp [subqueries]) _ _ _).2 (by decide)
    (.insert hfirst (Or.inr ⟨defaultBloomFalsePositiveRate, rfl⟩)
      (.insert hsecond (Or.inl rfl) (.done final)))
  refine ⟨tables, after, hreach, hbatch, ?_⟩
  have hstored := hsame "t"
  obtain ⟨single, hsingle, hsinglerows⟩ := Option.map_eq_some_iff.mp hrows
  rw [hsingle] at hstored
  cases hafter : after.lookup "t" with
  | none => rw [hafter] at hstored; cases hstored
  | some batched =>
    rw [hafter] at hstored
    cases hstored with
    | some hstored => rw [Option.map_some, hstored.rows, hsinglerows]

end Sql
end RustyDB
