import Mathlib
import RustyDB.Sql.Batch

/-!
# One statement in two processes

Every hash map has an iteration order of its own.  It decides which of two equally good
indexes a scan takes, and in which order the checks of a catalog run.  A write whose scans
have no such choice, and which evaluates no cached subquery, does in every process what it
does in one.

* `Table.Best`, `Table.Untied` — the indexes that a scan may take, and that they find the
  same rows.
* `statementReads`, `Repeatable` — a write that does not depend on its process.
* `validateCatalog_inProcess` — the checks after a write.
* `Tables.Loadable.inProcess` — the invariants of a catalog.
* `executeCatalog_inProcess` — **a repeatable write does the same in every process.**
-/

namespace RustyDB
namespace Sql

open KeyedIndex

/-! ## The choice of an index -/

/-- What an index is probed with for a WHERE clause. -/
def BTreeIndex.probe (index : BTreeIndex) (e : Expr) : IndexProbe :=
  indexProbe (collectIndexPredicates e) index.definition.columns

namespace Table

/-- An index that a scan for a WHERE clause may take: no other one scores higher. -/
structure Best (table : Table) (e : Expr) (index : BTreeIndex) : Prop where
  listed : ∃ name, table.indexes.lookup name = some index
  useful : (index.probe e).isVacuous = false
  highest : ∀ name other, table.indexes.lookup name = some other →
    (other.probe e).score ≤ (index.probe e).score

/-- The indexes that a scan may take find the same rows. -/
def Untied (H : Host) (table : Table) (selection : Option Expr) : Prop :=
  ∀ e, selection = some e → ∀ index other, table.Best e index → table.Best e other →
    index.search H (index.probe e) = other.search H (other.probe e)

/-- The score of the best index so far. -/
def bestScore (best : Option BestIndex) : Nat := (best.map BestIndex.score).getD 0

variable {H : Host} {p : Process} {table : Table} {predicates : List IndexPredicate}

theorem bestScore_betterIndex (best : Option BestIndex) (index : BTreeIndex) :
    bestScore best ≤ bestScore (betterIndex H predicates best index) ∧
      (indexProbe predicates index.definition.columns).score ≤
        bestScore (betterIndex H predicates best index) := by
  unfold betterIndex
  by_cases hvacuous : (indexProbe predicates index.definition.columns).isVacuous = true
  · have hscore : (indexProbe predicates index.definition.columns).score = 0 := by
      simp only [IndexProbe.isVacuous, Bool.and_eq_true, List.isEmpty_iff,
        Option.isNone_iff_eq_none] at hvacuous
      simp [IndexProbe.score, hvacuous.1, hvacuous.2]
    simp only [hvacuous, if_true, hscore, Nat.zero_le, and_true, Nat.le_refl]
  · simp only [hvacuous, Bool.false_eq_true, if_false]
    cases best with
    | none => exact ⟨Nat.zero_le _, Nat.le_refl _⟩
    | some current =>
      by_cases hless : current.score < (indexProbe predicates index.definition.columns).score
      · simp only [hless, if_true]
        exact ⟨hless.le, Nat.le_refl _⟩
      · simp only [hless, if_false]
        exact ⟨Nat.le_refl _, Nat.le_of_not_lt hless⟩

/-- The fold over the indexes ends with the highest score. -/
theorem bestScore_foldl (indexes : List BTreeIndex) (start : Option BestIndex) :
    bestScore start ≤ bestScore (indexes.foldl (betterIndex H predicates) start) ∧
      ∀ index ∈ indexes, (indexProbe predicates index.definition.columns).score ≤
        bestScore (indexes.foldl (betterIndex H predicates) start) := by
  induction indexes generalizing start with
  | nil => exact ⟨Nat.le_refl _, by simp⟩
  | cons index indexes ih =>
    obtain ⟨hstart, hindex⟩ := @bestScore_betterIndex H predicates start index
    obtain ⟨hrest, hindexes⟩ := ih (betterIndex H predicates start index)
    refine ⟨hstart.trans hrest, fun other hother => ?_⟩
    rcases List.mem_cons.mp hother with rfl | hother
    · exact hindex.trans hrest
    · exact hindexes other hother

/-- **An index scan** takes one of the best indexes, and none if there is none. -/
theorem candidateRowIds_best (e : Expr) :
    (∀ best, table.candidateRowIds H (some e) = some best →
      ∃ index, table.Best e index ∧ best.ids = index.search H (index.probe e)) ∧
    (table.candidateRowIds H (some e) = none → ∀ index, ¬ table.Best e index) := by
  have hscores := @bestScore_foldl H (collectIndexPredicates e) (table.indexValues H) none
  constructor
  · intro best hbest
    rw [candidateRowIds] at hbest
    rcases foldl_betterIndex hbest with hstart | ⟨index, hmem, hprobe, hids, -, hscore⟩
    · cases hstart
    · refine ⟨index, ⟨mem_indexValues hmem, hprobe, fun name other hlookup => ?_⟩, hids⟩
      have hother := hscores.2 other (indexValues_of_lookup hlookup)
      rw [hbest] at hother
      exact hother.trans (Nat.le_of_eq hscore)
  · rintro hnone index ⟨⟨name, hlookup⟩, hprobe, -⟩
    have hindex := hscores.2 index (indexValues_of_lookup hlookup)
    rw [candidateRowIds] at hnone
    rw [hnone, bestScore, Option.map_none, Option.getD_none, Nat.le_zero] at hindex
    have hvacuous : (index.probe e).isVacuous = true := by
      simp only [IndexProbe.score, Nat.add_eq_zero_iff, mul_eq_zero, List.length_eq_zero_iff,
        OfNat.ofNat_ne_zero, or_false, ite_eq_right_iff, one_ne_zero, imp_false] at hindex
      simp only [BTreeIndex.probe, IndexProbe.isVacuous, hindex.1, List.isEmpty_nil,
        Bool.true_and, Option.isNone_iff_eq_none]
      simpa using hindex.2
    rw [hprobe] at hvacuous
    cases hvacuous

/-- A scan without a tie reaches the same positions in every process. -/
theorem Untied.isCandidate {selection : Option Expr} (h : table.Untied H selection)
    (position : Nat) :
    table.isCandidate (table.candidateRowIds (H.inProcess p) selection) position =
      table.isCandidate (table.candidateRowIds H selection) position := by
  cases selection with
  | none => rfl
  | some e =>
    obtain ⟨hsome, hnone⟩ := @candidateRowIds_best H table e
    obtain ⟨hsome', hnone'⟩ := @candidateRowIds_best (H.inProcess p) table e
    cases hbest : table.candidateRowIds H (some e) with
    | none =>
      cases hbest' : table.candidateRowIds (H.inProcess p) (some e) with
      | none => rfl
      | some best' =>
        obtain ⟨index, hindex, -⟩ := hsome' best' hbest'
        exact absurd hindex (hnone hbest index)
    | some best =>
      obtain ⟨index, hindex, hids⟩ := hsome best hbest
      cases hbest' : table.candidateRowIds (H.inProcess p) (some e) with
      | none => exact absurd hindex (hnone' hbest' index)
      | some best' =>
        obtain ⟨other, hother, hids'⟩ := hsome' best' hbest'
        have hsame : best'.ids = best.ids := by
          rw [hids, hids', h e rfl index other hindex hother]
          rfl
        simp only [Table.isCandidate, hsame]

end Table

/-! ## What a write reads -/

/-- The scans that a write makes, those of its checks left out; values are evaluated on no
catalog. -/
def statementReads : Statement → List Read
  | .insert _ _ (.query query) _ => queryReads query
  | .update tableName assignments selection => (toAsciiLowercase tableName, selection) ::
      (optionReads selection ++ assignments.flatMap fun assignment => exprReads assignment.2)
  | .delete tableName selection => (toAsciiLowercase tableName, selection) :: optionReads selection
  | _ => []

/-- No subquery is cloned and cached. -/
def Statement.Uncached : Statement → Prop
  | .insert _ _ _ onDuplicate => SubqueryFree onDuplicate
  | _ => True

/-- The scan of a table has no choice between indexes that find different rows. -/
def Tables.Untied (H : Host) (tables : Tables) (read : Read) : Prop :=
  ∀ table, tables.lookup read.1 = some table → table.Untied H read.2

/-- So have the scans of the CHECK constraints of a catalog. -/
def Tables.ChecksUntied (H : Host) (tables : Tables) : Prop :=
  tables.All fun table => ∀ name expr, .check name expr ∈ table.schema.constraints →
    ∀ read ∈ exprReads expr, tables.Untied H read

/-- A write whose scans, and those of the CHECK constraints of the tables that it leaves, have
no choice between indexes that find different rows, and which caches no cloned subquery. -/
structure Repeatable (H : Host) (tables : Tables) (statement : Statement) : Prop where
  reads : ∀ read ∈ statementReads statement, tables.Untied H read
  uncached : statement.Uncached
  checks : ∀ result tables', executeCatalog H tables statement = .ok (result, tables') →
    tables'.ChecksUntied H

section Processes

variable {H : Host} {p : Process} {tables tables' : Tables} {table : Table}

theorem Tables.Untied.sameScan {read : Read} (h : tables.Untied H read) :
    SameScan H p tables tables read := by
  intro visibleName
  cases hlookup : tables.lookup read.1 with
  | none => rfl
  | some table =>
    have hpositions := fun position => (h table hlookup).isCandidate (p := p) position
    simp only [Option.map_some, relationFromTable, hpositions]

/-! ## The checks -/

theorem validateChecks_inProcess (hchecks : ∀ name expr,
      .check name expr ∈ table.schema.constraints →
        ∀ read ∈ exprReads expr, tables.Untied H read) (row : Row) :
    validateChecks (H.inProcess p) tables table row = validateChecks H tables table row := by
  refine Result.forM_congr_of_forall₂ (List.forall₂_same.mpr fun constraint hmem => ?_)
  cases constraint with
  | check name expr =>
    simp only [evalExpr_frame expr fun read hread => (hchecks name expr hmem read hread).sameScan]
  | _ => rfl

theorem validateUniqueIndexes_eq_ok : validateUniqueIndexes H table = .ok () ↔
    ∀ name index, table.indexes.lookup name = some index →
      (index.definition.unique && index.hasDuplicate) = false := by
  unfold validateUniqueIndexes
  constructor
  · intro h name index hlookup
    split at h
    · cases h
    · rename_i hnone
      simpa using List.find?_eq_none.mp hnone index (Table.indexValues_of_lookup hlookup)
  · intro h
    have hnone : (table.indexValues H).find? (fun index =>
        index.definition.unique && index.hasDuplicate) = none := by
      refine List.find?_eq_none.mpr fun index hindex => ?_
      obtain ⟨name, hlookup⟩ := Table.mem_indexValues hindex
      rw [h name index hlookup]
      exact Bool.false_ne_true
    rw [hnone]

/-- **The checks of a catalog** pass in every process. -/
theorem validateCatalog_inProcess (hchecks : tables.ChecksUntied H)
    (h : validateCatalog H tables = .ok ()) : validateCatalog (H.inProcess p) tables = .ok () := by
  rw [validateCatalog_eq_ok, validateForeignKeys_eq_ok] at h ⊢
  refine ⟨fun name table hlookup => ?_, h.2⟩
  obtain ⟨⟨⟩, hrows, hunique⟩ := Result.bind_eq_ok.mp (h.1 name table hlookup)
  rw [validateTable, Result.bind_eq_ok]
  refine ⟨(), ?_, validateUniqueIndexes_eq_ok.mpr (validateUniqueIndexes_eq_ok.mp hunique)⟩
  simp only [validateChecks_inProcess (hchecks name table hlookup)]
  exact hrows

theorem publishTable_inProcess {name : String} {count : Nat} {result : ExecutionResult}
    (hchecks : tables'.ChecksUntied H)
    (h : publishTable H tables name table count = .ok (result, tables')) :
    publishTable (H.inProcess p) tables name table count = .ok (result, tables') := by
  obtain ⟨rfl, hvalid, rfl⟩ := publishTable_ok h
  rw [publishTable, validateCatalog_inProcess hchecks hvalid]
  rfl

/-! ## Schema changes -/

theorem mem_inOrder_inProcess {entry : String × Table} :
    entry ∈ tables.inOrder (H.inProcess p) ↔ entry ∈ tables.inOrder H := by
  rw [mem_inOrder, mem_inOrder]

theorem executeDropTable_inProcess {tableName : String} {ifExists : Bool}
    {outcome : ExecutionResult × Tables}
    (h : executeDropTable H tables tableName ifExists = .ok outcome) :
    executeDropTable (H.inProcess p) tables tableName ifExists = .ok outcome := by
  simp only [executeDropTable] at h ⊢
  by_cases hnone : (tables.lookup (toAsciiLowercase tableName)).isNone = true
  · rw [if_pos hnone] at h ⊢
    exact h
  · rw [if_neg hnone] at h ⊢
    split at h
    · cases h
    · rename_i hfree
      have hfree' : (tables.inOrder (H.inProcess p)).find? (fun entry =>
          entry.1 != toAsciiLowercase tableName &&
            entry.2.schema.constraints.any (references (toAsciiLowercase tableName))) = none :=
        List.find?_eq_none.mpr fun entry hentry =>
          List.find?_eq_none.mp hfree entry (mem_inOrder_inProcess.mp hentry)
      rw [hfree']
      exact h

theorem executeCreateIndex_inProcess {name tableName : String} {columns : List String}
    {unique ifNotExists : Bool} {outcome : ExecutionResult × Tables}
    (h : executeCreateIndex H tables name tableName columns unique ifNotExists = .ok outcome) :
    executeCreateIndex (H.inProcess p) tables name tableName columns unique ifNotExists =
      .ok outcome := by
  unfold executeCreateIndex at h ⊢
  have hvalidate : ∀ {table : Table} {next : Except Fault (ExecutionResult × Tables)},
      (validateUniqueIndexes H table >>= fun _ => next) = .ok outcome →
        (validateUniqueIndexes (H.inProcess p) table >>= fun _ => next) = .ok outcome := by
    intro table next hnext
    obtain ⟨⟨⟩, hunique, hnext⟩ := Result.bind_eq_ok.mp hnext
    rw [validateUniqueIndexes_eq_ok.mpr (validateUniqueIndexes_eq_ok.mp hunique)]
    exact hnext
  cases hlookup : tables.lookup (toAsciiLowercase tableName) with
  | none => simp [hlookup, refuse] at h
  | some existing =>
    simp only [hlookup] at h ⊢
    by_cases htaken : existing.schema.indexes.any
        (fun index => eqIgnoreAsciiCase index.name name) = true
    · rw [if_pos htaken] at h ⊢
      exact h
    rw [if_neg htaken] at h ⊢
    by_cases hempty : columns.isEmpty = true
    · rw [if_pos hempty] at h ⊢
      exact h
    rw [if_neg hempty] at h ⊢
    split at h
    · exact h
    · exact hvalidate h

theorem dropColumn_inProcess {tableName name : String} {ifExists : Bool} :
    dropColumn (H.inProcess p) tables tableName table name ifExists =
      dropColumn H tables tableName table name ifExists := by
  have hinbound : (tables.inOrder (H.inProcess p)).any (fun entry =>
        entry.1 != tableName && entry.2.schema.constraints.any (refersTo tableName name)) =
      (tables.inOrder H).any (fun entry =>
        entry.1 != tableName && entry.2.schema.constraints.any (refersTo tableName name)) := by
    rw [Bool.eq_iff_iff, List.any_eq_true, List.any_eq_true]
    simp only [mem_inOrder_inProcess]
  simp only [dropColumn, hinbound]

theorem applyAlterOperation_inProcess {tableName : String} (operation : AlterOperation) :
    applyAlterOperation (H.inProcess p) tables tableName table operation =
      applyAlterOperation H tables tableName table operation := by
  have htable : alterTable (H.inProcess p) tables tableName table operation =
      alterTable H tables tableName table operation := by
    cases operation with
    | dropColumn name ifExists => exact dropColumn_inProcess
    | _ => rfl
  rw [applyAlterOperation, applyAlterOperation, htable]
  rfl

theorem applyAlterOperations_inProcess {tableName : String} (operations : List AlterOperation) :
    applyAlterOperations (H.inProcess p) tableName tables table operations =
      applyAlterOperations H tableName tables table operations := by
  induction operations generalizing tables table with
  | nil => rfl
  | cons operation operations ih =>
    simp only [applyAlterOperations, applyAlterOperation_inProcess, ih]

theorem executeAlterTable_inProcess {tableName : String} {operations : List AlterOperation} :
    executeAlterTable (H.inProcess p) tables tableName operations =
      executeAlterTable H tables tableName operations := by
  simp only [executeAlterTable, applyAlterOperations_inProcess]
  rfl

/-! ## INSERT -/

theorem evalConstant_inProcess : evalConstant (H.inProcess p) = evalConstant H := by
  funext e
  exact evalExpr_frame e (fun read _ visibleName => by simp) [] [] none ∅

theorem insertValues_inProcess {tableName : String} {columns : Option (List String)}
    {source : InsertSource} {onDuplicate : List (String × Expr)}
    (hreads : ∀ read ∈ statementReads (.insert tableName columns source onDuplicate),
      tables.Untied H read) :
    insertValues (H.inProcess p) tables source = insertValues H tables source := by
  cases source with
  | values values => rfl
  | query query =>
    simp only [insertValues,
      executeQuery_frame query fun read hread => (hreads read hread).sameScan]

theorem conflictPositions_inProcess (row : Row) :
    conflictPositions (H.inProcess p) table row = conflictPositions H table row := by
  have hsame : ∀ position, position ∈ table.uniqueConflictPositions (H.inProcess p) row ↔
      position ∈ table.uniqueConflictPositions H row := by
    intro position
    have hmem : ∀ index, index ∈ table.indexValues (H.inProcess p) ↔
        index ∈ table.indexValues H := fun index =>
      ⟨fun h => Table.indexValues_of_lookup (Table.mem_indexValues h).choose_spec,
        fun h => Table.indexValues_of_lookup (Table.mem_indexValues h).choose_spec⟩
    rw [Table.mem_uniqueConflictPositions, Table.mem_uniqueConflictPositions]
    simp only [hmem]
    rfl
  simp only [conflictPositions, hsame]

theorem insertRows_inProcess {name : String} {onDuplicate : List (String × Expr)}
    (hfree : SubqueryFree onDuplicate) (count : Nat) (rows : List Row) :
    insertRows (H.inProcess p) tables name onDuplicate table count rows =
      insertRows H tables name onDuplicate table count rows := by
  induction rows generalizing table count with
  | nil => rfl
  | cons row rows ih =>
    have hrow : insertRow (H.inProcess p) tables name onDuplicate table row =
        insertRow H tables name onDuplicate table row := by
      simp only [insertRow, conflictPositions_inProcess,
        applyDuplicateUpdates_congr p tables tables hfree]
      rfl
    simp only [insertRows, Process.recycled_free _ _ _ hfree, hrow, ih]

theorem executeInsert_inProcess {tableName : String} {columns : Option (List String)}
    {source : InsertSource} {onDuplicate : List (String × Expr)} {result : ExecutionResult}
    (hreads : ∀ read ∈ statementReads (.insert tableName columns source onDuplicate),
      tables.Untied H read)
    (hfree : SubqueryFree onDuplicate) (hchecks : tables'.ChecksUntied H)
    (h : executeInsert H tables tableName columns source onDuplicate = .ok (result, tables')) :
    executeInsert (H.inProcess p) tables tableName columns source onDuplicate =
      .ok (result, tables') := by
  have hincoming : ∀ schema, incomingRow (H.inProcess p) schema columns =
      incomingRow H schema columns := fun schema => by
    funext expressions
    rw [incomingRow, incomingRow, evalConstant_inProcess]
  simp only [executeInsert, insertValues_inProcess hreads, hincoming,
    insertRows_inProcess hfree] at h ⊢
  obtain ⟨values, hvalues, h⟩ := Result.bind_eq_ok.mp h
  rw [hvalues, Result.ok_bind]
  cases hlookup : tables.lookup (toAsciiLowercase tableName) with
  | none => simp [hlookup, refuse] at h
  | some existing =>
    simp only [hlookup] at h ⊢
    obtain ⟨rows, hrows, h⟩ := Result.bind_eq_ok.mp h
    obtain ⟨⟨table, count⟩, hinsert, h⟩ := Result.bind_eq_ok.mp h
    rw [hrows, Result.ok_bind, hinsert, Result.ok_bind]
    exact publishTable_inProcess hchecks h

/-! ## UPDATE and DELETE -/

theorem selectsRow_inProcess {name : String} {selection : Option Expr}
    (hreads : ∀ read ∈ optionReads selection, tables.Untied H read) (row : Row) :
    selectsRow (H.inProcess p) tables name table.schema selection row =
      selectsRow H tables name table.schema selection row := by
  cases selection with
  | none => rfl
  | some e =>
    rw [optionReads] at hreads
    simp only [selectsRow, evalExpr_frame e fun read hread => (hreads read hread).sameScan]

theorem affects_inProcess {name : String} {selection : Option Expr}
    (hlookup : tables.lookup name = some table) (hscan : tables.Untied H (name, selection))
    (hreads : ∀ read ∈ optionReads selection, tables.Untied H read) (entry : Row × Nat) :
    affects (H.inProcess p) tables name table (table.candidateRowIds (H.inProcess p) selection)
        selection entry =
      affects H tables name table (table.candidateRowIds H selection) selection entry := by
  simp only [affects, (hscan table hlookup).isCandidate, selectsRow_inProcess hreads]

theorem applyAssignments_inProcess {name : String} {schema : TableSchema} {original row : Row}
    {assignments : List (String × Expr)}
    (hreads : ∀ assignment ∈ assignments, ∀ read ∈ exprReads assignment.2,
      tables.Untied H read) :
    applyAssignments (H.inProcess p) tables name schema original row assignments =
      applyAssignments H tables name schema original row assignments := by
  induction assignments generalizing row with
  | nil => rfl
  | cons assignment assignments ih =>
    obtain ⟨column, expression⟩ := assignment
    have hvalue := evalExpr_frame (p := p) expression
      (fun read hread => (hreads _ List.mem_cons_self read hread).sameScan)
      (boundColumns name schema) original none ∅
    simp only [applyAssignments, hvalue,
      ih fun other hother => hreads other (List.mem_cons_of_mem _ hother)]

theorem executeUpdate_inProcess {tableName : String} {assignments : List (String × Expr)}
    {selection : Option Expr} {result : ExecutionResult}
    (hreads : ∀ read ∈ statementReads (.update tableName assignments selection),
      tables.Untied H read)
    (hchecks : tables'.ChecksUntied H)
    (h : executeUpdate H tables tableName assignments selection = .ok (result, tables')) :
    executeUpdate (H.inProcess p) tables tableName assignments selection =
      .ok (result, tables') := by
  simp only [statementReads, List.forall_mem_cons, List.forall_mem_append,
    List.forall_mem_flatMap] at hreads
  obtain ⟨hscan, hselection, hassignments⟩ := hreads
  simp only [executeUpdate] at h ⊢
  cases hlookup : tables.lookup (toAsciiLowercase tableName) with
  | none => simp [hlookup, refuse] at h
  | some table =>
    simp only [hlookup] at h ⊢
    have hrow : updateRow (H.inProcess p) tables (toAsciiLowercase tableName) table
          (table.candidateRowIds (H.inProcess p) selection) assignments selection =
        updateRow H tables (toAsciiLowercase tableName) table
          (table.candidateRowIds H selection) assignments selection := by
      funext entry
      simp only [updateRow, affects_inProcess hlookup hscan hselection,
        applyAssignments_inProcess hassignments]
    rw [hrow]
    obtain ⟨updated, hupdated, h⟩ := Result.bind_eq_ok.mp h
    rw [hupdated, Result.ok_bind]
    exact publishTable_inProcess hchecks h

theorem executeDelete_inProcess {tableName : String} {selection : Option Expr}
    {result : ExecutionResult}
    (hreads : ∀ read ∈ statementReads (.delete tableName selection), tables.Untied H read)
    (hchecks : tables'.ChecksUntied H)
    (h : executeDelete H tables tableName selection = .ok (result, tables')) :
    executeDelete (H.inProcess p) tables tableName selection = .ok (result, tables') := by
  rw [statementReads, List.forall_mem_cons] at hreads
  obtain ⟨hscan, hselection⟩ := hreads
  simp only [executeDelete] at h ⊢
  cases hlookup : tables.lookup (toAsciiLowercase tableName) with
  | none => simp [hlookup, refuse] at h
  | some table =>
    simp only [hlookup] at h ⊢
    have hrow : keepRow (H.inProcess p) tables (toAsciiLowercase tableName) table
          (table.candidateRowIds (H.inProcess p) selection) selection =
        keepRow H tables (toAsciiLowercase tableName) table
          (table.candidateRowIds H selection) selection := by
      funext entry
      simp only [keepRow, affects_inProcess hlookup hscan hselection]
    rw [hrow]
    obtain ⟨kept, hkept, h⟩ := Result.bind_eq_ok.mp h
    rw [hkept, Result.ok_bind]
    exact publishTable_inProcess hchecks h

/-! ## Invariants -/

theorem Table.RepInv.inProcess (h : table.RepInv H) : table.RepInv (H.inProcess p) :=
  ⟨h.ids, fun name index hlookup =>
    have hindex := h.indexes name index hlookup
    ⟨hindex.definition_mem, hindex.columns_exist,
      ⟨hindex.holds.entries, hindex.holds.bloom⟩⟩⟩

/-- What is known of the tables of a catalog does not depend on the process. -/
theorem Tables.Loadable.inProcess {inserted : Nat} (h : tables.Loadable H inserted) :
    tables.Loadable (H.inProcess p) inserted where
  sound name table hlookup :=
    have hsound := h.sound name table hlookup
    ⟨⟨hsound.ok.repInv.inProcess, hsound.ok.named, hsound.ok.counter⟩, hsound.backed, hsound.keys⟩
  flagged := h.flagged
  lowercase := h.lowercase

/-! ## Writes -/

variable {statement : Statement} {result : ExecutionResult}

/-- **A repeatable write does the same in every process.** -/
theorem executeCatalog_inProcess (hrepeatable : Repeatable H tables statement)
    (hwrite : isWriteStatement statement = true)
    (h : executeCatalog H tables statement = .ok (result, tables')) :
    executeCatalog (H.inProcess p) tables statement = .ok (result, tables') := by
  obtain ⟨hreads, huncached, hleft⟩ := hrepeatable
  have hchecks := hleft result tables' h
  obtain ⟨hexecute, hvalid⟩ := executeCatalog_ok h
  have hsame : executeStatement (H.inProcess p) tables statement = .ok (result, tables') := by
    cases statement with
    | createTable tableName columns constraints ifNotExists => exact hexecute
    | dropTable tableName ifExists => exact executeDropTable_inProcess hexecute
    | createIndex name tableName columns unique ifNotExists =>
      exact executeCreateIndex_inProcess hexecute
    | dropIndex name tableName ifExists => exact hexecute
    | alterTable tableName operations => exact executeAlterTable_inProcess.trans hexecute
    | insert tableName columns source onDuplicate =>
      exact executeInsert_inProcess hreads huncached hchecks hexecute
    | update tableName assignments selection =>
      exact executeUpdate_inProcess hreads hchecks hexecute
    | delete tableName selection => exact executeDelete_inProcess hreads hchecks hexecute
    | _ => cases hwrite
  rw [executeCatalog, if_pos hwrite, hsame, Result.ok_bind]
  simp only [validateCatalog_inProcess hchecks (hvalid hwrite), Result.ok_bind,
    Result.pure_eq_ok]

end Processes

end Sql
end RustyDB
