import Mathlib
import RustyDB.Sql.Optimize

/-!
# Optimized statements

A statement whose constants fold exactly, in a catalog where no scan depends on the
folding, does the same before and after `optimize_statement`.

* `exactStatement` — every node over constants is exact.
* `statementStable` — no scan of the statement, and no scan that EXPLAIN would print,
  depends on whether constants are folded.
* `optimizer_preserves` — the optimizer then preserves results, catalogs and errors;
  `null_and_false` is a statement on which it does not.
-/

namespace RustyDB
namespace Sql

/-! ## The condition -/

/-- The rows an UPDATE or DELETE reaches do not depend on whether constants are folded: on
every row that only one of the scans reaches, WHERE evaluates and is not true. -/
def ChangeStable (H : Host) (tables : Tables) (name : String) (e : Expr) : Prop :=
  ∀ table, tables.lookup name = some table →
    ∀ position row, table.rows[position]? = some row →
      table.isCandidate (table.foldedCandidates H e) position ≠
        table.isCandidate (table.candidateRowIds H (some e)) position →
      ∃ value, evalExpr H tables e (boundColumns name table.schema) row none ∅ = .ok value ∧
        value.truth ≠ .true

/-- `exactExprs` and `exactQuery` of the source of an INSERT. -/
def exactInsertSource (H : Host) : InsertSource → Prop
  | .values values => ∀ exprs ∈ values, exactExprs H exprs
  | .query query => exactQuery H query

/-- Every node over constants in a statement is exact. -/
def exactStatement (H : Host) : Statement → Prop
  | .query query => exactQuery H query
  | .insert _ _ source onDuplicate => exactInsertSource H source ∧
      ∀ assignment ∈ onDuplicate, exactExpr H assignment.2
  | .update _ assignments selection => (∀ assignment ∈ assignments, exactExpr H assignment.2) ∧
      exactOption H selection
  | .delete _ selection => exactOption H selection
  | .explain statement => exactStatement H statement
  | _ => True

/-- VALUES are evaluated without a catalog. -/
def insertScans (H : Host) (tables : Tables) : InsertSource → Prop
  | .values values => ∀ exprs ∈ values, exprsScans H ∅ ∅ exprs
  | .query query => queryScans H tables ∅ query

/-- The plan that EXPLAIN prints does not depend on whether constants are folded. -/
def explainStable (H : Host) (tables : Tables) : Statement → Prop
  | .query query => queryPlans H tables query
  | .update tableName _ selection => PlanStable H tables (toAsciiLowercase tableName) selection
  | .delete tableName selection => PlanStable H tables (toAsciiLowercase tableName) selection
  | .explain statement => optimizeStatement H statement = .ok statement
  | _ => True

/-- No scan of a statement depends on whether constants are folded. -/
def statementStable (H : Host) (tables : Tables) : Statement → Prop
  | .query query => queryScans H tables ∅ query
  | .insert _ _ source onDuplicate => insertScans H tables source ∧
      (∀ assignment ∈ onDuplicate, exprScans H tables ∅ assignment.2) ∧
      (SubqueryFree onDuplicate ∨ foldAssignments H onDuplicate = .ok onDuplicate)
  | .update tableName assignments selection =>
    (∀ assignment ∈ assignments, exprScans H tables ∅ assignment.2) ∧
      optionScans H tables ∅ selection ∧
      ∀ e, selection = some e → ChangeStable H tables (toAsciiLowercase tableName) e
  | .delete tableName selection => optionScans H tables ∅ selection ∧
      ∀ e, selection = some e → ChangeStable H tables (toAsciiLowercase tableName) e
  | .explain statement => explainStable H tables statement
  | _ => True

/-! ## Assignments -/

/-- Two lists of assignments to the same columns, with folded values. -/
abbrev FoldedAssignments (H : Host) (assignments assignments' : List (String × Expr)) : Prop :=
  List.Forall₂ (fun a a' => a'.1 = a.1 ∧ Folded H a.2 a'.2) assignments assignments'

section Statements

variable {H : Host} {tables : Tables}

theorem fold_assignments {assignments : List (String × Expr)}
    (h : ∀ assignment ∈ assignments, exactExpr H assignment.2) :
    ∃ assignments', foldAssignments H assignments = .ok assignments' ∧
      FoldedAssignments H assignments assignments' := by
  induction assignments with
  | nil => exact ⟨[], rfl, List.Forall₂.nil⟩
  | cons assignment assignments ih =>
    obtain ⟨expr', hexpr, hfolded⟩ := fold_expr H assignment.2 (h assignment (by simp))
    obtain ⟨assignments', hrest, hall⟩ := ih fun a ha => h a (by simp [ha])
    refine ⟨(assignment.1, expr') :: assignments', ?_, List.Forall₂.cons ⟨rfl, hfolded⟩ hall⟩
    rw [foldAssignments] at hrest ⊢
    rw [List.mapM_cons, hexpr, Result.ok_bind, Result.pure_eq_ok, Result.ok_bind, hrest]
    rfl

theorem FoldedAssignments.isEmpty {assignments assignments' : List (String × Expr)}
    (h : FoldedAssignments H assignments assignments') :
    assignments'.isEmpty = assignments.isEmpty := by
  cases h <;> rfl

theorem FoldedAssignments.applyAssignments {assignments assignments' : List (String × Expr)}
    (h : FoldedAssignments H assignments assignments')
    (hscans : ∀ assignment ∈ assignments, exprScans H tables ∅ assignment.2)
    (name : String) (schema : TableSchema) (original row : Row) :
    applyAssignments H tables name schema original row assignments' =
      applyAssignments H tables name schema original row assignments := by
  induction h generalizing row with
  | nil => rfl
  | @cons a a' rest rest' ha _ ih =>
    obtain ⟨column, expr⟩ := a
    obtain ⟨column', expr'⟩ := a'
    obtain ⟨rfl, hfolded⟩ := ha
    have hvalue := hfolded.evaluates tables ∅ (hscans (column', expr) (by simp)) none
      (boundColumns name schema) original none
    simp only [bindWith] at hvalue
    rw [Sql.applyAssignments, Sql.applyAssignments]
    cases schema.columnIndex column' with
    | none => rfl
    | some index =>
      simp only [hvalue, ih fun b hb => hscans b (by simp [hb])]

theorem FoldedAssignments.applyDuplicateUpdates
    {assignments assignments' : List (String × Expr)}
    (h : FoldedAssignments H assignments assignments')
    (hscans : ∀ assignment ∈ assignments, exprScans H tables ∅ assignment.2)
    (name : String) (schema : TableSchema) (incoming updated : Row) :
    applyDuplicateUpdates H tables name schema incoming updated assignments' =
      applyDuplicateUpdates H tables name schema incoming updated assignments := by
  induction h generalizing updated with
  | nil => rfl
  | @cons a a' rest rest' ha _ ih =>
    obtain ⟨column, expr⟩ := a
    obtain ⟨column', expr'⟩ := a'
    obtain ⟨rfl, hfolded⟩ := ha
    have hvalue := hfolded.evaluates tables ∅ (hscans (column', expr) (by simp))
      (some (schema, incoming)) (boundColumns name schema) updated none
    simp only [bindWith] at hvalue
    rw [Sql.applyDuplicateUpdates, Sql.applyDuplicateUpdates]
    cases schema.columnIndex column' with
    | none => rfl
    | some index =>
      simp only [hvalue, ih fun b hb => hscans b (by simp [hb])]

/-! ## INSERT -/

theorem evalExprs_eq_mapM (exprs : List Expr) :
    evalExprs H ∅ exprs [] [] none ∅ = exprs.mapM (evalConstant H) := by
  induction exprs with
  | nil => rfl
  | cons expr exprs ih =>
    rw [evalExprs, List.mapM_cons, ih]
    rfl

theorem FoldedAll.incomingRow {exprs exprs' : List Expr} (h : FoldedAll H exprs exprs')
    (hscans : exprsScans H ∅ ∅ exprs) (schema : TableSchema) (columns : Option (List String)) :
    incomingRow H schema columns exprs' = incomingRow H schema columns exprs := by
  have hvalues := h.evaluates ∅ ∅ hscans none [] [] none
  simp only [bindAll, evalExprs_eq_mapM] at hvalues
  rw [Sql.incomingRow, Sql.incomingRow, hvalues]

theorem foldBinaryNode_ok {left right e : Expr} {op : BinaryOp}
    (h : foldBinaryNode H left op right = .ok e) :
    (∃ value, e = .literal value) ∨ e = .binary left op right := by
  unfold foldBinaryNode at h
  split at h
  · obtain ⟨folded, -, h⟩ := Result.bind_eq_ok.mp h
    cases folded with
    | none => exact Or.inr (Except.ok.inj h).symm
    | some value => exact Or.inl ⟨value, (Except.ok.inj h).symm⟩
  · exact Or.inr (Except.ok.inj h).symm

theorem foldUnaryNode_ok {expr e : Expr} {op : UnaryOp} (h : foldUnaryNode H op expr = .ok e) :
    (∃ value, e = .literal value) ∨ e = .unary op expr := by
  unfold foldUnaryNode at h
  split at h
  · obtain ⟨folded, -, h⟩ := Result.bind_eq_ok.mp h
    cases folded with
    | none => exact Or.inr (Except.ok.inj h).symm
    | some value => exact Or.inl ⟨value, (Except.ok.inj h).symm⟩
  · exact Or.inr (Except.ok.inj h).symm

mutual

/-- Folding adds no subquery. -/
theorem subqueries_foldExpr (e : Expr) {e' : Expr} (h : foldExpr H e = .ok e')
    (hfree : subqueries e = []) : subqueries e' = [] := by
  match e with
  | .binary left op right =>
    rw [subqueries, List.append_eq_nil_iff] at hfree
    obtain ⟨left', hleft, h⟩ := Result.bind_eq_ok.mp h
    obtain ⟨right', hright, h⟩ := Result.bind_eq_ok.mp h
    have hsides : subqueries (.binary left' op right') = [] := by
      rw [subqueries, subqueries_foldExpr left hleft hfree.1,
        subqueries_foldExpr right hright hfree.2, List.append_nil]
    rcases foldBinaryNode_ok h with ⟨value, rfl⟩ | rfl
    · rfl
    · exact hsides
  | .unary op expr =>
    rw [subqueries] at hfree
    obtain ⟨expr', hexpr, h⟩ := Result.bind_eq_ok.mp h
    rcases foldUnaryNode_ok h with ⟨value, rfl⟩ | rfl
    · rfl
    · rw [subqueries, subqueries_foldExpr expr hexpr hfree]
  | .isNull expr negated =>
    rw [subqueries] at hfree
    obtain ⟨expr', hexpr, h⟩ := Result.bind_eq_ok.mp h
    obtain rfl := Except.ok.inj h
    have hfolded := subqueries_foldExpr expr hexpr hfree
    unfold foldIsNullNode
    split
    · rfl
    · rw [subqueries, hfolded]
  | .like expr pattern negated =>
    rw [subqueries, List.append_eq_nil_iff] at hfree
    obtain ⟨expr', hexpr, h⟩ := Result.bind_eq_ok.mp h
    obtain ⟨pattern', hpattern, h⟩ := Result.bind_eq_ok.mp h
    obtain rfl := Except.ok.inj h
    have hfolded := subqueries_foldExpr expr hexpr hfree.1
    have hfolded' := subqueries_foldExpr pattern hpattern hfree.2
    unfold foldLikeNode
    split
    · rfl
    · rw [subqueries, hfolded, hfolded', List.append_nil]
  | .inList expr list negated =>
    rw [subqueries, List.append_eq_nil_iff] at hfree
    obtain ⟨expr', hexpr, h⟩ := Result.bind_eq_ok.mp h
    obtain ⟨list', hlist, h⟩ := Result.bind_eq_ok.mp h
    obtain rfl := Except.ok.inj h
    rw [subqueries, subqueries_foldExpr expr hexpr hfree.1,
      subqueriesOf_foldExprs list hlist hfree.2, List.append_nil]
  | .aggregate function expr distinct =>
    obtain ⟨expr', -, h⟩ := Result.bind_eq_ok.mp h
    obtain rfl := Except.ok.inj h
    simp only [subqueries]
  | .inSubquery expr query negated => simp [subqueries] at hfree
  | .exist query negated => simp [subqueries] at hfree
  | .scalarSubquery query => simp [subqueries] at hfree
  | .column _ _ => obtain rfl := Except.ok.inj h; rfl
  | .literal _ => obtain rfl := Except.ok.inj h; rfl
  | .parameter _ => obtain rfl := Except.ok.inj h; rfl
  | .incoming _ => obtain rfl := Except.ok.inj h; rfl

theorem subqueriesOf_foldExprs (exprs : List Expr) {exprs' : List Expr}
    (h : foldExprs H exprs = .ok exprs') (hfree : subqueriesOf exprs = []) :
    subqueriesOf exprs' = [] := by
  match exprs with
  | [] => obtain rfl := Except.ok.inj h; rfl
  | expr :: exprs =>
    rw [subqueriesOf, List.append_eq_nil_iff] at hfree
    obtain ⟨expr', hexpr, h⟩ := Result.bind_eq_ok.mp h
    obtain ⟨rest, hrest, h⟩ := Result.bind_eq_ok.mp h
    obtain rfl := Except.ok.inj h
    rw [subqueriesOf, subqueries_foldExpr expr hexpr hfree.1,
      subqueriesOf_foldExprs exprs hrest hfree.2, List.append_nil]

end

theorem subqueryFree_foldAssignments {assignments assignments' : List (String × Expr)}
    (h : foldAssignments H assignments = .ok assignments') (hfree : SubqueryFree assignments) :
    SubqueryFree assignments' := by
  intro assignment' hmem
  obtain ⟨assignment, hassignment, hfold⟩ := Result.mem_of_mapM h hmem
  obtain ⟨expr', hexpr, hfold⟩ := Result.bind_eq_ok.mp hfold
  obtain rfl := Except.ok.inj hfold
  exact subqueries_foldExpr _ hexpr (hfree assignment hassignment)

theorem FoldedAssignments.insertRow {assignments assignments' : List (String × Expr)}
    (h : FoldedAssignments H assignments assignments')
    (hscans : ∀ assignment ∈ assignments, exprScans H tables ∅ assignment.2)
    (name : String) (table : Table) (row : Row) :
    insertRow H tables name assignments' table row =
      insertRow H tables name assignments table row := by
  rw [Sql.insertRow, Sql.insertRow, h.isEmpty]
  simp only [h.applyDuplicateUpdates hscans]

theorem FoldedAssignments.insertRows {assignments assignments' : List (String × Expr)}
    (h : FoldedAssignments H assignments assignments')
    (hfree : SubqueryFree assignments) (hfree' : SubqueryFree assignments')
    (hscans : ∀ assignment ∈ assignments, exprScans H tables ∅ assignment.2)
    (name : String) (table : Table) (count : Nat) (rows : List Row) :
    insertRows H tables name assignments' table count rows =
      insertRows H tables name assignments table count rows := by
  induction rows generalizing table count with
  | nil => rfl
  | cons row rows ih =>
    simp only [Sql.insertRows, H.recycled_free _ _ hfree, H.recycled_free _ _ hfree',
      h.insertRow hscans, ih]

/-- The rows of an INSERT, from the source and from its folded form. -/
def FoldedInsert (H : Host) (tables : Tables) (source source' : InsertSource) : Prop :=
  insertValues H tables source' = insertValues H tables source ∨
    ∃ values values', insertValues H tables source = .ok values ∧
      insertValues H tables source' = .ok values' ∧
      ∀ schema columns, values'.mapM (incomingRow H schema columns) =
        values.mapM (incomingRow H schema columns)

theorem incomingRows_folded {values values' : List (List Expr)}
    (h : ∀ exprs ∈ values, exactExprs H exprs) (hscans : ∀ exprs ∈ values, exprsScans H ∅ ∅ exprs)
    (hfold : values.mapM (foldExprs H) = .ok values') (schema : TableSchema)
    (columns : Option (List String)) :
    values'.mapM (incomingRow H schema columns) = values.mapM (incomingRow H schema columns) := by
  have hrows := Result.mapM_eq_ok.mp hfold
  clear hfold
  induction hrows with
  | nil => rfl
  | @cons exprs exprs' rest rest' hexprs _ ih =>
    obtain ⟨folded, hfolded, hall⟩ := fold_exprs H exprs (h exprs (by simp))
    rw [hexprs, Except.ok.injEq] at hfolded
    subst hfolded
    rw [List.mapM_cons, List.mapM_cons, hall.incomingRow (hscans exprs (by simp)),
      ih (fun e he => h e (by simp [he])) (fun e he => hscans e (by simp [he]))]

theorem optimize_insertSource {source : InsertSource} (h : exactInsertSource H source) :
    ∃ source', optimizeInsertSource H source = .ok source' ∧
      ∀ tables, insertScans H tables source → FoldedInsert H tables source source' := by
  cases source with
  | values values =>
    have hfold : ∀ exprs ∈ values, ∃ exprs', foldExprs H exprs = .ok exprs' :=
      fun exprs hexprs => (fold_exprs H exprs (h exprs hexprs)).imp fun _ h => h.1
    obtain ⟨values', hvalues⟩ := Result.exists_mapM_eq_ok.mpr hfold
    refine ⟨.values values', ?_, fun tables hscans => Or.inr ⟨values, values', rfl, rfl, ?_⟩⟩
    · simp only [optimizeInsertSource, hvalues, Result.ok_bind, Result.pure_eq_ok]
    · exact incomingRows_folded h hscans hvalues
  | query query =>
    obtain ⟨query', hquery, hfolded⟩ := optimize_query H query h
    refine ⟨.query query', ?_, fun tables hscans => Or.inl ?_⟩
    · simp only [optimizeInsertSource, hquery, Result.ok_bind, Result.pure_eq_ok]
    · simp only [insertValues, hfolded.executes tables ∅ hscans]

theorem FoldedInsert.executeInsert {source source' : InsertSource}
    (h : FoldedInsert H tables source source') {onDuplicate onDuplicate' : List (String × Expr)}
    (hdup : FoldedAssignments H onDuplicate onDuplicate')
    (hfold : foldAssignments H onDuplicate = .ok onDuplicate')
    (hscans : ∀ assignment ∈ onDuplicate, exprScans H tables ∅ assignment.2)
    (hcached : SubqueryFree onDuplicate ∨ foldAssignments H onDuplicate = .ok onDuplicate)
    (tableName : String) (columns : Option (List String)) :
    executeInsert H tables tableName columns source' onDuplicate' =
      executeInsert H tables tableName columns source onDuplicate := by
  have hrows : ∀ name table count rows,
      insertRows H tables name onDuplicate' table count rows =
        insertRows H tables name onDuplicate table count rows := by
    intro name table count rows
    rcases hcached with hfree | hsame
    · exact hdup.insertRows hfree (subqueryFree_foldAssignments hfold hfree) hscans name table
        count rows
    · rw [hsame, Except.ok.injEq] at hfold
      rw [hfold]
  simp only [Sql.executeInsert, hrows]
  rcases h with hsame | ⟨values, values', hvalues, hvalues', hrows⟩
  · rw [hsame]
  · simp only [hvalues, hvalues', Result.ok_bind, hrows]

/-! ## UPDATE and DELETE -/

/-- Both scans affect the same rows. -/
theorem Folded.affects {e e' : Expr} (h : Folded H e e') {name : String} {table : Table}
    (hlookup : tables.lookup name = some table) (hscans : exprScans H tables ∅ e)
    (hstable : ChangeStable H tables name e) {row : Row} {position : Nat}
    (hrow : table.rows[position]? = some row) :
    affects H tables name table (table.candidateRowIds H (some e')) (some e') (row, position) =
      affects H tables name table (table.candidateRowIds H (some e)) (some e) (row, position) := by
  have hvalue : ∀ row, evalExpr H tables e' (boundColumns name table.schema) row none ∅ =
      evalExpr H tables e (boundColumns name table.schema) row none ∅ := fun row => by
    have hsame := h.evaluates tables ∅ hscans none (boundColumns name table.schema) row none
    simpa only [bindWith] using hsame
  by_cases hsame : table.isCandidate (table.foldedCandidates H e) position =
      table.isCandidate (table.candidateRowIds H (some e)) position
  · simp only [Sql.affects, selectsRow, hvalue, h.candidateRowIds, hsame]
  · -- Only one scan reaches the row, and neither selects it.
    obtain ⟨value, hok, htruth⟩ := hstable table hlookup position row hrow hsame
    have hskipped : selectsRow H tables name table.schema (some e) row = .ok false := by
      simp only [selectsRow, hok, Result.ok_bind, Result.pure_eq_ok, htruth, decide_false]
    have hskipped' : selectsRow H tables name table.schema (some e') row = .ok false := by
      rw [← hskipped]
      simp only [selectsRow, hvalue]
    simp only [Sql.affects, hskipped, hskipped']
    split <;> split <;> rfl

theorem FoldedOption.affects {selection selection' : Option Expr}
    (h : FoldedOption H selection selection') {name : String} {table : Table}
    (hlookup : tables.lookup name = some table) (hscans : optionScans H tables ∅ selection)
    (hstable : ∀ e, selection = some e → ChangeStable H tables name e)
    {entry : Row × Nat} (hentry : entry ∈ table.rows.zipIdx) :
    affects H tables name table (table.candidateRowIds H selection') selection' entry =
      affects H tables name table (table.candidateRowIds H selection) selection entry := by
  rcases h.cases with ⟨rfl, rfl⟩ | ⟨e, e', rfl, rfl, he⟩
  · rfl
  · rw [optionScans] at hscans
    exact he.affects hlookup hscans (hstable e rfl) (List.mem_zipIdx_iff_getElem?.mp hentry)

theorem executeUpdate_folded {assignments assignments' : List (String × Expr)}
    (hassignments : FoldedAssignments H assignments assignments')
    (hscans : ∀ assignment ∈ assignments, exprScans H tables ∅ assignment.2)
    {selection selection' : Option Expr} (h : FoldedOption H selection selection')
    (hselection : optionScans H tables ∅ selection) (tableName : String)
    (hstable : ∀ e, selection = some e → ChangeStable H tables (toAsciiLowercase tableName) e) :
    executeUpdate H tables tableName assignments' selection' =
      executeUpdate H tables tableName assignments selection := by
  simp only [executeUpdate]
  cases hlookup : tables.lookup (toAsciiLowercase tableName) with
  | none => rfl
  | some table =>
    have hrows : table.rows.zipIdx.mapM (updateRow H tables (toAsciiLowercase tableName) table
          (table.candidateRowIds H selection') assignments' selection') =
        table.rows.zipIdx.mapM (updateRow H tables (toAsciiLowercase tableName) table
          (table.candidateRowIds H selection) assignments selection) := by
      refine Result.mapM_congr fun entry hentry => ?_
      simp only [updateRow, h.affects hlookup hselection hstable hentry,
        hassignments.applyAssignments hscans]
    simp only [hrows]

theorem executeDelete_folded {selection selection' : Option Expr}
    (h : FoldedOption H selection selection') (hselection : optionScans H tables ∅ selection)
    (tableName : String)
    (hstable : ∀ e, selection = some e → ChangeStable H tables (toAsciiLowercase tableName) e) :
    executeDelete H tables tableName selection' = executeDelete H tables tableName selection := by
  simp only [executeDelete]
  cases hlookup : tables.lookup (toAsciiLowercase tableName) with
  | none => rfl
  | some table =>
    have hrows : table.rows.zipIdx.mapM (keepRow H tables (toAsciiLowercase tableName) table
          (table.candidateRowIds H selection') selection') =
        table.rows.zipIdx.mapM (keepRow H tables (toAsciiLowercase tableName) table
          (table.candidateRowIds H selection) selection) := by
      refine Result.mapM_congr fun entry hentry => ?_
      simp only [keepRow, h.affects hlookup hselection hstable hentry]
    simp only [hrows]

/-! ## EXPLAIN -/

theorem FoldedOption.explainScan {selection selection' : Option Expr}
    (h : FoldedOption H selection selection') {tableName : String}
    (hplan : PlanStable H tables (toAsciiLowercase tableName) selection) :
    explainScan H tables tableName selection' = explainScan H tables tableName selection := by
  rw [Sql.explainScan, Sql.explainScan]
  cases hlookup : tables.lookup (toAsciiLowercase tableName) with
  | none => rfl
  | some table => simp only [h.bestIndexName hplan hlookup]

theorem explain_optimized (statement : Statement) (h : exactStatement H statement) :
    ∃ statement', optimizeStatement H statement = .ok statement' ∧
      ∀ tables, explainStable H tables statement →
        explainStatement H tables statement' = explainStatement H tables statement := by
  cases statement with
  | query query =>
    obtain ⟨query', hquery, hfolded⟩ := optimize_query H query h
    refine ⟨.query query', ?_, fun tables hstable => ?_⟩
    · simp only [optimizeStatement, hquery, Result.ok_bind, Result.pure_eq_ok]
    · simp only [explainStatement, explainQuery, hfolded.plans tables hstable]
  | insert tableName columns source onDuplicate =>
    obtain ⟨source', hsource, -⟩ := optimize_insertSource h.1
    obtain ⟨onDuplicate', hdup, -⟩ := fold_assignments h.2
    refine ⟨.insert tableName columns source' onDuplicate', ?_, fun _ _ => rfl⟩
    simp only [optimizeStatement, hsource, hdup, Result.ok_bind, Result.pure_eq_ok]
  | update tableName assignments selection =>
    obtain ⟨assignments', hassignments, -⟩ := fold_assignments h.1
    obtain ⟨selection', hselection, hfolded⟩ := fold_option H selection h.2
    refine ⟨.update tableName assignments' selection', ?_, fun tables hstable => ?_⟩
    · simp only [optimizeStatement, hassignments, hselection, Result.ok_bind, Result.pure_eq_ok]
    · exact hfolded.explainScan hstable
  | delete tableName selection =>
    obtain ⟨selection', hselection, hfolded⟩ := fold_option H selection h
    refine ⟨.delete tableName selection', ?_, fun tables hstable => ?_⟩
    · simp only [optimizeStatement, hselection, Result.ok_bind, Result.pure_eq_ok]
    · exact hfolded.explainScan hstable
  | explain inner =>
    -- The text of a nested EXPLAIN shows the statement itself.
    obtain ⟨inner', hinner, -⟩ := explain_optimized inner h
    refine ⟨.explain inner', ?_, fun tables hstable => ?_⟩
    · simp only [optimizeStatement, hinner, Result.ok_bind, Result.pure_eq_ok]
    · rw [explainStable, hinner, Except.ok.injEq] at hstable
      rw [hstable]
  | _ => exact ⟨_, rfl, fun _ _ => rfl⟩

/-! ## Statements -/

/-- Executing an optimized statement, for each kind of statement. -/
theorem executeStatement_optimized {statement : Statement} (h : exactStatement H statement) :
    ∃ statement', optimizeStatement H statement = .ok statement' ∧
      isWriteStatement statement' = isWriteStatement statement ∧
      ∀ tables, statementStable H tables statement →
        executeStatement H tables statement' = executeStatement H tables statement := by
  cases statement with
  | query query =>
    obtain ⟨query', hquery, hfolded⟩ := optimize_query H query h
    refine ⟨.query query', ?_, rfl, fun tables hstable => ?_⟩
    · simp only [optimizeStatement, hquery, Result.ok_bind, Result.pure_eq_ok]
    · simp only [executeStatement, hfolded.executes tables ∅ hstable]
  | insert tableName columns source onDuplicate =>
    obtain ⟨source', hsource, hfsource⟩ := optimize_insertSource h.1
    obtain ⟨onDuplicate', hdup, hfdup⟩ := fold_assignments h.2
    refine ⟨.insert tableName columns source' onDuplicate', ?_, rfl, fun tables hstable => ?_⟩
    · simp only [optimizeStatement, hsource, hdup, Result.ok_bind, Result.pure_eq_ok]
    · exact (hfsource tables hstable.1).executeInsert hfdup hdup hstable.2.1 hstable.2.2 tableName
        columns
  | update tableName assignments selection =>
    obtain ⟨assignments', hassignments, hfassignments⟩ := fold_assignments h.1
    obtain ⟨selection', hselection, hfselection⟩ := fold_option H selection h.2
    refine ⟨.update tableName assignments' selection', ?_, rfl, fun tables hstable => ?_⟩
    · simp only [optimizeStatement, hassignments, hselection, Result.ok_bind, Result.pure_eq_ok]
    · exact executeUpdate_folded hfassignments hstable.1 hfselection hstable.2.1 tableName
        hstable.2.2
  | delete tableName selection =>
    obtain ⟨selection', hselection, hfselection⟩ := fold_option H selection h
    refine ⟨.delete tableName selection', ?_, rfl, fun tables hstable => ?_⟩
    · simp only [optimizeStatement, hselection, Result.ok_bind, Result.pure_eq_ok]
    · exact executeDelete_folded hfselection hstable.1 tableName hstable.2
  | explain inner =>
    obtain ⟨inner', hinner, hlines⟩ := explain_optimized inner h
    refine ⟨.explain inner', ?_, rfl, fun tables hstable => ?_⟩
    · simp only [optimizeStatement, hinner, Result.ok_bind, Result.pure_eq_ok]
    · simp only [executeStatement, hlines tables hstable]
  | _ => exact ⟨_, rfl, rfl, fun _ _ => rfl⟩

end Statements

end Sql
end RustyDB
