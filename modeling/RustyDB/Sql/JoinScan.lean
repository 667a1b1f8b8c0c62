import Mathlib
import RustyDB.Lib.DifferBy
import RustyDB.Sql.Invariant
import RustyDB.Sql.SingleTable

/-!
# Index scans under joins

`execute_query` restricts the FROM table by an index before it joins.  The rows of
the FROM table lead every joined row, so a conjunct that names one of its columns
can be decided before the joins; one that names a column of another table cannot,
but the scan matches columns by their bare name.

* `joinRelations_ok`, `joinRelations_of_matches` — a join, row by row of its left side.
* `AddedEvaluate` — the conditions evaluate on what the joins build from one relation and
  not from another.
* `executeJoins_differ`, `executeJoins_added` — two runs of the joins from relations that
  differ in rows that WHERE drops: one join keeps them together, so all joins do, and the
  second run succeeds exactly if the conditions evaluate on what it adds.
* `FailsConjunct`, `Table.DifferRightly` — a conjunct of WHERE on a column of the FROM table
  fails, on every row that one scan reaches and another does not.
* `pushdown_agrees_iff` — where the index leaves rows out rightly, when it agrees with the
  full scan.
* `pushdown_drops_rows` — a row that it leaves out wrongly.
-/

namespace RustyDB
namespace Sql

/-! ## One join -/

/-- The ON condition of a join as a test of a joined row. -/
def joinTest (H : Host) (tables : Tables) (on : Option Expr) (ctes : Ctes)
    (columns : List BoundColumn) (row : Row) : Except Fault Bool :=
  match on with
  | none => .ok true
  | some on => do
    let value ← evalExpr H tables on columns row none ctes
    pure (decide (value.truth = .true))

/-- Which right rows a left row matches, by hash or by nested loop. -/
def joinMatcher (H : Host) (columns : List BoundColumn) (right : Relation) (on : Option Expr)
    (test : List BoundColumn → Row → Except Fault Bool) :
    Except Fault (Row → Except Fault (List Bool)) :=
  match on.bind (fun expression => hashJoinIndices expression columns right.columns) with
  | some (leftIndex, rightIndex) => do
    let entries ← right.rows.mapM (hashEntry rightIndex)
    pure (hashMatches H leftIndex entries)
  | none => .ok (nestedLoopMatches (test (columns ++ right.columns)) right.rows)

/-- The joined rows of one left row. -/
def joinedRows (joinType : JoinType) (right : Relation) (flags : List Bool) (leftRow : Row) :
    List Row :=
  let found := (right.rows.zip flags).filterMap (fun candidate =>
    if candidate.2 then some (leftRow ++ candidate.1) else none)
  if found.isEmpty && joinType == .left then
    [leftRow ++ List.replicate right.columns.length Value.null]
  else found

/-- The matches of a left row, when they can be computed. -/
def flagsOf (matcher : Row → Except Fault (List Bool)) (leftRow : Row) : List Bool :=
  (matcher leftRow).toOption.getD []

section Join

variable {H : Host} {tables : Tables} {ctes : Ctes} {left right joined : Relation}
  {joinType : JoinType} {on : Option Expr} {test : List BoundColumn → Row → Except Fault Bool}

theorem executeJoins_cons (H : Host) (tables : Tables) (ctes : Ctes) (joinType : JoinType)
    (source : TableSource) (on : Option Expr) (joins : List Join) (relation : Relation) :
    executeJoins H tables (⟨joinType, source, on⟩ :: joins) relation ctes =
      (do
        let right ← sourceRelation H tables source ctes none
        let relation ← joinRelations H relation right joinType on (joinTest H tables on ctes)
        executeJoins H tables joins relation ctes) := by
  cases on with
  | none =>
    rw [executeJoins]
    rfl
  | some on =>
    rw [executeJoins]
    rfl

theorem joinRelations_eq (H : Host) (left right : Relation) (joinType : JoinType)
    (on : Option Expr) (test : List BoundColumn → Row → Except Fault Bool) :
    joinRelations H left right joinType on test =
      (do
        let matcher ← joinMatcher H left.columns right on test
        let matched ← left.rows.mapM matcher
        pure { columns := left.columns ++ right.columns
               rows := joinRows joinType left.columns.length right.columns.length left.rows
                 right.rows matched }) := by
  unfold joinRelations joinMatcher
  cases on.bind (fun expression => hashJoinIndices expression left.columns right.columns) with
  | none => rfl
  | some indices =>
    simp only [hashJoin]
    cases right.rows.mapM (hashEntry indices.2) <;> rfl

/-- A right row that no left row matched, extended by NULLs. -/
def NullExtended (width : Nat) (right : Relation) (row : Row) : Prop :=
  ∃ rightRow ∈ right.rows, row = List.replicate width Value.null ++ rightRow

theorem joinRows_eq (matcher : Row → Except Fault (List Bool)) (width : Nat) (rows : List Row) :
    ∃ unmatched, joinRows joinType width right.columns.length rows right.rows
        (rows.map (flagsOf matcher)) =
        rows.flatMap (fun row => joinedRows joinType right (flagsOf matcher row) row) ++ unmatched ∧
      ∀ row ∈ unmatched, joinType = .right ∧ NullExtended width right row := by
  unfold joinRows
  refine ⟨_, congrArg₂ (· ++ ·) ?_ rfl, ?_⟩
  · rw [← List.map_prod_left_eq_zip, List.flatMap_map]
    rfl
  · intro row hrow
    split at hrow
    · rename_i hright
      obtain ⟨⟨rightRow, i⟩, hmem, hrow⟩ := List.mem_filterMap.mp hrow
      split at hrow
      · simp at hrow
      · exact ⟨eq_of_beq hright, rightRow, List.fst_mem_of_mem_zipIdx hmem,
          (Option.some.inj hrow).symm⟩
    · simp at hrow

theorem mapM_flagsOf {matcher : Row → Except Fault (List Bool)} {rows : List Row}
    {matched : List (List Bool)} (h : rows.mapM matcher = .ok matched) :
    matched = rows.map (flagsOf matcher) := by
  have hrows := Result.mapM_eq_ok.mp h
  clear h
  induction hrows with
  | nil => rfl
  | cons hrow _ ih =>
    rw [List.map_cons, ← ih, flagsOf, hrow]
    rfl

/-- What a join that succeeds has done. -/
theorem joinRelations_ok (h : joinRelations H left right joinType on test = .ok joined) :
    ∃ matcher, joinMatcher H left.columns right on test = .ok matcher ∧
      (∀ row ∈ left.rows, ∃ flags, matcher row = .ok flags) ∧
      joined.columns = left.columns ++ right.columns ∧
      ∃ unmatched, joined.rows =
          left.rows.flatMap (fun row => joinedRows joinType right (flagsOf matcher row) row) ++
            unmatched ∧
        ∀ row ∈ unmatched, joinType = .right ∧ NullExtended left.columns.length right row := by
  rw [joinRelations_eq] at h
  obtain ⟨matcher, hmatcher, h⟩ := Result.bind_eq_ok.mp h
  obtain ⟨matched, hmatched, h⟩ := Result.bind_eq_ok.mp h
  simp only [Result.pure_eq_ok, Except.ok.injEq] at h
  subst h
  obtain ⟨unmatched, hrows, hunmatched⟩ :=
    @joinRows_eq right joinType matcher left.columns.length left.rows
  refine ⟨matcher, hmatcher, Result.exists_mapM_eq_ok.mp ⟨matched, hmatched⟩, rfl, unmatched,
    ?_, hunmatched⟩
  rw [mapM_flagsOf hmatched]
  exact hrows

/-- A join succeeds when the matches of every left row can be computed. -/
theorem joinRelations_of_matches {matcher : Row → Except Fault (List Bool)}
    (hmatcher : joinMatcher H left.columns right on test = .ok matcher)
    (hrows : ∀ row ∈ left.rows, ∃ flags, matcher row = .ok flags) :
    ∃ joined, joinRelations H left right joinType on test = .ok joined := by
  obtain ⟨matched, hmatched⟩ := Result.exists_mapM_eq_ok.mpr hrows
  rw [joinRelations_eq, hmatcher, Result.ok_bind, hmatched, Result.ok_bind]
  exact ⟨_, rfl⟩

theorem exists_of_mem_joinedRows {flags : List Bool} {leftRow row : Row}
    (h : row ∈ joinedRows joinType right flags leftRow) : ∃ rest, row = leftRow ++ rest := by
  unfold joinedRows at h
  simp only at h
  split at h
  · exact ⟨_, List.mem_singleton.mp h⟩
  · obtain ⟨candidate, -, hrow⟩ := List.mem_filterMap.mp h
    split at hrow
    · exact ⟨_, (Option.some.inj hrow).symm⟩
    · simp at hrow

end Join

/-! ## Two runs of the joins -/

/-- The ON conditions and WHERE evaluate on the rows that the joins build from the second
relation and not from the first. -/
def AddedEvaluate (H : Host) (tables : Tables) (ctes : Ctes) (e : Expr) :
    List Join → Relation → Relation → Prop
  | [], first, second => ∀ row ∈ second.rows, row ∉ first.rows →
      ∃ value, evalExpr H tables e first.columns row none ctes = .ok value
  | ⟨joinType, source, on⟩ :: joins, first, second =>
    ∀ right, sourceRelation H tables source ctes none = .ok right →
      (∀ matcher,
        joinMatcher H first.columns right on (joinTest H tables on ctes) = .ok matcher →
        ∀ row ∈ second.rows, row ∉ first.rows → ∃ flags, matcher row = .ok flags) ∧
      ∀ joined joined',
        joinRelations H first right joinType on (joinTest H tables on ctes) = .ok joined →
        joinRelations H second right joinType on (joinTest H tables on ctes) = .ok joined' →
        AddedEvaluate H tables ctes e joins joined joined'

/-- The columns that the joins give. -/
def joinedColumns (H : Host) (tables : Tables) (ctes : Ctes) :
    List Join → List BoundColumn → Except Fault (List BoundColumn)
  | [], columns => .ok columns
  | join :: joins, columns => do
    let right ← sourceRelation H tables join.source ctes none
    joinedColumns H tables ctes joins (columns ++ right.columns)

/-- A property of rows that is that of their first `width` values, and which NULLs there
have. -/
structure LostFrom (lost : Row → Prop) (width : Nat) : Prop where
  append : ∀ row rest : Row, lost row → lost (row ++ rest)
  null : ∀ (m : Nat) (rest : Row), width ≤ m → lost (List.replicate m Value.null ++ rest)

section Runs

variable {H : Host} {tables : Tables} {ctes : Ctes} {e : Expr} {lost : Row → Prop} {width : Nat}
  {first second joined joined' right : Relation} {joinType : JoinType} {on : Option Expr}
  {joins : List Join} {test : List BoundColumn → Row → Except Fault Bool}

/-- A join of the second relation succeeds if its ON condition evaluates on what is added. -/
theorem joinRelations_added (hcolumns : second.columns = first.columns)
    (hfirst : joinRelations H first right joinType on test = .ok joined) :
    (∃ joined', joinRelations H second right joinType on test = .ok joined') ↔
      ∀ matcher, joinMatcher H first.columns right on test = .ok matcher →
        ∀ row ∈ second.rows, row ∉ first.rows → ∃ flags, matcher row = .ok flags := by
  obtain ⟨matcher, hmatcher, hmatches, -⟩ := joinRelations_ok hfirst
  constructor
  · rintro ⟨joined', hsecond⟩ other hother row hrow -
    obtain ⟨matcher', hmatcher', hmatches', -⟩ := joinRelations_ok hsecond
    rw [hcolumns, hother, Except.ok.injEq] at hmatcher'
    subst hmatcher'
    exact hmatches' row hrow
  · intro hadded
    have hmatcher' : joinMatcher H second.columns right on test = .ok matcher := by
      rw [hcolumns, hmatcher]
    refine joinRelations_of_matches hmatcher' fun row hrow => ?_
    by_cases hknown : row ∈ first.rows
    · exact hmatches row hknown
    · exact hadded matcher hmatcher row hrow hknown

/-- **One join** keeps the two runs together. -/
theorem joinRelations_differ (hlost : LostFrom lost width) (hwidth : width ≤ first.columns.length)
    (hcolumns : second.columns = first.columns) (h : DifferBy lost first.rows second.rows)
    (hfirst : joinRelations H first right joinType on test = .ok joined)
    (hsecond : joinRelations H second right joinType on test = .ok joined') :
    joined.columns = first.columns ++ right.columns ∧ joined'.columns = joined.columns ∧
      DifferBy lost joined.rows joined'.rows := by
  obtain ⟨matcher, hmatcher, -, hjoined, unmatched, hrows, hunmatched⟩ := joinRelations_ok hfirst
  obtain ⟨matcher', hmatcher', -, hjoined', unmatched', hrows', hunmatched'⟩ :=
    joinRelations_ok hsecond
  rw [hcolumns, hmatcher, Except.ok.injEq] at hmatcher'
  subst hmatcher'
  rw [hcolumns] at hjoined' hunmatched'
  have hnull : ∀ {rows : List Row}, (∀ row ∈ rows, joinType = .right ∧
      NullExtended first.columns.length right row) → ∀ row ∈ rows, lost row := by
    intro rows hextended row hrow
    obtain ⟨-, rightRow, -, rfl⟩ := hextended row hrow
    exact hlost.null _ rightRow hwidth
  refine ⟨hjoined, hjoined'.trans hjoined.symm, ?_⟩
  rw [hrows, hrows']
  refine (h.flatMap fun row hrow built hbuilt => ?_).append
    (.of_forall (hnull hunmatched) (hnull hunmatched'))
  obtain ⟨rest, rfl⟩ := exists_of_mem_joinedRows hbuilt
  exact hlost.append row rest hrow

/-- **All joins** keep the two runs together. -/
theorem executeJoins_differ (hlost : LostFrom lost width) (hwidth : width ≤ first.columns.length)
    (hcolumns : second.columns = first.columns) (h : DifferBy lost first.rows second.rows)
    (hfirst : executeJoins H tables joins first ctes = .ok joined)
    (hsecond : executeJoins H tables joins second ctes = .ok joined') :
    joined'.columns = joined.columns ∧ DifferBy lost joined.rows joined'.rows := by
  induction joins generalizing first second with
  | nil =>
    rw [executeJoins, Except.ok.injEq] at hfirst hsecond
    subst hfirst hsecond
    exact ⟨hcolumns, h⟩
  | cons join joins ih =>
    obtain ⟨joinType, source, on⟩ := join
    rw [executeJoins_cons] at hfirst hsecond
    obtain ⟨right, hright, hfirst⟩ := Result.bind_eq_ok.mp hfirst
    obtain ⟨next, hnext, hfirst⟩ := Result.bind_eq_ok.mp hfirst
    rw [hright, Result.ok_bind] at hsecond
    obtain ⟨next', hnext', hsecond⟩ := Result.bind_eq_ok.mp hsecond
    obtain ⟨hbuilt, hsame, hrows⟩ := joinRelations_differ hlost hwidth hcolumns h hnext hnext'
    refine ih ?_ hsame hrows hfirst hsecond
    rw [hbuilt, List.length_append]
    exact Nat.le_add_right_of_le hwidth

/-- Nothing is added where both relations are the same. -/
theorem addedEvaluate_refl (relation : Relation) :
    AddedEvaluate H tables ctes e joins relation relation := by
  induction joins generalizing relation with
  | nil => exact fun row hrow hnot => absurd hrow hnot
  | cons join joins ih =>
    obtain ⟨joinType, source, on⟩ := join
    refine fun right _ => ⟨fun _ _ row hrow hnot => absurd hrow hnot,
      fun built built' hbuilt hbuilt' => ?_⟩
    obtain rfl := Except.ok.inj (hbuilt.symm.trans hbuilt')
    exact ih built

theorem columns_executeJoins (h : executeJoins H tables joins first ctes = .ok joined) :
    joinedColumns H tables ctes joins first.columns = .ok joined.columns := by
  induction joins generalizing first with
  | nil =>
    rw [executeJoins, Except.ok.injEq] at h
    rw [joinedColumns, h]
  | cons join joins ih =>
    obtain ⟨joinType, source, on⟩ := join
    rw [executeJoins_cons] at h
    obtain ⟨right, hright, h⟩ := Result.bind_eq_ok.mp h
    obtain ⟨next, hnext, h⟩ := Result.bind_eq_ok.mp h
    obtain ⟨-, -, -, hcolumns, -⟩ := joinRelations_ok hnext
    rw [joinedColumns, hright, Result.ok_bind, ← hcolumns]
    exact ih h

theorem exists_append_of_joinedColumns {columns built : List BoundColumn}
    (h : joinedColumns H tables ctes joins columns = .ok built) :
    ∃ rest, built = columns ++ rest := by
  induction joins generalizing columns with
  | nil =>
    rw [joinedColumns, Except.ok.injEq] at h
    exact ⟨[], by rw [h, List.append_nil]⟩
  | cons join joins ih =>
    obtain ⟨right, -, h⟩ := Result.bind_eq_ok.mp h
    obtain ⟨rest, hrest⟩ := ih h
    exact ⟨right.columns ++ rest, by rw [hrest, List.append_assoc]⟩

/-- **The second run succeeds** exactly if the conditions evaluate on what is added. -/
theorem executeJoins_added (hcolumns : second.columns = first.columns)
    (hfirst : executeJoins H tables joins first ctes = .ok joined)
    (hwhere : ∀ row ∈ joined.rows,
      ∃ value, evalExpr H tables e joined.columns row none ctes = .ok value) :
    AddedEvaluate H tables ctes e joins first second ↔
      ∃ joined', executeJoins H tables joins second ctes = .ok joined' ∧
        ∀ row ∈ joined'.rows,
          ∃ value, evalExpr H tables e joined'.columns row none ctes = .ok value := by
  induction joins generalizing first second with
  | nil =>
    rw [executeJoins, Except.ok.injEq] at hfirst
    subst hfirst
    simp only [AddedEvaluate, executeJoins, Except.ok.injEq, exists_eq_left', hcolumns]
    refine forall₂_congr fun row _ => ⟨fun hadded => ?_, fun heval _ => heval⟩
    by_cases hknown : row ∈ first.rows
    · exact hwhere row hknown
    · exact hadded hknown
  | cons join joins ih =>
    obtain ⟨joinType, source, on⟩ := join
    rw [executeJoins_cons] at hfirst
    obtain ⟨right, hright, hfirst⟩ := Result.bind_eq_ok.mp hfirst
    obtain ⟨next, hnext, hfirst⟩ := Result.bind_eq_ok.mp hfirst
    have hsucceeds := joinRelations_added hcolumns hnext
    have hcolumns_of : ∀ next', joinRelations H second right joinType on
        (joinTest H tables on ctes) = .ok next' → next'.columns = next.columns := by
      intro next' hnext'
      obtain ⟨-, -, -, hbuilt, -⟩ := joinRelations_ok hnext
      obtain ⟨-, -, -, hbuilt', -⟩ := joinRelations_ok hnext'
      rw [hbuilt, hbuilt', hcolumns]
    rw [AddedEvaluate, executeJoins_cons, hright, Result.ok_bind]
    constructor
    · intro hadded
      obtain ⟨hmatches, hrest⟩ := hadded right rfl
      obtain ⟨next', hnext'⟩ := hsucceeds.mpr hmatches
      rw [hnext', Result.ok_bind]
      exact (ih (hcolumns_of next' hnext') hfirst).mp (hrest next next' hnext hnext')
    · rintro ⟨joined', hsecond, heval⟩ other hother
      obtain rfl := Except.ok.inj hother
      obtain ⟨next', hnext', hsecond⟩ := Result.bind_eq_ok.mp hsecond
      refine ⟨hsucceeds.mp ⟨next', hnext'⟩, fun built built' hbuilt hbuilt' => ?_⟩
      obtain rfl := Except.ok.inj (hnext.symm.trans hbuilt)
      obtain rfl := Except.ok.inj (hnext'.symm.trans hbuilt')
      exact (ih (hcolumns_of next' hnext') hfirst).mpr ⟨joined', hsecond, heval⟩

end Runs

/-! ## WHERE after the joins -/

/-- A test is true on a row. -/
def holdsOn (test : Row → Except Fault Value) (row : Row) : Bool :=
  match test row with
  | .ok value => decide (value.truth = .true)
  | .error _ => false

theorem filterRows_holdsOn {test : Row → Except Fault Value} {rows : List Row}
    (h : ∀ row ∈ rows, ∃ value, test row = .ok value) :
    filterRows test rows = .ok (rows.filter (holdsOn test)) := by
  refine filterRows_eq fun row hrow => ?_
  obtain ⟨value, hvalue⟩ := h row hrow
  exact ⟨value, hvalue, by rw [holdsOn, hvalue]⟩

theorem evaluates_of_filterRows {test : Row → Except Fault Value} {rows filtered : List Row}
    (h : filterRows test rows = .ok filtered) : ∀ row ∈ rows, ∃ value, test row = .ok value := by
  induction rows generalizing filtered with
  | nil => simp
  | cons row rows ih =>
    obtain ⟨value, hvalue, h⟩ := Result.bind_eq_ok.mp h
    obtain ⟨rest, hrest, -⟩ := Result.bind_eq_ok.mp h
    exact List.forall_mem_cons.mpr ⟨⟨value, hvalue⟩, ih hrest⟩

/-! ## The condition -/

/-- A conjunct `column op constant` fails on a row of the FROM table: if its name resolves
among the columns of the joins, it is one of the first columns, and the comparison is not
true. -/
def FailsConjunct (H : Host) (conjuncts : List (Option String × IndexPredicate))
    (columns : List BoundColumn) (width : Nat) (row : Row) : Prop :=
  ∃ conjunct ∈ conjuncts, isIndexOperator conjunct.2.operator ∧
    ∀ i, resolveColumn columns conjunct.1 conjunct.2.column = .ok i → i < width ∧
      ∃ value, row[i]? = some value ∧
        value.compareSql H.lowercase conjunct.2.value conjunct.2.operator ≠ .true

section Failing

variable {H : Host} {tables : Tables} {ctes : Ctes}
  {conjuncts : List (Option String × IndexPredicate)} {columns : List BoundColumn} {width : Nat}
  {row : Row}

/-- Joins do not change whether a conjunct fails, and NULLs fail it. -/
theorem FailsConjunct.lostFrom (h : FailsConjunct H conjuncts columns width row) :
    LostFrom (FailsConjunct H conjuncts columns width) width := by
  constructor
  · rintro other rest ⟨conjunct, hmem, hop, hfails⟩
    refine ⟨conjunct, hmem, hop, fun i hi => ?_⟩
    obtain ⟨hlt, value, hvalue, hcompare⟩ := hfails i hi
    obtain ⟨hbound, -⟩ := List.getElem?_eq_some_iff.mp hvalue
    exact ⟨hlt, value, by rw [List.getElem?_append_left hbound, hvalue], hcompare⟩
  · intro m rest hm
    obtain ⟨conjunct, hmem, hop, hfails⟩ := h
    refine ⟨conjunct, hmem, hop, fun i hi => ?_⟩
    have hlt := (hfails i hi).1
    have hbound : i < (List.replicate m Value.null).length := by
      rw [List.length_replicate]
      exact Nat.lt_of_lt_of_le hlt hm
    refine ⟨hlt, .null, ?_, by simp [Value.compareSql, Value.isNull]⟩
    rw [List.getElem?_append_left hbound, List.getElem?_replicate,
      if_pos (Nat.lt_of_lt_of_le hlt hm)]

/-- WHERE is not true on a row on which one of its conjuncts fails. -/
theorem FailsConjunct.not_holdsOn {e : Expr}
    (hconjuncts : ∀ conjunct ∈ conjuncts, conjunct ∈ indexConjuncts e)
    (h : FailsConjunct H conjuncts columns width row) :
    holdsOn (fun row => evalExpr H tables e columns row none ctes) row = false := by
  obtain ⟨conjunct, hmem, hop, hfails⟩ := h
  rw [Bool.eq_false_iff]
  intro hholds
  unfold holdsOn at hholds
  split at hholds
  · rename_i value hvalue
    obtain ⟨i, x, hi, hx, hcompare⟩ :=
      conjuncts_true hvalue (of_decide_eq_true hholds) conjunct (hconjuncts conjunct hmem) hop
    obtain ⟨-, y, hy, hnot⟩ := hfails i hi
    obtain rfl := Option.some.inj (hx.symm.trans hy)
    exact hnot hcompare
  · cases hholds

end Failing

/-- The rows of a table that a scan reaches. -/
def Table.scan (table : Table) (visibleName : String) (candidates : Option BestIndex) :
    Relation where
  columns := boundColumns visibleName table.schema
  rows := table.rows.zipIdx.filterMap fun entry =>
    if table.isCandidate candidates entry.2 then some entry.1 else none

/-- On every row that one scan reaches and the other does not, a conjunct fails. -/
def Table.DifferRightly (H : Host) (table : Table)
    (conjuncts : List (Option String × IndexPredicate)) (columns : List BoundColumn)
    (candidates candidates' : Option BestIndex) : Prop :=
  ∀ position row, table.rows[position]? = some row →
    table.isCandidate candidates position ≠ table.isCandidate candidates' position →
    FailsConjunct H conjuncts columns table.schema.columns.length row

section Scans

variable {H : Host} {tables : Tables} {ctes : Ctes} {table : Table} {e : Expr}
  {visibleName : String} {candidates candidates' : Option BestIndex} {joins : List Join}
  {conjuncts : List (Option String × IndexPredicate)} {columns : List BoundColumn}

/-- Scans that reach the same positions. -/
theorem Table.scan_congr (h : ∀ position < table.rows.length,
      table.isCandidate candidates' position = table.isCandidate candidates position) :
    table.scan visibleName candidates' = table.scan visibleName candidates := by
  simp only [Table.scan, Relation.mk.injEq, true_and]
  refine List.filterMap_congr fun entry hentry => ?_
  obtain ⟨hlt, -⟩ := List.getElem?_eq_some_iff.mp (List.mem_zipIdx_iff_getElem?.mp hentry)
  rw [h entry.2 hlt]

theorem Table.DifferRightly.differBy
    (h : table.DifferRightly H conjuncts columns candidates candidates') :
    DifferBy (FailsConjunct H conjuncts columns table.schema.columns.length)
      (table.scan visibleName candidates).rows (table.scan visibleName candidates').rows := by
  refine differBy_filterMap fun entry hentry => ?_
  have hrow := List.mem_zipIdx_iff_getElem?.mp hentry
  by_cases hsame : table.isCandidate candidates entry.2 = table.isCandidate candidates' entry.2
  · exact Or.inl (by rw [hsame])
  · have hfails := h entry.2 entry.1 hrow hsame
    have hall : ∀ (flag : Bool), ∀ row ∈ (if flag then some entry.1 else none : Option Row),
        FailsConjunct H conjuncts columns table.schema.columns.length row := by
      intro flag row hmem
      cases flag with
      | false => cases hmem
      | true =>
        obtain rfl := Option.some.inj hmem
        exact hfails
    exact Or.inr ⟨hall _, hall _⟩

/-- **Two scans under joins and WHERE**: if the first run succeeds, and the scans differ in
rows on which a conjunct fails, the second one gives the same rows exactly if the conditions
evaluate on what it adds, and else fails. -/
theorem filtered_of_scans {joined filtered : Relation}
    (hfails : ∀ columns row, FailsConjunct H conjuncts columns table.schema.columns.length row →
      holdsOn (fun row => evalExpr H tables e columns row none ctes) row = false)
    (hdiffer : ∀ columns, joinedColumns H tables ctes joins
        (boundColumns visibleName table.schema) = .ok columns →
      table.DifferRightly H conjuncts columns candidates candidates')
    (hjoined : executeJoins H tables joins (table.scan visibleName candidates) ctes = .ok joined)
    (hfiltered : applySelection (whereEvaluator H tables (some e) ctes) joined = .ok filtered) :
    (AddedEvaluate H tables ctes e joins (table.scan visibleName candidates)
        (table.scan visibleName candidates') →
      ∃ joined', executeJoins H tables joins (table.scan visibleName candidates') ctes =
          .ok joined' ∧
        applySelection (whereEvaluator H tables (some e) ctes) joined' = .ok filtered) ∧
    ∀ joined' filtered',
      executeJoins H tables joins (table.scan visibleName candidates') ctes = .ok joined' →
      applySelection (whereEvaluator H tables (some e) ctes) joined' = .ok filtered' →
      AddedEvaluate H tables ctes e joins (table.scan visibleName candidates)
        (table.scan visibleName candidates') := by
  simp only [applySelection, whereEvaluator] at hfiltered ⊢
  obtain ⟨rows, hrows, hpure⟩ := Result.bind_eq_ok.mp hfiltered
  have heval := evaluates_of_filterRows hrows
  have hsame : (table.scan visibleName candidates').columns =
      (table.scan visibleName candidates).columns := rfl
  have hadded := executeJoins_added hsame hjoined heval
  refine ⟨fun h => ?_, fun joined' filtered' hjoined' hfiltered' => ?_⟩
  · obtain ⟨joined', hjoined', heval'⟩ := hadded.mp h
    refine ⟨joined', hjoined', ?_⟩
    have hright := hdiffer joined.columns (columns_executeJoins hjoined)
    rw [filterRows_holdsOn heval, Except.ok.injEq] at hrows
    rw [filterRows_holdsOn heval', Result.ok_bind]
    by_cases hreaches : ∀ position < table.rows.length,
        table.isCandidate candidates' position = table.isCandidate candidates position
    · rw [Table.scan_congr hreaches, hjoined, Except.ok.injEq] at hjoined'
      rw [← hjoined', hrows]
      exact hpure
    · simp only [not_forall] at hreaches
      obtain ⟨position, hposition, hne⟩ := hreaches
      have hleft := hright position _ (List.getElem?_eq_getElem hposition) (Ne.symm hne)
      obtain ⟨hbuilt, hrun⟩ := executeJoins_differ hleft.lostFrom
        (by simp [Table.scan, boundColumns]) hsame hright.differBy hjoined hjoined'
      rw [hbuilt, ← hrun.filter_eq fun row hrow => hfails _ row hrow, hrows]
      exact hpure
  · obtain ⟨rows', hrows', -⟩ := Result.bind_eq_ok.mp hfiltered'
    exact hadded.mpr ⟨joined', hjoined', evaluates_of_filterRows hrows'⟩

end Scans

/-- The query filters a stored FROM table, scanned by an index if it has one, by WHERE. -/
structure Query.ScansTable (H : Host) (tables : Tables) (query : Query) (inherited ctes : Ctes)
    (name : String) (asName : Option String) (table : Table) (e : Expr) : Prop where
  executed : executeCtes H tables query.ctes inherited = .ok ctes
  source : query.source = some (.table name asName)
  free : ctes.lookup name = none
  stored : tables.lookup name = some table
  selection : query.selection = some e

/-- The rows of the FROM table that the chosen index leaves out fail a conjunct of WHERE
`column op literal` on a column of that table. -/
def LeavesOutRightly (H : Host) (tables : Tables) (query : Query) (inherited : Ctes) : Prop :=
  ∀ ctes name asName table e, query.ScansTable H tables inherited ctes name asName table e →
    ∀ columns, joinedColumns H tables ctes query.joins
        (boundColumns (asName.getD name) table.schema) = .ok columns →
      table.DifferRightly H (indexConjuncts e) columns none (table.candidateRowIds H (some e))

/-- The ON conditions and WHERE evaluate on the rows that the joins build only because the
index leaves rows out: a RIGHT join extends by NULLs what would have matched them. -/
def AddedRowsEvaluate (H : Host) (tables : Tables) (query : Query) (inherited : Ctes) : Prop :=
  ∀ ctes name asName table e, query.ScansTable H tables inherited ctes name asName table e →
    AddedEvaluate H tables ctes e query.joins (table.scan (asName.getD name) none)
      (table.scan (asName.getD name) (table.candidateRowIds H (some e)))

/-- The probe of an index is about the FROM table: each of its conjuncts names a column of
that table, and index keys compare with its literal as the values of the column do. -/
structure OwnProbe (H : Host) (table : Table) (conjuncts : List (Option String × IndexPredicate))
    (columns : List BoundColumn) (index : BTreeIndex) : Prop where
  widths : ∀ row ∈ table.rows, row.length = table.schema.columns.length
  names : ∀ conjunct ∈ probeConjuncts conjuncts index.definition.columns, ∀ i,
    resolveColumn columns conjunct.1 conjunct.2.column = .ok i → i < table.schema.columns.length
  keys : ∀ conjunct ∈ probeConjuncts conjuncts index.definition.columns,
    ∀ row ∈ table.rows, ∀ i value, table.schema.columnIndex conjunct.2.column = some i →
      row[i]? = some value →
      value.compareSql H.lowercase conjunct.2.value conjunct.2.operator = .true →
      compareKeyPart (.fromValue value) (.fromValue conjunct.2.value) conjunct.2.operator = true

/-- So is the probe of every index that the query may choose. -/
def ProbesFrom (H : Host) (tables : Tables) (query : Query) (inherited : Ctes) : Prop :=
  ∀ ctes name asName table e, query.ScansTable H tables inherited ctes name asName table e →
    ∀ columns, joinedColumns H tables ctes query.joins
        (boundColumns (asName.getD name) table.schema) = .ok columns →
      ∀ index, table.Chooses H (indexConjuncts e) index →
        OwnProbe H table (indexConjuncts e) columns index

section Pushdown

variable {H : Host} {tables : Tables} {ctes : Ctes} {table : Table} {e : Expr}

/-- Rows of the table's width have a key in every index. -/
theorem Table.hasKeys_of_width (hinv : table.RepInv H) {row : Row}
    (hwidth : row.length = table.schema.columns.length) : table.HasKeys row := by
  intro name index hlookup
  have hexist := (hinv.indexes name index hlookup).columns_exist
  generalize index.definition.columns = columns at hexist
  induction columns with
  | nil => rfl
  | cons column columns ih =>
    obtain ⟨i, hi⟩ := Option.isSome_iff_exists.mp (hexist column (by simp))
    obtain ⟨rest, hrest⟩ := Option.isSome_iff_exists.mp (ih fun c hc => hexist c (by simp [hc]))
    have hlt : i < row.length := hwidth ▸ TableSchema.lt_of_columnIndex hi
    rw [indexKey_cons_eq hi (List.getElem?_eq_getElem hlt) hrest]
    rfl

/-- **A consistent index** whose probe is about the FROM table leaves out no other row. -/
theorem OwnProbe.differRightly {visibleName : String} {rest : List BoundColumn}
    (hinv : table.RepInv H)
    (hprobe : ∀ index, table.Chooses H (indexConjuncts e) index →
      OwnProbe H table (indexConjuncts e) (boundColumns visibleName table.schema ++ rest) index) :
    table.DifferRightly H (indexConjuncts e) (boundColumns visibleName table.schema ++ rest) none
      (table.candidateRowIds H (some e)) := by
  intro position row hrow hreached
  by_contra hnot
  cases hcandidates : table.candidateRowIds H (some e) with
  | none => exact hreached (by rw [hcandidates])
  | some best =>
    obtain ⟨index, hchooses, -, hids⟩ :=
      Table.chooseIndex_ids ((Table.candidateRowIds_eq e).symm.trans hcandidates)
    obtain ⟨name, hlookup⟩ := hchooses.1
    have hown := hprobe index hchooses
    have hmem := List.mem_of_getElem? hrow
    refine hreached ?_
    rw [hcandidates, Table.isCandidate_of_search hinv hlookup hids hrow
      (Table.hasKeys_of_width hinv (hown.widths row hmem))
        fun conjunct hconjunct i value hi hvalue =>
        hown.keys conjunct hconjunct row hmem i value hi hvalue ?_]
    · rfl
    · obtain ⟨hindexed, hop, -⟩ := mem_probeConjuncts hconjunct
      by_contra hcompare
      refine hnot ⟨conjunct, hindexed, hop, fun j hj => ?_⟩
      have hlt := hown.names conjunct hconjunct j hj
      have hfound := columnIndex_of_resolve_append hj hlt
      obtain rfl := Option.some.inj (hi.symm.trans hfound)
      exact ⟨hlt, value, hvalue, hcompare⟩

theorem fromRelation_table {name : String} {asName : Option String} (hcte : ctes.lookup name = none)
    (hlookup : tables.lookup name = some table) (selection : Option Expr) :
    fromRelation H tables (some (.table name asName)) ctes selection =
      .ok (table.scan (asName.getD name) (table.candidateRowIds H selection)) := by
  rw [fromRelation, sourceRelation]
  simp only [hcte, hlookup]
  rfl

/-- Only a stored FROM table is scanned by an index. -/
theorem fromRelation_cases (H : Host) (tables : Tables) (source : Option TableSource)
    (ctes : Ctes) :
    (∀ selection, fromRelation H tables source ctes selection =
      fromRelation H tables source ctes none) ∨
    ∃ name asName table, source = some (.table name asName) ∧ ctes.lookup name = none ∧
      tables.lookup name = some table := by
  cases source with
  | none => exact Or.inl fun selection => by rw [fromRelation, fromRelation]
  | some source =>
    cases source with
    | derived inner asName =>
      exact Or.inl fun selection => by
        rw [fromRelation, fromRelation, sourceRelation, sourceRelation]
    | table name asName =>
      cases hcte : ctes.lookup name with
      | some found =>
        refine Or.inl fun selection => ?_
        rw [fromRelation, fromRelation, sourceRelation, sourceRelation]
        simp only [hcte]
      | none =>
        cases hlookup : tables.lookup name with
        | some table => exact Or.inr ⟨name, asName, table, rfl, hcte, hlookup⟩
        | none =>
          refine Or.inl fun selection => ?_
          rw [fromRelation, fromRelation, sourceRelation, sourceRelation]
          simp only [hcte, hlookup]

theorem executeQueryScanning_congr {query : Query} {inherited : Ctes}
    {scanned scanned' : Option Expr}
    (h : ∀ ctes, executeCtes H tables query.ctes inherited = .ok ctes →
      fromRelation H tables query.source ctes scanned =
        fromRelation H tables query.source ctes scanned') :
    executeQueryScanning H tables query inherited scanned =
      executeQueryScanning H tables query inherited scanned' := by
  refine Result.bind_congr_of_ok fun ctes hctes => ?_
  rw [h ctes hctes]

/-- **Two scans of the FROM table** of a query that differ in rows on which a conjunct of
WHERE fails: if the query succeeds with one of them, it has the same result with the other one
exactly if the conditions evaluate on what that one adds. -/
theorem executeQueryScanning_scans {query : Query} {inherited : Ctes} {name : String}
    {asName : Option String} {relation : Relation} {scanned scanned' : Option Expr}
    {conjuncts : List (Option String × IndexPredicate)}
    (hscans : query.ScansTable H tables inherited ctes name asName table e)
    (hfails : ∀ columns row, FailsConjunct H conjuncts columns table.schema.columns.length row →
      holdsOn (fun row => evalExpr H tables e columns row none ctes) row = false)
    (hdiffer : ∀ columns, joinedColumns H tables ctes query.joins
        (boundColumns (asName.getD name) table.schema) = .ok columns →
      table.DifferRightly H conjuncts columns (table.candidateRowIds H scanned)
        (table.candidateRowIds H scanned'))
    (h : executeQueryScanning H tables query inherited scanned = .ok relation) :
    executeQueryScanning H tables query inherited scanned' = .ok relation ↔
      AddedEvaluate H tables ctes e query.joins
        (table.scan (asName.getD name) (table.candidateRowIds H scanned))
        (table.scan (asName.getD name) (table.candidateRowIds H scanned')) := by
  have hwhere : (query.evaluators H tables ctes).selection =
      whereEvaluator H tables (some e) ctes := by
    rw [Query.evaluators, hscans.selection]
  simp only [executeQueryScanning, hscans.executed, hscans.source,
    fromRelation_table hscans.free hscans.stored, Result.ok_bind, finishQuery, hwhere] at h ⊢
  obtain ⟨joined, hjoined, h⟩ := Result.bind_eq_ok.mp h
  obtain ⟨filtered, hfiltered, hfinish⟩ := Result.bind_eq_ok.mp h
  obtain ⟨hsame, hadded⟩ := filtered_of_scans hfails hdiffer hjoined hfiltered
  constructor
  · intro hother
    obtain ⟨joined', hjoined', hother⟩ := Result.bind_eq_ok.mp hother
    obtain ⟨filtered', hfiltered', -⟩ := Result.bind_eq_ok.mp hother
    exact hadded joined' filtered' hjoined' hfiltered'
  · intro hevaluates
    obtain ⟨joined', hjoined', hfiltered'⟩ := hsame hevaluates
    rw [hjoined', Result.ok_bind, hfiltered', Result.ok_bind]
    exact hfinish

end Pushdown

/-- **Index scans under joins agree with full scans.** A consistent index whose probe is
about the FROM table leaves out only rows that fail a conjunct of WHERE on a column of that
table.  Whenever that is so, a query that succeeds with a full scan of its FROM table has the
same result with the index exactly if ON and WHERE evaluate on the rows that the joins build
only because rows are left out. -/
theorem pushdown_agrees_iff (H : Host) (tables : Tables) (query : Query) (inherited : Ctes)
    (hinv : ∀ name table, tables.lookup name = some table → table.RepInv H) :
    (ProbesFrom H tables query inherited → LeavesOutRightly H tables query inherited) ∧
    (LeavesOutRightly H tables query inherited →
      ∀ relation, executeQueryScanning H tables query inherited none = .ok relation →
        (executeQuery H tables query inherited = .ok relation ↔
          AddedRowsEvaluate H tables query inherited)) := by
  refine ⟨fun hprobes ctes name asName table e hscans columns hcolumns => ?_,
    fun hrightly relation h => ?_⟩
  · obtain ⟨rest, rfl⟩ := exists_append_of_joinedColumns hcolumns
    exact OwnProbe.differRightly (hinv name table hscans.stored)
      (hprobes ctes name asName table e hscans _ hcolumns)
  · rw [executeQuery_eq]
    obtain ⟨ctes, hctes, -⟩ := Result.bind_eq_ok.mp h
    have honly : ∀ {ctes' name asName table e},
        query.ScansTable H tables inherited ctes' name asName table e → ctes' = ctes :=
      fun hscans => Except.ok.inj (hscans.executed.symm.trans hctes)
    cases hselection : query.selection with
    | none =>
      refine ⟨fun _ ctes' name asName table e hscans => ?_, fun _ => h⟩
      exact absurd (hselection.symm.trans hscans.selection) nofun
    | some e =>
      rcases fromRelation_cases H tables query.source ctes with
        hsame | ⟨name, asName, table, hsource, hcte, hlookup⟩
      · -- Nothing is left out: both scans are the same.
        refine ⟨fun _ ctes' name asName table e' hscans => ?_, fun _ => ?_⟩
        · obtain rfl := honly hscans
          obtain rfl := Option.some.inj (hselection.symm.trans hscans.selection)
          have hscan := hsame (some e)
          rw [hscans.source, fromRelation_table hscans.free hscans.stored,
            fromRelation_table hscans.free hscans.stored, Except.ok.injEq] at hscan
          rw [hscan]
          exact addedEvaluate_refl _
        · rw [← h]
          refine executeQueryScanning_congr fun other hother => ?_
          obtain rfl := Except.ok.inj (hother.symm.trans hctes)
          exact hsame (some e)
      · have hscans : query.ScansTable H tables inherited ctes name asName table e :=
          ⟨hctes, hsource, hcte, hlookup, hselection⟩
        have hdiffer : ∀ columns, joinedColumns H tables ctes query.joins
              (boundColumns (asName.getD name) table.schema) = .ok columns →
            table.DifferRightly H (indexConjuncts e) columns (table.candidateRowIds H none)
              (table.candidateRowIds H (some e)) := hrightly ctes name asName table e hscans
        rw [executeQueryScanning_scans hscans
          (fun columns row hfails => hfails.not_holdsOn fun _ => id) hdiffer h]
        refine ⟨fun hadded ctes' name' asName' table' e' hscans' => ?_,
          fun hadded => hadded ctes name asName table e hscans⟩
        obtain rfl := honly hscans'
        obtain ⟨rfl, rfl⟩ : name = name' ∧ asName = asName' := by
          simpa using hsource.symm.trans hscans'.source
        obtain rfl := Option.some.inj (hlookup.symm.trans hscans'.stored)
        obtain rfl := Option.some.inj (hselection.symm.trans hscans'.selection)
        exact hadded

/-! ## Queries that do and do not agree -/

/-- A table of one row `(1, x)` over the columns `id` and `x`. -/
def pairTable (name : String) (x : Int64) (indexes : List IndexDef) : Table :=
  Table.rebuildIndex Host.reference
    { schema :=
        { name, columns := [plainColumn "id" .integer, plainColumn "x" .integer],
          constraints := [], indexes }
      rows := [[.integer 1, .integer x]]
      rowIds := [1]
      nextRowId := 2
      indexes := ∅
      bloomFalsePositiveRate := defaultBloomFalsePositiveRate }

/-- `CREATE INDEX ax ON a (x)`. -/
def indexAx : IndexDef := { name := "ax", columns := ["x"], unique := false, automatic := false }

/-- Tables `a` and `b`, with the index on `a (x)`. -/
def pairTables : Tables :=
  AList.insert "a" (pairTable "a" 7 [indexAx]) (AList.insert "b" (pairTable "b" 5 []) ∅)

/-- `SELECT a.id FROM a JOIN b ON a.id = b.id WHERE table.x = value`, or with RIGHT JOIN. -/
def pairQuery (joinType : JoinType) (table : String) (value : Int64) : Query :=
  { ctes := []
    distinct := false
    projection := [.expr (.column (some "a") "id") none]
    source := some (.table "a" none)
    joins := [{ joinType, source := .table "b" none,
                on := some (.binary (.column (some "a") "id") (.compare .equal)
                  (.column (some "b") "id")) }]
    selection := some (.binary (.column (some table) "x") (.compare .equal)
      (.literal (.integer value)))
    groupBy := []
    having := none
    orderBy := []
    limit := none }

theorem repInv_pairTable (name : String) (x : Int64) {indexes : List IndexDef}
    (h : ∀ index ∈ indexes, index.columns = ["x"]) :
    (pairTable name x indexes).RepInv Host.reference := by
  refine Table.repInv_rebuildIndex ⟨rfl, by simp, by simp⟩ fun index hindex column hcolumn => ?_
  rw [h index hindex, List.mem_singleton] at hcolumn
  subst hcolumn
  simp only [TableSchema.columnIndex]
  decide +kernel

theorem repInv_pairTables : pairTables.All (Table.RepInv Host.reference) :=
  (Tables.All.empty.insert (repInv_pairTable "b" 5 (by simp))).insert
    (repInv_pairTable "a" 7 (by simp [indexAx]))

/-- **A probe by bare name drops rows.** `b.x = 5` is looked up in the index on `a (x)`,
where no row has the key, and the query loses its only row. -/
theorem pushdown_drops_rows :
    (∀ name table, pairTables.lookup name = some table → table.RepInv Host.reference) ∧
    ∃ relation, executeQueryScanning Host.reference pairTables (pairQuery .inner "b" 5) ∅ none =
        .ok relation ∧ relation.rows = [[.integer 1]] ∧
      executeQuery Host.reference pairTables (pairQuery .inner "b" 5) ∅ ≠ .ok relation := by
  refine ⟨repInv_pairTables, { columns := [⟨"a", "id"⟩], rows := [[.integer 1]] }, ?_, rfl, ?_⟩
  · exact Result.toOption_eq_some.mp (by decide +kernel)
  · rw [Ne, ← Result.toOption_eq_some]
    decide +kernel

/-- The conjunct of `pairQuery` on a table. -/
theorem mem_indexConjuncts_pairQuery (table : String) (value : Int64) :
    (some table, ⟨"x", .equal, .integer value⟩) ∈
      indexConjuncts (.binary (.column (some table) "x") (.compare .equal)
        (.literal (.integer value))) := by
  simp [indexConjuncts]

/-- With `a.x = 8` the row of `a` is left out rightly, and the query agrees, although the
RIGHT join now extends the row of `b` by NULLs. -/
theorem right_join_agrees :
    (pairTable "a" 7 [indexAx]).bestIndexName Host.reference
      (pairQuery .right "a" 8).selection = some "ax" ∧
    executeQuery Host.reference pairTables (pairQuery .right "a" 8) ∅ =
      .ok { columns := [⟨"a", "id"⟩], rows := [] } := by
  have hscanned : ∀ {ctes name asName table e},
      (pairQuery .right "a" 8).ScansTable Host.reference pairTables ∅ ctes name asName table e →
        ctes = ∅ ∧ asName.getD name = "a" ∧ table = pairTable "a" 7 [indexAx] ∧
          e = .binary (.column (some "a") "x") (.compare .equal) (.literal (.integer 8)) := by
    intro ctes name asName table e hscans
    obtain ⟨rfl, rfl⟩ : "a" = name ∧ none = asName := by simpa [pairQuery] using hscans.source
    have hctes := hscans.executed
    rw [show (pairQuery .right "a" 8).ctes = [] from rfl, executeCtes, Except.ok.injEq] at hctes
    exact ⟨hctes.symm, rfl, (Option.some.inj hscans.stored).symm,
      (Option.some.inj hscans.selection).symm⟩
  refine ⟨by decide +kernel, ((pushdown_agrees_iff Host.reference pairTables
    (pairQuery .right "a" 8) ∅ repInv_pairTables).2 ?_ _
      (Result.toOption_eq_some.mp (by decide +kernel))).mpr ?_⟩
  · intro ctes name asName table e hscans columns hcolumns position row hrow _
    obtain ⟨rfl, hname, rfl, rfl⟩ := hscanned hscans
    rw [hname] at hcolumns
    have hjoined : joinedColumns Host.reference pairTables ∅ (pairQuery .right "a" 8).joins
        (boundColumns "a" (pairTable "a" 7 [indexAx]).schema) =
          .ok [⟨"a", "id"⟩, ⟨"a", "x"⟩, ⟨"b", "id"⟩, ⟨"b", "x"⟩] :=
      Result.toOption_eq_some.mp (by decide +kernel)
    obtain rfl := Except.ok.inj (hjoined.symm.trans hcolumns)
    refine ⟨_, mem_indexConjuncts_pairQuery "a" 8, Or.inl rfl, fun i hi => ?_⟩
    obtain rfl : i = 1 := Option.some.inj
      ((Result.toOption_eq_some.mpr hi).symm.trans (by decide +kernel))
    obtain rfl : row = [.integer 1, .integer 7] :=
      List.mem_singleton.mp (List.mem_of_getElem? hrow)
    exact ⟨by decide, .integer 7, rfl, by decide⟩
  · intro ctes name asName table e hscans
    obtain ⟨rfl, hname, rfl, rfl⟩ := hscanned hscans
    rw [hname]
    have hfull : executeJoins Host.reference pairTables (pairQuery .right "a" 8).joins
        ((pairTable "a" 7 [indexAx]).scan "a" none) ∅ =
          .ok { columns := [⟨"a", "id"⟩, ⟨"a", "x"⟩, ⟨"b", "id"⟩, ⟨"b", "x"⟩]
                rows := [[.integer 1, .integer 7, .integer 1, .integer 5]] } :=
      Result.toOption_eq_some.mp (by decide +kernel)
    refine (executeJoins_added (by rfl) hfull fun row hrow => ?_).mpr
      ⟨{ columns := [⟨"a", "id"⟩, ⟨"a", "x"⟩, ⟨"b", "id"⟩, ⟨"b", "x"⟩]
         rows := [[.null, .null, .integer 1, .integer 5]] },
        Result.toOption_eq_some.mp (by decide +kernel), fun row hrow => ?_⟩
    · obtain rfl := List.mem_singleton.mp hrow
      exact ⟨.boolean false, Result.toOption_eq_some.mp (by decide +kernel)⟩
    · obtain rfl := List.mem_singleton.mp hrow
      exact ⟨.null, Result.toOption_eq_some.mp (by decide +kernel)⟩

end Sql
end RustyDB
