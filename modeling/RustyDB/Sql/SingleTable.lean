import Mathlib
import RustyDB.Sql.Scan
import RustyDB.Sql.Spec

/-!
# Index scans of a single table

SELECT, UPDATE and DELETE on one table act on exactly the rows on which the WHERE
clause is true, whichever index the scan uses.

* `Table.IndexedTyped` — the indexed columns are INTEGER, TEXT or BOOLEAN and hold
  values of their type or NULL.
* `columnIndex_of_resolve` — a name that resolves in the columns of one table is
  that of the schema's column.
* `compareKeyPart_of_compareSql` — on such values a true SQL comparison is a true
  comparison of index keys.
* `isCandidate_of_selected` — a row on which WHERE is true is a candidate.
* `index_scan_agrees` — the three statements.
-/

namespace RustyDB
namespace Sql

/-! ## Keys of typed values -/

/-- Indexed columns are INTEGER, TEXT or BOOLEAN, and every row holds a value of the
column's type or NULL there. -/
def Table.IndexedTyped (table : Table) : Prop :=
  ∀ name index, table.indexes.lookup name = some index →
    ∀ column ∈ index.definition.columns, ∀ i, table.schema.columnIndex column = some i →
      ∃ definition, table.schema.columns[i]? = some definition ∧
        (definition.dataType = .integer ∨ definition.dataType = .text ∨
          definition.dataType = .boolean) ∧
        ∀ row ∈ table.rows, ∃ value, row[i]? = some value ∧
          (value = .null ∨ value.dataType = definition.dataType)

/-- Values of one kind other than float compare as their keys do. -/
theorem cmp_fromValue {x y : Value} {o : Ordering} (hx : x.dataType ≠ .float)
    (hy : y.dataType ≠ .float) (h : x.partialCmp y = some o) :
    (KeyPart.fromValue x).cmp (.fromValue y) = o := by
  cases x with
  | float a => exact absurd rfl hx
  | integer a =>
    cases y with
    | integer b => exact Option.some.inj h
    | float b => exact absurd rfl hy
    | _ => exact absurd h nofun
  | text a =>
    cases y with
    | text b => exact Option.some.inj h
    | _ => exact absurd h nofun
  | boolean a =>
    cases y with
    | boolean b => exact Option.some.inj h
    | _ => exact absurd h nofun
  | null =>
    cases y with
    | null => exact Option.some.inj h
    | _ => exact absurd h nofun

/-- **Keys are complete for SQL comparison** away from floats. -/
theorem compareKeyPart_of_compareSql {lowercase : String → String} {x y : Value}
    {op : ComparisonOp} (hop : isIndexOperator op) (hx : x.dataType ≠ .float)
    (hy : y.dataType ≠ .float) (h : x.compareSql lowercase y op = .true) :
    compareKeyPart (.fromValue x) (.fromValue y) op = true := by
  unfold Value.compareSql at h
  split at h
  · simp at h
  · rw [SqlTruth.ofBool_eq_true] at h
    have hkey := fun o => @cmp_fromValue x y o hx hy
    cases op with
    | equal => simp [compareKeyPart, hkey .eq (by simpa using h)]
    | lessThan => simp [compareKeyPart, hkey .lt (by simpa using h)]
    | greaterThan => simp [compareKeyPart, hkey .gt (by simpa using h)]
    | lessThanOrEqual =>
      rw [Bool.or_eq_true] at h
      rcases h with h | h
      · simp [compareKeyPart, hkey .lt (by simpa using h)]
      · simp [compareKeyPart, hkey .eq (by simpa using h)]
    | greaterThanOrEqual =>
      rw [Bool.or_eq_true] at h
      rcases h with h | h
      · simp [compareKeyPart, hkey .gt (by simpa using h)]
      · simp [compareKeyPart, hkey .eq (by simpa using h)]
    | notEqual => rcases hop with hop | hop <;> simp [isRangeOperator] at hop
    | like => rcases hop with hop | hop <;> simp [isRangeOperator] at hop

/-! ## Names of one table -/

theorem mem_resolved {columns : List BoundColumn} {qualifier : Option String} {name : String}
    {index : Nat} :
    index ∈ columns.zipIdx.filterMap (fun entry =>
        if eqIgnoreAsciiCase entry.1.name name &&
            qualifier.all (fun table => eqIgnoreAsciiCase entry.1.table table) then some entry.2
        else none) ↔
      ∃ column, columns[index]? = some column ∧ eqIgnoreAsciiCase column.name name = true ∧
        qualifier.all (fun table => eqIgnoreAsciiCase column.table table) = true := by
  simp only [List.mem_filterMap, Prod.exists, List.mem_zipIdx_iff_getElem?]
  constructor
  · rintro ⟨column, i, hcolumn, h⟩
    split at h
    · rename_i htest
      simp only [Option.some.injEq] at h
      subst h
      rw [Bool.and_eq_true] at htest
      exact ⟨column, hcolumn, htest⟩
    · simp at h
  · rintro ⟨column, hcolumn, hname, hqualifier⟩
    exact ⟨column, index, hcolumn, by rw [hname, hqualifier]; rfl⟩

/-- A name resolves to the one column that has it. -/
theorem resolveColumn_eq_ok {columns : List BoundColumn} {qualifier : Option String}
    {name : String} {index : Nat} (h : resolveColumn columns qualifier name = .ok index) :
    (∃ column, columns[index]? = some column ∧ eqIgnoreAsciiCase column.name name = true ∧
      qualifier.all (fun table => eqIgnoreAsciiCase column.table table) = true) ∧
    ∀ i column, columns[i]? = some column → eqIgnoreAsciiCase column.name name = true →
      qualifier.all (fun table => eqIgnoreAsciiCase column.table table) = true → i = index := by
  unfold resolveColumn at h
  simp only at h
  split at h
  · rename_i found hfound
    simp only [Except.ok.injEq] at h
    subst h
    constructor
    · exact mem_resolved.mp (by rw [hfound]; simp)
    · intro i column hcolumn hname hqualifier
      have hmem := mem_resolved.mpr ⟨column, hcolumn, hname, hqualifier⟩
      rw [hfound] at hmem
      exact List.mem_singleton.mp hmem
  · simp at h
  · simp at h

theorem getElem?_boundColumns {visibleName : String} {schema : TableSchema} {i : Nat}
    {column : BoundColumn} :
    (boundColumns visibleName schema)[i]? = some column ↔
      ∃ definition, schema.columns[i]? = some definition ∧
        column = { table := visibleName, name := definition.name } := by
  simp [boundColumns, eq_comm]

theorem TableSchema.lt_of_columnIndex {schema : TableSchema} {name : String} {i : Nat}
    (h : schema.columnIndex name = some i) : i < schema.columns.length := by
  obtain ⟨definition, hdefinition, -⟩ := TableSchema.columnIndex_eq_some h
  exact (List.getElem?_eq_some_iff.mp hdefinition).1

/-- A name that resolves to a column of the first table is that of its schema. -/
theorem columnIndex_of_resolve_append {visibleName : String} {schema : TableSchema}
    {columns : List BoundColumn} {qualifier : Option String} {name : String} {index : Nat}
    (h : resolveColumn (boundColumns visibleName schema ++ columns) qualifier name = .ok index)
    (hindex : index < schema.columns.length) : schema.columnIndex name = some index := by
  have hfirst : ∀ i, i < schema.columns.length →
      (boundColumns visibleName schema ++ columns)[i]? = (boundColumns visibleName schema)[i]? :=
    fun i hi => List.getElem?_append_left (by simpa [boundColumns] using hi)
  obtain ⟨⟨column, hcolumn, hname, hqualifier⟩, hunique⟩ := resolveColumn_eq_ok h
  rw [hfirst index hindex] at hcolumn
  obtain ⟨definition, hdefinition, rfl⟩ := getElem?_boundColumns.mp hcolumn
  cases hfound : schema.columnIndex name with
  | none =>
    have hsome := TableSchema.isSome_columnIndex.mpr
      ⟨definition, List.mem_of_getElem? hdefinition, hname⟩
    rw [hfound] at hsome
    exact absurd hsome (by simp)
  | some found =>
    obtain ⟨other, hother, hothername⟩ := TableSchema.columnIndex_eq_some hfound
    refine congrArg some (hunique found ⟨visibleName, other.name⟩ ?_ hothername hqualifier)
    rw [hfirst found (TableSchema.lt_of_columnIndex hfound)]
    exact getElem?_boundColumns.mpr ⟨other, hother, rfl⟩

/-- A name that resolves in the columns of one table is that of the schema. -/
theorem columnIndex_of_resolve {visibleName : String} {schema : TableSchema}
    {qualifier : Option String} {name : String} {index : Nat}
    (h : resolveColumn (boundColumns visibleName schema) qualifier name = .ok index) :
    schema.columnIndex name = some index := by
  obtain ⟨⟨column, hcolumn, -⟩, -⟩ := resolveColumn_eq_ok h
  obtain ⟨definition, hdefinition, -⟩ := getElem?_boundColumns.mp hcolumn
  rw [← List.append_nil (boundColumns visibleName schema)] at h
  exact columnIndex_of_resolve_append h (List.getElem?_eq_some_iff.mp hdefinition).1

/-! ## Candidates -/

/-- WHERE evaluates without error on every row of a table. -/
def EvaluatesOn (H : Host) (tables : Tables) (ctes : Ctes) (visibleName : String) (table : Table)
    (e : Expr) : Prop :=
  ∀ row ∈ table.rows, ∃ value,
    evalExpr H tables e (boundColumns visibleName table.schema) row none ctes = .ok value

/-- WHERE is true on a row. -/
def isSelected (H : Host) (tables : Tables) (ctes : Ctes) (visibleName : String)
    (schema : TableSchema) (e : Expr) (row : Row) : Bool :=
  match evalExpr H tables e (boundColumns visibleName schema) row none ctes with
  | .ok value => decide (value.truth = .true)
  | .error _ => false

section Single

variable {H : Host} {tables : Tables} {ctes : Ctes} {visibleName : String} {table : Table}
  {e : Expr}

theorem Table.IndexedTyped.hasKeys (htyped : table.IndexedTyped) (hinv : table.RepInv H)
    {row : Row} (hrow : row ∈ table.rows) : table.HasKeys row := by
  intro name index hlookup
  have hexist := (hinv.indexes name index hlookup).columns_exist
  have hvalue := htyped name index hlookup
  generalize index.definition.columns = columns at hexist hvalue
  induction columns with
  | nil => rfl
  | cons column columns ih =>
    obtain ⟨i, hi⟩ := Option.isSome_iff_exists.mp (hexist column (by simp))
    obtain ⟨definition, -, -, hrows⟩ := hvalue column (by simp) i hi
    obtain ⟨value, hval, -⟩ := hrows row hrow
    obtain ⟨rest, hrest⟩ := Option.isSome_iff_exists.mp
      (ih (fun c hc => hexist c (by simp [hc])) (fun c hc => hvalue c (by simp [hc])))
    rw [indexKey_cons_eq hi hval hrest]
    rfl

/-- **A selected row is a candidate** when index keys compare with the literals of the
probe as its values do. -/
theorem isCandidate_of_selected (hinv : table.RepInv H) {position : Nat} {row : Row}
    (hrow : table.rows[position]? = some row) (hkeys : table.HasKeys row)
    (hcomplete : ∀ index, table.Chooses H (indexConjuncts e) index →
      ∀ conjunct ∈ probeConjuncts (indexConjuncts e) index.definition.columns, ∀ i value,
        table.schema.columnIndex conjunct.2.column = some i → row[i]? = some value →
        value.compareSql H.lowercase conjunct.2.value conjunct.2.operator = .true →
        compareKeyPart (.fromValue value) (.fromValue conjunct.2.value) conjunct.2.operator = true)
    (hselected : isSelected H tables ctes visibleName table.schema e row = true) :
    table.isCandidate (table.candidateRowIds H (some e)) position = true := by
  unfold isSelected at hselected
  split at hselected
  · rename_i value hvalue
    rw [Table.candidateRowIds_eq]
    refine Table.isCandidate_of_admits hinv hrow hkeys ?_
    intro index hchooses conjunct hconjunct i x hi hx
    obtain ⟨hmem, hop, -⟩ := mem_probeConjuncts hconjunct
    obtain ⟨j, y, hresolve, hy, hcompare⟩ :=
      conjuncts_true hvalue (of_decide_eq_true hselected) conjunct hmem hop
    rw [columnIndex_of_resolve hresolve, Option.some.injEq] at hi
    subst hi
    rw [hy, Option.some.injEq] at hx
    subst hx
    exact hcomplete index hchooses conjunct hconjunct j y (columnIndex_of_resolve hresolve) hy
      hcompare
  · simp at hselected

/-- The values of typed columns compare as their keys do. -/
theorem Table.IndexedTyped.isCandidate (hinv : table.RepInv H) (htyped : table.IndexedTyped)
    (hfloat : ∀ predicate ∈ collectIndexPredicates e, predicate.value.dataType ≠ .float)
    {position : Nat} {row : Row} (hrow : table.rows[position]? = some row)
    (hselected : isSelected H tables ctes visibleName table.schema e row = true) :
    table.isCandidate (table.candidateRowIds H (some e)) position = true := by
  have hmem := List.mem_of_getElem? hrow
  refine isCandidate_of_selected hinv hrow (htyped.hasKeys hinv hmem) ?_ hselected
  intro index hchooses conjunct hconjunct i value hi hvalue hcompare
  obtain ⟨name, hlookup⟩ := hchooses.1
  obtain ⟨hindexed, hop, column, hcolumn, hname⟩ := mem_probeConjuncts hconjunct
  have hpredicate : conjunct.2 ∈ collectIndexPredicates e := by
    rw [← map_indexConjuncts]
    exact List.mem_map_of_mem hindexed
  refine compareKeyPart_of_compareSql hop ?_ (hfloat _ hpredicate) hcompare
  -- The value belongs to an indexed column, so it is no float.
  obtain ⟨definition, -, htype, hrows⟩ := htyped name index hlookup column hcolumn i
    ((columnIndex_congr hname).symm.trans hi)
  obtain ⟨found, hfound, hkind⟩ := hrows row hmem
  rw [hvalue, Option.some.injEq] at hfound
  subst hfound
  rcases hkind with rfl | hkind
  · simp [Value.dataType]
  · rcases htype with htype | htype | htype <;> simp [hkind, htype]

/-- A scan that keeps the selected rows and the WHERE clause together select the rows on
which it is true. -/
theorem affects_eq (heval : EvaluatesOn H tables ∅ visibleName table e) {position : Nat}
    {row : Row} (hrow : table.rows[position]? = some row)
    (hcandidate : isSelected H tables ∅ visibleName table.schema e row = true →
      table.isCandidate (table.candidateRowIds H (some e)) position = true) :
    affects H tables visibleName table (table.candidateRowIds H (some e)) (some e)
      (row, position) = .ok (isSelected H tables ∅ visibleName table.schema e row) := by
  obtain ⟨value, hvalue⟩ := heval row (List.mem_of_getElem? hrow)
  have hselected : isSelected H tables ∅ visibleName table.schema e row =
      decide (value.truth = .true) := by
    rw [isSelected, hvalue]
  unfold affects
  split
  · simp only [selectsRow, hvalue, hselected, Result.ok_bind, Result.pure_eq_ok]
  · rename_i hskipped
    have hfalse : isSelected H tables ∅ visibleName table.schema e row ≠ true :=
      fun htrue => hskipped (hcandidate htrue)
    rw [Bool.eq_false_iff.mpr hfalse]

end Single

/-! ## Loops over the rows -/

/-- A loop over rows and positions, as one over rows. -/
theorem forall₂_of_zipIdx {β : Type} {R : Row × Nat → β → Prop} {rows : List Row} {k : Nat}
    {results : List β} (h : List.Forall₂ R (rows.zipIdx k) results) :
    List.Forall₂ (fun row result => ∃ i, rows[i]? = some row ∧ R (row, k + i) result)
      rows results := by
  induction rows generalizing k results with
  | nil =>
    cases h
    exact List.Forall₂.nil
  | cons row rows ih =>
    rw [List.zipIdx_cons] at h
    cases h with
    | cons hrow hrest =>
      refine List.Forall₂.cons ⟨0, rfl, by simpa using hrow⟩ ?_
      refine (ih hrest).imp ?_
      rintro other result ⟨i, hi, hR⟩
      exact ⟨i + 1, hi, by rwa [Nat.add_assoc, Nat.add_comm 1 i] at hR⟩

theorem filterRows_eq {test : Row → Except Fault Value} {selected : Row → Bool}
    {rows : List Row}
    (h : ∀ row ∈ rows, ∃ value, test row = .ok value ∧
      selected row = decide (value.truth = .true)) :
    filterRows test rows = .ok (rows.filter selected) := by
  induction rows with
  | nil => rfl
  | cons row rows ih =>
    obtain ⟨value, hvalue, hselected⟩ := h row (by simp)
    rw [filterRows, hvalue, ih (fun other hmem => h other (List.mem_cons_of_mem _ hmem))]
    by_cases htrue : value.truth = .true
    · simp [hselected, htrue]
    · simp [hselected, htrue]

/-- Skipping rows that would not be selected changes nothing. -/
theorem filter_candidates {candidate : Nat → Bool} {selected : Row → Bool} {rows : List Row}
    {k : Nat} (h : ∀ i row, rows[i]? = some row → selected row = true → candidate (k + i) = true) :
    ((rows.zipIdx k).filterMap (fun entry =>
      if candidate entry.2 then some entry.1 else none)).filter selected =
      rows.filter selected := by
  induction rows generalizing k with
  | nil => rfl
  | cons row rows ih =>
    have hrest := @ih (k + 1) (fun i other hi hselected => by
      have := h (i + 1) other (by simpa using hi) hselected
      rwa [Nat.add_assoc, Nat.add_comm 1 i])
    rw [List.zipIdx_cons]
    cases hselected : selected row with
    | true =>
      have hcandidate : candidate k = true := h 0 row rfl hselected
      simp [hcandidate, hselected, hrest]
    | false =>
      by_cases hcandidate : candidate k = true
      · simp [hcandidate, hselected, hrest]
      · simp [hcandidate, hselected, hrest]

theorem length_filter_of_forall₂ {β : Type} (flag : β → Bool) {selected : Row → Bool}
    {rows : List Row} {results : List β}
    (h : List.Forall₂ (fun row result => flag result = selected row) rows results) :
    (results.filter flag).length = (rows.filter selected).length := by
  induction h with
  | nil => rfl
  | cons hrow _ ih =>
    rw [List.filter_cons, List.filter_cons, hrow]
    split <;> simp [ih]

theorem unflagged_eq_filter {β : Type} {selected : Row → Bool} {rows : List Row}
    {others : List β} {flags : List Bool}
    (h : List.Forall₂ (fun row flag => flag = selected row) rows flags) :
    unflagged (rows.zip others) flags =
      (rows.zip others).filter (fun entry => !selected entry.1) := by
  induction h generalizing others with
  | nil => rfl
  | cons hrow _ ih =>
    cases others with
    | nil => simp [unflagged]
    | cons other others =>
      have hih := @ih others
      unfold unflagged at hih ⊢
      subst hrow
      rename_i row _ _ _
      cases hselected : selected row with
      | true => simpa [hselected] using hih
      | false => simpa [hselected] using hih

/-! ## The three statements -/

/-- **Index scan agrees with full scan.** On a table that satisfies the index
representation invariant and whose indexed columns are INTEGER, TEXT or BOOLEAN,
with a WHERE clause that evaluates on every row and compares no indexed column with a
float literal: SELECT continues from exactly the rows on which it is true, in table
order; UPDATE assigns in exactly those rows and keeps the others and all
identifiers; DELETE keeps exactly the other rows, with their identifiers, in order. -/
theorem index_scan_agrees (H : Host) (tables : Tables) (name : String) (table : Table) (e : Expr)
    (hlookup : tables.lookup name = some table) (hinv : table.RepInv H)
    (htyped : table.IndexedTyped)
    (hfloat : ∀ predicate ∈ collectIndexPredicates e, predicate.value.dataType ≠ .float) :
    (∀ (query : Query) (asName : Option String) (inherited ctes : Ctes),
      query.source = some (.table name asName) → query.joins = [] → query.selection = some e →
      executeCtes H tables query.ctes inherited = .ok ctes → ctes.lookup name = none →
      EvaluatesOn H tables ctes (asName.getD name) table e →
      executeQuery H tables query inherited =
        finishQuery H query { query.evaluators H tables ctes with selection := none }
          { columns := boundColumns (asName.getD name) table.schema
            rows := table.rows.filter
              (isSelected H tables ctes (asName.getD name) table.schema e) }) ∧
    (∀ (tableName : String) (assignments : List (String × Expr)) (result : ExecutionResult)
      (tables' : Tables), toAsciiLowercase tableName = name →
      EvaluatesOn H tables ∅ name table e →
      executeUpdate H tables tableName assignments (some e) = .ok (result, tables') →
      ∃ rows', tables' = tables.insert name (Table.rebuildIndex H { table with rows := rows' }) ∧
        List.Forall₂ (fun row row' =>
          if isSelected H tables ∅ name table.schema e row then
            applyAssignments H tables name table.schema row row assignments = .ok row'
          else row' = row) table.rows rows' ∧
        result = .rowsAffected
          (table.rows.filter (isSelected H tables ∅ name table.schema e)).length) ∧
    (∀ (tableName : String) (result : ExecutionResult) (tables' : Tables),
      toAsciiLowercase tableName = name → EvaluatesOn H tables ∅ name table e →
      executeDelete H tables tableName (some e) = .ok (result, tables') →
      ∃ rows' rowIds', tables' = tables.insert name
          (Table.rebuildIndex H { table with rows := rows', rowIds := rowIds' }) ∧
        rows' = table.rows.filter (fun row => !isSelected H tables ∅ name table.schema e row) ∧
        rows'.zip rowIds' = (table.rows.zip table.rowIds).filter
          (fun entry => !isSelected H tables ∅ name table.schema e entry.1) ∧
        rowIds'.length = rows'.length ∧
        result = .rowsAffected
          (table.rows.filter (isSelected H tables ∅ name table.schema e)).length) := by
  refine ⟨?_, ?_, ?_⟩
  · intro query asName inherited ctes hsource hjoins hselection hctes hnone heval
    have hfrom : fromRelation H tables query.source ctes query.selection =
        .ok (relationFromTable H table (asName.getD name) (some e)) := by
      rw [hsource, hselection, fromRelation, sourceRelation]
      simp only [hnone, hlookup]
    have hwhere : applySelection (query.evaluators H tables ctes).selection
        (relationFromTable H table (asName.getD name) (some e)) =
        .ok { columns := boundColumns (asName.getD name) table.schema
              rows := table.rows.filter
                (isSelected H tables ctes (asName.getD name) table.schema e) } := by
      simp only [Query.evaluators, hselection, whereEvaluator, applySelection]
      rw [@filterRows_eq _ (isSelected H tables ctes (asName.getD name) table.schema e)]
      · rw [Result.ok_bind, relationFromTable, filter_candidates]
        · rfl
        · intro i row hi hselected
          rw [Nat.zero_add]
          exact htyped.isCandidate hinv hfloat hi hselected
      · intro row hrow
        obtain ⟨entry, hentry, hcandidate⟩ := List.mem_filterMap.mp hrow
        have hmem : row ∈ table.rows := by
          split at hcandidate
          · rw [← Option.some.inj hcandidate]
            exact List.fst_mem_of_mem_zipIdx hentry
          · simp at hcandidate
        obtain ⟨value, hvalue⟩ := heval row hmem
        exact ⟨value, hvalue, by rw [isSelected, hvalue]⟩
    rw [executeQuery_eq, executeQueryScanning, hctes, Result.ok_bind, hfrom, Result.ok_bind, hjoins,
      executeJoins, Result.ok_bind, finishQuery, hwhere, finishQuery]
    rfl
  · rintro tableName assignments result tables' rfl heval h
    obtain ⟨found, updated, hfound, hupdated, rfl, -, rfl⟩ := executeUpdate_ok h
    rw [hlookup, Option.some.injEq] at hfound
    subst hfound
    have hrows := forall₂_of_zipIdx (Result.mapM_eq_ok.mp hupdated)
    have hsteps : List.Forall₂ (fun row result =>
        (if isSelected H tables ∅ (toAsciiLowercase tableName) table.schema e row then
          applyAssignments H tables (toAsciiLowercase tableName) table.schema row row assignments =
            .ok result.1
        else result.1 = row) ∧
        result.2 = isSelected H tables ∅ (toAsciiLowercase tableName) table.schema e row)
        table.rows updated := by
      refine hrows.imp ?_
      rintro row ⟨row', flag⟩ ⟨i, hi, hstep⟩
      rw [Nat.zero_add] at hstep
      unfold updateRow at hstep
      rw [affects_eq heval hi (htyped.isCandidate hinv hfloat hi), Result.ok_bind] at hstep
      split at hstep
      · rename_i hselected
        obtain ⟨assigned, hassigned, hpair⟩ := Result.bind_eq_ok.mp hstep
        simp only [Result.pure_eq_ok, Except.ok.injEq, Prod.mk.injEq] at hpair
        rw [if_pos hselected, hselected, hassigned, hpair.1, hpair.2]
        exact ⟨rfl, rfl⟩
      · rename_i hselected
        simp only [Result.pure_eq_ok, Except.ok.injEq, Prod.mk.injEq] at hstep
        rw [if_neg hselected, Bool.eq_false_iff.mpr hselected]
        exact ⟨hstep.1.symm, hstep.2.symm⟩
    refine ⟨_, rfl, ?_, ?_⟩
    · rw [List.forall₂_map_right_iff]
      exact hsteps.imp fun _ _ h => h.1
    · rw [length_filter_of_forall₂ Prod.snd (hsteps.imp fun _ _ h => h.2)]
  · rintro tableName result tables' rfl heval h
    obtain ⟨found, kept, hfound, hkept, rfl, -, rfl⟩ := executeDelete_ok h
    rw [hlookup, Option.some.injEq] at hfound
    subst hfound
    obtain ⟨flags, hflags, hremaining, hcount⟩ := keepRow_loop table.rowIds
      (fun i _ => by rw [Nat.zero_add]) hinv.ids.lengths (Result.mapM_eq_ok.mp hkept)
    have hselected : List.Forall₂ (fun row flag =>
        flag = isSelected H tables ∅ (toAsciiLowercase tableName) table.schema e row)
        table.rows flags := by
      refine (forall₂_of_zipIdx hflags).imp ?_
      rintro row flag ⟨i, hi, hflag⟩
      rw [Nat.zero_add, affects_eq heval hi (htyped.isCandidate hinv hfloat hi),
        Except.ok.injEq] at hflag
      exact hflag.symm
    rw [unflagged_eq_filter hselected] at hremaining
    have hfst : ((table.rows.zip table.rowIds).filter (fun entry =>
        !isSelected H tables ∅ (toAsciiLowercase tableName) table.schema e entry.1)).map Prod.fst =
        table.rows.filter (fun row =>
          !isSelected H tables ∅ (toAsciiLowercase tableName) table.schema e row) := by
      have hzip : (table.rows.zip table.rowIds).map Prod.fst = table.rows :=
        List.map_fst_zip (by rw [hinv.ids.lengths])
      conv_rhs => rw [← hzip, List.filter_map]
      rfl
    refine ⟨_, _, rfl, by rw [hremaining, hfst], ?_, by simp, ?_⟩
    · rw [hremaining, ← List.unzip_fst, ← List.unzip_snd, List.zip_unzip]
    · rw [hcount, length_filter_of_forall₂ id hselected]

/-- Three rows, with an index on `v`; the last one holds NULL there. -/
def sampleTable : Table :=
  Table.rebuildIndex Host.reference
    { schema :=
        { name := "t"
          columns :=
            [{ name := "id", dataType := .integer, nullable := false, primaryKey := false,
               unique := false, default := none, checks := [] },
             { name := "v", dataType := .integer, nullable := true, primaryKey := false,
               unique := false, default := none, checks := [] }]
          constraints := []
          indexes := [{ name := "tv", columns := ["v"], unique := false, automatic := false }] }
      rows := [[.integer 1, .integer 10], [.integer 2, .integer 20], [.integer 3, .null]]
      rowIds := [1, 2, 3]
      nextRowId := 4
      indexes := ∅
      bloomFalsePositiveRate := defaultBloomFalsePositiveRate }

/-- `10 < v AND id <= 2`. -/
def sampleWhere : Expr :=
  .binary (.binary (.literal (.integer 10)) (.compare .lessThan) (.column none "v")) .and
    (.binary (.column none "id") (.compare .lessThanOrEqual) (.literal (.integer 2)))

/-- The scan goes through the index, and DELETE keeps the first and the last row. -/
theorem delete_by_index :
    sampleTable.bestIndexName Host.reference (some sampleWhere) = some "tv" ∧
    ∃ tables', executeDelete Host.reference (AList.singleton "t" sampleTable) "t"
        (some sampleWhere) = .ok (.rowsAffected 1, tables') ∧
      (tables'.lookup "t").map Table.rows =
        some [[.integer 1, .integer 10], [.integer 3, .null]] ∧
      (tables'.lookup "t").map Table.rowIds = some [1, 3] := by
  have hinv : sampleTable.RepInv Host.reference :=
    Table.repInv_rebuildIndex ⟨rfl, by decide, by decide⟩
      (by unfold TableSchema.IndexColumnsExist; decide +kernel)
  have htyped : sampleTable.IndexedTyped := by
    intro name index hlookup
    obtain ⟨definition, hmem, -, rfl⟩ := Table.mem_rebuildIndex hlookup
    rw [Table.buildIndex_definition]
    obtain rfl := List.mem_singleton.mp hmem
    intro column hcolumn i hi
    obtain rfl := List.mem_singleton.mp hcolumn
    obtain rfl : i = 1 := Option.some.inj (hi.symm.trans (by decide +kernel))
    refine ⟨_, rfl, Or.inl rfl, ?_⟩
    decide +kernel
  have hfloat : ∀ predicate ∈ collectIndexPredicates sampleWhere,
      predicate.value.dataType ≠ .float := by
    decide
  have heval : EvaluatesOn Host.reference (AList.singleton "t" sampleTable) ∅ "t" sampleTable
      sampleWhere := by
    have hrows : ∀ row ∈ sampleTable.rows,
      (evalExpr Host.reference (AList.singleton "t" sampleTable)
        sampleWhere (boundColumns "t" sampleTable.schema) row none ∅).toOption.isSome = true := by
      decide +kernel
    intro row hrow
    obtain ⟨value, hvalue⟩ := Option.isSome_iff_exists.mp (hrows row hrow)
    exact ⟨value, Result.toOption_eq_some.mp hvalue⟩
  have hrun : (executeDelete Host.reference (AList.singleton "t" sampleTable) "t"
      (some sampleWhere)).toOption.isSome = true := by
    decide +kernel
  obtain ⟨⟨result, tables'⟩, hdelete⟩ := Option.isSome_iff_exists.mp hrun
  have hdelete := Result.toOption_eq_some.mp hdelete
  obtain ⟨rows', rowIds', rfl, hrows, hzip, hlength, rfl⟩ :=
    (index_scan_agrees Host.reference (AList.singleton "t" sampleTable) "t" sampleTable sampleWhere
      rfl hinv htyped hfloat).2.2 "t" result tables' (by decide +kernel)
      heval hdelete
  have hkept : rows' = [[.integer 1, .integer 10], [.integer 3, .null]] := by
    rw [hrows]
    decide +kernel
  have hids : rowIds' = (rows'.zip rowIds').map Prod.snd :=
    (List.map_snd_zip (by rw [hlength])).symm
  rw [hzip] at hids
  have hcount : (sampleTable.rows.filter (isSelected Host.reference
      (AList.singleton "t" sampleTable) ∅ "t" sampleTable.schema sampleWhere)).length = 1 := by
    decide +kernel
  rw [hcount] at hdelete
  refine ⟨by decide +kernel, _, hdelete, ?_, ?_⟩
  · rw [AList.lookup_insert, Option.map_some, ← hkept]
    rfl
  · simp only [AList.lookup_insert, Option.map_some, Table.rebuildIndex, hids, Option.some.injEq]
    decide +kernel

end Sql
end RustyDB
