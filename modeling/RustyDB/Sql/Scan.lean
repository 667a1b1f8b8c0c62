import Mathlib
import RustyDB.Lib.Result
import RustyDB.Sql.Index
import RustyDB.Sql.Query
import RustyDB.Sql.Schema

/-!
# The index scan is complete

`candidate_row_ids` may skip a row only when some conjunct of the WHERE clause is
not true on it.  The argument goes through index keys: the conjuncts that compare a
column with a literal restrict the key of the row, and the chosen index returns
every row whose key they admit.

* `Value.compareSql_reverse` — a comparison read from the other side.
* `conjuncts_true` — a true WHERE clause makes each of its conjuncts true.
* `IndexProbe.admits_indexProbe` — the probe built from conjuncts that hold of a
  row admits the row's key.
* `BTreeIndex.mem_search` — an index returns what its probe admits.
* `isCandidate_of_admits` — whichever index is chosen, the row is a candidate.
-/

namespace RustyDB
namespace Sql

open KeyedIndex

/-! ## Comparisons -/

theorem Value.partialCmp_swap (x y : Value) :
    x.partialCmp y = (y.partialCmp x).map Ordering.swap := by
  cases x <;> cases y <;>
    first
    | rfl
    | exact F64.partialCmp_swap _ _
    | exact congrArg some Std.OrientedCmp.eq_swap

theorem SqlTruth.ofBool_eq_true {b : Bool} : SqlTruth.ofBool b = .true ↔ b = Bool.true := by
  cases b <;> simp [SqlTruth.ofBool]

/-- A comparison that is true, read from its other side. -/
theorem Value.compareSql_reverse {lowercase : String → String} {x y : Value} {op : ComparisonOp}
    (hlike : op ≠ .like) (h : x.compareSql lowercase y op = .true) :
    y.compareSql lowercase x (reverseComparison op) = .true := by
  unfold Value.compareSql at h ⊢
  rw [Bool.or_comm]
  split at h
  · simp at h
  · rename_i hnull
    rw [if_neg hnull]
    rw [SqlTruth.ofBool_eq_true] at h ⊢
    rw [Value.partialCmp_swap x y] at h
    cases hcmp : y.partialCmp x with
    | none => cases op <;> simp_all [reverseComparison]
    | some o => cases op <;> cases o <;> simp_all [reverseComparison, Ordering.swap]

theorem KeyPart.eq_of_cmp {a b : KeyPart} (h : a.cmp b = .eq) : a = b := by
  cases a <;> cases b <;> simp_all [KeyPart.cmp, KeyPart.rank]
  · exact Int64.toInt_inj.mp h
  · exact UInt64.toNat_inj.mp h

theorem eq_of_compareKeyPart {a b : KeyPart} (h : compareKeyPart a b .equal = true) : a = b :=
  KeyPart.eq_of_cmp (by simpa [compareKeyPart] using h)

/-! ## The conjuncts of a WHERE clause -/

theorem truthValue_truth (t : SqlTruth) : (truthValue t).truth = t := by
  cases t <;> rfl

theorem SqlTruth.and_eq_true {a b : SqlTruth} (h : a.and b = .true) : a = .true ∧ b = .true := by
  cases a <;> cases b <;> simp_all [SqlTruth.and]

/-- An operator an index can search by. -/
def isIndexOperator (op : ComparisonOp) : Prop := op = .equal ∨ isRangeOperator op = true

theorem not_isIndexOperator_like : ¬ isIndexOperator .like := by
  rintro (h | h) <;> simp [isRangeOperator] at h

/-- The conjuncts of `collect_index_predicates`, with the qualifiers it drops. -/
def indexConjuncts : Expr → List (Option String × IndexPredicate)
  | .binary left .and right => indexConjuncts left ++ indexConjuncts right
  | .binary (.column qualifier name) (.compare operator) (.literal value) =>
    [(qualifier, { column := name, operator, value })]
  | .binary (.literal value) (.compare operator) (.column qualifier name) =>
    [(qualifier, { column := name, operator := reverseComparison operator, value })]
  | _ => []

theorem map_indexConjuncts (e : Expr) :
    (indexConjuncts e).map Prod.snd = collectIndexPredicates e := by
  induction e using collectIndexPredicates.induct with
  | case1 left right ihl ihr =>
    rw [indexConjuncts, List.map_append, ihl, ihr, collectIndexPredicates]
  | case2 qualifier name op literal => rfl
  | case3 literal op qualifier name => rfl
  | case4 e hand hcolumn hliteral =>
    rw [indexConjuncts, collectIndexPredicates]
    · rfl
    all_goals assumption

/-- A conjunct that an index can use holds of a row: the column resolves and the
comparison is true. -/
def IndexPredicate.HoldsOf (H : Host) (columns : List BoundColumn) (row : Row)
    (qualifier : Option String) (predicate : IndexPredicate) : Prop :=
  ∃ (index : Nat) (value : Value),
    resolveColumn columns qualifier predicate.column = .ok index ∧ row[index]? = some value ∧
    value.compareSql H.lowercase predicate.value predicate.operator = .true

section Conjuncts

variable {H : Host} {tables : Tables} {columns : List BoundColumn} {row : Row}
  {group : Option (List Row)} {ctes : Ctes}

theorem evalExpr_column_ok {qualifier : Option String} {name : String} {value : Value}
    (h : evalExpr H tables (.column qualifier name) columns row group ctes = .ok value) :
    ∃ index, resolveColumn columns qualifier name = .ok index ∧ row[index]? = some value := by
  rw [evalExpr] at h
  obtain ⟨index, hindex, h⟩ := Result.bind_eq_ok.mp h
  cases hrow : row[index]? with
  | none => simp [hrow] at h
  | some found =>
    simp only [hrow, Except.ok.injEq] at h
    exact ⟨index, hindex, h ▸ hrow⟩

theorem evalExpr_and_true {left right : Expr} {value : Value}
    (h : evalExpr H tables (.binary left .and right) columns row group ctes = .ok value)
    (htrue : value.truth = .true) :
    (∃ v, evalExpr H tables left columns row group ctes = .ok v ∧ v.truth = .true) ∧
    ∃ v, evalExpr H tables right columns row group ctes = .ok v ∧ v.truth = .true := by
  rw [evalExpr_and] at h
  obtain ⟨leftValue, hleft, h⟩ := Result.bind_eq_ok.mp h
  split at h
  · simp only [Result.pure_eq_ok, Except.ok.injEq] at h
    subst h
    simp [Value.truth] at htrue
  · obtain ⟨rightValue, hright, h⟩ := Result.bind_eq_ok.mp h
    simp only [Result.pure_eq_ok, Except.ok.injEq] at h
    rw [← h, truthValue_truth] at htrue
    obtain ⟨hl, hr⟩ := SqlTruth.and_eq_true htrue
    exact ⟨⟨leftValue, hleft, hl⟩, ⟨rightValue, hright, hr⟩⟩

theorem evalExpr_compare_true {left right : Expr} {op : ComparisonOp} {value : Value}
    (h : evalExpr H tables (.binary left (.compare op) right) columns row group ctes = .ok value)
    (htrue : value.truth = .true) :
    ∃ x y, evalExpr H tables left columns row group ctes = .ok x ∧
      evalExpr H tables right columns row group ctes = .ok y ∧
      x.compareSql H.lowercase y op = .true := by
  rw [evalExpr_compare] at h
  obtain ⟨x, hx, h⟩ := Result.bind_eq_ok.mp h
  obtain ⟨y, hy, h⟩ := Result.bind_eq_ok.mp h
  simp only [Result.pure_eq_ok, Except.ok.injEq] at h
  rw [← h, truthValue_truth] at htrue
  exact ⟨x, y, hx, hy, htrue⟩

/-- **A true WHERE clause makes its conjuncts true.** -/
theorem conjuncts_true {e : Expr} {value : Value}
    (h : evalExpr H tables e columns row group ctes = .ok value) (htrue : value.truth = .true) :
    ∀ conjunct ∈ indexConjuncts e, isIndexOperator conjunct.2.operator →
      conjunct.2.HoldsOf H columns row conjunct.1 := by
  -- The recursion of `collect_index_predicates`: conjunctions, the two shapes of a
  -- comparison with a literal, and everything else, which yields nothing.
  induction e using collectIndexPredicates.induct generalizing value with
  | case1 left right ihl ihr =>
    obtain ⟨⟨v, hl, hlt⟩, ⟨w, hr, hrt⟩⟩ := evalExpr_and_true h htrue
    intro conjunct hmem hop
    rw [indexConjuncts, List.mem_append] at hmem
    rcases hmem with hmem | hmem
    · exact ihl hl hlt conjunct hmem hop
    · exact ihr hr hrt conjunct hmem hop
  | case2 qualifier name op literal =>
    intro conjunct hmem hop
    rw [indexConjuncts, List.mem_singleton] at hmem
    subst hmem
    obtain ⟨x, y, hx, hy, hcompare⟩ := evalExpr_compare_true h htrue
    obtain ⟨index, hindex, hrow⟩ := evalExpr_column_ok hx
    rw [evalExpr, Except.ok.injEq] at hy
    exact ⟨index, x, hindex, hrow, hy ▸ hcompare⟩
  | case3 literal op qualifier name =>
    intro conjunct hmem hop
    rw [indexConjuncts, List.mem_singleton] at hmem
    subst hmem
    obtain ⟨x, y, hx, hy, hcompare⟩ := evalExpr_compare_true h htrue
    obtain ⟨index, hindex, hrow⟩ := evalExpr_column_ok hy
    rw [evalExpr, Except.ok.injEq] at hx
    refine ⟨index, y, hindex, hrow, ?_⟩
    have hlike : op ≠ .like := by
      rintro rfl
      exact not_isIndexOperator_like hop
    exact hx ▸ Value.compareSql_reverse hlike hcompare
  | case4 e hand hcolumn hliteral =>
    intro conjunct hmem
    rw [indexConjuncts] at hmem
    · simp at hmem
    all_goals assumption

end Conjuncts

/-! ## Probes -/

/-- The value of a row at the predicate's column lies in the predicate's range, as
index keys compare. -/
def IndexPredicate.Admits (schema : TableSchema) (row : Row) (predicate : IndexPredicate) : Prop :=
  ∀ (index : Nat) (value : Value), schema.columnIndex predicate.column = some index →
    row[index]? = some value →
    compareKeyPart (.fromValue value) (.fromValue predicate.value) predicate.operator = true

theorem columnIndex_congr {schema : TableSchema} {a b : String}
    (h : eqIgnoreAsciiCase a b = true) : schema.columnIndex a = schema.columnIndex b := by
  unfold TableSchema.columnIndex
  congr 1
  funext column
  rw [Bool.eq_iff_iff]
  exact ⟨fun hc => eqIgnoreAsciiCase_trans hc h,
    fun hc => eqIgnoreAsciiCase_trans hc (eqIgnoreAsciiCase_symm h)⟩

theorem indexKey_cons {schema : TableSchema} {row : Row} {column : String}
    {columns : List String} {key : IndexKey}
    (h : schema.indexKey row (column :: columns) = some key) :
    ∃ (index : Nat) (value : Value) (rest : IndexKey),
      schema.columnIndex column = some index ∧ row[index]? = some value ∧
      schema.indexKey row columns = some rest ∧ key = KeyPart.fromValue value :: rest := by
  simp only [TableSchema.indexKey, List.mapM_cons, Option.bind_eq_bind, Option.bind_eq_some_iff,
    Option.map_eq_some_iff, Option.pure_def, Option.some.injEq] at h
  obtain ⟨part, ⟨value, ⟨index, hindex, hrow⟩, rfl⟩, rest, hrest, rfl⟩ := h
  exact ⟨index, value, rest, hindex, hrow, hrest, rfl⟩

theorem indexKey_cons_eq {schema : TableSchema} {row : Row} {column : String}
    {columns : List String} {index : Nat} {value : Value} {rest : IndexKey}
    (hindex : schema.columnIndex column = some index) (hvalue : row[index]? = some value)
    (hrest : schema.indexKey row columns = some rest) :
    schema.indexKey row (column :: columns) = some (KeyPart.fromValue value :: rest) := by
  unfold TableSchema.indexKey at hrest ⊢
  simp only [List.mapM_cons, hindex, hvalue, hrest, Option.bind_some, Option.map_some,
    Option.pure_def, Option.bind_eq_bind]

theorem length_of_indexKey {schema : TableSchema} {row : Row} {columns : List String}
    {key : IndexKey} (h : schema.indexKey row columns = some key) :
    key.length = columns.length := by
  induction columns generalizing key with
  | nil =>
    simp only [TableSchema.indexKey, List.mapM_nil, Option.pure_def, Option.some.injEq] at h
    simp [← h]
  | cons column columns ih =>
    obtain ⟨-, -, rest, -, -, hrest, rfl⟩ := indexKey_cons h
    simp [ih hrest]

theorem IndexProbe.admits_cons {part : KeyPart} {probe : IndexProbe} {key : IndexKey}
    (h : probe.admits key = true) :
    IndexProbe.admits ⟨part :: probe.keyPrefix, probe.range⟩ (part :: key) = true := by
  simpa [IndexProbe.admits] using h

/-- The conjuncts that an index over `columns` is probed with: the first one on each
column, as long as they are equalities, and at most one range after them. -/
def probeConjuncts (conjuncts : List (Option String × IndexPredicate)) :
    List String → List (Option String × IndexPredicate)
  | [] => []
  | column :: columns =>
    match conjuncts.find? (fun conjunct => eqIgnoreAsciiCase conjunct.2.column column) with
    | some conjunct =>
      if conjunct.2.operator = .equal then conjunct :: probeConjuncts conjuncts columns
      else if isRangeOperator conjunct.2.operator then [conjunct]
      else []
    | none => []

section Probe

variable {conjuncts : List (Option String × IndexPredicate)} {columns : List String}

theorem mem_probeConjuncts {conjunct : Option String × IndexPredicate}
    (h : conjunct ∈ probeConjuncts conjuncts columns) :
    conjunct ∈ conjuncts ∧ isIndexOperator conjunct.2.operator ∧
      ∃ column ∈ columns, eqIgnoreAsciiCase conjunct.2.column column = true := by
  induction columns with
  | nil => simp [probeConjuncts] at h
  | cons column columns ih =>
    rw [probeConjuncts] at h
    split at h
    · rename_i found hfound
      have hmem := List.mem_of_find?_eq_some hfound
      have hname : eqIgnoreAsciiCase found.2.column column = true := by
        have htest := List.find?_some hfound
        exact htest
      split at h
      · rename_i hequal
        rcases List.mem_cons.mp h with rfl | h
        · exact ⟨hmem, Or.inl hequal, column, by simp, hname⟩
        · obtain ⟨hmem, hop, c, hc, hname⟩ := ih h
          exact ⟨hmem, hop, c, List.mem_cons_of_mem _ hc, hname⟩
      · split at h
        · rename_i hrange
          obtain rfl := List.mem_singleton.mp h
          exact ⟨hmem, Or.inr hrange, column, by simp, hname⟩
        · simp at h
    · simp at h

/-- A probe that restricts anything uses a conjunct. -/
theorem exists_probeConjunct
    (h : (indexProbe (conjuncts.map Prod.snd) columns).isVacuous = false) :
    ∃ conjunct, conjunct ∈ probeConjuncts conjuncts columns := by
  cases columns with
  | nil => simp [indexProbe, IndexProbe.isVacuous] at h
  | cons column columns =>
    rw [indexProbe, List.find?_map] at h
    rw [probeConjuncts]
    cases hfound : conjuncts.find?
        (fun conjunct => eqIgnoreAsciiCase conjunct.2.column column) with
    | none =>
      simp [hfound, IndexProbe.isVacuous] at h
    | some conjunct =>
      simp only [Function.comp_def, hfound, Option.map_some] at h
      refine ⟨conjunct, ?_⟩
      simp only
      by_cases hequal : conjunct.2.operator = .equal
      · simp [hequal]
      · by_cases hrange : isRangeOperator conjunct.2.operator = true
        · simp [hequal, hrange]
        · simp [hequal, hrange, IndexProbe.isVacuous] at h

/-- **The probe admits the key** of a row of which its conjuncts hold. -/
theorem IndexProbe.admits_indexProbe {schema : TableSchema} {row : Row} {key : IndexKey}
    (hkey : schema.indexKey row columns = some key)
    (hadmits : ∀ conjunct ∈ probeConjuncts conjuncts columns, conjunct.2.Admits schema row) :
    (indexProbe (conjuncts.map Prod.snd) columns).admits key = true := by
  induction columns generalizing key with
  | nil => simp [indexProbe, IndexProbe.admits]
  | cons column columns ih =>
    obtain ⟨index, value, rest, hindex, hrow, hrest, rfl⟩ := indexKey_cons hkey
    rw [indexProbe, List.find?_map]
    rw [probeConjuncts] at hadmits
    cases hfound : conjuncts.find?
        (fun conjunct => eqIgnoreAsciiCase conjunct.2.column column) with
    | none => simp [hfound, IndexProbe.admits]
    | some conjunct =>
      have hname : eqIgnoreAsciiCase conjunct.2.column column = true := by
        have htest := List.find?_some hfound
        exact htest
      have hcompare : conjunct.2.Admits schema row →
          compareKeyPart (.fromValue value) (.fromValue conjunct.2.value)
            conjunct.2.operator = true := fun hconjunct =>
        hconjunct index value ((columnIndex_congr hname).trans hindex) hrow
      simp only [hfound] at hadmits
      simp only [Function.comp_def, hfound, Option.map_some]
      by_cases hequal : conjunct.2.operator = .equal
      · rw [if_pos hequal] at hadmits ⊢
        have heq := eq_of_compareKeyPart
          (hequal ▸ hcompare (hadmits conjunct (List.mem_cons_self ..)))
        rw [← heq]
        exact IndexProbe.admits_cons
          (ih hrest fun other hmem => hadmits other (List.mem_cons_of_mem _ hmem))
      · rw [if_neg hequal] at hadmits ⊢
        by_cases hrange : isRangeOperator conjunct.2.operator = true
        · rw [if_pos hrange] at hadmits ⊢
          simpa [IndexProbe.admits] using hcompare (hadmits conjunct (by simp))
        · rw [if_neg hrange]
          simp [IndexProbe.admits]

end Probe

/-! ## Searching an index -/

theorem mem_foldl_union {entries : List (Sigma fun _ : IndexKey => Finset Nat)}
    {test : IndexKey → Bool} {ids : Finset Nat} {rowId : Nat} :
    rowId ∈ entries.foldl (fun ids entry => if test entry.1 then ids ∪ entry.2 else ids) ids ↔
      rowId ∈ ids ∨ ∃ entry ∈ entries, test entry.1 = true ∧ rowId ∈ entry.2 := by
  induction entries generalizing ids with
  | nil => simp
  | cons entry entries ih =>
    rw [List.foldl_cons, ih]
    by_cases htest : test entry.1 = true
    · simp [htest, or_assoc]
    · simp [htest]

theorem mem_entries_of_mem_ids {entries : Entries IndexKey Nat} {key : IndexKey} {rowId : Nat}
    (h : rowId ∈ entries.ids key) :
    ∃ ids, (⟨key, ids⟩ : Sigma fun _ : IndexKey => Finset Nat) ∈ entries.entries ∧
      rowId ∈ ids := by
  unfold Entries.ids at h
  cases hlookup : entries.lookup key with
  | none => simp [hlookup] at h
  | some ids =>
    simp only [hlookup, Option.getD_some] at h
    exact ⟨ids, AList.mem_lookup_iff.mp hlookup, h⟩

/-- **An index returns what its probe admits**, by lookup or by scan. -/
theorem BTreeIndex.mem_search {H : Host} {index : BTreeIndex} {R : IndexKey → Nat → Prop}
    {probe : IndexProbe} {key : IndexKey} {rowId : Nat} (hholds : index.Holds H R)
    (hR : R key rowId) (hlength : key.length = index.definition.columns.length)
    (hadmits : probe.admits key = true) : rowId ∈ index.search H probe := by
  have hmem : rowId ∈ index.entries.ids key := (hholds.entries.mem_ids key rowId).mpr hR
  unfold BTreeIndex.search
  split
  · rename_i hfull
    have hbegin : probe.keyPrefix <+: key := by
      simp only [IndexProbe.admits, Bool.and_eq_true, List.isPrefixOf_iff_prefix] at hadmits
      exact hadmits.1
    have hkey : probe.keyPrefix = key :=
      hbegin.eq_of_length (hfull.1.trans hlength.symm)
    rw [hkey, if_pos (hholds.bloom key rowId hR)]
    exact hmem
  · rw [mem_foldl_union]
    obtain ⟨ids, hentry, hid⟩ := mem_entries_of_mem_ids hmem
    exact Or.inr ⟨_, hentry, hadmits, hid⟩

namespace Table

variable {H : Host} {table : Table}

theorem mem_indexValues {index : BTreeIndex} (h : index ∈ table.indexValues H) :
    ∃ name, table.indexes.lookup name = some index := by
  obtain ⟨name, -, hlookup⟩ := List.mem_filterMap.mp h
  exact ⟨name, hlookup⟩

theorem indexValues_of_lookup {name : String} {index : BTreeIndex}
    (h : table.indexes.lookup name = some index) : index ∈ table.indexValues H := by
  refine List.mem_filterMap.mpr ⟨name, ?_, h⟩
  rw [(H.hashOrder_perm _ _).mem_iff, ← AList.mem_keys, ← AList.lookup_isSome, h]
  rfl

/-- The best index of a fold is the best so far or one of the indexes folded over. -/
theorem foldl_betterIndex {predicates : List IndexPredicate} {indexes : List BTreeIndex}
    {start : Option BestIndex} {best : BestIndex}
    (h : indexes.foldl (betterIndex H predicates) start = some best) :
    start = some best ∨ ∃ index ∈ indexes,
      (indexProbe predicates index.definition.columns).isVacuous = false ∧
      best.ids = index.search H (indexProbe predicates index.definition.columns) ∧
      best.name = index.definition.name ∧
      best.score = (indexProbe predicates index.definition.columns).score := by
  induction indexes generalizing start with
  | nil => exact Or.inl h
  | cons index indexes ih =>
    rcases ih h with hstart | ⟨found, hmem, hfound⟩
    · unfold betterIndex at hstart
      simp only at hstart
      split at hstart
      · exact Or.inl hstart
      · rename_i hprobe
        have hprobe := Bool.eq_false_iff.mpr hprobe
        split at hstart
        · exact Or.inr ⟨index, by simp, hprobe, by simp [← Option.some.inj hstart]⟩
        · split at hstart
          · exact Or.inr ⟨index, by simp, hprobe, by simp [← Option.some.inj hstart]⟩
          · exact Or.inl hstart
    · exact Or.inr ⟨found, List.mem_cons_of_mem _ hmem, hfound⟩

/-- The choice among the indexes of a table, by the predicates at hand. -/
def chooseIndex (H : Host) (table : Table) (predicates : List IndexPredicate) :
    Option BestIndex :=
  (table.indexValues H).foldl (betterIndex H predicates) none

theorem candidateRowIds_eq (e : Expr) :
    table.candidateRowIds H (some e) = table.chooseIndex H ((indexConjuncts e).map Prod.snd) := by
  rw [map_indexConjuncts]
  rfl

/-- The index that a scan by these conjuncts has chosen. -/
def Chooses (H : Host) (table : Table) (conjuncts : List (Option String × IndexPredicate))
    (index : BTreeIndex) : Prop :=
  (∃ name, table.indexes.lookup name = some index) ∧
    (table.chooseIndex H (conjuncts.map Prod.snd)).map BestIndex.name =
      some index.definition.name

variable {conjuncts : List (Option String × IndexPredicate)}

/-- The candidates come from the chosen index, probed with at least one conjunct. -/
theorem chooseIndex_ids {best : BestIndex}
    (h : table.chooseIndex H (conjuncts.map Prod.snd) = some best) :
    ∃ index, table.Chooses H conjuncts index ∧
      (∃ conjunct, conjunct ∈ probeConjuncts conjuncts index.definition.columns) ∧
      best.ids = index.search H (indexProbe (conjuncts.map Prod.snd) index.definition.columns) := by
  rcases foldl_betterIndex h with hstart | ⟨index, hmem, hprobe, hids, hname, -⟩
  · simp at hstart
  · refine ⟨index, ⟨mem_indexValues hmem, ?_⟩, exists_probeConjunct hprobe, hids⟩
    rw [h, ← hname]
    rfl

/-- A row has a key in every runtime index. -/
def HasKeys (table : Table) (row : Row) : Prop :=
  ∀ name index, table.indexes.lookup name = some index →
    (table.schema.indexKey row index.definition.columns).isSome = true

/-- A row that the conjuncts of an index's probe admit is among the rows it returns. -/
theorem isCandidate_of_search {best : BestIndex} {name : String} {index : BTreeIndex}
    {position : Nat} {row : Row} (hinv : table.RepInv H)
    (hlookup : table.indexes.lookup name = some index)
    (hids : best.ids = index.search H
      (indexProbe (conjuncts.map Prod.snd) index.definition.columns))
    (hrow : table.rows[position]? = some row) (hkeys : table.HasKeys row)
    (hadmits : ∀ conjunct ∈ probeConjuncts conjuncts index.definition.columns,
      conjunct.2.Admits table.schema row) :
    table.isCandidate (some best) position = true := by
  obtain ⟨hlt, -⟩ := List.getElem?_eq_some_iff.mp hrow
  have hlt' : position < table.rowIds.length := hinv.ids.lengths ▸ hlt
  obtain ⟨key, hkey⟩ := Option.isSome_iff_exists.mp (hkeys name index hlookup)
  have hprobe := IndexProbe.admits_indexProbe hkey hadmits
  have hkeyed : table.keyed index.definition.columns key table.rowIds[position] :=
    ⟨position, row, hrow, List.getElem?_eq_getElem hlt', hkey⟩
  simp only [isCandidate, List.getElem?_eq_getElem hlt', decide_eq_true_eq, hids]
  exact BTreeIndex.mem_search (hinv.indexes name index hlookup).holds hkeyed
    (length_of_indexKey hkey) hprobe

/-- **Completeness of the index scan.** A row of which every conjunct that the chosen
index is probed with holds, as keys compare, is a candidate. -/
theorem isCandidate_of_admits {position : Nat} {row : Row} (hinv : table.RepInv H)
    (hrow : table.rows[position]? = some row) (hkeys : table.HasKeys row)
    (hadmits : ∀ index, table.Chooses H conjuncts index →
      ∀ conjunct ∈ probeConjuncts conjuncts index.definition.columns,
        conjunct.2.Admits table.schema row) :
    table.isCandidate (table.chooseIndex H (conjuncts.map Prod.snd)) position = true := by
  cases hcandidates : table.chooseIndex H (conjuncts.map Prod.snd) with
  | none => rfl
  | some best =>
    obtain ⟨index, hchooses, -, hids⟩ := chooseIndex_ids hcandidates
    obtain ⟨name, hlookup⟩ := hchooses.1
    exact isCandidate_of_search hinv hlookup hids hrow hkeys (hadmits index hchooses)

end Table

end Sql
end RustyDB
