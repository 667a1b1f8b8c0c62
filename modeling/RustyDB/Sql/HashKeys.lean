import Mathlib
import RustyDB.Sql.Fold
import RustyDB.Sql.NumericKeys
import RustyDB.Sql.RowKeys

/-!
# Hash keys

`IN (subquery)` looks a value up among the hash keys of the subquery's values, where a list
is compared value by value.

* `hashJoinKey_eq_iff` — which values hash alike.
* `Collides`, `OtherZero` — values that hash alike and are not equal, and the reverse.
* `disjunction` — the three-valued OR of equalities.
* `in_subquery_iff` — **IN over a subquery is that OR exactly where neither decides**, and
  a list is searched as that OR.
-/

namespace RustyDB
namespace Sql

/-! ## Which values hash alike -/

/-- The double that a number is hashed as. -/
def Value.asFloat : Value → Option F64
  | .integer n => some (Value.intToFloat n)
  | .float x => some x
  | _ => none

theorem Value.asFloat_eq_none {v : Value} :
    v.asFloat = none ↔ v.dataType ≠ .integer ∧ v.dataType ≠ .float := by
  cases v <;> simp [Value.asFloat, Value.dataType]

theorem toList_numberKey (bits : UInt64) : ("number:" ++ hex16 bits).toList =
    'n' :: 'u' :: 'm' :: 'b' :: 'e' :: 'r' :: ':' :: (hex16 bits).toList := by
  rw [String.toList_append]
  rfl

theorem numberKey_injective {a b : UInt64} (h : "number:" ++ hex16 a = "number:" ++ hex16 b) :
    a = b := by
  have hlist := congrArg String.toList h
  rw [String.toList_append, String.toList_append] at hlist
  exact hex16_injective (List.append_cancel_left hlist)

theorem hashJoinKey_of_asFloat {v : Value} {x : F64} (h : v.asFloat = some x) :
    hashJoinKey v = "number:" ++ hex16 x.bits := by
  cases v with
  | integer n =>
    obtain rfl := Option.some.inj h
    rfl
  | float y =>
    obtain rfl := Option.some.inj h
    rfl
  | _ => cases h

theorem hashJoinKey_of_not_number {v : Value} (h : v.asFloat = none) :
    hashJoinKey v = valueKey v := by
  cases v with
  | integer n => cases h
  | float x => cases h
  | _ => rfl

/-- The key of a number is not that of another value. -/
theorem numberKey_ne {v : Value} (h : v.asFloat = none) (hv : v.isNull = false) (bits : UInt64) :
    "number:" ++ hex16 bits ≠ valueKey v := by
  intro heq
  have hhead := head?_valueKey v
  rw [← heq, toList_numberKey] at hhead
  cases v with
  | integer n => cases h
  | float x => cases h
  | null => cases hv
  | boolean b => exact absurd (Option.some.inj hhead) (by simp [keyTag])
  | text s => exact absurd (Option.some.inj hhead) (by simp [keyTag])

/-- **Two values hash alike** when they are numbers with the same bits as doubles, or the
same text or boolean. -/
theorem hashJoinKey_eq_iff {u v : Value} (hu : u.isNull = false) (hv : v.isNull = false) :
    hashJoinKey u = hashJoinKey v ↔
      (∃ x, u.asFloat = some x ∧ v.asFloat = some x) ∨ (u.asFloat = none ∧ u = v) := by
  cases hfu : u.asFloat with
  | some x =>
    rw [hashJoinKey_of_asFloat hfu]
    cases hfv : v.asFloat with
    | some y =>
      rw [hashJoinKey_of_asFloat hfv]
      constructor
      · intro hkey
        obtain rfl : x = y := F64.ext_bits (congrArg UInt64.toNat (numberKey_injective hkey))
        exact Or.inl ⟨x, rfl, rfl⟩
      · rintro (⟨z, hx, hy⟩ | ⟨hnone, -⟩)
        · rw [Option.some.inj hx, Option.some.inj hy]
        · cases hnone
    | none =>
      rw [hashJoinKey_of_not_number hfv]
      refine iff_of_false (numberKey_ne hfv hv x.bits) ?_
      rintro (⟨z, -, hy⟩ | ⟨hnone, -⟩)
      · cases hy
      · cases hnone
  | none =>
    rw [hashJoinKey_of_not_number hfu]
    cases hfv : v.asFloat with
    | some y =>
      rw [hashJoinKey_of_asFloat hfv]
      refine iff_of_false (numberKey_ne hfu hu y.bits).symm ?_
      rintro (⟨z, hx, -⟩ | ⟨-, rfl⟩)
      · cases hx
      · rw [hfu] at hfv
        cases hfv
    | none =>
      rw [hashJoinKey_of_not_number hfv, valueKey_injective.eq_iff]
      constructor
      · exact fun h => Or.inr ⟨rfl, h⟩
      · rintro (⟨z, hx, -⟩ | ⟨-, h⟩)
        · cases hx
        · exact h

/-! ## Alike and equal -/

/-- Values that hash alike and are not equal: different integers that round to one double,
and not-a-number. -/
inductive Collides : Value → Value → Prop where
  | integers {m n : Int64} (hne : m ≠ n) (h : Value.intToFloat m = Value.intToFloat n) :
      Collides (.integer m) (.integer n)
  | nan {x : F64} (h : x.isNaN = true) : Collides (.float x) (.float x)

/-- Values that are equal and hash apart: the two zeros. -/
def OtherZero (u v : Value) : Prop :=
  ∃ x y, u.asFloat = some x ∧ v.asFloat = some y ∧ x.isZero = true ∧ y.isZero = true ∧ x ≠ y

/-- Two values, one of them a double, compare as doubles. -/
theorem partialCmp_asFloat {u v : Value} {x y : F64} (hu : u.asFloat = some x)
    (hv : v.asFloat = some y) (hfloat : (∃ z, u = .float z) ∨ ∃ z, v = .float z) :
    u.partialCmp v = x.partialCmp y := by
  cases u with
  | integer m =>
    obtain rfl := Option.some.inj hu
    cases v with
    | integer n =>
      rcases hfloat with ⟨z, hz⟩ | ⟨z, hz⟩ <;> cases hz
    | float z =>
      obtain rfl := Option.some.inj hv
      rfl
    | _ => cases hv
  | float z =>
    obtain rfl := Option.some.inj hu
    cases v with
    | integer n =>
      obtain rfl := Option.some.inj hv
      rfl
    | float z =>
      obtain rfl := Option.some.inj hv
      rfl
    | _ => cases hv
  | _ => cases hu

/-- Integers compare as integers. -/
theorem partialCmp_integers {m n : Int64} :
    (Value.integer m).partialCmp (.integer n) = some .eq ↔ m = n := by
  have hcmp : (Value.integer m).partialCmp (.integer n) = some (compare m.toInt n.toInt) := rfl
  rw [hcmp, Option.some.injEq, compare_eq_iff_eq]
  exact Int64.toInt_inj

/-- Values of different kinds are not equal. -/
theorem partialCmp_ne_of_dataType {u v : Value} (h : u.dataType ≠ v.dataType)
    (hnumber : u.asFloat = none ∨ v.asFloat = none) : u.partialCmp v ≠ some .eq := by
  have hnone : u.partialCmp v = none := by
    cases u <;> cases v <;> first
      | rfl
      | exact absurd rfl h
      | (rcases hnumber with hnumber | hnumber <;> cases hnumber)
  rw [hnone]
  exact nofun

/-- Texts and booleans are equal when they are the same. -/
theorem partialCmp_of_not_number {u v : Value} (hu : u.isNull = false) (h : u.asFloat = none) :
    u.partialCmp v = some .eq ↔ u = v := by
  by_cases htype : u.dataType = v.dataType
  · cases u with
    | null => cases hu
    | integer m => cases h
    | float x => cases h
    | text s =>
      cases v with
      | text t =>
        have hcmp : (Value.text s).partialCmp (.text t) = some (compare s t) := rfl
        rw [hcmp, Option.some.injEq, compare_eq_iff_eq, Value.text.injEq]
      | _ => cases htype
    | boolean a =>
      cases v with
      | boolean b =>
        have hcmp : (Value.boolean a).partialCmp (.boolean b) = some (compare a b) := rfl
        rw [hcmp, Option.some.injEq, compare_eq_iff_eq, Value.boolean.injEq]
      | _ => cases htype
  · refine iff_of_false (partialCmp_ne_of_dataType htype (Or.inl h)) ?_
    rintro rfl
    exact htype rfl

theorem collides_of_float {u v : Value} {x : F64} (hu : u.asFloat = some x)
    (hv : v.asFloat = some x) (hfloat : (∃ z, u = .float z) ∨ ∃ z, v = .float z) :
    Collides u v ↔ x.isNaN = true := by
  constructor
  · intro h
    cases h with
    | integers =>
      rcases hfloat with ⟨z, hz⟩ | ⟨z, hz⟩ <;> cases hz
    | nan hnan =>
      obtain rfl := Option.some.inj hu
      exact hnan
  · intro hnan
    cases u with
    | integer m =>
      obtain rfl := Option.some.inj hu
      rw [isNaN_intToFloat] at hnan
      cases hnan
    | float y =>
      obtain rfl := Option.some.inj hu
      cases v with
      | integer n =>
        obtain rfl := Option.some.inj hv
        rw [isNaN_intToFloat] at hnan
        cases hnan
      | float z =>
        obtain rfl := Option.some.inj hv
        exact .nan hnan
      | _ => cases hv
    | _ => cases hu

/-- **Hashing alike is being equal**, apart from the zeros and from what collides. -/
theorem hashJoinKey_eq_iff_equal {u v : Value} (hu : u.isNull = false) (hv : v.isNull = false) :
    hashJoinKey u = hashJoinKey v ↔
      (u.partialCmp v = some .eq ∧ ¬OtherZero u v) ∨ Collides u v := by
  rw [hashJoinKey_eq_iff hu hv]
  cases hfu : u.asFloat with
  | none =>
    have hzero : ¬OtherZero u v := by
      rintro ⟨x, y, hx, -⟩
      rw [hfu] at hx
      cases hx
    have hcollides : ¬Collides u v := by
      intro h
      cases h <;> cases hfu
    rw [partialCmp_of_not_number hu hfu, or_iff_left hcollides, and_iff_left hzero]
    constructor
    · rintro (⟨z, hz, -⟩ | ⟨-, h⟩)
      · cases hz
      · exact h
    · exact fun h => Or.inr ⟨rfl, h⟩
  | some x =>
    cases hfv : v.asFloat with
    | none =>
      refine iff_of_false ?_ ?_
      · rintro (⟨z, -, hz⟩ | ⟨hnone, -⟩)
        · cases hz
        · cases hnone
      · rintro (⟨hequal, -⟩ | h)
        · refine partialCmp_ne_of_dataType (fun htype => ?_) (Or.inr hfv) hequal
          have hnone := Value.asFloat_eq_none.mpr (htype ▸ Value.asFloat_eq_none.mp hfv)
          rw [hfu] at hnone
          cases hnone
        · cases h <;> cases hfv
    | some y =>
      have hzero : OtherZero u v ↔ x.isZero = true ∧ y.isZero = true ∧ x ≠ y := by
        constructor
        · rintro ⟨x', y', hx, hy, h⟩
          rw [hfu] at hx
          rw [hfv] at hy
          rwa [← Option.some.inj hx, ← Option.some.inj hy] at h
        · exact fun h => ⟨x, y, hfu, hfv, h⟩
      have hsame : ((∃ z, some x = some z ∧ some y = some z) ∨ some x = none ∧ u = v) ↔ x = y := by
        constructor
        · rintro (⟨z, hx, hy⟩ | ⟨hnone, -⟩)
          · rw [Option.some.inj hx, Option.some.inj hy]
          · cases hnone
        · rintro rfl
          exact Or.inl ⟨x, rfl, rfl⟩
      rw [hsame, hzero]
      by_cases hfloat : (∃ z, u = .float z) ∨ ∃ z, v = .float z
      · rw [partialCmp_asFloat hfu hfv hfloat, F64.eq_iff_partialCmp]
        refine or_congr_right ?_
        constructor
        · rintro ⟨rfl, hnan⟩
          exact (collides_of_float hfu hfv hfloat).mpr hnan
        · intro h
          obtain rfl : x = y := by
            cases h with
            | integers =>
              rcases hfloat with ⟨z, hz⟩ | ⟨z, hz⟩ <;> cases hz
            | nan =>
              rw [hfu] at hfv
              exact Option.some.inj hfv
          exact ⟨rfl, (collides_of_float hfu hfv hfloat).mp h⟩
      · obtain ⟨m, n, rfl, rfl⟩ : ∃ m n, u = .integer m ∧ v = .integer n := by
          cases u <;> cases v <;> simp_all [Value.asFloat]
        obtain rfl := Option.some.inj hfu
        obtain rfl := Option.some.inj hfv
        rw [partialCmp_integers]
        constructor
        · intro h
          by_cases hne : m = n
          · subst hne
            exact Or.inl ⟨rfl, fun hz => hz.2.2 rfl⟩
          · exact Or.inr (.integers hne h)
        · rintro (⟨rfl, -⟩ | h)
          · rfl
          · cases h with
            | integers _ h => exact h

/-! ## IN -/

/-- The three-valued OR of equalities with each value. -/
def disjunction (lowercase : String → String) (value : Value) : List Value → SqlTruth
  | [] => .false
  | candidate :: values =>
    (value.compareSql lowercase candidate .equal).or (disjunction lowercase value values)

/-- NOT IN. -/
def negateIf (negated : Bool) (truth : SqlTruth) : SqlTruth :=
  if negated then truth.negate else truth

/-- The value is equal to one that is not NULL. -/
def isEqual (value candidate : Value) : Bool :=
  !candidate.isNull && value.partialCmp candidate == some .eq

/-- The value hashes like one that is not NULL. -/
def isAlike (value candidate : Value) : Bool :=
  !candidate.isNull && hashJoinKey candidate == hashJoinKey value

/-- What is true, unknown or false of a list that holds what was sought or a NULL. -/
def searched (found unknown : Bool) : SqlTruth :=
  if found then .true else if unknown then .unknown else .false

section In

variable (lowercase : String → String) {value : Value}

theorem compareSql_equal (hvalue : value.isNull = false) (candidate : Value) :
    value.compareSql lowercase candidate .equal =
      searched (isEqual value candidate) candidate.isNull := by
  unfold Value.compareSql isEqual searched
  rw [hvalue, Bool.false_or]
  cases candidate.isNull with
  | true => rfl
  | false =>
    simp only [Bool.false_eq_true, if_false, Bool.not_false, Bool.true_and]
    rfl

theorem compareSql_null (candidate : Value) :
    Value.null.compareSql lowercase candidate .equal = .unknown := rfl

theorem searched_or (found found' unknown unknown' : Bool) :
    (searched found unknown).or (searched found' unknown') =
      searched (found || found') (unknown || unknown') := by
  cases found <;> cases found' <;> cases unknown <;> cases unknown' <;> rfl

theorem disjunction_eq (hvalue : value.isNull = false) (values : List Value) :
    disjunction lowercase value values =
      searched (values.any (isEqual value)) (values.any Value.isNull) := by
  induction values with
  | nil => rfl
  | cons candidate values ih =>
    rw [disjunction, ih, compareSql_equal lowercase hvalue, searched_or, List.any_cons,
      List.any_cons]

/-- NULL is in no list that it can be told not to be in. -/
theorem disjunction_null (values : List Value) :
    disjunction lowercase .null values = if values = [] then .false else .unknown := by
  induction values with
  | nil => rfl
  | cons candidate values ih =>
    rw [disjunction, ih, compareSql_null, if_neg (List.cons_ne_nil _ _)]
    split_ifs <;> rfl

theorem inSubqueryTruth_eq (hvalue : value.isNull = false) {relation : Relation}
    {values : List Value} (hrows : relation.rows = values.map fun v => [v]) :
    inSubqueryTruth value relation =
      searched (values.any (isAlike value)) (values.any Value.isNull) := by
  have hfirsts : relation.rows.filterMap List.head? = values := by
    rw [hrows, List.filterMap_map]
    exact List.filterMap_some
  unfold inSubqueryTruth searched
  dsimp only
  rw [hfirsts, hvalue, List.any_filter]
  rfl

theorem searched_inj {found found' unknown : Bool} :
    searched found unknown = searched found' unknown ↔ found = found' := by
  cases found <;> cases found' <;> cases unknown <;> decide

/-- The loop over a list is the OR. -/
theorem inValues_eq (H : Host) (values : List Value) (hne : values ≠ []) (negated : Bool) :
    inValues H value values negated = negateIf negated (disjunction H.lowercase value values) := by
  cases hvalue : value.isNull with
  | true =>
    obtain rfl := Value.isNull_iff.mp hvalue
    rw [inValues, hvalue, if_pos rfl, disjunction_null, if_neg hne]
    cases negated <;> rfl
  | false =>
    have hloop : ∀ unknown, inValuesLoop H value negated unknown values =
        negateIf negated (searched (values.any (isEqual value))
          (unknown || values.any Value.isNull)) := by
      clear hne
      induction values with
      | nil =>
        intro unknown
        rw [inValuesLoop]
        cases unknown <;> cases negated <;> rfl
      | cons candidate values ih =>
        intro unknown
        rw [inValuesLoop, compareSql_equal H.lowercase hvalue, List.any_cons, List.any_cons]
        cases hequal : isEqual value candidate with
        | true => cases negated <;> rfl
        | false =>
          cases hnull : candidate.isNull with
          | true => exact (ih true).trans (by rw [Bool.false_or, Bool.true_or, Bool.or_true])
          | false => exact (ih unknown).trans (by rw [Bool.false_or, Bool.false_or])
    rw [inValues, hvalue, disjunction_eq H.lowercase hvalue]
    exact (hloop false).trans (by rw [Bool.false_or])

end In

/-- Looking up hash keys decides as comparing does: a value that collides is itself there,
a zero is there with the sign it is sought with, and NULL is not looked up in an empty
list. -/
structure InFaithful (value : Value) (values : List Value) : Prop where
  null : value = .null → values ≠ []
  collision : (∃ candidate ∈ values, Collides value candidate) →
    ∃ candidate ∈ values, isEqual value candidate = true
  zero : (∃ candidate ∈ values, OtherZero value candidate) →
    ∃ candidate ∈ values, candidate.asFloat = value.asFloat

theorem isAlike_iff {value candidate : Value} (hvalue : value.isNull = false)
    (hcandidate : candidate.isNull = false) : isAlike value candidate = true ↔
      (value.partialCmp candidate = some .eq ∧ ¬OtherZero value candidate) ∨
        Collides value candidate := by
  rw [isAlike, hcandidate, Bool.not_false, Bool.true_and, beq_iff_eq,
    ← hashJoinKey_eq_iff_equal hvalue hcandidate]
  exact eq_comm

theorem isEqual_iff {value candidate : Value} (hcandidate : candidate.isNull = false) :
    isEqual value candidate = true ↔ value.partialCmp candidate = some .eq := by
  rw [isEqual, hcandidate, Bool.not_false, Bool.true_and, beq_iff_eq]

theorem isNull_of_asFloat {v : Value} {x : F64} (h : v.asFloat = some x) : v.isNull = false := by
  cases v with
  | null => cases h
  | _ => rfl

theorem isNumber_of_isZero {x : F64} (h : x.isZero = true) : x.isNaN = false := by
  rw [F64.isNaN, beq_iff_eq.mp h]
  rfl

theorem intToFloat_isZero {n : Int64} (h : (Value.intToFloat n).isZero = true) : n = 0 := by
  have hlow := Int64.le_toInt n
  have hhigh := Int64.toInt_lt n
  have hzero : n.toInt = 0 := F64.eq_zero_of_isZero_ofInt (by omega) h
  exact Int64.toInt_inj.mp hzero

/-- A zero with the other sign is equal. -/
theorem OtherZero.equal {u v : Value} (h : OtherZero u v) : u.partialCmp v = some .eq := by
  obtain ⟨x, y, hu, hv, hx, hy, hne⟩ := h
  by_cases hfloat : (∃ z, u = .float z) ∨ ∃ z, v = .float z
  · rw [partialCmp_asFloat hu hv hfloat, F64.partialCmp_eq_eq, F64.key_of_isZero hx,
      F64.key_of_isZero hy]
    exact ⟨isNumber_of_isZero hx, isNumber_of_isZero hy, rfl⟩
  · obtain ⟨m, n, rfl, rfl⟩ : ∃ m n, u = .integer m ∧ v = .integer n := by
      cases u <;> cases v <;> simp_all [Value.asFloat]
    obtain rfl := Option.some.inj hu
    obtain rfl := Option.some.inj hv
    rw [intToFloat_isZero hx, intToFloat_isZero hy] at hne
    exact absurd rfl hne

theorem any_alike_iff {value : Value} (hvalue : value.isNull = false) (values : List Value) :
    values.any (isAlike value) = values.any (isEqual value) ↔ InFaithful value values := by
  have halike : values.any (isAlike value) = true ↔
      ∃ candidate ∈ values, isAlike value candidate = true := List.any_eq_true
  have hequal : values.any (isEqual value) = true ↔
      ∃ candidate ∈ values, isEqual value candidate = true := List.any_eq_true
  rw [Bool.eq_iff_iff, halike, hequal]
  constructor
  · intro h
    refine ⟨fun hnull => ?_, ?_, ?_⟩
    · rw [hnull] at hvalue
      cases hvalue
    · rintro ⟨candidate, hmem, hcollides⟩
      have hcandidate : candidate.isNull = false := by cases hcollides <;> rfl
      exact h.mp ⟨candidate, hmem, (isAlike_iff hvalue hcandidate).mpr (Or.inr hcollides)⟩
    · rintro ⟨candidate, hmem, hzero⟩
      obtain ⟨x, y, hx, hy, -⟩ := id hzero
      obtain ⟨found, hfound, hsame⟩ :=
        h.mpr ⟨candidate, hmem, (isEqual_iff (isNull_of_asFloat hy)).mpr hzero.equal⟩
      have hnull : found.isNull = false := by
        cases hfound : found.isNull with
        | true =>
          rw [isAlike, hfound] at hsame
          cases hsame
        | false => rfl
      rw [isAlike, hnull, Bool.not_false, Bool.true_and, beq_iff_eq,
        hashJoinKey_eq_iff hnull hvalue] at hsame
      refine ⟨found, hfound, ?_⟩
      rcases hsame with ⟨z, hz, hz'⟩ | ⟨-, rfl⟩
      · rw [hz, hz']
      · rfl
  · intro hfaithful
    constructor
    · rintro ⟨candidate, hmem, h⟩
      cases hnull : candidate.isNull with
      | true =>
        rw [isAlike, hnull] at h
        cases h
      | false =>
        rcases (isAlike_iff hvalue hnull).mp h with ⟨hcmp, -⟩ | hcollides
        · exact ⟨candidate, hmem, (isEqual_iff hnull).mpr hcmp⟩
        · exact hfaithful.collision ⟨candidate, hmem, hcollides⟩
    · rintro ⟨candidate, hmem, h⟩
      cases hnull : candidate.isNull with
      | true =>
        rw [isEqual, hnull] at h
        cases h
      | false =>
        have hcmp := (isEqual_iff hnull).mp h
        by_cases hzero : OtherZero value candidate
        · obtain ⟨found, hfound, hsame⟩ := hfaithful.zero ⟨candidate, hmem, hzero⟩
          obtain ⟨x, -, hx, -⟩ := hzero
          have hnull : found.isNull = false := isNull_of_asFloat (hsame.trans hx)
          refine ⟨found, hfound, ?_⟩
          rw [isAlike, hnull, Bool.not_false, Bool.true_and, beq_iff_eq,
            hashJoinKey_of_asFloat hx, hashJoinKey_of_asFloat (hsame.trans hx)]
        · exact ⟨candidate, hmem, (isAlike_iff hvalue hnull).mpr (Or.inl ⟨hcmp, hzero⟩)⟩

theorem truthValue_injective : Function.Injective truthValue := by
  intro a b h
  cases a <;> cases b <;> first
    | rfl
    | cases h

theorem negateIf_injective (negated : Bool) : Function.Injective (negateIf negated) := by
  intro a b h
  cases negated <;> cases a <;> cases b <;> first
    | rfl
    | cases h

/-- What IN over a subquery does with the rows of the subquery. -/
theorem evalExpr_inSubquery {H : Host} {tables : Tables} {columns : List BoundColumn} {row : Row}
    {group : Option (List Row)} {ctes : Ctes} {expr : Expr} {query : Query} {value : Value}
    {relation : Relation} (hvalue : evalExpr H tables expr columns row group ctes = .ok value)
    (hquery : executeQuery H tables query ctes = .ok relation)
    (hcolumn : relation.columns.length = 1) (negated : Bool) :
    evalExpr H tables (.inSubquery expr query negated) columns row group ctes =
      .ok (truthValue (negateIf negated (inSubqueryTruth value relation))) := by
  rw [evalExpr]
  simp only [hvalue, hquery, Result.ok_bind]
  rw [if_neg (not_not_intro hcolumn)]
  rfl

/-- The key of the subquery decides as the OR of the equalities. -/
theorem inSubqueryTruth_iff (lowercase : String → String) (value : Value) {relation : Relation}
    {values : List Value} (hrows : relation.rows = values.map fun v => [v]) :
    inSubqueryTruth value relation = disjunction lowercase value values ↔
      InFaithful value values := by
  cases hvalue : value.isNull with
  | true =>
    obtain rfl := Value.isNull_iff.mp hvalue
    have hunknown : inSubqueryTruth .null relation = .unknown := rfl
    rw [hunknown, disjunction_null]
    constructor
    · intro h
      refine ⟨fun _ hnil => ?_, ?_, ?_⟩
      · rw [if_pos hnil] at h
        cases h
      · rintro ⟨candidate, -, hcollides⟩
        cases hcollides
      · rintro ⟨candidate, -, x, y, hx, -⟩
        cases hx
    · intro h
      rw [if_neg (h.null rfl)]
  | false =>
    rw [inSubqueryTruth_eq hvalue hrows, disjunction_eq lowercase hvalue, searched_inj,
      any_alike_iff hvalue]

/-- **IN over a subquery is the three-valued OR of the equalities**, and so what a list of the
same values gives, exactly where its hash keys are faithful. -/
theorem in_subquery_iff (H : Host) (tables : Tables) (columns : List BoundColumn) (row : Row)
    (group : Option (List Row)) (ctes : Ctes) (expr : Expr) (query : Query) (value : Value)
    (relation : Relation) (values : List Value)
    (hvalue : evalExpr H tables expr columns row group ctes = .ok value)
    (hquery : executeQuery H tables query ctes = .ok relation)
    (hcolumn : relation.columns.length = 1)
    (hrows : relation.rows = values.map fun v => [v]) :
    (∀ negated,
        evalExpr H tables (.inSubquery expr query negated) columns row group ctes =
          .ok (truthValue (negateIf negated (disjunction H.lowercase value values))) ∧
        (values ≠ [] →
          evalExpr H tables (.inSubquery expr query negated) columns row group ctes =
            .ok (truthValue (inValues H value values negated)))) ↔
      InFaithful value values := by
  rw [← inSubqueryTruth_iff H.lowercase value hrows]
  constructor
  · intro h
    have htruth := (h false).1
    rw [evalExpr_inSubquery hvalue hquery hcolumn] at htruth
    exact negateIf_injective false (truthValue_injective (Except.ok.inj htruth))
  · intro h negated
    rw [evalExpr_inSubquery hvalue hquery hcolumn, h]
    exact ⟨rfl, fun hne => by rw [inValues_eq H values hne]⟩

/-- `SELECT value`, at most `limit` rows of it. -/
def selectValue (value : Value) (limit : Option Nat) : Query :=
  { ctes := [], distinct := false, projection := [.expr (.literal value) none], source := none,
    joins := [], selection := none, groupBy := [], having := none, orderBy := [], limit }

/-- A text is looked up. -/
theorem text_found :
    evalExpr Host.reference ∅ (.inSubquery (.literal (.text "a")) (selectValue (.text "a") none)
      true) [] [] none ∅ = .ok (.boolean false) := by
  have hfaithful : InFaithful (.text "a") [.text "a"] := by
    refine ⟨nofun, ?_, ?_⟩
    · rintro ⟨candidate, -, hcollides⟩
      cases hcollides
    · rintro ⟨candidate, -, x, y, hx, -⟩
      cases hx
  exact ((in_subquery_iff Host.reference ∅ [] [] none ∅ (.literal (.text "a"))
    (selectValue (.text "a") none) (.text "a") _ [.text "a"] (by rfl) (by rfl) (by rfl)
    (by rfl)).mpr hfaithful true).1

/-- The integers next to `2 ^ 53` hash alike, and NULL is not told from no value at all. -/
theorem next_integer_found :
    evalExpr Host.reference ∅ (.inSubquery (.literal (.integer 9007199254740993))
        (selectValue (.integer 9007199254740992) none) false) [] [] none ∅ =
      .ok (.boolean true) ∧
    disjunction id (.integer 9007199254740993) [.integer 9007199254740992] = .false ∧
    evalExpr Host.reference ∅ (.inSubquery (.literal .null)
        (selectValue (.integer 1) (some 0)) false) [] [] none ∅ = .ok .null ∧
    disjunction id .null [] = .false := by
  have hkey : (Value.intToFloat 9007199254740992).bits =
      (Value.intToFloat 9007199254740993).bits := by decide +kernel
  have hfound : ∀ columns, inSubqueryTruth (.integer 9007199254740993)
      { columns, rows := [[.integer 9007199254740992]] } = .true := by
    intro columns
    have hsame : hashJoinKey (.integer 9007199254740992) =
        hashJoinKey (.integer 9007199254740993) :=
      congrArg (fun bits => "number:" ++ hex16 bits) hkey
    rw [@inSubqueryTruth_eq _ rfl _ [.integer 9007199254740992] rfl]
    rw [List.any_cons, isAlike, hsame, beq_self_eq_true]
    rfl
  refine ⟨?_, rfl, rfl, rfl⟩
  have hquery : executeQuery Host.reference ∅
      (selectValue (.integer 9007199254740992) none) ∅ =
      .ok { columns := [⟨"", "expression"⟩], rows := [[.integer 9007199254740992]] } := rfl
  have hsought : evalExpr Host.reference ∅ (.literal (.integer 9007199254740993)) [] [] none ∅ =
      .ok (.integer 9007199254740993) := rfl
  rw [evalExpr_inSubquery hsought hquery rfl, hfound]
  rfl

end Sql
end RustyDB
