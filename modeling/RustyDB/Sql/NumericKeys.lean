import Mathlib
import RustyDB.Lib.Rounding
import RustyDB.Sql.SingleTable

/-!
# Index keys of numbers

SQL compares an integer with a double as doubles, while index keys order by variant
first, every integer below every double, and doubles by their turned bits, minus zero
below zero.

* `orderedBits` — the turned bits, and the number they stand for (`toNat_orderedBits`).
* `Relates` — what an operator asks of two numbers.
* `KeyComplete` — the pairs and operators for which keys are complete.
* `numeric_keys_complete` — **the index never skips a row exactly on these.**
-/

namespace RustyDB
namespace Sql

/-! ## Turned bits -/

/-- The turned bits of `KeyPart::from_value`. -/
def orderedBits (x : F64) : UInt64 :=
  if x.bits &&& 0x8000000000000000 ≠ 0 then ~~~x.bits else x.bits ^^^ 0x8000000000000000

theorem fromValue_float (x : F64) : KeyPart.fromValue (.float x) = .float (orderedBits x) := rfl

theorem and_top_bit (a : UInt64) : a &&& 0x8000000000000000 ≠ 0 ↔ 2 ^ 63 ≤ a.toNat := by
  have hlt := a.toNat_lt
  rw [ne_eq, ← UInt64.toNat_inj, UInt64.toNat_and,
    show (0x8000000000000000 : UInt64).toNat = 2 ^ 63 from rfl,
    show (0 : UInt64).toNat = 0 from rfl, Nat.and_two_pow]
  have hbit : a.toNat.testBit 63 = decide (2 ^ 63 ≤ a.toNat) := by
    rw [Nat.testBit_eq_decide_div_mod_eq]
    by_cases h : 2 ^ 63 ≤ a.toNat
    · have hdiv : a.toNat / 2 ^ 63 % 2 = 1 := by omega
      rw [hdiv, decide_eq_true h]
      rfl
    · have hdiv : a.toNat / 2 ^ 63 % 2 = 0 := by omega
      rw [hdiv, decide_eq_false h]
      rfl
  rw [hbit]
  by_cases h : 2 ^ 63 ≤ a.toNat
  · simp
  · simp

theorem xor_top_bit {n : Nat} (h : n < 2 ^ 63) : n ^^^ 2 ^ 63 = 2 ^ 63 + n := by
  apply Nat.eq_of_testBit_eq
  intro i
  rw [Nat.testBit_xor, Nat.testBit_two_pow]
  rcases Nat.lt_trichotomy i 63 with hi | rfl | hi
  · have hne : ¬ 63 = i := by omega
    simp [Nat.testBit_two_pow_add_gt hi, hne]
  · have hbit : n.testBit 63 = false := Nat.testBit_lt_two_pow h
    rw [Nat.testBit_two_pow_add_eq, hbit]
    simp
  · have hne : ¬ 63 = i := by omega
    have hpow : 2 ^ 63 + n < 2 ^ i := by
      have : 2 ^ 64 ≤ 2 ^ i := Nat.pow_le_pow_right (by decide) hi
      omega
    rw [Nat.testBit_lt_two_pow hpow, Nat.testBit_lt_two_pow (by omega)]
    simp [hne]

/-- Turned bits count down from the middle for negative doubles, and up for the others. -/
theorem toNat_orderedBits (x : F64) : (orderedBits x).toNat =
    if x.sign then 2 ^ 63 - 1 - x.magnitude else 2 ^ 63 + x.magnitude := by
  have hlt := x.bits.toNat_lt
  unfold orderedBits F64.sign F64.magnitude
  by_cases h : 2 ^ 63 ≤ x.bits.toNat
  · rw [if_pos ((and_top_bit x.bits).mpr h), UInt64.toNat_not, show UInt64.size = 2 ^ 64 from rfl]
    simp only [h, decide_true, if_true]
    omega
  · rw [if_neg (fun hne => h ((and_top_bit x.bits).mp hne)), UInt64.toNat_xor,
      show (0x8000000000000000 : UInt64).toNat = 2 ^ 63 from rfl, xor_top_bit (by omega)]
    simp only [h, decide_false, Bool.false_eq_true, if_false]
    omega

/-- **Turning keeps the order** of doubles, unless they are the two zeros. -/
theorem compare_orderedBits {x y : F64}
    (h : ¬ (x.isZero = true ∧ y.isZero = true ∧ x.sign ≠ y.sign)) :
    compare x.key y.key = compare ((orderedBits x).toNat : Int) ((orderedBits y).toNat : Int) := by
  have hx := F64.magnitude_lt x
  have hy := F64.magnitude_lt y
  have hordered : (x.key < y.key ↔ (orderedBits x).toNat < (orderedBits y).toNat) ∧
      (x.key = y.key ↔ (orderedBits x).toNat = (orderedBits y).toNat) := by
    rw [toNat_orderedBits, toNat_orderedBits]
    simp only [F64.isZero, beq_iff_eq] at h
    unfold F64.key
    cases hsx : x.sign <;> cases hsy : y.sign <;>
      simp only [hsx, hsy, Bool.false_eq_true, if_true, if_false, ne_eq, not_true_eq_false,
        reduceCtorEq, not_false_eq_true, and_true, and_false] at h ⊢ <;> omega
  rcases Int.lt_trichotomy x.key y.key with hlt | heq | hgt
  · rw [compare_lt_iff_lt.mpr hlt, compare_lt_iff_lt.mpr (Int.ofNat_lt.mpr (hordered.1.mp hlt))]
  · rw [heq, hordered.2.mp heq, compare_eq_iff_eq.mpr rfl, compare_eq_iff_eq.mpr rfl]
  · have hle : ¬ (orderedBits x).toNat < (orderedBits y).toNat :=
      fun hlt => absurd (hordered.1.mpr hlt) (by omega)
    have hne : ¬ (orderedBits x).toNat = (orderedBits y).toNat :=
      fun heq => absurd (hordered.2.mpr heq) (by omega)
    rw [compare_gt_iff_gt.mpr hgt, compare_gt_iff_gt.mpr (by omega)]

/-- The two zeros stand next to each other. -/
theorem orderedBits_of_isZero {x : F64} (h : x.isZero = true) :
    (orderedBits x).toNat = if x.sign then 2 ^ 63 - 1 else 2 ^ 63 := by
  rw [F64.isZero, beq_iff_eq] at h
  rw [toNat_orderedBits, h]
  simp

/-! ## Operators on numbers -/

/-- What an operator asks of two numbers. -/
def Relates (op : ComparisonOp) (a b : Int) : Prop :=
  match op with
  | .equal => a = b
  | .notEqual => a ≠ b
  | .lessThan => a < b
  | .lessThanOrEqual => a ≤ b
  | .greaterThan => b < a
  | .greaterThanOrEqual => b ≤ a
  | .like => False

instance (op : ComparisonOp) (a b : Int) : Decidable (Relates op a b) := by
  cases op <;> unfold Relates <;> infer_instance

theorem relates_of_compare {op : ComparisonOp} {a b c d : Int} (h : compare a b = compare c d) :
    Relates op a b ↔ Relates op c d := by
  have hlt : a < b ↔ c < d := by rw [← compare_lt_iff_lt, h, compare_lt_iff_lt]
  have heq : a = b ↔ c = d := by rw [← compare_eq_iff_eq, h, compare_eq_iff_eq]
  cases op <;> simp only [Relates] <;> omega

theorem isIndexOperator_cases {op : ComparisonOp} (h : isIndexOperator op) :
    op = .equal ∨ op = .lessThan ∨ op = .lessThanOrEqual ∨ op = .greaterThan ∨
      op = .greaterThanOrEqual := by
  cases op with
  | notEqual => rcases h with h | h <;> simp [isRangeOperator] at h
  | like => rcases h with h | h <;> simp [isRangeOperator] at h
  | _ => simp

theorem compareKeyPart_iff {left right : KeyPart} {a b : Int} {op : ComparisonOp}
    (hop : isIndexOperator op) (h : left.cmp right = compare a b) :
    compareKeyPart left right op = true ↔ Relates op a b := by
  unfold compareKeyPart
  rw [h]
  rcases isIndexOperator_cases hop with rfl | rfl | rfl | rfl | rfl
  · simp [Relates]
  · simp [Relates, compare_lt_iff_lt]
  · simp [Relates, compare_le_iff_le]
  · simp [Relates, compare_gt_iff_gt]
  · simp [Relates, compare_ge_iff_ge]

theorem compareSql_iff {lowercase : String → String} {v w : Value} {a b : Int}
    {op : ComparisonOp} (hop : isIndexOperator op) (hv : v.isNull = false)
    (hw : w.isNull = false) (h : v.partialCmp w = some (compare a b)) :
    v.compareSql lowercase w op = .true ↔ Relates op a b := by
  unfold Value.compareSql
  rw [hv, hw, h, Bool.or_false, if_neg Bool.false_ne_true, SqlTruth.ofBool_eq_true]
  rcases isIndexOperator_cases hop with rfl | rfl | rfl | rfl | rfl
  · simp [Relates]
  · simp [Relates, compare_lt_iff_lt]
  · simp [Relates, compare_lt_iff_lt, le_iff_lt_or_eq]
  · simp [Relates, compare_gt_iff_gt]
  · have hswap : b = a ↔ a = b := eq_comm
    simp [Relates, compare_gt_iff_gt, le_iff_lt_or_eq, hswap]

/-! ## Completeness -/

/-- An integer, or a double that is a number. -/
def Value.IsNumber : Value → Prop
  | .integer _ => True
  | .float x => x.isNaN = false
  | _ => False

/-- Where index keys are complete for a comparison of `v` with `w`: integers always are;
the two zeros under an operator that their keys satisfy too; an integer and a double only
where the order of the variants is the order asked for, or the numbers are not in the
relation anyway. -/
def KeyComplete (op : ComparisonOp) : Value → Value → Prop
  | .float x, .float y => x.isZero = true → y.isZero = true → x.sign ≠ y.sign →
      op = .lessThan ∨ op = .greaterThan ∨ op = .lessThanOrEqual ∧ x.sign = true ∨
        op = .greaterThanOrEqual ∧ y.sign = true
  | .integer n, .float y => op = .lessThan ∨ op = .lessThanOrEqual ∨
      ¬ Relates op (Value.intToFloat n).key y.key
  | .float x, .integer m => op = .greaterThan ∨ op = .greaterThanOrEqual ∨
      ¬ Relates op x.key (Value.intToFloat m).key
  | _, _ => True

theorem isNaN_intToFloat (n : Int64) : (Value.intToFloat n).isNaN = false := F64.isNaN_round _ _ _

/-- **Numeric index keys are complete for SQL comparison** under exactly this condition: for
numbers and an operator that an index is searched with, a true SQL comparison is a true
comparison of the keys. -/
theorem numeric_keys_complete (lowercase : String → String) (v w : Value) (op : ComparisonOp)
    (hv : v.IsNumber) (hw : w.IsNumber) (hop : isIndexOperator op) :
    (v.compareSql lowercase w op = .true →
        compareKeyPart (.fromValue v) (.fromValue w) op = true) ↔
      KeyComplete op v w := by
  cases v with
  | null => exact absurd hv id
  | text _ => exact absurd hv id
  | boolean _ => exact absurd hv id
  | integer n =>
    cases w with
    | null => exact absurd hw id
    | text _ => exact absurd hw id
    | boolean _ => exact absurd hw id
    | integer m =>
      rw [compareSql_iff hop rfl rfl rfl, compareKeyPart_iff hop rfl]
      exact ⟨fun _ => trivial, fun _ h => h⟩
    | float y =>
      have hcmp : (Value.integer n).partialCmp (.float y) =
          some (compare (Value.intToFloat n).key y.key) :=
        F64.partialCmp_of_number (isNaN_intToFloat n) hw
      rw [compareSql_iff hop rfl rfl hcmp,
        @compareKeyPart_iff _ _ 0 1 op hop rfl, KeyComplete]
      rcases isIndexOperator_cases hop with rfl | rfl | rfl | rfl | rfl <;> simp [Relates]
  | float x =>
    cases w with
    | null => exact absurd hw id
    | text _ => exact absurd hw id
    | boolean _ => exact absurd hw id
    | integer m =>
      have hcmp : (Value.float x).partialCmp (.integer m) =
          some (compare x.key (Value.intToFloat m).key) :=
        F64.partialCmp_of_number hv (isNaN_intToFloat m)
      rw [compareSql_iff hop rfl rfl hcmp,
        @compareKeyPart_iff _ _ 1 0 op hop rfl, KeyComplete]
      rcases isIndexOperator_cases hop with rfl | rfl | rfl | rfl | rfl <;> simp [Relates]
    | float y =>
      have hcmp : (Value.float x).partialCmp (.float y) = some (compare x.key y.key) :=
        F64.partialCmp_of_number hv hw
      have hkeys : (KeyPart.fromValue (.float x)).cmp (.fromValue (.float y)) =
          compare ((orderedBits x).toNat : Int) ((orderedBits y).toNat : Int) := by
        rw [fromValue_float, fromValue_float, KeyPart.cmp]
        rcases Nat.lt_trichotomy (orderedBits x).toNat (orderedBits y).toNat with h | h | h
        · rw [compare_lt_iff_lt.mpr h, compare_lt_iff_lt.mpr (Int.ofNat_lt.mpr h)]
        · rw [h, compare_eq_iff_eq.mpr rfl, compare_eq_iff_eq.mpr rfl]
        · rw [compare_gt_iff_gt.mpr h, compare_gt_iff_gt.mpr (Int.ofNat_lt.mpr h)]
      rw [compareSql_iff hop rfl rfl hcmp, compareKeyPart_iff hop hkeys, KeyComplete]
      by_cases hzeros : x.isZero = true ∧ y.isZero = true ∧ x.sign ≠ y.sign
      · obtain ⟨hx, hy, hsign⟩ := hzeros
        rw [F64.key_of_isZero hx, F64.key_of_isZero hy, orderedBits_of_isZero hx,
          orderedBits_of_isZero hy]
        cases hsx : x.sign <;> cases hsy : y.sign <;>
          rcases isIndexOperator_cases hop with rfl | rfl | rfl | rfl | rfl <;>
          simp [Relates, hx, hy, hsx, hsy] at hsign ⊢
      · rw [relates_of_compare (compare_orderedBits hzeros)]
        exact ⟨fun _ hx hy hsign => absurd ⟨hx, hy, hsign⟩ hzeros, fun _ h => h⟩

/-- An indexed integer against a double literal, in the order of the variants. -/
theorem integer_below_float :
    (Value.integer 1).compareSql id (.float (F64.ofInt 2)) .lessThan = .true ∧
      compareKeyPart (.fromValue (.integer 1)) (.fromValue (.float (F64.ofInt 2))) .lessThan =
        true := by
  have htrue : (Value.integer 1).compareSql id (.float (F64.ofInt 2)) .lessThan = .true := by
    decide +kernel
  exact ⟨htrue, (numeric_keys_complete id (.integer 1) (.float (F64.ofInt 2)) .lessThan trivial
    (by show F64.isNaN _ = false; decide +kernel) (Or.inr rfl)).mpr (Or.inl rfl) htrue⟩

/-- **An integer equal to a double** is not found under its key. -/
theorem equal_float_is_skipped : ∃ v w : Value, v.IsNumber ∧ w.IsNumber ∧
    v.compareSql id w .equal = .true ∧
      compareKeyPart (.fromValue v) (.fromValue w) .equal = false :=
  ⟨.integer 1, .float (F64.ofInt 1), trivial, by show F64.isNaN _ = false; decide +kernel,
    by decide +kernel, by decide +kernel⟩

end Sql
end RustyDB
