import Mathlib
import RustyDB.Lib.Delimited

/-!
# Decimal integers

An integer type reads a text that is an optional sign and one digit or more, when the number
is in its range.

* `parseInteger` — `str::parse` of an integer type.
* `IsDigits` — one digit or more and nothing else; `parseInteger_digits` reads them.
* `isDigit_of_parseInteger`, `nonneg_of_parseInteger` — what a text looks like that is read.
* `numberOf_lt`, `numberOf_append` — the number that digits stand for.
-/

namespace Decimal

open Delimited

variable {signed : Bool} {low high n : Int} {text digits : List Char} {c : Char}

/-- One digit or more. -/
def IsDigits (text : List Char) : Prop := text ≠ [] ∧ ∀ c ∈ text, c.isDigit = true

instance : Decidable (IsDigits text) :=
  decidable_of_iff (text.isEmpty = false ∧ text.all Char.isDigit = true) (by
    rw [IsDigits, List.isEmpty_eq_false_iff, List.all_eq_true])

/-- The sign of a text and what stands behind it. -/
def splitSign (signed : Bool) : List Char → Int × List Char
  | '+' :: digits => (1, digits)
  | '-' :: digits => if signed then (-1, digits) else (1, '-' :: digits)
  | text => (1, text)

/-- `str::parse` of the integers from `low` to `high`. -/
def parseInteger (signed : Bool) (low high : Int) (text : List Char) : Option Int :=
  let (sign, digits) := splitSign signed text
  if IsDigits digits then
    let n := sign * numberOf 10 digits
    if low ≤ n ∧ n ≤ high then some n else none
  else none

/-! ## Digits -/

theorem IsDigits.ne_sign (h : IsDigits text) (hc : c ∈ text) : c ≠ '+' ∧ c ≠ '-' := by
  have hdigit := h.2 c hc
  constructor
  · rintro rfl
    exact absurd hdigit (by decide)
  · rintro rfl
    exact absurd hdigit (by decide)

theorem splitSign_digits (h : IsDigits text) : splitSign signed text = (1, text) := by
  unfold splitSign
  split
  · exact absurd rfl (h.ne_sign (List.mem_cons_self ..)).1
  · exact absurd rfl (h.ne_sign (List.mem_cons_self ..)).2
  · rfl

/-- **Digits are read** as the number they stand for. -/
theorem parseInteger_digits (h : IsDigits text) (hlow : low ≤ numberOf 10 text)
    (hhigh : numberOf 10 text ≤ high) :
    parseInteger signed low high text = some (numberOf 10 text : Int) := by
  rw [parseInteger, splitSign_digits h]
  simp only [one_mul]
  rw [if_pos h, if_pos ⟨hlow, hhigh⟩]

theorem digitValue_le (h : c.isDigit = true) : digitValue c ≤ 9 := by
  rw [digitValue, if_pos h]
  have hbound := (Bool.and_eq_true_iff.mp h).2
  have hle : c.toNat ≤ 57 := UInt32.le_iff_toNat_le.mp (of_decide_eq_true hbound)
  omega

/-- **Behind more digits** a number counts ten times as much for each. -/
theorem numberOf_append (left right : List Char) :
    numberOf 10 (left ++ right) = numberOf 10 left * 10 ^ right.length + numberOf 10 right := by
  induction right using List.reverseRecOn with
  | nil =>
    rw [List.append_nil, List.length_nil, pow_zero, Nat.mul_one]
    rfl
  | append_singleton right c ih =>
    rw [← List.append_assoc, numberOf_concat, numberOf_concat, ih, List.length_append,
      List.length_singleton, Nat.pow_succ]
    ring

/-- **So many digits** stand for a number with so many places. -/
theorem numberOf_lt (h : ∀ c ∈ text, c.isDigit = true) : numberOf 10 text < 10 ^ text.length := by
  induction text using List.reverseRecOn with
  | nil => exact Nat.one_pos
  | append_singleton text c ih =>
    have hc := digitValue_le (h c (by simp))
    have htext := ih fun d hd => h d (List.mem_append_left _ hd)
    rw [numberOf_concat, List.length_append, List.length_singleton, Nat.pow_succ]
    omega

/-! ## Texts that are read -/

/-- The text of an integer is an optional sign and digits. -/
theorem splitSign_of_parseInteger (h : parseInteger signed low high text = some n) :
    IsDigits (splitSign signed text).2 ∧
      n = (splitSign signed text).1 * numberOf 10 (splitSign signed text).2 ∧
      low ≤ n ∧ n ≤ high := by
  rw [parseInteger] at h
  split at h
  rename_i sign digits hsplit
  rw [hsplit]
  split at h
  · rename_i hdigits
    obtain ⟨hrange, hn⟩ := Option.ite_none_right_eq_some.mp h
    cases hn
    exact ⟨hdigits, rfl, hrange⟩
  · cases h

/-- **The characters** of an integer are digits, but for a sign in front. -/
theorem isDigit_of_parseInteger (h : parseInteger signed low high text = some n) (hc : c ∈ text) :
    c.isDigit = true ∨ c = '+' ∨ (c = '-' ∧ signed = true) := by
  obtain ⟨⟨-, hdigits⟩, -⟩ := splitSign_of_parseInteger h
  unfold splitSign at hdigits
  split at hdigits
  · rcases List.mem_cons.mp hc with rfl | hc
    · exact Or.inr (Or.inl rfl)
    · exact Or.inl (hdigits c hc)
  · split at hdigits
    · rename_i hsigned
      rcases List.mem_cons.mp hc with rfl | hc
      · exact Or.inr (Or.inr ⟨rfl, hsigned⟩)
      · exact Or.inl (hdigits c hc)
    · exact Or.inl (hdigits c hc)
  · exact Or.inl (hdigits c hc)

/-- A character that is no digit and no sign of the type is not in the text of an integer. -/
theorem notMem_of_parseInteger (h : parseInteger signed low high text = some n)
    (hdigit : c.isDigit = false) (hplus : c ≠ '+') (hminus : c = '-' → signed = false) :
    c ∉ text := by
  intro hc
  rcases isDigit_of_parseInteger h hc with hc | hc | ⟨hc, hsigned⟩
  · rw [hdigit] at hc
    cases hc
  · exact hplus hc
  · rw [hminus hc] at hsigned
    cases hsigned

theorem ne_nil_of_parseInteger (h : parseInteger signed low high text = some n) : text ≠ [] := by
  rintro rfl
  exact (splitSign_of_parseInteger h).1.1 rfl

/-- **Without a minus** an integer is not negative. -/
theorem nonneg_of_parseInteger (h : parseInteger signed low high text = some n)
    (hminus : '-' ∉ text) : 0 ≤ n := by
  obtain ⟨-, rfl, -⟩ := splitSign_of_parseInteger h
  unfold splitSign
  split
  · simp
  · exact absurd (List.mem_cons_self ..) hminus
  · simp

theorem range_of_parseInteger (h : parseInteger signed low high text = some n) :
    low ≤ n ∧ n ≤ high :=
  (splitSign_of_parseInteger h).2.2

end Decimal
