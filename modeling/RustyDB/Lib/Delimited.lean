import Mathlib
import RustyDB.Lib.Text

/-!
# Codes that end at a separator

Texts that are written one after the other with a separator between them, and can be told
apart again: each is delimited by itself or holds no separator.

* `Delimited` — a code whose words are told apart when a separator or nothing follows.
* `append_inj_of_not_mem` — texts without the separator are told apart.
* `Delimited.join_injective` — **a list of words is told apart from any other list.**
* `numberOf`, `numberOf_toDigits` — reading digits back, in any base up to sixteen.
-/

namespace Delimited

/-- Nothing follows, or the separator does. -/
def Ends (separator : Char) (rest : List Char) : Prop :=
  rest = [] ∨ ∃ tail, rest = separator :: tail

/-- Texts without the separator are told apart where it follows. -/
theorem append_inj_of_not_mem {separator : Char} {left right x y : List Char}
    (hleft : separator ∉ left) (hright : separator ∉ right) (hx : Ends separator x)
    (hy : Ends separator y) (h : left ++ x = right ++ y) : left = right ∧ x = y := by
  have hspan : ∀ word rest : List Char, separator ∉ word → Ends separator rest →
      (word ++ rest).takeWhile (· != separator) = word := by
    intro word rest hword hrest
    have hall : ∀ c ∈ word, (c != separator) = true := by
      intro c hc
      exact bne_iff_ne.mpr fun heq => hword (heq ▸ hc)
    rw [List.takeWhile_append_of_pos hall]
    rcases hrest with rfl | ⟨tail, rfl⟩
    · rw [List.takeWhile_nil, List.append_nil]
    · rw [List.takeWhile_cons_of_neg (by simp), List.append_nil]
  have hword : left = right := by
    rw [← hspan left x hleft hx, h, hspan right y hright hy]
  subst hword
  exact ⟨rfl, List.append_cancel_left h⟩

/-- Texts of one length in bytes are told apart. -/
theorem append_inj_of_byteLength {left right x y : List Char}
    (hlength : Text.byteLength left = Text.byteLength right) (h : left ++ x = right ++ y) :
    left = right ∧ x = y := by
  have hcut := Text.splitAtByte_byteLength left x
  rw [h, hlength, Text.splitAtByte_byteLength] at hcut
  obtain ⟨hleft, hrest⟩ := Prod.mk.inj (Option.some.inj hcut)
  exact ⟨hleft.symm, hrest.symm⟩

end Delimited

/-- The words of a code are told apart when the separator or nothing follows them. -/
def Delimited {α : Type} (separator : Char) (code : α → List Char) : Prop :=
  ∀ a b x y, Delimited.Ends separator x → Delimited.Ends separator y →
    code a ++ x = code b ++ y → a = b ∧ x = y

namespace Delimited

variable {α : Type} {separator : Char} {code : α → List Char}

/-- Words, with a separator before each. -/
def marked (separator : Char) (code : α → List Char) (as : List α) : List Char :=
  as.flatMap fun a => separator :: code a

theorem ends_marked (as : List α) : Ends separator (marked separator code as) := by
  cases as with
  | nil => exact Or.inl rfl
  | cons a as => exact Or.inr ⟨_, rfl⟩

theorem marked_injective (h : Delimited separator code) :
    Function.Injective (marked separator code) := by
  intro as
  induction as with
  | nil =>
    intro bs hbs
    cases bs with
    | nil => rfl
    | cons b bs => cases hbs
  | cons a as ih =>
    intro bs hbs
    cases bs with
    | nil => cases hbs
    | cons b bs =>
      obtain ⟨rfl, hrest⟩ :=
        h a b _ _ (ends_marked as) (ends_marked bs) (List.cons.inj hbs).2
      rw [ih hrest]

theorem intercalate_cons (a : α) (as : List α) :
    List.intercalate [separator] ((a :: as).map code) = code a ++ marked separator code as := by
  induction as generalizing a with
  | nil => simp [marked]
  | cons b bs ih =>
    rw [List.map_cons, List.map_cons, List.intercalate_cons_cons, ← List.map_cons, ih b]
    simp [marked]

/-- **Words with separators between them are told apart**, when none of them is empty. -/
theorem join_injective (h : Delimited separator code) (hne : ∀ a, code a ≠ []) :
    Function.Injective fun as : List α => List.intercalate [separator] (as.map code) := by
  have hempty : ∀ b bs, List.intercalate [separator] ((b :: bs).map code) ≠ [] := by
    intro b bs
    rw [intercalate_cons]
    exact List.append_ne_nil_of_left_ne_nil (hne b) _
  intro as bs hjoin
  cases as with
  | nil =>
    cases bs with
    | nil => rfl
    | cons b bs => exact absurd hjoin.symm (hempty b bs)
  | cons a as =>
    cases bs with
    | nil => exact absurd hjoin (hempty a as)
    | cons b bs =>
      simp only [intercalate_cons] at hjoin
      obtain ⟨rfl, hrest⟩ := h a b _ _ (ends_marked as) (ends_marked bs) hjoin
      rw [marked_injective h hrest]

/-! ## Digits -/

/-- The number a digit stands for, `a` being ten. -/
def digitValue (c : Char) : Nat := if c.isDigit then c.toNat - 48 else c.toNat - 87

/-- The number that digits stand for. -/
def numberOf (base : Nat) (digits : List Char) : Nat :=
  digits.foldl (fun n c => base * n + digitValue c) 0

theorem digitValue_digitChar {n : Nat} (h : n < 16) : digitValue n.digitChar = n := by
  interval_cases n <;> rfl

theorem numberOf_concat (base : Nat) (digits : List Char) (c : Char) :
    numberOf base (digits ++ [c]) = base * numberOf base digits + digitValue c := by
  rw [numberOf, List.foldl_concat, numberOf]

/-- Digits are read back. -/
theorem numberOf_toDigits {base : Nat} (hone : 1 < base) (hbase : base ≤ 16) (n : Nat) :
    numberOf base (Nat.toDigits base n) = n := by
  induction n using Nat.strong_induction_on with
  | _ n ih =>
    rw [Nat.toDigits_eq_if hone]
    split_ifs with hlt
    · show base * 0 + digitValue n.digitChar = n
      rw [digitValue_digitChar (by omega)]
      omega
    · have hmod : n % base < base := Nat.mod_lt n (by omega)
      rw [numberOf_concat, ih (n / base) (Nat.div_lt_self (by omega) hone),
        digitValue_digitChar (by omega), Nat.div_add_mod]

/-- Leading zeros make no difference. -/
theorem numberOf_zeros (base k : Nat) (digits : List Char) :
    numberOf base (List.replicate k '0' ++ digits) = numberOf base digits := by
  rw [numberOf, List.foldl_append, numberOf]
  congr 1
  induction k with
  | zero => rfl
  | succ k ih =>
    rw [List.replicate_succ, List.foldl_cons]
    exact ih

/-- No digit is a character that is none of the sixteen. -/
theorem not_mem_toDigits {base : Nat} (hone : 1 < base) (hbase : base ≤ 16) {c : Char}
    (hc : ∀ d < 16, Nat.digitChar d ≠ c) (n : Nat) : c ∉ Nat.toDigits base n := by
  induction n using Nat.strong_induction_on with
  | _ n ih =>
    rw [Nat.toDigits_eq_if hone]
    split_ifs with hlt
    · rw [List.mem_singleton]
      exact (hc n (by omega)).symm
    · have hmod : n % base < base := Nat.mod_lt n (by omega)
      rw [List.mem_append, List.mem_singleton]
      rintro (hmem | rfl)
      · exact ih (n / base) (Nat.div_lt_self (by omega) hone) hmem
      · exact hc (n % base) (by omega) rfl

end Delimited
