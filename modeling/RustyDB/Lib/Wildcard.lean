import Mathlib

/-!
# Patterns with wildcards

A pattern is a list of symbols, and each of them stands for a piece of a text: any piece, one
element, or the element itself.

* `Symbol`, `Symbol.Fits`, `Matches` — a text is split into pieces, one for each symbol.
* `matches_snoc_many` and its siblings — what the last symbol of a pattern takes off the end
  of a text; `matches_cons_many` and its siblings take it off the front.
* `matcher` — the recursive matcher; `matcher_eq_true` says that it decides `Matches`.
-/

namespace Wildcard

/-- A symbol of a pattern. -/
inductive Symbol (α : Type) where
  | many
  | one
  | exactly (a : α)

variable {α : Type} {pattern front back : List (Symbol α)} {text : List α} {a b : α}

/-- The pieces that a symbol stands for. -/
def Symbol.Fits : Symbol α → List α → Prop
  | .many, _ => True
  | .one, piece => piece.length = 1
  | .exactly a, piece => piece = [a]

/-- **The text splits** into consecutive pieces that fit the symbols in their order. -/
def Matches (pattern : List (Symbol α)) (text : List α) : Prop :=
  ∃ pieces : List (List α), pieces.flatten = text ∧ List.Forall₂ Symbol.Fits pattern pieces

/-! ## Splitting a pattern -/

theorem matches_nil : Matches [] text ↔ text = [] := by
  constructor
  · rintro ⟨pieces, rfl, hfits⟩
    cases hfits
    rfl
  · rintro rfl
    exact ⟨[], rfl, .nil⟩

theorem matches_singleton {symbol : Symbol α} : Matches [symbol] text ↔ symbol.Fits text := by
  constructor
  · rintro ⟨pieces, rfl, hfits⟩
    cases hfits with
    | cons hfits hnil =>
      cases hnil
      rw [List.flatten_singleton]
      exact hfits
  · intro hfits
    exact ⟨[text], List.flatten_singleton, .cons hfits .nil⟩

/-- Two patterns one after the other match a text when it has a place to cut it. -/
theorem matches_append : Matches (front ++ back) text ↔
    ∃ before after, before ++ after = text ∧ Matches front before ∧ Matches back after := by
  constructor
  · rintro ⟨pieces, rfl, hfits⟩
    have hfront := (List.forall₂_take_append pieces front back hfits.flip).flip
    have hback := (List.forall₂_drop_append pieces front back hfits.flip).flip
    refine ⟨_, _, ?_, ⟨_, rfl, hfront⟩, ⟨_, rfl, hback⟩⟩
    rw [← List.flatten_append, List.take_append_drop]
  · rintro ⟨before, after, rfl, ⟨pieces, rfl, hfront⟩, ⟨pieces', rfl, hback⟩⟩
    exact ⟨pieces ++ pieces', List.flatten_append, List.rel_append hfront hback⟩

/-! ## The last symbol -/

/-- The last symbol takes a piece off the end. -/
theorem matches_snoc {symbol : Symbol α} : Matches (pattern ++ [symbol]) text ↔
    ∃ before piece, before ++ piece = text ∧ Matches pattern before ∧ symbol.Fits piece := by
  simp only [matches_append, matches_singleton]

theorem matches_snoc_many_nil : Matches (pattern ++ [.many]) [] ↔ Matches pattern [] := by
  rw [matches_snoc]
  constructor
  · rintro ⟨before, piece, hsplit, hbefore, -⟩
    obtain ⟨rfl, -⟩ := List.append_eq_nil_iff.mp hsplit
    exact hbefore
  · intro h
    exact ⟨[], [], rfl, h, trivial⟩

/-- **Any piece at the end** is empty, or it has the last element. -/
theorem matches_snoc_many : Matches (pattern ++ [.many]) (text ++ [a]) ↔
    Matches pattern (text ++ [a]) ∨ Matches (pattern ++ [.many]) text := by
  simp only [matches_snoc]
  constructor
  · rintro ⟨before, piece, hsplit, hbefore, -⟩
    rcases List.eq_nil_or_concat piece with rfl | ⟨piece, last, rfl⟩
    · rw [List.append_nil] at hsplit
      exact Or.inl (hsplit ▸ hbefore)
    · rw [List.concat_eq_append, ← List.append_assoc] at hsplit
      obtain ⟨hsplit, -⟩ := List.append_inj' hsplit rfl
      exact Or.inr ⟨before, piece, hsplit, hbefore, trivial⟩
  · rintro (h | ⟨before, piece, rfl, hbefore, -⟩)
    · exact ⟨text ++ [a], [], List.append_nil _, h, trivial⟩
    · exact ⟨before, piece ++ [a], by rw [List.append_assoc], hbefore, trivial⟩

theorem not_matches_snoc_one_nil : ¬ Matches (pattern ++ [.one]) ([] : List α) := by
  rw [matches_snoc]
  rintro ⟨before, piece, hsplit, -, hpiece⟩
  obtain ⟨-, rfl⟩ := List.append_eq_nil_iff.mp hsplit
  cases hpiece

/-- **One element at the end** is the last one. -/
theorem matches_snoc_one : Matches (pattern ++ [.one]) (text ++ [a]) ↔ Matches pattern text := by
  rw [matches_snoc]
  constructor
  · rintro ⟨before, piece, hsplit, hbefore, hpiece⟩
    obtain ⟨rfl, -⟩ := List.append_inj' hsplit hpiece
    exact hbefore
  · intro h
    exact ⟨text, [a], rfl, h, rfl⟩

theorem not_matches_snoc_exactly_nil : ¬ Matches (pattern ++ [.exactly b]) ([] : List α) := by
  rw [matches_snoc]
  rintro ⟨before, piece, hsplit, -, rfl⟩
  obtain ⟨-, h⟩ := List.append_eq_nil_iff.mp hsplit
  cases h

/-- **An element itself at the end** is the last one. -/
theorem matches_snoc_exactly : Matches (pattern ++ [.exactly b]) (text ++ [a]) ↔
    b = a ∧ Matches pattern text := by
  rw [matches_snoc]
  constructor
  · rintro ⟨before, piece, hsplit, hbefore, rfl⟩
    obtain ⟨rfl, hlast⟩ := List.append_inj' hsplit rfl
    exact ⟨List.head_eq_of_cons_eq hlast, hbefore⟩
  · rintro ⟨rfl, h⟩
    exact ⟨text, [b], rfl, h, rfl⟩

/-! ## The first symbol -/

/-- The first symbol takes a piece off the front. -/
theorem matches_cons {symbol : Symbol α} : Matches (symbol :: pattern) text ↔
    ∃ piece after, piece ++ after = text ∧ symbol.Fits piece ∧ Matches pattern after := by
  rw [← List.singleton_append, matches_append]
  simp only [matches_singleton]

theorem matches_cons_many_nil : Matches (.many :: pattern) [] ↔ Matches pattern [] := by
  rw [matches_cons]
  constructor
  · rintro ⟨piece, after, hsplit, -, hafter⟩
    obtain ⟨-, rfl⟩ := List.append_eq_nil_iff.mp hsplit
    exact hafter
  · intro h
    exact ⟨[], [], rfl, trivial, h⟩

theorem matches_cons_many : Matches (.many :: pattern) (a :: text) ↔
    Matches pattern (a :: text) ∨ Matches (.many :: pattern) text := by
  simp only [matches_cons]
  constructor
  · rintro ⟨piece, after, hsplit, -, hafter⟩
    cases piece with
    | nil => exact Or.inl (hsplit ▸ hafter)
    | cons first piece =>
      obtain ⟨-, hsplit⟩ := List.cons.inj hsplit
      exact Or.inr ⟨piece, after, hsplit, trivial, hafter⟩
  · rintro (h | ⟨piece, after, rfl, -, hafter⟩)
    · exact ⟨[], a :: text, rfl, trivial, h⟩
    · exact ⟨a :: piece, after, rfl, trivial, hafter⟩

theorem not_matches_cons_one_nil : ¬ Matches (.one :: pattern) ([] : List α) := by
  rw [matches_cons]
  rintro ⟨piece, after, hsplit, hpiece, -⟩
  obtain ⟨rfl, -⟩ := List.append_eq_nil_iff.mp hsplit
  cases hpiece

theorem matches_cons_one : Matches (.one :: pattern) (a :: text) ↔ Matches pattern text := by
  rw [matches_cons]
  constructor
  · rintro ⟨piece, after, hsplit, hpiece, hafter⟩
    obtain ⟨first, rfl⟩ := List.length_eq_one_iff.mp hpiece
    obtain ⟨-, rfl⟩ := List.cons.inj hsplit
    exact hafter
  · intro h
    exact ⟨[a], text, rfl, rfl, h⟩

theorem not_matches_cons_exactly_nil : ¬ Matches (.exactly b :: pattern) ([] : List α) := by
  rw [matches_cons]
  rintro ⟨piece, after, hsplit, rfl, -⟩
  cases hsplit

theorem matches_cons_exactly : Matches (.exactly b :: pattern) (a :: text) ↔
    b = a ∧ Matches pattern text := by
  rw [matches_cons]
  constructor
  · rintro ⟨piece, after, hsplit, rfl, hafter⟩
    obtain ⟨rfl, rfl⟩ := List.cons.inj hsplit
    exact ⟨rfl, hafter⟩
  · rintro ⟨rfl, h⟩
    exact ⟨[b], text, rfl, rfl, h⟩

/-! ## The recursive matcher -/

/-- The matcher that tries each symbol at the front of the text. -/
def matcher [BEq α] : List (Symbol α) → List α → Bool
  | [], text => text.isEmpty
  | .many :: pattern, [] => matcher pattern []
  | .many :: pattern, a :: text => matcher pattern (a :: text) || matcher (.many :: pattern) text
  | .one :: _, [] => false
  | .one :: pattern, _ :: text => matcher pattern text
  | .exactly _ :: _, [] => false
  | .exactly b :: pattern, a :: text => b == a && matcher pattern text
termination_by pattern text => pattern.length + text.length

/-- **The matcher decides** whether the text splits. -/
theorem matcher_eq_true [BEq α] [LawfulBEq α] :
    matcher pattern text = true ↔ Matches pattern text := by
  fun_induction matcher pattern text with
  | case1 text => rw [List.isEmpty_iff, matches_nil]
  | case2 pattern ih => rw [ih, matches_cons_many_nil]
  | case3 pattern a text ih ih' => rw [Bool.or_eq_true, ih, ih', matches_cons_many]
  | case4 pattern => exact iff_of_false Bool.false_ne_true not_matches_cons_one_nil
  | case5 pattern a text ih => rw [ih, matches_cons_one]
  | case6 b pattern => exact iff_of_false Bool.false_ne_true not_matches_cons_exactly_nil
  | case7 b pattern a text ih => rw [Bool.and_eq_true, beq_iff_eq, ih, matches_cons_exactly]

end Wildcard
