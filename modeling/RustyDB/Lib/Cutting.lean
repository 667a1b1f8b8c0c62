import Mathlib
import RustyDB.Lib.Text

/-!
# Cutting a text at its separators

What the pieces of a text say about it: put together with the separator between them they are
the text, and none of them has the separator.

* `splitOn_eq_pair`, `splitOn_eq_triple` — a text of two or three pieces.
* `splitOnce_eq_some`, `splitOnce_eq_none` — a text cut at the first separator.
* `splitAtLast_eq_some`, `splitAtLast_eq_none` — a text cut at the last character of a kind,
  which is not its first one.
* `stripSuffix_eq_some` — a text without its last character.
* `cut_injective` — the first character of a kind cuts a text in one way only.
-/

namespace Cutting

open Text

/-- A list that has just two elements. -/
theorem eq_pair_of_getElem? {β : Type} {pieces : List β} {x y : β} (hx : pieces[0]? = some x)
    (hy : pieces[1]? = some y) (hend : pieces[2]? = none) : pieces = [x, y] := by
  match pieces with
  | [] => cases hx
  | [_] => cases hy
  | [_, _] =>
    cases hx
    cases hy
    rfl
  | _ :: _ :: _ :: _ => cases hend

/-- A list that has just three elements. -/
theorem eq_triple_of_getElem? {β : Type} {pieces : List β} {x y z : β} (hx : pieces[0]? = some x)
    (hy : pieces[1]? = some y) (hz : pieces[2]? = some z) (hend : pieces[3]? = none) :
    pieces = [x, y, z] := by
  match pieces with
  | [] => cases hx
  | [_] => cases hy
  | [_, _] => cases hz
  | [_, _, _] =>
    cases hx
    cases hy
    cases hz
    rfl
  | _ :: _ :: _ :: _ :: _ => cases hend

variable {α : Type} [BEq α] [LawfulBEq α] {separator a : α} {text left right middle : List α}

/-! ## At every separator -/

/-- No piece has the separator. -/
theorem notMem_of_mem_splitOn (h : left ∈ text.splitOn separator) : separator ∉ left := by
  induction text generalizing left with
  | nil =>
    rw [List.splitOn_nil, List.mem_singleton] at h
    rw [h]
    exact List.not_mem_nil
  | cons a text ih =>
    rw [List.splitOn_cons_eq_if_modifyHead] at h
    split at h
    · rcases List.mem_cons.mp h with rfl | h
      · exact List.not_mem_nil
      · exact ih h
    · rename_i hne
      cases hsplit : text.splitOn separator with
      | nil => exact absurd hsplit (List.splitOn_ne_nil separator text)
      | cons first pieces =>
        rw [hsplit, List.modifyHead_cons] at h
        rcases List.mem_cons.mp h with rfl | h
        · have hfirst : separator ∉ first := ih (by rw [hsplit]; exact List.mem_cons_self ..)
          intro hmem
          rcases List.mem_cons.mp hmem with rfl | hmem
          · exact hne (beq_self_eq_true _)
          · exact hfirst hmem
        · exact ih (by rw [hsplit]; exact List.mem_cons_of_mem _ h)

/-- **Two pieces.** -/
theorem splitOn_eq_pair : text.splitOn separator = [left, right] ↔
    text = left ++ separator :: right ∧ separator ∉ left ∧ separator ∉ right := by
  constructor
  · intro h
    have hmem : ∀ piece ∈ text.splitOn separator, separator ∉ piece :=
      fun piece => notMem_of_mem_splitOn
    rw [h] at hmem
    have hjoin := @List.intercalate_splitOn α text _ _ separator
    rw [h] at hjoin
    have htext : text = left ++ separator :: right := by
      rw [← hjoin]
      simp [List.intercalate]
    exact ⟨htext, hmem left (by simp), hmem right (by simp)⟩
  · rintro ⟨rfl, hleft, hright⟩
    rw [List.splitOn_append_cons_self_of_not_mem hleft, List.splitOn_eq_singleton hright]

/-- **Three pieces.** -/
theorem splitOn_eq_triple : text.splitOn separator = [left, middle, right] ↔
    text = left ++ separator :: (middle ++ separator :: right) ∧
      separator ∉ left ∧ separator ∉ middle ∧ separator ∉ right := by
  constructor
  · intro h
    have hmem : ∀ piece ∈ text.splitOn separator, separator ∉ piece :=
      fun piece => notMem_of_mem_splitOn
    rw [h] at hmem
    have hjoin := @List.intercalate_splitOn α text _ _ separator
    rw [h] at hjoin
    have htext : text = left ++ separator :: (middle ++ separator :: right) := by
      rw [← hjoin]
      simp [List.intercalate]
    exact ⟨htext, hmem left (by simp), hmem middle (by simp), hmem right (by simp)⟩
  · rintro ⟨rfl, hleft, hmiddle, hright⟩
    rw [List.splitOn_append_cons_self_of_not_mem hleft,
      List.splitOn_append_cons_self_of_not_mem hmiddle, List.splitOn_eq_singleton hright]

/-! ## At one character -/

section Once

variable {sought c c' : Char} {cs before after before' after' : List Char} {p : Char → Bool}

/-- **The first separator** cuts a text. -/
theorem splitOnce_eq_some : splitOnce sought cs = some (before, after) ↔
    cs = before ++ sought :: after ∧ sought ∉ before := by
  induction cs generalizing before with
  | nil => simp [splitOnce]
  | cons c cs ih =>
    rw [splitOnce]
    split
    · rename_i heq
      subst heq
      constructor
      · intro h
        cases h
        exact ⟨rfl, List.not_mem_nil⟩
      · rintro ⟨hcs, hnot⟩
        cases before with
        | nil =>
          cases hcs
          rfl
        | cons d before =>
          obtain ⟨rfl, -⟩ := List.cons.inj hcs
          exact absurd (List.mem_cons_self ..) hnot
    · rename_i hne
      constructor
      · intro h
        obtain ⟨⟨first, second⟩, hcut, heq⟩ := Option.map_eq_some_iff.mp h
        cases heq
        obtain ⟨hcs, hnot⟩ := ih.mp hcut
        refine ⟨by rw [hcs, List.cons_append], fun hmem => ?_⟩
        rcases List.mem_cons.mp hmem with heq | hmem
        · exact hne heq.symm
        · exact hnot hmem
      · rintro ⟨hcs, hnot⟩
        cases before with
        | nil => exact absurd (List.cons.inj hcs).1 hne
        | cons d before =>
          obtain ⟨rfl, htail⟩ := List.cons.inj hcs
          rw [ih.mpr ⟨htail, fun hmem => hnot (List.mem_cons_of_mem _ hmem)⟩]
          rfl

theorem splitOnce_eq_none : splitOnce sought cs = none ↔ sought ∉ cs := by
  induction cs with
  | nil => simp [splitOnce]
  | cons c cs ih =>
    rw [splitOnce]
    split
    · rename_i heq
      simp [heq]
    · rename_i hne
      rw [Option.map_eq_none_iff, ih, List.mem_cons, not_or]
      exact ⟨fun h => ⟨fun heq => hne heq.symm, h⟩, fun h => h.2⟩

/-- A text cut at the last character of a kind, which does not stand at its start. -/
def splitAtLast (p : Char → Bool) (text : List Char) : Option (List Char × Char × List Char) :=
  match text with
  | [] => none
  | first :: rest =>
    match rest.reverse.dropWhile (fun c => !p c) with
    | [] => none
    | c :: before =>
      some (first :: before.reverse, c, (rest.reverse.takeWhile fun c => !p c).reverse)

/-- **The last character of a kind** cuts a text. -/
theorem splitAtLast_eq_some : splitAtLast p cs = some (before, c, after) ↔
    cs = before ++ c :: after ∧ before ≠ [] ∧ p c = true ∧ ∀ d ∈ after, p d = false := by
  constructor
  · intro h
    unfold splitAtLast at h
    split at h
    · cases h
    · rename_i first rest
      split at h
      · cases h
      · rename_i last front hdrop
        cases h
        have hsplit := @List.takeWhile_append_dropWhile _ (fun c => !p c) rest.reverse
        have hlast := List.head?_dropWhile_not (fun c => !p c) rest.reverse
        rw [hdrop] at hsplit hlast
        refine ⟨?_, List.cons_ne_nil _ _, by simpa using hlast, fun d hd => ?_⟩
        · have hrest := congrArg List.reverse hsplit
          rw [List.reverse_reverse, List.reverse_append, List.reverse_cons, List.append_assoc,
            List.singleton_append] at hrest
          rw [List.cons_append, hrest]
        · have hd := List.mem_takeWhile_imp (List.mem_reverse.mp hd)
          simpa using hd
  · rintro ⟨rfl, hne, hc, hafter⟩
    cases before with
    | nil => exact absurd rfl hne
    | cons first before =>
      have hall : ∀ d ∈ after.reverse, (!p d) = true := by
        intro d hd
        rw [hafter d (List.mem_reverse.mp hd)]
        rfl
      rw [List.cons_append, splitAtLast, List.reverse_append, List.reverse_cons,
        List.append_assoc, List.singleton_append, List.dropWhile_append_of_pos hall,
        List.takeWhile_append_of_pos hall, List.dropWhile_cons_of_neg (by simp [hc]),
        List.takeWhile_cons_of_neg (by simp [hc])]
      simp

/-- The text before the last character. -/
def stripSuffix (last : Char) (text : List Char) : Option (List Char) :=
  if text.getLast? = some last then some text.dropLast else none

theorem stripSuffix_eq_some : stripSuffix c cs = some before ↔ cs = before ++ [c] := by
  rw [stripSuffix]
  constructor
  · intro h
    obtain ⟨hlast, h⟩ := Option.ite_none_right_eq_some.mp h
    obtain rfl := Option.some.inj h
    exact (List.dropLast_append_getLast? c hlast).symm
  · rintro rfl
    rw [if_pos List.getLast?_concat, List.dropLast_concat]

/-- **A text is cut in one way** at its first character of a kind. -/
theorem cut_injective (h : before ++ c :: after = before' ++ c' :: after')
    (hbefore : ∀ d ∈ before, p d = false) (hbefore' : ∀ d ∈ before', p d = false)
    (hc : p c = true) (hc' : p c' = true) : before = before' ∧ c = c' ∧ after = after' := by
  have htake : ∀ {front rest : List Char} {d : Char}, (∀ d ∈ front, p d = false) → p d = true →
      (front ++ d :: rest).takeWhile (fun d => !p d) = front := by
    intro front rest d hfront hd
    have hall : ∀ e ∈ front, (!p e) = true := by
      intro e he
      rw [hfront e he]
      rfl
    rw [List.takeWhile_append_of_pos hall, List.takeWhile_cons_of_neg (by simp [hd]),
      List.append_nil]
  have hfront : before = before' := by
    have hsame := @htake before after c hbefore hc
    rw [h, htake hbefore' hc'] at hsame
    exact hsame.symm
  subst hfront
  obtain ⟨rfl, rfl⟩ := List.cons.inj (List.append_cancel_left h)
  exact ⟨rfl, rfl, rfl⟩

end Once

end Cutting
