import Mathlib

/-!
# Lists that differ in elements of one kind

Two lists are compared that are the same, and in the same order, once the elements with a
property are left out of both.  What treats these elements alike on both sides gives lists
that differ in the same way, and what drops them gives the same list.

* `DifferBy` — the relation, element by element.
* `DifferBy.append`, `DifferBy.flatMap` — what keeps it.
* `DifferBy.filter_eq` — a filter that drops these elements.
* `differBy_filterMap` — two selections from one list.
-/

namespace RustyDB

variable {α β : Type}

/-- Two lists that are the same but for elements with a property. -/
inductive DifferBy (lost : α → Prop) : List α → List α → Prop where
  | nil : DifferBy lost [] []
  | both {as bs : List α} (a : α) : DifferBy lost as bs → DifferBy lost (a :: as) (a :: bs)
  | left {as bs : List α} {a : α} : lost a → DifferBy lost as bs → DifferBy lost (a :: as) bs
  | right {as bs : List α} {b : α} : lost b → DifferBy lost as bs → DifferBy lost as (b :: bs)

namespace DifferBy

variable {lost : α → Prop} {as bs cs ds : List α}

theorem refl (as : List α) : DifferBy lost as as := by
  induction as with
  | nil => exact .nil
  | cons a as ih => exact ih.both a

theorem append (h : DifferBy lost as bs) (h' : DifferBy lost cs ds) :
    DifferBy lost (as ++ cs) (bs ++ ds) := by
  induction h with
  | nil => exact h'
  | both a _ ih => exact ih.both a
  | left ha _ ih => exact ih.left ha
  | right hb _ ih => exact ih.right hb

/-- Two lists of such elements. -/
theorem of_forall (has : ∀ a ∈ as, lost a) (hbs : ∀ b ∈ bs, lost b) : DifferBy lost as bs := by
  induction as with
  | nil =>
    induction bs with
    | nil => exact .nil
    | cons b bs ih =>
      exact (ih fun other hother => hbs other (List.mem_cons_of_mem _ hother)).right
        (hbs b List.mem_cons_self)
  | cons a as ih =>
    exact (ih fun other hother => has other (List.mem_cons_of_mem _ hother)).left
      (has a List.mem_cons_self)

/-- What is made of such an element is such an element. -/
theorem flatMap {lost' : β → Prop} {f : α → List β} (hf : ∀ a, lost a → ∀ b ∈ f a, lost' b)
    (h : DifferBy lost as bs) : DifferBy lost' (as.flatMap f) (bs.flatMap f) := by
  induction h with
  | nil => exact .nil
  | both a _ ih => exact (refl (f a)).append ih
  | left ha _ ih =>
    exact (of_forall (hf _ ha) (List.forall_mem_nil lost')).append ih
  | right hb _ ih =>
    exact (of_forall (List.forall_mem_nil lost') (hf _ hb)).append ih

/-- A filter that drops such elements does not tell the lists apart. -/
theorem filter_eq {p : α → Bool} (hp : ∀ a, lost a → p a = false) (h : DifferBy lost as bs) :
    as.filter p = bs.filter p := by
  induction h with
  | nil => rfl
  | both a _ ih => simp only [List.filter_cons, ih]
  | left ha _ ih => simp only [List.filter_cons, hp _ ha, Bool.false_eq_true, if_false, ih]
  | right hb _ ih => simp only [List.filter_cons, hp _ hb, Bool.false_eq_true, if_false, ih]

end DifferBy

/-- Two selections from one list: what only one of them takes is such an element. -/
theorem differBy_filterMap {lost : β → Prop} {f g : α → Option β} {as : List α}
    (h : ∀ a ∈ as, f a = g a ∨ (∀ b ∈ f a, lost b) ∧ ∀ b ∈ g a, lost b) :
    DifferBy lost (as.filterMap f) (as.filterMap g) := by
  induction as with
  | nil => exact .nil
  | cons a as ih =>
    have hrest := ih fun other hother => h other (List.mem_cons_of_mem _ hother)
    have hlist : ∀ k : α → Option β, (a :: as).filterMap k = (k a).toList ++ as.filterMap k := by
      intro k
      cases hk : k a <;> simp [hk]
    rw [hlist f, hlist g]
    refine DifferBy.append ?_ hrest
    rcases h a List.mem_cons_self with hsame | ⟨hf, hg⟩
    · rw [hsame]
      exact .refl _
    · exact .of_forall (fun b hb => hf b (by simpa using hb)) fun b hb => hg b (by simpa using hb)

end RustyDB
