import Mathlib

/-!
# Sorting by keys

A list is sorted by a key when no later key is less than an earlier one.  The order need only
be a strict weak order on the keys at hand: keys that are not less than each other may differ.

* `WeakOn` — such an order; `Lexicographic` compares lists by one order for each position, and
  is one where they are (`weakOn_lexicographic`).
* `SeparatesOn` — keys that are not less than each other are the same.
* `SortedBy.keys_eq` — two sorted permutations of one list have the same keys.
* `take_keys_of_selected` — **the least `k` elements, found first and sorted then**, have the
  first `k` keys of the sorted list.
-/

namespace RustyDB
namespace Ordered

variable {α κ : Type}

/-! ## Strict weak orders -/

/-- `less` is a strict weak order on a domain. -/
structure WeakOn (domain : κ → Prop) (less : κ → κ → Prop) : Prop where
  asymm : ∀ a b, domain a → domain b → less a b → ¬less b a
  cut : ∀ a b c, domain a → domain b → domain c → less a c → less a b ∨ less b c

/-- Keys that are not less than each other are the same. -/
def SeparatesOn (domain : κ → Prop) (less : κ → κ → Prop) : Prop :=
  ∀ a b, domain a → domain b → ¬less a b → ¬less b a → a = b

section Weak

variable {domain : κ → Prop} {less : κ → κ → Prop}

/-- The reverse order. -/
theorem WeakOn.reverse (h : WeakOn domain less) : WeakOn domain (fun a b => less b a) := by
  refine ⟨?_, ?_⟩
  · intro a b ha hb hab
    exact h.asymm b a hb ha hab
  · intro a b c ha hb hc hac
    exact (h.cut c b a hc hb ha hac).symm

theorem SeparatesOn.reverse (h : SeparatesOn domain less) :
    SeparatesOn domain (fun a b => less b a) :=
  fun a b ha hb hab hba => h a b ha hb hba hab

/-- Not being less is transitive. -/
theorem WeakOn.not_less_trans (h : WeakOn domain less) {a b c : κ} (ha : domain a)
    (hb : domain b) (hc : domain c) (hab : ¬less b a) (hbc : ¬less c b) : ¬less c a := by
  intro hca
  rcases h.cut c b a hc hb ha hca with hless | hless
  · exact hbc hless
  · exact hab hless

end Weak

/-! ## Position by position -/

/-- The first position where one entry is less decides. -/
def Lexicographic : List (κ → κ → Prop) → List κ → List κ → Prop
  | less :: orders, a :: as, b :: bs => less a b ∨ ¬less b a ∧ Lexicographic orders as bs
  | _, _, _ => False

/-- The lists with each entry in the domain of its position. -/
def Entries (domains : List (κ → Prop)) (as : List κ) : Prop :=
  List.Forall₂ (fun domain a => domain a) domains as

/-- Comparing position by position is a weak order where each position has one. -/
theorem weakOn_lexicographic {domains : List (κ → Prop)} {orders : List (κ → κ → Prop)}
    (h : List.Forall₂ WeakOn domains orders) :
    WeakOn (Entries domains) (Lexicographic orders) := by
  induction h with
  | nil => exact ⟨fun _ _ _ _ h => h.elim, fun _ _ _ _ _ _ h => h.elim⟩
  | @cons domain less domains orders hweak _ ih =>
    refine ⟨?_, ?_⟩
    · intro as bs has hbs hab hba
      cases has with
      | cons ha has =>
      cases hbs with
      | cons hb hbs =>
        rcases hab with hless | ⟨hnot, hrest⟩
        · rcases hba with hless' | ⟨hnot', -⟩
          · exact hweak.asymm _ _ ha hb hless hless'
          · exact hnot' hless
        · rcases hba with hless' | ⟨-, hrest'⟩
          · exact hnot hless'
          · exact ih.asymm _ _ has hbs hrest hrest'
    · intro as bs cs has hbs hcs hac
      cases has with
      | @cons _ a _ as ha has =>
      cases hbs with
      | @cons _ b _ bs hb hbs =>
      cases hcs with
      | @cons _ c _ cs hc hcs =>
        rcases hac with hless | ⟨hnot, hrest⟩
        · exact (hweak.cut a b c ha hb hc hless).imp Or.inl Or.inl
        · rcases ih.cut _ _ _ has hbs hcs hrest with hfirst | hsecond
          · by_cases hba : less b a
            · exact Or.inr (Or.inl ((hweak.cut b c a hb hc ha hba).resolve_right hnot))
            · exact Or.inl (Or.inr ⟨hba, hfirst⟩)
          · by_cases hcb : less c b
            · exact Or.inl (Or.inl ((hweak.cut c a b hc ha hb hcb).resolve_left hnot))
            · exact Or.inr (Or.inr ⟨hcb, hsecond⟩)

theorem separatesOn_lexicographic {domains : List (κ → Prop)} {orders : List (κ → κ → Prop)}
    (h : List.Forall₂ SeparatesOn domains orders) :
    SeparatesOn (Entries domains) (Lexicographic orders) := by
  induction h with
  | nil =>
    intro as bs has hbs _ _
    cases has
    cases hbs
    rfl
  | @cons domain less domains orders hseparates _ ih =>
    intro as bs has hbs hab hba
    cases has with
    | cons ha has =>
    cases hbs with
    | cons hb hbs =>
      have hless := fun h => hab (Or.inl h)
      have hless' := fun h => hba (Or.inl h)
      rw [hseparates _ _ ha hb hless hless', ih _ _ has hbs
        (fun h => hab (Or.inr ⟨hless', h⟩)) (fun h => hba (Or.inr ⟨hless, h⟩))]

/-- No later key is less than an earlier one. -/
def SortedBy (key : α → κ) (less : κ → κ → Prop) (l : List α) : Prop :=
  l.Pairwise (fun a b => ¬less (key b) (key a))

section Sorted

variable {domain : κ → Prop} {less : κ → κ → Prop} {key : α → κ} {l l' : List α}

/-- **Sorting determines the keys.** -/
theorem SortedBy.keys_eq (hseparates : SeparatesOn domain less)
    (hdomain : ∀ a ∈ l, domain (key a)) (hperm : l.Perm l') (hl : SortedBy key less l)
    (hl' : SortedBy key less l') : l.map key = l'.map key := by
  have hmap : (l.map key).Pairwise (fun a b => ¬less b a) := List.pairwise_map.mpr hl
  have hmap' : (l'.map key).Pairwise (fun a b => ¬less b a) := List.pairwise_map.mpr hl'
  refine List.Perm.eq_of_pairwise ?_ hmap hmap' (hperm.map key)
  intro u v hu hv huv hvu
  obtain ⟨a, ha, rfl⟩ := List.mem_map.mp hu
  obtain ⟨b, hb, rfl⟩ := List.mem_map.mp hv
  exact hseparates _ _ (hdomain a ha) (hdomain b (hperm.mem_iff.mpr hb)) hvu huv

/-- An element enters a sorted list. -/
theorem exists_sortedBy_cons (hweak : WeakOn domain less) {a : α} (ha : domain (key a))
    (hdomain : ∀ b ∈ l, domain (key b)) (hl : SortedBy key less l) :
    ∃ l', l'.Perm (a :: l) ∧ SortedBy key less l' := by
  induction l with
  | nil => exact ⟨[a], List.Perm.refl _, List.pairwise_singleton _ _⟩
  | cons b l ih =>
    obtain ⟨hhead, htail⟩ := List.pairwise_cons.mp hl
    have hb := hdomain b (List.mem_cons_self ..)
    have hrest : ∀ c ∈ l, domain (key c) := fun c hc => hdomain c (List.mem_cons_of_mem _ hc)
    by_cases hless : less (key b) (key a)
    · obtain ⟨l', hperm, hl'⟩ := ih hrest htail
      refine ⟨b :: l', (hperm.cons b).trans (List.Perm.swap ..), List.pairwise_cons.mpr ⟨?_, hl'⟩⟩
      intro c hc
      rcases List.mem_cons.mp (hperm.mem_iff.mp hc) with rfl | hc
      · exact hweak.asymm _ _ hb ha hless
      · exact hhead c hc
    · refine ⟨a :: b :: l, List.Perm.refl _, List.pairwise_cons.mpr ⟨?_, hl⟩⟩
      intro c hc
      rcases List.mem_cons.mp hc with rfl | hc
      · exact hless
      · exact hweak.not_less_trans ha hb (hrest c hc) hless (hhead c hc)

theorem exists_sortedBy (hweak : WeakOn domain less) (hdomain : ∀ a ∈ l, domain (key a)) :
    ∃ l', l'.Perm l ∧ SortedBy key less l' := by
  induction l with
  | nil => exact ⟨[], List.Perm.refl _, List.Pairwise.nil⟩
  | cons a l ih =>
    obtain ⟨l', hperm, hl'⟩ := ih fun b hb => hdomain b (List.mem_cons_of_mem _ hb)
    obtain ⟨sorted, hsorted, hkeys⟩ := exists_sortedBy_cons hweak
      (hdomain a (List.mem_cons_self ..))
      (fun b hb => hdomain b (List.mem_cons_of_mem _ (hperm.mem_iff.mp hb))) hl'
    exact ⟨sorted, hsorted.trans (hperm.cons a), hkeys⟩

/-- **The least `k` elements sorted are the sorted list cut off**, as far as keys tell. -/
theorem take_keys_of_selected (hweak : WeakOn domain less) (hseparates : SeparatesOn domain less)
    (hdomain : ∀ a ∈ l, domain (key a)) {k : Nat} {selected front : List α}
    (hl : SortedBy key less l) (hselected : selected.Perm l)
    (hleast : ∀ a ∈ selected.take k, ∀ b ∈ selected.drop k, ¬less (key b) (key a))
    (hfront : front.Perm (selected.take k)) (hsorted : SortedBy key less front) :
    front.map key = (l.map key).take k := by
  have hback : ∀ a ∈ selected.drop k, domain (key a) := fun a ha =>
    hdomain a (hselected.mem_iff.mp (List.mem_of_mem_drop ha))
  obtain ⟨back, hbackPerm, hbackSorted⟩ := exists_sortedBy hweak hback
  have hperm : (front ++ back).Perm l := by
    refine (hfront.append hbackPerm).trans ?_
    rw [List.take_append_drop]
    exact hselected
  have hall : SortedBy key less (front ++ back) := by
    refine List.pairwise_append.mpr ⟨hsorted, hbackSorted, ?_⟩
    intro a ha b hb
    exact hleast a (hfront.mem_iff.mp ha) b (hbackPerm.mem_iff.mp hb)
  have hkeys := SortedBy.keys_eq hseparates hdomain hperm.symm hl hall
  have hlength : front.length = min k selected.length := by
    rw [hfront.length_eq, List.length_take]
  rw [hkeys, List.map_append]
  rcases Nat.le_total k selected.length with hle | hle
  · rw [List.take_left' (by rw [List.length_map, hlength, Nat.min_eq_left hle])]
  · have hnil : back = [] := by
      rw [List.drop_eq_nil_of_le hle] at hbackPerm
      exact List.perm_nil.mp hbackPerm
    rw [hnil, List.map_nil, List.append_nil, List.take_of_length_le]
    rw [List.length_map, hlength, Nat.min_eq_right hle]
    exact hle

end Sorted

end Ordered
end RustyDB
