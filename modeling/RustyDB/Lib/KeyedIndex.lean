import Mathlib

/-!
# Secondary indexes

An index maps a key to the set of identifiers filed under it; a Bloom filter
beside it answers "certainly absent" early.  The relation an index stands for
is a predicate on keys and identifiers, and every operation is described by
what it does to that relation.

* `Entries.add`, `Entries.remove` — file an identifier, and withdraw it with its
  entry when that empties.
* `Represents` — the entries hold exactly a relation, and no empty set.
* `Bits.Covers` — a Bloom filter has set every position of the keys given.
* `mapValues` — updating every value of a map in place.
* `rel_imp`, `rel_swap`, `rel_trans` — what two maps hold under one key, compared.
-/

namespace KeyedIndex

variable {κ ι : Type} [DecidableEq κ] [DecidableEq ι]

/-- The entries of an index: from a key to the identifiers filed under it. -/
abbrev Entries (κ ι : Type) := AList (fun _ : κ => Finset ι)

namespace Entries

/-- The identifiers filed under a key. -/
def ids (entries : Entries κ ι) (key : κ) : Finset ι := (entries.lookup key).getD ∅

/-- File an identifier under a key. -/
def add (entries : Entries κ ι) (key : κ) (id : ι) : Entries κ ι :=
  entries.insert key (insert id (entries.ids key))

/-- Withdraw an identifier from a key; an entry that empties goes. -/
def remove (entries : Entries κ ι) (key : κ) (id : ι) : Entries κ ι :=
  match entries.lookup key with
  | none => entries
  | some ids =>
    if ids.erase id = ∅ then entries.erase key else entries.insert key (ids.erase id)

omit [DecidableEq ι] in
@[simp] theorem ids_empty (key : κ) : (∅ : Entries κ ι).ids key = ∅ := by
  simp [ids]

theorem ids_add (entries : Entries κ ι) (key key' : κ) (id : ι) :
    (entries.add key id).ids key' =
      if key' = key then insert id (entries.ids key) else entries.ids key' := by
  by_cases h : key' = key
  · subst h
    simp [ids, add]
  · simp [ids, add, AList.lookup_insert_ne h, h]

theorem ids_remove (entries : Entries κ ι) (key key' : κ) (id : ι) :
    (entries.remove key id).ids key' =
      if key' = key then (entries.ids key).erase id else entries.ids key' := by
  unfold remove
  cases hl : entries.lookup key with
  | none =>
    by_cases h : key' = key
    · subst h
      simp [ids, hl]
    · simp [h]
  | some ids =>
    by_cases h : key' = key
    · subst h
      by_cases he : ids.erase id = ∅
      · simp [Entries.ids, hl, he]
      · simp [Entries.ids, hl, he]
    · by_cases he : ids.erase id = ∅
      · simp [Entries.ids, he, h, AList.lookup_erase_ne h]
      · simp [Entries.ids, he, h, AList.lookup_insert_ne h]

end Entries

/-- The entries hold exactly the relation `R`, and no empty set. -/
structure Represents (entries : Entries κ ι) (R : κ → ι → Prop) : Prop where
  mem_ids : ∀ key id, id ∈ entries.ids key ↔ R key id
  nonempty : ∀ key ids, entries.lookup key = some ids → ids.Nonempty

omit [DecidableEq ι] in
theorem represents_empty : Represents (∅ : Entries κ ι) (fun _ _ => False) :=
  ⟨by simp, by simp⟩

omit [DecidableEq ι] in
theorem Represents.congr {entries : Entries κ ι} {R S : κ → ι → Prop}
    (h : Represents entries R) (hRS : ∀ key id, R key id ↔ S key id) : Represents entries S :=
  ⟨fun key id => (h.mem_ids key id).trans (hRS key id), h.nonempty⟩

theorem Represents.add {entries : Entries κ ι} {R : κ → ι → Prop}
    (h : Represents entries R) (key : κ) (id : ι) :
    Represents (entries.add key id) (fun k i => R k i ∨ (k = key ∧ i = id)) := by
  refine ⟨fun k i => ?_, fun k ids hk => ?_⟩
  · rw [Entries.ids_add]
    by_cases hkey : k = key
    · subst hkey
      simp [h.mem_ids, or_comm]
    · simp [h.mem_ids, hkey]
  · by_cases hkey : k = key
    · subst hkey
      rw [Entries.add, AList.lookup_insert, Option.some.injEq] at hk
      exact ⟨id, by simp [← hk]⟩
    · rw [Entries.add, AList.lookup_insert_ne hkey] at hk
      exact h.nonempty k ids hk

theorem Represents.remove {entries : Entries κ ι} {R : κ → ι → Prop}
    (h : Represents entries R) (key : κ) (id : ι) :
    Represents (entries.remove key id) (fun k i => R k i ∧ ¬(k = key ∧ i = id)) := by
  refine ⟨fun k i => ?_, fun k ids hk => ?_⟩
  · rw [Entries.ids_remove]
    by_cases hkey : k = key
    · subst hkey
      simp [h.mem_ids, and_comm]
    · simp [h.mem_ids, hkey]
  · unfold Entries.remove at hk
    cases hl : entries.lookup key with
    | none =>
      rw [hl] at hk
      exact h.nonempty k ids hk
    | some found =>
      rw [hl] at hk
      by_cases he : found.erase id = ∅
      · simp only [he, if_true] at hk
        by_cases hkey : k = key
        · subst hkey
          simp at hk
        · rw [AList.lookup_erase_ne hkey] at hk
          exact h.nonempty k ids hk
      · simp only [he, if_false] at hk
        by_cases hkey : k = key
        · subst hkey
          rw [AList.lookup_insert, Option.some.injEq] at hk
          exact hk ▸ Finset.nonempty_iff_ne_empty.mpr he
        · rw [AList.lookup_insert_ne hkey] at hk
          exact h.nonempty k ids hk

/-! ## The Bloom filter -/

/-- The set bits of a Bloom filter. -/
abbrev Bits := Finset Nat

/-- Set every position of a key. -/
def Bits.insert (bits : Bits) (positions : List Nat) : Bits := bits ∪ positions.toFinset

/-- Every position of a key is set. -/
def Bits.mightContain (bits : Bits) (positions : List Nat) : Bool :=
  positions.all (fun position => decide (position ∈ bits))

/-- The filter answers "perhaps" for every key of `K`. -/
def Bits.Covers (bits : Bits) (positions : κ → List Nat) (K : κ → Prop) : Prop :=
  ∀ key, K key → bits.mightContain (positions key) = true

omit [DecidableEq κ] in
theorem Bits.covers_insert {bits : Bits} {positions : κ → List Nat} {K : κ → Prop}
    (h : bits.Covers positions K) (key : κ) :
    (bits.insert (positions key)).Covers positions (fun k => K k ∨ k = key) := by
  intro k hk
  simp only [Bits.mightContain, Bits.insert, List.all_eq_true, decide_eq_true_eq,
    Finset.mem_union, List.mem_toFinset]
  intro position hp
  rcases hk with hk | rfl
  · have := h k hk
    simp only [Bits.mightContain, List.all_eq_true, decide_eq_true_eq] at this
    exact Or.inl (this position hp)
  · exact Or.inr hp

/-! ## Updating every value of a map -/

section MapValues

variable {β : Type}

/-- Apply a function to every value of a map, the keys staying where they are. -/
def mapValues (f : κ → β → β) (m : AList (fun _ : κ => β)) : AList (fun _ : κ => β) :=
  ⟨m.entries.map (fun entry => ⟨entry.1, f entry.1 entry.2⟩), by
    have h := m.nodupKeys
    simpa [List.NodupKeys, List.keys, Function.comp_def] using h⟩

omit [DecidableEq κ] in
@[simp] theorem keys_mapValues (f : κ → β → β) (m : AList (fun _ : κ => β)) :
    (mapValues f m).keys = m.keys := by
  simp [mapValues, AList.keys, List.keys]

@[simp] theorem lookup_mapValues (f : κ → β → β) (m : AList (fun _ : κ => β)) (key : κ) :
    (mapValues f m).lookup key = (m.lookup key).map (f key) := by
  obtain ⟨entries, hnodup⟩ := m
  simp only [mapValues, AList.lookup]
  clear hnodup
  induction entries with
  | nil => rfl
  | cons entry entries ih =>
    obtain ⟨k, v⟩ := entry
    by_cases h : k = key
    · subst h
      simp
    · have hne : key ≠ k := Ne.symm h
      simp only [List.map_cons, List.dlookup_cons_ne _ (@Sigma.mk κ (fun _ => β) k _) hne, ih]

end MapValues

/-! ## Two lookups compared -/

section Related

variable {α β γ : Type} {R : α → β → Prop} {x : Option α} {y : Option β} {z : Option γ}

theorem rel_refl {R : α → α → Prop} (hrefl : ∀ a, R a a) (x : Option α) : Option.Rel R x x := by
  cases x with
  | none => exact Option.Rel.none
  | some a => exact Option.Rel.some (hrefl a)

theorem rel_imp {S : α → β → Prop} (h : Option.Rel R x y) (hRS : ∀ a b, R a b → S a b) :
    Option.Rel S x y := by
  cases h with
  | none => exact Option.Rel.none
  | some hab => exact Option.Rel.some (hRS _ _ hab)

theorem rel_swap {S : β → α → Prop} (h : Option.Rel R x y) (hRS : ∀ a b, R a b → S b a) :
    Option.Rel S y x := by
  cases h with
  | none => exact Option.Rel.none
  | some hab => exact Option.Rel.some (hRS _ _ hab)

theorem rel_trans {S : β → γ → Prop} {T : α → γ → Prop} (h : Option.Rel R x y)
    (h' : Option.Rel S y z) (hT : ∀ a b c, R a b → S b c → T a c) : Option.Rel T x z := by
  cases h with
  | none =>
    cases h'
    exact Option.Rel.none
  | some hab =>
    cases h' with
    | some hbc => exact Option.Rel.some (hT _ _ _ hab hbc)

theorem rel_map {S : α → γ → Prop} (h : Option.Rel R x y) {f : β → γ}
    (hf : ∀ a b, R a b → S a (f b)) : Option.Rel S x (y.map f) := by
  cases h with
  | none => exact Option.Rel.none
  | some hab => exact Option.Rel.some (hf _ _ hab)

end Related

end KeyedIndex
