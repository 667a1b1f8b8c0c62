import Mathlib

/-!
# Numbered entries

Values that are filed one after another, each under a number of its own.  A value can clash
with the values that stand already, and nothing but a look at each of them tells which.

* `Cabinet.file`, `Cabinet.put`, `Cabinet.hits` — filing a value, replacing one, and the entries
  that a value clashes with.
* `Cabinet.hits_eq_filterMap` — the hits by position.
* `Cabinet.entries_put` — under numbers that are distinct, one position changes.
* `Cabinet.Apart.file` — a value without hits leaves the entries apart.
-/

/-- Values under numbers, in the order in which they were filed, and the next number. -/
structure Cabinet (α : Type) where
  entries : List (Nat × α)
  next : Nat
  deriving DecidableEq

namespace Cabinet

variable {α : Type} {clash : α → α → Bool} {cabinet : Cabinet α}

/-- A value goes behind the others, under the next number. -/
def file (cabinet : Cabinet α) (a : α) : Cabinet α :=
  { entries := cabinet.entries ++ [(cabinet.next, a)], next := cabinet.next + 1 }

/-- The value under a number becomes another one. -/
def put (cabinet : Cabinet α) (number : Nat) (a : α) : Cabinet α :=
  { cabinet with
    entries := cabinet.entries.map
      (fun entry => if entry.1 = number then (number, a) else entry) }

/-- The entries that a value clashes with. -/
def hits (clash : α → α → Bool) (cabinet : Cabinet α) (a : α) : List (Nat × α) :=
  cabinet.entries.filter (fun entry => clash a entry.2)

/-- No two entries clash. -/
def Apart (clash : α → α → Bool) (cabinet : Cabinet α) : Prop :=
  cabinet.entries.Pairwise (fun first second => clash first.2 second.2 = false)

theorem filter_eq_filterMap {β : Type} (p : β → Bool) (xs : List β) :
    xs.filter p = ((List.range xs.length).filter (fun i => (xs[i]?).any p)).filterMap (xs[·]?) := by
  induction xs with
  | nil => rfl
  | cons x xs ih =>
    rw [List.length_cons, List.range_succ_eq_map, List.filter_cons, List.filter_cons,
      List.filter_map, ih]
    have hrest : ((List.map Nat.succ ((List.range xs.length).filter
        ((fun i => ((x :: xs)[i]?).any p) ∘ Nat.succ))).filterMap ((x :: xs)[·]?)) =
        ((List.range xs.length).filter (fun i => (xs[i]?).any p)).filterMap (xs[·]?) := by
      rw [List.filterMap_map]
      rfl
    cases hx : p x with
    | true => simp [hx, hrest]
    | false => simp [hx, hrest]

/-- **The hits, by position.** -/
theorem hits_eq_filterMap (a : α) : cabinet.hits clash a =
    ((List.range cabinet.entries.length).filter
      (fun i => (cabinet.entries[i]?).any (fun entry => clash a entry.2))).filterMap
        (cabinet.entries[·]?) :=
  filter_eq_filterMap _ _

/-- Under distinct numbers, replacing a value changes the position where it stands. -/
theorem entries_put (hnumbers : (cabinet.entries.map Prod.fst).Nodup) {position number : Nat}
    {old : α} (hentry : cabinet.entries[position]? = some (number, old)) (a : α) :
    (cabinet.put number a).entries = cabinet.entries.set position (number, a) := by
  refine List.ext_getElem? fun i => ?_
  rw [put, List.getElem?_map, List.getElem?_set]
  by_cases hi : position = i
  · subst hi
    obtain ⟨hposition, -⟩ := List.getElem?_eq_some_iff.mp hentry
    rw [hentry, if_pos rfl, if_pos hposition, Option.map_some, if_pos rfl]
  · rw [if_neg hi]
    cases hother : cabinet.entries[i]? with
    | none => rfl
    | some entry =>
      have hne : entry.1 ≠ number := by
        intro h
        obtain ⟨hlt, -⟩ := List.getElem?_eq_some_iff.mp hentry
        refine hi ((List.getElem?_inj (by simpa using hlt) hnumbers).mp ?_)
        rw [List.getElem?_map, List.getElem?_map, hentry, hother, Option.map_some,
          Option.map_some, h]
      simp [hne]

/-- **A value without hits** leaves the entries apart. -/
theorem Apart.file (hsymm : ∀ a b, clash a b = clash b a) (h : cabinet.Apart clash) {a : α}
    (hhits : cabinet.hits clash a = []) : (cabinet.file a).Apart clash := by
  refine List.pairwise_append.mpr ⟨h, List.pairwise_singleton _ _, ?_⟩
  intro entry hentry new hnew
  obtain rfl := List.mem_singleton.mp hnew
  have hmiss := List.filter_eq_nil_iff.mp hhits entry hentry
  rw [hsymm]
  simpa using hmiss

end Cabinet
