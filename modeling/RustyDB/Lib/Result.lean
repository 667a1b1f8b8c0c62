import Mathlib

/-!
# Computations that can fail

What it means for a computation in `Except` to succeed, step by step: a bind
succeeds when both its parts do, and a loop when each of its rounds does.

* `bind_eq_ok`, `map_eq_ok`, `mapError_eq_ok`, `toOption_eq_some` — taking a sequence apart.
* `mapM_eq_ok`, `forM_eq_ok`, `forM_eq_error` — a loop, round by round.
* `mapM_congr`, `forM_congr_of_forall₂` — loops whose rounds do the same.
* `mem_of_mapM`, `length_of_mapM` — what a loop collects.
* `Both` — two computations in step.
-/

namespace Result

variable {ε α β : Type}

theorem error_or_ok (x : Except ε α) : (∃ e, x = .error e) ∨ ∃ a, x = .ok a := by
  cases x with
  | error e => exact Or.inl ⟨e, rfl⟩
  | ok a => exact Or.inr ⟨a, rfl⟩

theorem bind_eq_ok {x : Except ε α} {f : α → Except ε β} {b : β} :
    (x >>= f) = .ok b ↔ ∃ a, x = .ok a ∧ f a = .ok b := by
  cases x with
  | error e => simp [bind, Except.bind]
  | ok a => simp [bind, Except.bind]

theorem bind_congr_of_ok {x : Except ε α} {f g : α → Except ε β}
    (h : ∀ a, x = .ok a → f a = g a) : (x >>= f) = (x >>= g) := by
  cases x with
  | error e => rfl
  | ok a => exact h a rfl

theorem map_eq_ok {x : Except ε α} {f : α → β} {b : β} :
    x.map f = .ok b ↔ ∃ a, x = .ok a ∧ f a = b := by
  cases x with
  | error e => simp [Except.map]
  | ok a => simp [Except.map]

theorem mapError_eq_ok {ε' : Type} {x : Except ε α} {f : ε → ε'} {a : α} :
    x.mapError f = .ok a ↔ x = .ok a := by
  cases x with
  | error e => simp [Except.mapError]
  | ok b => simp [Except.mapError]

theorem toOption_eq_some {x : Except ε α} {a : α} : x.toOption = some a ↔ x = .ok a := by
  cases x with
  | error e => simp [Except.toOption]
  | ok b => simp [Except.toOption]

@[simp] theorem ok_bind (a : α) (f : α → Except ε β) : ((Except.ok a : Except ε α) >>= f) = f a :=
  rfl

@[simp] theorem error_bind (e : ε) (f : α → Except ε β) :
    ((Except.error e : Except ε α) >>= f) = .error e := rfl

@[simp] theorem pure_eq_ok (a : α) : (pure a : Except ε α) = .ok a := rfl

/-- A loop that collects results succeeds when every round does. -/
theorem mapM_eq_ok {f : α → Except ε β} {xs : List α} {ys : List β} :
    xs.mapM f = .ok ys ↔ List.Forall₂ (fun x y => f x = .ok y) xs ys := by
  induction xs generalizing ys with
  | nil => simp [eq_comm]
  | cons x xs ih =>
    rw [List.mapM_cons, bind_eq_ok]
    constructor
    · rintro ⟨y, hy, hrest⟩
      obtain ⟨rest, hrest, hys⟩ := bind_eq_ok.mp hrest
      simp only [pure_eq_ok, Except.ok.injEq] at hys
      exact hys ▸ List.Forall₂.cons hy (ih.mp hrest)
    · intro h
      cases h with
      | cons hy hrest => exact ⟨_, hy, bind_eq_ok.mpr ⟨_, ih.mpr hrest, rfl⟩⟩

/-- A loop that collects results succeeds exactly when each of its rounds can. -/
theorem exists_mapM_eq_ok {f : α → Except ε β} {xs : List α} :
    (∃ ys, xs.mapM f = .ok ys) ↔ ∀ x ∈ xs, ∃ y, f x = .ok y := by
  simp only [mapM_eq_ok]
  induction xs with
  | nil => simp
  | cons x xs ih =>
    rw [List.forall_mem_cons, ← ih]
    constructor
    · rintro ⟨_, h⟩
      cases h with
      | cons hx hxs => exact ⟨⟨_, hx⟩, ⟨_, hxs⟩⟩
    · rintro ⟨⟨y, hx⟩, ⟨ys, hxs⟩⟩
      exact ⟨y :: ys, List.Forall₂.cons hx hxs⟩

theorem mapM_congr {f g : α → Except ε β} {xs : List α} (h : ∀ x ∈ xs, f x = g x) :
    xs.mapM f = xs.mapM g := by
  induction xs with
  | nil => rfl
  | cons x xs ih =>
    rw [List.mapM_cons, List.mapM_cons, h x (by simp), ih fun y hy => h y (by simp [hy])]

theorem length_of_mapM {f : α → Except ε β} {xs : List α} {ys : List β}
    (h : xs.mapM f = .ok ys) : ys.length = xs.length :=
  (mapM_eq_ok.mp h).length_eq.symm

/-- What a loop collects comes out of one of its rounds. -/
theorem mem_of_mapM {f : α → Except ε β} {xs : List α} {ys : List β} (h : xs.mapM f = .ok ys)
    {y : β} (hy : y ∈ ys) : ∃ x ∈ xs, f x = .ok y := by
  have hloop := mapM_eq_ok.mp h
  clear h
  induction hloop with
  | nil => cases hy
  | cons hx hrest ih =>
    rcases List.mem_cons.mp hy with rfl | hy
    · exact ⟨_, List.mem_cons_self, hx⟩
    · obtain ⟨x, hmem, hx⟩ := ih hy
      exact ⟨x, List.mem_cons_of_mem _ hmem, hx⟩

theorem map_bind {γ : Type} (x : Except ε α) (f : α → Except ε β) (g : β → γ) :
    (x >>= f).map g = x >>= fun a => (f a).map g := by
  cases x <;> rfl

/-- Two loops whose rounds do the same. -/
theorem forM_congr_of_forall₂ {f : α → Except ε Unit} {g : β → Except ε Unit} {xs : List α}
    {ys : List β} (h : List.Forall₂ (fun x y => f x = g y) xs ys) : xs.forM f = ys.forM g := by
  induction h with
  | nil => rfl
  | @cons x y xs ys hxy _ ih =>
    show (f x >>= fun _ => xs.forM f) = (g y >>= fun _ => ys.forM g)
    rw [hxy, ih]

/-- A loop run for its checks succeeds when every check does. -/
theorem forM_eq_ok {f : α → Except ε Unit} {xs : List α} :
    xs.forM f = .ok () ↔ ∀ x ∈ xs, f x = .ok () := by
  induction xs with
  | nil => simp
  | cons x xs ih =>
    have hcons : (x :: xs).forM f = (f x >>= fun _ => xs.forM f) := rfl
    rw [hcons, bind_eq_ok, List.forall_mem_cons, ← ih]
    exact ⟨fun ⟨_, hx, hxs⟩ => ⟨hx, hxs⟩, fun ⟨hx, hxs⟩ => ⟨(), hx, hxs⟩⟩

/-- Nested loops are one loop over the rounds in order. -/
theorem forM_flatMap {f : β → Except ε Unit} {g : α → List β} {xs : List α} :
    (xs.flatMap g).forM f = xs.forM fun x => (g x).forM f := by
  induction xs with
  | nil => rfl
  | cons x xs ih =>
    have hcons : (x :: xs).forM (fun x => (g x).forM f) =
        ((g x).forM f >>= fun _ => xs.forM fun x => (g x).forM f) := rfl
    rw [List.flatMap_cons, hcons, ← ih]
    exact List.forM_append

/-- A loop fails with the error of its first failing round. -/
theorem forM_eq_error {f : α → Except ε Unit} {xs : List α} {e : ε} :
    xs.forM f = .error e ↔ ∃ before x after, xs = before ++ x :: after ∧
      (∀ y ∈ before, f y = .ok ()) ∧ f x = .error e := by
  induction xs with
  | nil => simp [pure, Except.pure]
  | cons x xs ih =>
    have hcons : (x :: xs).forM f = (f x >>= fun _ => xs.forM f) := rfl
    rw [hcons]
    cases hx : f x with
    | error found =>
      rw [error_bind, Except.error.injEq]
      constructor
      · rintro rfl
        exact ⟨[], x, xs, rfl, by simp, hx⟩
      · rintro ⟨before, y, after, hsplit, hbefore, hy⟩
        cases before with
        | nil =>
          obtain ⟨rfl, -⟩ := List.cons.inj hsplit
          exact Except.error.inj (hx.symm.trans hy)
        | cons first before =>
          obtain ⟨rfl, -⟩ := List.cons.inj hsplit
          rw [hbefore x (by simp)] at hx
          cases hx
    | ok u =>
      rw [ok_bind, ih]
      constructor
      · rintro ⟨before, y, after, rfl, hbefore, hy⟩
        exact ⟨x :: before, y, after, rfl, List.forall_mem_cons.mpr ⟨hx, hbefore⟩, hy⟩
      · rintro ⟨before, y, after, hsplit, hbefore, hy⟩
        cases before with
        | nil =>
          obtain ⟨rfl, -⟩ := List.cons.inj hsplit
          rw [hx] at hy
          cases hy
        | cons first before =>
          obtain ⟨-, rfl⟩ := List.cons.inj hsplit
          exact ⟨before, y, after, rfl, fun z hz => hbefore z (by simp [hz]), hy⟩

/-- Two computations that fail with the same error or succeed with related results. -/
inductive Both {ε α β : Type} (R : α → β → Prop) : Except ε α → Except ε β → Prop
  | error (e : ε) : Both R (.error e) (.error e)
  | ok {a : α} {b : β} : R a b → Both R (.ok a) (.ok b)

/-- **Computations in step go on in step.** -/
theorem Both.bind {α' β' : Type} {R : α → β → Prop} {S : α' → β' → Prop} {x : Except ε α}
    {y : Except ε β} {f : α → Except ε α'} {g : β → Except ε β'} (h : Both R x y)
    (hrest : ∀ a b, R a b → Both S (f a) (g b)) : Both S (x >>= f) (y >>= g) := by
  cases h with
  | error e => exact .error e
  | ok hab => exact hrest _ _ hab

/-- One computation goes on in two ways. -/
theorem Both.bind_same {α' β' : Type} {S : α' → β' → Prop} (x : Except ε α)
    {f : α → Except ε α'} {g : α → Except ε β'} (h : ∀ a, Both S (f a) (g a)) :
    Both S (x >>= f) (x >>= g) := by
  cases x with
  | error e => exact .error e
  | ok a => exact h a

/-- What follows treats related results alike. -/
theorem Both.bind_eq {γ : Type} {R : α → β → Prop} {x : Except ε α} {y : Except ε β}
    {f : α → Except ε γ} {g : β → Except ε γ} (h : Both R x y)
    (hrest : ∀ a b, R a b → f a = g b) : (x >>= f) = (y >>= g) := by
  cases h with
  | error e => rfl
  | ok hab => exact hrest _ _ hab

end Result
