import Mathlib

/-!
# Logs of keyed writes

A store that keeps one value per key is changed by three kinds of write: put a
value at a key, remove a key, remove everything.  This file is the theory of
logs of such writes, over arbitrary keys and values.

* `Op.apply`, `replay` — what a write and a log of writes do to a map.
* `lastWrite` — what a log leaves at a key, if it writes there at all;
  `replay_eq_getD` says that this is all a replay can do to that key, and
  `replay_replay_self` that a log may be replayed on top of its own result.
* `Op.Commutes` — two writes whose order does not matter; `replay_perm` says
  that a log of such writes can be replayed in any order.
-/

namespace KeyLog

variable {K V : Type} [DecidableEq K]

/-- A write to a keyed store. -/
inductive Op (K V : Type) where
  /-- Put a value at a key. -/
  | set (key : K) (value : V)
  /-- Remove a key. -/
  | delete (key : K)
  /-- Remove every key. -/
  | clear
  deriving DecidableEq, Repr

/-- What a write leaves at a key: `none` where it does not write, `some none`
where it removes the key. -/
def Op.at (op : Op K V) (k : K) : Option (Option V) :=
  match op with
  | .set key value => if key = k then some (some value) else none
  | .delete key => if key = k then some none else none
  | .clear => some none

/-- The map after a write. -/
def Op.apply (op : Op K V) (m : K → Option V) : K → Option V :=
  fun k => (op.at k).getD (m k)

/-- The map after a log of writes, oldest first. -/
def replay (m : K → Option V) (ops : List (Op K V)) : K → Option V :=
  ops.foldl (fun m op => op.apply m) m

@[simp] theorem replay_nil (m : K → Option V) : replay m [] = m := rfl

@[simp] theorem replay_cons (m : K → Option V) (op : Op K V) (ops : List (Op K V)) :
    replay m (op :: ops) = replay (op.apply m) ops := rfl

theorem replay_append (m : K → Option V) (ops ops' : List (Op K V)) :
    replay m (ops ++ ops') = replay (replay m ops) ops' := by
  simp [replay]

/-! ## The last write to a key -/

/-- What a log leaves at a key, `none` when no write of the log touches it. -/
def lastWrite (k : K) : List (Op K V) → Option (Option V)
  | [] => none
  | op :: ops => (lastWrite k ops).or (op.at k)

@[simp] theorem lastWrite_nil (k : K) : lastWrite k ([] : List (Op K V)) = none := rfl

@[simp] theorem lastWrite_cons (k : K) (op : Op K V) (ops : List (Op K V)) :
    lastWrite k (op :: ops) = (lastWrite k ops).or (op.at k) := rfl

/-- **A replay leaves the last write.**  At every key a log leaves its last
write to that key, or what was there before if it has none. -/
theorem replay_eq_getD (m : K → Option V) (ops : List (Op K V)) (k : K) :
    replay m ops k = (lastWrite k ops).getD (m k) := by
  induction ops generalizing m with
  | nil => rfl
  | cons op ops ih =>
    rw [replay_cons, ih]
    cases h : lastWrite k ops with
    | none => simp [Op.apply, h]
    | some v => simp [h]

/-- A log whose writes to a key all put the same value there leaves that value, when
it has such a write or the value was there before. -/
theorem replay_eq_some {m : K → Option V} {ops : List (Op K V)} {k : K} {v : V}
    (hagree : ∀ op ∈ ops, op.at k = none ∨ op.at k = some (some v))
    (h : m k = some v ∨ ∃ op ∈ ops, op.at k = some (some v)) : replay m ops k = some v := by
  induction ops generalizing m with
  | nil => simpa using h
  | cons op ops ih =>
    rw [replay_cons]
    refine ih (fun op' hop' => hagree op' (List.mem_cons_of_mem _ hop')) ?_
    rcases hagree op (by simp) with hnone | hsome
    · rcases h with h | ⟨op', hop', hat⟩
      · exact Or.inl (by simp [Op.apply, hnone, h])
      · rcases List.mem_cons.mp hop' with rfl | hop'
        · simp [hnone] at hat
        · exact Or.inr ⟨op', hop', hat⟩
    · exact Or.inl (by simp [Op.apply, hsome])

/-- **Replaying a log on its own result changes nothing.** -/
theorem replay_replay_self (m : K → Option V) (ops : List (Op K V)) :
    replay (replay m ops) ops = replay m ops := by
  funext k
  rw [replay_eq_getD, replay_eq_getD]
  cases h : lastWrite k ops with
  | none => simp
  | some v => simp

/-! ## Writes whose order does not matter -/

/-- Two writes commute when no map tells in which order they were made. -/
def Op.Commutes (a b : Op K V) : Prop :=
  ∀ m : K → Option V, a.apply (b.apply m) = b.apply (a.apply m)

theorem Op.Commutes.symm {a b : Op K V} (h : a.Commutes b) : b.Commutes a :=
  fun m => (h m).symm

/-- Two writes commute as soon as they agree on every key both of them touch. -/
theorem Op.commutes_of_agree {a b : Op K V}
    (h : ∀ k x y, a.at k = some x → b.at k = some y → x = y) : a.Commutes b := by
  intro m
  funext k
  cases ha : a.at k with
  | none => simp [Op.apply, ha]
  | some x =>
    cases hb : b.at k with
    | none => simp [Op.apply, ha, hb]
    | some y => simp [Op.apply, ha, hb, h k x y ha hb]

theorem Op.Commutes.refl (a : Op K V) : a.Commutes a := fun _ => rfl

/-- **Commuting writes may be made in any order.** -/
theorem replay_perm {ops ops' : List (Op K V)} (hp : ops.Perm ops')
    (hc : ∀ a ∈ ops, ∀ b ∈ ops, a.Commutes b) (m : K → Option V) :
    replay m ops = replay m ops' :=
  hp.foldl_eq' (fun a ha b hb z => hc b hb a ha z) m

/-- Writes that change nothing leave the map alone. -/
theorem replay_eq_self {ops : List (Op K V)} {m : K → Option V}
    (h : ∀ op ∈ ops, op.apply m = m) : replay m ops = m := by
  induction ops with
  | nil => rfl
  | cons op ops ih =>
    rw [replay_cons, h op (by simp)]
    exact ih fun op' h' => h op' (List.mem_cons_of_mem _ h')

end KeyLog
