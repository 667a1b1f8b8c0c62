import Mathlib

/-!
# What was used last

A history is a list of events, the newest one first, and some of them use a key.  A store that
keeps a stamp for some of the keys, and takes a later stamp at each use, can tell from the
stamps alone which key was used last.

* `lastUse` — the number of the last event that used a key.
* `Stamped` — the stamps are in the order of the last uses; `Stamped.use` and `Stamped.pass`
  are its two steps.
* `Stamped.least_recent` — **the key with the least stamp is the one whose last use is oldest.**
-/

namespace Recency

variable {κ ε : Type} [DecidableEq κ] {used : ε → Option κ} {event : ε} {history : List ε}
  {key a b : κ} {clock clock' : Nat} {stamp stamp' : κ → Option Nat}

/-- The number of the last event that used the key, and 0 when none did. -/
def lastUse (used : ε → Option κ) : List ε → κ → Nat
  | [], _ => 0
  | event :: history, key =>
    if used event = some key then history.length + 1 else lastUse used history key

theorem lastUse_le_length : lastUse used history key ≤ history.length := by
  induction history with
  | nil => exact Nat.le_refl 0
  | cons event history ih =>
    rw [lastUse, List.length_cons]
    split
    · exact Nat.le_refl _
    · exact Nat.le_succ_of_le ih

theorem lastUse_cons_self (h : used event = some key) :
    lastUse used (event :: history) key = history.length + 1 := by
  rw [lastUse, if_pos h]

theorem lastUse_cons_of_ne (h : used event ≠ some key) :
    lastUse used (event :: history) key = lastUse used history key := by
  rw [lastUse, if_neg h]

/-- An event uses one key at most. -/
theorem lastUse_injective (hused : 0 < lastUse used history a)
    (h : lastUse used history a = lastUse used history b) : a = b := by
  induction history with
  | nil => exact absurd hused (Nat.lt_irrefl 0)
  | cons event history ih =>
    have hle : ∀ key, lastUse used history key ≤ history.length := fun key => lastUse_le_length
    have ha := hle a
    have hb := hle b
    rw [lastUse] at hused
    rw [lastUse, lastUse] at h
    split at h
    · rename_i hevent
      split at h
      · rename_i hevent'
        exact Option.some.inj (hevent.symm.trans hevent')
      · omega
    · rename_i hevent
      rw [if_neg hevent] at hused
      split at h
      · omega
      · exact ih hused h

/-- The keys that have a stamp have been used, and the stamps are in the order of their last
uses. -/
structure Stamped (used : ε → Option κ) (history : List ε) (clock : Nat)
    (stamp : κ → Option Nat) : Prop where
  recorded : ∀ key t, stamp key = some t → 0 < lastUse used history key
  le_clock : ∀ key t, stamp key = some t → t ≤ clock
  mono : ∀ a b s t, stamp a = some s → stamp b = some t →
    lastUse used history a < lastUse used history b → s < t

theorem stamped_nil : Stamped used [] clock fun _ => none :=
  ⟨nofun, nofun, nofun⟩

/-- **A use** of a key stamps it with a later time; other stamps stay or go. -/
theorem Stamped.use (h : Stamped used history clock stamp) (hevent : used event = some key)
    (hclock : clock < clock') (hself : stamp' key = some clock')
    (hother : ∀ other t, other ≠ key → stamp' other = some t → stamp other = some t) :
    Stamped used (event :: history) clock' stamp' := by
  have hne : ∀ other, other ≠ key →
      lastUse used (event :: history) other = lastUse used history other := by
    intro other hne
    refine lastUse_cons_of_ne fun heq => hne ?_
    exact Option.some.inj (heq.symm.trans hevent)
  refine ⟨?recorded, ?le_clock, ?mono⟩
  case recorded =>
    intro other t ht
    by_cases heq : other = key
    · rw [heq, lastUse_cons_self hevent]
      exact Nat.succ_pos _
    · rw [hne other heq]
      exact h.recorded other t (hother other t heq ht)
  case le_clock =>
    intro other t ht
    by_cases heq : other = key
    · rw [heq, hself] at ht
      exact Nat.le_of_eq (Option.some.inj ht).symm
    · have hle := h.le_clock other t (hother other t heq ht)
      omega
  case mono =>
    intro a b s t hs ht hlt
    by_cases ha : a = key
    · -- No last use is later than the one of the key that is used now.
      have hle := @lastUse_le_length _ _ _ used (event :: history) b
      rw [ha, lastUse_cons_self hevent] at hlt
      rw [List.length_cons] at hle
      omega
    · have hold := hother a s ha hs
      by_cases hb : b = key
      · have hle := h.le_clock a s hold
        rw [hb, hself] at ht
        have heq := Option.some.inj ht
        omega
      · rw [hne a ha, hne b hb] at hlt
        exact h.mono a b s t hold (hother b t hb ht) hlt

/-- **An event that uses no key** leaves the stamps or drops some of them. -/
theorem Stamped.pass (h : Stamped used history clock stamp) (hevent : used event = none)
    (hclock : clock ≤ clock') (hstamp : ∀ key t, stamp' key = some t → stamp key = some t) :
    Stamped used (event :: history) clock' stamp' := by
  have hsame : ∀ key, lastUse used (event :: history) key = lastUse used history key := by
    intro key
    refine lastUse_cons_of_ne ?_
    rw [hevent]
    exact Option.some_ne_none key |>.symm
  refine ⟨?recorded, ?le_clock, ?mono⟩
  case recorded =>
    intro key t ht
    rw [hsame]
    exact h.recorded key t (hstamp key t ht)
  case le_clock =>
    intro key t ht
    exact Nat.le_trans (h.le_clock key t (hstamp key t ht)) hclock
  case mono =>
    intro a b s t hs ht hlt
    rw [hsame, hsame] at hlt
    exact h.mono a b s t (hstamp a s hs) (hstamp b t ht) hlt

/-- **The key with the least stamp** is the one whose last use is oldest. -/
theorem Stamped.least_recent (h : Stamped used history clock stamp) {s t : Nat}
    (ha : stamp a = some s) (hb : stamp b = some t) (hle : s ≤ t) (hne : b ≠ a) :
    lastUse used history a < lastUse used history b := by
  rcases Nat.lt_trichotomy (lastUse used history a) (lastUse used history b) with hlt | heq | hgt
  · exact hlt
  · exact absurd (lastUse_injective (h.recorded a s ha) heq).symm hne
  · have hstamps := h.mono b a t s hb ha hgt
    omega

end Recency
