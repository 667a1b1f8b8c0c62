import Mathlib

/-!
# Logs of numbered records

A log whose records carry increasing numbers may be scattered over many files, with
copies.  A reader puts it together again by number, keeping the first record it meets
for each.

* `orInsert`, `gather` — a map from numbers to records, as a list sorted by number;
  `mem_gather` says that it holds the first record of every number.
* `Chained` — records that follow one another from one point to another.
* `Numbered` — records with consecutive numbers; `Numbered.eq_of_subset` cuts them out of
  a longer log, `Numbered.ext` says that they are determined by where their elements come
  from.
-/

namespace NumberedLog

variable {α : Type}

/-! ## Gathering -/

/-- A record is put under its number unless there is one already. -/
def orInsert (number : α → Nat) (r : α) : List α → List α
  | [] => [r]
  | x :: xs =>
    if number r < number x then r :: x :: xs
    else if number r = number x then x :: xs
    else x :: orInsert number r xs

/-- The records of a log, the first one of each number, in the order of their numbers. -/
def gather (number : α → Nat) (rs : List α) : List α :=
  rs.foldl (fun gathered r => orInsert number r gathered) []

/-- Increasing numbers. -/
def Increasing (number : α → Nat) (rs : List α) : Prop :=
  rs.Pairwise fun r r' => number r < number r'

section Gathering

variable {number : α → Nat} {r s : α} {rs xs : List α}

theorem mem_orInsert (hxs : Increasing number xs) :
    s ∈ orInsert number r xs ↔ s ∈ xs ∨ s = r ∧ ∀ x ∈ xs, number x ≠ number r := by
  induction xs with
  | nil => simp [orInsert]
  | cons x xs ih =>
    obtain ⟨hfirst, hrest⟩ := List.pairwise_cons.mp hxs
    rw [orInsert]
    split
    · rename_i hlt
      have hall : ∀ y ∈ x :: xs, number y ≠ number r := by
        intro y hy
        rcases List.mem_cons.mp hy with rfl | hy
        · omega
        · have := hfirst y hy
          omega
      rw [List.mem_cons]
      constructor
      · rintro (rfl | hs)
        · exact Or.inr ⟨rfl, hall⟩
        · exact Or.inl hs
      · rintro (hs | ⟨rfl, -⟩)
        · exact Or.inr hs
        · exact Or.inl rfl
    · split
      · rename_i heq
        constructor
        · exact Or.inl
        · rintro (hs | ⟨-, hall⟩)
          · exact hs
          · exact absurd heq.symm (hall x (by simp))
      · rename_i hne
        rw [List.mem_cons, List.mem_cons, ih hrest, List.forall_mem_cons]
        constructor
        · rintro (hs | hs | ⟨hs, hall⟩)
          · exact Or.inl (Or.inl hs)
          · exact Or.inl (Or.inr hs)
          · exact Or.inr ⟨hs, fun h => hne h.symm, hall⟩
        · rintro ((hs | hs) | ⟨hs, -, hall⟩)
          · exact Or.inl hs
          · exact Or.inr (Or.inl hs)
          · exact Or.inr (Or.inr ⟨hs, hall⟩)

theorem Increasing.orInsert (hxs : Increasing number xs) (r : α) :
    Increasing number (orInsert number r xs) := by
  induction xs with
  | nil => exact List.pairwise_singleton _ _
  | cons x xs ih =>
    obtain ⟨hfirst, hrest⟩ := List.pairwise_cons.mp hxs
    rw [NumberedLog.orInsert]
    split
    · rename_i hlt
      refine List.pairwise_cons.mpr ⟨fun y hy => ?_, hxs⟩
      rcases List.mem_cons.mp hy with rfl | hy
      · exact hlt
      · exact hlt.trans (hfirst y hy)
    · split
      · exact hxs
      · rename_i hnlt hne
        refine List.pairwise_cons.mpr ⟨fun y hy => ?_, ih hrest⟩
        rcases (mem_orInsert hrest).mp hy with hy | ⟨rfl, -⟩
        · exact hfirst y hy
        · omega

theorem gather_append (rs : List α) (r : α) :
    gather number (rs ++ [r]) = orInsert number r (gather number rs) := by
  simp [gather]

theorem increasing_gather (rs : List α) : Increasing number (gather number rs) := by
  induction rs using List.reverseRecOn with
  | nil => exact List.Pairwise.nil
  | append_singleton rs r ih =>
    rw [gather_append]
    exact ih.orInsert r

/-- The first record of a number. -/
def first (number : α → Nat) (rs : List α) (n : Nat) : Option α :=
  rs.find? fun x => number x == n

theorem number_of_first {n : Nat} (h : first number rs n = some r) : number r = n := by
  simpa using List.find?_some h

theorem mem_of_first {n : Nat} (h : first number rs n = some r) : r ∈ rs :=
  List.mem_of_find?_eq_some h

theorem first_eq_none {n : Nat} : first number rs n = none ↔ ∀ r ∈ rs, number r ≠ n := by
  simp [first, List.find?_eq_none]

/-- **The first record of every number** is gathered. -/
theorem mem_gather : r ∈ gather number rs ↔ first number rs (number r) = some r := by
  induction rs using List.reverseRecOn generalizing r with
  | nil => simp [gather, first]
  | append_singleton rs s ih =>
    have hnone : (∀ x ∈ gather number rs, number x ≠ number s) ↔
        first number rs (number s) = none := by
      constructor
      · intro hall
        by_contra hsome
        obtain ⟨x, hx⟩ := Option.ne_none_iff_exists'.mp hsome
        have hnumber := number_of_first hx
        rw [← hnumber] at hx
        exact hall x (ih.mpr hx) hnumber
      · intro hfirst x hx hnumber
        have hfound := ih.mp hx
        rw [hnumber, hfirst] at hfound
        cases hfound
    rw [gather_append, mem_orInsert (increasing_gather rs), ih, hnone, first, first, first,
      List.find?_append]
    cases hfound : rs.find? (fun x => number x == number r) with
    | some x =>
      constructor
      · rintro (hx | ⟨rfl, hnone⟩)
        · exact hx
        · rw [hnone] at hfound
          cases hfound
      · exact Or.inl
    | none =>
      by_cases hnumber : number s = number r
      · rw [hnumber]
        simp [hfound, hnumber, eq_comm]
      · have hne : r ≠ s := fun h => hnumber (by rw [h])
        simp [hnumber, hne]

theorem gather_subset (h : r ∈ gather number rs) : r ∈ rs := mem_of_first (mem_gather.mp h)

/-- No number is lost. -/
theorem exists_mem_gather (h : r ∈ rs) : ∃ s ∈ gather number rs, number s = number r := by
  cases hfirst : first number rs (number r) with
  | none => exact absurd rfl (first_eq_none.mp hfirst r h)
  | some s =>
    have hnumber := number_of_first hfirst
    exact ⟨s, mem_gather.mpr (by rw [hnumber, hfirst]), hnumber⟩

/-- In a log with increasing numbers a number stands once. -/
theorem Increasing.eq_of_number (h : Increasing number rs) (hr : r ∈ rs) (hs : s ∈ rs)
    (hnumber : number r = number s) : r = s := by
  induction rs with
  | nil => cases hr
  | cons x xs ih =>
    obtain ⟨hfirst, hrest⟩ := List.pairwise_cons.mp h
    rcases List.mem_cons.mp hr with heq | hr
    · rcases List.mem_cons.mp hs with heq' | hs
      · rw [heq, heq']
      · have := hfirst s hs
        rw [← heq] at this
        omega
    · rcases List.mem_cons.mp hs with heq' | hs
      · have := hfirst r hr
        rw [← heq'] at this
        omega
      · exact ih hrest hr hs

/-- How far one gets in an increasing log while a test succeeds. -/
theorem Increasing.mem_takeWhile {p : α → Bool} (h : Increasing number xs) :
    r ∈ xs.takeWhile p ↔ r ∈ xs ∧ ∀ s ∈ xs, number s ≤ number r → p s = true := by
  induction xs with
  | nil => simp
  | cons x xs ih =>
    obtain ⟨hfirst, hrest⟩ := List.pairwise_cons.mp h
    cases hp : p x with
    | false =>
      rw [List.takeWhile_cons_of_neg (by rw [hp]; exact Bool.false_ne_true)]
      refine iff_of_false (List.not_mem_nil) fun ⟨hr, hall⟩ => ?_
      have hle : number x ≤ number r := by
        rcases List.mem_cons.mp hr with rfl | hr
        · exact Nat.le_refl _
        · exact Nat.le_of_lt (hfirst r hr)
      rw [hall x (by simp) hle] at hp
      cases hp
    | true =>
      rw [List.takeWhile_cons_of_pos hp, List.mem_cons, ih hrest, List.mem_cons]
      constructor
      · rintro (rfl | ⟨hr, hall⟩)
        · refine ⟨Or.inl rfl, fun s hs hle => ?_⟩
          rcases List.mem_cons.mp hs with rfl | hs
          · exact hp
          · have := hfirst s hs
            omega
        · refine ⟨Or.inr hr, fun s hs hle => ?_⟩
          rcases List.mem_cons.mp hs with rfl | hs
          · exact hp
          · exact hall s hs hle
      · rintro ⟨rfl | hr, hall⟩
        · exact Or.inl rfl
        · exact Or.inr ⟨hr, fun s hs => hall s (List.mem_cons_of_mem _ hs)⟩

/-- Two logs with increasing numbers and the same records are the same. -/
theorem Increasing.ext (h : Increasing number rs) (h' : Increasing number xs)
    (hmem : ∀ r, r ∈ rs ↔ r ∈ xs) : rs = xs := by
  induction rs generalizing xs with
  | nil =>
    cases xs with
    | nil => rfl
    | cons x xs => exact absurd ((hmem x).mpr List.mem_cons_self) List.not_mem_nil
  | cons r rs ih =>
    obtain ⟨hfirst, hrest⟩ := List.pairwise_cons.mp h
    cases xs with
    | nil => exact absurd ((hmem r).mp List.mem_cons_self) List.not_mem_nil
    | cons x xs =>
      obtain ⟨hfirst', hrest'⟩ := List.pairwise_cons.mp h'
      have hequal : r = x := by
        rcases List.mem_cons.mp ((hmem r).mp List.mem_cons_self) with hr | hr
        · exact hr
        · rcases List.mem_cons.mp ((hmem x).mpr List.mem_cons_self) with hx | hx
          · exact hx.symm
          · have hlt := hfirst' r hr
            have hlt' := hfirst x hx
            omega
      subst hequal
      refine congrArg (List.cons r) (ih hrest hrest' fun s => ?_)
      have hs := hmem s
      rw [List.mem_cons, List.mem_cons] at hs
      constructor
      · intro hin
        rcases hs.mp (Or.inr hin) with heq | hout
        · rw [heq] at hin
          exact absurd (hfirst r hin) (Nat.lt_irrefl _)
        · exact hout
      · intro hin
        rcases hs.mpr (Or.inr hin) with heq | hout
        · rw [heq] at hin
          exact absurd (hfirst' r hin) (Nat.lt_irrefl _)
        · exact hout

/-- A log up to a number, and what lies behind. -/
theorem Increasing.split (h : Increasing number rs) (n : Nat) :
    rs = (rs.filter fun r => number r ≤ n) ++ rs.filter fun r => n < number r := by
  induction rs with
  | nil => rfl
  | cons r rs ih =>
    obtain ⟨hfirst, hrest⟩ := List.pairwise_cons.mp h
    by_cases hr : number r ≤ n
    · have hnot : ¬ n < number r := by omega
      rw [List.filter_cons_of_pos (by simpa using hr),
        List.filter_cons_of_neg (by simpa using hnot),
        List.cons_append]
      exact congrArg (List.cons r) (ih hrest)
    · have hnone : (r :: rs).filter (fun r => number r ≤ n) = [] := by
        refine List.filter_eq_nil_iff.mpr fun s hs => ?_
        rcases List.mem_cons.mp hs with rfl | hs
        · simpa using hr
        · have hlt := hfirst s hs
          simp only [decide_eq_true_eq]
          omega
      have hall : (r :: rs).filter (fun r => n < number r) = r :: rs := by
        refine List.filter_eq_self.mpr fun s hs => ?_
        rcases List.mem_cons.mp hs with rfl | hs
        · simpa using hr
        · have hlt := hfirst s hs
          simp only [decide_eq_true_eq]
          omega
      rw [hnone, hall, List.nil_append]

end Gathering

/-! ## Chains -/

/-- Records that lead from one point to another, each from where the one before ends. -/
def Chained (start stop : α → Nat) : Nat → List α → Nat → Prop
  | n, [], m => n = m
  | n, r :: rs, m => start r = n ∧ Chained start stop (stop r) rs m

/-- Records with consecutive numbers, behind a number. -/
def Numbered (number : α → Nat) : Nat → List α → Prop
  | _, [] => True
  | n, r :: rs => number r = n + 1 ∧ Numbered number (n + 1) rs

section Chains

variable {number start stop : α → Nat} {r : α} {rs rs' : List α} {n m : Nat}

theorem Chained.append (h : Chained start stop n rs m) {k : Nat}
    (h' : Chained start stop m rs' k) : Chained start stop n (rs ++ rs') k := by
  induction rs generalizing n with
  | nil =>
    obtain rfl : n = m := h
    exact h'
  | cons r rs ih => exact ⟨h.1, ih h.2⟩

/-- A chain whose records count up by one is numbered. -/
theorem Chained.numbered (h : Chained start stop n rs m)
    (hstep : ∀ r ∈ rs, stop r = start r + 1) : Numbered stop n rs ∧ m = n + rs.length := by
  induction rs generalizing n with
  | nil =>
    obtain rfl : n = m := h
    exact ⟨trivial, rfl⟩
  | cons r rs ih =>
    obtain ⟨rfl, hrs⟩ := h
    have hr := hstep r (by simp)
    obtain ⟨hnumbered, hm⟩ := ih hrs fun r' hr' => hstep r' (List.mem_cons_of_mem _ hr')
    rw [hr] at hnumbered hm
    refine ⟨⟨hr, hnumbered⟩, ?_⟩
    rw [hm, List.length_cons]
    omega

theorem Numbered.chained (h : Numbered stop n rs) (hstep : ∀ r ∈ rs, stop r = start r + 1) :
    Chained start stop n rs (n + rs.length) := by
  induction rs generalizing n with
  | nil => exact rfl
  | cons r rs ih =>
    obtain ⟨hr, hrs⟩ := h
    have hstart := hstep r (by simp)
    have hrest := ih hrs fun r' hr' => hstep r' (List.mem_cons_of_mem _ hr')
    refine ⟨by omega, ?_⟩
    rw [hr, List.length_cons, Nat.add_comm rs.length, ← Nat.add_assoc]
    exact hrest

theorem Numbered.number_lt (h : Numbered number n rs) (hr : r ∈ rs) :
    n < number r ∧ number r ≤ n + rs.length := by
  induction rs generalizing n with
  | nil => cases hr
  | cons x xs ih =>
    rcases List.mem_cons.mp hr with rfl | hr
    · rw [h.1, List.length_cons]
      omega
    · obtain ⟨hlt, hle⟩ := ih h.2 hr
      rw [List.length_cons]
      omega

/-- Every number is there. -/
theorem Numbered.exists_mem (h : Numbered number n rs) (hlt : n < m) (hle : m ≤ n + rs.length) :
    ∃ r ∈ rs, number r = m := by
  induction rs generalizing n with
  | nil =>
    rw [List.length_nil] at hle
    omega
  | cons x xs ih =>
    by_cases hm : m = n + 1
    · exact ⟨x, by simp, by rw [h.1, hm]⟩
    · rw [List.length_cons] at hle
      obtain ⟨r, hr, hnumber⟩ := ih h.2 (by omega) (by omega)
      exact ⟨r, List.mem_cons_of_mem _ hr, hnumber⟩

/-- The numbers, in order. -/
theorem Numbered.map_number (h : Numbered number n rs) :
    rs.map number = List.range' (n + 1) rs.length := by
  induction rs generalizing n with
  | nil => rfl
  | cons r rs ih => rw [List.map_cons, List.length_cons, List.range'_succ, h.1, ih h.2]

theorem Numbered.increasing (h : Numbered number n rs) : Increasing number rs := by
  induction rs generalizing n with
  | nil => exact List.Pairwise.nil
  | cons r rs ih =>
    refine List.pairwise_cons.mpr ⟨fun r' hr' => ?_, ih h.2⟩
    have := (h.2.number_lt hr').1
    rw [h.1]
    omega

/-- Increasing numbers, with none left out below any of them. -/
theorem Increasing.numbered (h : Increasing number rs) (hdown : ∀ r ∈ rs, n < number r ∧
    ∀ k, n < k → k ≤ number r → ∃ r' ∈ rs, number r' = k) : Numbered number n rs := by
  induction rs generalizing n with
  | nil => exact trivial
  | cons r rs ih =>
    obtain ⟨hfirst, hrest⟩ := List.pairwise_cons.mp h
    obtain ⟨hlt, hbelow⟩ := hdown r (by simp)
    have hr : number r = n + 1 := by
      obtain ⟨r', hr', hnumber⟩ := hbelow (n + 1) (by omega) (by omega)
      rcases List.mem_cons.mp hr' with rfl | hr'
      · exact hnumber
      · have := hfirst r' hr'
        omega
    refine ⟨hr, ih hrest fun r' hr' => ⟨by have := hfirst r' hr'; omega, fun k hlow hhigh => ?_⟩⟩
    obtain ⟨s, hs, hnumber⟩ := (hdown r' (List.mem_cons_of_mem _ hr')).2 k (by omega) hhigh
    rcases List.mem_cons.mp hs with rfl | hs
    · omega
    · exact ⟨s, hs, hnumber⟩

theorem numbered_append : Numbered number n (rs ++ rs') ↔
    Numbered number n rs ∧ Numbered number (n + rs.length) rs' := by
  induction rs generalizing n with
  | nil => simp [Numbered]
  | cons r rs ih =>
    simp only [List.cons_append, Numbered, ih, List.length_cons, and_assoc]
    rw [Nat.add_assoc, Nat.add_comm 1]

/-- What lies behind a point of a numbered log. -/
theorem Numbered.filter_lt (h : Numbered number n rs) (hle : n ≤ m) :
    Numbered number m (rs.filter fun r => m < number r) := by
  induction rs generalizing n with
  | nil => trivial
  | cons r rs ih =>
    obtain ⟨hr, hrest⟩ := h
    by_cases hm : n + 1 ≤ m
    · have hnot : ¬ m < number r := by omega
      rw [List.filter_cons_of_neg (by simpa using hnot)]
      exact ih hrest hm
    · obtain rfl : n = m := by omega
      have hall : (r :: rs).filter (fun r => n < number r) = r :: rs := by
        refine List.filter_eq_self.mpr fun s hs => ?_
        rw [decide_eq_true_eq]
        rcases List.mem_cons.mp hs with rfl | hs
        · omega
        · have hlt := (hrest.number_lt hs).1
          omega
      rw [hall]
      exact ⟨hr, hrest⟩

/-- Two numbered logs from one point, of one length, one within the other. -/
theorem Numbered.ext (h : Numbered number n rs) (h' : Numbered number n rs')
    (hlength : rs.length = rs'.length) (hsub : ∀ r ∈ rs, r ∈ rs') : rs = rs' := by
  induction rs generalizing n rs' with
  | nil => exact (List.length_eq_zero_iff.mp hlength.symm).symm
  | cons r rs ih =>
    cases rs' with
    | nil => simp at hlength
    | cons r' rs' =>
      obtain rfl : r = r' := by
        rcases List.mem_cons.mp (hsub r (by simp)) with heq | hmem
        · exact heq
        · have := (h'.2.number_lt hmem).1
          rw [h.1] at this
          omega
      rw [List.cons.injEq]
      refine ⟨rfl, ih h.2 h'.2 (by simpa using hlength) fun x hx => ?_⟩
      rcases List.mem_cons.mp (hsub x (List.mem_cons_of_mem _ hx)) with rfl | hmem
      · have := (h.2.number_lt hx).1
        rw [h.1] at this
        omega
      · exact hmem

/-- **A numbered log within a longer one** is a run of it. -/
theorem Numbered.isInfix (h : Numbered number n rs) {all : List α} (hall : Numbered number 0 all)
    (hsub : ∀ r ∈ rs, r ∈ all) : rs <:+: all := by
  by_cases hempty : rs = []
  · rw [hempty]
    exact List.nil_infix
  · have hlength : 0 < rs.length := List.length_pos_iff.mpr hempty
    obtain ⟨last, hlast, hnumber⟩ := h.exists_mem (Nat.lt_add_of_pos_right hlength) (Nat.le_refl _)
    have hle : n + rs.length ≤ all.length := by
      have := (hall.number_lt (hsub last hlast)).2
      omega
    -- the part of the log behind `n`, as long as `rs`
    have hsplit : all = all.take n ++ ((all.drop n).take rs.length ++
        (all.drop n).drop rs.length) := by
      rw [List.take_append_drop, List.take_append_drop]
    have hparts := hall
    rw [hsplit, numbered_append, numbered_append, List.length_take, List.length_take,
      List.length_drop, Nat.min_eq_left (by omega), Nat.min_eq_left (by omega), Nat.zero_add]
      at hparts
    have heq : rs = (all.drop n).take rs.length := by
      refine h.ext hparts.2.1 ?_ fun r hr => ?_
      · rw [List.length_take, List.length_drop]
        omega
      · have hmem := hsub r hr
        obtain ⟨hlt, hmax⟩ := h.number_lt hr
        rw [hsplit, List.mem_append, List.mem_append] at hmem
        rcases hmem with hmem | hmem | hmem
        · have := (hparts.1.number_lt hmem).2
          rw [List.length_take] at this
          omega
        · exact hmem
        · have := (hparts.2.2.number_lt hmem).1
          omega
    rw [heq]
    exact (List.take_prefix _ _).isInfix.trans (List.drop_suffix _ _).isInfix

end Chains

end NumberedLog
