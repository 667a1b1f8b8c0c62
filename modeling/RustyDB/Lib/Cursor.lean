import Mathlib

/-!
# Reading with a cursor

A reader keeps a position in a list and looks at the elements there.  It stops without a
result when it looks behind the end, or when a sum exceeds what an index can hold.

* `Cursor`, `Reading` — a position with the positions before it, and a computation on it.
* `atEnd`, `peek`, `peekMany`, `sliceBetween`, `advance` — what a reader does at its position.
* `Cursor.Within` — the cursor has only moved forward, and not past the end.
* `Yields` — from a position where `rest` is left the reader has a result and leaves `rest'`;
  `yields_bind` puts readers together.
* `Finds`, `Follows` — the same for readers that can find nothing and that can return an
  error: they do what a reader of `rest` alone does; `follows_bind` puts these together.
-/

namespace Cursored

/-- A position, and the positions before it, the last one first. -/
structure Cursor where
  pos : Nat
  trail : List Nat := []

/-- A computation that moves a cursor.  It has no result when it stops. -/
abbrev Reading (α : Type) := StateT Cursor Option α

variable {ι α β ε : Type}

/-! ## Steps of a reader -/

/-- Where the cursor stands. -/
def position : Reading Nat := fun c => some (c.pos, c)

/-- The cursor moves, and the trail records where it was. -/
def moveTo (pos : Nat) : Reading Unit := fun c => some ((), ⟨pos, c.pos :: c.trail⟩)

/-- A sum or a product that an index can hold. -/
def checked (limit n : Nat) : Reading Nat := fun c => if n < limit then some (n, c) else none

/-- `data[i]`. -/
def elementAt (data : List ι) (i : Nat) : Reading ι := fun c => (data[i]?).map (·, c)

/-- `&data[first..last]`. -/
def sliceBetween (data : List ι) (first last : Nat) : Reading (List ι) := fun c =>
  if first ≤ last ∧ last ≤ data.length then some ((data.drop first).take (last - first), c)
  else none

/-- How many elements are left. -/
def remaining (data : List ι) : Reading Nat := do
  return data.length - (← position)

/-- Whether the position is behind the last element. -/
def atEnd (data : List ι) : Reading Bool := do
  return decide (data.length ≤ (← position))

/-- The element at the position. -/
def peek (data : List ι) : Reading ι := do
  elementAt data (← position)

/-- The elements from a distance behind the position on, one by one. -/
def peekFrom (limit : Nat) (data : List ι) (distance : Nat) : Nat → Reading (List ι)
  | 0 => pure []
  | count + 1 => do
    let a ← elementAt data (← checked limit ((← position) + distance))
    let as ← peekFrom limit data (distance + 1) count
    pure (a :: as)

/-- So many elements from the position on, one by one. -/
def peekMany (limit : Nat) (data : List ι) (count : Nat) : Reading (List ι) :=
  peekFrom limit data 0 count

/-- A slice of so many elements from the position on. -/
def sliceHere (limit : Nat) (data : List ι) (length : Nat) : Reading (List ι) := do
  let first ← position
  sliceBetween data first (← checked limit (first + length))

/-- The cursor moves on by `count`. -/
def advance (limit count : Nat) : Reading Unit := do
  moveTo (← checked limit ((← position) + count))

/-- The position moves on to the first element that does not satisfy `p`; `fuel` bounds the
rounds of the loop. -/
def skipWhile (limit : Nat) (data : List ι) (p : ι → Bool) : Nat → Reading Unit
  | 0 => fun _ => none
  | fuel + 1 => do
    if (← position) < data.length then
      if p (← peek data) then
        advance limit 1
        skipWhile limit data p fuel

/-! ## What a reader does -/

/-- The cursor has only moved forward, and has stayed within a length. -/
def Cursor.Within (length : Nat) (c : Cursor) : Prop :=
  (length :: c.pos :: c.trail).Pairwise (· ≥ ·)

/-- The positions of a cursor, in their order, never decrease and end within the length. -/
theorem Cursor.within_iff {length : Nat} {c : Cursor} :
    c.Within length ↔ c.pos ≤ length ∧ (c.trail.reverse ++ [c.pos]).Pairwise (· ≤ ·) := by
  have hreverse : c.trail.reverse ++ [c.pos] = (c.pos :: c.trail).reverse := by
    rw [List.reverse_cons]
  rw [Within, List.pairwise_cons, hreverse, List.pairwise_reverse]
  constructor
  · rintro ⟨hle, hpairwise⟩
    exact ⟨hle c.pos (by simp), hpairwise⟩
  · rintro ⟨hle, hpairwise⟩
    refine ⟨fun pos hpos => ?_, hpairwise⟩
    rcases List.mem_cons.mp hpos with rfl | hpos
    · exact hle
    · exact Nat.le_trans ((List.pairwise_cons.mp hpairwise).1 pos hpos) hle

theorem Cursor.within_start (length : Nat) : Cursor.Within length ⟨0, []⟩ :=
  Cursor.within_iff.mpr ⟨Nat.zero_le length, List.pairwise_singleton _ _⟩

theorem Cursor.Within.le {length : Nat} {c : Cursor} (h : c.Within length) : c.pos ≤ length :=
  (Cursor.within_iff.mp h).1

/-- **A move forward** keeps the cursor within the length. -/
theorem Cursor.Within.moveTo {length pos : Nat} {c : Cursor} (h : c.Within length)
    (hforward : c.pos ≤ pos) (hle : pos ≤ length) :
    Cursor.Within length ⟨pos, c.pos :: c.trail⟩ := by
  obtain ⟨-, htrail⟩ := List.pairwise_cons.mp h
  refine List.pairwise_cons.mpr ⟨fun last hlast => ?_, List.pairwise_cons.mpr
    ⟨fun last hlast => ?_, htrail⟩⟩
  · rcases List.mem_cons.mp hlast with rfl | hlast
    · exact hle
    · exact (List.pairwise_cons.mp h).1 last hlast
  · rcases List.mem_cons.mp hlast with rfl | hlast
    · exact hforward
    · exact Nat.le_trans ((List.pairwise_cons.mp htrail).1 last hlast) hforward

/-- From every cursor where `rest` is left, the reader has the result `a` and leaves `rest'`. -/
def Yields (data : List ι) (x : Reading α) (rest : List ι) (a : α) (rest' : List ι) : Prop :=
  ∀ c : Cursor, c.Within data.length → data.drop c.pos = rest →
    ∃ c', x c = some (a, c') ∧ c'.Within data.length ∧ data.drop c'.pos = rest'

/-- The reader has a result, wherever its cursor is then. -/
def Gives (data : List ι) (x : Reading α) (rest : List ι) (a : α) : Prop :=
  ∃ rest', Yields data x rest a rest'

section Rules

variable {data rest rest' rest'' : List ι} {x : Reading α} {f : α → Reading β} {a : α} {b : β}

theorem yields_pure : Yields data (pure a : Reading α) rest a rest :=
  fun c hc hrest => ⟨c, rfl, hc, hrest⟩

/-- **Readers one after the other.** -/
theorem yields_bind (hx : Yields data x rest a rest') (hf : Yields data (f a) rest' b rest'') :
    Yields data (x >>= f) rest b rest'' := by
  intro c hc hrest
  obtain ⟨c', hx, hc', hrest'⟩ := hx c hc hrest
  obtain ⟨c'', hf, hc'', hrest''⟩ := hf c' hc' hrest'
  refine ⟨c'', ?_, hc'', hrest''⟩
  show (x c).bind (fun r => f r.1 r.2) = _
  rw [hx]
  exact hf

theorem gives_bind (hx : Yields data x rest a rest') (hf : Gives data (f a) rest' b) :
    Gives data (x >>= f) rest b := by
  obtain ⟨rest'', hf⟩ := hf
  exact ⟨rest'', yields_bind hx hf⟩

theorem gives_map {f : α → β} (hx : Gives data x rest a) :
    Gives data (x >>= fun a => pure (f a)) rest (f a) := by
  obtain ⟨rest', hx⟩ := hx
  exact ⟨rest', yields_bind hx yields_pure⟩

/-- An index into another list. -/
theorem yields_index {κ : Type} {xs : List κ} {i : Nat} (h : i < xs.length) :
    Yields data (elementAt xs i) rest xs[i] rest := by
  intro c hc hrest
  refine ⟨c, ?_, hc, hrest⟩
  rw [elementAt, List.getElem?_eq_getElem h, Option.map_some]

/-- What is left is a suffix of the data. -/
theorem yields_of_suffix (h : rest <:+ data → Yields data x rest a rest') :
    Yields data x rest a rest' := by
  intro c hc hrest
  exact h (hrest ▸ List.drop_suffix c.pos data) c hc hrest

/-- **A reader from the start** has its result, and its cursor never left the data. -/
theorem Gives.run (h : Gives data x data a) :
    ∃ c, x ⟨0, []⟩ = some (a, c) ∧ c.Within data.length := by
  obtain ⟨rest', h⟩ := h
  obtain ⟨c, hx, hc, -⟩ := h ⟨0, []⟩ (Cursor.within_start data.length) rfl
  exact ⟨c, hx, hc⟩

end Rules

/-! ## The steps -/

section Steps

variable {limit : Nat} {data rest rest' : List ι}

theorem yields_position :
    Yields data position rest (data.length - rest.length) rest := by
  intro c hc hrest
  have hpos : c.pos = data.length - rest.length := by
    have hle := hc.le
    rw [← hrest, List.length_drop]
    omega
  exact ⟨c, by rw [← hpos]; rfl, hc, hrest⟩

theorem yields_remaining : Yields data (remaining data) rest rest.length rest := by
  refine yields_of_suffix fun hsuffix => ?_
  have hle := hsuffix.length_le
  have hlength : data.length - (data.length - rest.length) = rest.length := by omega
  have hpure : Yields data (pure (data.length - (data.length - rest.length)) : Reading Nat) rest
      rest.length rest := by
    rw [hlength]
    exact yields_pure
  exact yields_bind yields_position hpure

theorem yields_atEnd : Yields data (atEnd data) rest rest.isEmpty rest := by
  refine yields_of_suffix fun hsuffix => ?_
  have hle := hsuffix.length_le
  have hpure : Yields data (pure (decide (data.length ≤ data.length - rest.length)) : Reading Bool)
      rest rest.isEmpty rest := by
    have hend : decide (data.length ≤ data.length - rest.length) = rest.isEmpty := by
      cases rest with
      | nil => simp
      | cons a rest =>
        rw [List.length_cons] at hle ⊢
        rw [List.isEmpty_cons, decide_eq_false_iff_not]
        omega
    rw [hend]
    exact yields_pure
  exact yields_bind yields_position hpure

theorem yields_checked {n : Nat} (h : n < limit) : Yields data (checked limit n) rest n rest :=
  fun c hc hrest => ⟨c, if_pos h, hc, hrest⟩

/-- The element at a distance behind the position. -/
theorem yields_elementAt {distance : Nat} {a : ι} (hsuffix : rest <:+ data)
    (h : rest[distance]? = some a) :
    Yields data (elementAt data (data.length - rest.length + distance)) rest a rest := by
  intro c hc hrest
  obtain ⟨front, rfl⟩ := hsuffix
  have hpos : (front ++ rest).length - rest.length + distance = front.length + distance := by
    rw [List.length_append]
    omega
  refine ⟨c, ?_, hc, hrest⟩
  rw [elementAt, hpos, List.getElem?_append_right (Nat.le_add_right _ _), Nat.add_sub_cancel_left,
    h, Option.map_some]

theorem yields_peek {a : ι} : Yields data (peek data) (a :: rest) a (a :: rest) := by
  refine yields_of_suffix fun hsuffix => yields_bind yields_position ?_
  exact @yields_elementAt ι data (a :: rest) 0 a hsuffix rfl

theorem yields_peekFrom {distance count : Nat} (hlimit : data.length < limit)
    (h : distance + count ≤ rest.length) :
    Yields data (peekFrom limit data distance count) rest ((rest.drop distance).take count)
      rest := by
  induction count generalizing distance with
  | zero => exact yields_pure
  | succ count ih =>
    refine yields_of_suffix fun hsuffix => ?_
    have hle := hsuffix.length_le
    have hlt : distance < rest.length := by omega
    have hcons : (rest.drop distance).take (count + 1) =
        rest[distance] :: (rest.drop (distance + 1)).take count := by
      rw [List.drop_eq_getElem_cons hlt, List.take_succ_cons]
    rw [peekFrom, hcons]
    refine yields_bind yields_position (yields_bind (yields_checked (by omega)) ?_)
    refine yields_bind (yields_elementAt hsuffix (List.getElem?_eq_getElem hlt)) ?_
    exact yields_bind (ih (by omega)) yields_pure

/-- So many elements at the position, when there are so many. -/
theorem yields_peekMany {count : Nat} (hlimit : data.length < limit) (h : count ≤ rest.length) :
    Yields data (peekMany limit data count) rest (rest.take count) rest := by
  have hpeek := @yields_peekFrom ι limit data rest 0 count hlimit (by omega)
  rw [List.drop_zero] at hpeek
  exact hpeek

/-- The slice between two positions. -/
theorem yields_sliceBetween {front back : List ι} (hsuffix : front ++ back <:+ data) :
    Yields data (sliceBetween data (data.length - (front ++ back).length)
      (data.length - back.length)) rest front rest := by
  intro c hc hrest
  obtain ⟨passed, rfl⟩ := hsuffix
  have hfirst : (passed ++ (front ++ back)).length - (front ++ back).length = passed.length := by
    rw [List.length_append]
    omega
  have hlast : (passed ++ (front ++ back)).length - back.length =
      passed.length + front.length := by
    simp only [List.length_append]
    omega
  have hwithin : passed.length ≤ passed.length + front.length ∧
      passed.length + front.length ≤ (passed ++ (front ++ back)).length := by
    simp only [List.length_append]
    omega
  refine ⟨c, ?_, hc, hrest⟩
  rw [hfirst, hlast, sliceBetween, if_pos hwithin, List.drop_left, Nat.add_sub_cancel_left,
    List.take_left]

/-- A slice of so many elements at the position, when there are so many. -/
theorem yields_sliceHere {length : Nat} (hlimit : data.length < limit) (h : length ≤ rest.length) :
    Yields data (sliceHere limit data length) rest (rest.take length) rest := by
  intro c hc hrest
  have hle := hc.le
  have hlength : rest.length = data.length - c.pos := by rw [← hrest, List.length_drop]
  have hsum : c.pos + length < limit := by omega
  refine ⟨c, ?_, hc, hrest⟩
  show (checked limit (c.pos + length) c).bind (fun r => sliceBetween data c.pos r.1 r.2) = _
  rw [checked, if_pos hsum, Option.bind_some, sliceBetween, if_pos (by omega), hrest,
    Nat.add_sub_cancel_left]

/-- **The position moves** over elements that are there. -/
theorem yields_advance {count : Nat} (hlimit : data.length < limit) (h : count ≤ rest.length) :
    Yields data (advance limit count) rest () (rest.drop count) := by
  intro c hc hrest
  have hle := hc.le
  have hlength : rest.length = data.length - c.pos := by rw [← hrest, List.length_drop]
  have hsum : c.pos + count < limit := by omega
  refine ⟨⟨c.pos + count, c.pos :: c.trail⟩, ?_, hc.moveTo (Nat.le_add_right _ _) (by omega), ?_⟩
  · show (checked limit (c.pos + count) c).bind (fun r => moveTo r.1 r.2) = _
    rw [checked, if_pos hsum]
    rfl
  · show data.drop (c.pos + count) = rest.drop count
    rw [← List.drop_drop, hrest]

/-- **A move** to where some of what was left is left. -/
theorem yields_moveTo (h : rest' <:+ rest) :
    Yields data (moveTo (data.length - rest'.length)) rest () rest' := by
  intro c hc hrest
  obtain ⟨passed, rfl⟩ := h
  have hle := hc.le
  have hlength : passed.length + rest'.length = data.length - c.pos := by
    rw [← List.length_append, ← hrest, List.length_drop]
  have hpos : data.length - rest'.length = c.pos + passed.length := by omega
  refine ⟨⟨data.length - rest'.length, c.pos :: c.trail⟩, rfl, hc.moveTo (by omega) (by omega), ?_⟩
  show data.drop (data.length - rest'.length) = rest'
  rw [hpos, ← List.drop_drop, hrest, List.drop_left]

/-- **The loop** passes what satisfies `p`. -/
theorem yields_skipWhile {p : ι → Bool} {fuel : Nat} (hlimit : data.length < limit)
    (hfuel : rest.length < fuel) :
    Yields data (skipWhile limit data p fuel) rest () (rest.dropWhile p) := by
  induction fuel generalizing rest with
  | zero => omega
  | succ fuel ih =>
    refine yields_of_suffix fun hsuffix => ?_
    have hle := hsuffix.length_le
    rw [skipWhile]
    refine yields_bind yields_position ?_
    cases rest with
    | nil =>
      rw [if_neg (by simp)]
      exact yields_pure
    | cons a rest =>
      rw [List.length_cons] at hfuel hle
      rw [if_pos (by rw [List.length_cons]; omega)]
      refine yields_bind yields_peek ?_
      by_cases hp : p a = true
      · rw [if_pos hp, List.dropWhile_cons_of_pos hp]
        have hmove : Yields data (advance limit 1) (a :: rest) () rest :=
          yields_advance hlimit (by simp)
        exact yields_bind hmove (ih (by omega))
      · rw [if_neg hp, List.dropWhile_cons_of_neg hp]
        exact yields_pure

end Steps

/-! ## Readers that can find nothing -/

/-- The reader finds what a reader of `rest` alone does, and leaves the same. -/
def Finds (data : List ι) (x : Reading (Option α)) (rest : List ι) :
    Option (α × List ι) → Prop
  | some (a, rest') => Yields data x rest (some a) rest'
  | none => Gives data x rest none

/-- **A step in front** of a reader that can find nothing. -/
theorem finds_bind {data rest rest' : List ι} {y : Reading β} {b : β}
    {f : β → Reading (Option α)} {found : Option (α × List ι)}
    (hy : Yields data y rest b rest') (hf : Finds data (f b) rest' found) :
    Finds data (y >>= f) rest found := by
  cases found with
  | none => exact gives_bind hy hf
  | some result => exact yields_bind hy hf

/-! ## Readers that can return an error -/

/-- The reader returns what a reader of `rest` alone does, and leaves the same. -/
def Follows (data : List ι) (x : ExceptT ε Reading α) (rest : List ι) :
    Except ε (α × List ι) → Prop
  | .ok (a, rest') => Yields data x.run rest (.ok a) rest'
  | .error e => Gives data x.run rest (.error e)

section Errors

variable {data rest rest' : List ι} {x : ExceptT ε Reading α} {f : α → ExceptT ε Reading β}

/-- The result alone. -/
theorem Follows.gives {r : Except ε (α × List ι)} (h : Follows data x rest r) :
    Gives data x.run rest (r.map Prod.fst) := by
  cases r with
  | ok result => exact ⟨result.2, h⟩
  | error e => exact h

theorem follows_of_suffix {r : Except ε (α × List ι)} (h : rest <:+ data → Follows data x rest r) :
    Follows data x rest r := by
  by_cases hsuffix : rest <:+ data
  · exact h hsuffix
  · have hnever : ∀ {result : Except ε α} {rest' : List ι}, Yields data x.run rest result rest' :=
      yields_of_suffix fun hsuffix' => absurd hsuffix' hsuffix
    cases r with
    | ok result => exact hnever
    | error e => exact ⟨rest, hnever⟩

theorem follows_pure {a : α} :
    Follows data (pure a : ExceptT ε Reading α) rest (.ok (a, rest)) :=
  yields_pure

theorem follows_throw {e : ε} :
    Follows data (throw e : ExceptT ε Reading α) rest (.error e) :=
  ⟨rest, yields_pure⟩

/-- **A step that cannot fail**, and a reader behind it. -/
theorem follows_lift {y : Reading α} {a : α} {r : Except ε (β × List ι)}
    (hy : Yields data y rest a rest') (hf : Follows data (f a) rest' r) :
    Follows data (liftM y >>= f) rest r := by
  have hrun : (liftM y >>= f : ExceptT ε Reading β).run = y >>= fun a => (f a).run :=
    ExceptT.run_bind_lift y f
  cases r with
  | ok result =>
    show Yields data (liftM y >>= f : ExceptT ε Reading β).run rest _ _
    rw [hrun]
    exact yields_bind hy hf
  | error e =>
    show Gives data (liftM y >>= f : ExceptT ε Reading β).run rest _
    rw [hrun]
    exact gives_bind hy hf

theorem follows_liftM {y : Reading α} {a : α} (hy : Yields data y rest a rest') :
    Follows data (liftM y : ExceptT ε Reading α) rest (.ok (a, rest')) := by
  have hbind := @follows_lift _ _ _ ε _ _ _ _ _ _ _ hy follows_pure
  rw [bind_pure] at hbind
  exact hbind

/-- A reader that returned an error ends the computation. -/
theorem follows_bind_error {e : ε} (hx : Follows data x rest (.error e)) :
    Follows data (x >>= f) rest (.error e) := by
  obtain ⟨rest', hx⟩ := hx
  show Gives data (x >>= f).run rest (.error e)
  rw [ExceptT.run_bind]
  exact gives_bind hx ⟨rest', yields_pure⟩

/-- A reader that returned a result, and the one behind it. -/
theorem follows_bind_ok {a : α} {r : Except ε (β × List ι)}
    (hx : Follows data x rest (.ok (a, rest'))) (hf : Follows data (f a) rest' r) :
    Follows data (x >>= f) rest r := by
  cases r with
  | error e =>
    show Gives data (x >>= f).run rest (.error e)
    rw [ExceptT.run_bind]
    exact gives_bind hx hf
  | ok next =>
    show Yields data (x >>= f).run rest (.ok next.1) next.2
    rw [ExceptT.run_bind]
    exact yields_bind hx hf

/-- **Readers one after the other**: the second one runs when the first returned no error. -/
theorem follows_bind {r : Except ε (α × List ι)} {g : α × List ι → Except ε (β × List ι)}
    (hx : Follows data x rest r)
    (hf : ∀ a rest', r = .ok (a, rest') → Follows data (f a) rest' (g (a, rest'))) :
    Follows data (x >>= f) rest (r >>= g) := by
  cases r with
  | error e => exact follows_bind_error hx
  | ok result => exact follows_bind_ok hx (hf result.1 result.2 rfl)

end Errors

end Cursored
