import Mathlib
import RustyDB.Lib.LineFile

/-!
# Texts as lists of characters

The operations on strings that a hand-written parser uses: cutting at a byte offset,
words between white space, comparison up to the case of ASCII letters.

* `splitAtByte` — a text cut at a byte offset, when that is the boundary of a character.
* `find` — the byte offset of the first place where a text occurs.
* `splitWhitespace` — the words of a text.
* `trimStart`, `trim`, `trimMatches` — a text without what it begins and ends with.
* `splitOnce` — a text cut at the first place where a pattern matches.
* `splitAtByte_eq_some` — the two halves of a text that is cut.
* `splitWhitespace_eq_cons` — a text and its first word.
* `find_toUpper` — searching the capitals of a text is searching it in either case.
* `flatMap_of_eqIgnoreCase` — a keyword in either case, in capitals.
-/

namespace Text

open LineFile

/-! ## Cutting -/

/-- A text cut at a byte offset; `none` when that is no boundary of a character. -/
def splitAtByte : Nat → List Char → Option (List Char × List Char)
  | 0, cs => some ([], cs)
  | _ + 1, [] => none
  | n + 1, c :: cs =>
    if c.utf8Size ≤ n + 1 then
      (splitAtByte (n + 1 - c.utf8Size) cs).map fun halves => (c :: halves.1, halves.2)
    else none

/-- The number of bytes of a text. -/
def byteLength (cs : List Char) : Nat := (cs.map Char.utf8Size).sum

/-- What stands before and after the first character that is `sought`. -/
def splitOnce (sought : Char) : List Char → Option (List Char × List Char)
  | [] => none
  | c :: cs =>
    if c = sought then some ([], cs)
    else (splitOnce sought cs).map fun halves => (c :: halves.1, halves.2)

theorem splitAtByte_append {n : Nat} {cs left right : List Char}
    (h : splitAtByte n cs = some (left, right)) : left ++ right = cs := by
  induction cs generalizing n left with
  | nil =>
    cases n with
    | zero =>
      obtain ⟨rfl, rfl⟩ := Prod.mk.inj (Option.some.inj h)
      rfl
    | succ n => simp [splitAtByte] at h
  | cons c cs ih =>
    cases n with
    | zero =>
      obtain ⟨rfl, rfl⟩ := Prod.mk.inj (Option.some.inj h)
      rfl
    | succ n =>
      rw [splitAtByte] at h
      split_ifs at h with hsize
      obtain ⟨⟨first, second⟩, hcut, heq⟩ := Option.map_eq_some_iff.mp h
      obtain ⟨rfl, rfl⟩ := Prod.mk.inj heq
      rw [List.cons_append, ih hcut]

theorem byteLength_append (left right : List Char) :
    byteLength (left ++ right) = byteLength left + byteLength right := by
  rw [byteLength, List.map_append, List.sum_append, byteLength, byteLength]

theorem byteLength_cons (c : Char) (cs : List Char) :
    byteLength (c :: cs) = c.utf8Size + byteLength cs := by
  rw [byteLength, List.map_cons, List.sum_cons, byteLength]

/-- A text is cut where its first half ends. -/
theorem splitAtByte_byteLength (left right : List Char) :
    splitAtByte (byteLength left) (left ++ right) = some (left, right) := by
  induction left with
  | nil => cases right <;> rfl
  | cons c left ih =>
    obtain ⟨size, hsize⟩ : ∃ size, c.utf8Size = size + 1 :=
      Nat.exists_eq_succ_of_ne_zero c.utf8Size_pos.ne'
    have hlength : byteLength (c :: left) = (size + byteLength left) + 1 := by
      rw [byteLength_cons, hsize]
      omega
    rw [hlength, List.cons_append, splitAtByte, if_pos (by omega), hsize,
      show size + byteLength left + 1 - (size + 1) = byteLength left by omega, ih]
    rfl

theorem byteLength_of_splitAtByte {n : Nat} {cs left right : List Char}
    (h : splitAtByte n cs = some (left, right)) : byteLength left = n := by
  induction cs generalizing n left with
  | nil =>
    cases n with
    | zero =>
      obtain ⟨rfl, rfl⟩ := Prod.mk.inj (Option.some.inj h)
      rfl
    | succ n => cases h
  | cons c cs ih =>
    cases n with
    | zero =>
      obtain ⟨rfl, rfl⟩ := Prod.mk.inj (Option.some.inj h)
      rfl
    | succ n =>
      rw [splitAtByte] at h
      split_ifs at h with hsize
      obtain ⟨⟨first, second⟩, hcut, heq⟩ := Option.map_eq_some_iff.mp h
      obtain ⟨rfl, rfl⟩ := Prod.mk.inj heq
      rw [byteLength_cons, ih hcut]
      omega

theorem splitAtByte_eq_some {n : Nat} {cs left right : List Char} :
    splitAtByte n cs = some (left, right) ↔ left ++ right = cs ∧ byteLength left = n := by
  constructor
  · intro h
    exact ⟨splitAtByte_append h, byteLength_of_splitAtByte h⟩
  · rintro ⟨rfl, rfl⟩
    exact splitAtByte_byteLength left right

/-! ## White space -/

/-- `str::trim_start`. -/
def trimStart (cs : List Char) : List Char := cs.dropWhile isWhiteSpace

/-- `str::trim_matches`. -/
def trimMatches (p : Char → Bool) (cs : List Char) : List Char :=
  ((cs.dropWhile p).reverse.dropWhile p).reverse

/-- `str::trim_end_matches`. -/
def trimEndMatches (p : Char → Bool) (cs : List Char) : List Char :=
  (cs.reverse.dropWhile p).reverse

/-- `str::trim`. -/
def trim (cs : List Char) : List Char := trimMatches isWhiteSpace cs

/-- `str::split_whitespace`. -/
def splitWhitespace : List Char → List (List Char)
  | [] => []
  | c :: cs =>
    if isWhiteSpace c then splitWhitespace cs
    else
      match cs with
      | [] => [[c]]
      | next :: _ =>
        if isWhiteSpace next then [c] :: splitWhitespace cs
        else
          match splitWhitespace cs with
          | [] => [[c]]
          | word :: words => (c :: word) :: words

/-- The text does not begin with white space. -/
def Trimmed (cs : List Char) : Prop := ∀ c ∈ cs.head?, isWhiteSpace c = false

theorem trimmed_trim (cs : List Char) : Trimmed (trim cs) := by
  intro c hc
  obtain ⟨rest, hrest⟩ : trim cs <+: cs.dropWhile isWhiteSpace := by
    have h := List.dropWhile_suffix (l := (cs.dropWhile isWhiteSpace).reverse) isWhiteSpace
    rw [← List.reverse_prefix, List.reverse_reverse] at h
    exact h
  cases htrim : trim cs with
  | nil =>
    rw [htrim] at hc
    cases hc
  | cons d ds =>
    rw [htrim] at hc hrest
    obtain rfl : d = c := Option.some.inj hc
    have hhead : (cs.dropWhile isWhiteSpace).head? = some d := by
      rw [← hrest]
      rfl
    have hnot := List.head?_dropWhile_not isWhiteSpace cs
    rw [hhead] at hnot
    exact hnot

/-- A text that does not begin with white space is its first word and, where there are
more, white space and the words that follow. -/
theorem splitWhitespace_eq_cons {cs word : List Char} {words : List (List Char)}
    (htrimmed : Trimmed cs) (h : splitWhitespace cs = word :: words) :
    (cs = word ∧ words = []) ∨
      ∃ c rest, cs = word ++ c :: rest ∧ isWhiteSpace c = true ∧ splitWhitespace rest = words := by
  induction cs generalizing word words with
  | nil => cases h
  | cons c cs ih =>
    have hc : isWhiteSpace c = false := htrimmed c rfl
    rw [splitWhitespace.eq_def] at h
    simp only [hc, Bool.false_eq_true, if_false] at h
    cases cs with
    | nil =>
      obtain ⟨rfl, rfl⟩ := List.cons.inj h
      exact Or.inl ⟨rfl, rfl⟩
    | cons next rest =>
      simp only at h
      split_ifs at h with hnext
      · obtain ⟨rfl, rfl⟩ := List.cons.inj h
        refine Or.inr ⟨next, rest, rfl, hnext, ?_⟩
        rw [splitWhitespace.eq_def (next :: rest)]
        simp only [hnext, if_true]
      · have hrest : Trimmed (next :: rest) := by
          intro d hd
          obtain rfl : next = d := Option.some.inj hd
          simpa using hnext
        cases htail : splitWhitespace (next :: rest) with
        | nil =>
          rw [splitWhitespace.eq_def] at htail
          simp only [hnext, Bool.false_eq_true, if_false] at htail
          split at htail
          · cases htail
          · split_ifs at htail
            split at htail <;> cases htail
        | cons tail tails =>
          rw [htail] at h
          obtain ⟨rfl, rfl⟩ := List.cons.inj h
          rcases ih hrest htail with ⟨hcs, hnil⟩ | ⟨d, after, hcs, hd, hafter⟩
          · exact Or.inl ⟨congrArg (c :: ·) hcs, hnil⟩
          · exact Or.inr ⟨d, after, congrArg (c :: ·) hcs, hd, hafter⟩

theorem isPrefix_of_splitWhitespace {cs word : List Char} {words : List (List Char)}
    (htrimmed : Trimmed cs) (h : splitWhitespace cs = word :: words) : word <+: cs := by
  rcases splitWhitespace_eq_cons htrimmed h with ⟨rfl, -⟩ | ⟨c, rest, rfl, -, -⟩
  · exact List.prefix_rfl
  · exact List.prefix_append word _

/-! ## ASCII case -/

/-- `str::eq_ignore_ascii_case`. -/
def eqIgnoreCase (a b : List Char) : Bool := a.map Char.toLower == b.map Char.toLower

/-- What stands before and after the first place where `sought` matches, ASCII letters
compared without their case. -/
def splitOnceIgnoreCase (sought : List Char) : List Char → Option (List Char × List Char)
  | [] => if sought = [] then some ([], []) else none
  | c :: cs =>
    if eqIgnoreCase ((c :: cs).take sought.length) sought then
      some ([], (c :: cs).drop sought.length)
    else (splitOnceIgnoreCase sought cs).map fun halves => (c :: halves.1, halves.2)

/-- `str::find`: the byte offset of the first place where `sought` occurs. -/
def find (sought : List Char) : List Char → Option Nat
  | [] => if sought = [] then some 0 else none
  | c :: cs =>
    if sought.isPrefixOf (c :: cs) then some 0 else (find sought cs).map (c.utf8Size + ·)

theorem toLower_lt {c : Char} (hc : c.toNat < 128) : c.toLower.toNat < 128 := by
  by_cases hupper : c.isUpper
  · have hle : c.toNat ≤ 90 := by
      simp only [Char.isUpper, ge_iff_le, decide_eq_true_eq,
        UInt32.le_iff_toNat_le] at hupper
      exact hupper.2
    rw [Char.toLower_eq_of_isUpper hupper, Char.toNat_ofNat,
      if_pos (Or.inl (by omega : c.toNat + 32 < 0xd800))]
    omega
  · rwa [Char.toLower_eq_of_not_isUpper hupper]

/-- A character that is an ASCII character up to case is one. -/
theorem lt_of_toLower_eq {c k : Char} (hk : k.toNat < 128) (h : c.toLower = k.toLower) :
    c.toNat < 128 := by
  by_cases hupper : c.isUpper
  · simp only [Char.isUpper, ge_iff_le, decide_eq_true_eq,
      UInt32.le_iff_toNat_le] at hupper
    exact lt_of_le_of_lt hupper.2 (by decide)
  · rw [← Char.toLower_eq_of_not_isUpper hupper, h]
    exact toLower_lt hk

/-- Capitals that agree with the ASCII ones turn a text that is an ASCII keyword up to
case into the keyword's capitals. -/
theorem flatMap_of_eqIgnoreCase {upper : Char → List Char}
    (hupper : ∀ c : Char, c.toNat < 128 → upper c = [c.toUpper]) {word keyword : List Char}
    (hascii : ∀ c ∈ keyword, c.toNat < 128) (h : eqIgnoreCase word keyword = true) :
    word.flatMap upper = keyword.map Char.toUpper := by
  have hmap : word.map Char.toLower = keyword.map Char.toLower := eq_of_beq h
  clear h
  induction word generalizing keyword with
  | nil =>
    obtain rfl : keyword = [] := List.map_eq_nil_iff.mp hmap.symm
    rfl
  | cons c word ih =>
    cases keyword with
    | nil => cases hmap
    | cons k keyword =>
      obtain ⟨hc, hrest⟩ := List.cons.inj hmap
      have hk := hascii k List.mem_cons_self
      rw [List.flatMap_cons, hupper c (lt_of_toLower_eq hk hc), List.map_cons,
        ih (fun d hd => hascii d (List.mem_cons_of_mem _ hd)) hrest,
        ← Char.toUpper_toLower_eq_toUpper c, hc, Char.toUpper_toLower_eq_toUpper k]
      rfl

/-- A text that is an ASCII keyword up to case has one byte a character. -/
theorem byteLength_of_eqIgnoreCase {word keyword : List Char}
    (hascii : ∀ c ∈ keyword, c.toNat < 128) (h : eqIgnoreCase word keyword = true) :
    byteLength word = keyword.length := by
  have hmap : word.map Char.toLower = keyword.map Char.toLower := eq_of_beq h
  clear h
  induction word generalizing keyword with
  | nil =>
    obtain rfl : keyword = [] := List.map_eq_nil_iff.mp hmap.symm
    rfl
  | cons c word ih =>
    cases keyword with
    | nil => cases hmap
    | cons k keyword =>
      obtain ⟨hc, hrest⟩ := List.cons.inj hmap
      have hk := lt_of_toLower_eq (hascii k List.mem_cons_self) hc
      have hone : c.utf8Size = 1 := by
        rw [Char.utf8Size_eq_one_iff, UInt32.le_iff_toNat_le]
        exact Nat.le_of_lt_succ hk
      rw [byteLength_cons, ih (fun d hd => hascii d (List.mem_cons_of_mem _ hd)) hrest, hone,
        List.length_cons]
      omega

theorem utf8Size_toUpper (c : Char) : c.toUpper.utf8Size = c.utf8Size := by
  by_cases hlower : c.isLower
  · have hlt : c.toNat < 128 := by
      simp only [Char.isLower, ge_iff_le, Bool.and_eq_true, decide_eq_true_eq,
        UInt32.le_iff_toNat_le] at hlower
      exact lt_of_le_of_lt hlower.2 (by decide)
    have hsize : ∀ d : Char, d.toNat < 128 → d.utf8Size = 1 := by
      intro d hd
      rw [Char.utf8Size_eq_one_iff, UInt32.le_iff_toNat_le]
      exact Nat.le_of_lt_succ hd
    rw [hsize c hlt, hsize c.toUpper (lt_of_toLower_eq hlt (Char.toLower_toUpper_eq_toLower c))]
  · rw [Char.toUpper_eq_of_not_isLower hlower]

theorem toUpper_eq_iff {c k : Char} : c.toUpper = k.toUpper ↔ c.toLower = k.toLower := by
  constructor
  · intro h
    rw [← Char.toLower_toUpper_eq_toLower c, h, Char.toLower_toUpper_eq_toLower]
  · intro h
    rw [← Char.toUpper_toLower_eq_toUpper c, h, Char.toUpper_toLower_eq_toUpper]

/-- A text in capitals begins with a keyword in capitals. -/
theorem isPrefixOf_toUpper {sought : List Char} (hsought : ∀ k ∈ sought, k.toUpper = k)
    (cs : List Char) : sought.isPrefixOf (cs.map Char.toUpper) =
      eqIgnoreCase (cs.take sought.length) sought := by
  induction sought generalizing cs with
  | nil => rfl
  | cons k sought ih =>
    cases cs with
    | nil => rfl
    | cons c cs =>
      obtain ⟨hk, hrest⟩ := List.forall_mem_cons.mp hsought
      have hhead : (k == c.toUpper) = (c.toLower == k.toLower) := by
        rw [Bool.eq_iff_iff, beq_iff_eq, beq_iff_eq, ← toUpper_eq_iff, hk]
        exact eq_comm
      show (k == c.toUpper && sought.isPrefixOf (cs.map Char.toUpper)) =
        ((c.toLower == k.toLower) &&
          eqIgnoreCase (cs.take sought.length) sought)
      rw [ih hrest, hhead]

/-- **Searching the capitals of a text is searching it in either case.** -/
theorem find_toUpper {sought : List Char} (hsought : ∀ k ∈ sought, k.toUpper = k)
    (cs : List Char) : find sought (cs.map Char.toUpper) =
      (splitOnceIgnoreCase sought cs).map fun halves => byteLength halves.1 := by
  induction cs with
  | nil =>
    rw [List.map_nil, find, splitOnceIgnoreCase]
    split_ifs <;> rfl
  | cons c cs ih =>
    rw [splitOnceIgnoreCase, List.map_cons, find, ← List.map_cons, isPrefixOf_toUpper hsought]
    split_ifs
    · rfl
    · rw [ih, Option.map_map, Option.map_map, utf8Size_toUpper]
      refine congrArg (Option.map · _) (funext fun halves => ?_)
      exact (byteLength_cons c halves.1).symm

/-- What a search found stands between the halves. -/
theorem splitOnceIgnoreCase_eq_some {sought cs left right : List Char}
    (h : splitOnceIgnoreCase sought cs = some (left, right)) :
    ∃ found, cs = left ++ found ++ right ∧ eqIgnoreCase found sought = true := by
  induction cs generalizing left with
  | nil =>
    rw [splitOnceIgnoreCase] at h
    split_ifs at h with hnil
    obtain ⟨rfl, rfl⟩ := Prod.mk.inj (Option.some.inj h)
    exact ⟨[], rfl, by rw [hnil]; rfl⟩
  | cons c cs ih =>
    rw [splitOnceIgnoreCase] at h
    split_ifs at h with hfound
    · obtain ⟨rfl, rfl⟩ := Prod.mk.inj (Option.some.inj h)
      exact ⟨_, (List.take_append_drop sought.length (c :: cs)).symm, hfound⟩
    · obtain ⟨⟨first, second⟩, hcut, heq⟩ := Option.map_eq_some_iff.mp h
      obtain ⟨rfl, rfl⟩ := Prod.mk.inj heq
      obtain ⟨found, hcs, hfound⟩ := ih hcut
      exact ⟨found, congrArg (c :: ·) hcs, hfound⟩

end Text
