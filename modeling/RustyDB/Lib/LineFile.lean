import Mathlib

/-!
# Files of lines

A log is a file to which lines of text are appended and from which they are read
back.  A writer that is interrupted leaves the beginning of a line without its
newline, and the next writer goes on right behind it.

* `split`, `lines` — the complete lines of a file and what follows them; the lines
  as a buffered reader yields them, where bytes that are no UTF-8 are `none`.
* `line`, `Plain` — a text as it is appended, and the texts that survive it.
* `Clean` — a file that ends with a newline, to which `lines_append_line` applies.
* `lines_append_tail`, `lines_append_torn` — a torn end is one more line.
* `isBlank` — a line of white space only.
-/

namespace LineFile

/-- The bytes of a file. -/
abbrev Bytes := List UInt8

/-- The byte that ends a line. -/
def newline : UInt8 := 10

/-- The byte that a reader drops before a newline. -/
def carriageReturn : UInt8 := 13

/-- The complete lines of a file, without their newlines, and the rest. -/
def split : Bytes → List Bytes × Bytes
  | [] => ([], [])
  | b :: bs =>
    let rest := split bs
    if b = newline then ([] :: rest.1, rest.2)
    else
      match rest.1 with
      | [] => ([], b :: rest.2)
      | l :: ls => ((b :: l) :: ls, rest.2)

/-- The bytes of a text. -/
def utf8 (s : String) : Bytes := s.toByteArray.data.toList

/-- The text of bytes, when they are UTF-8. -/
def decode (bytes : Bytes) : Option String := String.fromUTF8? ⟨bytes.toArray⟩

/-- A line loses the carriage return before its newline. -/
def stripReturn (l : Bytes) : Bytes :=
  if l.getLast? = some carriageReturn then l.dropLast else l

/-- The lines of a file, as a buffered reader yields them one after another. -/
def lines (file : Bytes) : List (Option String) :=
  (split file).1.map (fun l => decode (stripReturn l)) ++
    if (split file).2 = [] then [] else [decode (split file).2]

/-- A text as it is appended. -/
def line (s : String) : Bytes := utf8 s ++ [newline]

/-- The file ends where a line ends. -/
def Clean (file : Bytes) : Prop := (split file).2 = []

instance (file : Bytes) : Decidable (Clean file) := inferInstanceAs (Decidable (_ = _))

/-- A text that is read back as it was written: it has no newline, and does not end
with a carriage return. -/
structure Plain (s : String) : Prop where
  newline : newline ∉ utf8 s
  noReturn : (utf8 s).getLast? ≠ some carriageReturn

/-- `char::is_whitespace`: the Unicode property White_Space. -/
def isWhiteSpace (c : Char) : Bool :=
  let n := c.toNat
  (9 ≤ n && n ≤ 13) || n == 0x20 || n == 0x85 || n == 0xa0 || n == 0x1680 ||
    (0x2000 ≤ n && n ≤ 0x200a) || n == 0x2028 || n == 0x2029 || n == 0x202f || n == 0x205f ||
    n == 0x3000

/-- `trim().is_empty()`. -/
def isBlank (s : String) : Bool := s.toList.all isWhiteSpace

theorem isBlank_append_of_left {s : String} (h : isBlank s = false) (t : String) :
    isBlank (s ++ t) = false := by
  rw [isBlank, String.toList_append, List.all_append]
  exact Bool.and_eq_false_imp.mpr fun hs => absurd (h.symm.trans hs) (by decide)

/-! ## Splitting -/

@[simp] theorem decode_utf8 (s : String) : decode (utf8 s) = some s := by
  have hbytes : (⟨(utf8 s).toArray⟩ : ByteArray) = s.toByteArray := by simp [utf8]
  rw [decode, hbytes, String.fromUTF8?, dif_pos s.isValidUTF8]
  rfl

theorem utf8_injective : Function.Injective utf8 := fun s s' h =>
  Option.some.inj ((decode_utf8 s).symm.trans ((congrArg decode h).trans (decode_utf8 s')))

theorem utf8_of_decode {bytes : Bytes} {s : String} (h : decode bytes = some s) :
    utf8 s = bytes := by
  rw [decode, String.fromUTF8?] at h
  split at h
  · cases h
    rfl
  · cases h

/-- What is appended goes behind the rest of the file. -/
theorem split_append (a b : Bytes) :
    split (a ++ b) =
      ((split a).1 ++ (split ((split a).2 ++ b)).1, (split ((split a).2 ++ b)).2) := by
  induction a with
  | nil => simp [split]
  | cons c a ih =>
    by_cases hc : c = newline
    · simp [split, hc, ih]
    · cases hlines : (split a).1 with
      | nil =>
        have ih' := ih
        rw [hlines] at ih'
        simp only [List.nil_append, Prod.eta] at ih'
        simp [split, hc, hlines, ih']
      | cons l ls => simp [split, hc, ih, hlines]

theorem split_of_notMem {t : Bytes} (h : newline ∉ t) : split t = ([], t) := by
  induction t with
  | nil => rfl
  | cons b t ih =>
    rw [List.mem_cons, not_or] at h
    simp [split, ih h.2, Ne.symm h.1]

theorem split_line {l : Bytes} (h : newline ∉ l) (rest : Bytes) :
    split (l ++ newline :: rest) = (l :: (split rest).1, (split rest).2) := by
  induction l with
  | nil => simp [split]
  | cons b l ih =>
    rw [List.mem_cons, not_or] at h
    simp [split, Ne.symm h.1, ih h.2]

/-! ## Appending -/

variable {file t : Bytes} {s : String}

theorem clean_nil : Clean [] := rfl

theorem clean_append_line (hclean : Clean file) (hs : Plain s) : Clean (file ++ line s) := by
  rw [Clean] at hclean ⊢
  rw [split_append, hclean, List.nil_append, line, split_line hs.newline]
  rfl

/-- **A line appended to a clean file** is read after the others. -/
theorem lines_append_line (hclean : Clean file) (hs : Plain s) :
    lines (file ++ line s) = lines file ++ [some s] := by
  have hsplit : split (file ++ line s) = ((split file).1 ++ [utf8 s], []) := by
    rw [Clean] at hclean
    rw [split_append, hclean, List.nil_append, line, split_line hs.newline]
    rfl
  rw [Clean] at hclean
  rw [lines, lines, hsplit, hclean]
  simp [stripReturn, hs.noReturn]

theorem lines_line (hs : Plain s) : lines (line s) = [some s] := by
  simpa [lines, split] using lines_append_line clean_nil hs

/-- Lines appended to a clean file one after another. -/
theorem lines_append_flatMap {texts : List String} (hclean : Clean file)
    (htexts : ∀ s ∈ texts, Plain s) :
    lines (file ++ texts.flatMap line) = lines file ++ texts.map some ∧
      Clean (file ++ texts.flatMap line) := by
  induction texts generalizing file with
  | nil => simpa using hclean
  | cons s texts ih =>
    have hs := htexts s (by simp)
    rw [List.flatMap_cons, ← List.append_assoc]
    obtain ⟨hlines, hend⟩ := ih (clean_append_line hclean hs)
      fun other hother => htexts other (List.mem_cons_of_mem _ hother)
    refine ⟨?_, hend⟩
    rw [hlines, lines_append_line hclean hs, List.append_assoc]
    rfl

/-- **The beginning of a line**, left behind a clean file, is read as one more line. -/
theorem lines_append_tail (hclean : Clean file) (ht : newline ∉ t) (hne : t ≠ []) :
    lines (file ++ t) = lines file ++ [decode t] := by
  have hsplit : split (file ++ t) = ((split file).1, t) := by
    rw [Clean] at hclean
    rw [split_append, hclean, List.nil_append, split_of_notMem ht]
    simp
  rw [Clean] at hclean
  rw [lines, lines, hsplit, hclean]
  simp [hne]

/-- A proper beginning of a line has lost the newline. -/
theorem prefix_of_take (hs : Plain s) {n : Nat} (hn : n < (line s).length) :
    (line s).take n = (utf8 s).take n ∧ newline ∉ (line s).take n := by
  have htake : (line s).take n = (utf8 s).take n := by
    rw [line, List.take_append_of_le_length]
    simp only [line, List.length_append, List.length_singleton] at hn
    omega
  exact ⟨htake, fun hmem => hs.newline (List.mem_of_mem_take (htake ▸ hmem))⟩

/-- **A torn line** that is UTF-8, left behind a clean file: nothing, or one more line
that holds the text up to somewhere. -/
theorem lines_append_torn (hclean : Clean file) (hs : Plain s) {n : Nat}
    (hn : n < (line s).length) {text : String} (hdecode : decode ((line s).take n) = some text) :
    utf8 text <+: utf8 s ∧ (lines (file ++ (line s).take n) = lines file ∨
      lines (file ++ (line s).take n) = lines file ++ [some text]) := by
  obtain ⟨htake, hnewline⟩ := prefix_of_take hs hn
  refine ⟨?_, ?_⟩
  · have htext : utf8 text = (line s).take n := utf8_of_decode hdecode
    rw [htext, htake]
    exact List.take_prefix n _
  · by_cases hempty : (line s).take n = []
    · exact Or.inl (by rw [hempty, List.append_nil])
    · exact Or.inr (by rw [lines_append_tail hclean hnewline hempty, hdecode])

end LineFile
