import Mathlib
import RustyDB.Wire.Routing

/-!
# System variables

`handle_sysvar_query` looks for variables by the positions of characters, and cuts their
names out at the same offsets of the bytes.

* `variablesIn`, `upToVariables` — the maximal occurrences of `@@` and a name, and the text up
  to the end of the last one.
* `slice_eq_ok_iff` — a slice is what stands behind so many bytes and has so many.
* `Scanned` — one column for each occurrence, named by it, with the value of the variable.
* `variables_scanned_iff` — **that is the answer exactly when there is an occurrence and all
  characters up to the end of the last one are ASCII.**
-/

namespace RustyDB
namespace Wire

open LineFile Text Sql

/-! ## Occurrences -/

namespace Unicode

variable (U : Unicode)

/-- The maximal occurrences of `@@` followed by letters, digits, underscores and dots. -/
def variablesIn : List Char → List (List Char)
  | '@' :: '@' :: rest =>
    ('@' :: '@' :: rest.takeWhile U.isVariableChar) :: variablesIn (rest.dropWhile U.isVariableChar)
  | _ :: rest => variablesIn rest
  | [] => []
termination_by cs => cs.length
decreasing_by
  · have hle := (List.dropWhile_suffix U.isVariableChar (l := rest)).length_le
    simp only [List.length_cons]
    omega
  · simp

/-- The text up to the end of the last occurrence. -/
def upToVariables : List Char → List Char
  | '@' :: '@' :: rest =>
    '@' :: '@' :: (rest.takeWhile U.isVariableChar ++
      upToVariables (rest.dropWhile U.isVariableChar))
  | c :: rest =>
    match upToVariables rest with
    | [] => []
    | front => c :: front
  | [] => []
termination_by cs => cs.length
decreasing_by
  · have hle := (List.dropWhile_suffix U.isVariableChar (l := rest)).length_le
    simp only [List.length_cons]
    omega
  · simp

/-- The value of a variable: what is known for a name that differs in case at most, and the
empty text when nothing is. -/
def HasValue (name : List Char) (value : Value) : Prop :=
  (∃ known ∈ knownVars, U.toLowercase known.1.toList = U.toLowercase name ∧
    value = .text known.2) ∨
  (∀ known ∈ knownVars, U.toLowercase known.1.toList ≠ U.toLowercase name) ∧ value = .text ""

/-- The answer has one column for each occurrence, in their order and named by them, and the
values of the variables. -/
def Scanned (query : List Char) : Prop :=
  ∃ values, U.handleSysvarQuery query =
      .ok (.select ⟨(U.variablesIn query).map String.ofList, [values]⟩) ∧
    List.Forall₂ U.HasValue (U.variablesIn query) values

end Unicode

/-! ## Slices -/

theorem slice_eq_ok_iff {query name : List Char} {first last : Nat} :
    Unicode.slice query first last = .ok name ↔
      ∃ front back, query = front ++ (name ++ back) ∧ byteLength front = first ∧
        byteLength (front ++ name) = last := by
  rw [Unicode.slice]
  constructor
  · intro h
    split at h
    · cases h
    · rename_i head back hlast
      split at h
      · cases h
      · rename_i front middle hfirst
        obtain rfl := Except.ok.inj h
        obtain ⟨hquery, hhead⟩ := splitAtByte_eq_some.mp hlast
        obtain ⟨rfl, hfront⟩ := splitAtByte_eq_some.mp hfirst
        exact ⟨front, back, by rw [← hquery, List.append_assoc], hfront, hhead⟩
  · rintro ⟨front, back, rfl, hfront, hlast⟩
    have hhead : splitAtByte last (front ++ (name ++ back)) = some (front ++ name, back) :=
      splitAtByte_eq_some.mpr ⟨by rw [List.append_assoc], hlast⟩
    have hmiddle : splitAtByte first (front ++ name) = some (front, name) :=
      splitAtByte_eq_some.mpr ⟨rfl, hfront⟩
    simp only [hhead, hmiddle]

theorem utf8Size_eq_one_iff {c : Char} : c.utf8Size = 1 ↔ c.toNat < 128 := by
  rw [Char.utf8Size_eq_one_iff, UInt32.le_iff_toNat_le]
  exact Nat.lt_succ_iff.symm

theorem length_le_byteLength (cs : List Char) : cs.length ≤ byteLength cs := by
  induction cs with
  | nil => exact Nat.le_refl 0
  | cons c cs ih =>
    have hpos := c.utf8Size_pos
    rw [List.length_cons, byteLength_cons]
    omega

/-- **ASCII text** has one byte for each character, and no other text has. -/
theorem byteLength_eq_length_iff {cs : List Char} :
    byteLength cs = cs.length ↔ ∀ c ∈ cs, c.toNat < 128 := by
  induction cs with
  | nil => exact ⟨fun _ => nofun, fun _ => rfl⟩
  | cons c cs ih =>
    have hpos := c.utf8Size_pos
    have hle := length_le_byteLength cs
    rw [List.forall_mem_cons, ← ih, ← utf8Size_eq_one_iff, byteLength_cons, List.length_cons]
    omega

/-! ## The scan -/

namespace Unicode

variable {U : Unicode} {query : List Char}

theorem variablesIn_at (rest : List Char) :
    U.variablesIn ('@' :: '@' :: rest) =
      ('@' :: '@' :: rest.takeWhile U.isVariableChar) ::
        U.variablesIn (rest.dropWhile U.isVariableChar) := by
  rw [variablesIn]

theorem upToVariables_at (rest : List Char) :
    U.upToVariables ('@' :: '@' :: rest) =
      ('@' :: '@' :: rest.takeWhile U.isVariableChar) ++
        U.upToVariables (rest.dropWhile U.isVariableChar) := by
  rw [upToVariables]
  rfl

theorem variablesIn_skip {c : Char} {rest : List Char}
    (h : ¬ (c = '@' ∧ rest.head? = some '@')) :
    U.variablesIn (c :: rest) = U.variablesIn rest := by
  rw [variablesIn]
  rintro rest' rfl rfl
  exact h ⟨rfl, rfl⟩

theorem upToVariables_skip {c : Char} {rest : List Char}
    (h : ¬ (c = '@' ∧ rest.head? = some '@')) :
    U.upToVariables (c :: rest) =
      if U.upToVariables rest = [] then [] else c :: U.upToVariables rest := by
  rw [upToVariables]
  · cases U.upToVariables rest <;> rfl
  · rintro rest' rfl rfl
    exact h ⟨rfl, rfl⟩

/-- A text of one character has no variables. -/
theorem variablesIn_short {cs : List Char} (h : cs.length ≤ 1) :
    U.variablesIn cs = [] ∧ U.upToVariables cs = [] := by
  match cs, h with
  | [], _ => exact ⟨by rw [variablesIn], by rw [upToVariables]⟩
  | [c], _ =>
    have hnil : U.upToVariables [] = [] := by rw [upToVariables]
    rw [variablesIn_skip (by simp), upToVariables_skip (by simp), if_pos hnil]
    exact ⟨by rw [variablesIn], rfl⟩

/-- The variable at a position, and the text up to it and behind it. -/
theorem variable_at {i : Nat} (hfirst : query[i]? = some '@') (hsecond : query[i + 1]? = some '@') :
    ∃ name, query = query.take i ++ (name ++ query.drop (i + name.length)) ∧
      query.take (i + name.length) = query.take i ++ name ∧
      i + 2 + ((query.drop (i + 2)).takeWhile U.isVariableChar).length = i + name.length ∧
      (∃ rest, name = '@' :: '@' :: rest) ∧
      U.variablesIn (query.drop i) = name :: U.variablesIn (query.drop (i + name.length)) ∧
      U.upToVariables (query.drop i) =
        name ++ U.upToVariables (query.drop (i + name.length)) := by
  have hdrop : query.drop i = '@' :: '@' :: query.drop (i + 2) := by
    rw [List.drop_eq_getElem?_toList_append, hfirst, List.drop_eq_getElem?_toList_append, hsecond]
    rfl
  have hname : query.drop i =
      ('@' :: '@' :: (query.drop (i + 2)).takeWhile U.isVariableChar) ++
        (query.drop (i + 2)).dropWhile U.isVariableChar := by
    rw [List.cons_append, List.cons_append, List.takeWhile_append_dropWhile, hdrop]
  have hvariables := @variablesIn_at U (query.drop (i + 2))
  have hupTo := @upToVariables_at U (query.drop (i + 2))
  rw [← hdrop] at hvariables hupTo
  have hlength : ('@' :: '@' :: (query.drop (i + 2)).takeWhile U.isVariableChar).length =
      ((query.drop (i + 2)).takeWhile U.isVariableChar).length + 2 := rfl
  have hlong : ∃ rest, '@' :: '@' :: (query.drop (i + 2)).takeWhile U.isVariableChar =
      '@' :: '@' :: rest := ⟨_, rfl⟩
  generalize ('@' :: '@' :: (query.drop (i + 2)).takeWhile U.isVariableChar) = name at *
  have hbehind : query.drop (i + name.length) =
      (query.drop (i + 2)).dropWhile U.isVariableChar := by
    rw [← List.drop_drop, hname, List.drop_left]
  refine ⟨name, ?_, ?_, by omega, hlong, ?_, ?_⟩
  · rw [hbehind, ← hname, List.take_append_drop]
  · rw [List.take_add, hname, List.take_left]
  · rw [hbehind, hvariables]
  · rw [hbehind, hupTo]

theorem no_variable_at {i : Nat} (hlt : i < query.length)
    (h : ¬ (query[i]? = some '@' ∧ query[i + 1]? = some '@')) :
    U.variablesIn (query.drop i) = U.variablesIn (query.drop (i + 1)) ∧
      U.upToVariables (query.drop i) =
        if U.upToVariables (query.drop (i + 1)) = [] then []
        else query[i] :: U.upToVariables (query.drop (i + 1)) := by
  have hnone : ¬ (query[i] = '@' ∧ (query.drop (i + 1)).head? = some '@') := by
    rw [List.head?_drop]
    rintro ⟨hfirst, hsecond⟩
    exact h ⟨by rw [List.getElem?_eq_getElem hlt, hfirst], hsecond⟩
  rw [List.drop_eq_getElem_cons hlt, variablesIn_skip hnone, upToVariables_skip hnone]
  exact ⟨rfl, rfl⟩

/-- **The loop on ASCII text** finds the variables that are left. -/
theorem sysvarLoop_of_ascii {fuel i : Nat} (hfuel : query.length ≤ i + fuel)
    (h : U.upToVariables (query.drop i) = [] ∨
      ∀ c ∈ query.take i ++ U.upToVariables (query.drop i), c.toNat < 128) :
    U.sysvarLoop query fuel i = .ok ((U.variablesIn (query.drop i)).map fun name =>
      (String.ofList name, .text (U.variableValue name))) := by
  induction fuel generalizing i with
  | zero =>
    rw [(variablesIn_short (by rw [List.length_drop]; omega)).1]
    rfl
  | succ fuel ih =>
    rw [sysvarLoop]
    split
    · rename_i hlt
      split
      · rename_i hat
        obtain ⟨name, hquery, htake, hstop, ⟨tail, htail⟩, hvariables, hupTo⟩ :=
          @variable_at U query i hat.1 hat.2
        have hascii : ∀ c ∈ query.take (i + name.length) ++
            U.upToVariables (query.drop (i + name.length)), c.toNat < 128 := by
          rw [htake, List.append_assoc, ← hupTo]
          rcases h with hnil | hascii
          · rw [hupTo, List.append_eq_nil_iff] at hnil
            rw [hnil.1] at htail
            cases htail
          · exact hascii
        have hfront : ∀ c ∈ query.take i ++ name, c.toNat < 128 :=
          fun c hc => hascii c (List.mem_append_left _ (by rwa [htake]))
        have hlength : (query.take i).length = i := List.length_take_of_le (by omega)
        have hslice : slice query i (i + name.length) = .ok name := by
          refine slice_eq_ok_iff.mpr ⟨query.take i, _, hquery, ?_, ?_⟩
          · rw [byteLength_eq_length_iff.mpr fun c hc => hfront c (List.mem_append_left _ hc),
              hlength]
          · rw [byteLength_eq_length_iff.mpr hfront, List.length_append, hlength]
        have hrest := @ih (i + name.length) (by omega) (Or.inr hascii)
        simp only [hstop, hslice, hrest, Result.ok_bind, hvariables, List.map_cons]
        rfl
      · rename_i hnot
        obtain ⟨hvariables, hupTo⟩ := @no_variable_at U query i (by omega) hnot
        rw [hvariables]
        refine ih (by omega) ?_
        by_cases hnil : U.upToVariables (query.drop (i + 1)) = []
        · exact Or.inl hnil
        · rw [if_neg hnil] at hupTo
          rcases h with hempty | hascii
          · rw [hupTo] at hempty
            cases hempty
          · rw [hupTo] at hascii
            rw [List.take_add_one, List.getElem?_eq_getElem (by omega), List.append_assoc]
            exact Or.inr hascii
    · rw [(variablesIn_short (by rw [List.length_drop]; omega)).1]
      rfl

/-- **A slice at the offset of a position** that is the variable there: the text up to its end
is ASCII, or the variable also stands further in front. -/
theorem ascii_of_slice {i : Nat} {name tail : List Char}
    (hpassed : ∀ a, a < i → query[a]? = some '@' → query[a + 1]? = some '@' →
      ∀ c ∈ query.take a, c.toNat < 128)
    (htail : name = '@' :: '@' :: tail)
    (hslice : slice query i (i + name.length) = .ok name) :
    ∀ c ∈ query.take i ++ name, c.toNat < 128 := by
  obtain ⟨front, back, hquery, hfront, hlast⟩ := slice_eq_ok_iff.mp hslice
  have htake : query.take front.length = front := by rw [hquery, List.take_left]
  have hlength : front.length = i := by
    by_contra hne
    have hlt : front.length < i := Nat.lt_of_le_of_ne (hfront ▸ length_le_byteLength front) hne
    have hfirst : query[front.length]? = some '@' := by
      rw [hquery, htail, List.getElem?_append_right (Nat.le_refl _), Nat.sub_self]
      rfl
    have hsecond : query[front.length + 1]? = some '@' := by
      have hsub : front.length + 1 - front.length = 1 := by omega
      rw [hquery, htail, List.getElem?_append_right (Nat.le_add_right _ 1), hsub]
      rfl
    have hascii := hpassed front.length hlt hfirst hsecond
    rw [htake, ← byteLength_eq_length_iff] at hascii
    exact hne (hascii.symm.trans hfront)
  rw [← hlength, htake, ← byteLength_eq_length_iff, List.length_append, hlength, hlast]

/-- **What the loop finds** are the variables that are left only when the text up to the end of
the last one is ASCII: the first slice behind a longer character is cut too early. -/
theorem ascii_of_sysvarLoop {fuel i : Nat} {found : List (String × Value)}
    (hfuel : query.length ≤ i + fuel)
    (hpassed : ∀ a, a < i → query[a]? = some '@' → query[a + 1]? = some '@' →
      ∀ c ∈ query.take a, c.toNat < 128)
    (h : U.sysvarLoop query fuel i = .ok found)
    (hnames : found.map Prod.fst = (U.variablesIn (query.drop i)).map String.ofList) :
    U.upToVariables (query.drop i) = [] ∨
      ∀ c ∈ query.take i ++ U.upToVariables (query.drop i), c.toNat < 128 := by
  induction fuel generalizing i found with
  | zero => exact Or.inl (variablesIn_short (by rw [List.length_drop]; omega)).2
  | succ fuel ih =>
    rw [sysvarLoop] at h
    split at h
    · rename_i hlt
      split at h
      · rename_i hat
        obtain ⟨name, hquery, htake, hstop, ⟨tail, htail⟩, hvariables, hupTo⟩ :=
          @variable_at U query i hat.1 hat.2
        rw [hstop] at h
        obtain ⟨name', hslice, h⟩ := Result.bind_eq_ok.mp h
        obtain ⟨rest, hrest, h⟩ := Result.bind_eq_ok.mp h
        obtain rfl := Except.ok.inj h
        rw [hvariables, List.map_cons, List.map_cons, List.cons.injEq] at hnames
        obtain rfl : name' = name := String.ofList_injective hnames.1
        have hcut : ∀ c ∈ query.take (i + name'.length), c.toNat < 128 := by
          rw [htake]
          exact ascii_of_slice hpassed htail hslice
        have hpassed' : ∀ a, a < i + name'.length → query[a]? = some '@' →
            query[a + 1]? = some '@' → ∀ c ∈ query.take a, c.toNat < 128 :=
          fun a ha _ _ c hc => hcut c (List.take_subset_take_left query (Nat.le_of_lt ha) hc)
        have hnext := ih (by rw [htail]; simp only [List.length_cons]; omega)
          hpassed' hrest hnames.2
        rw [hupTo, ← List.append_assoc, ← htake]
        refine Or.inr ?_
        rcases hnext with hnil | hascii
        · rw [hnil, List.append_nil]
          exact hcut
        · exact hascii
      · rename_i hnot
        obtain ⟨hvariables, hupTo⟩ := @no_variable_at U query i (by omega) hnot
        rw [hvariables] at hnames
        have hpassed' : ∀ a, a < i + 1 → query[a]? = some '@' → query[a + 1]? = some '@' →
            ∀ c ∈ query.take a, c.toNat < 128 := by
          intro a ha hfirst hsecond
          rcases Nat.lt_succ_iff_lt_or_eq.mp ha with ha | rfl
          · exact hpassed a ha hfirst hsecond
          · exact absurd ⟨hfirst, hsecond⟩ hnot
        rw [hupTo]
        rcases ih (by omega) hpassed' h hnames with hnil | hascii
        · exact Or.inl (if_pos hnil)
        · by_cases hnil : U.upToVariables (query.drop (i + 1)) = []
          · exact Or.inl (if_pos hnil)
          · rw [List.take_add_one, List.getElem?_eq_getElem (by omega), List.append_assoc] at hascii
            rw [if_neg hnil]
            exact Or.inr hascii
    · rename_i hge
      exact Or.inl (variablesIn_short (by rw [List.length_drop]; omega)).2

/-! ## The answer -/

theorem hasValue_variableValue (name : List Char) :
    U.HasValue name (.text (U.variableValue name)) := by
  rw [HasValue, variableValue]
  cases hfind : knownVars.find? fun known =>
      U.toLowercase known.1.toList == U.toLowercase name with
  | none =>
    rw [List.find?_eq_none] at hfind
    exact Or.inr ⟨fun known hknown => by simpa using hfind known hknown, rfl⟩
  | some known =>
    have hsame := List.find?_some hfind
    exact Or.inl ⟨known, List.mem_of_find?_eq_some hfind, by simpa using hsame, rfl⟩

theorem upToVariables_eq_nil_iff : U.upToVariables query = [] ↔ U.variablesIn query = [] := by
  induction query with
  | nil => simp only [@variablesIn_short U [] (by simp)]
  | cons c rest ih =>
    by_cases hat : c = '@' ∧ rest.head? = some '@'
    · obtain ⟨rfl, hhead⟩ := hat
      obtain ⟨rest', rfl⟩ := List.head?_eq_some_iff.mp hhead
      rw [variablesIn_at, upToVariables_at]
      exact ⟨nofun, nofun⟩
    · rw [variablesIn_skip hat, upToVariables_skip hat, ← ih]
      by_cases hnil : U.upToVariables rest = []
      · rw [if_pos hnil, hnil]
      · rw [if_neg hnil]
        exact ⟨nofun, fun h => absurd h hnil⟩

/-- The scan answers with what the loop found, or with a column for an unknown variable. -/
theorem handleSysvarQuery_eq_ok {columns : List String} {values : List Value}
    (h : U.handleSysvarQuery query = .ok (.select ⟨columns, [values]⟩)) :
    ∃ found, U.sysvarLoop query query.length 0 = .ok found ∧
      (found = [] ∧ columns = ["@@unknown"] ∨ found ≠ [] ∧ columns = found.map Prod.fst) := by
  rw [handleSysvarQuery] at h
  cases hfound : U.sysvarLoop query query.length 0 with
  | error fault =>
    rw [hfound] at h
    cases h
  | ok found =>
    rw [hfound] at h
    refine ⟨found, rfl, ?_⟩
    by_cases hnil : found = []
    · subst hnil
      cases h
      exact Or.inl ⟨rfl, rfl⟩
    · simp only [Except.map, if_neg hnil] at h
      cases h
      exact Or.inr ⟨hnil, rfl⟩

/-- The loop that finds nothing has passed no variable. -/
theorem variablesIn_eq_nil_of_sysvarLoop {fuel i : Nat} (hfuel : query.length ≤ i + fuel)
    (h : U.sysvarLoop query fuel i = .ok []) : U.variablesIn (query.drop i) = [] := by
  induction fuel generalizing i with
  | zero => exact (variablesIn_short (by rw [List.length_drop]; omega)).1
  | succ fuel ih =>
    rw [sysvarLoop] at h
    split at h
    · split at h
      · obtain ⟨name, _, h⟩ := Result.bind_eq_ok.mp h
        obtain ⟨rest, _, h⟩ := Result.bind_eq_ok.mp h
        cases h
      · rename_i hnot
        rw [(no_variable_at (by omega) hnot).1]
        exact ih (by omega) h
    · exact (variablesIn_short (by rw [List.length_drop]; omega)).1

/-- **The answer** has a column for each occurrence of a variable, named by it and with its
value, exactly when there is an occurrence and the characters up to the end of the last one
are ASCII. -/
theorem variables_scanned_iff (U : Unicode) (query : List Char) :
    U.Scanned query ↔
      U.variablesIn query ≠ [] ∧ ∀ c ∈ U.upToVariables query, c.toNat < 128 := by
  constructor
  · rintro ⟨values, hanswer, -⟩
    obtain ⟨found, hfound, hcolumns⟩ := handleSysvarQuery_eq_ok hanswer
    have hne : U.variablesIn query ≠ [] := by
      intro hnone
      rw [hnone] at hcolumns
      rcases hcolumns with ⟨-, hunknown⟩ | ⟨hfound, hnames⟩
      · cases hunknown
      · exact hfound (List.map_eq_nil_iff.mp hnames.symm)
    refine ⟨hne, ?_⟩
    rcases hcolumns with ⟨rfl, -⟩ | ⟨-, hnames⟩
    · exact absurd (@variablesIn_eq_nil_of_sysvarLoop U query _ 0 (by omega) hfound) hne
    · rcases @ascii_of_sysvarLoop U query _ 0 _ (by omega) nofun hfound hnames.symm with
        hnil | hascii
      · exact absurd (upToVariables_eq_nil_iff.mp hnil) hne
      · exact hascii
  · rintro ⟨hne, hascii⟩
    have hfound := @sysvarLoop_of_ascii U query query.length 0 (by omega) (Or.inr hascii)
    refine ⟨(U.variablesIn query).map fun name => .text (U.variableValue name), ?_, ?_⟩
    · rw [handleSysvarQuery, hfound]
      simp only [List.drop_zero, Except.map, List.map_eq_nil_iff, if_neg hne, List.map_map]
      rfl
    · rw [List.forall₂_map_right_iff, List.forall₂_same]
      exact fun name _ => hasValue_variableValue name

/-- A character of three bytes in front of the variable: the offset is inside of it, and the
slice panics.  Behind a letter of two bytes the name is cut out too early. -/
theorem euro_sign_panics :
    ¬ asciiUnicode.Scanned "SELECT '€@@version'".toList ∧
      asciiUnicode.handleSysvarQuery "SELECT '€@@version'".toList = .error .panic ∧
      asciiUnicode.handleSysvarQuery "SELECT 'é', @@version".toList =
        .ok (.select ⟨[" @@versio"], [[.text ""]]⟩) := by
  have hpanic : asciiUnicode.handleSysvarQuery "SELECT '€@@version'".toList = .error .panic := by
    rfl
  refine ⟨?_, hpanic, by rfl⟩
  rintro ⟨values, hanswer, -⟩
  rw [hpanic] at hanswer
  cases hanswer

end Unicode

end Wire
end RustyDB
