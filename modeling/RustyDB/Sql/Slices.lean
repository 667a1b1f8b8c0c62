import Mathlib
import RustyDB.Sql.Parser

/-!
# The slices of the parser

`parse_rustydb_extension` reads a statement by slicing its text at byte offsets, and a
slice panics inside a character.  Here each slice, and each indexing of the words, is an
operation that can panic.

* `Sliced.parseRustydbExtension` — the function of `src/sql/parser.rs`, slice by slice.
* `Sliced.parseRustydbExtension_eq` — **it reads what the parser model reads.**
* `Sliceable` — the keywords a text is tested for end between its characters.
* `parse_never_panics` — **a text is parsed without a panic exactly when it is sliceable.**
-/

namespace RustyDB
namespace Sql

open LineFile Text

/-! ## Slices and indices -/

/-- `text[..n]`. -/
def sliceTo (n : Nat) (text : List Char) : Except Fault (List Char) :=
  match splitAtByte n text with
  | some halves => .ok halves.1
  | none => .error .panic

/-- `text[n..]`. -/
def sliceFrom (n : Nat) (text : List Char) : Except Fault (List Char) :=
  match splitAtByte n text with
  | some halves => .ok halves.2
  | none => .error .panic

/-- `text[first..last]`. -/
def slice (first last : Nat) (text : List Char) : Except Fault (List Char) :=
  sliceTo last text >>= sliceFrom first

/-- `words[i].eq_ignore_ascii_case(keyword)`. -/
def wordIs (words : List (List Char)) (i : Nat) (keyword : String) : Except Fault Bool :=
  match words[i]? with
  | some word => .ok (eqIgnoreCase word keyword.toList)
  | none => .error .panic

/-- `a && b`: the second operand is read when the first is true. -/
def andAlso (a b : Except Fault Bool) : Except Fault Bool :=
  a >>= fun holds => if holds then b else .ok false

/-- `a || b`: the second operand is read when the first is false. -/
def orElse (a b : Except Fault Bool) : Except Fault Bool :=
  a >>= fun holds => if holds then .ok true else b

theorem sliceTo_append (left right : List Char) :
    sliceTo (byteLength left) (left ++ right) = .ok left := by
  rw [sliceTo, splitAtByte_byteLength]

theorem sliceFrom_append (left right : List Char) :
    sliceFrom (byteLength left) (left ++ right) = .ok right := by
  rw [sliceFrom, splitAtByte_byteLength]

theorem wordIs_eq {words : List (List Char)} {i : Nat} (h : i < words.length)
    (keyword : String) : wordIs words i keyword = .ok (isWord keyword words[i]?) := by
  rw [wordIs, List.getElem?_eq_getElem h]
  rfl

theorem andAlso_ok {a b : Bool} {second : Except Fault Bool}
    (h : a = true → second = .ok b) : andAlso (.ok a) second = .ok (a && b) := by
  cases a with
  | true => exact h rfl
  | false => rfl

theorem orElse_ok (a b : Bool) : orElse (.ok a) (.ok b) = .ok (a || b) := by
  cases a <;> rfl

/-! ## The statements, slice by slice -/

namespace Sliced

/-- `sql.len() >= keyword.len() && sql[..keyword.len()].eq_ignore_ascii_case(keyword)`. -/
def hasKeyword (keyword : String) (sql : List Char) : Except Fault Bool :=
  andAlso (.ok (decide (keyword.toList.length ≤ byteLength sql)))
    ((sliceTo keyword.toList.length sql).map fun head => eqIgnoreCase head keyword.toList)

/-- `parse_quoted_string`. -/
def parseQuotedString (value : List Char) : Except Fault String :=
  let value := Text.trim value
  if byteLength value < 2 || value.head? != some '\'' || value.getLast? != some '\'' then
    .error (.error "Expected a single-quoted SQL string")
  else
    (slice 1 (byteLength value - 1) value).map fun text => String.ofList (replaceQuotes text)

/-- `parse_user_literal`. -/
def parseUserLiteral (parseF64 : List Char → Option F64) (value : List Char) :
    Except Fault Value :=
  if eqIgnoreCase value "NULL".toList then .ok .null
  else if eqIgnoreCase value "TRUE".toList then .ok (.boolean true)
  else if eqIgnoreCase value "FALSE".toList then .ok (.boolean false)
  else if value.head? = some '\'' then (parseQuotedString value).map .text
  else
    let number : Option Value :=
      if value.any fun c => c == '.' || c == 'e' || c == 'E' then (parseF64 value).map .float
      else (parseI64 value).map .integer
    match number with
    | some value => .ok value
    | none => .error (.error "SET user variables require a literal value")

/-- `mysql_drop_constraint`. -/
def isDropConstraint (words : List (List Char)) : Except Fault Bool :=
  andAlso (.ok (decide (words.length ≥ 6))) <|
  andAlso (wordIs words 0 "ALTER") <|
  andAlso (wordIs words 1 "TABLE") <|
  andAlso (wordIs words 3 "DROP") <|
  orElse
    (andAlso (.ok (words.length == 7)) <|
      andAlso (wordIs words 4 "FOREIGN") (wordIs words 5 "KEY"))
    (andAlso (.ok (words.length == 6)) <|
      orElse (wordIs words 4 "CHECK") (wordIs words 4 "INDEX"))

/-- `ALTER TABLE t DROP FOREIGN KEY c`, `DROP CHECK c` and `DROP INDEX c`. -/
def parseDropConstraint (words : List (List Char)) : Except Fault (Option Statement) :=
  isDropConstraint words >>= fun drops =>
    if drops then
      match words[2]?, words.getLast? with
      | some tableName, some name =>
        .ok (some (.alterTable (cleanIdentifier tableName)
          [.dropConstraint (cleanIdentifier name) false]))
      | _, _ => .error .panic
    else .ok none

/-- `SET @name = literal`. -/
def parseSetVariable (parseF64 : List Char → Option F64) (sql : List Char) :
    Except Fault (Option Statement) := do
  if ← hasKeyword "SET " sql then
    let rest ← sliceFrom 4 sql
    match splitOnce '=' (Text.trim rest) with
    | none => .ok none
    | some (name, value) =>
      if (Text.trim name).head? = some '@' then
        (parseUserLiteral parseF64 (Text.trim value)).map fun value =>
          some (.setVariable (cleanVariable name) value)
      else .ok none
  else .ok none

/-- `PREPARE name FROM source`: the offset is found in the capitals of the text and cuts
the text itself. -/
def parsePrepare (sql : List Char) : Except Fault (Option Statement) := do
  if ← hasKeyword "PREPARE " sql then
    let rest := Text.trim (← sliceFrom 8 sql)
    match find " FROM ".toList (rest.map Char.toUpper) with
    | none => .error (.error "PREPARE requires FROM")
    | some offset =>
      let name ← sliceTo offset rest
      let source ← sliceFrom (offset + 6) rest
      let source := Text.trim source
      if source.head? = some '@' then
        .ok (some (.prepare (cleanIdentifier (Text.trim name)) (.variable (cleanVariable source))))
      else
        (parseQuotedString source).map fun text =>
          some (.prepare (cleanIdentifier (Text.trim name)) (.sql text))
  else .ok none

/-- `EXECUTE name` and `EXECUTE name USING variables`. -/
def parseExecute (sql : List Char) : Except Fault (Option Statement) := do
  if ← hasKeyword "EXECUTE " sql then
    let rest := Text.trim (← sliceFrom 8 sql)
    match find " USING ".toList (rest.map Char.toUpper) with
    | none => .ok (some (.executePrepared (cleanIdentifier rest) []))
    | some offset =>
      let name ← sliceTo offset rest
      let names ← sliceFrom (offset + 7) rest
      .ok (some (.executePrepared (cleanIdentifier name) ((names.splitOn ',').map cleanVariable)))
  else .ok none

/-- `DEALLOCATE PREPARE name` and `DROP PREPARE name`. -/
def parseDeallocate (keyword : String) (sql : List Char) : Except Fault (Option Statement) := do
  if ← hasKeyword keyword sql then
    let name ← sliceFrom keyword.toList.length sql
    .ok (some (.deallocatePrepared (cleanIdentifier name)))
  else .ok none

/-- `SHOW INDEXES FROM t` and its variants. -/
def parseShowIndexes (words : List (List Char)) : Except Fault (Option Statement) := do
  let shows ←
    andAlso (.ok (decide (words.length ≥ 3))) <|
    andAlso (wordIs words 0 "SHOW") <|
    andAlso
      (orElse (wordIs words 1 "INDEX") (orElse (wordIs words 1 "INDEXES") (wordIs words 1 "KEYS")))
      (orElse (wordIs words 2 "FROM") (wordIs words 2 "ON"))
  if shows then
    match words[3]? with
    | none => .error (.error "SHOW INDEXES requires a table name")
    | some tableName => .ok (some (.showIndexes (cleanIdentifier tableName)))
  else .ok none

/-- `DROP INDEX name ON t` and `DROP INDEX IF EXISTS name ON t`. -/
def parseDropIndex (words : List (List Char)) : Except Fault (Option Statement) := do
  let drops ←
    andAlso (.ok (decide (words.length ≥ 5))) <|
    andAlso (wordIs words 0 "DROP") (wordIs words 1 "INDEX")
  if drops then
    let ifExists := isWord "IF" words[2]? && isWord "EXISTS" words[3]?
    let offset := if ifExists then 4 else 2
    match words[offset]? with
    | none => .error (.error "DROP INDEX requires an index name")
    | some name =>
      if isWord "ON" words[offset + 1]? then
        match words[offset + 2]? with
        | none => .error (.error "DROP INDEX requires ON <table>")
        | some tableName =>
          .ok (some (.dropIndex (cleanIdentifier name) (cleanIdentifier tableName) ifExists))
      else .ok none
  else .ok none

/-- `parse_rustydb_extension`. -/
def parseRustydbExtension (parseF64 : List Char → Option F64) (sql : List Char) :
    Except Fault (Option Statement) :=
  let words := splitWhitespace sql
  firstStatement [parseDropConstraint words, parseSetVariable parseF64 sql,
    parsePrepare sql, parseExecute sql, parseDeallocate "DEALLOCATE PREPARE " sql,
    parseDeallocate "DROP PREPARE " sql, parseShowIndexes words, parseDropIndex words]

/-- `parse_sql`. -/
def parseSql (P : SqlParser) (input : String) : Except Fault Statement := do
  let trimmed := (normalizeSql input).toList
  if trimmed = [] then .error (.error "Empty statement")
  else
    match ← parseRustydbExtension P.parseF64 trimmed with
    | some statement => .ok statement
    | none =>
      match P.parse trimmed with
      | .error error => .error (.error error)
      | .ok [statement] => (P.convertStatement statement).map assignParameters
      | .ok _ => .error (.error "Expected exactly one SQL statement")

/-! ## What the slices read -/

/-- A keyword that is tested for and cut off is stripped. -/
theorem hasKeyword_bind (keyword : String) (sql : List Char)
    (next : List Char → Except Fault (Option Statement)) :
    (hasKeyword keyword sql >>= fun has =>
        if has then sliceFrom keyword.toList.length sql >>= next else .ok none) =
      stripKeyword keyword.toList sql >>= fun
        | none => .ok none
        | some rest => next rest := by
  rw [stripKeyword, hasKeyword, sliceTo, sliceFrom]
  by_cases hlength : byteLength sql < keyword.toList.length
  · rw [if_pos hlength, decide_eq_false (not_le.mpr hlength)]
    rfl
  · rw [if_neg hlength, decide_eq_true (not_lt.mp hlength)]
    cases hcut : splitAtByte keyword.toList.length sql with
    | none => rfl
    | some halves =>
      obtain ⟨head, rest⟩ := halves
      cases hword : eqIgnoreCase head keyword.toList <;> simp [andAlso, Except.map, hword]

/-- The quotes of a literal have one byte each, so that the slice between them is what
lies between its first and its last character. -/
theorem slice_quoted (middle : List Char) :
    slice 1 (byteLength ('\'' :: (middle ++ ['\''])) - 1) ('\'' :: (middle ++ ['\''])) =
      .ok middle := by
  have hlength : byteLength ('\'' :: (middle ++ ['\''])) - 1 = byteLength ('\'' :: middle) := by
    rw [byteLength_cons, byteLength_cons, byteLength_append]
    show _ + (byteLength middle + 1) - 1 = _
    omega
  have hto : sliceTo (byteLength ('\'' :: middle)) (('\'' :: middle) ++ ['\'']) =
      .ok ('\'' :: middle) := sliceTo_append _ _
  have hfrom : sliceFrom 1 (['\''] ++ middle) = .ok middle := sliceFrom_append ['\''] middle
  rw [slice, hlength]
  rw [List.cons_append] at hto
  rw [hto]
  exact hfrom

theorem parseQuotedString_eq (value : List Char) :
    parseQuotedString value = Sql.parseQuotedString value := by
  rw [parseQuotedString, Sql.parseQuotedString]
  generalize Text.trim value = text
  by_cases hquotes : text.head? = some '\'' ∧ text.getLast? = some '\''
  · obtain ⟨hhead, hlast⟩ := hquotes
    obtain ⟨rest, rfl⟩ := List.head?_eq_some_iff.mp hhead
    rcases List.eq_nil_or_concat' rest with rfl | ⟨middle, last, rfl⟩
    · rfl
    · obtain rfl : last = '\'' := by
        rw [← List.cons_append, List.getLast?_concat] at hlast
        exact Option.some.inj hlast
      have hlong : ¬byteLength ('\'' :: (middle ++ ['\''])) < 2 := by
        rw [byteLength_cons, byteLength_append]
        show ¬1 + (byteLength middle + 1) < 2
        omega
      have hmany : ¬('\'' :: (middle ++ ['\''])).length < 2 := by simp
      simp only [slice_quoted, hhead, hlast, hlong, hmany, decide_false, bne_self_eq_false,
        Bool.or_self, Bool.false_eq_true, if_false, List.tail_cons, List.dropLast_concat]
      rfl
  · have hother : ∀ short : Bool,
        (short || text.head? != some '\'' || text.getLast? != some '\'') = true := by
      intro short
      rw [not_and_or] at hquotes
      rcases hquotes with h | h
      · rw [bne_iff_ne.mpr h, Bool.or_true, Bool.true_or]
      · rw [bne_iff_ne.mpr h, Bool.or_true]
    rw [if_pos (hother _), if_pos (hother _)]

theorem parseUserLiteral_eq (parseF64 : List Char → Option F64) (value : List Char) :
    parseUserLiteral parseF64 value = Sql.parseUserLiteral parseF64 value := by
  rewrite [parseUserLiteral, Sql.parseUserLiteral, parseQuotedString_eq]
  rfl

theorem isDropConstraint_eq (words : List (List Char)) :
    isDropConstraint words = .ok (words.length ≥ 6 && (isWord "ALTER" words[0]? &&
      (isWord "TABLE" words[1]? && (isWord "DROP" words[3]? &&
      ((words.length == 7 && (isWord "FOREIGN" words[4]? && isWord "KEY" words[5]?)) ||
        (words.length == 6 && (isWord "CHECK" words[4]? || isWord "INDEX" words[4]?))))))) := by
  refine andAlso_ok fun hlength => ?_
  have hlength : 6 ≤ words.length := of_decide_eq_true hlength
  rw [wordIs_eq (by omega), wordIs_eq (by omega), wordIs_eq (by omega), wordIs_eq (by omega),
    wordIs_eq (by omega), wordIs_eq (by omega), wordIs_eq (by omega), orElse_ok,
    andAlso_ok fun _ => rfl, andAlso_ok fun _ => rfl, andAlso_ok fun _ => rfl, orElse_ok,
    andAlso_ok fun _ => rfl, andAlso_ok fun _ => rfl, andAlso_ok fun _ => rfl]

theorem parseDropConstraint_eq (words : List (List Char)) :
    parseDropConstraint words = .ok (Sql.parseDropConstraint words) := by
  rw [parseDropConstraint, isDropConstraint_eq, Sql.parseDropConstraint, Result.ok_bind]
  simp only [Bool.and_assoc]
  by_cases hdrops : (decide (words.length ≥ 6) && (isWord "ALTER" words[0]? &&
      (isWord "TABLE" words[1]? && (isWord "DROP" words[3]? &&
      ((words.length == 7 && (isWord "FOREIGN" words[4]? && isWord "KEY" words[5]?)) ||
        (words.length == 6 && (isWord "CHECK" words[4]? || isWord "INDEX" words[4]?))))))) = true
  · rw [if_pos hdrops, if_pos hdrops]
    have hlength : 6 ≤ words.length := of_decide_eq_true (Bool.and_eq_true_iff.mp hdrops).1
    have hne : words ≠ [] := List.ne_nil_of_length_pos (by omega)
    rw [List.getElem?_eq_getElem (by omega : 2 < words.length), List.getLast?_eq_some_getLast hne]
    rfl
  · rw [if_neg hdrops, if_neg hdrops]

theorem parseSetVariable_eq (parseF64 : List Char → Option F64) (sql : List Char) :
    parseSetVariable parseF64 sql = Sql.parseSetVariable parseF64 sql := by
  rw [parseSetVariable, Sql.parseSetVariable]
  refine (hasKeyword_bind "SET " sql _).trans ?_
  refine congrArg (stripKeyword "SET ".toList sql >>= ·) (funext fun rest => ?_)
  cases rest with
  | none => rfl
  | some rest =>
    rewrite [funext (parseUserLiteral_eq parseF64)]
    rfl

/-- What was found in the capitals of a text cuts the text where the keyword is. -/
theorem cut_at_find (keyword : String)
    (hkeyword : ∀ k ∈ keyword.toList, k.toUpper = k ∧ k.toNat < 128) (text : List Char)
    (absent : Except Fault (Option Statement))
    (next : List Char → List Char → Except Fault (Option Statement)) :
    (match find keyword.toList (text.map Char.toUpper) with
      | none => absent
      | some offset => sliceTo offset text >>= fun left =>
        sliceFrom (offset + keyword.toList.length) text >>= fun right => next left right) =
      match splitOnceIgnoreCase keyword.toList text with
      | none => absent
      | some (left, right) => next left right := by
  rw [find_toUpper fun k hk => (hkeyword k hk).1]
  cases hcut : splitOnceIgnoreCase keyword.toList text with
  | none => rfl
  | some halves =>
    obtain ⟨left, right⟩ := halves
    obtain ⟨found, rfl, hfound⟩ := splitOnceIgnoreCase_eq_some hcut
    have hto : sliceTo (byteLength left) (left ++ found ++ right) = .ok left := by
      rw [List.append_assoc]
      exact sliceTo_append left _
    have hfrom : sliceFrom (byteLength left + keyword.toList.length) (left ++ found ++ right) =
        .ok right := by
      rw [← byteLength_of_eqIgnoreCase (fun k hk => (hkeyword k hk).2) hfound, ← byteLength_append]
      exact sliceFrom_append _ right
    show (sliceTo (byteLength left) (left ++ found ++ right) >>= fun left' =>
      sliceFrom (byteLength left + keyword.toList.length) (left ++ found ++ right) >>=
        fun right' => next left' right') = next left right
    rw [hto, Result.ok_bind, hfrom, Result.ok_bind]

theorem parsePrepare_eq (sql : List Char) : parsePrepare sql = Sql.parsePrepare sql := by
  rw [parsePrepare, Sql.parsePrepare]
  refine (hasKeyword_bind "PREPARE " sql _).trans ?_
  refine congrArg (stripKeyword "PREPARE ".toList sql >>= ·) (funext fun rest => ?_)
  cases rest with
  | none => rfl
  | some rest =>
    simp only [parseQuotedString_eq]
    exact cut_at_find " FROM " (by simp [Char.toUpper]) _ _ _

theorem parseExecute_eq (sql : List Char) : parseExecute sql = Sql.parseExecute sql := by
  rw [parseExecute, Sql.parseExecute]
  refine (hasKeyword_bind "EXECUTE " sql _).trans ?_
  refine congrArg (stripKeyword "EXECUTE ".toList sql >>= ·) (funext fun rest => ?_)
  cases rest with
  | none => rfl
  | some rest => exact cut_at_find " USING " (by simp [Char.toUpper]) _ _ _

theorem parseDeallocate_eq (keyword : String) (sql : List Char) :
    parseDeallocate keyword sql = Sql.parseDeallocate keyword sql := by
  rw [parseDeallocate, Sql.parseDeallocate]
  exact hasKeyword_bind keyword sql _

theorem parseShowIndexes_eq (words : List (List Char)) :
    parseShowIndexes words = Sql.parseShowIndexes words := by
  have hwords : (andAlso (.ok (decide (words.length ≥ 3))) <|
      andAlso (wordIs words 0 "SHOW") <|
      andAlso
        (orElse (wordIs words 1 "INDEX")
          (orElse (wordIs words 1 "INDEXES") (wordIs words 1 "KEYS")))
        (orElse (wordIs words 2 "FROM") (wordIs words 2 "ON"))) =
      .ok (words.length ≥ 3 && isWord "SHOW" words[0]? &&
        (isWord "INDEX" words[1]? || isWord "INDEXES" words[1]? || isWord "KEYS" words[1]?) &&
        (isWord "FROM" words[2]? || isWord "ON" words[2]?)) := by
    simp only [Bool.and_assoc, Bool.or_assoc]
    refine andAlso_ok fun hlength => ?_
    have hlength : 3 ≤ words.length := of_decide_eq_true hlength
    rw [wordIs_eq (by omega), wordIs_eq (by omega), wordIs_eq (by omega), wordIs_eq (by omega),
      wordIs_eq (by omega), wordIs_eq (by omega), orElse_ok, orElse_ok, orElse_ok,
      andAlso_ok fun _ => rfl, andAlso_ok fun _ => rfl]
  rewrite [parseShowIndexes, hwords, Sql.parseShowIndexes, Result.ok_bind]
  rfl

theorem parseDropIndex_eq (words : List (List Char)) :
    parseDropIndex words = Sql.parseDropIndex words := by
  have hwords : (andAlso (.ok (decide (words.length ≥ 5))) <|
      andAlso (wordIs words 0 "DROP") (wordIs words 1 "INDEX")) =
      .ok (words.length ≥ 5 && isWord "DROP" words[0]? && isWord "INDEX" words[1]?) := by
    rw [Bool.and_assoc]
    refine andAlso_ok fun hlength => ?_
    have hlength : 5 ≤ words.length := of_decide_eq_true hlength
    rw [wordIs_eq (by omega), wordIs_eq (by omega), andAlso_ok fun _ => rfl]
  rewrite [parseDropIndex, hwords, Sql.parseDropIndex, Result.ok_bind]
  rfl

/-- **The function read slice by slice is the parser model.** -/
theorem parseRustydbExtension_eq (parseF64 : List Char → Option F64) (sql : List Char) :
    parseRustydbExtension parseF64 sql = Sql.parseRustydbExtension parseF64 sql := by
  rw [parseRustydbExtension, Sql.parseRustydbExtension, parseDropConstraint_eq,
    parseSetVariable_eq, parsePrepare_eq, parseExecute_eq, parseDeallocate_eq,
    parseDeallocate_eq, parseShowIndexes_eq, parseDropIndex_eq]

theorem parseSql_eq (P : SqlParser) (input : String) : parseSql P input = P.parseSql input := by
  rewrite [parseSql, SqlParser.parseSql, parseRustydbExtension_eq]
  rfl

end Sliced

/-! ## Where a slice panics -/

/-- A text that has `n` bytes has them in whole characters. -/
def OnBoundary (n : Nat) (sql : List Char) : Prop :=
  n ≤ byteLength sql → ∃ head tail, head ++ tail = sql ∧ byteLength head = n

/-- The text is `SET @name = …`. -/
def SetsVariable (sql : List Char) : Prop :=
  ∃ keyword rest name value, keyword ++ rest = sql ∧ eqIgnoreCase keyword "SET ".toList = true ∧
    splitOnce '=' (Text.trim rest) = some (name, value) ∧ (Text.trim name).head? = some '@'

/-- The keywords a text is tested for end between its characters, up to the test that
settles what the statement is. -/
def Sliceable (sql : List Char) : Prop :=
  Sliced.isDropConstraint (splitWhitespace sql) = .ok true ∨
    OnBoundary 4 sql ∧ (SetsVariable sql ∨
      OnBoundary 8 sql ∧ (BeginsWith "PREPARE " sql ∨ BeginsWith "EXECUTE " sql ∨
        OnBoundary 19 sql ∧ (BeginsWith "DEALLOCATE PREPARE " sql ∨ OnBoundary 13 sql)))

section Panics

variable {parseF64 : List Char → Option F64} {sql : List Char}

theorem splitAtByte_eq_none {n : Nat} (hlong : n ≤ byteLength sql) :
    splitAtByte n sql = none ↔ ¬OnBoundary n sql := by
  constructor
  · intro hnone hboundary
    obtain ⟨head, tail, rfl, rfl⟩ := hboundary hlong
    rw [splitAtByte_byteLength] at hnone
    cases hnone
  · intro hboundary
    by_contra hsome
    obtain ⟨⟨head, tail⟩, hcut⟩ := Option.ne_none_iff_exists'.mp hsome
    exact hboundary fun _ => ⟨head, tail, splitAtByte_eq_some.mp hcut⟩

theorem stripKeyword_panics (keyword : List Char) :
    stripKeyword keyword sql = .error .panic ↔ ¬OnBoundary keyword.length sql := by
  rw [stripKeyword]
  split_ifs with hshort
  · constructor
    · intro h
      cases h
    · intro hboundary
      exact absurd (fun hlong => absurd hlong (not_le.mpr hshort)) hboundary
  · rw [← splitAtByte_eq_none (not_lt.mp hshort)]
    cases splitAtByte keyword.length sql with
    | none => exact iff_of_true rfl rfl
    | some halves => exact iff_of_false (fun h => by cases h) (fun h => by cases h)

/-- A keyword that a text begins with is stripped. -/
theorem stripKeyword_append {keyword : String} (hascii : ∀ k ∈ keyword.toList, k.toNat < 128)
    {word rest : List Char} (hword : eqIgnoreCase word keyword.toList = true) :
    stripKeyword keyword.toList (word ++ rest) = .ok (some rest) := by
  have hlength := byteLength_of_eqIgnoreCase hascii hword
  rw [stripKeyword, if_neg (by rw [byteLength_append]; omega), ← hlength, splitAtByte_byteLength]
  simp only [hword, if_true]

theorem stripKeyword_eq_none {keyword : String} (hascii : ∀ k ∈ keyword.toList, k.toNat < 128) :
    stripKeyword keyword.toList sql = .ok none ↔
      OnBoundary keyword.toList.length sql ∧ ¬BeginsWith keyword sql := by
  constructor
  · intro hnone
    refine ⟨?_, ?_⟩
    · by_contra hboundary
      rw [(stripKeyword_panics keyword.toList).mpr hboundary] at hnone
      cases hnone
    · rintro ⟨word, ⟨rest, rfl⟩, hword⟩
      rw [stripKeyword_append hascii hword] at hnone
      cases hnone
  · rintro ⟨hboundary, hbegins⟩
    cases hstrip : stripKeyword keyword.toList sql with
    | ok read =>
      cases read with
      | none => rfl
      | some rest => exact absurd (beginsWith_of_stripKeyword hstrip) hbegins
    | error fault =>
      cases fault with
      | panic => exact absurd hboundary ((stripKeyword_panics keyword.toList).mp hstrip)
      | error message =>
        rw [stripKeyword] at hstrip
        split_ifs at hstrip
        split at hstrip <;> cases hstrip

theorem stripKeyword_bind_panics (keyword : List Char)
    {next : Option (List Char) → Except Fault (Option Statement)}
    (hnext : ∀ read, next read ≠ .error .panic) :
    stripKeyword keyword sql >>= next = .error .panic ↔ ¬OnBoundary keyword.length sql := by
  rw [← stripKeyword_panics keyword]
  cases stripKeyword keyword sql with
  | error fault =>
    show Except.error fault = Except.error Fault.panic ↔ _
    rw [Except.error.injEq, Except.error.injEq]
  | ok read => exact iff_of_false (hnext read) nofun

theorem stripKeyword_bind_none {keyword : String}
    (hascii : ∀ k ∈ keyword.toList, k.toNat < 128)
    {next : Option (List Char) → Except Fault (Option Statement)} (hnone : next none = .ok none)
    (hsome : ∀ rest, next (some rest) ≠ .ok none) :
    stripKeyword keyword.toList sql >>= next = .ok none ↔
      OnBoundary keyword.toList.length sql ∧ ¬BeginsWith keyword sql := by
  rw [← stripKeyword_eq_none hascii]
  cases stripKeyword keyword.toList sql with
  | error fault => exact iff_of_false nofun nofun
  | ok read =>
    cases read with
    | none => exact iff_of_true hnone rfl
    | some rest => exact iff_of_false (hsome rest) nofun

theorem firstStatement_panics {reading : Except Fault (Option Statement)}
    {readings : List (Except Fault (Option Statement))} :
    firstStatement (reading :: readings) = .error .panic ↔
      reading = .error .panic ∨ reading = .ok none ∧ firstStatement readings = .error .panic := by
  rw [firstStatement]
  cases reading with
  | error fault =>
    show Except.error fault = Except.error Fault.panic ↔ _
    exact ⟨Or.inl, fun h => h.elim id nofun⟩
  | ok read =>
    cases read with
    | none => exact ⟨fun h => Or.inr ⟨rfl, h⟩, fun h => h.elim nofun And.right⟩
    | some read => exact iff_of_false nofun fun h => h.elim nofun nofun

theorem map_ne_panic {α β : Type} {x : Except Fault α} {f : α → β} (h : x ≠ .error .panic) :
    x.map f ≠ .error .panic := by
  cases x with
  | ok a => exact nofun
  | error fault =>
    intro heq
    exact h (congrArg Except.error (Except.error.inj heq))

theorem map_ne_none {α β : Type} {x : Except Fault α} {f : α → β} :
    (x.map fun a => some (f a)) ≠ .ok none := by
  cases x <;> exact nofun

theorem parseQuotedString_ne_panic (value : List Char) :
    parseQuotedString value ≠ .error .panic := by
  rw [parseQuotedString]
  split_ifs <;> exact nofun

theorem parseUserLiteral_ne_panic (value : List Char) :
    parseUserLiteral parseF64 value ≠ .error .panic := by
  intro h
  rw [parseUserLiteral] at h
  split_ifs at h
  · exact map_ne_panic (parseQuotedString_ne_panic value) h
  all_goals
    dsimp only at h
    split at h <;> cases h

theorem parseSetVariable_panics :
    parseSetVariable parseF64 sql = .error .panic ↔ ¬OnBoundary 4 sql := by
  refine stripKeyword_bind_panics "SET ".toList fun read => ?_
  cases read with
  | none => exact nofun
  | some rest =>
    dsimp only
    split
    · exact nofun
    · split_ifs
      · exact map_ne_panic (parseUserLiteral_ne_panic _)
      · exact nofun

theorem parsePrepare_panics : parsePrepare sql = .error .panic ↔ ¬OnBoundary 8 sql := by
  refine stripKeyword_bind_panics "PREPARE ".toList fun read => ?_
  cases read with
  | none => exact nofun
  | some rest =>
    dsimp only
    split
    · exact nofun
    · split_ifs
      · exact nofun
      · exact map_ne_panic (parseQuotedString_ne_panic _)

theorem parseExecute_panics : parseExecute sql = .error .panic ↔ ¬OnBoundary 8 sql := by
  refine stripKeyword_bind_panics "EXECUTE ".toList fun read => ?_
  cases read with
  | none => exact nofun
  | some rest =>
    dsimp only
    split <;> exact nofun

theorem parseDeallocate_panics (keyword : String) :
    parseDeallocate keyword sql = .error .panic ↔ ¬OnBoundary keyword.toList.length sql := by
  refine stripKeyword_bind_panics keyword.toList fun read => ?_
  cases read <;> exact nofun

theorem parseShowIndexes_ne_panic (words : List (List Char)) :
    parseShowIndexes words ≠ .error .panic := by
  intro h
  rw [parseShowIndexes] at h
  split_ifs at h
  · split at h <;> cases h

theorem parseDropIndex_ne_panic (words : List (List Char)) :
    parseDropIndex words ≠ .error .panic := by
  intro h
  rw [parseDropIndex] at h
  split at h
  · dsimp only at h
    repeat' split at h
    all_goals cases h
  · cases h

theorem parseSetVariable_none :
    parseSetVariable parseF64 sql = .ok none ↔ OnBoundary 4 sql ∧ ¬SetsVariable sql := by
  have hascii : ∀ k ∈ "SET ".toList, k.toNat < 128 := by simp
  constructor
  · intro hnone
    refine ⟨?_, ?_⟩
    · by_contra hboundary
      rw [parseSetVariable_panics.mpr hboundary] at hnone
      cases hnone
    · rintro ⟨keyword, rest, name, value, rfl, hkeyword, hsplit, hname⟩
      rw [parseSetVariable, stripKeyword_append hascii hkeyword, Result.ok_bind] at hnone
      simp only [hsplit, hname, if_true] at hnone
      exact map_ne_none hnone
  · rintro ⟨hboundary, hsets⟩
    rw [parseSetVariable]
    cases hstrip : stripKeyword "SET ".toList sql with
    | error fault =>
      by_cases hbegins : BeginsWith "SET " sql
      · obtain ⟨word, ⟨rest, rfl⟩, hword⟩ := hbegins
        rw [stripKeyword_append hascii hword] at hstrip
        cases hstrip
      · rw [(stripKeyword_eq_none hascii).mpr ⟨hboundary, hbegins⟩] at hstrip
        cases hstrip
    | ok read =>
      cases read with
      | none => rfl
      | some rest =>
        obtain ⟨word, ⟨rest', rfl⟩, hword⟩ := beginsWith_of_stripKeyword hstrip
        rw [stripKeyword_append hascii hword] at hstrip
        obtain rfl : rest' = rest := Option.some.inj (Except.ok.inj hstrip)
        rw [Result.ok_bind]
        dsimp only
        cases hsplit : splitOnce '=' (Text.trim rest') with
        | none => rfl
        | some halves =>
          obtain ⟨name, value⟩ := halves
          have hname : (Text.trim name).head? ≠ some '@' := fun hname =>
            hsets ⟨word, rest', name, value, rfl, hword, hsplit, hname⟩
          exact if_neg hname

theorem parsePrepare_none :
    parsePrepare sql = .ok none ↔ OnBoundary 8 sql ∧ ¬BeginsWith "PREPARE " sql := by
  refine @stripKeyword_bind_none sql "PREPARE " (by simp) _ rfl fun rest => ?_
  dsimp only
  split
  · exact nofun
  · split_ifs
    · exact nofun
    · exact map_ne_none

theorem parseExecute_none :
    parseExecute sql = .ok none ↔ OnBoundary 8 sql ∧ ¬BeginsWith "EXECUTE " sql := by
  refine @stripKeyword_bind_none sql "EXECUTE " (by simp) _ rfl fun rest => ?_
  dsimp only
  split <;> exact nofun

theorem parseDeallocate_none {keyword : String} (hascii : ∀ k ∈ keyword.toList, k.toNat < 128) :
    parseDeallocate keyword sql = .ok none ↔
      OnBoundary keyword.toList.length sql ∧ ¬BeginsWith keyword sql :=
  stripKeyword_bind_none hascii rfl fun _ => nofun

theorem parseDropConstraint_none {words : List (List Char)} :
    Sliced.parseDropConstraint words = .ok none ↔ Sliced.isDropConstraint words ≠ .ok true := by
  obtain ⟨drops, hdrops⟩ : ∃ drops, Sliced.isDropConstraint words = .ok drops :=
    ⟨_, Sliced.isDropConstraint_eq words⟩
  rw [Sliced.parseDropConstraint, hdrops, Result.ok_bind]
  cases drops with
  | false => exact iff_of_true rfl nofun
  | true =>
    refine iff_of_false ?_ fun h => h rfl
    rw [if_pos rfl]
    split <;> exact nofun

theorem tests_in_order {c b4 s b8 p e b19 d b13 : Prop} :
    (¬c ∧ (¬b4 ∨ (b4 ∧ ¬s) ∧ (¬b8 ∨ (b8 ∧ ¬p) ∧ (¬b8 ∨ (b8 ∧ ¬e) ∧
      (¬b19 ∨ (b19 ∧ ¬d) ∧ ¬b13))))) ↔
      ¬(c ∨ b4 ∧ (s ∨ b8 ∧ (p ∨ e ∨ b19 ∧ (d ∨ b13)))) := by
  tauto

/-- A text panics in the first slice that cuts a character, if no test before it settled
what the statement is. -/
theorem parseRustydbExtension_panics :
    Sliced.parseRustydbExtension parseF64 sql = .error .panic ↔ ¬Sliceable sql := by
  have hconstraint : Except.ok (Sql.parseDropConstraint (splitWhitespace sql)) =
      (Except.ok none : Except Fault (Option Statement)) ↔
        ¬Sliced.isDropConstraint (splitWhitespace sql) = .ok true := by
    rw [← Sliced.parseDropConstraint_eq]
    exact parseDropConstraint_none
  have hdeallocatePanics : parseDeallocate "DEALLOCATE PREPARE " sql = .error .panic ↔
      ¬OnBoundary 19 sql := parseDeallocate_panics "DEALLOCATE PREPARE "
  have hdeallocate : parseDeallocate "DEALLOCATE PREPARE " sql = .ok none ↔
      OnBoundary 19 sql ∧ ¬BeginsWith "DEALLOCATE PREPARE " sql :=
    parseDeallocate_none (by simp)
  have hlast : ¬firstStatement [parseShowIndexes (splitWhitespace sql),
      parseDropIndex (splitWhitespace sql)] = .error .panic := by
    rw [firstStatement_panics, firstStatement_panics]
    rintro (h | ⟨-, h | ⟨-, h⟩⟩)
    · exact parseShowIndexes_ne_panic _ h
    · exact parseDropIndex_ne_panic _ h
    · cases h
  have hdrop : (parseDeallocate "DROP PREPARE " sql = .error .panic ∨
      parseDeallocate "DROP PREPARE " sql = .ok none ∧
        firstStatement [parseShowIndexes (splitWhitespace sql),
          parseDropIndex (splitWhitespace sql)] = .error .panic) ↔ ¬OnBoundary 13 sql := by
    rw [or_iff_left fun h => hlast h.2]
    exact parseDeallocate_panics "DROP PREPARE "
  have hfirst : ¬(Except.ok (Sql.parseDropConstraint (splitWhitespace sql)) :
      Except Fault (Option Statement)) = .error .panic := nofun
  rw [Sliced.parseRustydbExtension_eq, parseRustydbExtension, Sliceable, ← tests_in_order,
    firstStatement_panics, firstStatement_panics, firstStatement_panics, firstStatement_panics,
    firstStatement_panics, firstStatement_panics, parseSetVariable_panics, parseSetVariable_none,
    parsePrepare_panics, parsePrepare_none, parseExecute_panics, parseExecute_none, hdeallocate,
    hdeallocatePanics, hdrop, hconstraint, or_iff_right hfirst]

/-- What is displayed to the user is an error, never a panic. -/
theorem convertStatement_ne_panic (P : SqlParser) (statement : SqlStatement P.Clause) :
    P.convertStatement statement ≠ .error .panic := by
  induction statement with
  | clause clause =>
    rw [SqlParser.convertStatement]
    cases P.convertClause clause <;> exact nofun
  | explain statement ih =>
    rw [SqlParser.convertStatement]
    exact map_ne_panic ih
  | _ => exact nofun

/-- **A text is parsed without a panic exactly when it is sliceable**: no keyword it is
tested for ends inside one of its characters, up to the test that settles what it is. -/
theorem parse_never_panics (P : SqlParser) (parseF64 : List Char → Option F64) :
    (∀ sql, Sliced.parseRustydbExtension parseF64 sql ≠ .error .panic ↔ Sliceable sql) ∧
      ∀ input, Sliced.parseSql P input ≠ .error .panic ↔
        Sliceable (normalizeSql input).toList := by
  have hextension : ∀ (parseF64 : List Char → Option F64) (sql : List Char),
      Sliced.parseRustydbExtension parseF64 sql ≠ .error .panic ↔ Sliceable sql := by
    intro parseF64 sql
    rw [Ne, parseRustydbExtension_panics, not_not]
  refine ⟨hextension parseF64, fun input => ?_⟩
  rw [← hextension P.parseF64, Sliced.parseSql]
  split_ifs with hempty
  · rw [hempty]
    exact iff_of_true nofun nofun
  · cases hread : Sliced.parseRustydbExtension P.parseF64 (normalizeSql input).toList with
    | error fault =>
      show Except.error fault ≠ Except.error Fault.panic ↔ _
      rw [Ne, Except.error.injEq, Ne, Except.error.injEq]
    | ok read =>
      refine iff_of_true ?_ nofun
      rw [Result.ok_bind]
      cases read with
      | some statement => exact nofun
      | none =>
        dsimp only
        split
        · exact nofun
        · exact map_ne_panic (convertStatement_ne_panic P _)
        · exact nofun

/-- `DROP PREPARE ` has thirteen bytes, and the thirteenth and fourteenth byte of the text
are one letter. -/
theorem accent_panics :
    Sliced.parseRustydbExtension (fun _ => none) "SELECT 'abcdé'".toList = .error .panic ∧
      ∀ P, Sliced.parseSql P "SELECT 'abcdé'" = .error .panic := by
  have hextension : ∀ parseF64,
      Sliced.parseRustydbExtension parseF64 "SELECT 'abcdé'".toList = .error .panic := by
    intro parseF64
    rfl
  refine ⟨hextension _, fun P => ?_⟩
  have htrimmed : (normalizeSql "SELECT 'abcdé'").toList = "SELECT 'abcdé'".toList := by
    decide +kernel
  rw [Sliced.parseSql]
  simp only [htrimmed, hextension P.parseF64]
  rfl

end Panics

end Sql
end RustyDB
