import Mathlib
import RustyDB.Lib.Text
import RustyDB.Lib.Result
import RustyDB.Sql.Database
import RustyDB.Sql.Parameters

/-!
# The parser

The model of `parse_sql` and `parse_rustydb_extension` of `src/sql/parser.rs`.  What the
grammar of `sqlparser` makes of a text, and the conversion of its clauses, are parameters.

* `parseRustydbExtension` — the statements that are read by hand.
* `SqlParser`, `convertStatement` — the statements of the grammar.
* `parseSql` — a text, parsed.
* `keyword_of_extension` — **a statement that is read by hand begins with one of eight
  keywords.**
-/

namespace RustyDB
namespace Sql

open LineFile Text

/-! ## Names and literals -/

/-- `clean_identifier`. -/
def cleanIdentifier (value : List Char) : String :=
  toAsciiLowercase
    (String.ofList (trimMatches (fun c => c == '\x60' || c == '"' || c == '\'' || c == ';') value))

/-- `clean_variable`. -/
def cleanVariable (value : List Char) : String :=
  toAsciiLowercase
    (String.ofList
      (Text.trim (trimEndMatches (· == ':') ((Text.trim value).dropWhile (· == '@')))))

/-- `replace("''", "'")`. -/
def replaceQuotes : List Char → List Char
  | '\'' :: '\'' :: cs => '\'' :: replaceQuotes cs
  | c :: cs => c :: replaceQuotes cs
  | [] => []

/-- `parse_quoted_string`. -/
def parseQuotedString (value : List Char) : Except Fault String :=
  let value := Text.trim value
  if value.length < 2 || value.head? != some '\'' || value.getLast? != some '\'' then
    .error (.error "Expected a single-quoted SQL string")
  else .ok (String.ofList (replaceQuotes value.tail.dropLast))

/-- The value of a sequence of decimal digits. -/
def parseDigits : List Char → Option Nat
  | [] => none
  | digits =>
    if digits.all Char.isDigit then
      some (digits.foldl (fun n c => 10 * n + (c.toNat - '0'.toNat)) 0)
    else none

/-- `str::parse::<i64>`. -/
def parseI64 (text : List Char) : Option Int64 :=
  let signed : Option Int :=
    match text with
    | '-' :: digits => (parseDigits digits).map fun n => -(n : Int)
    | '+' :: digits => (parseDigits digits).map fun n => (n : Int)
    | digits => (parseDigits digits).map fun n => (n : Int)
  signed.bind fun n =>
    if -2 ^ 63 ≤ n ∧ n < 2 ^ 63 then some (Int64.ofInt n) else none

/-- `parse_user_literal`, over `str::parse::<f64>`. -/
def parseUserLiteral (parseF64 : List Char → Option F64) (value : List Char) :
    Except Fault Value :=
  if eqIgnoreCase value "NULL".toList then .ok .null
  else if eqIgnoreCase value "TRUE".toList then .ok (.boolean true)
  else if eqIgnoreCase value "FALSE".toList then .ok (.boolean false)
  else if value.head? = some '\'' then (parseQuotedString value).map .text
  else
    let number : Option Value :=
      if value.any fun c => c == '.' || c == 'e' || c == 'E' then (parseF64 value).map .float
      else (parseI64 value).map .integer
    match number with
    | some value => .ok value
    | none => .error (.error "SET user variables require a literal value")

/-! ## The statements that are read by hand -/

/-- `sql.len() >= keyword.len() && sql[..keyword.len()].eq_ignore_ascii_case(keyword)`,
and `sql[keyword.len()..]`.  The slice panics inside a character. -/
def stripKeyword (keyword sql : List Char) : Except Fault (Option (List Char)) :=
  if byteLength sql < keyword.length then .ok none
  else
    match splitAtByte keyword.length sql with
    | none => .error .panic
    | some (head, rest) => .ok (if eqIgnoreCase head keyword then some rest else none)

/-- The words of a text as keywords. -/
def isWord (keyword : String) (word : Option (List Char)) : Bool :=
  word.any fun word => eqIgnoreCase word keyword.toList

/-- `ALTER TABLE t DROP FOREIGN KEY c`, `DROP CHECK c` and `DROP INDEX c`. -/
def parseDropConstraint (words : List (List Char)) : Option Statement :=
  if words.length ≥ 6 && isWord "ALTER" words[0]? && isWord "TABLE" words[1]? &&
      isWord "DROP" words[3]? &&
      ((words.length == 7 && isWord "FOREIGN" words[4]? && isWord "KEY" words[5]?) ||
        (words.length == 6 && (isWord "CHECK" words[4]? || isWord "INDEX" words[4]?))) then
    some (.alterTable (cleanIdentifier (words[2]?.getD []))
      [.dropConstraint (cleanIdentifier (words.getLast?.getD [])) false])
  else none

/-- `SET @name = literal`. -/
def parseSetVariable (parseF64 : List Char → Option F64) (sql : List Char) :
    Except Fault (Option Statement) :=
  stripKeyword "SET ".toList sql >>= fun
    | none => .ok none
    | some rest =>
      match splitOnce '=' (Text.trim rest) with
      | none => .ok none
      | some (name, value) =>
        if (Text.trim name).head? = some '@' then
          (parseUserLiteral parseF64 (Text.trim value)).map fun value =>
            some (.setVariable (cleanVariable name) value)
        else .ok none

/-- `PREPARE name FROM source`. -/
def parsePrepare (sql : List Char) : Except Fault (Option Statement) :=
  stripKeyword "PREPARE ".toList sql >>= fun
    | none => .ok none
    | some rest =>
      match splitOnceIgnoreCase " FROM ".toList (Text.trim rest) with
      | none => .error (.error "PREPARE requires FROM")
      | some (name, source) =>
        let name := cleanIdentifier (Text.trim name)
        let source := Text.trim source
        if source.head? = some '@' then
          .ok (some (.prepare name (.variable (cleanVariable source))))
        else (parseQuotedString source).map fun text => some (.prepare name (.sql text))

/-- `EXECUTE name` and `EXECUTE name USING variables`. -/
def parseExecute (sql : List Char) : Except Fault (Option Statement) :=
  stripKeyword "EXECUTE ".toList sql >>= fun
    | none => .ok none
    | some rest =>
      let rest := Text.trim rest
      match splitOnceIgnoreCase " USING ".toList rest with
      | none => .ok (some (.executePrepared (cleanIdentifier rest) []))
      | some (name, names) =>
        .ok (some (.executePrepared (cleanIdentifier name)
          ((names.splitOn ',').map cleanVariable)))

/-- `DEALLOCATE PREPARE name` and `DROP PREPARE name`. -/
def parseDeallocate (keyword : String) (sql : List Char) : Except Fault (Option Statement) :=
  stripKeyword keyword.toList sql >>= fun
    | none => .ok none
    | some name => .ok (some (.deallocatePrepared (cleanIdentifier name)))

/-- `SHOW INDEXES FROM t` and its variants. -/
def parseShowIndexes (words : List (List Char)) : Except Fault (Option Statement) :=
  if words.length ≥ 3 && isWord "SHOW" words[0]? &&
      (isWord "INDEX" words[1]? || isWord "INDEXES" words[1]? || isWord "KEYS" words[1]?) &&
      (isWord "FROM" words[2]? || isWord "ON" words[2]?) then
    match words[3]? with
    | none => .error (.error "SHOW INDEXES requires a table name")
    | some tableName => .ok (some (.showIndexes (cleanIdentifier tableName)))
  else .ok none

/-- `DROP INDEX name ON t` and `DROP INDEX IF EXISTS name ON t`. -/
def parseDropIndex (words : List (List Char)) : Except Fault (Option Statement) :=
  if words.length ≥ 5 && isWord "DROP" words[0]? && isWord "INDEX" words[1]? then
    let ifExists := isWord "IF" words[2]? && isWord "EXISTS" words[3]?
    let offset := if ifExists then 4 else 2
    match words[offset]? with
    | none => .error (.error "DROP INDEX requires an index name")
    | some name =>
      if isWord "ON" words[offset + 1]? then
        match words[offset + 2]? with
        | none => .error (.error "DROP INDEX requires ON <table>")
        | some tableName =>
          .ok (some (.dropIndex (cleanIdentifier name) (cleanIdentifier tableName) ifExists))
      else .ok none
  else .ok none

/-- The first of several readings that gives a statement. -/
def firstStatement : List (Except Fault (Option Statement)) → Except Fault (Option Statement)
  | [] => .ok none
  | reading :: readings =>
    reading >>= fun
      | some statement => .ok (some statement)
      | none => firstStatement readings

/-- `parse_rustydb_extension`. -/
def parseRustydbExtension (parseF64 : List Char → Option F64) (sql : List Char) :
    Except Fault (Option Statement) :=
  let words := splitWhitespace sql
  firstStatement [.ok (parseDropConstraint words), parseSetVariable parseF64 sql,
    parsePrepare sql, parseExecute sql, parseDeallocate "DEALLOCATE PREPARE " sql,
    parseDeallocate "DROP PREPARE " sql, parseShowIndexes words, parseDropIndex words]

/-! ## The statements of the grammar -/

/-- `sql::Statement`, by the arms of `convert_statement`. -/
inductive SqlStatement (Clause : Type) where
  /-- A statement with clauses of its own: CREATE TABLE, CREATE INDEX, ALTER TABLE, DROP,
  INSERT, a query, UPDATE, DELETE. -/
  | clause (clause : Clause)
  | showTables
  | explainTable (tableName : List String)
  | explain (statement : SqlStatement Clause)
  | startTransaction
  | commit
  | rollback
  /-- Any other statement, as it is displayed. -/
  | other (display : String)

/-- What `parse_sql` calls of `sqlparser`. -/
structure SqlParser where
  Clause : Type
  /-- The conversion of a statement with clauses. -/
  convertClause : Clause → Except String Statement
  /-- `Parser::parse_sql` in the MySQL dialect. -/
  parse : List Char → Except String (List (SqlStatement Clause))
  /-- `str::parse::<f64>`. -/
  parseF64 : List Char → Option F64

namespace SqlParser

variable (P : SqlParser)

/-- `convert_statement`. -/
def convertStatement : SqlStatement P.Clause → Except Fault Statement
  | .clause clause => (P.convertClause clause).mapError .error
  | .showTables => .ok .showTables
  | .explainTable tableName =>
    .ok (.describeTable ((tableName.getLast?.map toAsciiLowercase).getD ""))
  | .explain statement => (convertStatement statement).map .explain
  | .startTransaction => .ok .begin
  | .commit => .ok .commit
  | .rollback => .ok .rollback
  | .other display => .error (.error s!"Unsupported SQL statement: {display}")

/-- `parse_sql`. -/
def parseSql (input : String) : Except Fault Statement := do
  let trimmed := (normalizeSql input).toList
  if trimmed = [] then .error (.error "Empty statement")
  else
    match ← parseRustydbExtension P.parseF64 trimmed with
    | some statement => .ok statement
    | none =>
      match P.parse trimmed with
      | .error error => .error (.error error)
      | .ok [statement] => (P.convertStatement statement).map assignParameters
      | .ok _ => .error (.error "Expected exactly one SQL statement")

end SqlParser

/-! ## What a statement begins with -/

/-- What the statements that are read by hand begin with. -/
def extensionKeywords : List String :=
  ["ALTER", "SET ", "PREPARE ", "EXECUTE ", "DEALLOCATE PREPARE ", "DROP PREPARE ", "SHOW", "DROP"]

/-- The text begins with the keyword, in either case. -/
def BeginsWith (keyword : String) (sql : List Char) : Prop :=
  ∃ word, word <+: sql ∧ eqIgnoreCase word keyword.toList = true

variable {parseF64 : List Char → Option F64} {sql : List Char} {statement : Statement}

theorem beginsWith_of_stripKeyword {keyword : String} {rest : List Char}
    (h : stripKeyword keyword.toList sql = .ok (some rest)) : BeginsWith keyword sql := by
  rw [stripKeyword] at h
  split_ifs at h with hlength
  · cases h
  cases hcut : splitAtByte keyword.toList.length sql with
  | none =>
    rw [hcut] at h
    cases h
  | some halves =>
    rw [hcut] at h
    obtain ⟨head, tail⟩ := halves
    have hok := Except.ok.inj h
    split_ifs at hok with hkeyword
    exact ⟨head, ⟨tail, splitAtByte_append hcut⟩, hkeyword⟩

theorem beginsWith_of_isWord {keyword : String} (htrimmed : Trimmed sql)
    (h : isWord keyword (splitWhitespace sql)[0]? = true) : BeginsWith keyword sql := by
  cases hwords : splitWhitespace sql with
  | nil =>
    rw [hwords] at h
    cases h
  | cons word words =>
    rw [hwords] at h
    exact ⟨word, isPrefix_of_splitWhitespace htrimmed hwords, h⟩

/-- A reading that needs a keyword in front. -/
theorem beginsWith_of_stripKeyword_bind {keyword : String}
    {next : Option (List Char) → Except Fault (Option Statement)} (hnone : next none = .ok none)
    (h : stripKeyword keyword.toList sql >>= next = .ok (some statement)) :
    BeginsWith keyword sql := by
  obtain ⟨rest, hstrip, hnext⟩ := Result.bind_eq_ok.mp h
  cases rest with
  | none =>
    rw [hnone] at hnext
    cases hnext
  | some rest => exact beginsWith_of_stripKeyword hstrip

theorem mem_of_firstStatement {readings : List (Except Fault (Option Statement))}
    (h : firstStatement readings = .ok (some statement)) :
    .ok (some statement) ∈ readings := by
  induction readings with
  | nil => cases h
  | cons reading readings ih =>
    obtain ⟨read, hreading, hnext⟩ := Result.bind_eq_ok.mp h
    cases read with
    | none => exact List.mem_cons_of_mem _ (ih hnext)
    | some read =>
      obtain rfl : read = statement := Option.some.inj (Except.ok.inj hnext)
      rw [hreading]
      exact List.mem_cons_self

theorem beginsWith_of_dropConstraint (htrimmed : Trimmed sql)
    (h : parseDropConstraint (splitWhitespace sql) = some statement) : BeginsWith "ALTER" sql := by
  rw [parseDropConstraint] at h
  split_ifs at h with hwords
  simp only [Bool.and_eq_true] at hwords
  exact beginsWith_of_isWord htrimmed hwords.1.1.1.2

theorem beginsWith_of_showIndexes (htrimmed : Trimmed sql)
    (h : parseShowIndexes (splitWhitespace sql) = .ok (some statement)) :
    BeginsWith "SHOW" sql := by
  rw [parseShowIndexes] at h
  split_ifs at h with hwords
  · simp only [Bool.and_eq_true] at hwords
    exact beginsWith_of_isWord htrimmed hwords.1.1.2
  · cases h

theorem beginsWith_of_dropIndex (htrimmed : Trimmed sql)
    (h : parseDropIndex (splitWhitespace sql) = .ok (some statement)) : BeginsWith "DROP" sql := by
  rw [parseDropIndex] at h
  by_cases hwords : ((splitWhitespace sql).length ≥ 5 && isWord "DROP" (splitWhitespace sql)[0]? &&
      isWord "INDEX" (splitWhitespace sql)[1]?) = true
  · simp only [Bool.and_eq_true] at hwords
    exact beginsWith_of_isWord htrimmed hwords.1.2
  · rw [if_neg hwords] at h
    cases h

/-- **A statement that is read by hand begins with one of eight keywords.** -/
theorem keyword_of_extension (htrimmed : Trimmed sql)
    (h : parseRustydbExtension parseF64 sql = .ok (some statement)) :
    ∃ keyword ∈ extensionKeywords, BeginsWith keyword sql := by
  have hmem := mem_of_firstStatement h
  simp only [List.mem_cons, List.not_mem_nil, or_false] at hmem
  rcases hmem with h | h | h | h | h | h | h | h
  · exact ⟨"ALTER", by simp [extensionKeywords],
      beginsWith_of_dropConstraint htrimmed (Except.ok.inj h).symm⟩
  · exact ⟨"SET ", by simp [extensionKeywords], beginsWith_of_stripKeyword_bind rfl h.symm⟩
  · exact ⟨"PREPARE ", by simp [extensionKeywords], beginsWith_of_stripKeyword_bind rfl h.symm⟩
  · exact ⟨"EXECUTE ", by simp [extensionKeywords], beginsWith_of_stripKeyword_bind rfl h.symm⟩
  · exact ⟨"DEALLOCATE PREPARE ", by simp [extensionKeywords],
      beginsWith_of_stripKeyword_bind rfl h.symm⟩
  · exact ⟨"DROP PREPARE ", by simp [extensionKeywords], beginsWith_of_stripKeyword_bind rfl h.symm⟩
  · exact ⟨"SHOW", by simp [extensionKeywords], beginsWith_of_showIndexes htrimmed h.symm⟩
  · exact ⟨"DROP", by simp [extensionKeywords], beginsWith_of_dropIndex htrimmed h.symm⟩

/-- A text that is accepted is read by hand, or is one statement of the grammar that
converts. -/
theorem SqlParser.parseSql_cases {P : SqlParser} {input : String}
    (h : P.parseSql input = .ok statement) :
    parseRustydbExtension P.parseF64 (normalizeSql input).toList = .ok (some statement) ∨
      ∃ parsed converted, P.parse (normalizeSql input).toList = .ok [parsed] ∧
        P.convertStatement parsed = .ok converted := by
  rw [SqlParser.parseSql] at h
  split_ifs at h with hempty
  obtain ⟨read, hread, hnext⟩ := Result.bind_eq_ok.mp h
  cases read with
  | some read =>
    obtain rfl : read = statement := Except.ok.inj hnext
    exact Or.inl hread
  | none =>
    simp only at hnext
    split at hnext
    · cases hnext
    · rename_i parsed hparse
      obtain ⟨converted, hconvert, -⟩ := Result.map_eq_ok.mp hnext
      exact Or.inr ⟨parsed, converted, hparse, hconvert⟩
    · cases hnext

end Sql
end RustyDB
