import Mathlib
import RustyDB.Sql.Parser
import RustyDB.Sql.Replay

/-!
# COM_QUERY

The model of `try_handle_system_query`, `handle_sysvar_query` and the `COM_QUERY` branch
of `handle_connection` of `src/wire/mod.rs`: a text is answered by the server itself when
it looks like a question about the server, and goes to the SQL engine otherwise.

* `tryHandleSystemQuery`, `comQuery` — the two steps of the branch.
* `Intercepted` — the texts that look like questions about the server.
* `com_query_reaches_engine` — **a statement reaches the SQL engine exactly when its text
  is not intercepted.**
* `showIndexes_intercepted` — SHOW INDEXES reaches the engine only when its first word is
  followed by white space other than a space.
-/

namespace RustyDB
namespace Wire

open LineFile Text Sql

/-! ## Unicode -/

/-- The tables of Unicode that the branch reads. -/
structure Unicode where
  /-- `char::to_uppercase`. -/
  upper : Char → List Char
  /-- `str::to_lowercase`. -/
  toLowercase : List Char → List Char
  /-- `char::is_alphanumeric`. -/
  isAlphanumeric : Char → Bool

/-- What the branch relies on: the ASCII characters have the ASCII capitals, and white
space has no capital. -/
structure Unicode.Lawful (U : Unicode) : Prop where
  ascii : ∀ c : Char, c.toNat < 128 → U.upper c = [c.toUpper]
  whiteSpace : ∀ c : Char, isWhiteSpace c = true → U.upper c = [c]

/-- `str::to_uppercase`. -/
def Unicode.toUppercase (U : Unicode) (cs : List Char) : List Char := cs.flatMap U.upper

/-- `str::starts_with`. -/
def startsWith (cs : List Char) (keyword : String) : Bool := keyword.toList.isPrefixOf cs

/-- `str::contains`. -/
def contains (cs : List Char) (keyword : String) : Bool := decide (keyword.toList <:+: cs)

/-! ## System variables -/

/-- `SERVER_VERSION`. -/
def serverVersion : String := "5.7.99-RustyDB-0.3.0-beta"

/-- `known_vars`. -/
def knownVars : List (String × String) :=
  [("@@version_comment", "RustyDB SQL Engine"),
    ("@@version", serverVersion),
    ("@@max_allowed_packet", "67108864"),
    ("@@character_set_client", "utf8mb4"),
    ("@@character_set_connection", "utf8mb4"),
    ("@@character_set_results", "utf8mb4"),
    ("@@character_set_server", "utf8mb4"),
    ("@@character_set_database", "utf8mb4"),
    ("@@collation_connection", "utf8mb4_general_ci"),
    ("@@collation_server", "utf8mb4_general_ci"),
    ("@@collation_database", "utf8mb4_general_ci"),
    ("@@interactive_timeout", "28800"),
    ("@@wait_timeout", "28800"),
    ("@@net_write_timeout", "60"),
    ("@@sql_mode", "TRADITIONAL"),
    ("@@time_zone", "SYSTEM"),
    ("@@system_time_zone", "UTC"),
    ("@@autocommit", "1"),
    ("@@tx_isolation", "REPEATABLE-READ"),
    ("@@transaction_isolation", "REPEATABLE-READ"),
    ("@@lower_case_table_names", "1"),
    ("@@license", "Apache-2.0"),
    ("@@session.autocommit", "1"),
    ("@@session.transaction_read_only", "0"),
    ("@@session.auto_increment_increment", "1"),
    ("@@session.transaction_isolation", "REPEATABLE-READ"),
    ("@@session.tx_isolation", "REPEATABLE-READ"),
    ("@@session.sql_mode", "TRADITIONAL"),
    ("@@global.max_allowed_packet", "67108864"),
    ("@@global.net_buffer_length", "16384")]

namespace Unicode

variable (U : Unicode)

/-- The characters of a variable's name. -/
def isVariableChar (c : Char) : Bool := U.isAlphanumeric c || c == '_' || c == '.'

/-- `&query[start..end]`, whose offsets count bytes. -/
def slice (query : List Char) (first last : Nat) : Except Fault (List Char) :=
  match splitAtByte last query with
  | none => .error .panic
  | some (head, _) =>
    match splitAtByte first head with
    | none => .error .panic
    | some (_, middle) => .ok middle

/-- The value of a variable, the empty text when it is unknown. -/
def variableValue (name : List Char) : String :=
  ((knownVars.find? fun known =>
    U.toLowercase known.1.toList == U.toLowercase name).map Prod.snd).getD ""

/-- The loop of `handle_sysvar_query`.  The positions count characters, and the slice takes
them for bytes. -/
def sysvarLoop (query : List Char) : Nat → Nat → Except Fault (List (String × Value))
  | 0, _ => .ok []
  | fuel + 1, i =>
    if i < query.length - 1 then
      if query[i]? = some '@' ∧ query[i + 1]? = some '@' then do
        let stop := i + 2 + ((query.drop (i + 2)).takeWhile U.isVariableChar).length
        let name ← slice query i stop
        let rest ← sysvarLoop query fuel stop
        pure ((String.ofList name, .text (U.variableValue name)) :: rest)
      else sysvarLoop query fuel (i + 1)
    else .ok []

/-- `handle_sysvar_query`. -/
def handleSysvarQuery (query : List Char) : Except Fault ExecutionResult :=
  (U.sysvarLoop query query.length 0).map fun found =>
    let found := if found = [] then [("@@unknown", .text "")] else found
    .select ⟨found.map Prod.fst, [found.map Prod.snd]⟩

end Unicode

/-! ## Routing -/

variable (U : Unicode)

/-- `query.trim().trim_end_matches(';').trim()`. -/
def trimmed (query : String) : List Char := (normalizeSql query).toList

/-- The text that the tests look at. -/
def uppercased (query : String) : List Char := U.toUppercase (trimmed query)

/-- SELECT with a system variable. -/
def selectsVariable (upper : List Char) : Bool := startsWith upper "SELECT" && contains upper "@@"

/-- SELECT DATABASE(). -/
def selectsDatabase (upper : List Char) : Bool :=
  startsWith upper "SELECT" && contains upper "DATABASE()"

/-- SELECT USER() and SELECT CURRENT_USER(). -/
def selectsUser (upper : List Char) : Bool :=
  startsWith upper "SELECT" && (contains upper "USER()" || contains upper "CURRENT_USER")

/-- SHOW VARIABLES, SHOW STATUS and the like, but not SHOW TABLES and SHOW CREATE. -/
def showsOther (upper : List Char) : Bool :=
  startsWith upper "SHOW " && !startsWith upper "SHOW TABLES" && !startsWith upper "SHOW CREATE"

/-- The SET commands other than those of user variables. -/
def setsOption (upper trimmed : List Char) : Except Fault Bool :=
  if startsWith upper "SET " then
    match splitAtByte 4 trimmed with
    | none => .error .panic
    | some (_, rest) => .ok ((trimStart rest).head? != some '@')
  else .ok false

/-- The questions that are answered without the engine, SET apart. -/
def answerQuestion (upper trimmed : List Char) : Except Fault (Option ExecutionResult) :=
  if startsWith upper "USE " then .ok (some (.rowsAffected 0))
  else if startsWith upper "KILL" then .ok (some (.rowsAffected 0))
  else if selectsVariable upper then (U.handleSysvarQuery trimmed).map some
  else if selectsDatabase upper then
    .ok (some (.select ⟨["DATABASE()"], [[.text "rustydb"]]⟩))
  else if selectsUser upper then
    .ok (some (.select ⟨["USER()"], [[.text "rustydb_user@localhost"]]⟩))
  else if upper = "SELECT 1".toList then .ok (some (.select ⟨["1"], [[.integer 1]]⟩))
  else if startsWith upper "SHOW WARNINGS" then
    .ok (some (.select ⟨["Level", "Code", "Message"], []⟩))
  else if upper = "SHOW DATABASES".toList then
    .ok (some (.select ⟨["Database"], [[.text "rustydb"]]⟩))
  else if showsOther upper then .ok (some (.select ⟨["Variable_name", "Value"], []⟩))
  else .ok none

/-- `try_handle_system_query`. -/
def tryHandleSystemQuery (query : String) : Except Fault (Option ExecutionResult) :=
  setsOption (uppercased U query) (trimmed query) >>= fun
    | true => .ok (some (.rowsAffected 0))
    | false => answerQuestion U (uppercased U query) (trimmed query)

/-- The COM_QUERY branch, for the session of the connection. -/
def comQuery (E : Engine) (db : Database) (id : Nat) (query : String) (io : Io) :
    Reply × Database :=
  match tryHandleSystemQuery U query with
  | .error fault => (.ofFault fault, db)
  | .ok (some result) => (.done result, db)
  | .ok none => db.step E (.sessionExecute id query) io

/-! ## String literals -/

/-- Where a character of a text stands. -/
inductive Place where
  | plain
  | literal (quote : Char)
  | identifier
  | lineComment
  | blockComment

/-- A text without its string literals. -/
def outsideLiterals : Place → List Char → List Char
  | _, [] => []
  | .plain, '-' :: '-' :: cs => '-' :: '-' :: outsideLiterals .lineComment cs
  | .plain, '/' :: '*' :: cs => '/' :: '*' :: outsideLiterals .blockComment cs
  | .blockComment, '*' :: '/' :: cs => '*' :: '/' :: outsideLiterals .plain cs
  | .literal quote, '\\' :: _ :: cs => outsideLiterals (.literal quote) cs
  | .plain, c :: cs =>
    if c = '\'' ∨ c = '"' then outsideLiterals (.literal c) cs
    else if c = '\x60' then c :: outsideLiterals .identifier cs
    else if c = '#' then c :: outsideLiterals .lineComment cs
    else c :: outsideLiterals .plain cs
  | .literal quote, c :: cs =>
    outsideLiterals (if c = quote then .plain else .literal quote) cs
  | .identifier, c :: cs =>
    c :: outsideLiterals (if c = '\x60' then .plain else .identifier) cs
  | .lineComment, c :: cs =>
    c :: outsideLiterals (if c = '\n' then .plain else .lineComment) cs
  | .blockComment, c :: cs => c :: outsideLiterals .blockComment cs

/-- What is asked about the server stands in string literals, if anywhere. -/
def OnlyInLiterals (query : String) : Prop :=
  ∀ tested ∈ ["@@", "DATABASE()", "USER()", "CURRENT_USER"],
    contains (U.toUppercase (outsideLiterals .plain (trimmed query))) tested = false

/-- The texts that are answered without the engine, SET and the health check apart: SELECT
with one of four patterns anywhere in it, and SHOW followed by a space and something other
than TABLES or CREATE. -/
def Intercepted (query : String) : Prop :=
  selectsVariable (uppercased U query) = true ∨ selectsDatabase (uppercased U query) = true ∨
    selectsUser (uppercased U query) = true ∨ showsOther (uppercased U query) = true

/-- What the branch relies on of `sqlparser`: a text that begins with KILL or with USE and
a space is at most a statement of that kind, which `convert_statement` does not take. -/
structure SqlParser.Conforms (P : SqlParser) : Prop where
  server : ∀ text parsed, P.parse text = .ok [parsed] →
    (startsWith (U.toUppercase text) "USE " = true ∨
      startsWith (U.toUppercase text) "KILL" = true) → ∃ display, parsed = .other display

/-! ## What accepted texts begin with -/

variable {U} {P : SqlParser} {query : String} {statement : Statement}

theorem startsWith_iff {cs : List Char} {keyword : String} :
    startsWith cs keyword = true ↔ keyword.toList <+: cs := by
  rw [startsWith, List.isPrefixOf_iff_prefix]

/-- Of two keywords that a text begins with, one begins with the other. -/
theorem comparable_of_startsWith {cs : List Char} {first second : String}
    (hfirst : startsWith cs first = true) (hsecond : startsWith cs second = true) :
    first.toList <+: second.toList ∨ second.toList <+: first.toList :=
  List.prefix_or_prefix_of_prefix (startsWith_iff.mp hfirst) (startsWith_iff.mp hsecond)

theorem startsWith_of_beginsWith (hU : U.Lawful) {keyword : String} {sql : List Char}
    (hascii : ∀ c ∈ keyword.toList, c.toNat < 128)
    (hupper : keyword.toList.map Char.toUpper = keyword.toList) (h : BeginsWith keyword sql) :
    startsWith (U.toUppercase sql) keyword = true := by
  obtain ⟨word, ⟨rest, rfl⟩, hword⟩ := h
  rw [startsWith_iff, Unicode.toUppercase, List.flatMap_append,
    flatMap_of_eqIgnoreCase hU.ascii hascii hword, hupper]
  exact List.prefix_append _ _

theorem trimmed_trimmed (query : String) : Trimmed (trimmed query) := by
  have htrim : trimmed query = Text.trim (trimSemicolons (Sql.trim query)).toList :=
    String.toList_ofList
  rw [htrim]
  exact trimmed_trim _

/-- **An accepted text does not begin with USE and a space, nor with KILL.** -/
theorem not_server_of_accepted (hU : U.Lawful) (hP : SqlParser.Conforms U P)
    (h : P.parseSql query = .ok statement) :
    startsWith (uppercased U query) "USE " = false ∧
      startsWith (uppercased U query) "KILL" = false := by
  rcases SqlParser.parseSql_cases h with hextension | ⟨parsed, converted, hparse, hconvert⟩
  · obtain ⟨keyword, hmem, hbegins⟩ := keyword_of_extension (trimmed_trimmed query) hextension
    have hall : ∀ keyword ∈ extensionKeywords, (∀ c ∈ keyword.toList, c.toNat < 128) ∧
        keyword.toList.map Char.toUpper = keyword.toList ∧
        ¬ (keyword.toList <+: "USE ".toList ∨ "USE ".toList <+: keyword.toList) ∧
        ¬ (keyword.toList <+: "KILL".toList ∨ "KILL".toList <+: keyword.toList) := by
      simp [extensionKeywords]
    obtain ⟨hascii, hupper, huse, hkill⟩ := hall keyword hmem
    have hstarts := startsWith_of_beginsWith hU hascii hupper hbegins
    exact ⟨Bool.eq_false_iff.mpr fun h => huse (comparable_of_startsWith hstarts h),
      Bool.eq_false_iff.mpr fun h => hkill (comparable_of_startsWith hstarts h)⟩
  · have hnot : ¬ (startsWith (uppercased U query) "USE " = true ∨
        startsWith (uppercased U query) "KILL" = true) := by
      intro hserver
      obtain ⟨display, rfl⟩ := hP.server _ _ hparse hserver
      cases hconvert
    rw [not_or] at hnot
    exact ⟨Bool.eq_false_iff.mpr hnot.1, Bool.eq_false_iff.mpr hnot.2⟩

/-! ## Routing -/

/-- The text reaches the engine, and the reply is the reply of `session.execute`. -/
def Routed (U : Unicode) (E : Engine) (db : Database) (id : Nat) (query : String) (io : Io) :
    Prop :=
  tryHandleSystemQuery U query = .ok none ∧
    comQuery U E db id query io = db.step E (.sessionExecute id query) io

theorem startsWith_of_longer {cs : List Char} {short long : String}
    (h : short.toList <+: long.toList) (hlong : startsWith cs long = true) :
    startsWith cs short = true :=
  startsWith_iff.mpr (h.trans (startsWith_iff.mp hlong))

theorem not_startsWith_of_other {cs : List Char} {first second : String}
    (h : ¬ (first.toList <+: second.toList ∨ second.toList <+: first.toList))
    (hfirst : startsWith cs first = true) : startsWith cs second = false :=
  Bool.eq_false_iff.mpr fun hsecond => h (comparable_of_startsWith hfirst hsecond)

/-- The two questions that SHOW answers on its own are SHOW with something other than TABLES
or CREATE. -/
theorem showsOther_of_question {cs : List Char} {question : String}
    (hquestion : question = "SHOW WARNINGS" ∨ question = "SHOW DATABASES")
    (h : startsWith cs question = true) : showsOther cs = true := by
  have hshow : startsWith cs "SHOW " = true := by
    refine startsWith_of_longer ?_ h
    rcases hquestion with rfl | rfl <;> simp
  have htables : startsWith cs "SHOW TABLES" = false := by
    refine not_startsWith_of_other ?_ h
    rcases hquestion with rfl | rfl <;> simp
  have hcreate : startsWith cs "SHOW CREATE" = false := by
    refine not_startsWith_of_other ?_ h
    rcases hquestion with rfl | rfl <;> simp
  rw [showsOther, hshow, htables, hcreate]
  rfl

theorem map_some_ne_none {result : Except Fault ExecutionResult} :
    (result.map some : Except Fault (Option ExecutionResult)) ≠ .ok none := by
  cases result with
  | error fault => exact fun h => by cases h
  | ok result => exact fun h => by cases h

theorem answerQuestion_eq_none_iff {upper : List Char} (trimmed : List Char)
    (huse : startsWith upper "USE " = false) (hkill : startsWith upper "KILL" = false)
    (hone : upper ≠ "SELECT 1".toList) :
    answerQuestion U upper trimmed = .ok none ↔
      ¬ (selectsVariable upper = true ∨ selectsDatabase upper = true ∨
        selectsUser upper = true ∨ showsOther upper = true) := by
  have hwarnings : startsWith upper "SHOW WARNINGS" = true → showsOther upper = true :=
    showsOther_of_question (Or.inl rfl)
  have hdatabases : upper = "SHOW DATABASES".toList → showsOther upper = true := by
    intro h
    refine showsOther_of_question (Or.inr rfl) (startsWith_iff.mpr ?_)
    rw [h]
  rw [answerQuestion, huse, hkill, if_neg Bool.false_ne_true, if_neg Bool.false_ne_true,
    if_neg hone]
  by_cases hvariable : selectsVariable upper = true
  · rw [if_pos hvariable]
    exact iff_of_false map_some_ne_none fun h => h (Or.inl hvariable)
  by_cases hdatabase : selectsDatabase upper = true
  · rw [if_neg hvariable, if_pos hdatabase]
    exact iff_of_false (by simp) fun h => h (Or.inr (Or.inl hdatabase))
  by_cases huser : selectsUser upper = true
  · rw [if_neg hvariable, if_neg hdatabase, if_pos huser]
    exact iff_of_false (by simp) fun h => h (Or.inr (Or.inr (Or.inl huser)))
  rw [if_neg hvariable, if_neg hdatabase, if_neg huser]
  by_cases hother : showsOther upper = true
  · refine iff_of_false ?_ fun h => h (Or.inr (Or.inr (Or.inr hother)))
    split_ifs <;> simp
  · rw [if_neg fun h => hother (hwarnings h), if_neg fun h => hother (hdatabases h), if_neg hother]
    simp [hvariable, hdatabase, huser, hother]

theorem tryHandle_eq_none_iff (hset : startsWith (uppercased U query) "SET" = false)
    (hone : uppercased U query ≠ "SELECT 1".toList)
    (huse : startsWith (uppercased U query) "USE " = false)
    (hkill : startsWith (uppercased U query) "KILL" = false) :
    tryHandleSystemQuery U query = .ok none ↔ ¬ Intercepted U query := by
  have hsets : setsOption (uppercased U query) (trimmed query) = .ok false := by
    rw [setsOption, if_neg fun h => ?_]
    rw [startsWith_of_longer (by simp) h] at hset
    cases hset
  have hanswer := answerQuestion_eq_none_iff (U := U) (trimmed query) huse hkill hone
  rw [tryHandleSystemQuery, hsets, Result.ok_bind]
  rw [Intercepted]
  exact hanswer

theorem comQuery_of_none {E : Engine} {db : Database} {id : Nat} {io : Io}
    (h : tryHandleSystemQuery U query = .ok none) :
    comQuery U E db id query io = db.step E (.sessionExecute id query) io := by
  unfold comQuery
  rw [h]

/-- **A statement reaches the SQL engine exactly when its text is not intercepted**: it is
no SELECT with the name of a system function or of a variable anywhere in it, a string
literal included, and no SHOW with a space and something other than TABLES or CREATE. -/
theorem com_query_reaches_engine (hU : U.Lawful) (hP : SqlParser.Conforms U P)
    (haccepted : P.parseSql query = .ok statement)
    (hset : startsWith (uppercased U query) "SET" = false)
    (hone : uppercased U query ≠ "SELECT 1".toList) (E : Engine) (db : Database) (id : Nat)
    (io : Io) : Routed U E db id query io ↔ ¬ Intercepted U query := by
  obtain ⟨huse, hkill⟩ := not_server_of_accepted hU hP haccepted
  have hiff := tryHandle_eq_none_iff hset hone huse hkill
  constructor
  · intro h
    exact hiff.mp h.1
  · intro h
    have hnone := hiff.mpr h
    exact ⟨hnone, comQuery_of_none hnone⟩

/-! ## Sample texts -/

/-- The tables of Unicode on ASCII texts. -/
def asciiUnicode : Unicode where
  upper c := [c.toUpper]
  toLowercase := List.map Char.toLower
  isAlphanumeric := Char.isAlphanum

theorem lawful_asciiUnicode : asciiUnicode.Lawful where
  ascii _ _ := rfl
  whiteSpace c hc := by
    have hlower : ¬ c.isLower := by
      intro hlower
      simp only [Char.isLower, ge_iff_le, Bool.and_eq_true, decide_eq_true_eq,
        UInt32.le_iff_toNat_le] at hlower
      have hlow : 97 ≤ c.toNat := hlower.1
      have hhigh : c.toNat ≤ 122 := hlower.2
      simp only [isWhiteSpace, Bool.or_eq_true, Bool.and_eq_true, decide_eq_true_eq,
        beq_iff_eq] at hc
      omega
    exact congrArg (fun c => [c]) (Char.toUpper_eq_of_not_isLower hlower)

/-- `SELECT '@@'`. -/
def selectAts : Query where
  ctes := []
  distinct := false
  projection := [.expr (.literal (.text "@@")) none]
  source := none
  joins := []
  selection := none
  groupBy := []
  having := none
  orderBy := []
  limit := none

/-- A parser that knows two texts. -/
def sampleParse (text : List Char) : Except String (List (SqlStatement Statement)) :=
  if text = "SELECT '@@'".toList then .ok [.clause (.query selectAts)]
  else if text = "SHOW TABLES".toList then .ok [.showTables]
  else .error "sql parser error"

/-- `sqlparser` on two texts. -/
def sampleParser : SqlParser where
  Clause := Statement
  convertClause := .ok
  parse := sampleParse
  parseF64 _ := none

theorem conforms_sampleParser : SqlParser.Conforms asciiUnicode sampleParser where
  server text parsed hparse hserver := by
    have hparsed : text = "SELECT '@@'".toList ∨ text = "SHOW TABLES".toList := by
      by_contra hother
      rw [not_or] at hother
      have hnone : sampleParse text = .error "sql parser error" := by
        rw [sampleParse, if_neg hother.1, if_neg hother.2]
      cases hnone.symm.trans hparse
    have hnot : ∀ keyword ∈ ["USE ", "KILL"],
        startsWith (asciiUnicode.toUppercase text) keyword = false := by
      rcases hparsed with rfl | rfl
      · decide +kernel
      · decide +kernel
    rcases hserver with h | h
    · rw [hnot _ (by simp)] at h
      cases h
    · rw [hnot _ (by simp)] at h
      cases h

/-- SHOW TABLES reaches the engine. -/
theorem show_tables_is_routed :
    Routed asciiUnicode (sampleEngine [] []) (.inMemory blankCatalog) 0 "SHOW TABLES"
      ⟨0, none, none⟩ := by
  have haccepted : sampleParser.parseSql "SHOW TABLES" = .ok .showTables := by rfl
  refine (com_query_reaches_engine lawful_asciiUnicode conforms_sampleParser haccepted
    (by decide +kernel) (by decide +kernel) _ _ _ _).mpr ?_
  have hnot : selectsVariable (uppercased asciiUnicode "SHOW TABLES") = false ∧
      selectsDatabase (uppercased asciiUnicode "SHOW TABLES") = false ∧
      selectsUser (uppercased asciiUnicode "SHOW TABLES") = false ∧
      showsOther (uppercased asciiUnicode "SHOW TABLES") = false := by decide +kernel
  simp [Intercepted, hnot]

/-- Two accepted statements that the engine never sees: a SELECT whose string literal
contains the characters of a system variable, and SHOW INDEXES. -/
theorem two_statements_are_intercepted :
    (∀ query ∈ ["SELECT '@@'", "SHOW INDEXES FROM t"],
      (∃ statement, sampleParser.parseSql query = .ok statement) ∧
      OnlyInLiterals asciiUnicode query ∧
      startsWith (uppercased asciiUnicode query) "SET" = false ∧
      uppercased asciiUnicode query ≠ "SELECT 1".toList) ∧
    tryHandleSystemQuery asciiUnicode "SELECT '@@'" =
      .ok (some (.select ⟨["@@"], [[.text ""]]⟩)) ∧
    tryHandleSystemQuery asciiUnicode "SHOW INDEXES FROM t" =
      .ok (some (.select ⟨["Variable_name", "Value"], []⟩)) := by
  refine ⟨?_, by rfl, by rfl⟩
  intro query hquery
  simp only [List.mem_cons, List.not_mem_nil, or_false] at hquery
  rcases hquery with rfl | rfl
  · exact ⟨⟨.query selectAts, by rfl⟩, by unfold OnlyInLiterals; decide +kernel, by decide +kernel,
      by decide +kernel⟩
  · exact ⟨⟨.showIndexes "t", by rfl⟩, by unfold OnlyInLiterals; decide +kernel, by decide +kernel,
      by decide +kernel⟩

/-! ## SHOW INDEXES -/

/-- The word after SHOW is neither TABLES nor CREATE. -/
theorem not_startsWith_of_word (hU : U.Lawful) {rest word : List Char} {words : List (List Char)}
    {keyword other : String} (hwords : splitWhitespace rest = word :: words)
    (hword : eqIgnoreCase word keyword.toList = true)
    (hascii : ∀ c ∈ keyword.toList, c.toNat < 128)
    (hupper : keyword.toList.map Char.toUpper = keyword.toList)
    (hother : ¬ (keyword.toList <+: other.toList ∨ other.toList <+: keyword.toList))
    (hletter : ∀ c ∈ other.toList.head?, isWhiteSpace c = false) :
    startsWith (U.toUppercase rest) other = false := by
  by_cases htrimmed : Trimmed rest
  · have hbegins : BeginsWith keyword rest :=
      ⟨word, isPrefix_of_splitWhitespace htrimmed hwords, hword⟩
    exact not_startsWith_of_other hother (startsWith_of_beginsWith hU hascii hupper hbegins)
  · cases rest with
    | nil => exact absurd (fun c hc => by cases hc) htrimmed
    | cons c rest =>
      have hc : isWhiteSpace c = true := by
        by_contra hc
        refine htrimmed fun d hd => ?_
        obtain rfl : c = d := Option.some.inj hd
        simpa using hc
      refine Bool.eq_false_iff.mpr fun hstarts => ?_
      rw [startsWith_iff, Unicode.toUppercase, List.flatMap_cons, hU.whiteSpace c hc] at hstarts
      cases hlist : other.toList with
      | nil =>
        rw [hlist] at hother
        exact hother (Or.inr List.nil_prefix)
      | cons d ds =>
        rw [hlist] at hstarts hletter
        obtain ⟨rfl, -⟩ := List.cons_prefix_cons.mp hstarts
        rw [hletter d rfl] at hc
        cases hc

/-- **SHOW INDEXES reaches the engine only when SHOW is followed by white space other than
a space.** -/
theorem showIndexes_intercepted (hU : U.Lawful)
    (h : parseShowIndexes (splitWhitespace (trimmed query)) = .ok (some statement)) :
    ∃ word c rest, trimmed query = word ++ c :: rest ∧ isWhiteSpace c = true ∧
      eqIgnoreCase word "SHOW".toList = true ∧ (Intercepted U query ↔ c = ' ') := by
  rw [parseShowIndexes] at h
  split_ifs at h with hwords
  swap
  · cases h
  simp only [Bool.and_eq_true, Bool.or_eq_true, decide_eq_true_eq] at hwords
  obtain ⟨⟨⟨hlength, hshow⟩, hindex⟩, -⟩ := hwords
  cases hsplit : splitWhitespace (trimmed query) with
  | nil =>
    rw [hsplit] at hlength
    simp at hlength
  | cons word words =>
    rw [hsplit] at hshow hindex hlength
    rcases splitWhitespace_eq_cons (trimmed_trimmed query) hsplit with
      ⟨-, rfl⟩ | ⟨c, rest, htext, hc, hrest⟩
    · simp at hlength
    have hword : eqIgnoreCase word "SHOW".toList = true := hshow
    refine ⟨word, c, rest, htext, hc, hword, ?_⟩
    have hupper : uppercased U query = "SHOW".toList ++ c :: U.toUppercase rest := by
      rw [uppercased, htext, Unicode.toUppercase, List.flatMap_append, List.flatMap_cons,
        flatMap_of_eqIgnoreCase hU.ascii (by simp) hword, hU.whiteSpace c hc]
      simp [Unicode.toUppercase]
    have hselect : startsWith (uppercased U query) "SELECT" = false := by
      have hshow : startsWith (uppercased U query) "SHOW" = true := by
        rw [startsWith_iff, hupper]
        exact List.prefix_append _ _
      exact not_startsWith_of_other (by simp) hshow
    have hspace : startsWith (uppercased U query) "SHOW " = true ↔ c = ' ' := by
      rw [startsWith_iff, hupper]
      simp [eq_comm]
    have hiff : Intercepted U query ↔ showsOther (uppercased U query) = true := by
      simp [Intercepted, selectsVariable, selectsDatabase, selectsUser, hselect]
    rw [hiff]
    constructor
    · intro hother
      rw [showsOther, Bool.and_eq_true, Bool.and_eq_true] at hother
      exact hspace.mp hother.1.1
    · rintro rfl
      obtain ⟨next, after, hafter⟩ : ∃ next after, words = next :: after := by
        cases words with
        | nil => simp at hlength
        | cons next after => exact ⟨next, after, rfl⟩
      rw [hafter] at hrest hindex
      obtain ⟨keyword, hmem, hkeyword⟩ : ∃ keyword ∈ ["INDEX", "INDEXES", "KEYS"],
          eqIgnoreCase next keyword.toList = true := by
        rcases hindex with (hindex | hindex) | hindex
        · exact ⟨_, by simp, hindex⟩
        · exact ⟨_, by simp, hindex⟩
        · exact ⟨_, by simp, hindex⟩
      have hnot : ∀ other ∈ ["TABLES", "CREATE"],
          startsWith (U.toUppercase rest) other = false := by
        intro other hother
        have hall : ∀ keyword ∈ ["INDEX", "INDEXES", "KEYS"],
            (∀ c ∈ keyword.toList, c.toNat < 128) ∧
            keyword.toList.map Char.toUpper = keyword.toList ∧
            ∀ other ∈ ["TABLES", "CREATE"],
              ¬ (keyword.toList <+: other.toList ∨ other.toList <+: keyword.toList) := by
          simp
        have hletter : ∀ other ∈ ["TABLES", "CREATE"], ∀ c ∈ other.toList.head?,
            isWhiteSpace c = false := by
          simp
          decide
        obtain ⟨hascii, hcapitals, hothers⟩ := hall keyword hmem
        exact not_startsWith_of_word hU hrest hkeyword hascii hcapitals (hothers other hother)
          (hletter other hother)
      have htables : startsWith (uppercased U query) "SHOW TABLES" = false := by
        rw [← hnot "TABLES" (by simp), Bool.eq_iff_iff, startsWith_iff, startsWith_iff, hupper]
        simp
      have hcreate : startsWith (uppercased U query) "SHOW CREATE" = false := by
        rw [← hnot "CREATE" (by simp), Bool.eq_iff_iff, startsWith_iff, startsWith_iff, hupper]
        simp
      rw [showsOther, hspace.mpr rfl, htables, hcreate]
      rfl

end Wire
end RustyDB
