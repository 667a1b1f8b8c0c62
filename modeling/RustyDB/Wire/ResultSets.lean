import Mathlib
import RustyDB.Wire.Rows

/-!
# Result sets of COM_QUERY

The model of `encode_result_set` of `src/wire/mod.rs` and of the packets it is made of: the
count of the columns, their definitions, the rows, and an EOF behind either.

* `buildColumnDef`, `readColumnType` — a column definition, and the type a client finds in it.
* `inferredColumn`, `encodeResultSet` — the type of a column, looked up in the first row.
* `DeclaresTypes` — every declared type is VAR_STRING, or the type of all values but NULL.
* `declares_types_iff` — **that is so exactly when the value that is looked up for a column is
  a text or has the type of all values of the column but NULL.**
-/

namespace RustyDB
namespace Wire

open LineFile LittleEndian Sql

/-! ## Packets -/

/-- `NOT_NULL_FLAG`. -/
def notNullFlag : UInt16 := 0x0001
/-- `PRI_KEY_FLAG`. -/
def priKeyFlag : UInt16 := 0x0002
/-- `NUM_FLAG`. -/
def numFlag : UInt16 := 0x8000

/-- `build_column_count`. -/
def buildColumnCount (count : Nat) : Bytes := encodeLenencInt count

/-- `build_eof_packet_with_status`: the marker, no warnings, the status. -/
def buildEofPacketWithStatus (status : UInt16) : Bytes :=
  0xfe :: (toBytes 2 0 ++ toBytes 2 status.toNat)

/-- `column_flags`. -/
def columnFlags (type : DataType) (nullable primaryKey : Bool) : UInt16 :=
  (if nullable then 0 else notNullFlag) |||
    (if primaryKey then priKeyFlag ||| notNullFlag else 0) |||
    (if type = .integer ∨ type = .float ∨ type = .boolean then numFlag else 0)

/-- The character set of a column: utf8mb4, or binary for what is no text. -/
def columnCharset (type : UInt8) : Nat := if type = mysqlTypeVarString then 45 else 63

/-- The length of a column. -/
def columnLength (type : UInt8) : Nat :=
  if type = mysqlTypeLonglong then 20
  else if type = mysqlTypeDouble then 22
  else if type = mysqlTypeTiny then 4
  else if type = mysqlTypeVarString then 65535
  else 255

/-- `build_column_def`: catalog, schema, table and column twice, and what has a fixed length. -/
def buildColumnDef (name table : String) (type : UInt8) (flags : UInt16) : Bytes :=
  encodeLenencStr "def" ++ (encodeLenencStr "rustydb" ++ (encodeLenencStr table ++
    (encodeLenencStr table ++ (encodeLenencStr name ++ (encodeLenencStr name ++
      (0x0c :: (toBytes 2 (columnCharset type) ++ (toBytes 4 (columnLength type) ++
        (type :: (toBytes 2 flags.toNat ++
          [if type = mysqlTypeDouble then 31 else 0, 0, 0]))))))))))

/-- `count` length-encoded strings off the front. -/
def skipStrings : Nat → Bytes → Option Bytes
  | 0, rest => some rest
  | count + 1, rest => do
    let (_, rest) ← readLenencStr rest
    skipStrings count rest

/-- The type that a column definition declares: behind six strings, the length of what
follows, the character set and the length of the column. -/
def readColumnType (packet : Bytes) : Option UInt8 :=
  (skipStrings 6 packet).bind fun rest => rest[7]?

theorem skipStrings_encode {s : String} (h : (utf8 s).length < 2 ^ 64) (count : Nat)
    (rest : Bytes) :
    skipStrings (count + 1) (encodeLenencStr s ++ rest) = skipStrings count rest := by
  rw [skipStrings, readLenencStr_encode h]
  rfl

/-- **The type of a definition** is what it was built with. -/
theorem readColumnType_build {name table : String} (hname : (utf8 name).length < 2 ^ 64)
    (htable : (utf8 table).length < 2 ^ 64) (type : UInt8) (flags : UInt16) :
    readColumnType (buildColumnDef name table type flags) = some type := by
  have hcatalog : (utf8 "def").length < 2 ^ 64 := by decide
  have hschema : (utf8 "rustydb").length < 2 ^ 64 := by decide
  rw [readColumnType, buildColumnDef, skipStrings_encode hcatalog, skipStrings_encode hschema,
    skipStrings_encode htable, skipStrings_encode htable, skipStrings_encode hname,
    skipStrings_encode hname]
  rfl

/-! ## Result sets -/

/-- The type and the flags of a column: of the value that the first row has in the first
column of this name. -/
def inferredColumn (rs : ResultSet) (name : String) : UInt8 × UInt16 :=
  match rs.rows with
  | [] => (mysqlTypeVarString, 0)
  | first :: _ =>
    match first[(rs.columns.findIdx? (· = name)).getD 0]? with
    | none => (mysqlTypeVarString, 0)
    | some value => (datatypeToMysql value.dataType, columnFlags value.dataType true false)

/-- `encode_result_set`. -/
def encodeResultSet (formatFloat : F64 → String) (rs : ResultSet) (table : String)
    (status : UInt16) : List Bytes :=
  [buildColumnCount rs.columns.length] ++
    rs.columns.map (fun name =>
      buildColumnDef name table (inferredColumn rs name).1 (inferredColumn rs name).2) ++
    [buildEofPacketWithStatus status] ++
    rs.rows.map (buildTextRow formatFloat) ++
    [buildEofPacketWithStatus status]

/-- The packets declare for the column at each position VAR_STRING, or the type of every
value of the column that is not NULL. -/
def DeclaresTypes (rs : ResultSet) (packets : List Bytes) : Prop :=
  ∀ j, j < rs.columns.length → ∃ packet type, packets[j + 1]? = some packet ∧
    readColumnType packet = some type ∧
    (type = mysqlTypeVarString ∨ ∀ row ∈ rs.rows, ∀ value, row[j]? = some value →
      value.isNull = false → datatypeToMysql value.dataType = type)

/-- The value of the first row in the first column of this name is a text, or has the type
of every value of the column that is not NULL. -/
def FirstRowDecides (rs : ResultSet) (j : Nat) (name : String) : Prop :=
  ∀ first ∈ rs.rows.head?, ∀ k, rs.columns.findIdx? (· = name) = some k →
    ∀ decisive, first[k]? = some decisive → decisive.dataType = .text ∨
      ∀ row ∈ rs.rows, ∀ value, row[j]? = some value → value.isNull = false →
        value.dataType = decisive.dataType

theorem datatypeToMysql_injective : Function.Injective datatypeToMysql := by
  intro type type' h
  cases type <;> cases type' <;> first | rfl | exact absurd h (by decide)

theorem datatypeToMysql_eq_varString {type : DataType} :
    datatypeToMysql type = mysqlTypeVarString ↔ type = .text := by
  constructor
  · intro h
    exact datatypeToMysql_injective h
  · rintro rfl
    rfl

theorem getElem?_encodeResultSet {formatFloat : F64 → String} {rs : ResultSet} {table : String}
    {status : UInt16} {j : Nat} {name : String} (h : rs.columns[j]? = some name) :
    (encodeResultSet formatFloat rs table status)[j + 1]? =
      some (buildColumnDef name table (inferredColumn rs name).1 (inferredColumn rs name).2) := by
  obtain ⟨hlt, -⟩ := List.getElem?_eq_some_iff.mp h
  rw [encodeResultSet, List.append_assoc, List.append_assoc, List.append_assoc,
    List.singleton_append, List.getElem?_cons_succ,
    List.getElem?_append_left (by rwa [List.length_map]), List.getElem?_map, h]
  rfl

/-- **One column**: what is declared for it. -/
theorem inferredColumn_iff {rs : ResultSet} {j : Nat} {name : String}
    (h : rs.columns[j]? = some name) :
    ((inferredColumn rs name).1 = mysqlTypeVarString ∨ ∀ row ∈ rs.rows, ∀ value,
        row[j]? = some value → value.isNull = false →
          datatypeToMysql value.dataType = (inferredColumn rs name).1) ↔
      FirstRowDecides rs j name := by
  obtain ⟨k, hk⟩ : ∃ k, rs.columns.findIdx? (· = name) = some k := by
    rw [← Option.isSome_iff_exists, List.findIdx?_isSome, List.any_eq_true]
    exact ⟨name, List.mem_of_getElem? h, decide_eq_true rfl⟩
  cases hrows : rs.rows with
  | nil =>
    have hinferred : inferredColumn rs name = (mysqlTypeVarString, 0) := by
      rw [inferredColumn, hrows]
    rw [hinferred, FirstRowDecides, hrows]
    exact ⟨fun _ => nofun, fun _ => Or.inl rfl⟩
  | cons first rows =>
    cases hvalue : first[k]? with
    | none =>
      have hinferred : inferredColumn rs name = (mysqlTypeVarString, 0) := by
        simp only [inferredColumn, hrows, hk, Option.getD_some, hvalue]
      rw [hinferred, FirstRowDecides, hrows]
      refine ⟨fun _ first' hfirst k' hk' decisive hdecisive => ?_, fun _ => Or.inl rfl⟩
      obtain rfl := Option.some.inj hfirst
      obtain rfl := Option.some.inj (hk.symm.trans hk')
      rw [hvalue] at hdecisive
      cases hdecisive
    | some decisive =>
      have hinferred : (inferredColumn rs name).1 = datatypeToMysql decisive.dataType := by
        simp only [inferredColumn, hrows, hk, Option.getD_some, hvalue]
      rw [hinferred, datatypeToMysql_eq_varString, FirstRowDecides, hrows]
      simp only [datatypeToMysql_injective.eq_iff]
      constructor
      · rintro hdeclared first' hfirst k' hk' decisive' hdecisive
        obtain rfl := Option.some.inj hfirst
        obtain rfl := Option.some.inj (hk.symm.trans hk')
        obtain rfl := Option.some.inj (hvalue.symm.trans hdecisive)
        exact hdeclared
      · intro hdecides
        exact hdecides first rfl k hk decisive hvalue

/-- **Text result sets declare types their values have** exactly when, for every column, the
value that the first row has in the first column of the same name is a text or has the type
of every value of the column that is not NULL.  The names are as long as a name in memory
can be. -/
theorem declares_types_iff (formatFloat : F64 → String) (rs : ResultSet) (table : String)
    (status : UInt16) (htable : (utf8 table).length < 2 ^ 64)
    (hnames : ∀ name ∈ rs.columns, (utf8 name).length < 2 ^ 64) :
    DeclaresTypes rs (encodeResultSet formatFloat rs table status) ↔
      ∀ j name, rs.columns[j]? = some name → FirstRowDecides rs j name := by
  have hpacket : ∀ j name, rs.columns[j]? = some name → ∀ packet type,
      (encodeResultSet formatFloat rs table status)[j + 1]? = some packet →
        (readColumnType packet = some type ↔ type = (inferredColumn rs name).1) := by
    intro j name hname packet type hpacket
    rw [getElem?_encodeResultSet hname] at hpacket
    obtain rfl := Option.some.inj hpacket
    rw [readColumnType_build (hnames name (List.mem_of_getElem? hname)) htable, Option.some.injEq]
    exact eq_comm
  constructor
  · intro hdeclares j name hname
    obtain ⟨packet, type, hat, htype, hvalues⟩ :=
      hdeclares j (List.getElem?_eq_some_iff.mp hname).1
    obtain rfl := (hpacket j name hname packet type hat).mp htype
    exact (inferredColumn_iff hname).mp hvalues
  · intro hdecides j hj
    have hname : rs.columns[j]? = some rs.columns[j] := List.getElem?_eq_getElem hj
    refine ⟨_, _, getElem?_encodeResultSet hname,
      (hpacket j _ hname _ _ (getElem?_encodeResultSet hname)).mpr rfl, ?_⟩
    exact (inferredColumn_iff hname).mpr (hdecides j _ hname)

/-- A column of texts with a NULL, and a column of integers. -/
def namedNumbers : ResultSet :=
  ⟨["name", "n"], [[.text "one", .integer 1], [.null, .integer 2]]⟩

theorem named_numbers_declared :
    DeclaresTypes namedNumbers (encodeResultSet (fun _ => "") namedNumbers "" 2) := by
  refine (declares_types_iff (fun _ => "") namedNumbers "" 2 (by decide) (by decide)).mpr ?_
  intro j name hname first hfirst k hk decisive hdecisive
  obtain rfl := Option.some.inj hfirst
  match j with
  | 0 =>
    obtain rfl := Option.some.inj hname
    obtain rfl : 0 = k := Option.some.inj hk
    obtain rfl := Option.some.inj hdecisive
    exact Or.inl rfl
  | 1 =>
    obtain rfl := Option.some.inj hname
    obtain rfl : 1 = k := Option.some.inj hk
    obtain rfl := Option.some.inj hdecisive
    exact Or.inr (by decide)
  | _ + 2 => cases hname

/-- **A NULL in the first row** declares a column of integers as NULL, and **a repeated name**
declares a column of texts as integers. -/
theorem first_row_misleads :
    ¬ DeclaresTypes ⟨["n"], [[.null], [.integer 1]]⟩
        (encodeResultSet (fun _ => "") ⟨["n"], [[.null], [.integer 1]]⟩ "" 2) ∧
      ¬ DeclaresTypes ⟨["n", "n"], [[.integer 1, .text "one"]]⟩
        (encodeResultSet (fun _ => "") ⟨["n", "n"], [[.integer 1, .text "one"]]⟩ "" 2) := by
  constructor
  · intro h
    obtain ⟨packet, type, hat, htype, hvalues⟩ := h 0 (by decide)
    obtain rfl := Option.some.inj hat
    obtain rfl : mysqlTypeNull = type := Option.some.inj htype
    rcases hvalues with hvalues | hvalues
    · exact absurd hvalues (by decide)
    · exact absurd (hvalues [.integer 1] (by simp) (.integer 1) rfl rfl) (by decide)
  · intro h
    obtain ⟨packet, type, hat, htype, hvalues⟩ := h 1 (by decide)
    obtain rfl := Option.some.inj hat
    obtain rfl : mysqlTypeLonglong = type := Option.some.inj htype
    rcases hvalues with hvalues | hvalues
    · exact absurd hvalues (by decide)
    · exact absurd (hvalues [.integer 1, .text "one"] (by simp) (.text "one") rfl rfl) (by decide)

end Wire
end RustyDB
