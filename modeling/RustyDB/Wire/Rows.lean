import Mathlib
import RustyDB.Lib.Result
import RustyDB.Wire.Parameters

/-!
# Result rows

The model of `build_text_row` and `build_binary_row` of `src/wire/protocol.rs`, and the
readers of a client.

* `buildTextRow`, `readTextRow` — rows of COM_QUERY: a NULL is one byte, any other value a
  length-encoded text.
* `buildBinaryRow`, `readBinaryRow` — rows of COM_STMT_EXECUTE: a bitmap of the NULLs, then
  the other values by their types.
* `isNullAt_markNull` — a mark is the bit of its own column and no other.
* `rows_decodable` — **both encodings are read back, and nothing is left of the packet.**
-/

namespace RustyDB
namespace Wire

open LineFile LittleEndian Sql

/-! ## Text rows -/

section TextRows

variable (formatFloat : F64 → String)

/-- `Value::to_string`, with the text that the standard library gives a float. -/
def valueToString : Value → String
  | .integer n => toString n.toInt
  | .float x => formatFloat x
  | .text s => s
  | .boolean b => if b then "true" else "false"
  | .null => "NULL"

/-- One value of a text row. -/
def encodeTextValue : Value → Bytes
  | .null => [0xfb]
  | .boolean b => encodeLenencStr (if b then "1" else "0")
  | other => encodeLenencStr (valueToString formatFloat other)

/-- `build_text_row`. -/
def buildTextRow (values : List Value) : Bytes := values.flatMap (encodeTextValue formatFloat)

/-- What a text row says of a value: nothing of NULL, and its text otherwise. -/
def fieldText : Value → Option String
  | .null => none
  | .boolean b => some (if b then "1" else "0")
  | other => some (valueToString formatFloat other)

end TextRows

/-- A length-encoded string off the front. -/
def readLenencStr (rest : Bytes) : Option (String × Bytes) := do
  let (length, rest) ← readLenencInt rest
  let (raw, rest) ← takeBytes length rest
  let text ← decode raw
  pure (text, rest)

/-- One field of a text row: the byte of NULL, or a length-encoded string. -/
def readTextField : Bytes → Option (Option String × Bytes)
  | [] => none
  | first :: rest =>
    if first = 0xfb then some (none, rest)
    else (readLenencStr (first :: rest)).map fun read => (some read.1, read.2)

/-- Fields one after another, until nothing is left. -/
def readTextFields : Nat → Bytes → Option (List (Option String))
  | _, [] => some []
  | 0, _ :: _ => none
  | fuel + 1, rest => do
    let (field, rest) ← readTextField rest
    let fields ← readTextFields fuel rest
    pure (field :: fields)

/-- A text row: a field takes one byte at least. -/
def readTextRow (packet : Bytes) : Option (List (Option String)) :=
  readTextFields packet.length packet

/-- **A length-encoded string** is read back. -/
theorem readLenencStr_encode {s : String} (h : (utf8 s).length < 2 ^ 64) (rest : Bytes) :
    readLenencStr (encodeLenencStr s ++ rest) = some (s, rest) := by
  have hlength := readLenencInt_encode h (utf8 s ++ rest)
  have htake := takeBytes_append (rfl : (utf8 s).length = (utf8 s).length) rest
  simp only [readLenencStr, encodeLenencStr, List.append_assoc, hlength, htake, decode_utf8,
    Option.bind_eq_bind, Option.bind_some, Option.pure_def]

/-- No length begins with the byte of NULL. -/
theorem encodeLenencInt_head (value : Nat) :
    ∃ first rest, encodeLenencInt value = first :: rest ∧ first ≠ 0xfb := by
  unfold encodeLenencInt
  split
  · rename_i hsmall
    refine ⟨UInt8.ofNat value, [], rfl, ?_⟩
    intro heq
    have hbyte := congrArg UInt8.toNat heq
    rw [UInt8.toNat_ofNat'] at hbyte
    have hmark : (0xfb : UInt8).toNat = 251 := rfl
    omega
  · split
    · exact ⟨0xfc, _, rfl, by decide⟩
    · split
      · exact ⟨0xfd, _, rfl, by decide⟩
      · exact ⟨0xfe, _, rfl, by decide⟩

section TextRows

variable {formatFloat : F64 → String}

theorem encodeTextValue_eq (value : Value) :
    encodeTextValue formatFloat value =
      ((fieldText formatFloat value).map encodeLenencStr).getD [0xfb] := by
  cases value <;> rfl

theorem encodeTextValue_ne_nil (value : Value) : encodeTextValue formatFloat value ≠ [] := by
  rw [encodeTextValue_eq]
  cases fieldText formatFloat value with
  | none => exact List.cons_ne_nil _ _
  | some text =>
    obtain ⟨first, rest, hhead, -⟩ := encodeLenencInt_head (utf8 text).length
    show encodeLenencInt (utf8 text).length ++ utf8 text ≠ []
    rw [hhead]
    exact List.cons_ne_nil _ _

/-- **One field** is read back. -/
theorem readTextField_encode {value : Value}
    (h : ∀ text ∈ fieldText formatFloat value, (utf8 text).length < 2 ^ 64) (rest : Bytes) :
    readTextField (encodeTextValue formatFloat value ++ rest) =
      some (fieldText formatFloat value, rest) := by
  rw [encodeTextValue_eq]
  cases hfield : fieldText formatFloat value with
  | none => rfl
  | some text =>
    obtain ⟨first, tail, hhead, hne⟩ := encodeLenencInt_head (utf8 text).length
    have hread := readLenencStr_encode (h text hfield) rest
    simp only [Option.map_some, Option.getD_some]
    rw [encodeLenencStr, hhead, List.cons_append, List.cons_append] at hread ⊢
    rw [readTextField, if_neg hne, hread]
    rfl

theorem readTextFields_build {values : List Value} {fuel : Nat}
    (h : ∀ value ∈ values, ∀ text ∈ fieldText formatFloat value, (utf8 text).length < 2 ^ 64)
    (hfuel : (buildTextRow formatFloat values).length ≤ fuel) :
    readTextFields fuel (buildTextRow formatFloat values) =
      some (values.map (fieldText formatFloat)) := by
  induction values generalizing fuel with
  | nil => cases fuel <;> rfl
  | cons value values ih =>
    have hvalue := h value (by simp)
    have hvalues := fun other hother => h other (List.mem_cons_of_mem value hother)
    have hread := readTextField_encode hvalue (buildTextRow formatFloat values)
    obtain ⟨first, tail, hcons⟩ :=
      List.exists_cons_of_ne_nil (@encodeTextValue_ne_nil formatFloat value)
    rw [buildTextRow, List.flatMap_cons, ← buildTextRow, hcons, List.cons_append,
      List.length_cons, List.length_append] at hfuel
    obtain ⟨fuel, rfl⟩ : ∃ n, fuel = n + 1 := ⟨fuel - 1, by omega⟩
    have hrest := @ih fuel hvalues (by omega)
    rw [buildTextRow, List.flatMap_cons, ← buildTextRow]
    rw [hcons, List.cons_append] at hread ⊢
    simp only [readTextFields, hread, hrest, Option.bind_eq_bind, Option.bind_some,
      Option.pure_def, List.map_cons]

theorem readTextRow_build {values : List Value}
    (h : ∀ value ∈ values, ∀ text ∈ fieldText formatFloat value, (utf8 text).length < 2 ^ 64) :
    readTextRow (buildTextRow formatFloat values) = some (values.map (fieldText formatFloat)) :=
  readTextFields_build h (Nat.le_refl _)

end TextRows

/-! ## Binary rows -/

/-- One value of a binary row that is not NULL. -/
def encodeBinaryValue : Value → Bytes
  | .integer n => toBytes 8 (n.toInt % 256 ^ 8).toNat
  | .float x => toBytes 8 x.bits.toNat
  | .boolean b => [if b then 1 else 0]
  | .text s => encodeLenencStr s
  | .null => []

/-- The mark of a NULL: bit `index + 2` of the bitmap behind the header of one byte. -/
def markNull (packet : Bytes) (index : Nat) : Except Fault Bytes :=
  let bit := index + 2
  if 1 + bit / 8 < packet.length then
    .ok (packet.modify (1 + bit / 8) fun byte => byte ||| 1 <<< UInt8.ofNat (bit % 8))
  else .error .panic

/-- The loop over the values, from an index on. -/
def appendValues (packet : Bytes) (index : Nat) : List Value → Except Fault Bytes
  | [] => .ok packet
  | value :: values =>
    if value.isNull then do
      let packet ← markNull packet index
      appendValues packet (index + 1) values
    else appendValues (packet ++ encodeBinaryValue value) (index + 1) values

/-- `build_binary_row`. -/
def buildBinaryRow (values : List Value) : Except Fault Bytes :=
  appendValues (0 :: List.replicate ((values.length + 9) / 8) 0) 0 values

/-- One value of a type off the front. -/
def readBinaryValue : DataType → Bytes → Option (Value × Bytes)
  | .integer, rest =>
    (takeBytes 8 rest).map fun taken =>
      (.integer (Int64.ofInt (signedOf 8 (ofBytes taken.1))), taken.2)
  | .float, rest =>
    (takeBytes 8 rest).map fun taken => (.float ⟨UInt64.ofNat (ofBytes taken.1)⟩, taken.2)
  | .boolean, rest => (takeBytes 1 rest).map fun taken => (.boolean (taken.1 != [0]), taken.2)
  | .text, rest => (readLenencStr rest).map fun read => (.text read.1, read.2)
  | .null, _ => none

/-- The values of the columns from an index on. -/
def readBinaryValues (bitmap : Bytes) (index : Nat) :
    List DataType → Bytes → Option (List Value × Bytes)
  | [], rest => some ([], rest)
  | type :: types, rest => do
    let (value, rest) ←
      if isNullAt bitmap (index + 2) then some (.null, rest) else readBinaryValue type rest
    let (values, rest) ← readBinaryValues bitmap (index + 1) types rest
    pure (value :: values, rest)

/-- A binary row of columns with these types, and what is left of the packet. -/
def readBinaryRow (types : List DataType) : Bytes → Option (List Value × Bytes)
  | [] => none
  | header :: rest =>
    if header = 0 then do
      let (bitmap, rest) ← takeBytes ((types.length + 9) / 8) rest
      readBinaryValues bitmap 0 types rest
    else none

/-- **One value** that is not NULL is read back by its own type. -/
theorem readBinaryValue_encode {value : Value} (hnull : value.isNull = false)
    (h : ∀ s, value = .text s → (utf8 s).length < 2 ^ 64) (rest : Bytes) :
    readBinaryValue value.dataType (encodeBinaryValue value ++ rest) = some (value, rest) := by
  cases value with
  | null => cases hnull
  | integer n =>
    have hlow : -(256 ^ 8 / 2) ≤ n.toInt := n.le_toInt
    have hhigh : n.toInt < 256 ^ 8 / 2 := n.toInt_lt
    have hlt : (n.toInt % 256 ^ 8).toNat < 256 ^ 8 := by omega
    simp only [Value.dataType, readBinaryValue, encodeBinaryValue,
      takeBytes_append (length_toBytes _ _), Option.map_some, ofBytes_toBytes hlt,
      signedOf_emod (Nat.succ_pos 7) hlow hhigh, Int64.ofInt_toInt]
  | float x =>
    have hbits : x.bits.toNat < 256 ^ 8 := x.bits.toNat_lt
    simp only [Value.dataType, readBinaryValue, encodeBinaryValue,
      takeBytes_append (length_toBytes _ _), Option.map_some, ofBytes_toBytes hbits,
      UInt64.ofNat_toNat]
  | boolean b =>
    have htake := @takeBytes_append 1 [if b then 1 else 0] rfl rest
    simp only [Value.dataType, readBinaryValue, encodeBinaryValue, htake, Option.map_some]
    cases b <;> rfl
  | text s =>
    simp only [Value.dataType, readBinaryValue, encodeBinaryValue,
      readLenencStr_encode (h s rfl), Option.map_some]

/-! ### The bitmap -/

theorem testBit_or_shift (byte : UInt8) {bit i : Nat} (hbit : bit < 8) :
    (byte ||| 1 <<< UInt8.ofNat bit).toNat.testBit i = (byte.toNat.testBit i || i == bit) := by
  have hone : (1 <<< UInt8.ofNat bit : UInt8).toNat = 2 ^ bit := by
    interval_cases bit <;> rfl
  rw [UInt8.toNat_or, Nat.testBit_or, hone, Nat.testBit_two_pow]
  congr 1
  rw [Bool.eq_iff_iff, decide_eq_true_eq, beq_iff_eq]
  exact eq_comm

/-- **A mark** is the bit of its own index and no other. -/
theorem isNullAt_modify {bitmap : Bytes} {bit : Nat} (h : bit / 8 < bitmap.length) (i : Nat) :
    isNullAt (bitmap.modify (bit / 8) fun byte => byte ||| 1 <<< UInt8.ofNat (bit % 8)) i =
      (isNullAt bitmap i || i == bit) := by
  have hbit : bit % 8 < 8 := Nat.mod_lt _ (by decide)
  rw [isNullAt, isNullAt, List.getElem?_modify, Option.map_eq_map]
  by_cases hbyte : bit / 8 = i / 8
  · have hindex : (i % 8 == bit % 8) = (i == bit) := by
      rw [Bool.eq_iff_iff, beq_iff_eq, beq_iff_eq]
      omega
    rw [← hbyte, List.getElem?_eq_getElem h]
    simp only [if_true, Option.map_some, Option.any_some, testBit_or_shift _ hbit, hindex]
  · have hne : (i == bit) = false := by
      rw [beq_eq_false_iff_ne]
      rintro rfl
      exact hbyte rfl
    simp only [if_neg hbyte, hne, Bool.or_false, Option.map_id']

theorem modify_append_of_lt {α : Type} {l : List α} {i : Nat} (h : i < l.length) (l' : List α)
    (f : α → α) : (l ++ l').modify i f = l.modify i f ++ l' := by
  induction l generalizing i with
  | nil => cases h
  | cons a l ih =>
    cases i with
    | zero => rfl
    | succ i =>
      rw [List.cons_append, List.modify_succ_cons, List.modify_succ_cons,
        ih (Nat.lt_of_succ_lt_succ h), List.cons_append]

/-- The mark of an index of the row goes into the bitmap. -/
theorem markNull_eq {header : UInt8} {bitmap fields : Bytes} {index : Nat}
    (h : (index + 2) / 8 < bitmap.length) :
    markNull (header :: (bitmap ++ fields)) index =
      .ok (header :: ((bitmap.modify ((index + 2) / 8) fun byte =>
        byte ||| 1 <<< UInt8.ofNat ((index + 2) % 8)) ++ fields)) := by
  have hlength : 1 + (index + 2) / 8 < (header :: (bitmap ++ fields)).length := by
    rw [List.length_cons, List.length_append]
    omega
  show (if 1 + (index + 2) / 8 < (header :: (bitmap ++ fields)).length then _ else _) = _
  rw [if_pos hlength, Nat.add_comm 1, List.modify_succ_cons, modify_append_of_lt h]

/-- The bitmap marks the values from an index on that are NULL. -/
def Marks (bitmap : Bytes) (index : Nat) (values : List Value) : Prop :=
  ∀ i value, values[i]? = some value → isNullAt bitmap (index + i + 2) = value.isNull

theorem marks_cons {bitmap : Bytes} {index : Nat} {value : Value} {values : List Value} :
    Marks bitmap index (value :: values) ↔
      isNullAt bitmap (index + 2) = value.isNull ∧ Marks bitmap (index + 1) values := by
  constructor
  · intro h
    refine ⟨h 0 value rfl, fun i other hother => ?_⟩
    have hi := h (i + 1) other hother
    rwa [Nat.add_comm i, ← Nat.add_assoc] at hi
  · rintro ⟨hvalue, h⟩ i other hother
    cases i with
    | zero =>
      obtain rfl := Option.some.inj hother
      exact hvalue
    | succ i =>
      have hi := h i other hother
      rwa [Nat.add_assoc index, Nat.add_comm 1] at hi

/-- **The loop** marks the NULLs of the values that it is given, keeps the marks in front of
them, and appends the other values. -/
theorem appendValues_eq {header : UInt8} {values : List Value} {bitmap fields : Bytes} {index : Nat}
    (hroom : (index + values.length + 1) / 8 < bitmap.length)
    (hclear : ∀ i, index ≤ i → isNullAt bitmap (i + 2) = false) :
    ∃ bitmap', bitmap'.length = bitmap.length ∧ Marks bitmap' index values ∧
      (∀ i, i < index → isNullAt bitmap' (i + 2) = isNullAt bitmap (i + 2)) ∧
      appendValues (header :: (bitmap ++ fields)) index values =
        .ok (header :: (bitmap' ++ (fields ++ values.flatMap encodeBinaryValue))) := by
  induction values generalizing bitmap fields index with
  | nil => exact ⟨bitmap, rfl, nofun, fun _ _ => rfl, by simp [appendValues]⟩
  | cons value values ih =>
    rw [List.length_cons] at hroom
    have hroom' : (index + 1 + values.length + 1) / 8 < bitmap.length := by
      rwa [Nat.add_assoc index, Nat.add_comm 1]
    rw [appendValues]
    split
    · rename_i hnull
      have hbyte : (index + 2) / 8 < bitmap.length := by omega
      have hmodify := isNullAt_modify hbyte
      set marked := bitmap.modify ((index + 2) / 8) fun byte =>
        byte ||| 1 <<< UInt8.ofNat ((index + 2) % 8) with hmarked
      have hlength : marked.length = bitmap.length := List.length_modify _ _ _
      obtain ⟨bitmap', hlength', hmarks, hkept, heq⟩ := @ih marked fields (index + 1)
        (by rwa [hlength]) fun i hi => by
          rw [hmodify, hclear i (by omega), Bool.false_or, beq_eq_false_iff_ne]
          omega
      refine ⟨bitmap', hlength'.trans hlength, marks_cons.mpr ⟨?_, hmarks⟩, fun i hi => ?_, ?_⟩
      · rw [hkept index (Nat.lt_succ_self _), hmodify, beq_self_eq_true, Bool.or_true, hnull]
      · have hother : (i + 2 == index + 2) = false := by
          rw [beq_eq_false_iff_ne]
          omega
        rw [hkept i (by omega), hmodify, hother, Bool.or_false]
      · have hencode : encodeBinaryValue value = [] := by
          cases value <;> simp [Value.isNull] at hnull ⊢
          rfl
        rw [markNull_eq hbyte, Result.ok_bind, heq, List.flatMap_cons, hencode, List.nil_append]
    · rename_i hnull
      obtain ⟨bitmap', hlength', hmarks, hkept, heq⟩ := @ih bitmap
        (fields ++ encodeBinaryValue value) (index + 1) hroom' fun i hi => hclear i (by omega)
      refine ⟨bitmap', hlength', marks_cons.mpr ⟨?_, hmarks⟩, fun i hi => hkept i (by omega), ?_⟩
      · rw [hkept index (Nat.lt_succ_self _), hclear index (Nat.le_refl _)]
        exact (Bool.eq_false_iff.mpr hnull).symm
      · rw [List.cons_append, List.append_assoc, heq, List.flatMap_cons, List.append_assoc]

/-- **The fields** behind the bitmap are read back. -/
theorem readBinaryValues_encode {bitmap : Bytes} {values : List Value} {index : Nat}
    (hmarks : Marks bitmap index values)
    (h : ∀ s, Value.text s ∈ values → (utf8 s).length < 2 ^ 64) (rest : Bytes) :
    readBinaryValues bitmap index (values.map Value.dataType)
        (values.flatMap encodeBinaryValue ++ rest) = some (values, rest) := by
  induction values generalizing index with
  | nil => rfl
  | cons value values ih =>
    obtain ⟨hvalue, hmarks⟩ := marks_cons.mp hmarks
    have hrest := ih hmarks fun s hs => h s (List.mem_cons_of_mem _ hs)
    rw [List.map_cons, List.flatMap_cons, List.append_assoc, readBinaryValues, hvalue]
    cases hnull : value.isNull with
    | true =>
      obtain rfl : value = .null := by
        cases value <;> simp [Value.isNull] at hnull ⊢
      have hencode : encodeBinaryValue .null = [] := rfl
      simp only [if_true, hencode, List.nil_append, hrest, Option.bind_eq_bind, Option.bind_some,
        Option.pure_def]
    | false =>
      have hread := readBinaryValue_encode hnull
        (fun s hs => h s (by rw [hs]; exact List.mem_cons_self))
        (values.flatMap encodeBinaryValue ++ rest)
      simp only [Bool.false_eq_true, if_false, hread, hrest, Option.bind_eq_bind, Option.bind_some,
        Option.pure_def]

/-- **A binary row** is built without an access out of range, and is read back. -/
theorem readBinaryRow_build {values : List Value}
    (h : ∀ s, Value.text s ∈ values → (utf8 s).length < 2 ^ 64) :
    ∃ packet, buildBinaryRow values = .ok packet ∧
      readBinaryRow (values.map Value.dataType) packet = some (values, []) := by
  have hlength : (List.replicate ((values.length + 9) / 8) (0 : UInt8)).length =
      (values.length + 9) / 8 := List.length_replicate
  have hclear : ∀ i, isNullAt (List.replicate ((values.length + 9) / 8) 0) i = false := by
    intro i
    rw [isNullAt, List.getElem?_replicate]
    split <;> simp
  obtain ⟨bitmap, hbitmap, hmarks, -, hbuild⟩ :=
    @appendValues_eq 0 values (List.replicate ((values.length + 9) / 8) 0) [] 0
      (by rw [hlength]; omega) fun i _ => hclear (i + 2)
  rw [List.append_nil, List.nil_append] at hbuild
  refine ⟨_, hbuild, ?_⟩
  have htake := takeBytes_append (hbitmap.trans hlength) (values.flatMap encodeBinaryValue)
  have hvalues := readBinaryValues_encode hmarks h []
  rw [List.append_nil] at hvalues
  simp only [readBinaryRow, if_true, List.length_map, htake, hvalues, Option.bind_eq_bind,
    Option.bind_some]

/-! ## Both encodings -/

/-- **Rows are uniquely decodable.**  A text row gives back, column by column, NULL or the
text of the value, and a binary row with the types of its values the values themselves; both
readers end where the packet ends.  A text in memory has fewer than `2 ^ 64` bytes. -/
theorem rows_decodable (formatFloat : F64 → String) (values : List Value)
    (h : ∀ value ∈ values, ∀ text ∈ fieldText formatFloat value, (utf8 text).length < 2 ^ 64) :
    readTextRow (buildTextRow formatFloat values) = some (values.map (fieldText formatFloat)) ∧
      ∃ packet, buildBinaryRow values = .ok packet ∧
        readBinaryRow (values.map Value.dataType) packet = some (values, []) :=
  ⟨readTextRow_build h, readBinaryRow_build fun s hs => h (.text s) hs s rfl⟩

/-- A row with the first NULL in the second byte of the bitmap. -/
def sampleRow : List Value :=
  [.integer (-7), .text "héllo", .boolean true, .text "", .float ⟨0x3ff8000000000000⟩,
    .boolean false, .null, .integer 300]

theorem sample_row_decodable :
    readTextRow (buildTextRow (fun _ => "1.5") sampleRow) =
        some [some "-7", some "héllo", some "1", some "", some "1.5", some "0", none,
          some "300"] ∧
      ∃ packet, buildBinaryRow sampleRow = .ok packet ∧
        readBinaryRow [.integer, .text, .boolean, .text, .float, .boolean, .null, .integer]
          packet = some (sampleRow, []) :=
  rows_decodable (fun _ => "1.5") sampleRow (by decide)

end Wire
end RustyDB
