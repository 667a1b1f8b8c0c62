import Mathlib
import RustyDB.Wire.Protocol

/-!
# Parameters of prepared statements

The model of `decode_stmt_parameters` of `src/wire/mod.rs`, which takes the parameters of
COM_STMT_EXECUTE out of a packet.

* `WirePreparedStatement`, `decodeValue`, `decodeStmtParameters` — the statement with the
  types its client sent last, one value off the packet, all of them.
* `Parameter`, `Execution`, `Execution.packet` — what a client encodes, and the packet.
* `decodeValue_encode`, `isNullAt_nullBitmap` — one value and the bitmap are read back.
* `parameters_round_trip` — **every execution of a sequence is decoded to what the client
  encoded exactly when the statement has parameters.**
-/

namespace RustyDB
namespace Wire

open LineFile LittleEndian Sql

/-! ## Decoding -/

/-- A prepared statement of a connection: how many parameters it has, the types that were
sent for them last, and what COM_STMT_SEND_LONG_DATA has sent. -/
structure WirePreparedStatement where
  parameterCount : Nat
  parameterTypes : List UInt16 := []
  longData : AList (fun _ : Nat => Bytes) := ∅

/-- The low byte of a parameter type. -/
def typeCode (type : UInt16) : UInt8 := type.toUInt8

/-- The high bit of a parameter type. -/
def isUnsigned (type : UInt16) : Bool := type &&& 0x8000 != 0

/-- How many bytes an integer type takes. -/
def integerWidth (code : UInt8) : Option Nat :=
  if code = mysqlTypeTiny then some 1
  else if code = mysqlTypeShort then some 2
  else if code = mysqlTypeLong then some 4
  else if code = mysqlTypeLonglong then some 8
  else none

/-- `raw as iN`: the two's complement of `width` bytes. -/
def signedOf (width raw : Nat) : Int :=
  if raw < 256 ^ width / 2 then raw else (raw : Int) - 256 ^ width

/-- The four integer branches; only eight unsigned bytes can exceed the range. -/
def decodeInteger (width : Nat) (unsigned : Bool) (rest : Bytes) :
    Except String (Value × Bytes) :=
  match takeBytes width rest with
  | none => .error "Truncated prepared parameter"
  | some (raw, rest) =>
    let n := ofBytes raw
    if unsigned && decide (2 ^ 63 ≤ n) then
      .error "Unsigned integer exceeds RustyDB INTEGER range"
    else .ok (.integer (Int64.ofInt (if unsigned then n else signedOf width n)), rest)

/-- `f32 as f64`: exact, and a number that is none stays none. -/
def floatOfBits32 (bits : Nat) : F64 :=
  let sign := decide (2 ^ 31 ≤ bits)
  let exponent := bits / 2 ^ 23 % 2 ^ 8
  let fraction := bits % 2 ^ 23
  if exponent = 255 then
    F64.ofMagnitude sign
      (if fraction = 0 then F64.infMagnitude
      else F64.infMagnitude ||| 2 ^ 51 ||| fraction * 2 ^ 29)
  else if exponent = 0 then F64.round sign (fraction * 2 ^ 925) 1
  else F64.round sign ((fraction + 2 ^ 23) * 2 ^ (exponent + 924)) 1

/-- The codes of strings: VAR_STRING, VARCHAR, BLOB and STRING. -/
def isStringCode (code : UInt8) : Bool :=
  code == mysqlTypeVarString || code == 0x0f || code == 0xfc || code == 0xfe

/-- Two hexadecimal digits, `{:02X}`. -/
def hexByte (b : UInt8) : String :=
  let digit (n : Nat) : Char := ("0123456789ABCDEF".toList[n]?).getD '0'
  String.ofList [digit (b.toNat / 16), digit (b.toNat % 16)]

/-- One value of a type, off the bytes that are left of the packet. -/
def decodeValue (type : UInt16) (rest : Bytes) : Except String (Value × Bytes) :=
  let code := typeCode type
  if code = mysqlTypeNull then .ok (.null, rest)
  else
    match integerWidth code with
    | some width => decodeInteger width (isUnsigned type) rest
    | none =>
      if code = mysqlTypeFloat then
        match takeBytes 4 rest with
        | none => .error "Truncated prepared parameter"
        | some (raw, rest) => .ok (.float (floatOfBits32 (ofBytes raw)), rest)
      else if code = mysqlTypeDouble then
        match takeBytes 8 rest with
        | none => .error "Truncated prepared parameter"
        | some (raw, rest) => .ok (.float ⟨UInt64.ofNat (ofBytes raw)⟩, rest)
      else if isStringCode code then
        match readLenencInt rest with
        | none => .error "Invalid string parameter length"
        | some (length, rest) =>
          match takeBytes length rest with
          | none => .error "Truncated prepared parameter"
          | some (raw, rest) =>
            match decode raw with
            | none => .error "String parameter is not valid UTF-8"
            | some text => .ok (.text text, rest)
      else .error ("Unsupported prepared parameter type 0x" ++ hexByte code)

/-- Whether the bitmap marks a parameter as NULL. -/
def isNullAt (nullBitmap : Bytes) (index : Nat) : Bool :=
  (nullBitmap[index / 8]?).any fun byte => byte.toNat.testBit (index % 8)

/-- The loop over the parameters, from an index on; long data is used up. -/
def decodeValues (nullBitmap : Bytes) (index : Nat) (types : List UInt16)
    (longData : AList (fun _ : Nat => Bytes)) (rest : Bytes) :
    AList (fun _ : Nat => Bytes) × Except String (List Value) :=
  match types with
  | [] => (longData, .ok [])
  | type :: types =>
    if isNullAt nullBitmap index then
      let decoded := decodeValues nullBitmap (index + 1) types longData rest
      (decoded.1, decoded.2.map (.null :: ·))
    else
      match longData.lookup index with
      | some bytes =>
        match decode bytes with
        | none => (longData.erase index, .error "Long parameter data is not valid UTF-8")
        | some text =>
          let decoded := decodeValues nullBitmap (index + 1) types (longData.erase index) rest
          (decoded.1, decoded.2.map (.text text :: ·))
      | none =>
        match decodeValue type rest with
        | .error error => (longData, .error error)
        | .ok (value, rest) =>
          let decoded := decodeValues nullBitmap (index + 1) types longData rest
          (decoded.1, decoded.2.map (value :: ·))

/-- The types of a packet, two bytes each. -/
def readTypes : Nat → Bytes → List UInt16 × Bytes
  | 0, rest => ([], rest)
  | count + 1, rest =>
    let types := readTypes count (rest.drop 2)
    (UInt16.ofNat (ofBytes (rest.take 2)) :: types.1, types.2)

/-- `decode_stmt_parameters`, with the statement it leaves. -/
def decodeStmtParameters (data : Bytes) (statement : WirePreparedStatement) :
    WirePreparedStatement × Except String (List Value) :=
  let count := statement.parameterCount
  if data.length < 10 then (statement, .error "COM_STMT_EXECUTE packet is too short")
  else
    let rest := data.drop 10
    let bitmapLength := (count + 7) / 8
    if rest.length < bitmapLength + 1 then (statement, .error "Invalid parameter null bitmap")
    else
      let nullBitmap := rest.take bitmapLength
      let newTypes := rest[bitmapLength]? != some 0
      let rest := rest.drop (bitmapLength + 1)
      if newTypes && decide (rest.length < count * 2) then
        (statement, .error "Missing prepared parameter types")
      else
        let supplied := if newTypes then readTypes count rest else (statement.parameterTypes, rest)
        let statement := { statement with parameterTypes := supplied.1 }
        if supplied.1.length ≠ count then
          (statement, .error "Parameter types were not supplied")
        else
          let decoded := decodeValues nullBitmap 0 supplied.1 statement.longData supplied.2
          ({ statement with longData := decoded.1 }, decoded.2)

/-- Successive executions of one statement. -/
def decodeExecutions (statement : WirePreparedStatement) : List Bytes →
    List (Except String (List Value))
  | [] => []
  | data :: packets =>
    let decoded := decodeStmtParameters data statement
    decoded.2 :: decodeExecutions decoded.1 packets

/-! ## The client -/

/-- A parameter of a client: its type and its value. -/
structure Parameter where
  type : UInt16
  value : Value

/-- The type can carry the value: NULL has any type, integers fit their width, doubles
are DOUBLE, and a text has a length that its prefix can carry. -/
def Parameter.Conforms (p : Parameter) : Prop :=
  match p.value with
  | .null => True
  | .integer n =>
    ∃ width, integerWidth (typeCode p.type) = some width ∧
      if isUnsigned p.type then 0 ≤ n.toInt ∧ n.toInt < 256 ^ width
      else -(256 ^ width / 2) ≤ n.toInt ∧ n.toInt < 256 ^ width / 2
  | .float _ => typeCode p.type = mysqlTypeDouble
  | .text s => isStringCode (typeCode p.type) = true ∧ (utf8 s).length < 2 ^ 64
  | .boolean _ => False

/-- The bytes of a value that is not NULL. -/
def Parameter.encode (p : Parameter) : Bytes :=
  match p.value with
  | .null => []
  | .integer n =>
    let width := (integerWidth (typeCode p.type)).getD 0
    toBytes width (n.toInt % 256 ^ width).toNat
  | .float x => toBytes 8 x.bits.toNat
  | .text s => encodeLenencStr s
  | .boolean _ => []

/-- The null bitmap of values: bit `i % 8` of byte `i / 8` for the `i`-th. -/
def nullBitmap (values : List Value) : Bytes :=
  (List.range ((values.length + 7) / 8)).map fun j =>
    UInt8.ofNat (Nat.ofBits fun i : Fin 8 => (values[8 * j + i.val]?).any Value.isNull)

/-- One COM_STMT_EXECUTE of a client: the ten bytes in front, the parameters, and whether
their types are sent. -/
structure Execution where
  header : Bytes
  parameters : List Parameter
  newTypes : Bool

/-- The packet: without parameters it is the header alone. -/
def Execution.packet (e : Execution) : Bytes :=
  if e.parameters = [] then e.header
  else
    e.header ++ nullBitmap (e.parameters.map Parameter.value) ++
      (if e.newTypes then 1 :: e.parameters.flatMap fun p => toBytes 2 p.type.toNat else [0]) ++
      e.parameters.flatMap Parameter.encode

/-- The executions a client may send of a statement with `count` parameters when the types
it sent last are `known`: types may be left out when they are the same. -/
def Conforming (count : Nat) (known : List UInt16) : List Execution → Prop
  | [] => True
  | e :: executions =>
    e.header.length = 10 ∧ e.parameters.length = count ∧ (∀ p ∈ e.parameters, p.Conforms) ∧
      (e.newTypes = true ∨ known = e.parameters.map Parameter.type) ∧
      Conforming count (e.parameters.map Parameter.type) executions

/-! ## Reading back -/

theorem signedOf_emod {width : Nat} {n : Int} (hwidth : 0 < width)
    (hlow : -(256 ^ width / 2) ≤ n) (hhigh : n < 256 ^ width / 2) :
    signedOf width (n % 256 ^ width).toNat = n := by
  obtain ⟨half, hhalf⟩ : ∃ half : Nat, 256 ^ width = 2 * half := by
    obtain ⟨w, rfl⟩ : ∃ w, width = w + 1 := ⟨width - 1, by omega⟩
    exact ⟨256 ^ w * 128, by rw [Nat.pow_succ]; ring⟩
  have hcast : (256 : Int) ^ width = 2 * half := by
    have h := congrArg (fun n : Nat => (n : Int)) hhalf
    simpa using h
  rw [hcast] at hlow hhigh
  rw [signedOf, hcast, hhalf]
  by_cases hsign : 0 ≤ n
  · have hmod : n % (2 * half) = n := Int.emod_eq_of_lt hsign (by omega)
    rw [hmod]
    split
    · omega
    · omega
  · have hmod : n % (2 * half) = n + 2 * half := by
      rw [← Int.add_emod_right, Int.emod_eq_of_lt (by omega) (by omega)]
    rw [hmod]
    split
    · omega
    · omega

/-- The widths of integers. -/
theorem integerWidth_cases {code : UInt8} {width : Nat} (h : integerWidth code = some width) :
    (width = 1 ∨ width = 2 ∨ width = 4 ∨ width = 8) ∧ code ≠ mysqlTypeNull := by
  unfold integerWidth at h
  split at h
  · rename_i hcode
    subst hcode
    exact ⟨Or.inl (Option.some.inj h).symm, by decide⟩
  · split at h
    · rename_i hcode
      subst hcode
      exact ⟨Or.inr (Or.inl (Option.some.inj h).symm), by decide⟩
    · split at h
      · rename_i hcode
        subst hcode
        exact ⟨Or.inr (Or.inr (Or.inl (Option.some.inj h).symm)), by decide⟩
      · split at h
        · rename_i hcode
          subst hcode
          exact ⟨Or.inr (Or.inr (Or.inr (Option.some.inj h).symm)), by decide⟩
        · cases h

theorem decodeInteger_encode {width : Nat} {unsigned : Bool} {n : Int64}
    (hwidth : width = 1 ∨ width = 2 ∨ width = 4 ∨ width = 8)
    (hfits : if unsigned then 0 ≤ n.toInt ∧ n.toInt < 256 ^ width
      else -(256 ^ width / 2) ≤ n.toInt ∧ n.toInt < 256 ^ width / 2) (rest : Bytes) :
    decodeInteger width unsigned (toBytes width (n.toInt % 256 ^ width).toNat ++ rest) =
      .ok (.integer n, rest) := by
  have hpos : (0 : Int) < 256 ^ width := by positivity
  have hlt : (n.toInt % 256 ^ width).toNat < 256 ^ width := by
    have hmod := Int.emod_lt_of_pos n.toInt hpos
    have hnonneg := Int.emod_nonneg n.toInt (ne_of_gt hpos)
    zify
    rw [Int.toNat_of_nonneg hnonneg]
    exact hmod
  rw [decodeInteger, takeBytes_append (length_toBytes _ _)]
  simp only [ofBytes_toBytes hlt]
  have hmax : n.toInt < 2 ^ 63 := n.toInt_lt
  cases unsigned with
  | true =>
    simp only [if_true] at hfits
    have hmod : n.toInt % 256 ^ width = n.toInt := Int.emod_eq_of_lt hfits.1 hfits.2
    have hrange : ¬ 2 ^ 63 ≤ n.toInt.toNat := by omega
    rw [hmod]
    simp only [hrange, decide_false, Bool.and_false, Bool.false_eq_true, if_false, if_true]
    rw [Int.toNat_of_nonneg hfits.1, Int64.ofInt_toInt]
  | false =>
    simp only [Bool.false_eq_true, if_false] at hfits
    simp only [Bool.false_and, Bool.false_eq_true, if_false]
    rw [signedOf_emod (by omega) hfits.1 hfits.2, Int64.ofInt_toInt]

/-- **One value** that is not NULL is read back. -/
theorem decodeValue_encode {p : Parameter} (hp : p.Conforms) (hnull : p.value.isNull = false)
    (rest : Bytes) : decodeValue p.type (p.encode ++ rest) = .ok (p.value, rest) := by
  obtain ⟨type, value⟩ := p
  cases value with
  | null => cases hnull
  | boolean b => exact absurd hp id
  | integer n =>
    obtain ⟨width, hwidth, hfits⟩ := hp
    obtain ⟨hcases, hcode⟩ := integerWidth_cases hwidth
    simp only [decodeValue, Parameter.encode, hwidth, if_neg hcode, Option.getD_some]
    exact decodeInteger_encode hcases hfits rest
  | float x =>
    have hcode : typeCode type = mysqlTypeDouble := hp
    have hnone : integerWidth mysqlTypeDouble = none := by decide
    have hbits : x.bits.toNat < 256 ^ 8 := x.bits.toNat_lt
    have hnotNull : mysqlTypeDouble ≠ mysqlTypeNull := by decide
    have hnotFloat : mysqlTypeDouble ≠ mysqlTypeFloat := by decide
    simp only [decodeValue, hcode, hnone, if_neg hnotNull, if_neg hnotFloat, if_true,
      Parameter.encode, takeBytes_append (length_toBytes _ _), ofBytes_toBytes hbits,
      UInt64.ofNat_toNat]
  | text s =>
    obtain ⟨hcode, hlength⟩ := hp
    have hstring : typeCode type = mysqlTypeVarString ∨ typeCode type = 0x0f ∨
        typeCode type = 0xfc ∨ typeCode type = 0xfe := by
      simpa [isStringCode, or_assoc] using hcode
    have hother : typeCode type ≠ mysqlTypeNull ∧ integerWidth (typeCode type) = none ∧
        typeCode type ≠ mysqlTypeFloat ∧ typeCode type ≠ mysqlTypeDouble := by
      rcases hstring with h | h | h | h <;> rw [h] <;> decide
    obtain ⟨hnotNull, hnone, hnotFloat, hnotDouble⟩ := hother
    simp only [decodeValue, if_neg hnotNull, hnone, if_neg hnotFloat, if_neg hnotDouble,
      if_pos hcode, Parameter.encode, encodeLenencStr, List.append_assoc,
      readLenencInt_encode hlength, takeBytes_append rfl, decode_utf8]

@[simp] theorem length_nullBitmap (values : List Value) :
    (nullBitmap values).length = (values.length + 7) / 8 := by
  simp [nullBitmap]

/-- **The bitmap** marks the values that are NULL. -/
theorem isNullAt_nullBitmap {values : List Value} {index : Nat} {value : Value}
    (h : values[index]? = some value) : isNullAt (nullBitmap values) index = value.isNull := by
  obtain ⟨hlt, -⟩ := List.getElem?_eq_some_iff.mp h
  have hbyte : (nullBitmap values)[index / 8]? =
      some (UInt8.ofNat (Nat.ofBits fun i : Fin 8 =>
        (values[8 * (index / 8) + i.val]?).any Value.isNull)) := by
    rw [nullBitmap, List.getElem?_map, List.getElem?_range (by omega)]
    rfl
  have hsmall := Nat.ofBits_lt_two_pow fun i : Fin 8 =>
    (values[8 * (index / 8) + i.val]?).any Value.isNull
  have hindex : 8 * (index / 8) + index % 8 = index := by omega
  rw [isNullAt, hbyte, Option.any_some, UInt8.toNat_ofNat', Nat.mod_eq_of_lt hsmall,
    Nat.testBit_ofBits_lt _ _ (by omega)]
  simp only [hindex, h, Option.any_some]

/-- **All values** are read back, from any of them on. -/
theorem decodeValues_encode {bitmap : Bytes} {parameters : List Parameter} {index : Nat}
    (hconforms : ∀ p ∈ parameters, p.Conforms)
    (hbitmap : ∀ i p, parameters[i]? = some p → isNullAt bitmap (index + i) = p.value.isNull) :
    decodeValues bitmap index (parameters.map Parameter.type) ∅
        (parameters.flatMap Parameter.encode) =
      (∅, .ok (parameters.map Parameter.value)) := by
  induction parameters generalizing index with
  | nil => rfl
  | cons p parameters ih =>
    have hrest := @ih (index + 1) (fun q hq => hconforms q (List.mem_cons_of_mem _ hq))
      fun i q hq => by
        rw [Nat.add_assoc, Nat.add_comm 1 i]
        exact hbitmap (i + 1) q (by simpa using hq)
    have hfirst : isNullAt bitmap index = p.value.isNull := hbitmap 0 p rfl
    rw [List.map_cons, List.flatMap_cons, decodeValues, hfirst]
    split
    · rename_i hnull
      have hvalue : p.value = .null := by
        cases hp : p.value <;> simp [hp, Value.isNull] at hnull ⊢
      have hencode : p.encode = [] := by rw [Parameter.encode, hvalue]
      rw [hencode, List.nil_append, hrest, List.map_cons, hvalue]
      rfl
    · rename_i hnull
      have hread := decodeValue_encode (hconforms p (by simp)) (by simpa using hnull)
        (parameters.flatMap Parameter.encode)
      rw [AList.lookup_empty]
      simp only [hread, hrest]
      rfl

theorem readTypes_encode (parameters : List Parameter) (rest : Bytes) :
    readTypes parameters.length
        ((parameters.flatMap fun p => toBytes 2 p.type.toNat) ++ rest) =
      (parameters.map Parameter.type, rest) := by
  induction parameters with
  | nil => rfl
  | cons p parameters ih =>
    have htype : p.type.toNat < 256 ^ 2 := p.type.toNat_lt
    rw [List.length_cons, readTypes, List.flatMap_cons, List.append_assoc,
      List.drop_left' (length_toBytes _ _), List.take_left' (length_toBytes _ _), ih,
      ofBytes_toBytes htype, UInt16.ofNat_toNat]
    rfl

/-- A packet of a statement, taken apart: the header, the bitmap, the flag and the rest. -/
theorem decodeStmtParameters_append {header bitmap tail : Bytes} {flag : UInt8}
    {statement : WirePreparedStatement} (hheader : header.length = 10)
    (hbitmap : bitmap.length = (statement.parameterCount + 7) / 8) :
    decodeStmtParameters (header ++ (bitmap ++ flag :: tail)) statement =
      if (some flag != some 0) && decide (tail.length < statement.parameterCount * 2) then
        (statement, .error "Missing prepared parameter types")
      else
        let supplied :=
          if some flag != some 0 then readTypes statement.parameterCount tail
          else (statement.parameterTypes, tail)
        let statement' := { statement with parameterTypes := supplied.1 }
        if supplied.1.length ≠ statement.parameterCount then
          (statement', .error "Parameter types were not supplied")
        else
          let decoded := decodeValues bitmap 0 supplied.1 statement.longData supplied.2
          ({ statement' with longData := decoded.1 }, decoded.2) := by
  have hlong : ¬ (header ++ (bitmap ++ flag :: tail)).length < 10 := by
    rw [List.length_append]
    omega
  have hfits : ¬ (bitmap ++ flag :: tail).length < (statement.parameterCount + 7) / 8 + 1 := by
    rw [List.length_append, List.length_cons]
    omega
  have hflag : (bitmap ++ flag :: tail)[(statement.parameterCount + 7) / 8]? = some flag := by
    rw [← hbitmap, List.getElem?_append_right (Nat.le_refl _), Nat.sub_self]
    rfl
  have htail : (bitmap ++ flag :: tail).drop ((statement.parameterCount + 7) / 8 + 1) = tail := by
    rw [← hbitmap, List.append_cons]
    exact List.drop_left' (by simp)
  rw [decodeStmtParameters]
  simp only [if_neg hlong, List.drop_left' hheader, if_neg hfits, List.take_left' hbitmap, hflag,
    htail]

/-- **One execution** of a statement that has parameters, when their types are sent or
known. -/
theorem decodeStmtParameters_packet {e : Execution} {statement : WirePreparedStatement}
    (hheader : e.header.length = 10) (hcount : e.parameters.length = statement.parameterCount)
    (hpos : 0 < statement.parameterCount) (hconforms : ∀ p ∈ e.parameters, p.Conforms)
    (htypes : e.newTypes = true ∨ statement.parameterTypes = e.parameters.map Parameter.type)
    (hlong : statement.longData = ∅) :
    decodeStmtParameters e.packet statement =
      ({ statement with parameterTypes := e.parameters.map Parameter.type },
        .ok (e.parameters.map Parameter.value)) := by
  have hne : e.parameters ≠ [] := by
    rintro hnil
    rw [hnil] at hcount
    exact absurd hcount (Nat.ne_of_lt hpos)
  have hbitmap : (nullBitmap (e.parameters.map Parameter.value)).length =
      (statement.parameterCount + 7) / 8 := by
    rw [length_nullBitmap, List.length_map, hcount]
  have hlength : (e.parameters.map Parameter.type).length = statement.parameterCount := by
    rw [List.length_map, hcount]
  have hvalues : decodeValues (nullBitmap (e.parameters.map Parameter.value)) 0
      (e.parameters.map Parameter.type) statement.longData (e.parameters.flatMap Parameter.encode) =
      (statement.longData, .ok (e.parameters.map Parameter.value)) := by
    rw [hlong]
    refine decodeValues_encode hconforms fun i p hp => ?_
    rw [Nat.zero_add]
    exact isNullAt_nullBitmap (by rw [List.getElem?_map, hp]; rfl)
  cases hnew : e.newTypes with
  | true =>
    have hpacket : e.packet = e.header ++ (nullBitmap (e.parameters.map Parameter.value) ++
        1 :: ((e.parameters.flatMap fun p => toBytes 2 p.type.toNat) ++
          e.parameters.flatMap Parameter.encode)) := by
      simp [Execution.packet, hne, hnew]
    have hsent : ¬ ((e.parameters.flatMap fun p => toBytes 2 p.type.toNat) ++
        e.parameters.flatMap Parameter.encode).length < statement.parameterCount * 2 := by
      rw [List.length_append, List.length_flatMap, ← hcount]
      simp
    have hread := readTypes_encode e.parameters (e.parameters.flatMap Parameter.encode)
    rw [hcount] at hread
    have hflag : (some (1 : UInt8) != some 0) = true := by decide
    rw [hpacket, decodeStmtParameters_append hheader hbitmap]
    simp only [hflag, hsent, decide_false, Bool.and_false, Bool.false_eq_true, if_false, if_true,
      hread, hlength, ne_eq, not_true_eq_false, hvalues]
  | false =>
    have hknown : statement.parameterTypes = e.parameters.map Parameter.type := by
      rcases htypes with htypes | htypes
      · rw [hnew] at htypes
        cases htypes
      · exact htypes
    have hpacket : e.packet = e.header ++ (nullBitmap (e.parameters.map Parameter.value) ++
        0 :: e.parameters.flatMap Parameter.encode) := by
      simp [Execution.packet, hne, hnew]
    have hflag : (some (0 : UInt8) != some 0) = false := by decide
    rw [hpacket, decodeStmtParameters_append hheader hbitmap]
    simp only [hflag, Bool.false_and, Bool.false_eq_true, if_false, hknown, hlength, ne_eq,
      not_true_eq_false, hvalues]

/-! ## Every execution -/

/-- **All executions** of a statement with parameters. -/
theorem decodeExecutions_packets {executions : List Execution} {statement : WirePreparedStatement}
    (hpos : 0 < statement.parameterCount) (hlong : statement.longData = ∅)
    (h : Conforming statement.parameterCount statement.parameterTypes executions) :
    decodeExecutions statement (executions.map Execution.packet) =
      executions.map fun e => .ok (e.parameters.map Parameter.value) := by
  induction executions generalizing statement with
  | nil => rfl
  | cons e executions ih =>
    obtain ⟨hheader, hcount, hconforms, htypes, hrest⟩ := h
    have hfirst := decodeStmtParameters_packet hheader hcount hpos hconforms htypes hlong
    rw [List.map_cons, decodeExecutions, hfirst, List.map_cons]
    congr 1
    exact ih hpos hlong hrest

/-- A packet that is its header has no room for the flag. -/
theorem decodeStmtParameters_header {data : Bytes} {statement : WirePreparedStatement}
    (hdata : data.length = 10) (hcount : statement.parameterCount = 0) :
    decodeStmtParameters data statement = (statement, .error "Invalid parameter null bitmap") := by
  have hlong : ¬ data.length < 10 := by omega
  have hshort : (data.drop 10).length < (0 + 7) / 8 + 1 := by
    rw [List.length_drop, hdata]
    decide
  rw [decodeStmtParameters]
  simp only [if_neg hlong, hcount, if_pos hshort]

/-- **COM_STMT_EXECUTE parameters decode to what a conforming client encoded**, in every
execution of a sequence, exactly when the statement has parameters (or is not executed). -/
theorem parameters_round_trip (count : Nat) (executions : List Execution)
    (h : Conforming count [] executions) :
    decodeExecutions { parameterCount := count } (executions.map Execution.packet) =
        executions.map (fun e => .ok (e.parameters.map Parameter.value)) ↔
      0 < count ∨ executions = [] := by
  constructor
  · intro hdecoded
    by_contra hnot
    obtain ⟨hcount, hne⟩ := not_or.mp hnot
    obtain rfl : count = 0 := Nat.eq_zero_of_not_pos hcount
    cases executions with
    | nil => exact hne rfl
    | cons e executions =>
      obtain ⟨hheader, hlength, -⟩ := h
      have hnil : e.parameters = [] := List.length_eq_zero_iff.mp hlength
      have hpacket : e.packet = e.header := by simp [Execution.packet, hnil]
      have hfirst := @decodeStmtParameters_header e.packet { parameterCount := 0 }
        (by rw [hpacket, hheader]) rfl
      rw [List.map_cons, List.map_cons, decodeExecutions, hfirst, List.cons.injEq] at hdecoded
      cases hdecoded.1
  · rintro (hpos | rfl)
    · exact decodeExecutions_packets hpos rfl h
    · rfl

/-- Two executions of a statement with three parameters, the second without types. -/
def twoExecutions : List Execution :=
  let header : Bytes := [0x17, 1, 0, 0, 0, 0, 1, 0, 0, 0]
  [⟨header, [⟨0x0001, .integer (-3)⟩, ⟨0x8002, .integer 65535⟩, ⟨0x00fd, .text "héllo"⟩], true⟩,
    ⟨header, [⟨0x0001, .integer 5⟩, ⟨0x8002, .null⟩, ⟨0x00fd, .text ""⟩], false⟩]

theorem two_executions_decoded :
    Conforming 3 [] twoExecutions ∧
      decodeExecutions { parameterCount := 3 } (twoExecutions.map Execution.packet) =
        twoExecutions.map (fun e => .ok (e.parameters.map Parameter.value)) := by
  have hconforming : Conforming 3 [] twoExecutions := by
    refine ⟨rfl, rfl, ?_, Or.inl rfl, rfl, rfl, ?_, Or.inr rfl, trivial⟩
    · simp only [List.forall_mem_cons, List.not_mem_nil, false_imp_iff, implies_true, and_true]
      exact ⟨⟨1, by decide, by decide⟩, ⟨2, by decide, by decide⟩, by decide, by decide⟩
    · simp only [List.forall_mem_cons, List.not_mem_nil, false_imp_iff, implies_true, and_true]
      exact ⟨⟨1, by decide, by decide⟩, trivial, by decide, by decide⟩
  exact ⟨hconforming, (parameters_round_trip 3 twoExecutions hconforming).mpr (Or.inl (by decide))⟩

/-- **A statement without parameters**: the packet ends with its header. -/
theorem no_parameters_refused : ∃ executions : List Execution, Conforming 0 [] executions ∧
    decodeExecutions { parameterCount := 0 } (executions.map Execution.packet) ≠
      executions.map fun e => .ok (e.parameters.map Parameter.value) := by
  refine ⟨[⟨[0x17, 1, 0, 0, 0, 0, 1, 0, 0, 0], [], false⟩],
    ⟨rfl, rfl, nofun, Or.inr rfl, trivial⟩, ?_⟩
  intro hdecoded
  have hfirst := @decodeStmtParameters_header [0x17, 1, 0, 0, 0, 0, 1, 0, 0, 0]
    { parameterCount := 0 } rfl rfl
  simp only [List.map_cons, List.map_nil, Execution.packet, if_true, decodeExecutions, hfirst,
    List.cons.injEq] at hdecoded
  cases hdecoded.1

end Wire
end RustyDB
