import Mathlib
import RustyDB.Lib.Cursor
import RustyDB.Lib.Result
import RustyDB.Wire.Framing
import RustyDB.Wire.Handshake
import RustyDB.Wire.LongData

/-!
# Parsing with positions

`parse_client_handshake` and `decode_stmt_parameters` as they are written: with a position that
is used as an index, in slices and in sums.  Each of them does what the function of the same
name does with the bytes that are left.

* `readNullTerminatedAt`, `readLenencIntAt`, `parseClientHandshakeAt`,
  `decodeStmtParametersAt` — the functions of the source, which stop at an index or a slice
  that is out of range and at a sum that overflows.
* `gives_parseClientHandshakeAt`, `gives_decodeStmtParametersAt` — **they never stop, and
  return what the functions on the bytes that are left return.**
* `packet_parsers_in_range` — **on every packet of a client the positions stay in range and
  only grow, and there is a value for each parameter.**
-/

namespace RustyDB
namespace Wire

open LineFile LittleEndian Cursored Sql

/-- The numbers that a position can be. -/
def usizeLimit : Nat := 2 ^ 64

/-! ## Strings and integers -/

/-- The loop that looks for a zero byte, and the bytes in front of it. -/
def readToNullAt (data : Bytes) : Reading Bytes := do
  let start ← position
  skipWhile usizeLimit data (· != 0) (data.length + 1)
  let stop ← position
  let bytes ← sliceBetween data start stop
  if ← atEnd data then pure bytes
  else
    advance usizeLimit 1
    pure bytes

/-- `read_null_terminated`. -/
def readNullTerminatedAt (data : Bytes) : Reading String := do
  return fromUtf8Lossy (← readToNullAt data)

/-- The branches of `read_lenenc_int` for two, three and eight bytes. -/
def readWideAt (data : Bytes) (width : Nat) : Reading (Option Nat) := do
  if (← remaining data) < width then pure none
  else
    let bytes ← peekMany usizeLimit data width
    advance usizeLimit width
    pure (some (ofBytes bytes))

/-- `read_lenenc_int`. -/
def readLenencIntAt (data : Bytes) : Reading (Option Nat) := do
  if ← atEnd data then pure none
  else
    let first ← peek data
    advance usizeLimit 1
    if first = 0xfc then readWideAt data 2
    else if first = 0xfd then readWideAt data 3
    else if first = 0xfe then readWideAt data 8
    else pure (some first.toNat)

/-! ## The handshake response -/

/-- The auth response of the handshake. -/
def readAuthResponseAt (data : Bytes) (capabilities : UInt32) : ExceptT String Reading Bytes :=
  if hasFlag capabilities clientPluginAuthLenencClientData then do
    match ← readLenencIntAt data with
    | none => throw "Invalid length-encoded auth response"
    | some length =>
      if (← remaining data) < length then throw "Auth response length exceeds packet size"
      else
        let auth ← sliceHere usizeLimit data length
        advance usizeLimit length
        pure auth
  else if hasFlag capabilities clientSecureConnection then do
    if ← atEnd data then pure []
    else
      let length ← (peek data : Reading UInt8)
      advance usizeLimit 1
      let first ← position
      let last := min (← checked usizeLimit (first + length.toNat)) data.length
      let auth ← sliceBetween data first last
      moveTo last
      pure auth
  else liftM (readToNullAt data)

/-- The database and the auth plugin of the handshake. -/
def readNameAt (data : Bytes) (capabilities flag : UInt32) : Reading (Option String) := do
  if hasFlag capabilities flag && !(← atEnd data) then
    let name ← readNullTerminatedAt data
    pure (if name = "" then none else some name)
  else pure none

/-- `parse_client_handshake`. -/
def parseClientHandshakeAt (data : Bytes) : ExceptT String Reading ClientHandshake :=
  if data.length < 32 then throw "Handshake response too short"
  else do
    let capabilities ← peekMany usizeLimit data 4
    let capabilities := UInt32.ofNat (ofBytes capabilities)
    advance usizeLimit 4
    -- The packet size, the character set and the reserved bytes.
    advance usizeLimit 4
    advance usizeLimit 1
    advance usizeLimit 23
    let username ← readNullTerminatedAt data
    let authResponse ← readAuthResponseAt data capabilities
    let database ← readNameAt data capabilities clientConnectWithDb
    let authPlugin ← readNameAt data capabilities clientPluginAuth
    pure ⟨capabilities, username, authResponse, database, authPlugin⟩

/-! ## The parameters -/

/-- The closure `take`. -/
def takeAt (data : Bytes) (length : Nat) : ExceptT String Reading Bytes := do
  if (← remaining data) < length then throw "Truncated prepared parameter"
  else
    let value ← sliceHere usizeLimit data length
    advance usizeLimit length
    pure value

/-- The number of a slice that is an array of `width` bytes. -/
def wordOf (width : Nat) (raw : Bytes) : Reading Nat := fun c =>
  if raw.length = width then some (ofBytes raw, c) else none

/-- The four integer branches. -/
def decodeIntegerAt (data : Bytes) (width : Nat) (unsigned : Bool) :
    ExceptT String Reading Value := do
  let raw ← takeAt data width
  let n ← wordOf width raw
  if unsigned && decide (2 ^ 63 ≤ n) then
    throw "Unsigned integer exceeds RustyDB INTEGER range"
  else pure (.integer (Int64.ofInt (if unsigned then n else signedOf width n)))

/-- The branch of the string types. -/
def decodeTextAt (data : Bytes) : ExceptT String Reading Value := do
  match ← readLenencIntAt data with
  | none => throw "Invalid string parameter length"
  | some length =>
    let raw ← takeAt data length
    match decode raw with
    | none => throw "String parameter is not valid UTF-8"
    | some text => pure (.text text)

/-- One value of a type. -/
def decodeValueAt (data : Bytes) (type : UInt16) : ExceptT String Reading Value :=
  let code := typeCode type
  if code = mysqlTypeNull then pure .null
  else
    match integerWidth code with
    | some width => decodeIntegerAt data width (isUnsigned type)
    | none =>
      if code = mysqlTypeFloat then do
        let raw ← takeAt data 4
        let bits ← wordOf 4 raw
        pure (.float (floatOfBits32 bits))
      else if code = mysqlTypeDouble then do
        let raw ← takeAt data 8
        let bits ← wordOf 8 raw
        pure (.float ⟨UInt64.ofNat bits⟩)
      else if isStringCode code then decodeTextAt data
      else throw ("Unsupported prepared parameter type 0x" ++ hexByte code)

/-- The loop over so many parameters, from an index on. -/
def decodeValuesAt (data nullBitmap : Bytes) (types : List UInt16) (index : Nat)
    (longData : AList (fun _ : Nat => Bytes)) :
    Nat → Reading (AList (fun _ : Nat => Bytes) × Except String (List Value))
  | 0 => pure (longData, .ok [])
  | count + 1 =>
    if isNullAt nullBitmap index then do
      let decoded ← decodeValuesAt data nullBitmap types (index + 1) longData count
      pure (decoded.1, decoded.2.map (.null :: ·))
    else
      match longData.lookup index with
      | some bytes =>
        match decode bytes with
        | none => pure (longData.erase index, .error "Long parameter data is not valid UTF-8")
        | some text => do
          let decoded ←
            decodeValuesAt data nullBitmap types (index + 1) (longData.erase index) count
          pure (decoded.1, decoded.2.map (.text text :: ·))
      | none => do
        let type ← elementAt types index
        match ← (decodeValueAt data type).run with
        | .error error => pure (longData, .error error)
        | .ok value =>
          let decoded ← decodeValuesAt data nullBitmap types (index + 1) longData count
          pure (decoded.1, decoded.2.map (value :: ·))

/-- The loop that reads the types of a packet. -/
def readTypesAt (data : Bytes) : Nat → Reading (List UInt16)
  | 0 => pure []
  | count + 1 => do
    let pair ← peekMany usizeLimit data 2
    advance usizeLimit 2
    let types ← readTypesAt data count
    pure (UInt16.ofNat (ofBytes pair) :: types)

/-- The types that a packet sends, or those that are known. -/
def suppliedTypesAt (data : Bytes) (statement : WirePreparedStatement) (newTypes : Bool) :
    ExceptT String Reading (List UInt16) :=
  if newTypes then do
    let left ← remaining data
    let length ← checked usizeLimit (statement.parameterCount * 2)
    if left < length then throw "Missing prepared parameter types"
    else readTypesAt data statement.parameterCount
  else pure statement.parameterTypes

/-- `decode_stmt_parameters`, with the statement it leaves.  The position starts behind the
ten bytes in front of the bitmap. -/
def decodeStmtParametersAt (data : Bytes) (statement : WirePreparedStatement) :
    Reading (WirePreparedStatement × Except String (List Value)) :=
  let count := statement.parameterCount
  let bitmapLength := (count + 7) / 8
  if data.length < 10 then pure (statement, .error "COM_STMT_EXECUTE packet is too short")
  else do
    moveTo 10
    let left ← remaining data
    let needed ← checked usizeLimit (bitmapLength + 1)
    if left < needed then pure (statement, .error "Invalid parameter null bitmap")
    else
      let nullBitmap ← sliceHere usizeLimit data bitmapLength
      advance usizeLimit bitmapLength
      let flag ← peek data
      advance usizeLimit 1
      match ← (suppliedTypesAt data statement (flag != 0)).run with
      | .error error => pure (statement, .error error)
      | .ok types =>
        if types.length ≠ count then
          pure ({ statement with parameterTypes := types },
            .error "Parameter types were not supplied")
        else
          let decoded ← decodeValuesAt data nullBitmap types 0 statement.longData count
          pure ({ statement with parameterTypes := types, longData := decoded.1 }, decoded.2)

/-! ## Strings and integers follow -/

section Follow

variable {data rest : Bytes} {capabilities flag : UInt32}

theorem yields_readToNullAt (hlimit : data.length < usizeLimit) :
    Yields data (readToNullAt data) rest (rest.takeWhile (· != 0))
      ((rest.dropWhile (· != 0)).drop 1) := by
  refine yields_of_suffix fun hsuffix => ?_
  have hsplit := @List.takeWhile_append_dropWhile _ (· != 0) rest
  have hloop := @yields_skipWhile _ usizeLimit data rest (· != 0) (data.length + 1) hlimit
    (Nat.lt_succ_of_le hsuffix.length_le)
  rw [readToNullAt]
  refine yields_bind yields_position (yields_bind hloop (yields_bind yields_position ?_))
  generalize rest.takeWhile (· != 0) = front at *
  generalize rest.dropWhile (· != 0) = back at *
  subst hsplit
  refine yields_bind (yields_sliceBetween hsuffix) (yields_bind yields_atEnd ?_)
  cases back with
  | nil => exact yields_pure
  | cons b back => exact yields_bind (yields_advance hlimit (by simp)) yields_pure

theorem yields_readNullTerminatedAt (hlimit : data.length < usizeLimit) :
    Yields data (readNullTerminatedAt data) rest (readNullTerminated rest).1
      (readNullTerminated rest).2 :=
  yields_bind (yields_readToNullAt hlimit) yields_pure

/-- The branch for so many bytes. -/
theorem finds_readWideAt {width : Nat} (hlimit : data.length < usizeLimit) :
    Finds data (readWideAt data width) rest
      ((takeBytes width rest).map fun taken => (ofBytes taken.1, taken.2)) := by
  rw [takeBytes, readWideAt]
  refine finds_bind yields_remaining ?_
  by_cases hshort : rest.length < width
  · rw [if_pos hshort, if_pos hshort]
    exact ⟨rest, yields_pure⟩
  · rw [if_neg hshort, if_neg hshort]
    exact yields_bind (yields_peekMany hlimit (by omega))
      (yields_bind (yields_advance hlimit (by omega)) yields_pure)

/-- **Length-encoded integers**: the position may have moved when there is none. -/
theorem finds_readLenencIntAt (hlimit : data.length < usizeLimit) :
    Finds data (readLenencIntAt data) rest (readLenencInt rest) := by
  refine finds_bind yields_atEnd ?_
  cases rest with
  | nil => exact ⟨[], yields_pure⟩
  | cons first rest =>
    have hmove : Yields data (advance usizeLimit 1) (first :: rest) () rest :=
      yields_advance hlimit (by simp)
    refine finds_bind yields_peek (finds_bind hmove ?_)
    rw [readLenencInt]
    split
    · exact finds_readWideAt hlimit
    · split
      · exact finds_readWideAt hlimit
      · split
        · exact finds_readWideAt hlimit
        · exact yields_pure

/-! ## The handshake follows -/

/-- A slice of so many bytes that the packet must have. -/
theorem follows_sliceHere {length : Nat} {error : String} (hlimit : data.length < usizeLimit) :
    Follows data
      (do
        if (← remaining data) < length then throw error
        else
          let taken ← sliceHere usizeLimit data length
          advance usizeLimit length
          pure taken : ExceptT String Reading Bytes) rest
      (match takeBytes length rest with
      | none => .error error
      | some taken => .ok taken) := by
  refine follows_lift yields_remaining ?_
  rw [takeBytes]
  by_cases hshort : rest.length < length
  · rw [if_pos hshort, if_pos hshort]
    exact follows_throw
  · rw [if_neg hshort, if_neg hshort]
    exact follows_lift (yields_sliceHere hlimit (by omega))
      (follows_lift (yields_advance hlimit (by omega)) follows_pure)

/-- **The auth response** in each of its layouts. -/
theorem follows_readAuthResponseAt (hlimit : data.length + 255 < usizeLimit) :
    Follows data (readAuthResponseAt data capabilities) rest
      (readAuthResponse capabilities rest) := by
  have hdata : data.length < usizeLimit := by omega
  unfold readAuthResponseAt readAuthResponse
  split
  · have hlength := @finds_readLenencIntAt data rest hdata
    cases hread : readLenencInt rest with
    | none =>
      rw [hread] at hlength
      obtain ⟨rest', hlength⟩ := hlength
      exact follows_lift hlength follows_throw
    | some read =>
      rw [hread] at hlength
      exact follows_lift hlength (follows_sliceHere hdata)
  · split
    · refine follows_lift yields_atEnd ?_
      cases rest with
      | nil => exact follows_pure
      | cons length rest =>
        have hmove : Yields data (advance usizeLimit 1) (length :: rest) () rest :=
          yields_advance hdata (by simp)
        refine follows_lift yields_peek (follows_lift hmove ?_)
        refine follows_of_suffix fun hsuffix => ?_
        have hle := hsuffix.length_le
        have hbyte := length.toNat_lt
        have hsplit := List.take_append_drop length.toNat rest
        have hlast : min (data.length - rest.length + length.toNat) data.length =
            data.length - (rest.drop length.toNat).length := by
          rw [List.length_drop]
          omega
        have hslice := @yields_sliceBetween _ data rest (rest.take length.toNat)
          (rest.drop length.toNat) (by rw [hsplit]; exact hsuffix)
        rw [hsplit, ← hlast] at hslice
        have hstop := @yields_moveTo _ data rest _ (List.drop_suffix length.toNat rest)
        rw [← hlast] at hstop
        exact follows_lift yields_position (follows_lift (yields_checked (by omega))
          (follows_lift hslice (follows_lift hstop follows_pure)))
    · exact follows_liftM (yields_readToNullAt hdata)

theorem yields_readNameAt (hlimit : data.length < usizeLimit) :
    Yields data (readNameAt data capabilities flag) rest (readName capabilities flag rest).1
      (readName capabilities flag rest).2 := by
  rw [readNameAt, readName]
  refine yields_bind yields_atEnd ?_
  split
  · exact yields_bind (yields_readNullTerminatedAt hlimit) yields_pure
  · exact yields_pure

/-- **`parse_client_handshake`** never stops, and returns what the bytes say. -/
theorem gives_parseClientHandshakeAt (hlimit : data.length + 255 < usizeLimit) :
    Gives data (parseClientHandshakeAt data).run data (parseClientHandshake data) := by
  have hdata : data.length < usizeLimit := by omega
  rw [parseClientHandshake]
  by_cases hshort : data.length < 32
  · rw [parseClientHandshakeAt, if_pos hshort, if_pos hshort]
    exact ⟨data, yields_pure⟩
  · have hmove : ∀ {passed count : Nat}, passed + count ≤ 32 →
        Yields data (advance usizeLimit count) (data.drop passed) ()
          (data.drop (passed + count)) := by
      intro passed count hle
      have hadvance := @yields_advance _ usizeLimit data (data.drop passed) count hdata
        (by rw [List.length_drop]; omega)
      rw [List.drop_drop] at hadvance
      exact hadvance
    have hread : Follows data (parseClientHandshakeAt data) data
        (readAuthResponse (UInt32.ofNat (ofBytes (data.take 4)))
          (readNullTerminated (data.drop 32)).2 >>= fun authResponse =>
          let database := readName (UInt32.ofNat (ofBytes (data.take 4))) clientConnectWithDb
            authResponse.2
          let authPlugin := readName (UInt32.ofNat (ofBytes (data.take 4))) clientPluginAuth
            database.2
          .ok (⟨UInt32.ofNat (ofBytes (data.take 4)), (readNullTerminated (data.drop 32)).1,
            authResponse.1, database.1, authPlugin.1⟩, authPlugin.2)) := by
      rw [parseClientHandshakeAt, if_neg hshort]
      refine follows_lift (yields_peekMany hdata (by omega)) ?_
      refine follows_lift (@hmove 0 4 (by omega)) (follows_lift (hmove (by omega))
        (follows_lift (hmove (by omega)) (follows_lift (hmove (by omega)) ?_)))
      refine follows_lift (yields_readNullTerminatedAt hdata) ?_
      refine follows_bind (follows_readAuthResponseAt hlimit) fun authResponse rest' _ => ?_
      exact follows_lift (yields_readNameAt hdata) (follows_lift (yields_readNameAt hdata)
        follows_pure)
    have hgives := hread.gives
    rw [Result.map_bind] at hgives
    rw [if_neg hshort]
    exact hgives

/-! ## The parameters follow -/

theorem length_of_takeBytes {count : Nat} {taken : Bytes × Bytes}
    (h : takeBytes count rest = some taken) : taken.1.length = count := by
  rw [takeBytes] at h
  split at h
  · cases h
  · cases h
    exact List.length_take_of_le (by omega)

theorem yields_wordOf {width : Nat} {raw : Bytes} (h : raw.length = width) :
    Yields data (wordOf width raw) rest (ofBytes raw) rest :=
  fun c hc hrest => ⟨c, if_pos h, hc, hrest⟩

section Take

variable {width : Nat} {taken : Bytes × Bytes} {f : Bytes → ExceptT String Reading Value}
  {r : Except String (Value × Bytes)}

theorem follows_takeAt (hlimit : data.length < usizeLimit) :
    Follows data (takeAt data width) rest
      (match takeBytes width rest with
      | none => .error "Truncated prepared parameter"
      | some taken => .ok taken) :=
  follows_sliceHere hlimit

theorem follows_takeAt_none (hlimit : data.length < usizeLimit)
    (h : takeBytes width rest = none) :
    Follows data (takeAt data width >>= f) rest (.error "Truncated prepared parameter") := by
  have htake := @follows_takeAt data rest width hlimit
  rw [h] at htake
  exact follows_bind_error htake

theorem follows_takeAt_some (hlimit : data.length < usizeLimit)
    (h : takeBytes width rest = some taken)
    (hf : taken.1.length = width → Follows data (f taken.1) taken.2 r) :
    Follows data (takeAt data width >>= f) rest r := by
  have htake := @follows_takeAt data rest width hlimit
  rw [h] at htake
  exact follows_bind_ok htake (hf (length_of_takeBytes h))

/-- **A number of a fixed width.** -/
theorem follows_takeAt_word {g : Nat → ExceptT String Reading Value}
    (hlimit : data.length < usizeLimit) (h : takeBytes width rest = some taken)
    (hg : Follows data (g (ofBytes taken.1)) taken.2 r) :
    Follows data (takeAt data width >>= fun raw => liftM (wordOf width raw) >>= g) rest r :=
  follows_takeAt_some hlimit h fun hlength => follows_lift (yields_wordOf hlength) hg

end Take

theorem follows_decodeIntegerAt {width : Nat} {unsigned : Bool}
    (hlimit : data.length < usizeLimit) :
    Follows data (decodeIntegerAt data width unsigned) rest
      (decodeInteger width unsigned rest) := by
  rw [decodeInteger]
  cases htaken : takeBytes width rest with
  | none => exact follows_takeAt_none hlimit htaken
  | some taken =>
    refine follows_takeAt_word hlimit htaken ?_
    simp only []
    split
    · exact follows_throw
    · exact follows_pure

theorem follows_decodeTextAt (hlimit : data.length < usizeLimit) :
    Follows data (decodeTextAt data) rest
      (match readLenencInt rest with
        | none => .error "Invalid string parameter length"
        | some (length, rest) =>
          match takeBytes length rest with
          | none => .error "Truncated prepared parameter"
          | some (raw, rest) =>
            match decode raw with
            | none => .error "String parameter is not valid UTF-8"
            | some text => .ok (.text text, rest)) := by
  have hlength := @finds_readLenencIntAt data rest hlimit
  cases hread : readLenencInt rest with
  | none =>
    rw [hread] at hlength
    obtain ⟨rest', hlength⟩ := hlength
    exact follows_lift hlength follows_throw
  | some read =>
    obtain ⟨length, left⟩ := read
    rw [hread] at hlength
    refine follows_lift hlength ?_
    cases htaken : takeBytes length left with
    | none =>
      simp only [htaken]
      exact follows_takeAt_none hlimit htaken
    | some taken =>
      simp only [htaken]
      refine follows_takeAt_some hlimit htaken fun _ => ?_
      cases hdecode : decode taken.1 with
      | none => exact follows_throw
      | some text => exact follows_pure

/-- **One value** of a type. -/
theorem follows_decodeValueAt {type : UInt16} (hlimit : data.length < usizeLimit) :
    Follows data (decodeValueAt data type) rest (decodeValue type rest) := by
  unfold decodeValueAt decodeValue
  simp only []
  split
  · exact follows_pure
  · cases integerWidth (typeCode type) with
    | some width => exact follows_decodeIntegerAt hlimit
    | none =>
      simp only []
      split
      · cases htaken : takeBytes 4 rest with
        | none => exact follows_takeAt_none hlimit htaken
        | some taken => exact follows_takeAt_word hlimit htaken follows_pure
      · split
        · cases htaken : takeBytes 8 rest with
          | none => exact follows_takeAt_none hlimit htaken
          | some taken => exact follows_takeAt_word hlimit htaken follows_pure
        · split
          · exact follows_decodeTextAt hlimit
          · exact follows_throw

/-- **The loop** over the parameters. -/
theorem gives_decodeValuesAt {nullBitmap : Bytes} {types : List UInt16} {index count : Nat}
    {longData : AList fun _ : Nat => Bytes} (hlimit : data.length < usizeLimit)
    (hcount : index + count = types.length) :
    Gives data (decodeValuesAt data nullBitmap types index longData count) rest
      (decodeValues nullBitmap index (types.drop index) longData rest) := by
  induction count generalizing index longData rest with
  | zero =>
    rw [List.drop_eq_nil_of_le (by omega)]
    exact ⟨rest, yields_pure⟩
  | succ count ih =>
    have hlt : index < types.length := by omega
    rw [List.drop_eq_getElem_cons hlt, decodeValuesAt, decodeValues]
    split
    · exact gives_map (ih (by omega))
    · cases longData.lookup index with
      | some bytes =>
        cases hdecode : decode bytes with
        | none =>
          simp only [hdecode]
          exact ⟨rest, yields_pure⟩
        | some text =>
          simp only [hdecode]
          exact gives_map (ih (by omega))
      | none =>
        refine gives_bind (yields_index hlt) ?_
        have hvalue := @follows_decodeValueAt data rest types[index] hlimit
        cases hdecode : decodeValue types[index] rest with
        | error error =>
          rw [hdecode] at hvalue
          obtain ⟨rest', hvalue⟩ := hvalue
          exact gives_bind hvalue ⟨rest', yields_pure⟩
        | ok decoded =>
          rw [hdecode] at hvalue
          exact gives_bind hvalue (gives_map (ih (by omega)))

/-- **The types** of a packet that has so many. -/
theorem yields_readTypesAt {count : Nat} (hlimit : data.length < usizeLimit)
    (h : count * 2 ≤ rest.length) :
    Yields data (readTypesAt data count) rest (readTypes count rest).1
      (readTypes count rest).2 := by
  induction count generalizing rest with
  | zero => exact yields_pure
  | succ count ih =>
    have hbehind : count * 2 ≤ (rest.drop 2).length := by
      rw [List.length_drop]
      omega
    exact yields_bind (yields_peekMany hlimit (by omega))
      (yields_bind (yields_advance hlimit (by omega)) (yields_bind (ih hbehind) yields_pure))

theorem follows_suppliedTypesAt {statement : WirePreparedStatement} {newTypes : Bool}
    (hlimit : data.length < usizeLimit) (hcount : statement.parameterCount * 2 < usizeLimit) :
    Follows data (suppliedTypesAt data statement newTypes) rest
      (if newTypes && decide (rest.length < statement.parameterCount * 2) then
        .error "Missing prepared parameter types"
      else .ok (suppliedTypes statement newTypes rest)) := by
  cases newTypes with
  | false => exact follows_pure
  | true =>
    rw [suppliedTypesAt, if_pos rfl, Bool.true_and, suppliedTypes, if_pos rfl]
    refine follows_lift yields_remaining (follows_lift (yields_checked hcount) ?_)
    by_cases hshort : rest.length < statement.parameterCount * 2
    · rw [if_pos hshort, decide_eq_true hshort, if_pos rfl]
      exact follows_throw
    · rw [if_neg hshort, decide_eq_false hshort, if_neg Bool.false_ne_true]
      exact follows_liftM (yields_readTypesAt hlimit (by omega))

/-- **`decode_stmt_parameters`** never stops, and returns what the bytes say: a packet of a
bitmap has room for two bytes of each parameter below the limit. -/
theorem gives_decodeStmtParametersAt {statement : WirePreparedStatement}
    (hlimit : 16 * data.length < usizeLimit) (hcount : statement.parameterCount < usizeLimit) :
    Gives data (decodeStmtParametersAt data statement) data
      (decodeStmtParameters data statement) := by
  have hdata : data.length < usizeLimit := by omega
  rw [decodeStmtParametersAt, decodeStmtParameters]
  simp only []
  by_cases hshort : data.length < 10
  · rw [if_pos hshort, if_pos hshort]
    exact ⟨data, yields_pure⟩
  · rw [if_neg hshort, if_neg hshort]
    have hstart := @yields_moveTo _ data data (data.drop 10) (List.drop_suffix 10 data)
    have hten : data.length - (data.drop 10).length = 10 := by
      rw [List.length_drop]
      omega
    rw [hten] at hstart
    have hlength : (data.drop 10).length ≤ data.length := by
      rw [List.length_drop]
      omega
    refine gives_bind hstart ?_
    generalize data.drop 10 = rest at *
    have hneeded : (statement.parameterCount + 7) / 8 + 1 < usizeLimit := by
      rw [usizeLimit] at hcount ⊢
      omega
    refine gives_bind yields_remaining (gives_bind (yields_checked hneeded) ?_)
    by_cases hbitmap : rest.length < (statement.parameterCount + 7) / 8 + 1
    · rw [if_pos hbitmap, if_pos hbitmap]
      exact ⟨rest, yields_pure⟩
    · rw [if_neg hbitmap, if_neg hbitmap]
      generalize hwidth : (statement.parameterCount + 7) / 8 = width at *
      have hlt : width < rest.length := by omega
      have hcons := List.drop_eq_getElem_cons hlt
      have hmove : Yields data (advance usizeLimit 1) (rest.drop width) ()
          (rest.drop (width + 1)) := by
        rw [← List.drop_drop]
        exact yields_advance hdata (by rw [List.length_drop]; omega)
      refine gives_bind (yields_sliceHere hdata (by omega))
        (gives_bind (yields_advance hdata (by omega)) ?_)
      have hflag : (rest[width]? != some 0) = (rest[width] != 0) := by
        rw [List.getElem?_eq_getElem hlt]
        rfl
      have hpeek : Yields data (peek data) (rest.drop width) rest[width] (rest.drop width) := by
        rw [hcons]
        exact yields_peek
      refine gives_bind hpeek (gives_bind hmove ?_)
      have htypes := @follows_suppliedTypesAt data (rest.drop (width + 1)) statement
        (rest[width] != 0) hdata (by omega)
      rw [hflag]
      split
      · rename_i hmissing
        rw [if_pos hmissing] at htypes
        obtain ⟨rest', htypes⟩ := htypes
        exact gives_bind htypes ⟨rest', yields_pure⟩
      · rename_i hsent
        rw [if_neg hsent] at htypes
        rw [← suppliedTypes]
        generalize suppliedTypes statement (rest[width] != 0) (rest.drop (width + 1)) = supplied
          at htypes ⊢
        refine gives_bind htypes ?_
        simp only []
        by_cases hknown : supplied.1.length ≠ statement.parameterCount
        · rw [if_pos hknown, if_pos hknown]
          exact ⟨_, yields_pure⟩
        · rw [if_neg hknown, if_neg hknown]
          exact gives_map (gives_decodeValuesAt hdata (by omega))

end Follow

/-! ## Every packet -/

theorem length_of_readPacket {stream data rest : Bytes} {sequence : UInt8}
    (h : readPacket stream = some ((sequence, data), rest)) : data.length < 2 ^ 24 := by
  unfold readPacket at h
  split at h
  · rename_i b0 b1 b2 sequence' stream'
    obtain ⟨taken, htaken, h⟩ := Option.map_eq_some_iff.mp h
    cases h
    rw [length_of_takeBytes htaken]
    have hfirst := b0.toNat_lt
    have hsecond : b1.toNat <<< 8 < 2 ^ 24 := by
      have hbyte := b1.toNat_lt
      rw [Nat.shiftLeft_eq]
      omega
    have hthird : b2.toNat <<< 16 < 2 ^ 24 := by
      have hbyte := b2.toNat_lt
      rw [Nat.shiftLeft_eq]
      omega
    exact Nat.or_lt_two_pow (Nat.or_lt_two_pow (by omega) hsecond) hthird
  · cases h

theorem length_of_decodeValues {nullBitmap rest : Bytes} {index : Nat} {types : List UInt16}
    {longData : AList fun _ : Nat => Bytes} {values : List Value}
    (h : (decodeValues nullBitmap index types longData rest).2 = .ok values) :
    values.length = types.length := by
  induction types generalizing index longData rest values with
  | nil =>
    cases h
    rfl
  | cons type types ih =>
    have hcons : ∀ {index longData rest} {value : Value},
        ((decodeValues nullBitmap index types longData rest).2.map (value :: ·)) = .ok values →
        values.length = (type :: types).length := by
      intro index longData rest value hmap
      obtain ⟨left, hleft, rfl⟩ := Result.map_eq_ok.mp hmap
      rw [List.length_cons, List.length_cons, ih hleft]
    rw [decodeValues] at h
    split at h
    · exact hcons h
    · split at h
      · split at h
        · cases h
        · exact hcons h
      · split at h
        · cases h
        · exact hcons h

theorem length_of_decodeStmtParameters {data : Bytes} {statement : WirePreparedStatement}
    {values : List Value} (h : (decodeStmtParameters data statement).2 = .ok values) :
    values.length = statement.parameterCount := by
  rw [decodeStmtParameters_eq] at h
  split at h
  · cases h
  · rename_i types nullBitmap rest hheader
    rw [length_of_decodeValues h, length_of_readHeader hheader]

/-- **Packet parsers stay in range** on every packet of a client, whatever the statement has
seen before: they stop nowhere, their positions only grow and stay within the packet, and the
parameters are refused or there is a value for each. -/
theorem packet_parsers_in_range {stream data rest : Bytes} {sequence : UInt8}
    (h : readPacket stream = some ((sequence, data), rest)) (statement : WirePreparedStatement)
    (hcount : statement.parameterCount < 2 ^ 64) :
    (∃ c, (parseClientHandshakeAt data).run ⟨0, []⟩ = some (parseClientHandshake data, c) ∧
      c.Within data.length) ∧
    (∃ c, decodeStmtParametersAt data statement ⟨0, []⟩ =
      some (decodeStmtParameters data statement, c) ∧ c.Within data.length) ∧
    ∀ values, (decodeStmtParameters data statement).2 = .ok values →
      values.length = statement.parameterCount := by
  have hdata := length_of_readPacket h
  exact ⟨(gives_parseClientHandshakeAt (by rw [usizeLimit]; omega)).run,
    (gives_decodeStmtParametersAt (by rw [usizeLimit]; omega) hcount).run,
    fun _ hvalues => length_of_decodeStmtParameters hvalues⟩

/-- A COM_STMT_EXECUTE whose text claims 2⁶⁴ − 1 bytes. -/
def longLengthPacket : Bytes :=
  [0x17, 1, 0, 0, 0, 0, 1, 0, 0, 0, 0, 1, 0xfd, 0, 0xfe, 255, 255, 255, 255, 255, 255, 255, 255]

theorem long_length_refused :
    readPacket (writePacket 0 longLengthPacket) = some ((0, longLengthPacket), []) ∧
      ∃ c, decodeStmtParametersAt longLengthPacket { parameterCount := 1 } ⟨0, []⟩ =
          some (decodeStmtParameters longLengthPacket { parameterCount := 1 }, c) ∧
        c.Within longLengthPacket.length := by
  have hread : readPacket (writePacket 0 longLengthPacket) = some ((0, longLengthPacket), []) := by
    decide +kernel
  exact ⟨hread, (packet_parsers_in_range hread { parameterCount := 1 } (by decide)).2.1⟩

end Wire
end RustyDB
