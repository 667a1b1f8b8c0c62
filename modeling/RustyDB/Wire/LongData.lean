import Mathlib
import RustyDB.Lib.Result
import RustyDB.Wire.Parameters

/-!
# Long data of prepared statements

The commands of a connection for one prepared statement: COM_STMT_SEND_LONG_DATA stores the
chunks of a parameter with the statement, COM_STMT_EXECUTE takes parameters from the store
before it looks into its packet, COM_STMT_RESET empties the store.

* `StatementCommand`, `handle`, `outcomes` — the three branches of `handle_connection`, and
  what a sequence of commands decodes.
* `isolatedOutcomes` — the same when long data belongs to the next execution only.
* `UsesUp` — an execution that leaves no long data to a parameter of its statement.
* `long_data_isolated` — **a run whose executions use up their long data decodes what the
  isolated one does, and any other execution can be followed by one that does not.**
-/

namespace RustyDB
namespace Wire

open LineFile LittleEndian Sql

/-! ## Commands -/

/-- A command for one statement, with the payload of its packet. -/
inductive StatementCommand where
  | sendLongData (data : Bytes)
  | execute (data : Bytes)
  | reset (data : Bytes)

namespace WirePreparedStatement

/-- The branch of COM_STMT_SEND_LONG_DATA; a payload that is too short is ignored. -/
def appendLongData (statement : WirePreparedStatement) (data : Bytes) : WirePreparedStatement :=
  if data.length < 7 then statement
  else
    let parameterId := ofBytes ((data.drop 5).take 2)
    { statement with
      longData := statement.longData.insert parameterId
        ((statement.longData.lookup parameterId).getD [] ++ data.drop 7) }

/-- The branch of COM_STMT_RESET. -/
def clearLongData (statement : WirePreparedStatement) : WirePreparedStatement :=
  { statement with longData := ∅ }

/-- The branches of `handle_connection` for a statement: the statement they leave, and what
`decode_stmt_parameters` returned, if it was called. -/
def handle (statement : WirePreparedStatement) :
    StatementCommand → WirePreparedStatement × Option (Except String (List Value))
  | .sendLongData data => (statement.appendLongData data, none)
  | .execute data =>
    if data.length < 10 then (statement, none)
    else
      let decoded := decodeStmtParameters data statement
      (decoded.1, some decoded.2)
  | .reset data => (if data.length < 5 then statement else statement.clearLongData, none)

/-- What a sequence of commands decodes. -/
def outcomes (statement : WirePreparedStatement) :
    List StatementCommand → List (Option (Except String (List Value)))
  | [] => []
  | command :: commands =>
    let handled := statement.handle command
    handled.2 :: outcomes handled.1 commands

/-- The same when an execution is the end of all long data that was sent before it: each
execution sees its packet, the types that were supplied last, and the chunks since the last
execution or reset. -/
def isolatedOutcomes (statement : WirePreparedStatement) :
    List StatementCommand → List (Option (Except String (List Value)))
  | [] => []
  | command :: commands =>
    let handled := statement.handle command
    let left := if handled.2.isSome then handled.1.clearLongData else handled.1
    handled.2 :: isolatedOutcomes left commands

end WirePreparedStatement

/-! ## Executions that use up their long data -/

/-- No long data is stored for the `count` parameters from an index on. -/
def NonePending (longData : AList fun _ : Nat => Bytes) (index count : Nat) : Prop :=
  ∀ i, index ≤ i → i < index + count → longData.lookup i = none

/-- The loop over the parameters comes to every long data that is stored for them: none
belongs to a NULL, and none stands behind a value that is refused. -/
def LoopUsesUp (nullBitmap : Bytes) (longData : AList fun _ : Nat => Bytes) (index : Nat)
    (types : List UInt16) (rest : Bytes) : Prop :=
  match types with
  | [] => True
  | type :: types =>
    if isNullAt nullBitmap index then
      longData.lookup index = none ∧ LoopUsesUp nullBitmap longData (index + 1) types rest
    else
      match longData.lookup index with
      | some bytes =>
        match decode bytes with
        | none => NonePending longData (index + 1) types.length
        | some _ => LoopUsesUp nullBitmap longData (index + 1) types rest
      | none =>
        match decodeValue type rest with
        | .error _ => NonePending longData (index + 1) types.length
        | .ok (_, rest) => LoopUsesUp nullBitmap longData (index + 1) types rest

/-- The types that a packet sends, or those that are known, and the bytes behind them. -/
def suppliedTypes (statement : WirePreparedStatement) (newTypes : Bool) (rest : Bytes) :
    List UInt16 × Bytes :=
  if newTypes then readTypes statement.parameterCount rest else (statement.parameterTypes, rest)

/-- What stands in front of the values of a packet: the types that hold from then on, and the
bitmap and the bytes of the values, unless the packet is refused before. -/
def readHeader (data : Bytes) (statement : WirePreparedStatement) :
    List UInt16 × Except String (Bytes × Bytes) :=
  let count := statement.parameterCount
  let bitmapLength := (count + 7) / 8
  let rest := data.drop 10
  let newTypes := rest[bitmapLength]? != some 0
  let behind := rest.drop (bitmapLength + 1)
  if data.length < 10 then
    (statement.parameterTypes, .error "COM_STMT_EXECUTE packet is too short")
  else if rest.length < bitmapLength + 1 then
    (statement.parameterTypes, .error "Invalid parameter null bitmap")
  else if newTypes && decide (behind.length < count * 2) then
    (statement.parameterTypes, .error "Missing prepared parameter types")
  else
    let supplied := suppliedTypes statement newTypes behind
    (supplied.1,
      if supplied.1.length ≠ count then .error "Parameter types were not supplied"
      else .ok (rest.take bitmapLength, supplied.2))

/-- An execution leaves no long data to the parameters of the statement. -/
def UsesUp (data : Bytes) (statement : WirePreparedStatement) : Prop :=
  match readHeader data statement with
  | (_, .error _) => NonePending statement.longData 0 statement.parameterCount
  | (types, .ok (nullBitmap, rest)) => LoopUsesUp nullBitmap statement.longData 0 types rest

/-- Every execution of a run does. -/
def AllUseUp (statement : WirePreparedStatement) : List StatementCommand → Prop
  | [] => True
  | command :: commands =>
    (∀ data, command = .execute data → 10 ≤ data.length → UsesUp data statement) ∧
      AllUseUp (statement.handle command).1 commands

/-! ## The loop -/

section Loop

variable {nullBitmap : Bytes} {longData longData' : AList fun _ : Nat => Bytes}
  {index : Nat} {types : List UInt16} {rest : Bytes}

theorem nonePending_succ {count : Nat} :
    NonePending longData index (count + 1) ↔
      longData.lookup index = none ∧ NonePending longData (index + 1) count := by
  constructor
  · intro h
    exact ⟨h index (Nat.le_refl _) (by omega), fun i hi hlt => h i (by omega) (by omega)⟩
  · rintro ⟨hindex, h⟩ i hi hlt
    rcases Nat.eq_or_lt_of_le hi with rfl | hlt'
    · exact hindex
    · exact h i hlt' (by omega)

theorem nonePending_congr {count : Nat}
    (h : ∀ i, index ≤ i → longData.lookup i = longData'.lookup i) :
    NonePending longData index count ↔ NonePending longData' index count := by
  constructor
  · intro hnone i hi hlt
    rw [← h i hi]
    exact hnone i hi hlt
  · intro hnone i hi hlt
    rw [h i hi]
    exact hnone i hi hlt

/-- **The loop reads** long data of the parameters that it goes over, and no other. -/
theorem decodeValues_congr
    (h : ∀ i, index ≤ i → i < index + types.length → longData.lookup i = longData'.lookup i) :
    (decodeValues nullBitmap index types longData rest).2 =
      (decodeValues nullBitmap index types longData' rest).2 := by
  induction types generalizing index longData longData' rest with
  | nil => rfl
  | cons type types ih =>
    rw [List.length_cons] at h
    have hindex := h index (Nat.le_refl _) (by omega)
    have hbehind : ∀ i, index + 1 ≤ i → i < index + 1 + types.length →
        longData.lookup i = longData'.lookup i := fun i hi hlt => h i (by omega) (by omega)
    have herased : ∀ i, index + 1 ≤ i → i < index + 1 + types.length →
        (longData.erase index).lookup i = (longData'.erase index).lookup i := by
      intro i hi hlt
      rw [AList.lookup_erase_ne (by omega), AList.lookup_erase_ne (by omega), hbehind i hi hlt]
    rw [decodeValues, decodeValues, ← hindex]
    split
    · simp only [ih hbehind]
    · split
      · split
        · rfl
        · simp only [ih herased]
      · split
        · rfl
        · simp only [ih hbehind]

/-- **What the loop leaves** is stored under the parameters behind it as before. -/
theorem lookup_decodeValues {i : Nat} (hi : i < index ∨ index + types.length ≤ i) :
    (decodeValues nullBitmap index types longData rest).1.lookup i = longData.lookup i := by
  induction types generalizing index longData rest with
  | nil => rfl
  | cons type types ih =>
    rw [List.length_cons] at hi
    have hbehind : i < index + 1 ∨ index + 1 + types.length ≤ i := by omega
    have hne : i ≠ index := by omega
    rw [decodeValues]
    split
    · exact ih hbehind
    · split
      · split
        · exact AList.lookup_erase_ne hne
        · rw [ih hbehind, AList.lookup_erase_ne hne]
      · split
        · rfl
        · exact ih hbehind

theorem loopUsesUp_congr (h : ∀ i, index ≤ i → longData.lookup i = longData'.lookup i) :
    LoopUsesUp nullBitmap longData index types rest ↔
      LoopUsesUp nullBitmap longData' index types rest := by
  induction types generalizing index rest with
  | nil => exact Iff.rfl
  | cons type types ih =>
    have hbehind : ∀ i, index + 1 ≤ i → longData.lookup i = longData'.lookup i :=
      fun i hi => h i (by omega)
    have hnone := @nonePending_congr longData longData' (index + 1) types.length hbehind
    rw [LoopUsesUp, LoopUsesUp, ← h index (Nat.le_refl _)]
    split
    · rw [ih hbehind]
    · split
      · split
        · exact hnone
        · exact ih hbehind
      · split
        · exact hnone
        · exact ih hbehind

/-- **The loop leaves nothing** to its parameters exactly when it comes to all long data. -/
theorem nonePending_decodeValues :
    NonePending (decodeValues nullBitmap index types longData rest).1 index types.length ↔
      LoopUsesUp nullBitmap longData index types rest := by
  induction types generalizing index longData rest with
  | nil =>
    refine ⟨fun _ => trivial, fun _ i hi hlt => ?_⟩
    rw [List.length_nil] at hlt
    omega
  | cons type types ih =>
    have herased : ∀ i, index + 1 ≤ i → (longData.erase index).lookup i = longData.lookup i :=
      fun i hi => AList.lookup_erase_ne (by omega)
    have hkept : ∀ stored rest, (decodeValues nullBitmap (index + 1) types stored rest).1.lookup
        index = stored.lookup index :=
      fun stored rest => lookup_decodeValues (Or.inl (Nat.lt_succ_self index))
    rw [List.length_cons, nonePending_succ, decodeValues, LoopUsesUp]
    split
    · rw [hkept, ih]
    · cases hstored : longData.lookup index with
      | some bytes =>
        cases hdecode : decode bytes with
        | none =>
          simp only [hdecode]
          rw [nonePending_congr herased]
          exact and_iff_right (AList.lookup_erase index longData)
        | some text =>
          simp only [hdecode]
          rw [hkept, ih, loopUsesUp_congr herased]
          exact and_iff_right (AList.lookup_erase index longData)
      | none =>
        cases decodeValue type rest with
        | error e =>
          simp only
          exact and_iff_right hstored
        | ok read =>
          simp only
          rw [hkept, ih]
          exact and_iff_right hstored

/-- **Stored long data shows**: where an execution does not send NULL, it decodes it. -/
theorem text_of_stored {values : List Value} {i : Nat} {bytes : Bytes}
    (hstored : longData.lookup (index + i) = some bytes)
    (hsent : isNullAt nullBitmap (index + i) = false) (hi : i < types.length)
    (h : (decodeValues nullBitmap index types longData rest).2 = .ok values) :
    ∃ text, values[i]? = some (.text text) := by
  induction types generalizing index longData rest values i with
  | nil => cases hi
  | cons type types ih =>
    rw [List.length_cons] at hi
    cases i with
    | zero =>
      rw [Nat.add_zero] at hstored hsent
      rw [decodeValues, if_neg (by simp [hsent]), hstored] at h
      cases hdecode : decode bytes with
      | none => simp [hdecode] at h
      | some text =>
        simp only [hdecode] at h
        obtain ⟨more, -, rfl⟩ := Result.map_eq_ok.mp h
        exact ⟨text, rfl⟩
    | succ i =>
      have hi : i < types.length := Nat.lt_of_succ_lt_succ hi
      have hnext : index + (i + 1) = index + 1 + i := by omega
      rw [hnext] at hstored hsent
      have herased : (longData.erase index).lookup (index + 1 + i) = some bytes := by
        rw [AList.lookup_erase_ne (by omega), hstored]
      rw [decodeValues] at h
      split at h
      · obtain ⟨more, hmore, rfl⟩ := Result.map_eq_ok.mp h
        have htext := ih hstored hsent hi hmore
        exact htext
      · split at h
        · split at h
          · cases h
          · obtain ⟨more, hmore, rfl⟩ := Result.map_eq_ok.mp h
            have htext := ih herased hsent hi hmore
            exact htext
        · split at h
          · cases h
          · obtain ⟨more, hmore, rfl⟩ := Result.map_eq_ok.mp h
            have htext := ih hstored hsent hi hmore
            exact htext

end Loop

/-! ## One execution -/

section Execution

variable {data : Bytes} {statement : WirePreparedStatement}

/-- The function, with what it reads first apart. -/
theorem decodeStmtParameters_eq (data : Bytes) (statement : WirePreparedStatement) :
    decodeStmtParameters data statement =
      match readHeader data statement with
      | (types, .error e) => ({ statement with parameterTypes := types }, .error e)
      | (types, .ok (nullBitmap, rest)) =>
        let decoded := decodeValues nullBitmap 0 types statement.longData rest
        ({ statement with parameterTypes := types, longData := decoded.1 }, decoded.2) := by
  simp only [decodeStmtParameters, readHeader]
  split
  · rfl
  · split
    · rfl
    · split
      · rfl
      · rw [← suppliedTypes]
        split
        · rfl
        · rfl

theorem length_of_readHeader {types : List UInt16} {nullBitmap rest : Bytes}
    (h : readHeader data statement = (types, .ok (nullBitmap, rest))) :
    types.length = statement.parameterCount := by
  simp only [readHeader] at h
  split at h
  · cases h
  · split at h
    · cases h
    · split at h
      · cases h
      · obtain ⟨hsupplied, hcount⟩ := Prod.mk.inj h
        split at hcount
        · cases hcount
        · rename_i heq
          rw [← hsupplied]
          exact not_not.mp heq

/-- **One execution leaves nothing** to the parameters exactly when it uses up the long data
that is stored for them. -/
theorem nonePending_iff_usesUp :
    NonePending (decodeStmtParameters data statement).1.longData 0 statement.parameterCount ↔
      UsesUp data statement := by
  rw [UsesUp, decodeStmtParameters_eq]
  split
  · rfl
  · rename_i types nullBitmap rest hheader
    rw [← length_of_readHeader hheader]
    exact nonePending_decodeValues

/-- Two statements that decode the same: their long data differs at most behind their
parameters. -/
structure SameReads (statement statement' : WirePreparedStatement) : Prop where
  count : statement'.parameterCount = statement.parameterCount
  types : statement'.parameterTypes = statement.parameterTypes
  longData : ∀ i, i < statement.parameterCount →
    statement'.longData.lookup i = statement.longData.lookup i

theorem parameterCount_decode :
    (decodeStmtParameters data statement).1.parameterCount = statement.parameterCount := by
  rw [decodeStmtParameters_eq]
  split <;> rfl

theorem SameReads.readHeader {statement' : WirePreparedStatement}
    (h : SameReads statement statement') :
    readHeader data statement' = readHeader data statement := by
  obtain ⟨count, types, longData⟩ := statement
  obtain ⟨count', types', longData'⟩ := statement'
  obtain rfl : count' = count := h.count
  obtain rfl : types' = types := h.types
  rfl

/-- **One execution reads** the long data of its parameters only. -/
theorem SameReads.decode {statement' : WirePreparedStatement} (h : SameReads statement statement') :
    (decodeStmtParameters data statement').2 = (decodeStmtParameters data statement).2 ∧
      (decodeStmtParameters data statement').1.parameterTypes =
        (decodeStmtParameters data statement).1.parameterTypes := by
  rw [decodeStmtParameters_eq, decodeStmtParameters_eq data statement, h.readHeader]
  split
  · exact ⟨rfl, rfl⟩
  · rename_i types nullBitmap rest hread
    refine ⟨decodeValues_congr fun i _ hlt => h.longData i ?_, rfl⟩
    rwa [Nat.zero_add, length_of_readHeader hread] at hlt

end Execution

/-! ## Runs -/

namespace WirePreparedStatement

variable {statement statement' : WirePreparedStatement}

theorem sameReads_appendLongData (h : SameReads statement statement') (data : Bytes) :
    SameReads (statement.appendLongData data) (statement'.appendLongData data) := by
  unfold appendLongData
  split
  · exact h
  · refine ⟨h.count, h.types, fun i hi => ?_⟩
    show AList.lookup i (AList.insert _ _ _) = AList.lookup i (AList.insert _ _ _)
    by_cases hparameter : i = ofBytes ((data.drop 5).take 2)
    · rw [← hparameter, AList.lookup_insert, AList.lookup_insert, h.longData i hi]
    · rw [AList.lookup_insert_ne hparameter, AList.lookup_insert_ne hparameter, h.longData i hi]

theorem sameReads_clearLongData (h : SameReads statement statement') :
    SameReads statement.clearLongData statement'.clearLongData :=
  ⟨h.count, h.types, fun _ _ => rfl⟩

/-- **An execution that uses up its long data** leaves what the isolated one leaves. -/
theorem sameReads_of_usesUp (h : SameReads statement statement') {data : Bytes}
    (huses : UsesUp data statement) :
    SameReads (decodeStmtParameters data statement).1
      (decodeStmtParameters data statement').1.clearLongData := by
  have hcount : (decodeStmtParameters data statement).1.parameterCount = statement.parameterCount :=
    parameterCount_decode
  refine ⟨?_, h.decode.2, fun i hi => ?_⟩
  · show (decodeStmtParameters data statement').1.parameterCount = _
    rw [hcount, parameterCount_decode, h.count]
  · rw [hcount] at hi
    have hnone := nonePending_iff_usesUp.mpr huses i (Nat.zero_le i) (by rwa [Nat.zero_add])
    rw [hnone]
    exact AList.lookup_empty i

/-- **A run** whose executions use up their long data decodes what the isolated one does. -/
theorem outcomes_eq_isolated {commands : List StatementCommand} (h : SameReads statement statement')
    (huse : AllUseUp statement commands) :
    statement.outcomes commands = statement'.isolatedOutcomes commands := by
  induction commands generalizing statement statement' with
  | nil => rfl
  | cons command commands ih =>
    obtain ⟨hfirst, hrest⟩ := huse
    rw [outcomes, isolatedOutcomes]
    cases command with
    | sendLongData data =>
      have hnext := ih (sameReads_appendLongData h data) hrest
      exact congrArg (none :: ·) hnext
    | reset data =>
      simp only [handle] at hrest ⊢
      by_cases hshort : data.length < 5
      · simp only [if_pos hshort] at hrest ⊢
        have hnext := ih h hrest
        exact congrArg (none :: ·) hnext
      · simp only [if_neg hshort] at hrest ⊢
        have hnext := ih (sameReads_clearLongData h) hrest
        exact congrArg (none :: ·) hnext
    | execute data =>
      simp only [handle] at hrest ⊢
      by_cases hshort : data.length < 10
      · simp only [if_pos hshort] at hrest ⊢
        have hnext := ih h hrest
        exact congrArg (none :: ·) hnext
      · simp only [if_neg hshort] at hrest ⊢
        have huses := hfirst data rfl (Nat.le_of_not_lt hshort)
        have hnext := ih (sameReads_of_usesUp h huses) hrest
        rw [h.decode.1, hnext]
        rfl

end WirePreparedStatement

/-! ## Long data that is left -/

/-- Parameters of which only one is sent, with the type of NULL. -/
def onlySent (count sent : Nat) : List Parameter :=
  (List.range count).map fun j => ⟨0x0006, if j = sent then .boolean true else .null⟩

theorem decodeValues_nullTypes {nullBitmap : Bytes} {types : List UInt16} {index : Nat}
    (h : ∀ type ∈ types, typeCode type = mysqlTypeNull) :
    (decodeValues nullBitmap index types ∅ []).2 = .ok (types.map fun _ => Value.null) := by
  induction types generalizing index with
  | nil => rfl
  | cons type types ih =>
    have hrest := @ih (index + 1) fun other hother => h other (List.mem_cons_of_mem _ hother)
    have hvalue : decodeValue type [] = .ok (.null, []) := by
      rw [decodeValue]
      exact if_pos (h type (by simp))
    rw [decodeValues, AList.lookup_empty, hvalue]
    split
    · simp only [hrest]
      rfl
    · simp only [hrest]
      rfl

/-- The packet of these parameters, with their types. -/
def onlySentPacket (count sent : Nat) : Bytes :=
  List.replicate 10 0 ++ (nullBitmap ((onlySent count sent).map Parameter.value) ++
    1 :: ((onlySent count sent).flatMap (fun p : Parameter => toBytes 2 p.type.toNat) ++ []))

theorem decode_onlySentPacket (statement : WirePreparedStatement) (sent : Nat) :
    (decodeStmtParameters (onlySentPacket statement.parameterCount sent) statement).2 =
      (decodeValues (nullBitmap ((onlySent statement.parameterCount sent).map Parameter.value)) 0
        ((onlySent statement.parameterCount sent).map Parameter.type) statement.longData []).2 := by
  have hlength : (onlySent statement.parameterCount sent).length = statement.parameterCount := by
    rw [onlySent, List.length_map, List.length_range]
  have hbitmap : (nullBitmap ((onlySent statement.parameterCount sent).map
      Parameter.value)).length = (statement.parameterCount + 7) / 8 := by
    rw [length_nullBitmap, List.length_map, hlength]
  have hflag : (some (1 : UInt8) != some 0) = true := by decide
  have hsent : ¬ ((onlySent statement.parameterCount sent).flatMap
      (fun p : Parameter => toBytes 2 p.type.toNat) ++ []).length <
        statement.parameterCount * 2 := by
    rw [List.append_nil, List.length_flatMap]
    simp [hlength]
  have hread := readTypes_encode (onlySent statement.parameterCount sent) []
  rw [hlength] at hread
  have htypes : ((onlySent statement.parameterCount sent).map Parameter.type).length =
      statement.parameterCount := by
    rw [List.length_map, hlength]
  rw [onlySentPacket, decodeStmtParameters_append (List.length_replicate) hbitmap]
  simp only [hflag, hsent, decide_false, Bool.and_false, Bool.false_eq_true, if_false, if_true,
    hread, htypes, ne_eq, not_true_eq_false]

/-- **Long data that is left shows** in an execution that may follow. -/
theorem exists_later_of_stored {statement : WirePreparedStatement} {i : Nat} {bytes : Bytes}
    (hi : i < statement.parameterCount) (hstored : statement.longData.lookup i = some bytes) :
    ∃ data, 10 ≤ data.length ∧ (decodeStmtParameters data statement).2 ≠
      (decodeStmtParameters data statement.clearLongData).2 := by
  have hcount : statement.clearLongData.parameterCount = statement.parameterCount := rfl
  refine ⟨onlySentPacket statement.parameterCount i, ?_, ?_⟩
  · rw [onlySentPacket, List.length_append, List.length_replicate]
    exact Nat.le_add_right 10 _
  · have hcleared := decode_onlySentPacket statement.clearLongData i
    rw [hcount] at hcleared
    rw [decode_onlySentPacket statement i, hcleared]
    have hnulls := @decodeValues_nullTypes
      (nullBitmap ((onlySent statement.parameterCount i).map Parameter.value))
      ((onlySent statement.parameterCount i).map Parameter.type) 0 (by
        intro type htype
        obtain ⟨p, hp, rfl⟩ := List.mem_map.mp htype
        obtain ⟨j, -, rfl⟩ := List.mem_map.mp hp
        rfl)
    intro heq
    have hvalues := heq.trans hnulls
    have hparameter : (onlySent statement.parameterCount i)[i]? = some ⟨0x0006, .boolean true⟩ := by
      rw [onlySent, List.getElem?_map, List.getElem?_range hi]
      simp
    have hsent : isNullAt (nullBitmap ((onlySent statement.parameterCount i).map Parameter.value))
        (0 + i) = false := by
      have hvalue : ((onlySent statement.parameterCount i).map Parameter.value)[i]? =
          some (.boolean true) := by
        rw [List.getElem?_map, hparameter]
        rfl
      rw [Nat.zero_add, isNullAt_nullBitmap hvalue]
      rfl
    have hlength : ((onlySent statement.parameterCount i).map Parameter.type).length =
        statement.parameterCount := by
      rw [List.length_map, onlySent, List.length_map, List.length_range]
    obtain ⟨text, htext⟩ := text_of_stored (by rwa [Nat.zero_add]) hsent (by rwa [hlength]) hvalues
    rw [List.getElem?_map] at htext
    obtain ⟨type, -, hnull⟩ := Option.map_eq_some_iff.mp htext
    cases hnull

/-- **Long data belongs to one execution only** in every run whose executions use up the long
data of their parameters: what is decoded depends on the packet, on the types that were
supplied last and on the chunks since the last execution or reset.  An execution that does
not use it up, whatever it returns, leaves a statement that a later execution tells apart from
one without long data. -/
theorem long_data_isolated (count : Nat) :
    (∀ commands, AllUseUp { parameterCount := count } commands →
      WirePreparedStatement.outcomes { parameterCount := count } commands =
        WirePreparedStatement.isolatedOutcomes { parameterCount := count } commands) ∧
    ∀ (statement : WirePreparedStatement) (data : Bytes), statement.parameterCount = count →
      ¬ UsesUp data statement →
        ∃ later, 10 ≤ later.length ∧
          (decodeStmtParameters later (decodeStmtParameters data statement).1).2 ≠
            (decodeStmtParameters later
              (decodeStmtParameters data statement).1.clearLongData).2 := by
  constructor
  · intro commands huse
    exact WirePreparedStatement.outcomes_eq_isolated ⟨rfl, rfl, fun _ _ => rfl⟩ huse
  · intro statement data hcount hleft
    obtain ⟨i, hi, bytes, hbytes⟩ : ∃ i, i < statement.parameterCount ∧ ∃ bytes,
        (decodeStmtParameters data statement).1.longData.lookup i = some bytes := by
      by_contra hnone
      refine hleft (nonePending_iff_usesUp.mp fun i _ hi => ?_)
      rw [Option.eq_none_iff_forall_ne_some]
      rw [Nat.zero_add] at hi
      exact fun bytes hbytes => hnone ⟨i, hi, bytes, hbytes⟩
    exact exists_later_of_stored (by rwa [parameterCount_decode]) hbytes

/-- The ten bytes in front of an execution of the first statement. -/
def executeHeader : Bytes := [0x17, 1, 0, 0, 0, 0, 1, 0, 0, 0]

/-- A chunk for the only parameter, an execution that takes it, and one that sends `y`. -/
def chunkThenInline : List StatementCommand :=
  [.sendLongData ([0x18, 1, 0, 0, 0, 0, 0] ++ utf8 "x"),
    .execute (executeHeader ++ [0, 1, 0xfd, 0]),
    .execute (executeHeader ++ [0, 1, 0xfd, 0, 1] ++ utf8 "y")]

theorem chunk_read_once :
    WirePreparedStatement.outcomes { parameterCount := 1 } chunkThenInline =
        [none, some (.ok [.text "x"]), some (.ok [.text "y"])] ∧
      WirePreparedStatement.outcomes { parameterCount := 1 } chunkThenInline =
        WirePreparedStatement.isolatedOutcomes { parameterCount := 1 } chunkThenInline := by
  have huse : AllUseUp { parameterCount := 1 } chunkThenInline := by
    refine ⟨nofun, ?_, ?_, trivial⟩
    · rintro data ⟨⟩ -
      refine nonePending_iff_usesUp.mp fun i _ hi => ?_
      obtain rfl : i = 0 := Nat.lt_one_iff.mp hi
      rfl
    · rintro data ⟨⟩ -
      refine nonePending_iff_usesUp.mp fun i _ hi => ?_
      obtain rfl : i = 0 := Nat.lt_one_iff.mp hi
      rfl
  exact ⟨by decide +kernel, (long_data_isolated 1).1 chunkThenInline huse⟩

/-- A chunk for the only parameter, an execution that sends NULL, and one that sends `y`. -/
def chunkBeforeNull : List StatementCommand :=
  [.sendLongData ([0x18, 1, 0, 0, 0, 0, 0] ++ utf8 "x"),
    .execute (executeHeader ++ [1, 1, 0xfd, 0]),
    .execute (executeHeader ++ [0, 1, 0xfd, 0, 1] ++ utf8 "y")]

/-- **Long data outlives an execution with NULL**: the next execution sends `y`, and decodes
the chunk that was sent before. -/
theorem chunk_outlives_null :
    WirePreparedStatement.outcomes { parameterCount := 1 } chunkBeforeNull =
        [none, some (.ok [.null]), some (.ok [.text "x"])] ∧
      WirePreparedStatement.isolatedOutcomes { parameterCount := 1 } chunkBeforeNull =
        [none, some (.ok [.null]), some (.ok [.text "y"])] := by
  constructor <;> decide +kernel

end Wire
end RustyDB
