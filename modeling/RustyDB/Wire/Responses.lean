import Mathlib
import RustyDB.Sql.Alter
import RustyDB.Sql.RowKeys
import RustyDB.Wire.ResultSets
import RustyDB.Wire.Framing
import RustyDB.Wire.Lenenc

/-!
# Responses

The model of `encode_result`, `encode_prepared_result` and the packet builders of `src/wire`,
and of a client that takes responses off a sequence of packets.

* `encodeResult`, `encodePreparedResult`, `preparePackets` — the packets of a response.
* `Response`, `readResponse`, `readPrepareResponse` — what a client makes of them: one packet
  that is OK, ERR or EOF, or columns up to an EOF and rows up to another.
* `isEof_buildTextRow`, `isEof_buildBinaryRow` — **no row is taken for the end of the rows.**
* `readResponse_encodeResult`, `readResponse_encodePrepared`, `readPrepareResponse_packets` —
  **each response is read to its end and no further**, whatever stands behind it.
-/

namespace RustyDB
namespace Wire

open LineFile LittleEndian Sql

/-! ## Packets -/

/-- `SERVER_STATUS_AUTOCOMMIT`. -/
def serverStatusAutocommit : UInt16 := 0x0002
/-- `SERVER_STATUS_IN_TRANS`. -/
def serverStatusInTrans : UInt16 := 0x0001

/-- `build_ok_packet_with_status`: the marker, two counts, the status, no warnings. -/
def buildOkPacketWithStatus (affectedRows lastInsertId : Nat) (status : UInt16) : Bytes :=
  0x00 :: (encodeLenencInt affectedRows ++ (encodeLenencInt lastInsertId ++
    (toBytes 2 status.toNat ++ toBytes 2 0)))

/-- `build_ok_packet`. -/
def buildOkPacket (affectedRows lastInsertId : Nat) : Bytes :=
  buildOkPacketWithStatus affectedRows lastInsertId serverStatusAutocommit

/-- The SQL state: five bytes, with digits zero behind a state that is too short. -/
def sqlState (state : String) : Bytes :=
  (List.range 5).map fun i => ((utf8 state)[i]?).getD 0x30

/-- `build_err_packet`: the marker, the code, a sharp and the SQL state, the message. -/
def buildErrPacket (code : UInt16) (state message : String) : Bytes :=
  0xff :: (toBytes 2 code.toNat ++ 0x23 :: (sqlState state ++ utf8 message))

/-- `build_eof_packet`. -/
def buildEofPacket : Bytes := buildEofPacketWithStatus serverStatusAutocommit

/-- `build_stmt_prepare_ok`. -/
def buildStmtPrepareOk (statementId : UInt32) (columns parameters : UInt16) : Bytes :=
  0x00 :: (toBytes 4 statementId.toNat ++ (toBytes 2 columns.toNat ++
    (toBytes 2 parameters.toNat ++ 0x00 :: toBytes 2 0)))

/-! ## Results -/

/-- The rows of DESCRIBE. -/
def describedColumn (column : Sql.ColumnDef) : Row :=
  [.text column.name, .text column.dataType.display,
    .text (if column.nullable then "YES" else "NO"),
    .text (if column.primaryKey then "PRI" else ""),
    .text "NULL", .text ""]

/-- The rows of SHOW INDEXES. -/
def indexRows (index : IndexDef) : List Row :=
  index.columns.map fun column =>
    [.text index.name, .text column, .integer (if index.unique then 0 else 1)]

/-- The result set that a result is sent as, and the table it is of. -/
def answerSet : ExecutionResult → Option (ResultSet × String)
  | .select rs => some (rs, "")
  | .tables names => some (⟨["Tables_in_rustydb"], names.map fun name => [.text name]⟩, "")
  | .tableDescription tableName columns =>
    some (⟨["Field", "Type", "Null", "Key", "Default", "Extra"], columns.map describedColumn⟩,
      tableName)
  | .indexes indexes =>
    some (⟨["Key_name", "Column_name", "Non_unique"], indexes.flatMap indexRows⟩, "")
  | .explain lines => some (⟨["plan"], lines.map fun text => [.text text]⟩, "")
  | _ => none

/-- The number of rows that an OK packet reports. -/
def affectedRows : ExecutionResult → Nat
  | .rowsAffected count => count
  | _ => 0

section Results

variable (formatFloat : F64 → String)

/-- `encode_result`. -/
def encodeResult (result : Except String ExecutionResult) (status : UInt16) : List Bytes :=
  match result with
  | .error message => [buildErrPacket 1064 "42000" message]
  | .ok result =>
    match answerSet result with
    | some (rs, tableName) => encodeResultSet formatFloat rs tableName status
    | none => [buildOkPacketWithStatus (affectedRows result) 0 status]

/-- The type that the metadata give a column, or TEXT. -/
def metadataType (resultMetadata : List (String × DataType)) (index : Nat) : DataType :=
  ((resultMetadata[index]?).map Prod.snd).getD .text

/-- The definition of a column that may be NULL and is no key. -/
def typedColumnDef (name : String) (type : DataType) : Bytes :=
  buildColumnDef name "" (datatypeToMysql type) (columnFlags type true false)

/-- `encode_prepared_result`. -/
def encodePreparedResult (result : Except String ExecutionResult)
    (resultMetadata : List (String × DataType)) (status : UInt16) : Except Fault (List Bytes) :=
  match result with
  | .ok (.select rs) => do
    let rows ← rs.rows.mapM buildBinaryRow
    pure ([buildColumnCount rs.columns.length] ++
      rs.columns.mapIdx (fun index name =>
        typedColumnDef name (metadataType resultMetadata index)) ++
      [buildEofPacketWithStatus status] ++ rows ++ [buildEofPacketWithStatus status])
  | result => .ok (encodeResult formatFloat result status)

end Results

/-- The packets that answer COM_STMT_PREPARE. -/
def preparePackets (statementId : UInt32) (count : Nat)
    (resultMetadata : List (String × DataType)) : List Bytes :=
  [buildStmtPrepareOk statementId (UInt16.ofNat resultMetadata.length) (UInt16.ofNat count)] ++
    (List.range count).map (fun index =>
      buildColumnDef s!"param{index + 1}" "" mysqlTypeVarString 0) ++
    (if count = 0 then [] else [buildEofPacket]) ++
    resultMetadata.map (fun column => typedColumnDef column.1 column.2) ++
    (if resultMetadata = [] then [] else [buildEofPacket])

/-! ## The client -/

/-- What a client keeps of a column definition. -/
structure ColumnInfo where
  name : String
  table : String
  type : UInt8
  flags : Nat
  deriving DecidableEq

/-- A response as a client sees it; rows as the bytes of their packets. -/
inductive Response where
  | ok (affectedRows lastInsertId status : Nat)
  | err (code : Nat) (state : Bytes) (message : String)
  | eof (status : Nat)
  | resultSet (columns : List ColumnInfo) (rows : List Bytes) (status : Nat)
  | prepared (statementId : Nat) (parameters columns : List ColumnInfo)
  deriving DecidableEq

/-- A column definition: catalog, schema, table and column twice, and what has a fixed length. -/
def readColumnDef (packet : Bytes) : Option ColumnInfo := do
  let (_, rest) ← readLenencStr packet
  let (_, rest) ← readLenencStr rest
  let (table, rest) ← readLenencStr rest
  let (_, rest) ← readLenencStr rest
  let (name, rest) ← readLenencStr rest
  let (_, rest) ← readLenencStr rest
  let type ← rest[7]?
  pure ⟨name, table, type, ofBytes ((rest.drop 8).take 2)⟩

/-- An EOF packet is short; a row may begin with the same byte. -/
def isEof (packet : Bytes) : Bool := packet.head? == some 0xfe && decide (packet.length < 9)

/-- The status of an EOF packet. -/
def eofStatus (packet : Bytes) : Nat := ofBytes ((packet.drop 3).take 2)

/-- So many column definitions, and an EOF. -/
def readColumns : Nat → List Bytes → Option (List ColumnInfo × List Bytes)
  | 0, packet :: rest => if isEof packet then some ([], rest) else none
  | count + 1, packet :: rest => do
    let column ← readColumnDef packet
    let (columns, rest) ← readColumns count rest
    pure (column :: columns, rest)
  | _, [] => none

/-- No packets at all for no columns. -/
def readSomeColumns (count : Nat) (packets : List Bytes) :
    Option (List ColumnInfo × List Bytes) :=
  if count = 0 then some ([], packets) else readColumns count packets

/-- Rows up to an EOF, and its status; an ERR in their place is no row. -/
def readRows : List Bytes → Option (List Bytes × Nat × List Bytes)
  | [] => none
  | packet :: rest =>
    if isEof packet then some ([], eofStatus packet, rest)
    else if packet.head? = some 0xff then none
    else do
      let (rows, status, rest) ← readRows rest
      pure (packet :: rows, status, rest)

/-- An OK packet behind its marker. -/
def readOk (body : Bytes) : Option Response := do
  let (affectedRows, rest) ← readLenencInt body
  let (lastInsertId, rest) ← readLenencInt rest
  pure (.ok affectedRows lastInsertId (ofBytes (rest.take 2)))

/-- An ERR packet behind its marker. -/
def readErr (body : Bytes) : Option Response :=
  (decode (body.drop 8)).map fun message =>
    .err (ofBytes (body.take 2)) ((body.drop 3).take 5) message

/-- The response to a command, and the packets behind it. -/
def readResponse : List Bytes → Option (Response × List Bytes)
  | (first :: body) :: rest =>
    if first = 0x00 then (readOk body).map (·, rest)
    else if first = 0xff then (readErr body).map (·, rest)
    else if isEof (first :: body) then some (.eof (eofStatus (first :: body)), rest)
    else do
      let (count, _) ← readLenencInt (first :: body)
      let (columns, rest) ← readColumns count rest
      let (rows, status, rest) ← readRows rest
      pure (.resultSet columns rows status, rest)
  | _ => none

/-- The response to COM_STMT_PREPARE, and the packets behind it. -/
def readPrepareResponse : List Bytes → Option (Response × List Bytes)
  | (first :: body) :: rest =>
    if first = 0x00 then do
      let (parameters, rest) ← readSomeColumns (ofBytes ((body.drop 6).take 2)) rest
      let (columns, rest) ← readSomeColumns (ofBytes ((body.drop 4).take 2)) rest
      pure (.prepared (ofBytes (body.take 4)) parameters columns, rest)
    else if first = 0xff then (readErr body).map (·, rest)
    else none
  | _ => none

/-! ## Single packets -/

section Packets

variable {formatFloat : F64 → String} {rest : List Bytes} {status : UInt16}

theorem ofBytes_toBytes_two (n : UInt16) : ofBytes (toBytes 2 n.toNat) = n.toNat :=
  ofBytes_toBytes n.toNat_lt

@[simp] theorem isEof_buildEofPacket : isEof (buildEofPacketWithStatus status) = true := by
  simp [isEof, buildEofPacketWithStatus]

@[simp] theorem eofStatus_buildEofPacket :
    eofStatus (buildEofPacketWithStatus status) = status.toNat := by
  rw [← ofBytes_toBytes_two status]
  rfl

theorem readOk_build {affectedRows lastInsertId : Nat} (haffected : affectedRows < 2 ^ 64)
    (hlast : lastInsertId < 2 ^ 64) :
    readResponse (buildOkPacketWithStatus affectedRows lastInsertId status :: rest) =
      some (.ok affectedRows lastInsertId status.toNat, rest) := by
  have hread : readOk (encodeLenencInt affectedRows ++ (encodeLenencInt lastInsertId ++
      (toBytes 2 status.toNat ++ toBytes 2 0))) =
        some (.ok affectedRows lastInsertId status.toNat) := by
    simp only [readOk, readLenencInt_encode haffected, readLenencInt_encode hlast,
      Option.bind_eq_bind, Option.bind_some, Option.pure_def]
    rw [List.take_left' (length_toBytes 2 _), ofBytes_toBytes_two]
  rw [buildOkPacketWithStatus, readResponse, if_pos rfl, hread]
  rfl

theorem readErr_build {code : UInt16} {state message : String} :
    readErr (toBytes 2 code.toNat ++ 0x23 :: (sqlState state ++ utf8 message)) =
      some (.err code.toNat (sqlState state) message) := by
  have hstate : (sqlState state).length = 5 := by simp [sqlState]
  have hcode : (toBytes 2 code.toNat ++ 0x23 :: (sqlState state ++ utf8 message)).take 2 =
      toBytes 2 code.toNat := List.take_left' (length_toBytes 2 _)
  have hbehind : (toBytes 2 code.toNat ++ 0x23 :: (sqlState state ++ utf8 message)).drop 3 =
      sqlState state ++ utf8 message := by
    rw [List.drop_append, length_toBytes, List.drop_of_length_le (by rw [length_toBytes]; omega)]
    rfl
  have hmessage : (toBytes 2 code.toNat ++ 0x23 :: (sqlState state ++ utf8 message)).drop 8 =
      utf8 message := by
    rw [show 8 = 3 + 5 from rfl, ← List.drop_drop, hbehind, List.drop_left' hstate]
  rw [readErr, hcode, hbehind, hmessage, decode_utf8, ofBytes_toBytes_two,
    List.take_left' hstate]
  rfl

theorem readResponse_err {code : UInt16} {state message : String} :
    readResponse (buildErrPacket code state message :: rest) =
      some (.err code.toNat (sqlState state) message, rest) := by
  rw [buildErrPacket, readResponse, if_neg (by decide), if_pos rfl, readErr_build]
  rfl

theorem readPrepareResponse_err {code : UInt16} {state message : String} :
    readPrepareResponse (buildErrPacket code state message :: rest) =
      some (.err code.toNat (sqlState state) message, rest) := by
  rw [buildErrPacket, readPrepareResponse, if_neg (by decide), if_pos rfl, readErr_build]
  rfl

theorem readResponse_eof :
    readResponse (buildEofPacketWithStatus status :: rest) = some (.eof status.toNat, rest) := by
  have heof := @isEof_buildEofPacket status
  have hstatus := @eofStatus_buildEofPacket status
  rw [buildEofPacketWithStatus] at heof hstatus ⊢
  rw [readResponse, if_neg (by decide), if_neg (by decide), if_pos heof, hstatus]

end Packets

/-! ## Columns -/

section Columns

variable {rest : List Bytes} {status : UInt16} {name table : String} {type : UInt8}
  {flags : UInt16}

/-- **A column definition** is read back. -/
theorem readColumnDef_build (hname : (utf8 name).length < 2 ^ 64)
    (htable : (utf8 table).length < 2 ^ 64) :
    readColumnDef (buildColumnDef name table type flags) =
      some ⟨name, table, type, flags.toNat⟩ := by
  have hcatalog : (utf8 "def").length < 2 ^ 64 := by decide
  have hschema : (utf8 "rustydb").length < 2 ^ 64 := by decide
  simp only [readColumnDef, buildColumnDef, readLenencStr_encode hcatalog,
    readLenencStr_encode hschema, readLenencStr_encode htable, readLenencStr_encode hname,
    Option.bind_eq_bind, Option.bind_some]
  show some (ColumnInfo.mk name table type (ofBytes (toBytes 2 flags.toNat))) = _
  rw [ofBytes_toBytes_two]

/-- Columns that a client knows, and the definitions that it read them from. -/
def Defines (column : ColumnInfo) (packet : Bytes) : Prop := readColumnDef packet = some column

theorem readColumns_build {columns : List ColumnInfo} {packets : List Bytes}
    (h : List.Forall₂ Defines columns packets) :
    readColumns columns.length (packets ++ (buildEofPacketWithStatus status :: rest)) =
      some (columns, rest) := by
  induction h with
  | nil => simp [readColumns]
  | cons hcolumn _ ih =>
    rw [List.length_cons, List.cons_append, readColumns, hcolumn, Option.bind_eq_bind,
      Option.bind_some, ih]
    rfl

theorem readSomeColumns_build {columns : List ColumnInfo} {packets : List Bytes}
    (h : List.Forall₂ Defines columns packets) :
    readSomeColumns columns.length
        (packets ++ ((if columns = [] then [] else [buildEofPacketWithStatus status]) ++ rest)) =
      some (columns, rest) := by
  cases h with
  | nil => rfl
  | cons hcolumn hcolumns =>
    rw [readSomeColumns, List.length_cons, if_neg (Nat.succ_ne_zero _),
      if_neg (List.cons_ne_nil _ _), List.singleton_append]
    exact readColumns_build (List.Forall₂.cons hcolumn hcolumns)

end Columns

/-! ## Rows -/

/-- A packet that is a row: it is no EOF and no ERR. -/
def IsRow (packet : Bytes) : Prop := isEof packet = false ∧ packet.head? ≠ some 0xff

/-- No length begins like an ERR, and one that begins like an EOF is longer than that. -/
theorem isRow_encodeLenencInt (value : Nat) (rest : Bytes) :
    IsRow (encodeLenencInt value ++ rest) := by
  obtain ⟨first, tail, hhead, -⟩ := encodeLenencInt_head value
  have hlength := length_encodeLenencInt hhead
  refine ⟨?_, ?_⟩
  · rw [isEof, Bool.and_eq_false_iff, decide_eq_false_iff_not]
    by_cases hfirst : first = 0xfe
    · right
      subst hfirst
      rw [List.length_append, hlength]
      show ¬ 9 + rest.length < 9
      omega
    · left
      rw [hhead]
      simpa using hfirst
  · rw [hhead, List.cons_append, List.head?_cons, ne_eq, Option.some.injEq]
    rintro rfl
    unfold encodeLenencInt at hhead
    split at hhead
    · rename_i hsmall
      obtain ⟨hbyte, -⟩ := List.cons.inj hhead
      have hvalue := congrArg UInt8.toNat hbyte
      rw [UInt8.toNat_ofNat'] at hvalue
      have hmark : (0xff : UInt8).toNat = 255 := rfl
      omega
    · split at hhead
      · cases hhead
      · split at hhead <;> cases hhead

/-- **No text row is taken for an EOF or an ERR.** -/
theorem isRow_buildTextRow (formatFloat : F64 → String) (values : List Value) :
    IsRow (buildTextRow formatFloat values) := by
  cases values with
  | nil => exact ⟨rfl, nofun⟩
  | cons value values =>
    rw [buildTextRow, List.flatMap_cons, encodeTextValue_eq]
    cases fieldText formatFloat value with
    | none =>
      refine ⟨rfl, ?_⟩
      show some (0xfb : UInt8) ≠ some 0xff
      decide
    | some text =>
      rw [Option.map_some, Option.getD_some, encodeLenencStr, List.append_assoc]
      exact isRow_encodeLenencInt _ _

/-- **A binary row** is built without an access out of range, and begins with a zero byte. -/
theorem isRow_buildBinaryRow (values : List Value) :
    ∃ packet, buildBinaryRow values = .ok packet ∧ IsRow packet := by
  have hclear : ∀ i, isNullAt (List.replicate ((values.length + 9) / 8) 0) i = false := by
    intro i
    rw [isNullAt, List.getElem?_replicate]
    split <;> simp
  obtain ⟨bitmap, -, -, -, hbuild⟩ :=
    @appendValues_eq 0 values (List.replicate ((values.length + 9) / 8) 0) [] 0
      (by rw [List.length_replicate]; omega) fun i _ => hclear (i + 2)
  rw [List.append_nil] at hbuild
  exact ⟨_, hbuild, rfl, by simp⟩

theorem readRows_build {rest rows : List Bytes} {status : UInt16}
    (h : ∀ row ∈ rows, IsRow row) :
    readRows (rows ++ (buildEofPacketWithStatus status :: rest)) =
      some (rows, status.toNat, rest) := by
  induction rows with
  | nil => simp [readRows]
  | cons row rows ih =>
    obtain ⟨heof, herr⟩ := h row List.mem_cons_self
    rw [List.cons_append, readRows, heof, if_neg Bool.false_ne_true, if_neg herr,
      ih fun other hother => h other (List.mem_cons_of_mem row hother)]
    rfl

/-! ## Responses -/

/-- **A result set** is read to its end, unless it has no columns. -/
theorem readResponse_resultSet {columns : List ColumnInfo} {definitions rows rest : List Bytes}
    {status : UInt16} (hne : columns ≠ []) (hlength : columns.length < 2 ^ 64)
    (hdefines : List.Forall₂ Defines columns definitions) (hrows : ∀ row ∈ rows, IsRow row) :
    readResponse (buildColumnCount columns.length :: (definitions ++
        (buildEofPacketWithStatus status :: (rows ++ (buildEofPacketWithStatus status :: rest))))) =
      some (.resultSet columns rows status.toNat, rest) := by
  obtain ⟨first, tail, hhead, -⟩ := encodeLenencInt_head columns.length
  have hrow := isRow_encodeLenencInt columns.length []
  have hread := readLenencInt_encode hlength []
  rw [List.append_nil, hhead] at hrow hread
  obtain ⟨heof, herr⟩ := hrow
  have hzero : first ≠ 0x00 := by
    rintro rfl
    obtain ⟨hcount, -⟩ := Prod.mk.inj (Option.some.inj hread)
    exact hne (List.length_eq_zero_iff.mp hcount.symm)
  have hff : first ≠ 0xff := fun hfirst => herr (congrArg some hfirst)
  rw [buildColumnCount, hhead, readResponse, if_neg hzero, if_neg hff, heof,
    if_neg Bool.false_ne_true, hread]
  simp only [Option.bind_eq_bind, Option.bind_some, readColumns_build hdefines,
    readRows_build hrows]
  rfl

/-- The columns of a result set as they are declared to a client of COM_QUERY. -/
def declaredColumns (rs : ResultSet) (table : String) : List ColumnInfo :=
  rs.columns.map fun name =>
    ⟨name, table, (inferredColumn rs name).1, (inferredColumn rs name).2.toNat⟩

/-- The columns of a result set as they are declared to a client of COM_STMT_EXECUTE. -/
def preparedColumns (rs : ResultSet) (resultMetadata : List (String × DataType)) :
    List ColumnInfo :=
  rs.columns.mapIdx fun index name =>
    let type := metadataType resultMetadata index
    ⟨name, "", datatypeToMysql type, (columnFlags type true false).toNat⟩

/-- What a client should make of a result of COM_QUERY. -/
def resultSeen (formatFloat : F64 → String) (result : Except String ExecutionResult)
    (status : UInt16) : Response :=
  match result with
  | .error message => .err 1064 (sqlState "42000") message
  | .ok result =>
    match answerSet result with
    | some (rs, table) =>
      .resultSet (declaredColumns rs table) (rs.rows.map (buildTextRow formatFloat)) status.toNat
    | none => .ok (affectedRows result) 0 status.toNat

/-- What a client should make of a result of COM_STMT_EXECUTE. -/
def preparedSeen (formatFloat : F64 → String) (result : Except String ExecutionResult)
    (resultMetadata : List (String × DataType)) (status : UInt16) : Except Fault Response :=
  match result with
  | .ok (.select rs) => do
    let rows ← rs.rows.mapM buildBinaryRow
    pure (.resultSet (preparedColumns rs resultMetadata) rows status.toNat)
  | result => .ok (resultSeen formatFloat result status)

/-- A result that can be sent: a result set has a column, and counts and names are as long as
the numbers that announce them. -/
def Sendable : Except String ExecutionResult → Prop
  | .error _ => True
  | .ok result =>
    affectedRows result < 2 ^ 64 ∧ ∀ answer ∈ answerSet result,
      answer.1.columns ≠ [] ∧ answer.1.columns.length < 2 ^ 64 ∧
        (utf8 answer.2).length < 2 ^ 64 ∧
        ∀ name ∈ answer.1.columns, (utf8 name).length < 2 ^ 64

instance : DecidablePred Sendable
  | .error _ => inferInstanceAs (Decidable True)
  | .ok result =>
    inferInstanceAs (Decidable (affectedRows result < 2 ^ 64 ∧ ∀ answer ∈ answerSet result,
      answer.1.columns ≠ [] ∧ answer.1.columns.length < 2 ^ 64 ∧
        (utf8 answer.2).length < 2 ^ 64 ∧
        ∀ name ∈ answer.1.columns, (utf8 name).length < 2 ^ 64))

section Results

variable {formatFloat : F64 → String} {result : Except String ExecutionResult}
  {rest : List Bytes} {status : UInt16}

/-- **A result of COM_QUERY** is read to its end and no further. -/
theorem readResponse_encodeResult (h : Sendable result) :
    readResponse (encodeResult formatFloat result status ++ rest) =
      some (resultSeen formatFloat result status, rest) := by
  cases result with
  | error message => exact readResponse_err
  | ok result =>
    obtain ⟨hcount, hset⟩ := h
    rw [encodeResult, resultSeen]
    cases hanswer : answerSet result with
    | none => exact readOk_build hcount (by decide)
    | some answer =>
      obtain ⟨rs, table⟩ := answer
      obtain ⟨hne, hlength, htable, hnames⟩ := hset (rs, table) hanswer
      have hdefines : List.Forall₂ Defines (declaredColumns rs table) (rs.columns.map fun name =>
          buildColumnDef name table (inferredColumn rs name).1 (inferredColumn rs name).2) := by
        rw [declaredColumns, List.forall₂_map_left_iff, List.forall₂_map_right_iff,
          List.forall₂_same]
        intro name hname
        exact readColumnDef_build (hnames name hname) htable
      have hread := @readResponse_resultSet (declaredColumns rs table) _
        (rs.rows.map (buildTextRow formatFloat)) rest status
        (by simpa [declaredColumns] using hne) (by simpa [declaredColumns] using hlength)
        hdefines (by
          rintro _ hrow
          obtain ⟨values, -, rfl⟩ := List.mem_map.mp hrow
          exact isRow_buildTextRow formatFloat values)
      rw [declaredColumns, List.length_map, ← declaredColumns] at hread
      simpa [encodeResultSet] using hread

theorem mapM_buildBinaryRow (rows : List Row) :
    ∃ packets, rows.mapM buildBinaryRow = .ok packets ∧ ∀ packet ∈ packets, IsRow packet := by
  induction rows with
  | nil => exact ⟨[], rfl, nofun⟩
  | cons row rows ih =>
    obtain ⟨packet, hpacket, hrow⟩ := isRow_buildBinaryRow row
    obtain ⟨packets, hpackets, hrows⟩ := ih
    refine ⟨packet :: packets, ?_, ?_⟩
    · rw [List.mapM_cons, hpacket, hpackets]
      rfl
    · intro other hother
      rcases List.mem_cons.mp hother with rfl | hother
      · exact hrow
      · exact hrows other hother

theorem forall₂_mapIdx {α β γ : Type} {R : β → γ → Prop} {f : Nat → α → β} {g : Nat → α → γ}
    {l : List α} (h : ∀ i, ∀ a ∈ l, R (f i a) (g i a)) :
    List.Forall₂ R (l.mapIdx f) (l.mapIdx g) := by
  rw [List.forall₂_iff_get]
  refine ⟨by simp, ?_⟩
  intro i hi _
  simp only [List.length_mapIdx] at hi
  simpa using h i l[i] (List.getElem_mem hi)

/-- **A result of COM_STMT_EXECUTE** is read to its end and no further. -/
theorem readResponse_encodePrepared {resultMetadata : List (String × DataType)}
    (h : Sendable result) :
    ∃ packets response, encodePreparedResult formatFloat result resultMetadata status =
      .ok packets ∧
      preparedSeen formatFloat result resultMetadata status = .ok response ∧
      ∀ rest, readResponse (packets ++ rest) = some (response, rest) := by
  by_cases hselect : ∃ rs, result = .ok (.select rs)
  · obtain ⟨rs, rfl⟩ := hselect
    obtain ⟨-, hset⟩ := h
    obtain ⟨hne, hlength, -, hnames⟩ := hset (rs, "") rfl
    obtain ⟨rows, hrows, hall⟩ := mapM_buildBinaryRow rs.rows
    have hdefines : List.Forall₂ Defines (preparedColumns rs resultMetadata)
        (rs.columns.mapIdx fun index name =>
          typedColumnDef name (metadataType resultMetadata index)) := by
      refine forall₂_mapIdx ?_
      intro index name hname
      exact readColumnDef_build (hnames name hname) (by decide)
    refine ⟨_, _, by rw [encodePreparedResult, hrows]; rfl, by rw [preparedSeen, hrows]; rfl,
      fun rest => ?_⟩
    have hread := @readResponse_resultSet (preparedColumns rs resultMetadata) _ rows rest status
      (by simpa [preparedColumns] using hne) (by simpa [preparedColumns] using hlength)
      hdefines hall
    rw [preparedColumns, List.length_mapIdx, ← preparedColumns] at hread
    simpa using hread
  · refine ⟨encodeResult formatFloat result status, resultSeen formatFloat result status, ?_, ?_,
      fun rest => readResponse_encodeResult h⟩
    · unfold encodePreparedResult
      split
      · exact absurd ⟨_, rfl⟩ hselect
      · rfl
    · unfold preparedSeen
      split
      · exact absurd ⟨_, rfl⟩ hselect
      · rfl

end Results

/-- What a client should make of a statement that is prepared. -/
def prepareSeen (statementId : UInt32) (count : Nat) (resultMetadata : List (String × DataType)) :
    Response :=
  .prepared statementId.toNat
    ((List.range count).map fun index => ⟨s!"param{index + 1}", "", mysqlTypeVarString, 0⟩)
    (resultMetadata.map fun column =>
      ⟨column.1, "", datatypeToMysql column.2, (columnFlags column.2 true false).toNat⟩)

theorem ofBytes_toBytes_ofNat {n : Nat} (h : n < 2 ^ 16) :
    ofBytes (toBytes 2 (UInt16.ofNat n).toNat) = n := by
  rw [ofBytes_toBytes_two, UInt16.toNat_ofNat_of_lt' h]

theorem length_utf8_le (s : String) : (utf8 s).length ≤ 4 * s.length := by
  have hbytes : (utf8 s).length = Text.byteLength s.toList := utf8ByteSize_eq s
  have hall : ∀ cs : List Char, Text.byteLength cs ≤ 4 * cs.length := by
    intro cs
    induction cs with
    | nil => exact Nat.le_refl 0
    | cons c cs ih =>
      have hc := c.utf8Size_le_four
      show c.utf8Size + Text.byteLength cs ≤ 4 * (cs.length + 1)
      omega
  rw [hbytes]
  exact hall s.toList

/-- The name of a parameter is short. -/
theorem length_param {index : Nat} (h : index < 2 ^ 16) :
    (utf8 s!"param{index + 1}").length < 2 ^ 64 := by
  have hdigits := Nat.repr_length (index + 1) 5 (by decide) (by omega)
  have hlength : (s!"param{index + 1}").length = 5 + (Nat.repr (index + 1)).length := by
    show ("param" ++ Nat.repr (index + 1)).length = _
    rw [String.length_append]
    rfl
  have hle := length_utf8_le s!"param{index + 1}"
  omega

/-- **A statement that is prepared** is read to its end and no further. -/
theorem readPrepareResponse_packets {statementId : UInt32} {count : Nat}
    {resultMetadata : List (String × DataType)} {rest : List Bytes} (hcount : count < 2 ^ 16)
    (hcolumns : resultMetadata.length < 2 ^ 16)
    (hnames : ∀ column ∈ resultMetadata, (utf8 column.1).length < 2 ^ 64) :
    readPrepareResponse (preparePackets statementId count resultMetadata ++ rest) =
      some (prepareSeen statementId count resultMetadata, rest) := by
  have hparameters : List.Forall₂ Defines
      ((List.range count).map fun index =>
        (⟨s!"param{index + 1}", "", mysqlTypeVarString, 0⟩ : ColumnInfo))
      ((List.range count).map fun index =>
        buildColumnDef s!"param{index + 1}" "" mysqlTypeVarString 0) := by
    rw [List.forall₂_map_left_iff, List.forall₂_map_right_iff, List.forall₂_same]
    intro index hindex
    exact readColumnDef_build
      (length_param (Nat.lt_trans (List.mem_range.mp hindex) hcount)) (by decide)
  have hdefines : List.Forall₂ Defines
      (resultMetadata.map fun column =>
        (⟨column.1, "", datatypeToMysql column.2, (columnFlags column.2 true false).toNat⟩ :
          ColumnInfo))
      (resultMetadata.map fun column => typedColumnDef column.1 column.2) := by
    rw [List.forall₂_map_left_iff, List.forall₂_map_right_iff, List.forall₂_same]
    intro column hcolumn
    exact readColumnDef_build (hnames column hcolumn) (by decide)
  have hsecond := @readSomeColumns_build rest serverStatusAutocommit _ _ hdefines
  have hfirst := @readSomeColumns_build
    ((resultMetadata.map fun column => typedColumnDef column.1 column.2) ++
      ((if resultMetadata = [] then [] else [buildEofPacketWithStatus serverStatusAutocommit]) ++
        rest))
    serverStatusAutocommit _ _ hparameters
  simp only [List.length_map, List.map_eq_nil_iff] at hsecond
  simp only [List.length_map, List.length_range, List.map_eq_nil_iff, List.range_eq_nil] at hfirst
  have hid : ofBytes (toBytes 4 statementId.toNat) = statementId.toNat :=
    ofBytes_toBytes statementId.toNat_lt
  have hfields : ∀ a b c d : Bytes, a.length = 4 → b.length = 2 → c.length = 2 →
      (a ++ (b ++ (c ++ d))).take 4 = a ∧ ((a ++ (b ++ (c ++ d))).drop 4).take 2 = b ∧
        ((a ++ (b ++ (c ++ d))).drop 6).take 2 = c := by
    intro a b c d ha hb hc
    refine ⟨List.take_left' ha, ?_, ?_⟩
    · rw [List.drop_left' ha, List.take_left' hb]
    · rw [show 6 = 4 + 2 from rfl, ← List.drop_drop, List.drop_left' ha, List.drop_left' hb,
        List.take_left' hc]
  obtain ⟨hbytes, hcolumnBytes, hcountBytes⟩ := hfields (toBytes 4 statementId.toNat)
    (toBytes 2 (UInt16.ofNat resultMetadata.length).toNat)
    (toBytes 2 (UInt16.ofNat count).toNat) (0 :: toBytes 2 0)
    (length_toBytes 4 _) (length_toBytes 2 _) (length_toBytes 2 _)
  rw [preparePackets, buildStmtPrepareOk]
  simp only [List.append_assoc, List.cons_append, List.nil_append, readPrepareResponse, if_true,
    hbytes, hcolumnBytes, hcountBytes, ofBytes_toBytes_ofNat hcount,
    ofBytes_toBytes_ofNat hcolumns, hid]
  rw [buildEofPacket, Option.bind_eq_bind, hfirst]
  simp only [Option.bind_some, hsecond]
  rfl

end Wire
end RustyDB
