import Mathlib
import RustyDB.Sql.Metadata
import RustyDB.Sql.Texts
import RustyDB.Wire.LongData
import RustyDB.Wire.Responses
import RustyDB.Wire.Routing

/-!
# Connections

The model of the command phase of `handle_connection` of `src/wire/mod.rs`: a connection owns
a session of the database and its prepared statements, and answers one packet after another.

* `Connection`, `Connection.handle`, `Connection.run` — the state, one command, a sequence.
* `Sent`, `Sent.packets`, `Sent.seen` — what is sent for a command, its packets, and what a
  client should make of it.
* `Client.follow` — a client that knows its own commands only, and reads the bytes that come
  back.
* `client_in_step` — **whatever is asked, the client reads for each of its commands the
  response that was meant for it**, until the connection is closed.
-/

namespace RustyDB
namespace Wire

open LineFile LittleEndian Sql

/-! ## Commands -/

/-- `COM_QUIT`. -/
def comQuit : UInt8 := 0x01
/-- `COM_INIT_DB`. -/
def comInitDb : UInt8 := 0x02
/-- `COM_QUERY`. -/
def comQueryCode : UInt8 := 0x03
/-- `COM_FIELD_LIST`. -/
def comFieldList : UInt8 := 0x04
/-- `COM_PING`. -/
def comPing : UInt8 := 0x0e
/-- `COM_STMT_PREPARE`. -/
def comStmtPrepare : UInt8 := 0x16
/-- `COM_STMT_EXECUTE`. -/
def comStmtExecute : UInt8 := 0x17
/-- `COM_STMT_SEND_LONG_DATA`. -/
def comStmtSendLongData : UInt8 := 0x18
/-- `COM_STMT_CLOSE`. -/
def comStmtClose : UInt8 := 0x19
/-- `COM_STMT_RESET`. -/
def comStmtReset : UInt8 := 0x1a

/-- The statement that a packet names behind its command. -/
def statementIdOf (data : Bytes) : UInt32 := UInt32.ofNat (ofBytes ((data.drop 1).take 4))

/-! ## State -/

/-- An entry of `prepared_statements`. -/
structure Handle where
  prepared : PreparedStatement
  wire : WirePreparedStatement

/-- What `handle_connection` keeps between two commands, and the database behind it. -/
structure Connection where
  db : Database
  session : Nat
  statements : AList (fun _ : UInt32 => Handle) := ∅
  nextStatementId : UInt32 := 1

/-- What is sent for a command. -/
inductive Sent where
  | nothing
  | ok
  | eof
  | err (code : UInt16) (state message : String)
  | ofQuery (result : Except String ExecutionResult) (status : UInt16)
  | ofExecute (result : Except String ExecutionResult)
      (resultMetadata : List (String × DataType)) (status : UInt16)
  | ofPrepare (statementId : UInt32) (count : Nat) (resultMetadata : List (String × DataType))

namespace Sent

variable (formatFloat : F64 → String)

/-- The payloads of the packets. -/
def packets : Sent → Except Fault (List Bytes)
  | .nothing => .ok []
  | .ok => .ok [buildOkPacket 0 0]
  | .eof => .ok [buildEofPacket]
  | .err code state message => .ok [buildErrPacket code state message]
  | .ofQuery result status => .ok (encodeResult formatFloat result status)
  | .ofExecute result resultMetadata status =>
    encodePreparedResult formatFloat result resultMetadata status
  | .ofPrepare statementId count resultMetadata =>
    .ok (preparePackets statementId count resultMetadata)

/-- What a client should make of them. -/
def seen : Sent → Except Fault (Option Response)
  | .nothing => .ok none
  | .ok => .ok (some (.ok 0 0 serverStatusAutocommit.toNat))
  | .eof => .ok (some (.eof serverStatusAutocommit.toNat))
  | .err code state message => .ok (some (.err code.toNat (sqlState state) message))
  | .ofQuery result status => .ok (some (resultSeen formatFloat result status))
  | .ofExecute result resultMetadata status =>
    (preparedSeen formatFloat result resultMetadata status).map some
  | .ofPrepare statementId count resultMetadata =>
    .ok (some (prepareSeen statementId count resultMetadata))

end Sent

/-- A command, handled: the connection is closed, or goes on.  A panic ends the task of the
connection, and closes it. -/
inductive Turn where
  | closed (db : Database)
  | served (sent : Sent) (next : Connection)

/-! ## One command -/

namespace Connection

variable (U : Unicode) (E : Engine)

/-- The status flags of a result. -/
def status (c : Connection) : UInt16 :=
  if (c.db.sessions c.session).transaction.isSome then
    serverStatusAutocommit ||| serverStatusInTrans
  else serverStatusAutocommit

/-- What is sent for the reply of the session.  `is_in_transaction` takes the lock of the
transaction, which a call that panicked has poisoned. -/
def reply (c : Connection) (sent : Except String ExecutionResult → UInt16 → Sent)
    (replied : Reply × Database) : Turn :=
  let c := { c with db := replied.2 }
  if (c.db.sessions c.session).poisoned then .closed c.db
  else
    match replied.1.response with
    | .error .panic => .closed c.db
    | .error (.error message) => .served (sent (.error message) c.status) c
    | .ok result => .served (sent (.ok result) c.status) c

/-- The statement of an identifier becomes another one. -/
def setStatement (c : Connection) (id : UInt32) (handle : Handle) : Connection :=
  { c with statements := c.statements.insert id handle }

/-- The COM_STMT_PREPARE branch. -/
def prepare (c : Connection) (sql : String) : Turn :=
  match c.db.prepare E sql with
  | .error .panic => .closed c.db
  | .error (.error message) => .served (.err 1064 "42000" message) c
  | .ok prepared =>
    let count := parameterCount prepared.statement
    match c.db.preparedResultMetadata E prepared none with
    | .error _ => .closed c.db
    | .ok resultMetadata =>
      .served (.ofPrepare c.nextStatementId count resultMetadata)
        { c.setStatement c.nextStatementId ⟨prepared, { parameterCount := count }⟩ with
          nextStatementId := max (c.nextStatementId + 1) 1 }

/-- The COM_STMT_EXECUTE branch. -/
def execute (c : Connection) (io : Io) (data : Bytes) : Turn :=
  if data.length < 10 then .served (.err 1243 "HY000" "Invalid statement execute packet") c
  else
    match c.statements.lookup (statementIdOf data) with
    | none => .served (.err 1243 "HY000" "Unknown prepared statement handler") c
    | some handle =>
      let decoded := decodeStmtParameters data handle.wire
      let c := c.setStatement (statementIdOf data) { handle with wire := decoded.1 }
      match decoded.2 with
      | .error message => .served (.err 1210 "HY000" message) c
      | .ok parameters =>
        match c.db.preparedResultMetadata E handle.prepared (some parameters) with
        | .error _ => .closed c.db
        | .ok resultMetadata =>
          c.reply (fun result status => .ofExecute result resultMetadata status)
            (c.db.step E (.executePrepared c.session handle.prepared parameters) io)

/-- The COM_STMT_SEND_LONG_DATA branch: no response, also to a payload that is ignored. -/
def sendLongData (c : Connection) (data : Bytes) : Turn :=
  if data.length < 7 then .served .nothing c
  else
    match c.statements.lookup (statementIdOf data) with
    | none => .served .nothing c
    | some handle =>
      .served .nothing
        (c.setStatement (statementIdOf data)
          { handle with wire := handle.wire.appendLongData data })

/-- The COM_STMT_RESET branch. -/
def reset (c : Connection) (data : Bytes) : Turn :=
  if data.length < 5 then .served (.err 1243 "HY000" "Invalid statement reset packet") c
  else
    match c.statements.lookup (statementIdOf data) with
    | none => .served (.err 1243 "HY000" "Unknown prepared statement handler") c
    | some handle =>
      .served .ok
        (c.setStatement (statementIdOf data) { handle with wire := handle.wire.clearLongData })

/-- The COM_STMT_CLOSE branch: no response. -/
def close (c : Connection) (data : Bytes) : Turn :=
  .served .nothing
    (if 5 ≤ data.length then { c with statements := c.statements.erase (statementIdOf data) }
    else c)

/-- One round of the loop of `handle_connection`, for a packet that was read. -/
def handle (c : Connection) (io : Io) (data : Bytes) : Turn :=
  match data with
  | [] => .closed c.db
  | cmd :: body =>
    if cmd = comQuit then .closed c.db
    else if cmd = comPing then .served .ok c
    else if cmd = comInitDb then .served .ok c
    else if cmd = comFieldList then .served .eof c
    else if cmd = comQueryCode then
      c.reply .ofQuery (comQuery U E c.db c.session (fromUtf8Lossy body) io)
    else if cmd = comStmtPrepare then c.prepare E (fromUtf8Lossy body)
    else if cmd = comStmtExecute then c.execute E io data
    else if cmd = comStmtSendLongData then c.sendLongData data
    else if cmd = comStmtReset then c.reset data
    else if cmd = comStmtClose then c.close data
    else .served (.err 1047 "08S01" ("Unsupported command: 0x" ++ hexByte cmd)) c

/-- What is sent for a sequence of commands, up to the one that closes the connection. -/
def run (c : Connection) : List (Bytes × Io) → List (Bytes × Sent)
  | [] => []
  | (data, io) :: commands =>
    match c.handle U E io data with
    | .closed _ => []
    | .served sent next => (data, sent) :: next.run commands

end Connection

/-- The bytes that a connection writes: each response begins with the sequence identifier 1. -/
def written (formatFloat : F64 → String) : List (Bytes × Sent) → Except Fault Bytes
  | [] => .ok []
  | (_, sent) :: rest => do
    let packets ← sent.packets formatFloat
    let behind ← written formatFloat rest
    pure ((writePackets 1 packets).1 ++ behind)

/-- What was meant for each command that is answered. -/
def meant (formatFloat : F64 → String) :
    List (Bytes × Sent) → Except Fault (List (Bytes × Response))
  | [] => .ok []
  | (data, sent) :: rest => do
    let response ← sent.seen formatFloat
    let behind ← meant formatFloat rest
    pure (response.toList.map (fun response => (data, response)) ++ behind)

/-! ## The client -/

namespace Client

/-- A client waits for a response to every command but two. -/
def awaits (data : Bytes) : Bool :=
  data.head? != some comStmtSendLongData && data.head? != some comStmtClose

/-- How a client reads the response to a command. -/
def reader (data : Bytes) : List Bytes → Option (Response × List Bytes) :=
  if data.head? = some comStmtPrepare then readPrepareResponse else readResponse

/-- All packets of a stream. -/
def packetsOf : Nat → Bytes → Option (List (UInt8 × Bytes))
  | _, [] => some []
  | 0, _ :: _ => none
  | fuel + 1, byte :: stream => do
    let read ← readPacket (byte :: stream)
    let packets ← packetsOf fuel read.2
    pure (read.1 :: packets)

/-- A response off a sequence of packets, which have to be numbered from 1 on. -/
def takeResponse (read : List Bytes → Option (Response × List Bytes))
    (packets : List (UInt8 × Bytes)) : Option (Response × List (UInt8 × Bytes)) := do
  let (response, rest) ← read (packets.map Prod.snd)
  let used := packets.take (packets.length - rest.length)
  if used = numbered 1 (used.map Prod.snd) then
    some (response, packets.drop (packets.length - rest.length))
  else none

/-- The responses to some commands, until no packets are left.  Packets that are left behind
the last command are nobody's. -/
def responses : List Bytes → List (UInt8 × Bytes) → Option (List (Bytes × Response))
  | [], packets => if packets.isEmpty then some [] else none
  | data :: commands, packets =>
    if awaits data then
      if packets.isEmpty then some []
      else do
        let read ← takeResponse (reader data) packets
        let behind ← responses commands read.2
        pure ((data, read.1) :: behind)
    else responses commands packets

/-- What a client makes of the bytes that come back for its commands. -/
def follow (commands : List Bytes) (stream : Bytes) : Option (List (Bytes × Response)) :=
  (packetsOf stream.length stream).bind (responses commands)

end Client

/-! ## Packets of a stream -/

section Streams

variable {formatFloat : F64 → String}

theorem numbered_map_snd (payloads : List Bytes) (sequence : UInt8) :
    (numbered sequence payloads).map Prod.snd = payloads := by
  induction payloads generalizing sequence with
  | nil => rfl
  | cons payload payloads ih =>
    rw [numbered, List.map_cons, ih]

/-- Packets that are short enough come off the front of a stream. -/
theorem packetsOf_writePackets {payloads : List Bytes} {fuel : Nat} {rest : Bytes}
    {packets : List (UInt8 × Bytes)} (h : ∀ payload ∈ payloads, payload.length < 2 ^ 24)
    (sequence : UInt8) (hrest : Client.packetsOf fuel rest = some packets) :
    Client.packetsOf (fuel + payloads.length) ((writePackets sequence payloads).1 ++ rest) =
      some (numbered sequence payloads ++ packets) := by
  induction payloads generalizing sequence with
  | nil => exact hrest
  | cons payload payloads ih =>
    have hlength : payload.length % 2 ^ 24 = payload.length :=
      Nat.mod_eq_of_lt (h payload List.mem_cons_self)
    have hbehind := ih (fun other hother => h other (List.mem_cons_of_mem _ hother)) (sequence + 1)
    have hfirst := readPacket_writePacket sequence payload
      ((writePackets (sequence + 1) payloads).1 ++ rest)
    rw [hlength, List.take_length, List.drop_length, List.nil_append] at hfirst
    obtain ⟨byte, tail, hcons⟩ : ∃ byte tail, writePacket sequence payload ++
        ((writePackets (sequence + 1) payloads).1 ++ rest) = byte :: tail := ⟨_, _, rfl⟩
    rw [writePackets, List.append_assoc, List.length_cons, ← Nat.add_assoc]
    rw [hcons] at hfirst ⊢
    rw [Client.packetsOf, hfirst, Option.bind_eq_bind, Option.bind_some, hbehind]
    rfl

/-- More fuel does no harm. -/
theorem packetsOf_mono {fuel fuel' : Nat} {stream : Bytes} {packets : List (UInt8 × Bytes)}
    (h : Client.packetsOf fuel stream = some packets) (hle : fuel ≤ fuel') :
    Client.packetsOf fuel' stream = some packets := by
  induction fuel generalizing fuel' stream packets with
  | zero =>
    cases stream with
    | nil =>
      cases fuel' <;> exact h
    | cons => cases h
  | succ fuel ih =>
    obtain ⟨fuel', rfl⟩ : ∃ n, fuel' = n + 1 := ⟨fuel' - 1, by omega⟩
    cases stream with
    | nil => exact h
    | cons byte stream =>
      rw [Client.packetsOf] at h ⊢
      obtain ⟨read, hread, h⟩ := Option.bind_eq_some_iff.mp h
      obtain ⟨behind, hbehind, h⟩ := Option.bind_eq_some_iff.mp h
      rw [hread, Option.bind_eq_bind, Option.bind_some, ih hbehind (by omega)]
      exact h

/-- A packet takes at least one byte. -/
theorem length_le_writePackets (payloads : List Bytes) (sequence : UInt8) :
    payloads.length ≤ (writePackets sequence payloads).1.length := by
  induction payloads generalizing sequence with
  | nil => exact Nat.le_refl 0
  | cons payload payloads ih =>
    have hbehind := ih (sequence + 1)
    rw [writePackets, List.length_append, writePacket, List.length_append, List.length_cons]
    simp only [List.length_cons]
    omega

/-- **A response is taken off** a sequence of packets that begins with it. -/
theorem takeResponse_numbered {read : List Bytes → Option (Response × List Bytes)}
    {payloads : List Bytes} {packets : List (UInt8 × Bytes)} {response : Response}
    (h : ∀ rest, read (payloads ++ rest) = some (response, rest)) :
    Client.takeResponse read (numbered 1 payloads ++ packets) = some (response, packets) := by
  have hused : (numbered 1 payloads ++ packets).length - (packets.map Prod.snd).length =
      (numbered 1 payloads).length := by
    rw [List.length_append, List.length_map]
    omega
  rw [Client.takeResponse, List.map_append, numbered_map_snd, h]
  simp only [Option.bind_eq_bind, Option.bind_some, hused, List.take_left, List.drop_left,
    numbered_map_snd, if_true]

end Streams

/-! ## One response -/

namespace Sent

variable {formatFloat : F64 → String}

/-- The numbers and the names of a response fit the fields that announce them, and a result set
has a column. -/
def Announceable : Sent → Prop
  | .ofQuery result _ => Sendable result
  | .ofExecute result _ _ => Sendable result
  | .ofPrepare _ count resultMetadata =>
    count < 2 ^ 16 ∧ resultMetadata.length < 2 ^ 16 ∧
      ∀ column ∈ resultMetadata, (utf8 column.1).length < 2 ^ 64
  | _ => True

instance : DecidablePred Announceable
  | .ofQuery result _ => inferInstanceAs (Decidable (Sendable result))
  | .ofExecute result _ _ => inferInstanceAs (Decidable (Sendable result))
  | .ofPrepare _ count resultMetadata =>
    inferInstanceAs (Decidable (count < 2 ^ 16 ∧ resultMetadata.length < 2 ^ 16 ∧
      ∀ column ∈ resultMetadata, (utf8 column.1).length < 2 ^ 64))
  | .nothing => inferInstanceAs (Decidable True)
  | .ok => inferInstanceAs (Decidable True)
  | .eof => inferInstanceAs (Decidable True)
  | .err _ _ _ => inferInstanceAs (Decidable True)

/-- What can be sent: it can be announced, and its packets are short enough for their header. -/
def Fits (formatFloat : F64 → String) (sent : Sent) : Prop :=
  sent.Announceable ∧ ∀ packets ∈ (sent.packets formatFloat).toOption, ∀ packet ∈ packets,
    packet.length < 2 ^ 24

instance (sent : Sent) : Decidable (sent.Fits formatFloat) := by
  unfold Fits
  infer_instance

/-- What may be sent for a command. -/
def Answers (sent : Sent) (data : Bytes) : Prop :=
  if Client.awaits data then
    sent ≠ .nothing ∧
      ((∃ id count resultMetadata, sent = .ofPrepare id count resultMetadata) →
        data.head? = some comStmtPrepare) ∧
      (data.head? = some comStmtPrepare →
        (∃ id count resultMetadata, sent = .ofPrepare id count resultMetadata) ∨
          ∃ code state message, sent = .err code state message)
  else sent = .nothing

/-- **A response is read** as it was meant, to its end and no further. -/
theorem read_packets {sent : Sent} {data : Bytes} (hfits : sent.Fits formatFloat)
    (hanswers : sent.Answers data) (hawaits : Client.awaits data = true) :
    ∃ packets response, sent.packets formatFloat = .ok packets ∧
      sent.seen formatFloat = .ok (some response) ∧ packets ≠ [] ∧
      ∀ rest, Client.reader data (packets ++ rest) = some (response, rest) := by
  rw [Answers, if_pos hawaits] at hanswers
  obtain ⟨hsome, hprepared, hprepare⟩ := hanswers
  have hplain : (¬ ∃ id count resultMetadata, sent = .ofPrepare id count resultMetadata) →
      (¬ ∃ code state message, sent = .err code state message) →
        Client.reader data = readResponse := by
    intro hnot herr
    rw [Client.reader, if_neg]
    intro hdata
    rcases hprepare hdata with h | h
    · exact hnot h
    · exact herr h
  cases sent with
  | nothing => exact absurd rfl hsome
  | ok =>
    refine ⟨_, _, rfl, rfl, List.cons_ne_nil _ _, fun rest => ?_⟩
    rw [hplain (by simp) (by simp)]
    exact readOk_build (by decide) (by decide)
  | eof =>
    refine ⟨_, _, rfl, rfl, List.cons_ne_nil _ _, fun rest => ?_⟩
    rw [hplain (by simp) (by simp)]
    exact readResponse_eof
  | err code state message =>
    refine ⟨_, _, rfl, rfl, List.cons_ne_nil _ _, fun rest => ?_⟩
    rw [Client.reader]
    split
    · exact readPrepareResponse_err
    · exact readResponse_err
  | ofQuery result status =>
    have hread := fun rest => @readResponse_encodeResult formatFloat result rest status
      hfits.1
    refine ⟨_, _, rfl, rfl, ?_, fun rest => ?_⟩
    · intro hnil
      have hempty := hread []
      rw [hnil] at hempty
      cases hempty
    · rw [hplain (by simp) (by simp)]
      exact hread rest
  | ofExecute result resultMetadata status =>
    obtain ⟨packets, response, hpackets, hseen, hread⟩ := @readResponse_encodePrepared formatFloat
      result status resultMetadata hfits.1
    refine ⟨packets, response, hpackets, ?_, ?_, fun rest => ?_⟩
    · rw [seen, hseen]
      rfl
    · rintro rfl
      cases hread []
    · rw [hplain (by simp) (by simp)]
      exact hread rest
  | ofPrepare id count resultMetadata =>
    obtain ⟨hcount, hcolumns, hnames⟩ := hfits.1
    refine ⟨_, _, rfl, rfl, ?_, fun rest => ?_⟩
    · rw [preparePackets]
      simp
    · rw [Client.reader, if_pos (hprepared ⟨id, count, resultMetadata, rfl⟩)]
      exact readPrepareResponse_packets hcount hcolumns hnames

end Sent

/-! ## One command -/

namespace Connection

variable {U : Unicode} {E : Engine} {c next : Connection} {io : Io} {data : Bytes} {sent : Sent}

/-- What is sent for a reply is what the branch makes of it. -/
theorem reply_cases {make : Except String ExecutionResult → UInt16 → Sent}
    {replied : Reply × Database} (h : c.reply make replied = .served sent next) :
    next = { c with db := replied.2 } ∧ ∃ result, sent = make result next.status := by
  unfold reply at h
  simp only at h
  split at h
  · cases h
  · split at h
    · cases h
    · cases h
      exact ⟨rfl, _, rfl⟩
    · cases h
      exact ⟨rfl, _, rfl⟩

/-- Packets that are neither an answer to PREPARE nor nothing. -/
theorem answers_of_plain (hawaits : Client.awaits data = true)
    (hprepare : data.head? ≠ some comStmtPrepare) (hsome : sent ≠ .nothing)
    (hplain : ¬ ∃ id count resultMetadata, sent = .ofPrepare id count resultMetadata) :
    sent.Answers data := by
  rw [Sent.Answers, if_pos hawaits]
  exact ⟨hsome, fun h => absurd h hplain, fun h => absurd h hprepare⟩

theorem prepare_answers {sql : String} (hdata : data.head? = some comStmtPrepare)
    (h : c.prepare E sql = .served sent next) : sent.Answers data := by
  have hawaits : Client.awaits data = true := by
    rw [Client.awaits, hdata]
    decide
  rw [Sent.Answers, if_pos hawaits]
  unfold prepare at h
  split at h
  · cases h
  · cases h
    exact ⟨nofun, fun _ => hdata, fun _ => Or.inr ⟨_, _, _, rfl⟩⟩
  · simp only at h
    split at h
    · cases h
    · cases h
      exact ⟨nofun, fun _ => hdata, fun _ => Or.inl ⟨_, _, _, rfl⟩⟩

theorem execute_answers (h : c.execute E io data = .served sent next) :
    sent ≠ .nothing ∧ ¬ ∃ id count resultMetadata, sent = .ofPrepare id count resultMetadata := by
  unfold execute at h
  split at h
  · cases h
    exact ⟨nofun, by simp⟩
  · split at h
    · cases h
      exact ⟨nofun, by simp⟩
    · simp only at h
      split at h
      · cases h
        exact ⟨nofun, by simp⟩
      · split at h
        · cases h
        · obtain ⟨-, result, rfl⟩ := reply_cases h
          exact ⟨nofun, by simp⟩

theorem reset_answers (h : c.reset data = .served sent next) :
    sent ≠ .nothing ∧ ¬ ∃ id count resultMetadata, sent = .ofPrepare id count resultMetadata := by
  unfold reset at h
  split at h
  · cases h
    exact ⟨nofun, by simp⟩
  · split at h <;> cases h <;> exact ⟨nofun, by simp⟩

theorem sendLongData_answers (h : c.sendLongData data = .served sent next) : sent = .nothing := by
  unfold sendLongData at h
  split at h
  · cases h
    rfl
  · split at h <;> cases h <;> rfl

/-- **What is sent for a command** is what its client waits for. -/
theorem handle_answers (h : c.handle U E io data = .served sent next) : sent.Answers data := by
  cases data with
  | nil => cases h
  | cons cmd body =>
    have hanswer : ∀ code : UInt8, cmd = code → code ≠ comStmtSendLongData →
        code ≠ comStmtClose → code ≠ comStmtPrepare → sent ≠ .nothing →
          (¬ ∃ id count resultMetadata, sent = .ofPrepare id count resultMetadata) →
            sent.Answers (cmd :: body) := by
      rintro code rfl hsend hclose hprepare hsome hplain
      refine answers_of_plain ?_ (by simpa using hprepare) hsome hplain
      simp [Client.awaits, hsend, hclose]
    unfold handle at h
    simp only at h
    split at h
    · cases h
    split at h
    · rename_i hcmd
      cases h
      exact hanswer _ hcmd (by decide) (by decide) (by decide) nofun (by simp)
    split at h
    · rename_i hcmd
      cases h
      exact hanswer _ hcmd (by decide) (by decide) (by decide) nofun (by simp)
    split at h
    · rename_i hcmd
      cases h
      exact hanswer _ hcmd (by decide) (by decide) (by decide) nofun (by simp)
    split at h
    · rename_i hcmd
      obtain ⟨-, result, rfl⟩ := reply_cases h
      exact hanswer _ hcmd (by decide) (by decide) (by decide) nofun (by simp)
    split at h
    · rename_i hcmd
      exact prepare_answers (by rw [hcmd]; rfl) h
    split at h
    · rename_i hcmd
      obtain ⟨hsome, hplain⟩ := execute_answers h
      exact hanswer _ hcmd (by decide) (by decide) (by decide) hsome hplain
    split at h
    · rename_i hcmd
      rw [Sent.Answers, if_neg (by rw [hcmd]; simp [Client.awaits])]
      exact sendLongData_answers h
    split at h
    · rename_i hcmd
      obtain ⟨hsome, hplain⟩ := reset_answers h
      exact hanswer _ hcmd (by decide) (by decide) (by decide) hsome hplain
    split at h
    · rename_i hcmd
      rw [Sent.Answers, if_neg (by rw [hcmd]; simp [Client.awaits])]
      cases h
      rfl
    · rename_i _ _ _ _ _ hprepare _ hsend _ hclose
      cases h
      exact hanswer cmd rfl hsend hclose hprepare nofun (by simp)

end Connection

/-! ## Runs -/

/-- Nothing is left of a connection that is closed. -/
theorem responses_nil (commands : List Bytes) : Client.responses commands [] = some [] := by
  induction commands with
  | nil => rfl
  | cons data commands ih =>
    rw [Client.responses]
    split
    · rfl
    · exact ih

section Runs

variable {U : Unicode} {E : Engine} {formatFloat : F64 → String}

/-- **A run**, read by its client. -/
theorem responses_run {c : Connection} {commands : List (Bytes × Io)}
    (h : ∀ entry ∈ c.run U E commands, entry.2.Fits formatFloat) :
    ∃ stream packets answers, written formatFloat (c.run U E commands) = .ok stream ∧
      meant formatFloat (c.run U E commands) = .ok answers ∧
      Client.packetsOf stream.length stream = some packets ∧
      Client.responses (commands.map Prod.fst) packets = some answers := by
  induction commands generalizing c with
  | nil => exact ⟨[], [], [], rfl, rfl, rfl, rfl⟩
  | cons entry commands ih =>
    obtain ⟨data, io⟩ := entry
    cases hturn : c.handle U E io data with
    | closed db =>
      rw [Connection.run, hturn]
      exact ⟨[], [], [], rfl, rfl, rfl, responses_nil _⟩
    | served sent next =>
      have hrun : c.run U E ((data, io) :: commands) = (data, sent) :: next.run U E commands := by
        rw [Connection.run, hturn]
      rw [hrun] at h ⊢
      obtain ⟨stream, packets, answers, hwritten, hmeant, hpackets, hresponses⟩ :=
        ih fun entry hentry => h entry (List.mem_cons_of_mem _ hentry)
      have hfits := h (data, sent) List.mem_cons_self
      have hanswers := Connection.handle_answers hturn
      cases hawaits : Client.awaits data with
      | false =>
        rw [Sent.Answers, if_neg (by rw [hawaits]; exact Bool.false_ne_true)] at hanswers
        subst hanswers
        refine ⟨stream, packets, answers, ?_, ?_, hpackets, ?_⟩
        · rw [written, hwritten]
          rfl
        · rw [meant, hmeant]
          rfl
        · rw [List.map_cons, Client.responses, hawaits, if_neg Bool.false_ne_true]
          exact hresponses
      | true =>
        obtain ⟨payloads, response, hpayloads, hseen, hne, hread⟩ :=
          Sent.read_packets hfits hanswers hawaits
        have hshort := hfits.2 payloads (by rw [hpayloads]; rfl)
        have hall := packetsOf_writePackets hshort 1 hpackets
        have htaken : Client.takeResponse _ (numbered 1 payloads ++ packets) = _ :=
          takeResponse_numbered hread
        refine ⟨(writePackets 1 payloads).1 ++ stream, numbered 1 payloads ++ packets,
          (data, response) :: answers, ?_, ?_, ?_, ?_⟩
        · rw [written, hpayloads, hwritten]
          rfl
        · rw [meant, hseen, hmeant]
          rfl
        · refine packetsOf_mono hall ?_
          have hle := length_le_writePackets payloads 1
          rw [List.length_append]
          omega
        · have hsome : (numbered 1 payloads ++ packets).isEmpty = false := by
            obtain ⟨payload, payloads, rfl⟩ := List.exists_cons_of_ne_nil hne
            rfl
          rw [List.map_cons, Client.responses, hawaits, if_pos rfl, hsome,
            if_neg Bool.false_ne_true, htaken, Option.bind_eq_bind, Option.bind_some, hresponses]
          rfl

end Runs

/-- **A client and its connection stay in step.**  For any sequence of commands, whatever their
bytes are, and whatever the file system answers: a client that knows nothing but its own
commands reads off the bytes of the connection, for each command that is answered, exactly the
response that was meant for it, up to the command that closes the connection.  Result sets have
a column, packets are shorter than `2 ^ 24` bytes, and the numbers of PREPARE fit their fields. -/
theorem client_in_step (U : Unicode) (E : Engine) (formatFloat : F64 → String) (c : Connection)
    (commands : List (Bytes × Io))
    (h : ∀ entry ∈ c.run U E commands, entry.2.Fits formatFloat) :
    ∃ stream answers, written formatFloat (c.run U E commands) = .ok stream ∧
      meant formatFloat (c.run U E commands) = .ok answers ∧
      Client.follow (commands.map Prod.fst) stream = some answers := by
  obtain ⟨stream, packets, answers, hwritten, hmeant, hpackets, hresponses⟩ := responses_run h
  refine ⟨stream, answers, hwritten, hmeant, ?_⟩
  rw [Client.follow, hpackets]
  exact hresponses

/-! ## A conversation -/

/-- The greeting is over, and nothing is in the database. -/
def freshConnection : Connection where
  db := .inMemory ⟨0, 0, ∅⟩
  session := 1

/-- COM_STMT_EXECUTE of a statement, with one INTEGER. -/
def executeInteger (id n : Nat) : Bytes :=
  comStmtExecute :: toBytes 4 id ++ [0, 1, 0, 0, 0, 0, 1, mysqlTypeLonglong, 0] ++ toBytes 8 n

/-- A table is created, an INSERT prepared and run with 7, long data sent that nobody asked for,
a statement run that does not exist, `SELECT 1` asked, and the connection closed. -/
def sampleCommands : List Bytes :=
  [comQueryCode :: utf8 "CREATE TABLE c (x INTEGER PRIMARY KEY CHECK (x > 0))",
    comStmtPrepare :: utf8 "INSERT INTO c VALUES (?)", executeInteger 1 7,
    comStmtSendLongData :: toBytes 4 1 ++ [0, 0, 0x78], executeInteger 2 7,
    comQueryCode :: utf8 "SELECT 1", [comQuit], [comPing]]

theorem sample_commands_answered : ∃ stream,
    written (fun _ => "") (freshConnection.run asciiUnicode Sql.parsingEngine
      (sampleCommands.map fun data => (data, ⟨0, none, none⟩))) = .ok stream ∧
    (Client.follow sampleCommands stream).map (List.map Prod.snd) =
      some [.ok 0 0 2, .prepared 1 [⟨"param1", "", mysqlTypeVarString, 0⟩] [], .ok 1 0 2,
        .err 1243 (utf8 "HY000") "Unknown prepared statement handler",
        .resultSet [⟨"1", "", mysqlTypeLonglong, 0x8000⟩] [[1, 0x31]] 2] := by
  have hfits : ∀ entry ∈ freshConnection.run asciiUnicode Sql.parsingEngine
      (sampleCommands.map fun data => (data, ⟨0, none, none⟩)), entry.2.Fits fun _ => "" := by
    decide +kernel
  obtain ⟨stream, answers, hwritten, hmeant, hfollow⟩ := client_in_step asciiUnicode
    Sql.parsingEngine (fun _ => "") freshConnection
    (sampleCommands.map fun data => (data, ⟨0, none, none⟩)) hfits
  have hanswers : (meant (fun _ => "") (freshConnection.run asciiUnicode Sql.parsingEngine
      (sampleCommands.map fun data => (data, ⟨0, none, none⟩)))).toOption.map
        (List.map Prod.snd) =
      some [.ok 0 0 2, .prepared 1 [⟨"param1", "", mysqlTypeVarString, 0⟩] [], .ok 1 0 2,
        .err 1243 (utf8 "HY000") "Unknown prepared statement handler",
        .resultSet [⟨"1", "", mysqlTypeLonglong, 0x8000⟩] [[1, 0x31]] 2] := by
    decide +kernel
  refine ⟨stream, hwritten, ?_⟩
  rw [List.map_map] at hfollow
  rw [hmeant] at hanswers
  rw [show sampleCommands = sampleCommands.map
      (Prod.fst ∘ fun data => (data, (⟨0, none, none⟩ : Io)))
    from (List.map_id _).symm, hfollow]
  exact hanswers

end Wire
end RustyDB
