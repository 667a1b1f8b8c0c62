import Mathlib
import RustyDB.Wire.Connection

/-!
# Prepared statements of a connection

The identifiers that `handle_connection` of `src/wire/mod.rs` gives to prepared statements,
and what a command does to the statements it does not name.

* `Connection.after` — the state behind a sequence of commands.
* `statementCommand`, `afterCommands` — the commands of one statement among all others, and
  what they leave of it.
* `lookup_handle` — one command: the statement of an identifier is closed, replaced, or
  changed by a command that names it.
* `prepared_statements_tracked` — **identifiers are given in turn and never 0, and the
  statement of an identifier is the one that was prepared under it last, unless it has been
  closed since; only commands that name it have changed it.**
-/

namespace RustyDB
namespace Wire

open LineFile LittleEndian Sql

/-! ## Histories -/

/-- The state behind a sequence of commands, unless one of them closes the connection. -/
def Connection.after (U : Unicode) (E : Engine) (c : Connection) :
    List (Bytes × Io) → Option Connection
  | [] => some c
  | (data, io) :: commands =>
    match c.handle U E io data with
    | .closed _ => none
    | .served _ next => next.after U E commands

/-- The identifier that the response to PREPARE announces. -/
def Sent.announced : Sent → Option UInt32
  | .ofPrepare id _ _ => some id
  | _ => none

/-- COM_STMT_CLOSE of a statement. -/
def closes (id : UInt32) (data : Bytes) : Bool :=
  data.head? == some comStmtClose && decide (5 ≤ data.length) && statementIdOf data == id

/-- A command that ends what an identifier stood for: it closes the statement, or prepares
another one under the identifier. -/
def Discards (id : UInt32) (entry : Bytes × Sent) : Prop :=
  closes id entry.1 = true ∨ entry.2.announced = some id

/-- A command for one statement that is long enough to name it. -/
def statementCommand (id : UInt32) (data : Bytes) : Option StatementCommand :=
  if statementIdOf data = id then
    if data.head? = some comStmtSendLongData ∧ 7 ≤ data.length then some (.sendLongData data)
    else if data.head? = some comStmtExecute ∧ 10 ≤ data.length then some (.execute data)
    else if data.head? = some comStmtReset ∧ 5 ≤ data.length then some (.reset data)
    else none
  else none

/-- What commands for a statement leave of it. -/
def WirePreparedStatement.afterCommands (statement : WirePreparedStatement)
    (commands : List StatementCommand) : WirePreparedStatement :=
  commands.foldl (fun statement command => (statement.handle command).1) statement

/-- What a sequence of commands leaves of the statement of an identifier. -/
def Handle.behind (handle : Handle) (id : UInt32) (commands : List Bytes) : Handle :=
  { handle with wire := handle.wire.afterCommands (commands.filterMap (statementCommand id)) }

/-- The statement as PREPARE leaves it. -/
def Handle.fresh (prepared : PreparedStatement) : Handle :=
  ⟨prepared, { parameterCount := parameterCount prepared.statement }⟩

/-- A packet that prepares a statement. -/
def Connection.Prepares (E : Engine) (c : Connection) (data : Bytes)
    (prepared : PreparedStatement) : Prop :=
  ∃ body, data = comStmtPrepare :: body ∧ c.db.prepare E (fromUtf8Lossy body) = .ok prepared

/-! ## One command -/

section Commands

variable {U : Unicode} {E : Engine} {c next : Connection} {io : Io} {data : Bytes} {sent : Sent}
  {id : UInt32}

theorem Handle.behind_cons (handle : Handle) (commands : List Bytes) :
    handle.behind id (data :: commands) = (handle.behind id [data]).behind id commands := by
  unfold Handle.behind WirePreparedStatement.afterCommands
  cases hcommand : statementCommand id data <;> simp [hcommand]

theorem Handle.behind_of_none (handle : Handle) (h : statementCommand id data = none) :
    handle.behind id [data] = handle := by
  unfold Handle.behind
  rw [List.filterMap_cons, h]
  rfl

theorem Handle.behind_of_some (handle : Handle) {command : StatementCommand}
    (h : statementCommand id data = some command) :
    handle.behind id [data] = { handle with wire := (handle.wire.handle command).1 } := by
  unfold Handle.behind
  rw [List.filterMap_cons, h]
  rfl

/-- What one command does to the statement of an identifier. -/
structure Turns (E : Engine) (id : UInt32) (c : Connection) (data : Bytes)
    (sent : Sent) (next : Connection) : Prop where
  closed : closes id data = true → next.statements.lookup id = none
  prepared : sent.announced = some id → ∃ prepared, c.Prepares E data prepared ∧
    next.statements.lookup id = some (.fresh prepared)
  kept : ¬ Discards id (data, sent) →
    next.statements.lookup id = (c.statements.lookup id).map (·.behind id [data])
  counter : next.nextStatementId =
    if sent.announced.isSome then max (c.nextStatementId + 1) 1 else c.nextStatementId
  announced : ∀ id', sent.announced = some id' → id' = c.nextStatementId

theorem lookup_setStatement (c : Connection) (id other : UInt32) (handle : Handle) :
    (c.setStatement id handle).statements.lookup other =
      if other = id then some handle else c.statements.lookup other := by
  unfold Connection.setStatement
  split
  · rename_i heq
    rw [heq]
    exact AList.lookup_insert _
  · rename_i hne
    exact AList.lookup_insert_ne hne

/-- A command that leaves all statements alone. -/
theorem turns_same (hstatements : next.statements = c.statements)
    (hcounter : next.nextStatementId = c.nextStatementId) (hannounced : sent.announced = none)
    (hcloses : closes id data = false)
    (hcommand : ∀ handle, c.statements.lookup id = some handle → statementCommand id data = none) :
    Turns E id c data sent next where
  closed h := by
    rw [hcloses] at h
    cases h
  prepared h := by
    rw [hannounced] at h
    cases h
  kept _ := by
    rw [hstatements]
    cases hlookup : c.statements.lookup id with
    | none => rfl
    | some handle =>
      rw [Option.map_some, handle.behind_of_none (hcommand handle hlookup)]
  counter := by
    rw [hcounter, hannounced]
    rfl
  announced id' h := by
    rw [hannounced] at h
    cases h

/-- A command that changes the statement it names. -/
theorem turns_changed {handle : Handle} {command : StatementCommand}
    (hlookup : c.statements.lookup (statementIdOf data) = some handle)
    (hcommand : statementCommand (statementIdOf data) data = some command)
    (hstatements : next.statements = (c.setStatement (statementIdOf data)
      { handle with wire := (handle.wire.handle command).1 }).statements)
    (hcounter : next.nextStatementId = c.nextStatementId) (hannounced : sent.announced = none)
    (hclose : data.head? ≠ some comStmtClose) : Turns E id c data sent next where
  closed h := by
    simp only [closes, Bool.and_eq_true, beq_iff_eq] at h
    exact absurd h.1.1 hclose
  prepared h := by
    rw [hannounced] at h
    cases h
  kept _ := by
    rw [hstatements, lookup_setStatement]
    split
    · rename_i heq
      rw [heq, hlookup, Option.map_some, handle.behind_of_some hcommand]
    · rename_i hne
      have hother : statementCommand id data = none := by
        rw [statementCommand, if_neg fun h => hne h.symm]
      cases hlookup : c.statements.lookup id with
      | none => rfl
      | some other => rw [Option.map_some, other.behind_of_none hother]
  counter := by
    rw [hcounter, hannounced]
    rfl
  announced id' h := by
    rw [hannounced] at h
    cases h

theorem turns_prepare {body : Bytes} (hdata : data = comStmtPrepare :: body)
    (h : c.prepare E (fromUtf8Lossy body) = .served sent next) : Turns E id c data sent next := by
  have hclose : closes id data = false := by
    rw [hdata]
    simp [closes, comStmtPrepare, comStmtClose]
  have hcommand : statementCommand id data = none := by
    rw [hdata]
    simp [statementCommand, comStmtPrepare, comStmtSendLongData, comStmtExecute, comStmtReset]
  unfold Connection.prepare at h
  split at h
  · cases h
  · cases h
    exact turns_same rfl rfl rfl hclose fun _ _ => hcommand
  · rename_i prepared hprepared
    simp only at h
    split at h
    · cases h
    · cases h
      refine ⟨fun h => ?_, fun h => ?_, fun h => ?_, rfl, fun id' h => ?_⟩
      · rw [hclose] at h
        cases h
      · obtain rfl := Option.some.inj h
        refine ⟨prepared, ⟨body, hdata, hprepared⟩, ?_⟩
        exact (lookup_setStatement c _ _ _).trans (if_pos rfl)
      · have hne : id ≠ c.nextStatementId := by
          rintro rfl
          exact h (Or.inr rfl)
        show (c.setStatement _ _).statements.lookup id = _
        rw [lookup_setStatement, if_neg hne]
        cases c.statements.lookup id with
        | none => rfl
        | some handle => rw [Option.map_some, handle.behind_of_none hcommand]
      · exact (Option.some.inj h).symm

theorem turns_execute {body : Bytes} (hdata : data = comStmtExecute :: body)
    (h : c.execute E io data = .served sent next) : Turns E id c data sent next := by
  have hhead : data.head? = some comStmtExecute := by rw [hdata]; rfl
  have hclose : data.head? ≠ some comStmtClose := by
    rw [hhead]
    decide
  have hcloses : closes id data = false := by simp [closes, hhead, comStmtExecute, comStmtClose]
  have hsend : ¬ (data.head? = some comStmtSendLongData ∧ 7 ≤ data.length) := by
    rw [hhead]
    exact fun h => absurd h.1 (by decide)
  unfold Connection.execute at h
  split at h
  · rename_i hshort
    cases h
    refine turns_same rfl rfl rfl hcloses fun _ _ => ?_
    simp [statementCommand, hhead, comStmtSendLongData, comStmtExecute, comStmtReset]
    omega
  · rename_i hlong
    have hcommand : statementCommand (statementIdOf data) data = some (.execute data) := by
      rw [statementCommand, if_pos rfl, if_neg hsend, if_pos ⟨hhead, by omega⟩]
    split at h
    · rename_i hlookup
      cases h
      refine turns_same rfl rfl rfl hcloses fun handle hhandle => ?_
      rw [statementCommand, if_neg]
      rintro rfl
      rw [hlookup] at hhandle
      cases hhandle
    · rename_i handle hlookup
      have hwire : (decodeStmtParameters data handle.wire).1 =
          (handle.wire.handle (.execute data)).1 := by
        rw [WirePreparedStatement.handle, if_neg hlong]
      simp only at h
      split at h
      · cases h
        exact turns_changed hlookup hcommand (by rw [hwire]) rfl rfl hclose
      · split at h
        · cases h
        · obtain ⟨rfl, result, rfl⟩ := Connection.reply_cases h
          exact turns_changed hlookup hcommand (by rw [hwire]) rfl rfl hclose

theorem turns_sendLongData {body : Bytes} (hdata : data = comStmtSendLongData :: body)
    (h : c.sendLongData data = .served sent next) : Turns E id c data sent next := by
  have hhead : data.head? = some comStmtSendLongData := by rw [hdata]; rfl
  have hclose : data.head? ≠ some comStmtClose := by
    rw [hhead]
    decide
  have hcloses : closes id data = false := by
    simp [closes, hhead, comStmtSendLongData, comStmtClose]
  unfold Connection.sendLongData at h
  split at h
  · rename_i hshort
    cases h
    refine turns_same rfl rfl rfl hcloses fun _ _ => ?_
    simp [statementCommand, hhead, comStmtSendLongData, comStmtExecute, comStmtReset]
    omega
  · rename_i hlong
    have hcommand : statementCommand (statementIdOf data) data = some (.sendLongData data) := by
      rw [statementCommand, if_pos rfl, if_pos ⟨hhead, by omega⟩]
    split at h
    · rename_i hlookup
      cases h
      refine turns_same rfl rfl rfl hcloses fun handle hhandle => ?_
      rw [statementCommand, if_neg]
      rintro rfl
      rw [hlookup] at hhandle
      cases hhandle
    · rename_i handle hlookup
      cases h
      exact turns_changed hlookup hcommand rfl rfl rfl hclose

theorem turns_reset {body : Bytes} (hdata : data = comStmtReset :: body)
    (h : c.reset data = .served sent next) : Turns E id c data sent next := by
  have hhead : data.head? = some comStmtReset := by rw [hdata]; rfl
  have hclose : data.head? ≠ some comStmtClose := by
    rw [hhead]
    decide
  have hcloses : closes id data = false := by simp [closes, hhead, comStmtReset, comStmtClose]
  unfold Connection.reset at h
  split at h
  · rename_i hshort
    cases h
    refine turns_same rfl rfl rfl hcloses fun _ _ => ?_
    simp [statementCommand, hhead, comStmtSendLongData, comStmtExecute, comStmtReset]
    omega
  · rename_i hlong
    have hcommand : statementCommand (statementIdOf data) data = some (.reset data) := by
      simp [statementCommand, hhead, comStmtSendLongData, comStmtExecute, comStmtReset]
      omega
    split at h
    · rename_i hlookup
      cases h
      refine turns_same rfl rfl rfl hcloses fun handle hhandle => ?_
      rw [statementCommand, if_neg]
      rintro rfl
      rw [hlookup] at hhandle
      cases hhandle
    · rename_i handle hlookup
      have hwire : handle.wire.clearLongData = (handle.wire.handle (.reset data)).1 := by
        rw [WirePreparedStatement.handle, if_neg hlong]
      cases h
      exact turns_changed hlookup hcommand (by rw [hwire]) rfl rfl hclose

theorem turns_close {body : Bytes} (hdata : data = comStmtClose :: body)
    (h : c.close data = .served sent next) : Turns E id c data sent next := by
  have hhead : data.head? = some comStmtClose := by rw [hdata]; rfl
  have hcommand : statementCommand id data = none := by
    simp [statementCommand, hhead, comStmtSendLongData, comStmtExecute, comStmtReset, comStmtClose]
  unfold Connection.close at h
  cases h
  split
  · rename_i hlong
    refine ⟨fun h => ?_, nofun, fun h => ?_, rfl, nofun⟩
    · simp only [closes, Bool.and_eq_true, beq_iff_eq] at h
      rw [← h.2]
      exact AList.lookup_erase _ _
    · have hne : id ≠ statementIdOf data := by
        rintro rfl
        refine h (Or.inl ?_)
        simp [closes, hhead, hlong]
      show (c.statements.erase (statementIdOf data)).lookup id = _
      rw [AList.lookup_erase_ne hne]
      cases c.statements.lookup id with
      | none => rfl
      | some handle => rw [Option.map_some, handle.behind_of_none hcommand]
  · rename_i hshort
    refine turns_same rfl rfl rfl ?_ fun _ _ => hcommand
    simp [closes, hshort]

/-- **One command**: the statement of an identifier is closed, replaced, or changed by a command
that names it. -/
theorem lookup_handle (h : c.handle U E io data = .served sent next) :
    Turns E id c data sent next := by
  cases data with
  | nil => cases h
  | cons cmd body =>
    have hsame : cmd ≠ comStmtExecute → cmd ≠ comStmtSendLongData → cmd ≠ comStmtReset →
        cmd ≠ comStmtClose → next.statements = c.statements →
          next.nextStatementId = c.nextStatementId → sent.announced = none →
            Turns E id c (cmd :: body) sent next := by
      intro hexecute hsend hreset hclose hstatements hcounter hannounced
      refine turns_same hstatements hcounter hannounced ?_ fun _ _ => ?_
      · simp [closes, hclose]
      · simp [statementCommand, hsend, hexecute, hreset]
    unfold Connection.handle at h
    simp only at h
    split at h
    · cases h
    split at h
    · rename_i hcmd
      cases h
      exact hsame (by rw [hcmd]; decide) (by rw [hcmd]; decide) (by rw [hcmd]; decide)
        (by rw [hcmd]; decide) rfl rfl rfl
    split at h
    · rename_i hcmd
      cases h
      exact hsame (by rw [hcmd]; decide) (by rw [hcmd]; decide) (by rw [hcmd]; decide)
        (by rw [hcmd]; decide) rfl rfl rfl
    split at h
    · rename_i hcmd
      cases h
      exact hsame (by rw [hcmd]; decide) (by rw [hcmd]; decide) (by rw [hcmd]; decide)
        (by rw [hcmd]; decide) rfl rfl rfl
    split at h
    · rename_i hcmd
      obtain ⟨rfl, result, rfl⟩ := Connection.reply_cases h
      exact hsame (by rw [hcmd]; decide) (by rw [hcmd]; decide) (by rw [hcmd]; decide)
        (by rw [hcmd]; decide) rfl rfl rfl
    split at h
    · rename_i hcmd
      exact turns_prepare (by rw [hcmd]) h
    split at h
    · rename_i hcmd
      exact turns_execute (by rw [hcmd]) h
    split at h
    · rename_i hcmd
      exact turns_sendLongData (by rw [hcmd]) h
    split at h
    · rename_i hcmd
      exact turns_reset (by rw [hcmd]) h
    split at h
    · rename_i hcmd
      exact turns_close (by rw [hcmd]) h
    · rename_i _ _ _ _ _ _ hexecute hsend hreset hclose
      cases h
      exact hsame hexecute hsend hreset hclose rfl rfl rfl

end Commands

/-! ## Runs -/

/-- The identifier that the n-th statement of a connection gets: they are given in turn, and 0
is left out. -/
def givenId (n : Nat) : UInt32 := UInt32.ofNat (n % (2 ^ 32 - 1) + 1)

theorem toNat_givenId (n : Nat) : (givenId n).toNat = n % (2 ^ 32 - 1) + 1 := by
  have hlt : n % (2 ^ 32 - 1) < 2 ^ 32 - 1 := Nat.mod_lt _ (by decide)
  rw [givenId, UInt32.toNat_ofNat']
  exact Nat.mod_eq_of_lt (by omega)

theorem givenId_succ (n : Nat) : max (givenId n + 1) 1 = givenId (n + 1) := by
  have hvalue := toNat_givenId n
  have hnext := toNat_givenId (n + 1)
  have hone : (1 : UInt32).toNat = 1 := rfl
  have hsum : (givenId n + 1).toNat = ((givenId n).toNat + 1) % 2 ^ 32 := UInt32.toNat_add _ _
  apply UInt32.toNat.inj
  show (if givenId n + 1 ≤ 1 then 1 else givenId n + 1).toNat = _
  split
  · rename_i hle
    rw [UInt32.le_iff_toNat_le] at hle
    omega
  · rename_i hle
    rw [UInt32.le_iff_toNat_le] at hle
    omega

section Runs

variable {U : Unicode} {E : Engine}

/-- **The identifiers** of a run are given in turn. -/
theorem announced_run {c : Connection} {commands : List (Bytes × Io)} {n : Nat}
    (h : c.nextStatementId = givenId n) :
    ∃ count, (c.run U E commands).filterMap (fun entry => entry.2.announced) =
        (List.range' n count).map givenId ∧
      ∀ c', c.after U E commands = some c' → c'.nextStatementId = givenId (n + count) := by
  induction commands generalizing c n with
  | nil =>
    refine ⟨0, rfl, ?_⟩
    rintro c' ⟨⟩
    exact h
  | cons entry commands ih =>
    obtain ⟨data, io⟩ := entry
    cases hturn : c.handle U E io data with
    | closed db =>
      refine ⟨0, ?_, ?_⟩
      · rw [Connection.run, hturn]
        rfl
      · rw [Connection.after, hturn]
        intro c' hnone
        cases hnone
    | served sent next =>
      have hturns : Turns E 0 c data sent next := lookup_handle hturn
      have hcounter := hturns.counter
      have hannounced := hturns.announced
      rw [Connection.run, Connection.after, hturn]
      simp only [List.filterMap_cons]
      cases hsent : sent.announced with
      | none =>
        rw [hsent] at hcounter
        exact ih (hcounter.trans h)
      | some id =>
        rw [hsent, h] at hcounter
        obtain ⟨count, hids, hnext⟩ := ih (hcounter.trans (givenId_succ n))
        refine ⟨count + 1, ?_, fun c' hc' => ?_⟩
        · rw [hids, List.range'_succ, List.map_cons, hannounced id hsent, h]
        · rw [hnext c' hc']
          congr 1
          omega

/-- Nothing of a run ends what an identifier stands for. -/
def Undisturbed (U : Unicode) (E : Engine) (id : UInt32) (c : Connection)
    (commands : List (Bytes × Io)) : Prop :=
  ∀ entry ∈ c.run U E commands, ¬ Discards id entry

/-- The statement that an identifier stands for behind some commands, prepared among them. -/
def PreparedAmong (U : Unicode) (E : Engine) (id : UInt32) (c : Connection)
    (commands : List (Bytes × Io)) (handle : Handle) : Prop :=
  ∃ before data io behind b sent next prepared, commands = before ++ (data, io) :: behind ∧
    c.after U E before = some b ∧ b.handle U E io data = .served sent next ∧
    sent.announced = some id ∧ b.Prepares E data prepared ∧ Undisturbed U E id next behind ∧
    handle = (Handle.fresh prepared).behind id (behind.map Prod.fst)

theorem undisturbed_cons {c next : Connection} {data : Bytes} {io : Io} {sent : Sent}
    {commands : List (Bytes × Io)} {id : UInt32} (h : c.handle U E io data = .served sent next) :
    Undisturbed U E id c ((data, io) :: commands) ↔
      ¬ Discards id (data, sent) ∧ Undisturbed U E id next commands := by
  rw [Undisturbed, Connection.run, h, List.forall_mem_cons]
  rfl

theorem preparedAmong_cons {c next : Connection} {data : Bytes} {io : Io} {sent : Sent}
    {commands : List (Bytes × Io)} {id : UInt32} {handle : Handle}
    (h : c.handle U E io data = .served sent next) :
    PreparedAmong U E id c ((data, io) :: commands) handle ↔
      (sent.announced = some id ∧ ∃ prepared, c.Prepares E data prepared ∧
        Undisturbed U E id next commands ∧
        handle = (Handle.fresh prepared).behind id (commands.map Prod.fst)) ∨
      PreparedAmong U E id next commands handle := by
  constructor
  · rintro ⟨before, data', io', behind, b, sent', next', prepared, hsplit, hafter, hturn,
      hannounced, hprepares, hundisturbed, hhandle⟩
    cases before with
    | nil =>
      obtain ⟨hentry, rfl⟩ := List.cons.inj hsplit
      obtain ⟨rfl, rfl⟩ := Prod.mk.inj hentry
      obtain rfl := Option.some.inj hafter
      obtain ⟨rfl, rfl⟩ := Turn.served.inj (h.symm.trans hturn)
      exact Or.inl ⟨hannounced, prepared, hprepares, hundisturbed, hhandle⟩
    | cons entry before =>
      obtain ⟨rfl, hrest⟩ := List.cons.inj hsplit
      rw [Connection.after, h] at hafter
      exact Or.inr ⟨before, data', io', behind, b, sent', next', prepared, hrest, hafter, hturn,
        hannounced, hprepares, hundisturbed, hhandle⟩
  · rintro (⟨hannounced, prepared, hprepares, hundisturbed, hhandle⟩ | ⟨before, data', io', behind,
      b, sent', next', prepared, hsplit, hafter, hrest⟩)
    · exact ⟨[], data, io, commands, c, sent, next, prepared, rfl, rfl, h, hannounced, hprepares,
        hundisturbed, hhandle⟩
    · refine ⟨(data, io) :: before, data', io', behind, b, sent', next', prepared, ?_, ?_, hrest⟩
      · rw [hsplit]
        rfl
      · rw [Connection.after, h]
        exact hafter

/-- A packet prepares one statement. -/
theorem Prepares.unique {c : Connection} {data : Bytes} {prepared prepared' : PreparedStatement}
    (h : c.Prepares E data prepared) (h' : c.Prepares E data prepared') : prepared = prepared' := by
  obtain ⟨body, rfl, hprepare⟩ := h
  obtain ⟨body', hbody, hprepare'⟩ := h'
  obtain ⟨-, rfl⟩ := List.cons.inj hbody
  exact Except.ok.inj (hprepare.symm.trans hprepare')

/-- **A run**: what an identifier stands for behind it. -/
theorem lookup_after {c c' : Connection} {commands : List (Bytes × Io)} {id : UInt32}
    {handle : Handle} (h : c.after U E commands = some c') :
    c'.statements.lookup id = some handle ↔
      (∃ old, c.statements.lookup id = some old ∧ Undisturbed U E id c commands ∧
        handle = old.behind id (commands.map Prod.fst)) ∨
      PreparedAmong U E id c commands handle := by
  induction commands generalizing c with
  | nil =>
    obtain rfl := Option.some.inj h
    constructor
    · intro hlookup
      exact Or.inl ⟨handle, hlookup, nofun, rfl⟩
    · rintro (⟨old, hlookup, -, rfl⟩ | ⟨before, _, _, _, _, _, _, _, hsplit, -⟩)
      · exact hlookup
      · exact absurd hsplit (by simp)
  | cons entry commands ih =>
    obtain ⟨data, io⟩ := entry
    cases hturn : c.handle U E io data with
    | closed db =>
      rw [Connection.after, hturn] at h
      cases h
    | served sent next =>
      rw [Connection.after, hturn] at h
      have hturns : Turns E id c data sent next := lookup_handle hturn
      rw [ih h, undisturbed_cons hturn, preparedAmong_cons hturn, List.map_cons]
      by_cases hdiscards : Discards id (data, sent)
      · -- nothing of before is left, and a statement that is prepared here is the first
        have hnone : ¬ ∃ old, c.statements.lookup id = some old ∧
            (¬ Discards id (data, sent) ∧ Undisturbed U E id next commands) ∧
              handle = old.behind id (data :: commands.map Prod.fst) := by
          rintro ⟨_, _, ⟨hnot, _⟩, _⟩
          exact hnot hdiscards
        rw [or_iff_right hnone]
        apply or_congr_left
        constructor
        · rintro ⟨old, hlookup, hundisturbed, rfl⟩
          rcases hdiscards with hcloses | hannounced
          · rw [hturns.closed hcloses] at hlookup
            cases hlookup
          · obtain ⟨prepared, hprepares, hfresh⟩ := hturns.prepared hannounced
            obtain rfl := Option.some.inj (hfresh.symm.trans hlookup)
            exact ⟨hannounced, prepared, hprepares, hundisturbed, rfl⟩
        · rintro ⟨hannounced, prepared, hprepares, hundisturbed, rfl⟩
          obtain ⟨prepared', hprepares', hfresh⟩ := hturns.prepared hannounced
          obtain rfl := Prepares.unique hprepares hprepares'
          exact ⟨_, hfresh, hundisturbed, rfl⟩
      · -- what is there is changed by the command at most
        have hnone : ¬ (sent.announced = some id ∧ ∃ prepared, c.Prepares E data prepared ∧
            Undisturbed U E id next commands ∧
              handle = (Handle.fresh prepared).behind id (commands.map Prod.fst)) := by
          rintro ⟨hannounced, _⟩
          exact hdiscards (Or.inr hannounced)
        rw [or_iff_right hnone, hturns.kept hdiscards]
        apply or_congr_left
        constructor
        · rintro ⟨old, hlookup, hundisturbed, rfl⟩
          obtain ⟨first, hfirst, rfl⟩ := Option.map_eq_some_iff.mp hlookup
          exact ⟨first, hfirst, ⟨hdiscards, hundisturbed⟩, (first.behind_cons _).symm⟩
        · rintro ⟨first, hfirst, ⟨-, hundisturbed⟩, rfl⟩
          exact ⟨first.behind id [data], by rw [hfirst]; rfl, hundisturbed, first.behind_cons _⟩

end Runs

/-- **Prepared statements of a connection**, over any sequence of commands that leaves it open:
the identifiers are given in turn, from 1 on and without 0; and an identifier stands for a
statement exactly when PREPARE has announced it for that statement and no later command has
closed it or announced it again.  Its long data and its parameter types are what the later
commands that name it have made of them, and no other command. -/
theorem prepared_statements_tracked (U : Unicode) (E : Engine) (c c' : Connection)
    (commands : List (Bytes × Io)) (hstatements : c.statements = ∅) (hfirst : c.nextStatementId = 1)
    (h : c.after U E commands = some c') :
    (∃ count, (c.run U E commands).filterMap (fun entry => entry.2.announced) =
        (List.range count).map givenId) ∧
      ∀ id handle, c'.statements.lookup id = some handle ↔
        PreparedAmong U E id c commands handle := by
  constructor
  · have hgiven : c.nextStatementId = givenId 0 := hfirst
    obtain ⟨count, hids, -⟩ := announced_run hgiven
    refine ⟨count, ?_⟩
    rw [hids, List.range_eq_range']
  · intro id handle
    rw [lookup_after h, hstatements]
    apply or_iff_right
    rintro ⟨old, hlookup, -⟩
    cases hlookup

/-- Two statements prepared from one text, long data for the second, and the first closed. -/
def twoStatements : List (Bytes × Io) :=
  [comQueryCode :: utf8 "CREATE TABLE c (x INTEGER PRIMARY KEY CHECK (x > 0))",
    comStmtPrepare :: utf8 "INSERT INTO c VALUES (?)",
    comStmtPrepare :: utf8 "INSERT INTO c VALUES (?)",
    comStmtSendLongData :: toBytes 4 2 ++ [0, 0, 0x78],
    comStmtClose :: toBytes 4 1].map fun data => (data, ⟨0, none, none⟩)

theorem two_statements_tracked :
    ∃ c', freshConnection.after asciiUnicode Sql.parsingEngine twoStatements = some c' ∧
      (∃ count, (freshConnection.run asciiUnicode Sql.parsingEngine twoStatements).filterMap
        (fun entry => entry.2.announced) = (List.range count).map givenId) ∧
      c'.statements.lookup 1 = none ∧
      ∃ handle, PreparedAmong asciiUnicode Sql.parsingEngine 2 freshConnection twoStatements
        handle ∧
        handle.wire.longData.lookup 0 = some [0x78] := by
  have hopen : (freshConnection.after asciiUnicode Sql.parsingEngine twoStatements).any
      (fun c => (c.statements.lookup 1).isNone && (c.statements.lookup 2).any fun handle =>
        handle.wire.longData.lookup 0 == some [0x78]) = true := by
    decide +kernel
  obtain ⟨c', hafter, hlookups⟩ := (Option.any_eq_true _ _).mp hopen
  rw [Bool.and_eq_true, Option.isNone_iff_eq_none] at hlookups
  obtain ⟨hfirst, hsecond⟩ := hlookups
  obtain ⟨handle, hhandle, hdata⟩ := (Option.any_eq_true _ _).mp hsecond
  obtain ⟨hids, htracked⟩ := prepared_statements_tracked asciiUnicode Sql.parsingEngine
    freshConnection c' twoStatements rfl rfl hafter
  exact ⟨c', hafter, hids, hfirst, handle, (htracked 2 handle).mp hhandle, beq_iff_eq.mp hdata⟩

end Wire
end RustyDB
