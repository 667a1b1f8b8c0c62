import Mathlib
import RustyDB.Sql.Durable

/-!
# Histories of a directory

A directory is opened, serves calls, is closed or dies in the middle of a record, and is
opened again; every process appends to the log where the one before it stopped.

* `Machine`, `World`, `Event`, `World.step` — one directory over all its processes, with
  what its clients were told.
* `World.Along` — a condition on every event of a history, where it happens.
* `World.Fits`, `World.InOrder.run` — **along a history of requests that are fit, the
  files recover the serial run of what was committed.**
* `World.IsOpen`, `World.IsClean` — the log stays open without failed checkpoints, and
  ends with a newline without failed writes.
* `World.fits_of_healthy` — without failures a request need only be exact.
-/

namespace RustyDB
namespace Sql

open LineFile KeyedIndex

/-! ## Histories -/

/-- A directory that nobody has open, or the process that has. -/
inductive Machine where
  | stopped (disk : SqlDisk)
  | running (db : Database)

/-- The files of a machine. -/
def Machine.disk : Machine → SqlDisk
  | .stopped disk => disk
  | .running db => db.disk

/-- The database of a machine that runs. -/
def Machine.database : Machine → Option Database
  | .stopped _ => none
  | .running db => some db

theorem Machine.database_eq_some {machine : Machine} {db : Database} :
    machine.database = some db ↔ machine = .running db := by
  cases machine <;> simp [Machine.database]

/-- A directory, what has been committed to it, and which of that was acknowledged. -/
structure World where
  machine : Machine := .stopped {}
  client : Client := {}
  acknowledged : List (List Executed) := []

/-- What happens to a directory.  No two hash maps have one order, so every call and every
statement that is replayed has a `Process` of its own. -/
inductive Event where
  | reopen (process : Nat → Nat → Process)
  | call (process : Process) (call : Database.Call) (io : Io)
  | stop
  /-- The process dies in a call, when that many bytes of its record are in the log. -/
  | crash (process : Process) (call : Database.Call) (now kept : Nat)

/-- What a crash in the middle of a record does to the log is what a failed write does. -/
def crashIo (now kept : Nat) : Io where
  now := now
  log := some ⟨kept, ""⟩

namespace World

variable (E : Engine)

/-- The request that an event serves, or begins to serve, with the process that does. -/
def serving (w : World) : Event → Option (Process × Database × Io × Database.Request)
  | .call process call io =>
    w.machine.database.map fun db => (process, db, io, db.resolve (E.under process) call)
  | .crash process call now kept => w.machine.database.map fun db =>
      (process, db, crashIo now kept, db.resolve (E.under process) call)
  | .reopen _ => none
  | .stop => none

/-- A request is served to its end. -/
def serve (w : World) (db : Database) (io : Io) (request : Database.Request) : World :=
  let served := db.serve E io request
  let client := w.client.observe db request served.1
  { machine := .running served.2
    client := client
    acknowledged := w.acknowledged ++ client.committed.drop w.client.committed.length }

/-- The whole text of a record is in the log, with or without its newline. -/
def survives (db : Database) (io : Io) (kept : Nat) (statements : List DurableStatement) : Bool :=
  db.wal && (utf8 (E.wal.encode (db.record E io statements))).length ≤ kept

/-- A request is cut off where it logs: what is whole of its record has been committed,
but nobody has heard of it. -/
def cutOff (w : World) (db : Database) (now kept : Nat) (request : Database.Request) : World :=
  match db.pending E request with
  | none => { w with machine := .stopped db.disk }
  | some statements =>
    let client := w.client.observe db request (db.serve E { now } request).1
    { w with
      machine := .stopped (db.logged E (crashIo now kept) statements).disk
      client := if survives E db (crashIo now kept) kept statements then client else w.client }

/-- What an event does to the world. -/
def step (w : World) : Event → World
  | .reopen process =>
    match w.machine with
    | .running _ => w
    | .stopped disk =>
      match Database.openDir (E.replaying process) disk with
      | .error _ => w
      | .ok db => { w with machine := .running db }
  | .stop => { w with machine := .stopped w.machine.disk }
  | .call process call io =>
    match w.machine with
    | .stopped _ => w
    | .running db => w.serve (E.under process) db io (db.resolve (E.under process) call)
  | .crash process call now kept =>
    match w.machine with
    | .stopped _ => w
    | .running db =>
      w.cutOff (E.under process) db now kept (db.resolve (E.under process) call)

/-- A history, event by event. -/
def run (w : World) (events : List Event) : World := events.foldl (step E) w

/-- A condition on every event of a history, in the world in which it happens. -/
def Along (P : World → Event → Prop) : World → List Event → Prop
  | _, [] => True
  | w, event :: rest => P w event ∧ Along P (w.step E event) rest

/-- The rows that an event inserts. -/
def inserts (w : World) (event : Event) : Nat :=
  ((w.serving E event).map fun (process, db, _, request) =>
    db.insertedBy (E.under process) request).getD 0

/-- The rows that a history inserts. -/
def rows : World → List Event → Nat
  | _, [] => 0
  | w, event :: rest => w.inserts E event + rows (w.step E event) rest

/-- What is required of the request of an event. -/
def Serves (P : Engine → Database → Io → Database.Request → Prop) (w : World) (event : Event) :
    Prop :=
  ∀ process db io request, w.serving E event = some (process, db, io, request) →
    P (E.under process) db io request

variable {E} {w : World} {event : Event} {P Q : World → Event → Prop}

theorem serving_call {db : Database} (hmachine : w.machine = .running db) (process : Process)
    (call : Database.Call) (io : Io) : w.serving E (.call process call io) =
      some (process, db, io, db.resolve (E.under process) call) := by
  simp [serving, hmachine, Machine.database]

theorem serving_crash {db : Database} (hmachine : w.machine = .running db) (process : Process)
    (call : Database.Call) (now kept : Nat) : w.serving E (.crash process call now kept) =
      some (process, db, crashIo now kept, db.resolve (E.under process) call) := by
  simp [serving, hmachine, Machine.database]

theorem Along.mono {events : List Event} (h : ∀ w event, P w event → Q w event)
    (hP : w.Along E P events) : w.Along E Q events := by
  induction events generalizing w with
  | nil => exact trivial
  | cons event events ih => exact ⟨h _ _ hP.1, ih hP.2⟩

theorem Along.and {events : List Event} (hP : w.Along E P events) (hQ : w.Along E Q events) :
    w.Along E (fun w event => P w event ∧ Q w event) events := by
  induction events generalizing w with
  | nil => exact trivial
  | cons event events ih => exact ⟨⟨hP.1, hQ.1⟩, ih hP.2 hQ.2⟩

theorem along_of_forall {R : Event → Prop} {events : List Event} (h : ∀ event ∈ events, R event) :
    w.Along E (fun _ event => R event) events := by
  induction events generalizing w with
  | nil => exact trivial
  | cons event events ih =>
    exact ⟨h event (by simp), ih fun other hother => h other (List.mem_cons_of_mem _ hother)⟩

/-- An invariant of the worlds may be used at every event. -/
theorem Along.invariant {I : World → Prop} {events : List Event}
    (hstep : ∀ w event, I w → P w event → Q w event ∧ I (w.step E event)) (hI : I w)
    (hP : w.Along E P events) : w.Along E Q events := by
  induction events generalizing w with
  | nil => exact trivial
  | cons event events ih =>
    obtain ⟨hQ, hnext⟩ := hstep w event hI hP.1
    exact ⟨hQ, ih hnext hP.2⟩

end World

/-! ## Requests that are cut off -/

section Versions

variable {E : Engine} {io : Io} {db : Database} {statements : List DurableStatement}

theorem Database.version_executeAutocommit {durable : DurableStatement} {statement : Statement}
    (hpending : db.pendingStatement E durable statement = some statements)
    (hlog : db.logError E io statements = none) :
    (db.executeAutocommit E io durable statement).2.catalog.version =
      saturatingSucc db.catalog.version := by
  rw [Database.pendingStatement] at hpending
  split at hpending
  · cases hpending
  · rename_i hpoisoned
    split at hpending
    · rename_i executed hexecute
      split at hpending
      · rename_i hwrite
        obtain rfl : [durable] = statements := Option.some.inj hpending
        obtain ⟨result, tables⟩ := executed
        rcases hlogged : db.logTransaction E io db.catalog.version
          (saturatingSucc db.catalog.version) [durable] with ⟨logged, _ | error⟩
        · simp only [Database.executeAutocommit, if_neg hpoisoned, hexecute, hwrite, if_true,
            hlogged]
          split
          · split <;> rename_i hsave
            · have hcatalog := congrArg (fun saved => saved.1.catalog.version) hsave
              rw [Database.catalog_save] at hcatalog
              exact hcatalog.symm
            · have hcatalog := congrArg (fun saved => saved.1.catalog.version) hsave
              rw [Database.catalog_save] at hcatalog
              exact hcatalog.symm
          · rfl
        · rw [Database.logError, hlogged] at hlog
          cases hlog
      · cases hpending
    · cases hpending

/-- A request that logs a record publishes the next version. -/
theorem Database.version_serve {request : Database.Request}
    (hpending : db.pending E request = some statements)
    (hlog : db.logError E io statements = none) :
    (db.serve E io request).2.catalog.version = saturatingSucc db.catalog.version := by
  cases request with
  | autocommit durable statement => exact Database.version_executeAutocommit hpending hlog
  | answer reply => cases hpending
  | save => cases hpending
  | session id command =>
    cases command with
    | run durable statement =>
      simp only [Database.pending, Bool.or_eq_true] at hpending
      split at hpending
      · cases hpending
      · rename_i hfree
        rw [not_or, Bool.not_eq_true, Bool.not_eq_true, Option.isSome_eq_false_iff,
          Option.isNone_iff_eq_none] at hfree
        simp only [Database.serve, Database.perform, hfree.1, Database.runStatement, hfree.2]
        exact Database.version_executeAutocommit hpending hlog
    | commit =>
      simp only [Database.pending, Bool.or_eq_true] at hpending
      split at hpending
      · cases hpending
      · rename_i hfree
        rw [not_or, Bool.not_eq_true, Bool.not_eq_true] at hfree
        obtain ⟨state, hstate, hpending⟩ := Option.bind_eq_some_iff.mp hpending
        split at hpending
        · rename_i hcommits
          obtain ⟨hbase, hne⟩ := hcommits
          obtain rfl : state.statements = statements := Option.some.inj hpending
          rcases hlogged : db.logTransaction E io db.catalog.version
            (saturatingSucc db.catalog.version) state.statements with ⟨logged, _ | error⟩
          · have hempty : state.statements.isEmpty = false := by simpa using hne
            simp [Database.serve, Database.perform, hfree.1, hfree.2, Database.commitTransaction,
              hstate, hempty, Database.committing, ← hbase, hlogged, Database.setSession]
          · rw [Database.logError, hlogged] at hlog
            cases hlog
        · cases hpending
    | begin => cases hpending
    | rollback => cases hpending
    | answer reply names => cases hpending

end Versions

/-- A request, cut off where it logs, whose record is read back if it is whole and left
alone if it is not. -/
structure Survives (E : Engine) (db : Database) (io : Io) (request : Database.Request) : Prop
    extends Exact E db io request where
  opened : ∀ statements ∈ db.pending E request, db.wal = true
  clean : ∀ statements ∈ db.pending E request, Clean (db.disk.wal.getD [])
  text : ∀ statements ∈ db.pending E request, ∀ failure ∈ io.log,
    failure.kept < (utf8 (E.wal.encode (db.record E io statements))).length →
      decode ((line (E.wal.encode (db.record E io statements))).take failure.kept) ≠ none

section Crashes

variable {E : Engine} {p : Process} {io : Io} {db db' : Database} {client client' : Client}
  {request : Database.Request} {inserted total : Nat} {statements : List DurableStatement}

/-- What a step commits that publishes another version. -/
theorem Durable.exists_commits (h : Durable E db client inserted total)
    (hstep : db.Step (E.under p) io client request db' client')
    (hfaithful : ∀ tables durable statement, db.target request = some (tables, durable, statement) →
      isWriteStatement statement = true → Faithful (E.under p) tables durable statement)
    (hpending : db.pending (E.under p) request = some statements)
    (hrows : total + db.insertedBy (E.under p) request < maxRowId)
    (hversion : db'.catalog.version ≠ db.catalog.version) :
    ∃ unit tables, client' = { client with committed := client.committed ++ [unit] } ∧
      Commits E db.catalog inserted (total + db.insertedBy (E.under p) request) statements
        unit tables := by
  cases hstep with
  | still hkeeps => exact absurd (congrArg Catalog.version hkeeps.catalog) hversion
  | begun _ => exact absurd rfl hversion
  | closed _ _ _ _ => exact absurd rfl hversion
  | executed _ _ _ _ => exact absurd rfl hversion
  | refused _ _ => exact absurd (congrArg Catalog.version (Database.catalog_logged _)) hversion
  | retained _ _ _ _ _ =>
    exact absurd (congrArg Catalog.version (Database.catalog_logged _)) hversion
  | @published durable statement result tables hwrite htarget hexecute hlogs _ =>
    obtain rfl : statements = [durable] := Option.some.inj (hpending.symm.trans hlogs)
    exact ⟨_, tables, rfl, h.commits_statement (hfaithful _ _ _ htarget hwrite) hwrite htarget
      hexecute hrows⟩
  | @committed id session state hstate hbase hne hlogs _ _ =>
    obtain rfl : statements = state.statements := Option.some.inj (hpending.symm.trans hlogs)
    exact ⟨_, _, rfl, h.commits_transaction hstate hbase hne⟩

/-- What a request that logs a record commits, if nothing fails. -/
theorem Durable.exists_unit (h : Durable E db client inserted total) (now : Nat)
    (hfaithful : ∀ tables durable statement, db.target request = some (tables, durable, statement) →
      isWriteStatement statement = true → Faithful (E.under p) tables durable statement)
    (hpending : db.pending (E.under p) request = some statements) (hwal : db.wal = true)
    (hrows : total + db.insertedBy (E.under p) request < maxRowId)
    (hsucc : saturatingSucc db.catalog.version = db.catalog.version + 1) :
    ∃ unit tables, client.observe db request (db.serve (E.under p) { now } request).1 =
        { client with committed := client.committed ++ [unit] } ∧
      Commits E db.catalog inserted (total + db.insertedBy (E.under p) request) statements
        unit tables := by
  have hlog : db.logError (E.under p) { now } statements = none := by
    rw [Database.logError_eq hwal]
    rfl
  have hgrows := Database.version_serve hpending hlog
  obtain ⟨mid, hstep, hmid⟩ := @Database.serve_serves (E.under p) { now } db client request
  have hsame : (db.serve (E.under p) { now } request).2.catalog.version = mid.catalog.version := by
    rcases hmid with hmid | ⟨-, hmid⟩
    · rw [hmid]
    · rw [hmid, Database.catalog_save]
  exact h.exists_commits hstep hfaithful hpending hrows (by omega)

/-- Whatever is kept of a record whose text is whole, the record is read. -/
theorem HoldsRecords.keep {W : WalHost} {file : Bytes} {records : List WalRecord} {r : WalRecord}
    (h : HoldsRecords W file records) (hclean : Clean file) (hW : W.Lawful r)
    (hreadable : r.Readable W.reread) (hvalid : r.valid W = true) {kept : Nat}
    (hkept : (utf8 (W.encode r)).length ≤ kept) :
    HoldsLog W (file ++ (line (W.encode r)).take kept) (records ++ [r]) := by
  by_cases hwhole : kept < (line (W.encode r)).length
  · rw [(prefix_of_take hW.plain hwhole).1, List.take_of_length_le hkept]
    exact h.whole hclean hW hreadable hvalid
  · rw [List.take_of_length_le (Nat.le_of_not_lt hwhole)]
    exact Or.inl (h.append hclean hW hreadable hvalid)

end Crashes

/-! ## Histories in order -/

namespace World

variable {E : Engine} {w : World} {total version : Nat}

/-- The files recover the serial run of what was committed, with at most that many rows
inserted, and at most that version. -/
def InOrder (E : Engine) (w : World) (total version : Nat) : Prop :=
  match w.machine with
  | .stopped disk => ∃ inserted current, Stored E disk w.client.committed inserted current ∧
      inserted ≤ total ∧ current ≤ version
  | .running db => ∃ inserted, Durable E db w.client inserted total ∧
      db.catalog.version ≤ version

/-- What the request of an event needs. -/
def Fits (E : Engine) (w : World) : Event → Prop
  | .crash process call now kept => ∀ db, w.machine = .running db →
      Survives (E.under process) db (crashIo now kept) (db.resolve (E.under process) call)
  | .call process call io => ∀ db, w.machine = .running db →
      Fit (E.under process) db io (db.resolve (E.under process) call)
  | .reopen _ => True
  | .stop => True

theorem InOrder.mono (h : w.InOrder E total version) {total' version' : Nat} (hle : total ≤ total')
    (hversion : version ≤ version') : w.InOrder E total' version' := by
  unfold InOrder at h ⊢
  cases hmachine : w.machine with
  | stopped disk =>
    simp only [hmachine] at h ⊢
    obtain ⟨inserted, current, hstored, hinserted, hcurrent⟩ := h
    exact ⟨inserted, current, hstored, hinserted.trans hle, hcurrent.trans hversion⟩
  | running db =>
    simp only [hmachine] at h ⊢
    obtain ⟨inserted, hdurable, hcurrent⟩ := h
    exact ⟨inserted, hdurable.keep hle rfl rfl hdurable.reflects fun id state hstate =>
      (hdurable.session id state hstate).mono hle, hcurrent.trans hversion⟩

/-- A directory that nobody has open. -/
theorem inOrder_stopped {disk : SqlDisk} (hmachine : w.machine = .stopped disk) {inserted : Nat}
    {current : Nat} (hstored : Stored E disk w.client.committed inserted current)
    (hinserted : inserted ≤ total) (hcurrent : current ≤ version) :
    w.InOrder E total version := by
  simp only [InOrder, hmachine]
  exact ⟨inserted, current, hstored, hinserted, hcurrent⟩

theorem inOrder_running {db : Database} (hmachine : w.machine = .running db) {inserted : Nat}
    (hdurable : Durable E db w.client inserted total) (hcurrent : db.catalog.version ≤ version) :
    w.InOrder E total version := by
  simp only [InOrder, hmachine]
  exact ⟨inserted, hdurable, hcurrent⟩

theorem InOrder.running (h : w.InOrder E total version) {db : Database}
    (hmachine : w.machine = .running db) :
    ∃ inserted, Durable E db w.client inserted total ∧ db.catalog.version ≤ version := by
  simpa only [InOrder, hmachine] using h

/-- The files are in order, whether somebody has them open or not. -/
theorem InOrder.stored (h : w.InOrder E total version) :
    ∃ inserted current, Stored E w.machine.disk w.client.committed inserted current ∧
      inserted ≤ total ∧ current ≤ version := by
  cases hmachine : w.machine with
  | stopped disk =>
    simp only [InOrder, hmachine] at h
    exact h
  | running db =>
    obtain ⟨inserted, hdurable, hcurrent⟩ := h.running hmachine
    exact ⟨inserted, _, hdurable.stored, hdurable.bounded, hcurrent⟩

/-- A request is served. -/
theorem InOrder.serve (h : w.InOrder E total version) {p : Process} {db : Database} {io : Io}
    {request : Database.Request} (hmachine : w.machine = .running db)
    (hfit : Fit (E.under p) db io request) (hlaws : Laws (E.under p) db io request)
    (hrows : total + db.insertedBy (E.under p) request < maxRowId)
    (hversion : version + 1 < maxRowId) :
    (w.serve (E.under p) db io request).InOrder E (total + db.insertedBy (E.under p) request)
      (version + 1) := by
  obtain ⟨inserted, hdurable, hcurrent⟩ := h.running hmachine
  have hserves := @Database.serve_serves (E.under p) io db w.client request
  have hle := hserves.version_le
  obtain ⟨inserted', hnext⟩ := hdurable.serve hserves hfit hlaws hrows (by omega)
  exact inOrder_running rfl hnext (by omega)

/-- A request is cut off where it logs. -/
theorem InOrder.cutOff (h : w.InOrder E total version) {p : Process} {db : Database}
    {now kept : Nat} {request : Database.Request} (hmachine : w.machine = .running db)
    (hfit : Survives (E.under p) db (crashIo now kept) request)
    (hlaws : Laws (E.under p) db (crashIo now kept) request)
    (hrows : total + db.insertedBy (E.under p) request < maxRowId)
    (hversion : version + 1 < maxRowId) :
    (w.cutOff (E.under p) db now kept request).InOrder E (total + db.insertedBy (E.under p) request)
      (version + 1) := by
  obtain ⟨inserted, hdurable, hcurrent⟩ := h.running hmachine
  have hbounded := hdurable.bounded
  cases hpending : db.pending (E.under p) request with
  | none =>
    simp only [World.cutOff, hpending]
    exact inOrder_stopped rfl hdurable.stored (by omega) (by omega)
  | some statements =>
    have hwal := hfit.opened _ hpending
    have hclean := hfit.clean _ hpending
    have hlaw := hlaws.wal _ hpending
    have hfile : (db.logged (E.under p) (crashIo now kept) statements).disk = { db.disk with
        wal := some (db.disk.wal.getD [] ++
          (line ((E.under p).wal.encode (db.record (E.under p) (crashIo now kept)
            statements))).take kept) } := by
      rw [Database.logged_eq hwal]
      rfl
    have hmachine : (w.cutOff (E.under p) db now kept request).machine =
        .stopped (db.logged (E.under p) (crashIo now kept) statements).disk := by
      simp only [World.cutOff, hpending]
    by_cases hkept : (utf8 ((E.under p).wal.encode (db.record (E.under p) (crashIo now kept)
        statements))).length ≤ kept
    · have hsucc : saturatingSucc db.catalog.version = db.catalog.version + 1 := by
        rw [saturatingSucc]
        omega
      obtain ⟨unit, tables, hclient, hcommits⟩ :=
        hdurable.exists_unit now hfit.faithful hpending hwal hrows hsucc
      obtain ⟨inserted', hnext⟩ := @Durable.publish E (crashIo now kept) db _ _ _ _ hdurable unit
        tables _ hcommits hclean _ (fun records hrecords => hrecords.keep hclean hlaw
          (hfit.readable _ hpending) (WalRecord.valid_new ..) hkept) hsucc
        ⟨saturatingSucc db.catalog.version, 0, _⟩ rfl rfl
      have hstored : Stored E (db.logged (E.under p) (crashIo now kept) statements).disk
          (w.cutOff (E.under p) db now kept request).client.committed inserted'
          (saturatingSucc db.catalog.version) := by
        have hstored := hnext.stored
        simp only [World.cutOff, hpending, survives, hwal, hkept, decide_true, Bool.and_self,
          if_true, hclient, hfile]
        exact hstored
      exact inOrder_stopped hmachine hstored hnext.bounded (by omega)
    · have hrecovers : Recovers E (db.logged (E.under p) (crashIo now kept) statements).disk
          db.catalog inserted := by
        rw [hfile]
        exact hdurable.recovers.ignore hclean fun records hrecords => hrecords.tear hclean hlaw
          (Nat.lt_of_not_le hkept) (hfit.text _ hpending ⟨kept, ""⟩ rfl (Nat.lt_of_not_le hkept))
      have hstored : Stored E (db.logged (E.under p) (crashIo now kept) statements).disk
          (w.cutOff (E.under p) db now kept request).client.committed
          inserted db.catalog.version := by
        simp only [World.cutOff, hpending, survives, hkept, decide_false, Bool.and_false,
          Bool.false_eq_true, if_false]
        exact ⟨db.catalog, hrecovers, hdurable.reflects, rfl⟩
      exact inOrder_stopped hmachine hstored (by omega) (by omega)

variable {event : Event} {events : List Event}

/-- **One event** whose request is fit. -/
theorem InOrder.step (h : w.InOrder E total version) (hfits : w.Fits E event)
    (hlaws : w.Serves E Laws event) (hrows : total + w.inserts E event < maxRowId)
    (hversion : version + 1 < maxRowId) :
    (w.step E event).InOrder E (total + w.inserts E event) (version + 1) := by
  have hkeep := h.mono (Nat.le_add_right total (w.inserts E event)) (Nat.le_succ version)
  cases event with
  | reopen process =>
    cases hmachine : w.machine with
    | running db => simpa only [World.step, hmachine] using hkeep
    | stopped disk =>
      obtain ⟨inserted, current, hstored, hinserted, hcurrent⟩ := h.stored
      simp only [hmachine, Machine.disk] at hstored
      obtain ⟨db, hopen, -, -, hdbVersion, hdurable⟩ :=
        hstored.openDir (hinserted.trans (Nat.le_add_right _ (w.inserts E (.reopen process))))
          w.client.opened process
      simp only [World.step, hmachine, hopen]
      exact inOrder_running rfl hdurable (by omega)
  | stop =>
    obtain ⟨inserted, current, hstored, hinserted, hcurrent⟩ := hkeep.stored
    exact inOrder_stopped rfl hstored hinserted hcurrent
  | call process call io =>
    cases hmachine : w.machine with
    | stopped disk => simpa only [World.step, hmachine] using hkeep
    | running db =>
      have hserving := @serving_call E w db hmachine process call io
      simp only [inserts, hserving, Option.map_some, Option.getD_some] at hrows ⊢
      simp only [World.step, hmachine]
      exact h.serve hmachine (hfits db hmachine) (hlaws _ _ _ _ hserving) hrows hversion
  | crash process call now kept =>
    cases hmachine : w.machine with
    | stopped disk => simpa only [World.step, hmachine] using hkeep
    | running db =>
      have hserving := @serving_crash E w db hmachine process call now kept
      simp only [inserts, hserving, Option.map_some, Option.getD_some] at hrows ⊢
      simp only [World.step, hmachine]
      exact h.cutOff hmachine (hfits db hmachine) (hlaws _ _ _ _ hserving) hrows hversion

/-- **A history** of requests that are fit. -/
theorem InOrder.run (h : w.InOrder E total version) (hfits : w.Along E (Fits E) events)
    (hlaws : w.Along E (Serves E Laws) events) (hrows : total + w.rows E events < maxRowId)
    (hversion : version + events.length < maxRowId) :
    (w.run E events).InOrder E (total + w.rows E events) (version + events.length) := by
  induction events generalizing w total version with
  | nil => exact h
  | cons event events ih =>
    rw [rows, ← Nat.add_assoc] at hrows ⊢
    rw [List.length_cons, Nat.add_comm events.length, ← Nat.add_assoc] at hversion ⊢
    exact ih (h.step hfits.1 hlaws.1 (by omega) (by omega)) hfits.2 hlaws.2 hrows hversion

theorem inOrder_empty : InOrder E {} 0 0 :=
  inOrder_stopped rfl stored_empty (Nat.le_refl _) (Nat.le_refl _)

/-- **The files of a history** of fit requests, opened by whatever process: what is published
is the serial run of what was committed. -/
theorem openDir_run (hfits : World.Along E (Fits E) {} events)
    (hlaws : World.Along E (Serves E Laws) {} events)
    (hrows : World.rows E {} events < maxRowId) (hlength : events.length < maxRowId) :
    ∃ results final,
      serialRun E ∅ ((World.run E {} events).client.committed.map applied) =
          .ok (results, final) ∧
        ∀ process, ∃ reopened,
          Database.openDir (E.replaying process) (World.run E {} events).machine.disk =
              .ok reopened ∧
            reopened.catalog.tables.SameView final := by
  have horder := inOrder_empty.run hfits hlaws (by omega) (by omega)
  obtain ⟨inserted, current, hstored, hinserted, -⟩ := horder.stored
  obtain ⟨-, -, ⟨results, final, hserial, -⟩, -⟩ := id hstored
  refine ⟨results, final, hserial, fun process => ?_⟩
  obtain ⟨reopened, hopen, -, -, -, hdurable⟩ :=
    hstored.openDir hinserted (fun _ => []) process
  obtain ⟨results', final', hserial', hview, -⟩ := hdurable.reflects
  obtain ⟨rfl, rfl⟩ : results' = results ∧ final' = final := by
    simpa [hserial] using hserial'.symm
  exact ⟨reopened, hopen, hview⟩

/-- **The files of a running database**, opened by whatever process, look like what is
published. -/
theorem openDir_running (hfits : World.Along E (Fits E) {} events)
    (hlaws : World.Along E (Serves E Laws) {} events)
    (hrows : World.rows E {} events < maxRowId) (hlength : events.length < maxRowId)
    {db : Database} (hmachine : (World.run E {} events).machine = .running db)
    (process : Nat → Nat → Process) :
    ∃ reopened, Database.openDir (E.replaying process) db.disk = .ok reopened ∧
      db.catalog.SameView reopened.catalog := by
  have horder := inOrder_empty.run hfits hlaws (by omega) (by omega)
  obtain ⟨inserted, hdurable, -⟩ := horder.running hmachine
  obtain ⟨recovered, hopen, hsame, -⟩ := hdurable.recovers.openCatalog process
  have hconfigured := @Tables.SameView.configure E recovered.tables E.bloomFalsePositiveRate
  refine ⟨_, by rw [Database.openDir, hopen]; rfl, hsame.version, ?_⟩
  exact hsame.tables.trans hconfigured

/-! ## The log of a history -/

/-- The log is open. -/
def IsOpen (w : World) : Prop := ∀ db, w.machine = .running db → db.wal = true

/-- The log ends with a newline. -/
def IsClean (w : World) : Prop := Clean (w.machine.disk.wal.getD [])

end World

/-- No write of the log fails. -/
def Event.Logs : Event → Prop
  | .call _ _ io => io.log = none
  | _ => True

/-- No checkpoint fails. -/
def Event.Saves : Event → Prop
  | .call _ _ io => io.save = none
  | _ => True

/-- No process dies in the middle of a record. -/
def Event.Completes : Event → Prop
  | .crash _ _ _ _ => False
  | _ => True

namespace World

variable {E : Engine} {w : World} {event : Event} {events : List Event}

theorem openDir_eq_ok {disk : SqlDisk} {db : Database} (h : Database.openDir E disk = .ok db) :
    db.wal = true ∧ db.disk = disk.openWal := by
  obtain ⟨catalog, -, rfl⟩ := Result.map_eq_ok.mp h
  exact ⟨rfl, rfl⟩

theorem isOpen_empty : IsOpen {} := by
  intro db hmachine
  cases hmachine

theorem isClean_empty : IsClean {} := clean_nil

theorem IsOpen.step (h : w.IsOpen) (hsaves : event.Saves) : (w.step E event).IsOpen := by
  intro db' hdb'
  cases event with
  | reopen process =>
    cases hmachine : w.machine with
    | running db =>
      simp only [World.step, hmachine] at hdb'
      exact h db' (hmachine.trans hdb')
    | stopped disk =>
      simp only [World.step, hmachine] at hdb'
      cases hopen : Database.openDir (E.replaying process) disk with
      | error e => simp [hopen, hmachine] at hdb'
      | ok db =>
        simp only [hopen, Machine.running.injEq] at hdb'
        rw [← hdb']
        exact (openDir_eq_ok hopen).1
  | stop => cases hdb'
  | call process call io =>
    cases hmachine : w.machine with
    | stopped disk => simp [World.step, hmachine] at hdb'
    | running db =>
      simp only [World.step, hmachine, serve, Machine.running.injEq] at hdb'
      rw [← hdb', (@Database.serve_serves (E.under process) io db w.client _).wal_eq hsaves]
      exact h db hmachine
  | crash process call now kept =>
    cases hmachine : w.machine with
    | stopped disk => simp [World.step, hmachine] at hdb'
    | running db =>
      simp only [World.step, hmachine, cutOff] at hdb'
      split at hdb' <;> cases hdb'

theorem IsClean.step (h : w.IsClean) (hlogs : event.Logs) (hcompletes : event.Completes)
    (hlaws : w.Serves E Laws event) : (w.step E event).IsClean := by
  cases event with
  | reopen process =>
    cases hmachine : w.machine with
    | running db => simpa only [World.step, hmachine] using h
    | stopped disk =>
      cases hopen : Database.openDir (E.replaying process) disk with
      | error e => simpa only [World.step, hmachine, hopen] using h
      | ok db =>
        simp only [World.step, hmachine, hopen, IsClean, Machine.disk, (openDir_eq_ok hopen).2]
        simpa [IsClean, hmachine, Machine.disk, SqlDisk.openWal] using h
  | stop => exact h
  | call process call io =>
    cases hmachine : w.machine with
    | stopped disk => simpa only [World.step, hmachine] using h
    | running db =>
      have hserving := @serving_call E w db hmachine process call io
      have hclean : Clean (db.disk.wal.getD []) := by
        simpa [IsClean, hmachine, Machine.disk] using h
      simp only [World.step, hmachine]
      exact (@Database.serve_serves (E.under process) io db w.client _).clean
          (hlaws _ _ _ _ hserving) hlogs hclean
  | crash process call now kept => exact absurd hcompletes id

/-- Without failures every exact request is fit. -/
theorem fits_of_healthy
    (hhealthy : ∀ event ∈ events, event.Logs ∧ event.Saves ∧ event.Completes)
    (hlaws : World.Along E (Serves E Laws) {} events)
    (hexact : World.Along E (Serves E Exact) {} events) :
    World.Along E (Fits E) {} events := by
  refine Along.invariant (I := fun w => w.IsOpen ∧ w.IsClean) ?_ ⟨isOpen_empty, isClean_empty⟩
    ((along_of_forall hhealthy).and (hlaws.and hexact))
  rintro w event ⟨hopen, hclean⟩ ⟨⟨hlogs, hsaves, hcompletes⟩, hlaws, hexact⟩
  refine ⟨?_, hopen.step hsaves, hclean.step hlogs hcompletes hlaws⟩
  cases event with
  | reopen process => exact trivial
  | stop => exact trivial
  | crash process call now kept => exact absurd hcompletes id
  | call process call io =>
    intro db hmachine
    have hserving := @serving_call E w db hmachine process call io
    refine ⟨hexact _ _ _ _ hserving, fun _ _ => hopen db hmachine, fun _ _ => ?_, fun _ _ => ?_⟩
    · simpa [IsClean, hmachine, Machine.disk] using hclean
    · intro failure hfailure
      rw [hlogs] at hfailure
      cases hfailure

end World

end Sql
end RustyDB
