import Mathlib
import RustyDB.Sql.Replay

/-!
# Torn records

A crash in the middle of a record, or a write that fails, leaves the beginning of a line
in the log.  The reader stops at it, while the next writer goes on right behind it.

* `Unbroken` — a record goes to a log that ends with a newline, and what a crash leaves of
  it is text.
* `acknowledged_commits_survive` — **along such a history of crashes, every acknowledged
  commit is recovered, in order.**
* `Traceless` — a write that fails leaves less than the text of its record.
* `failed_commits_leave_no_trace` — **along such a history of failed writes, exactly the
  acknowledged commits are recovered.**
-/

namespace RustyDB
namespace Sql

open LineFile KeyedIndex

/-! ## What is acknowledged -/

section Acknowledged

variable {E : Engine} {w : World} {event : Event} {events : List Event}

/-- An answer only adds to what is committed. -/
theorem Client.committed_observe (before : Database) (client : Client)
    (request : Database.Request) (reply : Reply) :
    client.committed <+: (client.observe before request reply).committed := by
  have hautocommitted : ∀ statement result,
      client.committed <+: (client.autocommitted statement result).committed := by
    intro statement result
    rw [Client.autocommitted]
    split
    · exact List.prefix_append _ _
    · exact List.prefix_refl _
  have hran : ∀ id statement result,
      client.committed <+: (client.ran before id statement result).committed := by
    intro id statement result
    rw [Client.ran]
    split
    · exact hautocommitted statement result
    · exact List.prefix_refl _
  unfold Client.observe
  split
  · exact hautocommitted _ _
  · exact hautocommitted _ _
  · exact hran _ _ _
  · exact hran _ _ _
  · exact List.prefix_refl _
  · rw [Client.closed]
    split
    · exact List.prefix_refl _
    · exact List.prefix_append _ _
  · exact List.prefix_refl _

/-- What a call commits is acknowledged. -/
theorem World.acknowledged_serve (db : Database) (io : Io) (request : Database.Request) :
    ∃ new, (w.serve E db io request).client.committed = w.client.committed ++ new ∧
      (w.serve E db io request).acknowledged = w.acknowledged ++ new := by
  obtain ⟨new, hnew⟩ := Client.committed_observe db w.client request (db.serve E io request).1
  refine ⟨new, hnew.symm, ?_⟩
  simp only [World.serve]
  rw [← hnew, List.drop_left]

theorem World.committed_cutOff (db : Database) (now kept : Nat) (request : Database.Request) :
    w.client.committed <+: (w.cutOff E db now kept request).client.committed ∧
      (w.cutOff E db now kept request).acknowledged = w.acknowledged := by
  rw [World.cutOff]
  split
  · exact ⟨List.prefix_refl _, rfl⟩
  · refine ⟨?_, rfl⟩
    simp only
    split
    · exact Client.committed_observe _ _ _ _
    · exact List.prefix_refl _

theorem World.step_reopen (process : Nat → Nat → Process) :
    (w.step E (.reopen process)).client = w.client ∧
      (w.step E (.reopen process)).acknowledged = w.acknowledged := by
  rw [World.step]
  split
  · exact ⟨rfl, rfl⟩
  · split <;> exact ⟨rfl, rfl⟩

theorem World.acknowledged_step (h : w.acknowledged.Sublist w.client.committed) :
    (w.step E event).acknowledged.Sublist (w.step E event).client.committed := by
  cases event with
  | reopen process =>
    rw [(World.step_reopen process).1, (World.step_reopen process).2]
    exact h
  | stop => exact h
  | call process call io =>
    cases hmachine : w.machine with
    | stopped disk => simpa only [World.step, hmachine] using h
    | running db =>
      simp only [World.step, hmachine]
      obtain ⟨new, hcommitted, hacknowledged⟩ :=
        @World.acknowledged_serve (E.under process) w db io (db.resolve (E.under process) call)
      rw [hcommitted, hacknowledged]
      exact h.append_right new
  | crash process call now kept =>
    cases hmachine : w.machine with
    | stopped disk => simpa only [World.step, hmachine] using h
    | running db =>
      simp only [World.step, hmachine]
      obtain ⟨hcommitted, hacknowledged⟩ :=
        @World.committed_cutOff (E.under process) w db now kept
          (db.resolve (E.under process) call)
      rw [hacknowledged]
      exact h.trans hcommitted.sublist

/-- What is acknowledged is committed, in this order. -/
theorem World.acknowledged_run (h : w.acknowledged.Sublist w.client.committed) :
    (w.run E events).acknowledged.Sublist (w.run E events).client.committed := by
  induction events generalizing w with
  | nil => exact h
  | cons event events ih => exact ih (World.acknowledged_step h)

/-- Without crashes it is all that is committed. -/
theorem World.acknowledged_eq (hcompletes : ∀ event ∈ events, event.Completes)
    (h : w.acknowledged = w.client.committed) :
    (w.run E events).acknowledged = (w.run E events).client.committed := by
  induction events generalizing w with
  | nil => exact h
  | cons event events ih =>
    refine ih (fun other hother => hcompletes other (List.mem_cons_of_mem _ hother)) ?_
    cases event with
    | reopen process =>
      rw [(World.step_reopen process).1, (World.step_reopen process).2]
      exact h
    | stop => exact h
    | call process call io =>
      cases hmachine : w.machine with
      | stopped disk => simpa only [World.step, hmachine] using h
      | running db =>
        simp only [World.step, hmachine]
        obtain ⟨new, hcommitted, hacknowledged⟩ :=
          @World.acknowledged_serve (E.under process) w db io (db.resolve (E.under process) call)
        rw [hcommitted, hacknowledged, h]
    | crash process call now kept =>
      exact absurd (hcompletes (.crash process call now kept) (by simp)) id

end Acknowledged

/-! ## Crashes -/

/-- An exact request whose record goes to a log that ends with a newline; if it is cut
off, what is left of the record is text. -/
structure Unbroken (E : Engine) (db : Database) (io : Io) (request : Database.Request) : Prop
    extends Exact E db io request where
  clean : ∀ statements ∈ db.pending E request, Clean (db.disk.wal.getD [])
  text : ∀ statements ∈ db.pending E request, ∀ failure ∈ io.log,
    failure.kept < (utf8 (E.wal.encode (db.record E io statements))).length →
      decode ((line (E.wal.encode (db.record E io statements))).take failure.kept) ≠ none

/-- An exact request whose record goes to a log that ends with a newline; if the write
fails, less than the text of the record is left, and what is left is text. -/
structure Traceless (E : Engine) (db : Database) (io : Io) (request : Database.Request) : Prop
    extends Exact E db io request where
  clean : ∀ statements ∈ db.pending E request, Clean (db.disk.wal.getD [])
  tears : ∀ statements ∈ db.pending E request, ∀ failure ∈ io.log,
    failure.kept < (utf8 (E.wal.encode (db.record E io statements))).length ∧
      decode ((line (E.wal.encode (db.record E io statements))).take failure.kept) ≠ none

section Fitting

variable {E : Engine} {events : List Event}

/-- Without failures the log stays open, and only crashes tear it. -/
theorem World.fits_of_unbroken (hhealthy : ∀ event ∈ events, event.Logs ∧ event.Saves)
    (hunbroken : World.Along E (World.Serves E Unbroken) {} events) :
    World.Along E (World.Fits E) {} events := by
  refine World.Along.invariant (I := World.IsOpen) ?_ World.isOpen_empty
    ((World.along_of_forall hhealthy).and hunbroken)
  rintro w event hopen ⟨⟨hlogs, hsaves⟩, hunbroken⟩
  refine ⟨?_, hopen.step hsaves⟩
  cases event with
  | reopen process => exact trivial
  | stop => exact trivial
  | call process call io =>
    intro db hmachine
    have hrequest := hunbroken _ _ _ _ (World.serving_call hmachine process call io)
    refine ⟨hrequest.toExact, fun _ _ => hopen db hmachine, hrequest.clean, fun _ _ => ?_⟩
    intro failure hfailure
    rw [hlogs] at hfailure
    cases hfailure
  | crash process call now kept =>
    intro db hmachine
    have hrequest := hunbroken _ _ _ _ (World.serving_crash hmachine process call now kept)
    exact ⟨hrequest.toExact, fun _ _ => hopen db hmachine, hrequest.clean, hrequest.text⟩

theorem World.fits_of_traceless (hhealthy : ∀ event ∈ events, event.Saves ∧ event.Completes)
    (htraceless : World.Along E (World.Serves E Traceless) {} events) :
    World.Along E (World.Fits E) {} events := by
  refine World.Along.invariant (I := World.IsOpen) ?_ World.isOpen_empty
    ((World.along_of_forall hhealthy).and htraceless)
  rintro w event hopen ⟨⟨hsaves, hcompletes⟩, htraceless⟩
  refine ⟨?_, hopen.step hsaves⟩
  cases event with
  | reopen process => exact trivial
  | stop => exact trivial
  | crash process call now kept => exact absurd hcompletes id
  | call process call io =>
    intro db hmachine
    have hrequest := htraceless _ _ _ _ (World.serving_call hmachine process call io)
    exact ⟨hrequest.toExact, fun _ _ => hopen db hmachine, hrequest.clean, hrequest.tears⟩

end Fitting

/-- **Acknowledged commits survive** every history of opens, calls, closes and crashes in
which records go to a log that ends with a newline.  What is recovered, by whatever process,
is the serial run of what was committed: the acknowledged units, and those whose record was
whole when the process died. -/
theorem acknowledged_commits_survive (E : Engine) (events : List Event)
    (hhealthy : ∀ event ∈ events, event.Logs ∧ event.Saves)
    (hlaws : World.Along E (World.Serves E Laws) {} events)
    (hunbroken : World.Along E (World.Serves E Unbroken) {} events)
    (hrows : World.rows E {} events < 2 ^ 64 - 1) (hlength : events.length < 2 ^ 64 - 1) :
    (World.run E {} events).acknowledged.Sublist (World.run E {} events).client.committed ∧
      ∃ results final, serialRun E ∅ ((World.run E {} events).client.committed.map applied) =
          .ok (results, final) ∧
        ∀ process, ∃ reopened,
          Database.openDir (E.replaying process) (World.run E {} events).machine.disk =
              .ok reopened ∧
            reopened.catalog.tables.SameView final :=
  ⟨World.acknowledged_run (List.Sublist.refl []),
    World.openDir_run (World.fits_of_unbroken hhealthy hunbroken) hlaws hrows hlength⟩

/-- **Failed commits leave no trace** in every history of opens, calls and closes in which
records go to a log that ends with a newline, and a failed write leaves less than the text
of its record: what is recovered, by whatever process, is the serial run of the
acknowledged units. -/
theorem failed_commits_leave_no_trace (E : Engine) (events : List Event)
    (hhealthy : ∀ event ∈ events, event.Saves ∧ event.Completes)
    (hlaws : World.Along E (World.Serves E Laws) {} events)
    (htraceless : World.Along E (World.Serves E Traceless) {} events)
    (hrows : World.rows E {} events < 2 ^ 64 - 1) (hlength : events.length < 2 ^ 64 - 1) :
    ∃ results final, serialRun E ∅ ((World.run E {} events).acknowledged.map applied) =
        .ok (results, final) ∧
      ∀ process, ∃ reopened,
        Database.openDir (E.replaying process) (World.run E {} events).machine.disk =
            .ok reopened ∧
          reopened.catalog.tables.SameView final := by
  rw [World.acknowledged_eq (fun event hevent => (hhealthy event hevent).2) rfl]
  exact World.openDir_run (World.fits_of_traceless hhealthy htraceless) hlaws hrows hlength

/-! ## A few histories -/

/-- The log ends with a newline when a record is appended, and what a failed write leaves
of the record is a part of its text. -/
def Database.isTraceless (E : Engine) (db : Database) (io : Io) (request : Database.Request) :
    Bool :=
  (db.pending E request).all fun statements => Clean (db.disk.wal.getD []) &&
    io.log.all fun failure =>
      failure.kept < (utf8 (E.wal.encode (db.record E io statements))).length &&
        (decode ((line (E.wal.encode (db.record E io statements))).take failure.kept)).isSome

theorem World.traceless_of_checks {E : Engine} {events : List Event}
    (hexact : World.Along E (World.Serves E Exact) {} events)
    (h : World.checks E Database.isTraceless {} events = true) :
    World.Along E (World.Serves E Traceless) {} events := by
  have hall : World.Along E (World.Serves E fun E db io request =>
      Database.isTraceless E db io request = true) {} events :=
    World.along_of_checks (fun _ _ _ _ => id) h
  refine (hexact.and hall).mono ?_
  rintro w event ⟨hexact, htest⟩ process db io request hserving
  have hrequest : Database.isTraceless (E.under process) db io request = true :=
    htest process db io request hserving
  unfold Database.isTraceless at hrequest
  refine ⟨hexact process db io request hserving, fun statements hstatements => ?_,
    fun statements hstatements failure hfailure => ?_⟩
  · rw [hstatements, Option.all_some, Bool.and_eq_true, decide_eq_true_eq] at hrequest
    exact hrequest.1
  · rw [hstatements, Option.all_some, Bool.and_eq_true, hfailure, Option.all_some,
      Bool.and_eq_true, decide_eq_true_eq] at hrequest
    exact ⟨of_decide_eq_true hrequest.2.1, Option.isSome_iff_ne_none.mp hrequest.2.2⟩

theorem Traceless.unbroken {E : Engine} {db : Database} {io : Io} {request : Database.Request}
    (h : Traceless E db io request) : Unbroken E db io request :=
  ⟨h.toExact, h.clean, fun statements hstatements failure hfailure _ =>
    (h.tears statements hstatements failure hfailure).2⟩

/-- The record that follows `plainRecord`. -/
def nextRecord : SampleRecord :=
  ⟨1, 2, 1700000000001, ["CREATE TABLE w (v INTEGER)", "INSERT INTO w VALUES (1), (2)"],
    4123168066⟩

/-- An engine that knows the records of two commits. -/
def twoEngine : Engine := sampleEngine [plainRecord, nextRecord] shortTexts

theorem lawful_twoRecords :
    ∀ sample ∈ [plainRecord, nextRecord], twoEngine.wal.Lawful sample.record := by
  intro sample hsample
  have hlength : ∀ other ∈ [plainRecord, nextRecord],
      (utf8 other.text).length = (utf8 plainRecord.text).length := by decide +kernel
  exact lawful_ofSamples hsample (by decide +kernel) hlength (by decide +kernel)
    (by decide +kernel)

/-- One transaction is committed, and the process dies in the COMMIT of the next one. -/
def crashEvents : List Event := shortEvents ++ sessionEvents
  ["BEGIN", "CREATE TABLE w (v INTEGER)", "INSERT INTO w VALUES (1), (2)"] ++
  [.crash Process.reference (.sessionExecute 0 "COMMIT") sampleTime 40]

theorem committed_before_crash_survives :
    (World.run twoEngine {} crashEvents).acknowledged.length = 1 ∧
      (World.run twoEngine {} crashEvents).acknowledged.Sublist
        (World.run twoEngine {} crashEvents).client.committed ∧
      ∃ results final, serialRun twoEngine ∅
        ((World.run twoEngine {} crashEvents).client.committed.map
          applied) = .ok (results, final) ∧
        ∀ process, ∃ reopened, Database.openDir (twoEngine.replaying process)
            (World.run twoEngine {} crashEvents).machine.disk = .ok reopened ∧
          reopened.catalog.tables.SameView final := by
  have hsampled : World.checks twoEngine (Database.isSampled [plainRecord, nextRecord])
      {} crashEvents = true := by decide +kernel
  have htraceless : World.checks twoEngine Database.isTraceless {} crashEvents =
      true := by decide +kernel
  have hexact := World.exact_of_sampled (settled_shortTexts _)
    (by simp [crashEvents, reopenEvent, shortEvents, sessionEvents, Event.Texts, shortTexts])
    hsampled
  have hrows : World.rows twoEngine {} crashEvents = 4 := by decide +kernel
  refine ⟨by decide +kernel, acknowledged_commits_survive twoEngine crashEvents
    (by simp [crashEvents, reopenEvent, shortEvents, sessionEvents, Event.Logs, Event.Saves])
    (World.laws_of_sampled rfl lawful_twoRecords hsampled)
    ((World.traceless_of_checks hexact htraceless).mono fun _ _ h process db io request hserving =>
      (h process db io request hserving).unbroken) (by rw [hrows]; decide) (by decide)⟩

/-- The process dies after one byte of a record; the next process commits the same. -/
def lostEvents : List Event := reopenEvent :: sessionEvents
  ["BEGIN", "CREATE TABLE t (v INTEGER)", "INSERT INTO t VALUES (1), (2)"] ++
  .crash Process.reference (.sessionExecute 0 "COMMIT") sampleTime 1 :: shortEvents

/-- The byte that the first process has left, and the record of the second one. -/
def tornLine : String := "\x7b" ++ plainRecord.text

theorem lines_tornLine : lines (line tornLine) = [some tornLine] := by
  have hplain : Plain tornLine := ⟨by decide +kernel, by decide +kernel⟩
  exact lines_line hplain

theorem ends_tornLine : shortEngine.wal.Ends tornLine := by
  have hblank : isBlank tornLine = false := isBlank_append_of_left (by decide +kernel) _
  have hdecode : shortEngine.wal.decode tornLine = none := by
    rw [← Option.isNone_iff_eq_none]
    decide +kernel
  have hparse : (shortEngine.wal.parseSql tornLine).toOption.isNone = true := by decide +kernel
  refine Or.inr ⟨?_, ?_⟩
  · simp only [WalHost.readLine, hblank, hdecode, Bool.false_eq_true, if_false]
    rfl
  · cases hresult : shortEngine.wal.parseSql tornLine with
    | error e => exact ⟨e, rfl⟩
    | ok statement => simp [hresult, Except.toOption] at hparse

/-- **A commit behind a torn line is lost**: it was acknowledged in a healthy run, and
the next `open` does not see it. -/
theorem commit_behind_torn_line_is_lost :
    (∀ event ∈ lostEvents, event.Logs ∧ event.Saves) ∧
      World.Along shortEngine (World.Serves shortEngine Laws) {} lostEvents ∧
      World.Along shortEngine (World.Serves shortEngine Exact) {} lostEvents ∧
      ∃ reopened results final,
        Database.openDir shortEngine (World.run shortEngine {} lostEvents).machine.disk =
            .ok reopened ∧
          serialRun shortEngine ∅ ((World.run shortEngine {} lostEvents).acknowledged.map
            applied) = .ok (results, final) ∧
          (final.lookup "t").map Table.rows = some [[.integer 1], [.integer 2]] ∧
          (reopened.catalog.tables.lookup "t").map Table.rows = none := by
  have hsampled : World.checks shortEngine (Database.isSampled [plainRecord])
      {} lostEvents = true := by decide +kernel
  refine ⟨by simp [lostEvents, reopenEvent, shortEvents, sessionEvents, Event.Logs, Event.Saves],
    World.laws_of_sampled rfl lawful_shortRecord hsampled,
    World.exact_of_sampled (settled_shortTexts _)
      (by simp [lostEvents, reopenEvent, shortEvents, sessionEvents, Event.Texts, shortTexts])
      hsampled, ?_⟩
  have hserial : ((serialRun shortEngine ∅ ((World.run shortEngine {} lostEvents).acknowledged.map
      applied)).map fun run => (run.2.lookup "t").map Table.rows).toOption =
      some (some [[.integer 1], [.integer 2]]) := by decide +kernel
  obtain ⟨⟨results, final⟩, hserial, hfinal⟩ :=
    Result.map_eq_ok.mp (Result.toOption_eq_some.mp hserial)
  have hdisk : (fun disk : SqlDisk => (disk.catalogFile, disk.legacyTables, disk.wal))
      (World.run shortEngine {} lostEvents).machine.disk =
      (none, [], some (line tornLine)) := by decide +kernel
  simp only [Prod.mk.injEq] at hdisk
  have hopen : openCatalog Host.reference shortEngine.wal blankCodec
      { wal := some (line tornLine) } = .ok ⟨0, 0, ∅⟩ := by
    have hload : loadCatalog Host.reference blankCodec none [] = .ok ⟨0, 0, ∅⟩ := rfl
    rw [openCatalog_of_load hload]
    simp only [lines_tornLine, ends_tornLine.replayLines]
    rfl
  have hsame := @openCatalog_congr Host.reference shortEngine.wal blankCodec _
    { wal := some (line tornLine) } hdisk.1 hdisk.2.1 hdisk.2.2
  exact ⟨_, results, final, openDir_of_openCatalog (hsame.trans hopen), hserial, hfinal, rfl⟩

/-- The log runs full before the first byte, and the COMMIT is tried again. -/
def retriedEvents : List Event := reopenEvent :: sessionEvents
  ["BEGIN", "CREATE TABLE t (v INTEGER)", "INSERT INTO t VALUES (1), (2)"] ++
  .call Process.reference (.sessionExecute 0 "COMMIT")
    { now := sampleTime, log := some ⟨0, "No space left on device (os error 28)"⟩ } ::
  sessionEvents ["COMMIT"]

theorem retried_commit_is_recovered :
    (World.run shortEngine {} retriedEvents).acknowledged.length = 1 ∧
      ∃ results final, serialRun shortEngine ∅
          ((World.run shortEngine {} retriedEvents).acknowledged.map applied) =
            .ok (results, final) ∧
        ∀ process, ∃ reopened, Database.openDir (shortEngine.replaying process)
            (World.run shortEngine {} retriedEvents).machine.disk = .ok reopened ∧
          reopened.catalog.tables.SameView final := by
  have hsampled : World.checks shortEngine (Database.isSampled [plainRecord])
      {} retriedEvents = true := by decide +kernel
  have htraceless : World.checks shortEngine Database.isTraceless {} retriedEvents =
      true := by decide +kernel
  have hexact := World.exact_of_sampled (settled_shortTexts _)
    (by simp [retriedEvents, reopenEvent, sessionEvents, Event.Texts, shortTexts]) hsampled
  have hrows : World.rows shortEngine {} retriedEvents = 2 := by decide +kernel
  exact ⟨by decide +kernel, failed_commits_leave_no_trace shortEngine retriedEvents
    (by simp [retriedEvents, reopenEvent, sessionEvents, Event.Saves, Event.Completes])
    (World.laws_of_sampled rfl lawful_shortRecord hsampled)
    (World.traceless_of_checks hexact htraceless) (by rw [hrows]; decide) (by decide)⟩

/-- The whole record is written, the sync fails, and the client gives up. -/
def abandonedEvents : List Event := reopenEvent :: sessionEvents
  ["BEGIN", "CREATE TABLE t (v INTEGER)", "INSERT INTO t VALUES (1), (2)"] ++
  .call Process.reference (.sessionExecute 0 "COMMIT")
    { now := sampleTime, log := some ⟨300, "Input/output error (os error 5)"⟩ } ::
  sessionEvents ["ROLLBACK"]

/-- **A failed commit comes back**: nothing was acknowledged, and the next `open` finds two
rows. -/
theorem abandoned_commit_is_replayed :
    (∀ event ∈ abandonedEvents, event.Saves ∧ event.Completes) ∧
      World.Along shortEngine (World.Serves shortEngine Laws) {} abandonedEvents ∧
      World.Along shortEngine (World.Serves shortEngine Exact) {} abandonedEvents ∧
      (World.run shortEngine {} abandonedEvents).acknowledged = [] ∧
      ∃ reopened, Database.openDir shortEngine
          (World.run shortEngine {} abandonedEvents).machine.disk = .ok reopened ∧
        (reopened.catalog.tables.lookup "t").map Table.rows =
          some [[.integer 1], [.integer 2]] := by
  have hsampled : World.checks shortEngine (Database.isSampled [plainRecord])
      {} abandonedEvents = true := by decide +kernel
  have hlength : (World.run shortEngine {} abandonedEvents).acknowledged.length = 0 := by
    decide +kernel
  have hdisk : (fun disk : SqlDisk => (disk.catalogFile, disk.legacyTables, disk.wal))
      (World.run shortEngine {} abandonedEvents).machine.disk =
      (none, [], some (line plainRecord.text)) := by decide +kernel
  simp only [Prod.mk.injEq] at hdisk
  have hrun : ((runStatements Host.reference (∅, 0) [createPlain, insertTwo]).map
      fun state => ((state.1.configureBloomFalsePositiveRate Host.reference
        defaultBloomFalsePositiveRate).lookup "t").map Table.rows).toOption =
      some (some [[.integer 1], [.integer 2]]) := by decide +kernel
  obtain ⟨⟨tables, inserted⟩, hstatements, hrows⟩ :=
    Result.map_eq_ok.mp (Result.toOption_eq_some.mp hrun)
  have hrecords : HoldsRecords shortEngine.wal (line plainRecord.text) [plainRecord.record] :=
    holdsRecords_sample (by decide +kernel) (by decide +kernel) (by decide +kernel)
  have hparse : List.Forall₂
      (fun durable statement => durable.statement shortEngine.wal = .ok statement)
      plainRecord.record.statements [createPlain, insertTwo] :=
    List.Forall₂.cons rfl (List.Forall₂.cons rfl List.Forall₂.nil)
  have hopen := @openCatalog_sample Host.reference _ blankCodec _ _ _ _ _
    (fun _ _ => rfl) hrecords rfl (by decide)
    hparse hstatements
  exact ⟨by simp [abandonedEvents, reopenEvent, sessionEvents, Event.Saves, Event.Completes],
    World.laws_of_sampled rfl lawful_shortRecord hsampled,
    World.exact_of_sampled (settled_shortTexts _)
      (by simp [abandonedEvents, reopenEvent, sessionEvents, Event.Texts, shortTexts]) hsampled,
    List.length_eq_zero_iff.mp hlength, _, openDir_of_openCatalog
      ((openCatalog_congr hdisk.1 hdisk.2.1 hdisk.2.2).trans hopen), hrows⟩

end Sql
end RustyDB
