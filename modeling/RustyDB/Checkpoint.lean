import Mathlib
import RustyDB.Kv.Checkpoint
import RustyDB.Sql.Torn

/-!
# Checkpoints that fail

`SQLDatabase::save` and `PersistenceManager::create_snapshot` close the log before they
archive it and open a new one, and both engines take a missing handle for a successful
write.

* `Sql.Logged`, `Sql.World.Appends` — an exact request that logs to an open file, and what
  it leaves there.
* `failed_checkpoint_keeps_logging` — **in both engines, as long as no write meets a log
  that a failed checkpoint has left closed, every write is appended and recovered.**
-/

namespace RustyDB
namespace Sql

open LineFile KeyedIndex

/-- An exact request that logs to an open file. -/
structure Logged (E : Engine) (db : Database) (io : Io) (request : Database.Request) : Prop
    extends Exact E db io request where
  opened : ∀ statements ∈ db.pending E request, db.wal = true

/-- The record of a call is appended to `sql_wal.log`. -/
def World.Appends (E : Engine) (w : World) : Event → Prop
  | .call process call io => ∀ db statements, w.machine = .running db →
      db.pending (E.under process) (db.resolve (E.under process) call) = some statements →
      (db.logged E io statements).disk.wal = some (db.disk.wal.getD [] ++
        line (E.wal.encode (db.record E io statements)))
  | _ => True

section Checkpoints

variable {E : Engine} {events : List Event}

/-- Without failed writes the log ends with a newline. -/
theorem World.fits_of_logged (hhealthy : ∀ event ∈ events, event.Logs ∧ event.Completes)
    (hlaws : World.Along E (World.Serves E Laws) {} events)
    (hlogged : World.Along E (World.Serves E Logged) {} events) :
    World.Along E (fun w event => w.Fits E event ∧ w.Appends E event) {} events := by
  refine World.Along.invariant (I := World.IsClean) ?_ World.isClean_empty
    ((World.along_of_forall hhealthy).and (hlaws.and hlogged))
  rintro w event hclean ⟨⟨hlogs, hcompletes⟩, hlaws, hlogged⟩
  refine ⟨?_, hclean.step hlogs hcompletes hlaws⟩
  cases event with
  | reopen process => exact ⟨trivial, trivial⟩
  | stop => exact ⟨trivial, trivial⟩
  | crash process call now kept => exact absurd hcompletes id
  | call process call io =>
    refine ⟨fun db hmachine => ?_, fun db statements hmachine hpending => ?_⟩
    · have hrequest := hlogged _ _ _ _ (World.serving_call hmachine process call io)
      refine ⟨hrequest.toExact, hrequest.opened, fun _ _ => ?_, fun _ _ => ?_⟩
      · simpa [World.IsClean, hmachine, Machine.disk] using hclean
      · intro failure hfailure
        rw [hlogs] at hfailure
        cases hfailure
    · have hrequest := hlogged _ _ _ _ (World.serving_call hmachine process call io)
      have hwal := hrequest.opened statements hpending
      rw [Database.logged_eq hwal, Database.logBytes, hlogs]
      rfl

end Checkpoints

end Sql

/-- **A failed checkpoint does not lose writes** unless it leaves the log closed and
something is logged then.  For SQL: in every history of opens, calls and closes whose
checkpoints may fail at every step, in which each record goes to an open log, every record
is appended, and what is recovered, by whatever process, is the serial run of the
acknowledged units.  For the store: in every run of calls and snapshots that may fail at
every step, in which each event that has something to log finds an open file, every write
is appended, and what is recovered is the map in memory, at all keys but those with a write
that is queued, dropped by a failed flush or overtaken. -/
theorem failed_checkpoint_keeps_logging (E : Sql.Engine) (H : Kv.KvHost) :
    (∀ events : List Sql.Event,
      (∀ event ∈ events, event.Logs ∧ event.Completes) →
      Sql.World.Along E (Sql.World.Serves E Sql.Laws) {} events →
      Sql.World.Along E (Sql.World.Serves E Sql.Logged) {} events →
      Sql.World.rows E {} events < 2 ^ 64 - 1 → events.length < 2 ^ 64 - 1 →
      Sql.World.Along E (Sql.World.Appends E) {} events ∧
        ∃ results final,
          Sql.serialRun E ∅ ((Sql.World.run E {} events).acknowledged.map Sql.applied) =
              .ok (results, final) ∧
            ∀ process, ∃ reopened,
              Sql.Database.openDir (E.replaying process)
                  (Sql.World.run E {} events).machine.disk = .ok reopened ∧
                reopened.catalog.tables.SameView final) ∧
    ∀ (disk : Kv.Disk) (s : Kv.KVStore) (events : List Kv.CheckpointEvent),
      disk.Intact H → Kv.KVStore.openDir H disk = .ok s →
      s.Along H Kv.KVStore.FindsHandle events →
      s.Along H (Kv.KVStore.Appends H) events ∧
        ∃ pm s', (s.handleAll H events).persistence = some pm ∧
          Kv.KVStore.openDir H pm.disk = .ok s' ∧
          ∀ k, (Kv.CheckpointEvent.track events).overtaken k = false →
            KeyLog.lastWrite k pm.pendingOps = none →
            s'.data.lookup k = (s.handleAll H events).data.lookup k := by
  refine ⟨fun events hhealthy hlaws hlogged hrows hlength => ?_,
    fun disk s events hintact hopen hhandle =>
      Kv.logged_writes_recovered hintact hopen hhandle⟩
  have hfits := Sql.World.fits_of_logged hhealthy hlaws hlogged
  refine ⟨hfits.mono fun _ _ h => h.2, ?_⟩
  rw [Sql.World.acknowledged_eq (fun event hevent => (hhealthy event hevent).2) rfl]
  exact Sql.World.openDir_run (hfits.mono fun _ _ h => h.1) hlaws hrows hlength

/-! ## Two failed checkpoints -/

namespace Sql

/-- A checkpoint that cannot write its snapshot, and a transaction. -/
def failedWriteEvents : List Event := reopenEvent ::
  .call Process.reference .save { now := sampleTime, save := some ⟨.publish none,
    "Failed to create catalog snapshot: No space left on device (os error 28)"⟩ } ::
  sessionEvents
    ["BEGIN", "CREATE TABLE t (v INTEGER)", "INSERT INTO t VALUES (1), (2)", "COMMIT"]

/-- A checkpoint that cannot open a new log, and a transaction. -/
def failedReopenEvents : List Event := reopenEvent ::
  .call Process.reference .save { now := sampleTime, save := some ⟨.reopen,
    "Failed to reopen WAL: Too many open files (os error 24)"⟩ } ::
  sessionEvents
    ["BEGIN", "CREATE TABLE t (v INTEGER)", "INSERT INTO t VALUES (1), (2)", "COMMIT"]

/-- A request that has something to log finds the log open. -/
def Database.findsLog (E : Engine) (db : Database) (_io : Io) (request : Database.Request) :
    Bool :=
  (db.pending E request).all fun _ => db.wal

theorem logged_failedWriteEvents : World.Along shortEngine
    (World.Serves shortEngine Logged) {} failedWriteEvents := by
  have hsampled : World.checks shortEngine (Database.isSampled [plainRecord]) {}
      failedWriteEvents = true := by decide +kernel
  have hopen : World.checks shortEngine Database.findsLog {} failedWriteEvents = true := by
    decide +kernel
  have hexact := World.exact_of_sampled (settled_shortTexts _)
    (by simp [failedWriteEvents, reopenEvent, sessionEvents, Event.Texts, shortTexts]) hsampled
  have hall : World.Along shortEngine (World.Serves shortEngine fun E db io request =>
      Database.findsLog E db io request = true) {} failedWriteEvents :=
    World.along_of_checks (fun _ _ _ _ => id) hopen
  refine (hexact.and hall).mono ?_
  rintro w event ⟨hexact, hopen⟩ process db io request hserving
  refine ⟨hexact process db io request hserving, fun statements hstatements => ?_⟩
  have hrequest : Database.findsLog (shortEngine.under process) db io request = true :=
    hopen process db io request hserving
  rwa [Database.findsLog, hstatements, Option.all_some] at hrequest

end Sql

namespace Kv

/-- A snapshot that cannot write its file, and a write. -/
def failedWriteEvents : List CheckpointEvent := [.failed .flushed, .call (.set "k" "v")]

/-- A snapshot that cannot archive the WAL, and a write. -/
def failedArchiveEvents : List CheckpointEvent := [.failed .closed, .call (.set "k" "v")]

end Kv

theorem logging_after_failed_write :
    (∃ results final,
      Sql.serialRun Sql.shortEngine ∅ ((Sql.World.run Sql.shortEngine {}
          Sql.failedWriteEvents).acknowledged.map Sql.applied) = .ok (results, final) ∧
        ∀ process, ∃ reopened, Sql.Database.openDir (Sql.shortEngine.replaying process)
            (Sql.World.run Sql.shortEngine {} Sql.failedWriteEvents).machine.disk =
              .ok reopened ∧
          reopened.catalog.tables.SameView final) ∧
    ∃ pm s', (Kv.freshStore.handleAll Kv.constHost Kv.failedWriteEvents).persistence = some pm ∧
      Kv.KVStore.openDir Kv.constHost pm.disk = .ok s' ∧ s'.data.lookup "k" = some "v" := by
  have hsampled : Sql.World.checks Sql.shortEngine
      (Sql.Database.isSampled [Sql.plainRecord]) {} Sql.failedWriteEvents =
      true := by decide +kernel
  have hrows : Sql.World.rows Sql.shortEngine {} Sql.failedWriteEvents = 2 := by decide +kernel
  have hsql := (failed_checkpoint_keeps_logging Sql.shortEngine Kv.constHost).1
    Sql.failedWriteEvents
    (by simp [Sql.failedWriteEvents, Sql.reopenEvent, Sql.sessionEvents, Sql.Event.Logs,
      Sql.Event.Completes])
    (Sql.World.laws_of_sampled rfl Sql.lawful_shortRecord hsampled) Sql.logged_failedWriteEvents
    (by rw [hrows]; decide) (by decide)
  have hhandle : Kv.freshStore.Along Kv.constHost Kv.KVStore.FindsHandle Kv.failedWriteEvents := by
    refine ⟨fun pm hpm _ => ?_, fun pm hpm _ => ?_, trivial⟩
    · obtain rfl := Option.some.inj hpm
      rfl
    · obtain rfl := Option.some.inj hpm
      rfl
  obtain ⟨-, pm, s', hpm, hopen, hlook⟩ := (failed_checkpoint_keeps_logging Sql.shortEngine
    Kv.constHost).2 {} Kv.freshStore Kv.failedWriteEvents Kv.intact_empty Kv.openDir_empty hhandle
  refine ⟨hsql.2, pm, s', hpm, hopen, ?_⟩
  obtain rfl := Option.some.inj hpm
  exact hlook "k" rfl rfl

/-- **A checkpoint that fails to reopen its log** turns logging off: a commit and a write
are acknowledged afterwards, nothing is appended, and the next `open` finds neither. -/
theorem failed_checkpoint_stops_logging :
    ((∀ event ∈ Sql.failedReopenEvents, event.Logs ∧ event.Completes) ∧
      Sql.World.Along Sql.shortEngine
        (Sql.World.Serves Sql.shortEngine Sql.Laws) {} Sql.failedReopenEvents ∧
      (Sql.World.run Sql.shortEngine {} Sql.failedReopenEvents).acknowledged.length = 1 ∧
      (Sql.World.run Sql.shortEngine {} Sql.failedReopenEvents).machine.disk.wal = some [] ∧
      ∃ reopened, Sql.Database.openDir Sql.shortEngine
          (Sql.World.run Sql.shortEngine {} Sql.failedReopenEvents).machine.disk = .ok reopened ∧
        reopened.catalog.tables.lookup "t" = none) ∧
    ∃ pm s', (Kv.freshStore.handleAll Kv.constHost Kv.failedArchiveEvents).persistence = some pm ∧
      (Kv.freshStore.handleAll Kv.constHost Kv.failedArchiveEvents).data.lookup "k" = some "v" ∧
      pm.disk.wal = [] ∧ Kv.KVStore.openDir Kv.constHost pm.disk = .ok s' ∧
      s'.data.lookup "k" = none := by
  have hsampled : Sql.World.checks Sql.shortEngine
      (Sql.Database.isSampled [Sql.plainRecord]) {} Sql.failedReopenEvents =
      true := by decide +kernel
  have hreopened : ((Sql.Database.openDir Sql.shortEngine
      (Sql.World.run Sql.shortEngine {} Sql.failedReopenEvents).machine.disk).map fun reopened =>
        reopened.catalog.tables.keys).toOption = some [] := by decide +kernel
  obtain ⟨reopened, hopen, hkeys⟩ :=
    Result.map_eq_ok.mp (Result.toOption_eq_some.mp hreopened)
  refine ⟨⟨by simp [Sql.failedReopenEvents, Sql.reopenEvent, Sql.sessionEvents, Sql.Event.Logs,
    Sql.Event.Completes], Sql.World.laws_of_sampled rfl Sql.lawful_shortRecord hsampled,
    by decide +kernel, by decide +kernel, reopened, hopen, ?_⟩, _, _, rfl, by decide, rfl, rfl,
    by decide⟩
  rw [AList.lookup_eq_none, AList.mem_keys, hkeys]
  exact List.not_mem_nil

end RustyDB
