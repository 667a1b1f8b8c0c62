import Mathlib
import RustyDB.Lib.NumberedLog
import RustyDB.Kv.Snapshot

/-!
# Sequence numbers over the life of a directory

Every record takes the next number of a counter that the manager and its flusher share.
The numbers outlive the manager in two places only: a snapshot file keeps the number that
the counter had when its temporary file was written, and the active WAL keeps its records.
`scan_max_sequence` looks at these two, so a record that reaches the WAL between the two
moments of a snapshot is forgotten by the next `open`.

* `Managed`, `ManagedStep`, `Managed.step` — the manager, its flusher, the holder of the
  persistence lock, and flushers that have outlived their manager, in steps between which
  the others may run.
* `ManagedStep.safe` — the steps that append behind nobody's back.
* `Disk.Sequenced`, `Managed.Gapless` — the invariant.
* `sequences_gap_free` — **archive and WAL together hold the numbers from one to the
  counter, once each and in order.**
* `straddled_snapshot_repeats`, `stale_flusher_repeats` — the two other ways to append.
* `Managed.Settled` — as long as no process ends inside of a snapshot, the snapshot and the
  archive end at the same number.
-/

namespace RustyDB
namespace Kv

open NumberedLog

/-! ## Steps -/

/-- What the holder of the persistence lock goes on with once the queue is logged. -/
inductive Purpose where
  /-- `flush`. -/
  | release
  /-- `create_snapshot`. -/
  | snapshot (data : List (String × String))
  /-- `Drop`. -/
  | drop
  deriving DecidableEq, Repr

/-- How far the holder of the persistence lock has come. -/
inductive Work where
  /-- The queue has been taken; these are still to be logged. -/
  | flushing (ops : List Operation) (purpose : Purpose)
  /-- `rustydb.tmp` is written. -/
  | captured (file : KvSnapshot)
  | renamed
  | closed
  | archived
  deriving DecidableEq, Repr

/-- The background thread; in `appending` it holds the lock of the WAL file. -/
inductive Flusher where
  | idle
  | taken (ops : List Operation)
  | appending (ops : List Operation)
  deriving DecidableEq, Repr

/-- A flusher whose manager was dropped and whose directory has been opened again.  It
keeps the counter and the file of its manager: the file is a position among the segments
of the archive, which the active WAL follows. -/
structure Stale where
  ops : List Operation
  nextSequence : Nat
  segment : Nat
  deriving DecidableEq, Repr

/-- A directory with its managers. -/
structure Managed where
  pm : PersistenceManager
  work : Option Work := none
  flusher : Flusher := .idle
  dropped : Bool := false
  stale : List Stale := []
  deriving DecidableEq, Repr

/-- What happens to the persistence manager and its file. -/
inductive ManagedStep where
  /-- `log_operation_sync`, from `set`, `delete`, `clear` or a pair of `set_many`. -/
  | log (op : Operation)
  /-- `log_operation_async`. -/
  | enqueue (op : Operation)
  /-- The queue is taken under the persistence lock. -/
  | begin (purpose : Purpose)
  /-- The holder of the persistence lock goes on. -/
  | advance
  /-- The flusher goes on. -/
  | flusher
  /-- A stale flusher appends a record. -/
  | stale (i : Nat)
  /-- The process ends, between two steps: every record that has been started is a whole line.
  (One whose newline is missing would be joined with the next.) -/
  | crash
  /-- `PersistenceManager::new`. -/
  | reopen
  deriving DecidableEq, Repr

/-- What a flusher still has to append. -/
def Flusher.ops : Flusher → List Operation
  | .idle => []
  | .taken ops => ops
  | .appending ops => ops

/-- A record appended to one of the segments, or to the active WAL behind them. -/
def Disk.appendTo (disk : Disk) (segment : Nat) (line : WalLine) : Disk :=
  if segment < disk.archive.length then
    { disk with archive := disk.archive.modify segment fun entry => (entry.1, entry.2 ++ [line]) }
  else { disk with wal := disk.wal ++ [line] }

namespace Managed

/-- The manager is there and its lock is free. -/
def free (s : Managed) : Bool := !s.dropped && s.work.isNone

/-- The flusher holds the lock of the WAL file. -/
def blocked (s : Managed) : Bool :=
  match s.flusher with
  | .appending _ => true
  | _ => false

/-- The next step of the holder of the persistence lock; what needs the lock of the WAL
file waits for the flusher. -/
def advance (H : KvHost) (s : Managed) : Work → Option Managed
  | .flushing (op :: ops) purpose =>
    if s.blocked then none
    else some { s with
      pm := s.pm.logOperationSync H op
      work := some (.flushing ops purpose) }
  | .flushing [] .release => some { s with work := none }
  | .flushing [] (.snapshot data) => some { s with
      work := some (.captured
        { formatVersion := kvFormatVersion
          sequence := s.pm.currentSequence
          timestampMillis := H.nowMillis s.pm.currentSequence
          entries := data }) }
  | .flushing [] .drop => some { s with work := none, dropped := true }
  | .captured file => some { s with
      pm := { s.pm with disk := { s.pm.disk with snapshot := some (.snapshot file) } }
      work := some .renamed }
  | .renamed =>
    if s.blocked then none else some { s with pm := s.pm.closeWal, work := some .closed }
  | .closed => some { s with pm := s.pm.archiveWal, work := some .archived }
  | .archived => if s.blocked then none else some { s with pm := s.pm.reopenWal, work := none }

/-- The next step of the flusher: a round takes the queue, then takes the lock of the WAL
file, drops what it took when there is no file, and otherwise appends it. -/
def flush (H : KvHost) (s : Managed) : Managed :=
  match s.flusher with
  | .idle => { s with
      pm := { s.pm with pendingOps := [] }
      flusher := .taken s.pm.pendingOps }
  | .taken ops =>
    if !ops.isEmpty && s.pm.walFile then { s with flusher := .appending ops }
    else { s with flusher := .idle }
  | .appending (op :: ops) => { s with pm := s.pm.append H op, flusher := .appending ops }
  | .appending [] => { s with flusher := .idle }

/-- One step. -/
def step (H : KvHost) (s : Managed) : ManagedStep → Option Managed
  | .log op =>
    if s.free && !s.blocked then some { s with pm := s.pm.logOperationSync H op } else none
  | .enqueue op => if s.free then some { s with pm := s.pm.logOperationAsync op } else none
  | .begin purpose =>
    if s.free then some { s with
      pm := { s.pm with pendingOps := [] }
      work := some (.flushing s.pm.pendingOps purpose) }
    else none
  | .advance => s.work.bind (s.advance H)
  | .flusher => some (s.flush H)
  | .stale i =>
    match s.stale[i]? with
    | some ⟨op :: ops, nextSequence, segment⟩ => some { s with
        pm := { s.pm with
          disk := s.pm.disk.appendTo segment (.record (.new H nextSequence op)) }
        stale := s.stale.set i ⟨ops, nextSequence + 1, segment⟩ }
    | _ => none
  | .crash => some { pm := { s.pm with pendingOps := [] }, dropped := true }
  | .reopen =>
    if s.dropped then some
      { pm := .new H s.pm.disk
        stale := s.stale ++ [⟨s.flusher.ops, s.pm.nextSequence, s.pm.disk.archive.length⟩] }
    else none

/-- A schedule; `none` when it is not one the parties can produce. -/
def run (H : KvHost) (s : Managed) : List ManagedStep → Option Managed
  | [] => some s
  | st :: sts => (s.step H st).bind (fun s' => run H s' sts)

/-- A manager on an empty directory. -/
def start (H : KvHost) : Managed := { pm := .new H {} }

end Managed

/-- The steps that append behind nobody's back: the flusher waits while a snapshot has
read the counter and not yet closed the WAL, and no stale flusher has anything left. -/
def ManagedStep.safe (s : Managed) : ManagedStep → Bool
  | .flusher =>
    match s.flusher, s.work with
    | .appending (_ :: _), some (.captured _) => false
    | .appending (_ :: _), some .renamed => false
    | _, _ => true
  | .stale _ => false
  | _ => true

/-- All steps of a schedule are safe where they are made. -/
def Managed.safeRun (H : KvHost) (s : Managed) : List ManagedStep → Bool
  | [] => true
  | st :: sts => st.safe s && (s.step H st).all (fun s' => safeRun H s' sts)

/-! ## Files -/

/-- The lines of the archived segments and of the active WAL. -/
def Disk.log (disk : Disk) : List WalLine := disk.archive.flatMap Prod.snd ++ disk.wal

/-- The sequence number that the snapshot file carries. -/
def Disk.snapshotSequence (disk : Disk) : Nat :=
  match disk.snapshot with
  | some (.snapshot file) => file.sequence
  | _ => 0

/-- Segments and WAL hold records numbered from one; the snapshot covers the segments, and
these have growing names. -/
structure Disk.Sequenced (H : KvHost) (disk : Disk) (archived active : List KvWalRecord) :
    Prop where
  segments : disk.archive.flatMap Prod.snd = archived.map .record
  wal : disk.wal = active.map .record
  valid : ∀ r ∈ archived ++ active, r.valid H = true
  numbered : Numbered KvWalRecord.sequence 0 (archived ++ active)
  covers : archived.length ≤ disk.snapshotSequence
  within : disk.snapshotSequence ≤ (archived ++ active).length
  names : (disk.archive.map Prod.fst).Pairwise (· < ·)
  named : ∀ name ∈ disk.archive.map Prod.fst, name ≤ archived.length

section Files

variable {H : KvHost} {disk : Disk} {archived active : List KvWalRecord}

/-- The largest number of the active WAL. -/
theorem foldl_max_sequence {rs : List KvWalRecord} {n m : Nat}
    (hvalid : ∀ r ∈ rs, r.valid H = true) (hnumbered : Numbered KvWalRecord.sequence n rs)
    (hm : m ≤ n) :
    (rs.map WalLine.record).foldl (fun m l =>
      match l with
      | .record r => if r.valid H then max m r.sequence else m
      | _ => m) m = if rs = [] then m else n + rs.length := by
  induction rs generalizing n m with
  | nil => rfl
  | cons r rs ih =>
    obtain ⟨hr, hrest⟩ := hnumbered
    have hmax : max m r.sequence = n + 1 := by
      rw [hr]
      omega
    simp only [List.map_cons, List.foldl_cons, hvalid r List.mem_cons_self, if_true, hmax]
    rw [ih (fun x hx => hvalid x (List.mem_cons_of_mem _ hx)) hrest (Nat.le_refl _)]
    cases rs with
    | nil => simp
    | cons x xs =>
      simp only [List.cons_ne_nil, if_false, List.length_cons]
      omega

/-- **The scan of the next `open`** finds the last number. -/
theorem Disk.Sequenced.scanMaxSequence (h : disk.Sequenced H archived active) :
    scanMaxSequence H disk = (archived ++ active).length := by
  have hnumbered := (numbered_append.mp h.numbered).2
  rw [Nat.zero_add] at hnumbered
  have hwal := foldl_max_sequence (m := 0)
    (fun r hr => h.valid r (List.mem_append_right _ hr)) hnumbered (Nat.zero_le _)
  have hscan : Kv.scanMaxSequence H disk = max disk.snapshotSequence
      (if active = [] then 0 else archived.length + active.length) := by
    rw [← hwal, ← h.wal]
    rfl
  have hcovers := h.covers
  have hwithin := h.within
  rw [List.length_append] at hwithin ⊢
  rw [hscan]
  split_ifs with hactive
  · rw [hactive] at hwithin ⊢
    rw [List.length_nil] at hwithin ⊢
    omega
  · omega

/-- One record more. -/
theorem Disk.Sequenced.append {pm : PersistenceManager}
    (h : pm.disk.Sequenced H archived active)
    (hnext : pm.nextSequence = (archived ++ active).length + 1) (op : Operation) :
    (pm.append H op).disk.Sequenced H archived
        (active ++ [.new H pm.nextSequence op]) := by
  have hwithin := h.within
  refine ⟨h.segments, ?_, ?_, ?_, h.covers, ?_, h.names, h.named⟩
  · show pm.disk.wal ++ [.record (.new H pm.nextSequence op)] = _
    rw [h.wal, List.map_append]
    rfl
  · intro r hr
    rw [← List.append_assoc, List.mem_append, List.mem_singleton] at hr
    rcases hr with hr | rfl
    · exact h.valid r hr
    · exact KvWalRecord.valid_new H _ _
  · rw [← List.append_assoc, numbered_append]
    refine ⟨h.numbered, ?_, trivial⟩
    rw [Nat.zero_add]
    exact hnext
  · show pm.disk.snapshotSequence ≤ _
    rw [← List.append_assoc, List.length_append]
    omega

/-- The active WAL becomes a segment once the snapshot covers it. -/
theorem Disk.Sequenced.archive {pm : PersistenceManager}
    (h : pm.disk.Sequenced H archived active)
    (hnext : pm.nextSequence = (archived ++ active).length + 1)
    (hcovers : pm.disk.snapshotSequence = pm.currentSequence) :
    pm.archiveWal.disk.Sequenced H (archived ++ active) [] := by
  have hcurrent : pm.currentSequence = (archived ++ active).length := by
    rw [PersistenceManager.currentSequence, hnext]
    omega
  have hsequence : pm.archiveWal.disk.snapshotSequence = (archived ++ active).length := by
    rw [← hcurrent, ← hcovers]
    rfl
  by_cases hempty : pm.disk.wal = []
  · -- an empty WAL stays where it is
    have hactive : active = [] := by
      have hmap := h.wal
      rw [hempty] at hmap
      exact List.map_eq_nil_iff.mp hmap.symm
    have harchive : pm.archiveWal.disk.archive = pm.disk.archive := by
      simp only [PersistenceManager.archiveWal, if_pos hempty]
    subst hactive
    rw [List.append_nil] at hsequence ⊢
    refine ⟨?_, rfl, ?_, ?_, ?_, ?_, ?_, ?_⟩
    · rw [harchive]
      exact h.segments
    · exact h.valid
    · exact h.numbered
    · rw [hsequence]
    · rw [hsequence, List.append_nil]
    · rw [harchive]
      exact h.names
    · rw [harchive]
      exact h.named
  · have harchive : pm.archiveWal.disk.archive =
        pm.disk.archive ++ [(pm.currentSequence, pm.disk.wal)] := by
      simp only [PersistenceManager.archiveWal, if_neg hempty]
    have hactive : active ≠ [] := by
      intro hactive
      apply hempty
      rw [h.wal, hactive]
      rfl
    have hlonger : archived.length < pm.currentSequence := by
      have hpositive := List.length_pos_iff.mpr hactive
      rw [hcurrent, List.length_append]
      omega
    refine ⟨?_, rfl, ?_, ?_, ?_, ?_, ?_, ?_⟩
    · rw [harchive, List.flatMap_append, h.segments, List.map_append, ← h.wal]
      simp
    · rw [List.append_nil]
      exact h.valid
    · rw [List.append_nil]
      exact h.numbered
    · rw [hsequence]
    · rw [hsequence, List.append_nil]
    · rw [harchive, List.map_append, List.pairwise_append]
      refine ⟨h.names, List.pairwise_singleton _ _, fun name hname last hlast => ?_⟩
      have hle := h.named name hname
      rw [List.map_singleton, List.mem_singleton] at hlast
      omega
    · rw [harchive, List.map_append]
      intro name hname
      rcases List.mem_append.mp hname with hname | hname
      · have hle := h.named name hname
        rw [List.length_append]
        omega
      · rw [List.map_singleton, List.mem_singleton] at hname
        omega

theorem Disk.Sequenced.lines (h : disk.Sequenced H archived active) :
    disk.log = (archived ++ active).map .record := by
  rw [Disk.log, h.segments, h.wal, List.map_append]

theorem Disk.sequenced_empty : ({} : Disk).Sequenced H [] [] := by
  refine ⟨rfl, rfl, ?_, trivial, Nat.le_refl _, Nat.le_refl _, List.Pairwise.nil, ?_⟩
  · intro r hr
    cases hr
  · intro name hname
    cases hname

end Files

/-! ## The invariant -/

/-- What the holder of the persistence lock has established: from the counter read to the
WAL moved away, nothing is numbered. -/
def Managed.StageOk (s : Managed) : Prop :=
  match s.work with
  | some (.captured file) => file.sequence = s.pm.currentSequence
  | some .renamed => s.pm.disk.snapshotSequence = s.pm.currentSequence
  | some .closed => s.pm.walFile = false ∧ s.pm.disk.snapshotSequence = s.pm.currentSequence
  | _ => True

/-- The files hold the numbers up to the counter. -/
structure Managed.Gapless (H : KvHost) (s : Managed) (archived active : List KvWalRecord) :
    Prop where
  files : s.pm.disk.Sequenced H archived active
  counter : s.pm.nextSequence = (archived ++ active).length + 1
  stage : s.StageOk
  holding : ∀ ops, s.flusher = .appending ops → s.pm.walFile = true

section Steps

variable {H : KvHost} {s s' : Managed} {archived active : List KvWalRecord}

theorem Managed.Gapless.current (h : s.Gapless H archived active) :
    s.pm.currentSequence = (archived ++ active).length := by
  rw [PersistenceManager.currentSequence, h.counter]
  omega

/-- Nothing holds up what needs the lock of the WAL file. -/
theorem Managed.not_appending (h : s.blocked = false) (ops : List Operation) :
    s.flusher ≠ .appending ops := by
  intro hflusher
  rw [Managed.blocked, hflusher] at h
  cases h

/-- **One record**, while no snapshot has read the counter. -/
theorem Managed.Gapless.append (h : s.Gapless H archived active) (op : Operation)
    (work : Option Work) (flusher : Flusher)
    (hwork : ∀ s : Managed, s.work = work → s.StageOk)
    (hflusher : ∀ ops, flusher = .appending ops → s.pm.walFile = true) :
    Managed.Gapless H { s with pm := s.pm.append H op, work, flusher } archived
      (active ++ [.new H s.pm.nextSequence op]) := by
  refine ⟨h.files.append h.counter op, ?_, hwork _ rfl, hflusher⟩
  show s.pm.nextSequence + 1 = _
  rw [h.counter, ← List.append_assoc]
  simp only [List.length_append, List.length_singleton]

/-- A synchronous write, which needs an open file to log anything. -/
theorem Managed.Gapless.log (h : s.Gapless H archived active) (op : Operation)
    (work : Option Work) (hwork : ∀ s : Managed, s.work = work → s.StageOk) :
    ∃ active', Managed.Gapless H { s with pm := s.pm.logOperationSync H op, work } archived
      active' := by
  rw [PersistenceManager.logOperationSync]
  split
  · exact ⟨_, h.append op work s.flusher hwork h.holding⟩
  · exact ⟨active, h.files, h.counter, hwork _ rfl, h.holding⟩

/-- **The holder of the persistence lock** goes on. -/
theorem Managed.Gapless.advance (h : s.Gapless H archived active) {work : Work}
    (hwork : s.work = some work) (hstep : s.advance H work = some s') :
    ∃ archived' active', s'.Gapless H archived' active' := by
  have hstage := h.stage
  rw [Managed.StageOk, hwork] at hstage
  cases work with
  | flushing ops purpose =>
    cases ops with
    | cons op ops =>
      rw [Managed.advance] at hstep
      split at hstep
      · cases hstep
      · obtain rfl := Option.some.inj hstep
        obtain ⟨active', hafter⟩ := h.log op (some (.flushing ops purpose)) (by
          intro s hs
          rw [Managed.StageOk, hs]
          trivial)
        exact ⟨archived, active', hafter⟩
    | nil =>
      cases purpose with
      | release =>
        obtain rfl := Option.some.inj hstep
        exact ⟨archived, active, h.files, h.counter, trivial, h.holding⟩
      | snapshot data =>
        obtain rfl := Option.some.inj hstep
        exact ⟨archived, active, h.files, h.counter, rfl, h.holding⟩
      | drop =>
        obtain rfl := Option.some.inj hstep
        exact ⟨archived, active, h.files, h.counter, trivial, h.holding⟩
  | captured file =>
    obtain rfl := Option.some.inj hstep
    have hsequence : file.sequence = (archived ++ active).length := by
      rw [← h.current]
      exact hstage
    refine ⟨archived, active, ⟨h.files.segments, h.files.wal, h.files.valid, h.files.numbered,
      ?_, ?_, h.files.names, h.files.named⟩, h.counter, hstage, h.holding⟩
    · show archived.length ≤ file.sequence
      rw [hsequence, List.length_append]
      omega
    · show file.sequence ≤ _
      rw [hsequence]
  | renamed =>
    rw [Managed.advance] at hstep
    split at hstep
    · cases hstep
    · rename_i hblocked
      obtain rfl := Option.some.inj hstep
      refine ⟨archived, active, h.files, h.counter, ⟨rfl, hstage⟩, fun ops hops => ?_⟩
      exact absurd hops (Managed.not_appending (Bool.eq_false_of_not_eq_true hblocked) ops)
  | closed =>
    obtain rfl := Option.some.inj hstep
    obtain ⟨hfile, hcovers⟩ := hstage
    refine ⟨archived ++ active, [], h.files.archive h.counter hcovers, ?_, trivial,
      fun ops hops => ?_⟩
    · rw [List.append_nil]
      exact h.counter
    · have hopen := h.holding ops hops
      rw [hfile] at hopen
      cases hopen
  | archived =>
    rw [Managed.advance] at hstep
    split at hstep
    · cases hstep
    · obtain rfl := Option.some.inj hstep
      exact ⟨archived, active, h.files, h.counter, trivial, fun _ _ => rfl⟩

theorem ManagedStep.work_of_safe {op : Operation} {ops : List Operation}
    (hsafe : ManagedStep.safe s .flusher = true) (hflusher : s.flusher = .appending (op :: ops)) :
    s.work ≠ some .renamed ∧ ∀ file, s.work ≠ some (.captured file) := by
  constructor
  · intro hwork
    rw [ManagedStep.safe, hflusher, hwork] at hsafe
    cases hsafe
  · intro file hwork
    rw [ManagedStep.safe, hflusher, hwork] at hsafe
    cases hsafe

/-- **The flusher** goes on. -/
theorem Managed.Gapless.flush (h : s.Gapless H archived active)
    (hsafe : ManagedStep.safe s .flusher = true) :
    ∃ active', (s.flush H).Gapless H archived active' := by
  rw [Managed.flush]
  split
  · refine ⟨active, h.files, h.counter, h.stage, fun ops hops => ?_⟩
    cases hops
  · split
    · rename_i hopen
      rw [Bool.and_eq_true] at hopen
      exact ⟨active, h.files, h.counter, h.stage, fun _ _ => hopen.2⟩
    · refine ⟨active, h.files, h.counter, h.stage, fun ops hops => ?_⟩
      cases hops
  · rename_i op ops hflusher
    obtain ⟨hrenamed, hcaptured⟩ := ManagedStep.work_of_safe hsafe hflusher
    have hopen := h.holding _ hflusher
    refine ⟨_, h.append op s.work (.appending ops) (fun t ht => ?_) fun _ _ => hopen⟩
    -- a WAL that is closed is not appended to, and the stages before it are not safe
    have hstage := h.stage
    rw [Managed.StageOk] at hstage ⊢
    rw [ht]
    split
    · rename_i file hwork
      exact absurd hwork (hcaptured file)
    · rename_i hwork
      exact absurd hwork hrenamed
    · rename_i hwork
      rw [hwork] at hstage
      rw [hstage.1] at hopen
      cases hopen
    · trivial
  · refine ⟨active, h.files, h.counter, h.stage, fun ops hops => ?_⟩
    cases hops

/-- **One step**, when it is safe. -/
theorem Managed.Gapless.step (h : s.Gapless H archived active) {st : ManagedStep}
    (hsafe : st.safe s = true) (hstep : s.step H st = some s') :
    ∃ archived' active', s'.Gapless H archived' active' := by
  cases st with
  | log op =>
    rw [Managed.step] at hstep
    split at hstep
    · rename_i hfree
      obtain rfl := Option.some.inj hstep
      have hwork : s.work = none := by
        rw [Managed.free, Bool.and_eq_true, Bool.and_eq_true] at hfree
        exact Option.isNone_iff_eq_none.mp hfree.1.2
      obtain ⟨active', hafter⟩ := h.log op s.work (by
        intro t ht
        rw [Managed.StageOk, ht, hwork]
        trivial)
      exact ⟨archived, active', hafter⟩
    · cases hstep
  | enqueue op =>
    rw [Managed.step] at hstep
    split at hstep
    · obtain rfl := Option.some.inj hstep
      exact ⟨archived, active, h.files, h.counter, h.stage, h.holding⟩
    · cases hstep
  | begin purpose =>
    rw [Managed.step] at hstep
    split at hstep
    · obtain rfl := Option.some.inj hstep
      exact ⟨archived, active, h.files, h.counter, trivial, h.holding⟩
    · cases hstep
  | advance =>
    obtain ⟨work, hwork, hadvance⟩ := Option.bind_eq_some_iff.mp hstep
    exact h.advance hwork hadvance
  | flusher =>
    obtain rfl := Option.some.inj hstep
    obtain ⟨active', hafter⟩ := h.flush hsafe
    exact ⟨archived, active', hafter⟩
  | stale i => cases hsafe
  | crash =>
    obtain rfl := Option.some.inj hstep
    refine ⟨archived, active, h.files, h.counter, trivial, fun ops hops => ?_⟩
    cases hops
  | reopen =>
    rw [Managed.step] at hstep
    split at hstep
    · obtain rfl := Option.some.inj hstep
      refine ⟨archived, active, h.files, ?_, trivial, fun ops hops => ?_⟩
      · show scanMaxSequence H s.pm.disk + 1 = _
        rw [h.files.scanMaxSequence]
      · cases hops
    · cases hstep

theorem Managed.Gapless.run {steps : List ManagedStep} (h : s.Gapless H archived active)
    (hsafe : s.safeRun H steps = true) (hrun : s.run H steps = some s') :
    ∃ archived' active', s'.Gapless H archived' active' := by
  induction steps generalizing s archived active with
  | nil =>
    obtain rfl := Option.some.inj hrun
    exact ⟨archived, active, h⟩
  | cons st sts ih =>
    obtain ⟨next, hstep, hrest⟩ := Option.bind_eq_some_iff.mp hrun
    rw [Managed.safeRun, hstep, Bool.and_eq_true] at hsafe
    obtain ⟨archived', active', hnext⟩ := h.step hsafe.1 hstep
    exact ih hnext hsafe.2 hrest

theorem Managed.gapless_start : (Managed.start H).Gapless H [] [] := by
  refine ⟨Disk.sequenced_empty, rfl, trivial, fun ops hops => ?_⟩
  cases hops

end Steps

/-- **Sequence numbers are gap-free.**  Over any number of managers of one directory, with
flusher, flushes, snapshots, closes and crashes between records interleaved in any order: as
long as the flusher appends nothing between the moment at which a snapshot reads the counter
and the moment at which it closes the WAL, and appends nothing to a directory that has been
opened again, the archived segments and the active WAL hold valid records only, numbered from
one to `current_sequence`, once each and in this order.  The snapshot file covers the archived
ones, and no segment is archived under the name of another. -/
theorem sequences_gap_free (H : KvHost) (steps : List ManagedStep) (s : Managed)
    (hsafe : (Managed.start H).safeRun H steps = true)
    (hrun : (Managed.start H).run H steps = some s) :
    (∃ records : List KvWalRecord, s.pm.disk.log = records.map .record ∧
      (∀ r ∈ records, r.valid H = true) ∧
      records.map KvWalRecord.sequence = List.range' 1 s.pm.currentSequence) ∧
    (s.pm.disk.archive.flatMap Prod.snd).length ≤ s.pm.disk.snapshotSequence ∧
    s.pm.disk.snapshotSequence ≤ s.pm.currentSequence ∧
    (s.pm.disk.archive.map Prod.fst).Nodup := by
  obtain ⟨archived, active, h⟩ := Managed.gapless_start.run hsafe hrun
  refine ⟨⟨archived ++ active, h.files.lines, h.files.valid, ?_⟩, ?_, ?_, ?_⟩
  · rw [h.current]
    exact h.files.numbered.map_number
  · rw [h.files.segments, List.length_map]
    exact h.files.covers
  · rw [h.current]
    exact h.files.within
  · exact h.files.names.imp fun hlt => Nat.ne_of_lt hlt

/-- The sequence numbers of the records in a directory, in the order of the files. -/
def Disk.sequences (disk : Disk) : List Nat :=
  disk.log.filterMap fun line =>
    match line with
    | .record r => some r.sequence
    | _ => none

/-- Two queued writes reach the WAL through the flusher, in between a synchronous write; a
snapshot moves them away, a third write is logged, and the process ends inside the next
snapshot, once it has been renamed. -/
def gaplessSteps : List ManagedStep :=
  [.enqueue (.set "a" "1"), .enqueue (.set "b" "2"), .flusher, .flusher, .flusher, .flusher,
    .flusher, .log (.set "c" "3"), .begin (.snapshot []), .advance, .advance, .advance, .advance,
    .advance, .log (.delete "a"), .begin (.snapshot []), .advance, .advance, .crash, .reopen,
    .log .clear]

theorem two_managers_gapless : ∃ s, (Managed.start constHost).run constHost gaplessSteps = some s ∧
    s.pm.disk.archive.map Prod.fst = [3] ∧ s.pm.currentSequence = 5 ∧
    ∃ records : List KvWalRecord, s.pm.disk.log = records.map .record ∧
      records.map KvWalRecord.sequence = List.range' 1 s.pm.currentSequence := by
  obtain ⟨s, hrun⟩ : ∃ s, (Managed.start constHost).run constHost gaplessSteps = some s :=
    Option.isSome_iff_exists.mp (by decide)
  have hreport : ((Managed.start constHost).run constHost gaplessSteps).map (fun s =>
      (s.pm.disk.archive.map Prod.fst, s.pm.currentSequence)) = some ([3], 5) := by decide
  rw [hrun, Option.map_some, Option.some.injEq, Prod.mk.injEq] at hreport
  obtain ⟨⟨records, hlog, -, hsequences⟩, -⟩ :=
    sequences_gap_free constHost gaplessSteps s (by decide) hrun
  exact ⟨s, hrun, hreport.1, hreport.2, records, hlog, hsequences⟩

/-- **The flusher between the two moments of a snapshot**: its record is archived, and the
next manager gives its number to another. -/
theorem straddled_snapshot_repeats :
    ((Managed.start constHost).run constHost
      [.enqueue (.set "a" "1"), .flusher, .flusher, .begin (.snapshot []), .advance, .flusher,
        .flusher, .advance, .advance, .advance, .advance, .begin .drop, .advance, .reopen,
        .log (.set "b" "2")]).map (fun s => s.pm.disk.sequences) = some [1, 1] := by
  decide

/-- **A flusher that outlives its manager**, which `Drop` does not wait for: it numbers its
record from the counter of the old manager, in the file of the new one. -/
theorem stale_flusher_repeats :
    ((Managed.start constHost).run constHost
      [.enqueue (.set "a" "1"), .flusher, .begin .drop, .advance, .reopen, .log (.set "b" "2"),
        .stale 0]).map (fun s => s.pm.disk.sequences) = some [1, 1] := by
  decide

/-! ## The snapshot and the archive -/

/-- The snapshot file and the archive end at the same number, except in the middle of a
snapshot, and a manager that has been dropped is not in the middle of anything. -/
structure Managed.Settled (s : Managed) : Prop where
  finished : s.dropped = true → s.work = none
  covered : s.work ≠ some .renamed → s.work ≠ some .closed →
    s.pm.disk.snapshotSequence = (s.pm.disk.archive.flatMap Prod.snd).length

section Settled

variable {H : KvHost} {s s' : Managed} {archived active : List KvWalRecord}

/-- A synchronous write leaves the snapshot and the archive alone. -/
theorem files_logOperationSync (pm : PersistenceManager) (op : Operation) :
    (pm.logOperationSync H op).disk.snapshot = pm.disk.snapshot ∧
      (pm.logOperationSync H op).disk.archive = pm.disk.archive := by
  rw [PersistenceManager.logOperationSync]
  split
  · exact ⟨rfl, rfl⟩
  · exact ⟨rfl, rfl⟩

/-- A step that touches neither the snapshot nor the archive, and is not in the middle of a
snapshot before. -/
theorem Managed.Settled.same (h : s.Settled)
    (hbefore : s.work ≠ some .renamed ∧ s.work ≠ some .closed)
    (hsnapshot : s'.pm.disk.snapshot = s.pm.disk.snapshot)
    (harchive : s'.pm.disk.archive = s.pm.disk.archive)
    (hfinished : s'.dropped = true → s'.work = none) : s'.Settled := by
  refine ⟨hfinished, fun _ _ => ?_⟩
  rw [harchive, Disk.snapshotSequence, hsnapshot]
  exact h.covered hbefore.1 hbefore.2

/-- The holder of the persistence lock goes on. -/
theorem Managed.Settled.advance (h : s.Settled) (hgapless : s.Gapless H archived active)
    {work : Work} (hwork : s.work = some work) (hstep : s.advance H work = some s') :
    s'.Settled := by
  have hdropped : s.dropped = false := by
    cases hdropped : s.dropped with
    | false => rfl
    | true =>
      rw [h.finished hdropped] at hwork
      cases hwork
  have hstage := hgapless.stage
  rw [Managed.StageOk, hwork] at hstage
  cases work with
  | flushing ops purpose =>
    have hbefore : s.work ≠ some .renamed ∧ s.work ≠ some .closed := by
      rw [hwork]
      exact ⟨nofun, nofun⟩
    cases ops with
    | cons op ops =>
      rw [Managed.advance] at hstep
      split at hstep
      · cases hstep
      · obtain rfl := Option.some.inj hstep
        obtain ⟨hsnapshot, harchive⟩ := files_logOperationSync (H := H) s.pm op
        refine h.same hbefore hsnapshot harchive fun hafter => ?_
        exact absurd (hdropped.symm.trans hafter) Bool.false_ne_true
    | nil =>
      cases purpose with
      | release =>
        obtain rfl := Option.some.inj hstep
        exact h.same hbefore rfl rfl fun _ => rfl
      | snapshot data =>
        obtain rfl := Option.some.inj hstep
        refine h.same hbefore rfl rfl fun hafter => ?_
        exact absurd (hdropped.symm.trans hafter) Bool.false_ne_true
      | drop =>
        obtain rfl := Option.some.inj hstep
        exact h.same hbefore rfl rfl fun _ => rfl
  | captured file =>
    obtain rfl := Option.some.inj hstep
    exact ⟨fun hafter => absurd (hdropped.symm.trans hafter) Bool.false_ne_true,
      fun hrenamed => absurd rfl hrenamed⟩
  | renamed =>
    rw [Managed.advance] at hstep
    split at hstep
    · cases hstep
    · obtain rfl := Option.some.inj hstep
      exact ⟨fun hafter => absurd (hdropped.symm.trans hafter) Bool.false_ne_true,
        fun _ hclosed => absurd rfl hclosed⟩
  | closed =>
    obtain rfl := Option.some.inj hstep
    -- everything logged so far is archived now, and the snapshot was taken at its end
    have harchived := hgapless.files.archive hgapless.counter hstage.2
    refine ⟨fun hafter => absurd (hdropped.symm.trans hafter) Bool.false_ne_true,
      fun _ _ => ?_⟩
    have hlow := harchived.covers
    have hhigh := harchived.within
    rw [List.append_nil] at hhigh
    show s.pm.archiveWal.disk.snapshotSequence =
      (s.pm.archiveWal.disk.archive.flatMap Prod.snd).length
    rw [harchived.segments, List.length_map]
    omega
  | archived =>
    rw [Managed.advance] at hstep
    split at hstep
    · cases hstep
    · obtain rfl := Option.some.inj hstep
      have hbefore : s.work ≠ some .renamed ∧ s.work ≠ some .closed := by
        rw [hwork]
        exact ⟨nofun, nofun⟩
      exact h.same hbefore rfl rfl fun _ => rfl

/-- The flusher appends to the WAL only. -/
theorem files_flush (s : Managed) : (s.flush H).pm.disk.snapshot = s.pm.disk.snapshot ∧
    (s.flush H).pm.disk.archive = s.pm.disk.archive ∧ (s.flush H).work = s.work ∧
    (s.flush H).dropped = s.dropped := by
  rw [Managed.flush]
  split
  · exact ⟨rfl, rfl, rfl, rfl⟩
  · split
    · exact ⟨rfl, rfl, rfl, rfl⟩
    · exact ⟨rfl, rfl, rfl, rfl⟩
  · exact ⟨rfl, rfl, rfl, rfl⟩
  · exact ⟨rfl, rfl, rfl, rfl⟩

/-- **One step** that does not end the process. -/
theorem Managed.Settled.step (h : s.Settled) (hgapless : s.Gapless H archived active)
    {st : ManagedStep} (hsafe : st.safe s = true) (hcrash : st ≠ .crash)
    (hstep : s.step H st = some s') : s'.Settled := by
  have hfree : s.free = true → s.dropped = false ∧ s.work = none := by
    intro hfree
    rw [Managed.free, Bool.and_eq_true] at hfree
    exact ⟨by simpa using hfree.1, Option.isNone_iff_eq_none.mp hfree.2⟩
  have hnone : s.work = none → s.work ≠ some .renamed ∧ s.work ≠ some .closed := by
    intro hwork
    rw [hwork]
    exact ⟨nofun, nofun⟩
  cases st with
  | log op =>
    rw [Managed.step] at hstep
    split at hstep
    · rename_i hgo
      obtain rfl := Option.some.inj hstep
      obtain ⟨-, hwork⟩ := hfree (Bool.and_eq_true_iff.mp hgo).1
      obtain ⟨hsnapshot, harchive⟩ := files_logOperationSync (H := H) s.pm op
      exact h.same (hnone hwork) hsnapshot harchive fun _ => hwork
    · cases hstep
  | enqueue op =>
    rw [Managed.step] at hstep
    split at hstep
    · rename_i hgo
      obtain rfl := Option.some.inj hstep
      obtain ⟨-, hwork⟩ := hfree hgo
      exact h.same (hnone hwork) rfl rfl fun _ => hwork
    · cases hstep
  | begin purpose =>
    rw [Managed.step] at hstep
    split at hstep
    · rename_i hgo
      obtain rfl := Option.some.inj hstep
      obtain ⟨hdropped, hwork⟩ := hfree hgo
      refine h.same (hnone hwork) rfl rfl fun hafter => ?_
      exact absurd (hdropped.symm.trans hafter) Bool.false_ne_true
    · cases hstep
  | advance =>
    obtain ⟨work, hwork, hadvance⟩ := Option.bind_eq_some_iff.mp hstep
    exact h.advance hgapless hwork hadvance
  | flusher =>
    obtain rfl := Option.some.inj hstep
    obtain ⟨hsnapshot, harchive, hwork, hdropped⟩ := files_flush (H := H) s
    refine ⟨fun hafter => ?_, fun hrenamed hclosed => ?_⟩
    · rw [hwork]
      exact h.finished (hdropped ▸ hafter)
    · rw [hwork] at hrenamed hclosed
      rw [harchive, Disk.snapshotSequence, hsnapshot]
      exact h.covered hrenamed hclosed
  | stale i => cases hsafe
  | crash => exact absurd rfl hcrash
  | reopen =>
    rw [Managed.step] at hstep
    split at hstep
    · rename_i hdropped
      obtain rfl := Option.some.inj hstep
      exact h.same (hnone (h.finished hdropped)) rfl rfl fun _ => rfl
    · cases hstep

/-- **A run** of which no process ends inside of a step. -/
theorem Managed.Settled.run {steps : List ManagedStep} (h : s.Settled)
    (hgapless : s.Gapless H archived active) (hsafe : s.safeRun H steps = true)
    (hcrash : .crash ∉ steps) (hrun : s.run H steps = some s') : s'.Settled := by
  induction steps generalizing s archived active with
  | nil =>
    obtain rfl := Option.some.inj hrun
    exact h
  | cons st sts ih =>
    obtain ⟨next, hstep, hrest⟩ := Option.bind_eq_some_iff.mp hrun
    rw [Managed.safeRun, hstep, Bool.and_eq_true] at hsafe
    rw [List.mem_cons, not_or] at hcrash
    obtain ⟨archived', active', hnext⟩ := hgapless.step hsafe.1 hstep
    exact ih (h.step hgapless hsafe.1 (Ne.symm hcrash.1) hstep) hnext hsafe.2 hcrash.2 hrest

end Settled

end Kv
end RustyDB
