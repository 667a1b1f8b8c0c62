import Mathlib
import RustyDB.Lib.LineFile
import RustyDB.Kv.Flush

/-!
# The KV log as bytes: torn lines and reopening

`log_operation_sync` appends one line of JSON to `rustydb.wal`.  A crash can leave
the beginning of a line at the end of the file, and the next `open` appends right
behind it.  Here the file is its bytes, and the readers see the lines that
`BufReader::lines` makes of them.

* `KvCodec`, `KvCodec.Lawful` — what `serde_json` writes and reads.
* `recoverLines`, `scanLines`, `openFile` — the readers of the WAL file, over the
  line reader of the store's model (`recoverLines_eq`).
* `CrashEvent`, `CrashLog.step`, `CrashLog.run` — runs, crashes and reopenings.
* `CrashEvent.Untorn` — nothing is written behind a torn line, and a torn line is
  UTF-8.
* `crash_durable` — **in such a history every acknowledged operation is
  recovered**; `torn_line_swallows_write` loses one.
-/

namespace RustyDB
namespace Kv

open LineFile

/-! ## The text of a record -/

/-- `serde_json` on the lines of the WAL. -/
structure KvCodec where
  /-- `to_string` of a record. -/
  encode : KvWalRecord → String
  /-- `from_str::<KvWalRecord>`. -/
  decode : String → Option KvWalRecord
  /-- `from_str::<Operation>`. -/
  decodeOperation : String → Option Operation

/-- What the store relies on for one record: its text is one line of JSON, which is
read back, while no beginning of it is JSON. -/
structure KvCodec.Lawful (C : KvCodec) (r : KvWalRecord) : Prop where
  plain : Plain (C.encode r)
  nonblank : isBlank (C.encode r) = false
  decode_encode : C.decode (C.encode r) = some r
  torn : ∀ text, utf8 text <+: utf8 (C.encode r) → text ≠ C.encode r →
    C.decode text = none ∧ C.decodeOperation text = none

/-- How `recover` reads one line. -/
def KvCodec.readLine (C : KvCodec) (text : String) : WalLine :=
  if isBlank text then .blank
  else
    match C.decode text with
    | some r => .record r
    | none =>
      match C.decodeOperation text with
      | some op => .operation op
      | none => .unreadable

/-! ## Reading the file -/

/-- The WAL loop of `PersistenceManager::recover` over the lines of the file; `none` is
a line that is not UTF-8. -/
def recoverLines (H : KvHost) (C : KvCodec) : List (Option String) →
    Except String (List Operation)
  | [] => .ok []
  | none :: _ => .error "Failed to read line: stream did not contain valid UTF-8"
  | some text :: ls =>
    match C.readLine text with
    | .blank => recoverLines H C ls
    | .record r =>
      if r.valid H then (recoverLines H C ls).map (r.operation :: ·) else .ok []
    | .operation op => (recoverLines H C ls).map (op :: ·)
    | .unreadable => recoverLines H C ls

/-- The WAL part of `scan_max_sequence`, which ends at a line that is not UTF-8. -/
def scanLines (H : KvHost) (C : KvCodec) : List (Option String) → Nat
  | [] => 0
  | none :: _ => 0
  | some text :: ls =>
    match C.decode text with
    | some r => if r.valid H then max r.sequence (scanLines H C ls) else scanLines H C ls
    | none => scanLines H C ls

/-- `KVStore::open` on a directory with only the WAL: the next sequence number and the
map. -/
def openFile (H : KvHost) (C : KvCodec) (file : Bytes) : Except String (Nat × Data) := do
  let ops ← recoverLines H C (lines file)
  pure (scanLines H C (lines file) + 1, ops.foldl applyOperation ∅)

/-- On a file of text the reader is the one of the store's model. -/
theorem recoverLines_eq (H : KvHost) (C : KvCodec) (texts : List String) :
    recoverLines H C (texts.map some) = .ok (walOperations H (texts.map C.readLine)) := by
  induction texts with
  | nil => rfl
  | cons text texts ih =>
    simp only [List.map_cons, recoverLines]
    cases hread : C.readLine text with
    | blank => simpa [walOperations] using ih
    | record r => by_cases hvalid : r.valid H <;> simp [walOperations, hvalid, ih, Except.map]
    | operation op => simp [walOperations, ih, Except.map]
    | unreadable => simpa [walOperations] using ih

/-! ## Crashes -/

/-- What happens to a store and its directory. -/
inductive CrashEvent where
  /-- `KVStore::open`. -/
  | reopen
  /-- An acknowledged `set`, `delete` or `clear`. -/
  | write (op : Operation)
  /-- The process stops, with the first `kept` bytes of the line of one further
  operation in the file. -/
  | crash (op : Operation) (kept : Nat)
  deriving DecidableEq, Repr

/-- The WAL file, and the sequence counter of the process that has it open. -/
structure CrashLog where
  file : Bytes := []
  nextSequence : Option Nat := none
  deriving DecidableEq

namespace CrashLog

variable (H : KvHost) (C : KvCodec)

/-- The line the running process appends for an operation. -/
def lineOf (sequence : Nat) (op : Operation) : Bytes := line (C.encode (.new H sequence op))

/-- One event; `none` when it is not one that can happen. -/
def step (s : CrashLog) : CrashEvent → Option CrashLog
  | .reopen =>
    match s.nextSequence with
    | some _ => none
    | none =>
      match openFile H C s.file with
      | .error _ => some s
      | .ok (sequence, _) => some { s with nextSequence := some sequence }
  | .write op =>
    match s.nextSequence with
    | none => none
    | some sequence => some
        { file := s.file ++ lineOf H C sequence op, nextSequence := some (sequence + 1) }
  | .crash op kept =>
    match s.nextSequence with
    | none => none
    | some sequence =>
      if kept < (lineOf H C sequence op).length then
        some { file := s.file ++ (lineOf H C sequence op).take kept, nextSequence := none }
      else none

/-- A history of events. -/
def run (s : CrashLog) : List CrashEvent → Option CrashLog
  | [] => some s
  | e :: es => (s.step H C e).bind fun s' => run s' es

end CrashLog

/-- The record of the line an event writes. -/
def CrashEvent.record (H : KvHost) (s : CrashLog) : CrashEvent → Option KvWalRecord
  | .reopen => none
  | .write op => s.nextSequence.map fun sequence => .new H sequence op
  | .crash op _ => s.nextSequence.map fun sequence => .new H sequence op

/-- The records of the lines a history writes. -/
def CrashLog.records (H : KvHost) (C : KvCodec) (s : CrashLog) :
    List CrashEvent → List KvWalRecord
  | [] => []
  | e :: es => (e.record H s).toList ++
      match s.step H C e with
      | none => []
      | some s' => CrashLog.records H C s' es

/-- What may come of the operations of a history: the acknowledged ones in order, and
the torn ones or not. -/
def outcomes : List CrashEvent → List (List Operation)
  | [] => [[]]
  | .reopen :: es => outcomes es
  | .write op :: es => (outcomes es).map (op :: ·)
  | .crash op _ :: es => outcomes es ++ (outcomes es).map (op :: ·)

/-- Nothing is written behind a torn line, and a line is not torn inside a character. -/
def CrashEvent.Untorn (H : KvHost) (C : KvCodec) (s : CrashLog) : CrashEvent → Prop
  | .reopen => True
  | .write _ => Clean s.file
  | .crash op kept => kept = 0 ∨ Clean s.file ∧ ∀ sequence ∈ s.nextSequence,
      decode ((CrashLog.lineOf H C sequence op).take kept) ≠ none

instance (H : KvHost) (C : KvCodec) (s : CrashLog) : (e : CrashEvent) →
    Decidable (e.Untorn H C s)
  | .reopen => isTrue trivial
  | .write _ => inferInstanceAs (Decidable (Clean s.file))
  | .crash op kept => inferInstanceAs (Decidable (kept = 0 ∨ Clean s.file ∧
      ∀ sequence ∈ s.nextSequence,
        decode ((CrashLog.lineOf H C sequence op).take kept) ≠ none))

/-- A history all of whose events are so where they happen. -/
def CrashLog.UntornRun (H : KvHost) (C : KvCodec) (s : CrashLog) : List CrashEvent → Prop
  | [] => True
  | e :: es => e.Untorn H C s ∧ ∀ s' ∈ s.step H C e, CrashLog.UntornRun H C s' es

instance decidableUntornRun (H : KvHost) (C : KvCodec) : (es : List CrashEvent) →
    (s : CrashLog) → Decidable (s.UntornRun H C es)
  | [], _ => isTrue trivial
  | e :: es, s =>
    have := decidableUntornRun H C es
    inferInstanceAs (Decidable (e.Untorn H C s ∧ ∀ s' ∈ s.step H C e, s'.UntornRun H C es))

/-! ## What the file holds -/

/-- Every line of the file is text, no record is invalid, and the operations are `ops`. -/
structure CrashLog.Holds (H : KvHost) (C : KvCodec) (s : CrashLog) (ops : List Operation) :
    Prop where
  exists_texts : ∃ texts : List String, lines s.file = texts.map some ∧
    (∀ r, .record r ∈ texts.map C.readLine → r.valid H = true) ∧
    walOperations H (texts.map C.readLine) = ops

section Steps

variable {H : KvHost} {C : KvCodec} {s s' : CrashLog} {ops : List Operation}

theorem KvCodec.Lawful.readLine_encode {r : KvWalRecord} (h : C.Lawful r) :
    C.readLine (C.encode r) = .record r := by
  simp [readLine, h.nonblank, h.decode_encode]

/-- A proper beginning of a record's text is skipped. -/
theorem KvCodec.Lawful.readLine_torn {r : KvWalRecord} (h : C.Lawful r) {text : String}
    (hbegin : utf8 text <+: utf8 (C.encode r)) (hne : text ≠ C.encode r) :
    C.readLine text = .blank ∨ C.readLine text = .unreadable := by
  obtain ⟨hrecord, hoperation⟩ := h.torn text hbegin hne
  by_cases hblank : isBlank text = true
  · exact Or.inl (by simp [readLine, hblank])
  · exact Or.inr (by simp [readLine, hblank, hrecord, hoperation])

/-- One more line that is a valid record. -/
theorem CrashLog.Holds.record (h : s.Holds H C ops) {sequence : Nat} {op : Operation}
    (hC : C.Lawful (.new H sequence op))
    (hlines : lines s'.file = lines s.file ++ [some (C.encode (.new H sequence op))]) :
    s'.Holds H C (ops ++ [op]) := by
  obtain ⟨texts, htexts, hvalid, hops⟩ := h.exists_texts
  refine ⟨texts ++ [C.encode (.new H sequence op)], by simp [hlines, htexts], ?_, ?_⟩
  · intro r hr
    rw [List.map_append, List.mem_append] at hr
    rcases hr with hr | hr
    · exact hvalid r hr
    · simp only [List.map_cons, List.map_nil, List.mem_singleton, hC.readLine_encode,
        WalLine.record.injEq] at hr
      rw [hr]
      exact KvWalRecord.valid_new H sequence op
  · rw [List.map_append, walOperations_append hvalid, hops]
    rw [List.map_singleton, hC.readLine_encode, walOperations,
      if_pos (KvWalRecord.valid_new H sequence op)]
    rfl

/-- One more line that is skipped. -/
theorem CrashLog.Holds.skipped (h : s.Holds H C ops) {text : String}
    (htext : C.readLine text = .blank ∨ C.readLine text = .unreadable)
    (hlines : lines s'.file = lines s.file ++ [some text]) : s'.Holds H C ops := by
  obtain ⟨texts, htexts, hvalid, hops⟩ := h.exists_texts
  refine ⟨texts ++ [text], by simp [hlines, htexts], ?_, ?_⟩
  · intro r hr
    rw [List.map_append, List.mem_append] at hr
    rcases hr with hr | hr
    · exact hvalid r hr
    · rcases htext with htext | htext <;> simp [htext] at hr
  · rw [List.map_append, walOperations_append hvalid, hops]
    rcases htext with htext | htext <;> simp [walOperations, htext]

theorem CrashLog.Holds.same (h : s.Holds H C ops) (hlines : lines s'.file = lines s.file) :
    s'.Holds H C ops := by
  obtain ⟨texts, htexts, hrest⟩ := h.exists_texts
  exact ⟨texts, by rw [hlines, htexts], hrest⟩

/-- The next `open` applies the operations the file holds. -/
theorem CrashLog.Holds.openFile (h : s.Holds H C ops) :
    ∃ sequence, Kv.openFile H C s.file = .ok (sequence, ops.foldl applyOperation ∅) := by
  obtain ⟨texts, htexts, -, hops⟩ := h.exists_texts
  refine ⟨scanLines H C (lines s.file) + 1, ?_⟩
  rw [Kv.openFile, htexts, recoverLines_eq, hops]
  rfl

/-- A crash leaves the operations as they were, or the torn one behind them. -/
theorem CrashLog.Holds.torn (h : s.Holds H C ops) (hclean : Clean s.file) {sequence kept : Nat}
    {op : Operation} (hC : C.Lawful (.new H sequence op))
    (hkept : kept < (CrashLog.lineOf H C sequence op).length)
    (hutf8 : decode ((CrashLog.lineOf H C sequence op).take kept) ≠ none)
    (hfile : s'.file = s.file ++ (CrashLog.lineOf H C sequence op).take kept) :
    s'.Holds H C ops ∨ s'.Holds H C (ops ++ [op]) := by
  obtain ⟨text, htext⟩ := Option.ne_none_iff_exists'.mp hutf8
  obtain ⟨hbegin, hlines⟩ := lines_append_torn hclean hC.plain hkept htext
  rcases hlines with hlines | hlines
  · exact Or.inl (h.same (by rw [hfile]; exact hlines))
  · by_cases hwhole : text = C.encode (.new H sequence op)
    · exact Or.inr (h.record hC (by rw [hfile, ← hwhole]; exact hlines))
    · exact Or.inl (h.skipped (hC.readLine_torn hbegin hwhole) (by rw [hfile]; exact hlines))

/-- **One event** on a file that holds `ops`: afterwards it holds what the event may
have added. -/
theorem CrashLog.Holds.step (h : s.Holds H C ops) {e : CrashEvent}
    (hclean : e.Untorn H C s) (hC : ∀ r ∈ e.record H s, C.Lawful r)
    (hstep : s.step H C e = some s') :
    ∃ added ∈ outcomes [e], s'.Holds H C (ops ++ added) := by
  cases e with
  | reopen =>
    refine ⟨[], by simp [outcomes], ?_⟩
    rw [List.append_nil]
    refine h.same ?_
    rw [CrashLog.step] at hstep
    split at hstep
    · cases hstep
    · split at hstep <;> cases hstep <;> rfl
  | write op =>
    refine ⟨[op], by simp [outcomes], ?_⟩
    rw [CrashLog.step] at hstep
    split at hstep
    · cases hstep
    · rename_i sequence hnext
      cases hstep
      have hlaw : C.Lawful (.new H sequence op) := hC _ (by simp [CrashEvent.record, hnext])
      exact h.record hlaw (lines_append_line hclean hlaw.plain)
  | crash op kept =>
    rw [CrashLog.step] at hstep
    split at hstep
    · cases hstep
    · rename_i sequence hnext
      split at hstep
      · rename_i hkept
        have hfile := congrArg CrashLog.file (Option.some.inj hstep).symm
        have hlaw : C.Lawful (.new H sequence op) := hC _ (by simp [CrashEvent.record, hnext])
        rcases hclean with rfl | ⟨hclean, hutf8⟩
        · exact ⟨[], by simp [outcomes], by simpa using h.same (by simp [hfile])⟩
        · rcases h.torn hclean hlaw hkept (hutf8 sequence hnext) hfile with hheld | hheld
          · exact ⟨[], by simp [outcomes], by simpa using hheld⟩
          · exact ⟨[op], by simp [outcomes], hheld⟩
      · cases hstep

theorem outcomes_cons {e : CrashEvent} {es : List CrashEvent} {first rest : List Operation}
    (hfirst : first ∈ outcomes [e]) (hrest : rest ∈ outcomes es) :
    first ++ rest ∈ outcomes (e :: es) := by
  cases e <;> simp [outcomes] at hfirst ⊢
  · simpa [hfirst] using hrest
  · simpa [hfirst] using hrest
  · rcases hfirst with rfl | rfl <;> simp [hrest]

/-- A whole history, by induction over its events. -/
theorem CrashLog.Holds.run (h : s.Holds H C ops) {es : List CrashEvent}
    (huntorn : s.UntornRun H C es) (hC : ∀ r ∈ s.records H C es, C.Lawful r)
    (hrun : s.run H C es = some s') :
    ∃ added ∈ outcomes es, s'.Holds H C (ops ++ added) := by
  induction es generalizing s ops with
  | nil =>
    cases hrun
    exact ⟨[], by simp [outcomes], by simpa using h⟩
  | cons e es ih =>
    obtain ⟨next, hnext, hrest⟩ := Option.bind_eq_some_iff.mp hrun
    simp only [CrashLog.records, hnext, List.mem_append] at hC
    obtain ⟨first, hfirst, hheld⟩ := h.step huntorn.1
      (fun r hr => hC r (Or.inl (by simpa using hr)))
      hnext
    obtain ⟨rest, hmem, hfinal⟩ := ih hheld (huntorn.2 next hnext) (fun r hr => hC r (Or.inr hr))
      hrest
    exact ⟨first ++ rest, outcomes_cons hfirst hmem, by rwa [← List.append_assoc]⟩

theorem CrashLog.holds_empty (H : KvHost) (C : KvCodec) : ({} : CrashLog).Holds H C [] :=
  ⟨[], rfl, by simp, rfl⟩

end Steps

/-- **KV crash durability.**  From an empty directory, after any history of `open`,
acknowledged operations and crashes in which nothing is written behind a torn line and
no torn line ends inside a character, the next `open` succeeds and rebuilds the result
of all acknowledged operations in order, each torn one applied or not. -/
theorem crash_durable (H : KvHost) (C : KvCodec) (es : List CrashEvent) (s : CrashLog)
    (hrun : ({} : CrashLog).run H C es = some s) (huntorn : ({} : CrashLog).UntornRun H C es)
    (hC : ∀ r ∈ ({} : CrashLog).records H C es, C.Lawful r) :
    ∃ ops ∈ outcomes es, ∃ sequence,
      openFile H C s.file = .ok (sequence, ops.foldl applyOperation ∅) := by
  obtain ⟨ops, hops, hheld⟩ := (CrashLog.holds_empty H C).run huntorn hC hrun
  exact ⟨ops, hops, hheld.openFile⟩

/-! ## Two histories -/

/-- The JSON of an operation whose strings need no escapes. -/
def operationText : Operation → String
  | .set key value =>
    "\x7b\"Set\":\x7b\"key\":\"" ++ key ++ "\",\"value\":\"" ++ value ++ "\"\x7d\x7d"
  | .delete key => "\x7b\"Delete\":\x7b\"key\":\"" ++ key ++ "\"\x7d\x7d"
  | .clear => "\"Clear\""

/-- The JSON of a record whose strings need no escapes. -/
def recordText (r : KvWalRecord) : String :=
  "\x7b\"format_version\":" ++ toString r.formatVersion ++ ",\"sequence\":" ++
    toString r.sequence ++ ",\"timestamp_millis\":" ++ toString r.timestampMillis ++
    ",\"operation\":" ++ operationText r.operation ++ ",\"checksum\":" ++
    toString r.checksum ++ "\x7d"

/-- A clock, and the CRC-32 of the records below. -/
def sampleHost : KvHost where
  nowMillis sequence := 1700000000000 + sequence
  checksum sequence _ op :=
    match sequence, op with
    | 1, .set "a" "1" => 4081606117
    | 2, .set "b" "2" => 2686797741
    | 2, .set "c" "3" => 3069292889
    | 3, .set "c" "3" => 2432807317
    | _, _ => 0

/-- The records of the counterexamples, in the order of their calls. -/
def sampleRecords : List KvWalRecord :=
  [.new sampleHost 1 (.set "a" "1"), .new sampleHost 2 (.set "b" "2"),
    .new sampleHost 2 (.set "c" "3"), .new sampleHost 3 (.set "c" "3")]

/-- `serde_json` on the texts of these records and on texts that are no records. -/
def sampleCodec : KvCodec where
  encode := recordText
  decode text := sampleRecords.find? fun r => recordText r == text
  decodeOperation _ := none

theorem isBlank_recordText (r : KvWalRecord) : isBlank (recordText r) = false := by
  iterate 10 apply isBlank_append_of_left
  decide +kernel

/-- The texts of the sample records have one length, so that none is the beginning of
another. -/
theorem sampleCodec_lawful : ∀ r ∈ sampleRecords, sampleCodec.Lawful r := by
  have hplain : ∀ r ∈ sampleRecords, newline ∉ utf8 (recordText r) ∧
      (utf8 (recordText r)).getLast? ≠ some carriageReturn := by decide +kernel
  have hdecode : ∀ r ∈ sampleRecords, sampleCodec.decode (recordText r) = some r := by
    decide +kernel
  have hlength : ∀ r ∈ sampleRecords, (utf8 (recordText r)).length = 132 := by decide +kernel
  intro r hr
  refine ⟨⟨(hplain r hr).1, (hplain r hr).2⟩, isBlank_recordText r, hdecode r hr, ?_⟩
  intro text htext hne
  refine ⟨?_, rfl⟩
  show sampleRecords.find? (fun r => recordText r == text) = none
  rw [List.find?_eq_none]
  intro r' hr' heq
  have heq : recordText r' = text := by simpa using heq
  subst heq
  exact hne (utf8_injective (htext.eq_of_length ((hlength r' hr').trans (hlength r hr).symm)))

/-- A crash between two lines, then one that leaves the beginning of a line. -/
def tornLast : List CrashEvent :=
  [.reopen, .write (.set "a" "1"), .crash (.set "c" "3") 0, .reopen, .write (.set "b" "2"),
    .crash (.set "c" "3") 40, .reopen]

theorem torn_last_recovered :
    ∃ s, ({} : CrashLog).run sampleHost sampleCodec tornLast = some s ∧
      ∃ ops ∈ outcomes tornLast, ∃ sequence,
        openFile sampleHost sampleCodec s.file = .ok (sequence, ops.foldl applyOperation ∅) := by
  obtain ⟨s, hs⟩ : ∃ s, ({} : CrashLog).run sampleHost sampleCodec tornLast = some s :=
    Option.isSome_iff_exists.mp (by decide +kernel)
  have hrecords : ∀ r ∈ ({} : CrashLog).records sampleHost sampleCodec tornLast,
      r ∈ sampleRecords := by decide +kernel
  exact ⟨s, hs, crash_durable sampleHost sampleCodec tornLast s hs (by decide +kernel)
    fun r hr => sampleCodec_lawful r (hrecords r hr)⟩

/-- A line torn after its first byte, and an acknowledged write of the next run. -/
def tornBetween : List CrashEvent :=
  [.reopen, .write (.set "a" "1"), .crash (.set "b" "2") 1, .reopen, .write (.set "c" "3")]

/-- **The write of the next run is lost**: its line is glued to the torn one. -/
theorem torn_line_swallows_write :
    (∀ r ∈ ({} : CrashLog).records sampleHost sampleCodec tornBetween, sampleCodec.Lawful r) ∧
    ∃ s, ({} : CrashLog).run sampleHost sampleCodec tornBetween = some s ∧
      ¬ ∃ ops ∈ outcomes tornBetween, ∃ sequence,
        openFile sampleHost sampleCodec s.file = .ok (sequence, ops.foldl applyOperation ∅) := by
  have hrecords : ∀ r ∈ ({} : CrashLog).records sampleHost sampleCodec tornBetween,
      r ∈ sampleRecords := by decide +kernel
  have hvalue : ∀ ops ∈ outcomes tornBetween,
      (ops.foldl applyOperation (∅ : Data)).lookup "c" = some "3" := by decide +kernel
  have hlost : (({} : CrashLog).run sampleHost sampleCodec tornBetween).map (fun s =>
      (openFile sampleHost sampleCodec s.file).toOption.map fun r => r.2.lookup "c") =
      some (some none) := by decide +kernel
  obtain ⟨s, hs, hopened⟩ := Option.map_eq_some_iff.mp hlost
  refine ⟨fun r hr => sampleCodec_lawful r (hrecords r hr), s, hs, ?_⟩
  rintro ⟨ops, hops, sequence, hopen⟩
  simp [hopen, Except.toOption, hvalue ops hops] at hopened

end Kv
end RustyDB
