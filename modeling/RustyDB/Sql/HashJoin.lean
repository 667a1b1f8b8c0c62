import Mathlib
import RustyDB.Sql.HashKeys
import RustyDB.Sql.JoinScan

/-!
# The two join loops

`join_relations` runs through all pairs of rows; where the condition is an equality of two
columns, `hash_join` looks the left row up in a map of the right rows instead.  Here are both
loops, with their accumulators.

* `joinLoop_eq` — either loop, once it is known which right rows a left row matches.
* `joinRelations_eq_loop` — `joinRelations` is one of the loops.
* `hash_join_eq_nested_loop` — **both loops return the same rows**.
-/

namespace RustyDB
namespace Sql

/-! ## The loops -/

/-- What the loops accumulate: the rows so far, which right rows were matched, and whether
the left row at hand was. -/
structure JoinState where
  rows : List Row
  rightMatched : List Bool
  leftMatched : Bool

/-- A pair that matches. -/
def JoinState.pair (leftRow rightRow : Row) (position : Nat) (state : JoinState) : JoinState :=
  { rows := state.rows ++ [leftRow ++ rightRow]
    rightMatched := state.rightMatched.set position true
    leftMatched := true }

/-- The end of a left row's round. -/
def JoinState.endLeft (joinType : JoinType) (rightWidth : Nat) (leftRow : Row)
    (state : JoinState) : JoinState :=
  if !state.leftMatched && joinType == .left then
    { state with rows := state.rows ++ [leftRow ++ List.replicate rightWidth Value.null] }
  else state

/-- The rows, in a RIGHT join with the right rows that were never matched. -/
def JoinState.finish (joinType : JoinType) (leftWidth : Nat) (right : List Row)
    (state : JoinState) : List Row :=
  if joinType == .right then
    state.rows ++ right.zipIdx.filterMap (fun entry =>
      if state.rightMatched.getD entry.2 false then none
      else some (List.replicate leftWidth Value.null ++ entry.1))
  else state.rows

/-- The loop over the left rows; `scan` goes through the right rows. -/
def joinLoop (scan : Row → JoinState → Except Fault JoinState) (joinType : JoinType)
    (left right : Relation) : Except Fault Relation := do
  let state ← left.rows.foldlM (fun state leftRow => do
      let state ← scan leftRow { state with leftMatched := false }
      pure (state.endLeft joinType right.columns.length leftRow))
    { rows := [], rightMatched := List.replicate right.rows.length false, leftMatched := false }
  pure { columns := left.columns ++ right.columns
         rows := state.finish joinType left.columns.length right.rows }

/-- The right rows in order, each tested with the left row. -/
def nestedScan (test : Row → Except Fault Bool) (leftRow : Row) :
    List (Row × Nat) → JoinState → Except Fault JoinState
  | [], state => .ok state
  | (rightRow, position) :: candidates, state => do
    let matched ← test (leftRow ++ rightRow)
    nestedScan test leftRow candidates
      (if matched then state.pair leftRow rightRow position else state)

/-- The nested loop of `join_relations`. -/
def nestedLoopJoin (left right : Relation) (joinType : JoinType)
    (test : List BoundColumn → Row → Except Fault Bool) : Except Fault Relation :=
  joinLoop (fun leftRow =>
    nestedScan (test (left.columns ++ right.columns)) leftRow right.rows.zipIdx) joinType left right

/-- The positions of the right rows, by the key of their value. -/
abbrev RightMap := Std.HashMap String (List Nat)

/-- One step of the build side of a hash join: a row enters under the key of its value. -/
def enterRow (rightIndex : Nat) (rightMap : RightMap) (entry : Row × Nat) :
    Except Fault RightMap := do
  let value ← rowAt entry.1 rightIndex
  pure (if value.isNull then rightMap
    else rightMap.alter (hashJoinKey value) (fun positions =>
      some (positions.getD [] ++ [entry.2])))

/-- The right rows at some positions, each compared with the left row's value. -/
def probeScan (H : Host) (leftRow : Row) (value : Value) (rightIndex : Nat) (right : List Row) :
    List Nat → JoinState → Except Fault JoinState
  | [], state => .ok state
  | position :: positions, state =>
    match right[position]? with
    | none => .error .panic
    | some rightRow => do
      let candidate ← rowAt rightRow rightIndex
      if value.compareSql H.lowercase candidate .equal = .true then
        probeScan H leftRow value rightIndex right positions (state.pair leftRow rightRow position)
      else probeScan H leftRow value rightIndex right positions state

/-- The right rows that the map has under the left row's value. -/
def hashScan (H : Host) (leftIndex rightIndex : Nat) (right : List Row) (rightMap : RightMap)
    (leftRow : Row) (state : JoinState) : Except Fault JoinState := do
  let value ← rowAt leftRow leftIndex
  let found := if value.isNull then none else rightMap[hashJoinKey value]?
  match found with
  | none => pure state
  | some positions => probeScan H leftRow value rightIndex right positions state

/-- `hash_join`. -/
def hashLoopJoin (H : Host) (left right : Relation) (joinType : JoinType)
    (leftIndex rightIndex : Nat) : Except Fault Relation := do
  let rightMap ← right.rows.zipIdx.foldlM (enterRow rightIndex) ∅
  joinLoop (hashScan H leftIndex rightIndex right.rows rightMap) joinType left right

/-! ## A round -/

/-- The right rows with a flag. -/
def flagged (entries : List (Row × Nat)) (flags : List Bool) : List (Row × Nat) :=
  (entries.zip flags).filterMap (fun candidate =>
    if candidate.2 then some candidate.1 else none)

/-- Without a flag there is no row. -/
theorem flagged_of_false (entries : List (Row × Nat)) {flags : List Bool}
    (h : ∀ flag ∈ flags, flag = false) : flagged entries flags = [] := by
  refine List.filterMap_eq_nil_iff.mpr ?_
  intro candidate hmem
  rw [h candidate.2 (List.of_mem_zip hmem).2]
  rfl

theorem flagged_cons (entry : Row × Nat) (entries : List (Row × Nat)) (flag : Bool)
    (flags : List Bool) : flagged (entry :: entries) (flag :: flags) =
      if flag then entry :: flagged entries flags else flagged entries flags := by
  cases flag <;> rfl

/-- A left row paired with right rows, in order. -/
def JoinState.pairs (leftRow : Row) (entries : List (Row × Nat)) (state : JoinState) : JoinState :=
  entries.foldl (fun state entry => state.pair leftRow entry.1 entry.2) state

/-- The nested loop pairs the rows that pass the test. -/
theorem nestedScan_eq (test : Row → Except Fault Bool) (leftRow : Row)
    (entries : List (Row × Nat)) (state : JoinState) :
    nestedScan test leftRow entries state =
      (entries.mapM fun entry => test (leftRow ++ entry.1)).map (fun flags =>
        state.pairs leftRow (flagged entries flags)) := by
  induction entries generalizing state with
  | nil => rfl
  | cons entry entries ih =>
    obtain ⟨rightRow, position⟩ := entry
    rw [nestedScan, List.mapM_cons]
    cases htest : test (leftRow ++ rightRow) with
    | error fault => rfl
    | ok matched =>
      rw [Result.ok_bind, Result.ok_bind, ih]
      cases hrest : entries.mapM fun entry => test (leftRow ++ entry.1) with
      | error fault => rfl
      | ok flags => cases matched <;> rfl

/-- The positions that the map of the right rows has under a key. -/
def positionsOf (key : String) (entries : List ((Option String × Value) × Nat)) : List Nat :=
  entries.filterMap (fun entry => if entry.1.1 == some key then some entry.2 else none)

theorem positionsOf_cons (key : String) (entry : Option String × Value) (position : Nat)
    (entries : List ((Option String × Value) × Nat)) :
    positionsOf key ((entry, position) :: entries) =
      if entry.1 == some key then position :: positionsOf key entries
      else positionsOf key entries := by
  unfold positionsOf
  rw [List.filterMap_cons]
  cases entry.1 == some key <;> rfl

/-- The map built so far, under a key. -/
def RightMap.positions (rightMap : RightMap) (key : String) : List Nat :=
  rightMap[key]?.getD []

/-- The same step on a row whose key is known. -/
def enterEntry (rightMap : RightMap) (entry : (Option String × Value) × Nat) : RightMap :=
  match entry.1.1 with
  | none => rightMap
  | some key => rightMap.alter key (fun positions => some (positions.getD [] ++ [entry.2]))

/-- Entering the rows evaluates their keys first. -/
theorem foldlM_enterRow (rightIndex : Nat) (rows : List Row) (k : Nat) (rightMap : RightMap) :
    (rows.zipIdx k).foldlM (enterRow rightIndex) rightMap =
      (rows.mapM (hashEntry rightIndex)).map (fun entries =>
        (entries.zipIdx k).foldl enterEntry rightMap) := by
  induction rows generalizing k rightMap with
  | nil => rfl
  | cons row rows ih =>
    rw [List.zipIdx_cons, List.foldlM_cons, List.mapM_cons, enterRow, hashEntry]
    cases hvalue : rowAt row rightIndex with
    | error fault => rfl
    | ok value =>
      simp only [Result.ok_bind, Result.pure_eq_ok]
      rw [ih]
      cases hrest : rows.mapM (hashEntry rightIndex) with
      | error fault => rfl
      | ok entries => cases value.isNull <;> simp [Except.map, enterEntry]

theorem positions_enterEntry (rightMap : RightMap) (entry : (Option String × Value) × Nat)
    (key : String) : (enterEntry rightMap entry).positions key =
      rightMap.positions key ++ positionsOf key [entry] := by
  obtain ⟨⟨entryKey, value⟩, position⟩ := entry
  cases entryKey with
  | none => simp [enterEntry, positionsOf]
  | some entryKey =>
    simp only [enterEntry, RightMap.positions, Std.HashMap.getElem?_alter]
    by_cases hkey : entryKey = key
    · subst hkey
      simp [positionsOf]
    · simp [positionsOf, hkey]

theorem positions_foldl (entries : List ((Option String × Value) × Nat)) (rightMap : RightMap)
    (key : String) : (entries.foldl enterEntry rightMap).positions key =
      rightMap.positions key ++ positionsOf key entries := by
  induction entries generalizing rightMap with
  | nil => simp [positionsOf]
  | cons entry entries ih =>
    rw [List.foldl_cons, ih, positions_enterEntry, List.append_assoc]
    congr 1
    exact (List.filterMap_append (l := [entry])).symm

/-- What the hash join tests of a right row's entry. -/
def probes (H : Host) (value : Value) (entry : Option String × Value) : Bool :=
  entry.1 == some (hashJoinKey value) &&
    value.compareSql H.lowercase entry.2 .equal == .true

/-- Going through the positions under the key pairs the rows with that key that compare
equal; `rows` are the right rows from position `k` on. -/
theorem probeScan_eq (H : Host) (leftRow : Row) (value : Value) {rightIndex : Nat}
    {right rows : List Row} {entries : List (Option String × Value)}
    (hentries : List.Forall₂ (fun row entry => hashEntry rightIndex row = .ok entry) rows entries)
    {k : Nat} (hrows : right.drop k = rows) (state : JoinState) :
    probeScan H leftRow value rightIndex right
        (positionsOf (hashJoinKey value) (entries.zipIdx k)) state =
      .ok (state.pairs leftRow (flagged (rows.zipIdx k) (entries.map (probes H value)))) := by
  induction hentries generalizing k state with
  | nil => rfl
  | @cons row entry rows entries hentry _ ih =>
    have hrow : right[k]? = some row := by
      rw [← List.head?_drop, hrows, List.head?_cons]
    have hrest : right.drop (k + 1) = rows := by
      rw [← List.tail_drop, hrows, List.tail_cons]
    obtain ⟨candidate, hcandidate, hentry⟩ := Result.bind_eq_ok.mp hentry
    have hsnd : entry.2 = candidate := by rw [← Except.ok.inj hentry]
    rw [List.zipIdx_cons, List.zipIdx_cons, List.map_cons, positionsOf_cons, flagged_cons, probes,
      hsnd]
    cases hkey : entry.1 == some (hashJoinKey value) with
    | false => exact ih hrest state
    | true =>
      rw [if_pos rfl, probeScan, hrow]
      simp only [hcandidate, Result.ok_bind, Bool.true_and, beq_iff_eq]
      split_ifs with hequal
      · exact ih hrest _
      · exact ih hrest state

/-- **The hash join pairs the rows that it says it matches**, from the map of all right
rows. -/
theorem hashScan_eq (H : Host) (leftIndex : Nat) {rightIndex : Nat} {right : List Row}
    {entries : List (Option String × Value)}
    (hentries : right.mapM (hashEntry rightIndex) = .ok entries) (leftRow : Row)
    (state : JoinState) :
    hashScan H leftIndex rightIndex right (entries.zipIdx.foldl enterEntry ∅) leftRow state =
      (hashMatches H leftIndex entries leftRow).map (fun flags =>
        state.pairs leftRow (flagged right.zipIdx flags)) := by
  unfold hashScan hashMatches
  cases hvalue : rowAt leftRow leftIndex with
  | error fault => rfl
  | ok value =>
    simp only [Result.ok_bind]
    cases hnull : value.isNull with
    | true =>
      refine congrArg Except.ok ?_
      show state = state.pairs leftRow (flagged right.zipIdx (entries.map fun _ => false))
      rw [flagged_of_false]
      · rfl
      · intro flag hflag
        obtain ⟨entry, -, rfl⟩ := List.mem_map.mp hflag
        rfl
    | false =>
      have hpositions : (entries.zipIdx.foldl enterEntry ∅).positions (hashJoinKey value) =
          positionsOf (hashJoinKey value) entries.zipIdx := by
        rw [positions_foldl]
        simp [RightMap.positions]
      have hprobe := probeScan_eq H leftRow value (Result.mapM_eq_ok.mp hentries)
        (right.drop_zero) state
      rw [← hpositions, RightMap.positions] at hprobe
      simp only [Bool.false_eq_true, if_false]
      cases hfound : (entries.zipIdx.foldl enterEntry ∅)[hashJoinKey value]? with
      | none =>
        rw [hfound] at hprobe
        exact hprobe
      | some positions =>
        rw [hfound] at hprobe
        exact hprobe

/-! ## All rounds -/

/-- One round of either loop, once the flags are known. -/
def JoinState.round (joinType : JoinType) (right : Relation) (state : JoinState)
    (entry : Row × List Bool) : JoinState :=
  (JoinState.pairs entry.1 (flagged right.rows.zipIdx entry.2)
    { state with leftMatched := false }).endLeft joinType right.columns.length entry.1

theorem foldlM_round {scan : Row → JoinState → Except Fault JoinState} {joinType : JoinType}
    {right : Relation} {flags : Row → Except Fault (List Bool)}
    (hscan : ∀ leftRow state, scan leftRow state = (flags leftRow).map (fun flags =>
      state.pairs leftRow (flagged right.rows.zipIdx flags)))
    (rows : List Row) (state : JoinState) :
    rows.foldlM (fun state leftRow => do
        let state ← scan leftRow { state with leftMatched := false }
        pure (state.endLeft joinType right.columns.length leftRow)) state =
      (rows.mapM flags).map (fun matched =>
        (rows.zip matched).foldl (JoinState.round joinType right) state) := by
  induction rows generalizing state with
  | nil => rfl
  | cons row rows ih =>
    rw [List.foldlM_cons, List.mapM_cons, hscan]
    cases hrow : flags row with
    | error fault => rfl
    | ok matched =>
      have hround : (do
          let state ← (Except.ok matched).map (fun flags =>
            JoinState.pairs row (flagged right.rows.zipIdx flags)
              { state with leftMatched := false })
          pure (state.endLeft joinType right.columns.length row) : Except Fault JoinState) =
          .ok (state.round joinType right (row, matched)) := rfl
      rw [hround, Result.ok_bind, ih]
      cases rows.mapM flags <;> rfl

theorem rows_pairs (leftRow : Row) (entries : List (Row × Nat)) (state : JoinState) :
    (state.pairs leftRow entries).rows =
      state.rows ++ entries.map (fun entry => leftRow ++ entry.1) := by
  induction entries generalizing state with
  | nil => exact (List.append_nil _).symm
  | cons entry entries ih =>
    rw [JoinState.pairs, List.foldl_cons]
    refine (ih _).trans ?_
    rw [JoinState.pair, List.append_assoc]
    rfl

theorem leftMatched_pairs (leftRow : Row) (entries : List (Row × Nat)) (state : JoinState) :
    (state.pairs leftRow entries).leftMatched = (state.leftMatched || !entries.isEmpty) := by
  induction entries generalizing state with
  | nil => exact (Bool.or_false _).symm
  | cons entry entries ih =>
    rw [JoinState.pairs, List.foldl_cons]
    refine (ih _).trans ?_
    rw [JoinState.pair, Bool.true_or, List.isEmpty_cons, Bool.not_false, Bool.or_true]

theorem rightMatched_pairs (leftRow : Row) (entries : List (Row × Nat)) (state : JoinState)
    (hentries : ∀ entry ∈ entries, entry.2 < state.rightMatched.length) (position : Nat) :
    (state.pairs leftRow entries).rightMatched.length = state.rightMatched.length ∧
      (state.pairs leftRow entries).rightMatched.getD position false =
        (state.rightMatched.getD position false ||
          entries.any (fun entry => entry.2 == position)) := by
  induction entries generalizing state with
  | nil => exact ⟨rfl, (Bool.or_false _).symm⟩
  | cons entry entries ih =>
    rw [JoinState.pairs, List.foldl_cons]
    have hlength : (state.pair leftRow entry.1 entry.2).rightMatched.length =
        state.rightMatched.length := List.length_set
    obtain ⟨hrest, hmatched⟩ := ih (state.pair leftRow entry.1 entry.2) (by
      intro other hmem
      rw [hlength]
      exact hentries other (List.mem_cons_of_mem _ hmem))
    refine ⟨hrest.trans hlength, hmatched.trans ?_⟩
    rw [List.any_cons, ← Bool.or_assoc]
    congr 1
    rw [JoinState.pair, List.getD_eq_getElem?_getD, List.getD_eq_getElem?_getD,
      List.getElem?_set]
    by_cases hposition : entry.2 = position
    · subst hposition
      simp [hentries entry (List.mem_cons_self ..)]
    · simp [hposition]

section Rounds

variable {joinType : JoinType} {right : Relation}

theorem rows_flagged (leftRow : Row) (rows : List Row) (flags : List Bool) (k : Nat) :
    (flagged (rows.zipIdx k) flags).map (fun entry => leftRow ++ entry.1) =
      (rows.zip flags).filterMap (fun candidate =>
        if candidate.2 then some (leftRow ++ candidate.1) else none) := by
  induction rows generalizing flags k with
  | nil => rfl
  | cons row rows ih =>
    cases flags with
    | nil => rfl
    | cons flag flags =>
      rw [List.zipIdx_cons, flagged_cons, List.zip_cons_cons, List.filterMap_cons]
      cases flag with
      | false => exact ih flags (k + 1)
      | true => exact congrArg (_ :: ·) (ih flags (k + 1))

theorem mem_flagged {rows : List Row} {flags : List Bool} {entry : Row × Nat} :
    entry ∈ flagged rows.zipIdx flags ↔
      rows[entry.2]? = some entry.1 ∧ flags[entry.2]? = some true := by
  unfold flagged
  rw [List.mem_filterMap]
  constructor
  · rintro ⟨⟨candidate, flag⟩, hmem, hentry⟩
    cases flag with
    | false => cases hentry
    | true =>
      obtain rfl := Option.some.inj hentry
      obtain ⟨i, hi⟩ := List.mem_iff_getElem?.mp hmem
      obtain ⟨hrow, hflag⟩ := List.getElem?_zip_eq_some.mp hi
      rw [List.getElem?_zipIdx, Option.map_eq_some_iff] at hrow
      obtain ⟨row, hrow, rfl⟩ := hrow
      simp only [Nat.zero_add]
      exact ⟨hrow, hflag⟩
  · rintro ⟨hrow, hflag⟩
    refine ⟨(entry, true), List.mem_iff_getElem?.mpr ⟨entry.2, ?_⟩, rfl⟩
    rw [List.getElem?_zip_eq_some, List.getElem?_zipIdx, hrow]
    exact ⟨by simp, hflag⟩

/-- A right row is flagged at its position. -/
theorem any_flagged {rows : List Row} {flags : List Bool} (hlength : flags.length = rows.length)
    (position : Nat) :
    (flagged rows.zipIdx flags).any (fun entry => entry.2 == position) =
      flags.getD position false := by
  rw [Bool.eq_iff_iff, List.any_eq_true, List.getD_eq_getElem?_getD]
  constructor
  · rintro ⟨entry, hmem, hposition⟩
    obtain ⟨-, hflag⟩ := mem_flagged.mp hmem
    rw [← eq_of_beq hposition, hflag]
    rfl
  · intro hflag
    cases hget : flags[position]? with
    | none =>
      rw [hget] at hflag
      cases hflag
    | some flag =>
      rw [hget] at hflag
      obtain rfl : flag = true := hflag
      have hlt := (List.getElem?_eq_some_iff.mp hget).1
      refine ⟨(rows.get ⟨position, hlength ▸ hlt⟩, position), mem_flagged.mpr ⟨?_, hget⟩, by simp⟩
      exact List.getElem?_eq_getElem _

theorem rows_round (state : JoinState) (entry : Row × List Bool) :
    (state.round joinType right entry).rows =
      state.rows ++ joinedRows joinType right entry.2 entry.1 := by
  unfold JoinState.round JoinState.endLeft joinedRows
  rw [leftMatched_pairs, Bool.false_or, Bool.not_not, ← rows_flagged entry.1 right.rows entry.2 0]
  dsimp only
  rw [List.isEmpty_map]
  split_ifs with hleft
  · dsimp only
    rw [rows_pairs]
    obtain ⟨hempty, -⟩ := Bool.and_eq_true_iff.mp hleft
    rw [List.isEmpty_iff.mp hempty]
    simp
  · rw [rows_pairs]

theorem rightMatched_round (state : JoinState) {entry : Row × List Bool}
    (hlength : entry.2.length = right.rows.length)
    (hstate : state.rightMatched.length = right.rows.length) :
    (state.round joinType right entry).rightMatched.length = right.rows.length ∧
      ∀ position, (state.round joinType right entry).rightMatched.getD position false =
        (state.rightMatched.getD position false || entry.2.getD position false) := by
  have hsame : (state.round joinType right entry).rightMatched =
      (JoinState.pairs entry.1 (flagged right.rows.zipIdx entry.2)
        { state with leftMatched := false }).rightMatched := by
    unfold JoinState.round JoinState.endLeft
    split_ifs <;> rfl
  have hpositions : ∀ candidate ∈ flagged right.rows.zipIdx entry.2,
      candidate.2 < state.rightMatched.length := by
    intro candidate hmem
    rw [hstate]
    exact (List.getElem?_eq_some_iff.mp (mem_flagged.mp hmem).1).1
  rw [hsame]
  have hpairs := rightMatched_pairs entry.1 (flagged right.rows.zipIdx entry.2)
    { state with leftMatched := false } hpositions
  refine ⟨(hpairs 0).1.trans hstate, ?_⟩
  intro position
  rw [(hpairs position).2, any_flagged hlength]

/-- All rounds: the rows of each in order, and a right row matched in any of them. -/
theorem foldl_round (entries : List (Row × List Bool)) (state : JoinState)
    (hlength : ∀ entry ∈ entries, entry.2.length = right.rows.length)
    (hstate : state.rightMatched.length = right.rows.length) :
    (entries.foldl (JoinState.round joinType right) state).rows =
        state.rows ++ entries.flatMap (fun entry => joinedRows joinType right entry.2 entry.1) ∧
      ∀ position,
        (entries.foldl (JoinState.round joinType right) state).rightMatched.getD position false =
          (state.rightMatched.getD position false ||
            entries.any (fun entry => entry.2.getD position false)) := by
  induction entries generalizing state with
  | nil => exact ⟨(List.append_nil _).symm, fun _ => (Bool.or_false _).symm⟩
  | cons entry entries ih =>
    obtain ⟨hnext, hmatched⟩ := @rightMatched_round joinType right state entry
      (hlength entry (List.mem_cons_self ..)) hstate
    obtain ⟨hrows, hpositions⟩ := ih (state.round joinType right entry)
      (fun other hmem => hlength other (List.mem_cons_of_mem _ hmem)) hnext
    refine ⟨?_, ?_⟩
    · rw [List.foldl_cons, hrows, rows_round, List.flatMap_cons, List.append_assoc]
    · intro position
      rw [List.foldl_cons, hpositions, hmatched, List.any_cons, Bool.or_assoc]

/-- **Either loop, from the right rows that each left row matches.** -/
theorem joinLoop_eq {scan : Row → JoinState → Except Fault JoinState}
    {flags : Row → Except Fault (List Bool)} {left : Relation}
    (hscan : ∀ leftRow state, scan leftRow state = (flags leftRow).map (fun flags =>
      state.pairs leftRow (flagged right.rows.zipIdx flags)))
    (hlength : ∀ leftRow matched, flags leftRow = .ok matched →
      matched.length = right.rows.length) :
    joinLoop scan joinType left right = (do
      let matched ← left.rows.mapM flags
      pure { columns := left.columns ++ right.columns
             rows := joinRows joinType left.columns.length right.columns.length left.rows
               right.rows matched }) := by
  unfold joinLoop
  rw [foldlM_round hscan]
  cases hmatched : left.rows.mapM flags with
  | error fault => rfl
  | ok matched =>
    have hwidth : ∀ entry ∈ left.rows.zip matched, entry.2.length = right.rows.length := by
      intro entry hmem
      obtain ⟨leftRow, -, hflags⟩ := Result.mem_of_mapM hmatched (List.of_mem_zip hmem).2
      exact hlength leftRow entry.2 hflags
    obtain ⟨hrows, hpositions⟩ := @foldl_round joinType right (left.rows.zip matched)
      ⟨[], List.replicate right.rows.length false, false⟩ hwidth List.length_replicate
    refine congrArg Except.ok (congrArg (Relation.mk _) ?_)
    have hany : ∀ position, matched.any (fun row => row.getD position false) =
        (left.rows.zip matched).any (fun entry => entry.2.getD position false) := by
      intro position
      have hsnd : (left.rows.zip matched).map Prod.snd = matched :=
        List.map_snd_zip (Result.length_of_mapM hmatched).le
      conv_lhs => rw [← hsnd]
      rw [List.any_map]
      rfl
    have hfinal : ∀ position,
        ((left.rows.zip matched).foldl (JoinState.round joinType right)
          ⟨[], List.replicate right.rows.length false, false⟩).rightMatched.getD position false =
          matched.any (fun row => row.getD position false) := by
      intro position
      have hfalse : (List.replicate right.rows.length false).getD position false = false := by
        rw [List.getD_eq_getElem?_getD, List.getElem?_replicate]
        split_ifs <;> rfl
      rw [hpositions, hany, hfalse, Bool.false_or]
    unfold JoinState.finish joinRows
    simp only [hfinal, hrows, List.nil_append]
    cases joinType == .right with
    | true => rfl
    | false => exact (List.append_nil _).symm

end Rounds

/-! ## The loops and the relational join -/

/-- `joinRelations` with the nested loop is the nested loop. -/
theorem nestedLoopJoin_eq (left right : Relation) (joinType : JoinType)
    (test : List BoundColumn → Row → Except Fault Bool) :
    nestedLoopJoin left right joinType test = (do
      let matched ← left.rows.mapM (nestedLoopMatches (test (left.columns ++ right.columns))
        right.rows)
      pure { columns := left.columns ++ right.columns
             rows := joinRows joinType left.columns.length right.columns.length left.rows
               right.rows matched }) := by
  refine joinLoop_eq ?_ ?_
  · intro leftRow state
    rw [nestedScan_eq]
    refine congrArg (Except.map _) ?_
    unfold nestedLoopMatches
    conv_rhs => rw [← List.zipIdx_map_fst 0 right.rows, List.mapM_map]
    rfl
  · intro leftRow matched hmatched
    exact Result.length_of_mapM hmatched

/-- `hashJoin` is the loop over the map. -/
theorem hashLoopJoin_eq (H : Host) (left right : Relation) (joinType : JoinType)
    (leftIndex rightIndex : Nat) :
    hashLoopJoin H left right joinType leftIndex rightIndex =
      hashJoin H left right joinType leftIndex rightIndex := by
  unfold hashLoopJoin hashJoin
  rw [foldlM_enterRow]
  cases hentries : right.rows.mapM (hashEntry rightIndex) with
  | error fault => rfl
  | ok entries =>
    refine joinLoop_eq (fun leftRow state => hashScan_eq H leftIndex hentries leftRow state) ?_
    intro leftRow matched hmatched
    obtain ⟨value, -, hmatched⟩ := Result.bind_eq_ok.mp hmatched
    obtain rfl := Except.ok.inj hmatched
    rw [List.length_map]
    exact Result.length_of_mapM hentries

/-- **`joinRelations` runs one of the two loops.** -/
theorem joinRelations_eq_loop (H : Host) (left right : Relation) (joinType : JoinType)
    (on : Option Expr) (test : List BoundColumn → Row → Except Fault Bool) :
    joinRelations H left right joinType on test =
      match on.bind (fun expression => hashJoinIndices expression left.columns right.columns) with
      | some (leftIndex, rightIndex) => hashLoopJoin H left right joinType leftIndex rightIndex
      | none => nestedLoopJoin left right joinType test := by
  unfold joinRelations
  cases on.bind (fun expression => hashJoinIndices expression left.columns right.columns) with
  | some indices => exact (hashLoopJoin_eq H left right joinType indices.1 indices.2).symm
  | none => exact (nestedLoopJoin_eq left right joinType test).symm

/-! ## Equal columns -/

/-- A name that resolves in the left columns resolves to the same column of both. -/
theorem resolveColumn_left {left right : List BoundColumn} {qualifier : Option String}
    {name : String} {i k : Nat} (hleft : resolveColumn left qualifier name = .ok i)
    (hboth : resolveColumn (left ++ right) qualifier name = .ok k) :
    k = i ∧ i < left.length := by
  obtain ⟨⟨column, hcolumn, hname, hqualifier⟩, -⟩ := resolveColumn_eq_ok hleft
  have hlt := (List.getElem?_eq_some_iff.mp hcolumn).1
  obtain ⟨-, hunique⟩ := resolveColumn_eq_ok hboth
  rw [← List.getElem?_append_left hlt] at hcolumn
  exact ⟨(hunique i column hcolumn hname hqualifier).symm, hlt⟩

/-- One that resolves in the right columns resolves to that column behind the left ones. -/
theorem resolveColumn_right {left right : List BoundColumn} {qualifier : Option String}
    {name : String} {i k : Nat} (hright : resolveColumn right qualifier name = .ok i)
    (hboth : resolveColumn (left ++ right) qualifier name = .ok k) :
    k = left.length + i ∧ i < right.length := by
  obtain ⟨⟨column, hcolumn, hname, hqualifier⟩, -⟩ := resolveColumn_eq_ok hright
  have hlt := (List.getElem?_eq_some_iff.mp hcolumn).1
  obtain ⟨-, hunique⟩ := resolveColumn_eq_ok hboth
  have hshifted : (left ++ right)[left.length + i]? = some column := by
    rw [List.getElem?_append_right (Nat.le_add_right _ _), Nat.add_sub_cancel_left, hcolumn]
  exact ⟨(hunique _ column hshifted hname hqualifier).symm, hlt⟩

theorem compareSql_equal_iff (lowercase : String → String) (u v : Value) :
    u.compareSql lowercase v .equal = .true ↔
      u.isNull = false ∧ v.isNull = false ∧ u.partialCmp v = some .eq := by
  cases hu : u.isNull with
  | true =>
    refine iff_of_false ?_ (fun h => by cases h.1)
    obtain rfl := Value.isNull_iff.mp hu
    intro h
    cases h
  | false =>
    rw [compareSql_equal lowercase hu, isEqual]
    cases v.isNull with
    | true => exact iff_of_false (fun h => by cases h) (fun h => by cases h.2.1)
    | false => cases hcmp : u.partialCmp v == some .eq <;> simp_all [searched]

/-- Without doubles, equality is being the same value. -/
theorem compareSql_equal_iff_eq (lowercase : String → String) {u v : Value}
    (hu : ∀ x, u ≠ .float x) (hv : ∀ x, v ≠ .float x) :
    u.compareSql lowercase v .equal = .true ↔ u.isNull = false ∧ u = v := by
  rw [compareSql_equal_iff]
  have hequal : u.isNull = false → (u.partialCmp v = some .eq ↔ u = v) := by
    intro hnull
    cases u with
    | integer m =>
      cases v with
      | integer n => rw [partialCmp_integers, Value.integer.injEq]
      | float y => exact absurd rfl (hv y)
      | _ => exact iff_of_false nofun nofun
    | float x => exact absurd rfl (hu x)
    | null => cases hnull
    | text s => exact partialCmp_of_not_number rfl rfl
    | boolean b => exact partialCmp_of_not_number rfl rfl
  constructor
  · rintro ⟨hnull, -, hcmp⟩
    exact ⟨hnull, (hequal hnull).mp hcmp⟩
  · rintro ⟨hnull, rfl⟩
    exact ⟨hnull, hnull, (hequal hnull).mpr rfl⟩

/-- The flag of the hash join: the value of the right row is the value sought. -/
theorem probe_iff (H : Host) {value candidate : Value} {rightIndex : Nat} {rightRow : Row}
    {entry : Option String × Value} (hvalue : ∀ x, value ≠ .float x)
    (hcandidate : ∀ x, candidate ≠ .float x) (hrow : rightRow[rightIndex]? = some candidate)
    (hentry : hashEntry rightIndex rightRow = .ok entry) :
    (!value.isNull && entry.1 == some (hashJoinKey value) &&
        value.compareSql H.lowercase entry.2 .equal == .true) = true ↔
      value.isNull = false ∧ value = candidate := by
  unfold hashEntry rowAt at hentry
  rw [hrow] at hentry
  obtain rfl := Except.ok.inj hentry
  rw [Bool.and_eq_true, Bool.and_eq_true, beq_iff_eq, beq_iff_eq, Bool.not_eq_true',
    compareSql_equal_iff_eq H.lowercase hvalue hcandidate]
  constructor
  · rintro ⟨-, h⟩
    exact h
  · rintro ⟨hnull, rfl⟩
    rw [hnull]
    exact ⟨⟨rfl, rfl⟩, rfl, rfl⟩

section Equal

variable {H : Host} {tables : Tables} {ctes : Ctes} {left right : Relation}
  {leftQualifier rightQualifier : Option String} {leftName rightName : String}

/-- The test of `column = column` on a joined row. -/
theorem joinTest_equal {columns : List BoundColumn} {row : Row} {i j : Nat} {u v : Value}
    (hi : resolveColumn columns leftQualifier leftName = .ok i)
    (hj : resolveColumn columns rightQualifier rightName = .ok j)
    (hu : row[i]? = some u) (hv : row[j]? = some v) :
    joinTest H tables (some (.binary (.column leftQualifier leftName) (.compare .equal)
      (.column rightQualifier rightName))) ctes columns row =
        .ok (decide (u.compareSql H.lowercase v .equal = .true)) := by
  have hleft : evalExpr H tables (.column leftQualifier leftName) columns row none ctes =
      .ok u := by
    rw [evalExpr, hi, Result.ok_bind, hu]
  have hright : evalExpr H tables (.column rightQualifier rightName) columns row none ctes =
      .ok v := by
    rw [evalExpr, hj, Result.ok_bind, hv]
  rw [joinTest, evalExpr_compare, hleft, Result.ok_bind, hright, Result.ok_bind]
  show Except.ok (decide ((truthValue _).truth = .true)) = _
  rw [truthValue_truth]

/-- The two sides of the equality, as the hash join and as the nested loop find them. -/
theorem sides_of_hashJoinIndices {i j leftIndex rightIndex : Nat}
    (hi : resolveColumn (left.columns ++ right.columns) leftQualifier leftName = .ok i)
    (hj : resolveColumn (left.columns ++ right.columns) rightQualifier rightName = .ok j)
    (hindices : hashJoinIndices (.binary (.column leftQualifier leftName) (.compare .equal)
      (.column rightQualifier rightName)) left.columns right.columns =
        some (leftIndex, rightIndex)) :
    leftIndex < left.columns.length ∧ rightIndex < right.columns.length ∧
      ((i = leftIndex ∧ j = left.columns.length + rightIndex) ∨
        (j = leftIndex ∧ i = left.columns.length + rightIndex)) := by
  unfold hashJoinIndices at hindices
  simp only at hindices
  split at hindices
  · rename_i l r hl hr
    obtain ⟨rfl, rfl⟩ := Prod.mk.inj (Option.some.inj hindices)
    obtain ⟨hil, hlt⟩ := resolveColumn_left hl hi
    obtain ⟨hjr, hrt⟩ := resolveColumn_right hr hj
    exact ⟨hlt, hrt, Or.inl ⟨hil, hjr⟩⟩
  · split at hindices
    · rename_i l r hl hr
      obtain ⟨rfl, rfl⟩ := Prod.mk.inj (Option.some.inj hindices)
      obtain ⟨hjl, hlt⟩ := resolveColumn_left hl hj
      obtain ⟨hir, hrt⟩ := resolveColumn_right hr hi
      exact ⟨hlt, hrt, Or.inr ⟨hjl, hir⟩⟩
    · cases hindices

theorem exists_rowAt {row : Row} {index : Nat} (h : index < row.length) :
    ∃ value, row[index]? = some value ∧ rowAt row index = .ok value := by
  refine ⟨row[index], List.getElem?_eq_getElem h, ?_⟩
  rw [rowAt, List.getElem?_eq_getElem h]

/-- One left row, in both loops. -/
theorem hashMatches_eq {i j leftIndex rightIndex : Nat} {leftRow : Row}
    {entries : List (Option String × Value)}
    (hlength : leftRow.length = left.columns.length)
    (hright : ∀ row ∈ right.rows, row.length = right.columns.length)
    (hi : resolveColumn (left.columns ++ right.columns) leftQualifier leftName = .ok i)
    (hj : resolveColumn (left.columns ++ right.columns) rightQualifier rightName = .ok j)
    (hvalues : ∀ rightRow ∈ right.rows, ∀ x,
      (leftRow ++ rightRow)[i]? ≠ some (.float x) ∧ (leftRow ++ rightRow)[j]? ≠ some (.float x))
    (hindices : hashJoinIndices (.binary (.column leftQualifier leftName) (.compare .equal)
      (.column rightQualifier rightName)) left.columns right.columns =
        some (leftIndex, rightIndex))
    (hentries : right.rows.mapM (hashEntry rightIndex) = .ok entries) :
    ∃ flags, hashMatches H leftIndex entries leftRow = .ok flags ∧
      nestedLoopMatches (joinTest H tables (some (.binary (.column leftQualifier leftName)
        (.compare .equal) (.column rightQualifier rightName))) ctes
        (left.columns ++ right.columns)) right.rows leftRow = .ok flags := by
  obtain ⟨hlt, hrt, hsides⟩ := sides_of_hashJoinIndices hi hj hindices
  obtain ⟨value, hvalue, hrowAt⟩ := exists_rowAt (hlength ▸ hlt)
  refine ⟨_, by rw [hashMatches, hrowAt, Result.ok_bind]; rfl, ?_⟩
  refine Result.mapM_eq_ok.mpr (List.forall₂_map_right_iff.mpr ?_)
  have hpaired := (List.forall₂_and_left _ _).mpr
    ⟨fun row (hrow : row ∈ right.rows) => hrow, Result.mapM_eq_ok.mp hentries⟩
  refine hpaired.imp ?_
  rintro rightRow entry ⟨hmem, hentry⟩
  obtain ⟨candidate, hcandidate, -⟩ := exists_rowAt (hright rightRow hmem ▸ hrt)
  have hfirst : (leftRow ++ rightRow)[leftIndex]? = some value := by
    rw [List.getElem?_append_left (hlength ▸ hlt), hvalue]
  have hsecond : (leftRow ++ rightRow)[left.columns.length + rightIndex]? = some candidate := by
    rw [← hlength, List.getElem?_append_right (Nat.le_add_right _ _), Nat.add_sub_cancel_left,
      hcandidate]
  rcases hsides with ⟨rfl, rfl⟩ | ⟨rfl, rfl⟩
  · have hnofloat : ∀ x, value ≠ .float x := fun x hx =>
      (hvalues rightRow hmem x).1 (hx ▸ hfirst)
    have hnofloat' : ∀ x, candidate ≠ .float x := fun x hx =>
      (hvalues rightRow hmem x).2 (hx ▸ hsecond)
    rw [joinTest_equal hi hj hfirst hsecond]
    refine congrArg Except.ok (Bool.eq_iff_iff.mpr ?_)
    rw [decide_eq_true_iff, compareSql_equal_iff_eq H.lowercase hnofloat hnofloat',
      probe_iff H hnofloat hnofloat' hcandidate hentry]
  · have hnofloat : ∀ x, value ≠ .float x := fun x hx =>
      (hvalues rightRow hmem x).2 (hx ▸ hfirst)
    have hnofloat' : ∀ x, candidate ≠ .float x := fun x hx =>
      (hvalues rightRow hmem x).1 (hx ▸ hsecond)
    rw [joinTest_equal hi hj hsecond hfirst]
    refine congrArg Except.ok (Bool.eq_iff_iff.mpr ?_)
    rw [decide_eq_true_iff, compareSql_equal_iff_eq H.lowercase hnofloat' hnofloat,
      probe_iff H hnofloat hnofloat' hcandidate hentry]
    constructor
    · rintro ⟨hnull, rfl⟩
      exact ⟨hnull, rfl⟩
    · rintro ⟨hnull, rfl⟩
      exact ⟨hnull, rfl⟩

/-- **The hash join is the nested loop** on equal columns that hold no doubles: the same rows
in the same order, those extended by NULLs included. -/
theorem hash_join_eq_nested_loop (H : Host) (tables : Tables) (ctes : Ctes)
    (left right : Relation) (joinType : JoinType) (leftQualifier rightQualifier : Option String)
    (leftName rightName : String) (i j leftIndex rightIndex : Nat)
    (hleft : ∀ row ∈ left.rows, row.length = left.columns.length)
    (hright : ∀ row ∈ right.rows, row.length = right.columns.length)
    (hi : resolveColumn (left.columns ++ right.columns) leftQualifier leftName = .ok i)
    (hj : resolveColumn (left.columns ++ right.columns) rightQualifier rightName = .ok j)
    (hvalues : ∀ leftRow ∈ left.rows, ∀ rightRow ∈ right.rows, ∀ x,
      (leftRow ++ rightRow)[i]? ≠ some (.float x) ∧ (leftRow ++ rightRow)[j]? ≠ some (.float x))
    (hindices : hashJoinIndices (.binary (.column leftQualifier leftName) (.compare .equal)
      (.column rightQualifier rightName)) left.columns right.columns =
        some (leftIndex, rightIndex)) :
    ∃ joined, hashLoopJoin H left right joinType leftIndex rightIndex = .ok joined ∧
      nestedLoopJoin left right joinType (joinTest H tables (some (.binary
        (.column leftQualifier leftName) (.compare .equal)
        (.column rightQualifier rightName))) ctes) = .ok joined := by
  have hrt := (sides_of_hashJoinIndices hi hj hindices).2.1
  have hexists : ∀ row ∈ right.rows, ∃ entry, hashEntry rightIndex row = .ok entry := by
    intro row hrow
    obtain ⟨value, -, hvalue⟩ := exists_rowAt (hright row hrow ▸ hrt)
    rw [hashEntry, hvalue]
    exact ⟨_, rfl⟩
  obtain ⟨entries, hentries⟩ := Result.exists_mapM_eq_ok.mpr hexists
  have hflags := fun leftRow (hmem : leftRow ∈ left.rows) =>
    @hashMatches_eq H tables ctes left right _ _ _ _ _ _ _ _ leftRow entries (hleft leftRow hmem)
      hright hi hj (hvalues leftRow hmem) hindices hentries
  obtain ⟨matched, hmatched⟩ := Result.exists_mapM_eq_ok.mpr fun leftRow hmem =>
    (hflags leftRow hmem).imp fun _ h => h.1
  rw [hashLoopJoin_eq, nestedLoopJoin_eq, hashJoin, hentries, Result.ok_bind, hmatched]
  refine ⟨_, rfl, ?_⟩
  have hsame := Result.mapM_congr fun leftRow hmem => by
    obtain ⟨flags, hhash, hnested⟩ := hflags leftRow hmem
    exact hnested.trans hhash.symm
  rw [hsame, hmatched]
  rfl

end Equal

/-- A LEFT join with a NULL and a row without a partner. -/
theorem left_join_sample :
    ∃ joined,
      hashLoopJoin Host.reference ⟨[⟨"t", "id"⟩], [[.integer 1], [.null], [.integer 3]]⟩
        ⟨[⟨"u", "tid"⟩, ⟨"u", "name"⟩], [[.integer 1, .text "a"], [.integer 1, .text "b"]]⟩
        .left 0 0 = .ok joined ∧
      nestedLoopJoin ⟨[⟨"t", "id"⟩], [[.integer 1], [.null], [.integer 3]]⟩
        ⟨[⟨"u", "tid"⟩, ⟨"u", "name"⟩], [[.integer 1, .text "a"], [.integer 1, .text "b"]]⟩
        .left (joinTest Host.reference ∅ (some (.binary (.column none "tid") (.compare .equal)
          (.column (some "t") "id"))) ∅) = .ok joined := by
  refine hash_join_eq_nested_loop Host.reference ∅ ∅ _ _ .left none (some "t") "tid" "id" 1 0 0 0
    ?_ ?_ (by rfl) (by rfl) ?_ (by rfl)
  · simp
  · simp
  · simp

end Sql
end RustyDB
