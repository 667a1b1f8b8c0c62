import Mathlib
import RustyDB.Lib.Recency
import RustyDB.Sql.Replay

/-!
# The plan cache

`parse_cached` keeps the statements it has parsed and optimized.  The cache has a clock that
counts its operations, and an entry knows when it was used last and for which version of the
schema it was made.  A call looks into the cache and stores into it under two locks of their
own, so that other calls can run in between.

* `PlanCache.get`, `PlanCache.insert`, `PlanCache.clear` — the operations of the source.
* `Planning`, `PlanStep`, `Planning.step`, `Planning.run` — the calls of `parse_cached`, and a
  COMMIT that publishes a schema and clears the cache.
* `Planning.Sound` — the invariant of its runs.
* `parseCached_eq` — a call alone gives what `Database.parseCached` does.
* `plan_cache_is_lru` — **every answer is what would be planned again, no entry is over the
  capacity, a hit is for the version the call has read, and what is evicted was used least
  recently.**
-/

namespace RustyDB
namespace Sql

open Recency

/-! ## The cache -/

/-- `PlanCacheEntry`: a plan, the catalog version it was made for and when it was used last. -/
structure PlanCacheEntry where
  catalogVersion : Nat
  statement : Statement
  lastUsed : Nat

/-- `PlanCache`; the clock counts the uses. -/
structure PlanCache where
  capacity : Nat
  clock : Nat
  entries : AList (fun _ : String => PlanCacheEntry)

namespace PlanCache

/-- `PlanCache::new`. -/
def new (capacity : Nat) : PlanCache := ⟨capacity, 0, ∅⟩

/-- `PlanCache::get`: an entry for another version is removed. -/
def get (cache : PlanCache) (sql : String) (catalogVersion : Nat) :
    Option Statement × PlanCache :=
  let clock := saturatingSucc cache.clock
  match cache.entries.lookup sql with
  | none => (none, { cache with clock := clock })
  | some entry =>
    if entry.catalogVersion ≠ catalogVersion then
      (none, { cache with clock := clock, entries := cache.entries.erase sql })
    else
      (some entry.statement, { cache with
        clock := clock
        entries := cache.entries.insert sql { entry with lastUsed := clock } })

/-- The key with the least `last_used`. -/
def oldest (cache : PlanCache) : Option String :=
  (cache.entries.entries.argmin fun entry => entry.2.lastUsed).map fun entry => entry.1

/-- What is left of a full cache for a key that it does not have. -/
def makeRoom (cache : PlanCache) (sql : String) : AList (fun _ : String => PlanCacheEntry) :=
  if cache.capacity ≤ cache.entries.entries.length ∧ sql ∉ cache.entries then
    match cache.oldest with
    | some oldest => cache.entries.erase oldest
    | none => cache.entries
  else cache.entries

/-- `PlanCache::insert`. -/
def insert (cache : PlanCache) (sql : String) (catalogVersion : Nat) (statement : Statement) :
    PlanCache :=
  if cache.capacity = 0 then cache
  else
    let clock := saturatingSucc cache.clock
    { cache with
      clock := clock
      entries := (cache.makeRoom sql).insert sql ⟨catalogVersion, statement, clock⟩ }

/-- `PlanCache::clear`. -/
def clear (cache : PlanCache) : PlanCache := { cache with entries := ∅ }

/-- When the entry of a key was used last. -/
def stamp (cache : PlanCache) (sql : String) : Option Nat :=
  (cache.entries.lookup sql).map PlanCacheEntry.lastUsed

end PlanCache

/-- A statement parsed and optimized. -/
def Engine.plan (E : Engine) (sql : String) : Except Fault Statement :=
  match E.wal.parseSql sql with
  | .error message => .error (.error message)
  | .ok statement => optimizeStatement E.host statement

/-- `parse_cached` when nothing runs in between. -/
def PlanCache.parseCached (E : Engine) (cache : PlanCache) (version : Nat) (sql : String) :
    Except Fault Statement × PlanCache :=
  match cache.get (normalizeSql sql) version with
  | (some statement, cache) => (.ok statement, cache)
  | (none, cache) =>
    match E.plan (normalizeSql sql) with
    | .error fault => (.error fault, cache)
    | .ok statement => (.ok statement, cache.insert (normalizeSql sql) version statement)

/-! ## Calls -/

/-- What has happened to the cache. -/
inductive CacheEvent where
  | hit (sql : String) (version : Nat)
  | miss (sql : String) (version : Nat)
  | stored (sql : String) (version : Nat)
  /-- An insert into a cache without capacity. -/
  | refused (sql : String)
  | cleared

/-- The key that a successful `get` or `insert` uses. -/
def CacheEvent.used : CacheEvent → Option String
  | .hit sql _ => some sql
  | .miss _ _ => none
  | .stored sql _ => some sql
  | .refused _ => none
  | .cleared => none

/-- The version of the last insert under a key. -/
def lastStored : List CacheEvent → String → Option Nat
  | [], _ => none
  | .stored sql version :: history, key =>
    if sql = key then some version else lastStored history key
  | _ :: history, key => lastStored history key

/-- Where a call of `parse_cached` is. -/
inductive ParseCall where
  | idle
  /-- It has read the version of the schema. -/
  | looking (sql : String) (version : Nat)
  /-- It has found nothing, and planned the statement itself. -/
  | planned (sql : String) (version : Nat) (statement : Statement)
  | returned (sql : String) (result : Except Fault Statement)

/-- The cache, the schema version of the published catalog, and the calls under way. -/
structure Planning where
  cache : PlanCache
  version : Nat
  calls : Nat → ParseCall
  history : List CacheEvent

/-- The steps of concurrent calls, each under the lock of the cache or of the catalog. -/
inductive PlanStep where
  /-- A call begins. -/
  | call (id : Nat) (sql : String)
  /-- It looks into the cache, and plans the statement when it is not there. -/
  | look (id : Nat)
  /-- It stores the statement. -/
  | store (id : Nat)
  /-- A catalog is published. -/
  | publish (version : Nat)
  /-- COMMIT clears the cache. -/
  | clear

namespace Planning

/-- No call has begun, and the cache is empty. -/
def start (capacity version : Nat) : Planning :=
  ⟨PlanCache.new capacity, version, fun _ => .idle, []⟩

/-- A call is somewhere else. -/
def setCall (s : Planning) (id : Nat) (call : ParseCall) : Nat → ParseCall :=
  Function.update s.calls id call

/-- A call looks into the cache. -/
def look (E : Engine) (s : Planning) (id : Nat) (sql : String) (version : Nat) : Planning :=
  match s.cache.get (normalizeSql sql) version with
  | (some statement, cache) =>
    { s with
      cache := cache
      calls := s.setCall id (.returned sql (.ok statement))
      history := .hit (normalizeSql sql) version :: s.history }
  | (none, cache) =>
    { s with
      cache := cache
      calls := s.setCall id (match E.plan (normalizeSql sql) with
        | .error fault => .returned sql (.error fault)
        | .ok statement => .planned sql version statement)
      history := .miss (normalizeSql sql) version :: s.history }

/-- A call stores what it has planned. -/
def store (s : Planning) (id : Nat) (sql : String) (version : Nat) (statement : Statement) :
    Planning :=
  { s with
    cache := s.cache.insert (normalizeSql sql) version statement
    calls := s.setCall id (.returned sql (.ok statement))
    history := (if s.cache.capacity = 0 then .refused (normalizeSql sql)
      else .stored (normalizeSql sql) version) :: s.history }

/-- One step; `none` when the call is not there. -/
def step (E : Engine) (s : Planning) : PlanStep → Option Planning
  | .call id sql =>
    match s.calls id with
    | .looking _ _ => none
    | .planned _ _ _ => none
    | _ => some { s with calls := s.setCall id (.looking sql s.version) }
  | .look id =>
    match s.calls id with
    | .looking sql version => some (s.look E id sql version)
    | _ => none
  | .store id =>
    match s.calls id with
    | .planned sql version statement => some (s.store id sql version statement)
    | _ => none
  | .publish version => some { s with version := version }
  | .clear => some { s with cache := s.cache.clear, history := .cleared :: s.history }

/-- A schedule, step by step; none when a step is not possible. -/
def run (E : Engine) (s : Planning) : List PlanStep → Option Planning
  | [] => some s
  | st :: sts =>
    match s.step E st with
    | none => none
    | some s' => run E s' sts

end Planning

/-! ## What an operation does -/

namespace PlanCache

variable {cache : PlanCache} {sql key : String} {version : Nat} {statement : Statement}
  {entry : PlanCacheEntry}

/-- The entries of the cache hold the plans of their keys. -/
def Transparent (E : Engine) (cache : PlanCache) : Prop :=
  ∀ key entry, cache.entries.lookup key = some entry → E.plan key = .ok entry.statement

/-- The cases of `get`. -/
inductive Got (cache : PlanCache) (sql : String) (version : Nat) :
    Option Statement × PlanCache → Prop
  | absent : cache.entries.lookup sql = none →
    Got cache sql version (none, { cache with clock := saturatingSucc cache.clock })
  | outdated (entry : PlanCacheEntry) : cache.entries.lookup sql = some entry →
    entry.catalogVersion ≠ version → Got cache sql version
      (none, { cache with
        clock := saturatingSucc cache.clock
        entries := cache.entries.erase sql })
  | found (entry : PlanCacheEntry) : cache.entries.lookup sql = some entry →
    entry.catalogVersion = version → Got cache sql version
      (some entry.statement, { cache with
        clock := saturatingSucc cache.clock
        entries := cache.entries.insert sql
          { entry with lastUsed := saturatingSucc cache.clock } })

theorem got_get (cache : PlanCache) (sql : String) (version : Nat) :
    Got cache sql version (cache.get sql version) := by
  rw [get]
  split
  · rename_i habsent
    exact .absent habsent
  · rename_i entry hentry
    split
    · rename_i hversion
      exact .outdated entry hentry hversion
    · rename_i hversion
      exact .found entry hentry (not_not.mp hversion)

/-- The key that `insert` evicts is in the cache, and its stamp is the least one. -/
theorem mem_of_oldest {victim : String} (h : cache.oldest = some victim) :
    ∃ entry, cache.entries.lookup victim = some entry ∧
      ∀ other entry', cache.entries.lookup other = some entry' →
        entry.lastUsed ≤ entry'.lastUsed := by
  obtain ⟨⟨_, entry⟩, hmin, rfl⟩ := Option.map_eq_some_iff.mp h
  refine ⟨entry, AList.mem_lookup_iff.mpr (List.argmin_mem hmin), fun other entry' hother => ?_⟩
  have hmem : (⟨other, entry'⟩ : Sigma fun _ : String => PlanCacheEntry) ∈
      cache.entries.entries := AList.mem_lookup_iff.mp hother
  exact List.le_of_mem_argmin (f := fun entry => entry.2.lastUsed) hmem hmin

/-- Making room drops entries only. -/
theorem lookup_of_makeRoom (h : (cache.makeRoom sql).lookup key = some entry) :
    cache.entries.lookup key = some entry := by
  rw [makeRoom] at h
  split at h
  · split at h
    · rename_i victim hvictim
      by_cases heq : key = victim
      · rw [heq, AList.lookup_erase] at h
        cases h
      · rwa [AList.lookup_erase_ne heq] at h
    · exact h
  · exact h

/-- What an insert leaves: the new entry, and others that were there. -/
theorem lookup_insert (hcapacity : cache.capacity ≠ 0) :
    ((cache.insert sql version statement).entries.lookup sql =
      some ⟨version, statement, saturatingSucc cache.clock⟩) ∧
    ∀ other entry, other ≠ sql →
      (cache.insert sql version statement).entries.lookup other = some entry →
      cache.entries.lookup other = some entry := by
  rw [insert, if_neg hcapacity]
  refine ⟨AList.lookup_insert _, fun other entry hne hentry => ?_⟩
  rw [AList.lookup_insert_ne hne] at hentry
  exact lookup_of_makeRoom hentry

/-! ## Transparency -/

variable {E : Engine}

theorem Transparent.mono (h : cache.Transparent E) {cache' : PlanCache}
    (hsub : ∀ key entry, cache'.entries.lookup key = some entry →
      ∃ entry', cache.entries.lookup key = some entry' ∧ entry'.statement = entry.statement) :
    cache'.Transparent E := by
  intro key entry hentry
  obtain ⟨entry', hentry', heq⟩ := hsub key entry hentry
  rw [h key entry' hentry', heq]

/-- A use of an entry keeps the statements. -/
theorem transparent_get (h : cache.Transparent E) :
    (cache.get sql version).2.Transparent E := by
  have hgot := got_get cache sql version
  generalize cache.get sql version = result at hgot
  cases hgot with
  | absent habsent => exact h
  | outdated entry hentry hversion =>
    refine h.mono fun key found hfound => ?_
    by_cases heq : key = sql
    · rw [heq, AList.lookup_erase] at hfound
      cases hfound
    · exact ⟨found, by rwa [AList.lookup_erase_ne heq] at hfound, rfl⟩
  | found entry hentry hversion =>
    refine h.mono fun key found hfound => ?_
    by_cases heq : key = sql
    · rw [heq, AList.lookup_insert] at hfound
      cases hfound
      exact ⟨entry, heq ▸ hentry, rfl⟩
    · exact ⟨found, by rwa [AList.lookup_insert_ne heq] at hfound, rfl⟩

/-- **A hit** is the plan of its key. -/
theorem plan_of_get (h : cache.Transparent E)
    (hget : (cache.get sql version).1 = some statement) : E.plan sql = .ok statement := by
  have hgot := got_get cache sql version
  generalize cache.get sql version = result at hget hgot
  cases hgot with
  | absent habsent => cases hget
  | outdated entry hentry hversion => cases hget
  | found entry hentry hversion =>
    cases hget
    exact h sql entry hentry

theorem transparent_insert (h : cache.Transparent E) (hplan : E.plan sql = .ok statement) :
    (cache.insert sql version statement).Transparent E := by
  by_cases hcapacity : cache.capacity = 0
  · rw [insert, if_pos hcapacity]
    exact h
  · obtain ⟨hself, hother⟩ := @lookup_insert cache sql version statement hcapacity
    intro key entry hentry
    by_cases heq : key = sql
    · rw [heq, hself] at hentry
      cases hentry
      rw [heq, hplan]
    · exact h key entry (hother key entry heq hentry)

/-- **A call alone** gives what the database without a cache does. -/
theorem parseCached_eq (h : cache.Transparent E) :
    (cache.parseCached E version sql).1 = E.plan (normalizeSql sql) ∧
      (cache.parseCached E version sql).2.Transparent E := by
  have htransparent := @transparent_get cache (normalizeSql sql) version E h
  rw [parseCached]
  split
  · rename_i statement cache' hget
    rw [hget] at htransparent
    have hplan : E.plan (normalizeSql sql) = .ok statement :=
      plan_of_get h (congrArg Prod.fst hget)
    exact ⟨hplan.symm, htransparent⟩
  · rename_i cache' hget
    rw [hget] at htransparent
    split
    · rename_i fault hplan
      exact ⟨hplan.symm, htransparent⟩
    · rename_i statement hplan
      exact ⟨hplan.symm, transparent_insert htransparent hplan⟩

theorem parseCached_eq_parseCached (h : cache.Transparent E) {db : Database}
    (hpoisoned : db.poisoned = false) :
    (cache.parseCached E db.catalog.schemaVersion sql).1 = db.parseCached E sql := by
  have hplan : db.parseCached E sql = E.plan (normalizeSql sql) := by
    rw [Database.parseCached, hpoisoned]
    rfl
  rw [hplan]
  exact (parseCached_eq h).1

/-! ## The capacity -/

/-- How many entries there are. -/
def size (cache : PlanCache) : Nat := cache.entries.entries.length

theorem length_insert_of_mem {entries : AList (fun _ : String => PlanCacheEntry)}
    (h : sql ∈ entries) :
    (entries.insert sql entry).entries.length = entries.entries.length := by
  have hkeys : (entries.insert sql entry).keys.length = entries.keys.length := by
    have hmem := AList.mem_keys.mp h
    have hpos := List.length_pos_of_mem hmem
    rw [AList.keys_insert, List.length_cons, List.length_erase_of_mem hmem]
    omega
  simpa [AList.keys, List.keys] using hkeys

theorem length_erase_of_mem {entries : AList (fun _ : String => PlanCacheEntry)}
    (h : sql ∈ entries) :
    (entries.erase sql).entries.length = entries.entries.length - 1 := by
  have hkeys : (entries.erase sql).keys.length = entries.keys.length - 1 := by
    rw [AList.keys_erase, List.length_erase_of_mem (AList.mem_keys.mp h)]
  simpa [AList.keys, List.keys] using hkeys

theorem size_get : (cache.get sql version).2.size ≤ cache.size := by
  have hgot := got_get cache sql version
  generalize cache.get sql version = result at hgot
  cases hgot with
  | absent habsent => exact Nat.le_refl _
  | outdated entry hentry hversion =>
    have hmem : sql ∈ cache.entries := AList.lookup_isSome.mp (by rw [hentry]; rfl)
    show (cache.entries.erase sql).entries.length ≤ cache.entries.entries.length
    rw [length_erase_of_mem hmem]
    omega
  | found entry hentry hversion =>
    have hmem : sql ∈ cache.entries := AList.lookup_isSome.mp (by rw [hentry]; rfl)
    exact Nat.le_of_eq (length_insert_of_mem hmem)

/-- **An insert** makes room first when the cache is full. -/
theorem size_insert (h : cache.size ≤ cache.capacity) :
    (cache.insert sql version statement).size ≤ cache.capacity := by
  by_cases hcapacity : cache.capacity = 0
  · rwa [insert, if_pos hcapacity]
  rw [insert, if_neg hcapacity]
  show ((cache.makeRoom sql).insert sql _).entries.length ≤ cache.capacity
  rw [size] at h
  by_cases hmem : sql ∈ cache.entries
  · have hroom : cache.makeRoom sql = cache.entries := by
      rw [makeRoom, if_neg fun hfull => hfull.2 hmem]
    rw [hroom, length_insert_of_mem hmem]
    exact h
  · have hroom : (cache.makeRoom sql).entries.length < cache.capacity ∧
        sql ∉ cache.makeRoom sql := by
      by_cases hfull : cache.capacity ≤ cache.entries.entries.length
      · rw [makeRoom, if_pos ⟨hfull, hmem⟩]
        split
        · rename_i victim hvictim
          obtain ⟨entry, hentry, -⟩ := mem_of_oldest hvictim
          have hvictim : victim ∈ cache.entries := AList.lookup_isSome.mp (by rw [hentry]; rfl)
          rw [length_erase_of_mem hvictim]
          exact ⟨by omega, fun h => hmem (AList.mem_erase.mp h).2⟩
        · rename_i hnone
          rw [oldest, Option.map_eq_none_iff, List.argmin_eq_none] at hnone
          rw [hnone, List.length_nil] at hfull
          omega
      · rw [makeRoom, if_neg fun h => hfull h.1]
        exact ⟨by omega, hmem⟩
    rw [AList.entries_insert_of_notMem hroom.2, List.length_cons]
    omega

/-! ## The stamps -/

theorem stamp_eq_some {t : Nat} :
    cache.stamp key = some t ↔ ∃ entry, cache.entries.lookup key = some entry ∧
      entry.lastUsed = t :=
  Option.map_eq_some_iff

/-- **An eviction** takes the key with the least stamp. -/
theorem evicted (hmem : key ∈ cache.entries) (hgone : key ∉ (cache.insert sql version
      statement).entries) :
    ∃ t, cache.stamp key = some t ∧ ∀ other t', cache.stamp other = some t' → t ≤ t' := by
  have hcapacity : cache.capacity ≠ 0 := by
    intro hcapacity
    rw [insert, if_pos hcapacity] at hgone
    exact hgone hmem
  rw [insert, if_neg hcapacity] at hgone
  have hgone : key ∉ cache.makeRoom sql := fun h => hgone ((AList.mem_insert _).mpr (Or.inr h))
  rw [makeRoom] at hgone
  split at hgone
  · split at hgone
    · rename_i victim hvictim
      have heq : key = victim := by
        by_contra hne
        exact hgone (AList.mem_erase.mpr ⟨hne, hmem⟩)
      obtain ⟨entry, hentry, hleast⟩ := mem_of_oldest hvictim
      refine ⟨entry.lastUsed, stamp_eq_some.mpr ⟨entry, heq ▸ hentry, rfl⟩, ?_⟩
      intro other t' hother
      obtain ⟨entry', hentry', rfl⟩ := stamp_eq_some.mp hother
      exact hleast other entry' hentry'
    · exact absurd hmem hgone
  · exact absurd hmem hgone

end PlanCache

/-! ## The invariant of the calls -/

/-- A call that has a statement or an answer has the right one. -/
def ParseCall.Right (E : Engine) : ParseCall → Prop
  | .idle => True
  | .looking _ _ => True
  | .planned sql _ statement => E.plan (normalizeSql sql) = .ok statement
  | .returned sql result => result = E.plan (normalizeSql sql)

theorem saturatingSucc_eq {n : Nat} (h : n + 1 ≤ maxRowId) : saturatingSucc n = n + 1 :=
  Nat.min_eq_left h

namespace Planning

variable {E : Engine} {capacity id version : Nat} {sql : String} {statement : Statement}
  {s s' : Planning}

/-- What holds of the cache, of the calls and of the history in every run. -/
structure Sound (E : Engine) (capacity : Nat) (s : Planning) : Prop where
  capacity_eq : s.cache.capacity = capacity
  transparent : s.cache.Transparent E
  calls : ∀ id, (s.calls id).Right E
  bounded : s.cache.size ≤ s.cache.capacity
  clock_le : s.cache.clock ≤ s.history.length
  /-- As long as the clock has not stopped. -/
  recent : s.history.length ≤ maxRowId →
    Stamped CacheEvent.used s.history s.cache.clock s.cache.stamp
  versions : ∀ key entry, s.cache.entries.lookup key = some entry →
    lastStored s.history key = some entry.catalogVersion

theorem sound_start : Sound E capacity (start capacity version) where
  capacity_eq := rfl
  transparent := nofun
  calls _ := trivial
  bounded := Nat.zero_le _
  clock_le := Nat.le_refl 0
  recent _ := stamped_nil
  versions := nofun

theorem right_setCall {call : ParseCall} (h : ∀ id, (s.calls id).Right E) (hcall : call.Right E)
    (other : Nat) : (s.setCall id call other).Right E := by
  rw [setCall]
  by_cases heq : other = id
  · rw [heq, Function.update_self]
    exact hcall
  · rw [Function.update_of_ne heq]
    exact h other

/-! ## Each step -/

theorem sound_call (h : Sound E capacity s) :
    Sound E capacity { s with calls := s.setCall id (.looking sql s.version) } where
  capacity_eq := h.capacity_eq
  transparent := h.transparent
  calls := right_setCall h.calls trivial
  bounded := h.bounded
  clock_le := h.clock_le
  recent := h.recent
  versions := h.versions

/-- The call that has planned a statement goes on with it, or returns the error. -/
theorem right_planned : ParseCall.Right E (match E.plan (normalizeSql sql) with
    | .error fault => .returned sql (.error fault)
    | .ok statement => .planned sql version statement) := by
  split
  · rename_i fault hplan
    exact hplan.symm
  · rename_i statement hplan
    exact hplan

/-- The clock after one more operation. -/
theorem Sound.clock_succ (h : Sound E capacity s) :
    saturatingSucc s.cache.clock ≤ s.history.length + 1 :=
  Nat.le_trans (Nat.min_le_left _ _) (Nat.succ_le_succ h.clock_le)

theorem Sound.lt_clock (h : Sound E capacity s) (hlength : s.history.length + 1 ≤ maxRowId) :
    s.cache.clock < saturatingSucc s.cache.clock := by
  have hle := h.clock_le
  rw [saturatingSucc_eq (by omega)]
  exact Nat.lt_succ_self _

/-- **A look into the cache** uses an entry, drops one of another version, or finds nothing. -/
theorem sound_look (h : Sound E capacity s) : Sound E capacity (s.look E id sql version) := by
  have hgot := PlanCache.got_get s.cache (normalizeSql sql) version
  have htransparent := @PlanCache.transparent_get s.cache (normalizeSql sql) version E
    h.transparent
  have hsize := @PlanCache.size_get s.cache (normalizeSql sql) version
  have hplan := fun statement => @PlanCache.plan_of_get s.cache (normalizeSql sql) version
    statement E h.transparent
  unfold look
  generalize s.cache.get (normalizeSql sql) version = result at hgot htransparent hsize hplan
  cases hgot with
  | absent habsent =>
    refine ⟨h.capacity_eq, htransparent, right_setCall h.calls right_planned, h.bounded,
      h.clock_succ, fun hlength => ?_, h.versions⟩
    exact (h.recent (Nat.le_of_succ_le hlength)).pass rfl (Nat.le_of_lt (h.lt_clock hlength))
      fun _ _ ht => ht
  | outdated entry hentry hversion =>
    refine ⟨h.capacity_eq, htransparent, right_setCall h.calls right_planned,
      Nat.le_trans hsize h.bounded, h.clock_succ, fun hlength => ?recent, ?versions⟩
    case recent =>
      refine (h.recent (Nat.le_of_succ_le hlength)).pass rfl (Nat.le_of_lt (h.lt_clock hlength)) ?_
      intro key t ht
      obtain ⟨found, hfound, hstamp⟩ := PlanCache.stamp_eq_some.mp ht
      by_cases heq : key = normalizeSql sql
      · rw [heq, AList.lookup_erase] at hfound
        cases hfound
      · rw [AList.lookup_erase_ne heq] at hfound
        exact PlanCache.stamp_eq_some.mpr ⟨found, hfound, hstamp⟩
    case versions =>
      intro key found hfound
      by_cases heq : key = normalizeSql sql
      · rw [heq, AList.lookup_erase] at hfound
        cases hfound
      · rw [AList.lookup_erase_ne heq] at hfound
        exact h.versions key found hfound
  | found entry hentry hversion =>
    refine ⟨h.capacity_eq, htransparent, right_setCall h.calls (hplan _ rfl).symm,
      Nat.le_trans hsize h.bounded, h.clock_succ, fun hlength => ?recent, ?versions⟩
    case recent =>
      refine (h.recent (Nat.le_of_succ_le hlength)).use rfl (h.lt_clock hlength) ?_ ?_
      · exact PlanCache.stamp_eq_some.mpr ⟨_, AList.lookup_insert _, rfl⟩
      · intro other t hne ht
        obtain ⟨found, hfound, hstamp⟩ := PlanCache.stamp_eq_some.mp ht
        rw [AList.lookup_insert_ne hne] at hfound
        exact PlanCache.stamp_eq_some.mpr ⟨found, hfound, hstamp⟩
    case versions =>
      intro key found hfound
      by_cases heq : key = normalizeSql sql
      · rw [heq, AList.lookup_insert] at hfound
        cases hfound
        rw [heq]
        exact h.versions (normalizeSql sql) entry hentry
      · rw [AList.lookup_insert_ne heq] at hfound
        exact h.versions key found hfound

/-- **A store** uses its key, and may drop another one. -/
theorem sound_store (h : Sound E capacity s)
    (hcall : s.calls id = .planned sql version statement) :
    Sound E capacity (s.store id sql version statement) := by
  have hplan : E.plan (normalizeSql sql) = .ok statement := by
    have hright := h.calls id
    rw [hcall] at hright
    exact hright
  have htransparent := @PlanCache.transparent_insert s.cache (normalizeSql sql) version statement
    E h.transparent hplan
  have hsize := @PlanCache.size_insert s.cache (normalizeSql sql) version statement h.bounded
  unfold store
  by_cases hcapacity : s.cache.capacity = 0
  · have hinsert : s.cache.insert (normalizeSql sql) version statement = s.cache := by
      rw [PlanCache.insert, if_pos hcapacity]
    rw [hinsert, if_pos hcapacity]
    refine ⟨h.capacity_eq, h.transparent, right_setCall h.calls hplan.symm, h.bounded,
      Nat.le_succ_of_le h.clock_le, fun hlength => ?_, h.versions⟩
    exact (h.recent (Nat.le_of_succ_le hlength)).pass rfl (Nat.le_refl _) fun _ _ ht => ht
  · obtain ⟨hself, hother⟩ := @PlanCache.lookup_insert s.cache (normalizeSql sql) version
      statement hcapacity
    have hclock : (s.cache.insert (normalizeSql sql) version statement).clock =
        saturatingSucc s.cache.clock := by
      rw [PlanCache.insert, if_neg hcapacity]
    have hsame : (s.cache.insert (normalizeSql sql) version statement).capacity =
        s.cache.capacity := by
      rw [PlanCache.insert, if_neg hcapacity]
    rw [if_neg hcapacity]
    refine ⟨hsame.trans h.capacity_eq, htransparent, right_setCall h.calls hplan.symm,
      hsame ▸ hsize, hclock ▸ h.clock_succ, fun hlength => ?recent, ?versions⟩
    case recent =>
      show Stamped _ _ (s.cache.insert (normalizeSql sql) version statement).clock _
      rw [hclock]
      refine (h.recent (Nat.le_of_succ_le hlength)).use rfl (h.lt_clock hlength) ?_ ?_
      · exact PlanCache.stamp_eq_some.mpr ⟨_, hself, rfl⟩
      · intro other t hne ht
        obtain ⟨found, hfound, hstamp⟩ := PlanCache.stamp_eq_some.mp ht
        exact PlanCache.stamp_eq_some.mpr ⟨found, hother other found hne hfound, hstamp⟩
    case versions =>
      intro key found hfound
      rw [lastStored]
      by_cases heq : normalizeSql sql = key
      · rw [if_pos heq]
        rw [← heq] at hfound
        cases hself.symm.trans hfound
        rfl
      · rw [if_neg heq]
        exact h.versions key found (hother key found (Ne.symm heq) hfound)

theorem sound_clear (h : Sound E capacity s) :
    Sound E capacity { s with cache := s.cache.clear, history := .cleared :: s.history } where
  capacity_eq := h.capacity_eq
  transparent := nofun
  calls := h.calls
  bounded := Nat.zero_le _
  clock_le := Nat.le_succ_of_le h.clock_le
  recent hlength :=
    (h.recent (Nat.le_of_succ_le hlength)).pass rfl (Nat.le_refl _) nofun
  versions := nofun

/-! ## Runs -/

/-- **One step** keeps the invariant. -/
theorem sound_step {st : PlanStep} (h : Sound E capacity s) (hstep : s.step E st = some s') :
    Sound E capacity s' := by
  cases st with
  | call id sql =>
    rw [step] at hstep
    split at hstep
    · cases hstep
    · cases hstep
    · cases hstep
      exact sound_call h
  | look id =>
    rw [step] at hstep
    split at hstep
    · cases hstep
      exact sound_look h
    · cases hstep
  | store id =>
    rw [step] at hstep
    split at hstep
    · rename_i sql version statement hcall
      cases hstep
      exact sound_store h hcall
    · cases hstep
  | publish version =>
    cases hstep
    exact ⟨h.capacity_eq, h.transparent, h.calls, h.bounded, h.clock_le, h.recent, h.versions⟩
  | clear =>
    cases hstep
    exact sound_clear h

/-- **A whole run** keeps the invariant. -/
theorem sound_run {steps : List PlanStep} (h : Sound E capacity s)
    (hrun : s.run E steps = some s') : Sound E capacity s' := by
  induction steps generalizing s with
  | nil =>
    cases hrun
    exact h
  | cons st steps ih =>
    rw [run] at hrun
    split at hrun
    · cases hrun
    · rename_i next hstep
      exact ih (sound_step h hstep) hrun

/-- A call reads the version of the schema that is published. -/
theorem calls_of_call (hcall : s.step E (.call id sql) = some s') :
    s'.calls id = .looking sql s.version := by
  rw [step] at hcall
  split at hcall
  · cases hcall
  · cases hcall
  · cases hcall
    exact Function.update_self ..

/-- **A hit** is the entry that was stored last under the key, for the version that the call
has read. -/
theorem Sound.hit (h : Sound E capacity s) (hcall : s.calls id = .looking sql version)
    (hlook : s.step E (.look id) = some s')
    (hreturned : s'.calls id = .returned sql (.ok statement)) :
    ∃ entry, s.cache.entries.lookup (normalizeSql sql) = some entry ∧
      entry.statement = statement ∧ entry.catalogVersion = version ∧
      lastStored s.history (normalizeSql sql) = some version := by
  rw [step, hcall] at hlook
  cases hlook
  have hgot := PlanCache.got_get s.cache (normalizeSql sql) version
  unfold look at hreturned
  generalize s.cache.get (normalizeSql sql) version = result at hgot hreturned
  have hnone : s.setCall id (match E.plan (normalizeSql sql) with
      | .error fault => .returned sql (.error fault)
      | .ok statement => .planned sql version statement) id ≠ .returned sql (.ok statement) := by
    rw [setCall, Function.update_self]
    split <;> exact nofun
  cases hgot with
  | absent habsent => exact absurd hreturned hnone
  | outdated entry hentry hversion => exact absurd hreturned hnone
  | found entry hentry hversion =>
    have hstatement : ParseCall.returned sql (.ok entry.statement) =
        .returned sql (.ok statement) := by
      rw [← hreturned]
      show _ = Function.update s.calls id _ id
      rw [Function.update_self]
    cases hstatement
    exact ⟨entry, hentry, rfl, hversion, hversion ▸ h.versions _ entry hentry⟩

/-- **An eviction** takes the key whose last use is oldest. -/
theorem Sound.evicts (h : Sound E capacity s) (hlength : s.history.length ≤ maxRowId)
    (hstore : s.step E (.store id) = some s') {victim other : String}
    (hvictim : victim ∈ s.cache.entries) (hgone : victim ∉ s'.cache.entries)
    (hother : other ∈ s.cache.entries) (hne : other ≠ victim) :
    lastUse CacheEvent.used s.history victim < lastUse CacheEvent.used s.history other := by
  rw [step] at hstore
  split at hstore
  · cases hstore
    obtain ⟨t, ht, hleast⟩ := PlanCache.evicted hvictim hgone
    obtain ⟨entry, hentry⟩ : ∃ entry, s.cache.entries.lookup other = some entry :=
      Option.isSome_iff_exists.mp (AList.lookup_isSome.mpr hother)
    have hstamp := PlanCache.stamp_eq_some.mpr ⟨entry, hentry, rfl⟩
    exact (h.recent hlength).least_recent ht hstamp (hleast other _ hstamp) hne
  · cases hstore

end Planning

/-! ## The main result -/

/-- **The plan cache is transparent, bounded and LRU** in every run of calls, of publications
of a schema and of clearings, whatever runs in between the two halves of a call.  An answer is
the statement parsed and optimized again; there are never more entries than the capacity; a
call reads the version of the schema when it begins, and one that returns from the cache has
found an entry that was stored last for this version; and what a store evicts is the key whose
last use is oldest. -/
theorem plan_cache_is_lru {E : Engine} {capacity version : Nat} {steps : List PlanStep}
    {s : Planning} (hrun : (Planning.start capacity version).run E steps = some s)
    (hlength : s.history.length < 2 ^ 64 - 1) :
    (∀ id sql statement, s.calls id = .returned sql (.ok statement) →
      E.plan (normalizeSql sql) = .ok statement) ∧
    s.cache.size ≤ capacity ∧
    (∀ id sql s', s.step E (.call id sql) = some s' → s'.calls id = .looking sql s.version) ∧
    (∀ id sql version statement s', s.calls id = .looking sql version →
      s.step E (.look id) = some s' → s'.calls id = .returned sql (.ok statement) →
      ∃ entry, s.cache.entries.lookup (normalizeSql sql) = some entry ∧
        entry.statement = statement ∧ entry.catalogVersion = version ∧
        lastStored s.history (normalizeSql sql) = some version) ∧
    ∀ id s' victim, s.step E (.store id) = some s' → victim ∈ s.cache.entries →
      victim ∉ s'.cache.entries →
      ∀ other ∈ s.cache.entries, other ≠ victim →
        lastUse CacheEvent.used s.history victim < lastUse CacheEvent.used s.history other := by
  have hsound := Planning.sound_run (@Planning.sound_start E capacity version) hrun
  refine ⟨?transparent, ?bounded, ?reads, ?hit, ?evicts⟩
  case transparent =>
    intro id sql statement hcall
    have hright := hsound.calls id
    rw [hcall] at hright
    exact hright.symm
  case bounded =>
    rw [← hsound.capacity_eq]
    exact hsound.bounded
  case reads =>
    intro id sql s' hcall
    exact Planning.calls_of_call hcall
  case hit =>
    intro id sql version statement s' hcall hlook hreturned
    exact hsound.hit hcall hlook hreturned
  case evicts =>
    intro id s' victim hstore hvictim hgone other hother hne
    exact hsound.evicts (Nat.le_of_lt hlength) hstore hvictim hgone hother hne

/-- An engine that knows two statements. -/
def planEngine : Engine := sampleEngine [] [("BEGIN", .begin), ("COMMIT", .commit)]

/-- BEGIN is planned, then found, and COMMIT takes its place in a cache for one statement. -/
def beginCommit : List PlanStep :=
  [.call 0 " BEGIN; ", .look 0, .store 0, .call 0 "BEGIN", .look 0, .call 1 "COMMIT", .look 1,
    .store 1]

theorem begin_commit_planned :
    ∃ s, (Planning.start 1 0).run planEngine beginCommit = some s ∧ s.cache.size ≤ 1 := by
  have hlength : ((Planning.start 1 0).run planEngine beginCommit).map
      (fun s => s.history.length) = some 5 := by decide +kernel
  obtain ⟨s, hrun, hs⟩ := Option.map_eq_some_iff.mp hlength
  exact ⟨s, hrun, (plan_cache_is_lru hrun (by omega)).2.1⟩

end Sql
end RustyDB
