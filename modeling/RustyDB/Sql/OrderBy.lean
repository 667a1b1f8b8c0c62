import Mathlib
import RustyDB.Lib.Ordered
import RustyDB.Lib.Rounding
import RustyDB.Sql.Fold

/-!
# ORDER BY

Rows are compared expression by expression; NULL comes first, and a descending expression is
compared the other way round.

* `Value.Before`, `keyBefore` — the order that ORDER BY is to put values and keys in.
* `compareOrderRows_typed` — the comparison of the source decides by this order, for keys
  whose values are of one type for each expression.
* `Keyed.sortBy`, `Keyed.orderProjected` — what sorting does, in full and under a LIMIT.
* `order_by_limit` — **a LIMIT returns the first keys** of the sorted rows, whether they are
  sorted before the projection, after it, or selected first.
-/

namespace RustyDB
namespace Sql

open Ordered

/-! ## The order of values -/

/-- The ascending order. -/
inductive Value.Before : Value → Value → Prop where
  | null {v : Value} (h : v.isNull = false) : Before .null v
  | integer {m n : Int64} (h : m.toInt < n.toInt) : Before (.integer m) (.integer n)
  | float {x y : F64} (h : x.key < y.key) : Before (.float x) (.float y)
  | text {s t : String} (h : s < t) : Before (.text s) (.text t)
  | boolean {a b : Bool} (h : a < b) : Before (.boolean a) (.boolean b)

/-- NULL, or a value of the type that is not NaN. -/
def Value.IsOf (type : DataType) : Value → Prop
  | .null => True
  | .float x => type = .float ∧ x.isNaN = false
  | v => v.dataType = type

theorem Value.IsOf.dataType {type : DataType} {v : Value} (h : v.IsOf type)
    (hv : v.isNull = false) : v.dataType = type := by
  cases v with
  | null => cases hv
  | float x => exact h.1.symm
  | _ => exact h

theorem not_before_null {v : Value} : ¬v.Before .null := by
  intro h
  cases h with
  | null h => cases h

/-- Between two values of one type there is no other type. -/
theorem before_cut {u v w : Value} (hv : v.isNull = false)
    (htype : u.isNull = false → v.dataType = u.dataType) (h : u.Before w) :
    u.Before v ∨ v.Before w := by
  cases h with
  | null h => exact Or.inl (.null hv)
  | @integer m n h =>
    cases v with
    | integer k =>
      exact (lt_or_ge m.toInt k.toInt).imp .integer fun hle => .integer (hle.trans_lt h)
    | _ => cases htype rfl
  | @float x y h =>
    cases v with
    | float z => exact (lt_or_ge x.key z.key).imp .float fun hle => .float (hle.trans_lt h)
    | _ => cases htype rfl
  | @text s t h =>
    cases v with
    | text r => exact (lt_or_ge s r).imp .text fun hle => .text (hle.trans_lt h)
    | _ => cases htype rfl
  | @boolean a b h =>
    cases v with
    | boolean c => exact (lt_or_ge a c).imp .boolean fun hle => .boolean (hle.trans_lt h)
    | _ => cases htype rfl

theorem before_asymm {u v : Value} (huv : u.Before v) : ¬v.Before u := by
  intro hvu
  cases huv with
  | null h => exact not_before_null hvu
  | integer h =>
    cases hvu with
    | integer h' => exact lt_asymm h h'
  | float h =>
    cases hvu with
    | float h' => exact lt_asymm h h'
  | text h =>
    cases hvu with
    | text h' => exact lt_asymm h h'
  | boolean h =>
    cases hvu with
    | boolean h' => exact lt_asymm h h'

theorem weakOn_before (type : DataType) : WeakOn (Value.IsOf type) Value.Before := by
  refine ⟨fun u v _ _ => before_asymm, ?_⟩
  intro u v w hu hv _ huw
  cases hnull : v.isNull with
  | true =>
    obtain rfl := Value.isNull_iff.mp hnull
    refine Or.inr (.null ?_)
    cases hw : w.isNull with
    | true =>
      obtain rfl := Value.isNull_iff.mp hw
      exact absurd huw not_before_null
    | false => rfl
  | false =>
    exact before_cut hnull (fun hu' => (hv.dataType hnull).trans (hu.dataType hu').symm) huw

/-- Apart from the zeros, values that are not before each other are the same. -/
theorem separatesOn_before {type : DataType} (htype : type ≠ .float) :
    SeparatesOn (Value.IsOf type) Value.Before := by
  intro u v hu hv huv hvu
  cases hun : u.isNull with
  | true =>
    obtain rfl := Value.isNull_iff.mp hun
    cases hvn : v.isNull with
    | true => exact (Value.isNull_iff.mp hvn).symm
    | false => exact absurd (.null hvn) huv
  | false =>
    cases hvn : v.isNull with
    | true =>
      obtain rfl := Value.isNull_iff.mp hvn
      exact absurd (.null hun) hvu
    | false =>
      have hsame : v.dataType = u.dataType := (hv.dataType hvn).trans (hu.dataType hun).symm
      cases u with
      | null => cases hun
      | float x => exact absurd hu.1 htype
      | integer m =>
        cases v with
        | integer n =>
          have hle := not_lt.mp fun h => huv (.integer h)
          have hge := not_lt.mp fun h => hvu (.integer h)
          rw [Int64.toInt_inj.mp (le_antisymm hge hle)]
        | _ => cases hsame
      | text s =>
        cases v with
        | text t =>
          rw [le_antisymm (not_lt.mp fun h => hvu (.text h)) (not_lt.mp fun h => huv (.text h))]
        | _ => cases hsame
      | boolean a =>
        cases v with
        | boolean b =>
          rw [le_antisymm (not_lt.mp fun h => hvu (.boolean h))
            (not_lt.mp fun h => huv (.boolean h))]
        | _ => cases hsame

/-- The order of one ORDER BY expression. -/
def directed (descending : Bool) (u v : Value) : Prop :=
  if descending then v.Before u else u.Before v

theorem weakOn_directed (type : DataType) (descending : Bool) :
    WeakOn (Value.IsOf type) (directed descending) := by
  cases descending with
  | false => exact weakOn_before type
  | true => exact (weakOn_before type).reverse

theorem separatesOn_directed {type : DataType} (htype : type ≠ .float) (descending : Bool) :
    SeparatesOn (Value.IsOf type) (directed descending) := by
  cases descending with
  | false => exact separatesOn_before htype
  | true => exact (separatesOn_before htype).reverse

/-- Values with the same order of some ranks. -/
theorem compare_ranks {β : Type} [LinearOrder β] {u v : Value} {a b : β}
    (huv : u.Before v ↔ a < b) (hvu : v.Before u ↔ b < a) :
    (compare a b = .lt ↔ u.Before v) ∧ (compare a b = .gt ↔ v.Before u) := by
  rw [compare_lt_iff_lt, compare_gt_iff_gt, huv, hvu]
  exact ⟨Iff.rfl, Iff.rfl⟩

theorem before_integer {m n : Int64} :
    (Value.integer m).Before (.integer n) ↔ m.toInt < n.toInt := by
  refine ⟨fun h => ?_, .integer⟩
  cases h with
  | integer h => exact h

theorem before_float {x y : F64} : (Value.float x).Before (.float y) ↔ x.key < y.key := by
  refine ⟨fun h => ?_, .float⟩
  cases h with
  | float h => exact h

theorem before_text {s t : String} : (Value.text s).Before (.text t) ↔ s < t := by
  refine ⟨fun h => ?_, .text⟩
  cases h with
  | text h => exact h

theorem before_boolean {a b : Bool} : (Value.boolean a).Before (.boolean b) ↔ a < b := by
  refine ⟨fun h => ?_, .boolean⟩
  cases h with
  | boolean h => exact h

/-- The comparison of the source, of values of one type. -/
theorem compareOrderValues_ascending {type : DataType} {u v : Value} (hu : u.IsOf type)
    (hv : v.IsOf type) :
    (compareOrderValues u v false = .lt ↔ u.Before v) ∧
      (compareOrderValues u v false = .gt ↔ v.Before u) := by
  cases hun : u.isNull with
  | true =>
    obtain rfl := Value.isNull_iff.mp hun
    cases hvn : v.isNull with
    | true =>
      obtain rfl := Value.isNull_iff.mp hvn
      exact ⟨iff_of_false nofun not_before_null, iff_of_false nofun not_before_null⟩
    | false =>
      have hcmp : compareOrderValues .null v false = .lt := by
        cases v with
        | null => cases hvn
        | _ => rfl
      rw [hcmp]
      exact ⟨iff_of_true rfl (.null hvn), iff_of_false nofun not_before_null⟩
  | false =>
    cases hvn : v.isNull with
    | true =>
      obtain rfl := Value.isNull_iff.mp hvn
      have hcmp : compareOrderValues u .null false = .gt := by
        cases u with
        | null => cases hun
        | _ => rfl
      rw [hcmp]
      exact ⟨iff_of_false nofun not_before_null, iff_of_true rfl (.null hun)⟩
    | false =>
      have hsame : v.dataType = u.dataType := (hv.dataType hvn).trans (hu.dataType hun).symm
      cases u with
      | null => cases hun
      | integer m =>
        cases v with
        | integer n => exact compare_ranks before_integer before_integer
        | _ => cases hsame
      | float x =>
        cases v with
        | float y =>
          have hcmp : compareOrderValues (.float x) (.float y) false = compare x.key y.key := by
            have hfloats : compareOrderValues (.float x) (.float y) false =
                (x.partialCmp y).getD .eq := rfl
            rw [hfloats, F64.partialCmp_of_number hu.2 hv.2]
            rfl
          rw [hcmp]
          exact compare_ranks before_float before_float
        | _ => cases hsame
      | text s =>
        cases v with
        | text t => exact compare_ranks before_text before_text
        | _ => cases hsame
      | boolean a =>
        cases v with
        | boolean b => exact compare_ranks before_boolean before_boolean
        | _ => cases hsame

/-- The comparison of one expression. -/
theorem compareOrderValues_typed {type : DataType} {u v : Value} (hu : u.IsOf type)
    (hv : v.IsOf type) (descending : Bool) :
    (compareOrderValues u v descending = .lt ↔ directed descending u v) ∧
      (compareOrderValues u v descending = .gt ↔ directed descending v u) := by
  obtain ⟨hlt, hgt⟩ := compareOrderValues_ascending hu hv
  cases descending with
  | false => exact ⟨hlt, hgt⟩
  | true =>
    have hswap : compareOrderValues u v true = (compareOrderValues u v false).swap := rfl
    rw [hswap, Ordering.swap_eq_lt, Ordering.swap_eq_gt]
    exact ⟨hgt, hlt⟩

/-! ## The order of rows -/

/-- The order of the keys. -/
def keyBefore (descending : List Bool) : List Value → List Value → Prop :=
  Lexicographic (descending.map directed)

/-- Every expression has a value of its type. -/
def Typed (entries : List (Except Fault Value × Bool)) (types : List DataType) : Prop :=
  List.Forall₂ (fun entry type => ∃ value, entry.1 = .ok value ∧ value.IsOf type) entries types

/-- The values of the ORDER BY expressions. -/
def keyOf (entries : List (Except Fault Value × Bool)) : List Value :=
  entries.map (fun entry => entry.1.toOption.getD .null)

theorem weakOn_keyBefore {descending : List Bool} {types : List DataType}
    (h : descending.length = types.length) :
    WeakOn (Entries (types.map Value.IsOf)) (keyBefore descending) := by
  refine weakOn_lexicographic ?_
  rw [List.forall₂_map_left_iff, List.forall₂_map_right_iff, List.forall₂_iff_get]
  exact ⟨h.symm, fun i hi hi' => weakOn_directed _ _⟩

theorem separatesOn_keyBefore {descending : List Bool} {types : List DataType}
    (h : descending.length = types.length) (htypes : ∀ type ∈ types, type ≠ .float) :
    SeparatesOn (Entries (types.map Value.IsOf)) (keyBefore descending) := by
  refine separatesOn_lexicographic ?_
  rw [List.forall₂_map_left_iff, List.forall₂_map_right_iff, List.forall₂_iff_get]
  exact ⟨h.symm, fun i hi hi' => separatesOn_directed (htypes _ (List.get_mem _ _)) _⟩

theorem Typed.entries {entries : List (Except Fault Value × Bool)} {types : List DataType}
    (h : Typed entries types) : Entries (types.map Value.IsOf) (keyOf entries) := by
  unfold Entries keyOf
  rw [List.forall₂_map_left_iff, List.forall₂_map_right_iff]
  refine h.flip.imp ?_
  rintro type entry ⟨value, hvalue, htype⟩
  rw [hvalue]
  exact htype

theorem keyBefore_cons {direction : Bool} {descending : List Bool} {u v : Value}
    {us vs : List Value} : keyBefore (direction :: descending) (u :: us) (v :: vs) ↔
      directed direction u v ∨ ¬directed direction v u ∧ keyBefore descending us vs := Iff.rfl

/-- **The comparison of the source decides by the first keys**, and where these are alike by
what follows. -/
theorem compareOrderRows_append {lefts rights : List (Except Fault Value × Bool)}
    {types : List DataType} {descending : List Bool} (hlefts : Typed lefts types)
    (hrights : Typed rights types) (hleft : lefts.map Prod.snd = descending)
    (hright : rights.map Prod.snd = descending)
    (lefts' rights' : List (Except Fault Value × Bool)) :
    (keyBefore descending (keyOf lefts) (keyOf rights) →
        compareOrderRows (lefts ++ lefts') (rights ++ rights') = .ok .lt) ∧
      (keyBefore descending (keyOf rights) (keyOf lefts) →
        compareOrderRows (lefts ++ lefts') (rights ++ rights') = .ok .gt) ∧
      (¬keyBefore descending (keyOf lefts) (keyOf rights) →
        ¬keyBefore descending (keyOf rights) (keyOf lefts) →
        compareOrderRows (lefts ++ lefts') (rights ++ rights') =
          compareOrderRows lefts' rights') := by
  induction hlefts generalizing rights descending with
  | nil =>
    cases hrights
    subst hleft
    exact ⟨False.elim, False.elim, fun _ _ => rfl⟩
  | @cons left type lefts types hvalue _ ih =>
    cases hrights with
    | @cons right _ rights _ hvalue' hrights =>
      obtain ⟨_, direction⟩ := left
      obtain ⟨_, direction'⟩ := right
      obtain ⟨u, rfl, hu⟩ := hvalue
      obtain ⟨v, rfl, hv⟩ := hvalue'
      subst hleft
      obtain ⟨-, hrest⟩ := List.cons.inj hright
      have hfirst := ih hrights rfl hrest
      obtain ⟨hlt, hgt⟩ := compareOrderValues_typed hu hv direction
      show (keyBefore (direction :: lefts.map Prod.snd) (u :: keyOf lefts) (v :: keyOf rights) →
          compareOrderRows ((.ok u, direction) :: (lefts ++ lefts'))
            ((.ok v, direction') :: (rights ++ rights')) = .ok .lt) ∧
        (keyBefore (direction :: lefts.map Prod.snd) (v :: keyOf rights) (u :: keyOf lefts) →
          compareOrderRows ((.ok u, direction) :: (lefts ++ lefts'))
            ((.ok v, direction') :: (rights ++ rights')) = .ok .gt) ∧
        (¬keyBefore (direction :: lefts.map Prod.snd) (u :: keyOf lefts) (v :: keyOf rights) →
          ¬keyBefore (direction :: lefts.map Prod.snd) (v :: keyOf rights) (u :: keyOf lefts) →
          compareOrderRows ((.ok u, direction) :: (lefts ++ lefts'))
            ((.ok v, direction') :: (rights ++ rights')) = compareOrderRows lefts' rights')
      rw [keyBefore_cons, keyBefore_cons, ← hlt, ← hgt, compareOrderRows]
      cases hcmp : compareOrderValues u v direction with
      | lt => simp
      | gt => simp
      | eq => simpa using hfirst

/-- **The comparison of the source decides by the order of the keys.** -/
theorem compareOrderRows_typed {lefts rights : List (Except Fault Value × Bool)}
    {types : List DataType} {descending : List Bool} (hlefts : Typed lefts types)
    (hrights : Typed rights types) (hleft : lefts.map Prod.snd = descending)
    (hright : rights.map Prod.snd = descending) :
    ∃ ordering, compareOrderRows lefts rights = .ok ordering ∧
      (ordering = .gt ↔ keyBefore descending (keyOf rights) (keyOf lefts)) := by
  obtain ⟨hlt, hgt, heq⟩ := compareOrderRows_append hlefts hrights hleft hright [] []
  rw [List.append_nil, List.append_nil] at hlt hgt heq
  by_cases hgreater : keyBefore descending (keyOf rights) (keyOf lefts)
  · exact ⟨.gt, hgt hgreater, iff_of_true rfl hgreater⟩
  · by_cases hless : keyBefore descending (keyOf lefts) (keyOf rights)
    · exact ⟨.lt, hlt hless, iff_of_false nofun hgreater⟩
    · exact ⟨.eq, heq hless hgreater, iff_of_false nofun hgreater⟩

/-! ## Sorting -/

/-- The comparison decides by the order of these keys, on the rows at hand. -/
structure Keyed (cmp : RowCompare) (key : Row → List Value) (rows : List Row)
    (types : List DataType) (descending : List Bool) : Prop where
  domain : ∀ row ∈ rows, Entries (types.map Value.IsOf) (key row)
  compare : ∀ a ∈ rows, ∀ b ∈ rows, ∃ ordering, cmp a b = .ok ordering ∧
    (ordering = .gt ↔ keyBefore descending (key b) (key a))
  length : descending.length = types.length

section Sorting

variable {cmp : RowCompare} {key : Row → List Value} {rows : List Row} {types : List DataType}
  {descending : List Bool}

theorem Keyed.weakOn (h : Keyed cmp key rows types descending) :
    WeakOn (Entries (types.map Value.IsOf)) (keyBefore descending) := weakOn_keyBefore h.length

theorem Keyed.le_iff (h : Keyed cmp key rows types descending) {a b : Row} (ha : a ∈ rows)
    (hb : b ∈ rows) : cmp a b ≠ .ok .gt ↔ ¬keyBefore descending (key b) (key a) := by
  obtain ⟨ordering, hordering, hgt⟩ := h.compare a ha b hb
  rw [hordering, ← hgt, ne_eq, Except.ok.injEq]

theorem Keyed.orderOn (h : Keyed cmp key rows types descending) : cmp.OrderOn rows := by
  refine ⟨?_, ?_, ?_⟩
  · intro a ha b hb
    obtain ⟨ordering, hordering, -⟩ := h.compare a ha b hb
    exact ⟨ordering, hordering⟩
  · intro a ha b hb
    rw [h.le_iff ha hb, h.le_iff hb ha]
    by_cases hless : keyBefore descending (key b) (key a)
    · exact Or.inr (h.weakOn.asymm _ _ (h.domain b hb) (h.domain a ha) hless)
    · exact Or.inl hless
  · intro a ha b hb c hc
    rw [h.le_iff ha hb, h.le_iff hb hc, h.le_iff ha hc]
    exact h.weakOn.not_less_trans (h.domain a ha) (h.domain b hb) (h.domain c hc)

theorem Keyed.of_subset (h : Keyed cmp key rows types descending) {rows' : List Row}
    (hsubset : ∀ row ∈ rows', row ∈ rows) : Keyed cmp key rows' types descending :=
  ⟨fun row hrow => h.domain row (hsubset row hrow),
    fun a ha b hb => h.compare a (hsubset a ha) b (hsubset b hb), h.length⟩

/-- **Sorting sorts by the keys.** -/
theorem Keyed.sortBy (H : Host) (h : Keyed cmp key rows types descending) :
    ∃ sorted, H.sortBy cmp rows = .ok sorted ∧ sorted.Perm rows ∧
      SortedBy key (keyBefore descending) sorted := by
  refine ⟨_, H.sortBy_eq _ _ h.orderOn, List.perm_insertionSort _ _, ?_⟩
  have hsorted : (rows.insertionSort fun a b => cmp a b ≠ .ok .gt).Pairwise
      (fun a b => cmp a b ≠ .ok .gt) :=
    pairwise_insertionSort_of_mem rows h.orderOn.total h.orderOn.trans
  refine hsorted.imp_of_mem ?_
  intro a b ha hb hle
  exact (h.le_iff ((List.mem_insertionSort _).mp ha) ((List.mem_insertionSort _).mp hb)).mp hle

/-- **Selecting before sorting** finds sorted rows, and of keys that tell rows apart the
first. -/
theorem Keyed.orderProjected (H : Host) (h : Keyed cmp key rows types descending) (k : Nat) :
    ∃ found, orderProjected H (some k) cmp rows = .ok found ∧ found.Subperm rows ∧
      SortedBy key (keyBefore descending) found ∧
      ∀ sorted : List Row, sorted.Perm rows → SortedBy key (keyBefore descending) sorted →
        SeparatesOn (Entries (types.map Value.IsOf)) (keyBefore descending) →
        (found.take k).map key = (sorted.map key).take k := by
  have hdomain : ∀ sorted : List Row, sorted.Perm rows → ∀ row ∈ sorted,
      Entries (types.map Value.IsOf) (key row) :=
    fun sorted hsorted row hrow => h.domain row (hsorted.mem_iff.mp hrow)
  unfold Sql.orderProjected
  dsimp only
  split_ifs with hzero hlt
  · subst hzero
    exact ⟨[], rfl, List.nil_subperm, List.Pairwise.nil, fun _ _ _ _ => rfl⟩
  · obtain ⟨selected, hselected, hselectedPerm, hleast⟩ :=
      H.selectNthUnstableBy_spec k cmp rows hlt h.orderOn
    have hfront : Keyed cmp key (selected.take k) types descending :=
      h.of_subset fun row hrow => hselectedPerm.mem_iff.mp (List.mem_of_mem_take hrow)
    obtain ⟨found, hfound, hperm, hfoundKeys⟩ := hfront.sortBy H
    have hlength : found.length ≤ k := by
      rw [hperm.length_eq, List.length_take]
      exact Nat.min_le_left _ _
    have hsubperm : List.Subperm (selected.take k) rows :=
      ((List.take_sublist k selected).subperm).trans hselectedPerm.subperm
    refine ⟨found, by rw [hselected, Result.ok_bind, hfound], hperm.subperm.trans hsubperm,
      hfoundKeys, ?_⟩
    intro sorted hsorted hkeys hseparates
    rw [List.take_of_length_le hlength]
    refine take_keys_of_selected h.weakOn hseparates (hdomain sorted hsorted) hkeys
      (hselectedPerm.trans hsorted.symm) ?_ hperm hfoundKeys
    intro a ha b hb
    exact (h.le_iff (hselectedPerm.mem_iff.mp (List.mem_of_mem_take ha))
      (hselectedPerm.mem_iff.mp (List.mem_of_mem_drop hb))).mp (hleast a ha b hb)
  · obtain ⟨found, hfound, hperm, hfoundKeys⟩ := h.sortBy H
    refine ⟨found, hfound, hperm.subperm, hfoundKeys, ?_⟩
    intro sorted hsorted hkeys hseparates
    rw [List.map_take, SortedBy.keys_eq hseparates (hdomain sorted hsorted)
      (hsorted.trans hperm.symm) hkeys hfoundKeys]

end Sorting

/-- The key of a row. -/
def Evaluators.key (E : Evaluators) (columns : List BoundColumn) (row : Row) : List Value :=
  keyOf (E.orderBy columns row)

/-! ## ORDER BY under a LIMIT -/

/-- What ORDER BY is evaluated on: the source rows, or the projected ones. -/
structure OrderInput where
  ctes : Ctes
  beforeProjection : Bool
  relation : Relation

/-- The rows that a query without DISTINCT and aggregates sorts. -/
def Query.orderInput (H : Host) (tables : Tables) (query : Query) (inherited : Ctes) :
    Except Fault OrderInput := do
  let ctes ← executeCtes H tables query.ctes inherited
  let relation ← fromRelation H tables query.source ctes query.selection
  let relation ← executeJoins H tables query.joins relation ctes
  let filtered ← applySelection (query.evaluators H tables ctes).selection relation
  if query.ordersSource filtered.columns then pure ⟨ctes, true, filtered⟩
  else do
    let projected ← projectQuery query (query.evaluators H tables ctes) filtered
    pure ⟨ctes, false, projected⟩

/-- The output row of a row that was sorted. -/
def OrderInput.emits (H : Host) (tables : Tables) (query : Query) (input : OrderInput)
    (row output : Row) : Prop :=
  if input.beforeProjection then
    projectRow H tables query.projection input.relation.columns row none input.ctes = .ok output
  else output = row

section Limit

variable {H : Host} {tables : Tables} {inherited : Ctes} {query : Query} {input : OrderInput}

/-- A query from the rows that it sorts. -/
theorem executeQuery_of_orderInput (hdistinct : query.distinct = false)
    (haggregate : query.isAggregate = false) (horder : query.orderBy ≠ [])
    (hinput : query.orderInput H tables inherited = .ok input) (limit : Option Nat) :
    executeQuery H tables { query with limit } inherited =
      (if input.beforeProjection then do
        let rows ← H.sortBy (orderCompare (query.evaluators H tables input.ctes)
          input.relation.columns) input.relation.rows
        let projected ← projectQuery query (query.evaluators H tables input.ctes)
          { input.relation with rows }
        pure (limitRows { query with limit } projected)
      else do
        let rows ← orderProjected H limit (orderCompare (query.evaluators H tables input.ctes)
          input.relation.columns) input.relation.rows
        pure (limitRows { query with limit } { input.relation with rows })) := by
  obtain ⟨ctes, hctes, hinput⟩ := Result.bind_eq_ok.mp hinput
  obtain ⟨scanned, hscanned, hinput⟩ := Result.bind_eq_ok.mp hinput
  obtain ⟨joined, hjoined, hinput⟩ := Result.bind_eq_ok.mp hinput
  obtain ⟨filtered, hfiltered, hinput⟩ := Result.bind_eq_ok.mp hinput
  have hnonempty : query.orderBy.isEmpty = false := by
    cases horders : query.orderBy with
    | nil => exact absurd horders horder
    | cons order orders => rfl
  have hquery : executeQuery H tables { query with limit } inherited =
      finishQuery H { query with limit } (query.evaluators H tables ctes) joined := by
    rw [executeQuery_eq]
    unfold executeQueryScanning
    simp only [hctes, hscanned, hjoined, Result.ok_bind]
    rfl
  have hsource : ({ query with limit } : Query).ordersSource filtered.columns =
      query.ordersSource filtered.columns := rfl
  have houtput : ∀ relation, outputRelation { query with limit } (query.evaluators H tables ctes)
      relation = projectQuery query (query.evaluators H tables ctes) relation := by
    intro relation
    unfold outputRelation
    rw [show ({ query with limit } : Query).isAggregate = false from haggregate]
    rfl
  have hdistinctRows : ∀ relation, distinctRows { query with limit } relation = relation := by
    intro relation
    unfold distinctRows
    rw [show ({ query with limit } : Query).distinct = false from hdistinct]
    rfl
  rw [hquery]
  unfold finishQuery
  simp only [hfiltered, Result.ok_bind, houtput, hdistinctRows, hsource]
  unfold orderSource orderOutput
  rw [hsource, show ({ query with limit } : Query).orderBy.isEmpty = false from hnonempty]
  cases hsorts : query.ordersSource filtered.columns with
  | true =>
    rw [hsorts, if_pos rfl] at hinput
    obtain rfl := Except.ok.inj hinput
    simp only [if_true, Bool.not_false, Bool.not_true, Bool.and_false, Bool.false_eq_true, if_false,
      Result.ok_bind]
    cases H.sortBy (orderCompare (query.evaluators H tables ctes) filtered.columns)
      filtered.rows <;> rfl
  | false =>
    rw [hsorts, if_neg Bool.false_ne_true] at hinput
    obtain ⟨projected, hprojected, hinput⟩ := Result.bind_eq_ok.mp hinput
    obtain rfl := Except.ok.inj hinput
    simp only [Bool.false_eq_true, if_false, Bool.not_false, Bool.and_true, if_true, Result.ok_bind,
      hprojected]
    cases orderProjected H limit (orderCompare (query.evaluators H tables ctes) projected.columns)
      projected.rows <;> rfl

theorem evalOrderValues_directions (H : Host) (tables : Tables) (orders : List OrderBy)
    (columns : List BoundColumn) (row : Row) (ctes : Ctes) :
    (evalOrderValues H tables orders columns row ctes).map Prod.snd =
      orders.map OrderBy.descending := by
  induction orders with
  | nil => rw [evalOrderValues]; rfl
  | cons order orders ih =>
    obtain ⟨expr, descending⟩ := order
    rw [evalOrderValues, List.map_cons, List.map_cons, ih]

theorem keyed_of_typed {ctes : Ctes} {relation : Relation} {types : List DataType}
    (hlength : query.orderBy.length = types.length)
    (hkeys : ∀ row ∈ relation.rows,
      Typed (evalOrderValues H tables query.orderBy relation.columns row ctes) types) :
    Keyed (orderCompare (query.evaluators H tables ctes) relation.columns)
      ((query.evaluators H tables ctes).key relation.columns) relation.rows types
      (query.orderBy.map OrderBy.descending) :=
  ⟨fun row hrow => (hkeys row hrow).entries,
    fun a ha b hb => compareOrderRows_typed (hkeys a ha) (hkeys b hb)
      (evalOrderValues_directions ..) (evalOrderValues_directions ..),
    by rw [List.length_map, hlength]⟩

/-- **ORDER BY with a LIMIT returns the first keys of the sorted rows**, on every path. -/
theorem order_by_limit (H : Host) (tables : Tables) (inherited : Ctes) (query : Query)
    (hdistinct : query.distinct = false) (haggregate : query.isAggregate = false)
    (horder : query.orderBy ≠ []) (input : OrderInput)
    (hinput : query.orderInput H tables inherited = .ok input) (types : List DataType)
    (htypes : ∀ type ∈ types, type = .integer ∨ type = .text ∨ type = .boolean)
    (hlength : query.orderBy.length = types.length)
    (hkeys : ∀ row ∈ input.relation.rows, Typed (evalOrderValues H tables query.orderBy
      input.relation.columns row input.ctes) types)
    (full : Relation)
    (hfull : executeQuery H tables { query with limit := none } inherited = .ok full) (k : Nat) :
    ∃ part sorted first,
      executeQuery H tables { query with limit := some k } inherited = .ok part ∧
      part.columns = full.columns ∧ part.rows.Subperm full.rows ∧
      part.rows.length = min k full.rows.length ∧
      sorted.Perm input.relation.rows ∧
      SortedBy ((query.evaluators H tables input.ctes).key input.relation.columns)
        (keyBefore (query.orderBy.map OrderBy.descending)) sorted ∧
      List.Forall₂ (input.emits H tables query) sorted full.rows ∧
      first.Subperm input.relation.rows ∧
      List.Forall₂ (input.emits H tables query) first part.rows ∧
      first.map ((query.evaluators H tables input.ctes).key input.relation.columns) =
        (sorted.map
          ((query.evaluators H tables input.ctes).key input.relation.columns)).take k := by
  have hkeyed := keyed_of_typed hlength hkeys
  have hnofloat : ∀ type ∈ types, type ≠ .float := by
    intro type hmem
    rcases htypes type hmem with rfl | rfl | rfl <;> decide
  obtain ⟨sorted, hsort, hperm, hsorted⟩ := hkeyed.sortBy H
  rw [executeQuery_of_orderInput hdistinct haggregate horder hinput] at hfull ⊢
  cases hbefore : input.beforeProjection with
  | true =>
    rw [hbefore, if_pos rfl, hsort, Result.ok_bind] at hfull
    obtain ⟨projected, hprojected, hfull⟩ := Result.bind_eq_ok.mp hfull
    obtain rfl := Except.ok.inj hfull
    have hemits : List.Forall₂ (input.emits H tables query) sorted projected.rows := by
      obtain ⟨columns, hcolumns, hprojected⟩ := Result.bind_eq_ok.mp hprojected
      obtain ⟨rows, hrows, hprojected⟩ := Result.bind_eq_ok.mp hprojected
      obtain rfl := Except.ok.inj hprojected
      refine (Result.mapM_eq_ok.mp hrows).imp ?_
      intro row output h
      rw [OrderInput.emits, hbefore, if_pos rfl]
      exact h
    have hpart : (do
        let projected ← projectQuery query (query.evaluators H tables input.ctes)
          { input.relation with rows := sorted }
        pure (limitRows { query with limit := some k } projected) : Except Fault Relation) =
          .ok { projected with rows := projected.rows.take k } := by
      rw [hprojected]
      rfl
    refine ⟨{ projected with rows := projected.rows.take k }, sorted, sorted.take k, ?_, rfl,
      (List.take_sublist k projected.rows).subperm, List.length_take, hperm, hsorted, hemits,
      ((List.take_sublist k sorted).subperm).trans hperm.subperm,
      List.forall₂_take k hemits, List.map_take⟩
    rw [if_pos rfl, hsort, Result.ok_bind]
    exact hpart
  | false =>
    rw [hbefore, if_neg Bool.false_ne_true] at hfull
    have hall : orderProjected H none (orderCompare (query.evaluators H tables input.ctes)
        input.relation.columns) input.relation.rows = .ok sorted := hsort
    rw [hall, Result.ok_bind] at hfull
    obtain rfl := Except.ok.inj hfull
    obtain ⟨found, hfound, hfoundSubperm, -, hkeysOf⟩ := hkeyed.orderProjected H k
    have hfirst := hkeysOf sorted hperm hsorted
      (separatesOn_keyBefore (by rw [List.length_map, hlength]) hnofloat)
    have hsubperm : List.Subperm (found.take k) input.relation.rows :=
      ((List.take_sublist k found).subperm).trans hfoundSubperm
    have hemits : ∀ rows, List.Forall₂ (input.emits H tables query) rows rows := by
      intro rows
      refine List.forall₂_same.mpr ?_
      intro row _
      rw [OrderInput.emits, hbefore, if_neg Bool.false_ne_true]
    refine ⟨{ input.relation with rows := found.take k }, sorted, found.take k, ?_, rfl,
      hsubperm.trans hperm.symm.subperm, ?_, hperm, hsorted, hemits _, hsubperm, hemits _, hfirst⟩
    · rw [if_neg Bool.false_ne_true, hfound, Result.ok_bind]
      rfl
    have hcount := congrArg List.length hfirst
    rw [List.length_map, List.length_take, List.length_take, List.length_map] at hcount
    exact List.length_take.trans hcount

end Limit

/-- `SELECT a FROM t ORDER BY a DESC`. -/
def selectDescending : Query :=
  { ctes := [], distinct := false, projection := [.expr (.column none "a") none],
    source := some (.table "t" none), joins := [], selection := none, groupBy := [],
    having := none, orderBy := [⟨.column none "a", true⟩], limit := none }

/-- A relation named `t` with one column `a`. -/
def relationOf (values : List Value) : Ctes :=
  (∅ : Ctes).insert "t" { columns := [⟨"t", "a"⟩], rows := values.map fun v => [v] }

/-- Two of three rows, one of them NULL. -/
theorem two_of_three_rows :
    ∃ part, executeQuery Host.reference ∅ { selectDescending with limit := some 2 }
        (relationOf [.integer 1, .null, .integer 2]) = .ok part ∧
      part.rows.Subperm [[.integer 2], [.integer 1], [.null]] ∧ part.rows.length = 2 := by
  have hkeys : ∀ row ∈ [[Value.integer 1], [.null], [.integer 2]],
      Typed (evalOrderValues Host.reference ∅ selectDescending.orderBy [⟨"t", "a"⟩] row
        (relationOf [.integer 1, .null, .integer 2])) [.integer] := by
    intro row hrow
    simp only [List.mem_cons, List.not_mem_nil, or_false] at hrow
    rcases hrow with rfl | rfl | rfl
    · exact .cons ⟨.integer 1, rfl, rfl⟩ .nil
    · exact .cons ⟨.null, rfl, trivial⟩ .nil
    · exact .cons ⟨.integer 2, rfl, rfl⟩ .nil
  obtain ⟨part, sorted, first, hpart, -, hsubperm, hlength, -⟩ :=
    order_by_limit Host.reference ∅ (relationOf [.integer 1, .null, .integer 2])
      selectDescending rfl rfl nofun
      ⟨relationOf [.integer 1, .null, .integer 2], true,
        ⟨[⟨"t", "a"⟩], [[.integer 1], [.null], [.integer 2]]⟩⟩ rfl [.integer] (by simp) rfl hkeys
      ⟨[⟨"", "a"⟩], [[.integer 2], [.integer 1], [.null]]⟩ rfl 2
  exact ⟨part, hpart, hsubperm, hlength⟩

end Sql
end RustyDB
