import Mathlib
import RustyDB.Lib.Rounding
import RustyDB.Sql.Arithmetic
import RustyDB.Sql.RowKeys

/-!
# SUM over integers

`eval_aggregate` adds integers up in a double and converts it back: each value and each
running sum is rounded to 53 significant bits.

* `runningSum`, `roundingErrors` — what the double holds, and by how much it is off.
* `sumValues_integers` — the accumulator is the running sum, and never grows out of range.
* `summands` — the integers that are added, the distinct ones under DISTINCT.
* `sum_eq_exact_iff` — SUM is exact exactly when there is a summand and the rounding errors
  cancel, or are absorbed at an end of the range.
* `FewBitSums`, `sum_exact_of_fewBits` — **SUM is exact while each value and each sum of
  first values has at most 53 significant bits**, so that nothing is rounded.
* `value_summed_wrong`, `sum_wrong_of_manyBits` — where a value has more bits it is summed wrong
  on its own, and where a sum of first values has, these values are.
* `fewBitSums_of_small` — so it is while the magnitudes add up to less than `2 ^ 53`.
-/

namespace RustyDB
namespace Sql

open F64

/-! ## The accumulator -/

/-- What the accumulator holds after it is given integers. -/
def runningSum (total : Int) : List Int → Int
  | [] => total
  | n :: ns => runningSum (roundInt (total + roundInt n)) ns

/-- What rounding adds, to each integer and to each sum. -/
def roundingErrors (total : Int) : List Int → Int
  | [] => 0
  | n :: ns =>
    (roundInt n - n) + (roundInt (total + roundInt n) - (total + roundInt n)) +
      roundingErrors (roundInt (total + roundInt n)) ns

theorem runningSum_eq (total : Int) (ns : List Int) :
    runningSum total ns = total + ns.sum + roundingErrors total ns := by
  induction ns generalizing total with
  | nil => simp [runningSum, roundingErrors]
  | cons n ns ih =>
    rw [runningSum, ih, roundingErrors, List.sum_cons]
    omega

theorem runningSum_append (total : Int) (first rest : List Int) :
    runningSum total (first ++ rest) = runningSum (runningSum total first) rest := by
  induction first generalizing total with
  | nil => rfl
  | cons n first ih => exact ih _

/-- **The accumulator stays within `2 ^ 118`**: there an integer is too small to move it. -/
theorem natAbs_roundInt_add_le {total n : Int} (htotal : total.natAbs ≤ 2 ^ 118)
    (hn : n.natAbs ≤ 2 ^ 63) : (roundInt (total + roundInt n)).natAbs ≤ 2 ^ 118 := by
  have hround : (roundInt n).natAbs ≤ 2 ^ 63 := by
    rw [natAbs_roundInt]
    exact roundNat_le_pow hn
  rw [natAbs_roundInt]
  rcases Nat.le_total (total + roundInt n).natAbs (2 ^ 118) with hle | hge
  · exact roundNat_le_pow hle
  · obtain ⟨excess, hexcess⟩ : ∃ excess, (total + roundInt n).natAbs = 2 ^ 118 + excess :=
      ⟨(total + roundInt n).natAbs - 2 ^ 118, by omega⟩
    rw [hexcess, roundNat_pow_add (by decide) (by omega)]

theorem natAbs_toInt_le (n : Int64) : n.toInt.natAbs ≤ 2 ^ 63 := by
  have := n.le_toInt
  have := n.toInt_lt
  omega

/-- The loop of SUM over integers. -/
theorem sumValues_integers (ns : List Int64) {sum : F64} {total : Int} (hsum : IsWhole sum total)
    (htotal : total.natAbs ≤ 2 ^ 118) :
    ∃ sum', sumValues sum true (ns.map .integer) = .ok (sum', true) ∧
      IsWhole sum' (runningSum total (ns.map Int64.toInt)) := by
  induction ns generalizing sum total with
  | nil => exact ⟨sum, rfl, hsum⟩
  | cons n ns ih =>
    have hn := natAbs_toInt_le n
    have hnext := natAbs_roundInt_add_le htotal hn
    have hround : (roundInt n.toInt).natAbs ≤ 2 ^ 63 := by
      rw [natAbs_roundInt]
      exact roundNat_le_pow hn
    have hvalue : IsWhole (Value.intToFloat n) (roundInt n.toInt) :=
      isWhole_ofInt (hn.trans_lt (by decide))
    have hadd : (total + roundInt n.toInt).natAbs < 2 ^ 200 := by
      have hlt : 2 ^ 118 + 2 ^ 63 < 2 ^ 200 := by decide
      omega
    exact ih (hsum.add hvalue hadd) hnext

/-! ## The summands -/

/-- The integers among values. -/
def integersOf (values : List Value) : List Int64 :=
  values.filterMap fun value =>
    match value with
    | .integer n => some n
    | _ => none

/-- The integers that are added. -/
def summands (distinct : Bool) (values : List Value) : List Int64 :=
  if distinct then (integersOf values).eraseDups else integersOf values

/-- The values are integers and NULL. -/
def AllIntegers (values : List Value) : Prop :=
  ∀ value ∈ values, value = .null ∨ ∃ n, value = .integer n

theorem present_integers {values : List Value} (h : AllIntegers values) :
    values.filter (fun value => !value.isNull) = (integersOf values).map .integer := by
  induction values with
  | nil => rfl
  | cons value values ih =>
    have hrest := ih fun other hother => h other (List.mem_cons_of_mem _ hother)
    rcases h value List.mem_cons_self with rfl | ⟨n, rfl⟩
    · exact hrest
    · rw [List.filter_cons_of_pos rfl, hrest]
      rfl

theorem injective_integer : Function.Injective Value.integer := fun _ _ h => Value.integer.inj h

/-- What SUM goes through: the integers, under DISTINCT the first of equal ones. -/
theorem present_summands {values : List Value} (h : AllIntegers values) (distinct : Bool) :
    (if distinct then retainFirst valueKey [] values else values).filter
      (fun value => !value.isNull) = (summands distinct values).map .integer := by
  rw [summands]
  cases distinct with
  | false => exact present_integers h
  | true =>
    have hfirst := retainFirst_eq valueKey_injective [] values
    rw [List.filter_eq_self.mpr (by simp)] at hfirst
    rw [if_pos rfl, if_pos rfl, show retainFirst valueKey [] values = values.eraseDups from hfirst,
      filter_eraseDups, present_integers h, map_eraseDups injective_integer]

/-- SUM of no integer is NULL, else what the accumulator converts to. -/
theorem finishAggregate_sum {values : List Value} (h : AllIntegers values) (distinct : Bool) :
    finishAggregate .sum distinct values =
      if summands distinct values = [] then .ok .null
      else .ok (.integer (Int64.ofInt
        (clamp (runningSum 0 ((summands distinct values).map Int64.toInt))))) := by
  rw [finishAggregate]
  simp only [present_summands h distinct]
  cases hsummands : summands distinct values with
  | nil => rfl
  | cons first rest =>
    obtain ⟨sum, hsum, hwhole⟩ :=
      sumValues_integers (first :: rest) isWhole_zero (by decide : (0 : Int).natAbs ≤ 2 ^ 118)
    rw [if_neg (List.cons_ne_nil _ _)]
    rw [List.map_cons] at hsum
    simp only [List.map_cons, hsum, Result.ok_bind]
    rw [hwhole.toInt64_eq]
    rfl

/-! ## Exactness -/

/-- The rounding errors cancel, or go beyond the end of the range the sum is at. -/
def ErrorsAbsorbed (ns : List Int) : Prop :=
  roundingErrors 0 ns = 0 ∨ (ns.sum = 2 ^ 63 - 1 ∧ 0 < roundingErrors 0 ns) ∨
    (ns.sum = -2 ^ 63 ∧ roundingErrors 0 ns < 0)

theorem clamp_eq_iff {total errors : Int} (h : FitsInt64 total) :
    clamp (total + errors) = total ↔ errors = 0 ∨ (total = 2 ^ 63 - 1 ∧ 0 < errors) ∨
      (total = -2 ^ 63 ∧ errors < 0) := by
  obtain ⟨hlow, hhigh⟩ := h
  unfold clamp
  omega

theorem fitsInt64_clamp (n : Int) : FitsInt64 (clamp n) := by
  unfold clamp FitsInt64
  omega

/-- SUM over integers is exact exactly when there is a summand and the rounding errors cancel,
or are absorbed at an end of the range. -/
theorem sum_eq_exact_iff (H : Host) (tables : Tables) (columns : List BoundColumn) (row : Row)
    (ctes : Ctes) (expr : Expr) (distinct : Bool) (group : List Row) (values : List Value)
    (hvalues : group.mapM (fun row => evalExpr H tables expr columns row none ctes) = .ok values)
    (hintegers : AllIntegers values)
    (hfits : FitsInt64 ((summands distinct values).map Int64.toInt).sum) :
    evalExpr H tables (.aggregate .sum (some expr) distinct) columns row (some group) ctes =
        .ok (.integer (Int64.ofInt ((summands distinct values).map Int64.toInt).sum)) ↔
      summands distinct values ≠ [] ∧
        ErrorsAbsorbed ((summands distinct values).map Int64.toInt) := by
  have heval : evalExpr H tables (.aggregate .sum (some expr) distinct) columns row (some group)
      ctes = finishAggregate .sum distinct values := by
    rw [evalExpr]
    simp only [hvalues, Result.ok_bind]
  rw [heval, finishAggregate_sum hintegers]
  split_ifs with hnil
  · exact iff_of_false (fun h => by cases h) (fun h => h.1 hnil)
  · rw [runningSum_eq, Int.zero_add, Except.ok.injEq, Value.integer.injEq, ErrorsAbsorbed,
      ← clamp_eq_iff hfits, ← Int64.toInt_inj, toInt_ofInt_of_fits (fitsInt64_clamp _),
      toInt_ofInt_of_fits hfits]
    exact (and_iff_right hnil).symm

/-- Each integer, and the sum of the first ones, however many, has at most 53 significant
bits. -/
structure FewBitSums (ns : List Int) : Prop where
  values : ∀ n ∈ ns, FewBits n
  sums : ∀ first, first <+: ns → FewBits first.sum

/-- Without rounding there are no errors. -/
theorem roundingErrors_of_fewBits {ns : List Int} {total : Int} (hvalues : ∀ n ∈ ns, FewBits n)
    (hsums : ∀ first, first <+: ns → FewBits (total + first.sum)) :
    roundingErrors total ns = 0 := by
  induction ns generalizing total with
  | nil => rfl
  | cons n ns ih =>
    have hn : roundInt n = n := roundInt_eq_self_iff.mpr (hvalues n List.mem_cons_self)
    have hsum : roundInt (total + n) = total + n := by
      have hfirst := hsums [n] ⟨ns, rfl⟩
      rw [List.sum_singleton] at hfirst
      exact roundInt_eq_self_iff.mpr hfirst
    have hrest : roundingErrors (total + n) ns = 0 := by
      refine ih (fun m hm => hvalues m (List.mem_cons_of_mem _ hm)) fun first hfirst => ?_
      have hlonger := hsums (n :: first) (List.cons_prefix_cons.mpr ⟨rfl, hfirst⟩)
      rwa [List.sum_cons, ← Int.add_assoc] at hlonger
    rw [roundingErrors, hn, hsum, hrest]
    omega

/-- **SUM over integers is exact while no value, and no sum of the first values, needs more
than 53 bits**: then nothing is rounded. -/
theorem sum_exact_of_fewBits (H : Host) (tables : Tables) (columns : List BoundColumn) (row : Row)
    (ctes : Ctes) (expr : Expr) (distinct : Bool) (group : List Row) (values : List Value)
    (hvalues : group.mapM (fun row => evalExpr H tables expr columns row none ctes) = .ok values)
    (hintegers : AllIntegers values) (hne : summands distinct values ≠ [])
    (hfits : FitsInt64 ((summands distinct values).map Int64.toInt).sum)
    (hbits : FewBitSums ((summands distinct values).map Int64.toInt)) :
    evalExpr H tables (.aggregate .sum (some expr) distinct) columns row (some group) ctes =
      .ok (.integer (Int64.ofInt ((summands distinct values).map Int64.toInt).sum)) := by
  have herrors := @roundingErrors_of_fewBits _ 0 hbits.values fun first hfirst => by
    rw [Int.zero_add]
    exact hbits.sums first hfirst
  exact (sum_eq_exact_iff H tables columns row ctes expr distinct group values hvalues hintegers
    hfits).mpr ⟨hne, Or.inl herrors⟩

/-- What SUM makes of integers that are all added. -/
theorem finishAggregate_integers {ns : List Int64} (hne : ns ≠ []) :
    finishAggregate .sum false (ns.map .integer) =
      .ok (.integer (Int64.ofInt (clamp (runningSum 0 (ns.map Int64.toInt))))) := by
  have hintegers : AllIntegers (ns.map .integer) := by
    intro value hvalue
    obtain ⟨n, -, rfl⟩ := List.mem_map.mp hvalue
    exact Or.inr ⟨n, rfl⟩
  have hsummands : summands false (ns.map .integer) = ns := by
    show (ns.map Value.integer).filterMap _ = ns
    rw [List.filterMap_map]
    exact List.filterMap_some
  rw [finishAggregate_sum hintegers, hsummands, if_neg hne]

/-- A sum that is off by rounding is not made right by the conversion back, but for the
greatest integer. -/
theorem clamp_roundInt_ne {n : Int} (hfits : FitsInt64 n) (hmax : n ≠ 2 ^ 63 - 1)
    (hbits : ¬FewBits n) : clamp (roundInt n) ≠ n := by
  have hround : roundInt n ≠ n := mt roundInt_eq_self_iff.mp hbits
  have hbound : (roundInt n).natAbs ≤ 2 ^ 63 := by
    rw [natAbs_roundInt]
    refine roundNat_le_pow ?_
    obtain ⟨hlow, hhigh⟩ := hfits
    omega
  obtain ⟨hlow, hhigh⟩ := hfits
  unfold clamp
  omega

/-- **A value of more bits is summed wrong on its own.** -/
theorem value_summed_wrong {n : Int64} (hmax : n.toInt ≠ 2 ^ 63 - 1) (hbits : ¬FewBits n.toInt) :
    finishAggregate .sum false [.integer n] ≠ .ok (.integer n) := by
  have hround : runningSum 0 [n.toInt] = roundInt (roundInt n.toInt) := by
    rw [runningSum, runningSum, Int.zero_add]
  have hagain : roundInt (roundInt n.toInt) = roundInt n.toInt :=
    roundInt_eq_self_iff.mpr (fewBits_roundInt n.toInt)
  have hsum := @finishAggregate_integers [n] (List.cons_ne_nil _ _)
  rw [List.map_singleton, List.map_singleton, hround, hagain] at hsum
  rw [hsum]
  intro h
  have heq := congrArg Int64.toInt (Value.integer.inj (Except.ok.inj h))
  rw [toInt_ofInt_of_fits (fitsInt64_clamp _)] at heq
  exact clamp_roundInt_ne (fitsInt64_toInt n) hmax hbits heq

/-- **First values whose sum has more bits are summed wrong**, where nothing has been rounded
up to the last of them. -/
theorem sum_wrong_of_manyBits {ns : List Int64} {n : Int64} (h : FewBitSums (ns.map Int64.toInt))
    (hn : FewBits n.toInt) (hfits : FitsInt64 ((ns.map Int64.toInt).sum + n.toInt))
    (hmax : (ns.map Int64.toInt).sum + n.toInt ≠ 2 ^ 63 - 1)
    (hbits : ¬FewBits ((ns.map Int64.toInt).sum + n.toInt)) :
    finishAggregate .sum false ((ns ++ [n]).map .integer) ≠
      .ok (.integer (Int64.ofInt ((ns.map Int64.toInt).sum + n.toInt))) := by
  have hexact : runningSum 0 (ns.map Int64.toInt) = (ns.map Int64.toInt).sum := by
    have herrors := @roundingErrors_of_fewBits _ 0 h.values fun first hfirst => by
      rw [Int.zero_add]
      exact h.sums first hfirst
    rw [runningSum_eq, herrors]
    omega
  have hlast : runningSum 0 ((ns ++ [n]).map Int64.toInt) =
      roundInt ((ns.map Int64.toInt).sum + n.toInt) := by
    rw [List.map_append, runningSum_append, hexact, List.map_singleton, runningSum, runningSum,
      roundInt_eq_self_iff.mpr hn]
  rw [finishAggregate_integers (List.append_ne_nil_of_right_ne_nil _ (List.cons_ne_nil _ _)), hlast]
  intro heq
  have heq := congrArg Int64.toInt (Value.integer.inj (Except.ok.inj heq))
  rw [toInt_ofInt_of_fits (fitsInt64_clamp _), toInt_ofInt_of_fits hfits] at heq
  exact clamp_roundInt_ne hfits hmax hbits heq

/-- Roundings of a value and of a sum can cancel. -/
example : runningSum 0 [-5, 2 ^ 54 + 1] = -5 + (2 ^ 54 + 1) := by decide +kernel

/-- The condition holds while the magnitudes of the integers add up to less than `2 ^ 53`. -/
theorem fewBitSums_of_small {ns : List Int} (h : (ns.map Int.natAbs).sum < 2 ^ 53) :
    FewBitSums ns := by
  have hfew : ∀ n : Int, n.natAbs < 2 ^ 53 → FewBits n := by
    intro n hn
    rw [FewBits, ← roundNat_eq_self_iff]
    exact roundNat_of_lt hn
  have habs : ∀ first : List Int, first.sum.natAbs ≤ (first.map Int.natAbs).sum := by
    intro first
    induction first with
    | nil => rfl
    | cons n first ih =>
      rw [List.sum_cons, List.map_cons, List.sum_cons]
      exact (Int.natAbs_add_le n first.sum).trans (by omega)
  refine ⟨fun n hn => hfew n ?_, fun first hfirst => hfew first.sum ?_⟩
  · have hle : n.natAbs ≤ (ns.map Int.natAbs).sum :=
      List.le_sum_of_mem (List.mem_map_of_mem hn)
    omega
  · obtain ⟨rest, rfl⟩ := hfirst
    have hfirst := habs first
    rw [List.map_append, List.sum_append] at h
    omega

theorem sum_of_two_exact :
    evalExpr Host.reference ∅ (.aggregate .sum (some (.column none "a")) false) [⟨"t", "a"⟩] []
      (some [[.integer 3], [.null], [.integer 4]]) ∅ = .ok (.integer 7) := by
  have hintegers : AllIntegers [.integer 3, .null, .integer 4] := by
    intro value hvalue
    simp only [List.mem_cons, List.not_mem_nil, or_false] at hvalue
    rcases hvalue with rfl | rfl | rfl
    · exact Or.inr ⟨3, rfl⟩
    · exact Or.inl rfl
    · exact Or.inr ⟨4, rfl⟩
  have hbits : FewBitSums [3, 4] := fewBitSums_of_small (by decide)
  exact sum_exact_of_fewBits Host.reference ∅ [⟨"t", "a"⟩] [] ∅ (.column none "a") false
    [[.integer 3], [.null], [.integer 4]] [.integer 3, .null, .integer 4] (by rfl) hintegers
    (by decide) (by decide) hbits

/-- The integer after `2 ^ 53` is no double: summed alone it comes back as `2 ^ 53`. -/
theorem large_integer_summed_wrong :
    evalExpr Host.reference ∅ (.aggregate .sum (some (.column none "a")) false) [⟨"t", "a"⟩] []
        (some [[.integer 9007199254740993]]) ∅ = .ok (.integer 9007199254740992) ∧
      (9007199254740992 : Int64) ≠ 9007199254740993 := by
  refine ⟨?_, by decide⟩
  have hvalues : [[Value.integer 9007199254740993]].mapM (fun row =>
      evalExpr Host.reference ∅ (.column none "a") [⟨"t", "a"⟩] row none ∅) =
      .ok [.integer 9007199254740993] := rfl
  have hsum : Int64.ofInt (clamp (runningSum 0 [9007199254740993])) = 9007199254740992 := by
    decide +kernel
  rw [evalExpr]
  simp only [hvalues, Result.ok_bind]
  rw [finishAggregate_sum (by
    intro value hvalue
    exact Or.inr ⟨_, List.mem_singleton.mp hvalue⟩)]
  exact congrArg (fun n => Except.ok (Value.integer n)) hsum

end Sql
end RustyDB
