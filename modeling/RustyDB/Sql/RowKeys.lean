import Mathlib
import RustyDB.Lib.Delimited
import RustyDB.Lib.Result
import RustyDB.Sql.Query

/-!
# Row keys

GROUP BY and DISTINCT compare rows by one text: the keys of the values with a separator
between them.

* `valueKey_delimited`, `rowKey_injective` — **two rows have one key exactly when they are
  equal, value by value.**
* `retainFirst_eq` — keeping the first row of every key is erasing duplicates.
* `Grouped` — what the groups are while rows are filed, kept by `insertGroup`.
* `rows_partitioned` — **GROUP BY and DISTINCT partition rows exactly by value.**
-/

namespace RustyDB
namespace Sql

open Delimited

/-! ## The key of a value -/

theorem utf8ByteSize_eq (s : String) : s.utf8ByteSize = Text.byteLength s.toList := by
  obtain ⟨cs, rfl⟩ : ∃ cs, s = String.ofList cs := ⟨s.toList, (String.ofList_toList).symm⟩
  rw [String.toList_ofList]
  induction cs with
  | nil => rfl
  | cons c cs ih =>
    have hcons : String.ofList (c :: cs) = String.singleton c ++ String.ofList cs := by
      rw [String.singleton_eq_ofList, ← String.ofList_append]
      rfl
    rw [hcons, String.utf8ByteSize_append, String.utf8ByteSize_singleton, ih,
      Text.byteLength_cons]

theorem toList_valueKey_boolean (b : Bool) : (valueKey (.boolean b)).toList =
    'b' :: ':' :: (if b then ['t', 'r', 'u', 'e'] else ['f', 'a', 'l', 's', 'e']) := by
  cases b <;> simp [valueKey]

theorem toList_valueKey_integer (n : Int64) :
    (valueKey (.integer n)).toList = 'i' :: ':' :: n.toInt.repr.toList := by
  simp only [valueKey, String.toList_append, Int.toString_eq_repr]
  rfl

theorem toList_valueKey_float (x : F64) :
    (valueKey (.float x)).toList = 'f' :: ':' :: (hex16 x.bits).toList := by
  simp [valueKey]

theorem toList_valueKey_text (s : String) : (valueKey (.text s)).toList =
    's' :: ':' :: (Nat.toDigits 10 s.utf8ByteSize ++ ':' :: s.toList) := by
  simp only [valueKey, String.toList_append, Nat.toString_eq_repr, Nat.toList_repr,
    List.append_assoc]
  rfl

/-- No digit of a number is the separator. -/
theorem separator_not_mem_digits (base : Nat) (hone : 1 < base) (hbase : base ≤ 16) (n : Nat) :
    '\u001f' ∉ Nat.toDigits base n :=
  not_mem_toDigits hone hbase (by intro d hd; interval_cases d <;> decide) n

theorem toList_intRepr (n : Int) : n.repr.toList =
    if 0 ≤ n then Nat.toDigits 10 n.toNat else '-' :: Nat.toDigits 10 (-n).toNat := by
  rw [Int.repr_eq_if]
  split_ifs
  · exact Nat.toList_repr
  · rw [String.toList_append, Nat.toList_repr]
    rfl

theorem separator_not_mem_intRepr (n : Int) : '\u001f' ∉ n.repr.toList := by
  rw [toList_intRepr]
  split_ifs
  · exact separator_not_mem_digits 10 (by decide) (by decide) _
  · rw [List.mem_cons, not_or]
    exact ⟨by decide, separator_not_mem_digits 10 (by decide) (by decide) _⟩

theorem toDigits_injective {m n : Nat} (h : Nat.toDigits 10 m = Nat.toDigits 10 n) : m = n := by
  have hnumber := congrArg (numberOf 10) h
  rwa [numberOf_toDigits (by decide) (by decide), numberOf_toDigits (by decide) (by decide)]
    at hnumber

theorem intRepr_injective {m n : Int} (h : m.repr.toList = n.repr.toList) : m = n := by
  have hminus : ∀ k, '-' ∉ Nat.toDigits 10 k := fun k =>
    @not_mem_toDigits 10 (by decide) (by decide) '-' (by intro d hd; interval_cases d <;> decide) k
  rw [toList_intRepr, toList_intRepr] at h
  split_ifs at h with hm hn hn
  · have := toDigits_injective h
    omega
  · exact absurd (h ▸ List.mem_cons_self) (hminus m.toNat)
  · exact absurd (h.symm ▸ List.mem_cons_self) (hminus n.toNat)
  · have := toDigits_injective (List.cons.inj h).2
    omega

theorem toList_hex16 (bits : UInt64) : (hex16 bits).toList =
    List.replicate (16 - (Nat.toDigits 16 bits.toNat).length) '0' ++
      Nat.toDigits 16 bits.toNat := by
  rw [hex16, String.toList_ofList]

theorem separator_not_mem_hex16 (bits : UInt64) : '\u001f' ∉ (hex16 bits).toList := by
  rw [toList_hex16, List.mem_append, not_or]
  refine ⟨fun hmem => ?_, separator_not_mem_digits 16 (by decide) (by decide) _⟩
  exact absurd (List.eq_of_mem_replicate hmem) (by decide)

theorem hex16_injective {a b : UInt64} (h : (hex16 a).toList = (hex16 b).toList) : a = b := by
  rw [toList_hex16, toList_hex16] at h
  have hnumber := congrArg (numberOf 16) h
  rw [numberOf_zeros, numberOf_zeros, numberOf_toDigits (by decide) (by decide),
    numberOf_toDigits (by decide) (by decide)] at hnumber
  exact UInt64.toNat_inj.mp hnumber

/-- What the key of a value begins with. -/
def keyTag : Value → Char
  | .null => 'n'
  | .boolean _ => 'b'
  | .integer _ => 'i'
  | .float _ => 'f'
  | .text _ => 's'

theorem head?_valueKey (value : Value) : (valueKey value).toList.head? = some (keyTag value) := by
  cases value with
  | null => rfl
  | boolean b =>
    rw [toList_valueKey_boolean]
    rfl
  | integer n =>
    rw [toList_valueKey_integer]
    rfl
  | float x =>
    rw [toList_valueKey_float]
    rfl
  | text s =>
    rw [toList_valueKey_text]
    rfl

theorem toList_valueKey_ne_nil (value : Value) : (valueKey value).toList ≠ [] := by
  intro hnil
  have htag := head?_valueKey value
  rw [hnil] at htag
  cases htag

/-- **The key of a value is told apart from any other where the separator follows**: a text
is delimited by its length, and no other key holds the separator. -/
theorem valueKey_delimited : Delimited '\u001f' fun value => (valueKey value).toList := by
  intro u v x y hx hy h
  have htag : keyTag u = keyTag v := by
    have hhead := congrArg List.head? h
    rw [List.head?_append_of_ne_nil _ (toList_valueKey_ne_nil u),
      List.head?_append_of_ne_nil _ (toList_valueKey_ne_nil v), head?_valueKey,
      head?_valueKey] at hhead
    exact Option.some.inj hhead
  simp only at h
  cases u with
  | null =>
    cases v with
    | null => exact ⟨rfl, List.append_cancel_left h⟩
    | _ => exact absurd htag (by simp [keyTag])
  | boolean a =>
    cases v with
    | boolean b =>
      rw [toList_valueKey_boolean, toList_valueKey_boolean] at h
      cases a <;> cases b
      · exact ⟨rfl, List.append_cancel_left h⟩
      · cases h
      · cases h
      · exact ⟨rfl, List.append_cancel_left h⟩
    | _ => exact absurd htag (by simp [keyTag])
  | integer m =>
    cases v with
    | integer n =>
      rw [toList_valueKey_integer, toList_valueKey_integer] at h
      obtain ⟨hword, hrest⟩ := append_inj_of_not_mem (separator_not_mem_intRepr m.toInt)
        (separator_not_mem_intRepr n.toInt) hx hy (List.cons.inj (List.cons.inj h).2).2
      exact ⟨congrArg Value.integer (Int64.toInt_inj.mp (intRepr_injective hword)), hrest⟩
    | _ => exact absurd htag (by simp [keyTag])
  | float a =>
    cases v with
    | float b =>
      rw [toList_valueKey_float, toList_valueKey_float] at h
      obtain ⟨hword, hrest⟩ := append_inj_of_not_mem (separator_not_mem_hex16 a.bits)
        (separator_not_mem_hex16 b.bits) hx hy (List.cons.inj (List.cons.inj h).2).2
      exact ⟨congrArg (fun bits => Value.float ⟨bits⟩) (hex16_injective hword), hrest⟩
    | _ => exact absurd htag (by simp [keyTag])
  | text s =>
    cases v with
    | text t =>
      rw [toList_valueKey_text, toList_valueKey_text] at h
      have hdigits : (Nat.toDigits 10 s.utf8ByteSize ++ ':' :: s.toList) ++ x =
          (Nat.toDigits 10 t.utf8ByteSize ++ ':' :: t.toList) ++ y :=
        (List.cons.inj (List.cons.inj h).2).2
      rw [List.append_assoc, List.append_assoc] at hdigits
      have hcolon : ∀ n, ':' ∉ Nat.toDigits 10 n :=
        not_mem_toDigits (by decide) (by decide) (by intro d hd; interval_cases d <;> decide)
      -- The digits of the length end at the colon; the length delimits the text.
      obtain ⟨hlength, hrest⟩ := append_inj_of_not_mem (hcolon s.utf8ByteSize)
        (hcolon t.utf8ByteSize) (Or.inr ⟨_, rfl⟩) (Or.inr ⟨_, rfl⟩) hdigits
      have hbytes : Text.byteLength s.toList = Text.byteLength t.toList := by
        rw [← utf8ByteSize_eq, ← utf8ByteSize_eq]
        exact toDigits_injective hlength
      obtain ⟨htext, hend⟩ := append_inj_of_byteLength hbytes (List.cons.inj hrest).2
      exact ⟨congrArg Value.text (String.toList_inj.mp htext), hend⟩
    | _ => exact absurd htag (by simp [keyTag])

theorem valueKey_injective : Function.Injective valueKey := by
  intro u v h
  have hkeys : (valueKey u).toList ++ [] = (valueKey v).toList ++ [] := by rw [h]
  exact (valueKey_delimited u v [] [] (Or.inl rfl) (Or.inl rfl) hkeys).1

theorem toList_rowKey (row : Row) : (rowKey row).toList =
    List.intercalate ['\u001f'] (row.map fun value => (valueKey value).toList) := by
  rw [rowKey, String.toList_intercalate, List.map_map]
  rfl

/-- **Two rows have one key exactly when they are equal**, whatever their texts hold. -/
theorem rowKey_injective : Function.Injective rowKey := by
  intro u v h
  refine join_injective valueKey_delimited toList_valueKey_ne_nil ?_
  show List.intercalate _ _ = List.intercalate _ _
  rw [← toList_rowKey, ← toList_rowKey, h]

/-! ## Erasing duplicates -/

section EraseDups

variable {α β : Type} [BEq α] [LawfulBEq α] [BEq β] [LawfulBEq β]

omit [LawfulBEq α] in
/-- Duplicates of the first item are erased from the rest. -/
theorem eraseDups_induction {motive : List α → Prop} (nil : motive [])
    (cons : ∀ a as, motive (as.filter fun b => !b == a) → motive (a :: as)) (as : List α) :
    motive as := by
  induction hlength : as.length using Nat.strong_induction_on generalizing as with
  | _ n ih =>
    cases as with
    | nil => exact nil
    | cons a as =>
      refine cons a as (ih _ ?_ _ rfl)
      rw [← hlength, List.length_cons]
      exact Nat.lt_succ_of_le (List.length_filter_le _ _)

theorem nodup_eraseDups (as : List α) : as.eraseDups.Nodup := by
  induction as using eraseDups_induction with
  | nil => exact List.nodup_nil
  | cons a as ih =>
    rw [List.eraseDups_cons, List.nodup_cons]
    refine ⟨fun hmem => ?_, ih⟩
    rw [List.mem_eraseDups, List.mem_filter] at hmem
    simp at hmem

theorem filter_eraseDups (p : α → Bool) (as : List α) :
    as.eraseDups.filter p = (as.filter p).eraseDups := by
  induction as using eraseDups_induction with
  | nil => rfl
  | cons a as ih =>
    rw [List.eraseDups_cons]
    by_cases ha : p a = true
    · rw [List.filter_cons_of_pos ha, List.filter_cons_of_pos ha, ih, List.eraseDups_cons,
        List.filter_filter, List.filter_filter]
      simp only [Bool.and_comm]
    · rw [List.filter_cons_of_neg ha, List.filter_cons_of_neg ha, ih, List.filter_filter]
      refine congrArg List.eraseDups (List.filter_congr fun b _ => ?_)
      by_cases hb : b = a
      · rw [hb, Bool.not_eq_true _ |>.mp ha, Bool.false_and]
      · rw [beq_eq_false_iff_ne.mpr hb, Bool.not_false, Bool.and_true]

theorem map_eraseDups {f : α → β} (hf : Function.Injective f) (as : List α) :
    (as.map f).eraseDups = as.eraseDups.map f := by
  induction as using eraseDups_induction with
  | nil => rfl
  | cons a as ih =>
    rw [List.map_cons, List.eraseDups_cons, List.eraseDups_cons, List.map_cons, ← ih,
      List.filter_map]
    refine congrArg (fun rest => f a :: (List.map f rest).eraseDups)
      (List.filter_congr fun b _ => ?_)
    show (!f b == f a) = !b == a
    rw [Bool.eq_iff_iff, Bool.not_eq_true', Bool.not_eq_true', beq_eq_false_iff_ne,
      beq_eq_false_iff_ne]
    exact hf.ne_iff

end EraseDups

/-! ## The first row of every key -/

theorem retainFirst_subset {α : Type} {key : α → String} {seen : List String}
    {items : List α} : retainFirst key seen items ⊆ items := by
  induction items generalizing seen with
  | nil => exact List.Subset.refl _
  | cons item items ih =>
    rw [retainFirst]
    split
    · exact fun found hfound => List.mem_cons_of_mem _ (ih hfound)
    · exact List.cons_subset_cons item ih

/-- Under keys that tell items apart, the items kept are those not seen yet, once each. -/
theorem retainFirst_eq {α : Type} [BEq α] [LawfulBEq α] {key : α → String}
    (hkey : Function.Injective key) (seen items : List α) :
    retainFirst key (seen.map key) items =
      (items.filter fun item => !seen.contains item).eraseDups := by
  induction items generalizing seen with
  | nil => rfl
  | cons item items ih =>
    rw [retainFirst]
    by_cases hseen : item ∈ seen
    · rw [if_pos (List.mem_map_of_mem hseen), ih seen,
        List.filter_cons_of_neg (by simpa using hseen)]
    · have hnew : key item ∉ seen.map key := by
        rw [List.mem_map]
        rintro ⟨other, hother, heq⟩
        exact hseen (hkey heq ▸ hother)
      rw [if_neg hnew, ← List.map_cons, ih (item :: seen),
        List.filter_cons_of_pos (by simpa using hseen), List.eraseDups_cons, List.filter_filter]
      refine congrArg (fun rest => item :: List.eraseDups rest)
        (List.filter_congr fun other _ => ?_)
      rw [List.contains_cons, Bool.not_or]

/-- DISTINCT keeps the first of equal rows. -/
theorem rows_distinctRows (query : Query) (relation : Relation) :
    (distinctRows query relation).rows =
      if query.distinct then relation.rows.eraseDups else relation.rows := by
  have hfirst := retainFirst_eq rowKey_injective [] relation.rows
  rw [List.filter_eq_self.mpr (by simp)] at hfirst
  rw [distinctRows]
  split_ifs
  · exact hfirst
  · rfl

/-! ## Groups -/

/-- The rows with a given tuple, in the order they come. -/
def rowsOf (tuple : List Value) (pairs : List (List Value × Row)) : List Row :=
  (pairs.filter fun pair => pair.1 == tuple).map Prod.snd

theorem rowsOf_concat (tuple : List Value) (pairs : List (List Value × Row))
    (pair : List Value × Row) : rowsOf tuple (pairs ++ [pair]) =
      rowsOf tuple pairs ++ if pair.1 = tuple then [pair.2] else [] := by
  rw [rowsOf, List.filter_append, List.map_append, rowsOf]
  refine congrArg (_ ++ ·) ?_
  by_cases h : pair.1 = tuple
  · simp [h]
  · simp [h]

/-- The groups of the rows filed so far: their keys increase, and there is one group for
each tuple, of the rows with that tuple. -/
structure Grouped (pairs : List (List Value × Row)) (groups : List (String × List Row)) :
    Prop where
  sorted : (groups.map Prod.fst).Pairwise (· < ·)
  mem_iff : ∀ key rows, (key, rows) ∈ groups ↔
    ∃ tuple ∈ pairs.map Prod.fst, key = rowKey tuple ∧ rows = rowsOf tuple pairs

theorem grouped_nil : Grouped [] [] :=
  ⟨List.Pairwise.nil, fun key rows => by simp⟩

section InsertGroup

variable {key : String} {row : Row} {groups : List (String × List Row)}

theorem mem_keys_insertGroup {k : String} :
    k ∈ (insertGroup key row groups).map Prod.fst ↔ k = key ∨ k ∈ groups.map Prod.fst := by
  induction groups with
  | nil => simp [insertGroup]
  | cons group groups ih =>
    obtain ⟨first, rows⟩ := group
    rw [insertGroup]
    split_ifs with heq hlt
    · subst heq
      simp
    · simp
    · rw [List.map_cons, List.mem_cons, ih, List.map_cons, List.mem_cons]
      tauto

theorem sorted_insertGroup (h : (groups.map Prod.fst).Pairwise (· < ·)) :
    ((insertGroup key row groups).map Prod.fst).Pairwise (· < ·) := by
  induction groups with
  | nil => simp [insertGroup]
  | cons group groups ih =>
    obtain ⟨first, rows⟩ := group
    obtain ⟨hfirst, hrest⟩ := List.pairwise_cons.mp h
    rw [insertGroup]
    split_ifs with heq hlt
    · exact h
    · refine List.pairwise_cons.mpr ⟨fun k hk => ?_, h⟩
      rcases List.mem_cons.mp hk with rfl | hk
      · exact hlt
      · exact hlt.trans (hfirst k hk)
    · refine List.pairwise_cons.mpr ⟨fun k hk => ?_, ih hrest⟩
      rcases mem_keys_insertGroup.mp hk with rfl | hk
      · exact lt_of_le_of_ne (not_lt.mp hlt) fun h => heq h.symm
      · exact hfirst k hk

/-- The other groups stay. -/
theorem mem_insertGroup_of_ne {k : String} {rows : List Row} (hk : k ≠ key) :
    (k, rows) ∈ insertGroup key row groups ↔ (k, rows) ∈ groups := by
  induction groups with
  | nil =>
    simp only [insertGroup, List.mem_singleton, Prod.mk.injEq, List.not_mem_nil, iff_false,
      not_and]
    exact fun h => absurd h hk
  | cons group groups ih =>
    obtain ⟨first, rows'⟩ := group
    rw [insertGroup]
    split_ifs with heq hlt
    · subst heq
      simp only [List.mem_cons, Prod.mk.injEq, hk, false_and, false_or]
    · simp only [List.mem_cons, Prod.mk.injEq, hk, false_and, false_or]
    · rw [List.mem_cons, List.mem_cons, ih]

/-- The row comes last in its group. -/
theorem mem_insertGroup_self {rows old : List Row}
    (hsorted : (groups.map Prod.fst).Pairwise (· < ·))
    (hold : (key, old) ∈ groups ∨ key ∉ groups.map Prod.fst ∧ old = []) :
    (key, rows) ∈ insertGroup key row groups ↔ rows = old ++ [row] := by
  induction groups with
  | nil =>
    obtain ⟨-, rfl⟩ := hold.resolve_left (List.not_mem_nil)
    simp [insertGroup]
  | cons group groups ih =>
    obtain ⟨first, rows'⟩ := group
    obtain ⟨hfirst, hrest⟩ := List.pairwise_cons.mp hsorted
    rw [insertGroup]
    split_ifs with heq hlt
    · subst heq
      have hnot : ∀ other, (key, other) ∉ groups := fun other hother =>
        lt_irrefl key (hfirst key (List.mem_map_of_mem hother))
      obtain rfl : old = rows' := by
        rcases hold with hmem | ⟨hkey, -⟩
        · rcases List.mem_cons.mp hmem with heq | hmem
          · exact (Prod.mk.inj heq).2
          · exact absurd hmem (hnot old)
        · exact absurd List.mem_cons_self hkey
      simp only [List.mem_cons, Prod.mk.injEq, true_and, hnot rows, or_false]
    · have habsent : ∀ other, (key, other) ∉ (first, rows') :: groups := by
        intro other hother
        rcases List.mem_cons.mp hother with heq' | hother
        · exact heq (Prod.mk.inj heq').1
        · exact lt_asymm hlt (hfirst key (List.mem_map_of_mem hother))
      obtain ⟨-, rfl⟩ := hold.resolve_left (habsent old)
      rw [List.mem_cons, or_iff_left (habsent rows), Prod.mk.injEq, List.nil_append]
      exact ⟨And.right, fun h => ⟨rfl, h⟩⟩
    · rw [List.mem_cons, Prod.mk.injEq, or_iff_right fun h => heq h.1]
      refine ih hrest ?_
      rcases hold with hmem | ⟨hkey, hnil⟩
      · refine Or.inl ((List.mem_cons.mp hmem).resolve_left fun h => heq (Prod.mk.inj h).1)
      · exact Or.inr ⟨fun hmem => hkey (List.mem_cons_of_mem _ hmem), hnil⟩

theorem flatten_insertGroup :
    (((insertGroup key row groups).map Prod.snd).flatten).Perm
      ((groups.map Prod.snd).flatten ++ [row]) := by
  induction groups with
  | nil => simp [insertGroup]
  | cons group groups ih =>
    obtain ⟨first, rows⟩ := group
    rw [insertGroup]
    split_ifs with heq hlt
    · simp only [List.map_cons, List.flatten_cons, List.append_assoc]
      exact List.Perm.append_left rows List.perm_append_comm
    · simp only [List.map_cons, List.flatten_cons]
      exact @List.perm_append_comm _ [row] _
    · simp only [List.map_cons, List.flatten_cons, List.append_assoc]
      exact List.Perm.append_left rows ih

end InsertGroup

/-- Filing a row keeps the groups. -/
theorem Grouped.insert {pairs : List (List Value × Row)} {groups : List (String × List Row)}
    (h : Grouped pairs groups) (tuple : List Value) (row : Row) :
    Grouped (pairs ++ [(tuple, row)]) (insertGroup (rowKey tuple) row groups) := by
  refine ⟨sorted_insertGroup h.sorted, fun key rows => ?_⟩
  by_cases hkey : key = rowKey tuple
  · subst hkey
    have hold : (rowKey tuple, rowsOf tuple pairs) ∈ groups ∨
        rowKey tuple ∉ groups.map Prod.fst ∧ rowsOf tuple pairs = [] := by
      by_cases hmem : tuple ∈ pairs.map Prod.fst
      · exact Or.inl ((h.mem_iff _ _).mpr ⟨tuple, hmem, rfl, rfl⟩)
      · refine Or.inr ⟨fun hin => ?_, ?_⟩
        · obtain ⟨⟨key, rows⟩, hgroup, hfst⟩ := List.mem_map.mp hin
          obtain ⟨other, hother, hkey, -⟩ := (h.mem_iff key rows).mp hgroup
          rw [show key = rowKey tuple from hfst] at hkey
          exact hmem (rowKey_injective hkey ▸ hother)
        · rw [rowsOf, List.filter_eq_nil_iff.mpr, List.map_nil]
          intro pair hpair heq
          exact hmem (beq_iff_eq.mp heq ▸ List.mem_map_of_mem hpair)
    rw [mem_insertGroup_self h.sorted hold]
    constructor
    · rintro rfl
      refine ⟨tuple, by simp, rfl, ?_⟩
      rw [rowsOf_concat, if_pos rfl]
    · rintro ⟨other, -, hother, rfl⟩
      rw [← rowKey_injective hother, rowsOf_concat, if_pos rfl]
  · rw [mem_insertGroup_of_ne hkey, h.mem_iff]
    have hstays : ∀ other, key = rowKey other →
        rowsOf other (pairs ++ [(tuple, row)]) = rowsOf other pairs := by
      intro other hother
      have hne : ¬(tuple, row).1 = other :=
        fun heq => hkey (hother.trans (congrArg rowKey heq.symm))
      rw [rowsOf_concat, if_neg hne, List.append_nil]
    constructor
    · rintro ⟨other, hmem, hother, rfl⟩
      exact ⟨other, by simp [hmem], hother, (hstays other hother).symm⟩
    · rintro ⟨other, hmem, hother, rfl⟩
      rw [List.map_append, List.mem_append] at hmem
      refine ⟨other, hmem.resolve_right fun h => ?_, hother, hstays other hother⟩
      rw [List.map_singleton, List.mem_singleton] at h
      exact hkey (hother.trans (congrArg rowKey h))

theorem groupRows_grouped {groupKey : Row → Except Fault (List Value)} {rows : List Row}
    {tuples : List (List Value)} (htuples : rows.mapM groupKey = .ok tuples)
    {pairs : List (List Value × Row)} {groups : List (String × List Row)}
    (h : Grouped pairs groups) :
    ∃ groups', groupRows groupKey groups rows = .ok groups' ∧
      Grouped (pairs ++ tuples.zip rows) groups' ∧
      ((groups'.map Prod.snd).flatten).Perm ((groups.map Prod.snd).flatten ++ rows) := by
  have hloop := Result.mapM_eq_ok.mp htuples
  clear htuples
  induction hloop generalizing pairs groups with
  | nil => exact ⟨groups, rfl, by simpa using h, by simp⟩
  | @cons row tuple rows tuples htuple _ ih =>
    obtain ⟨groups', hrun, hgrouped, hflatten⟩ := ih (h.insert tuple row)
    refine ⟨groups', ?_, ?_, ?_⟩
    · rw [groupRows, htuple, Result.ok_bind, hrun]
    · rwa [List.append_assoc] at hgrouped
    · refine hflatten.trans ((flatten_insertGroup.append_right rows).trans ?_)
      rw [List.append_assoc]
      rfl

/-- The groups are those of the distinct tuples. -/
theorem Grouped.perm {pairs : List (List Value × Row)} {groups : List (String × List Row)}
    (h : Grouped pairs groups) : (groups.map Prod.snd).Perm
      ((pairs.map Prod.fst).eraseDups.map fun tuple => rowsOf tuple pairs) := by
  have hperm : groups.Perm ((pairs.map Prod.fst).eraseDups.map fun tuple =>
      (rowKey tuple, rowsOf tuple pairs)) := by
    refine (List.perm_ext_iff_of_nodup ?_ ?_).mpr fun ⟨key, rows⟩ => ?_
    · exact List.Nodup.of_map Prod.fst (h.sorted.imp fun hlt => ne_of_lt hlt)
    · refine List.Nodup.map ?_ (nodup_eraseDups _)
      intro a b hab
      exact rowKey_injective (Prod.mk.inj hab).1
    · rw [h.mem_iff, List.mem_map]
      constructor
      · rintro ⟨tuple, hmem, rfl, rfl⟩
        exact ⟨tuple, List.mem_eraseDups.mpr hmem, rfl⟩
      · rintro ⟨tuple, hmem, heq⟩
        obtain ⟨rfl, rfl⟩ := Prod.mk.inj heq
        exact ⟨tuple, List.mem_eraseDups.mp hmem, rfl, rfl⟩
  have hrows := hperm.map Prod.snd
  rwa [List.map_map] at hrows

/-- The tuples that get a group: without GROUP BY there is one, also when there is no row. -/
def groupTuples (query : Query) (tuples : List (List Value)) : List (List Value) :=
  if query.groupBy.isEmpty then [[]] else tuples.eraseDups

theorem evalExprs_length {H : Host} {tables : Tables} {expressions : List Expr}
    {columns : List BoundColumn} {row : Row} {group : Option (List Row)} {ctes : Ctes}
    {values : List Value}
    (h : evalExprs H tables expressions columns row group ctes = .ok values) :
    values.length = expressions.length := by
  induction expressions generalizing values with
  | nil =>
    rw [evalExprs] at h
    obtain rfl := Except.ok.inj h
    rfl
  | cons expr exprs ih =>
    rw [evalExprs] at h
    obtain ⟨value, -, h⟩ := Result.bind_eq_ok.mp h
    obtain ⟨rest, hrest, h⟩ := Result.bind_eq_ok.mp h
    obtain rfl := Except.ok.inj h
    rw [List.length_cons, ih hrest, List.length_cons]

/-- The groups of `aggregate_query`. -/
theorem aggregateQuery_groups (H : Host) (tables : Tables) (query : Query) (ctes : Ctes)
    (source : Relation) (tuples : List (List Value))
    (htuples : source.rows.mapM ((query.evaluators H tables ctes).groupBy source.columns) =
      .ok tuples) :
    ∃ groups : List (List Row),
      groups.Perm ((groupTuples query tuples).map fun tuple =>
        rowsOf tuple (tuples.zip source.rows)) ∧
      groups.flatten.Perm source.rows ∧
      aggregateQuery query (query.evaluators H tables ctes) source =
        (projectionColumns query.projection source.columns >>= fun columns =>
          groups.mapM (projectGroup (query.evaluators H tables ctes) source.columns) >>=
            fun rows => .ok { columns, rows := rows.filterMap id }) := by
  obtain ⟨groups, hrun, hgrouped, hflatten⟩ := groupRows_grouped htuples grouped_nil
  have hlength := Result.length_of_mapM htuples
  have hfst : (tuples.zip source.rows).map Prod.fst = tuples :=
    List.map_fst_zip (le_of_eq hlength)
  rw [List.nil_append] at hgrouped
  have hperm := hgrouped.perm
  rw [hfst] at hperm
  have hquery : aggregateQuery query (query.evaluators H tables ctes) source =
      (projectionColumns query.projection source.columns >>= fun columns =>
        (if groups.isEmpty && query.groupBy.isEmpty then [[]] else groups.map Prod.snd).mapM
          (projectGroup (query.evaluators H tables ctes) source.columns) >>=
            fun rows => .ok { columns, rows := rows.filterMap id }) := by
    rw [aggregateQuery, hrun, Result.ok_bind]
    split_ifs
    · rfl
    · simp only [List.mapM_map]
      rfl
  cases hgroupBy : query.groupBy.isEmpty with
  | false =>
    refine ⟨groups.map Prod.snd, ?_, by simpa using hflatten, ?_⟩
    · rwa [groupTuples, hgroupBy]
    · rw [hquery, hgroupBy, Bool.and_false]
      rfl
  | true =>
    -- Without GROUP BY every tuple is empty.
    have hempty : ∀ tuple ∈ tuples, tuple = [] := by
      intro tuple htuple
      obtain ⟨row, -, hrow⟩ := Result.mem_of_mapM htuples htuple
      have hzero := evalExprs_length hrow
      rw [List.isEmpty_iff.mp hgroupBy] at hzero
      exact List.length_eq_zero_iff.mp hzero
    rw [hquery, groupTuples, hgroupBy, Bool.and_true, if_pos rfl]
    cases hsource : source.rows with
    | nil =>
      have hnil : tuples = [] := List.length_eq_zero_iff.mp (by rw [hlength, hsource]; rfl)
      have hgroups : groups = [] := by
        rw [hnil] at hperm
        exact List.map_eq_nil_iff.mp (List.perm_nil.mp hperm)
      refine ⟨[[]], ?_, by simp, by rw [hgroups]; rfl⟩
      rw [hnil]
      exact List.Perm.refl _
    | cons row rows =>
      have htuples : tuples = List.replicate (rows.length + 1) [] := by
        rw [hsource, List.length_cons] at hlength
        exact List.eq_replicate_iff.mpr ⟨hlength, hempty⟩
      have hone : tuples.eraseDups = [[]] := by
        rw [htuples, List.replicate_succ, List.eraseDups_cons, List.filter_eq_nil_iff.mpr]
        · rfl
        · intro tuple htuple
          rw [List.eq_of_mem_replicate htuple]
          decide
      rw [hone] at hperm
      have hne : groups.isEmpty = false := by
        cases groups with
        | nil => exact absurd hperm.length_eq (by simp)
        | cons group groups => rfl
      rw [hsource] at hperm hflatten
      exact ⟨groups.map Prod.snd, hperm, by simpa using hflatten, by rw [hne]; rfl⟩

/-- **GROUP BY and DISTINCT partition rows exactly by value.**  Keys are equal for equal
rows only; there is one group for each distinct tuple, of the rows with that tuple in their
order, and every row is in one group; DISTINCT keeps the first of equal rows. -/
theorem rows_partitioned :
    (∀ u v : Row, rowKey u = rowKey v ↔ u = v) ∧
    (∀ (H : Host) (tables : Tables) (query : Query) (ctes : Ctes) (source : Relation)
      (tuples : List (List Value)),
      source.rows.mapM ((query.evaluators H tables ctes).groupBy source.columns) = .ok tuples →
      ∃ groups : List (List Row),
        groups.Perm ((groupTuples query tuples).map fun tuple =>
          rowsOf tuple (tuples.zip source.rows)) ∧
        groups.flatten.Perm source.rows ∧
        aggregateQuery query (query.evaluators H tables ctes) source =
          (projectionColumns query.projection source.columns >>= fun columns =>
            groups.mapM (projectGroup (query.evaluators H tables ctes) source.columns) >>=
              fun rows => .ok { columns, rows := rows.filterMap id })) ∧
    ∀ (query : Query) (relation : Relation), (distinctRows query relation).rows =
      if query.distinct then relation.rows.eraseDups else relation.rows :=
  ⟨fun _ _ => rowKey_injective.eq_iff, aggregateQuery_groups, rows_distinctRows⟩

/-- `SELECT a FROM … GROUP BY a`. -/
def groupByA : Query :=
  ⟨[], false, [.expr (.column none "a") none], none, [], none, [.column none "a"], none, [], none⟩

theorem texts_with_separators_grouped :
    ∃ groups : List (List Row),
      groups.Perm [[[.text "x\u001fs:1:y"], [.text "x\u001fs:1:y"]], [[.text "x"]]] ∧
        groups.flatten.Perm [[.text "x\u001fs:1:y"], [.text "x"], [.text "x\u001fs:1:y"]] := by
  obtain ⟨groups, hgroups, hflatten, -⟩ := rows_partitioned.2.1 Host.reference ∅ groupByA ∅
    ⟨[⟨"t", "a"⟩], [[.text "x\u001fs:1:y"], [.text "x"], [.text "x\u001fs:1:y"]]⟩
    [[.text "x\u001fs:1:y"], [.text "x"], [.text "x\u001fs:1:y"]] rfl
  exact ⟨groups, hgroups, hflatten⟩

end Sql
end RustyDB
