import Mathlib
import RustyDB.Recovery.Backup
import RustyDB.Recovery.Timestamp

/-!
# Texts of recovery points

A recovery point is given as `sql:N,kv:N`.  `RecoveryPoint::from_str` takes the parts as they
come: in any order, in any case, with blanks, and more than once, when the last one counts.

* `parsePart`, `RecoveryPoint.fromStr` — one part, and the loop over the parts.
* `Gives`, `LastGives` — the number that a part gives a field, and the last part that does.
* `foldlM_parsePart` — **the loop keeps, for each field, the last number that was given.**
* `fromStr_eq_ok_iff` — **the texts of a point.**
-/

namespace RustyDB
namespace Recovery

open Cutting Decimal Delimited Text

/-! ## The parser -/

/-- One part, behind what the parts before it gave. -/
def parsePart (given : Option Nat × Option Nat) (part : List Char) :
    Except String (Option Nat × Option Nat) :=
  match splitOnce ':' part with
  | none => .error "Recovery point must be sql:N,kv:N"
  | some (name, value) =>
    if (trim name).map Char.toLower = ['s', 'q', 'l'] then
      match parseU64 (trim value) with
      | none => .error "Invalid SQL commit version"
      | some version => .ok (some version.toNat, given.2)
    else if (trim name).map Char.toLower = ['k', 'v'] then
      match parseU64 (trim value) with
      | none => .error "Invalid KV sequence"
      | some sequence => .ok (given.1, some sequence.toNat)
    else .error "Recovery point must be sql:N,kv:N"

/-- `RecoveryPoint::from_str`. -/
def RecoveryPoint.fromStr (value : String) : Except String RecoveryPoint := do
  let given ← (value.toList.splitOn ',').foldlM parsePart (none, none)
  match given.1, given.2 with
  | none, _ => .error "Recovery point is missing sql:N"
  | some _, none => .error "Recovery point is missing kv:N"
  | some sqlCommitVersion, some kvSequence => .ok { sqlCommitVersion, kvSequence }

/-! ## What parts give -/

/-- The two fields of a recovery point. -/
inductive PointField where
  | sql
  | kv
  deriving DecidableEq, Repr

namespace PointField

/-- The key of a field. -/
def name : PointField → List Char
  | sql => ['s', 'q', 'l']
  | kv => ['k', 'v']

/-- The number of a field, where there is one. -/
def get (given : Option Nat × Option Nat) : PointField → Option Nat
  | sql => given.1
  | kv => given.2

/-- A field gets its number. -/
def set (given : Option Nat × Option Nat) (n : Nat) : PointField → Option Nat × Option Nat
  | sql => (some n, given.2)
  | kv => (given.1, some n)

theorem name_injective : Function.Injective name := by
  intro field field' h
  cases field <;> cases field' <;> first | rfl | exact absurd h (by decide)

theorem get_set_self (given : Option Nat × Option Nat) (n : Nat) (field : PointField) :
    field.get (field.set given n) = some n := by
  cases field <;> rfl

theorem get_set_of_ne {field field' : PointField} (h : field' ≠ field)
    (given : Option Nat × Option Nat) (n : Nat) :
    field'.get (field.set given n) = field'.get given := by
  cases field <;> cases field' <;> first | rfl | exact absurd rfl h

end PointField

/-- A part is the name of a field, in any case, a colon and a number of 64 bits, with blanks
around both. -/
def Gives (field : PointField) (n : Nat) (part : List Char) : Prop :=
  ∃ name value, part = name ++ ':' :: value ∧ ':' ∉ name ∧
    (trim name).map Char.toLower = field.name ∧ parseU64 (trim value) = some (n : Int)

/-- The last of the parts that give a field a number gives it this one. -/
def LastGives (field : PointField) (n : Nat) (parts : List (List Char)) : Prop :=
  ∃ before part after, parts = before ++ part :: after ∧ Gives field n part ∧
    ∀ later ∈ after, ∀ m, ¬Gives field m later

section Parts

variable {field field' : PointField} {n m : Nat} {part : List Char} {parts : List (List Char)}
  {given next final : Option Nat × Option Nat}

/-- A part gives one field one number. -/
theorem Gives.unique (h : Gives field n part) (h' : Gives field' m part) :
    field' = field ∧ m = n := by
  obtain ⟨name, value, hpart, hname, hfield, hvalue⟩ := h
  obtain ⟨name', value', hpart', hname', hfield', hvalue'⟩ := h'
  have hcut := (splitOnce_eq_some.mpr ⟨hpart, hname⟩).symm.trans
    (splitOnce_eq_some.mpr ⟨hpart', hname'⟩)
  obtain ⟨rfl, rfl⟩ := Prod.mk.inj (Option.some.inj hcut)
  refine ⟨PointField.name_injective (hfield'.symm.trans hfield), ?_⟩
  exact Int.ofNat.inj (Option.some.inj (hvalue'.symm.trans hvalue))

theorem parseU64_toNat {text : List Char} {number : Int} (h : parseU64 text = some number) :
    parseU64 text = some (number.toNat : Int) := by
  rw [Int.toNat_of_nonneg (range_of_parseInteger h).1]
  exact h

/-- **One part** is accepted when it gives a number, which is kept. -/
theorem parsePart_eq_ok_iff : parsePart given part = .ok next ↔
    ∃ field n, Gives field n part ∧ next = field.set given n := by
  constructor
  · intro h
    unfold parsePart at h
    split at h
    · cases h
    · rename_i name value hcut
      obtain ⟨hpart, hname⟩ := splitOnce_eq_some.mp hcut
      split_ifs at h with hsql hkv
      · split at h
        · cases h
        · rename_i version hversion
          exact ⟨.sql, version.toNat, ⟨name, value, hpart, hname, hsql, parseU64_toNat hversion⟩,
            (Except.ok.inj h).symm⟩
      · split at h
        · cases h
        · rename_i sequence hsequence
          exact ⟨.kv, sequence.toNat, ⟨name, value, hpart, hname, hkv, parseU64_toNat hsequence⟩,
            (Except.ok.inj h).symm⟩
  · rintro ⟨field, n, ⟨name, value, hpart, hname, hfield, hvalue⟩, rfl⟩
    have hcut := splitOnce_eq_some.mpr ⟨hpart, hname⟩
    cases field with
    | sql =>
      simp only [parsePart, hcut, hfield, PointField.name, if_true, hvalue]
      rfl
    | kv =>
      have hne : ¬(['k', 'v'] : List Char) = ['s', 'q', 'l'] := by decide
      simp only [parsePart, hcut, hfield, PointField.name, hne, if_false, if_true, hvalue]
      rfl

theorem not_lastGives_nil : ¬LastGives field n [] := by
  rintro ⟨before, part, after, h, -⟩
  cases before <;> cases h

/-- The last part that gives a number is behind the first part, or the first part itself. -/
theorem lastGives_cons : LastGives field n (part :: parts) ↔
    LastGives field n parts ∨
      (Gives field n part ∧ ∀ later ∈ parts, ∀ m, ¬Gives field m later) := by
  constructor
  · rintro ⟨before, last, after, hparts, hgives, hlater⟩
    cases before with
    | nil =>
      obtain ⟨rfl, rfl⟩ := List.cons.inj hparts
      exact Or.inr ⟨hgives, hlater⟩
    | cons first before =>
      obtain ⟨rfl, rfl⟩ := List.cons.inj hparts
      exact Or.inl ⟨before, last, after, rfl, hgives, hlater⟩
  · rintro (⟨before, last, after, rfl, hgives, hlater⟩ | ⟨hgives, hlater⟩)
    · exact ⟨part :: before, last, after, rfl, hgives, hlater⟩
    · exact ⟨[], part, parts, rfl, hgives, hlater⟩

/-- **The loop** keeps, for each field, the last number that was given, or what there was. -/
theorem foldlM_parsePart (h : parts.foldlM parsePart given = .ok final) :
    (∀ part ∈ parts, ∃ field n, Gives field n part) ∧
      ∀ field n, field.get final = some n ↔ LastGives field n parts ∨
        (field.get given = some n ∧ ∀ part ∈ parts, ∀ m, ¬Gives field m part) := by
  induction parts generalizing given with
  | nil =>
    obtain rfl := Except.ok.inj h
    refine ⟨by simp, fun field n => ?_⟩
    simp [not_lastGives_nil]
  | cons part parts ih =>
    rw [List.foldlM_cons] at h
    obtain ⟨next, hnext, h⟩ := Result.bind_eq_ok.mp h
    obtain ⟨given', k, hgives, rfl⟩ := parsePart_eq_ok_iff.mp hnext
    obtain ⟨hparts, hfinal⟩ := ih h
    refine ⟨List.forall_mem_cons.mpr ⟨⟨_, _, hgives⟩, hparts⟩, fun field n => ?_⟩
    rw [hfinal, lastGives_cons, List.forall_mem_cons]
    by_cases hfield : field = given'
    · subst hfield
      have hn : Gives field n part ↔ k = n :=
        ⟨fun hother => (hother.unique hgives).2, fun heq => heq ▸ hgives⟩
      have hnone : ¬∀ m, ¬Gives field m part := fun hall => hall k hgives
      rw [PointField.get_set_self, Option.some.injEq, hn]
      tauto
    · have hnone : ∀ m, ¬Gives field m part := fun m hother => hfield (hgives.unique hother).1
      have hn := hnone n
      rw [PointField.get_set_of_ne hfield]
      tauto

theorem exists_foldlM_parsePart (h : ∀ part ∈ parts, ∃ field n, Gives field n part)
    (given : Option Nat × Option Nat) : ∃ final, parts.foldlM parsePart given = .ok final := by
  induction parts generalizing given with
  | nil => exact ⟨given, rfl⟩
  | cons part parts ih =>
    obtain ⟨⟨field, n, hgives⟩, hparts⟩ := List.forall_mem_cons.mp h
    obtain ⟨final, hfinal⟩ := ih hparts (field.set given n)
    refine ⟨final, ?_⟩
    rw [List.foldlM_cons, parsePart_eq_ok_iff.mpr ⟨field, n, hgives, rfl⟩, Result.ok_bind]
    exact hfinal

end Parts

/-! ## The texts of a point -/

/-- **The texts of a recovery point** are those whose parts, between commas, all give a number
to one of the two fields, and of which the last part for each field gives it the number of the
point.  The order of the parts, the case of the names and blanks do not matter, and neither do
numbers that are given again later. -/
theorem fromStr_eq_ok_iff (value : String) (point : RecoveryPoint) :
    RecoveryPoint.fromStr value = .ok point ↔
      (∀ part ∈ value.toList.splitOn ',', ∃ field n, Gives field n part) ∧
        LastGives .sql point.sqlCommitVersion (value.toList.splitOn ',') ∧
        LastGives .kv point.kvSequence (value.toList.splitOn ',') := by
  obtain ⟨version, sequence⟩ := point
  have hlast : ∀ {final}, (value.toList.splitOn ',').foldlM parsePart (none, none) = .ok final →
      ∀ field n, field.get final = some n ↔ LastGives field n (value.toList.splitOn ',') := by
    intro final hfinal field n
    rw [(foldlM_parsePart hfinal).2 field n]
    cases field <;> simp [PointField.get]
  constructor
  · intro h
    obtain ⟨final, hfinal, h⟩ := Result.bind_eq_ok.mp h
    split at h
    · cases h
    · cases h
    · rename_i sql kv hsql hkv
      obtain ⟨rfl, rfl⟩ := RecoveryPoint.mk.inj (Except.ok.inj h)
      exact ⟨(foldlM_parsePart hfinal).1, (hlast hfinal .sql _).mp hsql,
        (hlast hfinal .kv _).mp hkv⟩
  · rintro ⟨hparts, hsql, hkv⟩
    obtain ⟨⟨sql, kv⟩, hfinal⟩ := exists_foldlM_parsePart hparts (none, none)
    obtain rfl : sql = some version := (hlast hfinal .sql version).mpr hsql
    obtain rfl : kv = some sequence := (hlast hfinal .kv sequence).mpr hkv
    rw [RecoveryPoint.fromStr, hfinal]
    rfl

example : RecoveryPoint.fromStr "KV: 7,sql :+3,kv:8" = .ok ⟨3, 8⟩ := by decide +kernel

end Recovery
end RustyDB
