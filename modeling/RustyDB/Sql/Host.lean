import Mathlib
import RustyDB.Sql.Types

/-!
# The host

What the executor takes from the build and the standard library without its
source fixing it: overflow checks, Unicode lower-casing, `Debug` texts, sorting under a
comparison that need not be an order, and what differs from process to process.

* `Process` — the iteration order of hash maps and the reuse of addresses.
* `Host` — these functions, with what is documented about them; `Host.inProcess` is the
  same build in another process.
* `Host.reference` — a release build, exact on ASCII text and small tables.
-/

namespace RustyDB
namespace Sql

/-- Comparisons of rows in a sort: they can panic, and need not form an order. -/
abbrev RowCompare := Row → Row → Except Fault Ordering

/-- A comparison is an order on the rows given: it answers for every two of them
and its `≤` is total and transitive there. -/
structure RowCompare.OrderOn (cmp : RowCompare) (rows : List Row) : Prop where
  answers : ∀ a ∈ rows, ∀ b ∈ rows, ∃ o, cmp a b = .ok o
  total : ∀ a ∈ rows, ∀ b ∈ rows, cmp a b ≠ .ok .gt ∨ cmp b a ≠ .ok .gt
  trans : ∀ a ∈ rows, ∀ b ∈ rows, ∀ c ∈ rows,
    cmp a b ≠ .ok .gt → cmp b c ≠ .ok .gt → cmp a c ≠ .ok .gt

/-- What a running process leaves open: the order of its hash maps, and the addresses that
its allocator hands out again. -/
structure Process where
  /-- The order in which a hash map with these keys is iterated: the indexes of a table of
  that name, or the tables of a catalog.  Every map has a seed of its own. -/
  hashOrder : Option String → List String → List String
  hashOrder_perm : ∀ owner names, (hashOrder owner names).Perm names
  /-- `execute_subquery_cached` knows a subquery by its address, and an assignment of
  ON DUPLICATE KEY UPDATE is cloned for every row: with that many rows to come, a subquery
  can have the address, and then the result, of one that was dropped before. -/
  recycled : Nat → List (String × Expr) → List (String × Expr)
  recycled_columns : ∀ toCome onDuplicate,
    (recycled toCome onDuplicate).map Prod.fst = onDuplicate.map Prod.fst
  recycled_free : ∀ toCome onDuplicate, SubqueryFree onDuplicate →
    recycled toCome onDuplicate = onDuplicate

/-- What the source leaves to the build and the standard library. -/
structure Host extends Process where
  /-- Arithmetic overflow panics (a debug build) or wraps (a release build). -/
  overflowChecks : Bool
  /-- `str::to_lowercase`. -/
  lowercase : String → String
  /-- The bytes of `format!("{key:?}")` for an index key. -/
  debugKey : IndexKey → List UInt8
  /-- `format!("{statement:?}")`. -/
  debugStatement : Statement → String
  /-- The bit count of a Bloom filter, before the lower bound of 64 is applied. -/
  bloomBitCount : Nat → F64 → Nat
  /-- The hash count of a Bloom filter, before it is clamped. -/
  bloomHashCount : Nat → F64 → Nat
  /-- `slice::sort_by`: a stable sort, unspecified when the comparison is no order. -/
  sortBy : RowCompare → List Row → Except Fault (List Row)
  sortBy_eq : ∀ cmp rows, RowCompare.OrderOn cmp rows →
    sortBy cmp rows = .ok (rows.insertionSort (fun a b => cmp a b ≠ .ok .gt))
  /-- `slice::select_nth_unstable_by`. -/
  selectNthUnstableBy : Nat → RowCompare → List Row → Except Fault (List Row)
  selectNthUnstableBy_spec : ∀ n cmp rows, n < rows.length → RowCompare.OrderOn cmp rows →
    ∃ rows', selectNthUnstableBy n cmp rows = .ok rows' ∧ rows'.Perm rows ∧
      ∀ a ∈ rows'.take n, ∀ b ∈ rows'.drop n, cmp a b ≠ .ok .gt

/-- The same build of the program, in another process. -/
def Host.inProcess (H : Host) (p : Process) : Host := { H with toProcess := p }

/-! ## A reference host -/

section InsertionSort

variable {α : Type} {r : α → α → Prop} [DecidableRel r]

/-- Inserting into a sorted list, for a relation that is total and transitive on
the elements at hand only. -/
theorem pairwise_orderedInsert_of_mem (a : α) (l : List α)
    (htotal : ∀ b ∈ l, r a b ∨ r b a)
    (htrans : ∀ b ∈ l, ∀ c ∈ l, r a b → r b c → r a c) (hl : l.Pairwise r) :
    (l.orderedInsert r a).Pairwise r := by
  induction l with
  | nil => simp
  | cons b l ih =>
    rw [List.pairwise_cons] at hl
    by_cases hab : r a b
    · rw [List.orderedInsert_cons_of_le _ _ hab, List.pairwise_cons, List.pairwise_cons]
      refine ⟨fun c hc => ?_, hl⟩
      rcases List.mem_cons.mp hc with rfl | hc
      · exact hab
      · exact htrans b (by simp) c (by simp [hc]) hab (hl.1 c hc)
    · rw [List.orderedInsert, if_neg hab, List.pairwise_cons]
      refine ⟨fun c hc => ?_, ih (fun b' hb' => htotal b' (by simp [hb'])) ?_ hl.2⟩
      · rcases (List.mem_orderedInsert r).mp hc with rfl | hc
        · exact (htotal b (by simp)).resolve_left hab
        · exact hl.1 c hc
      · exact fun b' hb' c hc => htrans b' (by simp [hb']) c (by simp [hc])

theorem pairwise_insertionSort_of_mem (l : List α)
    (htotal : ∀ a ∈ l, ∀ b ∈ l, r a b ∨ r b a)
    (htrans : ∀ a ∈ l, ∀ b ∈ l, ∀ c ∈ l, r a b → r b c → r a c) :
    (l.insertionSort r).Pairwise r := by
  induction l with
  | nil => simp
  | cons a l ih =>
    refine pairwise_orderedInsert_of_mem a _ (fun b hb => ?_) (fun b hb c hc => ?_)
      (ih (fun a' ha' b hb => htotal a' (by simp [ha']) b (by simp [hb]))
        (fun a' ha' b hb c hc => htrans a' (by simp [ha']) b (by simp [hb]) c (by simp [hc])))
    · exact htotal a (by simp) b (by simp [(List.mem_insertionSort r).mp hb])
    · exact htrans a (by simp) b (by simp [(List.mem_insertionSort r).mp hb]) c
        (by simp [(List.mem_insertionSort r).mp hc])

end InsertionSort

/-- The comparison answers for every two rows. -/
def RowCompare.answersOn (cmp : RowCompare) (rows : List Row) : Bool :=
  rows.all (fun a => rows.all (fun b => (cmp a b).isOk))

theorem RowCompare.OrderOn.answersOn {cmp : RowCompare} {rows : List Row}
    (h : cmp.OrderOn rows) : cmp.answersOn rows = true := by
  simp only [RowCompare.answersOn, List.all_eq_true]
  intro a ha b hb
  obtain ⟨o, ho⟩ := h.answers a ha b hb
  simp [ho, Except.isOk, Except.toBool]

/-- A stable sort that fails when the comparison does not answer. -/
def referenceSort (cmp : RowCompare) (rows : List Row) : Except Fault (List Row) :=
  if cmp.answersOn rows then .ok (rows.insertionSort (fun a b => cmp a b ≠ .ok .gt))
  else .error .panic

theorem referenceSort_eq (cmp : RowCompare) (rows : List Row) (h : cmp.OrderOn rows) :
    referenceSort cmp rows = .ok (rows.insertionSort (fun a b => cmp a b ≠ .ok .gt)) := by
  rw [referenceSort, h.answersOn, if_pos rfl]

theorem referenceSort_selects (n : Nat) (cmp : RowCompare) (rows : List Row)
    (_hn : n < rows.length) (h : cmp.OrderOn rows) :
    ∃ rows', referenceSort cmp rows = .ok rows' ∧ rows'.Perm rows ∧
      ∀ a ∈ rows'.take n, ∀ b ∈ rows'.drop n, cmp a b ≠ .ok .gt := by
  refine ⟨_, referenceSort_eq cmp rows h, List.perm_insertionSort _ rows, ?_⟩
  have hsorted := pairwise_insertionSort_of_mem (r := fun a b => cmp a b ≠ .ok .gt) rows
    h.total h.trans
  rw [← List.take_append_drop n (rows.insertionSort _)] at hsorted
  intro a ha b hb
  exact (List.pairwise_append.mp hsorted).2.2 a ha b hb

/-- `Debug` of a character inside a string. -/
def debugChar (c : Char) : String :=
  if c = '"' then "\\\""
  else if c = '\\' then "\\\\"
  else if c = '\n' then "\\n"
  else if c = '\t' then "\\t"
  else if c = '\r' then "\\r"
  else String.singleton c

/-- `Debug` of an index key part. -/
def debugKeyPart : KeyPart → String
  | .null => "Null"
  | .boolean b => if b then "Boolean(true)" else "Boolean(false)"
  | .integer n => s!"Integer({n.toInt})"
  | .float bits => s!"Float({bits.toNat})"
  | .text s => "Text(\"" ++ String.join (s.toList.map debugChar) ++ "\")"

/-- The bytes of the ASCII characters of a string. -/
def asciiBytes (s : String) : List UInt8 := s.toList.map (fun c => UInt8.ofNat c.toNat)

/-- A process in which hash maps keep the order of insertion, and no address is handed out
again. -/
def Process.reference : Process where
  hashOrder _ names := names
  hashOrder_perm _ names := List.Perm.refl names
  recycled _ onDuplicate := onDuplicate
  recycled_columns _ _ := rfl
  recycled_free _ _ _ := rfl

/-- A release build of the program, exact on ASCII text and on tables of up to six rows
at the default false-positive rate. -/
def Host.reference : Host where
  toProcess := Process.reference
  overflowChecks := false
  lowercase := toAsciiLowercase
  debugKey key := asciiBytes ("[" ++ String.intercalate ", " (key.map debugKeyPart) ++ "]")
  debugStatement _ := ""
  bloomBitCount _ _ := 64
  bloomHashCount expected _ := (64 * 693147 / expected + 500000) / 1000000
  sortBy := referenceSort
  sortBy_eq := referenceSort_eq
  selectNthUnstableBy _ := referenceSort
  selectNthUnstableBy_spec := referenceSort_selects

/-- A debug build: arithmetic overflow panics. -/
def Host.referenceDebug : Host := { Host.reference with overflowChecks := true }

end Sql
end RustyDB
