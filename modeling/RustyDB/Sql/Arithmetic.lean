import Mathlib
import RustyDB.Sql.Fold

/-!
# Integer arithmetic

The operators on `i64` of `eval_expr` and `fold_expr`, against whole numbers: where the
exact value of an operation is no `i64`, a build with overflow checks panics and one
without wraps.

* `IntegerTree` — expressions of integers, columns, `+`, `-`, `*`, `/` and unary minus.
* `IntegerTree.exact` — what such an expression means in whole numbers.
* `IntegerTree.reached`, `IntegerTree.isConstant` — the parts that are evaluated, up to the
  first error, and those that are folded.
* `eval_of_fits`, `fold_of_fits` — evaluation and folding while every value fits.
* `arithmetic_exact_iff` — **arithmetic is exact or refused exactly when the whole numbers
  that the reached and the constant parts of an expression mean are `i64`s.**
-/

namespace RustyDB
namespace Sql

/-! ## Whole numbers -/

/-- The whole number is an `i64`. -/
def FitsInt64 (n : Int) : Prop := -2 ^ 63 ≤ n ∧ n < 2 ^ 63

instance (n : Int) : Decidable (FitsInt64 n) := inferInstanceAs (Decidable (_ ∧ _))

theorem fitsInt64_toInt (n : Int64) : FitsInt64 n.toInt := ⟨n.le_toInt, n.toInt_lt⟩

theorem toInt_ofInt_of_fits {n : Int} (h : FitsInt64 n) : (Int64.ofInt n).toInt = n :=
  Int64.toInt_ofInt_of_le h.1 h.2

/-- The operators of integer arithmetic. -/
inductive ArithmeticOp where
  | add
  | subtract
  | multiply
  | divide
  deriving DecidableEq, Repr

namespace ArithmeticOp

/-- An arithmetic operator as the engine names it. -/
def binaryOp : ArithmeticOp → BinaryOp
  | .add => .add
  | .subtract => .subtract
  | .multiply => .multiply
  | .divide => .divide

/-- The operation on whole numbers; a quotient is truncated, and there is none by zero. -/
def exact : ArithmeticOp → Int → Int → Option Int
  | .add, a, b => some (a + b)
  | .subtract, a, b => some (a - b)
  | .multiply, a, b => some (a * b)
  | .divide, a, b => if b = 0 then none else some (a.tdiv b)

end ArithmeticOp

/-- What an `i64` operation gives whose exact result is `n`: that result where it fits,
else a panic or another integer. -/
structure Computes (n : Int) (result : Except Fault Value) : Prop where
  of_fits : FitsInt64 n → result = .ok (.integer (Int64.ofInt n))
  of_not_fits : ¬FitsInt64 n → result = .error .panic ∨ ∃ m, result = .ok (.integer m)

section Operations

variable (H : Host)

theorem computes_overflowing (n : Int) : Computes n (overflowing H n) := by
  unfold overflowing
  refine ⟨fun hfits => ?_, fun _ => ?_⟩
  · exact if_neg fun h => h.2 hfits
  · split_ifs
    · exact Or.inl rfl
    · exact Or.inr ⟨_, rfl⟩

/-- The one quotient that is no `i64`. -/
theorem fitsInt64_tdiv {a b : Int64} (hb : b.toInt ≠ 0) :
    FitsInt64 (a.toInt.tdiv b.toInt) ↔ ¬(a = Int64.minValue ∧ b = -1) := by
  have hlow := a.le_toInt
  have hhigh := a.toInt_lt
  have hmin : Int64.minValue.toInt = -2 ^ 63 := by decide
  have hone : (-1 : Int64).toInt = -1 := by decide
  constructor
  · rintro hfits ⟨rfl, rfl⟩
    exact absurd hfits (by decide)
  · intro hother
    have habs : (a.toInt.tdiv b.toInt).natAbs ≤ a.toInt.natAbs :=
      Int.natAbs_tdiv_le_natAbs a.toInt b.toInt
    unfold FitsInt64
    by_contra hout
    -- Only `2 ^ 63` is left, and it needs `-2 ^ 63` over `-1`.
    have hquotient : a.toInt.tdiv b.toInt = 2 ^ 63 := by omega
    have ha : a.toInt = -2 ^ 63 := by omega
    have hproduct := Int.tdiv_mul_add_tmod a.toInt b.toInt
    have hrest : (a.toInt.tmod b.toInt).natAbs < b.toInt.natAbs := by
      rw [Int.natAbs_tmod]
      exact Nat.mod_lt _ (Int.natAbs_pos.mpr hb)
    rw [hquotient] at hproduct
    have hb' : b.toInt = -1 := by omega
    exact hother ⟨Int64.toInt_inj.mp (ha.trans hmin.symm), Int64.toInt_inj.mp (hb'.trans hone.symm)⟩

theorem computes_divideIntegers {a b : Int64} (hb : b.toInt ≠ 0) :
    Computes (a.toInt.tdiv b.toInt) (divideIntegers a b) := by
  unfold divideIntegers
  refine ⟨fun hfits => ?_, fun _ => ?_⟩
  · exact if_neg ((fitsInt64_tdiv hb).mp hfits)
  · split_ifs
    · exact Or.inl rfl
    · exact Or.inr ⟨_, rfl⟩

theorem computes_integerOp {op : ArithmeticOp} {a b : Int64} {n : Int}
    (hexact : op.exact a.toInt b.toInt = some n) : Computes n (integerOp H op.binaryOp a b) := by
  cases op with
  | divide =>
    rw [ArithmeticOp.exact] at hexact
    split_ifs at hexact with hb
    obtain rfl := Option.some.inj hexact
    exact computes_divideIntegers hb
  | _ =>
    obtain rfl := Option.some.inj hexact
    exact computes_overflowing H _

theorem isZeroNumber_integer (n : Int64) : isZeroNumber (.integer n) = true ↔ n.toInt = 0 := by
  rw [isZeroNumber, beq_iff_eq, ← Int64.toInt_inj]
  rfl

/-- Two integers under an operator: without an exact result there is an error. -/
theorem evalBinary_integers (op : ArithmeticOp) (a b : Int64) :
    (∀ n, op.exact a.toInt b.toInt = some n →
      evalBinary H op.binaryOp (.integer a) (.integer b) = integerOp H op.binaryOp a b) ∧
    (op.exact a.toInt b.toInt = none →
      evalBinary H op.binaryOp (.integer a) (.integer b) = .error (.error "Division by zero")) := by
  cases op with
  | divide =>
    rw [ArithmeticOp.exact]
    split_ifs with hb
    · exact ⟨nofun, fun _ => if_pos ((isZeroNumber_integer b).mpr hb)⟩
    · exact ⟨fun _ _ => if_neg (mt (isZeroNumber_integer b).mp hb), nofun⟩
  | _ => exact ⟨fun _ _ => rfl, nofun⟩

/-- Two integer literals under an operator: without an exact result they stay. -/
theorem foldBinary_integers (op : ArithmeticOp) (a b : Int64) :
    (∀ n, op.exact a.toInt b.toInt = some n →
      foldBinary H (.integer a) op.binaryOp (.integer b) =
        (integerOp H op.binaryOp a b).map some) ∧
    (op.exact a.toInt b.toInt = none →
      foldBinary H (.integer a) op.binaryOp (.integer b) = .ok none) := by
  cases op with
  | divide =>
    rw [ArithmeticOp.exact]
    split_ifs with hb
    · exact ⟨nofun, fun _ => if_pos ((isZeroNumber_integer b).mpr hb)⟩
    · exact ⟨fun _ _ => if_neg (mt (isZeroNumber_integer b).mp hb), nofun⟩
  | _ => exact ⟨fun _ _ => rfl, nofun⟩

end Operations

/-! ## Expressions -/

/-- An expression of integers. -/
inductive IntegerTree where
  | literal (value : Int64)
  | column (qualifier : Option String) (name : String)
  | negate (operand : IntegerTree)
  | binary (left : IntegerTree) (op : ArithmeticOp) (right : IntegerTree)

namespace IntegerTree

/-- A tree of integer arithmetic as an expression of the engine. -/
def expr : IntegerTree → Expr
  | .literal n => .literal (.integer n)
  | .column qualifier name => .column qualifier name
  | .negate operand => .unary .negate operand.expr
  | .binary left op right => .binary left.expr op.binaryOp right.expr

/-- The integers that columns stand for. -/
abbrev Integers := Option String → String → Int64

/-- The whole number an expression means, if no divisor is zero. -/
def exact (integers : Integers) : IntegerTree → Option Int
  | .literal n => some n.toInt
  | .column qualifier name => some (integers qualifier name).toInt
  | .negate operand => (operand.exact integers).map fun n => -n
  | .binary left op right =>
    (left.exact integers).bind fun a => (right.exact integers).bind fun b => op.exact a b

/-- The expression and its parts. -/
def parts : IntegerTree → List IntegerTree
  | .literal n => [.literal n]
  | .column qualifier name => [.column qualifier name]
  | .negate operand => .negate operand :: operand.parts
  | .binary left op right => .binary left op right :: (left.parts ++ right.parts)

/-- The parts that `eval_expr` reaches: a left operand that means nothing is an error, after
which the right one is not evaluated. -/
def reached (integers : Integers) : IntegerTree → List IntegerTree
  | .literal n => [.literal n]
  | .column qualifier name => [.column qualifier name]
  | .negate operand => .negate operand :: operand.reached integers
  | .binary left op right =>
    .binary left op right :: (left.reached integers ++
      if (left.exact integers).isSome then right.reached integers else [])

/-- No column stands in the expression: `fold_expr` computes it. -/
def isConstant : IntegerTree → Bool
  | .literal _ => true
  | .column _ _ => false
  | .negate operand => operand.isConstant
  | .binary left _ right => left.isConstant && right.isConstant

theorem mem_parts_self (tree : IntegerTree) : tree ∈ tree.parts := by
  cases tree <;> exact List.mem_cons_self

theorem mem_reached_self (integers : Integers) (tree : IntegerTree) :
    tree ∈ tree.reached integers := by
  cases tree <;> exact List.mem_cons_self

theorem mem_reached_binary {integers : Integers} {left right part : IntegerTree}
    {op : ArithmeticOp} : part ∈ (binary left op right).reached integers ↔
      part = binary left op right ∨ part ∈ left.reached integers ∨
        (left.exact integers).isSome = true ∧ part ∈ right.reached integers := by
  rw [reached, List.mem_cons, List.mem_append]
  split_ifs with hleft <;> simp [hleft]

/-- What is reached is a part. -/
theorem reached_subset_parts (integers : Integers) (tree : IntegerTree) :
    tree.reached integers ⊆ tree.parts := by
  induction tree with
  | literal value => exact List.Subset.refl _
  | column qualifier name => exact List.Subset.refl _
  | negate operand ih => exact List.cons_subset_cons _ ih
  | binary left op right ihl ihr =>
    intro part hpart
    rw [parts, List.mem_cons, List.mem_append]
    rcases mem_reached_binary.mp hpart with rfl | hpart | ⟨-, hpart⟩
    · exact Or.inl rfl
    · exact Or.inr (Or.inl (ihl hpart))
    · exact Or.inr (Or.inr (ihr hpart))

/-- What a reached part reaches is reached. -/
theorem reached_subset {integers : Integers} {part tree : IntegerTree}
    (h : part ∈ tree.reached integers) : part.reached integers ⊆ tree.reached integers := by
  induction tree with
  | literal value =>
    obtain rfl := List.mem_singleton.mp h
    exact List.Subset.refl _
  | column qualifier name =>
    obtain rfl := List.mem_singleton.mp h
    exact List.Subset.refl _
  | negate operand ih =>
    rcases List.mem_cons.mp h with rfl | h
    · exact List.Subset.refl _
    · exact List.Subset.trans (ih h) (List.subset_cons_self _ _)
  | binary left op right ihl ihr =>
    rcases mem_reached_binary.mp h with rfl | h | ⟨hleft, h⟩
    · exact List.Subset.refl _
    · exact fun inner hinner => mem_reached_binary.mpr (Or.inr (Or.inl (ihl h hinner)))
    · exact fun inner hinner =>
        mem_reached_binary.mpr (Or.inr (Or.inr ⟨hleft, ihr h hinner⟩))

/-- The parts of a part are parts. -/
theorem parts_subset {part tree : IntegerTree} (h : part ∈ tree.parts) :
    part.parts ⊆ tree.parts := by
  induction tree with
  | literal value =>
    obtain rfl := List.mem_singleton.mp h
    exact List.Subset.refl _
  | column qualifier name =>
    obtain rfl := List.mem_singleton.mp h
    exact List.Subset.refl _
  | negate operand ih =>
    rcases List.mem_cons.mp h with rfl | h
    · exact List.Subset.refl _
    · exact List.Subset.trans (ih h) (List.subset_cons_self _ _)
  | binary left op right ihl ihr =>
    rcases List.mem_cons.mp h with rfl | h
    · exact List.Subset.refl _
    · refine List.Subset.trans ?_ (List.subset_cons_self _ _)
      rcases List.mem_append.mp h with h | h
      · exact List.Subset.trans (ihl h) (List.subset_append_left _ _)
      · exact List.Subset.trans (ihr h) (List.subset_append_right _ _)

/-- The columns of the expression are found in the row, and hold integers. -/
def Binds (integers : Integers) (columns : List BoundColumn) (row : Row) (tree : IntegerTree) :
    Prop :=
  ∀ qualifier name, .column qualifier name ∈ tree.parts →
    ∃ index, resolveColumn columns qualifier name = .ok index ∧
      row[index]? = some (.integer (integers qualifier name))

/-- Every part that is reached means an `i64`, or nothing. -/
def Fits (integers : Integers) (tree : IntegerTree) : Prop :=
  ∀ part ∈ tree.reached integers, ∀ n, part.exact integers = some n → FitsInt64 n

/-- Every part without columns means an `i64`, or nothing. -/
def ConstantsFit (integers : Integers) (tree : IntegerTree) : Prop :=
  ∀ part ∈ tree.parts, part.isConstant = true → ∀ n, part.exact integers = some n → FitsInt64 n

/-- The evaluator gives the exact `i64`, or an error. -/
def EvaluatesExactly (integers : Integers) (tree : IntegerTree) (result : Except Fault Value) :
    Prop :=
  (∃ n, tree.exact integers = some n ∧ FitsInt64 n ∧
    result = .ok (.integer (Int64.ofInt n))) ∨
  ∃ message, result = .error (.error message)

/-- The node stays, over its folded operands. -/
def Unfolded (H : Host) : IntegerTree → Expr → Prop
  | .literal _, _ => False
  | .column qualifier name, folded => folded = .column qualifier name
  | .negate operand, folded =>
    ∃ operand', foldExpr H operand.expr = .ok operand' ∧ folded = .unary .negate operand'
  | .binary left op right, folded =>
    ∃ left' right', foldExpr H left.expr = .ok left' ∧ foldExpr H right.expr = .ok right' ∧
      folded = .binary left' op.binaryOp right'

/-- Folding gives the exact `i64`, or leaves the node. -/
def FoldsExactly (H : Host) (integers : Integers) (tree : IntegerTree)
    (result : Except Fault Expr) : Prop :=
  ∃ folded, result = .ok folded ∧
    ((∃ n, tree.exact integers = some n ∧ FitsInt64 n ∧
      folded = .literal (.integer (Int64.ofInt n))) ∨ tree.Unfolded H folded)

/-! ## While every value fits -/

section Fitting

variable {integers : Integers} {tree : IntegerTree}

theorem Fits.whole (h : tree.Fits integers) {n : Int} (hn : tree.exact integers = some n) :
    FitsInt64 n := h tree (mem_reached_self integers tree) n hn

theorem Fits.negate {operand : IntegerTree} (h : (negate operand).Fits integers) :
    operand.Fits integers := fun part hpart => h part (List.mem_cons_of_mem _ hpart)

theorem Fits.left {left right : IntegerTree} {op : ArithmeticOp}
    (h : (binary left op right).Fits integers) : left.Fits integers :=
  fun part hpart => h part (mem_reached_binary.mpr (Or.inr (Or.inl hpart)))

/-- The right operand is reached after a left operand with a value. -/
theorem Fits.right {left right : IntegerTree} {op : ArithmeticOp}
    (h : (binary left op right).Fits integers) {a : Int} (ha : left.exact integers = some a) :
    right.Fits integers :=
  fun part hpart => h part (mem_reached_binary.mpr (Or.inr (Or.inr ⟨by rw [ha]; rfl, hpart⟩)))

theorem ConstantsFit.whole (h : tree.ConstantsFit integers) (hconstant : tree.isConstant = true)
    {n : Int} (hn : tree.exact integers = some n) : FitsInt64 n :=
  h tree (mem_parts_self tree) hconstant n hn

theorem ConstantsFit.negate {operand : IntegerTree} (h : (negate operand).ConstantsFit integers) :
    operand.ConstantsFit integers := fun part hpart => h part (List.mem_cons_of_mem _ hpart)

theorem ConstantsFit.left {left right : IntegerTree} {op : ArithmeticOp}
    (h : (binary left op right).ConstantsFit integers) : left.ConstantsFit integers :=
  fun part hpart => h part (List.mem_cons_of_mem _ (List.mem_append_left _ hpart))

theorem ConstantsFit.right {left right : IntegerTree} {op : ArithmeticOp}
    (h : (binary left op right).ConstantsFit integers) : right.ConstantsFit integers :=
  fun part hpart => h part (List.mem_cons_of_mem _ (List.mem_append_right _ hpart))

variable {columns : List BoundColumn} {row : Row}

theorem Binds.negate {operand : IntegerTree} (h : Binds integers columns row (negate operand)) :
    Binds integers columns row operand :=
  fun qualifier name hmem => h qualifier name (List.mem_cons_of_mem _ hmem)

theorem Binds.left {left right : IntegerTree} {op : ArithmeticOp}
    (h : Binds integers columns row (binary left op right)) : Binds integers columns row left :=
  fun qualifier name hmem =>
    h qualifier name (List.mem_cons_of_mem _ (List.mem_append_left _ hmem))

theorem Binds.right {left right : IntegerTree} {op : ArithmeticOp}
    (h : Binds integers columns row (binary left op right)) : Binds integers columns row right :=
  fun qualifier name hmem =>
    h qualifier name (List.mem_cons_of_mem _ (List.mem_append_right _ hmem))

variable (H : Host) (tables : Tables) (group : Option (List Row)) (ctes : Ctes)

/-- A column evaluates to the integer it stands for. -/
theorem eval_column {qualifier : Option String} {name : String}
    (hbinds : Binds integers columns row (.column qualifier name)) :
    evalExpr H tables (column qualifier name).expr columns row group ctes =
      .ok (.integer (integers qualifier name)) := by
  obtain ⟨index, hindex, hvalue⟩ := hbinds qualifier name (mem_parts_self _)
  rw [expr, evalExpr, hindex, Result.ok_bind, hvalue]

theorem eval_negate {operand : IntegerTree} {n : Int64}
    (h : evalExpr H tables operand.expr columns row group ctes = .ok (.integer n)) :
    evalExpr H tables (negate operand).expr columns row group ctes =
      overflowing H (-n.toInt) := by
  rw [expr, evalExpr, h]
  rfl

theorem eval_binary {left right : IntegerTree} {op : ArithmeticOp} {a b : Int64}
    (hleft : evalExpr H tables left.expr columns row group ctes = .ok (.integer a))
    (hright : evalExpr H tables right.expr columns row group ctes = .ok (.integer b)) :
    evalExpr H tables (binary left op right).expr columns row group ctes =
      evalBinary H op.binaryOp (.integer a) (.integer b) := by
  rw [expr, evalExpr_binary_values op.binaryOp hleft hright]
  cases op <;> rfl

/-- An operand without a value is an error of the whole. -/
theorem eval_binary_error {left right : IntegerTree} {op : ArithmeticOp} {message : String}
    (h : evalExpr H tables left.expr columns row group ctes = .error (.error message) ∨
      (∃ value, evalExpr H tables left.expr columns row group ctes = .ok value) ∧
        evalExpr H tables right.expr columns row group ctes = .error (.error message)) :
    evalExpr H tables (binary left op right).expr columns row group ctes =
      .error (.error message) := by
  rw [expr, evalExpr_binary H tables left.expr right.expr columns row group ctes
    (by cases op <;> exact nofun) (by cases op <;> exact nofun)]
  rcases h with hleft | ⟨⟨value, hleft⟩, hright⟩
  · rw [hleft]
    rfl
  · rw [hleft, Result.ok_bind, hright]
    rfl

/-- **While every reached part fits, evaluation is exact**, and an expression that means nothing
is refused. -/
theorem eval_of_fits (hbinds : Binds integers columns row tree) (hfits : tree.Fits integers) :
    (∀ n, tree.exact integers = some n →
      evalExpr H tables tree.expr columns row group ctes = .ok (.integer (Int64.ofInt n))) ∧
    (tree.exact integers = none → ∃ message,
      evalExpr H tables tree.expr columns row group ctes = .error (.error message)) := by
  induction tree with
  | literal value =>
    refine ⟨fun n hn => ?_, fun hn => by cases hn⟩
    obtain rfl := Option.some.inj hn
    rw [Int64.ofInt_toInt, expr, evalExpr]
  | column qualifier name =>
    refine ⟨fun n hn => ?_, fun hn => by cases hn⟩
    obtain rfl := Option.some.inj hn
    rw [Int64.ofInt_toInt]
    exact eval_column H tables group ctes hbinds
  | negate operand ih =>
    obtain ⟨hvalue, herror⟩ := ih hbinds.negate hfits.negate
    cases hoperand : operand.exact integers with
    | none =>
      refine ⟨fun n hn => ?_, fun _ => ?_⟩
      · rw [exact, hoperand] at hn
        cases hn
      · obtain ⟨message, hmessage⟩ := herror hoperand
        refine ⟨message, ?_⟩
        rw [expr, evalExpr, hmessage]
        rfl
    | some a =>
      have hexact : (negate operand).exact integers = some (-a) := by
        rw [exact, hoperand]
        rfl
      refine ⟨fun n hn => ?_, fun hn => ?_⟩
      · obtain rfl := Option.some.inj (hexact.symm.trans hn)
        have ha := hfits.negate.whole hoperand
        rw [eval_negate H tables group ctes (hvalue a hoperand), toInt_ofInt_of_fits ha]
        exact (computes_overflowing H (-a)).of_fits (hfits.whole hexact)
      · rw [hexact] at hn
        cases hn
  | binary left op right ihl ihr =>
    obtain ⟨hleftValue, hleftError⟩ := ihl hbinds.left hfits.left
    cases hleft : left.exact integers with
    | none =>
      refine ⟨fun n hn => ?_, fun _ => ?_⟩
      · rw [exact, hleft] at hn
        cases hn
      · obtain ⟨message, hmessage⟩ := hleftError hleft
        exact ⟨message, eval_binary_error H tables group ctes (Or.inl hmessage)⟩
    | some a =>
      have hleftEval := hleftValue a hleft
      obtain ⟨hrightValue, hrightError⟩ := ihr hbinds.right (hfits.right hleft)
      cases hright : right.exact integers with
      | none =>
        refine ⟨fun n hn => ?_, fun _ => ?_⟩
        · rw [exact, hleft, Option.bind_some, hright] at hn
          cases hn
        · obtain ⟨message, hmessage⟩ := hrightError hright
          exact ⟨message,
            eval_binary_error H tables group ctes (Or.inr ⟨⟨_, hleftEval⟩, hmessage⟩)⟩
      | some b =>
        have hexact : (binary left op right).exact integers = op.exact a b := by
          rw [exact, hleft, Option.bind_some, hright, Option.bind_some]
        have ha := hfits.left.whole hleft
        have hb := (hfits.right hleft).whole hright
        obtain ⟨hsome, hnone⟩ := evalBinary_integers H op (Int64.ofInt a) (Int64.ofInt b)
        have hcomputes := @computes_integerOp H op (Int64.ofInt a) (Int64.ofInt b)
        rw [toInt_ofInt_of_fits ha, toInt_ofInt_of_fits hb] at hsome hnone hcomputes
        rw [eval_binary H tables group ctes hleftEval (hrightValue b hright)]
        refine ⟨fun n hn => ?_, fun hn => ?_⟩
        · rw [hexact] at hn
          rw [hsome n hn]
          exact (hcomputes hn).of_fits (hfits.whole (hexact.trans hn))
        · rw [hexact] at hn
          exact ⟨_, hnone hn⟩

omit columns row in
theorem ne_literal_of_unfolded {folded : Expr} (h : tree.Unfolded H folded) (value : Value) :
    folded ≠ .literal value := by
  cases tree with
  | literal n => exact h.elim
  | column qualifier name =>
    rw [show folded = _ from h]
    exact nofun
  | negate operand =>
    obtain ⟨operand', -, rfl⟩ := h
    exact nofun
  | binary left op right =>
    obtain ⟨left', right', -, -, rfl⟩ := h
    exact nofun

omit columns row in
theorem foldUnaryNode_of_ne_literal {op : UnaryOp} {operand : Expr}
    (h : ∀ value, operand ≠ .literal value) :
    foldUnaryNode H op operand = .ok (.unary op operand) := by
  cases operand with
  | literal value => exact absurd rfl (h value)
  | _ => rfl

omit columns row in
theorem foldBinaryNode_of_ne_literal {op : BinaryOp} {left right : Expr}
    (h : (∀ value, left ≠ .literal value) ∨ ∀ value, right ≠ .literal value) :
    foldBinaryNode H left op right = .ok (.binary left op right) := by
  unfold foldBinaryNode
  split
  · rename_i a b
    rcases h with h | h
    · exact absurd rfl (h a)
    · exact absurd rfl (h b)
  · rfl

omit columns row in
theorem fold_negate {operand : IntegerTree} {operand' : Expr}
    (hoperand : foldExpr H operand.expr = .ok operand') :
    foldExpr H (negate operand).expr = foldUnaryNode H .negate operand' := by
  rw [expr, foldExpr, hoperand]
  rfl

omit columns row in
theorem fold_binary {left right : IntegerTree} {op : ArithmeticOp} {left' right' : Expr}
    (hleft : foldExpr H left.expr = .ok left') (hright : foldExpr H right.expr = .ok right') :
    foldExpr H (binary left op right).expr = foldBinaryNode H left' op.binaryOp right' := by
  rw [expr, foldExpr, hleft, Result.ok_bind, hright]
  rfl

omit columns row in
/-- The minus of a literal is computed. -/
theorem fold_negate_literal {operand : IntegerTree} {a : Int} (ha : FitsInt64 a)
    (hoperand : foldExpr H operand.expr = .ok (.literal (.integer (Int64.ofInt a)))) :
    foldExpr H (negate operand).expr = (overflowing H (-a)).map Expr.literal := by
  rw [fold_negate H hoperand, foldUnaryNode, foldUnary, toInt_ofInt_of_fits ha]
  cases overflowing H (-a) <;> rfl

omit columns row in
/-- An operation on two literals is computed. -/
theorem fold_binary_literals {left right : IntegerTree} {op : ArithmeticOp} {a b n : Int}
    (ha : FitsInt64 a) (hb : FitsInt64 b) (hn : op.exact a b = some n)
    (hleft : foldExpr H left.expr = .ok (.literal (.integer (Int64.ofInt a))))
    (hright : foldExpr H right.expr = .ok (.literal (.integer (Int64.ofInt b)))) :
    foldExpr H (binary left op right).expr =
      (integerOp H op.binaryOp (Int64.ofInt a) (Int64.ofInt b)).map Expr.literal := by
  obtain ⟨hsome, -⟩ := foldBinary_integers H op (Int64.ofInt a) (Int64.ofInt b)
  rw [toInt_ofInt_of_fits ha, toInt_ofInt_of_fits hb] at hsome
  rw [fold_binary H hleft hright, foldBinaryNode, hsome n hn]
  cases integerOp H op.binaryOp (Int64.ofInt a) (Int64.ofInt b) <;> rfl

omit columns row in
/-- **While every constant part fits, folding is exact**: what has become a literal is a
constant part with its exact value, and a constant part that means a number has become
one. -/
theorem fold_of_fits (hfits : tree.ConstantsFit integers) :
    ∃ folded, foldExpr H tree.expr = .ok folded ∧
      ((tree.isConstant = true ∧ ∃ n, tree.exact integers = some n ∧
          folded = .literal (.integer (Int64.ofInt n))) ∨
        tree.Unfolded H folded ∧ (tree.isConstant = true → tree.exact integers = none)) := by
  induction tree with
  | literal value =>
    refine ⟨.literal (.integer value), by rw [expr, foldExpr],
      Or.inl ⟨rfl, value.toInt, rfl, ?_⟩⟩
    rw [Int64.ofInt_toInt]
  | column qualifier name =>
    exact ⟨.column qualifier name, by rw [expr, foldExpr], Or.inr ⟨rfl, nofun⟩⟩
  | negate operand ih =>
    obtain ⟨operand', hoperand, hcases⟩ := ih hfits.negate
    rcases hcases with ⟨hconstant, a, ha, rfl⟩ | ⟨hunfolded, hnone⟩
    · have hexact : (negate operand).exact integers = some (-a) := by
        rw [exact, ha]
        rfl
      refine ⟨_, ?_, Or.inl ⟨hconstant, -a, hexact, rfl⟩⟩
      rw [fold_negate_literal H (hfits.negate.whole hconstant ha) hoperand,
        (computes_overflowing H (-a)).of_fits (hfits.whole hconstant hexact)]
      rfl
    · refine ⟨_, (fold_negate H hoperand).trans
        (foldUnaryNode_of_ne_literal H (ne_literal_of_unfolded H hunfolded)),
        Or.inr ⟨⟨operand', hoperand, rfl⟩, fun hconstant => ?_⟩⟩
      rw [exact, hnone hconstant]
      rfl
  | binary left op right ihl ihr =>
    obtain ⟨left', hleft, hleftCases⟩ := ihl hfits.left
    obtain ⟨right', hright, hrightCases⟩ := ihr hfits.right
    have hnode : (binary left op right).Unfolded H (.binary left' op.binaryOp right') :=
      ⟨left', right', hleft, hright, rfl⟩
    rcases hleftCases with ⟨hleftConstant, a, ha, rfl⟩ | ⟨hunfolded, hnone⟩
    · rcases hrightCases with ⟨hrightConstant, b, hb, rfl⟩ | ⟨hunfolded, hnone⟩
      · have hconstant : (binary left op right).isConstant = true := by
          rw [isConstant, hleftConstant, hrightConstant]
          rfl
        have hexact : (binary left op right).exact integers = op.exact a b := by
          rw [exact, ha, Option.bind_some, hb, Option.bind_some]
        have hfitsA := hfits.left.whole hleftConstant ha
        have hfitsB := hfits.right.whole hrightConstant hb
        cases hn : op.exact a b with
        | none =>
          obtain ⟨-, hnone⟩ := foldBinary_integers H op (Int64.ofInt a) (Int64.ofInt b)
          rw [toInt_ofInt_of_fits hfitsA, toInt_ofInt_of_fits hfitsB] at hnone
          refine ⟨_, (fold_binary H hleft hright).trans ?_, Or.inr ⟨hnode, fun _ => ?_⟩⟩
          · rw [foldBinaryNode, hnone hn]
            rfl
          · exact hexact.trans hn
        | some n =>
          have hcomputes := @computes_integerOp H op (Int64.ofInt a) (Int64.ofInt b) n
          rw [toInt_ofInt_of_fits hfitsA, toInt_ofInt_of_fits hfitsB] at hcomputes
          refine ⟨_, ?_, Or.inl ⟨hconstant, n, hexact.trans hn, rfl⟩⟩
          rw [fold_binary_literals H hfitsA hfitsB hn hleft hright,
            (hcomputes hn).of_fits (hfits.whole hconstant (hexact.trans hn))]
          rfl
      · refine ⟨_, (fold_binary H hleft hright).trans (foldBinaryNode_of_ne_literal H
          (Or.inr (ne_literal_of_unfolded H hunfolded))), Or.inr ⟨hnode, fun hconstant => ?_⟩⟩
        rw [isConstant, Bool.and_eq_true] at hconstant
        rw [exact, ha, Option.bind_some, hnone hconstant.2, Option.bind_none]
    · refine ⟨_, (fold_binary H hleft hright).trans (foldBinaryNode_of_ne_literal H
        (Or.inl (ne_literal_of_unfolded H hunfolded))), Or.inr ⟨hnode, fun hconstant => ?_⟩⟩
      rw [isConstant, Bool.and_eq_true] at hconstant
      rw [exact, hnone hconstant.1, Option.bind_none]

omit columns row in
/-- A constant part that means an `i64` has become its literal. -/
theorem fold_constant (hfits : tree.ConstantsFit integers) (hconstant : tree.isConstant = true)
    {n : Int} (hn : tree.exact integers = some n) :
    foldExpr H tree.expr = .ok (.literal (.integer (Int64.ofInt n))) := by
  obtain ⟨folded, hfold, ⟨-, m, hm, rfl⟩ | ⟨-, hnone⟩⟩ := fold_of_fits H hfits
  · rw [hfold, Option.some.inj (hm.symm.trans hn)]
  · rw [hnone hconstant] at hn
    cases hn

/-- An operation whose exact result does not fit is neither exact nor refused. -/
theorem not_evaluatesExactly {result : Except Fault Value} {n : Int}
    (hexact : tree.exact integers = some n) (hcomputes : Computes n result)
    (hfits : ¬FitsInt64 n) : ¬tree.EvaluatesExactly integers result := by
  rintro (⟨m, hm, hfitsM, -⟩ | ⟨message, hmessage⟩)
  · exact hfits (Option.some.inj (hm.symm.trans hexact) ▸ hfitsM)
  · rcases hcomputes.of_not_fits hfits with hpanic | ⟨m, hm⟩
    · rw [hmessage] at hpanic
      cases hpanic
    · rw [hmessage] at hm
      cases hm

/-- Where evaluation is exact or refused in every reached part, every reached part fits. -/
theorem fits_of_evaluatesExactly (hbinds : Binds integers columns row tree)
    (h : ∀ part ∈ tree.reached integers,
      part.EvaluatesExactly integers (evalExpr H tables part.expr columns row group ctes)) :
    tree.Fits integers := by
  induction tree with
  | literal value =>
    intro part hpart n hn
    obtain rfl := List.mem_singleton.mp hpart
    obtain rfl := Option.some.inj hn
    exact fitsInt64_toInt value
  | column qualifier name =>
    intro part hpart n hn
    obtain rfl := List.mem_singleton.mp hpart
    obtain rfl := Option.some.inj hn
    exact fitsInt64_toInt _
  | negate operand ih =>
    have hoperandFits := ih hbinds.negate fun part hpart => h part (List.mem_cons_of_mem _ hpart)
    intro part hpart n hn
    rcases List.mem_cons.mp hpart with rfl | hpart
    · by_contra hfits
      cases hoperand : operand.exact integers with
      | none =>
        rw [exact, hoperand] at hn
        cases hn
      | some a =>
        have ha := hoperandFits.whole hoperand
        have hvalue := (eval_of_fits H tables group ctes hbinds.negate hoperandFits).1 a hoperand
        have hcomputes := computes_overflowing H (-(Int64.ofInt a).toInt)
        rw [toInt_ofInt_of_fits ha] at hcomputes
        obtain rfl : n = -a := by
          rw [exact, hoperand] at hn
          exact (Option.some.inj hn).symm
        refine not_evaluatesExactly hn hcomputes hfits ?_
        have hroot := h _ (mem_reached_self integers _)
        rwa [eval_negate H tables group ctes hvalue, toInt_ofInt_of_fits ha] at hroot
    · exact hoperandFits part hpart n hn
  | binary left op right ihl ihr =>
    have hleftFits := ihl hbinds.left fun part hpart =>
      h part (mem_reached_binary.mpr (Or.inr (Or.inl hpart)))
    -- The right operand is looked at after a left one that means a number.
    have hrightFits : (left.exact integers).isSome = true → right.Fits integers :=
      fun hleft => ihr hbinds.right fun part hpart =>
        h part (mem_reached_binary.mpr (Or.inr (Or.inr ⟨hleft, hpart⟩)))
    intro part hpart n hn
    rcases mem_reached_binary.mp hpart with rfl | hpart | ⟨hleft, hpart⟩
    · by_contra hfits
      rw [exact] at hn
      obtain ⟨a, hleft, hn⟩ := Option.bind_eq_some_iff.mp hn
      obtain ⟨b, hright, hn⟩ := Option.bind_eq_some_iff.mp hn
      have hrightFits := hrightFits (by rw [hleft]; rfl)
      have ha := hleftFits.whole hleft
      have hb := hrightFits.whole hright
      have hleftEval := (eval_of_fits H tables group ctes hbinds.left hleftFits).1 a hleft
      have hrightEval := (eval_of_fits H tables group ctes hbinds.right hrightFits).1 b hright
      obtain ⟨hsome, -⟩ := evalBinary_integers H op (Int64.ofInt a) (Int64.ofInt b)
      have hcomputes := @computes_integerOp H op (Int64.ofInt a) (Int64.ofInt b) n
      rw [toInt_ofInt_of_fits ha, toInt_ofInt_of_fits hb] at hsome hcomputes
      have hexact : (binary left op right).exact integers = some n := by
        rw [exact, hleft, Option.bind_some, hright, Option.bind_some, hn]
      refine not_evaluatesExactly hexact (hcomputes hn) hfits ?_
      have hroot := h _ (mem_reached_self integers _)
      rwa [eval_binary H tables group ctes hleftEval hrightEval, hsome n hn] at hroot
    · exact hleftFits part hpart n hn
    · exact hrightFits hleft part hpart n hn

omit columns row in
/-- A constant part whose exact value does not fit is folded to another integer, or not at
all, once its operands are folded. -/
theorem not_foldsExactly {result : Except Fault Value} {n : Int}
    (hexact : tree.exact integers = some n) (hcomputes : Computes n result)
    (hfits : ¬FitsInt64 n) : ¬tree.FoldsExactly H integers (result.map Expr.literal) := by
  rintro ⟨folded, hfolded, ⟨m, hm, hfitsM, -⟩ | hunfolded⟩
  · exact hfits (Option.some.inj (hm.symm.trans hexact) ▸ hfitsM)
  · rcases hcomputes.of_not_fits hfits with hpanic | ⟨m, hm⟩
    · rw [hpanic] at hfolded
      cases hfolded
    · rw [hm] at hfolded
      exact ne_literal_of_unfolded H hunfolded _ (Except.ok.inj hfolded).symm

omit columns row in
/-- Where folding is exact in every part, every constant part fits. -/
theorem constantsFit_of_foldsExactly
    (h : ∀ part ∈ tree.parts, part.FoldsExactly H integers (foldExpr H part.expr)) :
    tree.ConstantsFit integers := by
  induction tree with
  | literal value =>
    intro part hpart _ n hn
    obtain rfl := List.mem_singleton.mp hpart
    obtain rfl := Option.some.inj hn
    exact fitsInt64_toInt value
  | column qualifier name =>
    intro part hpart hconstant n hn
    obtain rfl := List.mem_singleton.mp hpart
    cases hconstant
  | negate operand ih =>
    have hoperandFits := ih fun part hpart => h part (List.mem_cons_of_mem _ hpart)
    intro part hpart hconstant n hn
    rcases List.mem_cons.mp hpart with rfl | hpart
    · by_contra hfits
      cases hoperand : operand.exact integers with
      | none =>
        rw [exact, hoperand] at hn
        cases hn
      | some a =>
        have ha := hoperandFits.whole hconstant hoperand
        obtain rfl : n = -a := by
          rw [exact, hoperand] at hn
          exact (Option.some.inj hn).symm
        refine not_foldsExactly H hn (computes_overflowing H (-a)) hfits ?_
        have hroot := h _ (mem_parts_self _)
        rwa [fold_negate_literal H ha (fold_constant H hoperandFits hconstant hoperand)] at hroot
    · exact hoperandFits part hpart hconstant n hn
  | binary left op right ihl ihr =>
    have hleftFits := ihl fun part hpart =>
      h part (List.mem_cons_of_mem _ (List.mem_append_left _ hpart))
    have hrightFits := ihr fun part hpart =>
      h part (List.mem_cons_of_mem _ (List.mem_append_right _ hpart))
    intro part hpart hconstant n hn
    rcases List.mem_cons.mp hpart with rfl | hpart
    · by_contra hfits
      rw [isConstant, Bool.and_eq_true] at hconstant
      rw [exact] at hn
      obtain ⟨a, hleft, hn⟩ := Option.bind_eq_some_iff.mp hn
      obtain ⟨b, hright, hn⟩ := Option.bind_eq_some_iff.mp hn
      have ha := hleftFits.whole hconstant.1 hleft
      have hb := hrightFits.whole hconstant.2 hright
      have hcomputes := @computes_integerOp H op (Int64.ofInt a) (Int64.ofInt b) n
      rw [toInt_ofInt_of_fits ha, toInt_ofInt_of_fits hb] at hcomputes
      have hexact : (binary left op right).exact integers = some n := by
        rw [exact, hleft, Option.bind_some, hright, Option.bind_some, hn]
      refine not_foldsExactly H hexact (hcomputes hn) hfits ?_
      have hroot := h _ (mem_parts_self _)
      rwa [fold_binary_literals H ha hb hn (fold_constant H hleftFits hconstant.1 hleft)
        (fold_constant H hrightFits hconstant.2 hright)] at hroot
    · rcases List.mem_append.mp hpart with hpart | hpart
      · exact hleftFits part hpart hconstant n hn
      · exact hrightFits part hpart hconstant n hn

end Fitting

/-- **Arithmetic is exact or refused wherever it is computed exactly when the whole numbers
are `i64`s**: those of the parts that `eval_expr` reaches, and those of the parts without
columns, which `fold_expr` computes. Elsewhere they panic, or wrap. -/
theorem arithmetic_exact_iff (H : Host) (tables : Tables) (integers : Integers)
    (columns : List BoundColumn) (row : Row) (group : Option (List Row)) (ctes : Ctes)
    (tree : IntegerTree) (hbinds : Binds integers columns row tree) :
    ((∀ part ∈ tree.reached integers,
        part.EvaluatesExactly integers (evalExpr H tables part.expr columns row group ctes)) ↔
      tree.Fits integers) ∧
    ((∀ part ∈ tree.parts, part.FoldsExactly H integers (foldExpr H part.expr)) ↔
      tree.ConstantsFit integers) := by
  refine ⟨⟨fits_of_evaluatesExactly H tables group ctes hbinds, fun hfits part hpart => ?_⟩,
    constantsFit_of_foldsExactly H, fun hfits part hpart => ?_⟩
  · have hpartFits : part.Fits integers := fun p hp => hfits p (reached_subset hpart hp)
    have hpartBinds : Binds integers columns row part := fun qualifier name hmem =>
      hbinds qualifier name (parts_subset (reached_subset_parts integers tree hpart) hmem)
    obtain ⟨hvalue, herror⟩ := eval_of_fits H tables group ctes hpartBinds hpartFits
    cases hexact : part.exact integers with
    | none => exact Or.inr (herror hexact)
    | some n => exact Or.inl ⟨n, hexact, hpartFits.whole hexact, hvalue n hexact⟩
  · have hpartFits : part.ConstantsFit integers := fun p hp => hfits p (parts_subset hpart hp)
    obtain ⟨folded, hfold, ⟨hconstant, n, hn, rfl⟩ | ⟨hunfolded, -⟩⟩ := fold_of_fits H hpartFits
    · exact ⟨_, hfold, Or.inl ⟨n, hn, hpartFits.whole hconstant hn, rfl⟩⟩
    · exact ⟨folded, hfold, Or.inr hunfolded⟩

/-- The least integer, as it is computed without one literal of it, over minus one. -/
def leastOverMinusOne : IntegerTree :=
  .binary (.binary (.literal (-9223372036854775807)) .subtract (.literal 1)) .divide (.literal (-1))

/-- Behind a left operand that is no number, a right one that overflows is not computed. -/
theorem unreached_sum_exact :
    (∀ part ∈ (binary (binary (.literal 1) .divide (.literal 0)) .add
          (binary (.column none "a") .add (.literal 1))).reached fun _ _ => 9223372036854775807,
        part.EvaluatesExactly (fun _ _ => 9223372036854775807)
          (evalExpr Host.reference ∅ part.expr [⟨"t", "a"⟩] [.integer 9223372036854775807]
            none ∅)) ∧
      ∀ part ∈ (binary (binary (.literal 1) .divide (.literal 0)) .add
          (binary (.column none "a") .add (.literal 1))).parts,
        part.FoldsExactly Host.reference (fun _ _ => 9223372036854775807)
          (foldExpr Host.reference part.expr) := by
  obtain ⟨hevaluates, hfolds⟩ := arithmetic_exact_iff Host.reference ∅
    (fun _ _ => 9223372036854775807) [⟨"t", "a"⟩] [.integer 9223372036854775807] none ∅
    (binary (binary (.literal 1) .divide (.literal 0)) .add
      (binary (.column none "a") .add (.literal 1))) fun qualifier name hmem => by
        simp only [parts, List.mem_append, List.mem_cons, List.not_mem_nil, or_false, reduceCtorEq,
          false_or, column.injEq] at hmem
        obtain ⟨rfl, rfl⟩ := hmem
        exact ⟨0, by decide +kernel, rfl⟩
  refine ⟨hevaluates.mpr fun part hpart n hn => ?_, hfolds.mpr fun part hpart hconstant n hn => ?_⟩
  · have hparts : part ∈ [binary (binary (.literal 1) .divide (.literal 0)) .add
        (binary (.column none "a") .add (.literal 1)),
        binary (.literal 1) .divide (.literal 0), .literal 1, .literal 0] := hpart
    simp only [List.mem_cons, List.not_mem_nil, or_false] at hparts
    rcases hparts with rfl | rfl | rfl | rfl
    · cases hn
    · cases hn
    · obtain rfl := Option.some.inj hn
      decide
    · obtain rfl := Option.some.inj hn
      decide
  · simp only [parts, List.mem_append, List.mem_cons, List.not_mem_nil, or_false] at hpart
    rcases hpart with rfl | (rfl | rfl | rfl) | rfl | rfl | rfl
    · cases hn
    · cases hn
    · obtain rfl := Option.some.inj hn
      decide
    · obtain rfl := Option.some.inj hn
      decide
    · cases hconstant
    · cases hconstant
    · obtain rfl := Option.some.inj hn
      decide

/-- At the ends of the range: one more than the greatest integer wraps in a release build
and panics in a debug build, the least integer stays itself when it is negated, and over
minus one it panics in both. -/
theorem ends_of_range_panic :
    evalExpr Host.reference ∅
        (.binary (.column none "a") .add (.literal (.integer 1))) [⟨"t", "a"⟩]
        [.integer 9223372036854775807] none ∅ = .ok (.integer (-9223372036854775808)) ∧
      evalExpr Host.referenceDebug ∅
        (.binary (.column none "a") .add (.literal (.integer 1))) [⟨"t", "a"⟩]
        [.integer 9223372036854775807] none ∅ = .error .panic ∧
      foldExpr Host.reference
        (.binary (.literal (.integer 9223372036854775807)) .add (.literal (.integer 1))) =
        .ok (.literal (.integer (-9223372036854775808))) ∧
      foldExpr Host.reference (.unary .negate (.literal (.integer (-9223372036854775808)))) =
        .ok (.literal (.integer (-9223372036854775808))) ∧
      ∀ H ∈ [Host.reference, Host.referenceDebug],
        foldExpr H leastOverMinusOne.expr = .error .panic ∧
          evalExpr H ∅ leastOverMinusOne.expr [] [] none ∅ = .error .panic := by
  refine ⟨rfl, rfl, rfl, rfl, fun H hH => ?_⟩
  simp only [List.mem_cons, List.not_mem_nil, or_false] at hH
  rcases hH with rfl | rfl <;> exact ⟨rfl, rfl⟩

end IntegerTree

end Sql
end RustyDB
