import Mathlib

/-!
# IEEE 754 binary64, by bit patterns

A double is its 64 bits.  Every finite double is a whole number of units of
`2 ^ -1074`, so the operations are exact integer or rational arithmetic in that
unit followed by one rounding to nearest, ties to even (`F64.round`).

* `F64.partialCmp` — the IEEE order: not-a-number is unordered, the two zeros
  are equal.
* `F64.ofInt`, `F64.toInt64` — the conversions to and from integers: rounding
  one way, truncating and saturating the other.
* `F64.add`, `F64.sub`, `F64.mul`, `F64.div`, `F64.neg`.
-/

/-- A double-precision number, as its bit pattern. -/
structure F64 where
  /-- The 64 bits: sign, 11 bits of exponent, 52 bits of fraction. -/
  bits : UInt64
  deriving DecidableEq, Repr, Inhabited

namespace F64

/-- The bits of infinity. -/
def infMagnitude : Nat := 0x7ff0000000000000

/-- The sign bit. -/
def sign (x : F64) : Bool := decide (2 ^ 63 ≤ x.bits.toNat)

/-- The bits without the sign. -/
def magnitude (x : F64) : Nat := x.bits.toNat % 2 ^ 63

/-- The double with a given sign and magnitude. -/
def ofMagnitude (negative : Bool) (magnitude : Nat) : F64 :=
  ⟨UInt64.ofNat (magnitude + if negative then 2 ^ 63 else 0)⟩

/-- A quiet NaN. -/
def nan : F64 := ⟨0x7ff8000000000000⟩

/-- Whether a double is NaN. -/
def isNaN (x : F64) : Bool := decide (infMagnitude < x.magnitude)

/-- Whether a double is infinite. -/
def isInfinite (x : F64) : Bool := x.magnitude == infMagnitude

/-- Whether a double is a number. -/
def isFinite (x : F64) : Bool := decide (x.magnitude < infMagnitude)

/-- Whether a double is one of the two zeros. -/
def isZero (x : F64) : Bool := x.magnitude == 0

/-! ## Comparison -/

/-- Magnitudes order doubles of one sign, so this integer orders all of them
except not-a-number; it is `0` for both zeros. -/
def key (x : F64) : Int := if x.sign then -(x.magnitude : Int) else x.magnitude

/-- The IEEE comparison. -/
def partialCmp (x y : F64) : Option Ordering :=
  if x.isNaN || y.isNaN then none else some (compare x.key y.key)

theorem partialCmp_swap (x y : F64) : x.partialCmp y = (y.partialCmp x).map Ordering.swap := by
  unfold partialCmp
  rw [Bool.or_comm]
  split
  · rfl
  · simp only [Option.map_some, Option.some.injEq]
    exact Std.OrientedCmp.eq_swap

/-- The IEEE equality. -/
def eq (x y : F64) : Bool := x.partialCmp y == some .eq

/-- Minus zero, which is equal to zero and has other bits. -/
def negZero : F64 := ⟨0x8000000000000000⟩

theorem ext_bits {x y : F64} (h : x.bits.toNat = y.bits.toNat) : x = y := by
  cases x
  cases y
  exact congrArg F64.mk (UInt64.toNat_inj.mp h)

/-- Minus zero apart, equal doubles have the same bits. -/
theorem eq_of_eq {x y : F64} (h : x.eq y = true) (hx : x ≠ negZero) (hy : y ≠ negZero) :
    x = y := by
  have hkey : x.key = y.key := by
    unfold eq partialCmp at h
    split at h
    · simp at h
    · simpa using h
  have hbits : ∀ z : F64, z ≠ negZero → z.bits.toNat ≠ 2 ^ 63 :=
    fun z hz hbit => hz (ext_bits (hbit.trans (by decide)))
  have hbx := hbits x hx
  have hby := hbits y hy
  have hltx := x.bits.toNat_lt
  have hlty := y.bits.toNat_lt
  unfold key sign magnitude at hkey
  apply ext_bits
  by_cases hsx : 2 ^ 63 ≤ x.bits.toNat
  · by_cases hsy : 2 ^ 63 ≤ y.bits.toNat
    · simp only [hsx, hsy, decide_true, if_true] at hkey
      omega
    · simp only [hsx, hsy, decide_true, decide_false, if_true, Bool.false_eq_true,
        if_false] at hkey
      omega
  · by_cases hsy : 2 ^ 63 ≤ y.bits.toNat
    · simp only [hsx, hsy, decide_true, decide_false, if_true, Bool.false_eq_true,
        if_false] at hkey
      omega
    · simp only [hsx, hsy, decide_false, Bool.false_eq_true, if_false] at hkey
      omega

/-! ## Rounding -/

/-- A finite double in units of `2 ^ -1074`, without its sign. -/
def units (x : F64) : Nat :=
  let exponent := x.magnitude / 2 ^ 52
  let fraction := x.magnitude % 2 ^ 52
  if exponent = 0 then fraction else (fraction + 2 ^ 52) * 2 ^ (exponent - 1)

/-- The signed units of a finite double. -/
def signedUnits (x : F64) : Int := if x.sign then -(x.units : Int) else x.units

/-- `num / den` rounded to nearest, ties to even. -/
def roundQuotient (num den : Nat) : Nat :=
  let q := num / den
  let r := num % den
  if den < 2 * r ∨ (2 * r = den ∧ q % 2 = 1) then q + 1 else q

/-- The magnitude nearest to `num / den` units. -/
def roundMagnitude (num den : Nat) : Nat :=
  let shift := Nat.log2 (num / den) - 52
  min (shift * 2 ^ 52 + roundQuotient num (den * 2 ^ shift)) infMagnitude

/-- The double nearest to `num / den` units with a given sign. -/
def round (negative : Bool) (num den : Nat) : F64 :=
  ofMagnitude negative (roundMagnitude num den)

/-- An integer as a double. -/
def ofInt (n : Int) : F64 := round (decide (n < 0)) (n.natAbs * 2 ^ 1074) 1

/-- A double as a 64-bit integer: truncated, saturating, `0` for not-a-number. -/
def toInt64 (x : F64) : Int64 :=
  if x.isNaN then 0
  else
    let whole : Int := x.units / 2 ^ 1074
    let signed := if x.sign then -whole else whole
    if x.isInfinite ∨ 2 ^ 63 ≤ whole then (if x.sign then Int64.minValue else Int64.maxValue)
    else Int64.ofInt signed

/-! ## Arithmetic -/

/-- The negation, which flips the sign also of NaN. -/
def neg (x : F64) : F64 := ⟨x.bits ^^^ 0x8000000000000000⟩

/-- The sum, rounded to nearest. -/
def add (x y : F64) : F64 :=
  if x.isNaN || y.isNaN then nan
  else if x.isInfinite then (if y.isInfinite && x.sign != y.sign then nan else x)
  else if y.isInfinite then y
  else
    let sum := x.signedUnits + y.signedUnits
    if sum = 0 then ofMagnitude (x.sign && y.sign) 0 else round (decide (sum < 0)) sum.natAbs 1

/-- The difference, rounded to nearest. -/
def sub (x y : F64) : F64 := if y.isNaN then nan else add x (neg y)

/-- The product, rounded to nearest. -/
def mul (x y : F64) : F64 :=
  let negative := x.sign != y.sign
  if x.isNaN || y.isNaN then nan
  else if x.isInfinite || y.isInfinite then
    (if x.isZero || y.isZero then nan else ofMagnitude negative infMagnitude)
  else round negative (x.units * y.units) (2 ^ 1074)

/-- The quotient, rounded to nearest. -/
def div (x y : F64) : F64 :=
  let negative := x.sign != y.sign
  if x.isNaN || y.isNaN then nan
  else if x.isInfinite then (if y.isInfinite then nan else ofMagnitude negative infMagnitude)
  else if y.isInfinite then ofMagnitude negative 0
  else if y.isZero then (if x.isZero then nan else ofMagnitude negative infMagnitude)
  else round negative (x.units * 2 ^ 1074) y.units

example : add (ofInt 1) (ofInt 2) = ofInt 3 := by decide +kernel

/-- The first integer that is not a double. -/
example : ofInt (2 ^ 53 + 1) = ofInt (2 ^ 53) := by decide +kernel

end F64
