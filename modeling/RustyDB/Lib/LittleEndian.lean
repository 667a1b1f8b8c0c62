import Mathlib

/-!
# Little-endian numbers

A number of a fixed width is its bytes, the lowest first.  A reader takes bytes off the
front of what is left to read.

* `toBytes`, `ofBytes` — the bytes of a number and the number of some bytes;
  `ofBytes_toBytes` reads a number back that fits the width.
* `takeBytes` — so many bytes off the front, when there are so many.
-/

namespace LittleEndian

/-- The lowest `width` bytes of a number. -/
def toBytes : Nat → Nat → List UInt8
  | 0, _ => []
  | width + 1, n => UInt8.ofNat n :: toBytes width (n / 256)

/-- The number of some bytes. -/
def ofBytes : List UInt8 → Nat
  | [] => 0
  | b :: bs => b.toNat + 256 * ofBytes bs

@[simp] theorem length_toBytes (width n : Nat) : (toBytes width n).length = width := by
  induction width generalizing n with
  | zero => rfl
  | succ width ih => rw [toBytes, List.length_cons, ih]

theorem ofBytes_toBytes_mod (width n : Nat) : ofBytes (toBytes width n) = n % 256 ^ width := by
  induction width generalizing n with
  | zero => rw [toBytes, ofBytes, pow_zero, Nat.mod_one]
  | succ width ih =>
    have hpow : 256 ^ (width + 1) = 256 * 256 ^ width := Nat.pow_succ'
    rw [toBytes, ofBytes, ih, UInt8.toNat_ofNat', hpow, Nat.mod_mul]

/-- **A number that fits** is read back. -/
theorem ofBytes_toBytes {width n : Nat} (h : n < 256 ^ width) : ofBytes (toBytes width n) = n := by
  rw [ofBytes_toBytes_mod, Nat.mod_eq_of_lt h]

/-- `count` bytes off the front, and what is left. -/
def takeBytes (count : Nat) (rest : List UInt8) : Option (List UInt8 × List UInt8) :=
  if rest.length < count then none else some (rest.take count, rest.drop count)

/-- Bytes that were written are taken off again. -/
theorem takeBytes_append {count : Nat} {bytes : List UInt8} (h : bytes.length = count)
    (rest : List UInt8) : takeBytes count (bytes ++ rest) = some (bytes, rest) := by
  have hlength : ¬ (bytes ++ rest).length < count := by
    rw [List.length_append]
    omega
  rw [takeBytes, if_neg hlength, List.take_left' h, List.drop_left' h]

end LittleEndian
