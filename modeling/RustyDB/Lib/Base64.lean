import Mathlib
import RustyDB.Lib.LineFile

/-!
# Base64

The base64 alphabet and its canonical encoding: padding is required, and the bits behind the
last byte are zero.

* `encode`, `decode` — bytes as characters, and back.
* `decode_eq_some` — **a text is decoded exactly when it is the encoding of some bytes**.
-/

namespace Base64

open LineFile

/-- The characters of the digits from 0 to 63. -/
def alphabet : List Char :=
  "ABCDEFGHIJKLMNOPQRSTUVWXYZabcdefghijklmnopqrstuvwxyz0123456789+/".toList

/-- The digit of a number below 64. -/
def digit (n : Nat) : Char := alphabet.getD n '='

/-- The number of a digit. -/
def value (c : Char) : Nat := alphabet.idxOf c

/-- Three bytes at a time as four digits, the last ones filled up with `=`. -/
def encode : Bytes → List Char
  | [] => []
  | [a] => [digit (a.toNat / 4), digit (a.toNat % 4 * 16), '=', '=']
  | [a, b] =>
    [digit (a.toNat / 4), digit (a.toNat % 4 * 16 + b.toNat / 16), digit (b.toNat % 16 * 4), '=']
  | a :: b :: c :: rest =>
    digit (a.toNat / 4) :: digit (a.toNat % 4 * 16 + b.toNat / 16) ::
      digit (b.toNat % 16 * 4 + c.toNat / 64) :: digit (c.toNat % 64) :: encode rest

/-- The bytes of four digits at a time, whatever they are. -/
def decodeDigits : List Char → Bytes
  | w :: x :: y :: z :: rest =>
    let first := UInt8.ofNat (value w * 4 + value x / 16)
    let second := UInt8.ofNat (value x % 16 * 16 + value y / 4)
    if y = '=' then [first]
    else if z = '=' then [first, second]
    else first :: second :: UInt8.ofNat (value y % 4 * 64 + value z) :: decodeDigits rest
  | _ => []

/-- The bytes of a text, if it is their encoding. -/
def decode (text : List Char) : Option Bytes :=
  if encode (decodeDigits text) = text then some (decodeDigits text) else none

theorem value_digit : ∀ n < 64, value (digit n) = n := by decide

set_option maxRecDepth 2000 in
theorem digit_ne_pad : ∀ n < 64, digit n ≠ '=' := by decide

theorem eq_ofNat {n : Nat} {a : UInt8} (h : n = a.toNat) : UInt8.ofNat n = a := by
  rw [h, UInt8.ofNat_toNat]

theorem decodeDigits_encode (bytes : Bytes) : decodeDigits (encode bytes) = bytes := by
  induction bytes using encode.induct with
  | case1 => rfl
  | case2 a =>
    have ha := a.toNat_lt
    have hfirst := value_digit (a.toNat / 4) (by omega)
    have hsecond := value_digit (a.toNat % 4 * 16) (by omega)
    simp only [encode, decodeDigits, hfirst, hsecond, if_true]
    rw [eq_ofNat (a := a) (by omega)]
  | case3 a b =>
    have ha := a.toNat_lt
    have hb := b.toNat_lt
    have hfirst := value_digit (a.toNat / 4) (by omega)
    have hsecond := value_digit (a.toNat % 4 * 16 + b.toNat / 16) (by omega)
    have hthird := value_digit (b.toNat % 16 * 4) (by omega)
    have hpad := digit_ne_pad (b.toNat % 16 * 4) (by omega)
    simp only [encode, decodeDigits, hfirst, hsecond, hthird, hpad, if_true, if_false]
    rw [eq_ofNat (a := a) (by omega), eq_ofNat (a := b) (by omega)]
  | case4 a b c rest ih =>
    have ha := a.toNat_lt
    have hb := b.toNat_lt
    have hc := c.toNat_lt
    have hfirst := value_digit (a.toNat / 4) (by omega)
    have hsecond := value_digit (a.toNat % 4 * 16 + b.toNat / 16) (by omega)
    have hthird := value_digit (b.toNat % 16 * 4 + c.toNat / 64) (by omega)
    have hfourth := value_digit (c.toNat % 64) (by omega)
    have hpad := digit_ne_pad (b.toNat % 16 * 4 + c.toNat / 64) (by omega)
    have hpad' := digit_ne_pad (c.toNat % 64) (by omega)
    simp only [encode, decodeDigits, hfirst, hsecond, hthird, hfourth, hpad, hpad', if_false, ih]
    rw [eq_ofNat (a := a) (by omega), eq_ofNat (a := b) (by omega), eq_ofNat (a := c) (by omega)]

/-- **The encoding is canonical.** -/
theorem decode_eq_some {text : List Char} {bytes : Bytes} :
    decode text = some bytes ↔ text = encode bytes := by
  rw [decode]
  constructor
  · intro h
    split at h
    · rename_i hencode
      rw [← Option.some.inj h, hencode]
    · cases h
  · rintro rfl
    rw [decodeDigits_encode, if_pos rfl]

end Base64
