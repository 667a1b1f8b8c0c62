import Mathlib
import RustyDB.Wire.Cursors

/-!
# Length-encoded integers in a packet

A packet has length-encoded integers and strings between other fields.  Its reader knows a
position only, and each of them tells where it ends.

* `announcedLength` — the bytes of an encoding, by its first byte.
* `readLenencIntAt_encode` — the integer at a position is read, and the position moves
  behind it.
* `lenenc_round_trip` — **integers and strings are read back between any bytes**, no encoding
  begins another one, and there is no integer only where its bytes are missing.
-/

namespace RustyDB
namespace Wire

open LineFile LittleEndian Cursored Sql

/-! ## Encodings -/

/-- How many bytes an encoding has that begins with this byte. -/
def announcedLength (first : UInt8) : Nat :=
  if first = 0xfc then 3
  else if first = 0xfd then 4
  else if first = 0xfe then 9
  else 1

/-- An encoding has the bytes that its first byte announces. -/
theorem length_encodeLenencInt {value : Nat} {first : UInt8} {rest : Bytes}
    (h : encodeLenencInt value = first :: rest) :
    (encodeLenencInt value).length = announcedLength first := by
  unfold encodeLenencInt at h ⊢
  split at h
  · rename_i hsmall
    obtain ⟨rfl, -⟩ := List.cons.inj h
    have hne : ∀ b : UInt8, 251 ≤ b.toNat → UInt8.ofNat value ≠ b := by
      rintro b hb rfl
      rw [UInt8.toNat_ofNat'] at hb
      omega
    rw [if_pos hsmall, announcedLength, if_neg (hne _ (by decide)), if_neg (hne _ (by decide)),
      if_neg (hne _ (by decide)), List.length_singleton]
  · rename_i hsmall
    rw [if_neg hsmall]
    split at h
    · rename_i hshort
      obtain ⟨rfl, -⟩ := List.cons.inj h
      rw [if_pos hshort, List.length_cons, length_toBytes]
      rfl
    · rename_i hshort
      rw [if_neg hshort]
      split at h
      · rename_i hlong
        obtain ⟨rfl, -⟩ := List.cons.inj h
        rw [if_pos hlong, List.length_cons, length_toBytes]
        rfl
      · rename_i hlong
        obtain ⟨rfl, -⟩ := List.cons.inj h
        rw [if_neg hlong, List.length_cons, length_toBytes]
        rfl

/-- **No encoding begins another one.** -/
theorem eq_of_isPrefix_encodeLenencInt {v w : Nat} (hv : v < 2 ^ 64) (hw : w < 2 ^ 64)
    (h : encodeLenencInt v <+: encodeLenencInt w) : v = w := by
  obtain ⟨rest, hrest⟩ := h
  have hread := readLenencInt_encode hv rest
  have hwhole := readLenencInt_encode hw []
  rw [hrest] at hread
  rw [List.append_nil, hread] at hwhole
  obtain ⟨heq, -⟩ := Prod.mk.inj (Option.some.inj hwhole)
  exact heq

/-! ## At a position -/

/-- A cursor leaves the bytes behind it. -/
theorem pos_of_drop_eq {data post : Bytes} {c : Cursor} (hc : c.Within data.length)
    (h : data.drop c.pos = post) : c.pos + post.length = data.length := by
  have hle := hc.le
  rw [← h, List.length_drop]
  omega

/-- **The integer at a position** is read, and the position moves behind it. -/
theorem readLenencIntAt_encode {pre post : Bytes} {value : Nat} (hvalue : value < 2 ^ 64)
    (hlimit : (pre ++ encodeLenencInt value ++ post).length < usizeLimit) :
    ∃ c, readLenencIntAt (pre ++ encodeLenencInt value ++ post) ⟨pre.length, []⟩ =
        some (some value, c) ∧
      c.pos = pre.length + (encodeLenencInt value).length := by
  have hfinds := @finds_readLenencIntAt _ (encodeLenencInt value ++ post) hlimit
  rw [readLenencInt_encode hvalue post] at hfinds
  have hwithin : Cursor.Within (pre ++ encodeLenencInt value ++ post).length ⟨pre.length, []⟩ := by
    refine Cursor.within_iff.mpr ⟨?_, List.pairwise_singleton _ _⟩
    simp only [List.length_append]
    omega
  have hdrop : (pre ++ encodeLenencInt value ++ post).drop pre.length =
      encodeLenencInt value ++ post := by
    rw [List.append_assoc, List.drop_left]
  obtain ⟨c, hread, hc, hrest⟩ := hfinds ⟨pre.length, []⟩ hwithin hdrop
  refine ⟨c, hread, ?_⟩
  have hpos := pos_of_drop_eq hc hrest
  simp only [List.length_append] at hpos
  omega

/-- The wide branches find nothing only when there are too few bytes. -/
theorem short_of_readWideAt_none {data : Bytes} {width : Nat} {c c' : Cursor}
    (h : readWideAt data width c = some (none, c')) : data.length - c.pos < width := by
  by_contra hlong
  have hbind : readWideAt data width c =
      (peekMany usizeLimit data width c).bind fun bytes =>
        (advance usizeLimit width bytes.2).bind fun moved =>
          some (some (ofBytes bytes.1), moved.2) := by
    show (if data.length - c.pos < width then _ else _ : Reading (Option Nat)) c = _
    rw [if_neg hlong]
    rfl
  rw [hbind] at h
  obtain ⟨bytes, -, h⟩ := Option.bind_eq_some_iff.mp h
  obtain ⟨moved, -, h⟩ := Option.bind_eq_some_iff.mp h
  cases h

/-- **There is no integer** at a position only where its bytes are missing. -/
theorem short_of_readLenencIntAt_none {data : Bytes} {c c' : Cursor}
    (h : readLenencIntAt data c = some (none, c')) :
    data.drop c.pos = [] ∨ ∃ first rest, data.drop c.pos = first :: rest ∧
      (data.drop c.pos).length < announcedLength first := by
  by_cases hend : data.length ≤ c.pos
  · exact Or.inl (List.drop_eq_nil_of_le hend)
  · have hlt : c.pos < data.length := by omega
    have hbind : readLenencIntAt data c =
        (advance usizeLimit 1 c).bind fun moved =>
          (if data[c.pos] = 0xfc then readWideAt data 2
            else if data[c.pos] = 0xfd then readWideAt data 3
            else if data[c.pos] = 0xfe then readWideAt data 8
            else pure (some data[c.pos].toNat) : Reading (Option Nat)) moved.2 := by
      show (if decide (data.length ≤ c.pos) = true then _ else _ : Reading (Option Nat)) c = _
      rw [if_neg (by simpa using hlt)]
      show (((data[c.pos]?).map (·, c)).bind _) = _
      rw [List.getElem?_eq_getElem hlt]
      rfl
    rw [hbind] at h
    obtain ⟨moved, hmoved, h⟩ := Option.bind_eq_some_iff.mp h
    have hpos : moved.2.pos = c.pos + 1 := by
      obtain ⟨sum, hsum, hmove⟩ := Option.bind_eq_some_iff.mp hmoved
      obtain ⟨-, hsum⟩ := Option.ite_none_right_eq_some.mp hsum
      obtain rfl := Option.some.inj hsum
      cases hmove
      rfl
    refine Or.inr ⟨data[c.pos], data.drop (c.pos + 1), List.drop_eq_getElem_cons hlt, ?_⟩
    rw [List.length_drop, announcedLength]
    split at h
    · rename_i hfirst
      have hshort := short_of_readWideAt_none h
      rw [if_pos hfirst]
      omega
    · rename_i hfirst
      rw [if_neg hfirst]
      split at h
      · rename_i hfirst
        have hshort := short_of_readWideAt_none h
        rw [if_pos hfirst]
        omega
      · rename_i hfirst
        rw [if_neg hfirst]
        split at h
        · rename_i hfirst
          have hshort := short_of_readWideAt_none h
          rw [if_pos hfirst]
          omega
        · cases h

/-! ## Between any bytes -/

/-- **Length-encoded integers and strings** between any bytes of a packet: an integer is read
back and the position moves by its encoding, the length of a string delimits its bytes, no
encoding begins that of another integer, and where there is no integer the data is at its end
or has fewer bytes than the first one announces. -/
theorem lenenc_round_trip :
    (∀ (v : UInt64) (pre post : Bytes),
      (pre ++ encodeLenencInt v.toNat ++ post).length < usizeLimit →
      ∃ c, readLenencIntAt (pre ++ encodeLenencInt v.toNat ++ post) ⟨pre.length, []⟩ =
          some (some v.toNat, c) ∧
        c.pos = pre.length + (encodeLenencInt v.toNat).length) ∧
    (∀ (s : String) (pre post : Bytes), (pre ++ encodeLenencStr s ++ post).length < usizeLimit →
      ∃ length c, readLenencIntAt (pre ++ encodeLenencStr s ++ post) ⟨pre.length, []⟩ =
          some (some length, c) ∧
        c.pos + length = (pre ++ encodeLenencStr s).length ∧
        ((pre ++ encodeLenencStr s ++ post).drop c.pos).take length = utf8 s) ∧
    (∀ v w : UInt64, encodeLenencInt v.toNat <+: encodeLenencInt w.toNat → v = w) ∧
    ∀ (data : Bytes) (c c' : Cursor), readLenencIntAt data c = some (none, c') →
      data.drop c.pos = [] ∨ ∃ first rest, data.drop c.pos = first :: rest ∧
        (data.drop c.pos).length < announcedLength first := by
  refine ⟨?integer, ?string, ?code, fun data c c' h => short_of_readLenencIntAt_none h⟩
  case integer =>
    intro v pre post hlimit
    exact readLenencIntAt_encode v.toNat_lt hlimit
  case string =>
    intro s pre post hlimit
    have hsplit : pre ++ encodeLenencStr s ++ post =
        pre ++ encodeLenencInt (utf8 s).length ++ (utf8 s ++ post) := by
      simp only [encodeLenencStr, List.append_assoc]
    rw [hsplit] at hlimit ⊢
    have hlength : (utf8 s).length < 2 ^ 64 := by
      simp only [List.length_append, usizeLimit] at hlimit
      omega
    obtain ⟨c, hread, hpos⟩ := readLenencIntAt_encode hlength hlimit
    refine ⟨(utf8 s).length, c, hread, ?_, ?_⟩
    · rw [hpos]
      simp only [encodeLenencStr, List.length_append]
      omega
    · rw [hpos, ← List.length_append, List.drop_left, List.take_left]
  case code =>
    intro v w hprefix
    exact UInt64.toNat_inj.mp (eq_of_isPrefix_encodeLenencInt v.toNat_lt w.toNat_lt hprefix)

/-- The integer 300 between other bytes. -/
theorem lenenc_three_hundred :
    ∃ c, readLenencIntAt ([1, 2] ++ encodeLenencInt (300 : UInt64).toNat ++ [0xfc]) ⟨2, []⟩ =
        some (some 300, c) ∧ c.pos = 2 + (encodeLenencInt (300 : UInt64).toNat).length :=
  lenenc_round_trip.1 300 [1, 2] [0xfc] (by decide)

end Wire
end RustyDB
