import Mathlib
import RustyDB.Lib.F64

/-!
# Whole numbers as doubles

A double whose units are a whole number of ones, and what rounding does to it: the
nearest whole number of 53 significant bits.

* `roundNat`, `roundInt` — a whole number of 53 significant bits, ties to even.
* `IsWhole` — a double is a given whole number.
* `isWhole_ofInt`, `IsWhole.add` — conversion and addition round.
* `IsWhole.toInt64_eq` — the conversion back saturates.
* `roundNat_of_lt`, `roundNat_le_pow` — what is exact, and how far rounding goes.
-/

namespace F64

/-! ## The magnitude of a double -/

theorem magnitude_ofMagnitude {negative : Bool} {magnitude : Nat} (h : magnitude < 2 ^ 63) :
    (ofMagnitude negative magnitude).magnitude = magnitude := by
  unfold ofMagnitude F64.magnitude
  rw [UInt64.toNat_ofNat']
  cases negative <;> simp <;> omega

theorem sign_ofMagnitude {negative : Bool} {magnitude : Nat} (h : magnitude < 2 ^ 63) :
    (ofMagnitude negative magnitude).sign = negative := by
  unfold ofMagnitude sign
  rw [UInt64.toNat_ofNat']
  cases negative <;> simp <;> omega

theorem infMagnitude_lt : infMagnitude < 2 ^ 63 := by decide

theorem roundMagnitude_lt (num den : Nat) : roundMagnitude num den < 2 ^ 63 :=
  (Nat.min_le_right _ _).trans_lt infMagnitude_lt

/-- Rounding does not leave the numbers. -/
theorem isNaN_round (negative : Bool) (num den : Nat) : (round negative num den).isNaN = false := by
  have hle : roundMagnitude num den ≤ infMagnitude := Nat.min_le_right _ _
  rw [round, isNaN, magnitude_ofMagnitude (roundMagnitude_lt num den)]
  simpa using hle

theorem isNaN_of_isFinite {x : F64} (h : x.isFinite = true) : x.isNaN = false := by
  simp only [isFinite, isNaN, decide_eq_true_eq, decide_eq_false_iff_not] at h ⊢
  omega

theorem isInfinite_of_isFinite {x : F64} (h : x.isFinite = true) : x.isInfinite = false := by
  simp only [isFinite, isInfinite, decide_eq_true_eq, beq_eq_false_iff_ne] at h ⊢
  omega

/-! ## Equal doubles -/

theorem magnitude_lt (x : F64) : x.magnitude < 2 ^ 63 := Nat.mod_lt _ (by decide)

theorem key_of_isZero {x : F64} (h : x.isZero = true) : x.key = 0 := by
  rw [isZero, beq_iff_eq] at h
  rw [key, h]
  simp

theorem isZero_of_key {x : F64} (h : x.key = 0) : x.isZero = true := by
  rw [isZero, beq_iff_eq]
  unfold key at h
  split_ifs at h <;> omega

theorem partialCmp_of_number {x y : F64} (hx : x.isNaN = false) (hy : y.isNaN = false) :
    x.partialCmp y = some (compare x.key y.key) := by
  rw [partialCmp, hx, hy]
  rfl

theorem partialCmp_eq_eq {x y : F64} :
    x.partialCmp y = some .eq ↔ x.isNaN = false ∧ y.isNaN = false ∧ x.key = y.key := by
  rw [partialCmp]
  cases x.isNaN <;> cases y.isNaN <;> simp

/-- The bits are the number, apart from its sign when it is zero. -/
theorem eq_of_key_eq {x y : F64} (h : x.key = y.key) (hzero : x.isZero = false) : x = y := by
  have hx := x.bits.toNat_lt
  have hy := y.bits.toNat_lt
  have hne : x.magnitude ≠ 0 := by
    rw [isZero] at hzero
    exact beq_eq_false_iff_ne.mp hzero
  apply ext_bits
  unfold key sign magnitude at h
  unfold magnitude at hne
  by_cases hsx : 2 ^ 63 ≤ x.bits.toNat <;> by_cases hsy : 2 ^ 63 ≤ y.bits.toNat <;>
    simp only [hsx, hsy, decide_true, decide_false, if_true, Bool.false_eq_true, if_false] at h <;>
    omega

/-- Doubles with the same bits are equal numbers, not-a-number apart; equal numbers have
the same bits, the two zeros apart. -/
theorem eq_iff_partialCmp {x y : F64} : x = y ↔
    (x.partialCmp y = some .eq ∧ ¬(x.isZero = true ∧ y.isZero = true ∧ x ≠ y)) ∨
      (x = y ∧ x.isNaN = true) := by
  rw [partialCmp_eq_eq]
  constructor
  · rintro rfl
    cases hnan : x.isNaN with
    | true => exact Or.inr ⟨rfl, rfl⟩
    | false => exact Or.inl ⟨⟨rfl, rfl, rfl⟩, fun h => h.2.2 rfl⟩
  · rintro (⟨⟨-, -, hkey⟩, hzeros⟩ | ⟨heq, -⟩)
    · cases hzero : x.isZero with
      | false => exact eq_of_key_eq hkey hzero
      | true =>
        by_contra hne
        rw [key_of_isZero hzero] at hkey
        exact hzeros ⟨hzero, isZero_of_key hkey.symm, hne⟩
    · exact heq

/-! ## Rounding a whole number -/

/-- A whole number rounded to 53 significant bits, ties to even. -/
def roundNat (n : Nat) : Nat :=
  let shift := Nat.log2 n - 52
  roundQuotient n (2 ^ shift) * 2 ^ shift

/-- An integer rounded to 53 significant bits, ties to even. -/
def roundInt (n : Int) : Int := if n < 0 then -(roundNat n.natAbs : Int) else roundNat n.natAbs

theorem natAbs_roundInt (n : Int) : (roundInt n).natAbs = roundNat n.natAbs := by
  unfold roundInt
  split_ifs <;> omega

theorem roundQuotient_le (num den : Nat) : roundQuotient num den ≤ num / den + 1 := by
  unfold roundQuotient
  dsimp only
  split_ifs <;> omega

theorem le_roundQuotient (num den : Nat) : num / den ≤ roundQuotient num den := by
  unfold roundQuotient
  dsimp only
  split_ifs <;> omega

theorem roundQuotient_mul (num den : Nat) {c : Nat} (hc : 0 < c) :
    roundQuotient (num * c) (den * c) = roundQuotient num den := by
  unfold roundQuotient
  dsimp only
  rw [Nat.mul_div_mul_right _ _ hc, Nat.mul_mod_mul_right]
  have hlt : den * c < 2 * (num % den * c) ↔ den < 2 * (num % den) := by
    rw [← Nat.mul_assoc]
    exact Nat.mul_lt_mul_right hc
  have heq : 2 * (num % den * c) = den * c ↔ 2 * (num % den) = den := by
    rw [← Nat.mul_assoc]
    exact Nat.mul_left_inj hc.ne'
  simp only [hlt, heq]

theorem roundQuotient_mul_self (k : Nat) {c : Nat} (hc : 0 < c) : roundQuotient (k * c) c = k := by
  unfold roundQuotient
  dsimp only
  rw [Nat.mul_div_cancel _ hc, Nat.mul_mod_left]
  exact if_neg (by omega)

/-- What has 53 bits is exact. -/
theorem roundNat_of_lt {n : Nat} (h : n < 2 ^ 53) : roundNat n = n := by
  have hshift : Nat.log2 n - 52 = 0 := by
    rcases Nat.eq_zero_or_pos n with rfl | hn
    · rfl
    · have := (Nat.log2_lt hn.ne').mpr h
      omega
  unfold roundNat
  dsimp only
  rw [hshift, pow_zero, Nat.mul_one]
  simpa using roundQuotient_mul_self n Nat.one_pos

/-- At most 53 binary digits from the first to the last that is not zero: a whole number of
the units that the 53rd digit counts. -/
def FewBits (n : Int) : Prop := 2 ^ (n.natAbs.log2 - 52) ∣ n.natAbs

instance (n : Int) : Decidable (FewBits n) := inferInstanceAs (Decidable (_ ∣ _))

theorem roundNat_eq_self_iff {n : Nat} : roundNat n = n ↔ 2 ^ (n.log2 - 52) ∣ n := by
  have hpos : 0 < 2 ^ (n.log2 - 52) := Nat.two_pow_pos _
  constructor
  · intro h
    exact ⟨_, (h.symm.trans (Nat.mul_comm _ _))⟩
  · rintro ⟨k, hk⟩
    have hround := roundQuotient_mul_self k hpos
    rw [Nat.mul_comm, ← hk] at hround
    rw [roundNat, hround, Nat.mul_comm]
    exact hk.symm

/-- **Rounding leaves exactly the numbers of few bits** as they are. -/
theorem roundInt_eq_self_iff {n : Int} : roundInt n = n ↔ FewBits n := by
  rw [FewBits, ← roundNat_eq_self_iff]
  unfold roundInt
  split_ifs <;> omega

theorem roundNat_pos {n : Nat} (hn : n ≠ 0) : 0 < roundNat n := by
  have hpow : 0 < 2 ^ (Nat.log2 n - 52) := Nat.two_pow_pos _
  have hle : 2 ^ (Nat.log2 n - 52) ≤ n :=
    (Nat.pow_le_pow_right Nat.two_pos (Nat.sub_le _ _)).trans (Nat.log2_self_le hn)
  exact Nat.mul_pos ((Nat.div_pos hle hpow).trans_le (le_roundQuotient _ _)) hpow

/-- Rounding stays below a power of two. -/
theorem roundNat_le_pow {n k : Nat} (h : n ≤ 2 ^ k) : roundNat n ≤ 2 ^ k := by
  rcases Nat.lt_or_ge n (2 ^ 53) with hsmall | hlarge
  · rwa [roundNat_of_lt hsmall]
  · have hne : n ≠ 0 := by
      rintro rfl
      exact absurd hlarge (by decide)
    have hlog : 53 ≤ Nat.log2 n := (Nat.le_log2 hne).mpr hlarge
    unfold roundNat
    dsimp only
    obtain ⟨shift, hshift⟩ : ∃ shift, Nat.log2 n = shift + 52 := ⟨Nat.log2 n - 52, by omega⟩
    have hk : shift + 52 ≤ k := by
      rw [← hshift]
      by_contra hlt
      have hpow : 2 ^ (k + 1) ≤ 2 ^ Nat.log2 n := Nat.pow_le_pow_right (by decide) (by omega)
      have := Nat.log2_self_le hne
      have := Nat.pow_lt_pow_right (a := 2) (by decide) (Nat.lt_succ_self k)
      omega
    rw [hshift, Nat.add_sub_cancel]
    rcases Nat.eq_or_lt_of_le h with rfl | hlt
    · obtain ⟨rest, hrest⟩ : ∃ rest, k = rest + shift := ⟨k - shift, by omega⟩
      rw [hrest, Nat.pow_add, roundQuotient_mul_self _ (Nat.two_pow_pos shift)]
    · -- The quotient is below `2 ^ (k - shift)`, so that one more is no more than that.
      have hquotient : n / 2 ^ shift < 2 ^ (k - shift) := by
        rw [Nat.div_lt_iff_lt_mul (Nat.two_pow_pos shift), ← Nat.pow_add,
          Nat.sub_add_cancel (by omega)]
        exact hlt
      have hround := roundQuotient_le n (2 ^ shift)
      calc roundQuotient n (2 ^ shift) * 2 ^ shift
          ≤ 2 ^ (k - shift) * 2 ^ shift := Nat.mul_le_mul_right _ (by omega)
        _ = 2 ^ k := by rw [← Nat.pow_add, Nat.sub_add_cancel (by omega)]

/-- What exceeds a power of two by less than half a unit in its last place goes back to it. -/
theorem roundNat_pow_add {k r : Nat} (hk : 52 ≤ k) (hr : 2 * r < 2 ^ (k - 52)) :
    roundNat (2 ^ k + r) = 2 ^ k := by
  have hsmall : 2 ^ (k - 52) ≤ 2 ^ k := Nat.pow_le_pow_right (by decide) (by omega)
  have hne : 2 ^ k + r ≠ 0 := by
    have := Nat.two_pow_pos k
    omega
  have hlog : Nat.log2 (2 ^ k + r) = k := by
    rw [Nat.log2_eq_iff hne, Nat.pow_succ]
    omega
  obtain ⟨shift, rfl⟩ : ∃ shift, k = 52 + shift := ⟨k - 52, by omega⟩
  have hshift : 52 + shift - 52 = shift := by omega
  rw [hshift] at hr
  unfold roundNat
  dsimp only
  rw [hlog, hshift]
  have hdiv : (2 ^ (52 + shift) + r) / 2 ^ shift = 2 ^ 52 := by
    rw [Nat.pow_add, Nat.mul_comm, Nat.mul_add_div (Nat.two_pow_pos shift),
      Nat.div_eq_of_lt (by omega), Nat.add_zero]
  have hmod : (2 ^ (52 + shift) + r) % 2 ^ shift = r := by
    rw [Nat.pow_add, Nat.mul_comm, Nat.mul_add_mod, Nat.mod_eq_of_lt (by omega)]
  have hquotient : roundQuotient (2 ^ (52 + shift) + r) (2 ^ shift) = 2 ^ 52 := by
    unfold roundQuotient
    dsimp only
    rw [hdiv, hmod]
    exact if_neg (by omega)
  rw [hquotient, ← Nat.pow_add]

/-! ## Whole doubles -/

/-- The units of the magnitude that rounding builds from a significand and a shift. -/
theorem units_of_magnitude {x : F64} {shift significand : Nat}
    (hmagnitude : x.magnitude = shift * 2 ^ 52 + significand) (hle : significand ≤ 2 ^ 53)
    (hnormal : shift = 0 ∨ 2 ^ 52 ≤ significand) : x.units = significand * 2 ^ shift := by
  have hdiv : x.magnitude / 2 ^ 52 = shift + significand / 2 ^ 52 := by
    rw [hmagnitude, Nat.mul_comm, Nat.mul_add_div (by decide)]
  have hmod : x.magnitude % 2 ^ 52 = significand % 2 ^ 52 := by
    rw [hmagnitude, Nat.mul_comm, Nat.mul_add_mod]
  unfold units
  dsimp only
  rw [hdiv, hmod]
  rcases Nat.lt_or_ge significand (2 ^ 52) with hsmall | hlarge
  · obtain rfl := hnormal.resolve_right (by omega)
    rw [if_pos (by omega), pow_zero]
    omega
  · rcases Nat.eq_or_lt_of_le hle with rfl | hlt
    · rw [if_neg (by omega), show shift + 2 ^ 53 / 2 ^ 52 - 1 = shift + 1 by omega, pow_succ]
      omega
    · rw [if_neg (by omega), show shift + significand / 2 ^ 52 - 1 = shift by omega,
        show significand % 2 ^ 52 + 2 ^ 52 = significand by omega]

/-- A significand of 53 bits has its first bit set, unless there is no shift. -/
theorem quotient_bounds {n : Nat} (hn : n ≠ 0) :
    (Nat.log2 n - 52 = 0 ∨ 2 ^ 52 ≤ n / 2 ^ (Nat.log2 n - 52)) ∧
      n / 2 ^ (Nat.log2 n - 52) < 2 ^ 53 := by
  have hlow := Nat.log2_self_le hn
  have hhigh : n < 2 ^ (Nat.log2 n + 1) := Nat.lt_log2_self
  rcases Nat.lt_or_ge (Nat.log2 n) 52 with hlog | hlog
  · refine ⟨Or.inl (by omega), ?_⟩
    rw [show Nat.log2 n - 52 = 0 by omega, pow_zero, Nat.div_one]
    exact hhigh.trans_le (Nat.pow_le_pow_right (by decide) (by omega))
  · obtain ⟨shift, hshift⟩ : ∃ shift, Nat.log2 n = 52 + shift := ⟨Nat.log2 n - 52, by omega⟩
    rw [hshift, show 52 + shift - 52 = shift by omega]
    rw [hshift, Nat.pow_add] at hlow
    rw [hshift, show 52 + shift + 1 = 53 + shift by omega, Nat.pow_add] at hhigh
    exact ⟨Or.inr ((Nat.le_div_iff_mul_le (Nat.two_pow_pos shift)).mpr hlow),
      (Nat.div_lt_iff_lt_mul (Nat.two_pow_pos shift)).mpr hhigh⟩

theorem log2_mul_pow {n : Nat} (hn : n ≠ 0) (k : Nat) : Nat.log2 (n * 2 ^ k) = Nat.log2 n + k := by
  have hk := Nat.two_pow_pos k
  rw [Nat.log2_eq_iff (Nat.mul_ne_zero hn hk.ne'), Nat.pow_add, Nat.add_right_comm, Nat.pow_add]
  exact ⟨Nat.mul_le_mul_right _ (Nat.log2_self_le hn),
    Nat.mul_lt_mul_of_pos_right Nat.lt_log2_self hk⟩

/-- A number of units up to `2 ^ 53`, and what has been rounded, has few bits. -/
theorem pow_dvd_of_le {quotient : Nat} (h : quotient ≤ 2 ^ 53) (shift : Nat) :
    2 ^ ((quotient * 2 ^ shift).log2 - 52) ∣ quotient * 2 ^ shift := by
  rcases Nat.eq_zero_or_pos quotient with rfl | hpos
  · rw [Nat.zero_mul]
    exact Nat.dvd_zero _
  · rw [log2_mul_pow hpos.ne']
    rcases Nat.eq_or_lt_of_le h with rfl | hlt
    · rw [Nat.log2_two_pow, ← Nat.pow_add]
      exact Nat.pow_dvd_pow 2 (by omega)
    · have hlog := (Nat.log2_lt hpos.ne').mpr hlt
      exact (Nat.pow_dvd_pow 2 (by omega)).trans (Nat.dvd_mul_left _ _)

theorem fewBits_roundInt (n : Int) : FewBits (roundInt n) := by
  rw [FewBits, natAbs_roundInt]
  rcases Nat.eq_zero_or_pos n.natAbs with hzero | hpos
  · rw [hzero]
    decide
  · have hquotient := (quotient_bounds hpos.ne').2
    have hround := roundQuotient_le n.natAbs (2 ^ (n.natAbs.log2 - 52))
    exact pow_dvd_of_le (by omega) (n.natAbs.log2 - 52)

/-- The magnitude of a whole number, from units that are `2 ^ -k`. -/
theorem roundMagnitude_whole {n : Nat} (hn : n ≠ 0) {k : Nat} (hk : 52 ≤ k) :
    ∃ significand, 2 ^ 52 ≤ significand ∧ significand ≤ 2 ^ 53 ∧
      significand * 2 ^ (Nat.log2 n + k - 52) = roundNat n * 2 ^ k ∧
      roundMagnitude (n * 2 ^ k) 1 =
        min ((Nat.log2 n + k - 52) * 2 ^ 52 + significand) infMagnitude := by
  have hne : n * 2 ^ k ≠ 0 := Nat.mul_ne_zero hn (Nat.two_pow_pos k).ne'
  obtain ⟨hlow, hhigh⟩ := quotient_bounds hne
  have hlog := log2_mul_pow hn k
  rw [hlog] at hlow hhigh
  refine ⟨roundQuotient (n * 2 ^ k) (2 ^ (Nat.log2 n + k - 52)), ?_, ?_, ?_, ?_⟩
  · rcases hlow with hzero | hlow
    · -- Without a shift the number itself has 53 bits.
      have hself := Nat.log2_self_le hne
      rw [hlog, show Nat.log2 n + k = 52 by omega] at hself
      rw [hzero, pow_zero]
      exact hself.trans (by simpa using le_roundQuotient (n * 2 ^ k) 1)
    · exact hlow.trans (le_roundQuotient _ _)
  · exact (roundQuotient_le _ _).trans hhigh
  · rcases Nat.lt_or_ge (Nat.log2 n) 52 with hsmall | hlarge
    · have hexact : n < 2 ^ 53 :=
        Nat.lt_log2_self.trans_le (Nat.pow_le_pow_right (by decide) (by omega))
      obtain ⟨rest, hrest⟩ : ∃ rest, k = rest + (Nat.log2 n + k - 52) :=
        ⟨k - (Nat.log2 n + k - 52), by omega⟩
      have hsplit : n * 2 ^ k = n * 2 ^ rest * 2 ^ (Nat.log2 n + k - 52) := by
        rw [Nat.mul_assoc, ← Nat.pow_add, ← hrest]
      rw [roundNat_of_lt hexact, hsplit, roundQuotient_mul_self _ (Nat.two_pow_pos _)]
    · have hshift : Nat.log2 n + k - 52 = Nat.log2 n - 52 + k := by omega
      rw [hshift, Nat.pow_add, roundQuotient_mul _ _ (Nat.two_pow_pos k), ← Nat.mul_assoc]
      rfl
  · unfold roundMagnitude
    dsimp only
    rw [Nat.div_one, hlog, Nat.one_mul]

/-- **A whole number is rounded to 53 significant bits.** -/
theorem round_whole (negative : Bool) {n : Nat} (h : n < 2 ^ 200) :
    (round negative (n * 2 ^ 1074) 1).isFinite = true ∧
      (round negative (n * 2 ^ 1074) 1).units = roundNat n * 2 ^ 1074 ∧
      (round negative (n * 2 ^ 1074) 1).sign = negative := by
  have hsign := @sign_ofMagnitude negative _ (roundMagnitude_lt (n * 2 ^ 1074) 1)
  have hmagnitude := @magnitude_ofMagnitude negative _ (roundMagnitude_lt (n * 2 ^ 1074) 1)
  rcases Nat.eq_zero_or_pos n with rfl | hpos
  · have hzero : roundMagnitude (0 * 2 ^ 1074) 1 = 0 := by rw [Nat.zero_mul]; rfl
    rw [hzero] at hmagnitude
    refine ⟨?_, ?_, hsign⟩
    · rw [isFinite, round, hzero, hmagnitude]
      rfl
    · rw [round, hzero, units, hmagnitude, show roundNat 0 = 0 from rfl, Nat.zero_mul]
      rfl
  · obtain ⟨significand, hlow, hhigh, hvalue, hround⟩ :=
      roundMagnitude_whole hpos.ne' (show 52 ≤ 1074 by decide)
    have hlog : Nat.log2 n < 200 := (Nat.log2_lt hpos.ne').mpr h
    have hinf : (Nat.log2 n + 1074 - 52) * 2 ^ 52 + significand < infMagnitude := by
      unfold infMagnitude
      omega
    rw [Nat.min_eq_left hinf.le] at hround
    rw [hround] at hmagnitude
    refine ⟨?_, ?_, hsign⟩
    · rw [isFinite, round, hround, hmagnitude, decide_eq_true_eq]
      exact hinf
    · rw [round, hround, units_of_magnitude hmagnitude hhigh (Or.inr hlow), hvalue]

/-- The double is the whole number. -/
structure IsWhole (x : F64) (n : Int) : Prop where
  finite : x.isFinite = true
  value : x.signedUnits = n * 2 ^ 1074

/-- A whole number in units, rounded with its sign. -/
theorem isWhole_round {n : Int} (h : n.natAbs < 2 ^ 200) :
    IsWhole (round (decide (n < 0)) (n.natAbs * 2 ^ 1074) 1) (roundInt n) := by
  obtain ⟨hfinite, hunits, hsign⟩ := round_whole (decide (n < 0)) h
  refine ⟨hfinite, ?_⟩
  rw [signedUnits, hsign, hunits, roundInt]
  by_cases hn : n < 0
  · rw [decide_eq_true hn, if_pos rfl, if_pos hn, Nat.cast_mul, Nat.cast_pow, Nat.cast_ofNat,
      Int.neg_mul]
  · rw [decide_eq_false hn, if_neg Bool.false_ne_true, if_neg hn, Nat.cast_mul, Nat.cast_pow,
      Nat.cast_ofNat]

/-- The conversion to a double rounds. -/
theorem isWhole_ofInt {n : Int} (h : n.natAbs < 2 ^ 200) : IsWhole (ofInt n) (roundInt n) :=
  isWhole_round h

/-- Only zero becomes zero. -/
theorem eq_zero_of_isZero_ofInt {n : Int} (h : n.natAbs < 2 ^ 200)
    (hzero : (ofInt n).isZero = true) : n = 0 := by
  have hmagnitude : (ofInt n).magnitude = 0 := beq_iff_eq.mp hzero
  have hunits : (ofInt n).signedUnits = 0 := by
    have hzero : (ofInt n).units = 0 := by
      rw [units, hmagnitude]
      rfl
    rw [signedUnits, hzero]
    split_ifs <;> rfl
  have hround : roundInt n = 0 := by
    have hvalue := (isWhole_ofInt h).value
    rw [hunits] at hvalue
    exact (mul_eq_zero.mp hvalue.symm).resolve_right (Int.pow_pos (by decide)).ne'
  by_contra hne
  have hpos := roundNat_pos (Int.natAbs_ne_zero.mpr hne)
  rw [← natAbs_roundInt, hround] at hpos
  exact absurd hpos (lt_irrefl 0)

theorem isWhole_zero : IsWhole ⟨0⟩ 0 := by
  refine ⟨by decide, ?_⟩
  rw [Int.zero_mul]
  decide

/-- Addition rounds the sum. -/
theorem IsWhole.add {x y : F64} {a b : Int} (hx : IsWhole x a) (hy : IsWhole y b)
    (h : (a + b).natAbs < 2 ^ 200) : IsWhole (x.add y) (roundInt (a + b)) := by
  have hsum : x.signedUnits + y.signedUnits = (a + b) * 2 ^ 1074 := by
    rw [hx.value, hy.value, Int.add_mul]
  unfold F64.add
  rw [isNaN_of_isFinite hx.finite, isNaN_of_isFinite hy.finite,
    isInfinite_of_isFinite hx.finite, isInfinite_of_isFinite hy.finite]
  simp only [Bool.or_self, Bool.false_eq_true, if_false, hsum]
  have hscale : (0 : Int) < 2 ^ 1074 := Int.pow_pos (by decide)
  split_ifs with hzero
  · rcases Int.mul_eq_zero.mp hzero with hab | hpow
    · rw [hab]
      refine ⟨?_, ?_⟩
      · rw [isFinite, magnitude_ofMagnitude (by decide)]
        rfl
      · have hunits : (ofMagnitude (x.sign && y.sign) 0).units = 0 := by
          rw [units, magnitude_ofMagnitude (by decide)]
          rfl
        rw [signedUnits, hunits, show roundInt 0 = 0 from rfl, Int.zero_mul]
        split_ifs <;> rfl
    · exact absurd hpow hscale.ne'
  · have hsign : decide ((a + b) * 2 ^ 1074 < 0) = decide (a + b < 0) := by
      rw [decide_eq_decide]
      exact ⟨fun hlt => by_contra fun hge => absurd (Int.mul_nonneg (not_lt.mp hge) hscale.le)
        (not_le.mpr hlt), fun hlt => Int.mul_neg_of_neg_of_pos hlt hscale⟩
    have habs : ((a + b) * 2 ^ 1074).natAbs = (a + b).natAbs * 2 ^ 1074 := by
      rw [Int.natAbs_mul, Int.natAbs_pow, show Int.natAbs 2 = 2 from rfl]
    rw [hsign, habs]
    exact isWhole_round h

/-- An integer within the range of `i64`, the nearest end outside of it. -/
def clamp (n : Int) : Int := max (-2 ^ 63) (min n (2 ^ 63 - 1))

/-- The conversion back saturates. -/
theorem IsWhole.toInt64_eq {x : F64} {n : Int} (h : IsWhole x n) :
    x.toInt64 = Int64.ofInt (clamp n) := by
  have hscale : (0 : Int) < 2 ^ 1074 := Int.pow_pos (by decide)
  have habs : (x.units : Int) = n.natAbs * 2 ^ 1074 := by
    have hunits := congrArg Int.natAbs h.value
    rw [Int.natAbs_mul, Int.natAbs_pow, signedUnits] at hunits
    have hleft : (if x.sign then -(x.units : Int) else (x.units : Int)).natAbs = x.units := by
      split_ifs
      · rw [Int.natAbs_neg, Int.natAbs_natCast]
      · exact Int.natAbs_natCast _
    rw [hleft] at hunits
    rw [hunits, Nat.cast_mul, Nat.cast_pow, show Int.natAbs 2 = 2 from rfl, Nat.cast_ofNat]
  have hwhole : (x.units : Int) / 2 ^ 1074 = n.natAbs := by
    rw [habs]
    exact Int.mul_ediv_cancel _ hscale.ne'
  have hsign : x.sign = true → n ≤ 0 := by
    intro hsign
    have hvalue := h.value
    rw [signedUnits, hsign, if_pos rfl] at hvalue
    by_contra hpos
    have := Int.mul_pos (not_le.mp hpos) hscale
    omega
  have hnosign : x.sign = false → 0 ≤ n := by
    intro hsign
    have hvalue := h.value
    rw [signedUnits, hsign, if_neg Bool.false_ne_true] at hvalue
    by_contra hneg
    have := Int.mul_neg_of_neg_of_pos (not_le.mp hneg) hscale
    omega
  unfold toInt64
  rw [isNaN_of_isFinite h.finite, isInfinite_of_isFinite h.finite]
  simp only [Bool.false_eq_true, if_false, false_or, hwhole]
  unfold clamp
  cases hx : x.sign with
  | true =>
    have hn := hsign hx
    simp only [if_true]
    split_ifs with hlarge
    · rw [show max (-2 ^ 63) (min n (2 ^ 63 - 1)) = (-2 ^ 63 : Int) by omega]
      rfl
    · rw [show max (-2 ^ 63) (min n (2 ^ 63 - 1)) = -(n.natAbs : Int) by omega]
  | false =>
    have hn := hnosign hx
    simp only [Bool.false_eq_true, if_false]
    split_ifs with hlarge
    · rw [show max (-2 ^ 63) (min n (2 ^ 63 - 1)) = (2 ^ 63 - 1 : Int) by omega]
      rfl
    · rw [show max (-2 ^ 63) (min n (2 ^ 63 - 1)) = (n.natAbs : Int) by omega]

end F64
