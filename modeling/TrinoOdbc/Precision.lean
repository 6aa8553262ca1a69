import TrinoOdbc.Decimals

/-!
# TrinoOdbc.Precision

`GetPrecision` of a `BigInteger`, which takes a binary logarithm times an approximation of the
decimal logarithm of two, and then looks at one power of ten.

* `pow_two_le_pow_ten`, `pow_ten_le_pow_two` — the approximation from above and from below.
* `getPrecision_digits` — the number of decimal digits.
* `Decimal.getPrecision_bounds` — the powers of ten around a `Decimal`.
-/

namespace TrinoOdbc

open Loops

namespace BigInteger

/-- The logarithm of a number with `bitLength` bits, at most one too small for its digits. -/
def estimatedDigits (bitLength : Nat) : Nat := u32 (u64 ((bitLength + 1) * 646456993) >>> 31)

def getPrecision (x : BigInteger) : Except ArithmeticFault Int :=
  if x.mag.length = 0 then .ok 1
  else do
    let r : Int := estimatedDigits x.getBitLength
    let prec ← getPowerOfTen r
    .ok (if x.compare prec true < 0 then r else r + 1)

/-! ## The approximation -/

/-- One pair of exponents compares two bases, and then others do. -/
theorem pow_le_pow_of_exponents {a b p q k l : Nat} (hp : p ≠ 0) (hb : 0 < b) (h : a ^ p ≤ b ^ q)
    (hkl : q * k ≤ p * l) : a ^ k ≤ b ^ l := by
  have hpow : (a ^ k) ^ p ≤ (b ^ l) ^ p := by
    calc (a ^ k) ^ p = (a ^ p) ^ k := by rw [← pow_mul, ← pow_mul, Nat.mul_comm]
      _ ≤ (b ^ q) ^ k := Nat.pow_le_pow_left h k
      _ = b ^ (q * k) := (pow_mul b q k).symm
      _ ≤ b ^ (p * l) := Nat.pow_le_pow_right hb hkl
      _ = (b ^ l) ^ p := by rw [← pow_mul, Nat.mul_comm]
  exact (Nat.pow_le_pow_iff_left hp).mp hpow

theorem pow_ten_le_pow_two {k l : Nat} (h : 70777 * k ≤ 21306 * l) : 10 ^ k ≤ 2 ^ l :=
  pow_le_pow_of_exponents (by decide) (by decide) (by decide +kernel : 10 ^ 21306 ≤ 2 ^ 70777) h

theorem pow_two_le_pow_ten {k l : Nat} (h : 76573 * k ≤ 254370 * l) : 2 ^ k ≤ 10 ^ l :=
  pow_le_pow_of_exponents (by decide) (by decide) (by decide +kernel : 2 ^ 254370 ≤ 10 ^ 76573) h

section Digits

variable {n : Nat}

theorem estimatedDigits_eq {bits : Nat} (h : bits < 2147483648) :
    estimatedDigits bits = (bits + 1) * 646456993 / 2147483648 := by
  have hproduct : (bits + 1) * 646456993 ≤ 2147483648 * 646456993 :=
    Nat.mul_le_mul_right _ (by omega)
  rw [estimatedDigits, u64, Nat.mod_eq_of_lt (by omega), Nat.shiftRight_eq_div_pow, u32]
  exact Nat.mod_eq_of_lt (Nat.div_lt_of_lt_mul (by omega))

/-- The estimate is the number of digits, or one less. -/
theorem estimatedDigits_bounds (hpos : 0 < n) (h : n.size < 2147483648) :
    10 ^ (estimatedDigits n.size - 1) ≤ n ∧ n < 10 ^ (estimatedDigits n.size + 1) := by
  have hsize := Nat.size_pos.mpr hpos
  have hlow : 2 ^ (n.size - 1) ≤ n := Nat.lt_size.mp (by omega)
  have hhigh : n < 2 ^ n.size := Nat.lt_size_self n
  rw [estimatedDigits_eq h]
  exact ⟨(pow_ten_le_pow_two (by omega)).trans hlow, hhigh.trans_le (pow_two_le_pow_ten (by omega))⟩

theorem length_digits_of_lt {r : Nat} (hlow : 10 ^ (r - 1) ≤ n) (hpos : 0 < n) (hlt : n < 10 ^ r) :
    (Nat.digits 10 n).length = r := by
  have hge := (Nat.lt_digits_length_iff (b := 10) (by decide) n).mpr hlow
  have hle := (not_congr (Nat.lt_digits_length_iff (b := 10) (k := r) (by decide) n)).mpr (by omega)
  have hr : r ≠ 0 := by
    rintro rfl
    rw [pow_zero] at hlt
    omega
  omega

/-- The number of decimal digits, for all numbers whose logarithm is approximated well enough. -/
theorem getPrecision_digits (x : BigInteger) (hx : x.WellFormed)
    (hbits : x.getBitLength < 2147483648) :
    x.getPrecision =
      .ok (if x.magnitude = 0 then 1 else (Nat.digits 10 x.magnitude).length : Nat) := by
  rw [getBitLength_eq hx.mag] at hbits
  have hnil : x.mag.length = 0 ↔ x.magnitude = 0 := by
    rw [List.length_eq_zero_iff, hx.mag.nil_iff (by decide)]
    rfl
  unfold getPrecision
  split
  · rename_i hzero
    rw [if_pos (hnil.mp hzero)]
    rfl
  · rename_i hne
    have hpos : 0 < x.magnitude := by omega
    obtain ⟨hlow, hhigh⟩ := estimatedDigits_bounds hpos hbits
    rw [getBitLength_eq hx.mag]
    dsimp only
    rw [getPowerOfTen_eq, ok_bind, if_neg hpos.ne']
    generalize estimatedDigits x.magnitude.size = r at *
    have hcompare : x.compare (signed 1 (10 ^ r)) true =
        ((x.magnitude : Int) - (10 ^ r : Nat)).sign := by
      conv_lhs => rw [hx.eq_signed, compare_ignoreSign]
    rw [hcompare]
    split
    · rename_i hlt
      rw [Int.sign_neg_iff] at hlt
      rw [length_digits_of_lt hlow hpos (by omega)]
    · rename_i hge
      rw [Int.sign_neg_iff] at hge
      have hge' : 10 ^ (r + 1 - 1) ≤ x.magnitude := by
        rw [Nat.add_sub_cancel]
        omega
      rw [length_digits_of_lt hge' hpos hhigh]
      rfl

/-- The least number with 31 digits, the greatest with 30, and zero with either sign. -/
theorem getPrecision_digits_example :
    (signed (-1) (10 ^ 30)).getPrecision = .ok 31 ∧
      (signed 1 (10 ^ 30 - 1)).getPrecision = .ok 30 ∧ (signed (-1) 0).getPrecision = .ok 1 := by
  refine ⟨?_, ?_, ?_⟩
  · exact (getPrecision_digits _ (wellFormed_signed (.inr rfl)) (by decide +kernel)).trans
      (by decide +kernel)
  · exact (getPrecision_digits _ (wellFormed_signed (.inl rfl)) (by decide +kernel)).trans
      (by decide +kernel)
  · exact (getPrecision_digits _ (wellFormed_signed (.inr rfl)) (by decide +kernel)).trans
      (by decide +kernel)

/-- The powers of ten around a number that is not zero. -/
theorem getPrecision_between {x : BigInteger} (hx : x.WellFormed)
    (hbits : x.getBitLength < 2147483648) (hpos : 0 < x.magnitude) :
    ∃ p : Nat, x.getPrecision = .ok (p + 1 : Nat) ∧ 10 ^ p ≤ x.magnitude ∧
      x.magnitude < 10 ^ (p + 1) := by
  rw [getBitLength_eq hx.mag] at hbits
  have hne : x.mag.length ≠ 0 := by
    rw [Ne, List.length_eq_zero_iff, hx.mag.nil_iff (by decide)]
    exact hpos.ne'
  obtain ⟨hlow, hhigh⟩ := estimatedDigits_bounds hpos hbits
  unfold getPrecision
  rw [if_neg hne, getBitLength_eq hx.mag]
  dsimp only
  rw [getPowerOfTen_eq, ok_bind]
  generalize estimatedDigits x.magnitude.size = r at *
  have hcompare : x.compare (signed 1 (10 ^ r)) true =
      ((x.magnitude : Int) - (10 ^ r : Nat)).sign := by
    conv_lhs => rw [hx.eq_signed, compare_ignoreSign]
  rw [hcompare]
  split
  · rename_i hlt
    rw [Int.sign_neg_iff] at hlt
    have hr : r ≠ 0 := by
      rintro rfl
      rw [pow_zero] at hlt
      omega
    obtain ⟨p, rfl⟩ := Nat.exists_eq_succ_of_ne_zero hr
    exact ⟨p, rfl, hlow, by omega⟩
  · rename_i hge
    rw [Int.sign_neg_iff] at hge
    exact ⟨r, rfl, by omega, hhigh⟩

end Digits

end BigInteger

/-! ## Decimals -/

namespace Common.Decimal

def getPrecision (d : Decimal) : Except ArithmeticFault Int := d.magnitude.getPrecision

/-- The precision and the scale say between which powers of ten a decimal is. -/
theorem getPrecision_bounds (d : Decimal) (hd : d.magnitude.WellFormed)
    (hbits : d.magnitude.getBitLength < 2147483648) (hne : d.toRat ≠ 0) :
    ∃ p : Int, d.getPrecision = .ok p ∧
      (10 : ℚ) ^ (p - 1 - d.scale) ≤ |d.toRat| ∧ |d.toRat| < 10 ^ (p - d.scale) := by
  have habs : |(d.magnitude.value : ℚ)| = (d.magnitude.magnitude : ℚ) := by
    rw [← Int.cast_abs, Int.abs_eq_natAbs, BigInteger.natAbs_value hd, Int.cast_natCast]
  have hpos : 0 < d.magnitude.magnitude := by
    refine Nat.pos_of_ne_zero fun hzero => hne ?_
    rw [hzero, Nat.cast_zero, abs_eq_zero] at habs
    rw [toRat, habs, zero_mul]
  obtain ⟨p, hp, hlow, hhigh⟩ := BigInteger.getPrecision_between hd hbits hpos
  have hscale : (0 : ℚ) < 10 ^ (-d.scale) := zpow_pos (by norm_num) _
  have hsplit (k : Nat) : (10 : ℚ) ^ ((k : Int) - d.scale) = 10 ^ k * 10 ^ (-d.scale) := by
    rw [sub_eq_add_neg, zpow_add₀ (by norm_num), zpow_natCast]
  have hlast : ((p + 1 : Nat) : Int) - 1 - d.scale = (p : Int) - d.scale := by
    push_cast
    ring
  refine ⟨_, hp, ?_⟩
  rw [toRat, abs_mul, abs_of_pos hscale, habs, hlast, hsplit, hsplit]
  exact ⟨mul_le_mul_of_nonneg_right (mod_cast hlow) hscale.le,
    mul_lt_mul_of_pos_right (mod_cast hhigh) hscale⟩

end Common.Decimal

end TrinoOdbc
