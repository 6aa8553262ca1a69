import TrinoOdbc.Configuration
import TrinoOdbc.DivisionPaths
import Mathlib.Algebra.Order.Field.Rat
import Mathlib.Tactic.FieldSimp

/-!
# TrinoOdbc.Decimals

The class `Decimal`, an unscaled value with a scale: its integer, its scale changed, and two of them
compared.

* `toInt64_iff` — which integers come through `BigInteger` and `Decimal`.
* `setScale_iff` — when a number with another scale is the right one.
* `compare_iff` — when numbers are ordered as the rationals they stand for.
-/

namespace TrinoOdbc

open ByteMemory Loops

namespace BigInteger

/-! ## 64-bit integers -/

section Int64

variable {s : Int} {n : Nat} {val : List UInt8}

theorem getElem?_digits (n i : Nat) :
    (Nat.digits 4294967296 n)[i]? =
      if 4294967296 ^ i ≤ n then some (n / 4294967296 ^ i % 4294967296) else none := by
  split
  · rename_i hle
    have hlen : i < (Nat.digits 4294967296 n).length :=
      (Nat.lt_digits_length_iff (by decide) n).mpr hle
    rw [List.getElem?_eq_getElem hlen,
      Radix.getElem_eq_div_mod (by decide) (MagArray.canonical_digits n).digit, Nat.ofDigits_digits]
  · rename_i hlt
    refine List.getElem?_eq_none (Nat.le_of_not_lt fun hlen => hlt ?_)
    exact (Nat.lt_digits_length_iff (by decide) n).mp hlen

/-- The number of a byte array. -/
theorem ofBytes_eq_signed (val : List UInt8) (sign : Int) :
    ofBytes val sign false =
      signed (if decodeNat val = 0 then 1 else sign) (decodeNat val) := by
  have hmag : (ofBytes val sign false).mag = Nat.digits 4294967296 (decodeNat val) := by
    refine List.ext_getElem? fun i => ?_
    rw [mag_ofBytes, getElem?_digits]
  split
  · rename_i hzero
    rw [ofBytes_zero hzero, hzero]
    rfl
  · rename_i hne
    have hsign : (ofBytes val sign false).sign = sign := sign_ofBytes hne
    generalize ofBytes val sign false = x at *
    subst hsign
    cases x
    simp only [signed, mk.injEq, true_and]
    exact hmag

theorem signed_eq_ofBytes (hpos : n ≠ 0) (hlt : n < 18446744073709551616) :
    decodeNat (encode 8 n) = n ∧ signed s n = ofBytes (encode 8 n) s false := by
  have hdecode : decodeNat (encode 8 n) = n := by
    have h := decodeNat_encode 8 n
    omega
  refine ⟨hdecode, ?_⟩
  rw [ofBytes_eq_signed, hdecode, if_neg hpos]

/-- A number in the range of `int64_t` comes through if it is positive, or if it has one limb, or if
its low limb is zero. -/
theorem toInt64_signed_iff (hs : s = 1 ∨ s = -1) (hlow : -9223372036854775808 ≤ s * n)
    (hhigh : s * n < 9223372036854775808) :
    (signed s n).toInt64 = s * n ↔
      s = 1 ∨ 0 < n ∧ (n < 4294967296 ∨ n % 4294967296 = 0) := by
  by_cases hzero : n = 0
  · subst hzero
    rcases hs with rfl | rfl <;> decide +kernel
  · obtain ⟨hdecode, heq⟩ := signed_eq_ofBytes (s := s) hzero (by
      rcases hs with rfl | rfl <;> omega)
    rw [heq]
    rcases hs with rfl | rfl
    · have h := @toInt64_positive (encode 8 n) (by omega)
      rw [h, hdecode]
      omega
    · have h := @toInt64_negative_iff (encode 8 n) (by omega) (by omega)
      rw [hdecode] at h
      rw [neg_one_mul, h]
      omega

end Int64

end BigInteger

namespace Common

structure Decimal where
  scale : Int
  magnitude : BigInteger
  deriving DecidableEq, Repr

namespace Decimal

instance : Inhabited Decimal := ⟨{ scale := 0, magnitude := { sign := 1, mag := [] } }⟩

def ofInt64 (val : Int) : Decimal := { scale := 0, magnitude := .assignInt64 val }

/-- Nothing happens to `res` if the scale is the same. -/
def setScale (d : Decimal) (newScale : Int) (res : Decimal) : Except ArithmeticFault Decimal :=
  if d.scale = newScale then .ok res
  else if 0 < toInt32 (d.scale - newScale) then do
    let adjustment ← BigInteger.getPowerOfTen (toInt32 (d.scale - newScale))
    let magnitude ← d.magnitude.divide adjustment res.magnitude
    .ok { scale := newScale, magnitude }
  else do
    let adjustment ← BigInteger.getPowerOfTen (toInt32 (-toInt32 (d.scale - newScale)))
    let magnitude ← d.magnitude.multiply adjustment
    .ok { scale := newScale, magnitude }

def toInt64 (d : Decimal) : Except ArithmeticFault Int :=
  if d.scale = 0 then .ok d.magnitude.toInt64
  else do
    let zeroScaled ← d.setScale 0 default
    .ok zeroScaled.magnitude.toInt64

def isZero (d : Decimal) : Bool := d.magnitude.isZero

def compare (d other : Decimal) : Except ArithmeticFault Int :=
  if d.isZero ∧ other.isZero then .ok 0
  else if d.scale = other.scale then .ok (d.magnitude.compare other.magnitude false)
  else if other.scale < d.scale then do
    let scaled ← other.setScale d.scale default
    .ok (d.magnitude.compare scaled.magnitude false)
  else do
    let scaled ← d.setScale other.scale default
    .ok (scaled.magnitude.compare other.magnitude false)

/-! ## Integers -/

/-- `v` is not negative, or has one limb, or has a low limb of zero. -/
def ComesThrough (v : Int) : Prop := 0 ≤ v ∨ v.natAbs < 4294967296 ∨ v.natAbs % 4294967296 = 0

/-- An `int64_t` that was assigned comes back, and one that is the value of a `BigInteger` is what
is returned, exactly if the number is positive or its limbs need no borrow. Zero with a negative
sign is not returned as zero. -/
theorem toInt64_iff (v : Int) (hlow : -9223372036854775808 ≤ v) (hhigh : v < 9223372036854775808) :
    ((BigInteger.assignInt64 v).toInt64 = v ↔ ComesThrough v) ∧
      ((ofInt64 v).toInt64 = .ok v ↔ ComesThrough v) ∧
      ∀ x : BigInteger, x.WellFormed → x.value = v →
        (x.toInt64 = v ↔ x.sign = 1 ∨ v ≠ 0 ∧ ComesThrough v) := by
  have hassigned : (BigInteger.assignInt64 v).toInt64 = v ↔ ComesThrough v := by
    have hsign : (if v < 0 then -1 else 1 : Int) = 1 ∨ (if v < 0 then -1 else 1 : Int) = -1 := by
      split <;> simp
    have hvalue : (if v < 0 then -1 else 1 : Int) * v.natAbs = v := by
      split <;> omega
    have h := BigInteger.toInt64_signed_iff (n := v.natAbs) hsign (by omega) (by omega)
    rw [hvalue] at h
    rw [BigInteger.assignInt64_eq hlow hhigh, BigInteger.ofInt, h, ComesThrough]
    split <;> omega
  refine ⟨hassigned, ?_, fun x hx hvalue => ?_⟩
  · rw [toInt64, if_pos (show (ofInt64 v).scale = 0 from rfl), Except.ok.injEq]
    exact hassigned
  · have habs := BigInteger.natAbs_value hx
    have hproduct : x.sign * x.magnitude = v := hvalue
    have h := BigInteger.toInt64_signed_iff (n := x.magnitude) hx.sign (by omega) (by omega)
    rw [← hx.eq_signed, hproduct] at h
    rw [hvalue] at habs
    rw [h, ComesThrough, habs]
    rcases hx.sign with hs | hs <;> rw [hs] at hproduct ⊢ <;> omega

/-- -(2^32 + 1) is returned as -1. -/
theorem toInt64_counterexample :
    (BigInteger.assignInt64 (-4294967297)).toInt64 ≠ -4294967297 ∧
      (ofInt64 (-4294967297)).toInt64 ≠ .ok (-4294967297) := by
  decide +kernel

theorem toInt64_example :
    (ofInt64 (-4294967295)).toInt64 = .ok (-4294967295) ∧
      (BigInteger.signed (-1) 9223372036854775808).toInt64 = -9223372036854775808 := by
  refine ⟨?_, ?_⟩
  · exact (toInt64_iff (-4294967295) (by decide) (by decide)).2.1.mpr (.inr (.inl (by decide)))
  · have hvalue : (BigInteger.signed (-1) 9223372036854775808).value = -9223372036854775808 := by
      rw [BigInteger.value_signed]
      rfl
    exact ((toInt64_iff (-9223372036854775808) (by decide) (by decide)).2.2
      (.signed (-1) 9223372036854775808) (BigInteger.wellFormed_signed (.inr rfl)) hvalue).mpr
        (.inr ⟨by decide, .inr (.inr (by decide))⟩)

/-! ## Another scale -/

/-- The rational a decimal stands for. -/
def toRat (d : Decimal) : ℚ := d.magnitude.value * 10 ^ (-d.scale)

section Scales

variable {d res : Decimal} {newScale : Int} {k : Nat}

theorem toInt32_eq {n : Int} (hlow : -2147483648 ≤ n) (hhigh : n < 2147483648) : toInt32 n = n :=
  Int.bmod_eq_of_le (by omega) (by omega)

theorem setScale_same (h : d.scale = newScale) : d.setScale newScale res = .ok res := if_pos h

/-- A larger scale multiplies by a power of ten. -/
theorem setScale_up (hd : d.magnitude.WellFormed) (hk : 0 < k) (hfits : k < 2147483648)
    (h : newScale = d.scale + k) :
    d.setScale newScale res =
      .ok ⟨newScale, .signed d.magnitude.sign (d.magnitude.magnitude * 10 ^ k)⟩ := by
  have hdiff : toInt32 (d.scale - newScale) = -k := by
    rw [toInt32_eq (by omega) (by omega)]
    omega
  have hneg : toInt32 (-(-(k : Int))) = k := by
    rw [toInt32_eq (by omega) (by omega), neg_neg]
  rw [setScale, if_neg (by omega), hdiff, if_neg (by omega), hneg, BigInteger.getPowerOfTen_eq,
    ok_bind]
  conv_lhs => enter [1]; rw [hd.eq_signed, BigInteger.multiply_signed, mul_one]
  rfl

/-- The difference of the scales is its own negation. -/
theorem setScale_overflow (h : newScale = d.scale + 2147483648) :
    d.setScale newScale res = .error .outOfBounds := by
  have hdiff : toInt32 (d.scale - newScale) = -2147483648 := by
    rw [toInt32_eq (by omega) (by omega)]
    omega
  have hneg : toInt32 (-(-2147483648)) = -2147483648 := by decide
  rw [setScale, if_neg (by omega), hdiff, if_neg (by omega), hneg,
    BigInteger.getPowerOfTen_negative (by omega)]
  rfl

/-- A smaller scale divides by a power of ten. -/
theorem setScale_down (hk : 0 < k) (hfits : k < 2147483648) (h : d.scale = newScale + k) :
    d.setScale newScale res =
      (d.magnitude.divide (.signed 1 (10 ^ k)) res.magnitude).map fun magnitude =>
        ⟨newScale, magnitude⟩ := by
  have hdiff : toInt32 (d.scale - newScale) = k := by
    rw [toInt32_eq (by omega) (by omega)]
    omega
  rw [setScale, if_neg (by omega), hdiff, if_pos (by omega), BigInteger.getPowerOfTen_eq, ok_bind]
  cases d.magnitude.divide (.signed 1 (10 ^ k)) res.magnitude <;> rfl

theorem inBounds_pow_iff (hk : 0 < k) :
    d.magnitude.InBounds (.signed 1 (10 ^ k)) ↔ d.magnitude.mag.length ≤ 2 ∨ 10 ≤ k := by
  have hlimbs : 2 ≤ (BigInteger.signed 1 (10 ^ k)).mag.length ↔ 10 ≤ k := by
    have h := BigInteger.length_signed_lt_iff (s := 1) (n := 10 ^ k) 1
    rw [Nat.lt_iff_add_one_le] at h
    rw [h, pow_one]
    constructor
    · intro hle
      by_contra hlt
      have hpow : 10 ^ k ≤ 10 ^ 9 := Nat.pow_le_pow_right (by decide) (by omega)
      omega
    · intro hle
      have hpow : 10 ^ 10 ≤ 10 ^ k := Nat.pow_le_pow_right (by decide) hle
      omega
  have hone : (10 : Nat) ^ k ≠ 1 := (Nat.one_lt_pow (by omega) (by decide)).ne'
  rw [BigInteger.InBounds, hlimbs, BigInteger.magnitude_signed]
  simp only [hone, or_false]

end Scales

section Values

variable {a b : Decimal} {k : Nat}

/-- A decimal with the scale of another one. -/
theorem toRat_eq_shifted (h : a.scale = b.scale + k) :
    b.toRat = (b.magnitude.value * 10 ^ k : Int) * 10 ^ (-a.scale) := by
  have hpow : (10 : ℚ) ^ (-b.scale) = 10 ^ k * 10 ^ (-a.scale) := by
    rw [h, neg_add, zpow_add₀ (by norm_num), mul_left_comm, zpow_neg _ (k : Int), zpow_natCast,
      mul_inv_cancel₀ (by positivity), mul_one]
  rw [toRat, hpow, Int.cast_mul, Int.cast_pow, Int.cast_ofNat, mul_assoc]

theorem toRat_eq_iff (h : a.scale = b.scale + k) :
    a.toRat = b.toRat ↔ a.magnitude.value = b.magnitude.value * 10 ^ k := by
  have hpos : (10 : ℚ) ^ (-a.scale) ≠ 0 := zpow_ne_zero _ (by norm_num)
  rw [toRat_eq_shifted h, toRat, mul_left_inj' hpos, Int.cast_inj]

theorem toRat_lt_iff (h : a.scale = b.scale + k) :
    a.toRat < b.toRat ↔ a.magnitude.value < b.magnitude.value * 10 ^ k := by
  have hpos : (0 : ℚ) < 10 ^ (-a.scale) := zpow_pos (by norm_num) _
  rw [toRat_eq_shifted h, toRat, mul_lt_mul_iff_left₀ hpos, Int.cast_lt]

theorem lt_toRat_iff (h : a.scale = b.scale + k) :
    b.toRat < a.toRat ↔ b.magnitude.value * 10 ^ k < a.magnitude.value := by
  have hpos : (0 : ℚ) < 10 ^ (-a.scale) := zpow_pos (by norm_num) _
  rw [toRat_eq_shifted h, toRat, mul_lt_mul_iff_left₀ hpos, Int.cast_lt]

end Values

/-- `res` has the new scale, and the same value or the integer part of the unscaled value and a
power of ten. -/
structure Rescaled (d : Decimal) (newScale : Int) (r : Decimal) : Prop where
  scale : r.scale = newScale
  up : d.scale ≤ newScale → r.toRat = d.toRat
  down : newScale < d.scale →
    r.magnitude.value = d.magnitude.value.tdiv (10 ^ (d.scale - newScale).toNat)

/-- A number with a smaller scale is right if the division by a power of ten reads no array outside
its bounds and estimates no digit too large. -/
def ScalesDown (d : Decimal) (newScale : Int) : Prop :=
  (d.magnitude.mag.length ≤ 2 ∨ 10 ≤ d.scale - newScale) ∧
    d.magnitude.EstimatesExact (.signed 1 (10 ^ (d.scale - newScale).toNat))

/-- The scale is changed as it should be if and only if it is another one, or `res` had the number
already, and the division is right where there is one. -/
theorem setScale_iff (d res : Decimal) (newScale : Int) (hd : d.magnitude.WellFormed)
    (hlow : -2147483648 < d.scale - newScale) (hhigh : d.scale - newScale < 2147483648) :
    Yields (d.setScale newScale res) (Rescaled d newScale) ↔
      (d.scale = newScale → res.scale = newScale ∧ res.toRat = d.toRat) ∧
        (newScale < d.scale → ScalesDown d newScale) := by
  rcases Int.lt_trichotomy d.scale newScale with hlt | heq | hgt
  · obtain ⟨k, hk⟩ := Int.le.dest hlt.le
    rw [setScale_up hd (k := k) (by omega) (by omega) hk.symm, Yields.ok_iff]
    refine iff_of_true ⟨rfl, fun _ => ?_, fun h => absurd h (by omega)⟩
      ⟨fun h => absurd h (by omega), fun h => absurd h (by omega)⟩
    rw [toRat_eq_iff hk.symm, BigInteger.value_signed, BigInteger.value, Nat.cast_mul, Nat.cast_pow,
      mul_assoc]
    rfl
  · rw [setScale_same heq, Yields.ok_iff]
    constructor
    · rintro ⟨hscale, hup, -⟩
      exact ⟨fun _ => ⟨hscale, hup heq.le⟩, fun h => absurd h (by omega)⟩
    · rintro ⟨h, -⟩
      exact ⟨(h heq).1, fun _ => (h heq).2, fun hgt => absurd hgt (by omega)⟩
  · obtain ⟨k, hk⟩ := Int.le.dest hgt.le
    have hdiff : d.scale - newScale = k := by omega
    have hpow : (BigInteger.signed 1 (10 ^ k)).value = 10 ^ k := by
      rw [BigInteger.value_signed, one_mul, Nat.cast_pow]
      rfl
    have hadjustment := BigInteger.wellFormed_signed (s := 1) (n := 10 ^ k) (.inl rfl)
    have hne := BigInteger.signed_ne_nil (s := 1) (n := 10 ^ k) (by positivity)
    rw [setScale_down (k := k) (by omega) (by omega) hk.symm, ScalesDown, hdiff, Int.toNat_natCast]
    have hbounds : d.magnitude.InBounds (.signed 1 (10 ^ k)) ↔
        d.magnitude.mag.length ≤ 2 ∨ (10 : Int) ≤ k := by
      rw [inBounds_pow_iff (by omega)]
      omega
    rw [← hbounds]
    by_cases hin : d.magnitude.InBounds (.signed 1 (10 ^ k))
    · obtain ⟨q, r, hpath, hdivide⟩ := BigInteger.divide_eq hd hadjustment hne hin res.magnitude
      have hquotient := hpath.quotient_iff hd hadjustment hne
      rw [hpow] at hquotient
      rw [hdivide, Except.map, Yields.ok_iff]
      constructor
      · rintro ⟨-, -, hdown⟩
        refine ⟨fun h => absurd h (by omega), fun _ => ⟨hin, hquotient.mp ?_⟩⟩
        have hvalue := hdown hgt
        rwa [hdiff, Int.toNat_natCast] at hvalue
      · rintro ⟨-, h⟩
        refine ⟨rfl, fun h => absurd h (by omega), fun _ => ?_⟩
        rw [hdiff, Int.toNat_natCast]
        exact hquotient.mpr (h hgt).2
    · rw [BigInteger.divide_outOfBounds hd hadjustment hne hin]
      refine iff_of_false ?_ fun h => hin (h.2 hgt).1
      rintro ⟨r, hr, -⟩
      cases hr

/-! ## Order -/

def eq (val1 val2 : Decimal) : Except ArithmeticFault Bool :=
  (val1.compare val2).map fun c => c = 0

def ne (val1 val2 : Decimal) : Except ArithmeticFault Bool :=
  (val1.compare val2).map fun c => c ≠ 0

def lt (val1 val2 : Decimal) : Except ArithmeticFault Bool :=
  (val1.compare val2).map fun c => c < 0

def le (val1 val2 : Decimal) : Except ArithmeticFault Bool :=
  (val1.compare val2).map fun c => c ≤ 0

def gt (val1 val2 : Decimal) : Except ArithmeticFault Bool :=
  (val1.compare val2).map fun c => 0 < c

def ge (val1 val2 : Decimal) : Except ArithmeticFault Bool :=
  (val1.compare val2).map fun c => 0 ≤ c

/-- The comparison and the operators are those of the rationals. -/
structure Ordered (a b : Decimal) : Prop where
  compare : Yields (a.compare b) fun c =>
    (c < 0 ↔ a.toRat < b.toRat) ∧ (c = 0 ↔ a.toRat = b.toRat) ∧ (0 < c ↔ b.toRat < a.toRat)
  eq : a.eq b = .ok (decide (a.toRat = b.toRat))
  ne : a.ne b = .ok (decide (a.toRat ≠ b.toRat))
  lt : a.lt b = .ok (decide (a.toRat < b.toRat))
  le : a.le b = .ok (decide (a.toRat ≤ b.toRat))
  gt : a.gt b = .ok (decide (a.toRat > b.toRat))
  ge : a.ge b = .ok (decide (a.toRat ≥ b.toRat))

section Order

variable {a b : Decimal} {c : Int}

theorem ordered_of_compare (h : a.compare b = .ok c) (hlt : c < 0 ↔ a.toRat < b.toRat)
    (heq : c = 0 ↔ a.toRat = b.toRat) : Ordered a b := by
  have hle : c ≤ 0 ↔ a.toRat ≤ b.toRat := by rw [le_iff_lt_or_eq, le_iff_lt_or_eq, hlt, heq]
  have hgt : 0 < c ↔ b.toRat < a.toRat := by rw [← not_le, ← not_le, hle]
  have hge : 0 ≤ c ↔ b.toRat ≤ a.toRat := by rw [← not_lt, ← not_lt, hlt]
  refine ⟨⟨c, h, hlt, heq, hgt⟩, ?_, ?_, ?_, ?_, ?_, ?_⟩
  · rw [Decimal.eq, h, Except.map, decide_eq_decide.mpr heq]
  · rw [Decimal.ne, h, Except.map, decide_eq_decide.mpr (not_congr heq)]
  · rw [Decimal.lt, h, Except.map, decide_eq_decide.mpr hlt]
  · rw [Decimal.le, h, Except.map, decide_eq_decide.mpr hle]
  · rw [Decimal.gt, h, Except.map, decide_eq_decide.mpr hgt]
  · rw [Decimal.ge, h, Except.map, decide_eq_decide.mpr hge]

theorem isZero_iff (ha : a.magnitude.Canonical) : a.isZero ↔ a.toRat = 0 := by
  have hpos : (10 : ℚ) ^ (-a.scale) ≠ 0 := zpow_ne_zero _ (by norm_num)
  rw [isZero, ha.isZero_eq, decide_eq_true_eq, toRat, mul_eq_zero_iff_right hpos, Int.cast_eq_zero,
    ← BigInteger.natAbs_value ha.toWellFormed, Int.natAbs_eq_zero]

/-- The unscaled value after the scale has grown. -/
theorem signed_pow_eq {x : BigInteger} (hx : x.Canonical) (k : Nat) :
    BigInteger.signed x.sign (x.magnitude * 10 ^ k) = .ofInt (x.value * 10 ^ k) := by
  have hcanonical : (BigInteger.signed x.sign (x.magnitude * 10 ^ k)).Canonical := by
    refine ⟨BigInteger.wellFormed_signed hx.sign, fun hzero => hx.zero ?_⟩
    rw [BigInteger.magnitude_signed] at hzero
    exact (Nat.mul_eq_zero.mp hzero).resolve_right (by positivity)
  rw [hcanonical.eq_ofInt, BigInteger.value_signed, BigInteger.value, Nat.cast_mul, Nat.cast_pow,
    mul_assoc]
  rfl

/-- Decimals are ordered as rationals unless the scale of the second one is larger by 2^31, and they
are not both zero. -/
theorem compare_iff (a b : Decimal) (ha : a.magnitude.Canonical) (hb : b.magnitude.Canonical)
    (hlow : -2147483648 ≤ a.scale - b.scale) (hhigh : a.scale - b.scale < 2147483648) :
    Ordered a b ↔ b.scale - a.scale ≠ 2147483648 ∨ a.toRat = 0 ∧ b.toRat = 0 := by
  by_cases hzero : a.toRat = 0 ∧ b.toRat = 0
  · have hboth : a.isZero ∧ b.isZero := ⟨(isZero_iff ha).mpr hzero.1, (isZero_iff hb).mpr hzero.2⟩
    have hcompare : a.compare b = .ok 0 := by rw [compare, if_pos hboth]
    have hsame : a.toRat = b.toRat := by rw [hzero.1, hzero.2]
    exact iff_of_true (ordered_of_compare hcompare (iff_of_false (by decide) (by simp [hsame]))
      (iff_of_true rfl hsame)) (.inr hzero)
  · have hnot : ¬ (a.isZero ∧ b.isZero) := fun h =>
      hzero ⟨(isZero_iff ha).mp h.1, (isZero_iff hb).mp h.2⟩
    rcases Int.lt_trichotomy a.scale b.scale with hlt | heq | hgt
    · obtain ⟨k, hk⟩ := Int.le.dest hlt.le
      by_cases hover : b.scale - a.scale = 2147483648
      · -- ten is raised to the power of -2^31
        have hcompare : a.compare b = .error .outOfBounds := by
          rw [compare, if_neg hnot, if_neg hlt.ne, if_neg (by omega), setScale_overflow (by omega)]
          rfl
        refine iff_of_false (fun h => ?_) (by simp [hover, hzero])
        obtain ⟨c, hc, -⟩ := h.compare
        rw [hcompare] at hc
        cases hc
      · have hcompare : a.compare b =
            .ok (a.magnitude.value * 10 ^ k - b.magnitude.value).sign := by
          rw [compare, if_neg hnot, if_neg hlt.ne, if_neg (by omega),
            setScale_up ha.toWellFormed (k := k) (by omega) (by omega) hk.symm, ok_bind,
            signed_pow_eq ha, hb.eq_ofInt, BigInteger.compare_ofInt, BigInteger.value_ofInt]
        refine iff_of_true (ordered_of_compare hcompare ?_ ?_) (.inl hover)
        · rw [Int.sign_neg_iff, lt_toRat_iff hk.symm]
          omega
        · rw [Int.sign_eq_zero_iff_zero, eq_comm (a := a.toRat), toRat_eq_iff hk.symm]
          omega
    · have hcompare : a.compare b = .ok (a.magnitude.value - b.magnitude.value).sign := by
        rw [compare, if_neg hnot, if_pos heq]
        conv_lhs => rw [ha.eq_ofInt, hb.eq_ofInt, BigInteger.compare_ofInt]
      have hscale : a.scale = b.scale + (0 : Nat) := by omega
      refine iff_of_true (ordered_of_compare hcompare ?_ ?_) (.inl (by omega))
      · rw [Int.sign_neg_iff, toRat_lt_iff hscale]
        omega
      · rw [Int.sign_eq_zero_iff_zero, toRat_eq_iff hscale]
        omega
    · obtain ⟨k, hk⟩ := Int.le.dest hgt.le
      have hcompare : a.compare b =
          .ok (a.magnitude.value - b.magnitude.value * 10 ^ k).sign := by
        rw [compare, if_neg hnot, if_neg hgt.ne', if_pos hgt,
          setScale_up hb.toWellFormed (k := k) (by omega) (by omega) hk.symm, ok_bind,
          signed_pow_eq hb, ha.eq_ofInt, BigInteger.compare_ofInt, BigInteger.value_ofInt]
      refine iff_of_true (ordered_of_compare hcompare ?_ ?_) (.inl (by omega))
      · rw [Int.sign_neg_iff, toRat_lt_iff hk.symm]
        omega
      · rw [Int.sign_eq_zero_iff_zero, toRat_eq_iff hk.symm]
        omega

/-- One with the least scale there is, and one. -/
theorem compare_counterexample :
    ¬ Ordered ⟨-2147483648, .ofInt 1⟩ ⟨0, .ofInt 1⟩ := by
  intro h
  obtain ⟨c, hc, -⟩ := h.compare
  have hcompare : compare ⟨-2147483648, .ofInt 1⟩ ⟨0, .ofInt 1⟩ = .error .outOfBounds := by
    decide +kernel
  rw [hcompare] at hc
  cases hc

/-- 1.50 and 10. -/
theorem compare_example : Ordered ⟨2, .ofInt 150⟩ ⟨-1, .ofInt 1⟩ :=
  (compare_iff ⟨2, .ofInt 150⟩ ⟨-1, .ofInt 1⟩ (BigInteger.canonical_ofInt 150)
    (BigInteger.canonical_ofInt 1) (by decide) (by decide)).mpr (.inl (by decide))

end Order

end Decimal

end Common

end TrinoOdbc
