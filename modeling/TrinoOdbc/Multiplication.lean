import TrinoOdbc.BigInteger
import TrinoOdbc.Magnitude

/-!
# TrinoOdbc.Multiplication

`BigInteger` from machine integers, compared, multiplied and raised to a power.

* `multiply_signed`, `pow_signed` — products and powers of numbers given by sign and magnitude.
* `compare_signed` — the order of the magnitudes, and of the signs.
* `getPowerOfTen_eq` — the powers of ten, from the table and beyond it.
-/

namespace TrinoOdbc

open Loops

namespace MagArray

/-- One row of a product: `mag * x` is added at `i`. -/
def multiplyRow (mag : MagArray) (i x : Nat) (res : MagArray) :
    Except ArithmeticFault MagArray := do
  let s ← Loops.up (fun j (s : MagArray × Nat) => do
    let limb ← mag.load j
    let old ← s.1.load (i + j)
    let product := u64 (limb * x + old + s.2)
    let res ← s.1.store (i + j) (u32 product)
    .ok (res, u32 (product >>> 32))) mag.length (res, 0)
  s.1.store (i + mag.length) s.2

/-- `resMag` in `Multiply`. -/
def multiply (mag other : MagArray) : Except ArithmeticFault MagArray :=
  Loops.up (fun i res => do
    let x ← other.load i
    mag.multiplyRow i x res) other.length (resize [] (mag.length + other.length))

end MagArray

/-- The table of `TenPowerU64`. -/
def tenPowersTable : MagArray :=
  [1, 10, 100, 1000, 10000, 100000, 1000000, 10000000, 100000000, 1000000000, 10000000000,
    100000000000, 1000000000000, 10000000000000, 100000000000000, 1000000000000000,
    10000000000000000, 100000000000000000, 1000000000000000000, 10000000000000000000]

def tenPowerU64 (n : Int) : Except ArithmeticFault Nat := tenPowersTable.load n

namespace BigInteger

def assignUint64 (val : Nat) : BigInteger :=
  if val = 0 then { sign := 1, mag := [] }
  else
    let highWord := u32 (val >>> 32)
    if highWord = 0 then { sign := 1, mag := [u32 val] }
    else { sign := 1, mag := [u32 val, highWord] }

/-- The least `int64_t` is its own negation. -/
def assignInt64 (val : Int) : BigInteger :=
  if val < 0 then { assignUint64 (-val % 18446744073709551616).toNat with sign := -1 }
  else assignUint64 (val % 18446744073709551616).toNat

def getBitLength (x : BigInteger) : Nat :=
  match x.mag.getLast? with
  | none => 0
  | some top => bitLengthU32 top + (x.mag.length - 1) * 32

/-- The loop of `Compare`, from the highest limb down. -/
def compareLimbs (a b : MagArray) (mgt : Int) : Nat → Int
  | 0 => 0
  | i + 1 =>
    if a.getD i 0 = b.getD i 0 then compareLimbs a b mgt i
    else if b.getD i 0 < a.getD i 0 then mgt
    else -mgt

def compareMagnitudes (x other : BigInteger) (mgt : Int) : Int :=
  if x.mag.length ≠ other.mag.length then
    if other.mag.length < x.mag.length then mgt else -mgt
  else compareLimbs x.mag other.mag mgt x.mag.length

def compare (x other : BigInteger) (ignoreSign : Bool) : Int :=
  if ignoreSign then x.compareMagnitudes other 1
  else if x.sign ≠ other.sign then if other.sign < x.sign then 1 else -1
  else x.compareMagnitudes other x.sign

def isZero (x : BigInteger) : Bool := x.mag.length = 0

def negate (x : BigInteger) : BigInteger := if x.isZero then x else { x with sign := -x.sign }

def multiply (x other : BigInteger) : Except ArithmeticFault BigInteger := do
  let resMag ← MagArray.multiply x.mag other.mag
  .ok { sign := x.sign * other.sign, mag := MagArray.normalize resMag }

def multiplyUnless (x other : BigInteger) (n : Nat) : Except ArithmeticFault BigInteger :=
  if n = 0 then .ok x else x.multiply other

/-- The loop of `Pow`. -/
def powLoop (res multiplicant : BigInteger) (mutExp : Nat) : Except ArithmeticFault BigInteger :=
  if mutExp = 0 then .ok res
  else do
    let res ← res.multiplyUnless multiplicant (mutExp &&& 1)
    let multiplicant ← multiplicant.multiplyUnless multiplicant (mutExp >>> 1)
    powLoop res multiplicant (mutExp >>> 1)
termination_by mutExp
decreasing_by
  rw [Nat.shiftRight_one]
  omega

def pow (x : BigInteger) (exp : Int) : Except ArithmeticFault BigInteger :=
  if exp < 0 then .ok (assignInt64 0)
  else
    let bitsLen := x.getBitLength
    if bitsLen = 0 then .ok x
    else if bitsLen = 1 then
      .ok (if exp % 2 = 0 ∧ x.sign < 0 then { x with sign := -x.sign } else x)
    else powLoop (assignInt64 1) x exp.toNat

def getPowerOfTen (n : Int) : Except ArithmeticFault BigInteger :=
  if n < 20 then do
    let power ← tenPowerU64 n
    .ok (assignUint64 power)
  else (assignInt64 10).pow n

/-! ## Numbers by sign and magnitude -/

/-- The number with this sign and magnitude. Zero can have either sign. -/
def signed (sign : Int) (n : Nat) : BigInteger := { sign, mag := Nat.digits 4294967296 n }

def ofInt (v : Int) : BigInteger := signed (if v < 0 then -1 else 1) v.natAbs

def magnitude (x : BigInteger) : Nat := MagArray.toNat x.mag

def value (x : BigInteger) : Int := x.sign * x.magnitude

/-- A sign of 1 or -1, and no zero limb at the top. -/
structure WellFormed (x : BigInteger) : Prop where
  sign : x.sign = 1 ∨ x.sign = -1
  mag : Radix.Canonical 4294967296 x.mag

/-- Zero is positive. -/
structure Canonical (x : BigInteger) : Prop extends WellFormed x where
  zero : x.magnitude = 0 → x.sign = 1

section Signed

variable {s t : Int} {n m : Nat}

@[simp] theorem sign_signed : (signed s n).sign = s := rfl

@[simp] theorem magnitude_signed : (signed s n).magnitude = n := MagArray.toNat_digits n

@[simp] theorem value_signed : (signed s n).value = s * n := by
  rw [value, sign_signed, magnitude_signed]

theorem wellFormed_signed (hs : s = 1 ∨ s = -1) : (signed s n).WellFormed :=
  ⟨hs, MagArray.canonical_digits n⟩

theorem eq_signed_of_canonical {x : BigInteger} (h : Radix.Canonical 4294967296 x.mag) :
    x = signed x.sign x.magnitude := by
  cases x with
  | mk sign mag =>
    simp only [signed, mk.injEq, true_and]
    exact MagArray.eq_digits h

theorem WellFormed.eq_signed {x : BigInteger} (h : x.WellFormed) :
    x = signed x.sign x.magnitude := eq_signed_of_canonical h.mag

theorem signed_ne_nil (hn : n ≠ 0) : (signed s n).mag ≠ [] := by
  rw [signed, ne_eq, Nat.digits_eq_nil_iff_eq_zero]
  exact hn

theorem value_ofInt (v : Int) : (ofInt v).value = v := by
  rw [ofInt, value_signed]
  split <;> omega

theorem natAbs_value {x : BigInteger} (h : x.WellFormed) : x.value.natAbs = x.magnitude := by
  rcases h.sign with hs | hs <;> simp [value, hs]

theorem Canonical.eq_ofInt {x : BigInteger} (h : x.Canonical) : x = ofInt x.value := by
  have hsign : x.sign = if x.value < 0 then -1 else 1 := by
    have hzero := h.zero
    rw [value]
    rcases h.sign with hs | hs
    · rw [hs, if_neg (by omega)]
    · rw [hs] at hzero ⊢
      rw [if_pos (by omega)]
  rw [ofInt, natAbs_value h.toWellFormed, ← hsign]
  exact h.eq_signed

theorem canonical_ofInt (v : Int) : (ofInt v).Canonical where
  sign := by
    rw [ofInt, sign_signed]
    split
    · exact .inr rfl
    · exact .inl rfl
  mag := MagArray.canonical_digits _
  zero h := by
    rw [ofInt, magnitude_signed] at h
    rw [ofInt, sign_signed, if_neg (by omega)]

theorem isZero_signed : (signed s n).isZero = decide (n = 0) := by
  rw [isZero, signed, decide_eq_decide, List.length_eq_zero_iff, Nat.digits_eq_nil_iff_eq_zero]

theorem WellFormed.isZero_eq {x : BigInteger} (h : x.WellFormed) :
    x.isZero = decide (x.magnitude = 0) := by
  conv_lhs => rw [h.eq_signed, isZero_signed]

theorem WellFormed.withSign {x : BigInteger} (h : x.WellFormed) (s : Int) :
    ({ x with sign := s } : BigInteger) = signed s x.magnitude := by
  conv_lhs => rw [h.eq_signed]
  rfl

theorem assignUint64_eq (hn : n < 18446744073709551616) : assignUint64 n = signed 1 n := by
  unfold assignUint64 signed
  split
  · rename_i hzero
    rw [hzero, Nat.digits_zero]
  · rename_i hnz
    have hhigh : u32 (n >>> 32) = n / 4294967296 := by
      rw [u32, Nat.shiftRight_eq_div_pow]
      omega
    have hdigits := Nat.digits_def' (b := 4294967296) (by decide) (Nat.pos_of_ne_zero hnz)
    simp only [hdigits, hhigh]
    split
    · rename_i hsmall
      rw [hsmall, Nat.digits_zero, u32]
    · rename_i hlarge
      rw [Nat.digits_of_lt _ _ hlarge (by omega), u32]

theorem assignInt64_eq {v : Int} (hlow : -9223372036854775808 ≤ v)
    (hhigh : v < 9223372036854775808) : assignInt64 v = ofInt v := by
  unfold assignInt64 ofInt
  split
  · rename_i hneg
    have habs : (-v % 18446744073709551616).toNat = v.natAbs := by omega
    rw [habs, assignUint64_eq (by omega)]
    rfl
  · rename_i hpos
    have habs : (v % 18446744073709551616).toNat = v.natAbs := by omega
    rw [habs, assignUint64_eq (by omega)]

end Signed

/-! ## Products -/

theorem product_spec {limb x old carry : Nat} (hlimb : limb < 4294967296) (hx : x < 4294967296)
    (hold : old < 4294967296) (hcarry : carry < 4294967296) :
    u32 (u64 (limb * x + old + carry)) < 4294967296 ∧
      u32 (u64 (limb * x + old + carry) >>> 32) < 4294967296 ∧
      u32 (u64 (limb * x + old + carry)) + 4294967296 * u32 (u64 (limb * x + old + carry) >>> 32) =
        limb * x + old + carry := by
  have hproduct : limb * x ≤ 4294967295 * 4294967295 := Nat.mul_le_mul (by omega) (by omega)
  simp only [u32, u64, Nat.shiftRight_eq_div_pow]
  omega

section Products

variable {mag other res : MagArray} {i x : Nat}

/-- The product of `n` limbs is added at `i`. -/
structure Multiplied (mag res : MagArray) (i x n : Nat) (s : MagArray × Nat) : Prop where
  row : MagArray.Row res s.1 (i + n)
  carry : s.2 < 4294967296
  value : MagArray.toNat s.1 + 4294967296 ^ (i + n) * s.2 =
    MagArray.toNat res + 4294967296 ^ i * (x * MagArray.toNat (mag.take n))

theorem multiplyRow_yields (hmag : ∀ d ∈ mag, d < 4294967296) (hres : ∀ d ∈ res, d < 4294967296)
    (hx : x < 4294967296) (hzero : res[i + mag.length]? = some 0) :
    Yields (mag.multiplyRow i x res) fun r => MagArray.Row res r (i + mag.length + 1) ∧
      MagArray.toNat r = MagArray.toNat res + 4294967296 ^ i * (x * MagArray.toNat mag) := by
  obtain ⟨hlen, hnext⟩ := List.getElem?_eq_some_iff.mp hzero
  refine Yields.bind (P := Multiplied mag res i x mag.length) (Loops.up_yields ?_ ?_) ?_
  · exact ⟨.refl hres _, Nat.zero_lt_succ _, by simp [MagArray.toNat]⟩
  · intro j s hj h
    have hr : i + j < s.1.length := by
      rw [h.row.length]
      omega
    have hlimb : mag[j] < 4294967296 := hmag _ (List.getElem_mem hj)
    obtain ⟨hlow, hhigh, hstep⟩ := product_spec hlimb hx (h.row.lt hr) h.carry
    simp only [MagArray.load_eq (k := j) rfl hj,
      MagArray.load_eq (k := i + j) (Int.natCast_add _ _).symm hr,
      MagArray.store_eq (k := i + j) (Int.natCast_add _ _).symm hr, ok_bind]
    refine Yields.ok ⟨h.row.set hlow, hhigh, ?_⟩
    have hset := Radix.ofDigits_set (b := 4294967296) hr (u32 (u64 (mag[j] * x + s.1[i + j] + s.2)))
    have hvalue := h.value
    simp only [MagArray.toNat, Radix.ofDigits_take_succ (b := 4294967296) hj] at hvalue ⊢
    rw [← Nat.add_assoc, pow_succ]
    rw [pow_add] at hset hvalue ⊢
    have hscaled := congrArg (4294967296 ^ i * 4294967296 ^ j * ·) hstep
    linarith
  · intro s h
    have hr : i + mag.length < s.1.length := by
      rw [h.row.length]
      exact hlen
    have hold : s.1[i + mag.length] = 0 := by
      have hrest := h.row.rest (i + mag.length) (Nat.le_refl _)
      rw [hzero, List.getElem?_eq_getElem hr] at hrest
      exact Option.some.inj hrest
    rw [MagArray.store_eq (k := i + mag.length) (Int.natCast_add _ _).symm hr]
    refine Yields.ok ⟨h.row.set h.carry, ?_⟩
    have hset := Radix.ofDigits_set (b := 4294967296) hr s.2
    have hvalue := h.value
    rw [hold, Nat.mul_zero, Nat.add_zero] at hset
    rw [List.take_length] at hvalue
    rw [← hvalue]
    exact hset

/-- After the rows for the limbs below `i`. -/
structure Rows (mag other : MagArray) (i : Nat) (res : MagArray) : Prop where
  length : res.length = mag.length + other.length
  limb : ∀ d ∈ res, d < 4294967296
  zero : ∀ k, i + mag.length ≤ k → k < mag.length + other.length → res[k]? = some 0
  value : MagArray.toNat res = MagArray.toNat mag * MagArray.toNat (other.take i)

theorem multiply_yields (hmag : ∀ d ∈ mag, d < 4294967296) (hother : ∀ d ∈ other, d < 4294967296) :
    Yields (mag.multiply other) fun r => (∀ d ∈ r, d < 4294967296) ∧
      MagArray.toNat r = MagArray.toNat mag * MagArray.toNat other := by
  have hrows : Yields (mag.multiply other) (Rows mag other other.length) := by
    refine Loops.up_yields ?_ ?_
    · have hresize : MagArray.resize [] (mag.length + other.length) =
          List.replicate (mag.length + other.length) 0 := by
        simp [MagArray.resize]
      rw [hresize]
      refine ⟨List.length_replicate, fun d hd => ?_, fun k _ hk => ?_, ?_⟩
      · rw [List.eq_of_mem_replicate hd]
        decide
      · rw [List.getElem?_replicate, if_pos hk]
      · simp [MagArray.toNat, Nat.ofDigits_replicate_zero]
    · intro i res hi h
      have hx : other[i] < 4294967296 := hother _ (List.getElem_mem hi)
      rw [MagArray.load_eq (k := i) rfl hi]
      refine (multiplyRow_yields hmag h.limb hx (h.zero _ (Nat.le_refl _) (by omega))).mono ?_
      rintro r ⟨hrow, hvalue⟩
      refine ⟨by rw [hrow.length, h.length], hrow.limb, fun k hk hlt => ?_, ?_⟩
      · rw [hrow.rest k (by omega)]
        exact h.zero k (by omega) hlt
      · have htake : MagArray.toNat (other.take (i + 1)) =
            MagArray.toNat (other.take i) + 4294967296 ^ i * other[i] :=
          Radix.ofDigits_take_succ hi
        rw [hvalue, h.value, htake]
        ring
  refine hrows.mono fun r h => ⟨h.limb, ?_⟩
  have hvalue := h.value
  rw [List.take_length] at hvalue
  exact hvalue

theorem multiply_signed (s t : Int) (n m : Nat) :
    (signed s n).multiply (signed t m) = .ok (signed (s * t) (n * m)) := by
  obtain ⟨r, hr, hlimb, hvalue⟩ := multiply_yields (MagArray.canonical_digits n).digit
    (MagArray.canonical_digits m).digit
  rw [MagArray.toNat_digits, MagArray.toNat_digits] at hvalue
  unfold multiply signed
  simp only [hr, ok_bind, MagArray.normalize_eq hlimb, hvalue]

end Products

/-! ## Comparison -/

theorem compareLimbs_eq {a b : MagArray} (ha : ∀ d ∈ a, d < 4294967296)
    (hb : ∀ d ∈ b, d < 4294967296) (hlen : a.length = b.length) (mgt : Int) {k : Nat}
    (hk : k ≤ a.length) :
    compareLimbs a b mgt k =
      mgt * ((MagArray.toNat (a.take k) : Int) - MagArray.toNat (b.take k)).sign := by
  induction k with
  | zero => simp [compareLimbs]
  | succ k ih =>
    have hka : k < a.length := hk
    have hkb : k < b.length := by omega
    have htakeA : MagArray.toNat (a.take (k + 1)) =
        MagArray.toNat (a.take k) + 4294967296 ^ k * a[k] := Radix.ofDigits_take_succ hka
    have htakeB : MagArray.toNat (b.take (k + 1)) =
        MagArray.toNat (b.take k) + 4294967296 ^ k * b[k] := Radix.ofDigits_take_succ hkb
    have hlow (l : MagArray) (hl : ∀ d ∈ l, d < 4294967296) (hkl : k < l.length) :
        MagArray.toNat (l.take k) < 4294967296 ^ k := by
      have hlt := Radix.ofDigits_lt (b := 4294967296) (l := l.take k) (by decide)
        fun d hd => hl d (List.mem_of_mem_take hd)
      rwa [List.length_take, Nat.min_eq_left hkl.le] at hlt
    have hlowA := hlow a ha hka
    have hlowB := hlow b hb hkb
    rw [compareLimbs, List.getD_eq_getElem _ _ hka, List.getD_eq_getElem _ _ hkb]
    split
    · rename_i heq
      rw [ih hka.le, htakeA, htakeB, heq, Nat.cast_add, Nat.cast_add, add_sub_add_right_eq_sub]
    · rename_i hne
      split
      · -- the higher limb decides
        rename_i hgt
        have hmul := Nat.mul_le_mul_left (4294967296 ^ k) (Nat.succ_le_of_lt hgt)
        rw [Nat.succ_eq_add_one, Nat.mul_succ] at hmul
        rw [Int.sign_eq_one_of_pos (by omega), mul_one]
      · rename_i hle
        have hmul := Nat.mul_le_mul_left (4294967296 ^ k) (show a[k] + 1 ≤ b[k] by omega)
        rw [Nat.mul_succ] at hmul
        rw [Int.sign_eq_neg_one_of_neg (by omega), mul_neg_one]

section Comparison

variable {s t : Int} {n m : Nat}

theorem length_signed_lt_iff (k : Nat) : k < (signed s n).mag.length ↔ 4294967296 ^ k ≤ n :=
  Nat.lt_digits_length_iff (b := 4294967296) (by decide) n

theorem lt_of_length_lt (h : (signed s n).mag.length < (signed t m).mag.length) : n < m := by
  have hle := (length_signed_lt_iff _).mp h
  have hlt := (not_congr (length_signed_lt_iff (s := s) (n := n) _)).mp (Nat.lt_irrefl _)
  omega

theorem compareMagnitudes_signed (mgt : Int) :
    (signed s n).compareMagnitudes (signed t m) mgt = mgt * ((n : Int) - m).sign := by
  unfold compareMagnitudes
  split
  · rename_i hne
    split
    · rename_i hgt
      have hlt := lt_of_length_lt hgt
      rw [Int.sign_eq_one_of_pos (by omega), mul_one]
    · rename_i hle
      have hlt := lt_of_length_lt (show (signed s n).mag.length < (signed t m).mag.length by omega)
      rw [Int.sign_eq_neg_one_of_neg (by omega), mul_neg_one]
  · rename_i hlen
    have hlimbs := compareLimbs_eq (a := (signed s n).mag) (b := (signed t m).mag)
      (MagArray.canonical_digits n).digit (MagArray.canonical_digits m).digit (not_not.mp hlen) mgt
      (Nat.le_refl _)
    rw [List.take_length, List.take_of_length_le (by omega)] at hlimbs
    change _ = mgt * (((signed s n).magnitude : Int) - (signed t m).magnitude).sign at hlimbs
    rwa [magnitude_signed, magnitude_signed] at hlimbs

theorem compare_ignoreSign : (signed s n).compare (signed t m) true = ((n : Int) - m).sign := by
  rw [compare, if_pos rfl, compareMagnitudes_signed, one_mul]

theorem sign_ofInt_of_neg {v : Int} (hv : v < 0) : (ofInt v).sign = -1 := if_pos hv

theorem sign_ofInt_of_nonneg {v : Int} (hv : ¬ v < 0) : (ofInt v).sign = 1 := if_neg hv

theorem compare_ofInt (v w : Int) : (ofInt v).compare (ofInt w) false = (v - w).sign := by
  have hmagnitudes (mgt : Int) : (ofInt v).compareMagnitudes (ofInt w) mgt =
      mgt * ((v.natAbs : Int) - w.natAbs).sign := compareMagnitudes_signed mgt
  rw [compare, if_neg (by decide), hmagnitudes]
  by_cases hv : v < 0
  · rw [sign_ofInt_of_neg hv]
    by_cases hw : w < 0
    · have hdiff : (v.natAbs : Int) - w.natAbs = -(v - w) := by omega
      rw [sign_ofInt_of_neg hw, if_neg (by decide), hdiff, Int.sign_neg, neg_one_mul, neg_neg]
    · rw [sign_ofInt_of_nonneg hw, if_pos (by decide), if_neg (by decide)]
      exact (Int.sign_eq_neg_one_of_neg (by omega)).symm
  · rw [sign_ofInt_of_nonneg hv]
    by_cases hw : w < 0
    · rw [sign_ofInt_of_neg hw, if_pos (by decide), if_pos (by decide)]
      exact (Int.sign_eq_one_of_pos (by omega)).symm
    · have hdiff : (v.natAbs : Int) - w.natAbs = v - w := by omega
      rw [sign_ofInt_of_nonneg hw, if_neg (by decide), hdiff, one_mul]

end Comparison

/-! ## Powers -/

section Powers

variable {s t : Int} {n m : Nat}

theorem getBitLength_eq {x : BigInteger} (h : Radix.Canonical 4294967296 x.mag) :
    x.getBitLength = x.magnitude.size := by
  unfold getBitLength
  by_cases hne : x.mag = []
  · rw [magnitude, hne]
    rfl
  · have htop : x.mag.getLast hne = x.magnitude / 4294967296 ^ (x.mag.length - 1) :=
      Radix.getLast_eq_div (by decide) h.digit hne
    have hpow : 4294967296 ^ (x.mag.length - 1) = 2 ^ ((x.mag.length - 1) * 32) := by
      rw [Nat.mul_comm, pow_mul]
      rfl
    have hpos := Nat.pos_of_ne_zero (h.last hne)
    have hbits := bitLengthU32_eq hpos (h.digit _ (List.getLast_mem hne))
    rw [htop, hpow] at hbits hpos
    rw [List.getLast?_eq_some_getLast hne, size_eq_add hpos, ← hbits, htop, hpow]

theorem getBitLength_signed : (signed s n).getBitLength = n.size := by
  rw [getBitLength_eq (MagArray.canonical_digits n), magnitude_signed]

theorem multiplyUnless_signed (e : Nat) :
    (signed s n).multiplyUnless (signed t m) (e &&& 1) =
      .ok (signed (s * t ^ (e % 2)) (n * m ^ (e % 2))) := by
  rw [multiplyUnless, multiply_signed, Nat.and_one_is_mod]
  rcases Nat.mod_two_eq_zero_or_one e with h | h
  · rw [if_pos h, h, pow_zero, pow_zero, mul_one, Nat.mul_one]
  · rw [if_neg (by omega), h, pow_one, pow_one]

theorem powLoop_signed (e : Nat) :
    powLoop (signed s n) (signed t m) e = .ok (signed (s * t ^ e) (n * m ^ e)) := by
  induction e using Nat.strong_induction_on generalizing s t n m with
  | _ e ih =>
    rw [powLoop]
    split
    · rename_i hzero
      rw [hzero, pow_zero, pow_zero, mul_one, Nat.mul_one]
    · rename_i hnz
      have hsplit := Nat.div_add_mod e 2
      simp only [multiplyUnless_signed, Nat.shiftRight_one, ok_bind]
      by_cases hlast : e / 2 = 0
      · have hone : e % 2 = e := by omega
        rw [multiplyUnless, if_pos hlast, hlast, hone, ok_bind, powLoop, if_pos rfl]
      · have hpow {R : Type} [CommMonoid R] (a b : R) :
            a * b ^ (e % 2) * (b * b) ^ (e / 2) = a * b ^ e := by
          rw [← pow_two, ← pow_mul, mul_assoc, ← pow_add, Nat.add_comm, hsplit]
        rw [multiplyUnless, if_neg hlast, multiply_signed, ok_bind, ih (e / 2) (by omega), hpow,
          hpow]

/-- A power, except that zero to the power of zero is zero. -/
theorem pow_signed (hs : s = 1 ∨ s = -1) (e : Nat) :
    (signed s n).pow e = .ok (if n = 0 then signed s 0 else signed (s ^ e) (n ^ e)) := by
  unfold pow
  simp only [getBitLength_signed, Nat.size_eq_zero]
  rw [if_neg (by omega)]
  split
  · rename_i hzero
    rw [hzero]
  · rename_i hnz
    split
    · rename_i hone
      have hn : n = 1 := by
        have hlt := Nat.lt_size_self n
        rw [hone] at hlt
        omega
      rw [hn, one_pow, sign_signed]
      rcases hs with rfl | rfl
      · rw [if_neg (by omega), one_pow]
      · rcases Nat.even_or_odd e with heven | hodd
        · have hmod := Nat.even_iff.mp heven
          rw [if_pos (by omega), heven.neg_one_pow]
          rfl
        · have hmod := Nat.odd_iff.mp hodd
          rw [if_neg (by omega), hodd.neg_one_pow]
    · have hstart : assignInt64 1 = signed 1 1 := assignInt64_eq (by decide) (by decide)
      rw [Int.toNat_natCast, hstart, powLoop_signed, one_mul, Nat.one_mul]

theorem tenPowersTable_eq : tenPowersTable = (List.range 20).map (10 ^ ·) := by decide

theorem getPowerOfTen_eq (n : Nat) : getPowerOfTen n = .ok (signed 1 (10 ^ n)) := by
  unfold getPowerOfTen
  split
  · rename_i hsmall
    have hn : n < 20 := by omega
    have hlen : n < tenPowersTable.length := hn
    have hpower : tenPowersTable[n] = 10 ^ n := by
      simp only [tenPowersTable_eq, List.getElem_map, List.getElem_range]
    have hlt : 10 ^ n < 18446744073709551616 := by
      have hle : 10 ^ n ≤ 10 ^ 19 := Nat.pow_le_pow_right (by decide) (by omega)
      omega
    rw [tenPowerU64, MagArray.load_eq rfl hlen, hpower]
    simp only [ok_bind, assignUint64_eq hlt]
  · have hten : assignInt64 10 = signed 1 10 := assignInt64_eq (by decide) (by decide)
    rw [hten, pow_signed (.inl rfl), if_neg (by decide), one_pow]

/-- `TEN_POWERS_TABLE` has nothing for a negative number. -/
theorem getPowerOfTen_negative {n : Int} (hn : n < 0) : getPowerOfTen n = .error .outOfBounds := by
  rw [getPowerOfTen, if_pos (by omega), tenPowerU64, MagArray.load, if_neg (by omega)]
  rfl

end Powers

theorem WellFormed.sign_mul {x y : BigInteger} (hx : x.WellFormed) (hy : y.WellFormed) :
    x.sign * y.sign = 1 ∨ x.sign * y.sign = -1 := by
  rcases hx.sign with h | h <;> rcases hy.sign with h' | h' <;> rw [h, h'] <;> decide

theorem wellFormed_multiply {x other : BigInteger} (hx : x.WellFormed) (hother : other.WellFormed) :
    Yields (x.multiply other) fun r => r.value = x.value * other.value ∧ r.WellFormed := by
  rw [hx.eq_signed, hother.eq_signed, multiply_signed]
  refine .ok ⟨?_, wellFormed_signed (hx.sign_mul hother)⟩
  rw [value_signed, value_signed, value_signed, Nat.cast_mul]
  ring

theorem wellFormed_pow {x : BigInteger} (hx : x.WellFormed) {e : Nat} (h : x.value ≠ 0 ∨ e ≠ 0) :
    Yields (x.pow e) fun r => r.value = x.value ^ e ∧ r.WellFormed := by
  have hvalue : x.value = x.sign * x.magnitude := rfl
  rw [hvalue] at h ⊢
  conv => enter [1]; rw [hx.eq_signed]
  rw [pow_signed hx.sign]
  refine .ok ?_
  split
  · rename_i hzero
    have he : e ≠ 0 := by
      rcases h with h | h
      · exact absurd (by rw [hzero, Nat.cast_zero, mul_zero]) h
      · exact h
    refine ⟨?_, wellFormed_signed hx.sign⟩
    rw [value_signed, hzero, Nat.cast_zero, mul_zero, zero_pow he]
  · refine ⟨by rw [value_signed, Nat.cast_pow, mul_pow], wellFormed_signed ?_⟩
    rcases hx.sign with hs | hs <;> rw [hs]
    · exact .inl (one_pow e)
    · exact neg_one_pow_eq_or Int e

end BigInteger

/-! ## Objects that can be the same -/

/-- The values of the objects of a program. -/
abbrev Objects (ι : Type) := ι → BigInteger

namespace Objects

variable {ι : Type} [DecidableEq ι]

def setMag (o : Objects ι) (res : ι) (mag : MagArray) : Objects ι :=
  Function.update o res { o res with mag }

def setSign (o : Objects ι) (res : ι) (sign : Int) : Objects ι :=
  Function.update o res { o res with sign }

/-- The sign of the product is taken when `res` has the new magnitude. -/
def multiply (o : Objects ι) (x other res : ι) : Except ArithmeticFault (Objects ι) := do
  let resMag ← MagArray.multiply (o x).mag (o other).mag
  let o := o.setMag res resMag
  let o := o.setSign res ((o x).sign * (o other).sign)
  .ok (o.setMag res (MagArray.normalize (o res).mag))

theorem sign_setMag (o : Objects ι) (res k : ι) (mag : MagArray) :
    (o.setMag res mag k).sign = (o k).sign := by
  unfold setMag
  by_cases h : k = res
  · subst h
    rw [Function.update_self]
  · rw [Function.update_of_ne h]

/-- It does not matter which objects are the same. -/
theorem multiply_eq (o : Objects ι) (x other res : ι) :
    o.multiply x other res = ((o x).multiply (o other)).map (Function.update o res) := by
  unfold multiply BigInteger.multiply
  simp only [sign_setMag]
  cases MagArray.multiply (o x).mag (o other).mag with
  | error fault => rfl
  | ok resMag =>
    simp only [ok_bind, Except.map]
    simp only [setMag, setSign, Function.update_self, Function.update_idem]

end Objects

namespace BigInteger

/-- Products and powers are exact, whichever operands of a product are the same object. -/
theorem multiply_pow_exact :
    (∀ (ι : Type) [DecidableEq ι] (o : Objects ι) (x y res : ι),
      (o x).WellFormed → (o y).WellFormed →
      Yields (o.multiply x y res) fun o' => (o' res).value = (o x).value * (o y).value ∧
        (o' res).WellFormed ∧ ∀ k, k ≠ res → o' k = o k) ∧
    (∀ (x : BigInteger) (exp : Int), x.WellFormed → 0 ≤ exp → x.value ≠ 0 ∨ exp ≠ 0 →
      Yields (x.pow exp) fun r => r.value = x.value ^ exp.toNat ∧ r.WellFormed) ∧
    ∀ n : Nat, Yields (getPowerOfTen n) fun r => r.value = 10 ^ n ∧ r.WellFormed := by
  refine ⟨?_, ?_, ?_⟩
  · intro ι _ o x y res hx hy
    rw [Objects.multiply_eq]
    refine (wellFormed_multiply hx hy).map ?_
    rintro r ⟨hvalue, hr⟩
    rw [Function.update_self]
    exact ⟨hvalue, hr, fun k hk => Function.update_of_ne hk _ _⟩
  · intro x exp hx hexp h
    obtain ⟨e, rfl⟩ := Int.eq_ofNat_of_zero_le hexp
    rw [Int.toNat_natCast]
    exact wellFormed_pow hx (by omega)
  · intro n
    rw [getPowerOfTen_eq]
    refine .ok ⟨?_, wellFormed_signed (.inl rfl)⟩
    rw [value_signed, one_mul, Nat.cast_pow]
    rfl

/-- The square of -(2^32 + 5), in place, and its third power. -/
theorem multiply_pow_exact_example :
    (Yields (Objects.multiply (fun _ : Unit => ⟨-1, [5, 1]⟩) () () ()) fun o' =>
      (o' ()).value = 18446744116659224601 ∧ (o' ()).WellFormed) ∧
    Yields ((⟨-1, [5, 1]⟩ : BigInteger).pow 3) fun r =>
      r.value = -79228162790965499021309771901 ∧ r.WellFormed := by
  have hx : (⟨-1, [5, 1]⟩ : BigInteger).WellFormed := by
    refine ⟨.inr rfl, ⟨?_, ?_⟩⟩ <;> simp
  refine ⟨?_, ?_⟩
  · exact (multiply_pow_exact.1 Unit (fun _ => ⟨-1, [5, 1]⟩) () () () hx hx).mono fun o' h =>
      ⟨h.1.trans (by decide +kernel), h.2.1⟩
  · exact (multiply_pow_exact.2.1 ⟨-1, [5, 1]⟩ 3 hx (by decide) (.inr (by decide))).mono fun r h =>
      ⟨h.1.trans (by decide +kernel), h.2⟩

end BigInteger

end TrinoOdbc
