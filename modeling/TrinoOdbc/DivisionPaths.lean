import TrinoOdbc.Division
import TrinoOdbc.Multiplication

/-!
# TrinoOdbc.DivisionPaths

`Divide` of a `BigInteger` on objects of which some can be the same, along its five paths.

* `divide_path` — which path gives which quotient and remainder.
* `divide_magnitudes_iff` — when the magnitudes are those of quotient and remainder.
* `divide_inBounds_iff` — when an array is read outside its bounds.
* `divide_signed_iff` — when quotient and remainder are those of signed numbers.
-/

namespace TrinoOdbc

open Loops

namespace MagArray

/-- A number of at most two limbs. -/
def toUint64 (mag : MagArray) : Except ArithmeticFault Nat := do
  let low ← mag.load 0
  if mag.length = 2 then do
    let high ← mag.load 1
    .ok (low ||| high <<< 32)
  else .ok low

end MagArray

namespace Objects

variable {ι : Type} [DecidableEq ι]

def assign (o : Objects ι) (res : ι) (x : BigInteger) : Objects ι := Function.update o res x

/-- The remainder is not always asked for. -/
def assignRem (o : Objects ι) (rem : Option ι) (x : BigInteger) : Objects ι :=
  match rem with
  | none => o
  | some rem => o.assign rem x

/-- `static_cast<int64_t>`. -/
def toInt64 (n : Nat) : Int := (n : Int).bmod 18446744073709551616

/-- Both operands have at most two limbs. -/
def divideShort (o : Objects ι) (x divisor res : ι) (rem : Option ι) (resSign : Int) :
    Except ArithmeticFault (Objects ι) := do
  let u ← MagArray.toUint64 (o x).mag
  let v ← MagArray.toUint64 (o divisor).mag
  if v = 0 then .error .zeroDivisor
  else
    let o := o.assign res (.assignInt64 (resSign * toInt64 (u / v)))
    .ok (o.assignRem rem (.assignInt64 (resSign * toInt64 (u % v))))

/-- The remainder is shifted back. -/
def restoreRem (o : Objects ι) (rem : Option ι) (resSign : Int) (nu : MagArray)
    (vlen shift : Nat) : Except ArithmeticFault (Objects ι) :=
  match rem with
  | none => .ok o
  | some rem => do
    let o := o.setSign rem resSign
    let o := o.setMag rem (MagArray.resize (o rem).mag vlen)
    let mag ← MagArray.shiftRight nu (o rem).mag.length (o rem).mag shift
    let o := o.setMag rem mag
    .ok (o.setMag rem (MagArray.normalize (o rem).mag))

def divideLong (o : Objects ι) (x divisor res : ι) (rem : Option ι) (resSign : Int) :
    Except ArithmeticFault (Objects ι) := do
  let vlen := (o divisor).mag.length
  let s ← MagArray.longDivision (o x).mag (o divisor).mag (o res).mag
  let o := o.setMag res s.2.2
  let o := o.setSign res resSign
  let o := o.setMag res (MagArray.normalize (o res).mag)
  o.restoreRem rem resSign s.2.1 vlen s.1

def divide (o : Objects ι) (x divisor res : ι) (rem : Option ι) :
    Except ArithmeticFault (Objects ι) :=
  if (o divisor).mag = [] then .error (.illegalArgument "Division by zero.")
  else
    let compRes := (o x).compare (o divisor) true
    let resSign := (o x).sign * (o divisor).sign
    if compRes = 0 then
      let o := o.assign res (.assignInt64 resSign)
      .ok (o.assignRem rem (.assignInt64 0))
    else if compRes = -1 then
      let o := o.assignRem rem (o x)
      .ok (o.assign res (.assignInt64 0))
    else if (o divisor).getBitLength = 1 then
      let o := o.assign res (o x)
      let o := o.setSign res ((o x).sign * (o divisor).sign)
      .ok (o.assignRem rem (.assignInt64 0))
    else if (o x).mag.length ≤ 2 then o.divideShort x divisor res rem resSign
    else o.divideLong x divisor res rem resSign

/-! ## The operations of the paths -/

section Operations

variable {o : Objects ι} {x divisor res : ι} {rem : Option ι} {resSign : Int}

theorem setSign_assign (o : Objects ι) (res : ι) (s : Int) (y : BigInteger) :
    (o.assign res y).setSign res s = o.assign res { y with sign := s } := by
  rw [setSign, assign, Function.update_self, Function.update_idem, assign]

/-- A sign and then an array for the magnitude. -/
theorem setMag_setSign (o : Objects ι) (res : ι) (s : Int) (mag : MagArray) :
    (o.setSign res s).setMag res mag = o.assign res ⟨s, mag⟩ := by
  rw [setMag, setSign, Function.update_self, Function.update_idem, assign]

theorem assign_setMag (o : Objects ι) (res : ι) (mag : MagArray) (y : BigInteger) :
    (o.setMag res mag).assign res y = o.assign res y := by
  rw [assign, setMag, Function.update_idem, assign]

theorem mag_setSign (o : Objects ι) (res : ι) (s : Int) (mag : MagArray) :
    ((o.setMag res mag).setSign res s res).mag = mag := by
  rw [setSign, Function.update_self, setMag, Function.update_self]

theorem restoreRem_eq {nu : MagArray} {n shift : Nat} (hnu : ∀ d ∈ nu, d < 4294967296) (hn : 0 < n)
    (hlen : n ≤ nu.length) (hshift : shift < 32) :
    o.restoreRem rem resSign nu n shift =
      .ok (o.assignRem rem (.signed resSign (MagArray.toNat (nu.take n) / 2 ^ shift))) := by
  cases rem with
  | none => rfl
  | some rem =>
    have hmag : ((o.setSign rem resSign).setMag rem
        (MagArray.resize ((o.setSign rem resSign) rem).mag n) rem).mag =
        MagArray.resize (o rem).mag n := by
      rw [setMag, Function.update_self, setSign, Function.update_self]
    obtain ⟨r, hr, -, hlimb, hvalue⟩ := MagArray.shiftRight_yields hnu hn hlen
      (MagArray.length_resize (o rem).mag n) hshift
    unfold restoreRem
    dsimp only
    rw [hmag, MagArray.length_resize, hr, ok_bind]
    rw [setMag_setSign, setMag, setMag, assign, Function.update_self, Function.update_idem,
      Function.update_self, Function.update_idem, MagArray.normalize_eq hlimb, hvalue]
    rfl

theorem toUint64_eq {mag : MagArray} (hmag : Radix.Canonical 4294967296 mag) (hne : mag ≠ [])
    (hlen : mag.length ≤ 2) : MagArray.toUint64 mag = .ok (MagArray.toNat mag) := by
  have hpos := List.length_pos_iff.mpr hne
  rcases (show mag.length = 1 ∨ mag.length = 2 by omega) with hone | htwo
  · obtain ⟨low, rfl⟩ := List.length_eq_one_iff.mp hone
    rfl
  · obtain ⟨low, high, rfl⟩ := List.length_eq_two.mp htwo
    have hlow : low < 4294967296 := hmag.digit low (by simp)
    have hor : low ||| high <<< 32 = low + 4294967296 * high := by
      rw [Nat.lor_comm, ← Nat.shiftLeft_add_eq_or_of_lt (i := 32) hlow, Nat.shiftLeft_eq]
      ring
    change Except.ok (low ||| high <<< 32) = _
    rw [hor]
    simp [MagArray.toNat, Nat.ofDigits_cons]

theorem divideShort_eq (hx : (o x).WellFormed) (hdivisor : (o divisor).WellFormed)
    (hlen : (o x).mag.length ≤ 2) (hlen' : (o divisor).mag.length ≤ 2)
    (hone : 1 < (o divisor).magnitude) (hlt : (o divisor).magnitude < (o x).magnitude)
    (hsign : resSign = 1 ∨ resSign = -1) :
    o.divideShort x divisor res rem resSign =
      .ok ((o.assign res
        (.ofInt (resSign * ((o x).magnitude / (o divisor).magnitude : Nat)))).assignRem rem
          (.ofInt (resSign * ((o x).magnitude % (o divisor).magnitude : Nat)))) := by
  have hne : (o x).mag ≠ [] := by
    intro hnil
    rw [BigInteger.magnitude, BigInteger.magnitude, hnil] at hlt
    exact Nat.not_lt_zero _ hlt
  have hne' : (o divisor).mag ≠ [] := by
    intro hnil
    rw [BigInteger.magnitude, hnil] at hone
    exact Nat.not_lt_zero _ hone
  have hbound : (o x).magnitude < 18446744073709551616 := by
    have hult := Radix.ofDigits_lt (b := 4294967296) (by decide) hx.mag.digit
    have hle : 4294967296 ^ (o x).mag.length ≤ 4294967296 ^ 2 :=
      Nat.pow_le_pow_right (by decide) hlen
    exact hult.trans_le hle
  unfold divideShort
  rw [toUint64_eq hx.mag hne hlen, ok_bind, toUint64_eq hdivisor.mag hne' hlen', ok_bind]
  change (if (o divisor).magnitude = 0 then _ else _) = _
  rw [if_neg (by omega)]
  change Except.ok (assignRem (o.assign res (.assignInt64 (resSign *
    toInt64 ((o x).magnitude / (o divisor).magnitude)))) rem (.assignInt64 (resSign *
      toInt64 ((o x).magnitude % (o divisor).magnitude)))) = _
  generalize (o x).magnitude = u at *
  generalize (o divisor).magnitude = v at *
  -- the quotient and the remainder are at most half of the dividend
  have hquotient : u / v < 9223372036854775808 := by
    refine Nat.div_lt_of_lt_mul ?_
    have hmul := Nat.mul_le_mul_right 9223372036854775808 (show 2 ≤ v from hone)
    omega
  have hremainder : u % v < 9223372036854775808 := by
    have hmod := Nat.mod_lt u (show 0 < v by omega)
    have hsplit := Nat.div_add_mod u v
    have hle := Nat.le_mul_of_pos_right v (Nat.div_pos hlt.le (show 0 < v by omega))
    omega
  generalize u / v = q at *
  generalize u % v = r at *
  have hq : toInt64 q = q := Int.bmod_eq_of_le (by omega) (by omega)
  have hr : toInt64 r = r := Int.bmod_eq_of_le (by omega) (by omega)
  rw [hq, hr]
  rcases hsign with rfl | rfl
  · rw [BigInteger.assignInt64_eq (by omega) (by omega),
      BigInteger.assignInt64_eq (by omega) (by omega)]
  · rw [BigInteger.assignInt64_eq (by omega) (by omega),
      BigInteger.assignInt64_eq (by omega) (by omega)]

/-- The general path ends with some quotient and remainder, and with the right ones if every
estimate is right. -/
theorem divideLong_eq (res : ι) (rem : Option ι) (resSign : Int)
    (hx : Radix.Canonical 4294967296 (o x).mag)
    (hdivisor : Radix.Canonical 4294967296 (o divisor).mag)
    (hlen : 2 ≤ (o divisor).mag.length) (hle : (o divisor).mag.length ≤ (o x).mag.length) :
    ∃ q r : Nat,
      o.divideLong x divisor res rem resSign =
        .ok ((o.assign res (.signed resSign q)).assignRem rem (.signed resSign r)) ∧
      (MagArray.EstimatesExact (o x).mag (o divisor).mag →
        q = (o x).magnitude / (o divisor).magnitude ∧
          r = (o x).magnitude % (o divisor).magnitude) ∧
      (¬ MagArray.EstimatesExact (o x).mag (o divisor).mag →
        (o x).magnitude / (o divisor).magnitude < q) := by
  obtain ⟨s, hs, h⟩ := MagArray.longDivision_yields hx hdivisor
    (show (o divisor).mag.length = (o divisor).mag.length - 2 + 2 by omega) hle (o res).mag
  have hpositive : 0 < (o divisor).mag.length := by omega
  refine ⟨MagArray.toNat s.2.2,
    MagArray.toNat (s.2.1.take (o divisor).mag.length) / 2 ^ s.1, ?_, fun hexact => ?_, h.inexact⟩
  · unfold divideLong
    dsimp only
    rw [hs, ok_bind, restoreRem_eq h.remainderLimb hpositive h.length h.shift, setMag_setSign,
      mag_setSign, assign_setMag, MagArray.normalize_eq h.quotientLimb]
    rfl
  · obtain ⟨hquotient, hremainder⟩ := h.exact hexact
    refine ⟨hquotient, ?_⟩
    have hdivisorPos : 0 < MagArray.toNat (o divisor).mag := by
      rw [Nat.pos_iff_ne_zero, MagArray.toNat, Ne, ← hdivisor.nil_iff (by decide)]
      exact List.ne_nil_of_length_pos hpositive
    have hlt : MagArray.toNat s.2.1 < 4294967296 ^ (o divisor).mag.length := by
      rw [hremainder]
      refine Nat.lt_trans ?_ h.fits
      exact Nat.mul_lt_mul_of_pos_right (Nat.mod_lt _ hdivisorPos) (Nat.two_pow_pos _)
    have htake : MagArray.toNat (s.2.1.take (o divisor).mag.length) = MagArray.toNat s.2.1 := by
      rw [MagArray.toNat, Radix.ofDigits_take (by decide) h.remainderLimb]
      exact Nat.mod_eq_of_lt hlt
    rw [htake, hremainder, Nat.mul_div_cancel _ (Nat.two_pow_pos _)]
    rfl

end Operations

end Objects

/-! ## The five paths -/

namespace BigInteger

/-- The quotient `q` and the remainder `r` of `u` and `v`, along one of the paths of `Divide`. -/
inductive Divides (u v : BigInteger) : BigInteger → BigInteger → Prop
  | equal : u.magnitude = v.magnitude → Divides u v (ofInt (u.sign * v.sign)) (ofInt 0)
  | smaller : u.magnitude < v.magnitude → Divides u v (ofInt 0) u
  | unit : v.magnitude = 1 → 1 < u.magnitude →
      Divides u v (signed (u.sign * v.sign) u.magnitude) (ofInt 0)
  | short : u.mag.length ≤ 2 → v.mag.length ≤ 2 → 1 < v.magnitude → v.magnitude < u.magnitude →
      Divides u v (ofInt (u.sign * v.sign * (u.magnitude / v.magnitude : Nat)))
        (ofInt (u.sign * v.sign * (u.magnitude % v.magnitude : Nat)))
  | long (q r : Nat) : 2 ≤ v.mag.length → v.magnitude < u.magnitude →
      (MagArray.EstimatesExact u.mag v.mag →
        q = u.magnitude / v.magnitude ∧ r = u.magnitude % v.magnitude) →
      (¬ MagArray.EstimatesExact u.mag v.mag → u.magnitude / v.magnitude < q) →
      Divides u v (signed (u.sign * v.sign) q) (signed (u.sign * v.sign) r)

/-- The arrays are long enough for the path that is taken. -/
def InBounds (u v : BigInteger) : Prop :=
  u.mag.length ≤ 2 ∨ 2 ≤ v.mag.length ∨ v.magnitude = 1

instance (u v : BigInteger) : Decidable (InBounds u v) := inferInstanceAs (Decidable (_ ∨ _))

theorem length_le_of_magnitude_le {u v : BigInteger} (hu : u.WellFormed) (hv : v.WellFormed)
    (h : v.magnitude ≤ u.magnitude) : v.mag.length ≤ u.mag.length := by
  by_contra hlt
  rw [hu.eq_signed, hv.eq_signed, Nat.not_le] at hlt
  have := lt_of_length_lt hlt
  omega

theorem magnitude_pos {v : BigInteger} (hv : v.WellFormed) (hne : v.mag ≠ []) :
    0 < v.magnitude := by
  rw [Nat.pos_iff_ne_zero, magnitude, MagArray.toNat, Ne, ← hv.mag.nil_iff (by decide)]
  exact hne

theorem compare_magnitudes {u v : BigInteger} (hu : u.WellFormed) (hv : v.WellFormed) :
    u.compare v true = ((u.magnitude : Int) - v.magnitude).sign := by
  conv_lhs => rw [hu.eq_signed, hv.eq_signed, compare_ignoreSign]

theorem size_eq_one_iff {n : Nat} : n.size = 1 ↔ n = 1 := by
  constructor
  · intro h
    have hlt := Nat.lt_size_self n
    have hne : n ≠ 0 := by
      rintro rfl
      simp at h
    rw [h] at hlt
    omega
  · rintro rfl
    rfl

end BigInteger

namespace Objects

section Paths

variable {ι : Type} [DecidableEq ι] {o : Objects ι} {x divisor res : ι} {rem : Option ι}

/-- Which path is taken. -/
theorem divide_cases (res : ι) (rem : Option ι) (hx : (o x).WellFormed)
    (hdivisor : (o divisor).WellFormed) (hne : (o divisor).mag ≠ []) :
    ((o x).magnitude = (o divisor).magnitude ∧ o.divide x divisor res rem =
      .ok ((o.assign res (.ofInt ((o x).sign * (o divisor).sign))).assignRem rem (.ofInt 0))) ∨
    ((o x).magnitude < (o divisor).magnitude ∧ o.divide x divisor res rem =
      .ok ((o.assignRem rem (o x)).assign res (.ofInt 0))) ∨
    ((o divisor).magnitude = 1 ∧ 1 < (o x).magnitude ∧ o.divide x divisor res rem =
      .ok (((o.assign res (o x)).setSign res
        ((o.assign res (o x) x).sign * (o.assign res (o x) divisor).sign)).assignRem rem
          (.ofInt 0))) ∨
    (1 < (o divisor).magnitude ∧ (o divisor).magnitude < (o x).magnitude ∧
      (o x).mag.length ≤ 2 ∧ o.divide x divisor res rem =
        o.divideShort x divisor res rem ((o x).sign * (o divisor).sign)) ∨
    (1 < (o divisor).magnitude ∧ (o divisor).magnitude < (o x).magnitude ∧
      2 < (o x).mag.length ∧ o.divide x divisor res rem =
        o.divideLong x divisor res rem ((o x).sign * (o divisor).sign)) := by
  have hpos := BigInteger.magnitude_pos hdivisor hne
  have hsign : BigInteger.assignInt64 ((o x).sign * (o divisor).sign) =
      .ofInt ((o x).sign * (o divisor).sign) := by
    rcases hx.sign_mul hdivisor with h | h <;> rw [h] <;>
      exact BigInteger.assignInt64_eq (by decide) (by decide)
  have hzero : BigInteger.assignInt64 0 = .ofInt 0 :=
    BigInteger.assignInt64_eq (by decide) (by decide)
  unfold divide
  rw [if_neg hne]
  dsimp only
  rw [BigInteger.compare_magnitudes hx hdivisor, hsign, hzero]
  rcases Nat.lt_trichotomy (o x).magnitude (o divisor).magnitude with hlt | heq | hgt
  · right; left
    rw [if_neg (by rw [Int.sign_eq_zero_iff_zero]; omega),
      if_pos (Int.sign_eq_neg_one_of_neg (by omega))]
    exact ⟨hlt, rfl⟩
  · left
    rw [if_pos (by rw [Int.sign_eq_zero_iff_zero]; omega)]
    exact ⟨heq, rfl⟩
  · right; right
    rw [if_neg (by rw [Int.sign_eq_zero_iff_zero]; omega),
      if_neg (by rw [Int.sign_eq_one_of_pos (by omega)]; decide),
      BigInteger.getBitLength_eq hdivisor.mag]
    split
    · rename_i hsize
      have hone := BigInteger.size_eq_one_iff.mp hsize
      exact .inl ⟨hone, by omega, rfl⟩
    · rename_i hsize
      have hone := (not_congr BigInteger.size_eq_one_iff).mp hsize
      right
      split
      · rename_i hlen
        exact .inl ⟨by omega, hgt, hlen, rfl⟩
      · rename_i hlen
        exact .inr ⟨by omega, hgt, by omega, rfl⟩

theorem divide_path (hx : (o x).WellFormed) (hdivisor : (o divisor).WellFormed)
    (hne : (o divisor).mag ≠ []) (hbounds : (o x).InBounds (o divisor)) (hrem : rem ≠ some res)
    (hres : res ≠ divisor ∨ 2 ≤ (o divisor).mag.length) :
    ∃ q r, (o x).Divides (o divisor) q r ∧
      o.divide x divisor res rem = .ok ((o.assign res q).assignRem rem r) := by
  rcases divide_cases res rem hx hdivisor hne with ⟨heq, hdivide⟩ | ⟨hlt, hdivide⟩ |
    ⟨hone, hgt, hdivide⟩ | ⟨hone, hgt, hlen, hdivide⟩ | ⟨hone, hgt, hlen, hdivide⟩
  · exact ⟨_, _, .equal heq, hdivide⟩
  · refine ⟨_, _, .smaller hlt, hdivide.trans ?_⟩
    cases rem with
    | none => rfl
    | some rem =>
      have hcomm : rem ≠ res := fun h => hrem (congrArg some h)
      simp only [assignRem, assign]
      rw [Function.update_comm hcomm]
  · refine ⟨_, _, .unit hone hgt, hdivide.trans ?_⟩
    have hother : (o.assign res (o x) divisor).sign = (o divisor).sign := by
      rcases hres with hres | hlen
      · rw [assign, Function.update_of_ne (Ne.symm hres)]
      · have hle := (hdivisor.mag.lt_length_iff (by decide) 1).mp (by omega)
        change 4294967296 ^ 1 ≤ (o divisor).magnitude at hle
        omega
    have hself : (o.assign res (o x) x).sign = (o x).sign := by
      rw [assign]
      by_cases h : x = res
      · rw [h, Function.update_self]
      · rw [Function.update_of_ne h]
    rw [hother, hself, setSign_assign, hx.withSign]
  · have hlen' := BigInteger.length_le_of_magnitude_le hx hdivisor hgt.le
    exact ⟨_, _, .short hlen (by omega) hone hgt,
      hdivide.trans (divideShort_eq hx hdivisor hlen (by omega) hone hgt (hx.sign_mul hdivisor))⟩
  · have hlen' : 2 ≤ (o divisor).mag.length := by
      rcases hbounds with h | h | h
      · omega
      · exact h
      · omega
    have hle := BigInteger.length_le_of_magnitude_le hx hdivisor hgt.le
    obtain ⟨q, r, hqr, hexact, hinexact⟩ := divideLong_eq res rem
      ((o x).sign * (o divisor).sign) hx.mag hdivisor.mag hlen' hle
    exact ⟨_, _, .long q r hlen' hgt hexact hinexact, hdivide.trans hqr⟩

theorem assign_assignRem {q r : BigInteger} {rem : ι} (hrem : rem ≠ res) :
    (o.assign res q).assignRem (some rem) r res = q ∧
      (o.assign res q).assignRem (some rem) r rem = r := by
  simp only [assignRem, assign]
  rw [Function.update_of_ne hrem.symm, Function.update_self, Function.update_self]
  exact ⟨rfl, rfl⟩

/-- What is said of quotient and remainder is said of those of the path. -/
theorem divide_iff {rem : ι} {P : BigInteger → BigInteger → Prop} {C : Prop}
    (hx : (o x).WellFormed) (hdivisor : (o divisor).WellFormed) (hne : (o divisor).mag ≠ [])
    (hbounds : (o x).InBounds (o divisor)) (hrem : rem ≠ res)
    (hres : res ≠ divisor ∨ 2 ≤ (o divisor).mag.length)
    (h : ∀ q r, (o x).Divides (o divisor) q r → (P q r ↔ C)) :
    Yields (o.divide x divisor res (some rem)) (fun o' => P (o' res) (o' rem)) ↔ C := by
  obtain ⟨q, r, hpath, heq⟩ := divide_path hx hdivisor hne hbounds
    (fun h => hrem (Option.some.inj h)) hres
  obtain ⟨hq, hr⟩ := assign_assignRem (o := o) (q := q) (r := r) hrem
  rw [heq, Yields.ok_iff, hq, hr]
  exact h q r hpath

end Paths

/-- The objects of a division that are not the same. -/
inductive Operand where
  | dividend
  | divisor
  | quotient
  | remainder
  deriving DecidableEq, Repr

def operands (u v quotient : BigInteger) : Objects Operand
  | .dividend => u
  | .divisor => v
  | .quotient => quotient
  | .remainder => .ofInt 0

end Objects

namespace BigInteger

/-- `Divide` without a remainder, into another object. -/
def divide (x divisor res : BigInteger) : Except ArithmeticFault BigInteger :=
  ((Objects.operands x divisor res).divide .dividend .divisor .quotient none).map
    fun o => o .quotient

theorem divide_eq {u v : BigInteger} (hu : u.WellFormed) (hv : v.WellFormed) (hne : v.mag ≠ [])
    (hbounds : u.InBounds v) (res : BigInteger) :
    ∃ q r, Divides u v q r ∧ u.divide v res = .ok q := by
  obtain ⟨q, r, hpath, heq⟩ := @Objects.divide_path _ _ (Objects.operands u v res) .dividend
    .divisor .quotient none hu hv hne hbounds (by simp) (.inl (by decide))
  exact ⟨q, r, hpath, by rw [divide, heq]; rfl⟩

theorem divide_outOfBounds {u v : BigInteger} (hu : u.WellFormed) (hv : v.WellFormed)
    (hne : v.mag ≠ []) (hbounds : ¬ u.InBounds v) (res : BigInteger) :
    u.divide v res = .error .outOfBounds := by
  have hlen := List.length_pos_iff.mpr hne
  rw [InBounds, not_or, not_or] at hbounds
  have hlength : v.magnitude < u.magnitude := by
    by_contra hle
    have := length_le_of_magnitude_le hv hu (Nat.le_of_not_lt hle)
    omega
  have hxne : u.mag ≠ [] := List.ne_nil_of_length_pos (by omega)
  have hpos := magnitude_pos hv hne
  rcases @Objects.divide_cases _ _ (Objects.operands u v res) .dividend .divisor
    .quotient none hu hv hne with ⟨heq, -⟩ | ⟨hlt, -⟩ | ⟨hone, -, -⟩ | ⟨-, -, hshort, -⟩ |
    ⟨-, -, -, hdivide⟩
  · exact absurd heq hlength.ne'
  · exact absurd hlt (Nat.not_lt.mpr hlength.le)
  · exact absurd hone hbounds.2.2
  · exact absurd hshort hbounds.1
  · have hfault : MagArray.longDivision u.mag v.mag res.mag = .error .outOfBounds :=
      MagArray.longDivision_oneLimb hu.mag hxne hv.mag (by omega) res.mag
    rw [divide, hdivide, Objects.divideLong]
    change Except.map _ (MagArray.longDivision u.mag v.mag res.mag >>= _) = _
    rw [hfault]
    rfl

end BigInteger

/-! ## Magnitudes -/

namespace BigInteger

section Magnitudes

variable {u v q r : BigInteger}

/-- Where an estimate matters, that is where the divisor is the smaller number, it is right. -/
def EstimatesExact (u v : BigInteger) : Prop :=
  v.magnitude < u.magnitude → MagArray.EstimatesExact u.mag v.mag

/-- An estimate from the two highest limbs of a divisor that has no others is right. -/
theorem estimatesExact_of_short (hv : v.WellFormed) (hne : v.mag ≠ []) (h : v.mag.length ≤ 2) :
    MagArray.EstimatesExact u.mag v.mag := by
  intro i _
  have hk : v.mag.length - 2 = 0 := by omega
  rw [hk]
  refine LongDivision.exact_zero (by decide) ?_ i
  exact Nat.mul_pos (magnitude_pos hv hne) (Nat.two_pow_pos _)

theorem natAbs_sign_mul {s t : Int} (hs : s = 1 ∨ s = -1) (ht : t = 1 ∨ t = -1) (n : Nat) :
    (s * t * n).natAbs = n := by
  rcases hs with rfl | rfl <;> rcases ht with rfl | rfl <;> simp

theorem magnitude_ofInt (v : Int) : (ofInt v).magnitude = v.natAbs := by
  rw [ofInt, magnitude_signed]

theorem Divides.wellFormed (hu : u.WellFormed) (hv : v.WellFormed) (h : Divides u v q r) :
    q.WellFormed ∧ r.WellFormed := by
  have hsign := hu.sign_mul hv
  cases h with
  | equal => exact ⟨(canonical_ofInt _).toWellFormed, (canonical_ofInt _).toWellFormed⟩
  | smaller => exact ⟨(canonical_ofInt _).toWellFormed, hu⟩
  | unit => exact ⟨wellFormed_signed hsign, (canonical_ofInt _).toWellFormed⟩
  | short => exact ⟨(canonical_ofInt _).toWellFormed, (canonical_ofInt _).toWellFormed⟩
  | long => exact ⟨wellFormed_signed hsign, wellFormed_signed hsign⟩

theorem Divides.magnitudes_iff (hu : u.WellFormed) (hv : v.WellFormed) (hne : v.mag ≠ [])
    (h : Divides u v q r) :
    q.magnitude = u.magnitude / v.magnitude ∧ r.magnitude = u.magnitude % v.magnitude ↔
      EstimatesExact u v := by
  have hpos := magnitude_pos hv hne
  cases h with
  | equal heq =>
    have hsign := natAbs_sign_mul hu.sign hv.sign 1
    rw [Nat.cast_one, mul_one] at hsign
    rw [magnitude_ofInt, magnitude_ofInt, hsign, heq, Nat.div_self hpos, Nat.mod_self]
    exact iff_of_true ⟨rfl, rfl⟩ fun hlt => absurd hlt (by omega)
  | smaller hlt =>
    rw [magnitude_ofInt, Nat.div_eq_of_lt hlt, Nat.mod_eq_of_lt hlt]
    exact iff_of_true ⟨rfl, rfl⟩ fun hgt => absurd hgt (by omega)
  | unit hone hgt =>
    have hlen : v.mag.length ≤ 2 := by
      by_contra hlen
      have hle := (hv.mag.lt_length_iff (by decide) 2).mp (by omega)
      change 4294967296 ^ 2 ≤ v.magnitude at hle
      omega
    rw [magnitude_signed, magnitude_ofInt, hone, Nat.div_one, Nat.mod_one]
    exact iff_of_true ⟨rfl, rfl⟩ fun _ => estimatesExact_of_short hv hne hlen
  | short hlen hlen' hone hgt =>
    rw [magnitude_ofInt, magnitude_ofInt, natAbs_sign_mul hu.sign hv.sign,
      natAbs_sign_mul hu.sign hv.sign]
    exact iff_of_true ⟨rfl, rfl⟩ fun _ => estimatesExact_of_short hv hne hlen'
  | long q r hlen hgt hexact hinexact =>
    rw [magnitude_signed, magnitude_signed]
    constructor
    · rintro ⟨hq, -⟩ -
      by_contra hnot
      have hlt := hinexact hnot
      omega
    · intro hestimates
      exact hexact (hestimates hgt)

end Magnitudes

end BigInteger

namespace Objects

variable {ι : Type} [DecidableEq ι]

/-- The magnitudes of quotient and remainder are right if and only if no digit of the quotient is
estimated too large. Any objects but the two results can be the same. -/
theorem divide_magnitudes_iff (o : Objects ι) (x divisor res rem : ι) (hx : (o x).WellFormed)
    (hdivisor : (o divisor).WellFormed) (hlen : 2 ≤ (o divisor).mag.length) (hrem : rem ≠ res) :
    (Yields (o.divide x divisor res (some rem)) fun o' =>
      (o' res).magnitude = (o x).magnitude / (o divisor).magnitude ∧
        (o' rem).magnitude = (o x).magnitude % (o divisor).magnitude) ↔
      (o x).EstimatesExact (o divisor) := by
  have hne : (o divisor).mag ≠ [] := List.ne_nil_of_length_pos (by omega)
  exact divide_iff (P := fun q r => q.magnitude = _ ∧ r.magnitude = _) hx hdivisor hne
    (.inr (.inl hlen)) hrem (.inr hlen) fun q r h => h.magnitudes_iff hx hdivisor hne

/-- The quotient of 2^95 + 3 and 2^93 + 1 is 3, and 4 is computed. -/
theorem divide_magnitudes_counterexample :
    (⟨1, [3, 0, 2147483648]⟩ : BigInteger).WellFormed ∧
    (⟨1, [1, 0, 536870912]⟩ : BigInteger).WellFormed ∧
    ¬ Yields ((operands ⟨1, [3, 0, 2147483648]⟩ ⟨1, [1, 0, 536870912]⟩ (.ofInt 0)).divide
      .dividend .divisor .quotient (some .remainder)) fun o =>
        (o .quotient).magnitude = (⟨1, [3, 0, 2147483648]⟩ : BigInteger).magnitude /
          (⟨1, [1, 0, 536870912]⟩ : BigInteger).magnitude ∧
        (o .remainder).magnitude = (⟨1, [3, 0, 2147483648]⟩ : BigInteger).magnitude %
          (⟨1, [1, 0, 536870912]⟩ : BigInteger).magnitude := by
  have hrun : ((operands ⟨1, [3, 0, 2147483648]⟩ ⟨1, [1, 0, 536870912]⟩ (.ofInt 0)).divide
      .dividend .divisor .quotient (some .remainder)).map (fun o => (o .quotient).magnitude) =
        .ok 4 := by
    decide +kernel
  refine ⟨⟨.inl rfl, ⟨by simp, by simp⟩⟩, ⟨.inl rfl, ⟨by simp, by simp⟩⟩, ?_⟩
  rintro ⟨o, ho, hq, -⟩
  rw [ho, Except.map, Except.ok.injEq, hq] at hrun
  revert hrun
  decide +kernel

/-- 10^30 by -10^19 - 1, where the quotient overwrites the dividend. -/
theorem divide_magnitudes_example :
    Yields ((operands (.ofInt (10 ^ 30)) (.ofInt (-10 ^ 19 - 1)) (.ofInt 0)).divide .dividend
      .divisor .dividend (some .remainder)) fun o =>
        (o .dividend).magnitude = 99999999999 ∧ (o .remainder).magnitude = 9999999900000000001 := by
  have hiff := divide_magnitudes_iff
    (operands (.ofInt (10 ^ 30)) (.ofInt (-10 ^ 19 - 1)) (.ofInt 0))
    .dividend .divisor .dividend .remainder (BigInteger.canonical_ofInt _).toWellFormed
    (BigInteger.canonical_ofInt _).toWellFormed (by decide +kernel) (by decide)
  refine (hiff.mpr fun _ => ?_).mono fun o h =>
    ⟨h.1.trans (by decide +kernel), h.2.trans (by decide +kernel)⟩
  exact BigInteger.estimatesExact_of_short (BigInteger.canonical_ofInt _).toWellFormed
    (by decide +kernel) (by decide +kernel)

/-! ## Bounds -/

/-- An array is read outside its bounds if and only if a dividend of three limbs or more is divided
by a divisor of one limb that is not one. -/
theorem divide_inBounds_iff (o : Objects ι) (x divisor res : ι) (rem : Option ι)
    (hx : (o x).WellFormed) (hdivisor : (o divisor).WellFormed) (hne : (o divisor).mag ≠ []) :
    o.divide x divisor res rem ≠ .error .outOfBounds ↔
      (o x).mag.length ≤ 2 ∨ 2 ≤ (o divisor).mag.length ∨ (o divisor).magnitude = 1 := by
  have hlen := List.length_pos_iff.mpr hne
  rcases divide_cases res rem hx hdivisor hne with ⟨heq, hdivide⟩ | ⟨hlt, hdivide⟩ |
    ⟨hone, hgt, hdivide⟩ | ⟨hone, hgt, hshort, hdivide⟩ | ⟨hone, hgt, hlong, hdivide⟩
  · have hle := BigInteger.length_le_of_magnitude_le hdivisor hx heq.le
    rw [hdivide]
    exact iff_of_true (by simp) (by omega)
  · have hle := BigInteger.length_le_of_magnitude_le hdivisor hx hlt.le
    rw [hdivide]
    exact iff_of_true (by simp) (by omega)
  · rw [hdivide]
    exact iff_of_true (by simp) (.inr (.inr hone))
  · have hle := BigInteger.length_le_of_magnitude_le hx hdivisor hgt.le
    rw [hdivide, divideShort_eq hx hdivisor hshort (by omega) hone hgt (hx.sign_mul hdivisor)]
    exact iff_of_true (by simp) (.inl hshort)
  · have hle := BigInteger.length_le_of_magnitude_le hx hdivisor hgt.le
    rw [hdivide]
    rcases Nat.lt_or_ge 1 (o divisor).mag.length with htwo | hone'
    · obtain ⟨q, r, hqr, -⟩ := divideLong_eq res rem
        ((o x).sign * (o divisor).sign) hx.mag hdivisor.mag htwo hle
      rw [hqr]
      exact iff_of_true (by simp) (.inr (.inl htwo))
    · have hxne : (o x).mag ≠ [] := List.ne_nil_of_length_pos (by omega)
      rw [divideLong, MagArray.longDivision_oneLimb hx.mag hxne hdivisor.mag (by omega)]
      refine iff_of_false (fun h => h rfl) (by omega)

/-- 2^64 by 10. -/
theorem divide_inBounds_counterexample :
    (⟨1, [0, 0, 1]⟩ : BigInteger).WellFormed ∧ (⟨1, [10]⟩ : BigInteger).WellFormed ∧
    (operands ⟨1, [0, 0, 1]⟩ ⟨1, [10]⟩ (.ofInt 0)).divide .dividend .divisor .quotient none =
      .error .outOfBounds := by
  refine ⟨⟨.inl rfl, ⟨by simp, by simp⟩⟩, ⟨.inl rfl, ⟨by simp, by simp⟩⟩, ?_⟩
  have hrun : ((operands ⟨1, [0, 0, 1]⟩ ⟨1, [10]⟩ (.ofInt 0)).divide .dividend .divisor .quotient
      none).map (fun o => (o .quotient).magnitude) = .error .outOfBounds := by decide +kernel
  cases h : (operands ⟨1, [0, 0, 1]⟩ ⟨1, [10]⟩ (.ofInt 0)).divide .dividend .divisor .quotient
    none with
  | error fault =>
    rw [h] at hrun
    exact congrArg Except.error (Except.error.inj hrun)
  | ok o =>
    rw [h] at hrun
    cases hrun

/-- 2^64 by 10^10, which has two limbs. -/
theorem divide_inBounds_example :
    (operands ⟨1, [0, 0, 1]⟩ (.ofInt (10 ^ 10)) (.ofInt 0)).divide .dividend .divisor .quotient
      none ≠ .error .outOfBounds :=
  (divide_inBounds_iff (operands ⟨1, [0, 0, 1]⟩ (.ofInt (10 ^ 10)) (.ofInt 0)) .dividend .divisor
    .quotient none ⟨.inl rfl, ⟨by simp [operands], by simp [operands]⟩⟩
    (BigInteger.canonical_ofInt _).toWellFormed (by decide +kernel)).mpr
    (.inr (.inl (by decide +kernel)))

end Objects

/-! ## Signed numbers -/

namespace BigInteger

/-- The identity of a division that truncates toward zero. -/
def IsDivision (u v q r : Int) : Prop :=
  u = q * v + r ∧ r.natAbs < v.natAbs ∧ (r = 0 ∨ r.sign = u.sign)

theorem isDivision_iff {u v q r : Int} (hv : v ≠ 0) :
    IsDivision u v q r ↔ q = u.tdiv v ∧ r = u.tmod v := by
  constructor
  · rintro ⟨heq, hlt, hsign⟩
    have hsplit : r + v * q = u := by
      rw [heq]
      ring
    rcases Int.le_total 0 u with hu | hu
    · have hr : 0 ≤ r := by
        rcases hsign with rfl | hsign
        · exact Int.le_refl 0
        · exact Int.sign_nonneg_iff.mp (hsign ▸ Int.sign_nonneg_iff.mpr hu)
      have h := (Int.tdiv_tmod_unique hu hv).mpr ⟨hsplit, hr, by omega⟩
      exact ⟨h.1.symm, h.2.symm⟩
    · have hr : r ≤ 0 := by
        rcases hsign with rfl | hsign
        · exact Int.le_refl 0
        · exact Int.sign_nonpos_iff.mp (hsign ▸ Int.sign_nonpos_iff.mpr hu)
      have h := (Int.tdiv_tmod_unique' hu hv).mpr ⟨hsplit, by omega, hr⟩
      exact ⟨h.1.symm, h.2.symm⟩
  · rintro ⟨rfl, rfl⟩
    refine ⟨?_, ?_, ?_⟩
    · have hsplit := Int.tmod_add_mul_tdiv u v
      rw [Int.mul_comm] at hsplit
      omega
    · rw [Int.natAbs_tmod]
      exact Nat.mod_lt _ (by omega)
    · rw [Int.sign_tmod]
      split
      · rename_i hdvd
        exact .inl (Int.tmod_eq_zero_of_dvd hdvd)
      · exact .inr rfl

/-- The condition under which the sign of the remainder is right. -/
def RemainderSigned (u v : BigInteger) : Prop :=
  0 < v.value ∨ v.value ∣ u.value ∨ u.value.natAbs < v.value.natAbs

section SignedDivision

variable {u v q r : BigInteger} {s t : Int} {n m : Nat}

theorem tdiv_signed (hs : s = 1 ∨ s = -1) (ht : t = 1 ∨ t = -1) (n m : Nat) :
    (s * n).tdiv (t * m) = s * t * (n / m : Nat) := by
  rcases hs with rfl | rfl <;> rcases ht with rfl | rfl <;>
    simp only [one_mul, neg_mul, mul_neg, mul_one, neg_neg, Int.neg_tdiv, Int.tdiv_neg,
      Int.ofNat_tdiv]

theorem tmod_signed (hs : s = 1 ∨ s = -1) (ht : t = 1 ∨ t = -1) (n m : Nat) :
    (s * n).tmod (t * m) = s * (n % m : Nat) := by
  rcases hs with rfl | rfl <;> rcases ht with rfl | rfl <;>
    simp only [one_mul, neg_mul, Int.neg_tmod, Int.tmod_neg, Int.ofNat_tmod]

/-- The sign of both operands for that of the dividend alone. -/
theorem sign_mul_eq_iff (hs : s = 1 ∨ s = -1) (ht : t = 1 ∨ t = -1) (n : Nat) :
    s * t * (n : Int) = s * n ↔ t = 1 ∨ n = 0 := by
  rcases hs with rfl | rfl <;> rcases ht with rfl | rfl <;> omega

theorem remainderSigned_iff (hu : u.WellFormed) (hv : v.WellFormed) (hpos : 0 < v.magnitude)
    (hle : v.magnitude ≤ u.magnitude) :
    RemainderSigned u v ↔ v.sign = 1 ∨ u.magnitude % v.magnitude = 0 := by
  have hdvd : v.value ∣ u.value ↔ u.magnitude % v.magnitude = 0 := by
    rw [← Int.natAbs_dvd_natAbs, natAbs_value hu, natAbs_value hv, Nat.dvd_iff_mod_eq_zero]
  have hsign : 0 < v.value ↔ v.sign = 1 := by
    rw [value]
    rcases hv.sign with h | h <;> rw [h] <;> omega
  rw [RemainderSigned, hdvd, hsign, natAbs_value hu, natAbs_value hv]
  omega

/-- The quotient alone. -/
theorem Divides.quotient_iff (hu : u.WellFormed) (hv : v.WellFormed) (hne : v.mag ≠ [])
    (h : Divides u v q r) : q.value = u.value.tdiv v.value ↔ EstimatesExact u v := by
  have hpos := magnitude_pos hv hne
  have hq : u.value.tdiv v.value = u.sign * v.sign * (u.magnitude / v.magnitude : Nat) :=
    tdiv_signed hu.sign hv.sign u.magnitude v.magnitude
  have hmagnitudes := h.magnitudes_iff hu hv hne
  rw [hq]
  cases h with
  | equal heq =>
    rw [value_ofInt, heq, Nat.div_self hpos, Nat.cast_one, mul_one]
    exact iff_of_true rfl fun hlt => absurd hlt (by omega)
  | smaller hlt =>
    rw [value_ofInt, Nat.div_eq_of_lt hlt, Nat.cast_zero, mul_zero]
    exact iff_of_true rfl fun hgt => absurd hgt (by omega)
  | unit hone hgt =>
    rw [magnitude_signed, magnitude_ofInt, hone, Nat.div_one, Nat.mod_one] at hmagnitudes
    rw [value_signed, hone, Nat.div_one]
    exact iff_of_true rfl (hmagnitudes.mp ⟨rfl, rfl⟩)
  | short hlen hlen' hone hgt =>
    rw [value_ofInt]
    exact iff_of_true rfl fun _ => estimatesExact_of_short hv hne hlen'
  | long q r hlen hgt hexact hinexact =>
    rw [value_signed]
    constructor
    · intro hquotient _
      have habs := congrArg Int.natAbs hquotient
      rw [natAbs_sign_mul hu.sign hv.sign, natAbs_sign_mul hu.sign hv.sign] at habs
      by_contra hnot
      have hlt := hinexact hnot
      omega
    · intro hestimates
      rw [(hexact (hestimates hgt)).1]

theorem Divides.signed_iff (hu : u.WellFormed) (hv : v.WellFormed) (hne : v.mag ≠ [])
    (h : Divides u v q r) :
    IsDivision u.value v.value q.value r.value ↔ EstimatesExact u v ∧ RemainderSigned u v := by
  have hpos := magnitude_pos hv hne
  have hzero : v.value ≠ 0 := by
    have habs := natAbs_value hv
    omega
  have hq : u.value.tdiv v.value = u.sign * v.sign * (u.magnitude / v.magnitude : Nat) :=
    tdiv_signed hu.sign hv.sign u.magnitude v.magnitude
  have hr : u.value.tmod v.value = u.sign * (u.magnitude % v.magnitude : Nat) :=
    tmod_signed hu.sign hv.sign u.magnitude v.magnitude
  rw [isDivision_iff hzero, ← h.magnitudes_iff hu hv hne, hq, hr]
  cases h with
  | equal heq =>
    have hsign := natAbs_sign_mul hu.sign hv.sign 1
    rw [Nat.cast_one, mul_one] at hsign
    rw [value_ofInt, value_ofInt, magnitude_ofInt, magnitude_ofInt, hsign, heq, Nat.div_self hpos,
      Nat.mod_self, Nat.cast_one, mul_one, Nat.cast_zero, mul_zero]
    refine iff_of_true ⟨rfl, rfl⟩ ⟨⟨rfl, rfl⟩, ?_⟩
    rw [remainderSigned_iff hu hv hpos heq.ge, heq, Nat.mod_self]
    exact .inr rfl
  | smaller hlt =>
    rw [value_ofInt, magnitude_ofInt, Nat.div_eq_of_lt hlt, Nat.mod_eq_of_lt hlt, Nat.cast_zero,
      mul_zero]
    refine iff_of_true ⟨rfl, rfl⟩ ⟨⟨rfl, rfl⟩, .inr (.inr ?_)⟩
    rw [natAbs_value hu, natAbs_value hv]
    exact hlt
  | unit hone hgt =>
    rw [value_signed, value_ofInt, magnitude_signed, magnitude_ofInt, hone, Nat.div_one, Nat.mod_one,
      Nat.cast_zero, mul_zero]
    refine iff_of_true ⟨rfl, rfl⟩ ⟨⟨rfl, rfl⟩, ?_⟩
    rw [remainderSigned_iff hu hv hpos (by omega), hone, Nat.mod_one]
    exact .inr rfl
  | short hlen hlen' hone hgt =>
    rw [value_ofInt, value_ofInt, magnitude_ofInt, magnitude_ofInt, natAbs_sign_mul hu.sign hv.sign,
      natAbs_sign_mul hu.sign hv.sign, sign_mul_eq_iff hu.sign hv.sign,
      remainderSigned_iff hu hv hpos hgt.le]
    simp only [true_and, and_self]
  | long q r hlen hgt hexact hinexact =>
    rw [value_signed, value_signed, magnitude_signed, magnitude_signed,
      remainderSigned_iff hu hv hpos hgt.le, ← sign_mul_eq_iff hu.sign hv.sign]
    constructor
    · rintro ⟨hquotient, hremainder⟩
      have hq := congrArg Int.natAbs hquotient
      rw [natAbs_sign_mul hu.sign hv.sign, natAbs_sign_mul hu.sign hv.sign] at hq
      have hr := congrArg Int.natAbs hremainder
      have habs := natAbs_sign_mul hu.sign (.inl rfl) (u.magnitude % v.magnitude)
      rw [mul_one] at habs
      rw [natAbs_sign_mul hu.sign hv.sign, habs] at hr
      rw [hr] at hremainder
      exact ⟨⟨hq, hr⟩, hremainder⟩
    · rintro ⟨⟨rfl, rfl⟩, hremainder⟩
      exact ⟨rfl, hremainder⟩

end SignedDivision

end BigInteger

namespace Objects

variable {ι : Type} [DecidableEq ι]

/-- Along each path quotient and remainder are those of a division of signed numbers, if and only if
every estimate is right and the sign of the remainder does not suffer from that of the divisor. -/
theorem divide_signed_iff (o : Objects ι) (x divisor res rem : ι) (hx : (o x).WellFormed)
    (hdivisor : (o divisor).WellFormed) (hne : (o divisor).mag ≠ [])
    (hbounds : (o x).InBounds (o divisor)) (hrem : rem ≠ res) (hres : res ≠ divisor) :
    (Yields (o.divide x divisor res (some rem)) fun o' =>
      BigInteger.IsDivision (o x).value (o divisor).value (o' res).value (o' rem).value) ↔
      (o x).EstimatesExact (o divisor) ∧ (o x).RemainderSigned (o divisor) :=
  divide_iff (P := fun q r => BigInteger.IsDivision _ _ q.value r.value) hx hdivisor hne hbounds hrem
    (.inl hres) fun _ _ h => h.signed_iff hx hdivisor hne

/-- The remainder of 7 and -2 is -1 instead of 1. -/
theorem divide_signed_counterexample :
    ¬ Yields ((operands (.ofInt 7) (.ofInt (-2)) (.ofInt 0)).divide .dividend .divisor .quotient
      (some .remainder)) fun o =>
        BigInteger.IsDivision 7 (-2) (o .quotient).value (o .remainder).value := by
  have hrun : ((operands (.ofInt 7) (.ofInt (-2)) (.ofInt 0)).divide .dividend .divisor .quotient
      (some .remainder)).map (fun o => (o .quotient).value * 10 + (o .remainder).value) =
        .ok (-31) := by decide +kernel
  rintro ⟨o, ho, hsplit, hlt, hsign⟩
  rw [ho, Except.map, Except.ok.injEq] at hrun
  omega

/-- -10^30 by 10^19 + 1. -/
theorem divide_signed_example :
    Yields ((operands (.ofInt (-10 ^ 30)) (.ofInt (10 ^ 19 + 1)) (.ofInt 0)).divide .dividend
      .divisor .quotient (some .remainder)) fun o =>
        BigInteger.IsDivision (-10 ^ 30) (10 ^ 19 + 1) (o .quotient).value (o .remainder).value := by
  have hiff := divide_signed_iff
    (operands (.ofInt (-10 ^ 30)) (.ofInt (10 ^ 19 + 1)) (.ofInt 0))
    .dividend .divisor .quotient .remainder (BigInteger.canonical_ofInt _).toWellFormed
    (BigInteger.canonical_ofInt _).toWellFormed (by decide +kernel) (.inr (.inl (by decide +kernel)))
    (by decide) (by decide)
  simp only [operands, BigInteger.value_ofInt] at hiff
  refine hiff.mpr ⟨fun _ => ?_, .inl ?_⟩
  · exact BigInteger.estimatesExact_of_short (BigInteger.canonical_ofInt _).toWellFormed
      (by decide +kernel) (by decide +kernel)
  · rw [BigInteger.value_ofInt]
    decide

end Objects

end TrinoOdbc
