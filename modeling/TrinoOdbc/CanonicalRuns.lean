import TrinoOdbc.Addition
import TrinoOdbc.Decimals
import TrinoOdbc.Lts

/-!
# TrinoOdbc.CanonicalRuns

Programs over `BigInteger` objects, as runs of single operations. Two of them can leave a zero with
a negative sign, which `Compare` takes for another number than zero.

* `step_canonical` — every other operation, and these two for most arguments, keep all numbers
  canonical.
* `canonical_run` — the runs of such steps.
-/

namespace TrinoOdbc

open ByteMemory Loops Lts

namespace BigInteger

section Canonical

variable {x y : BigInteger} {s : Int} {n m : Nat}

theorem canonical_signed (hs : s = 1 ∨ s = -1) (hzero : n = 0 → s = 1) :
    (signed s n).Canonical where
  toWellFormed := wellFormed_signed hs
  zero h := hzero (magnitude_signed.symm.trans h)

theorem canonical_multiply (hx : x.Canonical) (hy : y.Canonical)
    (hkeeps : x.value * y.value ≠ 0 ∨ x.sign = y.sign) : Yields (x.multiply y) Canonical := by
  rw [hx.eq_signed, hy.eq_signed, multiply_signed]
  refine .ok (canonical_signed (hx.sign_mul hy.toWellFormed) fun hzero => ?_)
  rcases hkeeps with hne | hsign
  · refine absurd ?_ hne
    rw [value, value, mul_mul_mul_comm, ← Nat.cast_mul, hzero, Nat.cast_zero, mul_zero]
  · rw [hsign]
    rcases hy.sign with h | h <;> rw [h] <;> rfl

theorem canonical_add (hx : x.Canonical) (hm : m < 18446744073709551616) :
    Yields (x.add m) Canonical := by
  rw [hx.eq_signed, add_signed hm]
  refine .ok ?_
  split
  · exact canonical_signed hx.sign hx.zero
  · split
    · exact canonical_signed (.inl rfl) fun _ => rfl
    · rename_i hne
      exact canonical_signed hx.sign fun hzero => absurd hzero (by omega)

theorem canonical_pow (hx : x.Canonical) (exp : Int) : Yields (x.pow exp) Canonical := by
  rcases Int.lt_or_le exp 0 with hneg | hnonneg
  · rw [pow, if_pos hneg, assignInt64_eq (by decide) (by decide)]
    exact .ok (canonical_ofInt 0)
  · obtain ⟨e, rfl⟩ := Int.eq_ofNat_of_zero_le hnonneg
    rw [hx.eq_signed, pow_signed hx.sign]
    refine .ok ?_
    split
    · rename_i hzero
      exact canonical_signed hx.sign fun _ => hx.zero hzero
    · rename_i hne
      refine canonical_signed ?_ fun hzero => absurd hzero (pow_ne_zero e hne)
      rcases hx.sign with h | h <;> rw [h]
      · exact .inl (one_pow e)
      · exact neg_one_pow_eq_or Int e

theorem canonical_negate (hx : x.Canonical) : x.negate.Canonical := by
  unfold negate
  split
  · exact hx
  · rename_i hne
    rw [hx.isZero_eq, decide_eq_true_eq] at hne
    rw [hx.withSign]
    refine canonical_signed ?_ fun hzero => absurd hzero hne
    rcases hx.sign with h | h <;> rw [h] <;> decide

theorem canonical_ofBytes (val : List UInt8) (hs : s = 1 ∨ s = -1) (bigEndian : Bool) :
    (ofBytes val s bigEndian).Canonical := by
  have hlittle (val : List UInt8) : (ofBytes val s false).Canonical := by
    rw [ofBytes_eq_signed]
    split
    · exact canonical_signed (.inl rfl) fun _ => rfl
    · rename_i hne
      exact canonical_signed hs fun hzero => absurd hzero hne
  cases bigEndian with
  | false => exact hlittle val
  | true => exact hlittle val.reverse

/-- Canonical numbers are compared as the integers they are. -/
theorem compare_eq_zero_iff (hx : x.Canonical) (hy : y.Canonical) :
    x.compare y false = 0 ↔ x.value = y.value := by
  conv_lhs => rw [hx.eq_ofInt, hy.eq_ofInt, compare_ofInt, Int.sign_eq_zero_iff_zero]
  exact Int.sub_eq_zero

end Canonical

end BigInteger

/-! ## Operations -/

namespace Objects

variable {ι : Type} [DecidableEq ι]

/-- An operation, with the objects it is for. -/
inductive Operation (ι : Type) where
  | assignInt64 (x : ι) (val : Int)
  | assignUint64 (x : ι) (val : Nat)
  | ofBytes (x : ι) (val : List UInt8) (sign : Int) (bigEndian : Bool)
  | multiply (x other res : ι)
  | divide (x divisor res : ι) (rem : Option ι)
  | add (x : ι) (n : Nat)
  | pow (x : ι) (exp : Int)
  | negate (x : ι)

namespace Operation

/-- The numbers fit their types, and the sign of a byte array is 1 or -1. -/
def Admissible : Operation ι → Prop
  | assignInt64 _ val => -9223372036854775808 ≤ val ∧ val < 9223372036854775808
  | assignUint64 _ val => val < 18446744073709551616
  | ofBytes _ _ sign _ => sign = 1 ∨ sign = -1
  | add _ n => n < 18446744073709551616
  | pow _ exp => -2147483648 ≤ exp ∧ exp < 2147483648
  | _ => True

def run (o : Objects ι) : Operation ι → Except ArithmeticFault (Objects ι)
  | assignInt64 x val => .ok (o.assign x (.assignInt64 val))
  | assignUint64 x val => .ok (o.assign x (.assignUint64 val))
  | ofBytes x val sign bigEndian => .ok (o.assign x (.ofBytes val sign bigEndian))
  | multiply x other res => o.multiply x other res
  | divide x divisor res rem => o.divide x divisor res rem
  | add x n => ((o x).add n).map (o.assign x)
  | pow x exp => ((o x).pow exp).map (o.assign x)
  | negate x => .ok (o.assign x (o x).negate)

/-- No zero gets a negative sign: a product is not zero or its factors have the same sign; and a
long division either gives no remainder, or it is of numbers with the same sign, or its estimates
are right and leave a remainder other than zero. -/
def Keeps (o : Objects ι) : Operation ι → Prop
  | multiply x other _ => (o x).value * (o other).value ≠ 0 ∨ (o x).sign = (o other).sign
  | divide x divisor _ rem =>
    rem = none ∨ (o x).sign = (o divisor).sign ∨ (o x).mag.length ≤ 2 ∨
      (o x).magnitude ≤ (o divisor).magnitude ∨ (o divisor).magnitude = 1 ∨
      MagArray.EstimatesExact (o x).mag (o divisor).mag ∧
        ¬ (o divisor).magnitude ∣ (o x).magnitude
  | _ => True

end Operation

/-- One operation that ends, with all accesses inside their arrays. -/
def Step (o : Objects ι) (op : Operation ι) (o' : Objects ι) : Prop :=
  op.Admissible ∧ op.run o = .ok o'

/-- No zero limb is at the top of a magnitude, and zero is positive. -/
def AllCanonical (o : Objects ι) : Prop := ∀ k, (o k).Canonical

section Steps

variable {o o' : Objects ι} {op : Operation ι} {x divisor res : ι} {rem : Option ι}
  {y q r : BigInteger}

theorem AllCanonical.assign (ho : o.AllCanonical) (hy : y.Canonical) :
    (o.assign res y).AllCanonical := by
  intro k
  unfold Objects.assign
  by_cases h : k = res
  · rw [h, Function.update_self]
    exact hy
  · rw [Function.update_of_ne h]
    exact ho k

theorem AllCanonical.assignRem (ho : o.AllCanonical) (hy : rem ≠ none → y.Canonical) :
    (o.assignRem rem y).AllCanonical := by
  cases rem with
  | none => exact ho
  | some rem => exact ho.assign (hy (Option.some_ne_none rem))

theorem AllCanonical.of_map {f : Except ArithmeticFault BigInteger} (ho : o.AllCanonical)
    (hf : Yields f BigInteger.Canonical) (h : f.map (o.assign res) = .ok o') : o'.AllCanonical := by
  obtain ⟨y, rfl, hy⟩ := hf
  obtain rfl := Except.ok.inj h
  exact ho.assign hy

/-- The long path. Its remainder can be a zero with a negative sign. -/
theorem AllCanonical.divideLong (ho : o.AllCanonical)
    (hkeeps : (Operation.divide x divisor res rem).Keeps o) (hne : (o divisor).mag ≠ [])
    (hone : 1 < (o divisor).magnitude) (hgt : (o divisor).magnitude < (o x).magnitude)
    (hlong : 2 < (o x).mag.length)
    (h : o.divideLong x divisor res rem ((o x).sign * (o divisor).sign) = .ok o') :
    o'.AllCanonical := by
  have hx := (ho x).toWellFormed
  have hdivisor := (ho divisor).toWellFormed
  have hle := BigInteger.length_le_of_magnitude_le hx hdivisor hgt.le
  have hlen := List.length_pos_iff.mpr hne
  rcases Nat.lt_or_ge 1 (o divisor).mag.length with htwo | honeLimb
  · obtain ⟨q, r, hqr, hexact, hinexact⟩ := divideLong_eq res rem
      ((o x).sign * (o divisor).sign) hx.mag hdivisor.mag htwo hle
    have hquotient : 0 < (o x).magnitude / (o divisor).magnitude := Nat.div_pos hgt.le (by omega)
    have hq : q ≠ 0 := by
      by_cases hestimates : MagArray.EstimatesExact (o x).mag (o divisor).mag
      · rw [(hexact hestimates).1]
        omega
      · have hlarge := hinexact hestimates
        omega
    obtain rfl := Except.ok.inj (hqr.symm.trans h)
    have hsign := hx.sign_mul hdivisor
    refine (ho.assign (BigInteger.canonical_signed hsign fun hnull => absurd hnull hq)).assignRem
      fun hrem => BigInteger.canonical_signed hsign fun hnull => ?_
    rcases hkeeps with hnone | hsame | hshort | hle' | hone' | ⟨hestimates, hdvd⟩
    · exact absurd hnone hrem
    · rw [hsame]
      rcases hdivisor.sign with hs | hs <;> rw [hs] <;> rfl
    · omega
    · omega
    · omega
    · rw [(hexact hestimates).2] at hnull
      exact absurd (Nat.dvd_of_mod_eq_zero hnull) hdvd
  · have hxne : (o x).mag ≠ [] := List.ne_nil_of_length_pos (by omega)
    rw [Objects.divideLong, MagArray.longDivision_oneLimb hx.mag hxne hdivisor.mag (by omega)] at h
    cases h

/-- Each path of a division, whichever objects are the same. -/
theorem AllCanonical.divide (ho : o.AllCanonical)
    (hkeeps : (Operation.divide x divisor res rem).Keeps o)
    (h : o.divide x divisor res rem = .ok o') : o'.AllCanonical := by
  have hx := (ho x).toWellFormed
  have hdivisor := (ho divisor).toWellFormed
  have hzero := BigInteger.canonical_ofInt 0
  by_cases hne : (o divisor).mag = []
  · rw [Objects.divide, if_pos hne] at h
    cases h
  · rcases divide_cases res rem hx hdivisor hne with ⟨-, hdivide⟩ | ⟨-, hdivide⟩ |
      ⟨-, hgt, hdivide⟩ | ⟨hone, hgt, hshort, hdivide⟩ | ⟨hone, hgt, hlong, hdivide⟩
    · obtain rfl := Except.ok.inj (hdivide.symm.trans h)
      exact (ho.assign (BigInteger.canonical_ofInt _)).assignRem fun _ => hzero
    · obtain rfl := Except.ok.inj (hdivide.symm.trans h)
      exact (ho.assignRem fun _ => ho x).assign hzero
    · obtain rfl := Except.ok.inj (hdivide.symm.trans h)
      have hcopy : (o.assign res (o x)).AllCanonical := ho.assign (ho x)
      have hsign := (hcopy x).sign_mul (hcopy divisor).toWellFormed
      generalize (o.assign res (o x) x).sign * (o.assign res (o x) divisor).sign = sign at *
      rw [setSign_assign, hx.withSign]
      refine (ho.assign ?_).assignRem fun _ => hzero
      exact BigInteger.canonical_signed hsign fun hnull => absurd hnull (by omega)
    · have hlen := BigInteger.length_le_of_magnitude_le hx hdivisor hgt.le
      rw [hdivide, divideShort_eq hx hdivisor hshort (by omega) hone hgt
        (hx.sign_mul hdivisor)] at h
      obtain rfl := Except.ok.inj h
      exact (ho.assign (BigInteger.canonical_ofInt _)).assignRem fun _ =>
        BigInteger.canonical_ofInt _
    · exact ho.divideLong hkeeps hne hone hgt hlong (hdivide.symm.trans h)

theorem step_canonical (ho : o.AllCanonical) (hstep : Step o op o') (hkeeps : op.Keeps o) :
    o'.AllCanonical := by
  obtain ⟨hadmissible, hrun⟩ := hstep
  cases op with
  | assignInt64 x val =>
    obtain rfl := Except.ok.inj hrun
    rw [BigInteger.assignInt64_eq hadmissible.1 hadmissible.2]
    exact ho.assign (BigInteger.canonical_ofInt val)
  | assignUint64 x val =>
    obtain rfl := Except.ok.inj hrun
    rw [BigInteger.assignUint64_eq hadmissible]
    exact ho.assign (BigInteger.canonical_signed (.inl rfl) fun _ => rfl)
  | ofBytes x val sign bigEndian =>
    obtain rfl := Except.ok.inj hrun
    exact ho.assign (BigInteger.canonical_ofBytes val hadmissible bigEndian)
  | multiply x other res =>
    exact ho.of_map (BigInteger.canonical_multiply (ho x) (ho other) hkeeps)
      ((multiply_eq o x other res).symm.trans hrun)
  | divide x divisor res rem => exact ho.divide hkeeps hrun
  | add x n => exact ho.of_map (BigInteger.canonical_add (ho x) hadmissible) hrun
  | pow x exp => exact ho.of_map (BigInteger.canonical_pow (ho x) exp) hrun
  | negate x =>
    obtain rfl := Except.ok.inj hrun
    exact ho.assign (BigInteger.canonical_negate (ho x))

/-- Every run of such steps keeps all numbers canonical, so that two of them are compared as equal
exactly if they are the same integer. -/
theorem canonical_run (ι : Type) [DecidableEq ι] (o o' : Objects ι) (ops : List (Operation ι))
    (ho : o.AllCanonical) (h : Steps (Restrict Step fun o op _ => op.Keeps o) o ops o') :
    o'.AllCanonical ∧ ∀ x y, (o' x).compare (o' y) false = 0 ↔ (o' x).value = (o' y).value := by
  have hcanonical : o'.AllCanonical := by
    refine h.invariant ?_ ho
    intro o op o' ho hstep
    exact step_canonical ho hstep.1 hstep.2
  exact ⟨hcanonical, fun x y => BigInteger.compare_eq_zero_iff (hcanonical x) (hcanonical y)⟩

theorem allCanonical_operands (u v quotient : Int) :
    (operands (.ofInt u) (.ofInt v) (.ofInt quotient)).AllCanonical := by
  intro k
  cases k <;> exact BigInteger.canonical_ofInt _

/-- Zero times -1, and the remainder of -2^64 and 2^32. -/
theorem canonical_run_counterexample :
    (operands (.ofInt 0) (.ofInt (-1)) (.ofInt 0)).AllCanonical ∧
      (∃ o', Steps Step (operands (.ofInt 0) (.ofInt (-1)) (.ofInt 0))
          [.multiply .dividend .divisor .quotient] o' ∧ ¬ o'.AllCanonical ∧
        (o' .quotient).value = (o' .dividend).value ∧
        (o' .quotient).compare (o' .dividend) false ≠ 0) ∧
      (operands (.ofInt (-18446744073709551616)) (.ofInt 4294967296) (.ofInt 0)).AllCanonical ∧
      ∃ o', Steps Step (operands (.ofInt (-18446744073709551616)) (.ofInt 4294967296) (.ofInt 0))
          [.divide .dividend .divisor .quotient (some .remainder)] o' ∧ ¬ o'.AllCanonical := by
  refine ⟨allCanonical_operands 0 (-1) 0, ?_, allCanonical_operands _ _ 0, ?_⟩
  · refine ⟨_, .single ⟨trivial, rfl⟩, ?_, by decide +kernel, by decide +kernel⟩
    intro h
    exact absurd ((h .quotient).zero (by decide +kernel)) (by decide +kernel)
  · have hremainder : ((operands (.ofInt (-18446744073709551616)) (.ofInt 4294967296)
        (.ofInt 0)).divide .dividend .divisor .quotient (some .remainder)).map
          (fun o => o .remainder) = .ok ⟨-1, []⟩ := by
      decide +kernel
    cases hdivide : (operands (.ofInt (-18446744073709551616)) (.ofInt 4294967296)
        (.ofInt 0)).divide .dividend .divisor .quotient (some .remainder) with
    | error fault =>
      rw [hdivide] at hremainder
      cases hremainder
    | ok o' =>
      rw [hdivide, Except.map, Except.ok.injEq] at hremainder
      refine ⟨o', .single ⟨trivial, hdivide⟩, fun h => ?_⟩
      have hsign := (h .remainder).zero
      rw [hremainder] at hsign
      exact absurd (hsign rfl) (by decide)

/-- 3 times -4, negated, with 5 added, and divided by 3. -/
theorem canonical_run_example :
    ∃ o', Steps (Restrict Step fun o op _ => op.Keeps o)
        (operands (.ofInt 3) (.ofInt (-4)) (.ofInt 0))
        [.multiply .dividend .divisor .quotient, .negate .quotient, .add .quotient 5,
          .divide .quotient .dividend .divisor (some .remainder)] o' ∧
      o'.AllCanonical ∧
        ∀ x y, (o' x).compare (o' y) false = 0 ↔ (o' x).value = (o' y).value := by
  have hrun : Steps (Restrict Step fun o op _ => op.Keeps o)
      (operands (.ofInt 3) (.ofInt (-4)) (.ofInt 0))
      [.multiply .dividend .divisor .quotient, .negate .quotient, .add .quotient 5,
        .divide .quotient .dividend .divisor (some .remainder)] _ :=
    .cons ⟨⟨trivial, rfl⟩, .inl (by decide +kernel)⟩
      (.cons ⟨⟨trivial, rfl⟩, trivial⟩
        (.cons ⟨⟨show 5 < 18446744073709551616 by decide, rfl⟩, trivial⟩
          (.cons ⟨⟨trivial, rfl⟩, .inr (.inl rfl)⟩ .refl)))
  exact ⟨_, hrun, canonical_run Operand _ _ _ (allCanonical_operands 3 (-4) 0) hrun⟩

end Steps

end Objects

end TrinoOdbc
