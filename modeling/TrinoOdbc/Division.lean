import TrinoOdbc.LongDivision
import TrinoOdbc.Magnitude

/-!
# TrinoOdbc.Division

The general path of `Divide`, on arrays of limbs.

* `divideStep_yields` — what one digit of the quotient is, and what is left of the dividend.
* `longDivision_yields` — quotient and remainder are right if every estimate is.
* `longDivision_oneLimb` — a divisor of one limb is read outside its array.
-/

namespace TrinoOdbc

open Loops

namespace MagArray

/-- The condition of the `while` that adjusts an estimate. The arrays are read if the estimate fits
a limb. -/
def tooLarge (nv nu : MagArray) (vlen i qhat rhat : Nat) : Except ArithmeticFault Bool :=
  if 4294967295 < qhat then .ok true
  else do
    let v ← nv.load (vlen - 2)
    let u ← nu.load (i + vlen - 2)
    .ok (u64 (4294967296 * rhat + u) < u64 (qhat * v))

theorem tooLarge_pos {nv nu : MagArray} {vlen i qhat rhat : Nat}
    (h : tooLarge nv nu vlen i qhat rhat = .ok true) : 0 < qhat := by
  by_contra hzero
  obtain rfl : qhat = 0 := by omega
  rw [tooLarge, if_neg (by omega)] at h
  cases hv : nv.load (vlen - 2) with
  | error fault => simp [hv] at h
  | ok v =>
    cases hu : nu.load (i + vlen - 2) with
    | error fault => simp [hv, hu] at h
    | ok u => simp [hv, hu, u64] at h

/-- The loop that adjusts the estimate `qhat` with its remainder `rhat`, where `v` is the highest
limb of the divisor. -/
def adjust (nv nu : MagArray) (vlen i v qhat rhat : Nat) : Except ArithmeticFault Nat :=
  match _h : tooLarge nv nu vlen i qhat rhat with
  | .error fault => .error fault
  | .ok false => .ok qhat
  | .ok true =>
    if 4294967295 < rhat + v then .ok (qhat - 1) else adjust nv nu vlen i v (qhat - 1) (rhat + v)
termination_by qhat
decreasing_by
  have hpos := tooLarge_pos _h
  omega

/-- The difference at the highest limb. Both operands are unsigned, and so is what is converted to
`int64_t`. -/
def highDifference (limb carry : Nat) : Int := u32 (limb + 4294967296 - carry)

/-- What happens if this difference is negative. -/
def addBack (difference : Int) (nu nv : MagArray) (vlen i qhat : Nat) :
    Except ArithmeticFault (MagArray × Nat) :=
  if difference < 0 then do
    let s ← nu.add i nv vlen
    .ok (s.1, u32 (qhat + 4294967295))
  else .ok (nu, qhat)

/-- The main loop's body, on the dividend and the quotient. -/
def divideStep (nv : MagArray) (vlen i : Nat) (s : MagArray × MagArray) :
    Except ArithmeticFault (MagArray × MagArray) := do
  let higher ← s.1.load (i + vlen)
  let lower ← s.1.load (i + vlen - 1)
  let v ← nv.load (vlen - 1)
  if v = 0 then .error .zeroDivisor
  else do
    let qhat ← adjust nv s.1 vlen i v (makeU64 higher lower / v) (makeU64 higher lower % v)
    let row ← multiplyAndSubstruct s.1 i nv vlen (u32 qhat)
    let top ← row.1.load (i + vlen)
    let nu ← row.1.store (i + vlen) (highDifference top row.2 % 4294967296).toNat
    let back ← addBack (highDifference top row.2) nu nv vlen i (u32 qhat)
    let q ← s.2.store i back.2
    .ok (back.1, q)

def normalizeDividend (u : MagArray) (shift : Nat) : Except ArithmeticFault MagArray := do
  let back ← u.back
  if shift ≤ numberOfLeadingZerosU32 back then
    shiftLeft u u.length (resize [] (u.length + 1)) shift
  else do
    let nu ← shiftLeft u u.length (resize [] (u.length + 2)) shift
    let top ← u.load (u.length - 1)
    nu.store u.length (top >>> (32 - shift))

/-- The shift, and what is left of the dividend with the quotient in an array `q`. -/
def longDivision (u v q : MagArray) : Except ArithmeticFault (Nat × MagArray × MagArray) := do
  let back ← v.back
  let shift := numberOfLeadingZerosU32 back
  let nv ← shiftLeft v v.length (resize [] v.length) shift
  let nu ← normalizeDividend u shift
  let s ← Loops.down (divideStep nv v.length) (u.length - v.length + 1)
    (nu, resize q (u.length - v.length + 1))
  .ok (shift, s)

/-! ## One digit of a quotient -/

section Step

variable {nv nu : MagArray} {n i : Nat}

theorem tooLarge_eq {qhat rhat v u : Nat} (hv : nv.load (n - 2) = .ok v)
    (hu : nu.load (i + n - 2) = .ok u) (hvlt : v < 4294967296) (hult : u < 4294967296)
    (hrhat : rhat < 4294967296) :
    tooLarge nv nu n i qhat rhat =
      .ok (decide (4294967295 < qhat ∨ 4294967296 * rhat + u < qhat * v)) := by
  unfold tooLarge
  split
  · rename_i hlarge
    simp [hlarge]
  · rename_i hsmall
    have hproduct : qhat * v ≤ 4294967295 * 4294967295 := Nat.mul_le_mul (by omega) (by omega)
    have hleft : u64 (4294967296 * rhat + u) = 4294967296 * rhat + u := Nat.mod_eq_of_lt (by omega)
    have hright : u64 (qhat * v) = qhat * v := Nat.mod_eq_of_lt (by omega)
    simp only [hv, hu, ok_bind, hleft, hright, hsmall, false_or]

/-- The loop ends with the estimate from one more limb of both numbers. -/
theorem adjust_eq {v₁ v₂ u₂ top qhat rhat : Nat} (hv : nv.load (n - 2) = .ok v₂)
    (hu : nu.load (i + n - 2) = .ok u₂) (hvlt : v₂ < 4294967296) (hult : u₂ < 4294967296)
    (hpos : 0 < v₁) (htop : top < 4294967296 * v₁ + 4294967296) (hrhat : rhat < 4294967296)
    (h : LongDivision.Trial 4294967296 v₁ v₂ top u₂ qhat rhat) :
    adjust nv nu n i v₁ qhat rhat =
      .ok (min 4294967295 ((4294967296 * top + u₂) / (4294967296 * v₁ + v₂))) := by
  induction qhat using Nat.strong_induction_on generalizing rhat with
  | _ qhat ih =>
    have hcond : tooLarge nv nu n i qhat rhat = _ := tooLarge_eq hv hu hvlt hult hrhat
    have hdivisor : 0 < 4294967296 * v₁ + v₂ := by omega
    rw [adjust]
    split
    · rename_i hfault
      rw [hcond] at hfault
      cases hfault
    · rename_i hfits
      rw [hcond, Except.ok.injEq, decide_eq_false_iff_not, not_or] at hfits
      rw [h.eq_of_fits hdivisor (by omega) hfits.2]
    · rename_i hlarge
      have hqhat := tooLarge_pos hlarge
      rw [hcond, Except.ok.injEq, decide_eq_true_eq] at hlarge
      have hlower := h.lower hdivisor (hlarge.imp_left fun hlt => by omega)
      split
      · rename_i hbreak
        rw [hlower.eq_of_large hvlt hpos htop (by omega)]
      · exact ih (qhat - 1) (by omega) (by omega) hlower

/-- The loop ends, whatever the dividend has become. -/
theorem adjust_ok {v₁ v₂ u₂ : Nat} (hv : nv.load (n - 2) = .ok v₂)
    (hu : nu.load (i + n - 2) = .ok u₂) (qhat rhat : Nat) :
    ∃ r, adjust nv nu n i v₁ qhat rhat = .ok r := by
  induction qhat using Nat.strong_induction_on generalizing rhat with
  | _ qhat ih =>
    rw [adjust]
    split
    · rename_i hfault
      rw [tooLarge] at hfault
      split at hfault
      · cases hfault
      · simp only [hv, hu, ok_bind] at hfault
        cases hfault
    · exact ⟨_, rfl⟩
    · rename_i hlarge
      have hqhat := tooLarge_pos hlarge
      split
      · exact ⟨_, rfl⟩
      · exact ih (qhat - 1) (by omega) _

theorem makeU64_eq {higher lower : Nat} (h : lower < 4294967296) :
    makeU64 higher lower = higher * 4294967296 + lower := by
  rw [makeU64, ← Nat.shiftLeft_add_eq_or_of_lt (i := 32) h, Nat.shiftLeft_eq]

/-- The two highest limbs of what is divided. -/
theorem base_eq (hnu : ∀ d ∈ nu, d < 4294967296) {k : Nat} (hk : k + 1 < nu.length)
    (hlt : toNat nu < 4294967296 ^ (k + 2)) :
    makeU64 nu[k + 1] nu[k] = toNat nu / 4294967296 ^ k := by
  have hhigher : nu[k + 1] = toNat nu / 4294967296 ^ k / 4294967296 := by
    rw [Radix.getElem_eq_div_mod (b := 4294967296) (by decide) hnu hk, Nat.div_div_eq_div_mul,
      ← pow_succ]
    refine Nat.mod_eq_of_lt (Nat.div_lt_of_lt_mul ?_)
    rw [← pow_succ]
    exact hlt
  have hlower : nu[k] = toNat nu / 4294967296 ^ k % 4294967296 :=
    Radix.getElem_eq_div_mod (by decide) hnu (by omega)
  rw [makeU64_eq (hnu _ (List.getElem_mem _)), hhigher, hlower]
  exact Nat.div_add_mod' _ _

/-- A limb and what is above it. -/
theorem div_pow_eq (hnu : ∀ d ∈ nu, d < 4294967296) {k : Nat} (hk : k < nu.length) :
    toNat nu / 4294967296 ^ k = 4294967296 * (toNat nu / 4294967296 ^ (k + 1)) + nu[k] := by
  rw [Radix.getElem_eq_div_mod (b := 4294967296) (by decide) hnu hk, pow_succ,
    ← Nat.div_div_eq_div_mul]
  exact (Nat.div_add_mod _ _).symm

/-- The digit of the quotient is an estimate, and if the estimate is right, it is taken from the
dividend. -/
structure Stepped (nv nu q : MagArray) (n i d : Nat) (s : MagArray × MagArray) : Prop where
  length : s.1.length = nu.length
  limb : ∀ d ∈ s.1, d < 4294967296
  digit : d < 4294967296
  quotient : s.2 = q.set i d
  estimated : toNat nu < toNat nv * 4294967296 ^ (i + 1) →
    d = LongDivision.estimate 4294967296 n (toNat nu / 4294967296 ^ i) (toNat nv)
  taken : toNat nu < toNat nv * 4294967296 ^ (i + 1) → d = toNat nu / 4294967296 ^ i / toNat nv →
    toNat s.1 + d * toNat nv * 4294967296 ^ i = toNat nu

/-- The difference is never negative. -/
theorem highDifference_spec (limb carry : Nat) : ¬ highDifference limb carry < 0 ∧
    (highDifference limb carry % 4294967296).toNat < 4294967296 ∧
    (limb < 4294967296 → carry ≤ limb →
      (highDifference limb carry % 4294967296).toNat = limb - carry) := by
  unfold highDifference u32
  omega

/-- What `MultiplyAndSubstruct` and the subtraction at the highest limb leave. -/
theorem take_digit {q : MagArray} {d : Nat} (hq : ∀ d ∈ q, d < 4294967296)
    {row : MagArray × Nat} (hrow : Substructed q nv i d n row)
    (hnv : nv.length = n) (hlt : toNat q < 4294967296 ^ (i + n + 1))
    (hle : d * toNat nv * 4294967296 ^ i ≤ toNat q)
    (hlen' : i + n < row.1.length) :
    toNat (row.1.set (i + n) (highDifference row.1[i + n] row.2 % 4294967296).toNat) +
      d * toNat nv * 4294967296 ^ i = toNat q := by
  have hvalue := hrow.value
  have htop := div_pow_eq hrow.row.limb hlen'
  rw [List.take_of_length_le (by omega)] at hvalue
  -- nothing is above the highest limb
  have hrest : toNat row.1 / 4294967296 ^ (i + n + 1) = 0 := by
    have hdrop : row.1.drop (i + n + 1) = q.drop (i + n + 1) := by
      refine List.ext_getElem? fun k => ?_
      rw [List.getElem?_drop, List.getElem?_drop, hrow.row.rest _ (by omega)]
    rw [toNat, ← Radix.ofDigits_drop (by decide) hrow.row.limb, hdrop,
      Radix.ofDigits_drop (by decide) hq]
    exact Nat.div_eq_of_lt hlt
  rw [hrest, Nat.mul_zero, Nat.zero_add] at htop
  have hcarry : row.2 ≤ row.1[i + n] := by
    rw [← htop, Nat.le_div_iff_mul_le (by positivity)]
    have hmul : 4294967296 ^ i * (d * toNat nv) = d * toNat nv * 4294967296 ^ i := by ring
    rw [hmul] at hvalue
    linarith
  have hdifference := (highDifference_spec row.1[i + n] row.2).2.2 (hrow.row.lt hlen') hcarry
  have hset := Radix.ofDigits_set (b := 4294967296) hlen' (row.1[i + n] - row.2)
  rw [hdifference]
  change toNat (row.1.set _ _) + _ = toNat row.1 + _ at hset
  have hsplit : 4294967296 ^ (i + n) * row.1[i + n] = 4294967296 ^ (i + n) * (row.1[i + n] - row.2) +
      4294967296 ^ (i + n) * row.2 := by
    rw [← Nat.mul_add, Nat.sub_add_cancel hcarry]
  linarith

/-- The loop gives the estimate from all but the lowest limbs. -/
theorem adjust_estimate (hnv : ∀ d ∈ nv, d < 4294967296) (hn : nv.length = n + 2)
    (hpos : 0 < nv[n + 1]) (hnu : ∀ d ∈ nu, d < 4294967296) (hlen : i + n + 2 < nu.length)
    (hlt : toNat nu < toNat nv * 4294967296 ^ (i + 1)) :
    adjust nv nu (n + 2) i nv[n + 1]
        (makeU64 nu[i + n + 2] nu[i + n + 1] / nv[n + 1])
        (makeU64 nu[i + n + 2] nu[i + n + 1] % nv[n + 1]) =
      .ok (LongDivision.estimate 4294967296 n (toNat nu / 4294967296 ^ i) (toNat nv)) := by
  have hdivisor := Radix.ofDigits_lt (b := 4294967296) (by decide) hnv
  rw [hn] at hdivisor
  change toNat nv < _ at hdivisor
  have hwindow : toNat nu < 4294967296 ^ (i + n + 1 + 2) := by
    have hexp : i + n + 1 + 2 = n + 2 + (i + 1) := by omega
    rw [hexp, pow_add]
    exact hlt.trans (Nat.mul_lt_mul_of_pos_right hdivisor (by positivity))
  have htop := base_eq hnu (k := i + n + 1) hlen hwindow
  have hsplitU := div_pow_eq hnu (k := i + n) (by omega)
  have hsplitV := div_pow_eq hnv (k := n) (by omega)
  have hv : toNat nv / 4294967296 ^ (n + 1) = nv[n + 1] := by
    rw [Radix.getElem_eq_div_mod (b := 4294967296) (by decide) hnv (by omega)]
    refine (Nat.mod_eq_of_lt (Nat.div_lt_of_lt_mul ?_)).symm
    rw [← pow_succ]
    exact hdivisor
  have hbound : toNat nu / 4294967296 ^ (i + n + 1) < 4294967296 * nv[n + 1] + 4294967296 := by
    refine Nat.div_lt_of_lt_mul (hlt.trans ?_)
    have hmod := Nat.lt_mul_div_succ (toNat nv) (show 0 < 4294967296 ^ (n + 1) by positivity)
    rw [hv] at hmod
    have hscaled := Nat.mul_lt_mul_of_pos_right hmod
      (show 0 < 4294967296 ^ (i + 1) by positivity)
    refine hscaled.trans_eq ?_
    ring
  have hlimbV := hnv _ (List.getElem_mem (show n < nv.length by omega))
  have hlimbU := hnu _ (List.getElem_mem (show i + n < nu.length by omega))
  have htopV := hnv _ (List.getElem_mem (show n + 1 < nv.length by omega))
  have hstart : LongDivision.Trial 4294967296 nv[n + 1] nv[n]
      (toNat nu / 4294967296 ^ (i + n + 1)) nu[i + n] _ _ := .start hpos hlimbU
  have heq := adjust_eq (n := n + 2) (i := i) (load_eq (k := n) (by omega) (by omega))
    (load_eq (k := i + n) (by omega) (by omega)) hlimbV hlimbU hpos hbound
    ((Nat.mod_lt _ hpos).trans htopV) hstart
  rw [htop, heq, ← hsplitU, ← hv, ← hsplitV, LongDivision.estimate,
    Nat.div_div_eq_div_mul _ (4294967296 ^ i), ← pow_add]

theorem divideStep_yields {q : MagArray} (hnv : ∀ d ∈ nv, d < 4294967296) (hn : nv.length = n + 2)
    (hpos : 0 < nv[n + 1]) (hnu : ∀ d ∈ nu, d < 4294967296) (hlen : i + n + 2 < nu.length)
    (hq : i < q.length) :
    Yields (divideStep nv (n + 2) i (nu, q)) fun s => ∃ d, Stepped nv nu q n i d s := by
  have hV : nv.load ((n + 2 : Nat) - 2) = .ok nv[n] := load_eq (by omega) (by omega)
  have hU : nu.load ((i : Int) + (n + 2 : Nat) - 2) = .ok nu[i + n] := load_eq (by omega) (by omega)
  obtain ⟨qhat, hqhat⟩ : ∃ r, adjust nv nu (n + 2) i nv[n + 1]
      (makeU64 nu[i + n + 2] nu[i + n + 1] / nv[n + 1])
      (makeU64 nu[i + n + 2] nu[i + n + 1] % nv[n + 1]) = .ok r := adjust_ok hV hU _ _
  have hestimate (hlt : toNat nu < toNat nv * 4294967296 ^ (i + 1)) :
      u32 qhat = LongDivision.estimate 4294967296 n (toNat nu / 4294967296 ^ i) (toNat nv) := by
    rw [adjust_estimate hnv hn hpos hnu hlen hlt, Except.ok.injEq] at hqhat
    rw [← hqhat]
    exact Nat.mod_eq_of_lt (Nat.lt_of_le_of_lt (min_le_left _ _) (by decide))
  obtain ⟨row, hrow, hsub⟩ := multiplyAndSubstruct_yields hnu hnv (u32_lt qhat)
    (Nat.le_of_eq hn.symm) (show i + (n + 2) ≤ nu.length by omega)
  have hlen' : i + (n + 2) < row.1.length := by
    rw [hsub.row.length]
    omega
  obtain ⟨hpositive, hdifference, -⟩ := highDifference_spec row.1[i + (n + 2)] row.2
  unfold divideStep
  rw [load_eq (k := i + n + 2) (a := nu) (by omega) hlen, ok_bind,
    load_eq (k := i + n + 1) (a := nu) (by omega) (by omega), ok_bind,
    load_eq (k := n + 1) (a := nv) (by omega) (by omega), ok_bind, if_neg hpos.ne', hqhat, ok_bind,
    hrow, ok_bind, load_eq (Int.natCast_add _ _).symm hlen', ok_bind,
    store_eq (Int.natCast_add _ _).symm hlen', ok_bind, addBack, if_neg hpositive,
    ok_bind, store_eq (k := i) rfl hq, ok_bind]
  refine Yields.ok ⟨u32 qhat, ?_, ?_, u32_lt qhat, rfl, hestimate, ?_⟩
  · rw [List.length_set, hsub.row.length]
  · exact Radix.forall_mem_set hsub.row.limb hdifference
  · intro hlt hexact
    have hwindow : toNat nu < 4294967296 ^ (i + (n + 2) + 1) := by
      have hdivisor := Radix.ofDigits_lt (b := 4294967296) (by decide) hnv
      have hexp : i + (n + 2) + 1 = n + 2 + (i + 1) := by omega
      rw [hexp, pow_add, ← hn]
      exact hlt.trans (Nat.mul_lt_mul_of_pos_right hdivisor (by positivity))
    refine take_digit hnu hsub hn hwindow ?_ hlen'
    rw [hexact]
    calc toNat nu / 4294967296 ^ i / toNat nv * toNat nv * 4294967296 ^ i
        ≤ toNat nu / 4294967296 ^ i * 4294967296 ^ i :=
          Nat.mul_le_mul_right _ (Nat.div_mul_le_self _ _)
      _ ≤ toNat nu := Nat.div_mul_le_self _ _

end Step

/-! ## The main loop -/

/-- Every digit of the quotient is what is estimated from the limbs of the shifted numbers: the
estimate takes all of the divisor but what is below its two highest limbs. -/
def EstimatesExact (u v : MagArray) : Prop :=
  ∀ i, i + v.length ≤ u.length →
    LongDivision.Exact 4294967296 (v.length - 2)
      (toNat u * 2 ^ numberOfLeadingZerosU32 (v.getLastD 0))
      (toNat v * 2 ^ numberOfLeadingZerosU32 (v.getLastD 0)) i

section Loop

variable {nv : MagArray} {U n len i size d : Nat} {s s' : MagArray × MagArray}

theorem drop_set {q : MagArray} (hq : i < q.length) :
    (q.set i d).drop i = d :: q.drop (i + 1) := by
  rw [List.drop_eq_getElem_cons (by simpa using hq), List.getElem_set_self,
    List.drop_set_of_lt (Nat.lt_succ_self i)]

/-- Before the digit below `i`: quotient and remainder so far are right, or an estimate was too
large. -/
structure Dividing (nv : MagArray) (U n len size i : Nat) (s : MagArray × MagArray) : Prop where
  length : s.1.length = size
  limb : ∀ d ∈ s.1, d < 4294967296
  positions : s.2.length = len
  digit : ∀ d ∈ s.2.drop i, d < 4294967296
  result : (∀ j, i ≤ j → j < len → LongDivision.Exact 4294967296 n U (toNat nv) j) ∧
      toNat (s.2.drop i) = U / (toNat nv * 4294967296 ^ i) ∧
      toNat s.1 = U % (toNat nv * 4294967296 ^ i) ∨
    (∃ j, i ≤ j ∧ j < len ∧ ¬ LongDivision.Exact 4294967296 n U (toNat nv) j) ∧
      U / (toNat nv * 4294967296 ^ i) < toNat (s.2.drop i)

theorem Dividing.step (h : Dividing nv U n len size (i + 1) s) (hi : i < len)
    (hV : 4294967296 ^ n ≤ toNat nv) (hd : Stepped nv s.1 s.2 n i d s') :
    Dividing nv U n len size i s' := by
  have hpos : 0 < toNat nv := Nat.lt_of_lt_of_le (by positivity) hV
  have hq : i < s.2.length := by
    rw [h.positions]
    exact hi
  have hdrop : s'.2.drop i = d :: s.2.drop (i + 1) := by
    rw [hd.quotient, drop_set hq]
  have hvalue : toNat (s'.2.drop i) = d + 4294967296 * toNat (s.2.drop (i + 1)) := by
    rw [hdrop]
    exact Nat.ofDigits_cons
  have hquotient := LongDivision.quotient_step 4294967296 U (toNat nv) i
  have hdigit := LongDivision.digit_lt (b := 4294967296) (U := U) (by decide) hpos i
  refine ⟨hd.length.trans h.length, hd.limb, ?_, ?_, ?_⟩
  · rw [hd.quotient, List.length_set, h.positions]
  · rw [hdrop]
    intro x hx
    rcases List.mem_cons.mp hx with rfl | hx
    · exact hd.digit
    · exact h.digit x hx
  · rw [hvalue, hquotient]
    rcases h.result with ⟨hexact, hq', hr'⟩ | ⟨⟨j, hj, hjlen, hinexact⟩, hlarge⟩
    · have hlt : toNat s.1 < toNat nv * 4294967296 ^ (i + 1) := by
        rw [hr']
        exact Nat.mod_lt _ (by positivity)
      have hwindow : toNat s.1 / 4294967296 ^ i = LongDivision.window 4294967296 U (toNat nv) i := by
        rw [hr', LongDivision.window_eq]
      have hestimated := hd.estimated hlt
      rw [hwindow] at hestimated
      by_cases hi' : LongDivision.Exact 4294967296 n U (toNat nv) i
      · have hd' : d = LongDivision.digit 4294967296 U (toNat nv) i := hestimated.trans hi'
        have htaken := hd.taken hlt (by rw [hd', hwindow, LongDivision.digit])
        rw [hr', LongDivision.remainder_step, hd'] at htaken
        refine .inl ⟨fun j hj hjlen => ?_, by rw [hd', hq'], by omega⟩
        rcases Nat.eq_or_lt_of_le hj with rfl | hj
        · exact hi'
        · exact hexact j hj hjlen
      · have hle := LongDivision.digit_le_estimate (U := U) (by decide) hpos hV i
        have hne : LongDivision.estimate 4294967296 n (LongDivision.window 4294967296 U (toNat nv) i)
            (toNat nv) ≠ LongDivision.digit 4294967296 U (toNat nv) i := hi'
        refine .inr ⟨⟨i, Nat.le_refl i, hi, hi'⟩, ?_⟩
        rw [hq']
        omega
    · exact .inr ⟨⟨j, by omega, hjlen, hinexact⟩, by omega⟩

/-- The whole loop, for a divisor whose highest limb is large. -/
theorem down_divideStep_yields {nu q : MagArray} (hnv : ∀ d ∈ nv, d < 4294967296)
    (hn : nv.length = n + 2) (hV : 2147483648 * 4294967296 ^ (n + 1) ≤ toNat nv)
    (hnu : ∀ d ∈ nu, d < 4294967296) (hlen : len + n + 1 < nu.length) (hq : q.length = len)
    (hU : toNat nu < toNat nv * 4294967296 ^ len) :
    Yields (Loops.down (divideStep nv (n + 2)) len (nu, q))
      (Dividing nv (toNat nu) n len nu.length 0) := by
  have hdivisor := Radix.ofDigits_lt (b := 4294967296) (by decide) hnv
  rw [hn] at hdivisor
  change toNat nv < _ at hdivisor
  have hlead : 0 < toNat nv / 4294967296 ^ (n + 1) := by
    refine Nat.div_pos ?_ (by positivity)
    exact (Nat.le_mul_of_pos_left _ (by decide)).trans hV
  have htop : 0 < nv[n + 1] := by
    rw [Radix.getElem_eq_div_mod (b := 4294967296) (by decide) hnv (by omega), Nat.mod_eq_of_lt]
    · exact hlead
    · refine Nat.div_lt_of_lt_mul ?_
      rw [← pow_succ]
      exact hdivisor
  have hpow : 4294967296 ^ n ≤ toNat nv := by
    have hle : 4294967296 ^ n ≤ 4294967296 ^ (n + 1) := Nat.pow_le_pow_right (by decide) (by omega)
    omega
  refine Loops.down_yields ?_ fun i s hi h => ?_
  · have hdrop : q.drop len = [] := List.drop_of_length_le (by omega)
    refine ⟨rfl, hnu, hq, by simp [hdrop], .inl ⟨by omega, ?_, ?_⟩⟩
    · rw [hdrop, Nat.div_eq_of_lt hU]
      rfl
    · exact (Nat.mod_eq_of_lt hU).symm
  · have hsize : i + n + 2 < s.1.length := by
      rw [h.length]
      omega
    have hpositions : i < s.2.length := by
      rw [h.positions]
      exact hi
    refine (divideStep_yields hnv hn htop h.limb hsize hpositions).mono ?_
    rintro s' ⟨d, hd⟩
    exact h.step hi hpow hd

end Loop

/-! ## The division of two arrays -/

section Arrays

variable {u v q : MagArray} {n : Nat}

theorem back_eq (hne : u ≠ []) : u.back = .ok (u.getLast hne) := by
  have hpos := List.length_pos_iff.mpr hne
  rw [back, load_eq (k := u.length - 1) (by omega) (by omega), List.getLast_eq_getElem]

theorem resize_nil (size : Nat) : resize [] size = List.replicate size 0 := by
  rw [resize, List.take_nil, List.nil_append, List.length_nil, Nat.sub_zero]

theorem length_resize (a : MagArray) (size : Nat) : (resize a size).length = size := by
  rw [resize, List.length_append, List.length_take, List.length_replicate]
  omega

/-- Nothing of the highest limb is lost by a shift by not more than its leading zeros. -/
theorem shiftRight_eq_zero {limb : Nat} (hpos : 0 < limb) (hlt : limb < 4294967296)
    (hn : n ≤ numberOfLeadingZerosU32 limb) : limb >>> (32 - n) = 0 := by
  have hspec := (numberOfLeadingZerosU32_spec hpos hlt).2
  have hz := numberOfLeadingZerosU32_lt hpos hlt
  have hle : limb * 2 ^ n ≤ limb * 2 ^ numberOfLeadingZerosU32 limb :=
    Nat.mul_le_mul_left _ (Nat.pow_le_pow_right (by decide) hn)
  have hpow : 2 ^ (32 - n) * 2 ^ n = 4294967296 := by
    rw [← pow_add, Nat.sub_add_cancel (by omega)]
    rfl
  rw [Nat.shiftRight_eq_div_pow, Nat.div_eq_zero_iff_lt (Nat.two_pow_pos _)]
  refine Nat.lt_of_mul_lt_mul_right (a := 2 ^ n) ?_
  omega

theorem getD_eq_getLast (hne : u ≠ []) : u.getD (u.length - 1) 0 = u.getLast hne := by
  have hpos := List.length_pos_iff.mpr hne
  rw [List.getD_eq_getElem _ _ (by omega), List.getLast_eq_getElem]

/-- An array that is shifted into one of at least its size loses nothing. -/
theorem shiftLeft_exact {size : Nat} (hu : Radix.Canonical 4294967296 u) (hne : u ≠ [])
    (hn : n ≤ numberOfLeadingZerosU32 (u.getLast hne)) (hsize : u.length ≤ size) :
    Yields (shiftLeft u u.length (resize [] size) n) fun r =>
      r.length = size ∧ (∀ d ∈ r, d < 4294967296) ∧ toNat r = toNat u * 2 ^ n := by
  have hpos := Nat.pos_of_ne_zero (hu.last hne)
  have hlt := hu.digit _ (List.getLast_mem hne)
  have hz := numberOfLeadingZerosU32_lt hpos hlt
  rw [resize_nil]
  refine (shiftLeft_yields hu.digit hne (by omega) hsize).mono ?_
  rintro r ⟨hlength, hlimb, -, hvalue⟩
  rw [getD_eq_getLast hne, shiftRight_eq_zero hpos hlt hn, Nat.mul_zero, Nat.add_zero] at hvalue
  exact ⟨hlength, hlimb, hvalue⟩

theorem normalizeDividend_yields (hu : Radix.Canonical 4294967296 u) (hne : u ≠ []) (hn : n < 32) :
    Yields (normalizeDividend u n) fun nu => u.length < nu.length ∧
      (∀ d ∈ nu, d < 4294967296) ∧ toNat nu = toNat u * 2 ^ n := by
  have hpos := List.length_pos_iff.mpr hne
  unfold normalizeDividend
  rw [back_eq hne, ok_bind]
  split
  · rename_i hle
    refine (shiftLeft_exact hu hne hle (Nat.le_succ _)).mono ?_
    rintro r ⟨hlength, hlimb, hvalue⟩
    exact ⟨by omega, hlimb, hvalue⟩
  · rw [resize_nil]
    refine (shiftLeft_yields hu.digit hne hn (by omega)).bind ?_
    rintro r ⟨hlength, hlimb, hzero, hvalue⟩
    have hr : u.length < r.length := by omega
    have htop := hu.digit _ (List.getLast_mem hne)
    have hx : u.getLast hne >>> (32 - n) < 4294967296 := (Nat.shiftRight_le _ _).trans_lt htop
    have hload : u.load ((u.length : Int) - 1) = .ok (u.getLast hne) := back_eq hne
    rw [hload, ok_bind, store_eq rfl hr]
    refine Yields.ok ⟨by rw [List.length_set]; exact hr, Radix.forall_mem_set hlimb hx, ?_⟩
    have hset := Radix.ofDigits_set (b := 4294967296) hr (u.getLast hne >>> (32 - n))
    have hold : r[u.length] = 0 := by
      have h := hzero u.length (by omega) (Nat.le_refl _)
      rw [List.getElem?_eq_getElem hr] at h
      exact Option.some.inj h
    rw [hold, Nat.mul_zero, Nat.add_zero] at hset
    rw [getD_eq_getLast hne] at hvalue
    exact hset.trans hvalue

/-- What `longDivision` leaves: a shift, the shifted remainder, and the quotient. The quotient is
too large if an estimate is. -/
structure LongDivided (u v : MagArray) (s : Nat × MagArray × MagArray) : Prop where
  shift : s.1 < 32
  fits : toNat v * 2 ^ s.1 < 4294967296 ^ v.length
  length : v.length ≤ s.2.1.length
  remainderLimb : ∀ d ∈ s.2.1, d < 4294967296
  quotientLimb : ∀ d ∈ s.2.2, d < 4294967296
  exact : EstimatesExact u v →
    toNat s.2.2 = toNat u / toNat v ∧ toNat s.2.1 = toNat u % toNat v * 2 ^ s.1
  inexact : ¬ EstimatesExact u v → toNat u / toNat v < toNat s.2.2

theorem toNat_lt_of_canonical (hu : Radix.Canonical 4294967296 u) :
    toNat u < 4294967296 ^ u.length :=
  Radix.ofDigits_lt (by decide) hu.digit

section Scaled

variable (hu : Radix.Canonical 4294967296 u) (hv : Radix.Canonical 4294967296 v) (hne : v ≠ [])
include hv

/-- The shifted divisor has the highest bit of its highest limb. -/
theorem scaledDivisor_ge :
    2147483648 * 4294967296 ^ (v.length - 1) ≤
      toNat v * 2 ^ numberOfLeadingZerosU32 (v.getLast hne) := by
  have htop := Nat.pos_of_ne_zero (hv.last hne)
  have hspec := (numberOfLeadingZerosU32_spec htop (hv.digit _ (List.getLast_mem hne))).1
  have hle : v.getLast hne * 4294967296 ^ (v.length - 1) ≤ toNat v := by
    rw [Radix.getLast_eq_div (by decide) hv.digit hne]
    exact Nat.div_mul_le_self _ _
  have hscaled := Nat.mul_le_mul_right (2 ^ numberOfLeadingZerosU32 (v.getLast hne)) hle
  have hbits := Nat.mul_le_mul_right (4294967296 ^ (v.length - 1)) hspec
  linarith

include hu

/-- So the quotient has no more digits than the loop has rounds. -/
theorem scaledDividend_lt (hle : v.length ≤ u.length) :
    toNat u * 2 ^ numberOfLeadingZerosU32 (v.getLast hne) <
      toNat v * 2 ^ numberOfLeadingZerosU32 (v.getLast hne) *
        4294967296 ^ (u.length - v.length + 1) := by
  have hpos := List.length_pos_iff.mpr hne
  have hshift := numberOfLeadingZerosU32_lt (Nat.pos_of_ne_zero (hv.last hne))
    (hv.digit _ (List.getLast_mem hne))
  have hlen : v.length - 1 + (u.length - v.length + 1) = u.length := by omega
  have hpow : 2 ^ numberOfLeadingZerosU32 (v.getLast hne) ≤ 2147483648 :=
    Nat.pow_le_pow_right (n := 2) (j := 31) (by decide) (by omega)
  calc toNat u * 2 ^ numberOfLeadingZerosU32 (v.getLast hne)
      < 4294967296 ^ u.length * 2147483648 :=
        Nat.mul_lt_mul_of_lt_of_le (toNat_lt_of_canonical hu) hpow (by decide)
    _ = 2147483648 * 4294967296 ^ (v.length - 1) * 4294967296 ^ (u.length - v.length + 1) := by
        rw [Nat.mul_assoc, ← pow_add, hlen, Nat.mul_comm]
    _ ≤ toNat v * 2 ^ numberOfLeadingZerosU32 (v.getLast hne) *
        4294967296 ^ (u.length - v.length + 1) :=
        Nat.mul_le_mul_right _ (scaledDivisor_ge hv hne)

end Scaled

theorem estimatesExact_iff (hne : v ≠ []) (hn : v.length = n + 2) (hle : v.length ≤ u.length) :
    EstimatesExact u v ↔ ∀ j, 0 ≤ j → j < u.length - v.length + 1 →
      LongDivision.Exact 4294967296 n (toNat u * 2 ^ numberOfLeadingZerosU32 (v.getLast hne))
        (toNat v * 2 ^ numberOfLeadingZerosU32 (v.getLast hne)) j := by
  have hlast : v.getLastD 0 = v.getLast hne := by
    rw [List.getLastD_eq_getLast?, List.getLast?_eq_some_getLast hne]
    rfl
  have hk : v.length - 2 = n := by omega
  rw [EstimatesExact, hlast, hk]
  exact ⟨fun h j _ hj => h j (by omega), fun h j hj => h j (Nat.zero_le j) (by omega)⟩

theorem longDivision_yields (hu : Radix.Canonical 4294967296 u) (hv : Radix.Canonical 4294967296 v)
    (hn : v.length = n + 2) (hle : v.length ≤ u.length) (q : MagArray) :
    Yields (longDivision u v q) (LongDivided u v) := by
  have hvne : v ≠ [] := by
    rintro rfl
    simp at hn
  have hune : u ≠ [] := by
    rintro rfl
    rw [hn] at hle
    simp at hle
  have hshift := numberOfLeadingZerosU32_lt (Nat.pos_of_ne_zero (hv.last hvne))
    (hv.digit _ (List.getLast_mem hvne))
  have hlow := scaledDivisor_ge hv hvne
  have hhigh := scaledDividend_lt hu hv hvne hle
  have hpred : v.length - 1 = n + 1 := by omega
  unfold longDivision
  rw [back_eq hvne, ok_bind]
  refine (shiftLeft_exact hv hvne (Nat.le_refl _) (Nat.le_refl _)).bind ?_
  rintro nv ⟨hnvlen, hnv, hV⟩
  refine (normalizeDividend_yields hu hune hshift).bind ?_
  rintro nu ⟨hnulen, hnu, hU⟩
  rw [← hV, hpred] at hlow
  rw [← hV, ← hU] at hhigh
  have hloop := down_divideStep_yields hnv (by omega) hlow hnu (by omega)
    (length_resize q (u.length - v.length + 1)) hhigh
  have hpos : 0 < 2 ^ numberOfLeadingZerosU32 (v.getLast hvne) := Nat.two_pow_pos _
  rw [← hn] at hloop
  refine hloop.bind fun s h => Yields.ok ?_
  have hresult := h.result
  have hdigit := h.digit
  rw [pow_zero, Nat.mul_one, hV, hU, List.drop_zero, Nat.mul_div_mul_right _ _ hpos] at hresult
  rw [List.drop_zero] at hdigit
  have hestimates := estimatesExact_iff hvne hn hle
  have hfits := Radix.ofDigits_lt (b := 4294967296) (by decide) hnv
  change toNat nv < _ at hfits
  rw [hV, hnvlen] at hfits
  refine ⟨hshift, hfits, ?_, h.limb, hdigit, fun hexact => ?_, fun hinexact => ?_⟩
  · simp only [h.length]
    omega
  · rcases hresult with ⟨-, hq', hr'⟩ | ⟨⟨j, hj, hjlen, hnot⟩, -⟩
    · exact ⟨hq', by rw [hr', Nat.mul_mod_mul_right]⟩
    · exact absurd (hestimates.mp hexact j hj hjlen) hnot
  · rcases hresult with ⟨hall, -, -⟩ | ⟨-, hlarge⟩
    · exact absurd (hestimates.mpr hall) hinexact
    · exact hlarge

/-! ## Divisors of one limb -/

/-- An estimate that fits a limb is compared with a limb that is not there. -/
theorem adjust_outOfBounds {nv nu : MagArray} {n i w qhat rhat : Nat} (hqhat : qhat ≤ 4294967295)
    (hread : nv.load (n - 2) = .error .outOfBounds) :
    adjust nv nu n i w qhat rhat = .error .outOfBounds := by
  have hcond : tooLarge nv nu n i qhat rhat = .error .outOfBounds := by
    rw [tooLarge, if_neg (Nat.not_lt.mpr hqhat), hread, error_bind]
  rw [adjust]
  split
  · rename_i fault hlarge
    rw [hcond, Except.error.injEq] at hlarge
    rw [hlarge]
  · rename_i hlarge
    rw [hcond] at hlarge
    cases hlarge
  · rename_i hlarge
    rw [hcond] at hlarge
    cases hlarge

theorem oneLimb_estimate_le (hu : Radix.Canonical 4294967296 u) (hne : u ≠ []) {top k : Nat}
    (htop : 0 < top) :
    toNat u * 2 ^ k / 4294967296 ^ (u.length - 1) / (top * 2 ^ k) ≤ 4294967295 := by
  have hexp : 4294967296 ^ u.length = 4294967296 ^ (u.length - 1) * 4294967296 := by
    rw [← pow_succ, Nat.sub_add_cancel (List.length_pos_iff.mpr hne)]
  have hlt : toNat u * 2 ^ k / 4294967296 ^ (u.length - 1) < 4294967296 * 2 ^ k := by
    refine Nat.div_lt_of_lt_mul ?_
    rw [← Nat.mul_assoc, ← hexp]
    exact Nat.mul_lt_mul_of_pos_right (toNat_lt_of_canonical hu) (Nat.two_pow_pos _)
  refine Nat.le_of_lt_succ (Nat.div_lt_of_lt_mul (hlt.trans_le ?_))
  rw [Nat.mul_comm]
  exact Nat.mul_le_mul_right _ (Nat.le_mul_of_pos_left _ htop)

/-- The limb below the highest one of a divisor that has only one is read first. -/
theorem longDivision_oneLimb (hu : Radix.Canonical 4294967296 u) (hne : u ≠ [])
    (hv : Radix.Canonical 4294967296 v) (hlen : v.length = 1) (q : MagArray) :
    longDivision u v q = .error .outOfBounds := by
  have hvne : v ≠ [] := by
    rintro rfl
    simp at hlen
  have htop := Nat.pos_of_ne_zero (hv.last hvne)
  have hshift := numberOfLeadingZerosU32_lt htop (hv.digit _ (List.getLast_mem hvne))
  have hupos := List.length_pos_iff.mpr hne
  have hlead := Radix.getLast_eq_div (by decide) hv.digit hvne
  rw [hlen, Nat.sub_self, pow_zero, Nat.div_one] at hlead
  obtain ⟨nv, hnv, hnvlen, hnvlimb, hV⟩ := shiftLeft_exact hv hvne (Nat.le_refl _)
    (Nat.le_refl v.length)
  obtain ⟨nu, hnu, hnulen, hnulimb, hU⟩ := normalizeDividend_yields hu hne hshift
  have hnv0 : nv[0] = v.getLast hvne * 2 ^ numberOfLeadingZerosU32 (v.getLast hvne) := by
    have hlt := Radix.ofDigits_lt (b := 4294967296) (by decide) hnvlimb
    rw [hnvlen, hlen, pow_one] at hlt
    rw [Radix.getElem_eq_div_mod (b := 4294967296) (by decide) hnvlimb (by omega), pow_zero,
      Nat.div_one, Nat.mod_eq_of_lt hlt]
    change toNat nv = _
    rw [hV, hlead]
    rfl
  have hpos : 0 < nv[0] := by
    rw [hnv0]
    positivity
  have hwindow : toNat nu < 4294967296 ^ (u.length - 1 + 2) := by
    have hexp : u.length - 1 + 2 = u.length + 1 := by omega
    have hpow : 2 ^ numberOfLeadingZerosU32 (v.getLast hvne) ≤ 4294967296 :=
      Nat.pow_le_pow_right (n := 2) (j := 32) (by decide) hshift.le
    rw [hU, hexp, pow_succ]
    exact Nat.mul_lt_mul_of_lt_of_le (toNat_lt_of_canonical hu) hpow (by decide)
  have hbase := base_eq hnulimb (k := u.length - 1) (by omega) hwindow
  have hqhat : makeU64 nu[u.length - 1 + 1] nu[u.length - 1] / nv[0] ≤ 4294967295 := by
    rw [hbase, hnv0, hU]
    exact oneLimb_estimate_le hu hne htop
  have hread : nv.load ((1 : Nat) - 2) = .error .outOfBounds := by
    rw [load, if_neg (by omega)]
  have hcount : u.length - 1 + 1 = u.length := Nat.sub_add_cancel hupos
  unfold longDivision
  rw [back_eq hvne, ok_bind]
  dsimp only
  rw [hnv, ok_bind, hnu, ok_bind, hlen, Loops.down, divideStep,
    load_eq (k := u.length - 1 + 1) (a := nu) (by omega) (by omega), ok_bind,
    load_eq (k := u.length - 1) (a := nu) (by omega) (by omega), ok_bind,
    load_eq (k := 0) (a := nv) (by omega) (by omega), ok_bind, if_neg hpos.ne',
    adjust_outOfBounds hqhat hread]
  rfl

end Arrays

end MagArray

end TrinoOdbc
