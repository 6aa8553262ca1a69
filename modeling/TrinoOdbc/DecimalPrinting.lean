import TrinoOdbc.Decimals
import TrinoOdbc.Numerals

/-!
# TrinoOdbc.DecimalPrinting

The output operators of `BigInteger` and `Decimal`. A `BigInteger` is divided by 10^19 until nothing
is left; the loop has fuel, and `none` is the result when the fuel is used up.

* `groupsLoop_eq` — the loop gives the digits of the number to the base of 10^19.
* `output_digits` — what is printed of a `BigInteger` is its sign and digits of its magnitude.
* `output_numeral` — what is printed of a `Decimal` denotes its value.
-/

namespace TrinoOdbc

open Formatted Loops

namespace BigInteger

/-- The objects of the output operator. -/
inductive Printed where
  | val
  | maxUintTenPower
  | res
  | left
  deriving DecidableEq, Repr

def printed (val : BigInteger) : Objects Printed
  | .val => val
  | .maxUintTenPower => .assignUint64 10000000000000000000
  | .res => .assignInt64 0
  | .left => .assignInt64 0

/-- `res` as a `uint64_t`. -/
def group (o : Objects Printed) : Nat := ((o .res).toInt64 % 18446744073709551616).toNat

/-- The groups of 19 digits, the lowest first. -/
def groupsLoop : Nat → Objects Printed → List Nat → Option (Except ArithmeticFault (List Nat))
  | 0, _, _ => none
  | fuel + 1, o, vals =>
    if (o .left).isZero then some (.ok vals)
    else
      match o.divide .left .maxUintTenPower .left (some .res) with
      | .error fault => some (.error fault)
      | .ok o => groupsLoop fuel o (vals ++ [group o])

def dropSign (o : Objects Printed) (k : Printed) : Objects Printed :=
  if (o k).sign < 0 then o.setSign k (-(o k).sign) else o

def groups (fuel : Nat) (val : BigInteger) : Option (Except ArithmeticFault (List Nat)) :=
  match (printed val).divide .val .maxUintTenPower .left (some .res) with
  | .error fault => some (.error fault)
  | .ok o =>
    let o := dropSign o .res
    let o := dropSign o .left
    groupsLoop fuel o [group o]

/-- The highest group as it is, and the others with 19 digits. -/
def groupsText (vals : List Nat) : List Char :=
  digits (vals.getLastD 0) ++ vals.dropLast.reverse.flatMap fun v : Nat => zeroPadded 19 v

def output (fuel : Nat) (val : BigInteger) : Option (Except ArithmeticFault (List Char)) :=
  if val.isZero then some (.ok ['0'])
  else
    (groups fuel val).map fun vals => vals.map fun vals =>
      (if val.sign < 0 then ['-'] else []) ++ groupsText vals

/-! ## The groups -/

section Groups

variable {o : Objects Printed} {k : Printed} {x u v q r : BigInteger} {n m fuel : Nat}

/-- A number of at most 64 bits comes through as a `uint64_t`. -/
theorem toInt64_mod (hm : m < 18446744073709551616) :
    ((signed 1 m).toInt64 % 18446744073709551616).toNat = m := by
  by_cases hzero : m = 0
  · rw [hzero]
    decide +kernel
  · obtain ⟨hdecode, heq⟩ := signed_eq_ofBytes (s := 1) hzero hm
    have hval : ByteMemory.decodeNat (ByteMemory.encode 8 m) ≠ 0 := by rwa [hdecode]
    rw [heq, toInt64_eq (getMagInt_lt _ 0), getMagInt_ofBytes hval, getMagInt_ofBytes hval, hdecode]
    simp only [pow_zero, pow_one, Nat.div_one, one_mul]
    rw [Int.bmod]
    split <;> split <;> split <;> omega

/-- Nothing has a negative sign that did not have one. -/
theorem Divides.positive (hu : u.sign = 1) (hv : v.sign = 1) (h : Divides u v q r) :
    q.sign = 1 ∧ r.sign = 1 := by
  cases h with
  | equal => rw [hu, hv]; exact ⟨rfl, rfl⟩
  | smaller => exact ⟨rfl, hu⟩
  | unit => rw [hu, hv]; exact ⟨rfl, rfl⟩
  | short =>
    rw [hu, hv, one_mul, one_mul, one_mul]
    exact ⟨sign_ofInt_of_nonneg (Int.not_lt.mpr (Int.natCast_nonneg _)),
      sign_ofInt_of_nonneg (Int.not_lt.mpr (Int.natCast_nonneg _))⟩
  | long => rw [hu, hv]; exact ⟨rfl, rfl⟩

/-- A division by 10^19 is exact. -/
theorem divide_maxUintTenPower (hk : (o k).WellFormed)
    (ho : o .maxUintTenPower = signed 1 10000000000000000000) :
    ∃ q r, o.divide k .maxUintTenPower .left (some .res) = .ok ((o.assign .left q).assign .res r) ∧
      q.WellFormed ∧ r.WellFormed ∧ q.magnitude = (o k).magnitude / 10000000000000000000 ∧
      r.magnitude = (o k).magnitude % 10000000000000000000 ∧
      ((o k).sign = 1 → q.sign = 1 ∧ r.sign = 1) := by
  have hten : (o .maxUintTenPower).WellFormed := by
    rw [ho]
    exact wellFormed_signed (.inl rfl)
  have hne : (o .maxUintTenPower).mag ≠ [] := by
    rw [ho]
    exact signed_ne_nil (by decide)
  have hlen : (o .maxUintTenPower).mag.length = 2 := by
    rw [ho]
    decide +kernel
  obtain ⟨q, r, hpath, hdivide⟩ := @Objects.divide_path _ _ o k .maxUintTenPower .left (some .res)
    hk hten hne (.inr (.inl hlen.ge)) (by decide) (.inl (by decide))
  obtain ⟨hq, hr⟩ := hpath.wellFormed hk hten
  have hmagnitudes := (hpath.magnitudes_iff hk hten hne).mpr fun _ =>
    estimatesExact_of_short hten hne hlen.le
  rw [ho, magnitude_signed] at hmagnitudes
  refine ⟨q, r, hdivide, hq, hr, hmagnitudes.1, hmagnitudes.2, fun hsign => ?_⟩
  refine hpath.positive hsign ?_
  rw [ho, sign_signed]

/-- The loop gives the digits of what is left, to the base of 10^19. -/
theorem groupsLoop_eq (hleft : o .left = signed 1 n)
    (ho : o .maxUintTenPower = signed 1 10000000000000000000)
    (hfuel : (Nat.digits 10000000000000000000 n).length < fuel) (vals : List Nat) :
    groupsLoop fuel o vals = some (.ok (vals ++ Nat.digits 10000000000000000000 n)) := by
  induction fuel generalizing o n vals with
  | zero => exact absurd hfuel (Nat.not_lt_zero _)
  | succ fuel ih =>
    rw [groupsLoop, hleft, isZero_signed]
    by_cases hzero : n = 0
    · rw [if_pos (decide_eq_true hzero), hzero, Nat.digits_zero, List.append_nil]
    · have hwell : (o .left).WellFormed := by
        rw [hleft]
        exact wellFormed_signed (.inl rfl)
      obtain ⟨q, r, hdivide, hq, hr, hqmag, hrmag, hsigns⟩ := divide_maxUintTenPower hwell ho
      rw [hleft, magnitude_signed] at hqmag hrmag
      rw [hleft] at hsigns
      obtain ⟨hqsign, hrsign⟩ := hsigns rfl
      have hdigits := Nat.digits_def' (b := 10000000000000000000) (by decide)
        (Nat.pos_of_ne_zero hzero)
      rw [hdigits, List.length_cons] at hfuel
      have hr' : r = signed 1 (n % 10000000000000000000) := by
        rw [hr.eq_signed, hrsign, hrmag]
      have hq' : q = signed 1 (n / 10000000000000000000) := by
        rw [hq.eq_signed, hqsign, hqmag]
      have hgroup : group ((o.assign .left q).assign .res r) = n % 10000000000000000000 := by
        rw [group, Objects.assign, Function.update_self, hr']
        exact toInt64_mod (by omega)
      rw [if_neg (by simpa using hzero), hdivide]
      dsimp only
      rw [ih (o := (o.assign .left q).assign .res r) (n := n / 10000000000000000000) hq' ho
        (by omega), hgroup, hdigits, List.append_assoc]
      rfl

theorem dropSign_eq (hk : (o k).WellFormed) :
    dropSign o k = o.assign k (signed 1 (o k).magnitude) := by
  unfold dropSign Objects.setSign Objects.assign
  rcases hk.sign with h | h <;> rw [h]
  · have hself : o k = signed 1 (o k).magnitude := by
      conv_lhs => rw [hk.eq_signed, h]
    rw [if_neg (by decide), ← hself, Function.update_eq_self]
  · rw [if_pos (by decide), hk.withSign]
    rfl

theorem groups_eq (hx : x.WellFormed) (hne : x.magnitude ≠ 0)
    (hfuel : (Nat.digits 10000000000000000000 x.magnitude).length ≤ fuel) :
    groups fuel x = some (.ok (Nat.digits 10000000000000000000 x.magnitude)) := by
  have hten : printed x .maxUintTenPower = signed 1 10000000000000000000 :=
    assignUint64_eq (by decide)
  obtain ⟨q, r, hdivide, hq, hr, hqmag, hrmag, -⟩ :=
    divide_maxUintTenPower (o := printed x) (k := .val) hx hten
  change q.magnitude = x.magnitude / _ at hqmag
  change r.magnitude = x.magnitude % _ at hrmag
  have hdigits := Nat.digits_def' (b := 10000000000000000000) (by decide) (Nat.pos_of_ne_zero hne)
  rw [hdigits, List.length_cons] at hfuel
  have hres : dropSign (((printed x).assign .left q).assign .res r) .res =
      (((printed x).assign .left q).assign .res r).assign .res (signed 1 r.magnitude) :=
    dropSign_eq hr
  have hleft : dropSign ((((printed x).assign .left q).assign .res r).assign .res
      (signed 1 r.magnitude)) .left =
        ((((printed x).assign .left q).assign .res r).assign .res (signed 1 r.magnitude)).assign
          .left (signed 1 q.magnitude) :=
    dropSign_eq hq
  rw [groups, hdivide]
  dsimp only
  rw [hres, hleft]
  generalize hobjects : ((((printed x).assign .left q).assign .res r).assign .res
    (signed 1 r.magnitude)).assign .left (signed 1 q.magnitude) = o
  have hq' : o .left = signed 1 q.magnitude := by
    rw [← hobjects]
    rfl
  have hten' : o .maxUintTenPower = signed 1 10000000000000000000 := by
    rw [← hobjects]
    exact hten
  have hgroup : group o = x.magnitude % 10000000000000000000 := by
    rw [← hobjects, ← hrmag]
    exact toInt64_mod (by omega)
  rw [groupsLoop_eq hq' hten' (by rw [hqmag]; omega), hgroup, hqmag, hdigits]
  rfl

end Groups

/-! ## The text of a `BigInteger` -/

section Text

variable {x : BigInteger} {vals : List Nat} {fuel : Nat}

theorem groupsText_cons (v : Nat) (hne : vals ≠ []) :
    groupsText (v :: vals) = groupsText vals ++ zeroPadded 19 v := by
  obtain ⟨w, ws, rfl⟩ := List.exists_cons_of_ne_nil hne
  rw [groupsText, List.dropLast_cons_cons, List.reverse_cons, List.flatMap_append, groupsText,
    List.append_assoc, List.flatMap_singleton]
  rfl

/-- The groups together are digits of the number that has them as digits. -/
theorem groupsText_digits (hne : vals ≠ []) (h : ∀ v ∈ vals, v < 10000000000000000000) :
    Digits (groupsText vals) ∧
      Formatted.value (groupsText vals) = Nat.ofDigits 10000000000000000000 vals := by
  induction vals with
  | nil => exact absurd rfl hne
  | cons v vals ih =>
    by_cases hnil : vals = []
    · rw [hnil, groupsText, Nat.ofDigits_singleton]
      have hnone : digits ([v].getLastD 0) ++
          ([v].dropLast.reverse.flatMap fun v : Nat => zeroPadded 19 v) = digits v :=
        List.append_nil _
      rw [hnone]
      exact ⟨digits_digits v, value_digits v⟩
    · obtain ⟨hdigits, hvalue⟩ := ih hnil fun w hw => h w (List.mem_cons_of_mem v hw)
      have hpadded := digits_zeroPadded 19 v
      have hlength : (zeroPadded 19 v).length = 19 :=
        length_zeroPadded (by decide) (h v List.mem_cons_self)
      rw [groupsText_cons v hnil]
      constructor
      · constructor
        · exact List.append_ne_nil_of_left_ne_nil hdigits.ne_nil _
        · intro c hc
          rcases List.mem_append.mp hc with hc | hc
          · exact hdigits.all c hc
          · exact hpadded.all c hc
      · rw [value_append, hvalue, hlength, value_zeroPadded, Nat.ofDigits_cons, Nat.add_comm,
          Nat.mul_comm]
        rfl

/-- There are at most as many groups as limbs. -/
theorem length_groups_le (hx : x.WellFormed) :
    (Nat.digits 10000000000000000000 x.magnitude).length ≤ x.mag.length := by
  by_contra hlt
  have hle := (Nat.lt_digits_length_iff (b := 10000000000000000000) (by decide) x.magnitude).mp
    (Nat.lt_of_not_le hlt)
  have hbound : x.magnitude < 4294967296 ^ x.mag.length :=
    Radix.ofDigits_lt (by decide) hx.mag.digit
  have hpow : 4294967296 ^ x.mag.length ≤ 10000000000000000000 ^ x.mag.length :=
    Nat.pow_le_pow_left (by decide) _
  omega

/-- The sign, and digits of the magnitude. -/
theorem output_digits (hx : x.WellFormed) (hne : x.magnitude ≠ 0) :
    ∃ ds, Digits ds ∧ Formatted.value ds = x.magnitude ∧ ∀ fuel, x.mag.length ≤ fuel →
      x.output fuel = some (.ok ((if x.sign < 0 then ['-'] else []) ++ ds)) := by
  obtain ⟨hdigits, hvalue⟩ := groupsText_digits
    (Nat.digits_ne_nil_iff_ne_zero.mpr hne : Nat.digits 10000000000000000000 x.magnitude ≠ [])
    fun v hv => Nat.digits_lt_base (by decide) hv
  rw [Nat.ofDigits_digits] at hvalue
  refine ⟨_, hdigits, hvalue, fun fuel hfuel => ?_⟩
  rw [output, hx.isZero_eq, decide_eq_false hne, groups_eq hx hne ((length_groups_le hx).trans hfuel)]
  rfl

end Text

end BigInteger

/-! ## The text of a `Decimal` -/

namespace Common

namespace Decimal

/-- The digits with a point, and without zeros at the end behind the point. -/
def placePoint (scale : Int) (mag : List Char) : List Char :=
  let significant := mag.rdropWhile (· = '0')
  let dotPos := mag.length - scale
  if dotPos ≤ 0 then '0' :: '.' :: (List.replicate (-dotPos).toNat '0' ++ significant)
  else
    let afterDot := significant.length - dotPos
    mag.take dotPos.toNat ++
      if 0 < afterDot then '.' :: (mag.drop dotPos.toNat).take afterDot.toNat else []

/-- The minus sign is passed. -/
def signedPoint (scale : Int) : List Char → List Char
  | '-' :: mag => '-' :: placePoint scale mag
  | mag => placePoint scale mag

def output (fuel : Nat) (val : Decimal) : Option (Except ArithmeticFault (List Char)) :=
  if val.magnitude.isZero then some (.ok ['0'])
  else if val.scale ≤ 0 then
    (val.magnitude.output fuel).map fun text => text.map fun text =>
      text ++ List.replicate (toInt32 (-val.scale)).toNat '0'
  else (val.magnitude.output fuel).map fun text => text.map (signedPoint val.scale)

section Text

variable {d : Decimal} {ds sign : List Char} {scale : Int}

theorem toRat_eq_of_unscaled {t : Numeral} {v k : Nat} {e : Int} (hexponent : t.exponent = none)
    (hv : t.unscaled = v * 10 ^ k) (he : k - t.places = e) :
    t.toRat = signValue t.sign * (v * 10 ^ e) := by
  have hpower : t.power = 0 := by rw [Numeral.power, hexponent]; rfl
  rw [Numeral.toRat, hpower, zero_sub, hv, Int.cast_mul, Int.cast_natCast, mul_assoc, mul_pow_zpow,
    he]

/-- Zeros before the digits. -/
theorem pointBefore_numeral (hsign : sign ∈ signs) (hds : ∀ c ∈ ds, c.isDigit = true) (n : Nat) :
    ∃ t : Numeral, t.exponent = none ∧
      t.text = sign ++ '0' :: '.' :: (List.replicate n '0' ++ ds) ∧
      t.toRat = signValue sign * (Formatted.value ds * 10 ^ (-(n + ds.length : Nat) : Int)) := by
  refine ⟨⟨sign, ['0'], some (List.replicate n '0' ++ ds), none, hsign, by simp, ?_, by simp⟩, rfl,
    by simp [Numeral.text], ?_⟩
  · intro c hc
    rcases List.mem_append.mp hc with hc | hc
    · rw [List.eq_of_mem_replicate hc]
      rfl
    · exact hds c hc
  · refine toRat_eq_of_unscaled (k := 0) rfl ?_ ?_
    · rw [pow_zero, Nat.mul_one]
      exact value_zeros_append ds (n + 1)
    · simp only [Numeral.places, Option.getD_some, List.length_append, List.length_replicate]
      omega

/-- The point among the digits. -/
theorem pointAmong_numeral (hsign : sign ∈ signs) (hds : ∀ c ∈ ds, c.isDigit = true) {n : Nat}
    (hn : n < ds.length) :
    ∃ t : Numeral, t.exponent = none ∧ t.text = sign ++ (ds.take n ++ '.' :: ds.drop n) ∧
      t.toRat = signValue sign * (Formatted.value ds * 10 ^ (n - ds.length : Int)) := by
  refine ⟨⟨sign, ds.take n, some (ds.drop n), none, hsign, ?_, ?_, ?_⟩, rfl,
    by simp [Numeral.text], ?_⟩
  · exact fun c hc => hds c (List.mem_of_mem_take hc)
  · exact fun c hc => hds c (List.mem_of_mem_drop hc)
  · rw [Option.getD_some, List.take_append_drop]
    exact List.ne_nil_of_length_pos (by omega)
  · refine toRat_eq_of_unscaled (k := 0) rfl ?_ ?_
    · rw [pow_zero, Nat.mul_one]
      exact congrArg Formatted.value (List.take_append_drop n ds)
    · simp only [Numeral.places, Option.getD_some, List.length_drop]
      omega

/-- Zeros behind the digits, and no point. -/
theorem zerosBehind_numeral (hsign : sign ∈ signs) (hds : ∀ c ∈ ds, c.isDigit = true) {n : Nat}
    (hne : ds ++ List.replicate n '0' ≠ []) :
    ∃ t : Numeral, t.exponent = none ∧ t.text = sign ++ (ds ++ List.replicate n '0') ∧
      t.toRat = signValue sign * (Formatted.value ds * 10 ^ (n : Int)) := by
  refine ⟨⟨sign, ds ++ List.replicate n '0', none, none, hsign, ?_, by simp, ?_⟩, rfl,
    by simp [Numeral.text], ?_⟩
  · intro c hc
    rcases List.mem_append.mp hc with hc | hc
    · exact hds c hc
    · rw [List.eq_of_mem_replicate hc]
      rfl
  · rwa [Option.getD_none, List.append_nil]
  · refine toRat_eq_of_unscaled (k := n) rfl ?_ ?_
    · change Formatted.value (ds ++ List.replicate n '0' ++ []) = _
      rw [List.append_nil, value_append_zeros]
    · simp [Numeral.places]

/-- Whether there are zeros before the digits, or the point is among them or behind them. -/
theorem placePoint_numeral (hsign : sign ∈ signs) (hds : Digits ds) (hscale : 0 < scale) :
    ∃ t : Numeral, t.exponent = none ∧ t.text = sign ++ placePoint scale ds ∧
      t.toRat = signValue sign * (Formatted.value ds * 10 ^ (-scale)) := by
  obtain ⟨z, hz⟩ := eq_append_zeros ds
  have hpos := List.length_pos_iff.mpr hds.ne_nil
  unfold placePoint
  generalize ds.rdropWhile (· = '0') = significant at *
  obtain rfl := hz
  have hall : ∀ c ∈ significant, c.isDigit = true := fun c hc =>
    hds.all c (List.mem_append_left _ hc)
  rw [List.length_append, List.length_replicate] at hpos ⊢
  rw [value_append_zeros, mul_pow_zpow]
  dsimp only
  split
  · rename_i hbefore
    have hexp : (z - scale : Int) =
        -((-(((significant.length + z : Nat) : Int) - scale)).toNat + significant.length : Nat) := by
      omega
    rw [hexp]
    exact pointBefore_numeral hsign hall _
  · rename_i hamong
    obtain ⟨n, hn⟩ := Int.eq_ofNat_of_zero_le (Int.le_of_lt (Int.not_le.mp hamong))
    rw [hn, Int.toNat_natCast]
    split
    · rename_i hpoint
      have hexp : (z - scale : Int) = n - significant.length := by omega
      rw [hexp, List.take_append_of_le_length (by omega), List.drop_append_of_le_length (by omega),
        List.take_left' (by rw [List.length_drop]; omega)]
      exact pointAmong_numeral hsign hall (by omega)
    · rename_i hbehind
      have hexp : (z - scale : Int) = (n - significant.length : Nat) := by omega
      have hmin : min (n - significant.length) z = n - significant.length := by omega
      rw [hexp, List.append_nil, List.take_append, List.take_of_length_le (by omega),
        List.take_replicate, hmin]
      refine zerosBehind_numeral hsign hall (List.ne_nil_of_length_pos ?_)
      rw [List.length_append, List.length_replicate]
      omega

theorem signedPoint_append (hsign : sign = [] ∨ sign = ['-']) (hds : Digits ds) :
    signedPoint scale (sign ++ ds) = sign ++ placePoint scale ds := by
  rcases hsign with rfl | rfl
  · obtain ⟨c, cs, rfl⟩ := List.exists_cons_of_ne_nil hds.ne_nil
    have hminus := (sign_of_isDigit (hds.all c List.mem_cons_self)).1
    rw [List.nil_append, List.nil_append, signedPoint]
    intro mag h
    exact hminus (List.cons.inj h).1
  · rfl

/-- What is printed denotes the number. -/
theorem output_numeral (hd : d.magnitude.WellFormed) (hscale : -2147483648 < d.scale) :
    ∃ t : Numeral, t.exponent = none ∧ t.toRat = d.toRat ∧
      ∀ fuel, d.magnitude.mag.length ≤ fuel → d.output fuel = some (.ok t.text) := by
  have hisZero := hd.isZero_eq
  have hrat : d.toRat = d.magnitude.sign * (d.magnitude.magnitude * 10 ^ (-d.scale)) := by
    rw [toRat, BigInteger.value, Int.cast_mul, Int.cast_natCast, mul_assoc]
  rw [hrat]
  by_cases hzero : d.magnitude.magnitude = 0
  · refine ⟨⟨[], ['0'], none, none, by simp [signs], by simp, by simp, by simp⟩, rfl, ?_,
      fun fuel _ => ?_⟩
    · rw [toRat_eq_of_unscaled (v := 0) (k := 0) rfl rfl rfl, hzero, Nat.cast_zero, zero_mul,
        mul_zero, zero_mul, mul_zero]
    · rw [output, hisZero, if_pos (decide_eq_true hzero)]
      rfl
  · obtain ⟨ds, hds, hvalue, houtput⟩ := BigInteger.output_digits hd hzero
    have hsign : ∃ sign, (if d.magnitude.sign < 0 then ['-'] else []) = sign ∧
        (sign = [] ∨ sign = ['-']) ∧ signValue sign = d.magnitude.sign := by
      refine ⟨_, rfl, ?_⟩
      rcases hd.sign with h | h <;> rw [h] <;> decide
    obtain ⟨sign, hif, hminus, hvalueSign⟩ := hsign
    rw [hif] at houtput
    have hmem : sign ∈ signs := by
      rcases hminus with rfl | rfl <;> decide
    have hnot : ¬ decide (d.magnitude.magnitude = 0) = true := by simpa using hzero
    rw [← hvalue, ← hvalueSign]
    by_cases hle : d.scale ≤ 0
    · obtain ⟨t, hexponent, htext, hrat⟩ := zerosBehind_numeral (n := (-d.scale).toNat) hmem hds.all
        (List.append_ne_nil_of_left_ne_nil hds.ne_nil _)
      rw [Int.toNat_of_nonneg (by omega)] at hrat
      refine ⟨t, hexponent, hrat, fun fuel hfuel => ?_⟩
      rw [output, hisZero, if_neg hnot, if_pos hle, houtput fuel hfuel, htext, ← List.append_assoc,
        toInt32_eq (by omega) (by omega)]
      rfl
    · obtain ⟨t, hexponent, htext, hrat⟩ := placePoint_numeral hmem hds (Int.not_le.mp hle)
      refine ⟨t, hexponent, hrat, fun fuel hfuel => ?_⟩
      rw [output, hisZero, if_neg hnot, if_neg hle, houtput fuel hfuel, htext,
        ← signedPoint_append hminus hds]
      rfl

end Text

end Decimal

end Common

end TrinoOdbc
