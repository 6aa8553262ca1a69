import TrinoOdbc.Conversion
import TrinoOdbc.Decimals
import TrinoOdbc.Precision

/-!
# TrinoOdbc.NumericStruct

A `Decimal` in a `SQL_NUMERIC_STRUCT`: its scale changed to zero, and the bytes of its magnitude.

* `magnitudeToBytes_spec` — the bytes of a magnitude, and their number.
* `stores_iff` — what a conversion of an integer stores.
* `numericStruct_setScale_iff` — when the integer part is stored, and when a scale is changed.
-/

namespace TrinoOdbc

open ByteMemory Loops

namespace BigInteger

/-! ## The bytes of a magnitude -/

/-- Four bytes for each limb, and for the highest one as many as it needs. Big-endian, and one byte
for zero. -/
def magnitudeToBytes (x : BigInteger) : List UInt8 :=
  let bytesNum := (x.getBitLength + 7) / 8
  if bytesNum = 0 then [0]
  else
    let bytesRemaining := bytesNum - 4 * (x.mag.length - 1)
    (x.mag.dropLast.flatMap (fun limb : Nat => encode 4 limb) ++
      encode bytesRemaining (x.mag.getLastD 0)).reverse

theorem decodeNat_encode_of_lt {k n : Nat} (h : n < 256 ^ k) : decodeNat (encode k n) = n := by
  have hdecode := decodeNat_encode k n
  have hmod : (n : Int) % 256 ^ k = n := Int.emod_eq_of_lt (by omega) (by exact_mod_cast h)
  rw [hmod] at hdecode
  exact Int.ofNat.inj hdecode

theorem length_flatMap_encode (mag : List Nat) :
    (mag.flatMap fun limb : Nat => encode 4 limb).length = 4 * mag.length := by
  induction mag with
  | nil => rfl
  | cons limb mag ih =>
    rw [List.flatMap_cons, List.length_append, length_encode, ih, List.length_cons]
    omega

theorem decodeNat_flatMap_encode {mag : List Nat} (h : ∀ d ∈ mag, d < 4294967296) :
    decodeNat (mag.flatMap fun limb : Nat => encode 4 limb) = MagArray.toNat mag := by
  induction mag with
  | nil => rfl
  | cons limb mag ih =>
    have hlimb := h limb List.mem_cons_self
    have hdecode := decodeNat_encode 4 limb
    rw [List.flatMap_cons, decodeNat_append, length_encode,
      ih fun d hd => h d (List.mem_cons_of_mem _ hd), MagArray.toNat, MagArray.toNat,
      Nat.ofDigits_cons]
    omega

section Bytes

variable {x : BigInteger}

/-- The number without its highest limb, and this limb. -/
theorem magnitude_eq_dropLast (hne : x.mag ≠ []) :
    x.magnitude = MagArray.toNat x.mag.dropLast +
      4294967296 ^ (x.mag.length - 1) * x.mag.getLast hne := by
  have happend := MagArray.toNat_append x.mag.dropLast [x.mag.getLast hne]
  rw [List.dropLast_append_getLast hne, List.length_dropLast, MagArray.toNat, MagArray.toNat,
    MagArray.toNat, Nat.ofDigits_singleton] at happend
  exact happend

theorem magnitudeToBytes_spec (hx : x.WellFormed) :
    decodeNat x.magnitudeToBytes.reverse = x.magnitude ∧
      (x.magnitudeToBytes.length = if x.magnitude = 0 then 1 else (x.magnitude.size + 7) / 8) := by
  have hbits := getBitLength_eq hx.mag
  unfold magnitudeToBytes
  by_cases hne : x.mag = []
  · have hzero : x.magnitude = 0 := by
      rw [magnitude, hne]
      rfl
    rw [hbits, hzero, Nat.size_zero]
    exact ⟨rfl, rfl⟩
  · have hpos := magnitude_pos hx hne
    have hsize := Nat.size_pos.mpr hpos
    have hlimb := hx.mag.digit _ (List.getLast_mem hne)
    have htop := Radix.getLast_eq_div (by decide) hx.mag.digit hne
    have hlast : x.mag.getLastD 0 = x.mag.getLast hne := by
      rw [List.getLastD_eq_getLast?, List.getLast?_eq_some_getLast hne]
      rfl
    have hbitsTop : x.magnitude.size = (x.mag.getLast hne).size + (x.mag.length - 1) * 32 := by
      have hpow : 4294967296 ^ (x.mag.length - 1) = 2 ^ ((x.mag.length - 1) * 32) := by
        rw [Nat.mul_comm, pow_mul]
        rfl
      have h := size_eq_add (n := x.magnitude) (k := (x.mag.length - 1) * 32) (by
        rw [← hpow]
        change 0 < MagArray.toNat x.mag / _
        rw [MagArray.toNat, ← htop]
        exact Nat.pos_of_ne_zero (hx.mag.last hne))
      rw [← hpow] at h
      change _ = (MagArray.toNat x.mag / _).size + _ at h
      rwa [MagArray.toNat, ← htop] at h
    have hremaining : (x.magnitude.size + 7) / 8 - 4 * (x.mag.length - 1) =
        ((x.mag.getLast hne).size + 7) / 8 := by omega
    have hfits : x.mag.getLast hne < 256 ^ (((x.mag.getLast hne).size + 7) / 8) := by
      have hlt := Nat.lt_size_self (x.mag.getLast hne)
      have hle : 2 ^ (x.mag.getLast hne).size ≤ 2 ^ (8 * (((x.mag.getLast hne).size + 7) / 8)) :=
        Nat.pow_le_pow_right (by decide) (by omega)
      rw [pow_mul] at hle
      exact hlt.trans_le hle
    rw [hbits]
    dsimp only
    rw [if_neg (by omega), hremaining, hlast]
    constructor
    · rw [List.reverse_reverse, decodeNat_append, length_flatMap_encode,
        decodeNat_encode_of_lt hfits,
        decodeNat_flatMap_encode fun d hd => hx.mag.digit d (List.mem_of_mem_dropLast hd),
        List.length_dropLast, magnitude_eq_dropLast hne, pow_mul]
      rfl
    · rw [List.length_reverse, List.length_append, length_flatMap_encode, length_encode,
        List.length_dropLast, if_neg hpos.ne']
      omega

end Bytes

end BigInteger

namespace Common

namespace Decimal

/-! ## The integer part -/

/-- What `PutDecimal` takes from a `Decimal` for a `SQL_NUMERIC_STRUCT`. The number and the text that
other types of buffers get are left as they are given. -/
def toNumeric {R : Reals} (value : Decimal) (number : Int) (real : R.Real) (text : List Char) :
    Except ArithmeticFault (TrinoOdbc.Decimal R) := do
  let zeroScaled ← value.setScale 0 default
  let precision ← zeroScaled.magnitude.getPrecision
  .ok {
    toInt64 := number, toDouble := real, text
    magnitude := zeroScaled.magnitude.magnitudeToBytes
    negative := zeroScaled.magnitude.sign < 0
    precision }

/-- The number truncated toward zero. -/
def integerPart (d : Decimal) : Int :=
  if d.scale ≤ 0 then d.magnitude.value * 10 ^ (-d.scale).toNat
  else d.magnitude.value.tdiv (10 ^ d.scale.toNat)

/-- The struct has this number, with scale zero. -/
def NumericStruct (m : Memory) (base : Addr) (number : Int) : Prop :=
  decodeInt (read m (base + 1) 1) = 0 ∧
    (if decodeNat (read m (base + 2) 1) = 0 then -(decodeNat (read m (base + 3) 16) : Int)
      else decodeNat (read m (base + 3) 16)) = number

/-- `PutDecimal` succeeds and stores this number. -/
def Stores {P : Platform} (b : ApplicationDataBuffer) (base : Addr) (m : Memory)
    (value : Except ArithmeticFault (TrinoOdbc.Decimal P.reals)) (number : Int) : Prop :=
  ∃ d c, value = .ok d ∧ b.putDecimal P d = .ok c ∧ c.result = .success ∧
    NumericStruct (apply m base c.writes) base number

section Struct

variable {P : Platform} {b : ApplicationDataBuffer} {base : Addr} {m : Memory}
  {d res r : Decimal} {x : BigInteger} {number newScale : Int} {real : P.reals.Real}
  {text : List Char}

theorem getPrecision_ok (x : BigInteger) : ∃ precision, x.getPrecision = .ok precision := by
  unfold BigInteger.getPrecision
  split
  · exact ⟨_, rfl⟩
  · dsimp only
    rw [BigInteger.getPowerOfTen_eq]
    exact ⟨_, rfl⟩

/-- The fields of the struct. -/
theorem read_numericFields (m : Memory) (base : Addr) (d : TrinoOdbc.Decimal P.reals) :
    read (apply m base (ApplicationDataBuffer.Decimal.numericFields d)) (base + 1) 1 = encode 1 0 ∧
      read (apply m base (ApplicationDataBuffer.Decimal.numericFields d)) (base + 2) 1 =
        encode 1 (if d.negative then 0 else 1) ∧
      read (apply m base (ApplicationDataBuffer.Decimal.numericFields d)) (base + 3) 16 =
        (d.magnitude.reverse ++ List.replicate 16 0).take 16 := by
  have hlen : ((d.magnitude.reverse ++ List.replicate 16 0).take 16).length = 16 := by simp
  simp only [ApplicationDataBuffer.Decimal.numericFields, apply_cons, apply_nil]
  refine ⟨?_, ?_, ?_⟩
  · rw [read_write_outside _ (.inr (by rw [length_encode]; omega)),
      read_write_outside _ (.inl (by omega))]
    exact read_write_self _ _ (encode 1 0)
  · rw [read_write_outside _ (.inr (by rw [length_encode]; omega))]
    exact read_write_self _ _ (encode 1 _)
  · rw [read_write_outside _ (.inr (by rw [length_encode]; omega)),
      read_write_outside _ (.inr (by rw [length_encode]; omega)),
      read_write_outside _ (.inr (by rw [length_encode]; omega))]
    have hself := read_write_self m (base + 3)
      ((d.magnitude.reverse ++ List.replicate 16 0).take 16)
    rwa [hlen] at hself

theorem decodeNat_val (hx : x.WellFormed) :
    decodeNat ((x.magnitudeToBytes.reverse ++ List.replicate 16 0).take 16) =
      x.magnitude % 340282366920938463463374607431768211456 := by
  have htake := BigInteger.decodeNat_drop_take
    (x.magnitudeToBytes.reverse ++ List.replicate 16 0) 0 16
  rw [List.drop_zero, pow_zero, Nat.div_one, decodeNat_append, BigInteger.decodeNat_replicate_zero,
    Nat.mul_zero, Nat.add_zero, (BigInteger.magnitudeToBytes_spec hx).1] at htake
  exact htake

theorem length_magnitudeToBytes_le_iff (hx : x.WellFormed) :
    x.magnitudeToBytes.length ≤ 16 ↔
      x.magnitude < 340282366920938463463374607431768211456 := by
  have hsize : x.magnitude < 2 ^ 128 ↔ x.magnitude.size ≤ 128 := Nat.size_le.symm
  change _ ↔ x.magnitude < 2 ^ 128
  rw [(BigInteger.magnitudeToBytes_spec hx).2, hsize]
  split
  · rename_i hzero
    rw [hzero, Nat.size_zero]
    omega
  · omega

/-- A number that is stored without loss is the one that was converted. -/
theorem stores_iff (hb : b.type = .numeric) (hbase : b.getData = some base) (hx : x.WellFormed)
    {d : TrinoOdbc.Decimal P.reals} (hmag : d.magnitude = x.magnitudeToBytes)
    (hneg : d.negative = decide (x.sign < 0))
    (hnumber : number.natAbs < 340282366920938463463374607431768211456) :
    Stores b base m (.ok d) number ↔ x.value = number := by
  obtain ⟨hscale, hsign, hval⟩ := read_numericFields m base d
  have hput : b.putDecimal P d = .ok ⟨ApplicationDataBuffer.Decimal.numericFields d, b.storeLen 19,
      if 16 < d.magnitude.length then .fractionalTruncated else .success⟩ := by
    unfold ApplicationDataBuffer.putDecimal
    rw [hb]
    simp only [ApplicationDataBuffer.putStruct, hbase]
    rfl
  have hstruct : NumericStruct (apply m base (ApplicationDataBuffer.Decimal.numericFields d)) base
      number ↔ x.sign * (x.magnitude % 340282366920938463463374607431768211456 : Nat) = number := by
    have hzeroScale : decodeInt (encode 1 0) = 0 := by decide
    have hone : decodeNat (encode 1 1) ≠ 0 := by decide
    have hzero : decodeNat (encode 1 0) = 0 := by decide
    rw [NumericStruct, hscale, hsign, hval, hmag, decodeNat_val hx, hneg, and_iff_right hzeroScale]
    generalize x.magnitude % _ = stored
    rcases hx.sign with h | h
    · rw [h, one_mul, decide_eq_false (by decide), if_neg Bool.false_ne_true, if_neg hone]
    · rw [h, neg_one_mul, decide_eq_true (by decide), if_pos rfl, if_pos hzero]
  have hvalue : x.value = x.sign * x.magnitude := rfl
  have habs := BigInteger.natAbs_value hx
  have hfits := length_magnitudeToBytes_le_iff hx
  constructor
  · rintro ⟨d', c, hd, hc, hresult, hstored⟩
    obtain rfl := Except.ok.inj hd
    rw [hput] at hc
    obtain rfl := Except.ok.inj hc
    have hlen : x.magnitudeToBytes.length ≤ 16 := by
      by_contra hlong
      rw [hmag, if_pos (by omega)] at hresult
      cases hresult
    rw [hstruct, Nat.mod_eq_of_lt (hfits.mp hlen)] at hstored
    exact hvalue.trans hstored
  · intro hx'
    have hsmall : x.magnitude < 340282366920938463463374607431768211456 := by
      rw [← habs, hx']
      exact hnumber
    refine ⟨d, _, rfl, hput, ?_, hstruct.mpr ?_⟩
    · rw [hmag]
      exact if_neg (Nat.not_lt.mpr (hfits.mpr hsmall))
    · rw [Nat.mod_eq_of_lt hsmall, ← hvalue, hx']

/-- What `SetScale` leaves is as good as what it gets. -/
theorem wellFormed_setScale (hd : d.magnitude.WellFormed) (hres : res.magnitude.WellFormed)
    (hlow : -2147483648 < d.scale - newScale) (hhigh : d.scale - newScale < 2147483648)
    (h : d.setScale newScale res = .ok r) :
    r.magnitude.WellFormed ∧ (d.scale ≠ newScale → r.scale = newScale) := by
  rcases Int.lt_trichotomy d.scale newScale with hlt | heq | hgt
  · obtain ⟨k, hk⟩ := Int.le.dest hlt.le
    rw [setScale_up hd (k := k) (by omega) (by omega) hk.symm] at h
    obtain rfl := Except.ok.inj h
    exact ⟨BigInteger.wellFormed_signed hd.sign, fun _ => rfl⟩
  · rw [setScale_same heq] at h
    obtain rfl := Except.ok.inj h
    exact ⟨hres, fun hne => absurd heq hne⟩
  · obtain ⟨k, hk⟩ := Int.le.dest hgt.le
    have hadjustment := BigInteger.wellFormed_signed (s := 1) (n := 10 ^ k) (.inl rfl)
    have hne := BigInteger.signed_ne_nil (s := 1) (n := 10 ^ k) (by positivity)
    rw [setScale_down (k := k) (by omega) (by omega) hk.symm] at h
    by_cases hin : d.magnitude.InBounds (.signed 1 (10 ^ k))
    · obtain ⟨q, r', hpath, hdivide⟩ := BigInteger.divide_eq hd hadjustment hne hin res.magnitude
      rw [hdivide] at h
      obtain rfl := Except.ok.inj h
      exact ⟨(hpath.wellFormed hd hadjustment).1, fun _ => rfl⟩
    · rw [BigInteger.divide_outOfBounds hd hadjustment hne hin] at h
      cases h

/-- The integer part is the unscaled value of the number with scale zero. -/
theorem rescaled_zero_iff (hr : r.scale = 0) :
    Rescaled d 0 r ↔ r.magnitude.value = d.integerPart := by
  unfold integerPart
  split
  · rename_i hle
    have hscale : r.scale = d.scale + ((-d.scale).toNat : Nat) := by omega
    constructor
    · intro h
      exact (toRat_eq_iff hscale).mp (h.up hle)
    · intro h
      exact ⟨hr, fun _ => (toRat_eq_iff hscale).mpr h, fun hlt => absurd hlt (by omega)⟩
  · rename_i hgt
    constructor
    · intro h
      have hdown := h.down (by omega)
      rwa [sub_zero] at hdown
    · intro h
      refine ⟨hr, fun hle => absurd hle hgt, fun _ => ?_⟩
      rwa [sub_zero]

/-- The integer part is stored, if it has at most 128 bits, unless the scale is zero and the number
is not, or the division by a power of ten goes wrong. A scale is changed, and the number kept,
unless the scale is the same and `res` had another number, or the division goes wrong. -/
theorem numericStruct_setScale_iff (d : Decimal) (hd : d.magnitude.WellFormed) :
    (∀ (P : Platform) (b : ApplicationDataBuffer) (base : Addr) (m : Memory) (number : Int)
        (real : P.reals.Real) (text : List Char),
      -2147483648 < d.scale → d.scale < 2147483648 → b.type = .numeric → b.getData = some base →
      d.integerPart.natAbs < 340282366920938463463374607431768211456 →
      (Stores b base m (d.toNumeric number real text) d.integerPart ↔
        (d.scale = 0 → d.magnitude.value = 0) ∧ (0 < d.scale → ScalesDown d 0))) ∧
    ∀ (res : Decimal) (newScale : Int),
      -2147483648 < d.scale - newScale → d.scale - newScale < 2147483648 →
      (Yields (d.setScale newScale res) (Rescaled d newScale) ↔
        (d.scale = newScale → res.scale = newScale ∧ res.toRat = d.toRat) ∧
          (newScale < d.scale → ScalesDown d newScale)) := by
  refine ⟨?_, fun res newScale => setScale_iff d res newScale hd⟩
  intro P b base m number real text hlow hhigh hb hbase hnumber
  have hiff := setScale_iff d default 0 hd (by omega) (by omega)
  have hzero : (default : Decimal).toRat = 0 := by
    rw [toRat]
    simp [default, BigInteger.value, BigInteger.magnitude, MagArray.toNat]
  have hsame : (d.scale = 0 → (default : Decimal).scale = 0 ∧ (default : Decimal).toRat = d.toRat) ↔
      (d.scale = 0 → d.magnitude.value = 0) := by
    refine imp_congr_right fun hscale => ?_
    rw [hzero, toRat, hscale, neg_zero, zpow_zero, mul_one, eq_comm (b := (d.magnitude.value : ℚ)),
      Int.cast_eq_zero]
    exact and_iff_right rfl
  rw [hsame] at hiff
  rw [← hiff]
  cases hset : d.setScale 0 default with
  | error fault =>
    refine iff_of_false ?_ ?_
    · rintro ⟨value, c, hvalue, -⟩
      rw [toNumeric, hset] at hvalue
      cases hvalue
    · rintro ⟨r, hr, -⟩
      cases hr
  | ok r =>
    have hdefault : (default : Decimal).magnitude.WellFormed :=
      ⟨.inl rfl, ⟨by simp [default], by simp [default]⟩⟩
    obtain ⟨hr, hscale⟩ := wellFormed_setScale hd hdefault (by omega) (by omega) hset
    have hscale' : r.scale = 0 := by
      by_cases heq : d.scale = 0
      · rw [setScale_same heq] at hset
        rw [← Except.ok.inj hset]
        rfl
      · exact hscale heq
    obtain ⟨precision, hprecision⟩ := getPrecision_ok r.magnitude
    rw [toNumeric, hset, ok_bind, hprecision, ok_bind, stores_iff hb hbase hr rfl rfl hnumber,
      Yields.ok_iff, rescaled_zero_iff hscale']

end Struct

section Examples

def numericBuffer : ApplicationDataBuffer :=
  { type := .numeric, buffer := some 4096, buflen := 19, reslen := none }

/-- 12345 with scale zero gives zero, and `SetScale` leaves `res` alone. -/
theorem numericStruct_setScale_counterexample :
    ¬ Stores (P := .linux) numericBuffer 4096 (fun _ => 0)
        ((ofInt64 12345).toNumeric 12345 (12345 : Int) []) 12345 ∧
      ¬ Yields ((ofInt64 12345).setScale 0 default) (Rescaled (ofInt64 12345) 0) := by
  constructor
  · rintro ⟨d, c, hd, hc, -, -, hval⟩
    obtain rfl := Except.ok.inj hd
    obtain rfl := Except.ok.inj hc
    revert hval
    decide +kernel
  · rintro ⟨r, hr, hscaled⟩
    have hset : (ofInt64 12345).setScale 0 default = .ok default := by decide +kernel
    obtain rfl := Except.ok.inj (hset.symm.trans hr)
    exact absurd ((rescaled_zero_iff rfl).mp hscaled) (by decide +kernel)

/-- 123.45 gives 123, and zero with scale zero gives zero. -/
theorem numericStruct_setScale_example :
    Stores (P := .linux) numericBuffer 4096 (fun _ => 0)
        (toNumeric ⟨2, .ofInt 12345⟩ 123 (123 : Int) []) (integerPart ⟨2, .ofInt 12345⟩) ∧
      Yields (setScale ⟨2, .ofInt 12345⟩ 4 default) (Rescaled ⟨2, .ofInt 12345⟩ 4) := by
  have hwell := (BigInteger.canonical_ofInt 12345).toWellFormed
  constructor
  · refine ((numericStruct_setScale_iff ⟨2, .ofInt 12345⟩ hwell).1 .linux numericBuffer 4096
      (fun _ => 0) 123 (123 : Int) [] (by decide) (by decide) rfl rfl (by decide +kernel)).mpr
        ⟨?_, ?_⟩
    · intro h
      cases h
    · intro _
      exact ⟨.inl (by decide +kernel), fun _ => BigInteger.estimatesExact_of_short
        (BigInteger.wellFormed_signed (.inl rfl)) (BigInteger.signed_ne_nil (by decide))
        (by decide +kernel)⟩
  · refine ((numericStruct_setScale_iff ⟨2, .ofInt 12345⟩ hwell).2 default 4 (by decide)
      (by decide)).mpr ⟨?_, ?_⟩
    · intro h
      cases h
    · intro h
      exact absurd h (by decide)

end Examples

end Decimal

end Common

end TrinoOdbc
