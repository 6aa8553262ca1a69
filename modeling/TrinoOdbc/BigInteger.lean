import TrinoOdbc.ByteMemory
import Mathlib.Data.List.TakeWhile

/-!
# TrinoOdbc.BigInteger

`BigInteger`, as far as the bytes of a `SQL_NUMERIC_STRUCT` go through it: from the bytes of a
magnitude to 32-bit limbs, and from the limbs to an `int64_t`.

`toInt64_positive` and `toInt64_negative_iff` say which numbers come through.
-/

namespace TrinoOdbc

open ByteMemory

/-- A sign, and a magnitude of `uint32_t` limbs with the lowest first. -/
structure BigInteger where
  sign : Int
  mag : List Nat
  deriving DecidableEq, Repr

namespace BigInteger

/-- The bytes, the lowest first, up to the highest one that is not zero. -/
def significant (val : List UInt8) : List UInt8 := (val.reverse.dropWhile (· = 0)).reverse

/-- Four bytes make a limb, and the last limb gets what remains. -/
def limbs : List UInt8 → List Nat
  | [] => []
  | a :: b :: c :: d :: rest => decodeNat [a, b, c, d] :: limbs rest
  | rest => [decodeNat rest]

/-- The number with these bytes of its magnitude. Zero is positive, whatever the sign. -/
def ofBytes (val : List UInt8) (sign : Int) (bigEndian : Bool) : BigInteger :=
  match significant (if bigEndian then val.reverse else val) with
  | [] => { sign := 1, mag := [] }
  | bytes => { sign, mag := limbs bytes }

/-- A limb times the sign, in `uint32_t`. -/
def getMagInt (x : BigInteger) (n : Nat) : Nat :=
  match x.mag[n]? with
  | none => if 0 < x.sign then 0 else 4294967295
  | some limb => ((x.sign * limb) % 4294967296).toNat

def toInt64 (x : BigInteger) : Int :=
  ((x.getMagInt 1 <<< 32 ||| x.getMagInt 0 : Nat) : Int).bmod 18446744073709551616

/-! ## Limbs of a number -/

theorem decodeNat_replicate_zero (n : Nat) : decodeNat (List.replicate n 0) = 0 := by
  induction n with
  | zero => rfl
  | succ n ih => simp [List.replicate_succ, decodeNat, ih]

theorem significant_append (val : List UInt8) :
    ∃ n, val = significant val ++ List.replicate n 0 := by
  have hsplit := List.takeWhile_append_dropWhile (p := fun b : UInt8 => decide (b = 0))
    (l := val.reverse)
  refine ⟨(val.reverse.takeWhile (· = 0)).length, ?_⟩
  have hzeros : val.reverse.takeWhile (· = 0) =
      List.replicate (val.reverse.takeWhile (· = 0)).length 0 := by
    rw [List.eq_replicate_iff]
    refine ⟨rfl, fun b hb => ?_⟩
    simpa using List.mem_takeWhile_imp hb
  have hreverse := congrArg List.reverse hsplit
  rw [List.reverse_append, List.reverse_reverse] at hreverse
  rw [← List.reverse_replicate, ← hzeros]
  exact hreverse.symm

theorem decodeNat_significant (val : List UInt8) : decodeNat (significant val) = decodeNat val := by
  obtain ⟨n, hval⟩ := significant_append val
  conv_rhs => rw [hval, decodeNat_append, decodeNat_replicate_zero, Nat.mul_zero, Nat.add_zero]

/-- The last byte is not zero. -/
def Trimmed (bytes : List UInt8) : Prop := bytes.getLast? ≠ some 0

theorem trimmed_significant (val : List UInt8) : Trimmed (significant val) := by
  unfold Trimmed significant
  rw [List.getLast?_reverse]
  intro h
  have hhead := List.head?_dropWhile_not (fun b : UInt8 => decide (b = 0)) val.reverse
  rw [h] at hhead
  simp at hhead

/-- A number takes as many bytes as it needs. -/
theorem Trimmed.lt_length_iff {bytes : List UInt8} (h : Trimmed bytes) (k : Nat) :
    k < bytes.length ↔ 256 ^ k ≤ decodeNat bytes := by
  constructor
  · intro hk
    induction bytes generalizing k with
    | nil => simp at hk
    | cons b bytes ih =>
      cases bytes with
      | nil =>
        have hb : b ≠ 0 := by
          rintro rfl
          exact h rfl
        have hpos : 0 < b.toNat := by
          rw [Nat.pos_iff_ne_zero]
          intro hzero
          exact hb (UInt8.toNat_inj.mp hzero)
        obtain rfl : k = 0 := by simpa using hk
        simp only [decodeNat, pow_zero]
        omega
      | cons c bytes =>
        have htail : Trimmed (c :: bytes) := by simpa [Trimmed] using h
        cases k with
        | zero =>
          have hpos := ih htail 0 (by simp)
          rw [decodeNat]
          omega
        | succ k =>
          have hle := ih htail k (by simpa using hk)
          rw [decodeNat, pow_succ]
          omega
  · intro hle
    by_contra hlen
    have hlt := decodeNat_lt bytes
    have hpow : 256 ^ bytes.length ≤ 256 ^ k := Nat.pow_le_pow_right (by decide) (by omega)
    omega

theorem limbs_getElem? (bytes : List UInt8) (i : Nat) :
    (limbs bytes)[i]? =
      if 4 * i < bytes.length then some (decodeNat ((bytes.drop (4 * i)).take 4)) else none := by
  induction bytes using limbs.induct generalizing i with
  | case1 => simp [limbs]
  | case2 a b c d rest ih =>
    cases i with
    | zero => simp [limbs]
    | succ i =>
      have hdrop : (a :: b :: c :: d :: rest).drop (4 * (i + 1)) = rest.drop (4 * i) := by
        rw [Nat.mul_succ]
        rfl
      rw [limbs, List.getElem?_cons_succ, ih, hdrop]
      refine if_congr ?_ rfl rfl
      simp only [List.length_cons]
      omega
  | case3 rest hnil hfour =>
    have hlen : 0 < rest.length ∧ rest.length < 4 := by
      match rest, hnil, hfour with
      | [_], _, _ => simp
      | [_, _], _, _ => simp
      | [_, _, _], _, _ => simp
      | _ :: _ :: _ :: _ :: _, _, hfour => exact absurd rfl (hfour _ _ _ _ _)
    rw [limbs.eq_3 _ hnil hfour]
    cases i with
    | zero => rw [if_pos (by omega), List.take_of_length_le (by simp; omega)]; rfl
    | succ i => rw [if_neg (by omega)]; rfl

theorem decodeNat_take (bytes : List UInt8) (n : Nat) :
    decodeNat (bytes.take n) = decodeNat bytes % 256 ^ n := by
  rcases Nat.lt_or_ge n bytes.length with hlt | hge
  · conv_rhs => rw [← List.take_append_drop n bytes, decodeNat_append]
    have hbound := decodeNat_lt (bytes.take n)
    rw [List.length_take, Nat.min_eq_left hlt.le] at hbound ⊢
    rw [Nat.add_mul_mod_self_left, Nat.mod_eq_of_lt hbound]
  · have hbound := decodeNat_lt bytes
    have hpow : 256 ^ bytes.length ≤ 256 ^ n := Nat.pow_le_pow_right (by decide) hge
    rw [List.take_of_length_le hge, Nat.mod_eq_of_lt (by omega)]

theorem decodeNat_drop (bytes : List UInt8) (k : Nat) :
    decodeNat (bytes.drop k) = decodeNat bytes / 256 ^ k := by
  rcases Nat.lt_or_ge k bytes.length with hlt | hge
  · conv_rhs => rw [← List.take_append_drop k bytes, decodeNat_append]
    have hbound := decodeNat_lt (bytes.take k)
    rw [List.length_take, Nat.min_eq_left hlt.le] at hbound ⊢
    rw [Nat.add_mul_div_left _ _ (by positivity), Nat.div_eq_of_lt hbound, Nat.zero_add]
  · have hbound := decodeNat_lt bytes
    have hpow : 256 ^ bytes.length ≤ 256 ^ k := Nat.pow_le_pow_right (by decide) hge
    rw [List.drop_of_length_le hge, Nat.div_eq_of_lt (by omega), decodeNat]

theorem decodeNat_drop_take (bytes : List UInt8) (k n : Nat) :
    decodeNat ((bytes.drop k).take n) = decodeNat bytes / 256 ^ k % 256 ^ n := by
  rw [decodeNat_take, decodeNat_drop]

/-! ## The number that comes through -/

section Through

variable {val : List UInt8} {sign : Int}

/-- The limbs of a magnitude are those of its number. -/
theorem mag_ofBytes (i : Nat) :
    (ofBytes val sign false).mag[i]? =
      if 4294967296 ^ i ≤ decodeNat val then
        some (decodeNat val / 4294967296 ^ i % 4294967296) else none := by
  have htrimmed := trimmed_significant val
  have hvalue := decodeNat_significant val
  have hmag : (ofBytes val sign false).mag = limbs (significant val) := by
    unfold ofBytes
    simp only [Bool.false_eq_true, if_false]
    split
    · rename_i hnil
      rw [hnil]
      rfl
    · rfl
  have hpow : 256 ^ (4 * i) = 4294967296 ^ i := pow_mul 256 4 i
  rw [hmag, limbs_getElem?, decodeNat_drop_take, hvalue, hpow]
  refine if_congr ?_ rfl rfl
  rw [htrimmed.lt_length_iff, hvalue, hpow]

theorem ofBytes_zero (hval : decodeNat val = 0) : ofBytes val sign false = ⟨1, []⟩ := by
  have hnil : significant val = [] := by
    have hlen := (trimmed_significant val).lt_length_iff 0
    rw [decodeNat_significant, hval, pow_zero] at hlen
    exact List.eq_nil_of_length_eq_zero (by omega)
  unfold ofBytes
  simp only [Bool.false_eq_true, if_false, hnil]

theorem sign_ofBytes (hval : decodeNat val ≠ 0) : (ofBytes val sign false).sign = sign := by
  unfold ofBytes
  simp only [Bool.false_eq_true, if_false]
  split
  · rename_i hnil
    rw [← decodeNat_significant, hnil] at hval
    exact absurd rfl hval
  · rfl

theorem getMagInt_ofBytes (hval : decodeNat val ≠ 0) (i : Nat) :
    (ofBytes val sign false).getMagInt i =
      if 4294967296 ^ i ≤ decodeNat val then
        (sign * (decodeNat val / 4294967296 ^ i % 4294967296 : Nat) % 4294967296).toNat
      else if 0 < sign then 0 else 4294967295 := by
  unfold getMagInt
  rw [mag_ofBytes, sign_ofBytes hval]
  by_cases hle : 4294967296 ^ i ≤ decodeNat val
  · simp only [if_pos hle]
  · simp only [if_neg hle]

/-- The two limbs do not overlap. -/
theorem toInt64_eq {x : BigInteger} (h : x.getMagInt 0 < 4294967296) :
    x.toInt64 =
      ((x.getMagInt 1 * 4294967296 + x.getMagInt 0 : Nat) : Int).bmod 18446744073709551616 := by
  unfold toInt64
  rw [← Nat.shiftLeft_add_eq_or_of_lt (i := 32) h, Nat.shiftLeft_eq]

theorem getMagInt_lt (x : BigInteger) (n : Nat) : x.getMagInt n < 4294967296 := by
  unfold getMagInt
  cases x.mag[n]? with
  | none =>
    simp only
    split <;> omega
  | some limb =>
    have hlt := Int.emod_lt_of_pos (x.sign * limb) (show (0 : Int) < 4294967296 by decide)
    simp only
    omega

theorem toInt64_positive (hlt : decodeNat val < 9223372036854775808) :
    (ofBytes val 1 false).toInt64 = decodeNat val := by
  by_cases hval : decodeNat val = 0
  · rw [ofBytes_zero hval, hval]
    rfl
  · rw [toInt64_eq (getMagInt_lt _ 0), getMagInt_ofBytes hval, getMagInt_ofBytes hval]
    simp only [pow_zero, pow_one, Nat.div_one, one_mul]
    rw [Int.bmod]
    split <;> split <;> split <;> omega

/-- A negative number comes through if it has one limb, or if its low limb is zero. -/
theorem toInt64_negative_iff (hpos : 0 < decodeNat val)
    (hle : decodeNat val ≤ 9223372036854775808) :
    (ofBytes val (-1) false).toInt64 = -(decodeNat val : Int) ↔
      decodeNat val < 4294967296 ∨ decodeNat val % 4294967296 = 0 := by
  rw [toInt64_eq (getMagInt_lt _ 0), getMagInt_ofBytes hpos.ne', getMagInt_ofBytes hpos.ne']
  simp only [pow_zero, pow_one, Nat.div_one]
  rw [Int.bmod]
  split <;> split <;> split <;> omega

end Through

end BigInteger

end TrinoOdbc
