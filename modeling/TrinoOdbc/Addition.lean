import TrinoOdbc.Multiplication

/-!
# TrinoOdbc.Addition

A `uint64_t` added to the magnitude of a `BigInteger`.

* `addMagnitude_eq` — the limbs are those of the sum.
* `add_signed` — the sign stays, except that zero becomes positive.
-/

namespace TrinoOdbc

open Loops

namespace BigInteger

/-- `Add` of an array. -/
def addMagnitude (x : BigInteger) (addend : MagArray) (len : Nat) :
    Except ArithmeticFault BigInteger := do
  let mag := if x.mag.length < len then MagArray.resize x.mag len else x.mag
  let s ← MagArray.add mag 0 addend len
  if s.2 = 0 then .ok { x with mag := s.1 }
  else
    let t ← MagArray.addNumber s.1 len (s.1.length - len) s.2
    .ok { x with mag := if t.2 = 0 then t.1 else t.1 ++ [t.2] }

def add (x : BigInteger) (n : Nat) : Except ArithmeticFault BigInteger :=
  if n = 0 then .ok x
  else if x.isZero then .ok (assignUint64 n)
  else
    let highWord := u32 (n >>> 32)
    x.addMagnitude [u32 n, highWord] (if highWord = 0 then 1 else 2)

/-! ## The limbs of the sum -/

section Sum

variable {x : BigInteger} {mag addend : MagArray} {s : Int} {len n m : Nat}

theorem resize_spec (len : Nat) (hmag : ∀ d ∈ mag, d < 4294967296) :
    let resized := if mag.length < len then MagArray.resize mag len else mag
    resized.length = max mag.length len ∧ (∀ d ∈ resized, d < 4294967296) ∧
      MagArray.toNat resized = MagArray.toNat mag := by
  dsimp only
  split
  · rename_i hlt
    rw [MagArray.resize, List.take_of_length_le hlt.le]
    refine ⟨?_, ?_, ?_⟩
    · rw [List.length_append, List.length_replicate]
      omega
    · intro d hd
      rcases List.mem_append.mp hd with hd | hd
      · exact hmag d hd
      · rw [List.eq_of_mem_replicate hd]
        decide
    · rw [MagArray.toNat, Nat.ofDigits_append_replicate_zero]
      rfl
  · rename_i hle
    exact ⟨by omega, hmag, rfl⟩

/-- Limbs of a number that needs as many. -/
theorem limbs_eq_digits (hmag : ∀ d ∈ mag, d < 4294967296) (hn : MagArray.toNat mag = n)
    (hle : 4294967296 ^ (mag.length - 1) ≤ n) : mag = Nat.digits 4294967296 n := by
  subst hn
  exact MagArray.eq_digits (.of_le (by decide) hmag hle)

/-- Limbs of a number with one more at the top. -/
theorem limbs_concat_eq_digits (hmag : ∀ d ∈ mag, d < 4294967296) {top : Nat}
    (htop : top < 4294967296) (hne : top ≠ 0)
    (hn : MagArray.toNat mag + 4294967296 ^ mag.length * top = n) :
    mag ++ [top] = Nat.digits 4294967296 n := by
  have hvalue : MagArray.toNat (mag ++ [top]) = n := by
    rw [MagArray.toNat_append, ← hn, MagArray.toNat, MagArray.toNat, Nat.ofDigits_singleton]
  have hcanonical : Radix.Canonical 4294967296 (mag ++ [top]) := by
    constructor
    · intro d hd
      rcases List.mem_append.mp hd with hd | hd
      · exact hmag d hd
      · rw [List.mem_singleton.mp hd]
        exact htop
    · intro hnil
      rwa [List.getLast_append_singleton]
  rw [MagArray.eq_digits hcanonical, hvalue]

/-- Neither the limbs nor the last carry lose anything. -/
theorem addMagnitude_eq (hx : Radix.Canonical 4294967296 x.mag)
    (hxne : x.mag ≠ []) (haddend : ∀ d ∈ addend, d < 4294967296) (hlen : len ≤ addend.length)
    (hn : MagArray.toNat (addend.take len) = n) (hle : 4294967296 ^ (len - 1) ≤ n) :
    x.addMagnitude addend len =
      .ok { x with mag := Nat.digits 4294967296 (x.magnitude + n) } := by
  have hbound : 4294967296 ^ (max x.mag.length len - 1) ≤ x.magnitude + n := by
    have hlow : 4294967296 ^ (x.mag.length - 1) ≤ x.magnitude :=
      (hx.lt_length_iff (by decide) _).mp (Nat.sub_lt (List.length_pos_iff.mpr hxne) Nat.one_pos)
    rcases max_cases x.mag.length len with ⟨h, -⟩ | ⟨h, -⟩ <;> rw [h] <;> omega
  obtain ⟨hlength, hlimb, hvalue⟩ := resize_spec len hx.digit
  unfold addMagnitude
  generalize (if x.mag.length < len then MagArray.resize x.mag len else x.mag) = mag at *
  change MagArray.toNat mag = x.magnitude at hvalue
  obtain ⟨s, hs, hadd⟩ := @MagArray.add_yields mag addend 0 len hlimb haddend hlen (by omega)
  have hsum := hadd.value
  rw [Nat.zero_add, pow_zero, Nat.one_mul, hn, hvalue] at hsum
  have hslen := hadd.row.length
  dsimp only
  rw [hs, ok_bind]
  split
  · rename_i hcarry
    rw [hcarry, Nat.mul_zero, Nat.add_zero] at hsum
    rw [limbs_eq_digits hadd.row.limb hsum (by rwa [hslen, hlength])]
  · have hcarry := hadd.carry
    obtain ⟨t, ht, hnumber⟩ := @MagArray.addNumber_yields s.1 len (s.1.length - len) s.2
      hadd.row.limb (by omega) (by omega)
    have htotal := hnumber.value
    have htlen := hnumber.row.length
    have hend : len + (s.1.length - len) = s.1.length := by omega
    rw [hend, hsum] at htotal
    rw [ht, ok_bind]
    split
    · rename_i hlast
      rw [hlast, Nat.mul_zero, Nat.add_zero] at htotal
      rw [limbs_eq_digits hnumber.row.limb htotal (by rwa [htlen, hslen, hlength])]
    · rename_i hlast
      rw [← htlen] at htotal
      rw [limbs_concat_eq_digits hnumber.row.limb hnumber.carry hlast htotal]

/-- A number is added to the magnitude, whatever the sign; to zero it is assigned. -/
theorem add_signed (hm : m < 18446744073709551616) :
    (signed s n).add m =
      .ok (if m = 0 then signed s n else signed (if n = 0 then 1 else s) (n + m)) := by
  unfold add
  rw [isZero_signed]
  by_cases hzero : m = 0
  · rw [if_pos hzero, if_pos hzero]
  · rw [if_neg hzero, if_neg hzero]
    by_cases hn : n = 0
    · rw [decide_eq_true hn, if_pos rfl, if_pos hn, assignUint64_eq hm, hn, Nat.zero_add]
    · have hne := signed_ne_nil (s := s) hn
      have hmag : (signed s n).magnitude = n := MagArray.toNat_digits n
      rw [decide_eq_false hn, if_neg Bool.false_ne_true, if_neg hn]
      have hlow := u32_lt m
      have hhigh := u32_lt (m >>> 32)
      have hsplit : u32 m + 4294967296 * u32 (m >>> 32) = m := by
        simp only [u32, Nat.shiftRight_eq_div_pow]
        omega
      have haddend : ∀ d ∈ [u32 m, u32 (m >>> 32)], d < 4294967296 := by
        intro d hd
        rcases List.mem_pair.mp hd with rfl | rfl
        · exact hlow
        · exact hhigh
      have hcanonical := MagArray.canonical_digits n
      dsimp only
      split
      · rename_i hword
        rw [hword, Nat.mul_zero, Nat.add_zero] at hsplit
        have htake : MagArray.toNat ([u32 m, u32 (m >>> 32)].take 1) = m :=
          Nat.ofDigits_singleton.trans hsplit
        rw [addMagnitude_eq hcanonical hne haddend (by simp) htake (Nat.pos_of_ne_zero hzero), hmag]
        rfl
      · rename_i hword
        have htake : MagArray.toNat ([u32 m, u32 (m >>> 32)].take 2) = m := by
          rw [List.take_of_length_le (by simp), MagArray.toNat, Nat.ofDigits_cons,
            Nat.ofDigits_singleton]
          exact hsplit
        rw [addMagnitude_eq hcanonical hne haddend (by simp) htake (by omega), hmag]
        rfl

end Sum

end BigInteger

end TrinoOdbc
