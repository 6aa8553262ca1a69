import TrinoOdbc.Loops
import TrinoOdbc.Radix
import Mathlib.Data.Nat.Bitwise
import Mathlib.Data.Nat.Size
import Mathlib.Tactic.Linarith

/-!
# TrinoOdbc.Magnitude

Arrays of `uint32_t` limbs, the lowest first, as magnitudes of numbers, with the functions of
`big_integer.cpp` that work on the arrays. An access outside an array is a fault.

* `shiftLeft_yields`, `shiftRight_yields` — shifts multiply and divide by a power of two.
* `multiplyAndSubstruct_yields`, `add_yields` — one row of a long subtraction or addition.
* `numberOfLeadingZerosU32_spec` — what is left of a limb without its leading zeros.
-/

namespace TrinoOdbc

open Loops

/-- How an operation ends that has no result: an access outside an array, a division of integers by
zero, or an `IgniteError`. -/
inductive ArithmeticFault where
  | outOfBounds
  | zeroDivisor
  | illegalArgument (message : String)
  deriving DecidableEq, Repr

/-- `uint32_t` and `uint64_t`. -/
def u32 (n : Nat) : Nat := n % 4294967296

def u64 (n : Nat) : Nat := n % 18446744073709551616

theorem u32_lt (n : Nat) : u32 n < 4294967296 := Nat.mod_lt _ (by decide)

def makeU64 (higher lower : Nat) : Nat := higher <<< 32 ||| lower

/-- One of the steps of `NumberOfLeadingZerosU32`: the count, and the number without these zeros. -/
def skipZeros (k : Nat) (s : Nat × Nat) : Nat × Nat :=
  if s.2 >>> (32 - k) = 0 then (s.1 + k, u32 (s.2 <<< k)) else s

def numberOfLeadingZerosU32 (i : Nat) : Nat :=
  if i = 0 then 32
  else
    let s := skipZeros 2 (skipZeros 4 (skipZeros 8 (skipZeros 16 (1, i))))
    s.1 - s.2 >>> 31

def bitLengthU32 (i : Nat) : Nat := 32 - numberOfLeadingZerosU32 i

abbrev MagArray := List Nat

namespace MagArray

def load (a : MagArray) (i : Int) : Except ArithmeticFault Nat :=
  if 0 ≤ i then a[i.toNat]?.elim (.error .outOfBounds) .ok else .error .outOfBounds

def store (a : MagArray) (i : Int) (x : Nat) : Except ArithmeticFault MagArray :=
  if 0 ≤ i ∧ i.toNat < a.length then .ok (a.set i.toNat x) else .error .outOfBounds

/-- New elements are zero. -/
def resize (a : MagArray) (newSize : Nat) : MagArray :=
  a.take newSize ++ List.replicate (newSize - a.length) 0

def back (a : MagArray) : Except ArithmeticFault Nat := a.load (a.length - 1)

/-! ## The functions on arrays -/

def shiftLeft (input : MagArray) (len : Nat) (out : MagArray) (n : Nat) :
    Except ArithmeticFault MagArray :=
  if n = 0 then
    Loops.up (fun i out => do
      let limb ← input.load i
      out.store i limb) len out
  else do
    let out ← Loops.down (fun i out => do
      let high ← input.load (i + 1)
      let low ← input.load i
      out.store (i + 1) (u32 (high <<< n) ||| low >>> (32 - n))) (len - 1) out
    let low ← input.load 0
    out.store 0 (u32 (low <<< n))

def shiftRight (input : MagArray) (len : Nat) (out : MagArray) (n : Nat) :
    Except ArithmeticFault MagArray :=
  if n = 0 then
    Loops.up (fun i out => do
      let limb ← input.load i
      out.store i limb) len out
  else do
    let out ← Loops.up (fun i out => do
      let low ← input.load i
      let high ← input.load (i + 1)
      out.store i (low >>> n ||| u32 (high <<< (32 - n)))) (len - 1) out
    let high ← input.load (len - 1)
    out.store (len - 1) (high >>> n)

/-- The new limb and the carry. The difference is computed in `uint64_t` and taken for an
`int64_t`. -/
def substructLimb (limb carry product : Nat) : Nat × Nat :=
  let difference : Int :=
    ((limb : Int) - carry - (product &&& 4294967295 : Nat)).bmod 18446744073709551616
  ((difference % 4294967296).toNat,
    (((product >>> 32 : Nat) - difference / 4294967296) % 18446744073709551616 : Int).toNat)

/-- `q` is a pointer into an array. -/
def multiplyAndSubstruct (q : MagArray) (offset : Nat) (a : MagArray) (alen x : Nat) :
    Except ArithmeticFault (MagArray × Nat) := do
  let s ← Loops.up (fun i (s : MagArray × Nat) => do
    let factor ← a.load i
    let limb ← s.1.load (offset + i)
    let next := substructLimb limb s.2 (u64 (factor * x))
    let q ← s.1.store (offset + i) next.1
    .ok (q, next.2)) alen (q, 0)
  .ok (s.1, u32 s.2)

/-- `Add` of two arrays. -/
def add (res : MagArray) (offset : Nat) (addend : MagArray) (len : Nat) :
    Except ArithmeticFault (MagArray × Nat) := do
  let s ← Loops.up (fun i (s : MagArray × Nat) => do
    let limb ← s.1.load (offset + i)
    let other ← addend.load i
    let sum := u64 (limb + other + s.2)
    let res ← s.1.store (offset + i) (u32 sum)
    .ok (res, sum >>> 32)) len (res, 0)
  .ok (s.1, u32 s.2)

/-- `Add` of a number, which ends when nothing is carried any more. -/
def addNumber (res : MagArray) (offset len addend : Nat) :
    Except ArithmeticFault (MagArray × Nat) := do
  let s ← Loops.up (fun i (s : MagArray × Nat) =>
    if s.2 = 0 then .ok s
    else do
      let limb ← s.1.load (offset + i)
      let sum := u64 (limb + s.2)
      let res ← s.1.store (offset + i) (u32 sum)
      .ok (res, sum >>> 32)) len (res, addend)
  .ok (s.1, u32 s.2)

/-- Without the zero limbs at the top. -/
def normalize (a : MagArray) : MagArray := a.rdropWhile (· = 0)

/-- The number of a magnitude. -/
def toNat (a : MagArray) : Nat := Nat.ofDigits 4294967296 a

/-! ## Numbers of arrays -/

theorem toNat_digits (n : Nat) : toNat (Nat.digits 4294967296 n) = n := Nat.ofDigits_digits _ n

theorem canonical_digits (n : Nat) : Radix.Canonical 4294967296 (Nat.digits 4294967296 n) :=
  .digits (by decide) n

theorem eq_digits {a : MagArray} (h : Radix.Canonical 4294967296 a) :
    a = Nat.digits 4294967296 (toNat a) :=
  h.eq_digits (by decide)

theorem normalize_eq {a : MagArray} (h : ∀ d ∈ a, d < 4294967296) :
    normalize a = Nat.digits 4294967296 (toNat a) := by
  have heq := eq_digits (Radix.canonical_rdropWhile h)
  rw [toNat, Radix.ofDigits_rdropWhile] at heq
  exact heq

/-! ## Accesses -/

theorem load_eq {a : MagArray} {i : Int} {k : Nat} (hi : i = k) (hk : k < a.length) :
    a.load i = .ok a[k] := by
  rw [load, hi, if_pos (Int.natCast_nonneg k), Int.toNat_natCast, List.getElem?_eq_getElem hk]
  rfl

theorem store_eq {a : MagArray} {i : Int} {k : Nat} (hi : i = k) (hk : k < a.length) (x : Nat) :
    a.store i x = .ok (a.set k x) := by
  rw [store, hi, Int.toNat_natCast, if_pos ⟨Int.natCast_nonneg k, hk⟩]

/-! ## Rows of limbs -/

/-- An array with new limbs before `stop`. -/
structure Row (q r : MagArray) (stop : Nat) : Prop where
  length : r.length = q.length
  limb : ∀ d ∈ r, d < 4294967296
  rest : ∀ k, stop ≤ k → r[k]? = q[k]?

namespace Row

variable {q r : MagArray} {k d : Nat}

theorem refl (hq : ∀ d ∈ q, d < 4294967296) (stop : Nat) : Row q q stop := ⟨rfl, hq, fun _ _ => rfl⟩

theorem set (h : Row q r k) (hd : d < 4294967296) : Row q (r.set k d) (k + 1) where
  length := by rw [List.length_set, h.length]
  limb := Radix.forall_mem_set h.limb hd
  rest j hj := by
    rw [List.getElem?_set_ne (by omega)]
    exact h.rest j (by omega)

theorem lt (h : Row q r k) {j : Nat} (hj : j < r.length) : r[j] < 4294967296 :=
  h.limb _ (List.getElem_mem hj)

end Row

theorem and_mask (n : Nat) : n &&& 4294967295 = n % 4294967296 := Nat.and_two_pow_sub_one_eq_mod n 32

theorem substructLimb_spec {limb carry factor x : Nat} (hlimb : limb < 4294967296)
    (hfactor : factor < 4294967296) (hx : x < 4294967296) (hcarry : carry ≤ x) :
    (substructLimb limb carry (u64 (factor * x))).1 < 4294967296 ∧
      (substructLimb limb carry (u64 (factor * x))).2 ≤ x ∧
      (substructLimb limb carry (u64 (factor * x))).1 + factor * x + carry =
        limb + 4294967296 * (substructLimb limb carry (u64 (factor * x))).2 := by
  have hproduct : factor * x ≤ 4294967295 * x := Nat.mul_le_mul_right x (by omega)
  generalize factor * x = product at *
  have hu64 : u64 product = product := Nat.mod_eq_of_lt (by omega)
  have hdifference : ((limb : Int) - carry - (product % 4294967296 : Nat)).bmod
      18446744073709551616 = (limb : Int) - carry - (product % 4294967296 : Nat) :=
    Int.bmod_eq_of_le (by omega) (by omega)
  simp only [substructLimb, hu64, and_mask, hdifference, Nat.shiftRight_eq_div_pow]
  omega

section Rows

variable {q a : MagArray} {offset n x : Nat}

/-- `q - a * x` in `n` limbs from `offset`, where the carry is what is missing at the next limb. -/
structure Substructed (q a : MagArray) (offset x n : Nat) (s : MagArray × Nat) : Prop where
  row : Row q s.1 (offset + n)
  carry : s.2 ≤ x
  value : toNat s.1 + 4294967296 ^ offset * (x * toNat (a.take n)) =
    toNat q + 4294967296 ^ (offset + n) * s.2

theorem multiplyAndSubstruct_yields (hq : ∀ d ∈ q, d < 4294967296) (ha : ∀ d ∈ a, d < 4294967296)
    (hx : x < 4294967296) (hn : n ≤ a.length) (hlen : offset + n ≤ q.length) :
    Yields (multiplyAndSubstruct q offset a n x) (Substructed q a offset x n) := by
  refine Yields.bind (P := Substructed q a offset x n) (Loops.up_yields ?_ ?_) ?_
  · exact ⟨.refl hq _, Nat.zero_le x, by simp [toNat]⟩
  · intro i s hi h
    have hr : offset + i < s.1.length := by
      rw [h.row.length]
      omega
    have hi' : i < a.length := by omega
    have hfactor : a[i] < 4294967296 := ha _ (List.getElem_mem hi')
    obtain ⟨hlimb, hcarry, hstep⟩ := substructLimb_spec (h.row.lt hr) hfactor hx h.carry
    simp only [load_eq (k := i) rfl hi', load_eq (k := offset + i) (Int.natCast_add _ _).symm hr,
      store_eq (k := offset + i) (Int.natCast_add _ _).symm hr, ok_bind]
    refine Yields.ok ⟨h.row.set hlimb, hcarry, ?_⟩
    have hset := Radix.ofDigits_set (b := 4294967296) hr
      (substructLimb s.1[offset + i] s.2 (u64 (a[i] * x))).1
    have hvalue := h.value
    simp only [toNat, Radix.ofDigits_take_succ (b := 4294967296) hi'] at hvalue ⊢
    rw [← Nat.add_assoc, pow_succ]
    rw [pow_add] at hset hvalue ⊢
    have hscaled := congrArg (4294967296 ^ offset * 4294967296 ^ i * ·) hstep
    linarith
  · intro s h
    have hu32 : u32 s.2 = s.2 := Nat.mod_eq_of_lt (Nat.lt_of_le_of_lt h.carry hx)
    rw [hu32]
    exact .ok h

theorem sum_spec {limb other carry : Nat} (hlimb : limb < 4294967296)
    (hother : other + carry ≤ 4294967296) :
    u32 (u64 (limb + other + carry)) < 4294967296 ∧ u64 (limb + other + carry) >>> 32 ≤ 1 ∧
      u32 (u64 (limb + other + carry)) + 4294967296 * (u64 (limb + other + carry) >>> 32) =
        limb + other + carry := by
  simp only [u32, u64, Nat.shiftRight_eq_div_pow]
  omega

/-- The sum in `n` limbs from `offset`. -/
structure Added (q a : MagArray) (offset n : Nat) (s : MagArray × Nat) : Prop where
  row : Row q s.1 (offset + n)
  carry : s.2 ≤ 1
  value : toNat s.1 + 4294967296 ^ (offset + n) * s.2 =
    toNat q + 4294967296 ^ offset * toNat (a.take n)

theorem add_yields (hq : ∀ d ∈ q, d < 4294967296) (ha : ∀ d ∈ a, d < 4294967296)
    (hn : n ≤ a.length) (hlen : offset + n ≤ q.length) :
    Yields (add q offset a n) (Added q a offset n) := by
  refine Yields.bind (P := Added q a offset n) (Loops.up_yields ?_ ?_) ?_
  · exact ⟨.refl hq _, Nat.zero_le 1, by simp [toNat]⟩
  · intro i s hi h
    have hr : offset + i < s.1.length := by
      rw [h.row.length]
      omega
    have hi' : i < a.length := by omega
    have hother : a[i] < 4294967296 := ha _ (List.getElem_mem hi')
    have hold := h.carry
    obtain ⟨hlimb, hcarry, hstep⟩ := @sum_spec _ a[i] s.2 (h.row.lt hr) (by omega)
    simp only [load_eq (k := i) rfl hi', load_eq (k := offset + i) (Int.natCast_add _ _).symm hr,
      store_eq (k := offset + i) (Int.natCast_add _ _).symm hr, ok_bind]
    refine Yields.ok ⟨h.row.set hlimb, hcarry, ?_⟩
    have hset := Radix.ofDigits_set (b := 4294967296) hr (u32 (u64 (s.1[offset + i] + a[i] + s.2)))
    have hvalue := h.value
    simp only [toNat, Radix.ofDigits_take_succ (b := 4294967296) hi'] at hvalue ⊢
    rw [← Nat.add_assoc, pow_succ]
    rw [pow_add] at hset hvalue ⊢
    have hscaled := congrArg (4294967296 ^ offset * 4294967296 ^ i * ·) hstep
    linarith
  · intro s h
    have hcarry := h.carry
    have hu32 : u32 s.2 = s.2 := Nat.mod_eq_of_lt (by omega)
    rw [hu32]
    exact .ok h

/-- A number is added at `offset`. -/
structure Carried (q : MagArray) (x offset n : Nat) (s : MagArray × Nat) : Prop where
  row : Row q s.1 (offset + n)
  carry : s.2 < 4294967296
  value : toNat s.1 + 4294967296 ^ (offset + n) * s.2 = toNat q + 4294967296 ^ offset * x

theorem addNumber_yields (hq : ∀ d ∈ q, d < 4294967296) (hx : x < 4294967296)
    (hlen : offset + n ≤ q.length) : Yields (addNumber q offset n x) (Carried q x offset n) := by
  refine Yields.bind (P := Carried q x offset n) (Loops.up_yields ?_ ?_) ?_
  · exact ⟨.refl hq _, hx, rfl⟩
  · intro i s hi h
    have hr : offset + i < s.1.length := by
      rw [h.row.length]
      omega
    by_cases hzero : s.2 = 0
    · -- nothing is carried: the loop has ended
      rw [if_pos hzero]
      have hvalue := h.value
      rw [hzero, Nat.mul_zero] at hvalue
      refine Yields.ok ⟨⟨h.row.length, h.row.limb, fun k hk => h.row.rest k (by omega)⟩, h.carry, ?_⟩
      rw [hzero, Nat.mul_zero]
      exact hvalue
    · rw [if_neg hzero]
      have hold := h.carry
      obtain ⟨hlimb, hcarry, hstep⟩ := @sum_spec _ 0 s.2 (h.row.lt hr) (by omega)
      rw [Nat.add_zero] at hlimb hcarry hstep
      simp only [load_eq (k := offset + i) (Int.natCast_add _ _).symm hr,
        store_eq (k := offset + i) (Int.natCast_add _ _).symm hr, ok_bind]
      refine Yields.ok ⟨h.row.set hlimb, by simp only; omega, ?_⟩
      have hset := Radix.ofDigits_set (b := 4294967296) hr (u32 (u64 (s.1[offset + i] + s.2)))
      have hvalue := h.value
      simp only [toNat] at hvalue ⊢
      rw [← Nat.add_assoc, pow_succ]
      rw [pow_add] at hset hvalue ⊢
      have hscaled := congrArg (4294967296 ^ offset * 4294967296 ^ i * ·) hstep
      linarith
  · intro s h
    have hu32 : u32 s.2 = s.2 := Nat.mod_eq_of_lt h.carry
    rw [hu32]
    exact .ok h

end Rows

/-! ## Shifts -/

theorem mul_pow_mod {n : Nat} (hn : n ≤ 32) (a : Nat) :
    a * 2 ^ n % 4294967296 = a % 2 ^ (32 - n) * 2 ^ n := by
  have hpow : 4294967296 = 2 ^ (32 - n) * 2 ^ n := by
    rw [← pow_add, Nat.sub_add_cancel hn]
    rfl
  rw [hpow, Nat.mul_mod_mul_right]

/-- The two parts of a limb that is shifted do not overlap. -/
theorem or_eq_add {n a b : Nat} (hn : n ≤ 32) (hb : b < 2 ^ n) :
    u32 (a <<< n) ||| b = u32 (a <<< n) + b := by
  rw [u32, Nat.shiftLeft_eq, mul_pow_mod hn, ← Nat.shiftLeft_eq,
    ← Nat.shiftLeft_add_eq_or_of_lt hb]

theorem shiftRight_lt {n b : Nat} (hn : n ≤ 32) (hb : b < 4294967296) : b >>> (32 - n) < 2 ^ n := by
  rw [Nat.shiftRight_eq_div_pow]
  refine Nat.div_lt_of_lt_mul ?_
  rw [← pow_add, Nat.sub_add_cancel hn]
  exact hb

/-- What a limb has after a shift, and what goes to the next limb. -/
theorem shifted_add {n : Nat} (hn : n ≤ 32) (a : Nat) :
    u32 (a <<< n) + 4294967296 * (a >>> (32 - n)) = a * 2 ^ n := by
  have hsplit := Nat.mod_add_div a (2 ^ (32 - n))
  have hpow : 4294967296 = 2 ^ (32 - n) * 2 ^ n := by
    rw [← pow_add, Nat.sub_add_cancel hn]
    rfl
  rw [u32, Nat.shiftLeft_eq, mul_pow_mod hn, Nat.shiftRight_eq_div_pow, hpow]
  conv_rhs => rw [← hsplit]
  ring

section Shifts

variable {input out : MagArray} {n : Nat}

theorem toNat_append (a a' : MagArray) :
    toNat (a ++ a') = toNat a + 4294967296 ^ a.length * toNat a' := Nat.ofDigits_append

theorem toNat_drop_eq {k : Nat} (hk : k < input.length) :
    toNat (input.drop k) = input[k] + 4294967296 * toNat (input.drop (k + 1)) :=
  Radix.ofDigits_drop_eq hk

/-- `std::copy`. -/
theorem copy_yields (hn : n ≤ input.length) (hlen : n ≤ out.length) :
    Yields (Loops.up (fun i out => do
      let limb ← input.load i
      out.store i limb) n out) fun r =>
        r.length = out.length ∧ r.take n = input.take n ∧ ∀ k, n ≤ k → r[k]? = out[k]? := by
  refine Loops.up_yields (I := fun i r => r.length = out.length ∧ r.take i = input.take i ∧
    ∀ k, i ≤ k → r[k]? = out[k]?) ⟨rfl, rfl, fun _ _ => rfl⟩ ?_
  rintro i r hi ⟨hlength, htake, hrest⟩
  have hi' : i < input.length := by omega
  have hr : i < r.length := by omega
  simp only [load_eq (k := i) rfl hi', store_eq (k := i) rfl hr, ok_bind]
  refine Yields.ok ⟨by rw [List.length_set, hlength], ?_, fun k hk => ?_⟩
  · rw [List.take_succ_eq_append_getElem hi', List.take_succ_eq_append_getElem (by simpa using hr),
      List.take_set_of_le (Nat.le_refl i), htake, List.getElem_set_self]
  · rw [List.getElem?_set_ne (by omega)]
    exact hrest k (by omega)

/-- After the limbs above `i` have been shifted left. -/
structure ShiftedLeft (input : MagArray) (size n i : Nat) (out : MagArray) : Prop where
  length : out.length = size
  limb : ∀ d ∈ out, d < 4294967296
  zero : ∀ k, k < size → k ≤ i ∨ input.length ≤ k → out[k]? = some 0
  value : toNat out + 4294967296 ^ input.length * (input.getD (input.length - 1) 0 >>> (32 - n)) =
    4294967296 ^ (i + 1) * (toNat (input.drop (i + 1)) * 2 ^ n + input.getD i 0 >>> (32 - n))

theorem ShiftedLeft.set {size i x : Nat} (h : ShiftedLeft input size n i out)
    (hi : i < input.length) (hsize : input.length ≤ size) (hx : x < 4294967296) :
    (out.set i x).length = size ∧ (∀ d ∈ out.set i x, d < 4294967296) ∧
      toNat (out.set i x) = toNat out + 4294967296 ^ i * x := by
  refine ⟨by rw [List.length_set, h.length], Radix.forall_mem_set h.limb hx, ?_⟩
  have hi' : i < out.length := by
    rw [h.length]
    omega
  have hold : out[i] = 0 := by
    have hzero := h.zero i (by omega) (.inl (Nat.le_refl i))
    rw [List.getElem?_eq_getElem hi'] at hzero
    exact Option.some.inj hzero
  have hset := Radix.ofDigits_set (b := 4294967296) hi' x
  rw [hold, Nat.mul_zero, Nat.add_zero] at hset
  exact hset

/-- The step of the loop, at the limb above `i`. -/
theorem ShiftedLeft.step {size i : Nat} (hin : ∀ d ∈ input, d < 4294967296) (hn : n < 32)
    (hsize : input.length ≤ size) (hi : i + 1 < input.length)
    (h : ShiftedLeft input size n (i + 1) out) :
    Yields (do
      let high ← input.load ((i : Int) + 1)
      let low ← input.load i
      out.store ((i : Int) + 1) (u32 (high <<< n) ||| low >>> (32 - n)))
      (ShiftedLeft input size n i) := by
  have hi0 : i < input.length := by omega
  have hr : i + 1 < out.length := by
    rw [h.length]
    omega
  have hlow := shiftRight_lt hn.le (hin _ (List.getElem_mem hi0))
  have hx : u32 (input[i + 1] <<< n) ||| input[i] >>> (32 - n) < 4294967296 := by
    refine Nat.or_lt_two_pow (n := 32) (u32_lt _) ?_
    exact hlow.trans_le (Nat.pow_le_pow_right (by decide) hn.le)
  obtain ⟨hlength, hdigits, hset⟩ := h.set hi hsize hx
  simp only [load_eq (k := i + 1) (Int.natCast_succ i).symm hi, load_eq (k := i) rfl hi0,
    store_eq (k := i + 1) (Int.natCast_succ i).symm hr, ok_bind]
  refine Yields.ok ⟨hlength, hdigits, fun k hk hor => ?_, ?_⟩
  · rw [List.getElem?_set_ne (by omega)]
    exact h.zero k hk (by omega)
  · have hvalue := h.value
    have hshift := shifted_add hn.le input[i + 1]
    rw [List.getD_eq_getElem _ _ hi] at hvalue
    rw [List.getD_eq_getElem _ _ hi0, hset, toNat_drop_eq hi, or_eq_add hn.le hlow]
    rw [pow_succ] at hvalue
    have hscaled := congrArg (4294967296 ^ (i + 1) * ·) hshift
    linarith

/-- All of `input * 2 ^ n` but the limb above those of `input`. -/
structure LeftShift (input : MagArray) (size n : Nat) (r : MagArray) : Prop where
  length : r.length = size
  limb : ∀ d ∈ r, d < 4294967296
  zero : ∀ k, k < size → input.length ≤ k → r[k]? = some 0
  value : toNat r + 4294967296 ^ input.length * (input.getD (input.length - 1) 0 >>> (32 - n)) =
    toNat input * 2 ^ n

/-- The lowest limb, after the loop. -/
theorem ShiftedLeft.last {size : Nat} (hn : n < 32) (hsize : input.length ≤ size)
    (hpos : 0 < input.length) (h : ShiftedLeft input size n 0 out) :
    Yields (do
      let low ← input.load 0
      out.store 0 (u32 (low <<< n))) (LeftShift input size n) := by
  have hr : 0 < out.length := by
    rw [h.length]
    omega
  obtain ⟨hlength, hdigits, hset⟩ := h.set hpos hsize (u32_lt (input[0] <<< n))
  simp only [load_eq (k := 0) Nat.cast_zero.symm hpos, store_eq (k := 0) Nat.cast_zero.symm hr,
    ok_bind]
  refine Yields.ok ⟨hlength, hdigits, fun k hk hle => ?_, ?_⟩
  · rw [List.getElem?_set_ne (by omega)]
    exact h.zero k hk (.inr hle)
  · have hvalue := h.value
    have hshift := shifted_add hn.le input[0]
    have hfirst := toNat_drop_eq hpos
    rw [List.drop_zero, Nat.zero_add] at hfirst
    rw [List.getD_eq_getElem _ _ hpos, Nat.zero_add, pow_one] at hvalue
    rw [hset, hfirst, pow_zero]
    linarith

/-- A copy among zeros is a shift by no bit. -/
theorem leftShift_copy {size : Nat} {r : MagArray} (hin : ∀ d ∈ input, d < 4294967296)
    (hpos : 0 < input.length) (hlength : r.length = size)
    (htake : r.take input.length = input)
    (hrest : ∀ k, input.length ≤ k → r[k]? = (List.replicate size 0)[k]?) :
    LeftShift input size 0 r := by
  have hdrop : r.drop input.length = List.replicate (size - input.length) 0 := by
    refine List.ext_getElem? fun k => ?_
    rw [List.getElem?_drop, hrest _ (by omega), List.getElem?_replicate, List.getElem?_replicate]
    refine if_congr ?_ rfl rfl
    omega
  refine ⟨hlength, ?_, fun k hk hle => ?_, ?_⟩
  · rw [← List.take_append_drop input.length r, htake, hdrop]
    intro d hd
    rcases List.mem_append.mp hd with hd | hd
    · exact hin d hd
    · rw [List.eq_of_mem_replicate hd]
      decide
  · rw [hrest k hle, List.getElem?_replicate, if_pos hk]
  · have htop : input.getD (input.length - 1) 0 >>> (32 - 0) = 0 := by
      have hi : input.length - 1 < input.length := by omega
      have hlt := hin _ (List.getElem_mem hi)
      rw [List.getD_eq_getElem _ _ hi, Nat.shiftRight_eq_div_pow]
      omega
    have hsplit := toNat_append (r.take input.length) (r.drop input.length)
    rw [List.take_append_drop, htake, hdrop] at hsplit
    rw [hsplit, htop, toNat, toNat, Nat.ofDigits_replicate_zero, Nat.mul_zero, Nat.add_zero,
      pow_zero, Nat.mul_one]

/-- The limbs of `input * 2 ^ n`, without the one above those of `input`. -/
theorem shiftLeft_yields {size : Nat} (hin : ∀ d ∈ input, d < 4294967296) (hne : input ≠ [])
    (hn : n < 32) (hsize : input.length ≤ size) :
    Yields (shiftLeft input input.length (List.replicate size 0) n) (LeftShift input size n) := by
  have hpos := List.length_pos_iff.mpr hne
  unfold shiftLeft
  split
  · rename_i hzero
    subst hzero
    refine (copy_yields (Nat.le_refl _) (by simpa using hsize)).mono ?_
    rintro r ⟨hlength, htake, hrest⟩
    rw [List.length_replicate] at hlength
    rw [List.take_length] at htake
    exact leftShift_copy hin hpos hlength htake hrest
  · have hwhole : ShiftedLeft input size n (input.length - 1) (List.replicate size 0) := by
      refine ⟨List.length_replicate, fun d hd => ?_, fun k hk _ => ?_, ?_⟩
      · rw [List.eq_of_mem_replicate hd]
        decide
      · rw [List.getElem?_replicate, if_pos hk]
      · have hdrop : input.drop (input.length - 1 + 1) = [] := List.drop_of_length_le (by omega)
        have hnil : toNat [] = 0 := rfl
        rw [hdrop, hnil, toNat, Nat.ofDigits_replicate_zero, Nat.sub_add_cancel hpos]
        ring
    refine Yields.bind (P := ShiftedLeft input size n 0) (Loops.down_yields hwhole ?_) ?_
    · exact fun i r hi h => h.step hin hn hsize (by omega)
    · exact fun r h => h.last hn hsize hpos

/-- What a limb has after a shift to the right, from the limb above it too. -/
theorem shiftedRight_add {n : Nat} (hn : n ≤ 32) {low : Nat} (hlow : low < 4294967296) (high : Nat) :
    (low >>> n ||| u32 (high <<< (32 - n))) * 2 ^ n + low % 2 ^ n =
      low + 4294967296 * (high % 2 ^ n) := by
  have hle : 32 - n ≤ 32 := Nat.sub_le 32 n
  have hpart : low >>> n < 2 ^ (32 - n) := by
    have hlt := shiftRight_lt hle hlow
    rwa [Nat.sub_sub_self hn] at hlt
  have hpow : 4294967296 = 2 ^ (32 - n) * 2 ^ n := by
    rw [← pow_add, Nat.sub_add_cancel hn]
    rfl
  have hsplit := Nat.div_add_mod' low (2 ^ n)
  have hmul := mul_pow_mod hle high
  rw [Nat.sub_sub_self hn] at hmul
  rw [Nat.lor_comm, or_eq_add hle hpart, u32, Nat.shiftLeft_eq, hmul, Nat.shiftRight_eq_div_pow,
    Nat.add_mul, Nat.mul_assoc, ← hpow]
  linarith

/-- One more limb is written. -/
theorem take_set {r : MagArray} {i x : Nat} (hr : i < r.length)
    (hlimb : ∀ d ∈ r.take i, d < 4294967296) (hx : x < 4294967296) :
    toNat ((r.set i x).take (i + 1)) = toNat (r.take i) + 4294967296 ^ i * x ∧
      ∀ d ∈ (r.set i x).take (i + 1), d < 4294967296 := by
  have htake : (r.set i x).take (i + 1) = r.take i ++ [x] := by
    rw [List.take_succ_eq_append_getElem (by simpa using hr), List.take_set_of_le (Nat.le_refl i),
      List.getElem_set_self]
  rw [htake]
  constructor
  · rw [toNat_append, List.length_take, Nat.min_eq_left hr.le, toNat, toNat, Nat.ofDigits_singleton]
  · intro d hd
    rcases List.mem_append.mp hd with hd | hd
    · exact hlimb d hd
    · rw [List.mem_singleton.mp hd]
      exact hx

/-- After the limbs below `i` have been shifted right. -/
structure ShiftedRight (input : MagArray) (len n i : Nat) (r : MagArray) : Prop where
  length : r.length = len
  limb : ∀ d ∈ r.take i, d < 4294967296
  value : toNat (r.take i) * 2 ^ n + input.getD 0 0 % 2 ^ n =
    toNat (input.take i) + input.getD i 0 % 2 ^ n * 4294967296 ^ i

/-- The step of the loop, at the limb `i`. -/
theorem ShiftedRight.step {len i : Nat} {r : MagArray} (hin : ∀ d ∈ input, d < 4294967296)
    (hn : n < 32) (hi : i + 1 < input.length) (hr : i < len) (h : ShiftedRight input len n i r) :
    Yields (do
      let low ← input.load i
      let high ← input.load ((i : Int) + 1)
      r.store i (low >>> n ||| u32 (high <<< (32 - n)))) (ShiftedRight input len n (i + 1)) := by
  have hi0 : i < input.length := by omega
  have hr' : i < r.length := by
    rw [h.length]
    exact hr
  have hlimb := hin _ (List.getElem_mem hi0)
  have hx : input[i] >>> n ||| u32 (input[i + 1] <<< (32 - n)) < 4294967296 := by
    refine Nat.or_lt_two_pow (n := 32) ?_ (u32_lt _)
    exact (Nat.shiftRight_le _ _).trans_lt hlimb
  simp only [load_eq (k := i + 1) (Int.natCast_succ i).symm hi, load_eq (k := i) rfl hi0,
    store_eq (k := i) rfl hr', ok_bind]
  obtain ⟨htake, hlimbs⟩ := take_set hr' h.limb hx
  refine Yields.ok ⟨by rw [List.length_set, h.length], hlimbs, ?_⟩
  have hvalue := h.value
  have hshift := shiftedRight_add hn.le hlimb input[i + 1]
  have hinput : toNat (input.take (i + 1)) = toNat (input.take i) + 4294967296 ^ i * input[i] :=
    Radix.ofDigits_take_succ hi0
  rw [List.getD_eq_getElem _ _ hi0] at hvalue
  rw [htake, hinput, List.getD_eq_getElem _ _ hi, pow_succ]
  have hscaled := congrArg (4294967296 ^ i * ·) hshift
  linarith

/-- The highest limb, after the loop. -/
theorem ShiftedRight.last {len : Nat} {r : MagArray} (hin : ∀ d ∈ input, d < 4294967296)
    (hpos : 0 < len) (hlen : len ≤ input.length) (h : ShiftedRight input len n (len - 1) r) :
    Yields (do
      let high ← input.load ((len : Int) - 1)
      r.store ((len : Int) - 1) (high >>> n)) fun r =>
        r.length = len ∧ (∀ d ∈ r, d < 4294967296) ∧ toNat r = toNat (input.take len) / 2 ^ n := by
  have hlength := h.length
  have hi : len - 1 < input.length := by omega
  have hr : len - 1 < r.length := by omega
  have hindex : (len : Int) - 1 = (len - 1 : Nat) := by omega
  have hx : input[len - 1] >>> n < 4294967296 :=
    (Nat.shiftRight_le _ _).trans_lt (hin _ (List.getElem_mem hi))
  simp only [load_eq (k := len - 1) hindex hi, store_eq (k := len - 1) hindex hr, ok_bind]
  obtain ⟨hset, hlimbs⟩ := take_set hr h.limb hx
  rw [List.take_of_length_le (by rw [List.length_set]; omega)] at hset hlimbs
  refine Yields.ok ⟨by rw [List.length_set, hlength], hlimbs, ?_⟩
  have hinput : toNat (input.take len) = toNat (input.take (len - 1)) +
      4294967296 ^ (len - 1) * input[len - 1] := by
    have hsucc := Radix.ofDigits_take_succ (b := 4294967296) hi
    rw [Nat.sub_add_cancel hpos] at hsucc
    exact hsucc
  have hvalue := h.value
  have hsplit := Nat.div_add_mod' input[len - 1] (2 ^ n)
  have hscaled := congrArg (4294967296 ^ (len - 1) * ·) hsplit
  have hlow := Nat.mod_lt (input.getD 0 0) (Nat.two_pow_pos n)
  rw [List.getD_eq_getElem _ _ hi] at hvalue
  have htotal : toNat (input.take len) = input.getD 0 0 % 2 ^ n +
      2 ^ n * toNat (r.set (len - 1) (input[len - 1] >>> n)) := by
    rw [hinput, hset, Nat.shiftRight_eq_div_pow]
    linarith
  rw [htotal, Nat.add_mul_div_left _ _ (Nat.two_pow_pos n), Nat.div_eq_of_lt hlow, Nat.zero_add]

/-- The number of `len` limbs, divided. -/
theorem shiftRight_yields {len : Nat} (hin : ∀ d ∈ input, d < 4294967296)
    (hpos : 0 < len) (hlen : len ≤ input.length)
    (hsize : out.length = len) (hn : n < 32) :
    Yields (shiftRight input len out n) fun r =>
      r.length = len ∧ (∀ d ∈ r, d < 4294967296) ∧ toNat r = toNat (input.take len) / 2 ^ n := by
  unfold shiftRight
  split
  · rename_i hzero
    subst hzero
    refine (copy_yields hlen (Nat.le_of_eq hsize.symm)).mono ?_
    rintro r ⟨hlength, htake, -⟩
    rw [List.take_of_length_le (by omega)] at htake
    refine ⟨by rw [hlength, hsize], fun d hd => ?_, by rw [htake, pow_zero, Nat.div_one]⟩
    rw [htake] at hd
    exact hin d (List.mem_of_mem_take hd)
  · refine Yields.bind (P := ShiftedRight input len n (len - 1)) (Loops.up_yields ?_ ?_) ?_
    · exact ⟨hsize, by simp, by simp [toNat]⟩
    · exact fun i r hi h => h.step hin hn (by omega) (by omega)
    · exact fun r h => h.last hin hpos hlen

end Shifts

end MagArray

/-! ## Leading zeros -/

/-- The count so far is one more than the zeros that are gone, and at most `32 - j` are left. -/
structure Skipped (i j : Nat) (s : Nat × Nat) : Prop where
  count : 1 ≤ s.1
  value : s.2 = i * 2 ^ (s.1 - 1)
  lower : 2 ^ j ≤ s.2
  upper : s.2 < 4294967296

theorem Skipped.skipZeros {i j k : Nat} {s : Nat × Nat} (h : Skipped i j s) (hk : k ≤ 32)
    (hjk : 32 - k ≤ j + k) : Skipped i (32 - k) (skipZeros k s) := by
  have hpow : 2 ^ (32 - k) * 2 ^ k = 4294967296 := by
    rw [← pow_add, Nat.sub_add_cancel hk]
    rfl
  have hcount := h.count
  unfold TrinoOdbc.skipZeros
  split
  · rename_i hzero
    rw [Nat.shiftRight_eq_div_pow, Nat.div_eq_zero_iff_lt (Nat.two_pow_pos _)] at hzero
    have hlt : s.2 * 2 ^ k < 4294967296 := by
      rw [← hpow]
      exact Nat.mul_lt_mul_of_pos_right hzero (Nat.two_pow_pos k)
    have hu32 : u32 (s.2 <<< k) = s.2 * 2 ^ k := by
      rw [u32, Nat.shiftLeft_eq, Nat.mod_eq_of_lt hlt]
    refine ⟨by simp only; omega, ?_, ?_, ?_⟩
    · have hexp : s.1 + k - 1 = s.1 - 1 + k := by omega
      simp only [hu32, hexp]
      rw [h.value, pow_add, Nat.mul_assoc]
    · simp only [hu32]
      calc 2 ^ (32 - k) ≤ 2 ^ (j + k) := Nat.pow_le_pow_right (by decide) hjk
        _ = 2 ^ j * 2 ^ k := pow_add 2 j k
        _ ≤ s.2 * 2 ^ k := Nat.mul_le_mul_right _ h.lower
    · simp only [hu32]
      exact hlt
  · rename_i hnz
    rw [Nat.shiftRight_eq_div_pow, Nat.div_eq_zero_iff_lt (Nat.two_pow_pos _), Nat.not_lt] at hnz
    exact ⟨h.count, h.value, hnz, h.upper⟩

/-- A limb without its leading zeros has its highest bit. -/
theorem numberOfLeadingZerosU32_spec {i : Nat} (hpos : 0 < i) (hlt : i < 4294967296) :
    2147483648 ≤ i * 2 ^ numberOfLeadingZerosU32 i ∧
      i * 2 ^ numberOfLeadingZerosU32 i < 4294967296 := by
  have hstart : Skipped i 0 (1, i) := ⟨Nat.le_refl 1, by simp, hpos, hlt⟩
  have hall : Skipped i 30 (skipZeros 2 (skipZeros 4 (skipZeros 8 (skipZeros 16 (1, i))))) :=
    (((hstart.skipZeros (k := 16) (by decide) (by decide)).skipZeros (k := 8) (by decide)
      (by decide)).skipZeros (k := 4) (by decide) (by decide)).skipZeros (k := 2) (by decide)
      (by decide)
  have hcount := hall.count
  have hvalue := hall.value
  have hlower := hall.lower
  have hupper := hall.upper
  rw [numberOfLeadingZerosU32, if_neg hpos.ne']
  generalize skipZeros 2 (skipZeros 4 (skipZeros 8 (skipZeros 16 (1, i)))) = s at *
  simp only [Nat.shiftRight_eq_div_pow]
  by_cases htop : s.2 < 2147483648
  · -- the highest bit is the next one
    rw [Nat.div_eq_of_lt (show s.2 < 2 ^ 31 from htop), Nat.sub_zero, ← Nat.sub_add_cancel hcount,
      pow_succ, ← Nat.mul_assoc, ← hvalue]
    omega
  · have hone : s.2 / 2 ^ 31 = 1 := by omega
    rw [hone, ← hvalue]
    omega

theorem numberOfLeadingZerosU32_lt {i : Nat} (hpos : 0 < i) (hlt : i < 4294967296) :
    numberOfLeadingZerosU32 i < 32 := by
  have hspec := numberOfLeadingZerosU32_spec hpos hlt
  have hle : 2 ^ numberOfLeadingZerosU32 i ≤ i * 2 ^ numberOfLeadingZerosU32 i :=
    Nat.le_mul_of_pos_left _ hpos
  exact (Nat.pow_lt_pow_iff_right (by decide : 1 < 2)).mp (show _ < 2 ^ 32 by omega)

/-- The size of a number, from what is left without its low bits. -/
theorem size_eq_add {n k : Nat} (hpos : 0 < n / 2 ^ k) : n.size = (n / 2 ^ k).size + k := by
  have hsize := Nat.size_pos.mpr hpos
  apply Nat.le_antisymm
  · rw [Nat.size_le, pow_add]
    exact Nat.lt_mul_of_div_lt (Nat.lt_size_self _) (Nat.two_pow_pos k)
  · have hlow : 2 ^ ((n / 2 ^ k).size - 1) ≤ n / 2 ^ k := Nat.lt_size.mp (by omega)
    have hle : (n / 2 ^ k).size - 1 + k < n.size := by
      rw [Nat.lt_size, pow_add]
      exact (Nat.le_div_iff_mul_le (Nat.two_pow_pos k)).mp hlow
    omega

theorem bitLengthU32_eq {i : Nat} (hpos : 0 < i) (hlt : i < 4294967296) :
    bitLengthU32 i = i.size := by
  have hspec := numberOfLeadingZerosU32_spec hpos hlt
  have hz := numberOfLeadingZerosU32_lt hpos hlt
  rw [bitLengthU32]
  generalize numberOfLeadingZerosU32 i = z at *
  have hpow : 2 ^ (31 - z) * 2 ^ z = 2147483648 := by
    rw [← pow_add, Nat.sub_add_cancel (by omega)]
    rfl
  have hsucc : 2 ^ (32 - z) = 2 * 2 ^ (31 - z) := by
    rw [show 32 - z = 31 - z + 1 by omega, pow_succ, Nat.mul_comm]
  apply Nat.le_antisymm
  · have hlow : 2 ^ (31 - z) ≤ i := by
      refine Nat.le_of_mul_le_mul_right ?_ (Nat.two_pow_pos z)
      omega
    have hsize := Nat.lt_size.mpr hlow
    omega
  · rw [Nat.size_le, hsucc]
    refine Nat.lt_of_mul_lt_mul_right (a := 2 ^ z) ?_
    rw [Nat.mul_assoc]
    omega

end TrinoOdbc
