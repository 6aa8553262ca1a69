import Mathlib.Algebra.Order.Ring.Int
import Mathlib.Data.Nat.Basic
import Mathlib.Tactic.Linarith
import Mathlib.Tactic.Ring

/-!
# TrinoOdbc.LongDivision

Long division in a base, one digit of the quotient after the other, where a digit is estimated from
the leading digits of the partial dividend and of the divisor.

* `quotient_step`, `remainder_step` — the digits are those of the quotient, and what is left after
  each is a remainder.
* `digit_le_estimate` — an estimate is never too small.
* `Trial` — how an estimate by one digit of the divisor is lowered to one by two digits.
-/

namespace LongDivision

variable {b U V : Nat}

/-! ## Digits of a quotient -/

/-- What the divisor is taken from at a position, in terms of that position. -/
def window (b U V i : Nat) : Nat := U / b ^ i % (V * b)

/-- The digit of the quotient at a position. -/
def digit (b U V i : Nat) : Nat := window b U V i / V

theorem window_lt (hb : 0 < b) (hV : 0 < V) (i : Nat) : window b U V i < V * b :=
  Nat.mod_lt _ (Nat.mul_pos hV hb)

theorem digit_lt (hb : 0 < b) (hV : 0 < V) (i : Nat) : digit b U V i < b :=
  Nat.div_lt_of_lt_mul (window_lt hb hV i)

theorem digit_eq (b U V i : Nat) : digit b U V i = U / (V * b ^ i) % b := by
  rw [digit, window, Nat.mod_mul_right_div_self, Nat.div_div_eq_div_mul, Nat.mul_comm V]

theorem quotient_step (b U V i : Nat) :
    U / (V * b ^ i) = digit b U V i + b * (U / (V * b ^ (i + 1))) := by
  have hdiv := Nat.mod_add_div (U / (V * b ^ i)) b
  rw [Nat.div_div_eq_div_mul, Nat.mul_assoc, ← pow_succ] at hdiv
  rw [digit_eq, hdiv]

theorem remainder_step (b U V i : Nat) :
    U % (V * b ^ (i + 1)) = U % (V * b ^ i) + digit b U V i * V * b ^ i := by
  rw [digit_eq, pow_succ, ← Nat.mul_assoc, Nat.mod_mul]
  ring

/-- The window, from what is left. -/
theorem window_eq (b U V i : Nat) : window b U V i = U % (V * b ^ (i + 1)) / b ^ i := by
  have hfactor : V * b ^ (i + 1) = b ^ i * (V * b) := by ring
  rw [hfactor, Nat.mod_mul_right_div_self, window]

/-! ## Estimates -/

/-- The estimate from what is left of both numbers without their `k` lowest digits. -/
def estimate (b k w V : Nat) : Nat := min (b - 1) (w / b ^ k / (V / b ^ k))

/-- The digit is what is estimated. -/
def Exact (b k U V i : Nat) : Prop := estimate b k (window b U V i) V = digit b U V i

instance (b k U V i : Nat) : Decidable (Exact b k U V i) := inferInstanceAs (Decidable (_ = _))

theorem digit_le_estimate (hb : 0 < b) (hV : 0 < V) {k : Nat} (hk : b ^ k ≤ V) (i : Nat) :
    digit b U V i ≤ estimate b k (window b U V i) V := by
  have hlead : 0 < V / b ^ k := Nat.div_pos hk (Nat.pow_pos hb)
  refine le_min (Nat.le_sub_one_of_lt (digit_lt hb hV i)) ?_
  rw [Nat.le_div_iff_mul_le hlead]
  calc digit b U V i * (V / b ^ k) ≤ digit b U V i * V / b ^ k := Nat.mul_div_le_mul_div_assoc _ _ _
    _ ≤ window b U V i / b ^ k := Nat.div_le_div_right (Nat.div_mul_le_self _ _)

/-- Nothing is estimated where all digits of the divisor are taken. -/
theorem exact_zero (hb : 0 < b) (hV : 0 < V) (i : Nat) : Exact b 0 U V i := by
  rw [Exact, estimate, pow_zero, Nat.div_one, Nat.div_one]
  exact Nat.min_eq_right (Nat.le_sub_one_of_lt (digit_lt hb hV i))

/-! ## Lowering an estimate -/

variable {v₁ v₂ top u₂ qhat rhat : Nat}

/-- `qhat` with its remainder `rhat` is an estimate from `top` and `v₁`, not below the one that takes
the next digits `u₂` and `v₂` too. -/
structure Trial (b v₁ v₂ top u₂ qhat rhat : Nat) : Prop where
  split : qhat * v₁ + rhat = top
  le : min (b - 1) ((b * top + u₂) / (b * v₁ + v₂)) ≤ qhat

namespace Trial

theorem start (hv : 0 < v₁) (hu : u₂ < b) : Trial b v₁ v₂ top u₂ (top / v₁) (top % v₁) where
  split := Nat.div_add_mod' top v₁
  le := by
    have hb : 0 < b := by omega
    have htop : (b * top + u₂) / b = top := by
      rw [Nat.mul_add_div hb, Nat.div_eq_of_lt hu, Nat.add_zero]
    calc min (b - 1) ((b * top + u₂) / (b * v₁ + v₂)) ≤ (b * top + u₂) / (b * v₁ + v₂) :=
        min_le_right _ _
      _ ≤ (b * top + u₂) / (b * v₁) :=
        Nat.div_le_div_left (Nat.le_add_right _ _) (Nat.mul_pos hb hv)
      _ = top / v₁ := by rw [← Nat.div_div_eq_div_mul, htop]

/-- The comparison of the lowered estimate without the numbers it is made of. -/
theorem lt_iff (h : Trial b v₁ v₂ top u₂ qhat rhat) :
    b * rhat + u₂ < qhat * v₂ ↔ b * top + u₂ < qhat * (b * v₁ + v₂) := by
  rw [← h.split]
  constructor
  · intro hlt
    linarith
  · intro hlt
    linarith

theorem eq_of_fits (h : Trial b v₁ v₂ top u₂ qhat rhat) (hv : 0 < b * v₁ + v₂)
    (hdigit : qhat ≤ b - 1) (hfits : ¬ b * rhat + u₂ < qhat * v₂) :
    qhat = min (b - 1) ((b * top + u₂) / (b * v₁ + v₂)) := by
  rw [h.lt_iff, Nat.not_lt] at hfits
  refine Nat.le_antisymm (le_min hdigit ?_) h.le
  exact (Nat.le_div_iff_mul_le hv).mpr hfits

theorem lower (h : Trial b v₁ v₂ top u₂ qhat rhat) (hv : 0 < b * v₁ + v₂)
    (hlarge : b - 1 < qhat ∨ b * rhat + u₂ < qhat * v₂) :
    Trial b v₁ v₂ top u₂ (qhat - 1) (rhat + v₁) := by
  have hpos : 1 ≤ qhat := by
    rcases hlarge with hlarge | hlarge
    · omega
    · by_contra hzero
      obtain rfl : qhat = 0 := by omega
      omega
  constructor
  · rw [← h.split, Nat.sub_mul, Nat.one_mul]
    have hle : v₁ ≤ qhat * v₁ := Nat.le_mul_of_pos_left v₁ hpos
    omega
  · apply Nat.le_sub_one_of_lt
    rcases hlarge with hlarge | hlarge
    · exact (min_le_left _ _).trans_lt hlarge
    · rw [h.lt_iff] at hlarge
      exact (min_le_right _ _).trans_lt ((Nat.div_lt_iff_lt_mul hv).mpr hlarge)

/-- With a large remainder the estimate need not be lowered any more. -/
theorem eq_of_large (h : Trial b v₁ v₂ top u₂ qhat rhat) (hv : v₂ < b) (hpos : 0 < v₁)
    (htop : top < b * v₁ + b) (hlarge : b ≤ rhat) :
    qhat = min (b - 1) ((b * top + u₂) / (b * v₁ + v₂)) := by
  have hsplit := h.split
  have hdigit : qhat < b := by
    apply Nat.lt_of_mul_lt_mul_right (a := v₁)
    omega
  have hpos' : 0 < b * v₁ + v₂ := Nat.add_pos_left (Nat.mul_pos (by omega) hpos) _
  refine h.eq_of_fits hpos' (by omega) (Nat.not_lt.mpr ?_)
  calc qhat * v₂ ≤ b * b := Nat.mul_le_mul hdigit.le hv.le
    _ ≤ b * rhat := Nat.mul_le_mul_left b hlarge
    _ ≤ b * rhat + u₂ := Nat.le_add_right _ _

end Trial

end LongDivision
