import TrinoOdbc.Formatted
import Mathlib.Algebra.Order.Field.Rat
import Mathlib.Data.List.DropRight
import Mathlib.Tactic.Ring

/-!
# TrinoOdbc.Numerals

Texts of decimal numbers, with a point and an exponent, and the rationals they denote.

* `value_append`, `eq_append_zeros` — digit strings that are joined, and without the zeros at the
  end.
* `Numeral` — the texts `[sign]digits[.digits][e|E exponent]`.
* `scanInt_exponent` — what is read of an exponent.
-/

namespace Formatted

/-! ## Digit strings -/

theorem value_append (ds es : List Char) :
    value (ds ++ es) = value ds * 10 ^ es.length + value es := by
  rw [value, Nat.ofDigitChars_append, Nat.ofDigitChars_eq_ofDigitChars_zero, Nat.mul_comm]
  rfl

theorem value_zeros (n : Nat) : value (List.replicate n '0') = 0 := by
  rw [value, Nat.ofDigitChars_replicate_zero, Nat.mul_zero]

theorem value_append_zeros (ds : List Char) (n : Nat) :
    value (ds ++ List.replicate n '0') = value ds * 10 ^ n := by
  rw [value_append, value_zeros, List.length_replicate, Nat.add_zero]

theorem value_zeros_append (ds : List Char) (n : Nat) :
    value (List.replicate n '0' ++ ds) = value ds := by
  rw [value_append, value_zeros, Nat.zero_mul, Nat.zero_add]

theorem value_singleton (c : Char) : value [c] = c.toNat - 48 := by
  rw [value, Nat.ofDigitChars_cons, Nat.ofDigitChars_nil, Nat.mul_zero, Nat.zero_add]
  rfl

/-- A digit string is the part up to the last digit that is no zero, and zeros. -/
theorem eq_append_zeros (ds : List Char) :
    ∃ n, ds = ds.rdropWhile (· = '0') ++ List.replicate n '0' := by
  refine ⟨(ds.rtakeWhile (· = '0')).length, ?_⟩
  have hzeros : ds.rtakeWhile (· = '0') =
      List.replicate (ds.rtakeWhile (· = '0')).length '0' := by
    refine List.eq_replicate_of_mem fun c hc => ?_
    simpa using List.mem_rtakeWhile_imp hc
  rw [← hzeros]
  exact List.rdropWhile_append_rtakeWhile.symm

/-! ## Numerals -/

def signs : List (List Char) := [[], ['+'], ['-']]

def signValue (sign : List Char) : Int := if sign = ['-'] then -1 else 1

structure Exponent where
  mark : Char
  sign : List Char
  digits : List Char
  mark_mem : mark ∈ ['e', 'E']
  sign_mem : sign ∈ signs
  digits_digits : Digits digits

namespace Exponent

def text (e : Exponent) : List Char := e.mark :: (e.sign ++ e.digits)

def value (e : Exponent) : Int := signValue e.sign * Formatted.value e.digits

end Exponent

/-- The texts `[sign]digits[.digits][e|E exponent]` with at least one digit. -/
structure Numeral where
  sign : List Char
  whole : List Char
  fraction : Option (List Char)
  exponent : Option Exponent
  sign_mem : sign ∈ signs
  whole_all : ∀ c ∈ whole, c.isDigit = true
  fraction_all : ∀ c ∈ fraction.getD [], c.isDigit = true
  some_digit : whole ++ fraction.getD [] ≠ []

namespace Numeral

def text (t : Numeral) : List Char :=
  t.sign ++ (t.whole ++ (t.fraction.elim [] ('.' :: ·) ++ t.exponent.elim [] Exponent.text))

/-- The digits as one number. -/
def unscaled (t : Numeral) : Nat := value (t.whole ++ t.fraction.getD [])

/-- The digits behind the point. -/
def places (t : Numeral) : Nat := (t.fraction.getD []).length

def power (t : Numeral) : Int := t.exponent.elim 0 Exponent.value

/-- The number that is denoted. -/
def toRat (t : Numeral) : ℚ := (signValue t.sign * t.unscaled : Int) * 10 ^ (t.power - t.places)

end Numeral

theorem scanInt_exponent (e : Exponent) :
    scanInt none (e.sign ++ e.digits) = some (e.value, []) := by
  have hend : ∀ c ∈ ([] : List Char).head?, c.isDigit = false := by simp
  have hsign := e.sign_mem
  simp only [signs, List.mem_cons, List.not_mem_nil, or_false] at hsign
  rcases hsign with h | h | h
  · have hscan := @scanInt_digits e.digits [] none e.digits_digits (by simp) (by simp)
    rw [List.append_nil] at hscan
    rw [h, List.nil_append, hscan, Exponent.value, h, signValue, if_neg (by decide), one_mul]
  · have hscan := scanInt_plus e.digits_digits hend
    rw [List.append_nil] at hscan
    rw [h, List.singleton_append, hscan, Exponent.value, h, signValue, if_neg (by decide), one_mul]
  · have hscan := scanInt_negative e.digits_digits hend
    rw [List.append_nil] at hscan
    rw [h, List.singleton_append, hscan, Exponent.value, h, signValue, if_pos rfl, neg_one_mul]

/-- A power of ten that is divided out of a number. -/
theorem mul_pow_zpow (v z : Nat) (scale : Int) :
    ((v * 10 ^ z : Nat) : ℚ) * 10 ^ (-scale) = v * 10 ^ (z - scale : Int) := by
  rw [sub_eq_add_neg, zpow_add₀ (by norm_num), zpow_natCast, Nat.cast_mul, Nat.cast_pow]
  ring

end Formatted
