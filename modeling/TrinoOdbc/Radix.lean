import Mathlib.Data.Nat.Digits.Lemmas
import Mathlib.Data.List.DropRight

/-!
# TrinoOdbc.Radix

Numbers as lists of digits in a base, the lowest digit first, as arrays hold them: one digit
replaced, digits at the end cut off or appended, two lists compared.

* `ofDigits_set` — what replacing one digit does to the number.
* `getElem_eq_div_mod`, `getLast_eq_div` — a digit, from the number.
* `Canonical` — no zero at the end; `Canonical.eq_digits`.
-/

namespace Radix

variable {b : Nat} {l l' : List Nat}

theorem ofDigits_take_succ {k : Nat} (hk : k < l.length) :
    Nat.ofDigits b (l.take (k + 1)) = Nat.ofDigits b (l.take k) + b ^ k * l[k] := by
  rw [List.take_succ_eq_append_getElem hk, Nat.ofDigits_append, Nat.ofDigits_singleton,
    List.length_take, Nat.min_eq_left hk.le]

theorem ofDigits_drop_eq {k : Nat} (hk : k < l.length) :
    Nat.ofDigits b (l.drop k) = l[k] + b * Nat.ofDigits b (l.drop (k + 1)) := by
  rw [List.drop_eq_getElem_cons hk, Nat.ofDigits_cons]

/-- One digit is replaced by another. -/
theorem ofDigits_set {k : Nat} (hk : k < l.length) (d : Nat) :
    Nat.ofDigits b (l.set k d) + b ^ k * l[k] = Nat.ofDigits b l + b ^ k * d := by
  have hlen : (l.take k).length = k := by
    rw [List.length_take, Nat.min_eq_left hk.le]
  have hbefore : Nat.ofDigits b l = Nat.ofDigits b (l.take k) +
      b ^ k * (l[k] + b * Nat.ofDigits b (l.drop (k + 1))) := by
    conv_lhs => rw [← List.take_append_drop k l, Nat.ofDigits_append, hlen, ofDigits_drop_eq hk]
  have hafter : Nat.ofDigits b (l.set k d) = Nat.ofDigits b (l.take k) +
      b ^ k * (d + b * Nat.ofDigits b (l.drop (k + 1))) := by
    rw [List.set_eq_take_append_cons_drop, if_pos hk, Nat.ofDigits_append, hlen, Nat.ofDigits_cons]
  rw [hbefore, hafter]
  ring

theorem forall_mem_set {k d : Nat} (h : ∀ x ∈ l, x < b) (hd : d < b) : ∀ x ∈ l.set k d, x < b := by
  intro x hx
  rcases List.mem_or_eq_of_mem_set hx with hx | rfl
  · exact h x hx
  · exact hd

section Digits

variable (hb : 1 < b) (h : ∀ x ∈ l, x < b)
include hb h

theorem ofDigits_lt : Nat.ofDigits b l < b ^ l.length := Nat.ofDigits_lt_base_pow_length hb h

theorem ofDigits_drop (k : Nat) : Nat.ofDigits b (l.drop k) = Nat.ofDigits b l / b ^ k :=
  (Nat.ofDigits_div_pow_eq_ofDigits_drop k (by omega) l h).symm

theorem ofDigits_take (k : Nat) : Nat.ofDigits b (l.take k) = Nat.ofDigits b l % b ^ k :=
  (Nat.ofDigits_mod_pow_eq_ofDigits_take k (by omega) l h).symm

theorem getElem_eq_div_mod {k : Nat} (hk : k < l.length) :
    l[k] = Nat.ofDigits b l / b ^ k % b := by
  have hdigit := h l[k] (List.getElem_mem hk)
  rw [← ofDigits_drop hb h, ofDigits_drop_eq hk, Nat.add_mul_mod_self_left, Nat.mod_eq_of_lt hdigit]

/-- The highest digit. -/
theorem getLast_eq_div (hne : l ≠ []) :
    l.getLast hne = Nat.ofDigits b l / b ^ (l.length - 1) := by
  rw [← ofDigits_drop hb h, List.drop_length_sub_one hne, Nat.ofDigits_singleton]

end Digits

/-- Digits of the base, and no zero at the end. -/
structure Canonical (b : Nat) (l : List Nat) : Prop where
  digit : ∀ x ∈ l, x < b
  last : ∀ hne : l ≠ [], l.getLast hne ≠ 0

namespace Canonical

theorem digits (hb : 1 < b) (n : Nat) : Canonical b (b.digits n) where
  digit _ hx := Nat.digits_lt_base hb hx
  last hne := Nat.getLast_digit_ne_zero b (Nat.digits_ne_nil_iff_ne_zero.mp hne)

/-- No zero is at the end of the digits of a large number. -/
theorem of_le (hb : 1 < b) (hdigit : ∀ x ∈ l, x < b)
    (hle : b ^ (l.length - 1) ≤ Nat.ofDigits b l) : Canonical b l where
  digit := hdigit
  last hne := by
    rw [getLast_eq_div hb hdigit hne]
    exact (Nat.div_pos hle (Nat.pow_pos (by omega))).ne'

theorem eq_digits (hb : 1 < b) (h : Canonical b l) : l = b.digits (Nat.ofDigits b l) :=
  (Nat.digits_ofDigits b hb l h.digit h.last).symm

theorem inj (hb : 1 < b) (h : Canonical b l) (h' : Canonical b l')
    (heq : Nat.ofDigits b l = Nat.ofDigits b l') : l = l' := by
  rw [h.eq_digits hb, h'.eq_digits hb, heq]

theorem lt_length_iff (hb : 1 < b) (h : Canonical b l) (k : Nat) :
    k < l.length ↔ b ^ k ≤ Nat.ofDigits b l := by
  conv_lhs => rw [h.eq_digits hb, Nat.lt_digits_length_iff hb]

theorem nil_iff (hb : 1 < b) (h : Canonical b l) : l = [] ↔ Nat.ofDigits b l = 0 := by
  conv_lhs => rw [h.eq_digits hb, Nat.digits_eq_nil_iff_eq_zero]

end Canonical

/-- Without the zeros at the end. -/
theorem ofDigits_rdropWhile (b : Nat) (l : List Nat) :
    Nat.ofDigits b (l.rdropWhile (· = 0)) = Nat.ofDigits b l := by
  induction l using List.reverseRecOn with
  | nil => rfl
  | append_singleton l d ih =>
    by_cases hd : d = 0
    · rw [List.rdropWhile_concat_pos _ _ _ (by simpa using hd), ih, hd, Nat.ofDigits_append_zero]
    · rw [List.rdropWhile_concat_neg _ _ _ (by simpa using hd)]

theorem canonical_rdropWhile (h : ∀ x ∈ l, x < b) : Canonical b (l.rdropWhile (· = 0)) where
  digit x hx := h x ((List.rdropWhile_prefix _ l).subset hx)
  last hne := by simpa using List.rdropWhile_last_not (fun x : Nat => decide (x = 0)) l hne

end Radix
