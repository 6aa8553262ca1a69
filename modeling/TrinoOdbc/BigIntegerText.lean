import TrinoOdbc.CanonicalRuns
import TrinoOdbc.DecimalText

/-!
# TrinoOdbc.BigIntegerText

The input operator of `BigInteger`, for any text, and what it makes of the text of the output
operator.

* `input_eq` — the integer at the beginning of the text is read, and zero where there is none.
* `bigInteger_text` — what is printed is read as the same object.
-/

namespace TrinoOdbc

open Formatted Loops

namespace BigInteger

/-! ## The operator -/

/-- The loop of the operator. It has the variables of the operator for `Decimal`, but for the scale,
and the digits only. -/
def readDigits : List Char → Common.Decimal.Reader → Except ArithmeticFault Common.Decimal.Reader
  | [], s => .ok s
  | c :: text, s =>
    if c.isDigit then do
      let part := u64 (s.part * 10 + (c.toNat - 48))
      let partDigits := s.partDigits + 1
      let s ← (if 1000000000000000000 ≤ part then
          ({ s with part, partDigits } : Common.Decimal.Reader).appendPart.map fun s =>
            { s with part := 0, partDigits := 0 }
        else .ok { s with part, partDigits })
      readDigits text s
    else .ok s

/-- The stream skips the spaces before the number. -/
def input (text : List Char) : Except ArithmeticFault BigInteger :=
  match text.dropWhile isSpace with
  | [] => .ok (assignInt64 0)
  | c :: rest => do
    let s ← readDigits (if c = '-' ∨ c = '+' then rest else c :: rest)
      { mag := assignInt64 0, part := 0, partDigits := 0, scale := -1 }
    let s ← (if s.partDigits = 0 then .ok s else s.appendPart)
    .ok (if c = '-' then s.mag.negate else s.mag)

/-- `AssignString`, and the constructor from text. -/
def assignString (val : List Char) : Except ArithmeticFault BigInteger := input val

/-- The integer that a text begins with, behind spaces. -/
def leadingInt (text : List Char) : Int :=
  match text.dropWhile isSpace with
  | [] => 0
  | c :: rest =>
    (if c = '-' then -1 else 1) *
      Formatted.value ((if c = '-' ∨ c = '+' then rest else c :: rest).takeWhile Char.isDigit)

/-! ## The loop -/

section Loop

open Common.Decimal (Reader)

variable {s : Reader} {n : Nat} {ds : List Char} {c : Char}

/-- A digit is read as the loop for `Decimal` reads it, which has found no point. -/
theorem readDigits_digit (hc : c.isDigit = true) (h : s.Reads n (-1)) :
    ∃ s' : Reader, s'.Reads (n * 10 + (c.toNat - 48)) (-1) ∧
      ∀ rest, readDigits (c :: rest) s = readDigits rest s' := by
  obtain ⟨m, hmag, hsum⟩ := h.mag
  have hdigit := isDigit_iff.mp hc
  have hsmall := h.small
  have hu64 : u64 (s.part * 10 + (c.toNat - 48)) = s.part * 10 + (c.toNat - 48) :=
    Nat.mod_eq_of_lt (by omega)
  have hn : m * 10 ^ (s.partDigits + 1) + (s.part * 10 + (c.toNat - 48)) =
      n * 10 + (c.toNat - 48) := by
    rw [← hsum, pow_succ]
    ring
  have hread (rest : List Char) : readDigits (c :: rest) s =
      (if 1000000000000000000 ≤ s.part * 10 + (c.toNat - 48) then
        ({ s with part := s.part * 10 + (c.toNat - 48)
                  partDigits := s.partDigits + 1 } : Reader).appendPart.map fun s =>
            { s with part := 0, partDigits := 0 }
      else .ok { s with part := s.part * 10 + (c.toNat - 48), partDigits := s.partDigits + 1 }) >>=
        readDigits rest := by
    rw [readDigits, if_pos hc, hu64]
  by_cases hlarge : 1000000000000000000 ≤ s.part * 10 + (c.toNat - 48)
  · refine ⟨{ s with mag := signed 1 (n * 10 + (c.toNat - 48)), part := 0, partDigits := 0 },
      ⟨⟨_, rfl, ?_⟩, show 0 < 1000000000000000000 by decide, fun _ => rfl, h.count⟩, fun rest => ?_⟩
    · rw [pow_zero, Nat.mul_one, Nat.add_zero]
    · have happend := @Common.Decimal.appendPart_eq
        { s with part := s.part * 10 + (c.toNat - 48), partDigits := s.partDigits + 1 } m hmag
        (show s.part * 10 + (c.toNat - 48) < 18446744073709551616 by omega)
      rw [hread, if_pos hlarge, happend]
      simp only [hn, Except.map, ok_bind]
  · refine ⟨{ s with part := s.part * 10 + (c.toNat - 48), partDigits := s.partDigits + 1 },
      ⟨⟨m, hmag, hn⟩, not_le.mp hlarge, by simp, h.count⟩, fun rest => ?_⟩
    rw [hread, if_neg hlarge, ok_bind]

/-- The loop ends behind the digits. -/
theorem readDigits_text (text : List Char) (h : s.Reads n (-1)) :
    Yields (readDigits text s) fun s' => s'.Reads
      (n * 10 ^ (text.takeWhile Char.isDigit).length +
        Formatted.value (text.takeWhile Char.isDigit)) (-1) := by
  induction text generalizing s n with
  | nil =>
    refine .ok ?_
    rw [List.takeWhile_nil, List.length_nil, pow_zero, Nat.mul_one]
    exact h
  | cons c text ih =>
    by_cases hc : c.isDigit = true
    · obtain ⟨s', hone, hread⟩ := readDigits_digit hc h
      rw [hread, List.takeWhile_cons_of_pos hc]
      refine (ih hone).mono fun s'' hs'' => ?_
      have hn : n * 10 ^ (c :: text.takeWhile Char.isDigit).length +
          Formatted.value (c :: text.takeWhile Char.isDigit) =
          (n * 10 + (c.toNat - 48)) * 10 ^ (text.takeWhile Char.isDigit).length +
            Formatted.value (text.takeWhile Char.isDigit) := by
        have hvalue := value_append [c] (text.takeWhile Char.isDigit)
        rw [List.singleton_append, value_singleton] at hvalue
        rw [hvalue, List.length_cons, pow_succ]
        ring
      rw [hn]
      exact hs''
    · rw [readDigits, if_neg hc, List.takeWhile_cons_of_neg hc]
      refine .ok ?_
      rw [List.length_nil, pow_zero, Nat.mul_one]
      exact h

end Loop

theorem value_negate {x : BigInteger} (hx : x.WellFormed) : x.negate.value = -x.value := by
  unfold negate
  split
  · rename_i hzero
    rw [hx.isZero_eq, decide_eq_true_eq] at hzero
    rw [value, hzero, Nat.cast_zero, Int.mul_zero, Int.neg_zero]
  · exact Int.neg_mul ..

/-- Any text is read as the integer that it begins with. -/
theorem input_eq (text : List Char) : input text = .ok (ofInt (leadingInt text)) := by
  unfold input leadingInt
  cases htext : text.dropWhile isSpace with
  | nil => rfl
  | cons c rest =>
    have hstart : Common.Decimal.Reader.Reads
        { mag := assignInt64 0, part := 0, partDigits := 0, scale := -1 } 0 (-1) :=
      ⟨⟨0, rfl, rfl⟩, show 0 < 1000000000000000000 by decide, fun _ => rfl, rfl⟩
    obtain ⟨s, hread, hs⟩ := readDigits_text (if c = '-' ∨ c = '+' then rest else c :: rest) hstart
    rw [Nat.zero_mul, Nat.zero_add] at hs
    simp only
    rw [hread, ok_bind]
    generalize Formatted.value ((if c = '-' ∨ c = '+' then rest else c :: rest).takeWhile
      Char.isDigit) = n at hs ⊢
    obtain ⟨m, hmag, hsum⟩ := hs.mag
    have hwhole : (if s.partDigits = 0 then .ok s else s.appendPart) =
        (.ok { s with mag := signed 1 n } : Except ArithmeticFault Common.Decimal.Reader) := by
      split
      · rename_i hnone
        rw [hnone, hs.noDigits hnone, pow_zero, Nat.mul_one, Nat.add_zero] at hsum
        rw [← hsum, ← hmag]
      · rw [Common.Decimal.appendPart_eq hmag (hs.small.trans (by decide)), hsum]
    have hcanonical : (signed 1 n).Canonical := canonical_signed (.inl rfl) fun _ => rfl
    rw [hwhole, ok_bind]
    refine congrArg Except.ok ?_
    split
    · rw [(canonical_negate hcanonical).eq_ofInt, value_negate hcanonical.toWellFormed,
        value_signed, Int.one_mul, Int.neg_one_mul]
    · exact hcanonical.eq_ofInt.trans (congrArg ofInt value_signed)

theorem leadingInt_digits {ds : List Char} (hds : Digits ds) {sign : Int}
    (hsign : sign = 1 ∨ sign = -1) :
    leadingInt ((if sign < 0 then ['-'] else []) ++ ds) = sign * Formatted.value ds := by
  have htake : ds.takeWhile Char.isDigit = ds := List.takeWhile_eq_self_iff.mpr hds.all
  unfold leadingInt
  rcases hsign with rfl | rfl
  · obtain ⟨c, cs, rfl⟩ := List.exists_cons_of_ne_nil hds.ne_nil
    have hc := hds.all c List.mem_cons_self
    obtain ⟨hminus, hplus⟩ := sign_of_isDigit hc
    rw [if_neg (by decide), List.nil_append,
      List.dropWhile_cons_of_neg (by simp [isSpace_of_isDigit hc])]
    simp only [hminus, hplus, or_self, if_false, htake]
  · rw [if_pos (by decide), List.singleton_append, List.dropWhile_cons_of_neg (by decide)]
    simp only [true_or, if_true, htake]

/-- What is printed is read as the same object, and of any other text the integer is read that it
begins with. -/
theorem bigInteger_text :
    (∀ text, assignString text = .ok (ofInt (leadingInt text))) ∧
    ∀ x : BigInteger, x.Canonical → ∃ text,
      (∀ fuel, x.mag.length ≤ fuel → x.output fuel = some (.ok text)) ∧
        assignString text = .ok x := by
  refine ⟨input_eq, fun x hx => ?_⟩
  have hback (text : List Char) (htext : leadingInt text = x.value) :
      assignString text = .ok x := by
    rw [assignString, input_eq, htext, ← hx.eq_ofInt]
  by_cases hzero : x.magnitude = 0
  · refine ⟨['0'], fun fuel _ => ?_, hback _ ?_⟩
    · rw [output, hx.isZero_eq, decide_eq_true hzero]
      rfl
    · have hread := leadingInt_digits (digits_digits 0) (.inl rfl)
      rw [value_digits] at hread
      rw [value, hzero, Nat.cast_zero, Int.mul_zero]
      exact hread
  · obtain ⟨ds, hds, hvalue, houtput⟩ := output_digits hx.toWellFormed hzero
    refine ⟨_, houtput, hback _ ?_⟩
    rw [leadingInt_digits hds hx.sign, hvalue]
    rfl

/-- A number of three limbs, and a text with more than a number. -/
theorem bigInteger_text_example :
    (∃ text, (∀ fuel, (ofInt (-100000000000000000007)).mag.length ≤ fuel →
        (ofInt (-100000000000000000007)).output fuel = some (.ok text)) ∧
      assignString text = .ok (ofInt (-100000000000000000007))) ∧
    assignString [' ', '+', '4', '2', 'a', '7'] = .ok (ofInt 42) :=
  ⟨bigInteger_text.2 _ (canonical_ofInt _),
    (bigInteger_text.1 [' ', '+', '4', '2', 'a', '7']).trans (congrArg _ (by decide))⟩

end BigInteger

end TrinoOdbc
