import TrinoOdbc.Addition
import TrinoOdbc.DecimalPrinting

/-!
# TrinoOdbc.DecimalText

The input operator of `Decimal`. Digits are collected in a `uint64_t`, which is appended to the
magnitude when it has become large, and the scale is counted from the point on.

* `readNumber_digits` — the digits that are read are those of the number.
* `input_numeral` — the number that is read is the one that the text denotes.
* `output_input` — what is printed is read as the same number.
-/

namespace TrinoOdbc

open Formatted Loops

namespace Common

namespace Decimal

/-- The variables of the input operator. -/
structure Reader where
  mag : BigInteger
  part : Nat
  partDigits : Nat
  scale : Int

namespace Reader

/-- The part behind the digits of the magnitude. -/
def appendPart (s : Reader) : Except ArithmeticFault Reader := do
  let pow ← BigInteger.getPowerOfTen s.partDigits
  let mag ← s.mag.multiply pow
  let mag ← mag.add s.part
  .ok { s with mag }

/-- A digit, or the first point; anything else ends the loop. -/
def take (s : Reader) (c : Char) : Option Reader :=
  if c.isDigit then
    some { s with part := u64 (s.part * 10 + (c.toNat - 48)), partDigits := s.partDigits + 1 }
  else if c = '.' ∧ s.scale < 0 then some { s with scale := 0 }
  else none

/-- What the loop does after each character. -/
def next (s : Reader) : Except ArithmeticFault Reader := do
  let s ← if s.part < 1000000000000000000 then .ok s
    else s.appendPart.map fun s => { s with part := 0, partDigits := 0 }
  .ok { s with scale := if 0 ≤ s.scale then s.scale + 1 else s.scale }

end Reader

/-- The loop, and what it leaves of the text. -/
def readNumber : List Char → Reader → Except ArithmeticFault (Reader × List Char)
  | [], s => .ok (s, [])
  | c :: text, s =>
    match s.take c with
    | none => .ok (s, c :: text)
    | some s => do
      let s ← s.next
      readNumber text s

/-- An `int32_t` from a stream: the nearest one for a number that is too large, and zero for a text
that is no number. -/
def extractInt32 (text : List Char) : Int :=
  match scanInt none text with
  | some (v, _) => max (-2147483648) (min 2147483647 v)
  | none => 0

def subtractExponent (scale : Int) : List Char → Int
  | [] => scale
  | c :: text => if c = 'e' ∨ c = 'E' then toInt32 (scale - extractInt32 text) else scale

/-- What follows the loop. -/
def finish (sign : Int) (s : Reader × List Char) : Except ArithmeticFault Decimal := do
  let number ← if s.1.partDigits = 0 then .ok s.1 else s.1.appendPart
  .ok {
    scale := subtractExponent (if number.scale < 0 then 0 else number.scale - 1) s.2
    magnitude := if sign < 0 then number.mag.negate else number.mag }

def input (text : List Char) : Except ArithmeticFault Decimal :=
  match text.dropWhile isSpace with
  | [] => .ok (ofInt64 0)
  | c :: rest => do
    let s ← readNumber (if c = '-' ∨ c = '+' then rest else c :: rest)
      { mag := .assignInt64 0, part := 0, partDigits := 0, scale := -1 }
    finish (if c = '-' then -1 else 1) s

/-! ## The loop -/

/-- The number read so far, and the count of the digits behind the point, which is one too large. -/
structure Reader.Reads (s : Reader) (n : Nat) (scale : Int) : Prop where
  mag : ∃ m, s.mag = .signed 1 m ∧ m * 10 ^ s.partDigits + s.part = n
  small : s.part < 1000000000000000000
  noDigits : s.partDigits = 0 → s.part = 0
  count : s.scale = scale

section Loop

variable {s : Reader} {n m : Nat} {scale : Int} {ds rest : List Char} {c : Char}

theorem appendPart_eq (hmag : s.mag = .signed 1 m) (hpart : s.part < 18446744073709551616) :
    s.appendPart = .ok { s with mag := .signed 1 (m * 10 ^ s.partDigits + s.part) } := by
  rw [Reader.appendPart, BigInteger.getPowerOfTen_eq, ok_bind, hmag, BigInteger.multiply_signed,
    ok_bind, mul_one, BigInteger.add_signed hpart, ok_bind, ite_self]
  split
  · rename_i hzero
    rw [hzero, Nat.add_zero]
  · rfl

/-- A large part goes to the magnitude, with its digits. -/
theorem next_reads (hmag : s.mag = .signed 1 m)
    (hpart : s.part < 10000000000000000000) (hnone : s.partDigits = 0 → s.part = 0) :
    Yields s.next fun s' => s'.Reads (m * 10 ^ s.partDigits + s.part)
      (if 0 ≤ s.scale then s.scale + 1 else s.scale) := by
  unfold Reader.next
  split
  · rename_i hsmall
    exact .ok ⟨⟨m, hmag, rfl⟩, hsmall, hnone, rfl⟩
  · rw [appendPart_eq hmag (by omega)]
    refine .ok ⟨⟨_, rfl, ?_⟩, show 0 < 1000000000000000000 by decide, fun _ => rfl, rfl⟩
    rw [pow_zero, Nat.mul_one, Nat.add_zero]

theorem readNumber_digit (hc : c.isDigit = true) (h : s.Reads n scale) :
    ∃ s' : Reader, s'.Reads (n * 10 + (c.toNat - 48)) (if 0 ≤ scale then scale + 1 else scale) ∧
      ∀ rest, readNumber (c :: rest) s = readNumber rest s' := by
  obtain ⟨m, hmag, hsum⟩ := h.mag
  have hdigit := isDigit_iff.mp hc
  have hsmall := h.small
  have hu64 : u64 (s.part * 10 + (c.toNat - 48)) = s.part * 10 + (c.toNat - 48) :=
    Nat.mod_eq_of_lt (by omega)
  have htake : s.take c = some
      { s with part := s.part * 10 + (c.toNat - 48), partDigits := s.partDigits + 1 } := by
    rw [Reader.take, if_pos hc, hu64]
  obtain ⟨s', hnext, hreads⟩ := next_reads
    (s := { s with part := s.part * 10 + (c.toNat - 48), partDigits := s.partDigits + 1 }) hmag
    (by simp only; omega) (by simp)
  refine ⟨s', ?_, fun rest => ?_⟩
  · have hn : m * 10 ^ (s.partDigits + 1) + (s.part * 10 + (c.toNat - 48)) =
        n * 10 + (c.toNat - 48) := by
      rw [← hsum, pow_succ]
      ring
    rw [← hn, ← h.count]
    exact hreads
  · rw [readNumber, htake]
    dsimp only
    rw [hnext, ok_bind]

theorem readNumber_digits (hds : ∀ c ∈ ds, c.isDigit = true) (h : s.Reads n scale) :
    ∃ s' : Reader, s'.Reads (n * 10 ^ ds.length + value ds)
        (if 0 ≤ scale then scale + ds.length else scale) ∧
      ∀ rest, readNumber (ds ++ rest) s = readNumber rest s' := by
  induction ds generalizing s n scale with
  | nil =>
    refine ⟨s, ?_, fun rest => rfl⟩
    have hn : n * 10 ^ ([] : List Char).length + value [] = n := by
      rw [List.length_nil, pow_zero, Nat.mul_one]
      rfl
    have hscale : (if 0 ≤ scale then scale + ([] : List Char).length else scale) = scale := by
      split <;> simp
    rw [hn, hscale]
    exact h
  | cons c ds ih =>
    obtain ⟨s₁, hone, hread⟩ := readNumber_digit (hds c List.mem_cons_self) h
    obtain ⟨s₂, hrest, hreads⟩ := ih (fun d hd => hds d (List.mem_cons_of_mem c hd)) hone
    refine ⟨s₂, ?_, fun rest => (hread _).trans (hreads rest)⟩
    have hn : n * 10 ^ (c :: ds).length + value (c :: ds) =
        (n * 10 + (c.toNat - 48)) * 10 ^ ds.length + value ds := by
      have hvalue := value_append [c] ds
      rw [List.singleton_append, value_singleton] at hvalue
      rw [hvalue, List.length_cons, pow_succ]
      ring
    have hscale : (if 0 ≤ scale then scale + (c :: ds).length else scale) =
        if 0 ≤ (if 0 ≤ scale then scale + 1 else scale) then
          (if 0 ≤ scale then scale + 1 else scale) + ds.length
        else (if 0 ≤ scale then scale + 1 else scale) := by
      rw [List.length_cons]
      by_cases hnonneg : 0 ≤ scale
      · rw [if_pos hnonneg, if_pos hnonneg, if_pos (by omega)]
        push_cast
        ring
      · rw [if_neg hnonneg, if_neg hnonneg, if_neg hnonneg]
    rw [hn, hscale]
    exact hrest

theorem readNumber_point (hscale : scale < 0) (h : s.Reads n scale) :
    ∃ s' : Reader, s'.Reads n 1 ∧ ∀ rest, readNumber ('.' :: rest) s = readNumber rest s' := by
  obtain ⟨m, hmag, hsum⟩ := h.mag
  have htake : s.take '.' = some { s with scale := 0 } := by
    rw [Reader.take, if_neg (by decide), h.count, if_pos ⟨rfl, hscale⟩]
  obtain ⟨s', hnext, hreads⟩ := next_reads (s := { s with scale := 0 }) hmag
    (h.small.trans (by decide)) h.noDigits
  refine ⟨s', ?_, fun rest => ?_⟩
  · rw [← hsum]
    exact hreads
  · rw [readNumber, htake]
    dsimp only
    rw [hnext, ok_bind]

/-- The loop ends where the digits do. -/
theorem readNumber_end (hrest : ∀ c ∈ rest.head?, c.isDigit = false ∧ c ≠ '.') (s : Reader) :
    readNumber rest s = .ok (s, rest) := by
  cases rest with
  | nil => rfl
  | cons c rest =>
    obtain ⟨hdigit, hpoint⟩ := hrest c rfl
    have htake : s.take c = none := by
      rw [Reader.take, hdigit, if_neg Bool.false_ne_true, if_neg fun h => hpoint h.1]
    rw [readNumber, htake]

/-- The digits of a numeral are read up to the exponent, or to the end of the text. -/
theorem readNumber_numeral (t : Numeral) :
    Yields (readNumber
        (t.whole ++ (t.fraction.elim [] ('.' :: ·) ++ t.exponent.elim [] Exponent.text))
        { mag := .assignInt64 0, part := 0, partDigits := 0, scale := -1 }) fun (s, rest) =>
      (∃ scale, s.Reads t.unscaled scale ∧
        (if scale < 0 then 0 else scale - 1) = (t.places : Int)) ∧
        rest = t.exponent.elim [] Exponent.text := by
  have hstart : Reader.Reads
      { mag := .assignInt64 0, part := 0, partDigits := 0, scale := -1 } 0 (-1) :=
    ⟨⟨0, rfl, rfl⟩, show 0 < 1000000000000000000 by decide, fun _ => rfl, rfl⟩
  have hend : ∀ c ∈ (t.exponent.elim [] Exponent.text).head?, c.isDigit = false ∧ c ≠ '.' := by
    intro c hc
    cases hexponent : t.exponent with
    | none =>
      rw [hexponent] at hc
      cases hc
    | some e =>
      rw [hexponent] at hc
      obtain rfl := Option.some.inj hc
      have hmark := e.mark_mem
      simp only [List.mem_cons, List.not_mem_nil, or_false] at hmark
      rcases hmark with h | h <;> rw [h] <;> decide
  obtain ⟨s₁, hwhole, hread₁⟩ := readNumber_digits t.whole_all hstart
  rw [Nat.zero_mul, Nat.zero_add, if_neg (by decide)] at hwhole
  rw [hread₁]
  have hfractionAll := t.fraction_all
  unfold Numeral.unscaled Numeral.places
  cases hpart : t.fraction with
  | none =>
    rw [Option.elim_none, List.nil_append, readNumber_end hend]
    refine .ok ⟨⟨-1, ?_, rfl⟩, rfl⟩
    rw [Option.getD_none, List.append_nil]
    exact hwhole
  | some ds =>
    rw [hpart, Option.getD_some] at hfractionAll
    obtain ⟨s₂, hpoint, hread₂⟩ := readNumber_point (by decide) hwhole
    obtain ⟨s₃, hfraction, hread₃⟩ := readNumber_digits hfractionAll hpoint
    rw [Option.elim_some, List.cons_append, hread₂, hread₃, readNumber_end hend]
    rw [← value_append, if_pos (by decide)] at hfraction
    refine .ok ⟨⟨1 + ds.length, hfraction, ?_⟩, rfl⟩
    rw [if_neg (by omega), Option.getD_some]
    omega

/-- An exponent is an `int32_t`, and the scale with it. -/
def ExponentFits (t : Numeral) : Prop :=
  ∀ e ∈ t.exponent, (-2147483648 ≤ e.value ∧ e.value < 2147483648) ∧
    -2147483648 ≤ t.places - e.value ∧ t.places - e.value < 2147483648

/-- The exponent is subtracted from the scale. -/
theorem subtractExponent_numeral {t : Numeral} (ht : ExponentFits t) :
    subtractExponent t.places (t.exponent.elim [] Exponent.text) = t.places - t.power := by
  unfold Numeral.power
  cases hexponent : t.exponent with
  | none =>
    rw [Option.elim_none, Option.elim_none, Int.sub_zero]
    rfl
  | some e =>
    obtain ⟨hvalue, hscale⟩ := ht e hexponent
    have hextract : extractInt32 (e.sign ++ e.digits) = e.value := by
      rw [extractInt32, scanInt_exponent]
      dsimp only
      omega
    have hmark := e.mark_mem
    simp only [List.mem_cons, List.not_mem_nil, or_false] at hmark
    rw [Option.elim_some, Exponent.text, subtractExponent, if_pos hmark, hextract,
      toInt32_eq hscale.1 hscale.2]
    rfl

theorem finish_eq {sign : Int} (hsign : sign = 1 ∨ sign = -1) (h : s.Reads n scale) :
    Yields (finish sign (s, rest)) fun r => r.magnitude.value = sign * n ∧
      r.scale = subtractExponent (if scale < 0 then 0 else scale - 1) rest := by
  obtain ⟨m, hmag, hsum⟩ := h.mag
  have hvalue :
      (if sign < 0 then (BigInteger.signed 1 n).negate else .signed 1 n).value = sign * n := by
    rcases hsign with rfl | rfl
    · rw [if_neg (by decide), BigInteger.value_signed]
    · rw [if_pos (by decide), BigInteger.negate, BigInteger.isZero_signed]
      split
      · rename_i hzero
        rw [of_decide_eq_true hzero, BigInteger.value_signed]
        rfl
      · exact BigInteger.value_signed
  unfold finish
  by_cases hnone : s.partDigits = 0
  · rw [if_pos hnone, ok_bind]
    rw [hnone, h.noDigits hnone, pow_zero, Nat.mul_one, Nat.add_zero] at hsum
    refine .ok ⟨?_, ?_⟩
    · change (if sign < 0 then s.mag.negate else s.mag).value = _
      rw [hmag, hsum]
      exact hvalue
    · rw [← h.count]
  · rw [if_neg hnone, appendPart_eq hmag (h.small.trans (by decide)), ok_bind, hsum]
    refine .ok ⟨hvalue, ?_⟩
    rw [← h.count]

end Loop

/-! ## Texts -/

section Texts

variable {d : Decimal} {t : Numeral}

/-- No character of a numeral is a space, and its digits do not begin with a sign. -/
theorem head_body (t : Numeral) : ∃ c rest,
    t.whole ++ (t.fraction.elim [] ('.' :: ·) ++ t.exponent.elim [] Exponent.text) = c :: rest ∧
      isSpace c = false ∧ c ≠ '-' ∧ c ≠ '+' := by
  have hsome := t.some_digit
  cases hwhole : t.whole with
  | cons c cs =>
    have hdigit := t.whole_all c (by rw [hwhole]; exact List.mem_cons_self)
    exact ⟨c, _, rfl, isSpace_of_isDigit hdigit, sign_of_isDigit hdigit⟩
  | nil =>
    cases hfraction : t.fraction with
    | none =>
      rw [hwhole, hfraction] at hsome
      exact absurd rfl hsome
    | some ds => exact ⟨'.', _, rfl, by decide, by decide, by decide⟩

/-- The number that is read is the one that the text denotes. -/
theorem input_numeral (ht : ExponentFits t) : Yields (input t.text) fun r => r.toRat = t.toRat := by
  obtain ⟨s, hs, ⟨scale, hreads, hplaces⟩, hrest⟩ := readNumber_numeral t
  have hsign : signValue t.sign = 1 ∨ signValue t.sign = -1 := by
    unfold signValue
    split
    · exact .inr rfl
    · exact .inl rfl
  have hinput : input t.text = finish (signValue t.sign) s := by
    obtain ⟨c, rest, hbody, hspace, hminus, hplus⟩ := head_body t
    rw [hbody] at hs
    rw [Numeral.text, hbody]
    have hmem := t.sign_mem
    simp only [signs, List.mem_cons, List.not_mem_nil, or_false] at hmem
    unfold input
    rcases hmem with h | h | h <;> rw [h]
    · rw [List.nil_append, List.dropWhile_cons_of_neg (by simp [hspace])]
      dsimp only
      rw [if_neg (by simp [hminus, hplus]), hs, ok_bind, if_neg hminus]
      rfl
    · rw [List.singleton_append, List.dropWhile_cons_of_neg (by decide)]
      dsimp only
      rw [if_pos (.inr rfl), hs, ok_bind, if_neg (by decide)]
      rfl
    · rw [List.singleton_append, List.dropWhile_cons_of_neg (by decide)]
      dsimp only
      rw [if_pos (.inl rfl), hs, ok_bind, if_pos rfl]
      rfl
  obtain ⟨r, hr, hvalue, hrscale⟩ : Yields (finish (signValue t.sign) s) _ := finish_eq hsign hreads
  refine ⟨r, hinput.trans hr, ?_⟩
  rw [hrest, hplaces, subtractExponent_numeral ht] at hrscale
  change r.toRat = t.toRat
  rw [toRat, hvalue, hrscale, neg_sub]
  rfl

/-- What is printed is read as the same number, and a text is read as the number that it denotes. -/
theorem output_input :
    (∀ d : Decimal, d.magnitude.Canonical → -2147483648 < d.scale →
      ∃ text, (∀ fuel, d.magnitude.mag.length ≤ fuel → d.output fuel = some (.ok text)) ∧
        Yields (input text) fun r => r.toRat = d.toRat) ∧
    ∀ t : Numeral, ExponentFits t → Yields (input t.text) fun r => r.toRat = t.toRat := by
  refine ⟨fun d hd hscale => ?_, fun t ht => input_numeral ht⟩
  obtain ⟨t, hexponent, hrat, houtput⟩ := output_numeral hd.toWellFormed hscale
  have ht : ExponentFits t := by
    intro e he
    rw [hexponent] at he
    cases he
  rw [← hrat]
  exact ⟨t.text, houtput, input_numeral ht⟩

def thousands : Numeral :=
  { sign := ['-'], whole := ['1', '2'], fraction := some ['5', '0'],
    exponent := some ⟨'e', ['+'], ['3'], by simp, by simp [signs], by simp, by simp⟩
    sign_mem := by simp [signs], whole_all := by simp, fraction_all := by simp
    some_digit := by simp }

/-- -123.45, and the text -12.50e+3. -/
theorem output_input_example :
    (∃ text, (∀ fuel, (BigInteger.ofInt (-12345)).mag.length ≤ fuel →
        output fuel ⟨2, .ofInt (-12345)⟩ = some (.ok text)) ∧
      Yields (input text) fun r => r.toRat = toRat ⟨2, .ofInt (-12345)⟩) ∧
    Yields (input ['-', '1', '2', '.', '5', '0', 'e', '+', '3']) fun r => r.toRat = -12500 := by
  have hfits : ExponentFits thousands := by
    intro e he
    obtain rfl := Option.some.inj he
    decide
  have hrat : thousands.toRat = -12500 := by
    have hvalue : signValue thousands.sign * thousands.unscaled = -1250 := by decide
    have hscale : thousands.power - thousands.places = 1 := by decide
    rw [Numeral.toRat, hvalue, hscale]
    norm_num
  rw [← hrat]
  exact ⟨output_input.1 ⟨2, .ofInt (-12345)⟩ (BigInteger.canonical_ofInt _) (by decide),
    output_input.2 thousands hfits⟩

end Texts

end Decimal

end Common

end TrinoOdbc
