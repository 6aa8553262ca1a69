import TrinoOdbc.DateTimeText
import TrinoOdbc.DecimalText
import TrinoOdbc.IntegerRoundTrip
import TrinoOdbc.NumberAttributes

/-!
# TrinoOdbc.NumberText

Numbers that are put into a character buffer as text and got back from it: `PutInt64` and
`GetInt64`, `PutDecimal` and `GetDecimal`, of a buffer of `char`s or of `SQLWCHAR`s.

* `putText` — what the stream of a `Get` function finds of a text that has been put.
* `integer_text_iff` — what is left of an integer are the digits that fit.
* `decimal_text` — a decimal comes back with its value, or no farther from zero.
-/

namespace TrinoOdbc

open ByteMemory
open Formatted
open ApplicationDataBuffer

namespace ApplicationDataBuffer

/-! ## Reading a number -/

/-- The text that `GetNum` and `GetDecimal` read from a stream, `none` where there is no input. -/
def streamText (P : Platform) (b : ApplicationDataBuffer) (m : Memory) (indicator : Int) :
    Except GetFault (Option (List Char)) :=
  let paramLen := b.getInputSize P indicator
  if paramLen = 0 then .ok none
  else
    (b.getInputString P m indicator paramLen).map fun str =>
      some (str.map fun byte => Char.ofNat byte.toNat)

/-- `GetNum< int64_t >` of text. -/
def getTextInt64 (P : Platform) (b : ApplicationDataBuffer) (m : Memory) (indicator : Int) :
    Except GetFault Int :=
  (b.streamText P m indicator).map fun str =>
    match str with
    | none => 0
    | some text => extractInt (-9223372036854775808) 9223372036854775807 0 text

/-- `GetDecimal` of text. Without input the `Decimal` keeps its value. -/
def getTextDecimal (P : Platform) (b : ApplicationDataBuffer) (m : Memory) (indicator : Int)
    (val : Common.Decimal) : Except GetFault (Except ArithmeticFault Common.Decimal) :=
  (b.streamText P m indicator).map fun str =>
    match str with
    | none => .ok val
    | some text => Common.Decimal.input text

end ApplicationDataBuffer

/-! ## Text through a buffer -/

section Text

variable {P : Platform} {b : ApplicationDataBuffer} {base : Addr} {text : List Char} {n : Nat}

theorem map_ofNat_encode (h : Plain text) :
    (Utf8.encode text).map (fun byte => Char.ofNat byte.toNat) = text := by
  have hback := cText_encode h 0
  rw [List.replicate_zero, List.append_nil, cText] at hback
  have hall : ∀ byte ∈ Utf8.encode text, decide (byte ≠ 0) = true := by
    intro byte hbyte
    rw [decide_eq_true_eq]
    rintro rfl
    exact zero_not_mem_encode h.zero_not_mem hbyte
  rwa [List.takeWhile_eq_self_iff.mpr hall] at hback

/-- What the stream finds, of a text in memory. -/
theorem streamText_of_inputText (h : Plain text) (hbound : text.length < 2147483648) {m : Memory}
    {indicator : Int}
    (hinput : b.getInputSize P indicator = sqlNts ∨
      0 < b.getInputSize P indicator ∧ text.length ≤ b.getInputSize P indicator ∧
        b.getInputSize P indicator < 2147483648)
    (hstr : b.inputText P m indicator = .ok (some (Utf8.encode text))) :
    b.streamText P m indicator = .ok (some text) := by
  have hne : b.getInputSize P indicator ≠ 0 := by
    rcases hinput with hnts | ⟨hpos, -, -⟩
    · rw [hnts]
      decide
    · omega
  have htake : (Utf8.encode text).take
      (b.getInputSize P indicator % 18446744073709551616).toNat = Utf8.encode text := by
    refine List.take_of_length_le ?_
    rw [length_encode_plain h]
    rcases hinput with hnts | ⟨-, hle, hlt⟩
    · rw [hnts]
      unfold sqlNts
      omega
    · omega
  simp only [streamText, if_neg hne, getInputString, hstr, Except.map, Option.getD_some, htake,
    map_ofNat_encode h]

/-- A plain text is kept as it is, as far as there is room. -/
theorem kept_plain (h : Plain text) :
    kept P b n (Utf8.encode text) = Utf8.encode (text.take (n - 1)) := by
  have hzero : beforeZero (Utf8.encode text) = Utf8.encode text :=
    beforeZero_eq_self_iff.mpr (zero_not_mem_encode h.zero_not_mem)
  unfold kept
  split
  · rw [keptText, hzero, Utf8.decode_encode, List.takeWhile_eq_self_iff.mpr h.holds]
  · rw [hzero, narrowed_ascii fun c hc => (h c hc).2, encode_plain h, encode_plain (h.take _),
      List.map_take]

theorem keptSize_plain (h : Plain text) :
    keptSize P b n (Utf8.encode text) =
      (text.take (n - 1)).length * (if b.type = .wchar then P.wchar.bytes else 1) := by
  have hkept := kept_plain (P := P) (b := b) (n := n) h
  unfold keptSize
  split
  · rename_i hwide
    rw [kept, if_pos hwide] at hkept
    rw [Utf8.encode_injective hkept]
  · rw [hkept, length_encode_plain (h.take _), Nat.mul_one]

theorem keptWhole_plain (h : Plain text) (hpos : 0 < n) :
    KeptWhole P b n (Utf8.encode text) ↔ text.length < n := by
  have hzero : beforeZero (Utf8.encode text) = Utf8.encode text :=
    beforeZero_eq_self_iff.mpr (zero_not_mem_encode h.zero_not_mem)
  unfold KeptWhole
  split
  · rw [keptText, hzero, Utf8.decode_encode, List.takeWhile_eq_self_iff.mpr h.holds,
      List.take_eq_self_iff, and_iff_left rfl]
    omega
  · rw [hzero, narrowed_ascii fun c hc => (h c hc).2, length_encode_plain h]

/-- A text that is put, and what a stream then finds: the part that fits. -/
theorem putText (hroom : TextRoom P b n) (hdata : b.getData = some base) (hpos : 0 < n)
    (h : Plain text) (hbound : text.length * P.wchar.bytes < 2147483648) :
    ∃ c, b.putStrToStrBuffer P (b.type = .wchar) (Utf8.encode text) = .ok c ∧
      (c.result = .success ↔ text.length < n) ∧
      ∀ m indicator, (∀ l ∈ c.resLen, indicator = l) →
        b.streamText P (apply m base c.writes) indicator =
          .ok (if text.take (n - 1) = [] ∧ b.getResLen ≠ none then none
            else some (text.take (n - 1))) := by
  have hbound' : (Utf8.encode text).length * P.wchar.bytes < 2147483648 := by
    rwa [length_encode_plain h]
  obtain ⟨c, hput, hresult, hfound⟩ :=
    putStrToStrBuffer_kept hroom hdata hpos (fun _ => isText_encode text) hbound'
  refine ⟨c, hput, hresult.trans (keptWhole_plain h hpos), fun m indicator hind => ?_⟩
  obtain ⟨hinput, htext⟩ := hfound m indicator hind
  have hsize := keptSize_le (P := P) (b := b) (n := n) (Utf8.encode text)
  have hunits : keptSize P b n (Utf8.encode text) =
      (text.take (n - 1)).length * (if b.type = .wchar then P.wchar.bytes else 1) :=
    keptSize_plain h
  rw [foundText, kept_plain h] at htext
  by_cases hnone : text.take (n - 1) = [] ∧ b.getResLen ≠ none
  · rw [if_neg hnone.2, hunits, hnone.1, List.length_nil, Nat.zero_mul] at hinput
    rw [if_pos hnone]
    exact if_pos hinput
  · have hshown : ¬ (Utf8.encode (text.take (n - 1)) = [] ∧ b.getResLen ≠ none) := fun hempty =>
      hnone ⟨Utf8.encode_injective (hempty.1.trans rfl), hempty.2⟩
    rw [if_neg hshown] at htext
    rw [if_neg hnone]
    have hunit : 0 < if b.type = .wchar then P.wchar.bytes else 1 := by
      split
      · exact P.wchar.bytes_pos
      · exact Nat.one_pos
    have hlong := Nat.le_mul_of_pos_right (text.take (n - 1)).length hunit
    refine streamText_of_inputText (h.take _) (by omega) ?_ htext
    by_cases hres : b.getResLen = none
    · exact .inl (by rw [hinput, if_pos hres])
    · have hpart := List.length_pos_iff.mpr fun hempty => hnone ⟨hempty, hres⟩
      rw [if_neg hres] at hinput
      exact .inr (by omega)

end Text

/-! ## Integers -/

section Integers

/-- The leading digits of a number. -/
theorem value_take (n k : Nat) :
    value ((digits n).take k) = n / 10 ^ ((digits n).length - k) := by
  have hsplit := value_append ((digits n).take k) ((digits n).drop k)
  have hsmall : value ((digits n).drop k) < 10 ^ ((digits n).drop k).length :=
    value_lt fun c hc => (digits_digits n).all c (List.mem_of_mem_drop hc)
  rw [List.take_append_drop, value_digits] at hsplit
  rw [List.length_drop] at hsplit hsmall
  refine (Nat.div_eq_of_lt_le ?_ ?_).symm
  · omega
  · rw [Nat.add_mul, Nat.one_mul]
    omega

variable {ds : List Char}

/-- Digits behind a sign, or none. -/
theorem extractInt_signed_digits (sign : List Char) (hsign : sign = [] ∨ sign = ['-'])
    (hds : ∀ c ∈ ds, c.isDigit = true) (hv : IsInt64 (signValue sign * value ds)) :
    extractInt (-9223372036854775808) 9223372036854775807 0 (sign ++ ds) =
      signValue sign * value ds := by
  by_cases hne : ds = []
  · subst hne
    rcases hsign with rfl | rfl <;> rfl
  · have hvalue : (if sign = [] then (digitsValue ds : Int) else -digitsValue ds) =
        signValue sign * value ds := by
      rcases hsign with rfl | rfl
      · rw [if_pos rfl, signValue, if_neg (by decide), Int.one_mul]
        rfl
      · rw [if_neg (by decide), signValue, if_pos rfl, Int.neg_one_mul]
        rfl
    rw [extractInt_signed hsign hne hds, hvalue]
    unfold clamp
    unfold IsInt64 at hv
    omega

theorem natCast_tdiv_pow (n j : Nat) : (n : Int).tdiv (10 ^ j) = (n / 10 ^ j : Nat) := by norm_cast

/-- The number that is read where the text of another has been cut. -/
theorem extractInt_take {v : Int} (hv : IsInt64 v) (k : Nat) :
    extractInt (-9223372036854775808) 9223372036854775807 0 ((decimal v).take k) =
      v.tdiv (10 ^ ((decimal v).length - k)) := by
  have hdigits (j : Nat) : ∀ c ∈ (digits v.natAbs).take j, c.isDigit = true := fun c hc =>
    (digits_digits _).all c (List.mem_of_mem_take hc)
  have hle (j : Nat) : v.natAbs / 10 ^ j ≤ v.natAbs := Nat.div_le_self _ _
  unfold IsInt64 at hv
  by_cases hneg : v < 0
  · have hcut (j : Nat) : v.tdiv (10 ^ j) = -(v.natAbs / 10 ^ j : Nat) := by
      have hv' : v = -(v.natAbs : Int) := by omega
      rw [← natCast_tdiv_pow, ← Int.neg_tdiv, ← hv']
    rw [decimal, if_pos hneg]
    cases k with
    | zero =>
      have hall : v.natAbs < 10 ^ ((digits v.natAbs).length + 1) :=
        (length_digits_le (Nat.succ_pos _)).mp (Nat.le_succ _)
      rw [List.take_zero, List.length_cons, Nat.sub_zero, hcut, Nat.div_eq_of_lt hall]
      rfl
    | succ j =>
      have hread := @extractInt_signed_digits _ ['-'] (.inr rfl) (hdigits j) (by
        rw [signValue, if_pos rfl, Int.neg_one_mul, value_take]
        have hcut := hle ((digits v.natAbs).length - j)
        generalize v.natAbs / 10 ^ ((digits v.natAbs).length - j) = q at hcut
        exact ⟨by omega, by omega⟩)
      rw [List.take_succ_cons, List.length_cons, Nat.add_sub_add_right, hcut, ← value_take]
      rw [signValue, if_pos rfl, Int.neg_one_mul] at hread
      exact hread
  · have hread := @extractInt_signed_digits _ [] (.inl rfl) (hdigits k) (by
      rw [signValue, if_neg (by decide), Int.one_mul, value_take]
      have hcut := hle ((digits v.natAbs).length - k)
      generalize v.natAbs / 10 ^ ((digits v.natAbs).length - k) = q at hcut
      exact ⟨by omega, by omega⟩)
    rw [signValue, if_neg (by decide), Int.one_mul, value_take, List.nil_append] at hread
    have hv' : (v.natAbs : Int) = v := by omega
    rw [decimal, if_neg hneg, hread, ← natCast_tdiv_pow, hv']

theorem length_decimal {v : Int} (hv : IsInt64 v) : (decimal v).length ≤ 20 := by
  unfold IsInt64 at hv
  have hdigits : (digits v.natAbs).length ≤ 19 :=
    (length_digits_le (by decide)).mpr (by omega)
  rw [decimal]
  split
  · rw [List.length_cons]
    omega
  · omega

theorem putInt64_text {P : Platform} {b : ApplicationDataBuffer} {n : Nat} (hroom : TextRoom P b n)
    (v : Int) :
    b.putInt64 P v = b.putStrToStrBuffer P (b.type = .wchar) (Utf8.encode (decimal v)) := by
  rcases hroom with ⟨htype, -⟩ | ⟨htype, -⟩ <;> rw [putInt64, putNum, htype] <;> rfl

theorem tdiv_eq_self_iff {v : Int} {k : Nat} : v.tdiv (10 ^ k) = v ↔ k = 0 ∨ v = 0 := by
  constructor
  · intro h
    by_contra hnot
    obtain ⟨hk, hv⟩ := not_or.mp hnot
    have hpow : 1 < 10 ^ k := Nat.one_lt_pow hk (by decide)
    have habs := congrArg Int.natAbs h
    rw [Int.natAbs_tdiv, Int.natAbs_pow] at habs
    exact absurd habs (Nat.div_lt_self (by omega) hpow).ne
  · rintro (rfl | rfl)
    · rw [pow_zero, Int.tdiv_one]
    · exact Int.zero_tdiv _

/-- What is got of an integer is what is left of it without the digits that did not fit: the integer
itself exactly where the result is a success, or it is zero. -/
theorem integer_text_iff (P : Platform) (b : ApplicationDataBuffer) (n : Nat)
    (hroom : TextRoom P b n) (hpos : 0 < n) (base : Addr) (hdata : b.getData = some base) (v : Int)
    (hv : IsInt64 v) :
    ∃ c, b.putInt64 P v = .ok c ∧ (c.result = .success ↔ (decimal v).length < n) ∧
      ∀ m indicator, (∀ l ∈ c.resLen, indicator = l) →
        b.getTextInt64 P (apply m base c.writes) indicator =
          .ok (v.tdiv (10 ^ ((decimal v).length + 1 - n))) ∧
        (b.getTextInt64 P (apply m base c.writes) indicator = .ok v ↔
          c.result = .success ∨ v = 0) := by
  have hshort := length_decimal hv
  have hwide : P.wchar.bytes ≤ 4 := by cases P.wchar <;> decide
  obtain ⟨c, hput, hresult, hstream⟩ := putText hroom hdata hpos (Plain.decimal v)
    (lt_of_le_of_lt (Nat.mul_le_mul hshort hwide) (by decide))
  rw [← putInt64_text hroom] at hput
  refine ⟨c, hput, hresult, fun m indicator hind => ?_⟩
  have hgot : b.getTextInt64 P (apply m base c.writes) indicator =
      .ok (v.tdiv (10 ^ ((decimal v).length + 1 - n))) := by
    have hread := extractInt_take hv (n - 1)
    rw [getTextInt64, hstream m indicator hind, ← Nat.sub_sub_right (b := n) _ hpos, ← hread]
    by_cases hnone : (decimal v).take (n - 1) = [] ∧ b.getResLen ≠ none
    · rw [if_pos hnone, hnone.1]
      rfl
    · rw [if_neg hnone]
      rfl
  refine ⟨hgot, ?_⟩
  rw [hgot, Except.ok.injEq, tdiv_eq_self_iff, hresult]
  exact or_congr (by omega) Iff.rfl

/-- Two digits of 12345 in a buffer for three characters. -/
theorem integer_text_cut :
    ∃ c, ApplicationDataBuffer.putInt64 .linux 12345
        { type := .char, buffer := some 64, buflen := 3, reslen := some 80 } = .ok c ∧
      c.result ≠ .success ∧
      ∀ m indicator, (∀ l ∈ c.resLen, indicator = l) →
        ApplicationDataBuffer.getTextInt64 .linux
          { type := .char, buffer := some 64, buflen := 3, reslen := some 80 }
          (apply m 64 c.writes) indicator = .ok 12 := by
  obtain ⟨c, hput, hresult, hget⟩ := integer_text_iff .linux
    { type := .char, buffer := some 64, buflen := 3, reslen := some 80 } 3 (.inl ⟨rfl, rfl⟩)
    (by decide) 64 rfl 12345 (by decide)
  exact ⟨c, hput, fun h => absurd (hresult.mp h) (by decide),
    fun m indicator hind => (hget m indicator hind).1⟩

end Integers

/-! ## Decimals -/

section Decimals

variable {t : Numeral}

theorem Plain.sign {sign : List Char} (h : sign ∈ signs) : Plain sign := by
  simp only [signs, List.mem_cons, List.not_mem_nil, or_false] at h
  rcases h with rfl | rfl | rfl
  · nofun
  · exact singleton (by decide)
  · exact singleton (by decide)

theorem Plain.ofDigits {ds : List Char} (h : ∀ c ∈ ds, c.isDigit = true) : Plain ds := by
  intro c hc
  have hdigit := Formatted.isDigit_iff.mp (h c hc)
  refine ⟨?_, by omega⟩
  rintro rfl
  revert hdigit
  decide

theorem Plain.numeral (hexponent : t.exponent = none) : Plain t.text := by
  rw [Numeral.text, hexponent, Option.elim_none, List.append_nil]
  refine (sign t.sign_mem).append ((ofDigits t.whole_all).append ?_)
  have hfraction := t.fraction_all
  cases hcase : t.fraction with
  | none =>
    intro c hc
    cases hc
  | some ds =>
    rw [hcase] at hfraction
    exact cons (by decide) (ofDigits hfraction)

theorem putDecimal_text {P : Platform} {b : ApplicationDataBuffer} {n : Nat}
    (hroom : TextRoom P b n) (value : Decimal P.reals) :
    b.putDecimal P value = b.putStrToStrBuffer P (b.type = .wchar) (Utf8.encode value.text) := by
  rcases hroom with ⟨htype, -⟩ | ⟨htype, -⟩ <;> simp [putDecimal, putString, htype]

theorem numeral_ne_nil (t : Numeral) : t.text ≠ [] := by
  obtain ⟨c, rest, hbody, -⟩ := Common.Decimal.head_body t
  rw [Numeral.text, hbody]
  exact List.append_ne_nil_of_right_ne_nil _ (List.cons_ne_nil c rest)

/-- The texts of signs and points alone. -/
def noDigits : List (List Char) := [[], ['+'], ['-'], ['.'], ['+', '.'], ['-', '.']]

theorem input_noDigits {text : List Char} (h : text ∈ noDigits) :
    Loops.Yields (Common.Decimal.input text) fun r => r.toRat = 0 := by
  simp only [noDigits, List.mem_cons, List.not_mem_nil, or_false] at h
  rcases h with rfl | rfl | rfl | rfl | rfl | rfl <;>
    exact ⟨_, rfl, by simp [Common.Decimal.toRat]; decide⟩

/-- A text with the first digits of a numeral. No more are missing behind the point than in all. -/
structure Beginning (t u : Numeral) (rest : List Char) : Prop where
  exponent : u.exponent = none
  sign : u.sign = t.sign
  digits : t.whole ++ t.fraction.getD [] = (u.whole ++ u.fraction.getD []) ++ rest
  places_le : u.places ≤ t.places
  missing : t.places - u.places ≤ rest.length

/-- The beginning of a text has no digit, or it is a numeral. -/
theorem take_numeral (hexponent : t.exponent = none) (k : Nat) :
    t.text.take k ∈ noDigits ∨ ∃ u rest, t.text.take k = u.text ∧ Beginning t u rest := by
  have hsign := t.sign_mem
  simp only [signs, List.mem_cons, List.not_mem_nil, or_false] at hsign
  by_cases hk : k < t.sign.length
  · refine .inl ?_
    rcases hsign with h | h | h <;> rw [h] at hk
    · cases hk
    all_goals
      obtain rfl : k = 0 := by simpa using hk
      rw [List.take_zero]
      exact List.mem_cons_self
  have htake : t.sign.take k = t.sign := List.take_of_length_le (by omega)
  rw [Numeral.text, hexponent, Option.elim_none, List.append_nil, List.take_append, htake,
    List.take_append]
  generalize k - t.sign.length = j
  -- The text ends among the digits before the point, or behind it.
  obtain ⟨fraction, rest, hfraction, hall, hdigits, hle, hmissing⟩ :
      ∃ (fraction : Option (List Char)) (rest : List Char),
        (t.fraction.elim [] ('.' :: ·)).take (j - t.whole.length) = fraction.elim [] ('.' :: ·) ∧
        (∀ c ∈ fraction.getD [], c.isDigit = true) ∧
        t.whole ++ t.fraction.getD [] = (t.whole.take j ++ fraction.getD []) ++ rest ∧
        (fraction.getD []).length ≤ t.places ∧
        t.places - (fraction.getD []).length ≤ rest.length := by
    cases hi : j - t.whole.length with
    | zero =>
      refine ⟨none, t.whole.drop j ++ t.fraction.getD [], List.take_zero, by simp, ?_,
        Nat.zero_le _, ?_⟩
      · rw [Option.getD_none, List.append_nil, ← List.append_assoc, List.take_append_drop]
      · rw [List.length_append, Numeral.places]
        omega
    | succ i =>
      have hwhole : t.whole.take j = t.whole := List.take_of_length_le (by omega)
      have hall := t.fraction_all
      unfold Numeral.places
      cases hcase : t.fraction with
      | none =>
        refine ⟨none, [], List.take_nil, by simp, ?_, le_rfl, le_rfl⟩
        rw [hwhole, List.append_nil]
      | some ds =>
        rw [hcase] at hall
        refine ⟨some (ds.take i), ds.drop i, rfl, fun c hc => hall c (List.mem_of_mem_take hc), ?_,
          List.length_take_le' _ _, ?_⟩
        · rw [hwhole, Option.getD_some, Option.getD_some, List.append_assoc, List.take_append_drop]
        · rw [Option.getD_some, Option.getD_some, List.length_drop, List.length_take]
          omega
  rw [hfraction]
  by_cases hsome : t.whole.take j ++ fraction.getD [] = []
  · obtain ⟨hwhole, hnone⟩ := List.append_eq_nil_iff.mp hsome
    rw [hwhole, List.nil_append]
    refine .inl ?_
    cases fraction with
    | none => rcases hsign with h | h | h <;> rw [h] <;> decide
    | some ds =>
      obtain rfl : ds = [] := hnone
      rcases hsign with h | h | h <;> rw [h] <;> decide
  · refine .inr ⟨⟨t.sign, t.whole.take j, fraction, none, t.sign_mem,
      fun c hc => t.whole_all c (List.mem_of_mem_take hc), hall, hsome⟩, rest, ?_,
      ⟨rfl, rfl, hdigits, hle, hmissing⟩⟩
    rw [Numeral.text, Option.elim_none, List.append_nil]

/-- A number is no farther from zero than another, and on its side. -/
def Toward (r s : ℚ) : Prop := |r| ≤ |s| ∧ 0 ≤ r * s

theorem toward_of_le {v w : Nat} (h : v ≤ w) (sign : List Char) {p : ℚ} (hp : 0 < p) :
    Toward (signValue sign * (v * p)) (signValue sign * (w * p)) := by
  have hle : (v : ℚ) * p ≤ w * p := mul_le_mul_of_nonneg_right (Nat.cast_le.mpr h) hp.le
  have hv : 0 ≤ (v : ℚ) * p := mul_nonneg (Nat.cast_nonneg v) hp.le
  have hw : 0 ≤ (w : ℚ) * p := hv.trans hle
  constructor
  · rw [abs_mul ((signValue sign : Int) : ℚ), abs_mul ((signValue sign : Int) : ℚ),
      abs_of_nonneg hv, abs_of_nonneg hw]
    exact mul_le_mul_of_nonneg_left hle (abs_nonneg _)
  · rw [mul_mul_mul_comm]
    exact mul_nonneg (mul_self_nonneg _) (mul_nonneg hv hw)

theorem Beginning.toward {u : Numeral} {rest : List Char} (h : Beginning t u rest)
    (hexponent : t.exponent = none) : Toward u.toRat t.toRat := by
  have hdigits : u.unscaled * 10 ^ (t.places - u.places) ≤ t.unscaled := by
    have hsplit : t.unscaled = _ := congrArg value h.digits
    rw [hsplit, value_append]
    exact Nat.le_add_right_of_le
      (Nat.mul_le_mul_left _ (Nat.pow_le_pow_right (by decide) h.missing))
  have hplaces := h.places_le
  have hu : u.toRat = signValue t.sign *
      ((u.unscaled * 10 ^ (t.places - u.places) : Nat) * 10 ^ (-t.places : Int)) := by
    rw [Common.Decimal.toRat_eq_of_unscaled (k := 0) h.exponent (Nat.mul_one _).symm rfl, h.sign,
      mul_pow_zpow]
    congr 3
    omega
  have ht : t.toRat = signValue t.sign * ((t.unscaled : Nat) * 10 ^ (-t.places : Int)) := by
    rw [Common.Decimal.toRat_eq_of_unscaled (k := 0) hexponent (Nat.mul_one _).symm rfl]
    congr 3
    omega
  rw [hu, ht]
  exact toward_of_le hdigits _ (zpow_pos (by norm_num) _)

/-- What is read of the beginning of a text is no farther from zero than the number. -/
theorem input_take (hexponent : t.exponent = none) (k : Nat) :
    Loops.Yields (Common.Decimal.input (t.text.take k)) fun r =>
      Toward r.toRat t.toRat ∧ (t.text.length ≤ k → r.toRat = t.toRat) := by
  have hfits {u : Numeral} (hu : u.exponent = none) : Common.Decimal.ExponentFits u := by
    intro e he
    rw [hu] at he
    cases he
  by_cases hk : t.text.length ≤ k
  · rw [List.take_of_length_le hk]
    obtain ⟨r, hr, hrat⟩ := Common.Decimal.input_numeral (hfits hexponent)
    exact ⟨r, hr, by rw [hrat]; exact ⟨le_rfl, mul_self_nonneg _⟩, fun _ => hrat⟩
  · rcases take_numeral hexponent k with hnone | ⟨u, rest, htext, hu⟩
    · obtain ⟨r, hr, hzero⟩ := input_noDigits hnone
      refine ⟨r, hr, ?_, fun h => absurd h hk⟩
      rw [hzero]
      exact ⟨by rw [abs_zero]; exact abs_nonneg _, by rw [zero_mul]⟩
    · obtain ⟨r, hr, hrat⟩ := Common.Decimal.input_numeral (hfits hu.exponent)
      refine ⟨r, htext ▸ hr, ?_, fun h => absurd h hk⟩
      rw [hrat]
      exact hu.toward hexponent

/-- A decimal that is put with success is got with its value. One whose text is cut is got as a
number that is no farther from zero, where anything is got at all. -/
theorem decimal_text (P : Platform) (b : ApplicationDataBuffer) (n : Nat) (hroom : TextRoom P b n)
    (hpos : 0 < n) (base : Addr) (hdata : b.getData = some base) (d : Common.Decimal)
    (hd : d.magnitude.WellFormed) (hscale : -2147483648 < d.scale) (value : Decimal P.reals)
    (htext : d.output d.magnitude.mag.length = some (.ok value.text))
    (hbound : value.text.length * P.wchar.bytes < 2147483648) :
    ∃ c, b.putDecimal P value = .ok c ∧ (c.result = .success ↔ value.text.length < n) ∧
      ∀ m indicator, (∀ l ∈ c.resLen, indicator = l) → ∀ val : Common.Decimal,
        ∃ r, b.getTextDecimal P (apply m base c.writes) indicator val = .ok (.ok r) ∧
          (c.result = .success → r.toRat = d.toRat) ∧
          (Toward r.toRat d.toRat ∨ n = 1 ∧ b.getResLen ≠ none ∧ r = val) := by
  obtain ⟨t, hexponent, hrat, houtput⟩ := Common.Decimal.output_numeral hd hscale
  have htext : value.text = t.text :=
    Except.ok.inj (Option.some.inj (htext.symm.trans (houtput _ le_rfl)))
  rw [htext] at hbound
  obtain ⟨c, hput, hresult, hstream⟩ := putText hroom hdata hpos (Plain.numeral hexponent) hbound
  rw [← htext, ← putDecimal_text hroom] at hput
  rw [← htext] at hresult
  refine ⟨c, hput, hresult, fun m indicator hind val => ?_⟩
  rw [getTextDecimal, hstream m indicator hind]
  by_cases hnone : t.text.take (n - 1) = [] ∧ b.getResLen ≠ none
  · have hone : n = 1 := by
      have hne := numeral_ne_nil t
      rcases List.take_eq_nil_iff.mp hnone.1 with h | h
      · omega
      · exact absurd h hne
    rw [if_pos hnone]
    refine ⟨val, rfl, fun hsuccess => ?_, .inr ⟨hone, hnone.2, rfl⟩⟩
    have hlen := List.length_pos_iff.mpr (numeral_ne_nil t)
    rw [hresult, htext] at hsuccess
    omega
  · rw [if_neg hnone]
    obtain ⟨r, hr, htoward, hwhole⟩ := input_take hexponent (n - 1)
    rw [hrat] at htoward hwhole
    refine ⟨r, congrArg _ hr, fun hsuccess => hwhole ?_, .inl htoward⟩
    rw [hresult, htext] at hsuccess
    omega

/-- -123.45, of which four characters fit. -/
theorem decimal_text_cut :
    ∃ c, ApplicationDataBuffer.putDecimal .linux
        { toInt64 := -123, toDouble := Platform.linux.reals.ofInt (-123)
          text := ['-', '1', '2', '3', '.', '4', '5']
          magnitude := [123], negative := true, precision := 3 }
        { type := .char, buffer := some 64, buflen := 5, reslen := none } = .ok c ∧
      ∀ m indicator, (∀ l ∈ c.resLen, indicator = l) → ∀ val : Common.Decimal,
        ∃ r, ApplicationDataBuffer.getTextDecimal .linux
            { type := .char, buffer := some 64, buflen := 5, reslen := none }
            (apply m 64 c.writes) indicator val = .ok (.ok r) ∧
          Toward r.toRat (Common.Decimal.toRat ⟨2, .ofInt (-12345)⟩) := by
  obtain ⟨c, hput, -, hget⟩ := decimal_text .linux
    { type := .char, buffer := some 64, buflen := 5, reslen := none } 5 (.inl ⟨rfl, rfl⟩)
    (by decide) 64 rfl ⟨2, .ofInt (-12345)⟩ (BigInteger.canonical_ofInt _).toWellFormed (by decide)
    { toInt64 := -123, toDouble := Platform.linux.reals.ofInt (-123)
      text := ['-', '1', '2', '3', '.', '4', '5']
      magnitude := [123], negative := true, precision := 3 } (by decide +kernel) (by decide)
  refine ⟨c, hput, fun m indicator hind val => ?_⟩
  obtain ⟨r, hr, -, htoward⟩ := hget m indicator hind val
  exact ⟨r, hr, htoward.resolve_right fun h => absurd h.1 (by decide)⟩

end Decimals

end TrinoOdbc
