import TrinoOdbc.DateTimeRoundTrip
import TrinoOdbc.StringRoundTrip

/-!
# TrinoOdbc.DateTimeText

Dates, times and timestamps that are put into a character buffer and got back from it.

The length of a wide text is stored in characters and read in bytes: `dateTime_text_iff` says what
survives that.
-/

namespace TrinoOdbc

open ByteMemory
open Calendar (Tm timegm)
open Formatted
open ApplicationDataBuffer

/-! ## Text in memory -/

theorem cText_encode {text : List Char} (h : Plain text) (k : Nat) :
    cText (Utf8.encode text ++ List.replicate k 0) = text := by
  have hzero : ∀ byte ∈ Utf8.encode text, decide (byte ≠ 0) = true := by
    intro byte hbyte
    rw [decide_eq_true_eq]
    rintro rfl
    exact zero_not_mem_encode h.zero_not_mem hbyte
  have htail : (List.replicate k (0 : UInt8)).takeWhile (· ≠ 0) = [] := by
    cases k with
    | zero => rfl
    | succ k => rw [List.replicate_succ, List.takeWhile_cons_of_neg (by decide)]
  rw [cText, List.takeWhile_append_of_pos hzero, htail, List.append_nil, encode_plain h,
    List.map_map]
  refine (List.map_congr_left fun c hc => ?_).trans (List.map_id _)
  have hlt := (h c hc).2
  have hcode : (UInt8.ofNat c.toNat).toNat = c.toNat := by
    rw [UInt8.toNat_ofNat']
    omega
  simp only [Function.comp_apply, hcode, Char.ofNat_toNat, id]

section Input

variable {P : Platform} {b : ApplicationDataBuffer} {base : Addr} {text : List Char} {size : Nat}

theorem inputText_char (htype : b.type = .char) (hdata : b.getData = some base) (h : Plain text)
    (hroom : size ≤ b.buflen) (hlen : text.length < size) (hpos : 1 < size)
    (hsize : size ≤ 2147483648) (m : Memory) {indicator : Int}
    (hind : ∀ l ∈ (b.putCharText text size).resLen, indicator = l) :
    ∃ bytes, b.inputText P (apply m base (b.putCharText text size).writes) indicator =
      .ok (some bytes) ∧ cText bytes = text := by
  have hwritten := @putCharText_roomy b text size base hdata hroom m base
  have hstored : ∀ l ∈ b.storeLen (size - 1 : Nat), indicator = l := by
    intro l hl
    refine hind l ?_
    simpa only [putCharText, hdata] using hl
  have hinput := @getInputSize_stored P b (size - 1) (by omega) indicator hstored
  have hencode := length_encode_plain h
  by_cases hres : b.getResLen = none
  · -- Without an indicator the text ends with its zero.
    have hnarrow := putCharText_narrowText h hdata hroom hlen m base
    rw [Conversion.narrowText, Conversion.stored] at hnarrow
    have hzero :
        (0 : UInt8) ∈ read (apply m base (b.putCharText text size).writes) base b.buflen :=
      mem_of_takeWhile_ne (by rw [hnarrow, length_read]; omega)
    refine ⟨Utf8.encode text, ?_, ?_⟩
    · have hnts : toInt32 sqlNts = sqlNts := rfl
      have hne : sqlNts ≠ 0 := by decide
      rw [inputText]
      simp only [hinput, hres, if_true, hne, if_false, htype, reduceCtorEq, hdata, sqlCharToString,
        hnts, hzero, hnarrow, Except.map]
    · have hback := cText_encode h 0
      rwa [List.replicate_zero, List.append_nil] at hback
  · refine ⟨strncpy (Utf8.encode text) (size - 1), ?_, ?_⟩
    · have hsame := toInt32_of_isInt32 (v := (size - 1 : Nat)) ⟨by omega, by omega⟩
      have hne : ((size - 1 : Nat) : Int) ≠ 0 := by omega
      have hnts : ((size - 1 : Nat) : Int) ≠ sqlNts := by
        unfold sqlNts
        omega
      have hread : read (apply m base (b.putCharText text size).writes) base (size - 1) =
          strncpy (Utf8.encode text) (size - 1) := by
        rw [hwritten, read_write_take _ _ (by rw [length_strncpy]; omega),
          take_strncpy _ (by omega)]
      have hlt : (0 : Int) < (size - 1 : Nat) := by omega
      rw [inputText]
      simp only [hinput, hres, hne, if_false, htype, reduceCtorEq, hdata, sqlCharToString, hsame,
        hnts, hlt, if_true, Int.toNat_natCast, hread, Except.map]
    · rw [strncpy, List.take_of_length_le (by omega)]
      exact cText_encode h _

theorem inputText_wchar (htype : b.type = .wchar) (hdata : b.getData = some base) (h : Plain text)
    {n length : Nat} (hbuflen : b.buflen = n * P.wchar.bytes) (hlen : text.length < n)
    (hpos : 0 < length) (hlength : length < 2147483648) (m : Memory) {indicator : Int}
    (hind : ∀ l ∈ (b.putWcharText P text length).resLen, indicator = l) :
    ∃ bytes, b.inputText P (apply m base (b.putWcharText P text length).writes) indicator =
      .ok (some bytes) ∧ cText bytes = shownPart P.wchar b.getResLen.isSome length text := by
  have hput := putWcharText_eq (P := P) h length hdata hbuflen (by omega)
  rw [List.take_of_length_le (by omega)] at hput
  rw [hput] at hind ⊢
  have hinput := @getInputSize_stored P b length (by omega) indicator hind
  have hread : read (apply m base [(0, wideBytes P.wchar (text ++ ['\x00']))]) base
      (wideBytes P.wchar (text ++ ['\x00'])).length = wideBytes P.wchar (text ++ ['\x00']) :=
    @Conversion.stored_singleton _ none .success m base _ rfl
  have htext := inputText_wide htype hdata h.holds h.zero_not_mem hbuflen hlen hpos hlength hread
    hinput
  refine ⟨_, htext, ?_⟩
  have hpart : Plain (shownPart P.wchar b.getResLen.isSome length text) := by
    unfold shownPart
    split
    · exact h.take _
    · exact h
  have hback := cText_encode hpart 0
  rwa [List.replicate_zero, List.append_nil] at hback

end Input

/-! ## The texts -/

/-- A number of two digits. -/
structure TwoDigits (v : Int) (x y : Char) : Prop where
  all : Digits [x, y]
  first : Digits [x]
  value_all : (value [x, y] : Int) = v
  value_first : (value [x] : Int) = v / 10

theorem value_snoc (ds : List Char) (c : Char) :
    value (ds ++ [c]) = 10 * value ds + value [c] := by
  unfold value
  rw [Nat.ofDigitChars_append, Nat.ofDigitChars_eq_ofDigitChars_zero, List.length_singleton]

theorem exists_twoDigits {v : Int} (hlo : 0 ≤ v) (hhi : v < 100) :
    ∃ x y, zeroPadded 2 v = [x, y] ∧ TwoDigits v x y := by
  obtain ⟨n, rfl⟩ := Int.eq_ofNat_of_zero_le hlo
  have hlen : (zeroPadded 2 (n : Int)).length = 2 := length_zeroPadded (by decide) (by omega)
  have hdigits := digits_zeroPadded 2 n
  have hvalue := value_zeroPadded 2 n
  obtain ⟨x, y, hxy⟩ := List.length_eq_two.mp hlen
  rw [hxy] at hdigits hvalue
  have hlast := @value_lt [y] fun c hc => hdigits.all c (List.mem_cons_of_mem x hc)
  have hsplit := value_snoc [x] y
  rw [List.singleton_append, hvalue] at hsplit
  rw [List.length_singleton] at hlast
  refine ⟨x, y, hxy, hdigits, ⟨List.cons_ne_nil _ _, fun c hc => ?_⟩, ?_, ?_⟩
  · exact hdigits.all c (List.mem_cons.mpr (.inl (List.mem_singleton.mp hc)))
  · exact_mod_cast hvalue
  · omega

/-- A year of four digits. -/
theorem exists_fourDigits {year : Int} (hlo : 1000 ≤ year) (hhi : year ≤ 9999) :
    ∃ a b c d, digits year.natAbs = [a, b, c, d] ∧ Digits [a, b, c, d] ∧
      (value [a, b, c, d] : Int) = year ∧ value [a, b] < 100 ∧ Digits [a, b] := by
  obtain ⟨n, rfl⟩ := Int.eq_ofNat_of_zero_le (show 0 ≤ year by omega)
  rw [Int.natAbs_natCast]
  have hdigits := digits_digits n
  have hvalue := value_digits n
  have hle : (digits n).length ≤ 4 := (length_digits_le (by decide)).mpr (by omega)
  have hge : ¬ (digits n).length ≤ 3 := by
    rw [length_digits_le (by decide)]
    omega
  obtain ⟨a, b, c, d, hds⟩ : ∃ a b c d, digits n = [a, b, c, d] := by
    obtain ⟨a, bcd, habcd⟩ := List.exists_cons_of_length_pos (show 0 < (digits n).length by omega)
    rw [habcd, List.length_cons] at hle hge
    obtain ⟨b, c, d, hbcd⟩ := List.length_eq_three.mp (show bcd.length = 3 by omega)
    exact ⟨a, b, c, d, by rw [habcd, hbcd]⟩
  rw [hds] at hdigits hvalue
  have hfirst : ∀ x ∈ [a, b], x.isDigit = true := by
    intro x hx
    refine hdigits.all x ?_
    simp only [List.mem_cons, List.not_mem_nil, or_false] at hx ⊢
    tauto
  exact ⟨a, b, c, d, hds, hdigits, by exact_mod_cast hvalue, value_lt hfirst,
    List.cons_ne_nil _ _, hfirst⟩

theorem scan_digits {format : List Directive} {ds rest : List Char} (hds : Digits ds)
    (hrest : ∀ c ∈ rest.head?, c.isDigit = false) :
    scan (.int none :: format) (ds ++ rest) = (value ds : Int) :: scan format rest :=
  scan_int (scanInt_digits hds (fun c hc => .inl (hrest c hc)) nofun)

namespace DateTimeValue

/-- What a text gives back: days, times of day, or seconds. -/
def heldText : DateTimeValue → DateTimeValue
  | .date ms => .date (midnight (ms.tdiv 1000) * 1000)
  | .time value => .time ⟨value.seconds % 86400, 0⟩
  | .timestamp value => .timestamp ⟨value.seconds, 0⟩

/-- Values with a year of four digits and nanoseconds. -/
structure Printable (value : DateTimeValue) : Prop where
  fraction : 0 ≤ value.fraction ∧ value.fraction < 1000000000
  year : IsInt32 (Calendar.gmtime value.seconds).year
  fourDigits : value.isTime = false →
    1000 ≤ (Calendar.gmtime value.seconds).year + 1900 ∧
      (Calendar.gmtime value.seconds).year + 1900 ≤ 9999

/-- Whether the part of a wide text that is read says as much as all of it. -/
def KeptShort (w : WcharSize) : DateTimeValue → Prop
  | .date _ => False
  | .time value => w = .two ∨ value.seconds % 3600 = 0
  | .timestamp value => w = .two ∧ value.seconds % 3600 = 0

end DateTimeValue

variable {P : Platform} {value : DateTimeValue}

/-- The nine digits of a fraction. -/
theorem length_fraction {fraction : Int} (h : 0 ≤ fraction ∧ fraction < 1000000000) :
    (snprintf 16 (zeroPadded 9 fraction)).length = 9 := by
  obtain ⟨n, rfl⟩ := Int.eq_ofNat_of_zero_le h.1
  have hlen : (zeroPadded 9 (n : Int)).length = 9 := length_zeroPadded (by decide) (by omega)
  rw [(snprintf_zeroPadded_iff (by omega)).mpr rfl, hlen]

/-- The year of a timestamp, and of a date. -/
theorem year_text {t : Tm} (h : 1000 ≤ t.year + 1900) :
    strftime P t .year = digits (t.year + 1900).natAbs ∧
      spacePadded 4 (t.year + 1900) = digits (t.year + 1900).natAbs := by
  obtain ⟨n, hn⟩ := Int.eq_ofNat_of_zero_le (show 0 ≤ t.year + 1900 by omega)
  have hlen : ¬ (digits n).length ≤ 3 := by
    rw [length_digits_le (by decide)]
    omega
  rw [hn, Int.natAbs_natCast]
  constructor
  · have hyear : strftime P t .year =
        if P.padsYear then zeroPadded 4 (t.year + 1900) else decimal (t.year + 1900) := rfl
    rw [hyear, hn]
    by_cases hpads : P.padsYear = true
    · rw [if_pos hpads]
      exact zeroPadded_digits (by omega) (by decide)
    · rw [if_neg hpads]
      exact decimal_natCast n
  · rw [spacePadded, decimal_natCast, Nat.sub_eq_zero_of_le (by omega)]
    rfl

/-- The characters of a value's text. -/
structure TextChars (t : Tm) where
  (a b c d m₁ m₂ d₁ d₂ h₁ h₂ i₁ i₂ s₁ s₂ : Char)
  month : TwoDigits (t.mon + 1) m₁ m₂
  day : TwoDigits t.mday d₁ d₂
  hour : TwoDigits t.hour h₁ h₂
  minute : TwoDigits t.min i₁ i₂
  second : TwoDigits t.sec s₁ s₂

namespace TextChars

variable {t : Tm} (x : TextChars t)

/-- `YYYY-MM-DD`. -/
def date : List Char :=
  [x.a, x.b, x.c, x.d] ++ '-' :: ([x.m₁, x.m₂] ++ '-' :: [x.d₁, x.d₂])

/-- `HH:MM:SS.`, and what is behind it. -/
def clock (rest : List Char) : List Char :=
  [x.h₁, x.h₂] ++ ':' :: ([x.i₁, x.i₂] ++ ':' :: ([x.s₁, x.s₂] ++ '.' :: rest))

/-- The four digits are the year. -/
structure HasYear : Prop where
  digits : Digits [x.a, x.b, x.c, x.d]
  year : (Formatted.value [x.a, x.b, x.c, x.d] : Int) = t.year + 1900
  century : Formatted.value [x.a, x.b] < 100
  first : Digits [x.a, x.b]

theorem head_not_digit {c : Char} (hc : c.isDigit = false) (cs : List Char) :
    ∀ e ∈ (c :: cs).head?, e.isDigit = false := by
  intro e he
  obtain rfl := Option.mem_some_iff.mp he
  exact hc

theorem scan_clock (rest : List Char) :
    scan clockScan (x.clock rest) = [t.hour, t.min, t.sec] := by
  rw [clockScan, clock, scan_digits x.hour.all (head_not_digit (by decide) _), scan_literal,
    scan_digits x.minute.all (head_not_digit (by decide) _), scan_literal,
    scan_digits x.second.all (head_not_digit (by decide) _), x.hour.value_all, x.minute.value_all,
    x.second.value_all]
  rfl

/-- The hour, and the first digit of the minute. -/
theorem scan_clock_short :
    scan clockScan ([x.h₁, x.h₂] ++ ':' :: ([x.i₁] ++ [])) = [t.hour, t.min / 10] := by
  rw [clockScan, scan_digits x.hour.all (head_not_digit (by decide) _), scan_literal,
    scan_digits x.minute.first (by simp), x.hour.value_all, x.minute.value_first]
  rfl

theorem scan_date (hx : x.HasYear) {rest : List Char}
    (hrest : ∀ c ∈ rest.head?, c.isDigit = false) :
    scan dateTimeScan (x.date ++ rest) =
      [t.year + 1900, t.mon + 1, t.mday] ++ scan (.space :: clockScan) rest := by
  change scan dateTimeScan ([x.a, x.b, x.c, x.d] ++ '-' :: ([x.m₁, x.m₂] ++ '-' ::
    ([x.d₁, x.d₂] ++ rest))) = _
  rw [dateTimeScan]
  simp only [List.cons_append, List.nil_append]
  rw [← hx.year]
  have hyear := @scan_digits (.literal '-' :: .int none :: .literal '-' :: .int none :: .space ::
    clockScan) _ ('-' :: ([x.m₁, x.m₂] ++ '-' :: ([x.d₁, x.d₂] ++ rest))) hx.digits
    (head_not_digit (by decide) _)
  have hmonth := @scan_digits (.literal '-' :: .int none :: .space :: clockScan) _
    ('-' :: ([x.d₁, x.d₂] ++ rest)) x.month.all (head_not_digit (by decide) _)
  have hday := @scan_digits (.space :: clockScan) _ rest x.day.all hrest
  simp only [List.cons_append, List.nil_append] at hyear hmonth hday
  rw [hyear, scan_literal, hmonth, scan_literal, hday, x.month.value_all, x.day.value_all]

/-- The date, the hour, and no more. -/
theorem scan_space_hour :
    scan (.space :: clockScan) (' ' :: ([x.h₁, x.h₂] ++ ':' :: [])) = [t.hour] := by
  have hspace := isSpace_of_isDigit (x.hour.all.all x.h₁ List.mem_cons_self)
  rw [List.cons_append, scan_space hspace, ← List.cons_append, clockScan,
    scan_digits x.hour.all (head_not_digit (by decide) _), scan_literal, x.hour.value_all]
  rfl

theorem scan_space_clock (rest : List Char) :
    scan (.space :: clockScan) (' ' :: x.clock rest) = [t.hour, t.min, t.sec] := by
  have hspace := isSpace_of_isDigit (x.hour.all.all x.h₁ List.mem_cons_self)
  have hclock := x.scan_clock rest
  rw [clock, List.cons_append] at hclock ⊢
  rw [scan_space hspace, hclock]

/-- Of a date, the year. -/
theorem scan_year (hx : x.HasYear) :
    scan dateTimeScan ([x.a, x.b, x.c, x.d] ++ ['-']) = [t.year + 1900] := by
  rw [dateTimeScan]
  simp only [List.cons_append, List.nil_append]
  have hyear := @scan_digits (.literal '-' :: .int none :: .literal '-' :: .int none :: .space ::
    clockScan) _ ['-'] hx.digits (head_not_digit (by decide) _)
  simp only [List.cons_append, List.nil_append] at hyear
  rw [hyear, scan_literal, hx.year]
  rfl

/-- Of a date, the first digits of the year. -/
theorem scan_century (hx : x.HasYear) :
    scan dateTimeScan ([x.a, x.b] ++ []) = [(Formatted.value [x.a, x.b] : Int)] := by
  rw [dateTimeScan, List.cons_append, scan_digits hx.first (by simp)]
  rfl

/-- Of a date, the year and the month. -/
theorem scan_month (hx : x.HasYear) :
    scan dateTimeScan ([x.a, x.b, x.c, x.d] ++ '-' :: ([x.m₁, x.m₂] ++ [])) =
      [t.year + 1900, t.mon + 1] := by
  rw [dateTimeScan]
  simp only [List.cons_append, List.nil_append]
  have hyear := @scan_digits (.literal '-' :: .int none :: .literal '-' :: .int none :: .space ::
    clockScan) _ ('-' :: ([x.m₁, x.m₂] ++ [])) hx.digits (head_not_digit (by decide) _)
  have hmonth := @scan_digits (.literal '-' :: .int none :: .space :: clockScan) _ [] x.month.all
    (by simp)
  simp only [List.cons_append, List.nil_append] at hyear hmonth
  rw [hyear, scan_literal, hmonth, x.month.value_all, hx.year]
  rfl

/-- The text of a value with this `tm`. -/
def print (value : DateTimeValue) : List Char :=
  match value with
  | .date _ => x.date
  | .time _ => x.clock (snprintf 16 (zeroPadded 9 value.fraction))
  | .timestamp _ => x.date ++ ' ' :: x.clock (snprintf 16 (zeroPadded 9 value.fraction))

end TextChars

theorem Platform.gmtime_eq {P : Platform} {seconds : Int}
    (h : IsInt32 (Calendar.gmtime seconds).year) : P.gmtime seconds = Calendar.gmtime seconds :=
  if_pos h

theorem exists_textChars (hvalue : value.Printable) :
    ∃ x : TextChars (Calendar.gmtime value.seconds), (value.isTime = false → x.HasYear) ∧
      value.timed.text P = x.print value := by
  have hvalid := Calendar.gmtime_valid value.seconds
  have hmon := hvalid.mon
  have hmday := hvalid.inYear.mday
  have hhour := hvalid.hour
  have hmin := hvalid.min
  have hsec := hvalid.sec
  obtain ⟨m₁, m₂, hm, month⟩ := exists_twoDigits
    (v := (Calendar.gmtime value.seconds).mon + 1) (by omega) (by omega)
  obtain ⟨d₁, d₂, hd, day⟩ := exists_twoDigits
    (v := (Calendar.gmtime value.seconds).mday) (by omega) (by omega)
  obtain ⟨h₁, h₂, hh, hour⟩ := exists_twoDigits
    (v := (Calendar.gmtime value.seconds).hour) (by omega) (by omega)
  obtain ⟨i₁, i₂, hi, minute⟩ := exists_twoDigits
    (v := (Calendar.gmtime value.seconds).min) (by omega) (by omega)
  obtain ⟨s₁, s₂, hs, second⟩ := exists_twoDigits
    (v := (Calendar.gmtime value.seconds).sec) (by omega) (by omega)
  have hgm : P.gmtime value.seconds = Calendar.gmtime value.seconds :=
    Platform.gmtime_eq hvalue.year
  cases value with
  | time v =>
    refine ⟨⟨'0', '0', '0', '0', m₁, m₂, d₁, d₂, h₁, h₂, i₁, i₂, s₁, s₂, month, day, hour, minute,
      second⟩, nofun, ?_⟩
    change getTimestampString P (P.gmtime (DateTimeValue.time v).seconds) _ timePattern = _
    rw [hgm, timePattern_text, hh, hi, hs]
    rfl
  | date ms =>
    obtain ⟨hlo, hhi⟩ := hvalue.fourDigits rfl
    obtain ⟨a, b, c, d, hy, hdigits, hval, hcentury, hfirst⟩ := exists_fourDigits hlo hhi
    refine ⟨⟨a, b, c, d, m₁, m₂, d₁, d₂, h₁, h₂, i₁, i₂, s₁, s₂, month, day, hour, minute,
      second⟩, fun _ => ⟨hdigits, hval, hcentury, hfirst⟩, ?_⟩
    change dateText (P.gmtime (DateTimeValue.date ms).seconds) = _
    rw [hgm, dateText, (year_text (P := P) hlo).2, hy, hm, hd]
    rfl
  | timestamp v =>
    obtain ⟨hlo, hhi⟩ := hvalue.fourDigits rfl
    obtain ⟨a, b, c, d, hy, hdigits, hval, hcentury, hfirst⟩ := exists_fourDigits hlo hhi
    refine ⟨⟨a, b, c, d, m₁, m₂, d₁, d₂, h₁, h₂, i₁, i₂, s₁, s₂, month, day, hour, minute,
      second⟩, fun _ => ⟨hdigits, hval, hcentury, hfirst⟩, ?_⟩
    change getTimestampString P (P.gmtime (DateTimeValue.timestamp v).seconds) _
      timestampPattern = _
    rw [hgm, timestampPattern_text, timePattern_text, (year_text (P := P) hlo).1, hy, hm, hd, hh,
      hi, hs]
    rfl

/-! ## What is got from the text -/

/-- The seconds of the value that is put together from a text. -/
def DateTimeValue.textSeconds (P : Platform) (value : DateTimeValue) (text : List Char) : Int :=
  match value with
  | .time _ =>
    let v := sscanf P clockScan text [0, 0, 0]
    toInt32 (timegm { cleared with
      year := 70, mday := 1, hour := v.getD 0 0, min := v.getD 1 0, sec := v.getD 2 0 })
  | _ => timegm (tmOfFields (sscanf P dateTimeScan text [0, 0, 0, 0, 0, 0]))

/-- The seconds that a text stands for. -/
def DateTimeValue.heldTextSeconds : DateTimeValue → Int
  | .date ms => midnight (ms.tdiv 1000)
  | .time value => value.seconds % 86400
  | .timestamp value => value.seconds

theorem heldText_eq : value.heldText = value.ofSeconds value.heldTextSeconds 0 := by
  cases value <;> rfl

section Get

variable {b : ApplicationDataBuffer} {m : Memory} {indicator : Int} {bytes : List UInt8}
  (htype : b.type = .char ∨ b.type = .wchar)
  (hinput : b.inputText P m indicator = .ok (some bytes))
include htype hinput

theorem readDateTime_text :
    b.readDateTime P m indicator =
      .ok (tmOfFields (sscanf P dateTimeScan (cText bytes) [0, 0, 0, 0, 0, 0])) := by
  unfold readDateTime
  rcases htype with htype | htype <;> rw [htype] <;> simp only [hinput] <;> rfl

theorem readTime_text :
    b.readTime P m indicator =
      .ok { cleared with
        year := 70, mday := 1
        hour := (sscanf P clockScan (cText bytes) [0, 0, 0]).getD 0 0
        min := (sscanf P clockScan (cText bytes) [0, 0, 0]).getD 1 0
        sec := (sscanf P clockScan (cText bytes) [0, 0, 0]).getD 2 0 } := by
  unfold readTime
  rcases htype with htype | htype <;> rw [htype] <;> simp only [hinput] <;> rfl

theorem get_text :
    value.get P b m indicator = .ok (value.ofSeconds (value.textSeconds P (cText bytes)) 0) := by
  have hdate := readDateTime_text htype hinput
  have htime := readTime_text htype hinput
  cases value with
  | date ms => rw [DateTimeValue.get, getDate, hdate]; rfl
  | time v => rw [DateTimeValue.get, getTime, htime]; rfl
  | timestamp v =>
    rw [DateTimeValue.get, getTimestamp, hdate]
    rcases htype with htype | htype <;> rw [htype] <;> rfl

end Get

theorem isInt32_fields {t : Tm} (ht : t.Valid) (hyear : 1000 ≤ t.year + 1900)
    (hyear' : t.year + 1900 ≤ 9999) :
    ∀ v ∈ [t.year + 1900, t.mon + 1, t.mday, t.hour, t.min, t.sec], IsInt32 v := by
  obtain ⟨hmon, hmon'⟩ := ht.mon
  obtain ⟨hmday, hmday'⟩ := ht.inYear.mday
  obtain ⟨hhour, hhour'⟩ := ht.hour
  obtain ⟨hmin, hmin'⟩ := ht.min
  obtain ⟨hsec, hsec'⟩ := ht.sec
  simp only [List.forall_mem_cons]
  clear ht
  refine ⟨?_, ?_, ?_, ?_, ?_, ?_, by simp⟩ <;> constructor <;> omega

section Seconds

variable {seconds : Int}

/-- A year without month and day is behind the days of that year. -/
theorem timegm_unread {year : Int} {t : Tm} (ht : t.InYear) (h : year ≤ t.year) :
    timegm ⟨year, -1, 0, 0, 0, 0⟩ < timegm t := by
  have hmday := ht.mday
  have hclock := ht.clock
  have hnext := Calendar.yearStart_succ (year + 1899)
  have hsplit : ((Calendar.monthLengths (Calendar.isLeap (year + 1899))).sum : Int) =
      ((Calendar.monthLengths (Calendar.isLeap (year + 1899))).take 11).sum + 31 := by
    cases Calendar.isLeap (year + 1899) <;> rfl
  have hstart : Calendar.yearStart (year + 1899 + 1) ≤ Calendar.yearStart (t.year + 1900) := by
    rcases Int.lt_or_eq_of_le h with hlt | heq
    · have hmono := @Calendar.yearStart_mono (year + 1899) (t.year + 1900) (by omega)
      exact hmono
    · exact Int.le_of_eq (congrArg Calendar.yearStart (by omega))
  rw [Calendar.timegm_inYear ht]
  have hunread : timegm ⟨year, -1, 0, 0, 0, 0⟩ = (Calendar.yearStart (year + 1899) +
      ((Calendar.monthLengths (Calendar.isLeap (year + 1899))).take 11).sum - 1 -
        Calendar.epoch) * 86400 := by
    unfold timegm
    have hyear : year + 1900 + (-1) / 12 = year + 1899 := by omega
    have hmod : (((-1 : Int)) % 12).toNat = 11 := rfl
    simp only [hyear, hmod]
    omega
  rw [hunread]
  omega

/-- A month without a day is behind the days of that month. -/
theorem timegm_undated {t : Tm} (ht : t.InYear) :
    timegm ⟨t.year, t.mon, 0, 0, 0, 0⟩ < timegm t := by
  have hmday := ht.mday
  have hclock := ht.clock
  unfold timegm
  simp only
  omega

/-- An hour without its minutes. -/
theorem timegm_hour_iff (t : Tm) (minute : Int) (hminute : minute = 0 ∨ minute = t.min / 10)
    (hmin : 0 ≤ t.min) (hsec : 0 ≤ t.sec) :
    timegm { t with min := minute, sec := 0 } = timegm t ↔ t.min = 0 ∧ t.sec = 0 := by
  unfold timegm
  simp only
  omega

theorem hour_iff (seconds : Int) :
    (Calendar.gmtime seconds).min = 0 ∧ (Calendar.gmtime seconds).sec = 0 ↔ seconds % 3600 = 0 := by
  simp only [Calendar.gmtime]
  omega

end Seconds

section Portions

/-- The fields of a value. -/
def DateTimeValue.fields (value : DateTimeValue) : List Int :=
  let t := Calendar.gmtime value.seconds
  [t.year + 1900, t.mon + 1, t.mday, t.hour, t.min, t.sec]

/-- The `int` fields that are scanned, from zeros. -/
theorem textSeconds_of_scan (hvalue : value.Printable) (htime : value.isTime = false)
    {text : List Char} {v : List Int} (hscan : scan dateTimeScan text = v)
    (hv : ∀ f ∈ v, f ∈ value.fields) :
    value.textSeconds P text =
      timegm (tmOfFields (v ++ [0, 0, 0, 0, 0, 0].drop v.length)) := by
  obtain ⟨hlo, hhi⟩ := hvalue.fourDigits htime
  have hfields := sscanf_eq (P := P) [0, 0, 0, 0, 0, 0] hscan fun f hf =>
    isInt32_fields (Calendar.gmtime_valid value.seconds) hlo hhi f (hv f hf)
  cases value with
  | time v => cases htime
  | date ms => exact congrArg (fun v => timegm (tmOfFields v)) hfields
  | timestamp v => exact congrArg (fun v => timegm (tmOfFields v)) hfields

theorem textSeconds_time (v : TimeOfDay) {text : List Char} {hour minute second : Int}
    (hfields : sscanf P clockScan text [0, 0, 0] = [hour, minute, second])
    (hclock : IsInt32 (hour * 3600 + minute * 60 + second)) :
    (DateTimeValue.time v).textSeconds P text = hour * 3600 + minute * 60 + second := by
  have hepoch := timegm_epochTm ⟨0, 0, 0, hour, minute, second⟩
  change toInt32 (timegm _) = _
  simp only [hfields, List.getD_cons_zero, List.getD_cons_succ]
  exact (congrArg toInt32 hepoch).trans (toInt32_of_isInt32 hclock)

variable (hvalue : value.Printable) (x : TextChars (Calendar.gmtime value.seconds))
  (hx : value.isTime = false → x.HasYear)

include hvalue hx in
/-- The whole text gives back days, times of day, or seconds. -/
theorem textSeconds_print : value.textSeconds P (x.print value) = value.heldTextSeconds := by
  have hvalid := Calendar.gmtime_valid value.seconds
  have hback := Calendar.timegm_gmtime value.seconds
  have hclock := clock_gmtime value.seconds
  have hhour := hvalid.hour
  have hmin := hvalid.min
  have hsec := hvalid.sec
  cases value with
  | time v =>
    have hscan := x.scan_clock (snprintf 16 (zeroPadded 9 (DateTimeValue.time v).fraction))
    have hfields := sscanf_eq (P := P) [0, 0, 0] hscan (by
      simp only [List.forall_mem_cons]
      refine ⟨?_, ?_, ?_, by simp⟩ <;> constructor <;> omega)
    rw [TextChars.print, textSeconds_time v hfields (by constructor <;> omega)]
    exact hclock
  | date ms =>
    have hscan := @TextChars.scan_date _ x (hx rfl) [] (by simp)
    have hnone : scan (.space :: clockScan) [] = [] := rfl
    rw [hnone, List.append_nil, List.append_nil] at hscan
    have hmid := timegm_midnight (Calendar.gmtime (DateTimeValue.date ms).seconds)
    rw [hback, hclock] at hmid
    rw [TextChars.print, textSeconds_of_scan hvalue rfl hscan (by simp [DateTimeValue.fields])]
    have htm : tmOfFields ([(Calendar.gmtime (DateTimeValue.date ms).seconds).year + 1900,
        (Calendar.gmtime (DateTimeValue.date ms).seconds).mon + 1,
        (Calendar.gmtime (DateTimeValue.date ms).seconds).mday] ++ [0, 0, 0]) =
        { Calendar.gmtime (DateTimeValue.date ms).seconds with hour := 0, min := 0, sec := 0 } := by
      simp [tmOfFields]
    refine (congrArg timegm htm).trans (hmid.trans ?_)
    simp only [DateTimeValue.heldTextSeconds, DateTimeValue.midnight, DateTimeValue.seconds]
    omega
  | timestamp v =>
    have hscan := @TextChars.scan_date _ x (hx rfl) (' ' :: x.clock
      (snprintf 16 (zeroPadded 9 (DateTimeValue.timestamp v).fraction))) (by simp)
    rw [x.scan_space_clock] at hscan
    rw [TextChars.print, textSeconds_of_scan hvalue rfl hscan (by simp [DateTimeValue.fields])]
    have htm : tmOfFields ([(Calendar.gmtime (DateTimeValue.timestamp v).seconds).year + 1900,
        (Calendar.gmtime (DateTimeValue.timestamp v).seconds).mon + 1,
        (Calendar.gmtime (DateTimeValue.timestamp v).seconds).mday,
        (Calendar.gmtime (DateTimeValue.timestamp v).seconds).hour,
        (Calendar.gmtime (DateTimeValue.timestamp v).seconds).min,
        (Calendar.gmtime (DateTimeValue.timestamp v).seconds).sec] ++ []) =
        Calendar.gmtime (DateTimeValue.timestamp v).seconds := by
      simp [tmOfFields]
    exact (congrArg timegm htm).trans hback

/-- The `tm` of a text that ends behind the year, the month or the hour. -/
theorem tmOfFields_year (year : Int) :
    tmOfFields ([year + 1900] ++ [0, 0, 0, 0, 0, 0].drop [year + 1900].length) =
      ⟨year, -1, 0, 0, 0, 0⟩ := by
  simp [tmOfFields]

theorem tmOfFields_month (t : Tm) :
    tmOfFields ([t.year + 1900, t.mon + 1] ++
      [0, 0, 0, 0, 0, 0].drop [t.year + 1900, t.mon + 1].length) = ⟨t.year, t.mon, 0, 0, 0, 0⟩ := by
  simp [tmOfFields]

theorem tmOfFields_hour (t : Tm) :
    tmOfFields ([t.year + 1900, t.mon + 1, t.mday] ++ [t.hour] ++
      [0, 0, 0, 0, 0, 0].drop ([t.year + 1900, t.mon + 1, t.mday] ++ [t.hour]).length) =
      { t with min := 0, sec := 0 } := by
  simp [tmOfFields]

theorem clock_short_iff {hour minute second : Int} (hminute : 0 ≤ minute) (hsecond : 0 ≤ second) :
    hour * 3600 + minute / 10 * 60 + 0 = hour * 3600 + minute * 60 + second ↔
      minute = 0 ∧ second = 0 := by
  omega

/-- The length that is stored with the text. -/
def DateTimeValue.textLength : DateTimeValue → Nat
  | .date _ => 10
  | .time _ => 18
  | .timestamp _ => 29

include hvalue hx in
theorem textSeconds_short_iff (w : WcharSize) :
    value.textSeconds P ((x.print value).take (value.textLength / w.bytes)) =
        value.heldTextSeconds ↔ value.KeptShort w := by
  have hvalid := Calendar.gmtime_valid value.seconds
  have hin := hvalid.inYear
  have hback := Calendar.timegm_gmtime value.seconds
  have hclock := clock_gmtime value.seconds
  have hzero := hour_iff value.seconds
  have hhour := hvalid.hour
  have hmin := hvalid.min
  have hsec := hvalid.sec
  cases value with
  | time v =>
    cases w with
    | two =>
      have hscan := x.scan_clock []
      have hfields := sscanf_eq (P := P) [0, 0, 0] hscan (by
        simp only [List.forall_mem_cons]
        refine ⟨?_, ?_, ?_, by simp⟩ <;> constructor <;> omega)
      have hpart : (x.print (.time v)).take 9 = x.clock [] := rfl
      refine iff_of_true ?_ (.inl rfl)
      have hlength : (DateTimeValue.time v).textLength / WcharSize.two.bytes = 9 := by
        simp [DateTimeValue.textLength, WcharSize.bytes]
      rw [hlength, hpart, textSeconds_time v hfields (by constructor <;> omega)]
      exact hclock
    | four =>
      have hfields := sscanf_eq (P := P) [0, 0, 0] x.scan_clock_short (by
        simp only [List.forall_mem_cons]
        refine ⟨?_, ?_, by simp⟩ <;> constructor <;> omega)
      have hpart : (x.print (.time v)).take 4 = [x.h₁, x.h₂] ++ ':' :: ([x.i₁] ++ []) := rfl
      have hlength : (DateTimeValue.time v).textLength / WcharSize.four.bytes = 4 := by
        simp [DateTimeValue.textLength, WcharSize.bytes]
      rw [hlength, hpart, textSeconds_time v hfields (by constructor <;> omega)]
      have hheld : (DateTimeValue.time v).heldTextSeconds =
          (Calendar.gmtime (DateTimeValue.time v).seconds).hour * 3600 +
            (Calendar.gmtime (DateTimeValue.time v).seconds).min * 60 +
            (Calendar.gmtime (DateTimeValue.time v).seconds).sec := hclock.symm
      rw [hheld, clock_short_iff hmin.1 hsec.1, hzero]
      exact (or_iff_right nofun).symm
  | date ms =>
    have hmid := timegm_midnight (Calendar.gmtime (DateTimeValue.date ms).seconds)
    rw [hback, hclock] at hmid
    have hheld : (DateTimeValue.date ms).heldTextSeconds =
        timegm { Calendar.gmtime (DateTimeValue.date ms).seconds with
          hour := 0, min := 0, sec := 0 } := by
      rw [hmid]
      simp only [DateTimeValue.heldTextSeconds, DateTimeValue.midnight, DateTimeValue.seconds]
      omega
    have hinMid := hin.midnight
    refine iff_of_false ?_ (fun h => h)
    rw [hheld]
    cases w with
    | two =>
      have hpart : (x.print (.date ms)).take 5 = [x.a, x.b, x.c, x.d] ++ ['-'] := rfl
      have hlength : (DateTimeValue.date ms).textLength / WcharSize.two.bytes = 5 := by
        simp [DateTimeValue.textLength, WcharSize.bytes]
      rw [hlength, hpart, textSeconds_of_scan hvalue rfl (x.scan_year (hx rfl))
        (by simp [DateTimeValue.fields])]
      have hlt := @timegm_unread (Calendar.gmtime (DateTimeValue.date ms).seconds).year _ hinMid
        le_rfl
      rw [← tmOfFields_year] at hlt
      exact hlt.ne
    | four =>
      have hpart : (x.print (.date ms)).take 2 = [x.a, x.b] ++ [] := rfl
      have hlength : (DateTimeValue.date ms).textLength / WcharSize.four.bytes = 2 := by
        simp [DateTimeValue.textLength, WcharSize.bytes]
      have hcentury := (hx rfl).century
      have hyear := (hvalue.fourDigits rfl).1
      have hlt := @timegm_unread ((value [x.a, x.b] : Int) - 1900) _ hinMid
        (by simp only; omega)
      have hfields := sscanf_eq (P := P) [0, 0, 0, 0, 0, 0] (x.scan_century (hx rfl)) (by
        simp only [List.forall_mem_cons]
        refine ⟨?_, by simp⟩
        constructor <;> omega)
      rw [hlength, hpart]
      change timegm (tmOfFields (sscanf P dateTimeScan _ _)) ≠ _
      rw [hfields]
      rw [← Int.sub_add_cancel (value [x.a, x.b] : Int) 1900]
      rw [← tmOfFields_year] at hlt
      exact hlt.ne
  | timestamp v =>
    have hheld : (DateTimeValue.timestamp v).heldTextSeconds =
        timegm (Calendar.gmtime (DateTimeValue.timestamp v).seconds) := hback.symm
    rw [hheld]
    cases w with
    | two =>
      have hpart : (x.print (.timestamp v)).take 14 =
          x.date ++ ' ' :: ([x.h₁, x.h₂] ++ ':' :: []) := rfl
      have hlength : (DateTimeValue.timestamp v).textLength / WcharSize.two.bytes = 14 := by
        simp [DateTimeValue.textLength, WcharSize.bytes]
      have hscan := @TextChars.scan_date _ x (hx rfl) (' ' :: ([x.h₁, x.h₂] ++ ':' :: []))
        (by simp)
      rw [x.scan_space_hour] at hscan
      rw [hlength, hpart, textSeconds_of_scan hvalue rfl hscan (by simp [DateTimeValue.fields]),
        tmOfFields_hour, timegm_hour_iff _ 0 (.inl rfl) hmin.1 hsec.1, hzero]
      exact (and_iff_right rfl).symm
    | four =>
      have hpart : (x.print (.timestamp v)).take 7 =
          [x.a, x.b, x.c, x.d] ++ '-' :: ([x.m₁, x.m₂] ++ []) := rfl
      have hlength : (DateTimeValue.timestamp v).textLength / WcharSize.four.bytes = 7 := by
        simp [DateTimeValue.textLength, WcharSize.bytes]
      rw [hlength, hpart, textSeconds_of_scan hvalue rfl (x.scan_month (hx rfl))
        (by simp [DateTimeValue.fields]), tmOfFields_month]
      exact iff_of_false (timegm_undated hin).ne (fun h => nomatch h.1)

end Portions

/-! ## Put and get -/

/-- A buffer for `n` characters. -/
def ApplicationDataBuffer.textBuffer (P : Platform) (wide : Bool) (n : Nat) (target : Addr)
    (b : ApplicationDataBuffer) : ApplicationDataBuffer :=
  { b with
    type := if wide then .wchar else .char
    buffer := some target
    buflen := n * if wide then P.wchar.bytes else 1 }

/-- What is put as text is got back with the indicator that is stored with it, whatever was in
memory before. -/
def TextComesBack (P : Platform) (b : ApplicationDataBuffer) (value held : DateTimeValue) : Prop :=
  ∃ base c, b.getData = some base ∧ value.put P b = .ok c ∧ Within 0 b.buflen c.writes ∧
    ∀ m indicator, (∀ l ∈ c.resLen, indicator = l) →
      value.get P b (apply m base c.writes) indicator = .ok held

theorem put_char {b : ApplicationDataBuffer} (htype : b.type = .char) :
    value.put P b = .ok (b.putCharText (value.timed.text P) (value.textLength + 1)) := by
  have hput := TimedValue.perform_char (P := P) value.timed htype
  cases value <;> exact hput

theorem put_wchar {b : ApplicationDataBuffer} (htype : b.type = .wchar) :
    ∃ result, value.put P b =
      .ok { b.putWcharText P (value.timed.text P) value.textLength with result := result } := by
  cases value <;>
    simp only [DateTimeValue.put, DateTimeValue.timed, TimedValue.call, PutCall.perform, putDate,
      putTimestamp, putTime, htype] <;> exact ⟨_, rfl⟩

theorem length_print (hvalue : value.Printable) (x : TextChars (Calendar.gmtime value.seconds)) :
    (x.print value).length = value.textLength := by
  have hfraction := length_fraction hvalue.fraction
  cases value with
  | date ms => rfl
  | time v => simp [TextChars.print, TextChars.clock, hfraction, DateTimeValue.textLength]
  | timestamp v =>
    simp [TextChars.print, TextChars.clock, TextChars.date, hfraction, DateTimeValue.textLength]

theorem textLength_bounds (value : DateTimeValue) :
    1 < value.textLength ∧ value.textLength < 2147483647 := by
  cases value <;> simp [DateTimeValue.textLength]

/-- Days, times of day and seconds come back from a character buffer that is large enough: always
from `char`s, and from `SQLWCHAR`s where no indicator is bound, or where the part of the text that
is read says as much. -/
theorem dateTime_text_iff (P : Platform) (value : DateTimeValue) (hvalue : value.Printable)
    (wide : Bool) (n : Nat) (hn : value.textLength < n) (b : ApplicationDataBuffer)
    (target : Addr) :
    TextComesBack P (b.textBuffer P wide n target) value value.heldText ↔
      wide = false ∨ b.reslen = none ∨ value.KeptShort P.wchar := by
  obtain ⟨x, hx, htext⟩ := exists_textChars (P := P) hvalue
  have hplain := TimedValue.plain_text P value.timed
  have hlen := length_print hvalue x
  have hwhole := textSeconds_print (P := P) hvalue x hx
  have hshort := textSeconds_short_iff (P := P) hvalue x hx P.wchar
  obtain ⟨hpos, hlength⟩ := textLength_bounds value
  rw [← htext] at hlen hwhole hshort
  rw [heldText_eq]
  cases wide with
  | false =>
    obtain ⟨base, hdata⟩ : ∃ base, (b.textBuffer P false n target).getData = some base := ⟨_, rfl⟩
    have htype : (b.textBuffer P false n target).type = .char := rfl
    have hbuflen : (b.textBuffer P false n target).buflen = n := Nat.mul_one n
    refine iff_of_true ⟨base, _, hdata, put_char htype, ?_, fun m indicator hind => ?_⟩ (.inl rfl)
    · exact putCharText_within _ _ (by omega)
    · obtain ⟨bytes, hinput, hbytes⟩ := inputText_char (P := P) htype hdata hplain (by omega)
        (by omega) (by omega) (by omega) m hind
      rw [get_text (.inl htype) hinput, hbytes, hwhole]
  | true =>
    obtain ⟨base, hdata⟩ : ∃ base, (b.textBuffer P true n target).getData = some base := ⟨_, rfl⟩
    have htype : (b.textBuffer P true n target).type = .wchar := rfl
    have hbuflen : (b.textBuffer P true n target).buflen = n * P.wchar.bytes := rfl
    have hcounted : (b.textBuffer P true n target).getResLen.isSome = b.reslen.isSome := by
      simp [getResLen, applyOffset, textBuffer]
    obtain ⟨result, hput⟩ := @put_wchar P value _ htype
    have hget (m : Memory) (indicator : Int)
        (hind : ∀ l ∈ ((b.textBuffer P true n target).putWcharText P (value.timed.text P)
          value.textLength).resLen, indicator = l) :
        value.get P (b.textBuffer P true n target) (apply m base
          ((b.textBuffer P true n target).putWcharText P (value.timed.text P)
            value.textLength).writes) indicator =
          .ok (value.ofSeconds (value.textSeconds P
            (shownPart P.wchar b.reslen.isSome value.textLength (value.timed.text P))) 0) := by
      obtain ⟨bytes, hinput, hbytes⟩ := inputText_wchar htype hdata hplain hbuflen
        (by omega) (by omega) (by omega) m hind
      rw [get_text (.inr htype) hinput, hbytes, hcounted]
    have hgot : value.textSeconds P (shownPart P.wchar b.reslen.isSome value.textLength
        (value.timed.text P)) = value.heldTextSeconds ↔
          b.reslen = none ∨ value.KeptShort P.wchar := by
      cases hres : b.reslen with
      | none => exact iff_of_true hwhole (.inl rfl)
      | some a => exact hshort.trans (or_iff_right (Option.some_ne_none a)).symm
    rw [or_iff_right (by decide), ← hgot]
    constructor
    · rintro ⟨base', c, hdata', hput', -, hback⟩
      obtain rfl := Option.some.inj (hdata.symm.trans hdata')
      obtain rfl := Except.ok.inj (hput.symm.trans hput')
      obtain ⟨indicator, hind⟩ : ∃ indicator : Int, ∀ l ∈
          ((b.textBuffer P true n target).putWcharText P (value.timed.text P)
            value.textLength).resLen, indicator = l := by
        cases ((b.textBuffer P true n target).putWcharText P (value.timed.text P)
          value.textLength).resLen with
        | none => exact ⟨0, by simp⟩
        | some l => exact ⟨l, fun k hk => Option.some.inj hk⟩
      have h := Except.ok.inj ((hget (fun _ => 0) indicator hind).symm.trans
        (hback (fun _ => 0) indicator hind))
      exact ofSeconds_inj.mp h
    · intro h
      refine ⟨base, _, hdata, hput, ?_, fun m indicator hind => ?_⟩
      · refine putWcharText_within (value.timed.text P) value.textLength ?_
        rw [hbuflen]
        exact Nat.le_mul_of_pos_left _ (by omega)
      · rw [hget m indicator hind, h]

/-- A date in `SQLWCHAR`s with an indicator does not come back, and without one it does. -/
theorem dateTime_text_wideDate :
    ¬ TextComesBack .linux
        (ApplicationDataBuffer.textBuffer .linux true 11 0
          { type := .wchar, buffer := none, buflen := 0, reslen := some 64 })
        (.date 1704067200000) (.date 1704067200000) ∧
      TextComesBack .linux
        (ApplicationDataBuffer.textBuffer .linux true 11 0
          { type := .wchar, buffer := none, buflen := 0, reslen := none })
        (.date 1704067200000) (.date 1704067200000) := by
  have hvalue : DateTimeValue.Printable (.date 1704067200000) :=
    ⟨by decide, by decide +kernel, fun _ => by decide +kernel⟩
  constructor
  · intro h
    exact ((dateTime_text_iff .linux (.date 1704067200000) hvalue true 11 (by decide)
      { type := .wchar, buffer := none, buflen := 0, reslen := some 64 } 0).mp h).elim nofun
        fun h => h.elim nofun id
  · exact (dateTime_text_iff .linux (.date 1704067200000) hvalue true 11 (by decide)
      { type := .wchar, buffer := none, buflen := 0, reslen := none } 0).mpr (.inr (.inl rfl))

end TrinoOdbc
