import TrinoOdbc.CharacterConversions
import TrinoOdbc.TrinoColumn

/-!
# TrinoOdbc.FractionalSeconds

`TIME` and `TIMESTAMP` columns: the text is scanned field by field, and what is stored is printed
from the fields. `fractions_kept_iff` says for which texts the fraction and the year stay the same.
-/

namespace TrinoOdbc

open ByteMemory
open Calendar (Tm monthLengths isLeap timegm)
open Formatted
open ApplicationDataBuffer

/-! ## The texts of the columns -/

/-- Digits with a value in bounds, at most as many as the field is wide. -/
structure Field (width least most : Nat) where
  digits : List Char
  isDigits : Digits digits
  fits : digits.length ≤ width
  bounds : least ≤ value digits ∧ value digits ≤ most

/-- A time of day, with a fraction of at most nine digits. -/
structure ClockText where
  hour : Field 2 0 23
  minute : Field 2 0 59
  second : Field 2 0 59
  fraction : List Char
  fraction_digits : ∀ c ∈ fraction, c.isDigit = true
  fraction_length : fraction.length ≤ 9

structure DateText where
  year : Field 4 1 9999
  month : Field 2 1 12
  day : Field 2 1 31
  valid : value day.digits ≤
    (monthLengths (isLeap (value year.digits)))[value month.digits - 1]?.getD 0

namespace ClockText

def fractionText (c : ClockText) : List Char := if c.fraction = [] then [] else '.' :: c.fraction

def text (c : ClockText) : List Char :=
  c.hour.digits ++ ':' :: (c.minute.digits ++ ':' :: (c.second.digits ++ c.fractionText))

def nanoseconds (c : ClockText) : Nat := value c.fraction * 10 ^ (9 - c.fraction.length)

/-- The time of day with nine digits for the fraction. -/
def expected (c : ClockText) : List Char :=
  zeroPadded 2 (value c.hour.digits) ++ ':' :: (zeroPadded 2 (value c.minute.digits) ++
    ':' :: (zeroPadded 2 (value c.second.digits) ++ '.' :: zeroPadded 9 c.nanoseconds))

/-- What is scanned for the fraction, in a variable that has not been initialized. -/
def scanned (P : Platform) (i : Nat) (c : ClockText) : Int :=
  if c.fraction = [] then P.uninitializedInt i else value c.fraction

end ClockText

namespace DateText

def text (d : DateText) : List Char :=
  d.year.digits ++ '-' :: (d.month.digits ++ '-' :: d.day.digits)

/-- The date with four digits for the year. -/
def expected (d : DateText) : List Char :=
  zeroPadded 4 (value d.year.digits) ++ '-' :: (zeroPadded 2 (value d.month.digits) ++
    '-' :: zeroPadded 2 (value d.day.digits))

end DateText

/-! ## Scanning -/

theorem scan_field {width least most : Nat} (f : Field width least most) (format : List Directive)
    {rest : List Char} (hrest : ∀ c ∈ rest.head?, c.isDigit = false) :
    scan (.int (some width) :: format) (f.digits ++ rest) =
      (value f.digits : Int) :: scan format rest := by
  refine scan_int (scanInt_digits f.isDigits (fun c hc => .inl (hrest c hc)) ?_)
  intro n hn
  obtain rfl := Option.mem_some_iff.mp hn
  exact f.fits

theorem scan_clock (c : ClockText) :
    scan timeFormat c.text =
      [(value c.hour.digits : Int), value c.minute.digits, value c.second.digits] ++
        if c.fraction = [] then [] else [(value c.fraction : Int)] := by
  have hhead : ∀ d ∈ c.fractionText.head?, d.isDigit = false := by
    intro d hd
    unfold ClockText.fractionText at hd
    split at hd
    · cases hd
    · cases hd
      decide
  rw [timeFormat, ClockText.text, scan_field c.hour _ (by simp), scan_literal,
    scan_field c.minute _ (by simp), scan_literal, scan_field c.second _ hhead]
  unfold ClockText.fractionText
  split
  · rfl
  · rename_i hne
    have hdigits : scanInt (some 9) c.fraction = some ((value c.fraction : Int), []) := by
      have h := @scanInt_digits _ [] (some 9) ⟨hne, c.fraction_digits⟩
        (by simp) fun n hn => by
          obtain rfl := Option.mem_some_iff.mp hn
          exact c.fraction_length
      rwa [List.append_nil] at h
    rw [scan_literal, scan_int hdigits]
    rfl

theorem scan_timestamp (d : DateText) (c : ClockText) :
    scan timestampFormat (d.text ++ ' ' :: c.text) =
      [(value d.year.digits : Int), value d.month.digits, value d.day.digits] ++
        scan timeFormat c.text := by
  obtain ⟨e, es, he⟩ := List.exists_cons_of_ne_nil c.hour.isDigits.ne_nil
  have hspace : isSpace e = false :=
    isSpace_of_isDigit (c.hour.isDigits.all e (by rw [he]; exact List.mem_cons_self))
  have htext : c.text = e :: (es ++ ':' :: (c.minute.digits ++ ':' ::
      (c.second.digits ++ c.fractionText))) := by
    rw [ClockText.text, he]
    rfl
  rw [timestampFormat, dateFormat, DateText.text]
  simp only [List.append_assoc, List.cons_append, List.nil_append]
  rw [scan_field d.year _ (by simp), scan_literal, scan_field d.month _ (by simp), scan_literal,
    scan_field d.day _ (by simp), htext, scan_space hspace]

/-! ## What is scanned -/

theorem toInt32_isInt32 (v : Int) : IsInt32 (toInt32 v) := by
  have hlo := Int.le_bmod (x := v) (m := 4294967296) (by decide)
  have hhi := Int.bmod_lt (x := v) (m := 4294967296) (by decide)
  unfold toInt32
  constructor <;> omega

theorem toInt32_of_isInt32 {v : Int} (h : IsInt32 v) : toInt32 v = v := by
  obtain ⟨hlo, hhi⟩ := h
  unfold toInt32
  rw [Int.bmod_def]
  split <;> omega

theorem sscanf_eq {P : Platform} {format : List Directive} {s : List Char} {v : List Int}
    (before : List Int) (h : scan format s = v) (hv : ∀ x ∈ v, IsInt32 x) :
    sscanf P format s before = v ++ before.drop v.length := by
  have hmap : v.map (fun x => if IsInt32 x then x else toInt32 (P.scanOverflow x)) = v := by
    refine (List.map_congr_left fun x hx => ?_).trans (List.map_id v)
    exact if_pos (hv x hx)
  unfold sscanf
  simp only [h, hmap]

namespace Field

variable {width least most : Nat}

theorem isInt32 (f : Field width least most) (hmost : most < 2147483648) :
    IsInt32 (value f.digits) := by
  have hbounds := f.bounds
  constructor <;> omega

end Field

namespace ClockText

theorem fraction_lt (c : ClockText) : value c.fraction < 1000000000 := by
  have hlt := value_lt c.fraction_digits
  have hle : 10 ^ c.fraction.length ≤ 10 ^ 9 := Nat.pow_le_pow_right (by decide) c.fraction_length
  omega

theorem nanoseconds_lt (c : ClockText) : c.nanoseconds < 1000000000 := by
  have hlt := value_lt c.fraction_digits
  have hlen := c.fraction_length
  have hpow : 10 ^ c.fraction.length * 10 ^ (9 - c.fraction.length) = 10 ^ 9 := by
    rw [← Nat.pow_add, Nat.add_sub_cancel' hlen]
  calc c.nanoseconds < 10 ^ c.fraction.length * 10 ^ (9 - c.fraction.length) :=
        Nat.mul_lt_mul_of_pos_right hlt (Nat.pow_pos (by decide))
    _ = 1000000000 := hpow

/-- The four values after the time of day has been scanned. -/
theorem scanned_isInt32 (P : Platform) (i : Nat) (c : ClockText) : IsInt32 (c.scanned P i) := by
  unfold scanned
  split
  · exact toInt32_isInt32 _
  · have hlt := c.fraction_lt
    constructor <;> omega

theorem isInt32_of_mem_scan (c : ClockText) : ∀ x ∈ scan timeFormat c.text, IsInt32 x := by
  intro x hx
  rw [scan_clock] at hx
  simp only [List.cons_append, List.nil_append, List.mem_cons] at hx
  rcases hx with rfl | rfl | rfl | hx
  · exact c.hour.isInt32 (by decide)
  · exact c.minute.isInt32 (by decide)
  · exact c.second.isInt32 (by decide)
  · split at hx
    · cases hx
    · rw [List.mem_singleton.mp hx]
      have hlt := c.fraction_lt
      constructor <;> omega

/-- The fraction is kept exactly when it has nine digits, or is zero, or is missing where the
variable is zero by chance. -/
def FractionKept (P : Platform) (i : Nat) (c : ClockText) : Prop :=
  c.fraction.length = 9 ∨ c.fraction ≠ [] ∧ value c.fraction = 0 ∨
    c.fraction = [] ∧ P.uninitializedInt i = 0

theorem scanned_eq_iff (P : Platform) (i : Nat) (c : ClockText) :
    c.scanned P i = c.nanoseconds ↔ c.FractionKept P i := by
  have hlen := c.fraction_length
  unfold scanned nanoseconds FractionKept
  by_cases hnil : c.fraction = []
  · have hzero : value [] = 0 := rfl
    simp [hnil, hzero]
  · rw [if_neg hnil]
    simp only [ne_eq, hnil, not_false_eq_true, true_and, false_and, or_false]
    constructor
    · intro h
      have hnat : value c.fraction = value c.fraction * 10 ^ (9 - c.fraction.length) := by
        exact_mod_cast h
      by_contra hno
      have hpos : 0 < value c.fraction := by omega
      have hten : 10 ≤ 10 ^ (9 - c.fraction.length) := Nat.le_self_pow (by omega) 10
      have hle := Nat.mul_le_mul_left (value c.fraction) hten
      omega
    · rintro (h | h)
      · simp [h]
      · simp [h]

end ClockText

theorem parseTime_eq (P : Platform) (c : ClockText) :
    parseTime P c.text =
      ⟨(value c.hour.digits * 60 + value c.minute.digits) * 60 + value c.second.digits,
        c.scanned P 3⟩ := by
  have hbounds := c.hour.bounds
  have hbounds' := c.minute.bounds
  have hbounds'' := c.second.bounds
  have hscan := sscanf_eq (P := P) [P.uninitializedInt 0, P.uninitializedInt 1,
    P.uninitializedInt 2, P.uninitializedInt 3] rfl c.isInt32_of_mem_scan
  rw [scan_clock] at hscan
  have hseconds : toInt32 (((value c.hour.digits : Int) * 60 + value c.minute.digits) * 60 +
      value c.second.digits) =
        (value c.hour.digits * 60 + value c.minute.digits) * 60 + value c.second.digits :=
    toInt32_of_isInt32 ⟨by omega, by omega⟩
  unfold parseTime ClockText.scanned
  by_cases hnil : c.fraction = []
  · simp [hscan, hnil, hseconds]
  · simp [hscan, hnil, hseconds]

/-- The fields of a date with a time of day. -/
def DateText.tm (d : DateText) (c : ClockText) : Tm :=
  { year := value d.year.digits - 1900, mon := value d.month.digits - 1, mday := value d.day.digits
    hour := value c.hour.digits, min := value c.minute.digits, sec := value c.second.digits }

/-- The same on the first of January 1970. -/
def ClockText.tm (c : ClockText) : Tm :=
  { year := 70, mon := 0, mday := 1
    hour := value c.hour.digits, min := value c.minute.digits, sec := value c.second.digits }

theorem DateText.isInt32_of_mem_scan (d : DateText) (c : ClockText) :
    ∀ x ∈ scan timestampFormat (d.text ++ ' ' :: c.text), IsInt32 x := by
  intro x hx
  rw [scan_timestamp] at hx
  simp only [List.cons_append, List.nil_append, List.mem_cons] at hx
  rcases hx with rfl | rfl | rfl | hx
  · exact d.year.isInt32 (by decide)
  · exact d.month.isInt32 (by decide)
  · exact d.day.isInt32 (by decide)
  · exact c.isInt32_of_mem_scan x hx

theorem parseTimestamp_eq (P : Platform) (d : DateText) (c : ClockText) :
    parseTimestamp P (d.text ++ ' ' :: c.text) = ⟨timegm (d.tm c), c.scanned P 0⟩ := by
  have hscan := sscanf_eq (P := P) [0, 0, 0, 0, 0, 0, P.uninitializedInt 0] rfl
    (d.isInt32_of_mem_scan c)
  rw [scan_timestamp, scan_clock] at hscan
  unfold parseTimestamp ClockText.scanned
  by_cases hnil : c.fraction = []
  · simp [hscan, hnil, tmOfFields, DateText.tm]
  · simp [hscan, hnil, tmOfFields, DateText.tm]

theorem gmtime_date (P : Platform) (d : DateText) (c : ClockText) :
    P.gmtime (timegm (d.tm c)) = d.tm c := by
  have hyear := d.year.bounds
  have hmonth := d.month.bounds
  have hday := d.day.bounds
  have hdays := d.valid
  have hhour := c.hour.bounds
  have hminute := c.minute.bounds
  have hsecond := c.second.bounds
  have hmon : ((value d.month.digits : Int) - 1).toNat = value d.month.digits - 1 := by omega
  have hvalid : (d.tm c).Valid := by
    refine ⟨?_, ?_, ?_, ?_, ?_⟩ <;> simp only [DateText.tm, hmon, Int.sub_add_cancel] <;> omega
  have hint : IsInt32 (d.tm c).year := by
    simp only [DateText.tm]
    constructor <;> omega
  rw [Platform.gmtime, Calendar.gmtime_timegm hvalid]
  exact if_pos hint

theorem gmtime_clock (P : Platform) (c : ClockText) :
    P.gmtime ((value c.hour.digits * 60 + value c.minute.digits) * 60 + value c.second.digits) =
      c.tm := by
  have hhour := c.hour.bounds
  have hminute := c.minute.bounds
  have hsecond := c.second.bounds
  have hvalid : c.tm.Valid := by
    refine ⟨?_, ?_, ?_, ?_, ?_⟩ <;> simp only [ClockText.tm] <;> first | decide | omega
  have hseconds : timegm c.tm = ((value c.hour.digits : Int) * 60 + value c.minute.digits) * 60 +
      value c.second.digits := by
    simp only [timegm, ClockText.tm, Calendar.yearStart, Calendar.epoch]
    simp
    omega
  have hint : IsInt32 c.tm.year := by
    simp only [ClockText.tm]
    decide
  rw [← hseconds, Platform.gmtime, Calendar.gmtime_timegm hvalid]
  exact if_pos hint

/-! ## What is printed -/

theorem timePattern_text (P : Platform) (t : Tm) (fraction : Int) :
    getTimestampString P t fraction timePattern =
      zeroPadded 2 t.hour ++ ':' :: (zeroPadded 2 t.min ++ ':' :: (zeroPadded 2 t.sec ++
        '.' :: snprintf 16 (zeroPadded 9 fraction))) := by
  simp [getTimestampString, timePattern, strftime]

theorem timestampPattern_text (P : Platform) (t : Tm) (fraction : Int) :
    getTimestampString P t fraction timestampPattern =
      strftime P t .year ++ '-' :: (zeroPadded 2 (t.mon + 1) ++ '-' :: (zeroPadded 2 t.mday ++
        ' ' :: getTimestampString P t fraction timePattern)) := by
  simp [getTimestampString, timestampPattern, strftime]

/-- The nine digits are those of the number only. -/
theorem snprintf_zeroPadded_iff {v : Int} {n : Nat} (hn : n < 1000000000) :
    snprintf 16 (zeroPadded 9 v) = zeroPadded 9 n ↔ v = n := by
  have hlen : (zeroPadded 9 (n : Int)).length = 9 := length_zeroPadded (by decide) (by omega)
  constructor
  · intro h
    have htake : ((zeroPadded 9 v).take 15).length = 9 := (congrArg List.length h).trans hlen
    rw [List.length_take] at htake
    refine zeroPadded_inj (h.symm.trans ?_).symm
    exact List.take_of_length_le (by omega)
  · rintro rfl
    exact List.take_of_length_le (by omega)

/-- A year of less than four digits is only filled up where `%Y` does it. -/
theorem year_text_iff (P : Platform) (d : DateText) (c : ClockText) (rest rest' : List Char) :
    strftime P (d.tm c) .year ++ '-' :: rest = zeroPadded 4 (value d.year.digits) ++ '-' :: rest' ↔
      (1000 ≤ value d.year.digits ∨ P.padsYear = true) ∧ rest = rest' := by
  have hbounds := d.year.bounds
  have hyear : (d.tm c).year + 1900 = value d.year.digits := by
    simp only [DateText.tm]
    omega
  unfold strftime
  rw [hyear]
  by_cases hpads : P.padsYear = true
  · rw [if_pos hpads, List.append_cancel_left_eq, List.cons_inj_right]
    simp [hpads]
  rw [if_neg hpads, decimal_natCast]
  by_cases hlarge : 1000 ≤ value d.year.digits
  · rw [zeroPadded_digits (by omega) (by decide), List.append_cancel_left_eq, List.cons_inj_right]
    simp [hlarge]
  · refine iff_of_false (fun h => ?_) (fun h => ?_)
    · -- The digits in front of the sign have different lengths.
      have hfirst := congrArg (List.takeWhile Char.isDigit) h
      rw [takeWhile_digits (digits_digits _).all (by simp),
        takeWhile_digits (digits_zeroPadded _ _).all (by simp)] at hfirst
      have hlen : (digits (value d.year.digits)).length ≤ 3 :=
        (length_digits_le (by decide)).mpr (by omega)
      rw [hfirst, length_zeroPadded (by decide) (by omega)] at hlen
      omega
    · exact h.1.elim hlarge hpads

/-! ## The columns -/

/-- A text of a `TIME` or of a `TIMESTAMP` column. -/
inductive ClockValue where
  | time (clock : ClockText)
  | timestamp (date : DateText) (clock : ClockText)

namespace ClockValue

def type : ClockValue → ScalarType
  | .time _ => .time
  | .timestamp _ _ => .timestamp

def text : ClockValue → List Char
  | .time c => c.text
  | .timestamp d c => d.text ++ ' ' :: c.text

/-- The same with nine digits for the fraction and four for the year. -/
def expected : ClockValue → List Char
  | .time c => c.expected
  | .timestamp d c => d.expected ++ ' ' :: c.expected

def nanoseconds : ClockValue → Nat
  | .time c => c.nanoseconds
  | .timestamp _ c => c.nanoseconds

def FractionKept (P : Platform) : ClockValue → Prop
  | .time c => c.FractionKept P 3
  | .timestamp _ c => c.FractionKept P 0

def YearKept (P : Platform) : ClockValue → Prop
  | .time _ => True
  | .timestamp d _ => 1000 ≤ value d.year.digits ∨ P.padsYear = true

/-- What is stored for the column. -/
def parsed (P : Platform) : ClockValue → TimedValue
  | .time c => .time (parseTime P c.text)
  | .timestamp d c => .timestamp (parseTimestamp P (d.text ++ ' ' :: c.text))

variable {P : Platform}

theorem parseScalarType_eq (value : ClockValue) (b : ApplicationDataBuffer) :
    parseScalarType P value.type (String.ofList value.text) b =
      ((value.parsed P).call P).perform b := by
  cases value <;>
    simp only [type, text, parsed, parseScalarType, String.toList_ofList, TimedValue.call,
      PutCall.perform]

theorem parsed_text_iff (value : ClockValue) :
    (value.parsed P).text P = value.expected ↔ value.FractionKept P ∧ value.YearKept P := by
  have hclock (c : ClockText) (i : Nat) (t : Tm)
      (ht : t.hour = Formatted.value c.hour.digits ∧ t.min = Formatted.value c.minute.digits ∧
        t.sec = Formatted.value c.second.digits) :
      getTimestampString P t (c.scanned P i) timePattern = c.expected ↔ c.FractionKept P i := by
    rw [timePattern_text, ht.1, ht.2.1, ht.2.2, ClockText.expected, List.append_cancel_left_eq,
      List.cons_inj_right, List.append_cancel_left_eq, List.cons_inj_right,
      List.append_cancel_left_eq, List.cons_inj_right, snprintf_zeroPadded_iff c.nanoseconds_lt]
    exact c.scanned_eq_iff P i
  cases value with
  | time c =>
    simp only [parsed, TimedValue.text, parseTime_eq, gmtime_clock, expected, FractionKept, YearKept,
      and_true]
    exact hclock c 3 _ ⟨rfl, rfl, rfl⟩
  | timestamp d c =>
    have hmonth : (d.tm c).mon + 1 = Formatted.value d.month.digits := by
      simp only [DateText.tm]
      omega
    have hday : (d.tm c).mday = Formatted.value d.day.digits := rfl
    simp only [parsed, TimedValue.text, parseTimestamp_eq, gmtime_date, expected, FractionKept,
      YearKept]
    rw [timestampPattern_text, hmonth, hday, DateText.expected, List.append_assoc,
      List.cons_append, year_text_iff, List.append_assoc, List.append_cancel_left_eq,
      List.cons_append, List.cons_inj_right, List.append_cancel_left_eq, List.cons_inj_right,
      hclock c 0 _ ⟨rfl, rfl, rfl⟩, and_comm]

theorem plain_clock (c : ClockText) : Plain c.expected :=
  (Plain.zeroPadded _ _).append (.cons (by decide) ((Plain.zeroPadded _ _).append
    (.cons (by decide) ((Plain.zeroPadded _ _).append (.cons (by decide) (.zeroPadded _ _))))))

theorem plain_expected (value : ClockValue) : Plain value.expected := by
  cases value with
  | time c => exact plain_clock c
  | timestamp d c =>
    exact ((Plain.zeroPadded _ _).append (.cons (by decide) ((Plain.zeroPadded _ _).append
      (.cons (by decide) (.zeroPadded _ _))))).append (.cons (by decide) (plain_clock c))

theorem length_clock (c : ClockText) : c.expected.length = 18 := by
  have hhour := c.hour.bounds
  have hminute := c.minute.bounds
  have hsecond := c.second.bounds
  have hfraction := c.nanoseconds_lt
  have htwo (n : Nat) (h : n ≤ 59) : (zeroPadded 2 (n : Int)).length = 2 :=
    length_zeroPadded (by decide) (by omega)
  have hnine : (zeroPadded 9 (c.nanoseconds : Int)).length = 9 :=
    length_zeroPadded (by decide) (by omega)
  simp [ClockText.expected, htwo _ (show Formatted.value c.hour.digits ≤ 59 by omega),
    htwo _ hminute.2, htwo _ hsecond.2, hnine]

/-- The size that the code takes for the text is right for what is expected. -/
theorem length_expected (value : ClockValue) :
    value.expected.length + 1 = (value.parsed P).size := by
  cases value with
  | time c => simp [expected, length_clock, parsed, TimedValue.size]
  | timestamp d c =>
    have hyear := d.year.bounds
    have hmonth := d.month.bounds
    have hday := d.day.bounds
    have hfour : (zeroPadded 4 (Formatted.value d.year.digits : Int)).length = 4 :=
      length_zeroPadded (by decide) (by omega)
    have htwo (n : Nat) (h : n ≤ 31) : (zeroPadded 2 (n : Int)).length = 2 :=
      length_zeroPadded (by decide) (by omega)
    simp [expected, DateText.expected, length_clock, parsed, TimedValue.size, hfour,
      htwo _ (show Formatted.value d.month.digits ≤ 31 by omega), htwo _ hday.2]

/-- In `char`s the text is the expected one. -/
def KeepsNarrow (P : Platform) (b : ApplicationDataBuffer) (value : ClockValue) : Prop :=
  ∃ c, parseScalarType P value.type (String.ofList value.text) b = .ok c ∧ c.result = .success ∧
    ∀ m base, c.narrowText m base b.buflen = Utf8.encode value.expected

/-- In `n` `SQLWCHAR`s the text is the expected one. -/
def KeepsWide (P : Platform) (b : ApplicationDataBuffer) (n : Nat) (value : ClockValue) : Prop :=
  ∃ c, parseScalarType P value.type (String.ofList value.text) b = .ok c ∧ c.result = .success ∧
    ∀ m base, c.wideText P.wchar m base n = value.expected.map Char.toNat

/-- In a `SQL_TIMESTAMP_STRUCT` the fraction is in nanoseconds. -/
def KeepsFraction (P : Platform) (b : ApplicationDataBuffer) (value : ClockValue) : Prop :=
  ∃ c, parseScalarType P value.type (String.ofList value.text) b = .ok c ∧ c.result = .success ∧
    ∀ m base, decodeNat (read (apply m base c.writes) (base + 12) 4) = value.nanoseconds

variable {b : ApplicationDataBuffer} {target : Addr} {n : Nat}

theorem keepsNarrow_iff (value : ClockValue) (hn : value.expected.length < n) :
    value.KeepsNarrow P (b.charBuffer target n) ↔ value.FractionKept P ∧ value.YearKept P := by
  obtain ⟨a, hdata⟩ := CharValue.getData_charBuffer b target n
  have hsize := value.length_expected (P := P)
  have hroom : (value.parsed P).size ≤ (b.charBuffer target n).buflen := by
    rw [← hsize]
    exact hn
  have hencode := length_encode_plain value.plain_expected
  rw [← value.parsed_text_iff, KeepsNarrow, parseScalarType_eq,
    (value.parsed P).narrow_reads_iff value.expected (.inr (by omega)) rfl hdata]
  exact and_iff_left hroom

theorem keepsWide_iff (value : ClockValue) (hn : value.expected.length < n) :
    value.KeepsWide P (b.wcharBuffer target P.wchar n) n ↔
      value.FractionKept P ∧ value.YearKept P := by
  obtain ⟨a, hdata⟩ := CharValue.getData_wcharBuffer b target P.wchar n
  have hdate : (value.parsed P).isDate = false := by
    cases value <;> rfl
  rw [← value.parsed_text_iff, KeepsWide, parseScalarType_eq,
    (value.parsed P).wide_reads_iff value.expected hdate rfl hdata rfl (by omega)]
  exact and_iff_left hn

theorem keepsFraction_iff (value : ClockValue) :
    value.KeepsFraction P { b with type := .ttimestamp, buffer := some target } ↔
      value.FractionKept P := by
  have hclock (c : ClockText) (i : Nat) (t : Tm) (resLen : Option Int) :
      (∃ r : Conversion, .ok ⟨timestampFields t (c.scanned P i), resLen, .success⟩ =
          (.ok r : Except PutFault Conversion) ∧ r.result = .success ∧ ∀ m base,
          decodeNat (read (apply m base r.writes) (base + 12) 4) = c.nanoseconds) ↔
        c.FractionKept P i := by
    have hread (m : Memory) (base : Int) :
        read (apply m base (timestampFields t (c.scanned P i))) (base + 12) 4 =
          encode 4 (c.scanned P i) := by
      have hfields : timestampFields t (c.scanned P i) =
          (dateFields t ++ [(6, encode 2 t.hour), (8, encode 2 t.min), (10, encode 2 t.sec)]) ++
            [(12, encode 4 (c.scanned P i))] := rfl
      rw [hfields, apply_concat]
      exact read_write_self _ _ (encode 4 (c.scanned P i))
    have hdecode := decodeNat_encode 4 (c.scanned P i)
    have hscanned := c.scanned_isInt32 P i
    have hnanoseconds := c.nanoseconds_lt
    rw [← c.scanned_eq_iff P i]
    constructor
    · rintro ⟨r, hr, -, hvalue⟩
      obtain rfl := Except.ok.inj hr
      have h := hvalue (fun _ => 0) 0
      rw [hread] at h
      obtain ⟨hlo, hhi⟩ := hscanned
      omega
    · intro h
      refine ⟨_, rfl, rfl, fun m base => ?_⟩
      rw [hread]
      omega
  cases value with
  | time c =>
    unfold KeepsFraction
    rw [parseScalarType_eq]
    simp only [parsed, parseTime_eq, TimedValue.call, PutCall.perform, putTime, putStruct]
    exact hclock c 3 _ _
  | timestamp d c =>
    unfold KeepsFraction
    rw [parseScalarType_eq]
    simp only [parsed, parseTimestamp_eq, TimedValue.call, PutCall.perform, putTimestamp, putStruct]
    exact hclock c 0 _ _

/-- Which texts keep their fraction and their year, in buffers with room for the expected text. -/
theorem fractions_kept_iff (P : Platform) (value : ClockValue) (b b' b'' : ApplicationDataBuffer)
    (target target' target'' : Addr) (n : Nat) (hn : value.expected.length < n) :
    (value.KeepsNarrow P (b.charBuffer target n) ↔ value.FractionKept P ∧ value.YearKept P) ∧
      (value.KeepsWide P (b'.wcharBuffer target' P.wchar n) n ↔
        value.FractionKept P ∧ value.YearKept P) ∧
      (value.KeepsFraction P { b'' with type := .ttimestamp, buffer := some target'' } ↔
        value.FractionKept P) :=
  ⟨value.keepsNarrow_iff hn, value.keepsWide_iff hn, value.keepsFraction_iff⟩

section Examples

def zeros (most : Nat) : Field 2 0 most :=
  ⟨['0', '0'], ⟨by decide, List.all_eq_true.mp (by decide)⟩, by decide,
    by rw [show value ['0', '0'] = 0 from rfl]; simp⟩

/-- `00:00:00.5`, for the fraction `5`. -/
def midnight (fraction : List Char) (hdigits : ∀ c ∈ fraction, c.isDigit = true)
    (hlength : fraction.length ≤ 9) : ClockText :=
  ⟨zeros 23, zeros 59, zeros 59, fraction, hdigits, hlength⟩

def halfSecond : ClockText := midnight ['5'] (List.all_eq_true.mp (by decide)) (by decide)

def halfSecondInNanoseconds : ClockText :=
  midnight ['5', '0', '0', '0', '0', '0', '0', '0', '0'] (List.all_eq_true.mp (by decide)) (by decide)

def timestampBuffer : ApplicationDataBuffer :=
  { type := .ttimestamp, buffer := some 4096, buflen := 16, reslen := none }

/-- A fraction of nine digits is kept. -/
theorem fractions_kept_nanoseconds :
    (ClockValue.time halfSecondInNanoseconds).expected.length < 19 ∧
      (ClockValue.time halfSecondInNanoseconds).KeepsNarrow .linux
        (timestampBuffer.charBuffer 4096 19) := by
  have hlength : (ClockValue.time halfSecondInNanoseconds).expected.length < 19 := by
    rw [ClockValue.expected, length_clock]
    decide
  have hkept : halfSecondInNanoseconds.FractionKept .linux 3 := .inl rfl
  exact ⟨hlength, (fractions_kept_iff .linux (.time halfSecondInNanoseconds) timestampBuffer
    timestampBuffer timestampBuffer 4096 0 0 19 hlength).1.mpr ⟨hkept, trivial⟩⟩

/-- A half of a second is five nanoseconds. -/
theorem fractions_scaled :
    ¬ (ClockValue.time halfSecond).KeepsFraction .linux timestampBuffer := by
  intro h
  have hiff : (ClockValue.time halfSecond).KeepsFraction .linux timestampBuffer ↔
      (ClockValue.time halfSecond).FractionKept .linux := keepsFraction_iff (b := timestampBuffer) _
  rcases hiff.mp h with hnine | ⟨-, hzero⟩ | ⟨hnil, -⟩
  · exact absurd hnine (by decide)
  · exact absurd hzero (by decide)
  · exact absurd hnil (by decide)

end Examples

end ClockValue

end TrinoOdbc
