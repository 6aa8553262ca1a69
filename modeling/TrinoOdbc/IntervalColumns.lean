import TrinoOdbc.FractionalSeconds

/-!
# TrinoOdbc.IntervalColumns

`INTERVAL` columns: the sign of a text is scanned with its first field, and printed or stored from
there. `intervals_kept_iff` says for which texts the interval stays the same.
-/

namespace TrinoOdbc

open ByteMemory
open Formatted
open ApplicationDataBuffer

/-! ## The texts of the columns -/

structure Number where
  digits : List Char
  isDigits : Digits digits

/-- A number of so many digits. -/
structure NumberOf (width : Nat) extends Number where
  length_eq : digits.length = width

namespace Number

def value (n : Number) : Nat := Formatted.value n.digits

def ofNat (n : Nat) : Number := ⟨Formatted.digits n, digits_digits n⟩

@[simp] theorem value_ofNat (n : Nat) : (ofNat n).value = n := value_digits n

/-- A number is not printed longer than it was written. -/
theorem length_digits_value (n : Number) : (Formatted.digits n.value).length ≤ n.digits.length :=
  (length_digits_le (List.length_pos_iff.mpr n.isDigits.ne_nil)).mpr (value_lt n.isDigits.all)

end Number

namespace NumberOf

variable {width : Nat}

theorem value_lt (n : NumberOf width) : n.value < 10 ^ width := by
  have h := Formatted.value_lt n.isDigits.all
  rwa [n.length_eq] at h

theorem isInt32 (hwidth : width ≤ 9) (n : NumberOf width) : IsInt32 n.value := by
  have hlt := n.value_lt
  have hle : 10 ^ width ≤ 10 ^ 9 := Nat.pow_le_pow_right (by decide) hwidth
  constructor <;> omega

def ofNat (hwidth : 0 < width) {n : Nat} (h : n < 10 ^ width) : NumberOf width :=
  ⟨⟨zeroPadded width n, digits_zeroPadded width n⟩, length_zeroPadded hwidth h⟩

@[simp] theorem value_ofNat (hwidth : 0 < width) {n : Nat} (h : n < 10 ^ width) :
    (ofNat hwidth h).value = n := value_zeroPadded width n

end NumberOf

/-- `[-]Y-M` and `[-]D HH:MM:SS.fffffffff`. -/
inductive IntervalText where
  | yearMonth (negative : Bool) (year month : Number)
  | daySecond (negative : Bool) (day : Number) (hour minute second : NumberOf 2)
      (fraction : NumberOf 9)

namespace IntervalText

def type : IntervalText → ScalarType
  | .yearMonth .. => .intervalYearToMonth
  | .daySecond .. => .intervalDayToSecond

def negative : IntervalText → Bool
  | .yearMonth negative .. => negative
  | .daySecond negative .. => negative

/-- The field that the sign stands in front of. -/
def leading : IntervalText → Number
  | .yearMonth _ year _ => year
  | .daySecond _ day .. => day

/-- The values of the other fields. -/
def rest : IntervalText → List Nat
  | .yearMonth _ _ month => [month.value]
  | .daySecond _ _ hour minute second fraction =>
    [hour.value, minute.value, second.value, fraction.value]

/-- The text behind the first field. -/
def tail : IntervalText → List Char
  | .yearMonth _ _ month => '-' :: month.digits
  | .daySecond _ _ hour minute second fraction =>
    ' ' :: (hour.digits ++ ':' :: (minute.digits ++ ':' :: (second.digits ++
      '.' :: fraction.digits)))

def text (t : IntervalText) : List Char :=
  (if t.negative then ['-'] else []) ++ (t.leading.digits ++ t.tail)

def negated : IntervalText → IntervalText
  | .yearMonth negative year month => .yearMonth (!negative) year month
  | .daySecond negative day hour minute second fraction =>
    .daySecond (!negative) day hour minute second fraction

def magnitudes (t : IntervalText) : List Nat := t.leading.value :: t.rest

def IsZero (t : IntervalText) : Prop := ∀ n ∈ t.magnitudes, n = 0

/-- The same kind with the same fields, and the same sign unless they are all zero. -/
def SameInterval (t t' : IntervalText) : Prop :=
  t.type = t'.type ∧ t.magnitudes = t'.magnitudes ∧ (t.negative = t'.negative ∨ t'.IsZero)

/-- The first field with its sign. -/
def signed (t : IntervalText) : Int := if t.negative then -t.leading.value else t.leading.value

@[simp] theorem natAbs_signed (t : IntervalText) : t.signed.natAbs = t.leading.value := by
  unfold signed
  split <;> simp

theorem signed_negated (t : IntervalText) : t.negated.signed = -t.signed := by
  have hneg : t.negated.negative = !t.negative ∧ t.negated.leading = t.leading := by
    cases t <;> exact ⟨rfl, rfl⟩
  unfold signed
  rw [hneg.1, hneg.2]
  cases t.negative <;> simp

@[simp] theorem rest_negated (t : IntervalText) : t.negated.rest = t.rest := by
  cases t <;> rfl

end IntervalText

/-! ## Scanning -/

/-- What `scanf` leaves in an `int` for a number. -/
def Platform.scanned (P : Platform) (v : Int) : Int :=
  if IsInt32 v then v else toInt32 (P.scanOverflow v)

namespace Platform

variable {P : Platform}

theorem scanned_isInt32 (v : Int) : IsInt32 (P.scanned v) := by
  unfold scanned
  split
  · assumption
  · exact toInt32_isInt32 _

theorem scanned_of_isInt32 {v : Int} (h : IsInt32 v) : P.scanned v = v := if_pos h

theorem scanned_eq_iff {v : Int} : P.scanned v = v ↔ IsInt32 v := by
  refine ⟨fun h => ?_, scanned_of_isInt32⟩
  rw [← h]
  exact scanned_isInt32 v

theorem sscanf_scanned {format : List Directive} {s : List Char} {v : List Int}
    (before : List Int) (h : scan format s = v) (hlen : before.length = v.length) :
    sscanf P format s before = v.map P.scanned := by
  have hmap : (scan format s).map (fun x => if IsInt32 x then x else toInt32 (P.scanOverflow x)) =
      v.map P.scanned := by rw [h]; rfl
  unfold sscanf
  simp only [hmap, List.length_map, ← hlen, List.drop_length, List.append_nil]

end Platform

theorem scanInt_decimal (v : Int) {rest : List Char}
    (hrest : ∀ c ∈ rest.head?, c.isDigit = false) :
    scanInt none (decimal v ++ rest) = some (v, rest) := by
  unfold decimal
  split
  · rw [List.cons_append, scanInt_negative (digits_digits _) hrest, value_digits]
    congr 2
    omega
  · rw [scanInt_digits (digits_digits _) (fun c hc => .inl (hrest c hc)) (by simp), value_digits]
    congr 2
    omega

theorem length_decimal_le {v : Int} (h : IsInt32 v) : (decimal v).length ≤ 11 := by
  obtain ⟨hlo, hhi⟩ := h
  have hdigits : (digits v.natAbs).length ≤ 10 := (length_digits_le (by decide)).mpr (by omega)
  unfold decimal
  split
  · exact Nat.succ_le_succ hdigits
  · omega

namespace IntervalText

theorem scanInt_text (t : IntervalText) : scanInt none t.text = some (t.signed, t.tail) := by
  have htail : ∀ c ∈ t.tail.head?, c.isDigit = false := by
    cases t <;> simp [tail]
  unfold text signed
  cases t.negative with
  | false => exact scanInt_digits t.leading.isDigits (fun c hc => .inl (htail c hc)) (by simp)
  | true => exact scanInt_negative t.leading.isDigits htail

def format (t : IntervalText) : List Directive :=
  match t with
  | .yearMonth .. => yearMonthFormat
  | .daySecond .. => daySecondFormat

theorem scanInt_number {n : Number} {width : Option Nat} {rest : List Char}
    (hend : ∀ c ∈ rest.head?, c.isDigit = false) (hwidth : ∀ w ∈ width, n.digits.length ≤ w) :
    scanInt width (n.digits ++ rest) = some ((n.value : Int), rest) :=
  scanInt_digits n.isDigits (fun c hc => .inl (hend c hc)) hwidth

theorem scan_tail (t : IntervalText) :
    scan t.format.tail t.tail = t.rest.map fun (n : Nat) => (n : Int) := by
  cases t with
  | yearMonth negative year month =>
    have hmonth := @scanInt_number month none [] (by simp) (by simp)
    rw [List.append_nil] at hmonth
    simp only [format, yearMonthFormat, List.tail_cons, tail, scan_literal, scan_int hmonth]
    rfl
  | daySecond negative day hour minute second fraction =>
    obtain ⟨e, es, he⟩ := List.exists_cons_of_ne_nil hour.isDigits.ne_nil
    have hspace : isSpace e = false :=
      isSpace_of_isDigit (hour.isDigits.all e (by rw [he]; exact List.mem_cons_self))
    have htwo (n : NumberOf 2) : ∀ w ∈ some 2, n.digits.length ≤ w := by
      intro w hw
      obtain rfl := Option.mem_some_iff.mp hw
      exact Nat.le_of_eq n.length_eq
    have hfraction := @scanInt_number fraction.toNumber (some 9) [] (by simp) (by
      intro w hw
      obtain rfl := Option.mem_some_iff.mp hw
      exact Nat.le_of_eq fraction.length_eq)
    rw [List.append_nil] at hfraction
    simp only [format, daySecondFormat, List.tail_cons, tail, timeFormat]
    rw [he, List.cons_append, scan_space hspace, ← List.cons_append, ← he,
      scan_int (scanInt_number (by simp) (htwo hour)), scan_literal,
      scan_int (scanInt_number (by simp) (htwo minute)), scan_literal,
      scan_int (scanInt_number (by simp) (htwo second)), scan_literal, scan_int hfraction]
    rfl

theorem scan_text (t : IntervalText) :
    scan t.format t.text = t.signed :: t.rest.map fun (n : Nat) => (n : Int) := by
  have hformat : t.format = .int none :: t.format.tail := by cases t <;> rfl
  rw [hformat, scan_int t.scanInt_text, scan_tail]

theorem parseYearMonth_eq (P : Platform) (negative : Bool) (year month : Number) :
    parseYearMonth P (yearMonth negative year month).text =
      ⟨P.scanned (yearMonth negative year month).signed, P.scanned month.value⟩ := by
  have hscan := Platform.sscanf_scanned (P := P) [P.uninitializedInt 0, P.uninitializedInt 1]
    (yearMonth negative year month).scan_text rfl
  unfold parseYearMonth
  simp only [format] at hscan
  rw [hscan]
  rfl

theorem parseDaySecond_eq (P : Platform) (negative : Bool) (day : Number)
    (hour minute second : NumberOf 2) (fraction : NumberOf 9) :
    parseDaySecond P (daySecond negative day hour minute second fraction).text =
      ⟨P.scanned (daySecond negative day hour minute second fraction).signed, hour.value,
        minute.value, second.value, fraction.value⟩ := by
  have hscan := Platform.sscanf_scanned (P := P) [P.uninitializedInt 0,
      P.uninitializedInt 1, P.uninitializedInt 2, P.uninitializedInt 3, P.uninitializedInt 4]
    (daySecond negative day hour minute second fraction).scan_text rfl
  have hsmall {width : Nat} (hwidth : width ≤ 9) (n : NumberOf width) :
      P.scanned n.value = n.value := Platform.scanned_of_isInt32 (n.isInt32 hwidth)
  unfold parseDaySecond
  simp only [format] at hscan
  rw [hscan]
  simp [rest, hsmall]

/-! ## What is printed -/

/-- What is stored for the column. -/
def parsed (P : Platform) (t : IntervalText) : TimedValue :=
  match t with
  | .yearMonth .. => .yearMonth (parseYearMonth P t.text)
  | .daySecond .. => .daySecond (parseDaySecond P t.text)

theorem parseScalarType_eq (P : Platform) (t : IntervalText) (b : ApplicationDataBuffer) :
    parseScalarType P t.type (String.ofList t.text) b = ((t.parsed P).call P).perform b := by
  cases t <;>
    simp only [type, parsed, parseScalarType, String.toList_ofList, TimedValue.call,
      PutCall.perform]

/-- The other fields as they are printed. -/
def printedTail (P : Platform) : IntervalText → List Char
  | .yearMonth _ _ month => '-' :: decimal (P.scanned month.value)
  | .daySecond _ _ hour minute second fraction =>
    ' ' :: (zeroPadded 2 hour.value ++ ':' :: (zeroPadded 2 minute.value ++
      ':' :: (zeroPadded 2 second.value ++ '.' :: zeroPadded 9 fraction.value)))

theorem parsed_text (P : Platform) (t : IntervalText) :
    (t.parsed P).text P = decimal (P.scanned t.signed) ++ t.printedTail P := by
  have hlead := length_decimal_le (P.scanned_isInt32 t.signed)
  cases t with
  | yearMonth negative year month =>
    have hmonth := length_decimal_le (P.scanned_isInt32 month.value)
    simp only [parsed, TimedValue.text, parseYearMonth_eq, IntervalYearMonth.text, snprintf,
      printedTail]
    rw [List.take_of_length_le]
    · simp
    · simp only [List.length_append, List.length_singleton]
      omega
  | daySecond negative day hour minute second fraction =>
    have hwidth {width : Nat} (hpos : 0 < width) (n : NumberOf width) :
        (zeroPadded width n.value).length = width := length_zeroPadded hpos n.value_lt
    simp only [parsed, TimedValue.text, parseDaySecond_eq, IntervalDaySecond.text, snprintf,
      printedTail]
    rw [List.take_of_length_le]
    · simp
    · simp only [List.length_append, List.length_singleton, hwidth (show 0 < 2 by decide),
        hwidth (show 0 < 9 by decide)]
      omega

/-- The fields are numbers of an `int`, and the sign is not in front of a zero. -/
def TextKept (t : IntervalText) : Prop :=
  IsInt32 t.signed ∧ (∀ n ∈ t.rest, n ≤ 2147483647) ∧
    (t.negative = true → t.leading.value = 0 → ∀ n ∈ t.rest, n = 0)

/-- The interval whose text is printed for one with fields that fit. -/
def reprinted (t : IntervalText) : IntervalText :=
  match t with
  | .yearMonth _ year month =>
    .yearMonth (decide (t.signed < 0)) (.ofNat year.value) (.ofNat month.value)
  | .daySecond _ day hour minute second fraction =>
    .daySecond (decide (t.signed < 0)) (.ofNat day.value) (.ofNat (by decide) hour.value_lt)
      (.ofNat (by decide) minute.value_lt) (.ofNat (by decide) second.value_lt)
      (.ofNat (by decide) fraction.value_lt)

theorem reprinted_same {t : IntervalText}
    (h : t.negative = true → t.leading.value = 0 → ∀ n ∈ t.rest, n = 0) :
    t.reprinted.SameInterval t := by
  have hsign : decide (t.signed < 0) = t.negative ∨ t.IsZero := by
    unfold signed
    cases hneg : t.negative with
    | false => simp
    | true =>
      rcases Nat.eq_zero_or_pos t.leading.value with hzero | hpos
      · right
        intro n hn
        rcases List.mem_cons.mp hn with rfl | hn
        · exact hzero
        · exact h hneg hzero n hn
      · left
        simp
        omega
  cases t with
  | yearMonth negative year month =>
    exact ⟨rfl, by simp [reprinted, magnitudes, leading, rest], hsign⟩
  | daySecond negative day hour minute second fraction =>
    exact ⟨rfl, by simp [reprinted, magnitudes, leading, rest], hsign⟩

theorem text_reprinted {t : IntervalText} :
    t.reprinted.text = decimal t.signed ++ t.reprinted.tail := by
  have hlead : t.reprinted.negative = decide (t.signed < 0) ∧
      t.reprinted.leading.digits = digits t.signed.natAbs := by
    rw [natAbs_signed]
    cases t <;> exact ⟨rfl, rfl⟩
  unfold text decimal
  rw [hlead.1, hlead.2]
  by_cases hneg : t.signed < 0
  · simp [hneg]
  · simp [hneg]

theorem negative_of_minus {v : Int} {s s' : List Char} (h : decimal v ++ s = '-' :: s') : v < 0 := by
  by_contra hnonneg
  rw [decimal, if_neg hnonneg] at h
  obtain ⟨c, cs, hc⟩ := List.exists_cons_of_ne_nil (digits_digits v.natAbs).ne_nil
  rw [hc] at h
  obtain rfl := (List.cons.inj h).1
  have hdigit := (digits_digits v.natAbs).all '-' (by rw [hc]; exact List.mem_cons_self)
  exact absurd hdigit (by decide)

/-- A text of the same interval is only printed for fields that are kept. -/
theorem textKept_of_text {P : Platform} {t t' : IntervalText} (hsame : t'.SameInterval t)
    (h : (t.parsed P).text P = t'.text) : t.TextKept := by
  obtain ⟨htype, hmagnitudes, hsign⟩ := hsame
  obtain ⟨hlead, hrest⟩ := List.cons.inj hmagnitudes
  have hhead : ∀ c ∈ (t.printedTail P).head?, c.isDigit = false := by
    cases t <;> simp [printedTail]
  rw [parsed_text] at h
  have hscan := congrArg (scanInt none) h
  rw [scanInt_decimal _ hhead, scanInt_text] at hscan
  obtain ⟨hsigned, htail⟩ := Prod.mk.inj (Option.some.inj hscan)
  have hminus : t'.negative = true → P.scanned t.signed < 0 := by
    intro hneg
    have htext : t'.text = '-' :: (t'.leading.digits ++ t'.tail) := by
      rw [text, if_pos hneg]
      rfl
    exact negative_of_minus (h.trans htext)
  refine ⟨?_, ?_, fun hneg hzero => ?_⟩
  · rcases hsign with hsign | hzero
    · refine Platform.scanned_eq_iff.mp (hsigned.trans ?_)
      unfold signed
      rw [hsign, hlead]
    · have hleading : t.leading.value = 0 := hzero _ List.mem_cons_self
      have hsigned : t.signed.natAbs = 0 := by rw [natAbs_signed, hleading]
      constructor <;> omega
  · intro n hn
    cases t with
    | yearMonth negative year month =>
      cases t' with
      | daySecond => cases htype
      | yearMonth negative' year' month' =>
        obtain hmonth := (List.cons.inj htail).2
        have hscan := congrArg (scanInt none) hmonth
        rw [← List.append_nil (decimal _), scanInt_decimal _ (by simp),
          ← List.append_nil month'.digits, scanInt_number (by simp) (by simp)] at hscan
        have hvalue := (Prod.mk.inj (Option.some.inj hscan)).1
        rw [(List.cons.inj hrest).1] at hvalue
        have hint := Platform.scanned_eq_iff.mp hvalue
        rw [List.mem_singleton.mp hn]
        exact_mod_cast hint.2
    | daySecond negative day hour minute second fraction =>
      have hhour := hour.value_lt
      have hminute := minute.value_lt
      have hsecond := second.value_lt
      have hfraction := fraction.value_lt
      simp only [rest, List.mem_cons, List.not_mem_nil, or_false] at hn
      omega
  · rcases hsign with hsign | hall
    · have hlt := hminus (hsign.trans hneg)
      have hnat : t'.signed.natAbs = 0 := by rw [natAbs_signed, hlead, hzero]
      omega
    · exact fun n hn => hall n (List.mem_cons_of_mem _ hn)

theorem parsed_text_of_kept (P : Platform) {t : IntervalText} (h : t.TextKept) :
    (t.parsed P).text P = t.reprinted.text := by
  obtain ⟨hsigned, hrest, -⟩ := h
  rw [parsed_text, text_reprinted, Platform.scanned_of_isInt32 hsigned]
  congr 1
  cases t with
  | yearMonth negative year month =>
    have hmonth : IsInt32 month.value :=
      ⟨by omega, by exact_mod_cast hrest month.value List.mem_cons_self⟩
    rw [printedTail, Platform.scanned_of_isInt32 hmonth, decimal_natCast]
    rfl
  | daySecond => rfl

theorem length_reprinted (t : IntervalText) : t.reprinted.text.length ≤ t.text.length := by
  have hsign : t.signed < 0 → t.negative = true := by
    unfold signed
    cases t.negative <;> simp
  have hlead : (decimal t.signed).length ≤
      (if t.negative then 1 else 0) + t.leading.digits.length := by
    have hdigits := t.leading.length_digits_value
    unfold decimal
    rw [natAbs_signed]
    split
    · rename_i hneg
      rw [if_pos (hsign hneg), List.length_cons]
      omega
    · omega
  have htail : t.reprinted.tail.length ≤ t.tail.length := by
    cases t with
    | yearMonth negative year month => exact Nat.succ_le_succ month.length_digits_value
    | daySecond negative day hour minute second fraction =>
      simp [reprinted, tail, NumberOf.length_eq]
  rw [text_reprinted, text, List.length_append, List.length_append, List.length_append]
  cases hneg : t.negative with
  | true =>
    rw [if_pos hneg] at hlead
    rw [if_pos rfl, List.length_singleton]
    omega
  | false =>
    rw [if_neg (by simp [hneg])] at hlead
    rw [if_neg (by decide), List.length_nil]
    omega

/-! ## The columns -/

/-- The text in `char`s is one of the same interval. -/
def KeepsNarrow (P : Platform) (b : ApplicationDataBuffer) (t : IntervalText) : Prop :=
  ∃ (c : Conversion) (t' : IntervalText),
    parseScalarType P t.type (String.ofList t.text) b = .ok c ∧ c.result = .success ∧
    t'.SameInterval t ∧ ∀ m base, c.narrowText m base b.buflen = Utf8.encode t'.text

/-- The text in `n` `SQLWCHAR`s is one of the same interval. -/
def KeepsWide (P : Platform) (b : ApplicationDataBuffer) (n : Nat) (t : IntervalText) : Prop :=
  ∃ (c : Conversion) (t' : IntervalText),
    parseScalarType P t.type (String.ofList t.text) b = .ok c ∧ c.result = .success ∧
    t'.SameInterval t ∧ ∀ m base, c.wideText P.wchar m base n = t'.text.map Char.toNat

variable {P : Platform} {b : ApplicationDataBuffer} {target : Addr} {n : Nat}

/-- A buffer from which exactly the printed text is read holds one of the same interval just when
the fields are kept. -/
theorem reads_same_iff (P : Platform) {t : IntervalText} {c : Except PutFault Conversion}
    (reads : Conversion → List Char → Prop)
    (hreads : ∀ e, (∃ r, c = .ok r ∧ r.result = .success ∧ reads r e) ↔
      (t.parsed P).text P = e ∧ e.length < n)
    (hn : t.text.length < n) :
    (∃ (r : Conversion) (t' : IntervalText), c = .ok r ∧ r.result = .success ∧
        t'.SameInterval t ∧ reads r t'.text) ↔ t.TextKept := by
  constructor
  · rintro ⟨r, t', hr, hresult, hsame, htext⟩
    exact textKept_of_text hsame ((hreads t'.text).mp ⟨r, hr, hresult, htext⟩).1
  · intro hkept
    obtain ⟨r, hr, hresult, htext⟩ := (hreads t.reprinted.text).mpr
      ⟨parsed_text_of_kept P hkept, Nat.lt_of_le_of_lt t.length_reprinted hn⟩
    exact ⟨r, t.reprinted, hr, hresult, reprinted_same hkept.2.2, htext⟩

theorem keepsNarrow_iff (t : IntervalText) (hn : t.text.length < n) :
    t.KeepsNarrow P (b.charBuffer target n) ↔ t.TextKept := by
  obtain ⟨a, hdata⟩ := CharValue.getData_charBuffer b target n
  have hsize : (t.parsed P).size = ((t.parsed P).text P).length + 1 := by
    cases t <;> rfl
  refine reads_same_iff P
    (fun c e => ∀ m base, c.narrowText m base (b.charBuffer target n).buflen = Utf8.encode e)
    (fun e => ?_) hn
  rw [parseScalarType_eq, (t.parsed P).narrow_reads_iff e (.inl (by omega)) rfl hdata, hsize]
  exact and_congr_right fun htext => by rw [htext, Nat.succ_le_iff]; rfl

theorem keepsWide_iff (t : IntervalText) (hn : t.text.length < n) :
    t.KeepsWide P (b.wcharBuffer target P.wchar n) n ↔ t.TextKept := by
  obtain ⟨a, hdata⟩ := CharValue.getData_wcharBuffer b target P.wchar n
  have hdate : (t.parsed P).isDate = false := by
    cases t <;> rfl
  refine reads_same_iff P
    (fun c e => ∀ m base, c.wideText P.wchar m base n = e.map Char.toNat) (fun e => ?_) hn
  rw [parseScalarType_eq]
  exact (t.parsed P).wide_reads_iff e hdate rfl hdata rfl (by omega)

/-- The type of the struct for the kind of interval. -/
def structType : IntervalText → OdbcNativeType
  | .yearMonth .. => .intervalYearToMonth
  | .daySecond .. => .intervalDayToSecond

def fields : IntervalText → List IntervalField
  | .yearMonth .. => [.year, .month]
  | .daySecond .. => [.day, .hour, .minute, .second, .fraction]

/-- In a `SQL_INTERVAL_STRUCT` the fields are those of the text, and the sign is not that of the
negated text. -/
def KeepsStruct (P : Platform) (b : ApplicationDataBuffer) (t : IntervalText) : Prop :=
  ∃ c c' : Conversion, parseScalarType P t.type (String.ofList t.text) b = .ok c ∧
    parseScalarType P t.type (String.ofList t.negated.text) b = .ok c' ∧
    c.result = .success ∧ c'.result = .success ∧
    (∀ m base,
      t.fields.map (fun f => decodeNat (read (apply m base c.writes) (base + f.offset) 4)) =
        t.magnitudes) ∧
    (¬ t.IsZero → ∀ m base,
      read (apply m base c.writes) (base + 4) 2 ≠ read (apply m base c'.writes) (base + 4) 2)

/-- The fields are numbers of an `int`, or the least one, which `%d` may leave for `2147483648`; the
sign is not in front of a zero. -/
def StructKept (P : Platform) (t : IntervalText) : Prop :=
  (t.leading.value ≤ 2147483647 ∨
      t.negative = true ∧ t.leading.value = 2147483648 ∧ 0 ≤ P.scanned 2147483648) ∧
    (∀ n ∈ t.rest, n ≤ 2147483647 ∨ n = 2147483648 ∧ P.scanned 2147483648 = -2147483648) ∧
    (t.leading.value = 0 → ∀ n ∈ t.rest, n = 0)

/-- The fields with the sign, as they are scanned. -/
def scannedFields (P : Platform) (t : IntervalText) : List Int :=
  P.scanned t.signed :: t.rest.map fun (n : Nat) => P.scanned n

/-- The first field that is not zero is negative. -/
def scannedNegative : List Int → Bool
  | [] => false
  | v :: vs => v < 0 || v = 0 && scannedNegative vs

theorem negative_yearMonth (value : IntervalYearMonth) :
    value.negative = scannedNegative [value.year, value.month] := by
  simp [IntervalYearMonth.negative, scannedNegative]

theorem negative_daySecond (value : IntervalDaySecond) :
    value.negative =
      scannedNegative [value.day, value.hour, value.minute, value.second, value.fraction] := by
  simp [IntervalDaySecond.negative, scannedNegative, Bool.and_or_distrib_left, Bool.and_assoc,
    Bool.or_assoc]

theorem scannedNegative_nonneg {vs : List Int} (h : ∀ v ∈ vs, 0 ≤ v) :
    scannedNegative vs = false := by
  induction vs with
  | nil => rfl
  | cons v vs ih =>
    have hv := h v List.mem_cons_self
    rw [scannedNegative, ih fun w hw => h w (List.mem_cons_of_mem v hw)]
    simp [hv]

/-- The buffer with a pointer to the struct. -/
def structBuffer (b : ApplicationDataBuffer) (target : Addr) (t : IntervalText) :
    ApplicationDataBuffer :=
  { b with type := t.structType, buffer := some target }

theorem struct_eq (P : Platform) (b : ApplicationDataBuffer) (target : Addr) (t : IntervalText) :
    ∃ (code : Int) (value : IntervalField → Int),
      parseScalarType P t.type (String.ofList t.text) (structBuffer b target t) =
        .ok ⟨intervalFields code t.fields (scannedNegative (t.scannedFields P)) value,
          (structBuffer b target t).storeLen 28, .success⟩ ∧
      t.fields.map value = t.scannedFields P := by
  have hsmall {width : Nat} (hwidth : width ≤ 9) (n : NumberOf width) :
      P.scanned n.value = n.value := Platform.scanned_of_isInt32 (n.isInt32 hwidth)
  obtain ⟨a, hdata⟩ : ∃ a, (structBuffer b target t).getData = some a := ⟨_, rfl⟩
  have htype : (structBuffer b target t).type = t.structType := rfl
  rw [parseScalarType_eq]
  cases t with
  | yearMonth negative year month =>
    refine ⟨7, (parseYearMonth P (yearMonth negative year month).text).field, ?_, ?_⟩
    · rw [parsed, parseYearMonth_eq]
      simp [TimedValue.call, PutCall.perform, putYearMonth, putIntervalFields, htype, structType,
        intervalLayout, putStruct, hdata, fields, scannedFields, rest, negative_yearMonth]
    · rw [parseYearMonth_eq]
      rfl
  | daySecond negative day hour minute second fraction =>
    refine ⟨10, (parseDaySecond P (daySecond negative day hour minute second fraction).text).field,
      ?_, ?_⟩
    · rw [parsed, parseDaySecond_eq]
      simp [TimedValue.call, PutCall.perform, putDaySecond, putIntervalFields, htype, structType,
        intervalLayout, putStruct, hdata, fields, scannedFields, rest, hsmall, negative_daySecond]
    · rw [parseDaySecond_eq]
      simp [fields, scannedFields, rest, hsmall, IntervalDaySecond.field]

theorem ordered_intervalFields (t : IntervalText) (code : Int) (negative : Bool)
    (value : IntervalField → Int) : Ordered (intervalFields code t.fields negative value) := by
  cases t <;> simp [Ordered, intervalFields, fields, IntervalField.offset]

theorem read_field (t : IntervalText) {f : IntervalField} (hf : f ∈ t.fields) (code : Int)
    (negative : Bool) (value : IntervalField → Int) (m : Memory) (base : Int) :
    read (apply m base (intervalFields code t.fields negative value)) (base + f.offset) 4 =
      encode 4 (value f).natAbs :=
  read_apply (w := (f.offset, encode 4 (value f).natAbs)) (t.ordered_intervalFields _ _ _)
    (List.mem_append_right _ (List.mem_map_of_mem hf)) m base

theorem read_sign (t : IntervalText) (code : Int) (negative : Bool) (value : IntervalField → Int)
    (m : Memory) (base : Int) :
    read (apply m base (intervalFields code t.fields negative value)) (base + 4) 2 =
      encode 2 (if negative then 0 else 1) :=
  read_apply (w := (4, encode 2 (if negative then 0 else 1))) (t.ordered_intervalFields _ _ _)
    (List.mem_append_left _ (by simp)) m base

theorem natAbs_scanned_iff (n : Nat) :
    (P.scanned n).natAbs = n ↔
      n ≤ 2147483647 ∨ n = 2147483648 ∧ P.scanned 2147483648 = -2147483648 := by
  obtain ⟨hlo, hhi⟩ := P.scanned_isInt32 n
  constructor
  · intro h
    rcases Nat.lt_or_ge 2147483647 n with hlt | hle
    · have hn : n = 2147483648 := by omega
      subst hn
      exact .inr ⟨rfl, by push_cast at h hhi; omega⟩
    · exact .inl hle
  · rintro (hle | ⟨rfl, hscanned⟩)
    · rw [Platform.scanned_of_isInt32 ⟨by omega, by omega⟩, Int.natAbs_natCast]
    · push_cast
      rw [hscanned]
      rfl

/-- The fields in the struct. -/
theorem decode_fields (t : IntervalText) {code : Int} {negative : Bool}
    {value : IntervalField → Int} (hvalue : t.fields.map value = t.scannedFields P) (m : Memory)
    (base : Int) :
    t.fields.map (fun f => decodeNat (read
      (apply m base (intervalFields code t.fields negative value)) (base + f.offset) 4)) =
        (t.scannedFields P).map Int.natAbs := by
  rw [← hvalue, List.map_map]
  refine List.map_congr_left fun f hf => ?_
  have hint : IsInt32 (value f) := by
    have hmem : value f ∈ t.scannedFields P := by
      rw [← hvalue]
      exact List.mem_map_of_mem hf
    rcases List.mem_cons.mp hmem with heq | hmem
    · rw [heq]
      exact P.scanned_isInt32 _
    · obtain ⟨n, -, heq⟩ := List.mem_map.mp hmem
      rw [← heq]
      exact P.scanned_isInt32 _
  have hdecode := decodeNat_encode 4 ((value f).natAbs : Int)
  obtain ⟨hlo, hhi⟩ := hint
  rw [Int.emod_eq_of_lt (by omega) (by omega)] at hdecode
  rw [t.read_field hf]
  exact_mod_cast hdecode

theorem sign_ne_iff (s s' : Bool) :
    encode 2 (if s then 0 else 1) ≠ encode 2 (if s' then 0 else 1) ↔ s ≠ s' := by
  cases s <;> cases s' <;> decide

/-- The conditions on what is scanned. -/
theorem keepsStruct_iff_scanned (t : IntervalText) :
    t.KeepsStruct P (structBuffer b target t) ↔
      (t.scannedFields P).map Int.natAbs = t.magnitudes ∧
        (¬ t.IsZero → scannedNegative (t.scannedFields P) ≠
          scannedNegative (t.negated.scannedFields P)) := by
  have hnegated : t.negated.type = t.type ∧
      structBuffer b target t.negated = structBuffer b target t ∧ t.negated.fields = t.fields := by
    cases t <;> exact ⟨rfl, rfl, rfl⟩
  obtain ⟨code, value, hput, hvalue⟩ := struct_eq P b target t
  obtain ⟨code', value', hput', -⟩ := struct_eq P b target t.negated
  rw [hnegated.1, hnegated.2.1, hnegated.2.2] at hput'
  unfold KeepsStruct
  rw [hput, hput']
  constructor
  · rintro ⟨c, c', hc, hc', -, -, hfields, hsign⟩
    obtain rfl := Except.ok.inj hc
    obtain rfl := Except.ok.inj hc'
    have hread := hfields (fun _ => 0) 0
    rw [t.decode_fields hvalue] at hread
    refine ⟨hread, fun hne => ?_⟩
    have hread' := hsign hne (fun _ => 0) 0
    rw [read_sign, read_sign] at hread'
    exact (sign_ne_iff _ _).mp hread'
  · rintro ⟨hfields, hsign⟩
    refine ⟨_, _, rfl, rfl, rfl, rfl, fun m base => ?_, fun hne m base => ?_⟩
    · exact (t.decode_fields hvalue m base).trans hfields
    · rw [read_sign, read_sign]
      exact (sign_ne_iff _ _).mpr (hsign hne)

theorem scannedFields_natAbs_iff (t : IntervalText) :
    (t.scannedFields P).map Int.natAbs = t.magnitudes ↔
      (P.scanned t.signed).natAbs = t.leading.value ∧ ∀ n ∈ t.rest, (P.scanned n).natAbs = n := by
  have hrest : (t.rest.map fun (n : Nat) => P.scanned n).map Int.natAbs = t.rest ↔
      ∀ n ∈ t.rest, (P.scanned n).natAbs = n := by
    have hid := List.map_inj_left (l := t.rest) (f := fun n : Nat => (P.scanned n).natAbs) (g := id)
    rw [List.map_id] at hid
    rw [List.map_map]
    exact hid
  unfold scannedFields magnitudes
  rw [List.map_cons, List.cons.injEq, hrest]

theorem scannedNegative_cons_of_neg {v : Int} (h : v < 0) (vs : List Int) :
    scannedNegative (v :: vs) = true := by
  simp [scannedNegative, h]

theorem scannedNegative_cons_of_pos {v : Int} (h : 0 < v) (vs : List Int) :
    scannedNegative (v :: vs) = false := by
  have hne : ¬ v = 0 := by omega
  have hneg : ¬ v < 0 := by omega
  simp [scannedNegative, hne, hneg]

/-- A leading field beyond `int` is scanned as the least `int`, with either sign. -/
theorem leading_of_sign_ne {t : IntervalText} {vs vs' : List Int}
    (hlead : (P.scanned t.signed).natAbs = t.leading.value) (hlt : 2147483647 < t.leading.value)
    (hsign : scannedNegative (P.scanned t.signed :: vs) ≠
      scannedNegative (P.scanned (-t.signed) :: vs')) :
    t.negative = true ∧ t.leading.value = 2147483648 ∧ 0 ≤ P.scanned 2147483648 := by
  -- Only the least `int` has this absolute value.
  have hleast : P.scanned t.signed = -2147483648 ∧ t.leading.value = 2147483648 := by
    obtain ⟨hlo, hhi⟩ := P.scanned_isInt32 t.signed
    omega
  rw [scannedNegative_cons_of_neg (by omega)] at hsign
  have hnonneg : 0 ≤ P.scanned (-t.signed) := by
    by_contra hneg
    exact hsign (scannedNegative_cons_of_neg (by omega) _).symm
  unfold signed at hnonneg
  cases hnegative : t.negative with
  | true =>
    rw [if_pos hnegative, hleast.2, neg_neg] at hnonneg
    exact ⟨rfl, hleast.2, hnonneg⟩
  | false =>
    rw [if_neg (by simp [hnegative]), hleast.2,
      Platform.scanned_of_isInt32 ⟨by omega, by omega⟩] at hnonneg
    omega

theorem StructKept.isInt32_signed {t : IntervalText} (h : t.StructKept P) : IsInt32 t.signed := by
  unfold signed
  rcases h.1 with hle | ⟨hnegative, heq, -⟩
  · split <;> constructor <;> omega
  · rw [if_pos hnegative]
    constructor <;> omega

/-- The other sign is told apart, unless the leading field is zero. -/
theorem StructKept.sign_ne {t : IntervalText} (h : t.StructKept P) (hpos : t.leading.value ≠ 0) :
    scannedNegative (t.signed :: t.rest.map fun (n : Nat) => P.scanned n) ≠
      scannedNegative (P.scanned (-t.signed) :: t.rest.map fun (n : Nat) => P.scanned n) := by
  obtain ⟨hlead, hrest, -⟩ := h
  have habs := t.natAbs_signed
  rcases hlead with hle | ⟨hnegative, heq, hnonneg⟩
  · rw [Platform.scanned_of_isInt32 (v := -t.signed) ⟨by omega, by omega⟩]
    rcases Int.lt_or_gt_of_ne (show t.signed ≠ 0 by omega) with hlt | hgt
    · rw [scannedNegative_cons_of_neg hlt, scannedNegative_cons_of_pos (by omega)]
      decide
    · rw [scannedNegative_cons_of_pos hgt, scannedNegative_cons_of_neg (by omega)]
      decide
  · have hsigned : t.signed = -2147483648 := by
      rw [signed, if_pos hnegative, heq]
      rfl
    rw [hsigned, scannedNegative_cons_of_neg (by decide), scannedNegative_nonneg]
    · decide
    · intro v hv
      rcases List.mem_cons.mp hv with rfl | hv
      · exact hnonneg
      · obtain ⟨n, hn, rfl⟩ := List.mem_map.mp hv
        rcases hrest n hn with hsmall | ⟨rfl, hscanned⟩
        · rw [Platform.scanned_of_isInt32 ⟨by omega, by omega⟩]
          omega
        · omega

theorem keepsStruct_iff (t : IntervalText) :
    t.KeepsStruct P (structBuffer b target t) ↔ t.StructKept P := by
  have habs := t.natAbs_signed
  have hsame : t.negated.scannedFields P =
      P.scanned (-t.signed) :: t.rest.map fun (n : Nat) => P.scanned n := by
    rw [scannedFields, signed_negated, rest_negated]
  rw [keepsStruct_iff_scanned, scannedFields_natAbs_iff, hsame, scannedFields]
  constructor
  · rintro ⟨⟨hlead, hrest⟩, hsign⟩
    have hnotZero : t.leading.value ≠ 0 ∨ ¬ (∀ n ∈ t.rest, n = 0) → ¬ t.IsZero := by
      intro h hall
      rcases h with h | h
      · exact h (hall _ List.mem_cons_self)
      · exact h fun n hn => hall n (List.mem_cons_of_mem _ hn)
    refine ⟨?_, fun n hn => (natAbs_scanned_iff n).mp (hrest n hn), fun hzero => ?_⟩
    · rcases Nat.lt_or_ge 2147483647 t.leading.value with hlt | hle
      · exact .inr (leading_of_sign_ne hlead hlt (hsign (hnotZero (.inl (by omega)))))
      · exact .inl hle
    · by_contra hne
      refine hsign (hnotZero (.inr hne)) ?_
      have hsigned : t.signed = 0 := by omega
      rw [hsigned, neg_zero]
  · intro h
    have hscanned := Platform.scanned_of_isInt32 (P := P) h.isInt32_signed
    refine ⟨⟨?_, fun n hn => (natAbs_scanned_iff n).mpr (h.2.1 n hn)⟩, fun hne => ?_⟩
    · rw [hscanned, habs]
    · rw [hscanned]
      refine h.sign_ne fun hzero => hne fun n hn => ?_
      rcases List.mem_cons.mp hn with rfl | hn
      · exact hzero
      · exact h.2.2 hzero n hn

/-- Which texts keep their interval, in character buffers with room for the text and in a struct. -/
theorem intervals_kept_iff (P : Platform) (t : IntervalText) (b b' b'' : ApplicationDataBuffer)
    (target target' target'' : Addr) (n : Nat) (hn : t.text.length < n) :
    (t.KeepsNarrow P (b.charBuffer target n) ↔ t.TextKept) ∧
      (t.KeepsWide P (b'.wcharBuffer target' P.wchar n) n ↔ t.TextKept) ∧
      (t.KeepsStruct P (structBuffer b'' target'' t) ↔ t.StructKept P) :=
  ⟨t.keepsNarrow_iff hn, t.keepsWide_iff hn, t.keepsStruct_iff⟩

section Examples

def intervalBuffer : ApplicationDataBuffer :=
  { type := .intervalYearToMonth, buffer := some 4096, buflen := 28, reslen := none }

def fiveMonths (negative : Bool) (years : Nat) : IntervalText :=
  .yearMonth negative (.ofNat years) (.ofNat 5)

/-- `-1-5` is kept. -/
theorem intervals_kept_year :
    (fiveMonths true 1).text.length < 5 ∧
      (fiveMonths true 1).KeepsNarrow .linux (intervalBuffer.charBuffer 4096 5) := by
  have hlength : (fiveMonths true 1).text.length < 5 := by decide
  have hkept : (fiveMonths true 1).TextKept := by
    refine ⟨by decide, ?_, fun _ hzero => absurd hzero (by decide)⟩
    simp [fiveMonths, rest]
  exact ⟨hlength, (intervals_kept_iff .linux (fiveMonths true 1) intervalBuffer intervalBuffer
    intervalBuffer 4096 0 0 5 hlength).1.mpr hkept⟩

/-- `-0-5` loses its sign, in text and in the struct. -/
theorem intervals_signLost :
    ¬ (fiveMonths true 0).KeepsNarrow .linux (intervalBuffer.charBuffer 4096 32) ∧
      ¬ (fiveMonths true 0).KeepsStruct .linux
        (structBuffer intervalBuffer 4096 (fiveMonths true 0)) := by
  constructor
  · intro h
    have hkept := (keepsNarrow_iff _ (by decide)).mp h
    exact absurd (hkept.2.2 rfl (by decide) 5 (by decide)) (by decide)
  · intro h
    have hkept := (keepsStruct_iff _).mp h
    exact absurd (hkept.2.2 (by decide) 5 (by decide)) (by decide)

end Examples

end IntervalText

end TrinoOdbc
