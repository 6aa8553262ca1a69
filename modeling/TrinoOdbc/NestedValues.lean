import TrinoOdbc.CharacterConversions
import TrinoOdbc.TextReader
import TrinoOdbc.TrinoColumn

/-!
# TrinoOdbc.NestedValues

Arrays, rows and time series as text: each element goes through a buffer of 1024 bytes, and what its
conversion comes to is not looked at. `nested_rendered_iff` says for which values the text is the one
put together from the texts of the elements.
-/

namespace TrinoOdbc

open ByteMemory
open Utf8 (Reader)
open ApplicationDataBuffer

/-! ## The texts -/

/-- The text of a value with a text of its own, where the code gives it room. -/
def timedText (P : Platform) (value : TimedValue) : Option (List Char) :=
  if (value.text P).length < value.size then some (value.text P) else none

/-- The text of a scalar value. -/
def scalarText (P : Platform) (type : ScalarType) (value : String) : Option (List Char) :=
  match type with
  | .varchar => some (plain value)
  | .double => (P.reals.stod (Utf8.encode value.toList)).map fun x =>
    (P.reals.print x).takeWhile (· ≠ '\x00')
  | .boolean => some (Formatted.decimal (if value = "true" then 1 else 0))
  | .integer => some (Formatted.decimal (stringToInt value.toList))
  | .bigint => some (Formatted.decimal (stringToLong P value.toList))
  | .notSet | .unknown => none
  | .timestamp => timedText P (.timestamp (parseTimestamp P value.toList))
  | .date => timedText P (.date (parseDate P value.toList))
  | .time => timedText P (.time (parseTime P value.toList))
  | .intervalYearToMonth => timedText P (.yearMonth (parseYearMonth P value.toList))
  | .intervalDayToSecond => timedText P (.daySecond (parseDaySecond P value.toList))

def enclosedChars (before : Char) (texts : List (List Char)) (after : Char) : List Char :=
  before :: ([','].intercalate texts ++ [after])

def timeChars (time : Option String) : List Char := (time.map String.toList).getD []

def pointStart (time : Option String) : List Char :=
  "\x7btime: ".toList ++ (timeChars time ++ ", value:".toList)

/-- `{time: t, value: v}`. -/
def pointChars (time : Option String) (value : List Char) : List Char :=
  pointStart time ++ ' ' :: (value ++ ['\x7d'])

section Text

variable (P : Platform) (type : ScalarType) (dash : Bool)

mutual

/-- The text of a value, from the texts of its elements. An empty array may be shown as a dash. -/
def datumText : Datum → Option (List Char)
  | .scalar value => scalarText P type value
  | .timeSeries points => (pointTexts points).map fun texts => enclosedChars '[' texts ']'
  | .array [] => some (if dash then ['-'] else ['[', ']'])
  | .array (d :: ds) => (elementTexts (d :: ds)).map fun texts => enclosedChars '[' texts ']'
  | .row none => none
  | .row (some ds) => (elementTexts ds).map fun texts => enclosedChars '(' texts ')'
  | .null => some ['-']
  | .unset => none

def elementTexts : List Datum → Option (List (List Char))
  | [] => some []
  | d :: ds => (datumText d).bind fun text => (elementTexts ds).map (text :: ·)

def pointTexts : List (Option String × Option Datum) → Option (List (List Char))
  | [] => some []
  | (time, none) :: points => (pointTexts points).map (pointChars time [] :: ·)
  | (time, some d) :: points =>
    (datumText d).bind fun text => (pointTexts points).map (pointChars time text :: ·)

end

end Text

mutual

/-- The elements, at any depth. -/
def Datum.inside : Datum → List Datum
  | .array ds => insideAll ds
  | .row (some ds) => insideAll ds
  | .timeSeries points => insidePoints points
  | _ => []

def insideAll : List Datum → List Datum
  | [] => []
  | d :: ds => (d :: d.inside) ++ insideAll ds

def insidePoints : List (Option String × Option Datum) → List Datum
  | [] => []
  | (_, none) :: points => insidePoints points
  | (_, some d) :: points => (d :: d.inside) ++ insidePoints points

end

/-- A property that a value has when its elements have it. -/
theorem Datum.induct {motive : Datum → Prop} (scalar : ∀ value, motive (.scalar value))
    (timeSeries : ∀ points, (∀ time d, (time, some d) ∈ points → motive d) →
      motive (.timeSeries points))
    (array : ∀ ds, (∀ d ∈ ds, motive d) → motive (.array ds)) (rowNone : motive (.row none))
    (row : ∀ ds, (∀ d ∈ ds, motive d) → motive (.row (some ds))) (null : motive .null)
    (unset : motive .unset) : ∀ d, motive d
  | .scalar value => scalar value
  | .timeSeries points => timeSeries points fun _ d hd =>
    have : sizeOf d < sizeOf points := by
      have h := List.sizeOf_lt_of_mem hd
      simp only [Prod.mk.sizeOf_spec, Option.some.sizeOf_spec] at h
      omega
    Datum.induct scalar timeSeries array rowNone row null unset d
  | .array ds => array ds fun d hd =>
    have := List.sizeOf_lt_of_mem hd
    Datum.induct scalar timeSeries array rowNone row null unset d
  | .row none => rowNone
  | .row (some ds) => row ds fun d hd =>
    have := List.sizeOf_lt_of_mem hd
    Datum.induct scalar timeSeries array rowNone row null unset d
  | .null => null
  | .unset => unset

theorem mem_insideAll {e : Datum} {ds : List Datum} :
    e ∈ insideAll ds ↔ ∃ d ∈ ds, e = d ∨ e ∈ d.inside := by
  induction ds with
  | nil => simp [insideAll]
  | cons d ds ih => simp [insideAll, ih, or_assoc]

theorem mem_insidePoints {e : Datum} {points : List (Option String × Option Datum)} :
    e ∈ insidePoints points ↔ ∃ time d, (time, some d) ∈ points ∧ (e = d ∨ e ∈ d.inside) := by
  induction points with
  | nil => simp [insidePoints]
  | cons p points ih =>
    obtain ⟨time, value⟩ := p
    cases value with
    | none => simp [insidePoints, ih]
    | some d =>
      simp only [insidePoints, List.mem_append, List.mem_cons, ih, Prod.mk.injEq, Option.some.injEq]
      constructor
      · rintro (h | ⟨time', d', hmem, h⟩)
        · exact ⟨time, d, .inl ⟨rfl, rfl⟩, h⟩
        · exact ⟨time', d', .inr hmem, h⟩
      · rintro ⟨time', d', ⟨rfl, rfl⟩ | hmem, h⟩
        · exact .inl h
        · exact .inr ⟨time', d', hmem, h⟩

/-! ## Reading -/

/-- Text in the characters of the locale, read from UTF-8. -/
def narrowReader (P : Platform) : Reader UInt8 where
  read bytes := if IsText P bytes then some (narrowed P bytes) else none
  codes text := narrowed P (Utf8.encode text)
  readable _ := True
  codes_append s t := by
    unfold narrowed
    split
    · exact Utf8.encode_append s t
    · simp [Utf8.decode_encode]
  read_encode s _ := by
    have htext : IsText P (Utf8.encode s) := .inr (by rw [Utf8.decode_encode])
    exact if_pos htext
  read_split xs c ys hc := by
    unfold IsText narrowed
    by_cases hansi : P.ansiStringOnly = true
    · simp [hansi]
    · simp only [hansi, Utf8.decode_split hc, Utf8.decode_encode]
      by_cases hxs : (Utf8.decode xs).2 = []
      · by_cases hys : (Utf8.decode ys).2 = []
        · simp [hxs, hys]
        · simp [hxs, hys]
      · simp [hxs]

/-- Text in `SQLWCHAR`s, read from UTF-8. -/
def wideReader (w : WcharSize) : Reader Nat where
  read bytes :=
    if (Utf8.decode bytes).2 = [] ∧ (Utf8.decode bytes).1.all w.holds = true then
      some ((Utf8.decode bytes).1.map Char.toNat)
    else none
  codes text := text.map Char.toNat
  readable c := w.holds c = true
  codes_append s t := List.map_append
  read_encode s hs := by
    rw [Utf8.decode_encode]
    exact if_pos ⟨rfl, List.all_eq_true.mpr hs⟩
  read_split xs c ys hc := by
    simp only [List.all_eq_true]
    have hholds : w.holds c = true := by
      cases w with
      | two => exact decide_eq_true (by omega)
      | four => rfl
    have hsplit := @Utf8.decode_split xs ys c hc
    by_cases hxs : (Utf8.decode xs).2 = [] ∧ ∀ d ∈ (Utf8.decode xs).1, w.holds d = true
    · rw [if_pos hxs.1] at hsplit
      by_cases hys : (Utf8.decode ys).2 = [] ∧ ∀ d ∈ (Utf8.decode ys).1, w.holds d = true
      · rw [if_pos hxs, if_pos hys, if_pos, hsplit]
        · simp
        · rw [hsplit]
          refine ⟨hys.1, fun d hd => ?_⟩
          rcases List.mem_append.mp hd with hd | hd
          · exact hxs.2 d hd
          · rcases List.mem_cons.mp hd with rfl | hd
            · exact hholds
            · exact hys.2 d hd
      · rw [if_pos hxs, if_neg hys, if_neg]
        · rfl
        · rw [hsplit]
          rintro ⟨hbad, hall⟩
          exact hys ⟨hbad, fun d hd => hall d (by simp [hd])⟩
    · rw [if_neg hxs, if_neg]
      · rfl
      · rw [hsplit]
        split
        · rename_i hnil
          rintro ⟨-, hall⟩
          exact hxs ⟨hnil, fun d hd => hall d (by simp [hd])⟩
        · rename_i hne
          rintro ⟨hbad, -⟩
          exact hne (List.append_eq_nil_iff.mp hbad).1

/-! ## Buffers of `char`s -/

/-- The conversion is reported as an error. -/
def Conversion.IsError (c : Conversion) : Prop :=
  c.result ∉ [.success, .fractionalTruncated, .varlenDataTruncated]

/-- What a conversion does in a buffer of `n` `char`s with a text; there is none where it throws. -/
def Stores (n : Nat) (text : Option (List UInt8)) (r : Except PutFault Conversion) : Prop :=
  match text with
  | none => ∃ e, r = .error e
  | some s => ∃ c, r = .ok c ∧ (∀ m base, c.narrowText m base n = s.take (n - 1)) ∧
    (s.length < n → c.result = .success) ∧ ¬ c.IsError

section Narrow

variable {P : Platform} {type : ScalarType} {b : ApplicationDataBuffer} {target : Addr} {n : Nat}

theorem putStrToStrBuffer_stores (value : List UInt8) (hn : 1 ≤ n) :
    Stores n ((narrowReader P).read (beforeZero value))
      ((b.charBuffer target n).putStrToStrBuffer P false value) := by
  obtain ⟨a, hdata⟩ := CharValue.getData_charBuffer b target n
  have hbuflen : (b.charBuffer target n).buflen = n := rfl
  rw [putStrToStrBuffer_narrow_eq value hdata hn, hbuflen]
  unfold narrowReader
  by_cases htext : IsText P (beforeZero value)
  · simp only [if_pos htext]
    have hzero := zero_not_mem_narrowed (P := P) value
    refine ⟨_, rfl, fun m base => ?_, fun hlen => ?_, ?_⟩
    · have hle := List.length_take_le (n - 1) (narrowed P (beforeZero value))
      exact narrowText_singleton (fun hmem => hzero (List.mem_of_mem_take hmem)) (by omega) _ _ m base
    · refine if_neg ?_
      rw [decide_eq_true_eq]
      exact Nat.not_le.mpr hlen
    · simp only [Conversion.IsError, truncatedIf]
      split <;> decide
  · simp only [if_neg htext]
    exact ⟨_, rfl⟩

theorem string_stores (text : List Char) (hn : 1 ≤ n) :
    Stores n (some ((narrowReader P).codes (text.takeWhile (· ≠ '\x00'))))
      ((b.charBuffer target n).putStrToStrBuffer P false (Utf8.encode text)) := by
  have h := @putStrToStrBuffer_stores P b target n (Utf8.encode text) hn
  rw [beforeZero, Utf8.takeWhile_encode, (narrowReader P).read_encode _ fun _ _ => trivial] at h
  exact h

theorem number_stores (v : Int) {t : List Char} (h : some (Formatted.decimal v) = some t)
    (hn : 1 ≤ n) :
    Stores n (some ((narrowReader P).codes t))
      ((b.charBuffer target n).putStrToStrBuffer P false (Utf8.encode (Formatted.decimal v))) := by
  obtain rfl := Option.some.inj h
  have hnumber := @string_stores P b target n (Formatted.decimal v) hn
  rwa [List.takeWhile_eq_self_iff.mpr] at hnumber
  intro c hc
  exact decide_eq_true (Plain.decimal v c hc).1

theorem TimedValue.size_le (value : TimedValue) : value.size ≤ 32 := by
  cases value with
  | yearMonth value => exact Nat.succ_le_succ (List.length_take_le 31 _)
  | daySecond value => exact Nat.succ_le_succ (List.length_take_le 31 _)
  | _ => simp [TimedValue.size]

theorem codes_plain {text : List Char} (h : Plain text) :
    (narrowReader P).codes text = Utf8.encode text := by
  change narrowed P (Utf8.encode text) = _
  unfold narrowed
  split
  · rfl
  · rw [Utf8.decode_encode, encode_plain h]
    exact List.map_congr_left fun c hc => P.narrow_ascii c (h c hc).2

theorem timed_stores {value : TimedValue} {t : List Char} (h : timedText P value = some t)
    (hn : 32 ≤ n) :
    Stores n (some ((narrowReader P).codes t)) ((value.call P).perform (b.charBuffer target n)) := by
  obtain ⟨a, hdata⟩ := CharValue.getData_charBuffer b target n
  have hplain := value.plain_text P
  unfold timedText at h
  split at h
  · rename_i hlen
    obtain rfl := Option.some.inj h
    have hroom : value.size ≤ n := value.size_le.trans hn
    have hencode := length_encode_plain hplain
    rw [value.perform_char rfl, codes_plain hplain]
    refine ⟨_, rfl, fun m base => ?_, fun _ => ?_, ?_⟩
    · rw [List.take_of_length_le (by omega)]
      exact putCharText_narrowText hplain hdata hroom hlen m base
    · simp only [putCharText, hdata]
      refine if_neg ?_
      rw [decide_eq_true_eq]
      exact Nat.not_lt.mpr hroom
    · simp only [putCharText, hdata, Conversion.IsError, truncatedIf]
      split <;> decide
  · cases h

theorem scalar_stores {value : String} {t : List Char} (h : scalarText P type value = some t)
    (hn : 32 ≤ n) :
    Stores n (some ((narrowReader P).codes t))
      (parseScalarType P type value (b.charBuffer target n)) := by
  have hone : 1 ≤ n := by omega
  cases type with
  | varchar =>
    cases h
    exact string_stores value.toList hone
  | double =>
    simp only [scalarText] at h
    obtain ⟨x, hx, rfl⟩ := Option.map_eq_some_iff.mp h
    simp only [parseScalarType, hx]
    exact string_stores (P.reals.print x) hone
  | boolean => exact number_stores _ h hone
  | integer => exact number_stores _ h hone
  | bigint => exact number_stores _ h hone
  | notSet => cases h
  | unknown => cases h
  | timestamp => exact timed_stores h hn
  | date => exact timed_stores h hn
  | time => exact timed_stores h hn
  | intervalYearToMonth => exact timed_stores h hn
  | intervalDayToSecond => exact timed_stores h hn

end Narrow

/-! ## Pieces -/

section Pieces

variable {P : Platform} {w : WcharSize}

theorem narrow_read_ansi (hansi : P.ansiStringOnly = true) (bytes : List UInt8) :
    (narrowReader P).read bytes = some bytes := by
  simp [narrowReader, IsText, narrowed, hansi]

theorem narrow_read_locale_iff (hansi : P.ansiStringOnly ≠ true) {bytes u : List UInt8} :
    (narrowReader P).read bytes = some u ↔
      ∃ chars, bytes = Utf8.encode chars ∧ chars.map P.narrow = u := by
  simp only [narrowReader, IsText, narrowed, hansi, false_or, Bool.false_eq_true, if_false]
  constructor
  · intro h
    split at h
    · rename_i hbad
      exact ⟨_, Utf8.decode_eq_nil_iff.mp (Prod.ext rfl hbad), Option.some.inj h⟩
    · cases h
  · rintro ⟨chars, rfl, rfl⟩
    rw [Utf8.decode_encode]
    exact if_pos rfl

theorem codes_ansi (hansi : P.ansiStringOnly = true) (text : List Char) :
    (narrowReader P).codes text = Utf8.encode text := if_pos hansi

theorem codes_locale (hansi : P.ansiStringOnly ≠ true) (text : List Char) :
    (narrowReader P).codes text = text.map P.narrow := by
  change narrowed P (Utf8.encode text) = _
  rw [narrowed, if_neg hansi, Utf8.decode_encode]

theorem narrow_read_length {bytes u : List UInt8} (h : (narrowReader P).read bytes = some u) :
    u.length ≤ bytes.length := by
  by_cases hansi : P.ansiStringOnly = true
  · rw [narrow_read_ansi hansi] at h
    rw [Option.some.inj h]
  · obtain ⟨chars, rfl, rfl⟩ := (narrow_read_locale_iff hansi).mp h
    rw [List.length_map]
    exact Utf8.length_le_encode chars

theorem codes_ascii {text : List Char} (h : ∀ c ∈ text, c.toNat < 128) :
    (narrowReader P).codes text = Utf8.encode text := narrowed_ascii h

theorem wide_reads_iff {bytes : List UInt8} {text : List Char} :
    (wideReader w).Reads bytes text ↔
      bytes = Utf8.encode text ∧ ∀ c ∈ text, w.holds c = true := by
  constructor
  · intro h
    simp only [Reader.Reads, wideReader, List.all_eq_true] at h
    split at h
    · rename_i hread
      have hchars : (Utf8.decode bytes).1 = text :=
        List.map_injective_iff.mpr (fun c d h => Char.toNat_inj.mp h) (Option.some.inj h)
      rw [hchars] at hread
      exact ⟨Utf8.decode_eq_nil_iff.mp (Prod.ext hchars hread.1), hread.2⟩
    · cases h
  · rintro ⟨rfl, hholds⟩
    exact (wideReader w).read_encode text hholds

/-- A text that an element keeps in its buffer, and that is read from there. -/
def PieceFits (P : Platform) (text : List Char) : Prop :=
  ((narrowReader P).codes text).length ≤ 1023 ∧
    (P.ansiStringOnly = true ∨ ∀ b ∈ (narrowReader P).codes text, b.toNat < 128)

/-- What is read without loss is the text itself. -/
theorem narrow_reads_iff {bytes : List UInt8} {text : List Char}
    (hlen : bytes.length ≤ ((narrowReader P).codes text).length) :
    (narrowReader P).Reads bytes text ↔ bytes = (narrowReader P).codes text ∧
      (P.ansiStringOnly = true ∨ ∀ b ∈ (narrowReader P).codes text, b.toNat < 128) := by
  by_cases hansi : P.ansiStringOnly = true
  · rw [Reader.Reads, narrow_read_ansi hansi, Option.some.injEq]
    simp [hansi]
  · rw [Reader.Reads, narrow_read_locale_iff hansi, or_iff_right hansi]
    constructor
    · rintro ⟨chars, rfl, hcodes⟩
      rw [← hcodes, List.length_map] at hlen
      have hascii := Utf8.ascii_of_length hlen
      refine ⟨(map_narrow_ascii hascii).symm.trans hcodes, fun b hb => ?_⟩
      rw [← hcodes] at hb
      obtain ⟨c, hc, rfl⟩ := List.mem_map.mp hb
      have hlt := hascii c hc
      rw [P.narrow_ascii c hlt, UInt8.toNat_ofNat']
      omega
    · rintro ⟨rfl, hfits⟩
      obtain ⟨chars, hencode, hascii⟩ := Utf8.exists_encode_of_ascii hfits
      exact ⟨chars, hencode.symm, (map_narrow_ascii hascii).trans hencode⟩

/-- What is known of a piece before it is compared with its text. -/
structure PieceBound (P : Platform) (piece : List UInt8) (text : List Char) : Prop where
  zero_not_mem : 0 ∉ piece
  starts_le : Utf8.starts piece ≤ text.length
  bounded : (narrowReader P).Bounded piece text

/-- What is known of an element. -/
structure ElementBound (P : Platform) (element : List UInt8) (text : List Char) : Prop where
  zero_not_mem : 0 ∉ element
  starts_le : Utf8.starts element ≤ text.length
  length_le : element.length ≤ ((narrowReader P).codes text).length

theorem ElementBound.piece {element : List UInt8} {text : List Char}
    (h : ElementBound P element text) : PieceBound P element text :=
  ⟨h.zero_not_mem, h.starts_le, fun _ hu => (narrow_read_length hu).trans h.length_le⟩

theorem ElementBound.take {element : List UInt8} {text : List Char}
    (h : ElementBound P element text) (n : Nat) : ElementBound P (element.take n) text :=
  ⟨fun hmem => h.zero_not_mem (List.mem_of_mem_take hmem),
    (Utf8.starts_take_le element n).trans h.starts_le,
    (List.length_take_le' n element).trans h.length_le⟩

theorem elementBound_codes {text : List Char} (hzero : '\x00' ∉ text) :
    ElementBound P ((narrowReader P).codes text) text := by
  refine ⟨?_, ?_, le_rfl⟩
  · by_cases hansi : P.ansiStringOnly = true
    · rw [codes_ansi hansi]
      exact zero_not_mem_encode hzero
    · rw [codes_locale hansi]
      intro hmem
      obtain ⟨c, hc, hnarrow⟩ := List.mem_map.mp hmem
      exact P.narrow_ne_zero c (fun h => hzero (h ▸ hc)) hnarrow
  · by_cases hansi : P.ansiStringOnly = true
    · rw [codes_ansi hansi, Utf8.starts_encode]
    · rw [codes_locale hansi]
      exact (Utf8.starts_le_length _).trans (by rw [List.length_map])

theorem PieceBound.bounded_wide {piece : List UInt8} {text : List Char}
    (h : PieceBound P piece text) (w : WcharSize) : (wideReader w).Bounded piece text := by
  intro u hu
  simp only [wideReader] at hu
  split at hu
  · rename_i hread
    obtain rfl := Option.some.inj hu
    have hpiece : piece = Utf8.encode (Utf8.decode piece).1 :=
      Utf8.decode_eq_nil_iff.mp (Prod.ext rfl hread.1)
    have hstarts := h.starts_le
    rw [hpiece, Utf8.starts_encode] at hstarts
    simpa [wideReader] using hstarts
  · cases hu

/-- An element that is kept is also read in `SQLWCHAR`s where its text is ASCII. -/
theorem wide_reads_element_iff {element : List UInt8} {text : List Char}
    (h : ElementBound P element text) (hholds : ∀ c ∈ text, w.holds c = true) :
    (wideReader w).Reads element text ↔
      (narrowReader P).Reads element text ∧
        (P.ansiStringOnly = true ∨ ∀ c ∈ text, c.toNat < 128) := by
  have hlen := h.length_le
  rw [wide_reads_iff, narrow_reads_iff hlen]
  constructor
  · rintro ⟨rfl, -⟩
    have hfits : P.ansiStringOnly = true ∨ ∀ c ∈ text, c.toNat < 128 := by
      by_cases hansi : P.ansiStringOnly = true
      · exact .inl hansi
      · rw [codes_locale hansi, List.length_map] at hlen
        exact .inr (Utf8.ascii_of_length hlen)
    have hcodes : (narrowReader P).codes text = Utf8.encode text := by
      rcases hfits with hansi | hascii
      · exact codes_ansi hansi text
      · exact codes_ascii hascii
    refine ⟨⟨hcodes.symm, hfits.imp_right fun hascii b hb => ?_⟩, hfits⟩
    rw [hcodes, Utf8.encode_ascii hascii] at hb
    obtain ⟨c, hc, rfl⟩ := List.mem_map.mp hb
    have hlt := hascii c hc
    rw [UInt8.toNat_ofNat']
    omega
  · rintro ⟨⟨rfl, -⟩, hfits⟩
    refine ⟨?_, hholds⟩
    rcases hfits with hansi | hascii
    · exact codes_ansi hansi text
    · exact codes_ascii hascii

theorem pieceBound_encode {text : List Char} (hzero : '\x00' ∉ text) :
    PieceBound P (Utf8.encode text) text :=
  ⟨zero_not_mem_encode hzero, Nat.le_of_eq (Utf8.starts_encode text),
    Reader.Reads.bounded ((narrowReader P).read_encode text fun _ _ => trivial)⟩

theorem PieceBound.split {xs ys : List UInt8} {s t : List Char} {c : Char} (hc : c.toNat < 128)
    (hzero : c ≠ '\x00') (hxs : PieceBound P xs s) (hys : PieceBound P ys t) :
    PieceBound P (xs ++ (Utf8.encode [c] ++ ys)) (s ++ c :: t) := by
  have hmiddle : 0 ∉ Utf8.encode [c] :=
    zero_not_mem_encode fun h => hzero (List.mem_singleton.mp h).symm
  refine ⟨?_, ?_, .split hc hxs.bounded hys.bounded⟩
  · simp only [List.mem_append, not_or]
    exact ⟨hxs.zero_not_mem, hmiddle, hys.zero_not_mem⟩
  · have hfirst := hxs.starts_le
    have hsecond := hys.starts_le
    simp only [Utf8.starts_append, Utf8.starts_encode, List.length_append, List.length_cons,
      List.length_nil]
    omega

theorem pieceBound_nil : PieceBound P [] [] :=
  ⟨nofun, Nat.le_refl 0, (narrowReader P).reads_nil.bounded⟩

theorem PieceBound.intercalate {pieces : List (List UInt8)} {texts : List (List Char)}
    {close : Char} (hclose : close.toNat < 128) (hzero : close ≠ '\x00')
    (h : List.Forall₂ (PieceBound P) pieces texts) :
    PieceBound P ((Utf8.encode [',']).intercalate pieces ++ Utf8.encode [close])
      ([','].intercalate texts ++ [close]) := by
  induction h with
  | nil => exact pieceBound_encode fun h => hzero (List.mem_singleton.mp h).symm
  | @cons piece text pieces texts hpiece hpieces ih =>
    cases hpieces with
    | nil =>
      have hlast := PieceBound.split hclose hzero hpiece pieceBound_nil
      rw [List.append_nil] at hlast
      simpa using hlast
    | cons hpiece' hpieces' =>
      rw [List.intercalate_cons_cons, List.intercalate_cons_cons]
      simpa using PieceBound.split (show (',').toNat < 128 by decide) (by decide) hpiece ih

theorem separated_eq (elements : List (List UInt8)) :
    separated elements = (Utf8.encode [',']).intercalate elements := by
  induction elements with
  | nil => rfl
  | cons e es ih =>
    cases es with
    | nil => simp [separated]
    | cons e' es =>
      rw [List.intercalate_cons_cons, ← ih]
      rfl

/-- The brackets of a container. -/
structure Brackets where
  before : Char
  after : Char
  before_ascii : before.toNat < 128 ∧ before ≠ '\x00'
  after_ascii : after.toNat < 128 ∧ after ≠ '\x00'

def Brackets.square : Brackets := ⟨'[', ']', by decide, by decide⟩

def Brackets.round : Brackets := ⟨'(', ')', by decide, by decide⟩

namespace Brackets

variable {pieces : List (List UInt8)} {texts : List (List Char)}

def enclose (k : Brackets) (pieces : List (List UInt8)) : List UInt8 :=
  Utf8.encode [k.before] ++ ((Utf8.encode [',']).intercalate pieces ++ Utf8.encode [k.after])

theorem pieceBound (k : Brackets) (h : List.Forall₂ (PieceBound P) pieces texts) :
    PieceBound P (k.enclose pieces) (enclosedChars k.before texts k.after) := by
  have hrest := PieceBound.intercalate k.after_ascii.1 k.after_ascii.2 h
  exact PieceBound.split k.before_ascii.1 k.before_ascii.2 pieceBound_nil hrest

theorem reads_iff {β : Type} (r : Reader β) (k : Brackets)
    (h : List.Forall₂ r.Bounded pieces texts) :
    r.Reads (k.enclose pieces) (enclosedChars k.before texts k.after) ↔
      List.Forall₂ r.Reads pieces texts := by
  have hcomma : (',').toNat < 128 := by decide
  rw [← Reader.reads_intercalate_iff hcomma k.after_ascii.1 h]
  exact (Reader.reads_split_iff k.before_ascii.1 r.reads_nil.bounded
    (Reader.bounded_intercalate hcomma k.after_ascii.1 h)).trans (and_iff_right r.reads_nil)

end Brackets

theorem pointText_eq (time : Option String) (value : List UInt8) :
    pointText time value = Utf8.encode (pointStart time) ++
      (Utf8.encode [' '] ++ (value ++ (Utf8.encode ['\x7d'] ++ []))) := by
  have hvalue : ", value: ".toList = ", value:".toList ++ [' '] := by simp
  have hclose : "\x7d".toList = ['\x7d'] := by simp
  have htime : (time.map fun t => Utf8.encode t.toList).getD [] = Utf8.encode (timeChars time) := by
    cases time <;> rfl
  unfold pointText ascii pointStart
  rw [hvalue, hclose, htime]
  generalize "\x7btime: ".toList = opening
  generalize ", value:".toList = middle
  simp only [Utf8.encode_append, List.append_assoc, List.append_nil]

theorem zero_not_mem_pointStart {time : Option String} (htime : '\x00' ∉ timeChars time) :
    '\x00' ∉ pointStart time := by
  have hopening : '\x00' ∉ "\x7btime: ".toList := by simp
  have hmiddle : '\x00' ∉ ", value:".toList := by simp
  intro h
  rcases List.mem_append.mp h with h | h
  · exact hopening h
  · rcases List.mem_append.mp h with h | h
    · exact htime h
    · exact hmiddle h

theorem PieceBound.point {time : Option String} (htime : '\x00' ∉ timeChars time)
    {value : List UInt8} {t : List Char} (h : PieceBound P value t) :
    PieceBound P (pointText time value) (pointChars time t) := by
  have hstart := zero_not_mem_pointStart htime
  have hclose := PieceBound.split (c := '\x7d') (by decide) (by decide) h pieceBound_nil
  rw [pointText_eq]
  exact .split (by decide) (by decide) (pieceBound_encode hstart) hclose

theorem point_reads_iff {β : Type} (r : Reader β) {time : Option String}
    (htime : ∀ c ∈ pointStart time, r.readable c) {value : List UInt8} {t : List Char}
    (h : r.Bounded value t) :
    r.Reads (pointText time value) (pointChars time t) ↔ r.Reads value t := by
  have hstart : r.Reads (Utf8.encode (pointStart time)) (pointStart time) := r.read_encode _ htime
  have hclose := Reader.Bounded.split (c := '\x7d') (by decide) h r.reads_nil.bounded
  rw [pointText_eq, pointChars, Reader.reads_split_iff (by decide) hstart.bounded hclose,
    Reader.reads_split_iff (by decide) h r.reads_nil.bounded]
  exact ⟨fun h => h.2.1, fun h => ⟨hstart, h, r.reads_nil⟩⟩

end Pieces

/-! ## Elements -/

/-- The text in the buffer of an element after its conversion. -/
def elementOf (P : Platform) (type : ScalarType) (d : Datum) : Except PutFault (List UInt8) :=
  (parseDatum P type d elementBuffer).map elementText

/-- What a value comes to in buffers of `char`s, and what is known of it. -/
structure CharReading (P : Platform) (type : ScalarType) (d : Datum) (t : List Char)
    (text : Option (List UInt8)) : Prop where
  stores : ∀ (b : ApplicationDataBuffer) target n, 32 ≤ n →
    Stores n text (parseDatum P type d (b.charBuffer target n))
  bound : ∀ s, text = some s → ElementBound P s t

section Elements

variable {P : Platform} {type : ScalarType} {dash : Bool} {d : Datum} {t : List Char}
  {text : Option (List UInt8)}

namespace CharReading

theorem elementOf_iff (h : CharReading P type d t text) {element : List UInt8} :
    elementOf P type d = .ok element ↔ ∃ s, text = some s ∧ element = s.take 1023 := by
  have hstores := h.stores elementBuffer 0 1024 (by decide)
  change Stores 1024 text (parseDatum P type d elementBuffer) at hstores
  unfold elementOf
  cases text with
  | none =>
    obtain ⟨e, he⟩ := hstores
    simp [he, Except.map]
  | some s =>
    obtain ⟨c, hc, hread, -⟩ := hstores
    have hread' : elementText c = s.take 1023 := hread _ _
    simp [hc, Except.map, hread', eq_comm]

theorem element_bound (h : CharReading P type d t text) {element : List UInt8}
    (helement : elementOf P type d = .ok element) : ElementBound P element t := by
  obtain ⟨s, hs, rfl⟩ := h.elementOf_iff.mp helement
  exact (h.bound s hs).take 1023

theorem element_reads_iff (h : CharReading P type d t text) :
    (∃ element, elementOf P type d = .ok element ∧ (narrowReader P).Reads element t) ↔
      PieceFits P t ∧ text = some ((narrowReader P).codes t) := by
  constructor
  · rintro ⟨element, helement, hreads⟩
    obtain ⟨heq, hfits⟩ := (narrow_reads_iff (h.element_bound helement).length_le).mp hreads
    obtain ⟨s, hs, rfl⟩ := h.elementOf_iff.mp helement
    have hlen := (h.bound s hs).length_le
    have hshort := congrArg List.length heq
    rw [List.length_take] at hshort
    rw [List.take_of_length_le (by omega)] at heq
    exact ⟨⟨by omega, hfits⟩, by rw [hs, heq]⟩
  · rintro ⟨hfits, rfl⟩
    refine ⟨_, h.elementOf_iff.mpr ⟨_, rfl, rfl⟩, ?_⟩
    rw [List.take_of_length_le hfits.1]
    exact (narrow_reads_iff le_rfl).mpr ⟨rfl, hfits.2⟩

end CharReading

theorem PieceBound.read {bytes s : List UInt8} (h : PieceBound P bytes t)
    (hread : (narrowReader P).read bytes = some s) : ElementBound P s t := by
  have hlen := h.bounded s hread
  by_cases hansi : P.ansiStringOnly = true
  · rw [narrow_read_ansi hansi] at hread
    obtain rfl := Option.some.inj hread
    exact ⟨h.zero_not_mem, h.starts_le, hlen⟩
  · obtain ⟨chars, rfl, rfl⟩ := (narrow_read_locale_iff hansi).mp hread
    refine ⟨fun hmem => ?_, ?_, hlen⟩
    · obtain ⟨c, hc, hnarrow⟩ := List.mem_map.mp hmem
      refine P.narrow_ne_zero c ?_ hnarrow
      rintro rfl
      exact h.zero_not_mem (List.mem_flatMap.mpr ⟨_, hc, Utf8.zero_mem_encodeChar.mpr rfl⟩)
    · rw [codes_locale hansi, List.length_map, List.length_map] at hlen
      exact (Utf8.starts_le_length _).trans (by rwa [List.length_map])

theorem beforeZero_of_not_mem {bytes : List UInt8} (h : 0 ∉ bytes) : beforeZero bytes = bytes := by
  rw [beforeZero, List.takeWhile_eq_self_iff]
  intro b hb
  rw [decide_eq_true_eq]
  rintro rfl
  exact h hb

/-- A container whose pieces are known. -/
theorem container_reading {k : Brackets} {r : Except PutFault (List (List UInt8))}
    {texts : List (List Char)}
    (hparse : ∀ b, parseDatum P type d b =
      match r with
      | .error e => .error e
      | .ok pieces => putString P (k.enclose pieces) b)
    (hbound : ∀ pieces, r = .ok pieces → List.Forall₂ (PieceBound P) pieces texts) :
    ∃ text, CharReading P type d (enclosedChars k.before texts k.after) text ∧
      (text = some ((narrowReader P).codes (enclosedChars k.before texts k.after)) ↔
        ∃ pieces, r = .ok pieces ∧ List.Forall₂ (narrowReader P).Reads pieces texts) := by
  cases r with
  | error e =>
    refine ⟨none, ⟨fun b target n _ => ⟨e, hparse _⟩, nofun⟩, ?_⟩
    simp
  | ok pieces =>
    have hpieces := hbound pieces rfl
    have hwhole := k.pieceBound hpieces
    refine ⟨(narrowReader P).read (k.enclose pieces), ⟨fun b target n hn => ?_,
      fun s hs => hwhole.read hs⟩, ?_⟩
    · have hstores := @putStrToStrBuffer_stores P b target n (k.enclose pieces)
        (show 1 ≤ n by omega)
      rw [beforeZero_of_not_mem hwhole.zero_not_mem] at hstores
      rw [hparse]
      exact hstores
    · have hreads := k.reads_iff (narrowReader P) (hpieces.imp fun _ _ h => h.bounded)
      refine hreads.trans ?_
      simp

theorem parseElements_cons_iff {ds : List Datum} {pieces : List (List UInt8)} :
    parseElements P type (d :: ds) = .ok pieces ↔
      ∃ element rest, elementOf P type d = .ok element ∧ parseElements P type ds = .ok rest ∧
        pieces = element :: rest := by
  simp only [parseElements, elementOf]
  cases parseDatum P type d elementBuffer with
  | error e => simp [Except.map]
  | ok c =>
    cases parseElements P type ds with
    | error e => simp [Except.map]
    | ok rest => simp [Except.map, eq_comm]

theorem parsePoints_cons_iff {time : Option String}
    {points : List (Option String × Option Datum)} {pieces : List (List UInt8)} :
    parsePoints P type ((time, some d) :: points) = .ok pieces ↔
      ∃ element rest, elementOf P type d = .ok element ∧ parsePoints P type points = .ok rest ∧
        pieces = pointText time element :: rest := by
  simp only [parsePoints, elementOf]
  cases parseDatum P type d elementBuffer with
  | error e => simp [Except.map]
  | ok c =>
    cases parsePoints P type points with
    | error e => simp [Except.map]
    | ok rest => simp [Except.map, eq_comm]

theorem parsePoints_cons_none_iff {time : Option String}
    {points : List (Option String × Option Datum)} {pieces : List (List UInt8)} :
    parsePoints P type ((time, none) :: points) = .ok pieces ↔
      ∃ rest, parsePoints P type points = .ok rest ∧ pieces = pointText time [] :: rest := by
  simp only [parsePoints]
  cases parsePoints P type points with
  | error e => simp
  | ok rest => simp [eq_comm]

theorem elementTexts_cons_iff {ds : List Datum} {texts : List (List Char)} :
    elementTexts P type dash (d :: ds) = some texts ↔
      ∃ t rest, datumText P type dash d = some t ∧ elementTexts P type dash ds = some rest ∧
        texts = t :: rest := by
  simp only [elementTexts, Option.bind_eq_some_iff, Option.map_eq_some_iff, exists_and_left,
    @eq_comm _ texts]

theorem pointTexts_cons_iff {time : Option String} {points : List (Option String × Option Datum)}
    {texts : List (List Char)} :
    pointTexts P type dash ((time, some d) :: points) = some texts ↔
      ∃ t rest, datumText P type dash d = some t ∧ pointTexts P type dash points = some rest ∧
        texts = pointChars time t :: rest := by
  simp only [pointTexts, Option.bind_eq_some_iff, Option.map_eq_some_iff, exists_and_left,
    @eq_comm _ texts]

theorem pointTexts_cons_none_iff {time : Option String}
    {points : List (Option String × Option Datum)} {texts : List (List Char)} :
    pointTexts P type dash ((time, none) :: points) = some texts ↔
      ∃ rest, pointTexts P type dash points = some rest ∧
        texts = pointChars time [] :: rest := by
  simp [pointTexts, eq_comm]

theorem mem_pointChars {time : Option String} {c : Char} (h : c ∈ timeChars time ∨ c ∈ t) :
    c ∈ pointChars time t := by
  rcases h with h | h
  · exact List.mem_append_left _ (List.mem_append_right _ (List.mem_append_left _ h))
  · exact List.mem_append_right _ (List.mem_cons_of_mem _ (List.mem_append_left _ h))

theorem mem_enclosedChars {k : Brackets} {texts : List (List Char)} {c : Char} (ht : t ∈ texts)
    (hc : c ∈ t) : c ∈ enclosedChars k.before texts k.after := by
  refine List.mem_cons_of_mem _ (List.mem_append_left _ ?_)
  induction texts with
  | nil => cases ht
  | cons text texts ih =>
    cases texts with
    | nil =>
      rw [List.mem_singleton.mp ht] at hc
      simpa using hc
    | cons text' texts =>
      rw [List.intercalate_cons_cons, List.mem_append]
      rcases List.mem_cons.mp ht with rfl | ht
      · exact .inl (List.mem_append_left _ hc)
      · exact .inr (ih ht)

/-! ## Lists of elements -/

section Lists

variable {β : Type} {r : Reader β} {Kept : Datum → Prop}

/-- The characters are read, and none of them ends the text. -/
def Usable (r : Reader β) (text : List Char) : Prop := ∀ c ∈ text, c ≠ '\x00' ∧ r.readable c

theorem elements_bound {ds : List Datum} {texts : List (List Char)}
    (h : ∀ d ∈ ds, ∀ t, datumText P type dash d = some t → '\x00' ∉ t →
      ∀ element, elementOf P type d = .ok element → ElementBound P element t)
    (htexts : elementTexts P type dash ds = some texts) (hzero : ∀ t ∈ texts, '\x00' ∉ t)
    {pieces : List (List UInt8)} (hpieces : parseElements P type ds = .ok pieces) :
    List.Forall₂ (PieceBound P) pieces texts := by
  induction ds generalizing texts pieces with
  | nil =>
    cases htexts
    cases hpieces
    exact .nil
  | cons d ds ih =>
    obtain ⟨t, rest, ht, hrest, rfl⟩ := elementTexts_cons_iff.mp htexts
    obtain ⟨element, others, helement, hothers, rfl⟩ := parseElements_cons_iff.mp hpieces
    have hfirst := h d List.mem_cons_self t ht (hzero t List.mem_cons_self) element helement
    exact .cons hfirst.piece (ih (fun e he => h e (List.mem_cons_of_mem d he)) hrest
      (fun t ht => hzero t (List.mem_cons_of_mem _ ht)) hothers)

theorem points_bound {points : List (Option String × Option Datum)} {texts : List (List Char)}
    (h : ∀ time d, (time, some d) ∈ points → ∀ t, datumText P type dash d = some t → '\x00' ∉ t →
      ∀ element, elementOf P type d = .ok element → ElementBound P element t)
    (htexts : pointTexts P type dash points = some texts) (hzero : ∀ t ∈ texts, '\x00' ∉ t)
    {pieces : List (List UInt8)} (hpieces : parsePoints P type points = .ok pieces) :
    List.Forall₂ (PieceBound P) pieces texts := by
  induction points generalizing texts pieces with
  | nil =>
    cases htexts
    cases hpieces
    exact .nil
  | cons p points ih =>
    obtain ⟨time, value⟩ := p
    have hrest' := fun time d hmem => h time d (List.mem_cons_of_mem _ hmem)
    cases value with
    | none =>
      obtain ⟨rest, hrest, rfl⟩ := pointTexts_cons_none_iff.mp htexts
      obtain ⟨others, hothers, rfl⟩ := parsePoints_cons_none_iff.mp hpieces
      have htime := fun hmem => hzero _ List.mem_cons_self (mem_pointChars (.inl hmem))
      exact .cons (pieceBound_nil.point htime)
        (ih hrest' hrest (fun t ht => hzero t (List.mem_cons_of_mem _ ht)) hothers)
    | some d =>
      obtain ⟨t, rest, ht, hrest, rfl⟩ := pointTexts_cons_iff.mp htexts
      obtain ⟨element, others, helement, hothers, rfl⟩ := parsePoints_cons_iff.mp hpieces
      have htime := fun hmem => hzero _ List.mem_cons_self (mem_pointChars (.inl hmem))
      have hvalue := fun hmem => hzero _ List.mem_cons_self (mem_pointChars (.inr hmem))
      have hfirst := h time d List.mem_cons_self t ht hvalue element helement
      exact .cons (hfirst.piece.point htime)
        (ih hrest' hrest (fun t ht => hzero t (List.mem_cons_of_mem _ ht)) hothers)

/-- The elements are read as their texts when each of them is kept. -/
theorem elements_read_iff {ds : List Datum} {texts : List (List Char)}
    (h : ∀ d ∈ ds, ∀ t, datumText P type dash d = some t → Usable r t →
      ((∃ element, elementOf P type d = .ok element ∧ r.Reads element t) ↔ Kept d))
    (htexts : elementTexts P type dash ds = some texts) (hclean : ∀ t ∈ texts, Usable r t) :
    (∃ pieces, parseElements P type ds = .ok pieces ∧ List.Forall₂ r.Reads pieces texts) ↔
      ∀ d ∈ ds, Kept d := by
  induction ds generalizing texts with
  | nil =>
    cases htexts
    exact iff_of_true ⟨[], rfl, .nil⟩ nofun
  | cons d ds ih =>
    obtain ⟨t, rest, ht, hrest, rfl⟩ := elementTexts_cons_iff.mp htexts
    have hfirst := h d List.mem_cons_self t ht (hclean t List.mem_cons_self)
    have hothers := ih (fun e he => h e (List.mem_cons_of_mem d he)) hrest
      (fun t ht => hclean t (List.mem_cons_of_mem _ ht))
    rw [List.forall_mem_cons, ← hfirst, ← hothers]
    constructor
    · rintro ⟨pieces, hpieces, hreads⟩
      obtain ⟨element, rest, helement, hrest, rfl⟩ := parseElements_cons_iff.mp hpieces
      obtain ⟨hread, hreads⟩ := List.forall₂_cons.mp hreads
      exact ⟨⟨element, helement, hread⟩, rest, hrest, hreads⟩
    · rintro ⟨⟨element, helement, hread⟩, pieces, hpieces, hreads⟩
      exact ⟨element :: pieces, parseElements_cons_iff.mpr ⟨element, pieces, helement, hpieces, rfl⟩,
        .cons hread hreads⟩

theorem points_read_iff {points : List (Option String × Option Datum)} {texts : List (List Char)}
    (h : ∀ time d, (time, some d) ∈ points → ∀ t, datumText P type dash d = some t → Usable r t →
      ((∃ element, elementOf P type d = .ok element ∧ r.Reads element t) ↔ Kept d))
    (hbound : ∀ time d, (time, some d) ∈ points → ∀ t, datumText P type dash d = some t →
      Usable r t → ∀ element, elementOf P type d = .ok element → r.Bounded element t)
    (htexts : pointTexts P type dash points = some texts) (hclean : ∀ t ∈ texts, Usable r t) :
    (∃ pieces, parsePoints P type points = .ok pieces ∧ List.Forall₂ r.Reads pieces texts) ↔
      ∀ time d, (time, some d) ∈ points → Kept d := by
  induction points generalizing texts with
  | nil =>
    cases htexts
    exact iff_of_true ⟨[], rfl, .nil⟩ nofun
  | cons p points ih =>
    obtain ⟨time, value⟩ := p
    have hothers := fun texts hrest hclean => @ih texts
      (fun time d hmem => h time d (List.mem_cons_of_mem _ hmem))
      (fun time d hmem => hbound time d (List.mem_cons_of_mem _ hmem)) hrest hclean
    have hstart {t : List Char} (hpoint : Usable r (pointChars time t)) :
        ∀ c ∈ pointStart time, r.readable c :=
      fun c hc => (hpoint c (List.mem_append_left _ hc)).2
    cases value with
    | none =>
      obtain ⟨rest, hrest, rfl⟩ := pointTexts_cons_none_iff.mp htexts
      have htime := hstart (hclean _ List.mem_cons_self)
      have hempty := (point_reads_iff r htime r.reads_nil.bounded).mpr r.reads_nil
      have hiff := hothers rest hrest fun t ht => hclean t (List.mem_cons_of_mem _ ht)
      refine Iff.trans ?_ (hiff.trans (by simp))
      constructor
      · rintro ⟨pieces, hpieces, hreads⟩
        obtain ⟨others, hothers, rfl⟩ := parsePoints_cons_none_iff.mp hpieces
        exact ⟨others, hothers, (List.forall₂_cons.mp hreads).2⟩
      · rintro ⟨others, hothers, hreads⟩
        exact ⟨_, parsePoints_cons_none_iff.mpr ⟨others, hothers, rfl⟩, .cons hempty hreads⟩
    | some d =>
      obtain ⟨t, rest, ht, hrest, rfl⟩ := pointTexts_cons_iff.mp htexts
      have hpoint := hclean _ List.mem_cons_self
      have htime := hstart hpoint
      have husable : Usable r t := fun c hc => hpoint c (mem_pointChars (.inr hc))
      have hfirst := h time d List.mem_cons_self t ht husable
      have hbounded := hbound time d List.mem_cons_self t ht husable
      have hiff := hothers rest hrest fun t ht => hclean t (List.mem_cons_of_mem _ ht)
      have hall : (∀ time' d', (time', some d') ∈ (time, some d) :: points → Kept d') ↔
          Kept d ∧ ∀ time' d', (time', some d') ∈ points → Kept d' := by
        constructor
        · intro h
          exact ⟨h time d List.mem_cons_self, fun _ _ hmem => h _ _ (List.mem_cons_of_mem _ hmem)⟩
        · rintro ⟨hd, hrest⟩ time' d' hmem
          rcases List.mem_cons.mp hmem with heq | hmem
          · cases heq
            exact hd
          · exact hrest time' d' hmem
      rw [hall, ← hfirst, ← hiff]
      constructor
      · rintro ⟨pieces, hpieces, hreads⟩
        obtain ⟨element, others, helement, hothers, rfl⟩ := parsePoints_cons_iff.mp hpieces
        obtain ⟨hread, hreads⟩ := List.forall₂_cons.mp hreads
        exact ⟨⟨element, helement, (point_reads_iff r htime (hbounded _ helement)).mp hread⟩,
          others, hothers, hreads⟩
      · rintro ⟨⟨element, helement, hread⟩, others, hothers, hreads⟩
        exact ⟨_, parsePoints_cons_iff.mpr ⟨element, others, helement, hothers, rfl⟩,
          .cons ((point_reads_iff r htime (hbounded _ helement)).mpr hread) hreads⟩

end Lists

/-! ## Values -/

/-- An empty array is shown as the text says. -/
def Datum.Shown (dash : Bool) : Datum → Prop
  | .array [] => dash = true
  | _ => True

/-- An element that is kept in its buffer. -/
def ElementFits (P : Platform) (type : ScalarType) (dash : Bool) (d : Datum) : Prop :=
  d.Shown dash ∧ ∃ t, datumText P type dash d = some t ∧ PieceFits P t

/-- All elements are kept. -/
def ElementsFit (P : Platform) (type : ScalarType) (dash : Bool) (d : Datum) : Prop :=
  d.Shown dash ∧ ∀ e ∈ d.inside, ElementFits P type dash e

/-- An element that is kept with all of its elements. -/
def WhollyFits (P : Platform) (type : ScalarType) (dash : Bool) (d : Datum) : Prop :=
  ElementFits P type dash d ∧ ∀ e ∈ d.inside, ElementFits P type dash e

theorem whollyFits_iff (ht : datumText P type dash d = some t) :
    WhollyFits P type dash d ↔ PieceFits P t ∧ ElementsFit P type dash d := by
  constructor
  · rintro ⟨⟨hshown, t', ht', hfits⟩, hinside⟩
    obtain rfl := Option.some.inj (ht'.symm.trans ht)
    exact ⟨hfits, hshown, hinside⟩
  · rintro ⟨hfits, hshown, hinside⟩
    exact ⟨⟨hshown, t, ht, hfits⟩, hinside⟩

/-- What is known of a value from its elements. -/
def Known (P : Platform) (type : ScalarType) (dash : Bool) (d : Datum) : Prop :=
  ∀ t, datumText P type dash d = some t → '\x00' ∉ t → ∃ text, CharReading P type d t text ∧
    (text = some ((narrowReader P).codes t) ↔ ElementsFit P type dash d)

theorem Known.element_bound (h : Known P type dash d) (t : List Char)
    (ht : datumText P type dash d = some t) (hzero : '\x00' ∉ t) (element : List UInt8)
    (helement : elementOf P type d = .ok element) : ElementBound P element t := by
  obtain ⟨text, hreading, -⟩ := h t ht hzero
  exact hreading.element_bound helement

theorem Known.reads_iff (h : Known P type dash d) (t : List Char)
    (ht : datumText P type dash d = some t) (hzero : '\x00' ∉ t) :
    (∃ element, elementOf P type d = .ok element ∧ (narrowReader P).Reads element t) ↔
      WhollyFits P type dash d := by
  obtain ⟨text, hreading, hiff⟩ := h t ht hzero
  rw [hreading.element_reads_iff, whollyFits_iff ht, hiff]

theorem usable_narrow_iff : Usable (narrowReader P) t ↔ '\x00' ∉ t := by
  constructor
  · intro h hmem
    exact (h _ hmem).1 rfl
  · intro h c hc
    exact ⟨fun heq => h (heq ▸ hc), trivial⟩

theorem forall_insideAll_iff {ds : List Datum} :
    (∀ d ∈ ds, WhollyFits P type dash d) ↔ ∀ e ∈ insideAll ds, ElementFits P type dash e := by
  constructor
  · intro h e he
    obtain ⟨d, hd, rfl | hin⟩ := mem_insideAll.mp he
    · exact (h e hd).1
    · exact (h d hd).2 e hin
  · intro h d hd
    exact ⟨h d (mem_insideAll.mpr ⟨d, hd, .inl rfl⟩),
      fun e he => h e (mem_insideAll.mpr ⟨d, hd, .inr he⟩)⟩

theorem forall_insidePoints_iff {points : List (Option String × Option Datum)} :
    (∀ time d, (time, some d) ∈ points → WhollyFits P type dash d) ↔
      ∀ e ∈ insidePoints points, ElementFits P type dash e := by
  constructor
  · intro h e he
    obtain ⟨time, d, hd, rfl | hin⟩ := mem_insidePoints.mp he
    · exact (h time e hd).1
    · exact (h time d hd).2 e hin
  · intro h time d hd
    exact ⟨h d (mem_insidePoints.mpr ⟨time, d, hd, .inl rfl⟩),
      fun e he => h e (mem_insidePoints.mpr ⟨time, d, hd, .inr he⟩)⟩

theorem enclosed_square (pieces : List (List UInt8)) :
    enclosed "[" pieces "]" = Brackets.square.enclose pieces := by
  rw [enclosed, separated_eq, List.append_assoc]
  rfl

theorem enclosed_round (pieces : List (List UInt8)) :
    enclosed "(" pieces ")" = Brackets.round.enclose pieces := by
  rw [enclosed, separated_eq, List.append_assoc]
  rfl

theorem parse_array_cons {ds : List Datum} (b : ApplicationDataBuffer) :
    parseDatum P type (.array (d :: ds)) b =
      match parseElements P type (d :: ds) with
      | .error e => .error e
      | .ok pieces => putString P (Brackets.square.enclose pieces) b := by
  simp only [parseDatum]
  cases hpieces : parseElements P type (d :: ds) with
  | error e => rfl
  | ok pieces =>
    obtain ⟨element, others, -, -, rfl⟩ := parseElements_cons_iff.mp hpieces
    simp only [List.isEmpty_cons, Bool.false_eq_true, if_false, enclosed_square]

theorem parse_row {ds : List Datum} (b : ApplicationDataBuffer) :
    parseDatum P type (.row (some ds)) b =
      match parseElements P type ds with
      | .error e => .error e
      | .ok pieces => putString P (Brackets.round.enclose pieces) b := by
  cases hpieces : parseElements P type ds with
  | error e => simp only [parseDatum, hpieces]
  | ok pieces => simp only [parseDatum, hpieces, enclosed_round]

theorem parse_timeSeries {points : List (Option String × Option Datum)}
    (b : ApplicationDataBuffer) :
    parseDatum P type (.timeSeries points) b =
      match parsePoints P type points with
      | .error e => .error e
      | .ok pieces => putString P (Brackets.square.enclose pieces) b := by
  cases hpieces : parsePoints P type points with
  | error e => simp only [parseDatum, hpieces]
  | ok pieces => simp only [parseDatum, hpieces, enclosed_square]

/-- Arrays with elements, and rows. -/
theorem known_elements {ds : List Datum} {k : Brackets}
    (hparse : ∀ b, parseDatum P type d b =
      match parseElements P type ds with
      | .error e => .error e
      | .ok pieces => putString P (k.enclose pieces) b)
    (htext : datumText P type dash d =
      (elementTexts P type dash ds).map fun texts => enclosedChars k.before texts k.after)
    (hfit : ElementsFit P type dash d ↔ ∀ e ∈ insideAll ds, ElementFits P type dash e)
    (ih : ∀ e ∈ ds, Known P type dash e) : Known P type dash d := by
  intro t ht hzero
  rw [htext] at ht
  obtain ⟨texts, htexts, rfl⟩ := Option.map_eq_some_iff.mp ht
  have hclean : ∀ t ∈ texts, '\x00' ∉ t := fun t ht hmem => hzero (mem_enclosedChars ht hmem)
  have hbound := fun pieces => @elements_bound P type dash ds texts
    (fun e he => (ih e he).element_bound) htexts hclean pieces
  obtain ⟨text, hreading, hiff⟩ := container_reading hparse hbound
  refine ⟨text, hreading, hiff.trans ?_⟩
  rw [hfit, ← forall_insideAll_iff]
  exact elements_read_iff (fun e he t ht husable =>
    (ih e he).reads_iff t ht (usable_narrow_iff.mp husable)) htexts
    fun t ht => usable_narrow_iff.mpr (hclean t ht)

theorem known_points {points : List (Option String × Option Datum)}
    (ih : ∀ time e, (time, some e) ∈ points → Known P type dash e) :
    Known P type dash (.timeSeries points) := by
  intro t ht hzero
  rw [datumText] at ht
  obtain ⟨texts, htexts, rfl⟩ := Option.map_eq_some_iff.mp ht
  have hclean : ∀ t ∈ texts, '\x00' ∉ t :=
    fun t ht hmem => hzero (mem_enclosedChars (k := .square) ht hmem)
  have hbound := fun pieces => @points_bound P type dash points texts
    (fun time e he => (ih time e he).element_bound) htexts hclean pieces
  obtain ⟨text, hreading, hiff⟩ := container_reading (k := .square) parse_timeSeries hbound
  refine ⟨text, hreading, hiff.trans ?_⟩
  have hfit : ElementsFit P type dash (.timeSeries points) ↔
      ∀ e ∈ insidePoints points, ElementFits P type dash e := by
    simp [ElementsFit, Datum.Shown, Datum.inside]
  rw [hfit, ← forall_insidePoints_iff]
  exact points_read_iff (fun time e he t ht husable =>
      (ih time e he).reads_iff t ht (usable_narrow_iff.mp husable))
    (fun time e he t ht husable element helement =>
      ((ih time e he).element_bound t ht (usable_narrow_iff.mp husable) element helement).piece.bounded)
    htexts fun t ht => usable_narrow_iff.mpr (hclean t ht)

theorem dash_stores (b : ApplicationDataBuffer) (target : Addr) {n : Nat} (hn : 32 ≤ n) :
    Stores n (some ((narrowReader P).codes ['-'])) (putString P (ascii "-") (b.charBuffer target n)) :=
  string_stores ['-'] (by omega)

theorem codes_dash : (narrowReader P).codes ['-'] = [45] := by
  rw [codes_ascii (by simp)]
  rfl

theorem codes_brackets : (narrowReader P).codes ['[', ']'] = [91, 93] := by
  rw [codes_ascii (by simp)]
  rfl

theorem known_empty : Known P type dash (.array []) := by
  intro t ht _
  have hparse (b : ApplicationDataBuffer) :
      parseDatum P type (.array []) b = putString P (ascii "-") b := by
    simp only [parseDatum, parseElements, List.isEmpty_nil, if_true]
  refine ⟨some ((narrowReader P).codes ['-']), ⟨fun b target n hn => ?_, fun s hs => ?_⟩, ?_⟩
  · rw [hparse]
    exact dash_stores b target hn
  · obtain rfl := Option.some.inj hs
    rw [codes_dash]
    cases dash with
    | true =>
      cases ht
      exact codes_dash (P := P) ▸ elementBound_codes (by decide)
    | false =>
      cases ht
      refine ⟨by decide, by decide, ?_⟩
      simp only [Bool.false_eq_true, if_false, codes_brackets]
      decide
  · cases dash with
    | true =>
      cases ht
      simp [ElementsFit, Datum.Shown, Datum.inside, insideAll]
    | false =>
      cases ht
      simp [ElementsFit, Datum.Shown, codes_dash, codes_brackets]

theorem known_null : Known P type dash .null := by
  intro t ht hzero
  cases ht
  refine ⟨some ((narrowReader P).codes ['-']), ⟨fun b target n hn => ?_, fun s hs => ?_⟩, ?_⟩
  · obtain ⟨c, hc, hread, -, -⟩ := dash_stores (P := P) b target hn
    simp only [parseDatum, hc]
    exact ⟨_, rfl, hread, fun _ => rfl, by simp [Conversion.IsError]⟩
  · obtain rfl := Option.some.inj hs
    exact elementBound_codes hzero
  · simp [ElementsFit, Datum.Shown, Datum.inside]

theorem known (d : Datum) : Known P type dash d := by
  induction d using Datum.induct with
  | scalar value =>
    intro t ht hzero
    refine ⟨_, ⟨fun b target n hn => scalar_stores ht hn, fun s hs => ?_⟩, ?_⟩
    · obtain rfl := Option.some.inj hs
      exact elementBound_codes hzero
    · simp [ElementsFit, Datum.Shown, Datum.inside]
  | timeSeries points ih => exact known_points ih
  | array ds ih =>
    cases ds with
    | nil => exact known_empty
    | cons d ds =>
      refine known_elements (k := .square) parse_array_cons rfl ?_ ih
      simp [ElementsFit, Datum.Shown, Datum.inside]
  | rowNone => intro t ht; cases ht
  | row ds ih =>
    refine known_elements (k := .round) parse_row rfl ?_ ih
    simp [ElementsFit, Datum.Shown, Datum.inside]
  | null => exact known_null
  | unset => intro t ht; cases ht

end Elements

/-! ## Large buffers -/

/-- In a large buffer of `char`s the text is read. -/
def ReadsNarrow (P : Platform) (type : ScalarType) (d : Datum) (text : List UInt8) : Prop :=
  ∃ size, ∀ n, size ≤ n → ∀ (b : ApplicationDataBuffer) target, ∃ c,
    parseDatum P type d (b.charBuffer target n) = .ok c ∧ c.result = .success ∧
      ∀ m base, c.narrowText m base n = text

/-- In a large buffer of `char`s the result is an error. -/
def RejectedNarrow (P : Platform) (type : ScalarType) (d : Datum) : Prop :=
  ∃ size, ∀ n, size ≤ n → ∀ (b : ApplicationDataBuffer) target, ∃ c,
    parseDatum P type d (b.charBuffer target n) = .ok c ∧ c.IsError

/-- In a large buffer of `SQLWCHAR`s the text is read. -/
def WideReads (P : Platform) (put : ApplicationDataBuffer → Except PutFault Conversion)
    (text : List Nat) : Prop :=
  ∃ size, ∀ n, size ≤ n → ∀ (b : ApplicationDataBuffer) target, ∃ c,
    put (b.wcharBuffer target P.wchar n) = .ok c ∧ c.result = .success ∧
      ∀ m base, c.wideText P.wchar m base n = text

def ReadsWide (P : Platform) (type : ScalarType) (d : Datum) : List Nat → Prop :=
  WideReads P (parseDatum P type d)

/-- In a large buffer of `SQLWCHAR`s the result is an error. -/
def RejectedWide (P : Platform) (type : ScalarType) (d : Datum) : Prop :=
  ∃ size, ∀ n, size ≤ n → ∀ (b : ApplicationDataBuffer) target, ∃ c,
    parseDatum P type d (b.wcharBuffer target P.wchar n) = .ok c ∧ c.IsError

namespace Datum

def isScalar : Datum → Bool
  | .scalar _ => true
  | _ => false

/-- The elements of a container. -/
def elements? : Datum → Option (List Datum)
  | .array ds => some ds
  | .row (some ds) => some ds
  | .timeSeries points => some (points.filterMap Prod.snd)
  | _ => none

end Datum

/-- The value is read as its text, or it has none and is reported as an error. -/
def RendersNarrow (P : Platform) (type : ScalarType) (dash : Bool) (d : Datum) : Prop :=
  match datumText P type dash d with
  | some t => ReadsNarrow P type d ((narrowReader P).codes t)
  | none => d.isScalar = true ∨ RejectedNarrow P type d

def RendersWide (P : Platform) (type : ScalarType) (dash : Bool) (d : Datum) : Prop :=
  match datumText P type dash d with
  | some t => ReadsWide P type d (P.wchar.encode t)
  | none => d.isScalar = true ∨ RejectedWide P type d

/-- A container has a text without a zero, and all its elements fit. -/
def NarrowCondition (P : Platform) (type : ScalarType) (dash : Bool) (d : Datum) : Prop :=
  d.elements? = none ∨
    (∃ t, datumText P type dash d = some t ∧ '\x00' ∉ t) ∧ ElementsFit P type dash d

/-- A text has only characters that are one `SQLWCHAR`. A container has a text without a zero, all its
elements fit, and their texts are ASCII unless strings are copied as they are. -/
def WideCondition (P : Platform) (type : ScalarType) (dash : Bool) (d : Datum) : Prop :=
  match d.elements? with
  | none => ∀ t, datumText P type dash d = some t → ∀ c ∈ t, P.wchar.holds c = true
  | some es =>
    (∃ t, datumText P type dash d = some t ∧ Usable (wideReader P.wchar) t) ∧
      ElementsFit P type dash d ∧
      ∀ e ∈ es, ∀ t, datumText P type dash e = some t →
        P.ansiStringOnly = true ∨ ∀ c ∈ t, c.toNat < 128

section Large

variable {P : Platform} {type : ScalarType} {dash : Bool} {d : Datum} {t : List Char}

theorem readsNarrow_iff {text : Option (List UInt8)} {s : List UInt8}
    (h : ∀ (b : ApplicationDataBuffer) target n, 32 ≤ n →
      Stores n text (parseDatum P type d (b.charBuffer target n))) :
    ReadsNarrow P type d s ↔ text = some s := by
  constructor
  · rintro ⟨size, hsize⟩
    obtain ⟨n, hn⟩ : ∃ n, n = size + 32 + (text.getD []).length + 1 := ⟨_, rfl⟩
    obtain ⟨c, hc, -, hread⟩ := hsize n (by omega) elementBuffer 0
    have hstores := h elementBuffer 0 n (by omega)
    cases text with
    | none =>
      obtain ⟨e, he⟩ := hstores
      cases he.symm.trans hc
    | some s' =>
      obtain ⟨c', hc', hread', -⟩ := hstores
      obtain rfl := Except.ok.inj (hc.symm.trans hc')
      have heq := (hread' (fun _ => 0) 0).symm.trans (hread (fun _ => 0) 0)
      simp only [Option.getD_some] at hn
      rw [List.take_of_length_le (by omega)] at heq
      rw [heq]
  · rintro rfl
    refine ⟨32 + s.length, fun n hn b target => ?_⟩
    obtain ⟨c, hc, hread, hresult, -⟩ := h b target n (by omega)
    refine ⟨c, hc, hresult (by omega), fun m base => ?_⟩
    rw [hread, List.take_of_length_le (by omega)]

/-- A text that is read has no zero. -/
theorem zero_not_mem_of_readsNarrow {text : List UInt8} (h : ReadsNarrow P type d text) :
    0 ∉ text := by
  obtain ⟨size, hsize⟩ := h
  obtain ⟨c, -, -, hread⟩ := hsize size le_rfl elementBuffer 0
  rw [← hread (fun _ => 0) 0]
  intro hmem
  simpa using List.mem_takeWhile_imp hmem

theorem zero_mem_codes (h : '\x00' ∈ t) : 0 ∈ (narrowReader P).codes t := by
  by_cases hansi : P.ansiStringOnly = true
  · rw [codes_ansi hansi]
    exact List.mem_flatMap.mpr ⟨_, h, Utf8.zero_mem_encodeChar.mpr rfl⟩
  · rw [codes_locale hansi]
    have hzero : P.narrow '\x00' = 0 := P.narrow_ascii _ (by decide)
    rw [← hzero]
    exact List.mem_map_of_mem h

/-- A container is put together as text, and put as a string. -/
theorem parse_container {es : List Datum} (h : d.elements? = some es) :
    (∃ e, ∀ b, parseDatum P type d b = .error e) ∨
      ∃ value, ∀ b, parseDatum P type d b = putString P value b := by
  cases d with
  | scalar | null | unset => cases h
  | array ds =>
    simp only [parseDatum]
    cases parseElements P type ds with
    | error e => exact .inl ⟨e, fun _ => rfl⟩
    | ok elements => exact .inr ⟨_, fun _ => rfl⟩
  | timeSeries points =>
    simp only [parseDatum]
    cases parsePoints P type points with
    | error e => exact .inl ⟨e, fun _ => rfl⟩
    | ok elements => exact .inr ⟨_, fun _ => rfl⟩
  | row data =>
    cases data with
    | none => cases h
    | some ds =>
      simp only [parseDatum]
      cases parseElements P type ds with
      | error e => exact .inl ⟨e, fun _ => rfl⟩
      | ok elements => exact .inr ⟨_, fun _ => rfl⟩

theorem not_rejectedNarrow {es : List Datum} (h : d.elements? = some es) :
    ¬ RejectedNarrow P type d := by
  rintro ⟨size, hsize⟩
  obtain ⟨c, hc, herror⟩ := hsize (size + 1) (by omega) elementBuffer 0
  rcases @parse_container P type d es h with ⟨e, he⟩ | ⟨value, hvalue⟩
  · rw [he] at hc
    cases hc
  · rw [hvalue] at hc
    have hstores := @putStrToStrBuffer_stores P elementBuffer 0 (size + 1) value
      (show 1 ≤ size + 1 by omega)
    change putStrToStrBuffer P false value (elementBuffer.charBuffer 0 (size + 1)) = .ok c at hc
    rw [hc] at hstores
    unfold Stores at hstores
    split at hstores
    · obtain ⟨e, he⟩ := hstores
      cases he
    · obtain ⟨c', hc', -, -, hok⟩ := hstores
      cases hc'
      exact hok herror

theorem rendersNarrow_simple (h : d.elements? = none) : RendersNarrow P type dash d := by
  unfold RendersNarrow
  cases d with
  | scalar value =>
    cases ht : datumText P type dash (.scalar value) with
    | none => exact .inl rfl
    | some t => exact (readsNarrow_iff fun b target n hn => scalar_stores ht hn).mpr rfl
  | timeSeries points => cases h
  | array ds => cases h
  | row data =>
    cases data with
    | none => exact .inr ⟨0, fun _ _ _ _ => ⟨_, rfl, by simp [Conversion.IsError]⟩⟩
    | some ds => cases h
  | null =>
    obtain ⟨text, hreading, hiff⟩ := @known_null P type dash _ rfl (by decide)
    refine (readsNarrow_iff hreading.stores).mpr (hiff.mpr ?_)
    simp [ElementsFit, Datum.Shown, Datum.inside]
  | unset => exact .inr ⟨0, fun _ _ _ _ => ⟨_, rfl, by simp [Conversion.IsError]⟩⟩

theorem rendersNarrow_container_iff {es : List Datum} (h : d.elements? = some es) :
    RendersNarrow P type dash d ↔
      (∃ t, datumText P type dash d = some t ∧ '\x00' ∉ t) ∧ ElementsFit P type dash d := by
  unfold RendersNarrow
  cases ht : datumText P type dash d with
  | none =>
    refine iff_of_false ?_ (by simp)
    rintro (hscalar | hrejected)
    · cases d with
      | scalar value => cases h
      | _ => cases hscalar
    · exact not_rejectedNarrow h hrejected
  | some t =>
    by_cases hzero : '\x00' ∈ t
    · refine iff_of_false (fun hread => ?_) (by simp [hzero])
      exact zero_not_mem_of_readsNarrow hread (zero_mem_codes hzero)
    · obtain ⟨text, hreading, hiff⟩ := known d t ht hzero
      simp only [readsNarrow_iff hreading.stores, hiff]
      simp [hzero]

theorem rendersNarrow_iff (P : Platform) (type : ScalarType) (dash : Bool) (d : Datum) :
    RendersNarrow P type dash d ↔ NarrowCondition P type dash d := by
  unfold NarrowCondition
  cases hes : d.elements? with
  | none => exact iff_of_true (rendersNarrow_simple hes) (.inl rfl)
  | some es =>
    rw [or_iff_right (by simp)]
    exact rendersNarrow_container_iff hes

/-! ## Buffers of `SQLWCHAR`s -/

theorem putStrToStrBuffer_wideReads_iff (value : List UInt8) {u : List Nat} :
    WideReads P (putStrToStrBuffer P true value) u ↔
      (wideReader P.wchar).read (beforeZero value) = some u := by
  obtain ⟨chars, bad, hdecode⟩ : ∃ chars bad, Utf8.decode (beforeZero value) = (chars, bad) :=
    ⟨_, _, rfl⟩
  have hzero : '\x00' ∉ chars := by
    have hchars : chars = (Utf8.decode value).1.takeWhile (· ≠ '\x00') := by
      rw [← Utf8.decode_takeWhile]
      exact (congrArg Prod.fst hdecode).symm
    intro hmem
    rw [hchars] at hmem
    simpa using List.mem_takeWhile_imp hmem
  have hput (b : ApplicationDataBuffer) (target : Addr) {n : Nat} (hn : 1 ≤ n) :=
    @putStrToStrBuffer_wide_eq P (b.wcharBuffer target P.wchar n) value _ rfl n rfl hn
  simp only [wideReader, hdecode, List.all_eq_true] at hput ⊢
  constructor
  · rintro ⟨size, hsize⟩
    obtain ⟨c, hc, hresult, hread⟩ := hsize (size + chars.length + 1) (by omega) elementBuffer 0
    rw [hput _ _ (by omega)] at hc
    obtain rfl := Except.ok.inj hc
    by_cases hwhole : (chars.takeWhile P.wchar.holds).take (size + chars.length + 1 - 1) ≠ chars ∨
        bad ≠ []
    · simp only [truncatedIf, hwhole, decide_true, if_true] at hresult
      cases hresult
    · obtain ⟨hchars, hbad⟩ := not_or.mp hwhole
      have hchars' := not_not.mp hchars
      obtain ⟨hholds, hlen⟩ := take_takeWhile_eq_iff.mp hchars'
      rw [if_pos ⟨not_not.mp hbad, hholds⟩]
      have hread' := hread (fun _ => 0) 0
      rw [hchars', wideText_singleton hholds hzero (by omega)] at hread'
      rw [hread']
  · intro hread
    split at hread
    · rename_i hall
      obtain rfl := Option.some.inj hread
      refine ⟨chars.length + 1, fun n hn b target => ⟨_, hput b target (by omega), ?_, ?_⟩⟩
      · have hstored := take_takeWhile_eq_iff.mpr ⟨hall.2, show chars.length ≤ n - 1 by omega⟩
        simp [truncatedIf, hstored, hall.1]
      · intro m base
        rw [take_takeWhile_eq_iff.mpr ⟨hall.2, show chars.length ≤ n - 1 by omega⟩]
        exact wideText_singleton hall.2 hzero (by omega) _ _ m base
    · cases hread

/-- The units of characters are those of a text only if each of its characters is one unit. -/
theorem holds_of_encode_eq {w : WcharSize} {chars : List Char}
    (h : w.encode t = chars.map Char.toNat) : ∀ c ∈ t, w.holds c = true := by
  intro c hc
  cases w with
  | four => rfl
  | two =>
    refine decide_eq_true (Nat.not_lt.mp fun hlt => ?_)
    have hunits : 55296 + (c.toNat - 65536) / 1024 ∈ WcharSize.two.units c := by
      simp only [WcharSize.units]
      rw [if_neg (by omega)]
      exact List.mem_cons_self
    have hmem : 55296 + (c.toNat - 65536) / 1024 ∈ WcharSize.two.encode t :=
      List.mem_flatMap.mpr ⟨c, hc, hunits⟩
    rw [h] at hmem
    -- A surrogate is no character.
    obtain ⟨c', -, hc'⟩ := List.mem_map.mp hmem
    have hmax : c.toNat < 1114112 := by
      rcases c.valid with hc | hc
      · exact Nat.lt_trans hc (by decide)
      · exact hc.2
    rcases c'.valid with hvalid | ⟨hvalid, -⟩
    · have hlow : c'.toNat < 55296 := hvalid
      omega
    · have hhigh : 57343 < c'.toNat := hvalid
      omega

theorem wideReads_text_iff (text : List Char) :
    WideReads P (putStrToStrBuffer P true (Utf8.encode text))
        (P.wchar.encode (text.takeWhile (· ≠ '\x00'))) ↔
      ∀ c ∈ text.takeWhile (· ≠ '\x00'), P.wchar.holds c = true := by
  rw [putStrToStrBuffer_wideReads_iff, beforeZero, Utf8.takeWhile_encode]
  constructor
  · intro h
    simp only [wideReader, Utf8.decode_encode, List.all_eq_true] at h
    split at h
    · rename_i hall
      exact hall.2
    · cases h
  · intro hholds
    rw [WcharSize.encode_of_holds hholds]
    exact (wideReader P.wchar).read_encode _ hholds

theorem wideReads_number (v : Int) :
    WideReads P (putStrToStrBuffer P true (Utf8.encode (Formatted.decimal v)))
      (P.wchar.encode (Formatted.decimal v)) := by
  have hplain := Plain.decimal v
  have htake : (Formatted.decimal v).takeWhile (· ≠ '\x00') = Formatted.decimal v := by
    rw [List.takeWhile_eq_self_iff]
    intro c hc
    exact decide_eq_true (hplain c hc).1
  have h := wideReads_text_iff (P := P) (Formatted.decimal v)
  rw [htake] at h
  exact h.mpr fun c hc => hplain.holds c hc

theorem wideReads_timed (value : TimedValue) :
    WideReads P (fun b => (value.call P).perform b) (P.wchar.encode (value.text P)) := by
  have hplain := value.plain_text P
  have hbytes := P.wchar.bytes_pos
  rw [WcharSize.encode_of_holds hplain.holds]
  refine ⟨32 + (value.text P).length, fun n hn b target => ?_⟩
  obtain ⟨a, hdata⟩ := CharValue.getData_wcharBuffer b target P.wchar n
  obtain ⟨length, resLen, hput⟩ := timed_wide_eq (P := P) value rfl hdata rfl
  have hflag : ¬ value.WideFlag P n := by
    have hroom : n ≤ n * P.wchar.bytes := Nat.le_mul_of_pos_right n hbytes
    unfold TimedValue.WideFlag
    split <;> omega
  refine ⟨_, hput, ?_, fun m base => ?_⟩
  · simp only [truncatedIf, hflag, decide_false]
    rfl
  · refine (putWcharText_wideText (P := P) hplain length hdata rfl (by omega) m base).trans ?_
    rw [List.take_of_length_le (by omega)]

theorem readsWide_timed {value : TimedValue} (h : timedText P value = some t) :
    WideReads P (fun b => (value.call P).perform b) (P.wchar.encode t) ∧
      ∀ c ∈ t, P.wchar.holds c = true := by
  unfold timedText at h
  split at h
  · obtain rfl := Option.some.inj h
    exact ⟨wideReads_timed value, (value.plain_text P).holds⟩
  · cases h

theorem readsWide_number {v : Int} (h : some (Formatted.decimal v) = some t) :
    WideReads P (putStrToStrBuffer P true (Utf8.encode (Formatted.decimal v))) (P.wchar.encode t) ∧
      ∀ c ∈ t, P.wchar.holds c = true := by
  obtain rfl := Option.some.inj h
  exact ⟨wideReads_number v, (Plain.decimal v).holds⟩

theorem readsWide_scalar_iff {value : String} (ht : scalarText P type value = some t) :
    ReadsWide P type (.scalar value) (P.wchar.encode t) ↔ ∀ c ∈ t, P.wchar.holds c = true := by
  -- The function for the type is the one for the buffers that `WideReads` is about.
  have hnumber {v : Int} {put : ApplicationDataBuffer → Except PutFault Conversion}
      (h : some (Formatted.decimal v) = some t)
      (hput : WideReads P put (P.wchar.encode t) ↔
        WideReads P (putStrToStrBuffer P true (Utf8.encode (Formatted.decimal v)))
          (P.wchar.encode t)) :
      WideReads P put (P.wchar.encode t) ↔ ∀ c ∈ t, P.wchar.holds c = true :=
    iff_of_true (hput.mpr (readsWide_number h).1) (readsWide_number h).2
  cases type with
  | varchar =>
    cases ht
    exact wideReads_text_iff value.toList
  | double =>
    simp only [scalarText] at ht
    obtain ⟨x, hx, rfl⟩ := Option.map_eq_some_iff.mp ht
    refine Iff.trans ?_ (wideReads_text_iff (P.reals.print x))
    simp only [ReadsWide, WideReads, parseDatum, parseScalarType, hx]
    exact Iff.rfl
  | boolean => exact hnumber ht Iff.rfl
  | integer => exact hnumber ht Iff.rfl
  | bigint => exact hnumber ht Iff.rfl
  | notSet => cases ht
  | unknown => cases ht
  | timestamp => exact iff_of_true (readsWide_timed ht).1 (readsWide_timed ht).2
  | date => exact iff_of_true (readsWide_timed ht).1 (readsWide_timed ht).2
  | time => exact iff_of_true (readsWide_timed ht).1 (readsWide_timed ht).2
  | intervalYearToMonth => exact iff_of_true (readsWide_timed ht).1 (readsWide_timed ht).2
  | intervalDayToSecond => exact iff_of_true (readsWide_timed ht).1 (readsWide_timed ht).2

theorem not_rejectedWide {es : List Datum} (h : d.elements? = some es) :
    ¬ RejectedWide P type d := by
  rintro ⟨size, hsize⟩
  obtain ⟨c, hc, herror⟩ := hsize (size + 1) (by omega) elementBuffer 0
  rcases @parse_container P type d es h with ⟨e, he⟩ | ⟨value, hvalue⟩
  · rw [he] at hc
    cases hc
  · rw [hvalue] at hc
    have hput := @putStrToStrBuffer_wide_eq P (elementBuffer.wcharBuffer 0 P.wchar (size + 1))
      value _ rfl (size + 1) rfl (by omega)
    obtain rfl := Except.ok.inj (hput.symm.trans hc)
    simp only [Conversion.IsError, truncatedIf] at herror
    split at herror <;> exact herror (by decide)

/-- A text that is read from a container has characters that are one unit, and no zero. -/
theorem usable_of_readsWide {es : List Datum} (h : d.elements? = some es)
    (hread : ReadsWide P type d (P.wchar.encode t)) : Usable (wideReader P.wchar) t := by
  rcases @parse_container P type d es h with ⟨e, he⟩ | ⟨value, hvalue⟩
  · obtain ⟨size, hsize⟩ := hread
    obtain ⟨c, hc, -⟩ := hsize size le_rfl elementBuffer 0
    rw [he] at hc
    cases hc
  · have hput : parseDatum P type d = putString P value := funext hvalue
    have hstring : WideReads P (putStrToStrBuffer P true value) (P.wchar.encode t) := by
      rw [ReadsWide, hput] at hread
      exact hread
    have hunits := (putStrToStrBuffer_wideReads_iff value).mp hstring
    simp only [wideReader] at hunits
    split at hunits
    · have hchars := Option.some.inj hunits
      have hholds := holds_of_encode_eq hchars.symm
      rw [WcharSize.encode_of_holds hholds] at hchars
      have heq : (Utf8.decode (beforeZero value)).1 = t :=
        List.map_injective_iff.mpr (fun c d h => Char.toNat_inj.mp h) hchars
      intro c hc
      refine ⟨?_, hholds c hc⟩
      rintro rfl
      rw [← heq, beforeZero, Utf8.decode_takeWhile] at hc
      simpa using List.mem_takeWhile_imp hc
    · cases hunits

/-- An element that fits, with a text that survives the way through its buffer. -/
def FitsWide (P : Platform) (type : ScalarType) (dash : Bool) (d : Datum) : Prop :=
  WhollyFits P type dash d ∧ ∀ t, datumText P type dash d = some t →
    P.ansiStringOnly = true ∨ ∀ c ∈ t, c.toNat < 128

theorem fitsWide_iff (d : Datum) (t : List Char) (ht : datumText P type dash d = some t)
    (husable : Usable (wideReader P.wchar) t) :
    (∃ element, elementOf P type d = .ok element ∧ (wideReader P.wchar).Reads element t) ↔
      FitsWide P type dash d := by
  have hzero : '\x00' ∉ t := fun hmem => (husable _ hmem).1 rfl
  have hwide (element : List UInt8) (helement : elementOf P type d = .ok element) :=
    wide_reads_element_iff ((known d).element_bound t ht hzero element helement)
      fun c hc => (husable c hc).2
  rw [FitsWide, ← (known d).reads_iff t ht hzero]
  constructor
  · rintro ⟨element, helement, hread⟩
    obtain ⟨hnarrow, hascii⟩ := (hwide element helement).mp hread
    refine ⟨⟨element, helement, hnarrow⟩, fun t' ht' => ?_⟩
    obtain rfl := Option.some.inj (ht.symm.trans ht')
    exact hascii
  · rintro ⟨⟨element, helement, hnarrow⟩, hascii⟩
    exact ⟨element, helement, (hwide element helement).mpr ⟨hnarrow, hascii t ht⟩⟩

theorem readsWide_container_iff {k : Brackets} {r : Except PutFault (List (List UInt8))}
    {texts : List (List Char)}
    (hparse : ∀ b, parseDatum P type d b =
      match r with
      | .error e => .error e
      | .ok pieces => putString P (k.enclose pieces) b)
    (hbound : ∀ pieces, r = .ok pieces → List.Forall₂ (PieceBound P) pieces texts)
    (husable : Usable (wideReader P.wchar) (enclosedChars k.before texts k.after)) :
    ReadsWide P type d (P.wchar.encode (enclosedChars k.before texts k.after)) ↔
      ∃ pieces, r = .ok pieces ∧ List.Forall₂ (wideReader P.wchar).Reads pieces texts := by
  rw [WcharSize.encode_of_holds fun c hc => (husable c hc).2, ReadsWide, funext hparse]
  cases r with
  | error e =>
    refine iff_of_false ?_ (by simp)
    rintro ⟨size, hsize⟩
    obtain ⟨c, hc, -⟩ := hsize size le_rfl elementBuffer 0
    cases hc
  | ok pieces =>
    have hpieces := hbound pieces rfl
    have hwhole := k.pieceBound hpieces
    have hreads := k.reads_iff (wideReader P.wchar)
      (hpieces.imp fun _ _ h => h.bounded_wide P.wchar)
    have hput := @putStrToStrBuffer_wideReads_iff P (k.enclose pieces)
      ((enclosedChars k.before texts k.after).map Char.toNat)
    rw [beforeZero_of_not_mem hwhole.zero_not_mem] at hput
    refine Iff.trans hput (hreads.trans ?_)
    simp

theorem readsWide_elements_iff {ds : List Datum} {k : Brackets}
    (hparse : ∀ b, parseDatum P type d b =
      match parseElements P type ds with
      | .error e => .error e
      | .ok pieces => putString P (k.enclose pieces) b)
    (htext : datumText P type dash d =
      (elementTexts P type dash ds).map fun texts => enclosedChars k.before texts k.after)
    (ht : datumText P type dash d = some t) (husable : Usable (wideReader P.wchar) t) :
    ReadsWide P type d (P.wchar.encode t) ↔ ∀ e ∈ ds, FitsWide P type dash e := by
  rw [htext] at ht
  obtain ⟨texts, htexts, rfl⟩ := Option.map_eq_some_iff.mp ht
  have hclean : ∀ t ∈ texts, Usable (wideReader P.wchar) t :=
    fun t ht c hc => husable c (mem_enclosedChars ht hc)
  have hbound := fun pieces => @elements_bound P type dash ds texts
    (fun e _ => (known e).element_bound) htexts (fun t ht hmem => (hclean t ht _ hmem).1 rfl) pieces
  rw [readsWide_container_iff hparse hbound husable]
  exact elements_read_iff (fun e _ => fitsWide_iff e) htexts hclean

theorem readsWide_points_iff {points : List (Option String × Option Datum)}
    (ht : datumText P type dash (.timeSeries points) = some t)
    (husable : Usable (wideReader P.wchar) t) :
    ReadsWide P type (.timeSeries points) (P.wchar.encode t) ↔
      ∀ time e, (time, some e) ∈ points → FitsWide P type dash e := by
  rw [datumText] at ht
  obtain ⟨texts, htexts, rfl⟩ := Option.map_eq_some_iff.mp ht
  have hclean : ∀ t ∈ texts, Usable (wideReader P.wchar) t :=
    fun t ht c hc => husable c (mem_enclosedChars (k := .square) ht hc)
  have hbound := fun pieces => @points_bound P type dash points texts
    (fun _ e _ => (known e).element_bound) htexts (fun t ht hmem => (hclean t ht _ hmem).1 rfl) pieces
  have hiff := readsWide_container_iff (k := .square) parse_timeSeries hbound husable
  refine Iff.trans hiff ?_
  refine points_read_iff (fun _ e _ => fitsWide_iff e) (fun _ e _ t ht husable element helement => ?_)
    htexts hclean
  exact ((known e).element_bound t ht (fun hmem => (husable _ hmem).1 rfl) element
    helement).piece.bounded_wide P.wchar

theorem read_dash : (wideReader P.wchar).read (beforeZero (ascii "-")) = some [45] := by
  have hdash : beforeZero (ascii "-") = Utf8.encode ['-'] := rfl
  rw [hdash]
  exact (wideReader P.wchar).read_encode ['-'] (Plain.holds (by simp [Plain]))

theorem readsWide_empty_iff (ht : datumText P type dash (.array []) = some t) :
    ReadsWide P type (.array []) (P.wchar.encode t) ↔ dash = true := by
  have hput := @putStrToStrBuffer_wideReads_iff P (ascii "-") (P.wchar.encode t)
  have hparse : parseDatum P type (.array []) = putString P (ascii "-") := by
    funext b
    simp only [parseDatum, parseElements, List.isEmpty_nil, if_true]
  have hencode {text : List Char} (h : Plain text) :
      P.wchar.encode text = text.map Char.toNat := WcharSize.encode_of_holds h.holds
  rw [read_dash, Option.some.injEq] at hput
  rw [ReadsWide, hparse]
  refine Iff.trans hput ?_
  cases dash with
  | true =>
    cases ht
    rw [if_pos rfl, hencode (by simp [Plain])]
    decide
  | false =>
    cases ht
    rw [if_neg (by decide), hencode (by simp [Plain])]
    decide

/-- A container with a usable text is read when all its elements fit. -/
theorem readsWide_container {es : List Datum} (hes : d.elements? = some es)
    (ht : datumText P type dash d = some t) (husable : Usable (wideReader P.wchar) t) :
    ReadsWide P type d (P.wchar.encode t) ↔ ElementsFit P type dash d ∧
      ∀ e ∈ es, ∀ t, datumText P type dash e = some t →
        P.ansiStringOnly = true ∨ ∀ c ∈ t, c.toNat < 128 := by
  have hlist {ds : List Datum} : (∀ e ∈ ds, FitsWide P type dash e) ↔
      (∀ e ∈ insideAll ds, ElementFits P type dash e) ∧
        ∀ e ∈ ds, ∀ t, datumText P type dash e = some t →
          P.ansiStringOnly = true ∨ ∀ c ∈ t, c.toNat < 128 := by
    rw [← forall_insideAll_iff]
    exact forall₂_and
  cases d with
  | scalar | null | unset => cases hes
  | array ds =>
    cases ds with
    | nil =>
      cases hes
      rw [readsWide_empty_iff ht]
      simp [ElementsFit, Datum.Shown, Datum.inside, insideAll]
    | cons d ds =>
      obtain rfl : d :: ds = es := Option.some.inj hes
      rw [readsWide_elements_iff (k := .square) parse_array_cons rfl ht husable, hlist]
      simp only [ElementsFit, Datum.Shown, Datum.inside, true_and]
  | row data =>
    cases data with
    | none => cases hes
    | some ds =>
      obtain rfl : ds = es := Option.some.inj hes
      rw [readsWide_elements_iff (k := .round) parse_row rfl ht husable, hlist]
      simp only [ElementsFit, Datum.Shown, Datum.inside, true_and]
  | timeSeries points =>
    obtain rfl : points.filterMap Prod.snd = es := Option.some.inj hes
    rw [readsWide_points_iff ht husable]
    simp only [ElementsFit, Datum.Shown, Datum.inside, true_and, ← forall_insidePoints_iff,
      List.mem_filterMap]
    constructor
    · intro h
      refine ⟨fun time e he => (h time e he).1, ?_⟩
      rintro e ⟨⟨time, value⟩, he, rfl⟩
      exact (h time e he).2
    · rintro ⟨hfit, hascii⟩ time e he
      exact ⟨hfit time e he, hascii e ⟨(time, some e), he, rfl⟩⟩

theorem readsWide_null : ReadsWide P type .null [45] := by
  obtain ⟨size, hsize⟩ := (putStrToStrBuffer_wideReads_iff (ascii "-")).mpr (read_dash (P := P))
  refine ⟨size, fun n hn b target => ?_⟩
  obtain ⟨c, hc, -, hread⟩ := hsize n hn b target
  refine ⟨{ c with result := .success }, ?_, rfl, hread⟩
  simp only [parseDatum]
  change (putStrToStrBuffer P true (ascii "-") (b.wcharBuffer target P.wchar n)).map _ = _
  rw [hc]
  rfl

theorem rendersWide_simple_iff (h : d.elements? = none) :
    RendersWide P type dash d ↔
      ∀ t, datumText P type dash d = some t → ∀ c ∈ t, P.wchar.holds c = true := by
  unfold RendersWide
  cases d with
  | scalar value =>
    cases ht : datumText P type dash (.scalar value) with
    | none => exact iff_of_true (.inl rfl) nofun
    | some t =>
      simp only [readsWide_scalar_iff ht, Option.some.injEq]
      simp
  | timeSeries points => cases h
  | array ds => cases h
  | row data =>
    cases data with
    | none =>
      refine iff_of_true (.inr ⟨0, fun _ _ _ _ => ⟨_, rfl, ?_⟩⟩) nofun
      simp [Conversion.IsError]
    | some ds => cases h
  | null =>
    have hholds : ∀ c ∈ ['-'], P.wchar.holds c = true := Plain.holds (by simp [Plain])
    have hencode : P.wchar.encode ['-'] = [45] := WcharSize.encode_of_holds hholds
    refine iff_of_true ?_ fun t ht => ?_
    · simp only [datumText, hencode]
      exact readsWide_null
    · obtain rfl := Option.some.inj ht
      exact hholds
  | unset =>
    refine iff_of_true (.inr ⟨0, fun _ _ _ _ => ⟨_, rfl, ?_⟩⟩) nofun
    simp [Conversion.IsError]

theorem rendersWide_iff (P : Platform) (type : ScalarType) (dash : Bool) (d : Datum) :
    RendersWide P type dash d ↔ WideCondition P type dash d := by
  unfold RendersWide WideCondition
  cases hes : d.elements? with
  | none => exact rendersWide_simple_iff hes
  | some es =>
    cases ht : datumText P type dash d with
    | none =>
      refine iff_of_false ?_ (by simp)
      rintro (hscalar | hrejected)
      · cases d with
        | scalar value => cases hes
        | _ => cases hscalar
      · exact not_rejectedWide hes hrejected
    | some t =>
      simp only [Option.some.injEq, exists_eq_left']
      constructor
      · intro hread
        have husable := usable_of_readsWide hes hread
        exact ⟨husable, (readsWide_container hes ht husable).mp hread⟩
      · rintro ⟨husable, hfit⟩
        exact (readsWide_container hes ht husable).mpr hfit

/-- Which values are read as the text put together from their elements, where `dash` says how an
empty array is shown. -/
theorem nested_rendered_iff (P : Platform) (type : ScalarType) (dash : Bool) (d : Datum) :
    (RendersNarrow P type dash d ↔ NarrowCondition P type dash d) ∧
      (RendersWide P type dash d ↔ WideCondition P type dash d) :=
  ⟨rendersNarrow_iff P type dash d, rendersWide_iff P type dash d⟩

/-- An array with a string of 1024 characters. -/
def longElement : Datum := .array [.scalar (String.ofList (List.replicate 1024 'a'))]

/-- The string loses its last character. -/
theorem nested_shortened : ¬ RendersNarrow .linux .varchar false longElement := by
  rw [rendersNarrow_iff]
  rintro (hnone | ⟨-, -, hinside⟩)
  · cases hnone
  · obtain ⟨-, t, ht, hlen, -⟩ := hinside (.scalar (String.ofList (List.replicate 1024 'a')))
      List.mem_cons_self
    obtain rfl := Option.some.inj ht
    have hplain : plain (String.ofList (List.replicate 1024 'a')) = List.replicate 1024 'a' := by
      rw [plain, String.toList_ofList, List.takeWhile_eq_self_iff]
      intro c hc
      rw [List.eq_of_mem_replicate hc]
      rfl
    rw [hplain, codes_locale (by decide), List.length_map, List.length_replicate] at hlen
    omega

end Large

end TrinoOdbc
