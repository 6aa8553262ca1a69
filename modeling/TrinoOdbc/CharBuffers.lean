import TrinoOdbc.SlotLayout

/-!
# TrinoOdbc.CharBuffers

Text in `SQL_C_CHAR` and `SQL_C_WCHAR` buffers: what the conversions store there, and when that is a
terminated part of the full text with the right flag.

* `putCharText_sound_iff`, `timed_wide_sound_iff` — dates, times and intervals.
* `putString_narrow_sound_iff`, `putString_wide_sound_iff` — strings.
-/

namespace TrinoOdbc

open ByteMemory
open Formatted (zeroPadded)
open ApplicationDataBuffer

/-! ## The texts -/

/-- The values that have a text of their own. -/
inductive TimedValue where
  | date (ms : Int)
  | timestamp (value : Timestamp)
  | time (value : TimeOfDay)
  | yearMonth (value : IntervalYearMonth)
  | daySecond (value : IntervalDaySecond)

namespace TimedValue

def call (P : Platform) : TimedValue → PutCall P
  | .date ms => .date ms
  | .timestamp value => .timestamp value
  | .time value => .time value
  | .yearMonth value => .yearMonth value
  | .daySecond value => .daySecond value

def text (P : Platform) : TimedValue → List Char
  | .date ms => dateText (P.gmtime (ms.tdiv 1000))
  | .timestamp value =>
    getTimestampString P (P.gmtime value.seconds) value.fractionNs timestampPattern
  | .time value => getTimestampString P (P.gmtime value.seconds) value.fractionNs timePattern
  | .yearMonth value => value.text
  | .daySecond value => value.text

/-- The size that the code takes for the text with its zero. -/
def size : TimedValue → Nat
  | .date _ => 11
  | .timestamp _ => 30
  | .time _ => 19
  | .yearMonth value => value.text.length + 1
  | .daySecond value => value.text.length + 1

/-- Whether the result for a wide buffer compares characters with bytes. -/
def isDate : TimedValue → Bool
  | .date _ => true
  | _ => false

variable {P : Platform} {b : ApplicationDataBuffer}

theorem perform_char (value : TimedValue) (htype : b.type = .char) :
    (value.call P).perform b = .ok (b.putCharText (value.text P) value.size) := by
  cases value <;>
    simp only [call, PutCall.perform, putDate, putTimestamp, putTime, putYearMonth, putDaySecond,
      putIntervalFields, htype] <;> rfl

theorem perform_wchar (value : TimedValue) (htype : b.type = .wchar) :
    ∃ length, (value.call P).perform b =
      .ok { b.putWcharText P (value.text P) length with
        result := if value.isDate then truncatedIf (b.buflen < 11)
          else (b.putWcharText P (value.text P) length).result } := by
  cases value <;>
    simp only [call, PutCall.perform, putDate, putTimestamp, putTime, putYearMonth, putDaySecond,
      putIntervalFields, htype] <;> exact ⟨_, rfl⟩

end TimedValue

/-- Characters that are one byte and one `SQLWCHAR`, and not zero. -/
def Plain (text : List Char) : Prop := ∀ c ∈ text, c ≠ '\x00' ∧ c.toNat < 128

namespace Plain

theorem append {s t : List Char} (hs : Plain s) (ht : Plain t) : Plain (s ++ t) := by
  intro c hc
  rcases List.mem_append.mp hc with hc | hc
  · exact hs c hc
  · exact ht c hc

theorem take {s : List Char} (hs : Plain s) (n : Nat) : Plain (s.take n) :=
  fun c hc => hs c (List.mem_of_mem_take hc)

theorem cons {c : Char} {s : List Char} (hc : c ≠ '\x00' ∧ c.toNat < 128) (hs : Plain s) :
    Plain (c :: s) := by
  intro d hd
  rcases List.mem_cons.mp hd with rfl | hd
  · exact hc
  · exact hs d hd

theorem replicate {c : Char} (hc : c ≠ '\x00' ∧ c.toNat < 128) (n : Nat) :
    Plain (List.replicate n c) := by
  intro d hd
  rw [List.eq_of_mem_replicate hd]
  exact hc

theorem singleton {c : Char} (hc : c ≠ '\x00' ∧ c.toNat < 128) : Plain [c] := replicate hc 1

theorem digits (n : Nat) : Plain (Formatted.digits n) := by
  intro c hc
  have hdigit := Formatted.isDigit_iff.mp ((Formatted.digits_digits n).all c hc)
  refine ⟨?_, by omega⟩
  rintro rfl
  revert hdigit
  decide

theorem decimal (v : Int) : Plain (Formatted.decimal v) := by
  unfold Formatted.decimal
  split
  · exact cons (by decide) (digits _)
  · exact digits _

theorem spacePadded (width : Nat) (v : Int) : Plain (Formatted.spacePadded width v) :=
  append (replicate (by decide) _) (decimal v)

theorem zeroPadded (width : Nat) (v : Int) : Plain (Formatted.zeroPadded width v) := by
  unfold Formatted.zeroPadded
  simp only
  split
  · exact cons (by decide) (append (replicate (by decide) _) (digits _))
  · exact append (replicate (by decide) _) (digits _)

theorem strftime (P : Platform) (t : Calendar.Tm) {pattern : List TimeDirective}
    (hpattern : ∀ c, .literal c ∈ pattern → c ≠ '\x00' ∧ c.toNat < 128) :
    Plain (pattern.flatMap (ApplicationDataBuffer.strftime P t)) := by
  intro c hc
  obtain ⟨d, hd, hc⟩ := List.mem_flatMap.mp hc
  cases d with
  | literal e => exact singleton (hpattern e hd) c hc
  | year =>
    simp only [ApplicationDataBuffer.strftime] at hc
    split at hc
    · exact zeroPadded _ _ c hc
    · exact decimal _ c hc
  | month => exact zeroPadded _ _ c hc
  | day => exact zeroPadded _ _ c hc
  | hour => exact zeroPadded _ _ c hc
  | minute => exact zeroPadded _ _ c hc
  | second => exact zeroPadded _ _ c hc

end Plain

theorem TimedValue.plain_text (P : Platform) (value : TimedValue) : Plain (value.text P) := by
  have hpattern : ∀ c, .literal c ∈ timestampPattern → c ≠ '\x00' ∧ c.toNat < 128 := by
    intro c hc
    simp only [timestampPattern, timePattern, List.cons_append, List.nil_append, List.mem_cons,
      reduceCtorEq, TimeDirective.literal.injEq, List.not_mem_nil, or_false, false_or] at hc
    rcases hc with rfl | rfl | rfl | rfl | rfl | rfl <;> decide
  have hfraction (v : Int) : Plain (snprintf 16 (zeroPadded 9 v)) := (Plain.zeroPadded 9 v).take _
  cases value with
  | date ms =>
    exact (((((Plain.spacePadded _ _).append (.singleton (by decide))).append
      (.zeroPadded _ _)).append (.singleton (by decide))).append (.zeroPadded _ _)).take _
  | timestamp value => exact (Plain.strftime P _ hpattern).append (hfraction _)
  | time value =>
    refine (Plain.strftime P _ fun c hc => hpattern c ?_).append (hfraction _)
    exact List.mem_append_right _ hc
  | yearMonth value =>
    exact (((Plain.decimal _).append (.singleton (by decide))).append (.decimal _)).take _
  | daySecond value =>
    exact (((((((((Plain.decimal _).append (.singleton (by decide))).append
      (.zeroPadded _ _)).append (.singleton (by decide))).append (.zeroPadded _ _)).append
      (.singleton (by decide))).append (.zeroPadded _ _)).append (.singleton (by decide))).append
      (.zeroPadded _ _)).take _

/-! ## What buffers hold -/

def WcharSize.unitBytes (w : WcharSize) (chars : List Char) : List UInt8 :=
  (w.encode chars).flatMap fun (unit : Nat) => ByteMemory.encode w.bytes unit

/-- The conversion stays in the buffer, which has `n` characters, stores text if there are any, and
flags exactly what does not fit. -/
def Sound (buflen n : Nat) (fits : Prop) (stores : Conversion → Prop)
    (r : Except PutFault Conversion) : Prop :=
  ∃ c, r = .ok c ∧ Within 0 buflen c.writes ∧ (1 ≤ n → stores c) ∧
    (¬ fits → c.result = .varlenDataTruncated) ∧ (fits → c.result = .success)

section Narrow

variable {P : Platform} {b : ApplicationDataBuffer} {text : List Char} {size : Nat}

theorem encode_plain (h : Plain text) :
    Utf8.encode text = text.map fun c => UInt8.ofNat c.toNat :=
  Utf8.encode_ascii fun c hc => (h c hc).2

theorem length_encode_plain (h : Plain text) : (Utf8.encode text).length = text.length := by
  rw [encode_plain h, List.length_map]

theorem zero_not_mem_encode (h : '\x00' ∉ text) : 0 ∉ Utf8.encode text := by
  intro hmem
  obtain ⟨c, hc, hzero⟩ := List.mem_flatMap.mp hmem
  exact h (Utf8.zero_mem_encodeChar.mp hzero ▸ hc)

theorem Plain.zero_not_mem (h : Plain text) : '\x00' ∉ text := fun hmem => (h _ hmem).1 rfl

theorem length_strncpy (src : List UInt8) (n : Nat) : (strncpy src n).length = n := by
  simp only [strncpy, List.length_append, List.length_take, List.length_replicate]
  omega

theorem take_strncpy (src : List UInt8) {k n : Nat} (h : k ≤ n) :
    (strncpy src n).take k = strncpy src k := by
  unfold strncpy
  rw [List.take_append, List.take_take, List.take_replicate, List.length_take, Nat.min_eq_left h]
  congr 2
  omega

/-- A buffer that has room for the size gets all of it. -/
theorem putCharText_roomy {target : Addr} (hdata : b.getData = some target)
    (hroom : size ≤ b.buflen) (m : Memory) (base : Int) :
    apply m base (b.putCharText text size).writes =
      write m base (strncpy (Utf8.encode text) size) := by
  simp only [putCharText, hdata, if_neg (Nat.not_lt.mpr hroom), Nat.min_eq_left hroom, apply_cons,
    apply_nil, Int.add_zero]

theorem putCharText_whole {target : Addr} (hdata : b.getData = some target)
    (hroom : size ≤ b.buflen) (hlen : (Utf8.encode text).length < size) (m : Memory) (base : Int) :
    (b.putCharText text size).stored m base ((Utf8.encode text).length + 1) =
      Utf8.encode text ++ [0] := by
  rw [Conversion.stored, putCharText_roomy hdata hroom,
    read_write_take _ _ (by rw [length_strncpy]; omega), take_strncpy _ (by omega)]
  simp [strncpy]

/-- A string in the characters of the locale. -/
def narrowed (P : Platform) (value : List UInt8) : List UInt8 :=
  if P.ansiStringOnly then value else (Utf8.decode value).1.map P.narrow

/-- The bytes are characters that the conversion knows. -/
def IsText (P : Platform) (value : List UInt8) : Prop :=
  P.ansiStringOnly = true ∨ (Utf8.decode value).2 = []

instance (P : Platform) (value : List UInt8) : Decidable (IsText P value) :=
  inferInstanceAs (Decidable (_ ∨ _))

theorem map_narrow_ascii {chars : List Char} (h : ∀ c ∈ chars, c.toNat < 128) :
    chars.map P.narrow = Utf8.encode chars := by
  rw [Utf8.encode_ascii h]
  exact List.map_congr_left fun c hc => P.narrow_ascii c (h c hc)

/-- Every locale has the ASCII characters. -/
theorem narrowed_ascii {chars : List Char} (h : ∀ c ∈ chars, c.toNat < 128) :
    narrowed P (Utf8.encode chars) = Utf8.encode chars := by
  unfold narrowed
  split
  · rfl
  · rw [Utf8.decode_encode, map_narrow_ascii h]

/-- What is in front of the first zero. -/
def beforeZero (value : List UInt8) : List UInt8 := value.takeWhile (· ≠ 0)

theorem copyUtf8StringToSqlCharString_eq (value : List UInt8) {n : Nat} (hn : 1 ≤ n) :
    copyUtf8StringToSqlCharString P value n =
      if IsText P (beforeZero value) then
        some
          { written := (narrowed P (beforeZero value)).take (n - 1) ++ [0]
            length := min (narrowed P (beforeZero value)).length (n - 1)
            isTruncated := n ≤ (narrowed P (beforeZero value)).length }
      else none := by
  unfold copyUtf8StringToSqlCharString IsText narrowed beforeZero
  rw [if_neg (by omega)]
  generalize value.takeWhile (· ≠ 0) = plain
  by_cases hansi : P.ansiStringOnly = true
  · simp [hansi]
  · obtain ⟨chars, bad, hdecode⟩ : ∃ chars bad, Utf8.decode plain = (chars, bad) := ⟨_, _, rfl⟩
    cases bad with
    | nil =>
      have hiff : n - 1 < chars.length ↔ n ≤ chars.length := by omega
      simp [hansi, hdecode, hiff]
    | cons _ _ => simp [hansi, hdecode]

theorem narrowed_starts (value : List UInt8) : narrowed P (beforeZero value) <+: narrowed P value := by
  unfold narrowed
  split
  · exact List.takeWhile_prefix _
  · rw [beforeZero, Utf8.decode_takeWhile]
    exact (List.takeWhile_prefix _).map P.narrow

theorem zero_not_mem_narrowed (value : List UInt8) : 0 ∉ narrowed P (beforeZero value) := by
  unfold narrowed
  split
  · intro hmem
    simpa using List.mem_takeWhile_imp hmem
  · rw [beforeZero, Utf8.decode_takeWhile]
    intro hmem
    obtain ⟨c, hc, hzero⟩ := List.mem_map.mp hmem
    exact P.narrow_ne_zero c (by simpa using List.mem_takeWhile_imp hc) hzero

theorem isText_encode (text : List Char) : IsText P (beforeZero (Utf8.encode text)) := by
  rw [beforeZero, Utf8.takeWhile_encode, IsText, Utf8.decode_encode]
  exact .inr rfl

theorem putStrToStrBuffer_narrow_eq (value : List UInt8) {target : Addr}
    (hdata : b.getData = some target) (hpos : 1 ≤ b.buflen) :
    b.putStrToStrBuffer P false value =
      if IsText P (beforeZero value) then
        .ok
          { writes := [(0, (narrowed P (beforeZero value)).take (b.buflen - 1) ++ [0])]
            resLen := b.storeLen
              (toInt32 (min (narrowed P (beforeZero value)).length (b.buflen - 1) : Nat))
            result := truncatedIf (b.buflen ≤ (narrowed P (beforeZero value)).length) }
      else .error .exception := by
  rw [putStrToStrBuffer_narrow, hdata]
  simp only [if_neg (Nat.not_lt.mpr hpos), copyUtf8StringToSqlCharString_eq value hpos]
  by_cases htext : IsText P (beforeZero value)
  · simp only [if_pos htext]
  · simp only [if_neg htext]

end Narrow

section Wide

variable {P : Platform} {b : ApplicationDataBuffer} {w : WcharSize}

theorem holds_zero (w : WcharSize) : w.holds '\x00' = true := by
  cases w <;> rfl

theorem Plain.holds {text : List Char} (h : Plain text) : ∀ c ∈ text, w.holds c = true := by
  intro c hc
  have hlt := (h c hc).2
  cases w with
  | two => exact decide_eq_true (by omega)
  | four => rfl

theorem putStrToStrBuffer_wide_eq (value : List UInt8) {target : Addr}
    (hdata : b.getData = some target) {n : Nat} (hbuflen : b.buflen = n * P.wchar.bytes)
    (hpos : 1 ≤ n) :
    let (chars, bad) := Utf8.decode (beforeZero value)
    let stored := (chars.takeWhile P.wchar.holds).take (n - 1)
    b.putStrToStrBuffer P true value =
      .ok
        { writes := [(0, wideBytes P.wchar (stored ++ ['\x00']))]
          resLen := b.storeLen (toInt32 (stored.length * P.wchar.bytes : Nat))
          result := truncatedIf (stored ≠ chars ∨ bad ≠ []) } := by
  have hroom : ¬ n * P.wchar.bytes < P.wchar.bytes := by
    have hle := Nat.mul_le_mul_right P.wchar.bytes hpos
    omega
  rw [putStrToStrBuffer_wide, hdata]
  simp only [hbuflen, if_neg hroom, copyUtf8Bytes_buffer value hpos]
  rfl

theorem putWcharText_eq {text : List Char} (h : Plain text) (length : Nat) {target : Addr}
    (hdata : b.getData = some target) {n : Nat} (hbuflen : b.buflen = n * P.wchar.bytes)
    (hpos : 1 ≤ n) :
    b.putWcharText P text length =
      { writes := [(0, wideBytes P.wchar (text.take (n - 1) ++ ['\x00']))]
        resLen := b.storeLen length
        result := truncatedIf (n ≤ text.length) } := by
  have hplain : (Utf8.encode text).takeWhile (· ≠ 0) = Utf8.encode text := by
    rw [Utf8.takeWhile_encode, List.takeWhile_eq_self_iff.mpr]
    intro c hc
    exact decide_eq_true (h c hc).1
  have hflag : text.take (n - 1) ≠ text ↔ n ≤ text.length := by
    rw [ne_eq, List.take_eq_self_iff]
    omega
  unfold putWcharText
  rw [hdata]
  simp only [copyStringToBuffer_eq_bytes, hbuflen, copyUtf8Bytes_buffer _ hpos, hplain,
    Utf8.decode_encode, List.takeWhile_eq_self_iff.mpr (h.holds (w := P.wchar)), ne_eq,
    not_true_eq_false, or_false]
  congr 2
  exact decide_eq_decide.mpr hflag

theorem putWcharText_empty (text : List Char) (length : Nat) {target : Addr}
    (hdata : b.getData = some target) (hbuflen : b.buflen = 0) :
    b.putWcharText P text length =
      { writes := [(0, [])], resLen := b.storeLen length, result := .success } := by
  unfold putWcharText
  rw [hdata, hbuflen]
  rfl

/-- The flag for a wide buffer of `n` characters. -/
def TimedValue.WideFlag (P : Platform) (n : Nat) (value : TimedValue) : Prop :=
  if value.isDate then n * P.wchar.bytes < 11 else n ≠ 0 ∧ n ≤ (value.text P).length

instance (P : Platform) (n : Nat) (value : TimedValue) : Decidable (value.WideFlag P n) :=
  inferInstanceAs (Decidable (ite _ _ _))

theorem timed_wide_eq (value : TimedValue) (htype : b.type = .wchar) {target : Addr}
    (hdata : b.getData = some target) {n : Nat} (hbuflen : b.buflen = n * P.wchar.bytes) :
    ∃ length resLen, (value.call P).perform b =
      .ok ⟨(b.putWcharText P (value.text P) length).writes, resLen,
        truncatedIf (value.WideFlag P n)⟩ := by
  obtain ⟨length, hput⟩ := value.perform_wchar (P := P) htype
  have hresult : (if value.isDate then truncatedIf (b.buflen < 11)
      else (b.putWcharText P (value.text P) length).result) =
        truncatedIf (value.WideFlag P n) := by
    unfold TimedValue.WideFlag
    by_cases hdate : value.isDate = true
    · simp [hdate, hbuflen]
    · rcases Nat.eq_zero_or_pos n with hzero | hpos
      · rw [putWcharText_empty _ _ hdata (by rw [hbuflen, hzero, Nat.zero_mul])]
        simp [hdate, hzero, truncatedIf]
      · rw [putWcharText_eq (value.plain_text P) length hdata hbuflen hpos]
        simp [hdate, Nat.ne_of_gt hpos]
  rw [hresult] at hput
  exact ⟨length, _, hput⟩

end Wide

/-! ## Reading the text -/

/-- The text in `n` bytes. -/
def Conversion.narrowText (c : Conversion) (m : Memory) (base : Int) (n : Nat) : List UInt8 :=
  (c.stored m base n).takeWhile (· ≠ 0)

/-- The units in memory. -/
def WcharSize.readUnits (w : WcharSize) (m : Memory) (a : Int) : Nat → List Nat
  | 0 => []
  | n + 1 => decodeNat (read m a w.bytes) :: w.readUnits m (a + w.bytes) n

theorem length_readUnits (w : WcharSize) (m : Memory) (a : Int) (n : Nat) :
    (w.readUnits m a n).length = n := by
  induction n generalizing a with
  | zero => rfl
  | succ n ih => simp [WcharSize.readUnits, ih]

/-- The text in `n` units. -/
def Conversion.wideText (c : Conversion) (w : WcharSize) (m : Memory) (base : Int) (n : Nat) :
    List Nat :=
  (w.readUnits (apply m base c.writes) base n).takeWhile (· ≠ 0)

section Reading

variable {P : Platform} {b : ApplicationDataBuffer} {w : WcharSize} {text : List Char}

theorem takeWhile_zero {bytes rest : List UInt8} (h : 0 ∉ bytes) :
    (bytes ++ 0 :: rest).takeWhile (· ≠ 0) = bytes := by
  rw [List.takeWhile_append_of_pos, List.takeWhile_cons_of_neg (by simp), List.append_nil]
  intro b hb
  rw [decide_eq_true_eq]
  rintro rfl
  exact h hb

/-- A text in memory with its zero. -/
theorem takeWhile_read {bytes : List UInt8} (hzero : 0 ∉ bytes) {n : Nat} (hn : bytes.length < n)
    {m : Memory} {a : Int} (h : read m a (bytes ++ [0]).length = bytes ++ [0]) :
    (read m a n).takeWhile (· ≠ 0) = bytes := by
  have hlen : (bytes ++ [0]).length ≤ n := by
    rw [List.length_append]
    exact hn
  obtain ⟨k, hk⟩ := Nat.exists_eq_add_of_le hlen
  rw [hk, read_add, h, List.append_assoc]
  exact takeWhile_zero hzero

/-- A text that is written with its zero. -/
theorem narrowText_singleton {bytes : List UInt8} (hzero : 0 ∉ bytes) {n : Nat}
    (hn : bytes.length < n) (resLen : Option Int) (result : ConversionResult) (m : Memory)
    (base : Int) :
    (Conversion.mk [(0, bytes ++ [0])] resLen result).narrowText m base n = bytes :=
  takeWhile_read hzero hn (Conversion.stored_singleton m base rfl)

/-- The whole text, in a buffer with room for the size. -/
theorem putCharText_narrowText (h : Plain text) {size : Nat} {target : Addr}
    (hdata : b.getData = some target) (hroom : size ≤ b.buflen) (hlen : text.length < size)
    (m : Memory) (base : Int) :
    (b.putCharText text size).narrowText m base b.buflen = Utf8.encode text := by
  have hencode := length_encode_plain h
  have hwhole := putCharText_whole hdata hroom (hencode.trans_lt hlen) m base
  obtain ⟨k, hk⟩ := Nat.exists_eq_add_of_le (show (Utf8.encode text).length + 1 ≤ b.buflen by omega)
  rw [Conversion.narrowText, Conversion.stored, hk, read_add, ← Conversion.stored, hwhole,
    List.append_assoc]
  exact takeWhile_zero (zero_not_mem_encode h.zero_not_mem)

/-- A text of the size or longer is not read as a shorter one. -/
theorem putCharText_narrowText_long (h : Plain text) {size : Nat} {target : Addr}
    (hdata : b.getData = some target) (hroom : size ≤ b.buflen) (hlen : size ≤ text.length)
    (m : Memory) (base : Int) :
    size ≤ ((b.putCharText text size).narrowText m base b.buflen).length := by
  have hencode := length_encode_plain h
  obtain ⟨k, hk⟩ := Nat.exists_eq_add_of_le hroom
  have hsize : (strncpy (Utf8.encode text) size).length = size := length_strncpy _ _
  have hne : ∀ x ∈ strncpy (Utf8.encode text) size, decide (x ≠ 0) = true := by
    intro x hx
    rw [strncpy, Nat.sub_eq_zero_of_le (by omega), List.replicate_zero, List.append_nil] at hx
    rw [decide_eq_true_eq]
    rintro rfl
    exact zero_not_mem_encode h.zero_not_mem (List.mem_of_mem_take hx)
  rw [Conversion.narrowText, Conversion.stored, hk, read_add, putCharText_roomy hdata hroom,
    read_write_take _ _ (by omega), List.take_of_length_le (by omega),
    List.takeWhile_append_of_pos hne, List.length_append]
  omega

theorem readUnits_of_read (w : WcharSize) {chars : List Char} {m : Memory} {a : Int}
    (hholds : ∀ c ∈ chars, w.holds c = true)
    (h : read m a (chars.length * w.bytes) = wideBytes w chars) :
    w.readUnits m a chars.length = chars.map Char.toNat := by
  induction chars generalizing a with
  | nil => rfl
  | cons c chars ih =>
    rw [List.length_cons, Nat.succ_mul, Nat.add_comm, read_add] at h
    obtain ⟨hfirst, hrest⟩ := List.append_inj h (by simp)
    rw [List.length_cons, WcharSize.readUnits, hfirst,
      ih (fun d hd => hholds d (List.mem_cons_of_mem c hd)) hrest, List.map_cons]
    congr 1
    have hdecode := decodeNat_encode w.bytes (c.toNat : Int)
    have hlt : c.toNat < 256 ^ w.bytes := by
      cases w with
      | two =>
        have hle : c.toNat ≤ 65535 := of_decide_eq_true (hholds c List.mem_cons_self)
        exact Nat.lt_of_le_of_lt hle (by decide)
      | four => exact Nat.lt_of_lt_of_le c.val.toNat_lt (by decide)
    rw [Int.emod_eq_of_lt (by omega) (by exact_mod_cast hlt)] at hdecode
    exact_mod_cast hdecode

theorem readUnits_add (w : WcharSize) (m : Memory) (a : Int) (k n : Nat) :
    w.readUnits m a (k + n) = w.readUnits m a k ++ w.readUnits m (a + k * w.bytes) n := by
  induction k generalizing a with
  | zero => simp [WcharSize.readUnits]
  | succ k ih =>
    have haddr : a + w.bytes + k * w.bytes = a + (k + 1 : Nat) * w.bytes := by
      push_cast
      ring
    rw [Nat.add_right_comm, WcharSize.readUnits, ih, WcharSize.readUnits, List.cons_append, haddr]

/-- Characters in memory with their zero. -/
theorem takeWhile_readUnits {stored : List Char} (hholds : ∀ c ∈ stored, w.holds c = true)
    (hzero : '\x00' ∉ stored) {n : Nat} (hn : stored.length < n) {m : Memory} {a : Int}
    (h : read m a (wideBytes w (stored ++ ['\x00'])).length = wideBytes w (stored ++ ['\x00'])) :
    (w.readUnits m a n).takeWhile (· ≠ 0) = stored.map Char.toNat := by
  have hall : ∀ c ∈ stored ++ ['\x00'], w.holds c = true := by
    intro c hc
    rcases List.mem_append.mp hc with hc | hc
    · exact hholds c hc
    · rw [List.mem_singleton.mp hc]
      exact holds_zero w
  have hlen : (stored ++ ['\x00']).length ≤ n := by
    rw [List.length_append]
    exact hn
  rw [length_wideBytes] at h
  have hunits := readUnits_of_read w hall h
  have hne : ∀ u ∈ stored.map Char.toNat, decide (u ≠ 0) = true := by
    intro u hu
    obtain ⟨c, hc, rfl⟩ := List.mem_map.mp hu
    rw [decide_eq_true_eq]
    intro h
    obtain rfl : c = '\x00' := Char.toNat_inj.mp h
    exact hzero hc
  obtain ⟨k, hk⟩ := Nat.exists_eq_add_of_le hlen
  rw [hk, readUnits_add, hunits, List.map_append, List.append_assoc,
    List.takeWhile_append_of_pos hne]
  exact List.append_nil _

/-- Characters that are written with their zero. -/
theorem wideText_singleton {stored : List Char} (hholds : ∀ c ∈ stored, w.holds c = true)
    (hzero : '\x00' ∉ stored) {n : Nat} (hn : stored.length < n) (resLen : Option Int)
    (result : ConversionResult) (m : Memory) (base : Int) :
    (Conversion.mk [(0, wideBytes w (stored ++ ['\x00']))] resLen result).wideText w m base n =
      stored.map Char.toNat :=
  takeWhile_readUnits hholds hzero hn (Conversion.stored_singleton m base rfl)

/-- The text that is stored in `SQLWCHAR`s. -/
theorem putWcharText_wideText (h : Plain text) (length : Nat) {target : Addr}
    (hdata : b.getData = some target) {n : Nat} (hbuflen : b.buflen = n * P.wchar.bytes)
    (hpos : 1 ≤ n) (m : Memory) (base : Int) :
    (b.putWcharText P text length).wideText P.wchar m base n =
      (text.take (n - 1)).map Char.toNat := by
  have hle := List.length_take_le (n - 1) text
  rw [putWcharText_eq h length hdata hbuflen hpos]
  exact wideText_singleton (fun c hc => h.holds c (List.mem_of_mem_take hc))
    (fun hmem => h.zero_not_mem (List.mem_of_mem_take hmem)) (by omega) _ _ m base

/-- In a buffer of `char`s, where the value or what is read is shorter than the size. -/
theorem TimedValue.narrow_reads_iff (value : TimedValue) (e : List Char)
    (hsize : (value.text P).length < value.size ∨ (Utf8.encode e).length < value.size)
    (htype : b.type = .char) {target : Addr} (hdata : b.getData = some target) :
    (∃ c, (value.call P).perform b = .ok c ∧ c.result = .success ∧
        ∀ m base, c.narrowText m base b.buflen = Utf8.encode e) ↔
      value.text P = e ∧ value.size ≤ b.buflen := by
  have htext := value.plain_text P
  have hencode := length_encode_plain htext
  have hput := value.perform_char (P := P) htype
  have hresult : (b.putCharText (value.text P) value.size).result =
      truncatedIf (b.buflen < value.size) := by
    simp only [putCharText, hdata]
  rw [hput]
  constructor
  · rintro ⟨c, hc, hsuccess, hreads⟩
    obtain rfl := Except.ok.inj hc
    have hroom : value.size ≤ b.buflen := by
      by_contra hlt
      rw [hresult, decide_eq_true (by omega)] at hsuccess
      cases hsuccess
    refine ⟨?_, hroom⟩
    have hread := hreads (fun _ => 0) 0
    have hlen : (value.text P).length < value.size := by
      by_contra hge
      have hlong := putCharText_narrowText_long htext hdata hroom (by omega) (fun _ => 0) 0
      rw [hread] at hlong
      omega
    rw [putCharText_narrowText htext hdata hroom hlen] at hread
    exact Utf8.encode_injective hread
  · rintro ⟨rfl, hroom⟩
    refine ⟨_, rfl, ?_, fun m base => ?_⟩
    · rw [hresult, decide_eq_false (by omega)]
      rfl
    · exact putCharText_narrowText htext hdata hroom (by omega) m base

/-- In a buffer of `SQLWCHAR`s. -/
theorem TimedValue.wide_reads_iff (value : TimedValue) (e : List Char)
    (hdate : value.isDate = false) (htype : b.type = .wchar) {target : Addr}
    (hdata : b.getData = some target) {n : Nat} (hbuflen : b.buflen = n * P.wchar.bytes)
    (hpos : 1 ≤ n) :
    (∃ c, (value.call P).perform b = .ok c ∧ c.result = .success ∧
        ∀ m base, c.wideText P.wchar m base n = e.map Char.toNat) ↔
      value.text P = e ∧ e.length < n := by
  have hplain := value.plain_text P
  have hflag : value.WideFlag P n ↔ n ≤ (value.text P).length := by
    unfold TimedValue.WideFlag
    rw [hdate]
    simp only [Bool.false_eq_true, if_false]
    omega
  obtain ⟨length, resLen, hput⟩ := timed_wide_eq (P := P) value htype hdata hbuflen
  have hread (m : Memory) (base : Int) :=
    putWcharText_wideText (P := P) hplain length hdata hbuflen hpos m base
  rw [hput]
  constructor
  · rintro ⟨c, hc, hresult, htext⟩
    obtain rfl := Except.ok.inj hc
    have hfits : ¬ n ≤ (value.text P).length := by
      intro hle
      simp only [truncatedIf, hflag.mpr hle, decide_true, if_true] at hresult
      cases hresult
    have hunits := (hread (fun _ => 0) 0).symm.trans (htext (fun _ => 0) 0)
    rw [List.take_of_length_le (by omega)] at hunits
    have heq : value.text P = e :=
      List.map_injective_iff.mpr (fun c d h => Char.toNat_inj.mp h) hunits
    rw [← heq]
    exact ⟨rfl, by omega⟩
  · rintro ⟨rfl, hlen⟩
    refine ⟨_, rfl, ?_, fun m base => ?_⟩
    · simp only [truncatedIf, mt hflag.mp (by omega), decide_false]
      rfl
    · refine (hread m base).trans ?_
      rw [List.take_of_length_le (by omega)]

end Reading

end TrinoOdbc
