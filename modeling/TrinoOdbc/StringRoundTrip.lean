import TrinoOdbc.BufferInput
import TrinoOdbc.DescribeBuffers

/-!
# TrinoOdbc.StringRoundTrip

Text in a buffer of `char`s or of `SQLWCHAR`s, as the `Get` functions find it, and the strings that
`PutString` puts there and `GetString` gets back.
-/

namespace TrinoOdbc

open ByteMemory
open ApplicationDataBuffer

/-- `GetString` of a buffer of `char`s or of `SQLWCHAR`s. The length is a `size_t`. -/
def ApplicationDataBuffer.getInputString (P : Platform) (b : ApplicationDataBuffer) (m : Memory)
    (indicator maxLen : Int) : Except GetFault (List UInt8) :=
  (b.inputText P m indicator).map fun str =>
    (str.getD []).take (maxLen % 18446744073709551616).toNat

/-- A character buffer with room for `n` characters. -/
def TextRoom (P : Platform) (b : ApplicationDataBuffer) (n : Nat) : Prop :=
  (b.type = .char ∧ b.buflen = n) ∨ (b.type = .wchar ∧ b.buflen = n * P.wchar.bytes)

section Input

variable {P : Platform} {b : ApplicationDataBuffer} {base : Addr} {text : List Char} {n : Nat}

/-! ## Text in memory -/

/-- The length is no request for data at execution. -/
theorem getInputSize_stored {length : Nat} (hlength : (length : Int) < 2147483648)
    {indicator : Int} (hind : ∀ l ∈ b.storeLen length, indicator = l) :
    b.getInputSize P indicator = if b.getResLen = none then sqlNts else length := by
  cases hres : b.getResLen with
  | none => simp [getInputSize, isDataAtExec, hres]
  | some a =>
    obtain rfl := hind length (by simp [storeLen, hres])
    have hsame := toInt32_of_isInt32 (v := length) ⟨by omega, by omega⟩
    have hnot : b.isDataAtExec length = false := by
      simp only [isDataAtExec, hres, hsame, Bool.or_eq_false_iff, decide_eq_false_iff_not]
      omega
    simp [getInputSize, hnot, hres]

/-- Something was left out in front of a zero. -/
theorem mem_of_takeWhile_ne {α : Type*} [DecidableEq α] {zero : α} {xs : List α}
    (h : (xs.takeWhile (· ≠ zero)).length < xs.length) : zero ∈ xs := by
  by_contra hnone
  have hall : ∀ x ∈ xs, decide (x ≠ zero) = true := by
    intro x hx
    rw [decide_eq_true_eq]
    rintro rfl
    exact hnone hx
  rw [List.takeWhile_eq_self_iff.mpr hall] at h
  omega

theorem takeWhile_append_of_mem {α : Type*} [DecidableEq α] {zero : α} {xs ys : List α}
    (h : zero ∈ xs) : (xs ++ ys).takeWhile (· ≠ zero) = xs.takeWhile (· ≠ zero) := by
  rw [List.takeWhile_append, if_neg]
  intro hlen
  have hall := List.takeWhile_eq_self_iff.mp ((List.takeWhile_prefix _).eq_of_length hlen)
  simpa using hall zero h

/-- Bytes in memory with their zero. -/
theorem inputText_narrow (htype : b.type = .char) (hdata : b.getData = some base)
    {bytes : List UInt8} (hzero : 0 ∉ bytes) (hlen : bytes.length < b.buflen)
    (hpos : b.getResLen ≠ none → 0 < bytes.length) (hbound : bytes.length < 2147483648)
    {m : Memory} (hread : read m base (bytes ++ [0]).length = bytes ++ [0]) {indicator : Int}
    (hinput : b.getInputSize P indicator = if b.getResLen = none then sqlNts else bytes.length) :
    b.inputText P m indicator = .ok (some bytes) := by
  by_cases hres : b.getResLen = none
  · have htake : (read m base b.buflen).takeWhile (· ≠ 0) = bytes :=
      takeWhile_read hzero hlen hread
    have hmem : (0 : UInt8) ∈ read m base b.buflen :=
      mem_of_takeWhile_ne (by rwa [htake, length_read])
    have hnts : toInt32 sqlNts = sqlNts := rfl
    have hne : sqlNts ≠ 0 := by decide
    rw [inputText]
    simp only [hinput, hres, if_true, hne, if_false, htype, reduceCtorEq, hdata, sqlCharToString,
      hnts, hmem, htake, Except.map]
  · have hsame := toInt32_of_isInt32 (v := (bytes.length : Int)) ⟨by omega, by omega⟩
    have hpos := hpos hres
    have hne : (bytes.length : Int) ≠ 0 := by omega
    have hnts : (bytes.length : Int) ≠ sqlNts := by
      unfold sqlNts
      omega
    have hlt : (0 : Int) < bytes.length := by omega
    have hbytes : read m base bytes.length = bytes := by
      rw [List.length_append, read_add] at hread
      exact (List.append_inj hread (length_read ..)).1
    rw [inputText]
    simp only [hinput, hres, hne, if_false, htype, reduceCtorEq, hdata, sqlCharToString, hsame,
      hnts, hlt, if_true, Int.toNat_natCast, hbytes, Except.map]

/-- Any number of units of a text that is stored with its zero. -/
theorem takeWhile_readUnits_take {w : WcharSize} (hholds : ∀ c ∈ text, w.holds c = true)
    (hzero : '\x00' ∉ text) {m : Memory} {a : Int}
    (hread : read m a (wideBytes w (text ++ ['\x00'])).length = wideBytes w (text ++ ['\x00']))
    (k : Nat) : (w.readUnits m a k).takeWhile (· ≠ 0) = (text.take k).map Char.toNat := by
  rcases Nat.lt_or_ge text.length k with hlt | hge
  · rw [List.take_of_length_le (by omega)]
    exact takeWhile_readUnits hholds hzero hlt hread
  · have hne : ∀ u ∈ (text.take k).map Char.toNat, decide (u ≠ 0) = true := by
      intro u hu
      obtain ⟨c, hc, rfl⟩ := List.mem_map.mp hu
      rw [decide_eq_true_eq]
      intro hnul
      rw [show c = '\x00' from Char.toNat_inj.mp hnul] at hc
      exact hzero (List.mem_of_mem_take hc)
    have hbytes : read m a ((text.take k).length * w.bytes) = wideBytes w (text.take k) := by
      have hsplit : wideBytes w (text ++ ['\x00']) =
          wideBytes w (text.take k) ++ wideBytes w (text.drop k ++ ['\x00']) := by
        conv_lhs => rw [← List.take_append_drop k text, List.append_assoc]
        exact List.flatMap_append
      rw [hsplit, List.length_append, read_add] at hread
      have hfirst := (List.append_inj hread (by rw [length_read])).1
      rwa [length_wideBytes] at hfirst
    have hunits := readUnits_of_read w (fun c hc => hholds c (List.mem_of_mem_take hc)) hbytes
    rw [List.length_take, Nat.min_eq_left hge] at hunits
    rw [hunits, List.takeWhile_eq_self_iff.mpr hne]

/-- The part of a wide text that is read, of a length that is taken for bytes. -/
def shownPart (w : WcharSize) (counted : Bool) (length : Nat) (text : List Char) : List Char :=
  if counted then text.take (length / w.bytes) else text

/-- A wide text in memory with its zero. -/
theorem inputText_wide (htype : b.type = .wchar) (hdata : b.getData = some base)
    (hholds : ∀ c ∈ text, P.wchar.holds c = true) (hzero : '\x00' ∉ text) {length : Nat}
    (hbuflen : b.buflen = n * P.wchar.bytes) (hlen : text.length < n) (hpos : 0 < length)
    (hlength : length < 2147483648) {m : Memory}
    (hread : read m base (wideBytes P.wchar (text ++ ['\x00'])).length =
      wideBytes P.wchar (text ++ ['\x00'])) {indicator : Int}
    (hinput : b.getInputSize P indicator = if b.getResLen = none then sqlNts else length) :
    b.inputText P m indicator =
      .ok (some (Utf8.encode (shownPart P.wchar b.getResLen.isSome length text))) := by
  have hunits := takeWhile_readUnits_take hholds hzero hread
  by_cases hres : b.getResLen = none
  · have hroom : b.buflen / P.wchar.bytes = n := by
      rw [hbuflen]
      exact Nat.mul_div_cancel n P.wchar.bytes_pos
    have hall := hunits n
    rw [List.take_of_length_le (by omega)] at hall
    have hmem : 0 ∈ P.wchar.readUnits m base n :=
      mem_of_takeWhile_ne (by rwa [hall, length_readUnits, List.length_map])
    have hnts : toInt32 sqlNts = sqlNts := rfl
    have hne : sqlNts ≠ 0 := by decide
    have hbytes := toBytes_map text
    rw [inputText]
    simp only [hinput, hres, if_true, hne, if_false, htype, hdata, sqlWcharBufferToString, hnts,
      Option.map_some, hroom, Option.mem_some_iff, exists_eq_left', hmem, not_true_eq_false,
      and_false, sqlWcharUnitsToString, hall, hbytes, Except.map, Option.isSome_none, shownPart,
      Bool.false_eq_true]
  · have hsome : b.getResLen.isSome = true := Option.isSome_iff_ne_none.mpr hres
    have hsame := toInt32_of_isInt32 (v := (length : Int)) ⟨by omega, by omega⟩
    have hne : (length : Int) ≠ 0 := by omega
    have hnts : (length : Int) ≠ sqlNts := by
      unfold sqlNts
      omega
    have hlt : (0 : Int) < length := by omega
    have hcut : (P.wchar.readUnits m base (length / P.wchar.bytes)).take (length / P.wchar.bytes) =
        P.wchar.readUnits m base (length / P.wchar.bytes) :=
      List.take_of_length_le (by rw [length_readUnits])
    have hbytes := toBytes_map (text.take (length / P.wchar.bytes))
    rw [inputText]
    simp only [hinput, hres, if_false, hne, htype, if_true, hdata, sqlWcharBufferToString, hsame,
      hnts, Option.map_some, false_and, sqlWcharUnitsToString, hlt, Int.toNat_natCast, hcut, hunits,
      hbytes, Except.map, hsome, shownPart]

/-- A stored length of zero is no input. -/
theorem inputText_empty {m : Memory} {indicator : Int} (hres : b.getResLen ≠ none)
    (hind : ∀ l ∈ b.storeLen 0, indicator = l) : b.inputText P m indicator = .ok none := by
  have hinput := @getInputSize_stored P b 0 (by decide) indicator hind
  rw [if_neg hres] at hinput
  simp [inputText, hinput]

/-! ## Strings that are put -/

/-- The characters that a wide buffer keeps of a string. -/
def keptText (P : Platform) (n : Nat) (value : List UInt8) : List Char :=
  ((Utf8.decode (beforeZero value)).1.takeWhile P.wchar.holds).take (n - 1)

/-- What a buffer keeps of a string, as bytes that are read back. -/
def kept (P : Platform) (b : ApplicationDataBuffer) (n : Nat) (value : List UInt8) : List UInt8 :=
  if b.type = .wchar then Utf8.encode (keptText P n value)
  else (narrowed P (beforeZero value)).take (n - 1)

/-- The length that is stored for it. -/
def keptSize (P : Platform) (b : ApplicationDataBuffer) (n : Nat) (value : List UInt8) : Nat :=
  if b.type = .wchar then (keptText P n value).length * P.wchar.bytes
  else (kept P b n value).length

/-- Nothing is cut off. -/
def KeptWhole (P : Platform) (b : ApplicationDataBuffer) (n : Nat) (value : List UInt8) : Prop :=
  if b.type = .wchar then
    keptText P n value = (Utf8.decode (beforeZero value)).1 ∧
      (Utf8.decode (beforeZero value)).2 = []
  else (narrowed P (beforeZero value)).length < n

theorem zero_not_mem_keptText (value : List UInt8) : '\x00' ∉ keptText P n value := by
  intro hmem
  have hchars := (List.takeWhile_prefix _).subset (List.mem_of_mem_take hmem)
  rw [beforeZero, Utf8.decode_takeWhile] at hchars
  simpa using List.mem_takeWhile_imp hchars

theorem length_keptText_lt (hpos : 0 < n) (value : List UInt8) :
    (keptText P n value).length < n := by
  have hle : (keptText P n value).length ≤ n - 1 := List.length_take_le _ _
  omega

theorem length_beforeZero_le (value : List UInt8) : (beforeZero value).length ≤ value.length :=
  (List.takeWhile_prefix _).length_le

theorem length_decode_le (bytes : List UInt8) : (Utf8.decode bytes).1.length ≤ bytes.length := by
  have hlen := congrArg List.length (@Utf8.decode_eq bytes).1
  rw [List.length_append] at hlen
  have hchars := Utf8.length_le_encode (Utf8.decode bytes).1
  omega

theorem length_narrowed_le (bytes : List UInt8) : (narrowed P bytes).length ≤ bytes.length := by
  unfold narrowed
  split
  · exact le_rfl
  · rw [List.length_map]
    exact length_decode_le bytes

theorem length_keptText_le (value : List UInt8) : (keptText P n value).length ≤ value.length :=
  ((List.take_prefix _ _).trans (List.takeWhile_prefix _)).length_le.trans
    ((length_decode_le _).trans (length_beforeZero_le value))

theorem putStrToStrBuffer_kept_narrow (htype : b.type = .char) (hbuflen : b.buflen = n)
    (hdata : b.getData = some base) (hpos : 0 < n) {value : List UInt8}
    (htext : IsText P (beforeZero value)) (hbound : value.length < 2147483648) :
    ∃ c, b.putStrToStrBuffer P false value = .ok c ∧
      (c.result = .success ↔ KeptWhole P b n value) ∧
      c.resLen = b.storeLen (keptSize P b n value) ∧
      ∀ m, read (apply m base c.writes) base (kept P b n value ++ [0]).length =
        kept P b n value ++ [0] := by
  have hnot : ¬ b.type = .wchar := by rw [htype]; nofun
  have hle := (length_narrowed_le (P := P) _).trans (length_beforeZero_le value)
  have hput := putStrToStrBuffer_narrow_eq (P := P) value hdata (by omega)
  rw [if_pos htext, hbuflen] at hput
  refine ⟨_, hput, ?_, ?_, fun m => ?_⟩
  · rw [KeptWhole, if_neg hnot, truncatedIf]
    by_cases hfits : (narrowed P (beforeZero value)).length < n
    · simp [hfits]
    · simp [hfits]
  · rw [keptSize, if_neg hnot, kept, if_neg hnot, List.length_take, Nat.min_comm,
      toInt32_of_isInt32 ⟨by omega, by omega⟩]
  · rw [kept, if_neg hnot]
    exact @Conversion.stored_singleton _ none .success m base _ rfl

theorem putStrToStrBuffer_kept_wide (htype : b.type = .wchar)
    (hbuflen : b.buflen = n * P.wchar.bytes) (hdata : b.getData = some base) (hpos : 0 < n)
    {value : List UInt8} (hbound : value.length * P.wchar.bytes < 2147483648) :
    ∃ c, b.putStrToStrBuffer P true value = .ok c ∧
      (c.result = .success ↔ KeptWhole P b n value) ∧
      c.resLen = b.storeLen (keptSize P b n value) ∧
      ∀ m, read (apply m base c.writes) base
          (wideBytes P.wchar (keptText P n value ++ ['\x00'])).length =
        wideBytes P.wchar (keptText P n value ++ ['\x00']) := by
  have hput : b.putStrToStrBuffer P true value =
      .ok
        { writes := [(0, wideBytes P.wchar (keptText P n value ++ ['\x00']))]
          resLen := b.storeLen (toInt32 ((keptText P n value).length * P.wchar.bytes : Nat))
          result := truncatedIf (keptText P n value ≠ (Utf8.decode (beforeZero value)).1 ∨
            (Utf8.decode (beforeZero value)).2 ≠ []) } :=
    putStrToStrBuffer_wide_eq value hdata hbuflen hpos
  have hshort := Nat.mul_le_mul_right P.wchar.bytes (length_keptText_le (P := P) (n := n) value)
  refine ⟨_, hput, ?_, ?_, fun m => ?_⟩
  · rw [KeptWhole, if_pos htype, truncatedIf]
    by_cases hfits : keptText P n value = (Utf8.decode (beforeZero value)).1 ∧
        (Utf8.decode (beforeZero value)).2 = []
    · simp [hfits]
    · simp only [hfits, ne_eq, ← not_and_or, not_false_eq_true, decide_true, if_true, reduceCtorEq]
  · rw [keptSize, if_pos htype]
    rw [toInt32_of_isInt32 ⟨by omega, by omega⟩]
  · exact @Conversion.stored_singleton _ none .success m base _ rfl

/-- What is found of a string that is put: `none` for an empty one whose length is stored. -/
def foundText (P : Platform) (b : ApplicationDataBuffer) (n : Nat) (value : List UInt8) :
    Option (List UInt8) :=
  if kept P b n value = [] ∧ b.getResLen ≠ none then none else some (kept P b n value)

theorem inputText_kept_narrow (htype : b.type = .char) (hbuflen : b.buflen = n)
    (hdata : b.getData = some base) (hpos : 0 < n) {value : List UInt8}
    (hbound : value.length < 2147483648) {m : Memory}
    (hread : read m base (kept P b n value ++ [0]).length = kept P b n value ++ [0])
    {indicator : Int} (hind : ∀ l ∈ b.storeLen (keptSize P b n value), indicator = l) :
    b.inputText P m indicator = .ok (foundText P b n value) := by
  have hnot : ¬ b.type = .wchar := by rw [htype]; nofun
  have hkept : kept P b n value = (narrowed P (beforeZero value)).take (n - 1) := if_neg hnot
  have hsize : keptSize P b n value = (kept P b n value).length := if_neg hnot
  have hle := (length_narrowed_le (P := P) _).trans (length_beforeZero_le value)
  have hcut : (kept P b n value).length ≤ n - 1 ∧
      (kept P b n value).length ≤ (narrowed P (beforeZero value)).length := by
    rw [hkept]
    exact ⟨List.length_take_le _ _, List.length_take_le' _ _⟩
  rw [foundText]
  by_cases hnone : kept P b n value = [] ∧ b.getResLen ≠ none
  · rw [if_pos hnone]
    rw [hsize, hnone.1] at hind
    exact inputText_empty hnone.2 hind
  · have hinput := getInputSize_stored (P := P) (by omega) hind
    rw [if_neg hnone]
    refine inputText_narrow htype hdata ?_ (by omega) ?_ (by omega) hread (by rw [hinput, hsize])
    · rw [hkept]
      exact fun hmem => zero_not_mem_narrowed value (List.mem_of_mem_take hmem)
    · exact fun hres => List.length_pos_iff.mpr fun hempty => hnone ⟨hempty, hres⟩

theorem inputText_kept_wide (htype : b.type = .wchar) (hbuflen : b.buflen = n * P.wchar.bytes)
    (hdata : b.getData = some base) (hpos : 0 < n) {value : List UInt8}
    (hbound : keptSize P b n value < 2147483648) {m : Memory}
    (hread : read m base (wideBytes P.wchar (keptText P n value ++ ['\x00'])).length =
      wideBytes P.wchar (keptText P n value ++ ['\x00']))
    {indicator : Int} (hind : ∀ l ∈ b.storeLen (keptSize P b n value), indicator = l) :
    b.inputText P m indicator = .ok (foundText P b n value) := by
  have hkept : kept P b n value = Utf8.encode (keptText P n value) := if_pos htype
  have hsize : keptSize P b n value = (keptText P n value).length * P.wchar.bytes := if_pos htype
  have hempty : kept P b n value = [] ↔ keptText P n value = [] := by
    rw [hkept]
    exact ⟨fun h => Utf8.encode_injective (h.trans rfl), fun h => by rw [h]; rfl⟩
  have hholds : ∀ c ∈ keptText P n value, P.wchar.holds c = true := fun c hc =>
    List.mem_takeWhile_imp (List.mem_of_mem_take hc)
  have hinput := getInputSize_stored (P := P) (by omega) hind
  have htext {length : Nat} := @inputText_wide P b base _ n htype hdata hholds
    (zero_not_mem_keptText value) length hbuflen (length_keptText_lt hpos value)
  rw [foundText]
  by_cases hres : b.getResLen = none
  · rw [if_neg fun h => h.2 hres]
    -- The length of a text that is not counted does not matter.
    have hfound := @htext 1 (by decide) (by decide) m hread indicator
      (by rw [hinput, if_pos hres, if_pos hres])
    rwa [hres, shownPart, if_neg (by decide), ← hkept] at hfound
  · by_cases hnone : keptText P n value = []
    · rw [if_pos ⟨hempty.mpr hnone, hres⟩]
      rw [hsize, hnone, List.length_nil, Nat.zero_mul] at hind
      exact inputText_empty hres hind
    · rw [if_neg fun h => hnone (hempty.mp h.1)]
      have hlength := Nat.mul_pos (List.length_pos_iff.mpr hnone) P.wchar.bytes_pos
      have hfound := htext hlength (by omega) hread (by rw [hinput, hsize])
      rwa [Option.isSome_iff_ne_none.mpr hres, shownPart, if_pos rfl,
        Nat.mul_div_cancel _ P.wchar.bytes_pos, List.take_length, ← hkept] at hfound

theorem keptSize_le (value : List UInt8) :
    keptSize P b n value ≤ value.length * P.wchar.bytes := by
  unfold keptSize
  split
  · exact Nat.mul_le_mul_right _ (length_keptText_le value)
  · rename_i hnot
    rw [kept, if_neg hnot]
    have hlong := Nat.le_mul_of_pos_right value.length P.wchar.bytes_pos
    have hcut := List.length_take_le' (n - 1) (narrowed P (beforeZero value))
    have hle := (length_narrowed_le (P := P) _).trans (length_beforeZero_le value)
    omega

/-- What is put in a character buffer, and what is then found there: the part that is kept. -/
theorem putStrToStrBuffer_kept (hroom : TextRoom P b n) (hdata : b.getData = some base)
    (hpos : 0 < n) {value : List UInt8} (htext : b.type = .char → IsText P (beforeZero value))
    (hbound : value.length * P.wchar.bytes < 2147483648) :
    ∃ c, b.putStrToStrBuffer P (b.type = .wchar) value = .ok c ∧
      (c.result = .success ↔ KeptWhole P b n value) ∧
      ∀ m indicator, (∀ l ∈ c.resLen, indicator = l) →
        b.getInputSize P indicator =
            (if b.getResLen = none then sqlNts else keptSize P b n value) ∧
          b.inputText P (apply m base c.writes) indicator = .ok (foundText P b n value) := by
  have hsize := @keptSize_le P b n value
  rcases hroom with ⟨htype, hbuflen⟩ | ⟨htype, hbuflen⟩
  · have hlong := Nat.le_mul_of_pos_right value.length P.wchar.bytes_pos
    obtain ⟨c, hput, hresult, hlen, hread⟩ :=
      putStrToStrBuffer_kept_narrow htype hbuflen hdata hpos (htext htype) (by omega)
    refine ⟨c, by rwa [decide_eq_false (by rw [htype]; nofun)], hresult, fun m indicator hind => ?_⟩
    rw [hlen] at hind
    exact ⟨getInputSize_stored (by omega) hind,
      inputText_kept_narrow htype hbuflen hdata hpos (by omega) (hread m) hind⟩
  · obtain ⟨c, hput, hresult, hlen, hread⟩ :=
      putStrToStrBuffer_kept_wide htype hbuflen hdata hpos hbound
    refine ⟨c, by rwa [decide_eq_true htype], hresult, fun m indicator hind => ?_⟩
    rw [hlen] at hind
    exact ⟨getInputSize_stored (by omega) hind,
      inputText_kept_wide htype hbuflen hdata hpos (by omega) (hread m) hind⟩

/-- The text of a buffer without an indicator, as the rows of a `DESCRIBE` are read. -/
theorem getString_of_getInputString (hroom : TextRoom P b n) (hdata : b.getData = some base)
    (hres : b.getResLen = none) {m : Memory} {indicator : Int} {maxLen : Nat}
    (hmax : b.buflen ≤ maxLen) (hbound : maxLen < 18446744073709551616) {text : List UInt8}
    (htext : b.getInputString P m indicator maxLen = .ok text) :
    b.getString P m maxLen = some text := by
  have hnts : toInt32 sqlNts = sqlNts := rfl
  have hne : sqlNts ≠ 0 := by decide
  have hinput : b.getInputSize P indicator = sqlNts := by simp [getInputSize, isDataAtExec, hres]
  have hmod : ((maxLen : Int) % 18446744073709551616).toNat = maxLen := by omega
  rcases hroom with ⟨htype, hbuflen⟩ | ⟨htype, hbuflen⟩
  · simp only [getInputString, inputText, hinput, hne, if_false, htype, reduceCtorEq, hdata,
      sqlCharToString, hnts, if_true, hmod] at htext
    split at htext
    · rename_i hzero
      obtain ⟨k, hk⟩ := Nat.exists_eq_add_of_le hmax
      have hstop : (read m base maxLen).takeWhile (· ≠ 0) =
          (read m base b.buflen).takeWhile (· ≠ 0) := by
        rw [hk, read_add]
        exact takeWhile_append_of_mem hzero
      have hlen : ((read m base b.buflen).takeWhile (· ≠ 0)).length ≤ b.buflen :=
        (List.takeWhile_prefix _).length_le.trans_eq (length_read ..)
      simp only [Except.map, Option.getD_some, Except.ok.injEq] at htext
      rw [List.take_of_length_le (by omega)] at htext
      simp only [getString, hdata, htype, hstop, htext]
    · cases htext
  · have hroom : b.buflen / P.wchar.bytes = n := by
      rw [hbuflen]
      exact Nat.mul_div_cancel n P.wchar.bytes_pos
    have hbytes := Nat.le_mul_of_pos_right n P.wchar.bytes_pos
    simp only [getInputString, inputText, hinput, hne, if_false, htype, if_true, hdata,
      sqlWcharBufferToString, hnts, hmod, Option.map_some, hroom, Option.mem_some_iff,
      exists_eq_left', true_and, sqlWcharUnitsToString] at htext
    split at htext
    · cases htext
    · rename_i hzero
      obtain ⟨k, hk⟩ := Nat.exists_eq_add_of_le (show n ≤ maxLen by omega)
      have hstop : (P.wchar.readUnits m base maxLen).takeWhile (· ≠ 0) =
          (P.wchar.readUnits m base n).takeWhile (· ≠ 0) := by
        rw [hk, readUnits_add]
        exact takeWhile_append_of_mem (not_not.mp hzero)
      simp only [getString, hdata, htype, sqlWcharUnitsToString, if_true, hstop]
      generalize toBytes _ = bytes at htext ⊢
      cases bytes with
      | none => cases htext
      | some bytes => exact congrArg some (Except.ok.inj htext)

/-! ## The round trip -/

/-- What a buffer can show of a string: a narrow one has the characters of the locale. -/
def inBuffer (P : Platform) (b : ApplicationDataBuffer) (value : List UInt8) : List UInt8 :=
  if b.type = .wchar then value else narrowed P value

theorem kept_starts (value : List UInt8) : kept P b n value <+: inBuffer P b value := by
  rw [kept, inBuffer]
  split
  · have hchars : keptText P n value <+: (Utf8.decode (beforeZero value)).1 :=
      (List.take_prefix _ _).trans (List.takeWhile_prefix _)
    obtain ⟨rest, hrest⟩ := hchars
    have hbytes := (@Utf8.decode_eq (beforeZero value)).1
    rw [← hrest, Utf8.encode_append, List.append_assoc] at hbytes
    exact List.IsPrefix.trans ⟨_, hbytes.symm⟩ (List.takeWhile_prefix _)
  · exact (List.take_prefix _ _).trans (narrowed_starts value)

theorem length_inBuffer_le (value : List UInt8) : (inBuffer P b value).length ≤ value.length := by
  unfold inBuffer
  split
  · exact le_rfl
  · exact length_narrowed_le value

/-- The bytes that a narrow buffer shows as they are. -/
theorem narrowed_eq_iff {value : List UInt8} (htext : IsText P value) :
    narrowed P value = value ↔ P.ansiStringOnly = true ∨ ∀ byte ∈ value, byte.toNat < 128 := by
  by_cases hansi : P.ansiStringOnly = true
  · simp [narrowed, hansi]
  · obtain ⟨chars, rfl⟩ : ∃ chars, value = Utf8.encode chars :=
      ⟨_, Utf8.decode_eq_nil_iff.mp (Prod.ext rfl (htext.resolve_left hansi))⟩
    rw [or_iff_right hansi]
    constructor
    · intro hsame
      rw [narrowed, if_neg hansi, Utf8.decode_encode] at hsame
      have hlen := congrArg List.length hsame
      rw [List.length_map] at hlen
      have hascii := Utf8.ascii_of_length hlen.ge
      intro byte hbyte
      rw [Utf8.encode_ascii hascii] at hbyte
      obtain ⟨c, hc, rfl⟩ := List.mem_map.mp hbyte
      have hlt := hascii c hc
      rw [UInt8.toNat_ofNat']
      omega
    · intro hbytes
      obtain ⟨chars', hchars, hascii⟩ := Utf8.exists_encode_of_ascii hbytes
      rw [← hchars]
      exact narrowed_ascii hascii

theorem beforeZero_eq_self_iff {value : List UInt8} : beforeZero value = value ↔ 0 ∉ value := by
  rw [beforeZero, List.takeWhile_eq_self_iff]
  refine ⟨fun h hmem => ?_, fun h byte hbyte => ?_⟩
  · simpa using h 0 hmem
  · rw [decide_eq_true_eq]
    rintro rfl
    exact h hbyte

/-- Nothing behind a zero is shown, so what has the length of the string has no zero. -/
theorem kept_eq_iff (hpos : 0 < n) {value : List UInt8}
    (htext : b.type ≠ .wchar → IsText P (beforeZero value)) :
    kept P b n value = value ↔ KeptWhole P b n value ∧ 0 ∉ value ∧
      (b.type ≠ .wchar → P.ansiStringOnly = true ∨ ∀ byte ∈ value, byte.toNat < 128) := by
  have hzero : (beforeZero value).length ≤ value.length := (List.takeWhile_prefix _).length_le
  have hbefore : beforeZero value = value ↔ value.length ≤ (beforeZero value).length :=
    ⟨fun h => by rw [h], fun h => (List.takeWhile_prefix _).eq_of_length_le h⟩
  rw [← beforeZero_eq_self_iff]
  by_cases hwide : b.type = .wchar
  · rw [kept, if_pos hwide, KeptWhole, if_pos hwide]
    have hbytes := (@Utf8.decode_eq (beforeZero value)).1
    have hparts : keptText P n value <+: (Utf8.decode (beforeZero value)).1 :=
      (List.take_prefix _ _).trans (List.takeWhile_prefix _)
    obtain ⟨rest, hrest⟩ := hparts
    constructor
    · intro hsame
      rw [← hrest, Utf8.encode_append, List.append_assoc, hsame] at hbytes
      have hlen := congrArg List.length hbytes
      rw [List.length_append, List.length_append] at hlen
      have hnone : Utf8.encode rest = [] := List.length_eq_zero_iff.mp (by omega)
      have hbad : (Utf8.decode (beforeZero value)).2 = [] := List.length_eq_zero_iff.mp (by omega)
      have hall : rest = [] := Utf8.encode_injective (hnone.trans rfl)
      rw [hall, List.append_nil] at hrest
      exact ⟨⟨hrest, hbad⟩, hbefore.mpr (by omega), fun hnot => absurd hwide hnot⟩
    · rintro ⟨⟨hchars, hbad⟩, hself, -⟩
      rw [hbad, List.append_nil, ← hchars, hself] at hbytes
      exact hbytes.symm
  · rw [kept, if_neg hwide, KeptWhole, if_neg hwide]
    have hnarrow := length_narrowed_le (P := P) (beforeZero value)
    have hiff := narrowed_eq_iff (htext hwide)
    constructor
    · intro hsame
      have hlen := congrArg List.length hsame
      rw [List.length_take] at hlen
      have hself : beforeZero value = value := hbefore.mpr (by omega)
      rw [hself] at hsame hiff hlen hnarrow ⊢
      rw [List.take_of_length_le (by omega)] at hsame
      exact ⟨by omega, rfl, fun _ => hiff.mp hsame⟩
    · rintro ⟨hlen, hself, hbytes⟩
      rw [hself] at hiff hlen ⊢
      rw [List.take_of_length_le (by omega)]
      exact hiff.mpr (hbytes hwide)

end Input

/-- **A string that is put and got back.** What comes back starts the string as the buffer has its
characters; it is the string exactly where all of it is kept and asked for, it has no zero, and in a
narrow buffer no character that is not in ASCII, unless strings are taken for ANSI.
A string that is no text is refused with an exception by a narrow buffer. -/
theorem string_iff (P : Platform) (b : ApplicationDataBuffer) (n : Nat) (hroom : TextRoom P b n)
    (hpos : 0 < n) (base : Addr) (hdata : b.getData = some base) (value : List UInt8)
    (hbound : value.length * P.wchar.bytes < 2147483648) :
    (b.type ≠ .wchar ∧ ¬ IsText P (beforeZero value) ∧
        b.putString P value = .error .exception) ∨
      ∃ c, b.putString P value = .ok c ∧
        ∀ m indicator maxLen, (∀ l ∈ c.resLen, indicator = l) →
          ∃ back, b.getInputString P (apply m base c.writes) indicator maxLen = .ok back ∧
            back <+: inBuffer P b value ∧
            (back = value ↔
              c.result = .success ∧ value.length ≤ maxLen % 18446744073709551616 ∧ 0 ∉ value ∧
                (b.type ≠ .wchar →
                  P.ansiStringOnly = true ∨ ∀ byte ∈ value, byte.toNat < 128)) := by
  have hput : b.putString P value = b.putStrToStrBuffer P (b.type = .wchar) value := by
    rcases hroom with ⟨htype, -⟩ | ⟨htype, -⟩ <;> rw [putString, htype] <;> rfl
  by_cases htext : b.type ≠ .wchar → IsText P (beforeZero value)
  · obtain ⟨c, hc, hresult, hfound⟩ := putStrToStrBuffer_kept hroom hdata hpos
      (fun htype => htext (by rw [htype]; decide)) hbound
    refine .inr ⟨c, hput.trans hc, fun m indicator maxLen hind => ?_⟩
    obtain ⟨-, hinput⟩ := hfound m indicator hind
    have hget : (foundText P b n value).getD [] = kept P b n value := by
      rw [foundText]
      split
      · rename_i hnone
        exact hnone.1.symm
      · rfl
    refine ⟨(kept P b n value).take (maxLen % 18446744073709551616).toNat, ?_,
      (List.take_prefix _ _).trans (kept_starts value), ?_⟩
    · rw [getInputString, hinput, Except.map, hget]
    · have hiff := kept_eq_iff hpos htext
      rw [hresult]
      constructor
      · intro hsame
        have hshort := (kept_starts (P := P) (b := b) (n := n) value).length_le.trans
          (length_inBuffer_le value)
        have hlen := congrArg List.length hsame
        rw [List.length_take] at hlen
        rw [List.take_of_length_le (by omega)] at hsame
        obtain ⟨hwhole, hzero, hbytes⟩ := hiff.mp hsame
        exact ⟨hwhole, by omega, hzero, hbytes⟩
      · rintro ⟨hwhole, hlen, hzero, hbytes⟩
        rw [hiff.mpr ⟨hwhole, hzero, hbytes⟩, List.take_of_length_le (by omega)]
  · obtain ⟨hnot, hbad⟩ := Classical.not_imp.mp htext
    have hbuflen : b.buflen = n := by
      rcases hroom with ⟨-, hbuflen⟩ | ⟨htype, -⟩
      · exact hbuflen
      · exact absurd htype hnot
    have hrefused := putStrToStrBuffer_narrow_eq (P := P) value hdata (by omega)
    rw [if_neg hbad] at hrefused
    exact .inl ⟨hnot, hbad, by rw [hput, decide_eq_false hnot, hrefused]⟩

/-- An accent is lost in a narrow buffer that has room for it. -/
theorem string_accent :
    let b : ApplicationDataBuffer :=
      { type := .char, buffer := some 0, buflen := 8, reslen := none }
    ∃ c, b.putString Platform.linux (Utf8.encode ['n', 'é']) = .ok c ∧
      ∃ back, b.getInputString Platform.linux (apply (fun _ => 0) 0 c.writes) 0 sqlNts = .ok back ∧
        back <+: [110, 63] ∧ back ≠ Utf8.encode ['n', 'é'] := by
  intro b
  obtain ⟨-, hbad, -⟩ | ⟨c, hput, hback⟩ :=
    string_iff Platform.linux b 8 (.inl ⟨rfl, rfl⟩) (by decide) 0 rfl (Utf8.encode ['n', 'é'])
      (by decide)
  · exact absurd (isText_encode _) hbad
  · have hnone : c.resLen = none := by
      have hsame := putStrToStrBuffer_narrow_eq (P := Platform.linux) (b := b)
        (Utf8.encode ['n', 'é']) rfl (by decide)
      rw [if_pos (isText_encode _)] at hsame
      rw [Except.ok.inj (hput.symm.trans hsame)]
      rfl
    obtain ⟨back, hget, hprefix, hiff⟩ := hback (fun _ => 0) 0 sqlNts (by simp [hnone])
    have hshown : inBuffer Platform.linux b (Utf8.encode ['n', 'é']) = [110, 63] := by
      rw [inBuffer, if_neg (by decide), narrowed, if_neg (by decide), Utf8.decode_encode]
      rfl
    rw [hshown] at hprefix
    refine ⟨c, hput, back, hget, hprefix, fun hsame => ?_⟩
    obtain ⟨-, -, -, hbytes⟩ := hiff.mp hsame
    exact absurd ((hbytes (by decide)).resolve_left (by decide) 195 (by decide)) (by decide)

end TrinoOdbc
