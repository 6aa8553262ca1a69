import TrinoOdbc.Utf8
import Mathlib.Data.List.TakeWhile

/-!
# TrinoOdbc.WideText

`CopyUtf8StringToWcharString` and `CopyStringToBuffer`: UTF-8 text in a buffer of `SQLWCHAR`s.

A `SQLWCHAR` that is stored is the character it stands for. `copyUtf8_buffer` says what of a text is
stored, and what the flag says about it.
-/

namespace TrinoOdbc

/-- The size of a `SQLWCHAR`. -/
inductive WcharSize where
  | two | four

namespace WcharSize

def bytes : WcharSize → Nat
  | .two => 2
  | .four => 4

/-- The characters that are one `SQLWCHAR`: `codecvt_utf8< char16_t >` knows no surrogates. -/
def holds : WcharSize → Char → Bool
  | .two, c => c.toNat ≤ 65535
  | .four, _ => true

/-- The units of a character in text, a surrogate pair where one of two bytes does not hold it. -/
def units : WcharSize → Char → List Nat
  | .two, c =>
    if c.toNat ≤ 65535 then [c.toNat]
    else [55296 + (c.toNat - 65536) / 1024, 56320 + (c.toNat - 65536) % 1024]
  | .four, c => [c.toNat]

def encode (w : WcharSize) (chars : List Char) : List Nat := chars.flatMap w.units

theorem bytes_pos (w : WcharSize) : 0 < w.bytes := by
  cases w <;> decide

theorem units_of_holds {w : WcharSize} {c : Char} (h : w.holds c = true) : w.units c = [c.toNat] := by
  cases w with
  | two => exact if_pos (of_decide_eq_true h)
  | four => rfl

theorem encode_of_holds {w : WcharSize} {chars : List Char} (h : ∀ c ∈ chars, w.holds c = true) :
    w.encode chars = chars.map Char.toNat := by
  induction chars with
  | nil => rfl
  | cons c chars ih =>
    rw [encode, List.flatMap_cons, ← encode, units_of_holds (h c List.mem_cons_self),
      ih fun d hd => h d (List.mem_cons_of_mem c hd)]
    rfl

theorem length_le_encode (w : WcharSize) (chars : List Char) :
    chars.length ≤ (w.encode chars).length := by
  induction chars with
  | nil => exact le_rfl
  | cons c chars ih =>
    have hone : 1 ≤ (w.units c).length := by
      cases w with
      | two => by_cases hc : c.toNat ≤ 65535 <;> simp [units, hc]
      | four => exact le_rfl
    rw [encode, List.flatMap_cons, ← encode, List.length_append, List.length_cons]
    omega

end WcharSize

/-- What is written to the buffer from its start, the returned length, and the flag. -/
structure CopyResult where
  written : List Char
  length : Nat
  isTruncated : Bool

/-- `codecvt_utf8::in`: the characters converted, and the rest of the input. It stops where the
output is full, and at a character it cannot convert. -/
def codecvtIn (w : WcharSize) : Nat → List Char → List Char × List Char
  | 0, chars => ([], chars)
  | _ + 1, [] => ([], [])
  | room + 1, c :: chars =>
    if w.holds c then
      let (converted, rest) := codecvtIn w room chars
      (c :: converted, rest)
    else ([], c :: chars)

/-- The characters that fit in front of the final zero. Less than one character in all wraps around
to the largest `size_t`. -/
def charRoom (w : WcharSize) (outBufferLenBytes : Nat) : Nat :=
  match outBufferLenBytes / w.bytes with
  | 0 => 18446744073709551615
  | n + 1 => n

/-- `CopyUtf8StringToWcharString`. The flag is left as it was when nothing is done. Without a buffer
there is room for a character for each byte. -/
def copyUtf8StringToWcharString (w : WcharSize) (inBuffer : String) (outBuffer : Bool)
    (outBufferLenBytes : Nat) (isTruncated : Bool) : CopyResult :=
  if outBuffer ∧ outBufferLenBytes = 0 then { written := [], length := 0, isTruncated }
  else
    let chars := inBuffer.toList.takeWhile (· ≠ '\x00')
    let outBufferLenChars :=
      if outBuffer then charRoom w outBufferLenBytes else (String.ofList chars).utf8ByteSize
    let (converted, rest) := codecvtIn w outBufferLenChars chars
    { written := if outBuffer then converted ++ ['\x00'] else []
      length := converted.length * w.bytes
      isTruncated := rest ≠ [] }

/-- `CopyUtf8StringToWcharString` of bytes that may end in something else than a character, which
`codecvt_utf8` reports. -/
def copyUtf8BytesToWcharString (w : WcharSize) (inBuffer : List UInt8) (outBuffer : Bool)
    (outBufferLenBytes : Nat) (isTruncated : Bool) : CopyResult :=
  if outBuffer ∧ outBufferLenBytes = 0 then { written := [], length := 0, isTruncated }
  else
    let bytes := inBuffer.takeWhile (· ≠ 0)
    let (chars, bad) := Utf8.decode bytes
    let outBufferLenChars := if outBuffer then charRoom w outBufferLenBytes else bytes.length
    let (converted, rest) := codecvtIn w outBufferLenChars chars
    { written := if outBuffer then converted ++ ['\x00'] else []
      length := converted.length * w.bytes
      isTruncated := rest ≠ [] ∨ bad ≠ [] }

/-- `CopyStringToBuffer`, with the length in bytes or in characters. -/
def copyStringToBuffer (w : WcharSize) (str : String) (buf : Bool) (buflen : Nat)
    (isLenInBytes : Bool) : CopyResult :=
  let r := copyUtf8StringToWcharString w str buf
    (if isLenInBytes then buflen else buflen * w.bytes) false
  { r with length := if isLenInBytes then r.length else r.length / w.bytes }

/-- The string without a zero and what comes after it. -/
def plain (s : String) : List Char := s.toList.takeWhile (· ≠ '\x00')

/-- The strings that can be stored with a final zero in `n` characters. -/
def Storable (w : WcharSize) (n : Nat) (s : String) : Prop :=
  '\x00' ∉ s.toList ∧ (∀ c ∈ s.toList, w.holds c = true) ∧ s.toList.length < n

/-! ## Copying -/

section Copy

variable {w : WcharSize}

theorem codecvtIn_append (room : Nat) : ∀ chars,
    (codecvtIn w room chars).1 ++ (codecvtIn w room chars).2 = chars := by
  induction room with
  | zero => intro chars; rfl
  | succ room ih =>
    intro chars
    cases chars with
    | nil => rfl
    | cons c chars =>
      simp only [codecvtIn]
      split
      · exact congrArg (c :: ·) (ih chars)
      · rfl

theorem codecvtIn_fst (room : Nat) : ∀ chars,
    (codecvtIn w room chars).1 = (chars.takeWhile w.holds).take room := by
  induction room with
  | zero => intro chars; rfl
  | succ room ih =>
    intro chars
    cases chars with
    | nil => rfl
    | cons c chars =>
      simp only [codecvtIn]
      split
      · rename_i hholds
        rw [List.takeWhile_cons_of_pos hholds, List.take_succ_cons, ih]
      · rename_i hholds
        rw [List.takeWhile_cons_of_neg hholds]
        rfl

theorem codecvtIn_snd_eq_nil_iff (room : Nat) (chars : List Char) :
    (codecvtIn w room chars).2 = [] ↔ (codecvtIn w room chars).1 = chars := by
  have happend := codecvtIn_append (w := w) room chars
  constructor
  · intro h
    rwa [h, List.append_nil] at happend
  · intro h
    rw [h] at happend
    simpa using happend

/-- The longest part of a string that can be stored. -/
def reach (w : WcharSize) (s : String) : List Char := (plain s).takeWhile w.holds

theorem plain_starts (s : String) : plain s <+: s.toList := List.takeWhile_prefix _

theorem take_reach_starts (s : String) (k : Nat) : (reach w s).take k <+: s.toList :=
  (List.take_prefix k _).trans ((List.takeWhile_prefix _).trans (plain_starts s))

theorem plain_eq_iff {s : String} : plain s = s.toList ↔ '\x00' ∉ s.toList := by
  rw [plain, List.takeWhile_eq_self_iff]
  constructor
  · intro h hmem
    simpa using h _ hmem
  · intro h c hc
    rw [decide_eq_true_eq]
    rintro rfl
    exact h hc

theorem reach_eq_plain_iff {s : String} : reach w s = plain s ↔ ∀ c ∈ plain s, w.holds c = true :=
  List.takeWhile_eq_self_iff

theorem take_takeWhile_eq_iff {p : Char → Bool} {chars : List Char} {k : Nat} :
    (chars.takeWhile p).take k = chars ↔ (∀ c ∈ chars, p c = true) ∧ chars.length ≤ k := by
  rw [← List.takeWhile_eq_self_iff]
  constructor
  · intro h
    have hlen := congrArg List.length h
    have hle : (chars.takeWhile p).length ≤ chars.length := (List.takeWhile_prefix _).length_le
    rw [List.length_take] at hlen
    have hfull : (chars.takeWhile p).length ≤ k := by omega
    rw [List.take_of_length_le hfull] at h
    exact ⟨h, by omega⟩
  · rintro ⟨h, hlen⟩
    rw [h, List.take_of_length_le hlen]

theorem take_reach_eq_plain_iff {s : String} {k : Nat} :
    (reach w s).take k = plain s ↔
      (∀ c ∈ plain s, w.holds c = true) ∧ (plain s).length ≤ k := take_takeWhile_eq_iff

/-- The whole string is stored exactly when it can be. -/
theorem take_reach_eq_iff {s : String} {n : Nat} (hn : 0 < n) :
    (reach w s).take (n - 1) = s.toList ↔ Storable w n s := by
  constructor
  · intro h
    have hplain : plain s = s.toList := by
      refine (plain_starts s).eq_of_length_le ?_
      have hlen := congrArg List.length h
      have hle : (reach w s).length ≤ (plain s).length := (List.takeWhile_prefix _).length_le
      rw [List.length_take] at hlen
      omega
    obtain ⟨hholds, hlen⟩ := take_reach_eq_plain_iff.mp (h.trans hplain.symm)
    rw [hplain] at hholds hlen
    exact ⟨plain_eq_iff.mp hplain, hholds, by omega⟩
  · rintro ⟨hnul, hholds, hlen⟩
    have hplain := plain_eq_iff.mpr hnul
    rw [take_reach_eq_plain_iff.mpr ⟨by rwa [hplain], by rw [hplain]; omega⟩, hplain]

/-- The flag tells whether the whole string is stored, unless what is stored ends at a zero. -/
theorem take_reach_flag_iff {s : String} {k : Nat} :
    ((reach w s).take k = plain s ↔ (reach w s).take k = s.toList) ↔
      ((∀ c ∈ plain s, w.holds c = true) ∧ (plain s).length ≤ k → '\x00' ∉ s.toList) := by
  rw [← take_reach_eq_plain_iff, ← plain_eq_iff]
  constructor
  · intro h hplain
    rw [← hplain]
    exact h.mp hplain
  · intro h
    constructor
    · intro hplain
      rw [hplain]
      exact h hplain
    · intro hwhole
      have hle : ((reach w s).take k).length ≤ (plain s).length :=
        ((List.take_prefix k _).trans (List.takeWhile_prefix _)).length_le
      rw [hwhole] at hle ⊢
      exact ((plain_starts s).eq_of_length_le hle).symm

theorem charRoom_mul {n : Nat} (hn : 0 < n) : charRoom w (n * w.bytes) = n - 1 := by
  obtain ⟨k, rfl⟩ : ∃ k, n = k + 1 := ⟨n - 1, by omega⟩
  rw [charRoom, Nat.mul_div_cancel _ w.bytes_pos]
  rfl

theorem copyUtf8_buffer (s : String) {n : Nat} (hn : 0 < n) (isTruncated : Bool) :
    copyUtf8StringToWcharString w s true (n * w.bytes) isTruncated =
      { written := (reach w s).take (n - 1) ++ ['\x00']
        length := ((reach w s).take (n - 1)).length * w.bytes
        isTruncated := (reach w s).take (n - 1) ≠ plain s } := by
  have hpos : n * w.bytes ≠ 0 := (Nat.mul_pos hn w.bytes_pos).ne'
  have hsnd := codecvtIn_snd_eq_nil_iff (w := w) (n - 1) (plain s)
  have hfst := codecvtIn_fst (w := w) (n - 1) (plain s)
  unfold copyUtf8StringToWcharString
  simp only [hpos, and_false, if_false, if_true, charRoom_mul hn]
  change CopyResult.mk ((codecvtIn w (n - 1) (plain s)).1 ++ ['\x00'])
    ((codecvtIn w (n - 1) (plain s)).1.length * w.bytes)
    (decide ((codecvtIn w (n - 1) (plain s)).2 ≠ [])) = _
  simp only [ne_eq, hsnd, hfst]
  rfl

/-- What is stored of bytes, and what the flag says. -/
theorem copyUtf8Bytes_buffer (value : List UInt8) {n : Nat} (hn : 0 < n) (isTruncated : Bool) :
    copyUtf8BytesToWcharString w value true (n * w.bytes) isTruncated =
      let (chars, bad) := Utf8.decode (value.takeWhile (· ≠ 0))
      { written := (chars.takeWhile w.holds).take (n - 1) ++ ['\x00']
        length := ((chars.takeWhile w.holds).take (n - 1)).length * w.bytes
        isTruncated := (chars.takeWhile w.holds).take (n - 1) ≠ chars ∨ bad ≠ [] } := by
  have hpos : n * w.bytes ≠ 0 := (Nat.mul_pos hn w.bytes_pos).ne'
  have hsnd := codecvtIn_snd_eq_nil_iff (w := w) (n - 1) (Utf8.decode (value.takeWhile (· ≠ 0))).1
  have hfst := codecvtIn_fst (w := w) (n - 1) (Utf8.decode (value.takeWhile (· ≠ 0))).1
  unfold copyUtf8BytesToWcharString
  simp only [hpos, and_false, if_false, if_true, charRoom_mul hn, ne_eq, hsnd, hfst]

theorem copyStringToBuffer_written (s : String) {n : Nat} (hn : 0 < n) :
    (copyStringToBuffer w s true n false).written = (reach w s).take (n - 1) ++ ['\x00'] := by
  unfold copyStringToBuffer
  simp only [Bool.false_eq_true, if_false, copyUtf8_buffer s hn]

theorem copyStringToBuffer_bytes (s : String) {n : Nat} (hn : 0 < n) :
    (copyStringToBuffer w s true (n * w.bytes) true).written =
        (reach w s).take (n - 1) ++ ['\x00'] ∧
      (copyStringToBuffer w s true (n * w.bytes) true).isTruncated =
        decide ((reach w s).take (n - 1) ≠ plain s) := by
  unfold copyStringToBuffer
  simp only [if_true, copyUtf8_buffer s hn, and_self]

theorem utf8ByteSize_ofList (chars : List Char) :
    (String.ofList chars).utf8ByteSize = (Utf8.encode chars).length := by
  rw [← String.size_toByteArray, String.toByteArray_ofList, List.utf8Encode,
    List.size_toByteArray]
  rfl

/-- The bytes of a string are copied like the string. -/
theorem copyUtf8Bytes_encode (s : String) (outBuffer : Bool) (outBufferLenBytes : Nat)
    (isTruncated : Bool) :
    copyUtf8BytesToWcharString w (Utf8.encode s.toList) outBuffer outBufferLenBytes isTruncated =
      copyUtf8StringToWcharString w s outBuffer outBufferLenBytes isTruncated := by
  unfold copyUtf8BytesToWcharString copyUtf8StringToWcharString
  simp only [Utf8.takeWhile_encode, Utf8.decode_encode, utf8ByteSize_ofList, ne_eq,
    not_true_eq_false, or_false]

end Copy

end TrinoOdbc
