import TrinoOdbc.CharBuffers
import TrinoOdbc.CursorNames

/-!
# TrinoOdbc.WideStrings

UTF-8 text in `SQLWCHAR`s and back: `CopyUtf8StringToSqlWcharString` and `ToWCHARVector` against
`SqlWcharToString`.

`wideStrings_roundTrip_iff` says which strings come back, whole or as the longest part that fits.
-/

namespace TrinoOdbc

open ByteMemory
open ApplicationDataBuffer (wideBytes)

/-! ## The functions -/

/-- `to_bytes` of the converter for 32-bit characters. It throws for a unit that is no character. -/
def toBytes (units : List Nat) : Option (List UInt8) :=
  if ∀ unit ∈ units, unit.isValidChar then some (Utf8.encode (units.map Char.ofNat)) else none

/-- `SQL_NTS`: the string ends with a zero. -/
def sqlNts : Int := -3

/-- `SqlWcharToString`, of units. `sqlStr` is what there is behind the pointer. -/
def sqlWcharUnitsToString (w : WcharSize) (sqlStr : Option (List Nat)) (sqlStrLen : Int)
    (isLenInBytes : Bool) : Option (List UInt8) :=
  match sqlStr with
  | none => toBytes []
  | some units =>
    if sqlStrLen = sqlNts then toBytes (units.takeWhile (· ≠ 0))
    else if 0 < sqlStrLen then
      let charsToCopy := if isLenInBytes then sqlStrLen.toNat / w.bytes else sqlStrLen.toNat
      toBytes ((units.take charsToCopy).takeWhile (· ≠ 0))
    else toBytes []

/-- `ToWCHARVector`: a vector of zeros is filled from its start, and cut behind the text. -/
def toWcharVector (w : WcharSize) (value : List UInt8) : List Nat :=
  let inBufferLenBytes := (value.takeWhile (· ≠ 0)).length
  let r := copyUtf8BytesToWcharString w value true ((inBufferLenBytes + 1) * w.bytes) false
  let outBuffer := r.written.map Char.toNat ++
    List.replicate (inBufferLenBytes + 1 - r.written.length) 0
  outBuffer.take (r.length / w.bytes + 1)

/-! ## What is to be read -/

/-- The longest part of a text, from its start, that takes at most `room` units. -/
structure LongestFitting (w : WcharSize) (room : Nat) (chars part : List Char) : Prop where
  starts : part <+: chars
  fits : (w.encode part).length ≤ room
  longest : ∀ other, other <+: chars → (w.encode other).length ≤ room → other.length ≤ part.length

def WcharSize.fitting (w : WcharSize) : Nat → List Char → List Char
  | _, [] => []
  | room, c :: chars =>
    if (w.units c).length ≤ room then c :: w.fitting (room - (w.units c).length) chars else []

/-- A string in `n` units is read as the longest part that fits, and the flag and the length are
right. -/
def CopiesLongest (w : WcharSize) (s : String) (n : Nat) : Prop :=
  ∃ part, LongestFitting w (n - 1) s.toList part ∧ ∀ isTruncated,
    let r := copyUtf8BytesToWcharString w (Utf8.encode s.toList) true (n * w.bytes) isTruncated
    r.written.length ≤ n ∧
    (∀ (m : Memory) (base : Int),
      sqlWcharUnitsToString w (some (w.readUnits (write m base (wideBytes w r.written)) base n)) sqlNts
        false = some (Utf8.encode part)) ∧
    (r.isTruncated = true ↔ part ≠ s.toList) ∧
    r.length = (r.written.length - 1) * w.bytes

/-- A string comes back from its vector. -/
def ReturnsFromVector (w : WcharSize) (s : String) : Prop :=
  sqlWcharUnitsToString w (some (toWcharVector w (Utf8.encode s.toList))) sqlNts false =
    some (Utf8.encode s.toList)

/-- The characters that are one unit. -/
def SingleUnits (w : WcharSize) (chars : List Char) : Prop :=
  match w with
  | .two => ∀ c ∈ chars, c.toNat ≤ 65535
  | .four => True

instance (w : WcharSize) (chars : List Char) : Decidable (SingleUnits w chars) :=
  match w with
  | .two => List.decidableBAll (fun c : Char => c.toNat ≤ 65535) chars
  | .four => .isTrue trivial

section Fitting

variable {w : WcharSize}

theorem singleUnits_iff {chars : List Char} :
    SingleUnits w chars ↔ ∀ c ∈ chars, w.holds c = true := by
  cases w with
  | two => simp [SingleUnits, WcharSize.holds]
  | four => simp [SingleUnits, WcharSize.holds]

theorem encode_cons_length (c : Char) (chars : List Char) :
    (w.encode (c :: chars)).length = (w.units c).length + (w.encode chars).length := by
  simp [WcharSize.encode]

theorem fitting_longest (room : Nat) (chars : List Char) :
    LongestFitting w room chars (w.fitting room chars) := by
  induction chars generalizing room with
  | nil =>
    refine ⟨List.prefix_rfl, Nat.zero_le _, ?_⟩
    intro other hstarts _
    rw [List.prefix_nil.mp hstarts]
    exact le_rfl
  | cons c chars ih =>
    unfold WcharSize.fitting
    split
    · rename_i hfits
      obtain ⟨hstarts, hlen, hlongest⟩ := ih (room - (w.units c).length)
      refine ⟨(List.prefix_cons_inj c).mpr hstarts, ?_, ?_⟩
      · rw [encode_cons_length]
        omega
      · intro other hother hroom
        cases other with
        | nil => exact Nat.zero_le _
        | cons d other =>
          obtain ⟨rfl, hrest⟩ := List.cons_prefix_cons.mp hother
          rw [encode_cons_length] at hroom
          exact Nat.succ_le_succ (hlongest other hrest (by omega))
    · rename_i hfits
      refine ⟨List.nil_prefix, Nat.zero_le _, ?_⟩
      intro other hother hroom
      cases other with
      | nil => exact le_rfl
      | cons d other =>
        obtain ⟨rfl, -⟩ := List.cons_prefix_cons.mp hother
        rw [encode_cons_length] at hroom
        omega

theorem LongestFitting.eq_fitting {room : Nat} {chars part : List Char}
    (h : LongestFitting w room chars part) : part = w.fitting room chars := by
  have hfitting := fitting_longest (w := w) room chars
  have hle := hfitting.longest part h.starts h.fits
  have hge := h.longest _ hfitting.starts hfitting.fits
  exact (List.prefix_of_prefix_length_le h.starts hfitting.starts hle).eq_of_length (by omega)

/-- The code stores the longest part that fits, up to a character that is two units. -/
theorem fitting_eq_iff {room : Nat} {chars : List Char} :
    (chars.takeWhile w.holds).take room = w.fitting room chars ↔
      SingleUnits w (w.fitting room chars) := by
  rw [singleUnits_iff]
  constructor
  · intro h c hc
    rw [← h] at hc
    exact List.mem_takeWhile_imp (List.mem_of_mem_take hc)
  · intro h
    induction chars generalizing room with
    | nil => simp [WcharSize.fitting]
    | cons c chars ih =>
      unfold WcharSize.fitting at h ⊢
      by_cases hholds : w.holds c = true
      · have hone : (w.units c).length = 1 := by simp [WcharSize.units_of_holds hholds]
        rw [List.takeWhile_cons_of_pos hholds]
        rw [hone] at h ⊢
        cases room with
        | zero => simp
        | succ room =>
          rw [if_pos (by omega)] at h ⊢
          rw [List.take_succ_cons, Nat.add_sub_cancel] at *
          rw [ih fun d hd => h d (List.mem_cons_of_mem c hd)]
      · rw [List.takeWhile_cons_of_neg hholds]
        split at h
        · exact absurd (h c List.mem_cons_self) hholds
        · rename_i hfits
          rw [if_neg hfits, List.take_nil]

end Fitting

/-! ## Reading back -/

section Reading

variable {w : WcharSize}

theorem toBytes_map (chars : List Char) :
    toBytes (chars.map Char.toNat) = some (Utf8.encode chars) := by
  unfold toBytes
  rw [if_pos]
  · simp [List.map_map, Function.comp_def, Char.ofNat_toNat]
  · intro unit hunit
    obtain ⟨c, -, rfl⟩ := List.mem_map.mp hunit
    exact c.valid

theorem takeWhile_map_toNat (chars : List Char) :
    (chars.map Char.toNat).takeWhile (· ≠ 0) =
      (chars.takeWhile (· ≠ '\x00')).map Char.toNat := by
  rw [List.takeWhile_map]
  congr 2
  funext c
  exact decide_eq_decide.mpr (not_congr (Char.toNat_inj (d := '\x00')))

theorem sqlWcharUnitsToString_nts (units : List Nat) (isLenInBytes : Bool) :
    sqlWcharUnitsToString w (some units) sqlNts isLenInBytes = toBytes (units.takeWhile (· ≠ 0)) :=
  rfl

/-- A count of units. -/
theorem sqlWcharUnitsToString_count {units : List Nat} (hlen : 0 < units.length) :
    sqlWcharUnitsToString w (some units) units.length false =
      toBytes (units.takeWhile (· ≠ 0)) := by
  have hnts : ¬ (units.length : Int) = sqlNts := by
    unfold sqlNts
    omega
  have hpos : (0 : Int) < units.length := by omega
  unfold sqlWcharUnitsToString
  simp only [if_neg hnts, if_pos hpos, Bool.false_eq_true, if_false, Int.toNat_natCast,
    List.take_length]

/-- Units that are characters are read as those characters. -/
theorem sqlWcharUnitsToString_map (chars : List Char) (sqlStrLen : Int) :
    sqlWcharUnitsToString w (some (chars.map Char.toNat)) sqlStrLen false =
      some (Utf8.encode (sqlWcharToString (some chars) sqlStrLen).toList) := by
  unfold sqlWcharUnitsToString sqlWcharToString sqlNts
  simp only [Bool.false_eq_true, if_false]
  split
  · rw [takeWhile_map_toNat, toBytes_map, String.toList_ofList]
  · split
    · rw [← List.map_take, takeWhile_map_toNat, toBytes_map, String.toList_ofList]
    · rfl

/-- A string without zeros, in `n` units. -/
theorem copyUtf8Bytes_string {s : String} (hs : '\x00' ∉ s.toList) {n : Nat} (hn : 1 ≤ n)
    (isTruncated : Bool) :
    copyUtf8BytesToWcharString w (Utf8.encode s.toList) true (n * w.bytes) isTruncated =
      { written := (s.toList.takeWhile w.holds).take (n - 1) ++ ['\x00']
        length := ((s.toList.takeWhile w.holds).take (n - 1)).length * w.bytes
        isTruncated := (s.toList.takeWhile w.holds).take (n - 1) ≠ s.toList } := by
  rw [copyUtf8Bytes_encode, copyUtf8_buffer s hn, reach, plain_eq_iff.mpr hs]

/-- Characters in memory with their zero are read back. -/
theorem toBytes_readUnits {stored : List Char} (hholds : ∀ c ∈ stored, w.holds c = true)
    (hzero : '\x00' ∉ stored) {n : Nat} (hn : stored.length < n) {m : Memory} {a : Int}
    (h : read m a (wideBytes w (stored ++ ['\x00'])).length = wideBytes w (stored ++ ['\x00'])) :
    toBytes ((w.readUnits m a n).takeWhile (· ≠ 0)) = some (Utf8.encode stored) := by
  rw [takeWhile_readUnits hholds hzero hn h, toBytes_map]

/-- A string is read as the longest part that fits exactly when that part has single units. -/
theorem copiesLongest_iff {s : String} (hs : '\x00' ∉ s.toList) {n : Nat} (hn : 1 ≤ n) :
    CopiesLongest w s n ↔ SingleUnits w (w.fitting (n - 1) s.toList) := by
  have hcopy := copyUtf8Bytes_string (w := w) hs hn
  generalize hstored : (s.toList.takeWhile w.holds).take (n - 1) = stored at hcopy
  have hholds : ∀ c ∈ stored, w.holds c = true := by
    intro c hc
    rw [← hstored] at hc
    exact List.mem_takeWhile_imp (List.mem_of_mem_take hc)
  have hzero : '\x00' ∉ stored := by
    intro hmem
    rw [← hstored] at hmem
    exact hs ((List.takeWhile_prefix _).subset (List.mem_of_mem_take hmem))
  have hlen : stored.length < n := by
    have hle := List.length_take_le (n - 1) (s.toList.takeWhile w.holds)
    rw [hstored] at hle
    omega
  have hread (m : Memory) (base : Int) : sqlWcharUnitsToString w
      (some (w.readUnits (write m base (wideBytes w (stored ++ ['\x00']))) base n)) sqlNts false =
        some (Utf8.encode stored) := by
    rw [sqlWcharUnitsToString_nts]
    exact toBytes_readUnits hholds hzero hlen (read_write_self m base _)
  rw [← fitting_eq_iff, hstored]
  constructor
  · rintro ⟨part, hpart, hcopied⟩
    obtain ⟨-, hback, -⟩ := hcopied false
    rw [hcopy] at hback
    have heq := (hread (fun _ => 0) 0).symm.trans (hback (fun _ => 0) 0)
    rw [Utf8.encode_injective (Option.some.inj heq), hpart.eq_fitting]
  · intro heq
    refine ⟨stored, heq ▸ fitting_longest (n - 1) s.toList, fun isTruncated => ?_⟩
    rw [hcopy]
    refine ⟨?_, hread, ?_, ?_⟩
    · simp only [List.length_append, List.length_singleton]
      omega
    · simp
    · simp

/-- A string comes back from its vector exactly when it has single units. -/
theorem returnsFromVector_iff {s : String} (hs : '\x00' ∉ s.toList) :
    ReturnsFromVector w s ↔ SingleUnits w s.toList := by
  have hbytes := Utf8.length_le_encode s.toList
  have hplain : (Utf8.encode s.toList).takeWhile (· ≠ 0) = Utf8.encode s.toList := by
    rw [Utf8.takeWhile_encode]
    exact congrArg Utf8.encode (plain_eq_iff.mpr hs)
  have hle : (s.toList.takeWhile w.holds).length ≤ s.toList.length :=
    (List.takeWhile_prefix _).length_le
  have hall : (s.toList.takeWhile w.holds).take (Utf8.encode s.toList).length =
      s.toList.takeWhile w.holds := List.take_of_length_le (hle.trans hbytes)
  have hvector : toWcharVector w (Utf8.encode s.toList) =
      (s.toList.takeWhile w.holds ++ ['\x00']).map Char.toNat := by
    unfold toWcharVector
    simp only [hplain, copyUtf8Bytes_string hs (Nat.le_add_left 1 _), Nat.add_sub_cancel, hall,
      Nat.mul_div_cancel _ w.bytes_pos]
    rw [List.take_append_of_le_length (by simp), List.take_of_length_le (by simp)]
  have hzero : (s.toList.takeWhile w.holds ++ ['\x00']).takeWhile (· ≠ '\x00') =
      s.toList.takeWhile w.holds := by
    rw [List.takeWhile_append_of_pos, List.takeWhile_cons_of_neg (by simp), List.append_nil]
    intro c hc
    rw [decide_eq_true_eq]
    rintro rfl
    exact hs ((List.takeWhile_prefix _).subset hc)
  unfold ReturnsFromVector
  rw [hvector, sqlWcharUnitsToString_map, sqlWcharToString, if_pos (by rfl), hzero,
    String.toList_ofList, singleUnits_iff, ← List.takeWhile_eq_self_iff]
  constructor
  · intro h
    exact Utf8.encode_injective (Option.some.inj h)
  · intro h
    rw [h]

/-- What comes back of a string that is copied in `n` units, and of one in a vector. -/
theorem wideStrings_roundTrip_iff (w : WcharSize) (s : String) (hs : '\x00' ∉ s.toList) :
    (∀ n, 1 ≤ n → (CopiesLongest w s n ↔ SingleUnits w (w.fitting (n - 1) s.toList))) ∧
      (ReturnsFromVector w s ↔ SingleUnits w s.toList) :=
  ⟨fun _ hn => copiesLongest_iff hs hn, returnsFromVector_iff hs⟩

theorem wideStrings_roundTrip_cut :
    CopiesLongest .two "naïve" 4 ∧ ReturnsFromVector .two "naïve" := by
  have hplain : '\x00' ∉ "naïve".toList := by decide
  obtain ⟨hcopies, hreturns⟩ := wideStrings_roundTrip_iff .two "naïve" hplain
  exact ⟨(hcopies 4 (by decide)).mpr (by decide), hreturns.mpr (by decide)⟩

/-- U+1F600, which is a surrogate pair in `SQLWCHAR`s of two bytes. -/
def grinning : String := String.ofList [Char.ofNat 0x1F600]

/-- The character fits in two of three units, and is lost. -/
theorem wideStrings_astralLost :
    ¬ CopiesLongest .two grinning 3 ∧ ¬ ReturnsFromVector .two grinning := by
  have hplain : '\x00' ∉ grinning.toList := by decide
  rw [copiesLongest_iff hplain (by decide), returnsFromVector_iff hplain]
  decide

end Reading

end TrinoOdbc
