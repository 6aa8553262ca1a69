import TrinoOdbc.Binding
import TrinoOdbc.Conversion

/-!
# TrinoOdbc.SlotLayout

The rows of a rowset in the array bound to a column: what is written for a row lies in the place of
the row, one `getElementSize` after the other (`slots_disjoint_iff`).
-/

namespace TrinoOdbc

open ByteMemory

namespace ApplicationDataBuffer

/-- The buffer for a row of a rowset. -/
def row (b : ApplicationDataBuffer) (byteOffset : Int) (i : Nat) : ApplicationDataBuffer :=
  (b.setByteOffset byteOffset).setElementOffset i

theorem getData_row {b : ApplicationDataBuffer} {target : Int} (htarget : b.buffer = some target)
    (byteOffset : Int) (i : Nat) :
    (b.row byteOffset i).getData = some (target + (byteOffset + b.getElementSize * i)) := by
  have hbuffer : (b.row byteOffset i).buffer = some target := htarget
  rw [getData, hbuffer]
  rfl

/-! ## What the conversions write -/

section Within

variable {P : Platform} {b : ApplicationDataBuffer} {c : Conversion}

theorem length_wideBytes (w : WcharSize) (chars : List Char) :
    (wideBytes w chars).length = chars.length * w.bytes := by
  simp [wideBytes, List.length_flatMap]

theorem putStruct_within {fields : Writes} {size : Nat} {result : ConversionResult}
    (hfields : Within 0 size fields) (h : b.putStruct fields size result = .ok c) :
    Within 0 size c.writes := by
  unfold putStruct at h
  split at h
  · cases h
  · cases h
    exact hfields

theorem dateFields_within (t : Calendar.Tm) : Within 0 6 (dateFields t) := by
  simp [dateFields, Within]

theorem timeFields_within (t : Calendar.Tm) : Within 0 6 (timeFields t) := by
  simp [timeFields, Within]

theorem timestampFields_within (t : Calendar.Tm) (fraction : Int) :
    Within 0 16 (timestampFields t fraction) := by
  simp [timestampFields, dateFields, Within]

theorem putCharText_within (text : List Char) (size : Nat) (hlen : 1 ≤ b.buflen) :
    Within 0 b.buflen (b.putCharText text size).writes := by
  unfold putCharText
  split
  · exact within_nil _ _
  · refine within_cons ⟨le_rfl, ?_⟩ ?_
    · simp only [strncpy, List.length_append, List.length_take, List.length_replicate]
      omega
    · split
      · exact within_singleton (by omega) (by simp)
      · exact within_nil _ _

theorem charRoom_succ_mul_le {w : WcharSize} {n : Nat} (h : w.bytes ≤ n) :
    (charRoom w n + 1) * w.bytes ≤ n := by
  have hdiv : 0 < n / w.bytes := Nat.div_pos h w.bytes_pos
  obtain ⟨k, hk⟩ : ∃ k, n / w.bytes = k + 1 := ⟨n / w.bytes - 1, by omega⟩
  rw [charRoom, hk]
  change (k + 1) * w.bytes ≤ n
  rw [← hk]
  exact Nat.div_mul_le_self n w.bytes

theorem codecvtIn_length_le (w : WcharSize) (room : Nat) (chars : List Char) :
    (codecvtIn w room chars).1.length ≤ room := by
  rw [codecvtIn_fst]
  exact List.length_take_le room _

/-- What is stored with its zero fits where one character fits. -/
theorem wideBytes_copy_le {w : WcharSize} {n : Nat} (h : w.bytes ≤ n) (bytes : List UInt8)
    (isTruncated : Bool) :
    (wideBytes w (copyUtf8BytesToWcharString w bytes true n isTruncated).written).length ≤ n := by
  have hpos : ¬ n = 0 := by
    have := w.bytes_pos
    omega
  have hle := codecvtIn_length_le w (charRoom w n) (Utf8.decode (bytes.takeWhile (· ≠ 0))).1
  unfold copyUtf8BytesToWcharString
  simp only [hpos, and_false, if_false, if_true, length_wideBytes, List.length_append,
    List.length_singleton]
  exact (Nat.mul_le_mul_right w.bytes (by omega)).trans (charRoom_succ_mul_le h)

theorem copyStringToBuffer_eq_bytes (w : WcharSize) (chars : List Char) (n : Nat) :
    copyStringToBuffer w (String.ofList chars) true n true =
      copyUtf8BytesToWcharString w (Utf8.encode chars) true n false := by
  have h := copyUtf8Bytes_encode (w := w) (String.ofList chars) true n false
  rw [String.toList_ofList] at h
  rw [h]
  rfl

theorem putWcharText_within (text : List Char) (length : Nat) (hlen : P.wchar.bytes ≤ b.buflen) :
    Within 0 b.buflen (b.putWcharText P text length).writes := by
  unfold putWcharText
  split
  · exact within_nil _ _
  · refine within_singleton le_rfl ?_
    have hle := wideBytes_copy_le hlen (Utf8.encode text) false
    rw [copyStringToBuffer_eq_bytes]
    omega

theorem copyUtf8StringToSqlCharString_length {value : List UInt8} {n : Nat} {r : CharCopy}
    (hn : n ≠ 0) (h : copyUtf8StringToSqlCharString P value n = some r) :
    r.written.length ≤ n := by
  unfold copyUtf8StringToSqlCharString at h
  rw [if_neg hn] at h
  simp only at h
  split at h
  · cases h
    simp only [List.length_append, List.length_take, List.length_singleton]
    omega
  · split at h
    · cases h
      simp only [List.length_append, List.length_map, List.length_take, List.length_singleton]
      omega
    · cases h

theorem putStrToStrBuffer_within {wide : Bool} {value : List UInt8}
    (h : b.putStrToStrBuffer P wide value = .ok c) : Within 0 b.buflen c.writes := by
  cases wide with
  | true =>
    rw [putStrToStrBuffer_wide] at h
    split at h
    · cases h
      exact within_nil _ _
    · split at h
      · cases h
        exact within_nil _ _
      · rename_i hroom
        cases h
        have hle := wideBytes_copy_le (Nat.le_of_not_lt hroom) value false
        exact within_singleton le_rfl (by omega)
  | false =>
    rw [putStrToStrBuffer_narrow] at h
    split at h
    · cases h
      exact within_nil _ _
    · split at h
      · cases h
        exact within_nil _ _
      · split at h
        · cases h
        · rename_i hroom _ r hr
          cases h
          have hle := copyUtf8StringToSqlCharString_length (by omega) hr
          exact within_singleton le_rfl (by omega)

theorem putNumToNumBuffer_within {out : List UInt8} {size : Nat} (hout : out.length = size) :
    Within 0 size (b.putNumToNumBuffer out).writes := by
  unfold putNumToNumBuffer
  simp only
  split
  · exact within_nil _ _
  · exact within_singleton le_rfl (by omega)

/-- The buffers whose elements have room for what is stored. -/
structure Roomy (P : Platform) (b : ApplicationDataBuffer) : Prop where
  char : b.type = .char → 1 ≤ b.buflen
  wchar : b.type = .wchar → P.wchar.bytes ≤ b.buflen
  default : b.type = .default → b.buflen = 0
  interval : intervalLayout b.type = none

theorem putStrToStrBuffer_inElement {wide : Bool} {value : List UInt8}
    (htype : b.type = .char ∨ b.type = .wchar ∨ b.type = .binary ∨ b.type = .default)
    (hb : Roomy P b) (h : b.putStrToStrBuffer P wide value = .ok c) :
    Within 0 b.getElementSize c.writes := by
  have hwithin := putStrToStrBuffer_within h
  rcases htype with htype | htype | htype | htype
  · simpa only [getElementSize, htype] using hwithin
  · simpa only [getElementSize, htype] using hwithin
  · simpa only [getElementSize, htype] using hwithin
  · simpa only [getElementSize, htype, hb.default htype] using hwithin

theorem putDate_inElement {ms : Int} (hb : Roomy P b) (h : b.putDate P ms = .ok c) :
    Within 0 b.getElementSize c.writes := by
  unfold putDate at h
  split at h <;> rename_i htype <;> simp only [getElementSize, htype]
  · cases h
    exact putCharText_within _ _ (hb.char htype)
  · cases h
    exact putWcharText_within _ _ (hb.wchar htype)
  · exact putStruct_within (dateFields_within _) h
  · exact putStruct_within (timestampFields_within _ _) h
  · cases h
    exact within_nil _ _

theorem putTimestamp_inElement {value : Timestamp} (hb : Roomy P b)
    (h : b.putTimestamp P value = .ok c) : Within 0 b.getElementSize c.writes := by
  unfold putTimestamp at h
  simp only at h
  split at h <;> rename_i htype <;> simp only [getElementSize, htype]
  · cases h
    exact putCharText_within _ _ (hb.char htype)
  · cases h
    exact putWcharText_within _ _ (hb.wchar htype)
  · exact putStruct_within (dateFields_within _) h
  · exact putStruct_within (timeFields_within _) h
  · exact putStruct_within (timestampFields_within _ _) h
  · cases h
    exact within_nil _ _

theorem putTime_inElement {value : TimeOfDay} (hb : Roomy P b) (h : b.putTime P value = .ok c) :
    Within 0 b.getElementSize c.writes := by
  unfold putTime at h
  simp only at h
  split at h <;> rename_i htype <;> simp only [getElementSize, htype]
  · cases h
    exact putCharText_within _ _ (hb.char htype)
  · cases h
    exact putWcharText_within _ _ (hb.wchar htype)
  · exact putStruct_within (timeFields_within _) h
  · exact putStruct_within (timestampFields_within _ _) h
  · cases h
    exact within_nil _ _

theorem putIntervalFields_inElement {text : List Char} {negative : Bool}
    {value : IntervalField → Int} (hb : Roomy P b)
    (h : b.putIntervalFields P text negative value = .ok c) :
    Within 0 b.getElementSize c.writes := by
  unfold putIntervalFields at h
  split at h
  · rename_i htype
    simp only [getElementSize, htype]
    cases h
    exact putCharText_within _ _ (hb.char htype)
  · rename_i htype
    simp only [getElementSize, htype]
    cases h
    exact putWcharText_within _ _ (hb.wchar htype)
  · rw [hb.interval] at h
    cases h
    exact within_nil _ _

theorem numericFields_within (precision scale sign : Int) (first second : List UInt8)
    (hfirst : first.length = 16) (hsecond : second.length ≤ 16) :
    Within 0 19 [(0, encode 1 precision), (1, encode 1 scale), (2, encode 1 sign), (3, first),
      (3, second)] := by
  simp [Within, hfirst]
  omega

theorem putNum_number (value : Num P.reals) (htype : b.type.isNumber = true) :
    b.putNum P value = .ok (b.putNumToNumBuffer (value.elementBytes b.type)) := by
  unfold putNum
  cases h : b.type <;> rw [h] at htype <;> cases htype <;> rfl

/-- The bytes of a number have the size of the element. -/
theorem length_elementBytes (value : Num P.reals) (htype : b.type.isNumber = true) :
    (value.elementBytes b.type).length = b.getElementSize := by
  have hint (signed : Bool) (size : Nat) : (value.toInteger signed size).length = size := by
    cases value <;> exact length_encode _ _
  unfold getElementSize
  cases h : b.type <;> rw [h] at htype <;> cases htype
  case float => exact P.reals.length_floatBytes _
  case double => exact P.reals.length_doubleBytes _
  all_goals exact hint _ _

theorem putNum_inElement {value : Num P.reals} (hb : Roomy P b) (h : b.putNum P value = .ok c) :
    Within 0 b.getElementSize c.writes := by
  cases hnum : b.type.isNumber with
  | true =>
    rw [putNum_number value hnum] at h
    cases h
    exact putNumToNumBuffer_within (length_elementBytes value hnum)
  | false =>
    unfold putNum at h
    split at h <;> rename_i htype <;> first | (rw [htype] at hnum; cases hnum) | skip
    · exact putStrToStrBuffer_inElement (.inl htype) hb h
    · exact putStrToStrBuffer_inElement (.inr (.inl htype)) hb h
    · cases h
      simp only [getElementSize, htype]
      split
      · exact within_nil _ _
      · exact numericFields_within _ _ _ _ _ (length_encode _ _) (by simp)
    · cases h
      simp only [getElementSize, htype]
      split
      · exact within_nil _ _
      · exact within_singleton le_rfl (by simp)
    · cases h
      simp only [hb.default htype, List.take_zero]
      split
      · exact within_nil _ _
      · exact within_singleton le_rfl (by simp)
    · exact putDate_inElement hb h
    · exact putTimestamp_inElement hb h
    · exact putTime_inElement hb h
    · cases h
      exact within_nil _ _

theorem putString_inElement {value : List UInt8} (hb : Roomy P b)
    (h : b.putString P value = .ok c) : Within 0 b.getElementSize c.writes := by
  unfold putString at h
  split at h <;> rename_i htype <;> first | exact putNum_inElement hb h | skip
  · exact putStrToStrBuffer_inElement (.inl htype) hb h
  · exact putStrToStrBuffer_inElement (.inr (.inr (.inl htype))) hb h
  · exact putStrToStrBuffer_inElement (.inr (.inr (.inr htype))) hb h
  · exact putStrToStrBuffer_inElement (.inr (.inl htype)) hb h
  · cases h
    exact within_nil _ _

theorem map_result_ok {r : Except PutFault Conversion} {result : ConversionResult}
    (h : r.map (fun c => { c with result }) = .ok c) :
    ∃ c', r = .ok c' ∧ c.writes = c'.writes := by
  cases r with
  | error e => cases h
  | ok c' =>
    cases h
    exact ⟨c', rfl, rfl⟩

theorem putDecimal_inElement {value : Decimal P.reals} (hb : Roomy P b)
    (h : b.putDecimal P value = .ok c) : Within 0 b.getElementSize c.writes := by
  unfold putDecimal at h
  split at h <;> rename_i htype <;> first
    | (obtain ⟨c', hc', hwrites⟩ := map_result_ok h
       rw [hwrites]
       exact putNum_inElement hb hc')
    | exact putString_inElement hb h
    | skip
  · simp only [getElementSize, htype]
    refine putStruct_within ?_ h
    simp [Decimal.numericFields, Within]
  · cases h
    exact within_nil _ _

/-- What a conversion writes lies in the element. -/
theorem perform_inElement {call : PutCall P} (hb : Roomy P b) (h : call.perform b = .ok c) :
    Within 0 b.getElementSize c.writes := by
  cases call with
  | num value => exact putNum_inElement hb h
  | string value => exact putString_inElement hb h
  | date ms => exact putDate_inElement hb h
  | time value => exact putTime_inElement hb h
  | timestamp value => exact putTimestamp_inElement hb h
  | yearMonth value => exact putIntervalFields_inElement hb h
  | daySecond value => exact putIntervalFields_inElement hb h
  | decimal value => exact putDecimal_inElement hb h

end Within

/-! ## The places of the rows -/

/-- What is stored for a row of the rowset lies in the place of the row, and stays when another row
is stored, like its length does. -/
structure SlotsDisjoint (P : Platform) (b : ApplicationDataBuffer) (target : Int) : Prop where
  inSlot : ∀ (byteOffset : Int) (i : Nat) (base : Int) (call : PutCall P) c x,
    (b.row byteOffset i).getData = some base →
    call.perform (b.row byteOffset i) = .ok c → Touches base c.writes x →
      target + byteOffset + i * b.getElementSize ≤ x ∧
        x < target + byteOffset + (i + 1) * b.getElementSize
  frame : ∀ (byteOffset : Int) (i j : Nat) (base base' : Int) (call call' : PutCall P) c c' x (m : Memory),
    i ≠ j → (b.row byteOffset i).getData = some base → (b.row byteOffset j).getData = some base' →
    call.perform (b.row byteOffset i) = .ok c → call'.perform (b.row byteOffset j) = .ok c' →
    Touches base' c'.writes x → apply m base c.writes x = m x
  lengths : ∀ (byteOffset : Int) (i j : Nat) (p p' : Int), i ≠ j →
    (b.row byteOffset i).getResLen = some p →
    (b.row byteOffset j).getResLen = some p' → p + 8 ≤ p' ∨ p' + 8 ≤ p

/-- The types that have a stride, with the lengths that make room for it. -/
def HasStride (P : Platform) (b : ApplicationDataBuffer) : Prop :=
  intervalLayout b.type = none ∧ (b.type = .default → b.buflen = 0) ∧
    (b.type = .wchar → P.wchar.bytes ≤ b.buflen)

theorem getResLen_row {b : ApplicationDataBuffer} {byteOffset : Int} {i : Nat} {p : Int}
    (h : (b.row byteOffset i).getResLen = some p) :
    ∃ q : Int, b.reslen = some q ∧ p = q + (byteOffset + 8 * i) := by
  unfold getResLen applyOffset at h
  rw [Option.map_eq_some_iff] at h
  obtain ⟨q, hq, rfl⟩ := h
  exact ⟨q, hq, rfl⟩

theorem slotsDisjoint_of_roomy {P : Platform} {b : ApplicationDataBuffer} {target : Int}
    (htarget : b.buffer = some target) (hroomy : Roomy P b) : SlotsDisjoint P b target := by
  have hslot : ∀ (byteOffset : Int) (i : Nat) (base : Int) (call : PutCall P) c x,
      (b.row byteOffset i).getData = some base → call.perform (b.row byteOffset i) = .ok c →
      Touches base c.writes x → target + byteOffset + i * b.getElementSize ≤ x ∧
        x < target + byteOffset + (i + 1) * b.getElementSize := by
    intro byteOffset i base call c x hbase hput hx
    have hrow : Roomy P (b.row byteOffset i) :=
      ⟨hroomy.char, hroomy.wchar, hroomy.default, hroomy.interval⟩
    have hbounds := (perform_inElement hrow hput).bounds hx
    rw [getData_row htarget] at hbase
    cases hbase
    have hsize : (b.row byteOffset i).getElementSize = b.getElementSize := rfl
    rw [hsize] at hbounds
    constructor
    · calc target + byteOffset + i * b.getElementSize
          = target + (byteOffset + b.getElementSize * i) + 0 := by ring
        _ ≤ x := hbounds.1
    · calc x < target + (byteOffset + b.getElementSize * i) + b.getElementSize := hbounds.2
        _ = target + byteOffset + (i + 1) * b.getElementSize := by ring
  refine ⟨hslot, ?_, ?_⟩
  · intro byteOffset i j base base' call call' c c' x m hij hbase hbase' hput hput' hx
    refine apply_of_not_touches (fun hx' => ?_) m
    obtain ⟨hlo, hhi⟩ := hslot byteOffset i base call c x hbase hput hx'
    obtain ⟨hlo', hhi'⟩ := hslot byteOffset j base' call' c' x hbase' hput' hx
    have hsize : (0 : Int) ≤ b.getElementSize := by omega
    rcases Nat.lt_or_gt_of_ne hij with hlt | hgt
    · have hle := mul_le_mul_of_nonneg_right (show (i : Int) + 1 ≤ j by omega) hsize
      omega
    · have hle := mul_le_mul_of_nonneg_right (show (j : Int) + 1 ≤ i by omega) hsize
      omega
  · intro byteOffset i j p p' hij hp hp'
    obtain ⟨q, hq, rfl⟩ := getResLen_row hp
    obtain ⟨q', hq', rfl⟩ := getResLen_row hp'
    obtain rfl := Option.some.inj (hq.symm.trans hq')
    omega

theorem written_ne_nil (w : WcharSize) (chars : List Char) {n : Nat} (hn : n ≠ 0) :
    (copyStringToBuffer w (String.ofList chars) true n true).written ≠ [] := by
  unfold copyStringToBuffer copyUtf8StringToWcharString
  simp [hn]

/-- The first row, with a value that is written behind the end of the element. -/
theorem not_slotsDisjoint {P : Platform} {b : ApplicationDataBuffer} {target : Int}
    (htarget : b.buffer = some target) {call : PutCall P} {bytes : List UInt8} {ws : Writes}
    {resLen : Option Int} {result : ConversionResult}
    (hput : call.perform (b.row 0 0) = .ok ⟨(0, bytes) :: ws, resLen, result⟩)
    (hbytes : b.getElementSize < bytes.length) : ¬ SlotsDisjoint P b target := by
  intro h
  have hbase := getData_row htarget 0 0
  have hslot := h.inSlot 0 0 _ call _ (target + b.getElementSize) hbase hput
    ⟨_, List.mem_cons_self, by simp, by simpa using hbytes⟩
  simp at hslot

theorem interval_writes (P : Platform) {b : ApplicationDataBuffer} {target : Int}
    (htarget : b.buffer = some target) (htype : intervalLayout b.type ≠ none) :
    ¬ SlotsDisjoint P b target := by
  obtain ⟨⟨code, fields⟩, hlayout⟩ := Option.ne_none_iff_exists'.mp htype
  have hsize : b.getElementSize = 0 := by
    unfold getElementSize
    cases h : b.type <;> rw [h] at hlayout <;> first | rfl | cases hlayout
  have hput : (PutCall.yearMonth ⟨0, 0⟩ : PutCall P).perform (b.row 0 0) =
      (b.row 0 0).putStruct
        (intervalFields code fields (IntervalYearMonth.negative ⟨0, 0⟩)
          (IntervalYearMonth.field ⟨0, 0⟩)) 28 .success := by
    have hrow : (b.row 0 0).type = b.type := rfl
    simp only [PutCall.perform, putYearMonth, putIntervalFields, hrow]
    split
    · rename_i h
      rw [h] at hlayout
      cases hlayout
    · rename_i h
      rw [h] at hlayout
      cases hlayout
    · rw [hlayout]
  rw [putStruct, getData_row htarget] at hput
  exact not_slotsDisjoint htarget hput (by simp [hsize])

theorem default_writes (P : Platform) {b : ApplicationDataBuffer} {target : Int}
    (htarget : b.buffer = some target) (htype : b.type = .default) (hlen : b.buflen ≠ 0) :
    ¬ SlotsDisjoint P b target := by
  have hput : (PutCall.num (.int 1 0) : PutCall P).perform (b.row 0 0) =
      .ok ⟨[(0, (encode 1 0).take b.buflen)], (b.row 0 0).storeLen 1,
        truncatedIf (b.buflen < 1)⟩ := by
    have hrow : (b.row 0 0).type = .default := htype
    simp only [PutCall.perform, putNum, hrow, getData_row htarget]
    rfl
  refine not_slotsDisjoint htarget hput ?_
  simp only [getElementSize, htype, List.length_take, length_encode]
  omega

theorem wchar_writes {P : Platform} {b : ApplicationDataBuffer} {target : Int}
    (htarget : b.buffer = some target) (htype : b.type = .wchar) (hlen : b.buflen ≠ 0)
    (hshort : b.buflen < P.wchar.bytes) : ¬ SlotsDisjoint P b target := by
  have hput : (PutCall.yearMonth ⟨0, 0⟩ : PutCall P).perform (b.row 0 0) =
      .ok ((b.row 0 0).putWcharText P (IntervalYearMonth.text ⟨0, 0⟩)
        (IntervalYearMonth.text ⟨0, 0⟩).length) := by
    have hrow : (b.row 0 0).type = .wchar := htype
    simp only [PutCall.perform, putYearMonth, putIntervalFields, hrow]
  rw [putWcharText, getData_row htarget] at hput
  refine not_slotsDisjoint htarget hput ?_
  have hpos := List.length_pos_of_ne_nil
    (written_ne_nil P.wchar (IntervalYearMonth.text ⟨0, 0⟩) hlen)
  have hle := Nat.mul_le_mul_right P.wchar.bytes hpos
  rw [length_wideBytes]
  simp only [getElementSize, htype]
  rw [Nat.succ_mul, Nat.zero_mul, Nat.zero_add] at hle
  exact lt_of_lt_of_le hshort hle

end ApplicationDataBuffer

open ApplicationDataBuffer

theorem check_buflen {a : BindArgs} (haccepted : a.check = none)
    (htype : a.driverType = .char ∨ a.driverType = .wchar) : a.dataBuffer.buflen ≠ 0 := by
  unfold BindArgs.check at haccepted
  split_ifs at haccepted with _ hreject
  intro hzero
  have hbuflen : a.bufferLength.toNat = 0 := hzero
  refine hreject ((Int.lt_trichotomy a.bufferLength 0).imp id fun h => ⟨?_, htype⟩)
  omega

/-- The rows of a bound column keep apart exactly for the types and lengths with a stride. -/
theorem slots_disjoint_iff (P : Platform) (a : BindArgs) (haccepted : a.check = none)
    (htarget : a.targetValue ≠ 0) :
    SlotsDisjoint P a.dataBuffer a.targetValue ↔ HasStride P a.dataBuffer := by
  have hbuffer : a.dataBuffer.buffer = some a.targetValue := if_neg htarget
  constructor
  · intro h
    refine ⟨?_, ?_, ?_⟩
    · exact by_contra fun hlayout => interval_writes P hbuffer hlayout h
    · intro htype
      exact by_contra fun hlen => default_writes P hbuffer htype hlen h
    · intro htype
      exact by_contra fun hlen =>
        wchar_writes hbuffer htype (check_buflen haccepted (.inr htype)) (Nat.lt_of_not_le hlen) h
  · rintro ⟨hinterval, hdefault, hwchar⟩
    refine slotsDisjoint_of_roomy hbuffer ⟨fun htype => ?_, hwchar, hdefault, hinterval⟩
    exact Nat.pos_of_ne_zero (check_buflen haccepted (.inl htype))

section Examples

def bindAs (targetType : Int) (bufferLength : Int) : BindArgs :=
  { columnIdx := 1, targetType, targetValue := 4096, bufferLength, strLengthOrIndicator := 0 }

/-- The rows of a column bound to timestamps keep apart. -/
theorem slots_disjoint_timestamps :
    ((bindAs 93 0).check = none ∧ (bindAs 93 0).targetValue ≠ 0) ∧
      SlotsDisjoint .linux (bindAs 93 0).dataBuffer (bindAs 93 0).targetValue := by
  have htype : (bindAs 93 0).dataBuffer.type = .ttimestamp := by decide
  refine ⟨by decide, (slots_disjoint_iff .linux (bindAs 93 0) (by decide) (by decide)).mpr ?_⟩
  exact ⟨by rw [htype]; rfl, by rw [htype]; decide, by rw [htype]; decide⟩

/-- All rows of a column bound to intervals are stored at the same place. -/
theorem slots_sharedByIntervals :
    ¬ SlotsDisjoint .linux (bindAs 110 0).dataBuffer (bindAs 110 0).targetValue := by
  have htype : (bindAs 110 0).dataBuffer.type = .intervalDayToSecond := by decide
  exact interval_writes .linux rfl (by rw [htype]; decide)

end Examples

end TrinoOdbc
