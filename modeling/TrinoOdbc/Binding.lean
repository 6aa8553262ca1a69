import TrinoOdbc.Descriptor
import TrinoOdbc.Lts
import TrinoOdbc.SortedMap
import Mathlib.Order.Nat

/-!
# TrinoOdbc.Binding

`SQLBindCol` stores a binding twice: in the map that the fetches use, and in the record of the
active ARD. `bindings_inStep_iff` compares the two copies along the calls that bind and unbind
columns.

* `internalBindColumn`, `setDescriptorFields` — binding, which writes both, and unbinding, which
  writes the map.
* `InStep` — the two copies agree, and the count of the header is the highest bound column.
-/

namespace TrinoOdbc

/-! ## Target types -/

/-- The C types of `ToDriverType`. -/
def driverTypes : List (Int × OdbcNativeType) :=
  [(1, .char), (-8, .wchar), (-15, .signedShort), (5, .signedShort), (-17, .unsignedShort),
    (-16, .signedLong), (4, .signedLong), (-18, .unsignedLong), (7, .float), (8, .double),
    (-7, .bit), (-26, .signedTinyint), (-6, .signedTinyint), (-28, .unsignedTinyint),
    (-25, .signedBigint), (-27, .unsignedBigint), (-2, .binary), (9, .tdate), (91, .tdate),
    (10, .ttime), (92, .ttime), (11, .ttimestamp), (93, .ttimestamp), (2, .numeric), (99, .default),
    (101, .intervalYear), (102, .intervalMonth), (103, .intervalDay), (104, .intervalHour),
    (105, .intervalMinute), (106, .intervalSecond), (108, .intervalDayToHour),
    (109, .intervalDayToMinute), (111, .intervalHourToMinute), (112, .intervalHourToSecond),
    (113, .intervalMinuteToSecond), (107, .intervalYearToMonth), (110, .intervalDayToSecond)]

def toDriverType (type : Int) : OdbcNativeType := (driverTypes.lookup type).getD .unsupported

def sqlTypeTransferLength (type : Int) : Int :=
  match SqlType.ofCode type with
  | some t => t.transferLength
  | none => 0

def sqlTypePrecision (type : Int) : Int :=
  match SqlType.ofCode type with
  | some .decimal | some .numeric => 15
  | some .tinyint => 3
  | some .smallint => 5
  | some .integer => 10
  | some .bigint => 19
  | some .float | some .real | some .double => 15
  | some .typeTime => 6
  | some .intervalDayToSecond => 11
  | some .intervalYearToMonth => 9
  | _ => 0

def sqlTypeScale (type : Int) : Int :=
  match SqlType.ofCode type with
  | some .decimal | some .numeric | some .float | some .real | some .double => 15
  | _ => 0

/-! ## Binding a column -/

/-- The arguments of `BindColumn`. -/
structure BindArgs where
  columnIdx : UInt16
  targetType : Int
  targetValue : Addr
  bufferLength : Int
  strLengthOrIndicator : Addr
  deriving DecidableEq

namespace ColumnBindingMap

def insert (m : ColumnBindingMap) (key : Nat) (b : ApplicationDataBuffer) : ColumnBindingMap :=
  ⟨SortedMap.insert key b m.entries, SortedMap.Sorted.insert m.sorted key b⟩

def erase (m : ColumnBindingMap) (key : Nat) : ColumnBindingMap :=
  ⟨SortedMap.erase key m.entries, SortedMap.Sorted.erase m.sorted key⟩

/-- The highest bound column, 0 when there is none. -/
def highest (m : ColumnBindingMap) : Nat := SortedMap.highest m.entries

@[simp] theorem find_empty (key : Nat) : empty.find key = none := rfl

@[simp] theorem find_insert_self (m : ColumnBindingMap) (key : Nat) (b : ApplicationDataBuffer) :
    (m.insert key b).find key = some b := SortedMap.lookup_insert_self key b m.entries

theorem find_insert_of_ne (m : ColumnBindingMap) {key k : Nat} (h : k ≠ key)
    (b : ApplicationDataBuffer) : (m.insert key b).find k = m.find k :=
  SortedMap.lookup_insert_of_ne h b m.entries

theorem find_erase (m : ColumnBindingMap) (key k : Nat) :
    (m.erase key).find k = if k = key then none else m.find k :=
  SortedMap.lookup_erase key k m.entries

theorem highest_le_iff {m : ColumnBindingMap} {n : Nat} :
    m.highest ≤ n ↔ ∀ k, m.find k ≠ none → k ≤ n := SortedMap.highest_le_iff

theorem le_highest {m : ColumnBindingMap} {k : Nat} (h : m.find k ≠ none) : k ≤ m.highest :=
  highest_le_iff.mp le_rfl k h

theorem highest_insert (m : ColumnBindingMap) (key : Nat) (b : ApplicationDataBuffer) :
    (m.insert key b).highest = max m.highest key := by
  apply le_antisymm
  · rw [highest_le_iff]
    intro k hk
    by_cases h : k = key
    · rw [h]
      exact le_max_right _ _
    · rw [find_insert_of_ne m h] at hk
      exact (le_highest hk).trans (le_max_left _ _)
  · refine max_le ?_ (le_highest (by rw [find_insert_self]; nofun))
    rw [highest_le_iff]
    intro k hk
    apply le_highest
    by_cases h : k = key
    · rw [h, find_insert_self]
      nofun
    · rwa [find_insert_of_ne m h]

theorem highest_congr {m m' : ColumnBindingMap}
    (h : ∀ k, m.find k ≠ none ↔ m'.find k ≠ none) : m.highest = m'.highest := by
  apply le_antisymm
  · exact highest_le_iff.mpr fun k hk => le_highest ((h k).mp hk)
  · exact highest_le_iff.mpr fun k hk => le_highest ((h k).mpr hk)

/-- The buffer of a column number of any type. -/
def column (m : ColumnBindingMap) (c : Int) : Option ApplicationDataBuffer :=
  if 0 ≤ c then m.find c.toNat else none

@[simp] theorem column_natCast (m : ColumnBindingMap) (n : Nat) : m.column n = m.find n := by
  simp [column]

theorem column_insert (m : ColumnBindingMap) (n : Nat) (b : ApplicationDataBuffer) (c : Int) :
    (m.insert n b).column c = if c = n then some b else m.column c := by
  by_cases h : c = n
  · subst h
    rw [if_pos rfl, column_natCast, find_insert_self]
  · rw [if_neg h]
    unfold column
    split
    · exact find_insert_of_ne _ (by omega) b
    · rfl

theorem column_erase (m : ColumnBindingMap) (n : Nat) (c : Int) :
    (m.erase n).column c = if c = n then none else m.column c := by
  by_cases h : c = n
  · subst h
    rw [if_pos rfl, column_natCast, find_erase, if_pos rfl]
  · rw [if_neg h]
    unfold column
    split
    · rw [find_erase, if_neg (by omega)]
    · rfl

/-- Removing what is not there. -/
theorem find_erase_of_none {m : ColumnBindingMap} {n : Nat} (h : m.find n = none) (k : Nat) :
    (m.erase n).find k = m.find k := by
  rw [find_erase]
  by_cases hk : k = n
  · rw [if_pos hk, hk, h]
  · rw [if_neg hk]

theorem column_erase_of_none {m : ColumnBindingMap} {n : Nat} (h : m.find n = none) (c : Int) :
    (m.erase n).column c = m.column c := by
  unfold column
  rw [find_erase_of_none h]

theorem highest_erase_of_none {m : ColumnBindingMap} {n : Nat} (h : m.find n = none) :
    (m.erase n).highest = m.highest :=
  highest_congr fun k => by rw [find_erase_of_none h]

end ColumnBindingMap

/-- A pointer argument, `none` for null. -/
def pointer (a : Addr) : Option Addr := if a = 0 then none else some a

theorem pointer_eq_none_iff {a : Addr} : pointer a = none ↔ a = 0 := by
  simp [pointer]

def invalidTargetType : DiagnosticRecord :=
  { sqlState := .shy003InvalidApplicationBufferType
    message := "The argument TargetType was not a valid data type." }

def invalidBufferLength : DiagnosticRecord :=
  { sqlState := .shy090InvalidStringOrBufferLength
    message := "The value specified for the argument BufferLength was " ++
      "less than 0 or 0 for string types." }

namespace BindArgs

def driverType (a : BindArgs) : OdbcNativeType := toDriverType a.targetType

/-- The record about arguments that are rejected. -/
def check (a : BindArgs) : Option DiagnosticRecord :=
  if a.driverType = .unsupported then some invalidTargetType
  else if a.bufferLength < 0 ∨
      a.bufferLength = 0 ∧ (a.driverType = .char ∨ a.driverType = .wchar) then
    some invalidBufferLength
  else none

/-- Without a data and a length pointer the call unbinds the column. -/
def unbinds (a : BindArgs) : Bool := a.targetValue = 0 && a.strLengthOrIndicator = 0

def dataBuffer (a : BindArgs) : ApplicationDataBuffer :=
  { type := a.driverType, buffer := pointer a.targetValue, buflen := a.bufferLength.toNat
    reslen := pointer a.strLengthOrIndicator }

end BindArgs

/-- The types for which `SetDescriptorFields` takes the length of the buffer. -/
def bufferLengthTypes : List SqlType :=
  [.varchar, .wvarchar, .char, .wchar, .longvarchar, .wlongvarchar]

namespace DescriptorRecord

open SqlCode

/-- The type fields that `SetDescriptorFields` sets for a target type. For other types than dates,
times and intervals the interval code stays. -/
def setTargetType (record : DescriptorRecord) (targetType : Int) : DescriptorRecord :=
  if targetType = SqlType.typeDate.code ∨ targetType = SqlType.typeTime.code ∨
      targetType = SqlType.typeTimestamp.code then
    { record with
      type := datetime
      conciseType := targetType
      datetimeIntervalCode :=
        if targetType = SqlType.typeDate.code then codeDate
        else if targetType = SqlType.typeTime.code then codeTime
        else codeTimestamp }
  else if targetType = SqlType.intervalYearToMonth.code ∨
      targetType = SqlType.intervalDayToSecond.code then
    { record with
      type := interval
      conciseType := targetType
      datetimeIntervalCode :=
        if targetType = SqlType.intervalYearToMonth.code then codeYearToMonth
        else codeDayToSecond }
  else { record with type := targetType, conciseType := targetType }

def bind (record : DescriptorRecord) (a : BindArgs) : DescriptorRecord :=
  { record.setTargetType a.targetType with
    length :=
      if bufferLengthTypes.any fun t => t.code = a.targetType then a.bufferLength
      else sqlTypeTransferLength a.targetType
    precision := sqlTypePrecision a.targetType
    scale := sqlTypeScale a.targetType
    octetLength := a.bufferLength
    dataPtr := a.targetValue
    indicatorPtr := a.strLengthOrIndicator
    octetLengthPtr := a.strLengthOrIndicator }

end DescriptorRecord

/-- The count is a `SQLSMALLINT`, the column number a `uint16_t`. -/
def DescriptorHeader.raiseCount (header : DescriptorHeader) (columnIdx : UInt16) :
    DescriptorHeader :=
  { header with
    count := if header.count < columnIdx.toNat then toSmallInt columnIdx.toNat else header.count }

def Descriptor.setDescriptorFields (d : Descriptor) (a : BindArgs) : Descriptor :=
  ({ d with header := d.header.raiseCount a.columnIdx }).setRecord a.columnIdx.toNat
    ((d.record a.columnIdx.toNat).bind a)

/-- The bindings of a statement, and its active ARD. -/
structure BoundStatement where
  columnBindings : ColumnBindingMap := .empty
  ard : Descriptor

/-- The result of a call, its records, and the statement it leaves. -/
structure BindOutcome where
  result : SqlResult
  diag : List DiagnosticRecord
  statement : BoundStatement

namespace BoundStatement

def safeBindColumn (s : BoundStatement) (columnIdx : Nat) (b : ApplicationDataBuffer) :
    BoundStatement :=
  { s with columnBindings := s.columnBindings.insert columnIdx b }

def safeUnbindColumn (s : BoundStatement) (columnIdx : Nat) : BoundStatement :=
  { s with columnBindings := s.columnBindings.erase columnIdx }

/-- `SQL_UNBIND`. -/
def safeUnbindAllColumns (s : BoundStatement) : BoundStatement :=
  { s with columnBindings := .empty }

def internalBindColumn (s : BoundStatement) (a : BindArgs) : BindOutcome :=
  match a.check with
  | some record => { result := .error, diag := [record], statement := s }
  | none =>
    { result := .success
      diag := []
      statement :=
        if a.unbinds then s.safeUnbindColumn a.columnIdx.toNat
        else
          let s := s.safeBindColumn a.columnIdx.toNat a.dataBuffer
          { s with ard := s.ard.setDescriptorFields a } }

/-- `SetField` on the active ARD, whose statement this is. -/
def setArdField (s : BoundStatement) (recNum : Int) (field : DescField) (buffer : Addr)
    (bufferLen : Int) : BindOutcome :=
  let o := s.ard.internalSetField recNum field buffer bufferLen
  let s' : BoundStatement :=
    match o.unbound with
    | none => s
    | some columnIdx => s.safeUnbindColumn columnIdx
  { result := o.result, diag := o.diag, statement := { s' with ard := o.desc } }

end BoundStatement

/-! ## The two copies -/

/-- What a copy of a binding says. -/
structure BoundTo where
  dataPtr : Option Addr
  bufferLength : Int
  indicatorPtr : Option Addr
  deriving DecidableEq

def ApplicationDataBuffer.boundTo (b : ApplicationDataBuffer) : BoundTo :=
  ⟨b.buffer, b.buflen, b.reslen⟩

/-- A record without a data and an indicator pointer is not bound. -/
def DescriptorRecord.boundTo (record : DescriptorRecord) : Option BoundTo :=
  if record.dataPtr = 0 ∧ record.indicatorPtr = 0 then none
  else some ⟨pointer record.dataPtr, record.octetLength, pointer record.indicatorPtr⟩

/-- A new ARD; its header holds what its memory happens to hold, before it is initialized. -/
def Descriptor.newArd (implicit : Bool) (header : DescriptorHeader) : Descriptor :=
  { type := .ard, header := header.initAppHead implicit }

/-- The calls that bind and unbind columns. -/
inductive BindingCall where
  | bindColumn (a : BindArgs)
  | unbindAll
  | setDataPtr (recNum : Int) (buffer : Addr) (bufferLen : Int)

namespace BoundStatement

def bindingCall (s : BoundStatement) : BindingCall → BoundStatement
  | .bindColumn a => (s.internalBindColumn a).statement
  | .unbindAll => s.safeUnbindAllColumns
  | .setDataPtr recNum buffer bufferLen =>
    (s.setArdField recNum .dataPtr buffer bufferLen).statement

/-- The map and the ARD say the same. -/
structure InStep (s : BoundStatement) : Prop where
  columns : ∀ c, (s.columnBindings.column c).map (·.boundTo) = (s.ard.record c).boundTo
  count : s.ard.header.count = s.columnBindings.highest

/-- The types of the column numbers and of the count. -/
structure InRange (s : BoundStatement) : Prop where
  columns : ∀ k, s.columnBindings.find k ≠ none → k < 65536
  count : s.ard.header.count ≤ 32767

/-- The calls that keep the two copies in step: a call that is rejected, one that binds a column
whose number a `SQLSMALLINT` holds, one that unbinds a column that is not bound, and a data pointer
that the column is bound to already. -/
def KeepsStep (s : BoundStatement) : BindingCall → Prop
  | .bindColumn a => a.check = none →
      if a.unbinds then s.columnBindings.find a.columnIdx.toNat = none
      else a.columnIdx.toNat ≤ 32767
  | .unbindAll => ∀ k, s.columnBindings.find k = none
  | .setDataPtr recNum buffer bufferLen => Descriptor.invalidBufferLen bufferLen = false →
      if buffer = 0 then s.columnBindings.find (Descriptor.unbindNumber recNum) = none
      else ∃ b, s.columnBindings.column recNum = some b ∧ b.buffer = some buffer ∧
        (b.buflen : Int) = bufferLen

section Steps

variable {s : BoundStatement}

/-- In step, the records of the bound columns are the bound ones. -/
theorem InStep.bound_iff (h : s.InStep) (c : Int) :
    s.columnBindings.column c = none ↔ (s.ard.record c).boundTo = none := by
  rw [← h.columns c]
  cases s.columnBindings.column c <;> simp

theorem boundTo_bind (record : DescriptorRecord) {a : BindArgs} (hlen : ¬ a.bufferLength < 0)
    (hbind : a.unbinds = false) : (record.bind a).boundTo = some a.dataBuffer.boundTo := by
  have hnot : ¬ (a.targetValue = 0 ∧ a.strLengthOrIndicator = 0) := by
    simpa [BindArgs.unbinds] using hbind
  have hnonneg : (a.bufferLength.toNat : Int) = a.bufferLength := by omega
  simp [DescriptorRecord.boundTo, DescriptorRecord.bind, hnot, BindArgs.dataBuffer,
    ApplicationDataBuffer.boundTo, hnonneg]

theorem BindArgs.check_length {a : BindArgs} (h : a.check = none) : ¬ a.bufferLength < 0 := by
  intro hlt
  unfold BindArgs.check at h
  split at h
  · cases h
  · rw [if_pos (.inl hlt)] at h
    cases h

theorem toSmallInt_of_le {n : Int} (h : -32768 ≤ n) (h' : n ≤ 32767) : toSmallInt n = n := by
  unfold toSmallInt
  rw [Int.bmod_def]
  split <;> omega

theorem toSmallInt_of_lt {n : Int} (h : 32767 < n) (h' : n < 65536) : toSmallInt n = n - 65536 := by
  unfold toSmallInt
  rw [Int.bmod_def]
  split <;> omega

theorem raiseCount_eq_iff {header : DescriptorHeader} {columnIdx : UInt16} {highest : Nat}
    (hcount : header.count = highest) (hrange : header.count ≤ 32767) :
    (header.raiseCount columnIdx).count = max highest columnIdx.toNat ↔
      columnIdx.toNat ≤ 32767 := by
  have hlt : columnIdx.toNat < 65536 := columnIdx.toNat_lt
  simp only [DescriptorHeader.raiseCount]
  split
  · rename_i hraise
    by_cases h : columnIdx.toNat ≤ 32767
    · rw [toSmallInt_of_le (by omega) (by omega)]
      omega
    · rw [toSmallInt_of_lt (by omega) (by omega)]
      omega
  · omega

theorem bindColumn_inStep_iff (hr : s.InRange) (h : s.InStep) (a : BindArgs) :
    (s.bindingCall (.bindColumn a)).InStep ↔ s.KeepsStep (.bindColumn a) := by
  simp only [bindingCall, KeepsStep, internalBindColumn]
  cases hcheck : a.check with
  | some record => simpa using h
  | none =>
    simp only [forall_const]
    by_cases hunbind : a.unbinds = true
    · rw [if_pos hunbind, if_pos hunbind]
      constructor
      · intro h'
        have hnone :
            (s.columnBindings.erase a.columnIdx.toNat).column a.columnIdx.toNat = none := by
          rw [ColumnBindingMap.column_erase, if_pos rfl]
        have hrecord := (h'.bound_iff _).mp hnone
        rw [← ColumnBindingMap.column_natCast]
        exact (h.bound_iff _).mpr hrecord
      · intro hnone
        refine ⟨fun c => ?_, ?_⟩
        · rw [safeUnbindColumn, ColumnBindingMap.column_erase_of_none hnone]
          exact h.columns c
        · rw [safeUnbindColumn, ColumnBindingMap.highest_erase_of_none hnone]
          exact h.count
    · rw [if_neg hunbind, if_neg hunbind]
      have hbound : ((s.ard.record a.columnIdx.toNat).bind a).boundTo = some a.dataBuffer.boundTo :=
        boundTo_bind _ (BindArgs.check_length hcheck) (Bool.eq_false_iff.mpr hunbind)
      have hcount : (s.ard.header.raiseCount a.columnIdx).count =
          max s.columnBindings.highest a.columnIdx.toNat ↔ a.columnIdx.toNat ≤ 32767 :=
        raiseCount_eq_iff h.count hr.count
      constructor
      · intro h'
        have hnew := h'.count
        rw [safeBindColumn, ColumnBindingMap.highest_insert] at hnew
        exact hcount.mp (by exact_mod_cast hnew)
      · intro hle
        refine ⟨fun c => ?_, ?_⟩
        · simp only [safeBindColumn, Descriptor.setDescriptorFields,
            ColumnBindingMap.column_insert]
          by_cases hc : c = (a.columnIdx.toNat : Int)
          · rw [if_pos hc, hc, Descriptor.record_setRecord_self]
            exact hbound.symm
          · rw [if_neg hc, Descriptor.record_setRecord_of_ne _ _ _ hc]
            exact h.columns c
        · rw [safeBindColumn, ColumnBindingMap.highest_insert]
          exact_mod_cast hcount.mpr hle

theorem unbindAll_inStep_iff (h : s.InStep) :
    (s.bindingCall .unbindAll).InStep ↔ s.KeepsStep .unbindAll := by
  simp only [bindingCall, KeepsStep, safeUnbindAllColumns]
  have hempty : ∀ c, ColumnBindingMap.empty.column c = none := by
    intro c
    simp [ColumnBindingMap.column]
  constructor
  · intro h' k
    rw [← ColumnBindingMap.column_natCast]
    exact (h.bound_iff _).mpr ((h'.bound_iff _).mp (hempty _))
  · intro hnone
    refine ⟨fun c => ?_, ?_⟩
    · have hc : s.columnBindings.column c = none := by
        simp [ColumnBindingMap.column, hnone]
      rw [hempty, Option.map_none]
      exact ((h.bound_iff c).mp hc).symm
    · have hhighest : s.columnBindings.highest = ColumnBindingMap.empty.highest :=
        ColumnBindingMap.highest_congr fun k => by simp [hnone]
      rw [← hhighest]
      exact h.count

/-- The number that is unbound is the number of the record, unless it is not a column number. -/
theorem column_of_unbindNumber (hr : s.InRange) {recNum : Int}
    (h : s.columnBindings.find (Descriptor.unbindNumber recNum) = none) :
    s.columnBindings.column recNum = none := by
  unfold ColumnBindingMap.column
  split
  · rename_i hpos
    by_contra hne
    have hlt := hr.columns _ hne
    have hsame : Descriptor.unbindNumber recNum = recNum.toNat := by
      have hmod : recNum.emod 65536 = recNum := Int.emod_eq_of_lt hpos (by omega)
      rw [Descriptor.unbindNumber, hmod]
    rw [hsame] at h
    exact hne h
  · rfl

theorem setArdField_dataPtr {recNum bufferLen : Int} {buffer : Addr}
    (hlen : Descriptor.invalidBufferLen bufferLen = false) :
    (s.setArdField recNum .dataPtr buffer bufferLen).statement =
      if buffer = 0 then
        { columnBindings := s.columnBindings.erase (Descriptor.unbindNumber recNum)
          ard := s.ard.setRecord recNum { s.ard.record recNum with length := 0, octetLength := 0 } }
      else
        { s with
          ard := s.ard.setRecord recNum
            { s.ard.record recNum with
              dataPtr := buffer, length := toULen bufferLen, octetLength := bufferLen } } := by
  by_cases hb : buffer = 0
  · simp [setArdField, Descriptor.internalSetField, hlen, DescriptorRecord.setField, hb,
      safeUnbindColumn]
  · simp [setArdField, Descriptor.internalSetField, hlen, DescriptorRecord.setField, hb]

theorem setDataPtr_inStep_iff (hr : s.InRange) (h : s.InStep) (recNum bufferLen : Int)
    (buffer : Addr) :
    (s.bindingCall (.setDataPtr recNum buffer bufferLen)).InStep ↔
      s.KeepsStep (.setDataPtr recNum buffer bufferLen) := by
  simp only [bindingCall, KeepsStep]
  by_cases hinvalid : Descriptor.invalidBufferLen bufferLen = true
  · have hsame : (s.setArdField recNum .dataPtr buffer bufferLen).statement = s := by
      simp [setArdField, Descriptor.internalSetField, hinvalid]
    simpa [hsame, hinvalid] using h
  have hlen := Bool.eq_false_iff.mpr hinvalid
  rw [setArdField_dataPtr hlen]
  simp only [hlen, forall_const]
  by_cases hb : buffer = 0
  · rw [if_pos hb, if_pos hb]
    constructor
    · intro h'
      have hgone := (h'.bound_iff (Descriptor.unbindNumber recNum)).mp (by
        rw [ColumnBindingMap.column_erase, if_pos rfl])
      rw [← ColumnBindingMap.column_natCast, h.bound_iff]
      by_cases hc : (Descriptor.unbindNumber recNum : Int) = recNum
      · rw [hc] at hgone ⊢
        simpa [DescriptorRecord.boundTo] using hgone
      · rwa [Descriptor.record_setRecord_of_ne _ _ _ hc] at hgone
    · intro hnone
      refine ⟨fun c => ?_, ?_⟩
      · rw [ColumnBindingMap.column_erase_of_none hnone]
        by_cases hc : c = recNum
        · have hunbound := column_of_unbindNumber hr hnone
          have hrecord := (h.bound_iff _).mp hunbound
          rw [hc, hunbound, Option.map_none, Descriptor.record_setRecord_self]
          symm
          simpa [DescriptorRecord.boundTo] using hrecord
        · rw [Descriptor.record_setRecord_of_ne _ _ _ hc]
          exact h.columns c
      · rw [ColumnBindingMap.highest_erase_of_none hnone]
        exact h.count
  · rw [if_neg hb, if_neg hb]
    have hnew : ({ s.ard.record recNum with
          dataPtr := buffer, length := toULen bufferLen, octetLength := bufferLen } :
        DescriptorRecord).boundTo =
        some ⟨some buffer, bufferLen, pointer (s.ard.record recNum).indicatorPtr⟩ := by
      simp [DescriptorRecord.boundTo, hb, pointer]
    constructor
    · intro h'
      have hrecord := h'.columns recNum
      simp only [Descriptor.record_setRecord_self, hnew] at hrecord
      obtain ⟨b, hbind, hto⟩ := Option.map_eq_some_iff.mp hrecord
      exact ⟨b, hbind, congrArg BoundTo.dataPtr hto, congrArg BoundTo.bufferLength hto⟩
    · rintro ⟨b, hbind, hbuffer, hbuflen⟩
      refine ⟨fun c => ?_, h.count⟩
      by_cases hc : c = recNum
      · have hold := h.columns recNum
        rw [hbind, Option.map_some] at hold
        have hind : b.reslen = pointer (s.ard.record recNum).indicatorPtr := by
          unfold DescriptorRecord.boundTo at hold
          split at hold
          · cases hold
          · exact congrArg BoundTo.indicatorPtr (Option.some.inj hold)
        rw [hc, hbind, Option.map_some, Descriptor.record_setRecord_self, hnew,
          ApplicationDataBuffer.boundTo, hbuffer, hbuflen, hind]
      · rw [Descriptor.record_setRecord_of_ne _ _ _ hc]
        exact h.columns c

theorem bindingCall_inStep_iff (hr : s.InRange) (h : s.InStep) (call : BindingCall) :
    (s.bindingCall call).InStep ↔ s.KeepsStep call := by
  cases call with
  | bindColumn a => exact bindColumn_inStep_iff hr h a
  | unbindAll => exact unbindAll_inStep_iff h
  | setDataPtr recNum buffer bufferLen => exact setDataPtr_inStep_iff hr h recNum bufferLen buffer

theorem toSmallInt_le (n : Int) : toSmallInt n ≤ 32767 := by
  have := Int.bmod_lt (x := n) (m := 65536) (by decide)
  unfold toSmallInt
  omega

theorem raiseCount_le {header : DescriptorHeader} (h : header.count ≤ 32767) (columnIdx : UInt16) :
    (header.raiseCount columnIdx).count ≤ 32767 := by
  simp only [DescriptorHeader.raiseCount]
  split
  · exact toSmallInt_le _
  · exact h

theorem internalSetField_header (d : Descriptor) (recNum : Int) (field : DescField) (buffer : Addr)
    (bufferLen : Int) :
    (d.internalSetField recNum field buffer bufferLen).desc.header = d.header := by
  unfold Descriptor.internalSetField
  split
  · rfl
  · split <;> rfl

theorem InRange.erase (hr : s.InRange) (n : Nat) {d : Descriptor} (hd : d.header = s.ard.header) :
    InRange ⟨s.columnBindings.erase n, d⟩ := by
  refine ⟨fun k hk => ?_, by rw [hd]; exact hr.count⟩
  rw [ColumnBindingMap.find_erase] at hk
  split at hk
  · exact absurd rfl hk
  · exact hr.columns k hk

theorem InRange.bindingCall (hr : s.InRange) (call : BindingCall) :
    (s.bindingCall call).InRange := by
  cases call with
  | bindColumn a =>
    simp only [BoundStatement.bindingCall, internalBindColumn]
    cases a.check with
    | some record => exact hr
    | none =>
      simp only
      split
      · exact hr.erase _ rfl
      · refine ⟨fun k hk => ?_, raiseCount_le hr.count _⟩
        have hlt : a.columnIdx.toNat < 65536 := a.columnIdx.toNat_lt
        by_cases hkey : k = a.columnIdx.toNat
        · omega
        · simp only [safeBindColumn, ColumnBindingMap.find_insert_of_ne _ hkey] at hk
          exact hr.columns k hk
  | unbindAll => exact ⟨fun k hk => absurd rfl hk, hr.count⟩
  | setDataPtr recNum buffer bufferLen =>
    have hheader := internalSetField_header s.ard recNum .dataPtr buffer bufferLen
    simp only [BoundStatement.bindingCall, setArdField]
    cases (s.ard.internalSetField recNum .dataPtr buffer bufferLen).unbound with
    | none => exact ⟨hr.columns, by rw [hheader]; exact hr.count⟩
    | some columnIdx => exact hr.erase columnIdx hheader

end Steps

/-- A statement without bindings and with a new ARD. -/
def unbound (implicit : Bool) (header : DescriptorHeader) : BoundStatement :=
  { ard := .newArd implicit header }

theorem unbound_inRange (implicit : Bool) (header : DescriptorHeader) :
    (unbound implicit header).InRange := by
  refine ⟨fun k hk => absurd rfl hk, ?_⟩
  show (0 : Int) ≤ 32767
  decide

theorem unbound_inStep (implicit : Bool) (header : DescriptorHeader) :
    (unbound implicit header).InStep := by
  refine ⟨fun c => ?_, rfl⟩
  simp [unbound, ColumnBindingMap.column, Descriptor.newArd, Descriptor.record,
    DescriptorRecord.boundTo]

/-- The map and the ARD stay in step along calls from a new ARD exactly when every call keeps them
so: no bound column is unbound, no column number is larger than a `SQLSMALLINT`, and `SetField`
changes no data pointer. -/
theorem bindings_inStep_iff (implicit : Bool) (header : DescriptorHeader)
    (calls : List BindingCall) :
    Lts.Always bindingCall InStep (unbound implicit header) calls ↔
      Lts.Each bindingCall KeepsStep (unbound implicit header) calls :=
  Lts.always_iff (fun _ call hr => hr.bindingCall call)
    (fun _ call hr h => bindingCall_inStep_iff hr h call) (unbound_inRange implicit header)
    (unbound_inStep implicit header)

section Examples

/-- Binding the first column to an integer. -/
def bindInteger (targetValue strLengthOrIndicator : Addr) : BindArgs :=
  { columnIdx := 1, targetType := 4, targetValue, bufferLength := 4, strLengthOrIndicator }

/-- A column that is bound and unbound again stays in the ARD. -/
theorem unbindColumn_stays :
    ¬ Lts.Always bindingCall InStep (unbound true {})
      [.bindColumn (bindInteger 4096 8192), .bindColumn (bindInteger 0 0)] := by
  intro h
  exact absurd (h.last.columns 1) (by decide)

end Examples

end BoundStatement

end TrinoOdbc
