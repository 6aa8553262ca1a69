import TrinoOdbc.Buffer
import TrinoOdbc.SqlTypes
import Mathlib.Logic.Function.Basic

/-!
# TrinoOdbc.Descriptor

`Descriptor`: its header, its records, and the calls that set and get one field.

* `internalSetField`, `internalGetField` — the functions behind `SQLSetDescField` and
  `SQLGetDescField`.
* `setConciseType`, `setDescType` — what setting a type does to the other fields of a record.

A pointer is its address, 0 when null. A field that is set from a pointer argument is the address
converted to the type of the field.
-/

namespace TrinoOdbc

/-- `static_cast< SQLSMALLINT >`. -/
def toSmallInt (n : Int) : Int := n.bmod 65536

/-- `static_cast< SQLINTEGER >`. -/
def toInteger (n : Int) : Int := n.bmod 4294967296

/-- `static_cast< SQLULEN >`. -/
def toULen (n : Int) : Int := n.emod 18446744073709551616

/-! ## Codes -/

namespace SqlCode

/-- The verbose type of dates, times and timestamps. -/
def datetime : Int := 9

/-- The verbose type of intervals. -/
def interval : Int := 10

def codeDate : Int := 1

def codeTime : Int := 2

def codeTimestamp : Int := 3

def codeYearToMonth : Int := 7

def codeDayToSecond : Int := 10

end SqlCode

/-- The names of the types that `SQLTypeToString` knows. -/
def sqlTypeNames : List (Int × String) :=
  [(1, "SQL_CHAR"), (12, "SQL_VARCHAR"), (-1, "SQL_LONGVARCHAR"), (-8, "SQL_WCHAR"),
    (-9, "SQL_WVARCHAR"), (-10, "SQL_WLONGVARCHAR"), (3, "SQL_DECIMAL"), (2, "SQL_NUMERIC"),
    (5, "SQL_SMALLINT"), (4, "SQL_INTEGER"), (7, "SQL_REAL"), (6, "SQL_FLOAT"), (8, "SQL_DOUBLE"),
    (-7, "SQL_BIT"), (-6, "SQL_TINYINT"), (-5, "SQL_BIGINT"), (91, "SQL_TYPE_DATE"),
    (92, "SQL_TYPE_TIME"), (93, "SQL_TYPE_TIMESTAMP"), (101, "SQL_INTERVAL_YEAR"),
    (102, "SQL_INTERVAL_MONTH"), (103, "SQL_INTERVAL_DAY"), (104, "SQL_INTERVAL_HOUR"),
    (105, "SQL_INTERVAL_MINUTE"), (106, "SQL_INTERVAL_SECOND"),
    (107, "SQL_INTERVAL_YEAR_TO_MONTH"), (108, "SQL_INTERVAL_DAY_TO_HOUR"),
    (109, "SQL_INTERVAL_DAY_TO_MINUTE"), (110, "SQL_INTERVAL_DAY_TO_SECOND"),
    (111, "SQL_INTERVAL_HOUR_TO_MINUTE"), (112, "SQL_INTERVAL_HOUR_TO_SECOND"),
    (113, "SQL_INTERVAL_MINUTE_TO_SECOND"), (9, "SQL_DATETIME"), (10, "SQL_INTERVAL"),
    (-11, "SQL_GUID")]

def sqlTypeToString (type : Int) : String := (sqlTypeNames.lookup type).getD (toString type)

/-- The names of the codes that `IntervalCodeToString` knows. `SQL_CODE_DATE`, `SQL_CODE_TIME` and
`SQL_CODE_TIMESTAMP` stand for the year, the month and the day too. -/
def intervalCodeNames : List (Int × String) :=
  [(1, "SQL_CODE_DATE"), (2, "SQL_CODE_TIME"), (3, "SQL_CODE_TIMESTAMP"),
    (8, "SQL_CODE_DAY_TO_HOUR"), (9, "SQL_CODE_DAY_TO_MINUTE"), (10, "SQL_CODE_DAY_TO_SECOND"),
    (4, "SQL_CODE_HOUR"), (11, "SQL_CODE_HOUR_TO_MINUTE"), (12, "SQL_CODE_HOUR_TO_SECOND"),
    (5, "SQL_CODE_MINUTE"), (13, "SQL_CODE_MINUTE_TO_SECOND"), (6, "SQL_CODE_SECOND"),
    (7, "SQL_CODE_YEAR_TO_MONTH")]

def intervalCodeToString (code : Int) : String :=
  (intervalCodeNames.lookup code).getD (toString code)

/-! ## Fields -/

/-- The descriptor fields by name, and any other number. -/
inductive DescField where
  | allocType | arraySize | arrayStatusPtr | bindOffsetPtr | bindType | count | rowsProcessedPtr
  | autoUniqueValue | baseColumnName | baseTableName | caseSensitive | catalogName | conciseType
  | dataPtr | datetimeIntervalCode | datetimeIntervalPrecision | displaySize | fixedPrecScale
  | indicatorPtr | label | length | literalPrefix | literalSuffix | localTypeName | name | nullable
  | numPrecRadix | octetLength | octetLengthPtr | parameterType | precision | rowver | scale
  | schemaName | searchable | tableName | type | typeName | unnamed | unsigned | updatable
  | other (fieldId : Int)
  deriving DecidableEq, Repr

namespace DescField

/-- The number of a field and its name in `FieldIdToString`. -/
def describe : DescField → Int × String
  | .allocType => (1099, "SQL_DESC_ALLOC_TYPE")
  | .arraySize => (20, "SQL_DESC_ARRAY_SIZE")
  | .arrayStatusPtr => (21, "SQL_DESC_ARRAY_STATUS_PTR")
  | .bindOffsetPtr => (24, "SQL_DESC_BIND_OFFSET_PTR")
  | .bindType => (25, "SQL_DESC_BIND_TYPE")
  | .count => (1001, "SQL_DESC_COUNT")
  | .rowsProcessedPtr => (34, "SQL_DESC_ROWS_PROCESSED_PTR")
  | .autoUniqueValue => (11, "SQL_DESC_AUTO_UNIQUE_VALUE")
  | .baseColumnName => (22, "SQL_DESC_BASE_COLUMN_NAME")
  | .baseTableName => (23, "SQL_DESC_BASE_TABLE_NAME")
  | .caseSensitive => (12, "SQL_DESC_CASE_SENSITIVE")
  | .catalogName => (17, "SQL_DESC_CATALOG_NAME")
  | .conciseType => (2, "SQL_DESC_CONCISE_TYPE")
  | .dataPtr => (1010, "SQL_DESC_DATA_PTR")
  | .datetimeIntervalCode => (1007, "SQL_DESC_DATETIME_INTERVAL_CODE")
  | .datetimeIntervalPrecision => (26, "SQL_DESC_DATETIME_INTERVAL_PRECISION")
  | .displaySize => (6, "SQL_DESC_DISPLAY_SIZE")
  | .fixedPrecScale => (9, "SQL_DESC_FIXED_PREC_SCALE")
  | .indicatorPtr => (1009, "SQL_DESC_INDICATOR_PTR")
  | .label => (18, "SQL_DESC_LABEL")
  | .length => (1003, "SQL_DESC_LENGTH")
  | .literalPrefix => (27, "SQL_DESC_LITERAL_PREFIX")
  | .literalSuffix => (28, "SQL_DESC_LITERAL_SUFFIX")
  | .localTypeName => (29, "SQL_DESC_LOCAL_TYPE_NAME")
  | .name => (1011, "SQL_DESC_NAME")
  | .nullable => (1008, "SQL_DESC_NULLABLE")
  | .numPrecRadix => (32, "SQL_DESC_NUM_PREC_RADIX")
  | .octetLength => (1013, "SQL_DESC_OCTET_LENGTH")
  | .octetLengthPtr => (1004, "SQL_DESC_OCTET_LENGTH_PTR")
  | .parameterType => (33, "SQL_DESC_PARAMETER_TYPE")
  | .precision => (1005, "SQL_DESC_PRECISION")
  | .rowver => (35, "SQL_DESC_ROWVER")
  | .scale => (1006, "SQL_DESC_SCALE")
  | .schemaName => (16, "SQL_DESC_SCHEMA_NAME")
  | .searchable => (13, "SQL_DESC_SEARCHABLE")
  | .tableName => (15, "SQL_DESC_TABLE_NAME")
  | .type => (1002, "SQL_DESC_TYPE")
  | .typeName => (14, "SQL_DESC_TYPE_NAME")
  | .unnamed => (1012, "SQL_DESC_UNNAMED")
  | .unsigned => (8, "SQL_DESC_UNSIGNED")
  | .updatable => (10, "SQL_DESC_UPDATABLE")
  | .other fieldId => (fieldId, "UNKNOWN_FIELD_ID")

def fieldIdToString (field : DescField) : String := field.describe.2

end DescField

inductive DescType where
  | ard | apd | ird | ipd | unknown
  deriving DecidableEq, Repr

def DescType.descTypeToString : DescType → String
  | .ard => "ARD"
  | .apd => "APD"
  | .ird => "IRD"
  | .ipd => "IPD"
  | .unknown => "UNKNOWN"

/-! ## The class -/

structure DescriptorHeader where
  allocType : Int := 0
  arraySize : Int := 0
  arrayStatusPtr : Addr := 0
  bindOffsetPtr : Addr := 0
  bindType : Int := 0
  count : Int := 0
  rowsProcessedPtr : Addr := 0
  deriving DecidableEq, Repr

/-- A record that the map creates is zero in all its fields. -/
structure DescriptorRecord where
  autoUniqueValue : Int := 0
  baseColumnName : Addr := 0
  baseTableName : Addr := 0
  caseSensitive : Int := 0
  catalogName : Addr := 0
  conciseType : Int := 0
  dataPtr : Addr := 0
  datetimeIntervalCode : Int := 0
  datetimeIntervalPrecision : Int := 0
  displaySize : Int := 0
  fixedPrecScale : Int := 0
  indicatorPtr : Addr := 0
  label : Addr := 0
  length : Int := 0
  literalPrefix : Addr := 0
  literalSuffix : Addr := 0
  localTypeName : Addr := 0
  name : Addr := 0
  nullable : Int := 0
  numPrecRadix : Int := 0
  octetLength : Int := 0
  octetLengthPtr : Addr := 0
  parameterType : Int := 0
  precision : Int := 0
  rowver : Int := 0
  scale : Int := 0
  schemaName : Addr := 0
  searchable : Int := 0
  tableName : Addr := 0
  type : Int := 0
  typeName : Addr := 0
  unnamed : Int := 0
  descUnsigned : Int := 0
  updatable : Int := 0
  deriving DecidableEq, Repr

/-- `conn` and `stmt` are the connection and the statement it points to. `records` is the map from
record numbers to records. -/
structure Descriptor where
  type : DescType := .unknown
  conn : Option Nat := none
  stmt : Option Nat := none
  header : DescriptorHeader := {}
  records : Int → Option DescriptorRecord := fun _ => none

namespace DescriptorHeader

def allocAuto : Int := 1

def allocUser : Int := 2

def bindByColumn : Int := 0

/-- `InitAppHead`, which leaves `rowsProcessedPtr` as it is. -/
def initAppHead (implicit : Bool) (header : DescriptorHeader) : DescriptorHeader :=
  { header with
    allocType := if implicit then allocAuto else allocUser, arraySize := 1, arrayStatusPtr := 0
    bindOffsetPtr := 0, bindType := bindByColumn, count := 0 }

/-- `InitImpHead`, which leaves the other three as they are. -/
def initImpHead (header : DescriptorHeader) : DescriptorHeader :=
  { header with allocType := allocAuto, arrayStatusPtr := 0, count := 0, rowsProcessedPtr := 0 }

end DescriptorHeader

/-! ## Types of a record -/

/-- The types of `IsValidConciseType`. -/
def conciseTypes : List SqlType :=
  [.char, .varchar, .longvarchar, .wchar, .wvarchar, .wlongvarchar, .decimal, .numeric, .smallint,
    .integer, .real, .float, .double, .bit, .tinyint, .bigint, .typeDate, .typeTime,
    .typeTimestamp, .intervalYearToMonth, .intervalDayToSecond]

def isValidConciseType (value : Int) : Bool := conciseTypes.any fun t => t.code = value

/-- The types of `IsValidType` besides `SQL_DATETIME` and `SQL_INTERVAL`. -/
def plainTypes : List SqlType :=
  [.char, .varchar, .longvarchar, .wchar, .wvarchar, .wlongvarchar, .decimal, .numeric, .smallint,
    .integer, .real, .float, .double, .bit, .tinyint, .bigint]

def isValidType (value : Int) : Bool :=
  (plainTypes.any fun t => t.code = value) || value = SqlCode.datetime || value = SqlCode.interval

namespace DescriptorRecord

open SqlCode

def isValidIntervalCode (record : DescriptorRecord) (value : Int) : Bool :=
  if record.type = datetime then value = codeDate || value = codeTime || value = codeTimestamp
  else if record.type = interval then value = codeYearToMonth || value = codeDayToSecond
  else false

def setConciseType (record : DescriptorRecord) (value : Int) : DescriptorRecord :=
  let record := { record with conciseType := value }
  if value = SqlType.typeDate.code ∨ value = SqlType.typeTime.code ∨
      value = SqlType.typeTimestamp.code then
    { record with
      type := datetime
      datetimeIntervalCode :=
        if value = SqlType.typeDate.code then codeDate
        else if value = SqlType.typeTime.code then codeTime
        else codeTimestamp }
  else if value = SqlType.intervalYearToMonth.code ∨ value = SqlType.intervalDayToSecond.code then
    { record with
      type := interval
      datetimeIntervalCode :=
        if value = SqlType.intervalYearToMonth.code then codeYearToMonth else codeDayToSecond }
  else { record with type := value, datetimeIntervalCode := 0 }

/-- The length `SetDescType` gives a record of a type. -/
def typeLength (record : DescriptorRecord) (value : Int) : Int :=
  if value = SqlType.char.code ∨ value = SqlType.varchar.code then 1 else record.length

/-- The precision, which for `SQL_DATETIME` and `SQL_INTERVAL` goes by the code of the record. -/
def typePrecision (record : DescriptorRecord) (value : Int) : Int :=
  if value = SqlType.char.code ∨ value = SqlType.varchar.code then 0
  else if value = datetime then
    if record.datetimeIntervalCode = codeDate ∨ record.datetimeIntervalCode = codeTime then 0
    else if record.datetimeIntervalCode = codeTimestamp then 6
    else record.precision
  else if value = SqlType.decimal.code ∨ value = SqlType.numeric.code then 15
  else if value = SqlType.float.code then 6
  else if value = interval then
    if record.datetimeIntervalCode = codeYearToMonth then 2
    else if record.datetimeIntervalCode = codeDayToSecond then 6
    else record.precision
  else record.precision

def typeScale (record : DescriptorRecord) (value : Int) : Int :=
  if value = SqlType.decimal.code ∨ value = SqlType.numeric.code then 0 else record.scale

def setDescType (record : DescriptorRecord) (value : Int) : DescriptorRecord :=
  { record with
    type := value
    conciseType := if value ≠ datetime ∧ value ≠ interval then value else record.conciseType
    datetimeIntervalCode :=
      if value ≠ datetime ∧ value ≠ interval then 0 else record.datetimeIntervalCode
    length := record.typeLength value
    precision := record.typePrecision value
    scale := record.typeScale value }

end DescriptorRecord

/-! ## Setting a field -/

def generalError (message : String) : DiagnosticRecord :=
  { sqlState := .shy000GeneralError, message }

def invalidFieldId : DiagnosticRecord :=
  { sqlState := .shy091InvalidDescrFieldId, message := "Invalid descriptor field id" }

def unsupportedFieldId (field : DescField) : DiagnosticRecord :=
  generalError ("Unsupported fieldId " ++ toString field.describe.1)

/-- The types whose length can be set. -/
def lengthTypes : List SqlType := [.char, .varchar, .longvarchar, .wchar, .wvarchar, .wlongvarchar]

namespace DescriptorRecord

/-- The switch of `InternalSetField`. -/
def setField (record : DescriptorRecord) (field : DescField) (buffer : Addr) (bufferLen : Int) :
    Except DiagnosticRecord DescriptorRecord :=
  match field with
  | .allocType | .arraySize | .arrayStatusPtr | .bindOffsetPtr | .bindType | .count
  | .rowsProcessedPtr => .error invalidFieldId
  | .conciseType =>
    let value := toSmallInt buffer
    if isValidConciseType value then .ok (record.setConciseType value)
    else .error (generalError ("Invalid concise type " ++ sqlTypeToString value))
  | .dataPtr =>
    if buffer = 0 then .ok { record with length := 0, octetLength := 0 }
    else .ok { record with dataPtr := buffer, length := toULen bufferLen, octetLength := bufferLen }
  | .datetimeIntervalCode =>
    let code := toSmallInt buffer
    if record.isValidIntervalCode code then .ok { record with datetimeIntervalCode := code }
    else
      .error (generalError ("Invalid interval code " ++ intervalCodeToString code ++ " for type " ++
        sqlTypeToString record.type))
  | .datetimeIntervalPrecision =>
    if record.type = SqlCode.interval then
      .ok { record with datetimeIntervalPrecision := toInteger buffer }
    else
      .error (generalError ("Interval precision could only be set when " ++
        "SQL_DESC_TYPE is set to SQL_INTERVAL"))
  | .indicatorPtr => .ok { record with indicatorPtr := buffer }
  | .octetLengthPtr => .ok { record with octetLengthPtr := buffer }
  | .octetLength | .length =>
    if lengthTypes.any fun t => t.code = record.conciseType then
      .ok { record with
        length := toULen buffer, octetLength := (toULen buffer).bmod 18446744073709551616 }
    else
      .error (generalError ("SQL_DESC_LENGTH could not be set for fixed length type " ++
        sqlTypeToString record.conciseType))
  | .type =>
    let value := toSmallInt buffer
    if isValidType value then .ok (record.setDescType value)
    else .error (generalError ("Invalid type " ++ sqlTypeToString value))
  | field => .error (unsupportedFieldId field)

end DescriptorRecord

/-- `unbound` is the column that the statement of the descriptor unbinds. -/
structure SetFieldOutcome where
  result : SqlResult
  diag : List DiagnosticRecord
  desc : Descriptor
  unbound : Option Nat := none

namespace Descriptor

/-- `records_[recNum]`, which makes the record when there is none. -/
def record (d : Descriptor) (recNum : Int) : DescriptorRecord := (d.records recNum).getD {}

def setRecord (d : Descriptor) (recNum : Int) (record : DescriptorRecord) : Descriptor :=
  { d with records := Function.update d.records recNum (some record) }

/-- The lengths that are rejected. `SQL_NTS` is -3 and `SQL_IS_POINTER` is -4. -/
def invalidBufferLen (bufferLen : Int) : Bool := bufferLen < 0 && bufferLen ≠ -3 && bufferLen ≠ -4

/-- The column numbers of a statement are of type `uint16_t`. -/
def unbindNumber (recNum : Int) : Nat := (recNum.emod 65536).toNat

def internalSetField (d : Descriptor) (recNum : Int) (field : DescField) (buffer : Addr)
    (bufferLen : Int) : SetFieldOutcome :=
  if invalidBufferLen bufferLen then
    { result := .error
      diag := [generalError ("Invalid buffer length " ++ toString bufferLen)], desc := d }
  else
    match (d.record recNum).setField field buffer bufferLen with
    | .error record =>
      { result := .error, diag := [record], desc := d.setRecord recNum (d.record recNum) }
    | .ok record =>
      { result := .success, diag := [], desc := d.setRecord recNum record
        unbound := if field = .dataPtr ∧ buffer = 0 then some (unbindNumber recNum) else none }

end Descriptor

/-! ## Getting a field -/

namespace DescField

/-- The descriptor types a field can be read from, `none` for all. -/
def allowedTypes : DescField → Option (List DescType)
  | .arraySize | .bindOffsetPtr | .bindType | .dataPtr | .indicatorPtr | .octetLengthPtr =>
    some [.ard, .apd]
  | .rowsProcessedPtr | .caseSensitive | .fixedPrecScale | .localTypeName | .name | .nullable
  | .rowver | .typeName | .unnamed | .unsigned => some [.ird, .ipd]
  | .autoUniqueValue | .baseColumnName | .baseTableName | .catalogName | .displaySize | .label
  | .literalPrefix | .literalSuffix | .schemaName | .searchable | .tableName | .updatable =>
    some [.ird]
  | .parameterType => some [.ipd]
  | _ => none

def isAllowed (field : DescField) (type : DescType) : Bool :=
  match field.allowedTypes with
  | none => true
  | some types => types.contains type

/-- What `InternalGetField` stores, `none` for a field it does not know. -/
def value (header : DescriptorHeader) (record : DescriptorRecord) : DescField → Option Int
  | .allocType => some header.allocType
  | .arraySize => some header.arraySize
  | .arrayStatusPtr => some header.arrayStatusPtr
  | .bindOffsetPtr => some header.bindOffsetPtr
  | .bindType => some header.bindType
  | .count => some header.count
  | .rowsProcessedPtr => some header.rowsProcessedPtr
  | .autoUniqueValue => some record.autoUniqueValue
  | .baseColumnName => some record.baseColumnName
  | .baseTableName => some record.baseTableName
  | .caseSensitive => some record.caseSensitive
  | .catalogName => some record.catalogName
  | .conciseType => some record.conciseType
  | .dataPtr => some record.dataPtr
  | .datetimeIntervalCode => some record.datetimeIntervalCode
  | .datetimeIntervalPrecision => some record.datetimeIntervalPrecision
  | .displaySize => some record.displaySize
  | .fixedPrecScale => some record.fixedPrecScale
  | .indicatorPtr => some record.indicatorPtr
  | .label => some record.label
  | .length => some record.length
  | .literalPrefix => some record.literalPrefix
  | .literalSuffix => some record.literalSuffix
  | .localTypeName => some record.localTypeName
  | .name => some record.name
  | .nullable => some record.nullable
  | .numPrecRadix => some record.numPrecRadix
  | .octetLength => some record.octetLength
  | .octetLengthPtr => some record.octetLengthPtr
  | .parameterType => some record.parameterType
  | .precision => some record.precision
  | .rowver => some record.rowver
  | .scale => some record.scale
  | .schemaName => some record.schemaName
  | .searchable => some record.searchable
  | .tableName => some record.tableName
  | .type => some record.type
  | .typeName => some record.typeName
  | .unnamed => some record.unnamed
  | .unsigned => some record.descUnsigned
  | .updatable => some record.updatable
  | .other _ => none

end DescField

def notAllowed (type : DescType) (field : DescField) : DiagnosticRecord :=
  generalError ("Current descriptor type " ++ type.descTypeToString ++
    " is not allowed to get field " ++ field.fieldIdToString)

namespace Descriptor

/-- The value that is stored, or the record about why none is. -/
def getField (d : Descriptor) (recNum : Int) (field : DescField) : Except DiagnosticRecord Int :=
  if field.isAllowed d.type then
    match field.value d.header (d.record recNum) with
    | some v => .ok v
    | none => .error (unsupportedFieldId field)
  else .error (notAllowed d.type field)

/-- `InternalGetField`. Reading a field makes the record too. -/
def internalGetField (d : Descriptor) (recNum : Int) (field : DescField) :
    Except DiagnosticRecord Int × Descriptor :=
  (d.getField recNum field, d.setRecord recNum (d.record recNum))

/-! ## What a field call leaves -/

section Fields

variable (d : Descriptor) (recNum : Int) (record : DescriptorRecord)

@[simp] theorem setRecord_type : (d.setRecord recNum record).type = d.type := rfl
@[simp] theorem setRecord_header : (d.setRecord recNum record).header = d.header := rfl

@[simp] theorem record_setRecord_self : (d.setRecord recNum record).record recNum = record := by
  simp [Descriptor.record, setRecord]

theorem record_setRecord_of_ne {n : Int} (h : n ≠ recNum) :
    (d.setRecord recNum record).record n = d.record n := by
  simp [Descriptor.record, setRecord, Function.update_of_ne h]

/-- Making a record is not seen by the calls that read one. -/
@[simp] theorem record_setRecord_record (n : Int) :
    (d.setRecord recNum (d.record recNum)).record n = d.record n := by
  by_cases h : n = recNum
  · subst h
    exact record_setRecord_self d n _
  · exact record_setRecord_of_ne d recNum _ h

end Fields

/-- A field call that fails leaves every field as it was. -/
theorem internalSetField_error {d : Descriptor} {recNum bufferLen : Int} {field : DescField}
    {buffer : Addr} (h : (d.internalSetField recNum field buffer bufferLen).result = .error)
    (n : Int) (f : DescField) :
    (d.internalSetField recNum field buffer bufferLen).desc.getField n f = d.getField n f := by
  unfold internalSetField at h ⊢
  split
  · rfl
  · rename_i hlen
    rw [if_neg hlen] at h
    split at h
    · rename_i record hset
      simp [getField]
    · cases h

/-- A field call is about one record. -/
theorem internalSetField_record_of_ne {d : Descriptor} {recNum bufferLen n : Int}
    {field : DescField} {buffer : Addr} (h : n ≠ recNum) :
    (d.internalSetField recNum field buffer bufferLen).desc.record n = d.record n := by
  unfold internalSetField
  split
  · rfl
  · split
    · exact record_setRecord_of_ne d recNum _ h
    · exact record_setRecord_of_ne d recNum _ h

end Descriptor

end TrinoOdbc
