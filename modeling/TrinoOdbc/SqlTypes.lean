import TrinoOdbc.Types

/-!
# TrinoOdbc.SqlTypes

The SQL types of `type_traits`: which one a scalar type is reported as, and the numbers the catalog
functions report about it.

The C++ functions take an optional type and return an optional number, none for none; the functions
here are on the types, and their callers map them over the optional.
-/

namespace TrinoOdbc

inductive SqlType where
  | char | varchar | longvarchar | wchar | wvarchar | wlongvarchar | decimal | numeric | bit
  | tinyint | smallint | integer | bigint | real | float | double | typeDate | typeTime
  | typeTimestamp | typeNull | guid | intervalYearToMonth | intervalDayToSecond
  deriving DecidableEq, Repr

def trinoSqlMaxLength : Int := 65532

namespace SqlType

def code : SqlType → Int
  | .char => 1
  | .numeric => 2
  | .decimal => 3
  | .integer => 4
  | .smallint => 5
  | .float => 6
  | .real => 7
  | .double => 8
  | .varchar => 12
  | .typeDate => 91
  | .typeTime => 92
  | .typeTimestamp => 93
  | .intervalYearToMonth => 107
  | .intervalDayToSecond => 110
  | .longvarchar => -1
  | .bigint => -5
  | .tinyint => -6
  | .bit => -7
  | .wchar => -8
  | .wvarchar => -9
  | .wlongvarchar => -10
  | .guid => -11
  | .typeNull => 0

def all : List SqlType :=
  [.char, .varchar, .longvarchar, .wchar, .wvarchar, .wlongvarchar, .decimal, .numeric, .bit,
    .tinyint, .smallint, .integer, .bigint, .real, .float, .double, .typeDate, .typeTime,
    .typeTimestamp, .typeNull, .guid, .intervalYearToMonth, .intervalDayToSecond]

def ofCode (c : Int) : Option SqlType := all.find? fun t => t.code = c

theorem ofCode_code (t : SqlType) : ofCode t.code = some t := by
  cases t <;> rfl

def columnSize : SqlType → Int
  | .varchar | .wvarchar | .char | .wchar | .longvarchar | .wlongvarchar | .decimal | .numeric =>
    trinoSqlMaxLength
  | .bit | .typeNull => 1
  | .tinyint => 3
  | .smallint => 5
  | .integer => 10
  | .bigint => 19
  | .real => 7
  | .float | .double => 15
  | .typeDate => 10
  | .typeTime => 8
  | .typeTimestamp => 19
  | .guid => 36
  | .intervalDayToSecond => 25
  | .intervalYearToMonth => 12

def transferLength : SqlType → Int
  | .varchar | .wvarchar | .char | .wchar | .longvarchar | .wlongvarchar | .decimal | .numeric =>
    trinoSqlMaxLength
  | .bit | .tinyint | .typeNull => 1
  | .smallint => 2
  | .integer => 4
  | .bigint => 8
  | .float | .real => 4
  | .double => 8
  | .typeDate | .typeTime => 6
  | .typeTimestamp => 16
  | .guid => 16
  | .intervalDayToSecond | .intervalYearToMonth => 34

def numPrecRadix : SqlType → Int
  | .real | .float | .double => 2
  | .bit | .tinyint | .smallint | .integer | .bigint => 10
  | _ => 0

def decimalDigits : SqlType → Int
  | .tinyint | .smallint | .integer | .bigint => 0
  | .double => 15
  | _ => -1

/-- `SQLWCHAR` has two bytes. -/
def charOctetLength : SqlType → Int
  | .char | .varchar | .longvarchar => trinoSqlMaxLength
  | .wchar | .wvarchar | .wlongvarchar => 2 * trinoSqlMaxLength
  | _ => 0

def isUnsigned : SqlType → Bool
  | .bit | .tinyint | .smallint | .integer | .bigint | .real | .float | .double => false
  | _ => true

end SqlType

/-- The types an application may ask for. -/
def isSqlTypeSupported (c : Int) : Bool :=
  match SqlType.ofCode c with
  | some .guid => false
  | some _ => true
  | none => false

def sqlTypeToBinary (c : Int) : ScalarType :=
  match SqlType.ofCode c with
  | some .bit => .boolean
  | some .integer => .integer
  | some .bigint => .bigint
  | some .double => .double
  | some .typeDate => .date
  | some .typeTime => .time
  | some .typeTimestamp => .timestamp
  | some .intervalDayToSecond => .intervalDayToSecond
  | some .intervalYearToMonth => .intervalYearToMonth
  | some .varchar => .varchar
  | _ => .unknown

namespace ScalarType

def binaryToSqlType : ScalarType → SqlType
  | .boolean => .bit
  | .integer => .integer
  | .bigint => .bigint
  | .double => .double
  | .date => .typeDate
  | .time => .typeTime
  | .timestamp => .typeTimestamp
  | .intervalDayToSecond => .intervalDayToSecond
  | .intervalYearToMonth => .intervalYearToMonth
  | .varchar | .notSet | .unknown => .varchar

def binaryTypeToSqlTypeName : ScalarType → String
  | .boolean => "BIT"
  | .integer => "INTEGER"
  | .bigint => "BIGINT"
  | .double => "DOUBLE"
  | .date => "DATE"
  | .time => "TIME"
  | .timestamp => "TIMESTAMP"
  | .intervalDayToSecond => "INTERVAL_DAY_TO_SECOND"
  | .intervalYearToMonth => "INTERVAL_YEAR_TO_MONTH"
  | .varchar => "VARCHAR"
  | .notSet => "NOT_SET"
  | .unknown => "UNKNOWN"

end ScalarType

end TrinoOdbc
