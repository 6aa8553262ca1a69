import TrinoOdbc.Conversion
import TrinoOdbc.Cursor

/-!
# TrinoOdbc.TrinoColumn

`TrinoColumn`: a value of the service, as the `Put` function for the type of its column stores it.
A value that is not scalar is put together as text, with a buffer of its own for each element.
-/

namespace TrinoOdbc

open Calendar (Tm)
open Formatted (Directive scanInt scan)
open ApplicationDataBuffer

/-! ## Numbers from text -/

/-- `std::stoi` and `std::stol`, for the range of their type. They throw without a number, and for a
number out of range. -/
def stringToNumber (lo hi : Int) (s : List Char) : Option Int :=
  match scanInt none s with
  | none => none
  | some (v, _) => if lo ≤ v ∧ v ≤ hi then some v else none

def stringToInt (s : List Char) : Int := (stringToNumber (-2147483648) 2147483647 s).getD 0

/-- The largest `long`. -/
def Platform.longMax (P : Platform) : Int := 256 ^ P.longBytes / 2 - 1

def stringToLong (P : Platform) (s : List Char) : Int :=
  (stringToNumber (-P.longMax - 1) P.longMax s).getD 0

/-- What the `int` variables of a function hold that it does not initialize. -/
def Platform.uninitializedInt (P : Platform) (i : Nat) : Int := toInt32 (P.uninitialized i)

/-- The `int` variables after `sscanf`, from what they hold before. -/
def sscanf (P : Platform) (format : List Directive) (s : List Char) (before : List Int) :
    List Int :=
  let assigned := (scan format s).map fun v => if IsInt32 v then v else toInt32 (P.scanOverflow v)
  assigned ++ before.drop assigned.length

/-! ## Scalar values -/

def dateFormat : List Directive :=
  [.int (some 4), .literal '-', .int (some 2), .literal '-', .int (some 2)]

/-- `"%2d:%2d:%2d.%9d"`. -/
def timeFormat : List Directive :=
  [.int (some 2), .literal ':', .int (some 2), .literal ':', .int (some 2), .literal '.',
    .int (some 9)]

/-- `"%4d-%2d-%2d %2d:%2d:%2d.%9d"`. -/
def timestampFormat : List Directive := dateFormat ++ .space :: timeFormat

/-- `"%d-%d"`. -/
def yearMonthFormat : List Directive := [.int none, .literal '-', .int none]

/-- `"%d %2d:%2d:%2d.%9d"`. -/
def daySecondFormat : List Directive := .int none :: .space :: timeFormat

/-- The fields scanned into a `tm` that has been cleared. -/
def tmOfFields (v : List Int) : Tm :=
  { year := v.getD 0 0 - 1900, mon := v.getD 1 0 - 1, mday := v.getD 2 0
    hour := v.getD 3 0, min := v.getD 4 0, sec := v.getD 5 0 }

def parseTimestamp (P : Platform) (s : List Char) : Timestamp :=
  let v := sscanf P timestampFormat s [0, 0, 0, 0, 0, 0, P.uninitializedInt 0]
  ⟨Calendar.timegm (tmOfFields v), v.getD 6 0⟩

/-- In milliseconds. -/
def parseDate (P : Platform) (s : List Char) : Int :=
  Calendar.timegm (tmOfFields (sscanf P dateFormat s [0, 0, 0])) * 1000

/-- The seconds are computed in `uint32_t`. -/
def parseTime (P : Platform) (s : List Char) : TimeOfDay :=
  let v := sscanf P timeFormat s
    [P.uninitializedInt 0, P.uninitializedInt 1, P.uninitializedInt 2, P.uninitializedInt 3]
  ⟨toInt32 ((v.getD 0 0 * 60 + v.getD 1 0) * 60 + v.getD 2 0), v.getD 3 0⟩

def parseYearMonth (P : Platform) (s : List Char) : IntervalYearMonth :=
  let v := sscanf P yearMonthFormat s [P.uninitializedInt 0, P.uninitializedInt 1]
  ⟨v.getD 0 0, v.getD 1 0⟩

def parseDaySecond (P : Platform) (s : List Char) : IntervalDaySecond :=
  let v := sscanf P daySecondFormat s
    [P.uninitializedInt 0, P.uninitializedInt 1, P.uninitializedInt 2, P.uninitializedInt 3,
      P.uninitializedInt 4]
  ⟨v.getD 0 0, v.getD 1 0, v.getD 2 0, v.getD 3 0, v.getD 4 0⟩

/-- A number that `std::stod` does not read is an exception. -/
def parseScalarType (P : Platform) (type : ScalarType) (value : String)
    (b : ApplicationDataBuffer) : Except PutFault Conversion :=
  match type with
  | .varchar => putString P (Utf8.encode value.toList) b
  | .double =>
    match P.reals.stod (Utf8.encode value.toList) with
    | none => .error .exception
    | some x => putDouble P x b
  | .boolean => putInt8 P (if value = "true" then 1 else 0) b
  | .integer => putInt32 P (stringToInt value.toList) b
  | .bigint => putInt64 P (stringToLong P value.toList) b
  | .notSet | .unknown => .ok b.putNull
  | .timestamp => putTimestamp P (parseTimestamp P value.toList) b
  | .date => putDate P (parseDate P value.toList) b
  | .time => putTime P (parseTime P value.toList) b
  | .intervalYearToMonth => putYearMonth P (parseYearMonth P value.toList) b
  | .intervalDayToSecond => putDaySecond P (parseDaySecond P value.toList) b

/-! ## Values that are not scalar -/

/-- The buffer for an element, `char buf[BUFFER_SIZE]`. -/
def elementBuffer : ApplicationDataBuffer :=
  { type := .char, buffer := some 0, buflen := 1024, reslen := some 1024 }

/-- The text in the buffer of an element, which is cleared before. -/
def elementText (c : Conversion) : List UInt8 :=
  (c.stored (fun _ => 0) 0 1024).takeWhile (· ≠ 0)

/-- An ASCII text. -/
def ascii (s : String) : List UInt8 := Utf8.encode s.toList

/-- The elements with a comma behind each but the last. -/
def separated : List (List UInt8) → List UInt8
  | [] => []
  | [e] => e
  | e :: es => e ++ ascii "," ++ separated es

def enclosed (before : String) (elements : List (List UInt8)) (after : String) : List UInt8 :=
  ascii before ++ separated elements ++ ascii after

/-- `{time: t, value: v}`. -/
def pointText (time : Option String) (value : List UInt8) : List UInt8 :=
  ascii "\x7btime: " ++ (time.map fun t => Utf8.encode t.toList).getD [] ++ ascii ", value: " ++
    value ++ ascii "\x7d"

mutual

def parseDatum (P : Platform) (type : ScalarType) :
    Datum → ApplicationDataBuffer → Except PutFault Conversion
  | .scalar value, b => parseScalarType P type value b
  | .timeSeries points, b =>
    match parsePoints P type points with
    | .error e => .error e
    | .ok elements => putString P (enclosed "[" elements "]") b
  | .array values, b =>
    match parseElements P type values with
    | .error e => .error e
    | .ok elements =>
      putString P (if elements.isEmpty then ascii "-" else enclosed "[" elements "]") b
  | .row none, _ => .ok { result := .noData }
  | .row (some values), b =>
    match parseElements P type values with
    | .error e => .error e
    | .ok elements => putString P (enclosed "(" elements ")") b
  | .null, b => (putString P (ascii "-") b).map fun c => { c with result := .success }
  | .unset, _ => .ok { result := .failure }

/-- The texts of elements. What `ParseDatum` returns for an element is not looked at. -/
def parseElements (P : Platform) (type : ScalarType) :
    List Datum → Except PutFault (List (List UInt8))
  | [] => .ok []
  | d :: ds =>
    match parseDatum P type d elementBuffer with
    | .error e => .error e
    | .ok c =>
      match parseElements P type ds with
      | .error e => .error e
      | .ok elements => .ok (elementText c :: elements)

def parsePoints (P : Platform) (type : ScalarType) :
    List (Option String × Option Datum) → Except PutFault (List (List UInt8))
  | [] => .ok []
  | (time, none) :: points =>
    match parsePoints P type points with
    | .error e => .error e
    | .ok elements => .ok (pointText time [] :: elements)
  | (time, some d) :: points =>
    match parseDatum P type d elementBuffer with
    | .error e => .error e
    | .ok c =>
      match parsePoints P type points with
      | .error e => .error e
      | .ok elements => .ok (pointText time (elementText c) :: elements)

end

/-- `ReadToBuffer`. -/
def readToBuffer (P : Platform) (column : ColumnMeta) (datum : Datum)
    (b : ApplicationDataBuffer) : Except PutFault Conversion :=
  match column.columnInfo with
  | none => .ok { result := .failure }
  | some info =>
    if info.typeHasBeenSet = false then .ok { result := .failure }
    else parseDatum P (column.dataType.getD .notSet) datum b

end TrinoOdbc
