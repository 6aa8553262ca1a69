import TrinoOdbc.Buffer
import TrinoOdbc.ByteMemory
import TrinoOdbc.Calendar
import TrinoOdbc.Configuration
import TrinoOdbc.Formatted
import TrinoOdbc.WideText

/-!
# TrinoOdbc.Conversion

The `Put` functions of `ApplicationDataBuffer`: what they write to the buffer, byte by byte, the
length they store, and their result.

A `std::string` is its bytes here, and the integers are the mathematical ones in the range of their
type. What the code leaves to the platform (locale, environment, floating point, memory that has not
been initialized) is a `Platform`.
-/

namespace TrinoOdbc

open ByteMemory (Memory Writes apply encode read)
open Calendar (Tm)
open Formatted (decimal spacePadded zeroPadded)

/-! ## The platform -/

/-- `float` and `double`, with their casts and their text. -/
structure Reals where
  Real : Type
  ofInt : Int → Real
  floatBytes : Real → List UInt8
  doubleBytes : Real → List UInt8
  length_floatBytes : ∀ x, (floatBytes x).length = 4
  length_doubleBytes : ∀ x, (doubleBytes x).length = 8
  /-- The cast to an integer type, signed or not, of a size in bytes. -/
  truncate : Bool → Nat → Real → Int
  negative : Real → Bool
  abs : Real → Real
  /-- What a stream prints. -/
  print : Real → List Char
  /-- What a stream reads into a `double`. -/
  read : List UInt8 → Real
  /-- `std::stod`, which may throw. -/
  stod : List UInt8 → Option Real

structure Platform where
  wchar : WcharSize
  /-- `sizeof(long)`. -/
  longBytes : Nat
  longBytes_eq : longBytes = 4 ∨ longBytes = 8
  ansiStringOnly : Bool
  /-- The characters of the locale, with `?` for those it does not have. -/
  narrow : Char → UInt8
  narrow_ascii : ∀ c : Char, c.toNat < 128 → narrow c = UInt8.ofNat c.toNat
  narrow_ne_zero : ∀ c : Char, c ≠ '\x00' → narrow c ≠ 0
  /-- Whether `%Y` of `strftime` fills the year up to four digits. -/
  padsYear : Bool
  /-- What `gmtime_r` leaves behind for a year that is no `int`. -/
  gmtimeFailure : Int → Tm
  /-- What the variables of a function hold that it does not initialize. -/
  uninitialized : Nat → Int
  /-- What `scanf` stores for a number that is no `int`. -/
  scanOverflow : Int → Int
  reals : Reals

/-- The numbers of an `int32_t`. -/
def IsInt32 (v : Int) : Prop := -2147483648 ≤ v ∧ v ≤ 2147483647

instance (v : Int) : Decidable (IsInt32 v) := inferInstanceAs (Decidable (_ ∧ _))

def Platform.gmtime (P : Platform) (seconds : Int) : Tm :=
  let t := Calendar.gmtime seconds
  if IsInt32 t.year then t else P.gmtimeFailure seconds

/-- A platform with 64-bit `long`, 16-bit `SQLWCHAR` and a UTF-8 locale; its floating point knows
whole numbers only. -/
def Platform.linux : Platform where
  wchar := .two
  longBytes := 8
  longBytes_eq := .inr rfl
  ansiStringOnly := false
  narrow c := if c.toNat < 128 then UInt8.ofNat c.toNat else 63
  narrow_ascii c hc := if_pos hc
  narrow_ne_zero c hc := by
    split
    · rename_i hlt
      intro hzero
      have hval := congrArg UInt8.toNat hzero
      rw [UInt8.toNat_ofNat'] at hval
      change _ = 0 at hval
      exact hc (Char.toNat_inj.mp (by change c.toNat = 0; omega))
    · decide
  padsYear := false
  gmtimeFailure _ := ⟨0, 0, 0, 0, 0, 0⟩
  uninitialized _ := 0
  scanOverflow _ := -1
  reals :=
    { Real := Int, ofInt := id, floatBytes := encode 4, doubleBytes := encode 8
      length_floatBytes := ByteMemory.length_encode 4
      length_doubleBytes := ByteMemory.length_encode 8
      truncate := fun _ _ x => x, negative := fun x => x < 0, abs := fun x => x.natAbs
      print := decimal, read := fun _ => 0, stod := fun _ => none }

/-! ## Values -/

/-- An integer of a type with a size in bytes, or a `float` or `double`. -/
inductive Num (R : Reals) where
  | int (size : Nat) (v : Int)
  | real (size : Nat) (x : R.Real)

namespace Num

variable {R : Reals}

/-- The bytes of the cast to an integer type. -/
def toInteger (signed : Bool) (size : Nat) : Num R → List UInt8
  | .int _ v => encode size v
  | .real _ x => encode size (R.truncate signed size x)

def toReal : Num R → R.Real
  | .int _ v => R.ofInt v
  | .real _ x => x

/-- The cast to `int64_t`. -/
def toInt64 : Num R → Int
  | .int _ v => v
  | .real _ x => R.truncate true 8 x

def negative : Num R → Bool
  | .int _ v => v < 0
  | .real _ x => R.negative x

/-- `uval` of `PutNum`. -/
def magnitude : Num R → Nat
  | .int _ v => v.natAbs
  | .real _ x => (R.truncate false 8 (R.abs x)).toNat

/-- The bytes of the value itself. -/
def bytes : Num R → List UInt8
  | .int size v => encode size v
  | .real size x => if size = 4 then R.floatBytes x else R.doubleBytes x

def text : Num R → List Char
  | .int _ v => decimal v
  | .real _ x => R.print x

end Num

structure Timestamp where
  seconds : Int
  fractionNs : Int

/-- From milliseconds. -/
def Timestamp.ofMs (ms : Int) : Timestamp := ⟨ms.tdiv 1000, ms.tmod 1000 * 1000000⟩

/-- The time of day. -/
structure TimeOfDay where
  seconds : Int
  fractionNs : Int

/-- From milliseconds; the seconds are an `int32_t`. -/
def TimeOfDay.ofMs (ms : Int) : TimeOfDay := ⟨toInt32 (ms.tdiv 1000), ms.tmod 1000 * 100000⟩

structure IntervalYearMonth where
  year : Int
  month : Int

structure IntervalDaySecond where
  day : Int
  hour : Int
  minute : Int
  second : Int
  fraction : Int

/-- What `PutDecimal` gets from a `Decimal`: the integers it converts to, its text, and the integer
part with the bytes of its magnitude, the highest first. -/
structure Decimal (R : Reals) where
  toInt64 : Int
  toDouble : R.Real
  text : List Char
  magnitude : List UInt8
  negative : Bool
  precision : Int

/-! ## Results -/

/-- How a conversion can end without a result. -/
inductive PutFault where
  | nullPointer | exception
  deriving DecidableEq, Repr

/-- The writes are at offsets from the data pointer. -/
structure Conversion where
  writes : Writes := []
  resLen : Option Int := none
  result : ConversionResult
  deriving DecidableEq, Repr

/-- What is left in memory behind the data pointer. -/
def Conversion.stored (c : Conversion) (m : Memory) (base : Int) (size : Nat) : List UInt8 :=
  read (apply m base c.writes) base size

theorem Conversion.stored_singleton {bytes : List UInt8} {resLen : Option Int}
    {result : ConversionResult} (m : Memory) (base : Int) {size : Nat}
    (hsize : bytes.length = size) :
    (Conversion.mk [(0, bytes)] resLen result).stored m base size = bytes := by
  subst hsize
  simp only [Conversion.stored, ByteMemory.apply_cons, ByteMemory.apply_nil, Int.add_zero]
  exact ByteMemory.read_write_self m base bytes

namespace ApplicationDataBuffer

/-- The length that is stored where there is a place for it. -/
def storeLen (b : ApplicationDataBuffer) (length : Int) : Option Int :=
  b.getResLen.map fun _ => length

/-- Fields of a struct, through the data pointer. -/
def putStruct (b : ApplicationDataBuffer) (fields : Writes) (size : Nat)
    (result : ConversionResult) : Except PutFault Conversion :=
  match b.getData with
  | none => .error .nullPointer
  | some _ => .ok { writes := fields, resLen := b.storeLen size, result }

/-! ## Text -/

/-- What `CopyUtf8StringToSqlCharString` writes, returns and says. -/
structure CharCopy where
  written : List UInt8
  length : Nat
  isTruncated : Bool

/-- `none` when `from_bytes` throws: the bytes are no UTF-8. -/
def copyUtf8StringToSqlCharString (P : Platform) (inBuffer : List UInt8)
    (outBufferLenBytes : Nat) : Option CharCopy :=
  if outBufferLenBytes = 0 then some { written := [], length := 0, isTruncated := false }
  else
    let bytes := inBuffer.takeWhile (· ≠ 0)
    let room := outBufferLenBytes - 1
    if P.ansiStringOnly then
      some
        { written := bytes.take room ++ [0]
          length := min bytes.length room
          isTruncated := outBufferLenBytes ≤ bytes.length }
    else
      match Utf8.decode bytes with
      | (chars, []) =>
        some
          { written := (chars.take room).map P.narrow ++ [0]
            length := min chars.length room
            isTruncated := room < chars.length }
      | _ => none

/-- `SQLWCHAR`s in memory. -/
def wideBytes (w : WcharSize) (chars : List Char) : List UInt8 :=
  chars.flatMap fun c => encode w.bytes c.toNat

def truncatedIf (isTruncated : Bool) : ConversionResult :=
  if isTruncated then .varlenDataTruncated else .success

/-- `PutStrToStrBuffer`, to `char`s or to `SQLWCHAR`s. -/
def putStrToStrBuffer (P : Platform) (wide : Bool) (value : List UInt8)
    (b : ApplicationDataBuffer) : Except PutFault Conversion :=
  match b.getData with
  | none => .ok { result := .success }
  | some _ =>
    if b.buflen < (if wide then P.wchar.bytes else 1) then .ok { result := .varlenDataTruncated }
    else if wide then
      let r := copyUtf8BytesToWcharString P.wchar value true b.buflen false
      .ok
        { writes := [(0, wideBytes P.wchar r.written)]
          resLen := b.storeLen (toInt32 r.length)
          result := truncatedIf r.isTruncated }
    else
      match copyUtf8StringToSqlCharString P value b.buflen with
      | none => .error .exception
      | some r =>
        .ok
          { writes := [(0, r.written)]
            resLen := b.storeLen (toInt32 r.length)
            result := truncatedIf r.isTruncated }

theorem putStrToStrBuffer_wide (P : Platform) (value : List UInt8) (b : ApplicationDataBuffer) :
    putStrToStrBuffer P true value b =
      match b.getData with
      | none => .ok { result := .success }
      | some _ =>
        if b.buflen < P.wchar.bytes then .ok { result := .varlenDataTruncated }
        else
          let r := copyUtf8BytesToWcharString P.wchar value true b.buflen false
          .ok
            { writes := [(0, wideBytes P.wchar r.written)]
              resLen := b.storeLen (toInt32 r.length)
              result := truncatedIf r.isTruncated } := rfl

theorem putStrToStrBuffer_narrow (P : Platform) (value : List UInt8) (b : ApplicationDataBuffer) :
    putStrToStrBuffer P false value b =
      match b.getData with
      | none => .ok { result := .success }
      | some _ =>
        if b.buflen < 1 then .ok { result := .varlenDataTruncated }
        else
          match copyUtf8StringToSqlCharString P value b.buflen with
          | none => .error .exception
          | some r =>
            .ok
              { writes := [(0, r.written)]
                resLen := b.storeLen (toInt32 r.length)
                result := truncatedIf r.isTruncated } := rfl

/-- `strncpy`: it fills up with zeros, and writes no zero when there is no room for one. -/
def strncpy (src : List UInt8) (n : Nat) : List UInt8 :=
  src.take n ++ List.replicate (n - src.length) 0

/-- The branches for `char` buffers that copy a text of which they know the `size` with its zero. -/
def putCharText (text : List Char) (size : Nat) (b : ApplicationDataBuffer) : Conversion :=
  match b.getData with
  | none => { resLen := b.storeLen (size - 1 : Nat), result := .success }
  | some _ =>
    { writes := (0, strncpy (Utf8.encode text) (min size b.buflen)) ::
        if b.buflen < size then [((b.buflen : Int) - 1, [0])] else []
      resLen := b.storeLen (size - 1 : Nat)
      result := truncatedIf (b.buflen < size) }

/-- The branches for `SQLWCHAR` buffers, for a text of a `length` without its zero. -/
def putWcharText (P : Platform) (text : List Char) (length : Nat) (b : ApplicationDataBuffer) :
    Conversion :=
  match b.getData with
  | none => { resLen := b.storeLen length, result := .success }
  | some _ =>
    let r := copyStringToBuffer P.wchar (String.ofList text) true b.buflen true
    { writes := [(0, wideBytes P.wchar r.written)]
      resLen := b.storeLen length
      result := truncatedIf r.isTruncated }

/-- `snprintf`, with the size of its buffer. -/
def snprintf (n : Nat) (text : List Char) : List Char := text.take (n - 1)

/-! ## Dates and times -/

/-- The fields of `SQL_DATE_STRUCT`. -/
def dateFields (t : Tm) : Writes :=
  [(0, encode 2 (t.year + 1900)), (2, encode 2 (t.mon + 1)), (4, encode 2 t.mday)]

/-- The fields of `SQL_TIME_STRUCT`. -/
def timeFields (t : Tm) : Writes :=
  [(0, encode 2 t.hour), (2, encode 2 t.min), (4, encode 2 t.sec)]

/-- The fields of `SQL_TIMESTAMP_STRUCT`. -/
def timestampFields (t : Tm) (fraction : Int) : Writes :=
  dateFields t ++
    [(6, encode 2 t.hour), (8, encode 2 t.min), (10, encode 2 t.sec), (12, encode 4 fraction)]

/-- `"%4d-%02d-%02d"`. -/
def dateText (t : Tm) : List Char :=
  snprintf 32 (spacePadded 4 (t.year + 1900) ++ ['-'] ++ zeroPadded 2 (t.mon + 1) ++ ['-'] ++
    zeroPadded 2 t.mday)

/-- `PutDate`, of milliseconds. -/
def putDate (P : Platform) (ms : Int) (b : ApplicationDataBuffer) : Except PutFault Conversion :=
  let t := P.gmtime (ms.tdiv 1000)
  match b.type with
  | .char => .ok (putCharText (dateText t) 11 b)
  | .wchar =>
    -- The length is compared in characters with a size in bytes.
    .ok { putWcharText P (dateText t) 10 b with result := truncatedIf (b.buflen < 11) }
  | .tdate => b.putStruct (dateFields t) 6 .success
  | .ttimestamp => b.putStruct (timestampFields t 0) 16 .success
  | _ => .ok { result := .unsupportedConversion }

/-- The conversions of `strftime` that the patterns use. -/
inductive TimeDirective where
  | literal (c : Char)
  | year | month | day | hour | minute | second

def strftime (P : Platform) (t : Tm) : TimeDirective → List Char
  | .literal c => [c]
  | .year => if P.padsYear then zeroPadded 4 (t.year + 1900) else decimal (t.year + 1900)
  | .month => zeroPadded 2 (t.mon + 1)
  | .day => zeroPadded 2 t.mday
  | .hour => zeroPadded 2 t.hour
  | .minute => zeroPadded 2 t.min
  | .second => zeroPadded 2 t.sec

/-- `"%H:%M:%S."`. -/
def timePattern : List TimeDirective :=
  [.hour, .literal ':', .minute, .literal ':', .second, .literal '.']

/-- `"%Y-%m-%d %H:%M:%S."`. -/
def timestampPattern : List TimeDirective :=
  [.year, .literal '-', .month, .literal '-', .day, .literal ' '] ++ timePattern

/-- The 48 characters for `strftime` are enough for the fields that `gmtime` gives. -/
def getTimestampString (P : Platform) (t : Tm) (fraction : Int) (pattern : List TimeDirective) :
    List Char :=
  pattern.flatMap (strftime P t) ++ snprintf 16 (zeroPadded 9 fraction)

def putTimestamp (P : Platform) (value : Timestamp) (b : ApplicationDataBuffer) :
    Except PutFault Conversion :=
  let t := P.gmtime value.seconds
  let text := getTimestampString P t value.fractionNs timestampPattern
  match b.type with
  | .char => .ok (putCharText text 30 b)
  | .wchar => .ok (putWcharText P text 29 b)
  | .tdate => b.putStruct (dateFields t) 6 .fractionalTruncated
  | .ttime => b.putStruct (timeFields t) 6 .fractionalTruncated
  | .ttimestamp => b.putStruct (timestampFields t value.fractionNs) 16 .success
  | _ => .ok { result := .unsupportedConversion }

def putTime (P : Platform) (value : TimeOfDay) (b : ApplicationDataBuffer) :
    Except PutFault Conversion :=
  let t := P.gmtime value.seconds
  let text := getTimestampString P t value.fractionNs timePattern
  match b.type with
  | .char => .ok (putCharText text 19 b)
  | .wchar => .ok (putWcharText P text 18 b)
  | .ttime => b.putStruct (timeFields t) 6 .varlenDataTruncated
  | .ttimestamp => b.putStruct (timestampFields t value.fractionNs) 16 .success
  | _ => .ok { result := .unsupportedConversion }

/-! ## Intervals -/

inductive IntervalField where
  | year | month | day | hour | minute | second | fraction
  deriving DecidableEq

/-- The place in `SQL_INTERVAL_STRUCT`, behind the type and the sign: the fields of the two kinds of
intervals share it. -/
def IntervalField.offset : IntervalField → Int
  | .year | .day => 8
  | .month | .hour => 12
  | .minute => 16
  | .second => 20
  | .fraction => 24

/-- The code of `SetIntervalType`, and the fields that `SetIntervalBufferValue` sets. -/
def intervalLayout : OdbcNativeType → Option (Int × List IntervalField)
  | .intervalYear => some (1, [.year])
  | .intervalMonth => some (2, [.month])
  | .intervalDay => some (3, [.day])
  | .intervalHour => some (4, [.hour])
  | .intervalMinute => some (5, [.minute])
  | .intervalSecond => some (6, [.second, .fraction])
  | .intervalYearToMonth => some (7, [.year, .month])
  | .intervalDayToHour => some (8, [.day, .hour])
  | .intervalDayToMinute => some (9, [.day, .hour, .minute])
  | .intervalDayToSecond => some (10, [.day, .hour, .minute, .second, .fraction])
  | .intervalHourToMinute => some (11, [.hour, .minute])
  | .intervalHourToSecond => some (12, [.hour, .minute, .second, .fraction])
  | .intervalMinuteToSecond => some (13, [.minute, .second, .fraction])
  | _ => none

/-- The fields of `SQL_INTERVAL_STRUCT`; the sign is `SQL_FALSE` for a negative interval. -/
def intervalFields (code : Int) (fields : List IntervalField) (negative : Bool)
    (value : IntervalField → Int) : Writes :=
  [(0, encode 4 code), (4, encode 2 (if negative then 0 else 1))] ++
    fields.map fun f => (f.offset, encode 4 (value f).natAbs)

end ApplicationDataBuffer

open ApplicationDataBuffer

namespace IntervalYearMonth

/-- `"%d-%d"`. -/
def text (value : IntervalYearMonth) : List Char :=
  snprintf 32 (decimal value.year ++ ['-'] ++ decimal value.month)

def negative (value : IntervalYearMonth) : Bool :=
  value.year < 0 || (value.year = 0 && value.month < 0)

def field (value : IntervalYearMonth) : IntervalField → Int
  | .year => value.year
  | .month => value.month
  | _ => 0

end IntervalYearMonth

namespace IntervalDaySecond

/-- `"%d %02d:%02d:%02d.%09d"`. -/
def text (value : IntervalDaySecond) : List Char :=
  snprintf 32 (decimal value.day ++ [' '] ++ zeroPadded 2 value.hour ++ [':'] ++
    zeroPadded 2 value.minute ++ [':'] ++ zeroPadded 2 value.second ++ ['.'] ++
    zeroPadded 9 value.fraction)

def negative (value : IntervalDaySecond) : Bool :=
  value.day < 0 || (value.day = 0 && value.hour < 0) ||
    (value.day = 0 && value.hour = 0 && value.minute < 0) ||
    (value.day = 0 && value.hour = 0 && value.minute = 0 && value.second < 0) ||
    (value.day = 0 && value.hour = 0 && value.minute = 0 && value.second = 0 && value.fraction < 0)

def field (value : IntervalDaySecond) : IntervalField → Int
  | .day => value.day
  | .hour => value.hour
  | .minute => value.minute
  | .second => value.second
  | .fraction => value.fraction
  | .year | .month => 0

end IntervalDaySecond

namespace ApplicationDataBuffer

/-- The two `PutInterval`: the text, the sign and the fields are those of the kind of interval. -/
def putIntervalFields (P : Platform) (text : List Char) (negative : Bool)
    (value : IntervalField → Int) (b : ApplicationDataBuffer) : Except PutFault Conversion :=
  match b.type with
  | .char => .ok (putCharText text (text.length + 1) b)
  | .wchar => .ok (putWcharText P text text.length b)
  | type =>
    match intervalLayout type with
    | some (code, fields) => b.putStruct (intervalFields code fields negative value) 28 .success
    | none => .ok { result := .unsupportedConversion }

/-- `PutInterval( const IntervalYearMonth& )`. -/
def putYearMonth (P : Platform) (value : IntervalYearMonth) (b : ApplicationDataBuffer) :
    Except PutFault Conversion :=
  putIntervalFields P value.text value.negative value.field b

/-- `PutInterval( const IntervalDaySecond& )`. -/
def putDaySecond (P : Platform) (value : IntervalDaySecond) (b : ApplicationDataBuffer) :
    Except PutFault Conversion :=
  putIntervalFields P value.text value.negative value.field b

/-! ## Numbers -/

/-- The bits of an `uint64_t`. -/
def bitLength (x : Nat) : Nat := if x = 0 then 0 else Nat.log2 x + 1

/-- `bits::DigitLength`. -/
def digitLength (x : Nat) : Nat :=
  if x < 10 then 1
  else
    let r := (bitLength x + 1) * 1233 / 4096
    if r = 20 ∨ x < 10 ^ r then r else r + 1

/-- `PutNumToNumBuffer`: the bytes of the cast. -/
def putNumToNumBuffer (out : List UInt8) (b : ApplicationDataBuffer) : Conversion :=
  { writes := if b.getData = none then [] else [(0, out)]
    resLen := b.storeLen out.length
    result := .success }

def putNum (P : Platform) (value : Num P.reals) (b : ApplicationDataBuffer) :
    Except PutFault Conversion :=
  match b.type with
  | .signedTinyint => .ok (putNumToNumBuffer (value.toInteger true 1) b)
  | .bit | .unsignedTinyint => .ok (putNumToNumBuffer (value.toInteger false 1) b)
  | .signedShort => .ok (putNumToNumBuffer (value.toInteger true 2) b)
  | .unsignedShort => .ok (putNumToNumBuffer (value.toInteger false 2) b)
  | .signedLong => .ok (putNumToNumBuffer (value.toInteger true 4) b)
  | .unsignedLong => .ok (putNumToNumBuffer (value.toInteger false 4) b)
  | .signedBigint => .ok (putNumToNumBuffer (value.toInteger true 8) b)
  | .unsignedBigint => .ok (putNumToNumBuffer (value.toInteger false 8) b)
  | .float => .ok (putNumToNumBuffer (P.reals.floatBytes value.toReal) b)
  | .double => .ok (putNumToNumBuffer (P.reals.doubleBytes value.toReal) b)
  | .char => putStrToStrBuffer P false (Utf8.encode value.text) b
  | .wchar => putStrToStrBuffer P true (Utf8.encode value.text) b
  | .numeric =>
    let sign := if value.negative then 0 else 1
    let fields : Writes :=
      [(0, encode 1 (digitLength value.magnitude)), (1, encode 1 0), (2, encode 1 sign),
        (3, encode 16 0), (3, encode 8 value.magnitude)]
    .ok
      { writes := if b.getData = none then [] else fields
        resLen := b.storeLen 19
        result := .success }
  | .binary | .default =>
    .ok
      { writes := if b.getData = none then [] else [(0, value.bytes.take b.buflen)]
        resLen := b.storeLen value.bytes.length
        result := truncatedIf (b.buflen < value.bytes.length) }
  | .tdate => putDate P value.toInt64 b
  | .ttimestamp => putTimestamp P (.ofMs value.toInt64) b
  | .ttime => putTime P (.ofMs value.toInt64) b
  | _ => .ok { result := .unsupportedConversion }

def putInt8 (P : Platform) (v : Int) : ApplicationDataBuffer → Except PutFault Conversion :=
  putNum P (.int 1 v)

def putInt16 (P : Platform) (v : Int) : ApplicationDataBuffer → Except PutFault Conversion :=
  putNum P (.int 2 v)

def putInt32 (P : Platform) (v : Int) : ApplicationDataBuffer → Except PutFault Conversion :=
  putNum P (.int 4 v)

def putInt64 (P : Platform) (v : Int) : ApplicationDataBuffer → Except PutFault Conversion :=
  putNum P (.int 8 v)

def putFloat (P : Platform) (x : P.reals.Real) : ApplicationDataBuffer → Except PutFault Conversion :=
  putNum P (.real 4 x)

def putDouble (P : Platform) (x : P.reals.Real) : ApplicationDataBuffer → Except PutFault Conversion :=
  putNum P (.real 8 x)

/-- `PutString`. A number is read from the text by a stream. -/
def putString (P : Platform) (value : List UInt8) (b : ApplicationDataBuffer) :
    Except PutFault Conversion :=
  match b.type with
  | .signedTinyint | .bit | .unsignedTinyint | .signedShort | .unsignedShort | .signedLong
  | .unsignedLong | .signedBigint | .unsignedBigint | .numeric =>
    let numValue := extractInt (-9223372036854775808) 9223372036854775807 (P.uninitialized 0)
      (value.map fun byte => Char.ofNat byte.toNat)
    putNum P (.int 8 numValue) b
  | .float | .double => putNum P (.real 8 (P.reals.read value)) b
  | .char | .binary | .default => putStrToStrBuffer P false value b
  | .wchar => putStrToStrBuffer P true value b
  | _ => .ok { result := .unsupportedConversion }

/-- Nothing is written, `SQL_NULL_DATA` is stored for the length. -/
def putNull (b : ApplicationDataBuffer) : Conversion :=
  match b.getResLen with
  | none => { result := .indicatorNeeded }
  | some _ => { resLen := some (-1), result := .success }

/-- The fields of `SQL_NUMERIC_STRUCT` for the integer part of a `Decimal`. -/
def Decimal.numericFields {R : Reals} (d : Decimal R) : Writes :=
  let val := (d.magnitude.reverse ++ List.replicate 16 0).take 16
  [(3, val), (1, encode 1 0), (2, encode 1 (if d.negative then 0 else 1)),
    (0, encode 1 d.precision)]

def putDecimal (P : Platform) (value : Decimal P.reals) (b : ApplicationDataBuffer) :
    Except PutFault Conversion :=
  match b.type with
  | .signedTinyint | .bit | .unsignedTinyint | .signedShort | .unsignedShort | .signedLong
  | .unsignedLong | .signedBigint | .unsignedBigint =>
    (putNum P (.int 8 value.toInt64) b).map fun c => { c with result := .fractionalTruncated }
  | .float | .double =>
    (putNum P (.real 8 value.toDouble) b).map fun c => { c with result := .fractionalTruncated }
  | .char | .wchar => putString P (Utf8.encode value.text) b
  | .numeric =>
    b.putStruct (Decimal.numericFields value) 19
      (if 16 < value.magnitude.length then .fractionalTruncated else .success)
  | _ => .ok { result := .unsupportedConversion }

end ApplicationDataBuffer

/-- The types for which `PutNum` stores the bytes of a cast. -/
def OdbcNativeType.isNumber : OdbcNativeType → Bool
  | .signedTinyint | .bit | .unsignedTinyint | .signedShort | .unsignedShort | .signedLong
  | .unsignedLong | .signedBigint | .unsignedBigint | .float | .double => true
  | _ => false

/-- The bytes of the cast to a number type. -/
def Num.elementBytes {R : Reals} (value : Num R) : OdbcNativeType → List UInt8
  | .signedTinyint => value.toInteger true 1
  | .bit | .unsignedTinyint => value.toInteger false 1
  | .signedShort => value.toInteger true 2
  | .unsignedShort => value.toInteger false 2
  | .signedLong => value.toInteger true 4
  | .unsignedLong => value.toInteger false 4
  | .signedBigint => value.toInteger true 8
  | .unsignedBigint => value.toInteger false 8
  | .float => R.floatBytes value.toReal
  | .double => R.doubleBytes value.toReal
  | _ => []

/-- A value with the `Put` function it is for. -/
inductive PutCall (P : Platform) where
  | num (value : Num P.reals)
  | string (value : List UInt8)
  | date (ms : Int)
  | time (value : TimeOfDay)
  | timestamp (value : Timestamp)
  | yearMonth (value : IntervalYearMonth)
  | daySecond (value : IntervalDaySecond)
  | decimal (value : Decimal P.reals)

def PutCall.perform {P : Platform} (b : ApplicationDataBuffer) :
    PutCall P → Except PutFault Conversion
  | .num value => b.putNum P value
  | .string value => b.putString P value
  | .date ms => b.putDate P ms
  | .time value => b.putTime P value
  | .timestamp value => b.putTimestamp P value
  | .yearMonth value => b.putYearMonth P value
  | .daySecond value => b.putDaySecond P value
  | .decimal value => b.putDecimal P value

end TrinoOdbc
