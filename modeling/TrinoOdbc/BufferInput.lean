import TrinoOdbc.FractionalSeconds
import TrinoOdbc.WideStrings

/-!
# TrinoOdbc.BufferInput

The `Get` functions of `ApplicationDataBuffer`: how much of the buffer is input, and what date, time
and text it holds.

`indicator` is what is behind the indicator pointer, where there is one.
-/

namespace TrinoOdbc

open ByteMemory (Memory read decodeInt decodeNat)
open Calendar (Tm timegm)
open Formatted (Directive)

/-- How a `Get` function can end without a result: text without a zero is read beyond the buffer. -/
inductive GetFault where
  | nullPointer | exception | unterminated
  deriving DecidableEq, Repr

namespace ApplicationDataBuffer

/-! ## The size of the input -/

def isDataAtExec (b : ApplicationDataBuffer) (indicator : Int) : Bool :=
  match b.getResLen with
  | none => false
  | some _ => toInt32 indicator ≤ -100 || toInt32 indicator = -2

/-- `SQL_LEN_DATA_AT_EXEC` turns a length into an indicator, and back. -/
def sqlLenDataAtExec (length : Int) : Int := -length - 100

def getDataAtExecSize (P : Platform) (b : ApplicationDataBuffer) (indicator : Int) : Int :=
  match b.type with
  | .wchar | .char | .binary =>
    match b.getResLen with
    | none => 0
    | some _ =>
      let ilen := toInt32 indicator
      let ilen := if ilen ≤ -100 then toInt32 (sqlLenDataAtExec ilen) else 0
      if b.type = .wchar then toInt32 (ilen * 2) else ilen
  | .signedShort | .unsignedShort => 2
  | .signedLong | .unsignedLong => P.longBytes
  | .float => 4
  | .double => 8
  | .bit | .signedTinyint | .unsignedTinyint => 1
  | .signedBigint | .unsignedBigint => 8
  | .tdate | .ttime => 6
  | .ttimestamp => 16
  | .numeric => 19
  | _ => 0

def getInputSize (P : Platform) (b : ApplicationDataBuffer) (indicator : Int) : Int :=
  if b.isDataAtExec indicator then b.getDataAtExecSize P indicator
  else
    match b.getResLen with
    | none => sqlNts
    | some _ => indicator

/-! ## Text -/

/-- `SqlCharToString`. `room` is where the buffer ends. -/
def sqlCharToString (m : Memory) (room : Nat) (sqlStr : Option Addr) (sqlStrLen : Int) :
    Except GetFault (List UInt8) :=
  match sqlStr with
  | none => .ok []
  | some base =>
    if sqlStrLen = sqlNts then
      if 0 ∈ read m base room then .ok ((read m base room).takeWhile (· ≠ 0))
      else .error .unterminated
    else if 0 < sqlStrLen then .ok (read m base sqlStrLen.toNat)
    else .ok []

/-- `SqlWcharToString` of a length in bytes. -/
def sqlWcharBufferToString (w : WcharSize) (m : Memory) (room : Nat) (sqlStr : Option Addr)
    (sqlStrLen : Int) : Except GetFault (List UInt8) :=
  let units := sqlStr.map fun base =>
    w.readUnits m base (if sqlStrLen = sqlNts then room else sqlStrLen.toNat / w.bytes)
  if sqlStrLen = sqlNts ∧ ∃ us ∈ units, 0 ∉ us then .error .unterminated
  else
    match sqlWcharUnitsToString w units sqlStrLen true with
    | none => .error .exception
    | some bytes => .ok bytes

/-- The text in a buffer of `char`s or of `SQLWCHAR`s, `none` where there is no input. -/
def inputText (P : Platform) (b : ApplicationDataBuffer) (m : Memory) (indicator : Int) :
    Except GetFault (Option (List UInt8)) :=
  let paramLen := b.getInputSize P indicator
  if paramLen = 0 then .ok none
  else if b.type = .wchar then
    (sqlWcharBufferToString P.wchar m (b.buflen / P.wchar.bytes) b.getData
      (toInt32 paramLen)).map some
  else (sqlCharToString m b.buflen b.getData (toInt32 paramLen)).map some

/-- `c_str()`, as characters. -/
def cText (bytes : List UInt8) : List Char :=
  (bytes.takeWhile (· ≠ 0)).map fun byte => Char.ofNat byte.toNat

/-! ## Dates and times -/

/-- Fields of a struct, through the data pointer. -/
def loadStruct {α : Type*} (b : ApplicationDataBuffer) (fields : Addr → α) : Except GetFault α :=
  match b.getData with
  | none => .error .nullPointer
  | some base => .ok (fields base)

/-- A `tm` that has been cleared. -/
def cleared : Tm := ⟨0, 0, 0, 0, 0, 0⟩

/-- The fields of `SQL_DATE_STRUCT`. -/
def loadDate (m : Memory) (base : Addr) (t : Tm) : Tm :=
  { t with
    year := decodeInt (read m base 2) - 1900
    mon := decodeNat (read m (base + 2) 2) - 1
    mday := decodeNat (read m (base + 4) 2) }

/-- Hours, minutes and seconds. -/
def loadClock (m : Memory) (base : Addr) (t : Tm) : Tm :=
  { t with
    hour := decodeNat (read m base 2)
    min := decodeNat (read m (base + 2) 2)
    sec := decodeNat (read m (base + 4) 2) }

/-- `"%d:%d:%d"`. -/
def clockScan : List Directive :=
  [.int none, .literal ':', .int none, .literal ':', .int none]

/-- `"%d-%d-%d %d:%d:%d"`. -/
def dateTimeScan : List Directive :=
  [.int none, .literal '-', .int none, .literal '-', .int none, .space] ++ clockScan

/-- The `tm` that `GetDate` and `GetTimestamp` put together. -/
def readDateTime (P : Platform) (b : ApplicationDataBuffer) (m : Memory) (indicator : Int) :
    Except GetFault Tm :=
  match b.type with
  | .tdate => b.loadStruct fun base => loadDate m base cleared
  | .ttime => b.loadStruct fun base => loadClock m base { cleared with year := 70, mday := 1 }
  | .ttimestamp => b.loadStruct fun base => loadClock m (base + 6) (loadDate m base cleared)
  | .char | .wchar =>
    (b.inputText P m indicator).map fun str =>
      match str with
      | none => cleared
      | some bytes => tmOfFields (sscanf P dateTimeScan (cText bytes) [0, 0, 0, 0, 0, 0])
  | _ => .ok cleared

/-- In milliseconds. -/
def getDate (P : Platform) (b : ApplicationDataBuffer) (m : Memory) (indicator : Int) :
    Except GetFault Int :=
  (b.readDateTime P m indicator).map fun t => timegm t * 1000

/-- The fraction is an `int32_t`. -/
def getTimestamp (P : Platform) (b : ApplicationDataBuffer) (m : Memory) (indicator : Int) :
    Except GetFault Timestamp :=
  (b.readDateTime P m indicator).map fun t =>
    ⟨timegm t,
      match b.type, b.getData with
      | .ttimestamp, some base => decodeInt (read m (base + 12) 4)
      | _, _ => 0⟩

/-- The `tm` that `GetTime` puts together. -/
def readTime (P : Platform) (b : ApplicationDataBuffer) (m : Memory) (indicator : Int) :
    Except GetFault Tm :=
  let t : Tm := { cleared with year := 70, mday := 1 }
  match b.type with
  | .ttime => b.loadStruct fun base => loadClock m base t
  | .ttimestamp => b.loadStruct fun base => loadClock m (base + 6) t
  | .char | .wchar =>
    (b.inputText P m indicator).map fun str =>
      match str with
      | none => t
      | some bytes =>
        let v := sscanf P clockScan (cText bytes) [0, 0, 0]
        { t with hour := v.getD 0 0, min := v.getD 1 0, sec := v.getD 2 0 }
  | _ => .ok t

/-- The seconds are an `int32_t`. -/
def getTime (P : Platform) (b : ApplicationDataBuffer) (m : Memory) (indicator : Int) :
    Except GetFault TimeOfDay :=
  (b.readTime P m indicator).map fun t => ⟨toInt32 (timegm t), 0⟩

end ApplicationDataBuffer

end TrinoOdbc
