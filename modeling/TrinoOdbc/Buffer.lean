import TrinoOdbc.Types

/-!
# TrinoOdbc.Buffer

Application buffers and the column binding map: `ApplicationDataBuffer` with the address
computation of a row of a rowset (`applyOffset`, `getElementSize`), and `ColumnBindingMap`, the
`std::map` from column numbers to buffers.

Sizes are those of a platform with 64-bit pointers and `SQLLEN` (`SqlLen`).
-/

namespace TrinoOdbc

inductive OdbcNativeType where
  | char | wchar | signedShort | unsignedShort | signedLong | unsignedLong | float | double | bit
  | signedTinyint | unsignedTinyint | signedBigint | unsignedBigint | binary | tdate | ttime
  | ttimestamp | numeric | intervalYear | intervalMonth | intervalDay | intervalHour
  | intervalMinute | intervalSecond | intervalDayToHour | intervalDayToMinute
  | intervalHourToMinute | intervalHourToSecond | intervalMinuteToSecond | intervalYearToMonth
  | intervalDayToSecond | default | unsupported
  deriving DecidableEq, Repr

abbrev Addr := Int

/-- `buffer` and `reslen` are the bound pointers, `none` when null. -/
structure ApplicationDataBuffer where
  type : OdbcNativeType
  buffer : Option Addr
  buflen : Nat
  reslen : Option Addr
  byteOffset : Int := 0
  elementOffset : Nat := 0
  deriving DecidableEq, Repr

namespace ApplicationDataBuffer

def getElementSize (b : ApplicationDataBuffer) : Nat :=
  match b.type with
  | .wchar | .char | .binary => b.buflen
  | .signedShort | .unsignedShort => 2
  | .signedLong | .unsignedLong => 4
  | .float => 4
  | .double => 8
  | .signedTinyint | .bit | .unsignedTinyint => 1
  | .signedBigint | .unsignedBigint => 8
  | .tdate => 6
  | .ttime => 6
  | .ttimestamp => 16
  | .numeric => 19
  | _ => 0

def applyOffset (b : ApplicationDataBuffer) (ptr : Option Addr) (elemSize : Nat) : Option Addr :=
  ptr.map (· + (b.byteOffset + elemSize * b.elementOffset))

def getData (b : ApplicationDataBuffer) : Option Addr := b.applyOffset b.buffer b.getElementSize

/-- `sizeof(SqlLen)` is 8. -/
def getResLen (b : ApplicationDataBuffer) : Option Addr := b.applyOffset b.reslen 8

def setByteOffset (b : ApplicationDataBuffer) (offset : Int) : ApplicationDataBuffer :=
  { b with byteOffset := offset }

def setElementOffset (b : ApplicationDataBuffer) (idx : Nat) : ApplicationDataBuffer :=
  { b with elementOffset := idx }

end ApplicationDataBuffer

/-- `std::map< uint16_t, ApplicationDataBuffer >`: entries in strictly increasing key order. -/
structure ColumnBindingMap where
  entries : List (Nat × ApplicationDataBuffer)
  sorted : (entries.map Prod.fst).Pairwise (· < ·)

namespace ColumnBindingMap

def empty : ColumnBindingMap := ⟨[], .nil⟩

def find (m : ColumnBindingMap) (key : Nat) : Option ApplicationDataBuffer := m.entries.lookup key

/-- Apply `f` to every buffer of the map. -/
def mapBuffers (m : ColumnBindingMap) (f : ApplicationDataBuffer → ApplicationDataBuffer) :
    ColumnBindingMap :=
  ⟨m.entries.map (fun e => (e.1, f e.2)), by simpa [List.map_map, Function.comp_def] using m.sorted⟩

theorem lookup_map_snd {α : Type*} (f : α → α) (key : Nat) :
    ∀ l : List (Nat × α), (l.map (fun e => (e.1, f e.2))).lookup key = (l.lookup key).map f := by
  intro l
  induction l with
  | nil => rfl
  | cons e l ih =>
    obtain ⟨k, a⟩ := e
    simp only [List.map_cons, List.lookup_cons]
    cases key == k <;> simp [ih]

@[simp] theorem find_mapBuffers (m : ColumnBindingMap)
    (f : ApplicationDataBuffer → ApplicationDataBuffer) (key : Nat) :
    (m.mapBuffers f).find key = (m.find key).map f := lookup_map_snd f key m.entries

end ColumnBindingMap

/-- What a conversion stores through a buffer: bytes at the data pointer (`none`: nothing), a
value at the length pointer (`none`: nothing), and its result. -/
structure Put where
  data : Option (List UInt8)
  resLen : Option Int
  result : ConversionResult
  deriving DecidableEq, Repr

/-- A conversion that failed before it stored anything. -/
def Put.failure : Put := ⟨none, none, .failure⟩

/-- `PutStrToStrBuffer< char >` of a text whose characters are ASCII. -/
def putStrToCharBuffer (value : String) (b : ApplicationDataBuffer) : Put :=
  match b.getData with
  | none => ⟨none, none, .success⟩
  | some _ =>
    if b.buflen < 1 then ⟨none, none, .varlenDataTruncated⟩
    else
      let written := min value.toList.length (b.buflen - 1)
      ⟨some ((value.toList.take written).map (fun c => UInt8.ofNat c.toNat) ++ [0]),
        b.getResLen.map fun _ => (written : Int),
        if written < value.toList.length then .varlenDataTruncated else .success⟩

theorem putStrToCharBuffer_closed (value : String) {b : ApplicationDataBuffer}
    (hdata : b.getData ≠ none) (hlen : 1 ≤ b.buflen) :
    ∃ bytes, (putStrToCharBuffer value b).data = some bytes ∧ 0 ∈ bytes := by
  obtain ⟨base, hbase⟩ := Option.ne_none_iff_exists'.mp hdata
  have hroom : ¬ b.buflen < 1 := by omega
  simp only [putStrToCharBuffer, hbase, if_neg hroom]
  exact ⟨_, rfl, by simp⟩

/-- One `Put` through the buffer bound to a column; the buffer fixes the addresses. -/
structure Stored where
  column : Nat
  buffer : ApplicationDataBuffer
  put : Put
  deriving DecidableEq, Repr

end TrinoOdbc
