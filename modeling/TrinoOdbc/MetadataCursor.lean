import TrinoOdbc.Cursor
import TrinoOdbc.SqlTypes

/-!
# TrinoOdbc.MetadataCursor

What `TableMetadataQuery`, `ColumnMetadataQuery` and `TypeInfoQuery` have in common: a vector of
rows, an iterator into it, and the flags `executed` and `fetched`. The iterator is an index, the
length of the vector stands for `end()`.

The three classes differ in what a column of a row puts (`Cells`), and `TableMetadataQuery` looks
at an empty vector before its iterator.
-/

namespace TrinoOdbc

/-- The conversions of `ApplicationDataBuffer` the metadata queries use, for a value that is set. A
text is closed by a NUL in every `char` array that has room for one. -/
structure Puts where
  string : String → ApplicationDataBuffer → Put
  int16 : Int → ApplicationDataBuffer → Put
  int32 : Int → ApplicationDataBuffer → Put
  string_closed : ∀ value buffer, buffer.type = .char → buffer.getData ≠ none →
    1 ≤ buffer.buflen → ∃ bytes, (string value buffer).data = some bytes ∧ 0 ∈ bytes

/-- `SQL_NULL_DATA` is -1. -/
def putNull (buffer : ApplicationDataBuffer) : Put :=
  match buffer.getResLen with
  | none => ⟨none, none, .indicatorNeeded⟩
  | some _ => ⟨none, some (-1), .success⟩

/-- The overload for a `boost::optional`. -/
def putOptional {α : Type} (put : α → ApplicationDataBuffer → Put) (value : Option α)
    (buffer : ApplicationDataBuffer) : Put :=
  match value with
  | some v => put v buffer
  | none => putNull buffer

namespace Puts

def putString (P : Puts) := putOptional P.string
def putInt16 (P : Puts) := putOptional P.int16
def putInt32 (P : Puts) := putOptional P.int32

end Puts

/-- What `GetColumn` comes to on a row: a column without a case puts nothing. -/
structure ColumnRead where
  put : Option Put
  result : SqlResult
  records : List DiagnosticRecord
  deriving DecidableEq

/-- The conversion result is dropped. -/
def ColumnRead.ofPut (put : Put) : ColumnRead := ⟨some put, .success, []⟩

def ColumnRead.stored (r : ColumnRead) (columnIdx : Nat) (buffer : ApplicationDataBuffer) :
    List Stored :=
  (r.put.map fun put => ⟨columnIdx, buffer, put⟩).toList

/-- The switch of `GetColumn` over the columns of a row. -/
abbrev Cells (α : Type) := α → Nat → ApplicationDataBuffer → ColumnRead

structure MetadataCursor (α : Type) where
  metaVector : List α := []
  cursor : Nat := 0
  executed : Bool := false
  fetched : Bool := false
  diag : List DiagnosticRecord := []
  inBounds : cursor ≤ metaVector.length := by exact Nat.zero_le _

namespace MetadataCursor

variable {α : Type}

def notExecuted : DiagnosticRecord :=
  { sqlState := .shy010SequenceError, message := "Query was not executed." }

def endReached : DiagnosticRecord :=
  { sqlState := .s24000InvalidCursorState, message := "Cursor has reached end of the result set." }

def notOnData : DiagnosticRecord :=
  { sqlState := .s01000GeneralWarning, message := "Cursor does not point to any data." }

def addStatusRecord (c : MetadataCursor α) (record : DiagnosticRecord) : MetadataCursor α :=
  { c with diag := c.diag ++ [record] }

/-- The row under the iterator, `none` at `end()`. -/
def current (c : MetadataCursor α) : Option α := c.metaVector[c.cursor]?

/-- The iterator is set to `begin()` by `Execute`, so the first fetch leaves it there. -/
def advance (c : MetadataCursor α) : MetadataCursor α :=
  if c.fetched = false then { c with fetched := true }
  else if h : c.cursor < c.metaVector.length then
    { c with cursor := c.cursor + 1, inBounds := h }
  else c

/-- `GetColumn` for every binding, whatever the calls return. -/
def readBindings (cells : Cells α) (row : α) (b : ColumnBindingMap) : List Stored :=
  b.entries.flatMap fun e => (cells row e.1 e.2).stored e.1 e.2

def bindingRecords (cells : Cells α) (row : α) (b : ColumnBindingMap) : List DiagnosticRecord :=
  b.entries.flatMap fun e => (cells row e.1 e.2).records

/-- `FetchNextRow` of an executed query. -/
def fetchRow (cells : Cells α) (c : MetadataCursor α) (b : ColumnBindingMap) :
    (SqlResult × List Stored) × MetadataCursor α :=
  let c := c.advance
  match c.current with
  | none => ((.noData, []), c)
  | some row =>
    ((.success, readBindings cells row b),
      { c with diag := c.diag ++ bindingRecords cells row b })

/-- `FetchNextRow` of `ColumnMetadataQuery` and `TypeInfoQuery`. -/
def fetchNextRow (cells : Cells α) (c : MetadataCursor α) (b : ColumnBindingMap) :
    (SqlResult × List Stored) × MetadataCursor α :=
  if c.executed = false then ((.error, []), c.addStatusRecord notExecuted)
  else c.fetchRow cells b

/-- `GetColumn` of an executed query. -/
def readColumn (cells : Cells α) (c : MetadataCursor α) (columnIdx : Nat)
    (buffer : ApplicationDataBuffer) : (SqlResult × List Stored) × MetadataCursor α :=
  match c.current with
  | none => ((.error, []), c.addStatusRecord endReached)
  | some row =>
    let r := cells row columnIdx buffer
    ((r.result, r.stored columnIdx buffer), { c with diag := c.diag ++ r.records })

/-- `GetColumn` of `ColumnMetadataQuery` and `TypeInfoQuery`. -/
def getColumn (cells : Cells α) (c : MetadataCursor α) (columnIdx : Nat)
    (buffer : ApplicationDataBuffer) : (SqlResult × List Stored) × MetadataCursor α :=
  if c.executed = false then ((.error, []), c.addStatusRecord notExecuted)
  else c.readColumn cells columnIdx buffer

def rowNumber (c : MetadataCursor α) : Int × MetadataCursor α :=
  if c.executed = false ∨ c.cursor = c.metaVector.length then (0, c.addStatusRecord notOnData)
  else (c.cursor + 1, c)

/-- `Close` of `TableMetadataQuery` and `ColumnMetadataQuery`. -/
def close (c : MetadataCursor α) : MetadataCursor α :=
  { c with metaVector := [], cursor := 0, executed := false, inBounds := Nat.zero_le _ }

def dataAvailable (c : MetadataCursor α) : Bool :=
  c.executed && !c.metaVector.isEmpty && decide (c.cursor ≠ c.metaVector.length)

/-- `Execute` when its request has left `rows` in the vector and counts as executed. -/
def opened (c : MetadataCursor α) (rows : List α) : MetadataCursor α :=
  { c with metaVector := rows, cursor := 0, executed := true, fetched := false,
           inBounds := Nat.zero_le _ }

/-- `Execute` when its request has left `rows` in the vector and does not count as executed. -/
def unopened (c : MetadataCursor α) (rows : List α) : MetadataCursor α :=
  { c with metaVector := rows, cursor := 0, inBounds := Nat.zero_le _ }

/-! ## The vector between two requests -/

section Vector

variable {c : MetadataCursor α} {cells : Cells α}

theorem advance_executed : c.advance.executed = c.executed := by
  unfold advance
  split
  · rfl
  · split <;> rfl

theorem advance_metaVector : c.advance.metaVector = c.metaVector := by
  unfold advance
  split
  · rfl
  · split <;> rfl

theorem fetchNextRow_metaVector (b : ColumnBindingMap) :
    (c.fetchNextRow cells b).2.metaVector = c.metaVector := by
  unfold fetchNextRow fetchRow
  split
  · rfl
  · simp only
    split <;> exact advance_metaVector

theorem getColumn_metaVector (columnIdx : Nat) (buffer : ApplicationDataBuffer) :
    (c.getColumn cells columnIdx buffer).2.metaVector = c.metaVector := by
  unfold getColumn readColumn
  split
  · rfl
  · split <;> rfl

theorem rowNumber_metaVector : c.rowNumber.2.metaVector = c.metaVector := by
  unfold rowNumber
  split <;> rfl

end Vector

end MetadataCursor

end TrinoOdbc
