import TrinoOdbc.Buffer

/-!
# TrinoOdbc.Cursor

Column metadata of a result (`ColumnMeta.readMetadata`) and `TrinoCursor`, the cursor over the
rows of one page.

`curPos` is the C++ `int` of the source as a natural number: a page is one reply of the service,
so its positions stay far below the 32-bit range. `iterator` is the index of `iterator_` in the
page.
-/

namespace TrinoOdbc

inductive Nullability where
  | noNull | nullable | nullabilityUnknown
  deriving DecidableEq, Repr

structure ColumnMeta where
  columnInfo : Option ColumnInfo := none
  catalogName : Option String := none
  schemaName : Option String := none
  tableName : Option String := none
  columnName : Option String := none
  remarks : Option String := none
  columnDef : Option String := none
  dataType : Option ScalarType := none
  nullability : Nullability := .nullabilityUnknown
  ordinalPosition : Int := -1
  deriving DecidableEq, Repr

/-- A type that is not scalar is shown as `VARCHAR`. -/
def ColumnMeta.readMetadata (info : ColumnInfo) : ColumnMeta :=
  { columnInfo := some info, columnName := some info.name,
    dataType := some (info.scalarType.getD .varchar) }

/-- `TrinoColumn::ReadToBuffer` for a column with this metadata. -/
abbrev ReadToBuffer := ColumnMeta → Datum → ApplicationDataBuffer → Put

/-- The column `columnIdx` of `row` through its `TrinoColumn`. A row has one datum for each column
of the result. -/
def readCell (read : ReadToBuffer) (columns : List ColumnMeta) (row : Row) (columnIdx : Nat)
    (buffer : ApplicationDataBuffer) : Put :=
  if columnIdx < 1 then .failure
  else
    match columns[columnIdx - 1]? with
    | none => .failure
    | some column => read column (row[columnIdx - 1]?.getD .unset) buffer

structure TrinoCursor where
  rowVec : List Row
  iterator : Nat := 0
  curPos : Nat := 0

namespace TrinoCursor

/-- The first increment leaves the iterator on the first row. -/
def increment (c : TrinoCursor) : Bool × TrinoCursor :=
  let c' := { c with
    iterator := if 0 < c.curPos then c.iterator + 1 else c.iterator
    curPos := c.curPos + 1 }
  (decide (c'.curPos ≤ c'.rowVec.length), c')

def hasData (c : TrinoCursor) : Bool := decide (c.curPos ≤ c.rowVec.length)

/-- The row `iterator_` points to. -/
def current (c : TrinoCursor) : Option Row := c.rowVec[c.iterator]?

/-- `columnIdx` starts at 1. -/
def readColumnToBuffer (read : ReadToBuffer) (c : TrinoCursor) (columns : List ColumnMeta)
    (columnIdx : Nat) (buffer : ApplicationDataBuffer) : Put :=
  readCell read columns (c.current.getD []) columnIdx buffer

theorem increment_fst (c : TrinoCursor) :
    c.increment.1 = decide (c.curPos + 1 ≤ c.rowVec.length) := rfl

@[simp] theorem increment_rowVec (c : TrinoCursor) : c.increment.2.rowVec = c.rowVec := rfl
@[simp] theorem increment_curPos (c : TrinoCursor) : c.increment.2.curPos = c.curPos + 1 := rfl

theorem increment_iterator (c : TrinoCursor) :
    c.increment.2.iterator = if 0 < c.curPos then c.iterator + 1 else c.iterator := rfl

/-- The cursor on the first row of a page, as `SwitchCursor` leaves it. -/
def onFirst (rows : List Row) : TrinoCursor := ({ rowVec := rows } : TrinoCursor).increment.2

/-- `iterator_` is on the row before the position counter. -/
def Aligned (c : TrinoCursor) : Prop := c.iterator = c.curPos - 1

theorem aligned_start (rows : List Row) : Aligned { rowVec := rows } := rfl

theorem Aligned.increment {c : TrinoCursor} (h : c.Aligned) : c.increment.2.Aligned := by
  simp only [Aligned, increment_iterator, increment_curPos] at h ⊢
  split
  · rw [h]; omega
  · rw [h]; omega

theorem Aligned.current_eq {c : TrinoCursor} (h : c.Aligned) :
    c.current = c.rowVec[c.curPos - 1]? := by
  rw [current, show c.iterator = c.curPos - 1 from h]

theorem hasData_iff (c : TrinoCursor) : c.hasData = true ↔ c.curPos ≤ c.rowVec.length := by
  simp [hasData]

end TrinoCursor

end TrinoOdbc
