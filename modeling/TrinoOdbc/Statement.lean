import TrinoOdbc.Query

/-!
# TrinoOdbc.Statement

`Statement` as far as `SQLFetch` goes: `InternalFetchRow` fetches a rowset, row `i` through the
column bindings with their element offset set to `i`.
-/

namespace TrinoOdbc

inductive RowStatus where
  | success | successWithInfo | error | noRow
  deriving DecidableEq, Repr

def sqlResultToRowResult : SqlResult → RowStatus
  | .noData => .noRow
  | .success => .success
  | .successWithInfo => .successWithInfo
  | _ => .error

theorem oneRow_le : 1 ≤ 1000 := by decide

/-- `columnBindOffset` is the number its pointer points to, `none` for a null pointer. `rowsFetched`
and `rowStatuses` say whether these pointers are set. `SetAttribute` rejects larger row arrays. -/
structure Statement where
  columnBindings : ColumnBindingMap := .empty
  currentQuery : Option Query := none
  rowsFetched : Bool := false
  rowStatuses : Bool := false
  columnBindOffset : Option Int := none
  rowArraySize : Nat := 1
  diag : List DiagnosticRecord := []
  rowArraySizeLe : rowArraySize ≤ 1000 := by first | exact oneRow_le | decide

/-- What `InternalFetchRow` returns, and what it writes: `*rowsFetched`, the row status array, and
the values of each row. -/
structure Rowset where
  result : SqlResult
  rowsFetched : Option Nat
  rowStatuses : Option (List RowStatus)
  stored : List (List Stored)

namespace Statement

def addStatusRecord (st : Statement) (record : DiagnosticRecord) : Statement :=
  { st with diag := st.diag ++ [record] }

/-- `SetByteOffset` on every binding. -/
def offsetBindings (st : Statement) : ColumnBindingMap :=
  match st.columnBindOffset with
  | none => st.columnBindings
  | some offset => st.columnBindings.mapBuffers (·.setByteOffset offset)

end Statement

/-- `SetElementOffset` on every binding. -/
def ColumnBindingMap.slot (b : ColumnBindingMap) (i : Nat) : ColumnBindingMap :=
  b.mapBuffers (·.setElementOffset i)

/-- The row loop of `InternalFetchRow` from row `i` on, for `n` more rows. -/
inductive FetchRows (W : World) (b : ColumnBindingMap) :
    Nat → Nat → Query → List (SqlResult × List Stored) → Query → Prop where
  | done {i : Nat} {q : Query} : FetchRows W b i 0 q [] q
  | row {i n : Nat} {q q₁ q' : Query} {r : SqlResult × List Stored}
      {rs : List (SqlResult × List Stored)} : q.FetchNextRow W (b.slot i) r q₁ →
      FetchRows W b (i + 1) n q₁ rs q' → FetchRows W b i (n + 1) q (r :: rs) q'

def isFetched (r : SqlResult) : Bool := r = .success || r = .successWithInfo

def isRowError (r : SqlResult) : Bool := !isFetched r && r ≠ .noData

/-- The result of a rowset. `fetched` is an `SQLINTEGER`, which a row array of the allowed size does
not overflow. -/
def rowsetResult (fetched errors : Nat) : SqlResult :=
  if 0 < fetched then if errors = 0 then .success else .successWithInfo
  else if errors = 0 then .noData else .error

namespace Statement

def rowset (st : Statement) (rs : List (SqlResult × List Stored)) : Rowset :=
  let fetched := rs.countP fun r => isFetched r.1
  let errors := rs.countP fun r => isRowError r.1
  { result := rowsetResult fetched errors
    rowsFetched := if st.rowsFetched then some fetched else none
    rowStatuses :=
      if st.rowStatuses then some (rs.map fun r => sqlResultToRowResult r.1) else none
    stored := rs.map Prod.snd }

def cursorNotOpen : DiagnosticRecord :=
  { sqlState := .s24000InvalidCursorState, message := "Cursor is not in the open state." }

/-- The bindings as the loop leaves them. -/
def lastBindings (st : Statement) : ColumnBindingMap :=
  if st.rowArraySize = 0 then st.offsetBindings else st.offsetBindings.slot (st.rowArraySize - 1)

inductive InternalFetchRow (W : World) : Statement → Rowset → Statement → Prop where
  | noQuery {st : Statement} : st.currentQuery = none →
      InternalFetchRow W st
        { result := .error, rowsFetched := if st.rowsFetched then some 0 else none
          rowStatuses := none, stored := [] }
        (st.addStatusRecord cursorNotOpen)
  | fetch {st : Statement} {q q' : Query} {rs : List (SqlResult × List Stored)} :
      st.currentQuery = some q → FetchRows W st.offsetBindings 0 st.rowArraySize q rs q' →
      InternalFetchRow W st (st.rowset rs)
        { st with columnBindings := st.lastBindings, currentQuery := some q' }

end Statement

/-- The calls of `InternalFetchRow` on a statement, one after the other. -/
inductive FetchCalls (W : World) : Statement → List Rowset → Statement → Prop where
  | nil {st : Statement} : FetchCalls W st [] st
  | cons {st st₁ st' : Statement} {o : Rowset} {os : List Rowset} :
      st.InternalFetchRow W o st₁ → FetchCalls W st₁ os st' → FetchCalls W st (o :: os) st'

/-- The call of `FetchNextRow` returns. -/
def Query.FetchReturns (W : World) (b : ColumnBindingMap) : Query → Prop
  | .data q => Returns W.env q (.fetchNextRow b)
  | _ => True

namespace ApplicationDataBuffer

end ApplicationDataBuffer

/-- The bytes a `Put` writes through the data pointer of its buffer. -/
def Stored.Writes (s : Stored) (a : Addr) : Prop :=
  ∃ base bytes, s.buffer.getData = some base ∧ s.put.data = some bytes ∧
    base ≤ a ∧ a < base + (bytes.length : Int)

namespace ColumnBindingMap

theorem ext {b b' : ColumnBindingMap} (h : b.entries = b'.entries) : b = b' := by
  cases b
  cases b'
  cases h
  rfl

theorem mapBuffers_mapBuffers (b : ColumnBindingMap)
    (f g : ApplicationDataBuffer → ApplicationDataBuffer) :
    (b.mapBuffers f).mapBuffers g = b.mapBuffers fun x => g (f x) := by
  apply ext
  simp [mapBuffers, Function.comp_def]

@[simp] theorem slot_slot (b : ColumnBindingMap) (i j : Nat) : (b.slot i).slot j = b.slot j :=
  mapBuffers_mapBuffers _ _ _

@[simp] theorem find_slot (b : ColumnBindingMap) (i key : Nat) :
    (b.slot i).find key = (b.find key).map (·.setElementOffset i) := find_mapBuffers _ _ _

end ColumnBindingMap

namespace Statement

/-- A call leaves the slots of the bindings where they are. -/
theorem offsetBindings_slot (st : Statement) (q : Query) (i : Nat) :
    ({ st with columnBindings := st.lastBindings, currentQuery := some q } :
      Statement).offsetBindings.slot i = st.offsetBindings.slot i := by
  by_cases hn : st.rowArraySize = 0
  · simp only [lastBindings, hn, if_true, offsetBindings]
    cases st.columnBindOffset with
    | none => rfl
    | some offset =>
      simp only [ColumnBindingMap.slot, ColumnBindingMap.mapBuffers_mapBuffers]
      rfl
  · simp only [lastBindings, hn, if_false, offsetBindings]
    cases st.columnBindOffset with
    | none => exact ColumnBindingMap.slot_slot _ _ _
    | some offset =>
      simp only [ColumnBindingMap.slot, ColumnBindingMap.mapBuffers_mapBuffers]
      rfl

end Statement

end TrinoOdbc
