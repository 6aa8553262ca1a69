import TrinoOdbc.Statement
import TrinoOdbc.MetadataExecute

/-!
# TrinoOdbc.Request

The calls of a `Statement` that ask for a result, the rowsets fetched from it, and `InternalClose`.

A request puts a new query in place of the one the statement has, which is closed first, and
executes it. `SQLExecute` executes the query that is there.
-/

namespace TrinoOdbc

/-- The calls that ask for a result. `maxRowPerPage` is the connection's. -/
inductive Request where
  | execute
  | executeSql (sql : String) (maxRowPerPage : Option Nat)
  | columns (catalog schema table column : Option String)
  | tables (catalog schema table tableType : Option String)
  | typeInfo (sqlType : Int)
  | unsupported (function : UnsupportedFunction)

namespace Request

/-- The query of a catalog function. `SQL_ALL_TYPES` is 0. -/
def catalogQuery (S : Setting) : Request → Option Query
  | .execute | .executeSql _ _ => none
  | .columns catalog schema table column =>
    some (.columnMetadata (.create S catalog schema table column))
  | .tables catalog schema table tableType =>
    some (.tableMetadata (.create S catalog schema table tableType))
  | .typeInfo sqlType =>
    if sqlType = 0 ∨ isSqlTypeSupported sqlType then some (.typeInfo (.create sqlType)) else none
  | .unsupported function => some (.foreignKeys { function })

theorem catalogQuery_ne_data (S : Setting) (rq : Request) (q : DataQuery) :
    rq.catalogQuery S ≠ some (.data q) := by
  cases rq with
  | execute | executeSql _ _ | columns _ _ _ _ | tables _ _ _ _ | unsupported _ => nofun
  | typeInfo sqlType =>
    simp only [catalogQuery]
    split <;> nofun

end Request

/-- An empty result is a success of `InternalExecuteSqlQuery`. -/
def executeSqlResult : SqlResult → SqlResult
  | .noData => .successWithInfo
  | r => r

def executeSqlRecords : SqlResult → List DiagnosticRecord
  | .noData => [warning "Query result is empty"]
  | _ => []

namespace Statement

/-- `currentQuery.reset` with a new query, behind the `Close` of the one before. -/
inductive Replaces (W : World) : Statement → Query → Statement → Prop
  | first {st : Statement} {Q : Query} : st.currentQuery = none →
      Replaces W st Q { st with currentQuery := some Q }
  | closed {st : Statement} {Q Q₀ Q₁ : Query} {r : SqlResult} : st.currentQuery = some Q₀ →
      Q₀.Close W r Q₁ → Replaces W st Q { st with currentQuery := some Q }

/-- The statement after the `Execute` of its query in `InternalExecuteSqlQuery`. -/
def afterExecuteSql (st : Statement) (r : SqlResult) (Q : Query) : Statement :=
  { st with currentQuery := some Q, diag := st.diag ++ executeSqlRecords r }

/-- A request that comes to the `Execute` of a query: the query, what its `Execute` returns, and
what the request returns. -/
inductive Executes (W : World) : Statement → Request → Query → SqlResult → SqlResult → Statement →
    Prop
  | execute {st : Statement} {Q Q' : Query} {r : SqlResult} : st.currentQuery = some Q →
      Q.Execute W r Q' →
      Executes W st .execute Q r (executeSqlResult r) (st.afterExecuteSql r Q')
  | executeSql {st st₁ : Statement} {sql : String} {maxRowPerPage : Option Nat} {Q' : Query}
      {r : SqlResult} : Replaces W st (.data { sql, maxRowPerPage }) st₁ →
      (Query.data { sql, maxRowPerPage }).Execute W r Q' →
      Executes W st (.executeSql sql maxRowPerPage) (.data { sql, maxRowPerPage }) r
        (executeSqlResult r) (st₁.afterExecuteSql r Q')
  | catalog {st st₁ : Statement} {rq : Request} {Q Q' : Query} {r : SqlResult} :
      rq.catalogQuery W.setting = some Q → Replaces W st Q st₁ → Q.Execute W r Q' →
      Executes W st rq Q r r { st₁ with currentQuery := some Q' }

def queryNotPrepared : DiagnosticRecord :=
  { sqlState := .shy010SequenceError, message := "Query is not prepared." }

def typeNotSupported (sqlType : Int) : DiagnosticRecord :=
  { sqlState := .shyc00OptionalFeatureNotImplemented
    message := "Data type is not supported. [typeId=" ++ toString sqlType ++ "]" }

/-- A request that returns `AI_ERROR` before that. -/
inductive Refuses (S : Setting) : Statement → Request → Statement → Prop
  | notPrepared {st : Statement} : st.currentQuery = none →
      Refuses S st .execute (st.addStatusRecord queryNotPrepared)
  | typeInfo {st : Statement} {sqlType : Int} :
      (Request.typeInfo sqlType).catalogQuery S = none →
      Refuses S st (.typeInfo sqlType) (st.addStatusRecord (typeNotSupported sqlType))

/-- Calls of `InternalFetchRow` one after the other, with the results of all their rows. -/
inductive Rowsets (W : World) : Statement → List (SqlResult × List Stored) → Statement → Prop
  | nil {st : Statement} : Rowsets W st [] st
  | cons {st st' : Statement} {Q Q' : Query} {rs rs' : List (SqlResult × List Stored)} :
      st.currentQuery = some Q → FetchRows W st.offsetBindings 0 st.rowArraySize Q rs Q' →
      Rowsets W { st with columnBindings := st.lastBindings, currentQuery := some Q' } rs' st' →
      Rowsets W st (rs ++ rs') st'

def noCursorOpen : DiagnosticRecord :=
  { sqlState := .s24000InvalidCursorState, message := "No cursor was open" }

inductive InternalClose (W : World) : Statement → SqlResult → Statement → Prop
  | noQuery {st : Statement} : st.currentQuery = none → InternalClose W st .success st
  | notOpen {st : Statement} {Q : Query} : st.currentQuery = some Q → Q.dataAvailable = false →
      InternalClose W st .error (st.addStatusRecord noCursorOpen)
  | close {st : Statement} {Q Q' : Query} {r : SqlResult} : st.currentQuery = some Q →
      Q.dataAvailable = true → Q.Close W r Q' →
      InternalClose W st r { st with currentQuery := some Q' }

/-- The `DataQuery` of the statement, if it has one, has been led here by calls. -/
def Reached (st : Statement) : Prop :=
  ∀ q, st.currentQuery = some (.data q) → ∃ E, Lts.Reachable (Step E) Fresh ⟨.idle, q⟩

/-- The rowsets are those of `InternalFetchRow`. -/
theorem Rowsets.fetchCalls {W : World} {st st' : Statement}
    {rs : List (SqlResult × List Stored)} (h : Rowsets W st rs st') :
    ∃ os, FetchCalls W st os st' := by
  induction h with
  | nil => exact ⟨[], .nil⟩
  | cons hq hrows _ ih =>
    obtain ⟨os, hcalls⟩ := ih
    exact ⟨_, .cons (.fetch hq hrows) hcalls⟩

/-- The query that a request executes, and what it leaves. -/
theorem Executes.query {W : World} {st st' : Statement} {rq : Request} {Q : Query}
    {r r' : SqlResult} (h : Executes W st rq Q r r' st') :
    ∃ Q', Q.Execute W r Q' ∧ st'.currentQuery = some Q' := by
  cases h with
  | execute _ hexec => exact ⟨_, hexec, rfl⟩
  | executeSql _ hexec => exact ⟨_, hexec, rfl⟩
  | catalog _ _ hexec => exact ⟨_, hexec, rfl⟩

theorem Executes.reached {W : World} {st st' : Statement} {rq : Request} {Q : Query}
    {r r' : SqlResult} (hst : st.Reached) (h : Executes W st rq Q r r' st') (q : DataQuery)
    (hq : Q = .data q) : ∃ E, Lts.Reachable (Step E) Fresh ⟨.idle, q⟩ := by
  cases h with
  | execute hcur _ =>
    subst hq
    exact hst q hcur
  | executeSql _ _ =>
    cases hq
    exact ⟨W.env, .of_init ⟨_, _, rfl⟩⟩
  | catalog hrq _ _ =>
    subst hq
    exact absurd hrq (Request.catalogQuery_ne_data W.setting _ q)

end Statement

end TrinoOdbc
