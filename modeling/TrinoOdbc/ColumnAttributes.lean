import TrinoOdbc.DataQueryCases
import TrinoOdbc.Diagnostics

/-!
# TrinoOdbc.ColumnAttributes

What a statement says about the columns of its result: `SQLNumResultCols`, `SQLColAttribute` and
`SQLDescribeCol`.

A statement that has been prepared asks the service for the columns when they are first needed, and
asks again as long as it does not get them. `SQLDescribeCol` needs them five times.

* `getMeta_requested` — the query below is a `DataQuery`.
* `Asked` — the columns are those of the first reply that has any.
* `columnAnswers_run` — a run of calls: what is not an error is about these columns.
* `describeCol_unreported_iff` — when an error of `SQLDescribeCol` comes without a record.
-/

namespace TrinoOdbc

open Machine (after answers)

/-! ## Attributes -/

/-- The attributes with a number. -/
inductive NumericAttribute where
  | fixedPrecScale | autoUniqueValue | caseSensitive | conciseType | type | length | displaySize
  | octetLength | nullable | numPrecRadix | precision | scale | searchable | unnamed | unsigned
  | updatable

inductive ColumnAttribute where
  | text (fieldId : CharAttribute)
  | number (fieldId : NumericAttribute)
  | unknown

def SqlType.displaySize : SqlType → Int
  | .varchar | .wvarchar | .char | .wchar | .longvarchar | .wlongvarchar | .decimal | .numeric =>
    trinoSqlMaxLength
  | .bit | .typeNull => 1
  | .tinyint => 4
  | .smallint => 6
  | .integer => 11
  | .bigint => 20
  | .real => 14
  | .float | .double => 24
  | .typeDate => 10
  | .typeTime => 8
  | .typeTimestamp => 20
  | .intervalDayToSecond => 25
  | .intervalYearToMonth => 12
  | .guid => 36

/-- `ToSql`. -/
def Nullability.toSql : Nullability → Int
  | .noNull => 0
  | .nullable => 1
  | .nullabilityUnknown => 2

namespace ColumnMeta

/-- `GetAttribute` for a number. No column has a precision or a scale of its own, and none is
incremented. -/
def getNumber (c : ColumnMeta) : NumericAttribute → Int
  | .fixedPrecScale | .autoUniqueValue => 0
  | .caseSensitive => if c.dataType = some .varchar then 1 else 0
  | .conciseType | .type => (c.dataType.map fun t => t.binaryToSqlType.code).getD (-1)
  | .length | .displaySize => (c.dataType.map fun t => t.binaryToSqlType.displaySize).getD (-1)
  | .octetLength => (c.dataType.map fun t => t.binaryToSqlType.transferLength).getD (-1)
  | .nullable => c.nullability.toSql
  | .numPrecRadix => (c.dataType.map fun t => t.binaryToSqlType.numPrecRadix).getD (-1)
  | .precision => (c.dataType.map fun t => t.binaryToSqlType.columnSize).getD (-1)
  | .scale => (c.dataType.map fun t => t.binaryToSqlType.decimalDigits).getD (-1)
  | .searchable | .updatable => 2
  | .unnamed => if c.columnName.getD "" ≠ "" then 0 else 1
  | .unsigned => if c.dataType.any fun t => t.binaryToSqlType.isUnsigned then 1 else 0

end ColumnMeta

/-! ## Statements -/

/-- The query of a statement, as far as its columns go. A query that has been executed, and one of
the catalog functions, knows them. `requests` counts what it has asked the service. -/
structure MetaQuery where
  sql : String
  resultMeta : Option (List ColumnMeta) := none
  requests : Nat := 0

/-- The columns of a reply. -/
def QueryOutcome.columns : QueryOutcome → Option (List ColumnMeta)
  | .failure _ => none
  | .success r =>
    if r.columnInfo.isEmpty then none else some (r.columnInfo.map ColumnMeta.readMetadata)

/-- The record of a request that has failed. -/
def apiError (e : QueryError) (sql : String) : DiagnosticRecord :=
  { sqlState := .shy000GeneralError
    message := "API ERROR: " ++ e.exceptionName ++ ": " ++ e.message ++ " for query " ++ sql }

/-- The record of a reply: no columns are no failure. -/
def QueryOutcome.records (sql : String) : QueryOutcome → List DiagnosticRecord
  | .failure e => [apiError e sql]
  | .success _ => []

structure MetaStatement where
  storage : DiagnosticRecordStorage := {}
  currentQuery : Option MetaQuery := none

/-- What `SQLColAttribute` writes: the text, its length, and the number. -/
structure AttributeOutput where
  written : Option (List Char) := none
  length : Option Int := none
  number : Option Int := none

namespace MetaStatement

/-- `GetMeta`, with the records it adds. `service` has the reply to each request. -/
def getMeta (service : Nat → QueryOutcome) :
    Option MetaQuery → (Option (List ColumnMeta) × List DiagnosticRecord) × Option MetaQuery
  | none =>
    ((none, [{ sqlState := .shy010SequenceError, message := "Query is not executed." }]), none)
  | some q =>
    match q.resultMeta with
    | some columns => ((some columns, []), some q)
    | none =>
      let outcome := service q.requests
      ((outcome.columns, outcome.records q.sql),
        some { q with resultMeta := outcome.columns, requests := q.requests + 1 })

/-- `GetColumnNumber`, with the result that `IGNITE_ODBC_API_CALL` stores. -/
def getColumnNumber (service : Nat → QueryOutcome) (s : MetaStatement) : Int × MetaStatement :=
  let got := getMeta service s.currentQuery
  match got.1.1 with
  | none => (0, ⟨s.storage.apiCall got.1.2 .error, got.2⟩)
  | some columns => (columns.length, ⟨s.storage.apiCall got.1.2 .success, got.2⟩)

/-- `InternalGetColumnAttribute` once there are columns. The buffer for the text has `strbuf` bytes,
`numbuf` says whether there is a place for a number. -/
def columnAttribute (w : WcharSize) (columns : List ColumnMeta) (colIdx : Nat)
    (attrId : ColumnAttribute) (strbuf : Option Nat) (numbuf : Bool) :
    (SqlResult × List DiagnosticRecord) × AttributeOutput :=
  match if colIdx < 1 then none else columns[colIdx - 1]? with
  | none =>
    ((.error,
      [{ sqlState := .shy000GeneralError, message := "Column index is out of range."
         columnNum := colIdx }]), {})
  | some column =>
    match attrId with
    | .number fieldId =>
      if numbuf then ((.success, []), { number := some (column.getNumber fieldId) })
      else
        ((.error, [{ sqlState := .shyc00OptionalFeatureNotImplemented
                     message := "Unknown attribute." }]), {})
    | .unknown =>
      ((.error, [{ sqlState := .shyc00OptionalFeatureNotImplemented
                   message := "Unknown attribute." }]),
        { number := if numbuf then some (-1) else none })
    | .text fieldId =>
      let out := column.getAttribute fieldId
      let number := if numbuf then some (-1) else none
      match strbuf with
      | none => ((.success, []), { length := some (toSmallInt out.utf8ByteSize), number })
      | some buflen =>
        let r := copyStringToBuffer w out true buflen true
        ((if r.isTruncated then .successWithInfo else .success, []),
          { written := some r.written, length := some (toSmallInt r.length), number })

/-- `GetColumnAttribute`. -/
def getColumnAttribute (w : WcharSize) (service : Nat → QueryOutcome) (s : MetaStatement)
    (colIdx : Nat) (attrId : ColumnAttribute) (strbuf : Option Nat) (numbuf : Bool) :
    AttributeOutput × MetaStatement :=
  let got := getMeta service s.currentQuery
  match got.1.1 with
  | none => ({}, ⟨s.storage.apiCall got.1.2 .error, got.2⟩)
  | some columns =>
    let ((result, added), output) := columnAttribute w columns colIdx attrId strbuf numbuf
    (output, ⟨s.storage.apiCall (got.1.2 ++ added) result, got.2⟩)

/-! ## Calls -/

/-- What `SQLDescribeCol` returns and writes. -/
structure ColumnDescription where
  result : SqlResult
  name : Option (List Char)
  nameLength : Int
  dataType : Int
  columnSize : Int
  decimalDigits : Int
  nullable : Int

/-- The end of `SQLDescribeCol`: an error before a warning, the first of its kind. -/
def worstOf (returnCodes : List SqlResult) : SqlResult :=
  ((returnCodes.find? fun r => r ≠ .success ∧ r ≠ .successWithInfo).or
    (returnCodes.find? (· ≠ .success))).getD .success

/-- `int16_t` to `size_t`. -/
def smallIntToSize (n : Int) : Nat := (toSmallInt n % 18446744073709551616).toNat

/-- `SQLDescribeCol`. The variables for the numbers are not initialized. -/
def sqlDescribeCol (P : Platform) (service : Nat → QueryOutcome) (s : MetaStatement)
    (columnNum : Nat) (columnNameBuf : Option Nat) : ColumnDescription × MetaStatement :=
  let (name, s) := s.getColumnAttribute P.wchar service columnNum (.text .name)
    (columnNameBuf.map fun n => smallIntToSize (n * P.wchar.bytes : Nat)) false
  let nameCode := s.storage.result
  let (dataType, s) := s.getColumnAttribute P.wchar service columnNum (.number .type) none true
  let typeCode := s.storage.result
  let (columnSize, s) :=
    s.getColumnAttribute P.wchar service columnNum (.number .precision) none true
  let sizeCode := s.storage.result
  let (decimalDigits, s) :=
    s.getColumnAttribute P.wchar service columnNum (.number .scale) none true
  let digitsCode := s.storage.result
  let (nullable, s) := s.getColumnAttribute P.wchar service columnNum (.number .nullable) none true
  let nullableCode := s.storage.result
  ({ result := worstOf [nameCode, typeCode, sizeCode, digitsCode, nullableCode]
     name := name.written
     nameLength := toSmallInt (toULen (name.length.getD 0) / P.wchar.bytes)
     dataType := toSmallInt (dataType.number.getD (P.uninitialized 0))
     columnSize := toULen (columnSize.number.getD (P.uninitialized 1))
     decimalDigits := toSmallInt (decimalDigits.number.getD (P.uninitialized 2))
     nullable := toSmallInt (nullable.number.getD (P.uninitialized 3)) }, s)

/-- What the application asks. The attribute `none` is `SQL_DESC_COUNT`. -/
inductive MetaCall where
  | numResultCols
  | colAttribute (columnNum : Nat) (fieldId : Option ColumnAttribute) (strAttr : Option Nat)
      (numericAttr : Bool)
  | describeCol (columnNum : Nat) (columnNameBuf : Option Nat)

inductive MetaAnswer where
  | count (result : SqlResult) (columnNum : Int)
  | attribute (result : SqlResult) (output : AttributeOutput)
  | description (d : ColumnDescription)

def MetaAnswer.result : MetaAnswer → SqlResult
  | .count result _ => result
  | .attribute result _ => result
  | .description d => d.result

/-- `SQLNumResultCols`. -/
def sqlNumResultCols (service : Nat → QueryOutcome) (s : MetaStatement) :
    (SqlResult × Int) × MetaStatement :=
  let (res, s) := s.getColumnNumber service
  ((s.storage.result, toSmallInt res), s)

def step (P : Platform) (service : Nat → QueryOutcome) (s : MetaStatement) :
    MetaCall → MetaStatement × MetaAnswer
  | .numResultCols =>
    let ((result, columnNum), s) := s.sqlNumResultCols service
    (s, .count result columnNum)
  | .colAttribute _ none _ numericAttr =>
    let ((result, val), s) := s.sqlNumResultCols service
    (s, .attribute result { number := if numericAttr ∧ result = .success then some val else none })
  | .colAttribute columnNum (some fieldId) strAttr numericAttr =>
    let (output, s) := s.getColumnAttribute P.wchar service columnNum fieldId strAttr numericAttr
    (s, .attribute s.storage.result output)
  | .describeCol columnNum columnNameBuf =>
    let (d, s) := s.sqlDescribeCol P service columnNum columnNameBuf
    (s, .description d)

/-! ## The columns of a run -/

/-- What a statement answers that knows its columns. -/
def answerOf (P : Platform) (columns : List ColumnMeta) (call : MetaCall) : MetaAnswer :=
  (step P (fun _ => .failure ⟨"", ""⟩)
    { currentQuery := some { sql := "", resultMeta := some columns } } call).2

section Step

variable {P : Platform} {w : WcharSize} {service : Nat → QueryOutcome}
  {storage : DiagnosticRecordStorage} {sql : String} {columns : List ColumnMeta} {requests : Nat}

@[simp] theorem apiCall_result (records : List DiagnosticRecord) (result : SqlResult) :
    (storage.apiCall records result).result = result := rfl

@[simp] theorem getColumnNumber_known :
    getColumnNumber service ⟨storage, some ⟨sql, some columns, requests⟩⟩ =
      ((columns.length : Int),
        ⟨storage.apiCall [] .success, some ⟨sql, some columns, requests⟩⟩) := rfl

@[simp] theorem getColumnAttribute_known (colIdx : Nat) (attrId : ColumnAttribute)
    (strbuf : Option Nat) (numbuf : Bool) :
    getColumnAttribute w service ⟨storage, some ⟨sql, some columns, requests⟩⟩ colIdx attrId strbuf
        numbuf =
      ((columnAttribute w columns colIdx attrId strbuf numbuf).2,
        ⟨storage.apiCall (columnAttribute w columns colIdx attrId strbuf numbuf).1.2
          (columnAttribute w columns colIdx attrId strbuf numbuf).1.1,
          some ⟨sql, some columns, requests⟩⟩) := rfl

/-- A statement that knows its columns asks for nothing. -/
theorem step_known (call : MetaCall) :
    let s : MetaStatement := ⟨storage, some ⟨sql, some columns, requests⟩⟩
    (step P service s call).2 = answerOf P columns call ∧
      (step P service s call).1.currentQuery = some ⟨sql, some columns, requests⟩ := by
  intro s
  cases call with
  | numResultCols => exact ⟨rfl, rfl⟩
  | colAttribute columnNum fieldId strAttr numericAttr =>
    cases fieldId with
    | none => exact ⟨rfl, rfl⟩
    | some fieldId => exact ⟨rfl, rfl⟩
  | describeCol columnNum columnNameBuf => exact ⟨rfl, rfl⟩

theorem getColumnNumber_unknown (h : (service requests).columns = none) :
    getColumnNumber service ⟨storage, some ⟨sql, none, requests⟩⟩ =
      (0, ⟨storage.apiCall ((service requests).records sql) .error,
        some ⟨sql, none, requests + 1⟩⟩) := by
  simp only [getColumnNumber, getMeta, h]

theorem getColumnAttribute_unknown (h : (service requests).columns = none) (colIdx : Nat)
    (attrId : ColumnAttribute) (strbuf : Option Nat) (numbuf : Bool) :
    getColumnAttribute w service ⟨storage, some ⟨sql, none, requests⟩⟩ colIdx attrId strbuf numbuf =
      ({}, ⟨storage.apiCall ((service requests).records sql) .error,
        some ⟨sql, none, requests + 1⟩⟩) := by
  simp only [getColumnAttribute, getMeta, h]

/-- A reply with columns adds no record. -/
theorem records_of_columns (h : (service requests).columns = some columns) :
    (service requests).records sql = [] := by
  cases hreply : service requests with
  | failure e =>
    rw [hreply] at h
    cases h
  | success r => rfl

/-! The query below is a `DataQuery`. -/

/-- A query that has sent `n` requests for its columns. -/
def ofQuery (q : DataQuery) (n : Nat) : MetaQuery :=
  { sql := q.sql
    resultMeta := if q.resultMetaAvailable then some q.resultMeta else none
    requests := n }

theorem getMeta_available (read : ReadToBuffer) {q : DataQuery} (n : Nat)
    (h : q.resultMetaAvailable = true) :
    q.enter read .getMeta = retWith (.resultMeta (getMeta service (some (ofQuery q n))).1.1) q ∧
      (getMeta service (some (ofQuery q n))) =
        (((some q.resultMeta), []), some (ofQuery q n)) := by
  simp [DataQuery.enter, getMeta, ofQuery, DataQuery.getMetaResult, h]

/-- The request of `GetMeta`. One that fails closes the query before `GetMeta` returns. -/
theorem getMeta_requested (read : ReadToBuffer) {q : DataQuery} (n : Nat)
    (h : q.resultMetaAvailable = false) :
    q.enter read .getMeta = goTo .requestingMeta q ∧
      ∃ q₁ : DataQuery,
        (q.makeRequestResultsetMeta (service n) =
            retWith (.resultMeta (getMeta service (some (ofQuery q n))).1.1) q₁ ∨
          ∃ q₂ : DataQuery,
            q.makeRequestResultsetMeta (service n) = goTo (.closing .resultsetMetaFailed) q₂ ∧
              q₂.endClose = q₁ ∧ q₁.afterClose .resultsetMetaFailed =
                retWith (.resultMeta (getMeta service (some (ofQuery q n))).1.1) q₁) ∧
        (getMeta service (some (ofQuery q n))).2 = some (ofQuery q₁ (n + 1)) ∧
        q₁.diag = q.diag ++ (getMeta service (some (ofQuery q n))).1.2 := by
  refine ⟨by simp [DataQuery.enter, h], ?_⟩
  cases hreply : service n with
  | success r =>
    refine ⟨q.readColumnMetadataVector r.columnInfo, .inl ?_, ?_, ?_⟩
    · cases hempty : r.columnInfo.isEmpty <;>
        simp [DataQuery.makeRequestResultsetMeta, DataQuery.getMetaResult, getMeta, ofQuery,
          DataQuery.readColumnMetadataVector, QueryOutcome.columns, h, hreply, hempty]
    · cases hempty : r.columnInfo.isEmpty <;>
        simp [getMeta, ofQuery, DataQuery.readColumnMetadataVector, QueryOutcome.columns, h, hreply,
          hempty]
    · cases hempty : r.columnInfo.isEmpty <;>
        simp [getMeta, ofQuery, DataQuery.readColumnMetadataVector, QueryOutcome.records, h, hreply,
          hempty]
  | failure e =>
    refine ⟨(q.addStatusRecord (apiError e q.sql)).beginClose.endClose, .inr ⟨_, rfl, rfl, ?_⟩, ?_,
      ?_⟩
    · simp [DataQuery.afterClose, DataQuery.getMetaResult, getMeta, ofQuery, QueryOutcome.columns,
        DataQuery.endClose, DataQuery.beginClose, DataQuery.addStatusRecord, h, hreply]
    · simp [getMeta, ofQuery, QueryOutcome.columns, DataQuery.endClose, DataQuery.beginClose,
        DataQuery.addStatusRecord, h, hreply]
    · simp [getMeta, ofQuery, QueryOutcome.records, DataQuery.endClose, DataQuery.beginClose,
        DataQuery.addStatusRecord, h, hreply]

theorem sqlNumResultCols_asked (h : (service requests).columns = some columns) :
    sqlNumResultCols service ⟨storage, some ⟨sql, none, requests⟩⟩ =
      sqlNumResultCols service ⟨storage, some ⟨sql, some columns, requests + 1⟩⟩ := by
  simp only [sqlNumResultCols, getColumnNumber, getMeta, h, records_of_columns h]

theorem getColumnAttribute_asked (h : (service requests).columns = some columns) (colIdx : Nat)
    (attrId : ColumnAttribute) (strbuf : Option Nat) (numbuf : Bool) :
    getColumnAttribute w service ⟨storage, some ⟨sql, none, requests⟩⟩ colIdx attrId strbuf numbuf =
      getColumnAttribute w service ⟨storage, some ⟨sql, some columns, requests + 1⟩⟩ colIdx attrId
        strbuf numbuf := by
  simp only [getColumnAttribute, getMeta, h, records_of_columns h]

theorem sqlDescribeCol_asked (h : (service requests).columns = some columns) (columnNum : Nat)
    (columnNameBuf : Option Nat) :
    sqlDescribeCol P service ⟨storage, some ⟨sql, none, requests⟩⟩ columnNum columnNameBuf =
      sqlDescribeCol P service ⟨storage, some ⟨sql, some columns, requests + 1⟩⟩ columnNum
        columnNameBuf := by
  simp only [sqlDescribeCol, getColumnAttribute_asked h]

/-- A statement that gets its columns now goes on as one that has them. -/
theorem step_asked (h : (service requests).columns = some columns) (call : MetaCall) :
    step P service ⟨storage, some ⟨sql, none, requests⟩⟩ call =
      step P service ⟨storage, some ⟨sql, some columns, requests + 1⟩⟩ call := by
  cases call with
  | numResultCols => simp only [step, sqlNumResultCols_asked h]
  | colAttribute columnNum fieldId strAttr numericAttr =>
    cases fieldId with
    | none => simp only [step, sqlNumResultCols_asked h]
    | some fieldId => simp only [step, getColumnAttribute_asked h]
  | describeCol columnNum columnNameBuf => simp only [step, sqlDescribeCol_asked h]

theorem worstOf_error (returnCodes : List SqlResult) :
    worstOf (.error :: returnCodes) = .error := rfl

/-- One that does not get them answers with an error. -/
theorem step_unknown (h : (service requests).columns = none) (call : MetaCall) :
    (step P service ⟨storage, some ⟨sql, none, requests⟩⟩ call).2.result = .error := by
  cases call with
  | numResultCols =>
    simp only [step, sqlNumResultCols, getColumnNumber_unknown h]
    rfl
  | colAttribute columnNum fieldId strAttr numericAttr =>
    cases fieldId with
    | none =>
      simp only [step, sqlNumResultCols, getColumnNumber_unknown h]
      rfl
    | some fieldId =>
      simp only [step, getColumnAttribute_unknown h]
      rfl
  | describeCol columnNum columnNameBuf =>
    simp only [step, sqlDescribeCol, getColumnAttribute_unknown h, apiCall_result,
      MetaAnswer.result, worstOf_error]

theorem getColumnNumber_query (s : MetaStatement) :
    (s.getColumnNumber service).2.currentQuery = (getMeta service s.currentQuery).2 := by
  unfold getColumnNumber
  dsimp only
  cases (getMeta service s.currentQuery).1.1 <;> rfl

theorem getColumnAttribute_query (s : MetaStatement) (colIdx : Nat) (attrId : ColumnAttribute)
    (strbuf : Option Nat) (numbuf : Bool) :
    (s.getColumnAttribute w service colIdx attrId strbuf numbuf).2.currentQuery =
      (getMeta service s.currentQuery).2 := by
  unfold getColumnAttribute
  dsimp only
  cases (getMeta service s.currentQuery).1.1 <;> rfl

/-- How often a call asks for the columns. -/
def attempts : MetaCall → Nat
  | .describeCol _ _ => 5
  | _ => 1

theorem step_query (s : MetaStatement) (call : MetaCall) :
    (step P service s call).1.currentQuery =
      (fun q => (getMeta service q).2)^[attempts call] s.currentQuery := by
  cases call with
  | numResultCols => exact getColumnNumber_query s
  | colAttribute columnNum fieldId strAttr numericAttr =>
    cases fieldId with
    | none => exact getColumnNumber_query s
    | some fieldId => exact getColumnAttribute_query s ..
  | describeCol columnNum columnNameBuf =>
    simp only [step, sqlDescribeCol, getColumnAttribute_query]
    rfl

end Step

/-! ## Runs -/

/-- The columns are those of the last reply, and no reply before it has any. -/
structure Asked (service : Nat → QueryOutcome) (q : MetaQuery) : Prop where
  none_before : ∀ i, i + 1 < q.requests → (service i).columns = none
  resultMeta_eq :
    q.resultMeta = if q.requests = 0 then none else (service (q.requests - 1)).columns

section Run

variable {P : Platform} {service : Nat → QueryOutcome}

theorem asked_new (sql : String) : Asked service { sql } :=
  ⟨fun _ hi => absurd hi (Nat.not_lt_zero _), rfl⟩

/-- One attempt. A query that knows its columns does not ask again. -/
theorem Asked.getMeta {q : MetaQuery} (h : Asked service q) :
    ∃ q', (MetaStatement.getMeta service (some q)).2 = some q' ∧ Asked service q' ∧
      q'.requests ≤ q.requests + 1 ∧
      ∀ columns, q.resultMeta = some columns → q'.resultMeta = some columns := by
  cases hmeta : q.resultMeta with
  | some columns =>
    refine ⟨q, by simp only [MetaStatement.getMeta, hmeta], h, Nat.le_succ _, fun _ h => ?_⟩
    rw [hmeta, h]
  | none =>
    refine ⟨{ q with resultMeta := (service q.requests).columns, requests := q.requests + 1 },
      by simp only [MetaStatement.getMeta, hmeta], ⟨fun i hi => ?_, ?_⟩, le_rfl,
      fun columns hcolumns => absurd hcolumns (Option.some_ne_none columns).symm⟩
    · -- The last reply had no columns, or there was none.
      have hlast := h.resultMeta_eq
      rw [hmeta] at hlast
      by_cases hi' : i + 1 < q.requests
      · exact h.none_before i hi'
      · have hpos : q.requests ≠ 0 := by
          dsimp only at hi
          omega
        rw [if_neg hpos] at hlast
        have hindex : i = q.requests - 1 := by
          dsimp only at hi
          omega
        rw [hindex, ← hlast]
    · rw [if_neg (Nat.succ_ne_zero _), Nat.add_sub_cancel]

theorem Asked.iterate {q : MetaQuery} (h : Asked service q) (k : Nat) :
    ∃ q', (fun q => (MetaStatement.getMeta service q).2)^[k] (some q) = some q' ∧ Asked service q' ∧
      q'.requests ≤ q.requests + k ∧
      ∀ columns, q.resultMeta = some columns → q'.resultMeta = some columns := by
  induction k generalizing q with
  | zero => exact ⟨q, rfl, h, le_rfl, fun _ h => h⟩
  | succ k ih =>
    obtain ⟨q₁, hq₁, hasked, hle, hkept⟩ := h.getMeta
    obtain ⟨q₂, hq₂, hasked', hle', hkept'⟩ := ih hasked
    refine ⟨q₂, ?_, hasked', by omega, fun columns hmeta => hkept' columns (hkept columns hmeta)⟩
    rw [Function.iterate_succ_apply, hq₁, hq₂]

/-- The answer of a statement, which is an error or about the columns it has afterwards. -/
theorem Asked.step {s : MetaStatement} {q : MetaQuery} (hq : s.currentQuery = some q)
    (h : Asked service q) (call : MetaCall) :
    ∃ q', (step P service s call).1.currentQuery = some q' ∧ Asked service q' ∧
      q'.requests ≤ q.requests + attempts call ∧
      (∀ columns, q.resultMeta = some columns → q'.resultMeta = some columns) ∧
      ((step P service s call).2.result ≠ .error → ∃ columns, q'.resultMeta = some columns ∧
        (step P service s call).2 = answerOf P columns call) := by
  obtain ⟨q', hq', hasked, hle, hkept⟩ := h.iterate (attempts call)
  rw [← hq, ← step_query (P := P)] at hq'
  refine ⟨q', hq', hasked, hle, hkept, fun hresult => ?_⟩
  obtain ⟨storage, query⟩ := s
  obtain rfl : query = some q := hq
  obtain ⟨sql, resultMeta, requests⟩ := q
  cases resultMeta with
  | some columns => exact ⟨columns, hkept columns rfl, (step_known call).1⟩
  | none =>
    cases hcolumns : (service requests).columns with
    | none => exact absurd (step_unknown hcolumns call) hresult
    | some columns =>
      rw [step_asked hcolumns] at hq' ⊢
      obtain ⟨hanswer, hquery⟩ := @step_known P service storage sql columns (requests + 1) call
      rw [hquery] at hq'
      obtain rfl := Option.some.inj hq'
      exact ⟨columns, rfl, hanswer⟩

/-- How often a run asks. -/
theorem run_asked (calls : List MetaCall) {s : MetaStatement} {q : MetaQuery}
    (hq : s.currentQuery = some q) (h : Asked service q) :
    ∃ q', (after (MetaStatement.step P service) s calls).currentQuery = some q' ∧
      Asked service q' ∧ q'.requests ≤ q.requests + (calls.map attempts).sum ∧
      (∀ columns, q.resultMeta = some columns → q'.resultMeta = some columns) ∧
      ∀ p ∈ calls.zip (answers (MetaStatement.step P service) s calls), p.2.result ≠ .error →
        ∃ columns, q'.resultMeta = some columns ∧ p.2 = answerOf P columns p.1 := by
  induction calls generalizing s q with
  | nil =>
    refine ⟨q, hq, h, Nat.le_add_right _ _, fun _ hmeta => hmeta, fun p hp => ?_⟩
    rw [List.zip_nil_left] at hp
    exact absurd hp List.not_mem_nil
  | cons call calls ih =>
    obtain ⟨q₁, hq₁, hasked, hle, hkept, hfirst⟩ := Asked.step (P := P) hq h call
    obtain ⟨q₂, hq₂, hasked', hle', hkept', hrest⟩ := ih hq₁ hasked
    rw [List.map_cons, List.sum_cons]
    refine ⟨q₂, hq₂, hasked', by omega, fun columns hmeta => hkept' columns (hkept columns hmeta),
      fun p hp hresult => ?_⟩
    rw [Machine.answers_cons, List.zip_cons_cons] at hp
    rcases List.mem_cons.mp hp with rfl | hp
    · obtain ⟨columns, hmeta, hanswer⟩ := hfirst hresult
      exact ⟨columns, hkept' columns hmeta, hanswer⟩
    · exact hrest p hp hresult

/-- A run of calls on a statement that has just been prepared. Every answer that is not an error is
the one of a statement that knows its columns, and these are the columns of the first reply that has
any. -/
theorem columnAnswers_run (P : Platform) (service : Nat → QueryOutcome) (sql : String)
    (calls : List MetaCall) :
    let s : MetaStatement := { currentQuery := some { sql } }
    ∃ q, (after (MetaStatement.step P service) s calls).currentQuery = some q ∧
      (∀ i, i + 1 < q.requests → (service i).columns = none) ∧
      q.resultMeta =
        (if q.requests = 0 then none else (service (q.requests - 1)).columns) ∧
      q.requests ≤ (calls.map attempts).sum ∧
      ∀ p ∈ calls.zip (answers (MetaStatement.step P service) s calls), p.2.result ≠ .error →
        ∃ columns, q.resultMeta = some columns ∧ p.2 = answerOf P columns p.1 := by
  intro s
  obtain ⟨q, hq, hasked, hle, -, hanswers⟩ :=
    @run_asked P service calls s _ rfl (asked_new sql)
  exact ⟨q, hq, hasked.none_before, hasked.resultMeta_eq, by simpa only [Nat.zero_add] using hle,
    hanswers⟩

end Run

/-! ## Errors without a record

The return code of `SQLDescribeCol` is the worst of five, the records are those of the fifth. -/

section Unreported

variable {P : Platform} {w : WcharSize} {service : Nat → QueryOutcome} {sql : String}
  {columns : List ColumnMeta} {columnNum : Nat}

theorem statusRecords_apiCall (storage : DiagnosticRecordStorage)
    (records : List DiagnosticRecord) (result : SqlResult) :
    (storage.apiCall records result).statusRecords = records.map (·, false) := by
  rw [DiagnosticRecordStorage.apiCall_eq, DiagnosticRecordStorage.statusRecords_ofReport]
  rfl

/-- The columns after `k` requests without any, and one more. -/
theorem getMeta_iterate (k n : Nat) :
    (getMeta service ((fun q => (getMeta service q).2)^[k] (some ⟨sql, none, n⟩))).1 =
      match (List.range' n (k + 1)).findSome? fun i => (service i).columns with
      | some columns => (some columns, [])
      | none => (none, (service (n + k)).records sql) := by
  induction k generalizing n with
  | zero =>
    cases hcolumns : (service n).columns with
    | none => simp [getMeta, hcolumns]
    | some columns => simp [getMeta, hcolumns, records_of_columns hcolumns]
  | succ k ih =>
    rw [List.range'_succ, Function.iterate_succ_apply]
    cases hcolumns : (service n).columns with
    | none =>
      rw [List.findSome?_cons_of_isNone (by rw [hcolumns]; rfl)]
      simpa only [getMeta, hcolumns, Nat.add_assoc, Nat.add_comm 1 k] using ih (n + 1)
    | some columns =>
      rw [List.findSome?_cons_of_isSome (by rw [hcolumns]; rfl)]
      have hfixed : (fun q => (getMeta service q).2)^[k] (some ⟨sql, some columns, n + 1⟩) =
          some ⟨sql, some columns, n + 1⟩ := Function.iterate_fixed rfl k
      simp only [getMeta, hcolumns] at hfixed ⊢
      rw [hfixed]

/-- The records of one attribute. -/
theorem getColumnAttribute_records (s : MetaStatement) (attrId : ColumnAttribute)
    (strbuf : Option Nat) (numbuf : Bool) :
    (s.getColumnAttribute w service columnNum attrId strbuf numbuf).2.storage.statusRecords =
      (match (getMeta service s.currentQuery).1 with
      | (none, records) => records
      | (some columns, records) =>
        records ++ (columnAttribute w columns columnNum attrId strbuf numbuf).1.2).map
          (·, false) := by
  unfold getColumnAttribute
  generalize getMeta service s.currentQuery = got
  obtain ⟨⟨columns, records⟩, q⟩ := got
  cases columns with
  | none => exact statusRecords_apiCall ..
  | some columns => exact statusRecords_apiCall ..

theorem columnAttribute_outOfRange (h : ¬ (1 ≤ columnNum ∧ columnNum ≤ columns.length))
    (attrId : ColumnAttribute) (strbuf : Option Nat) (numbuf : Bool) :
    (columnAttribute w columns columnNum attrId strbuf numbuf).1.2 ≠ [] := by
  have hnone : (if columnNum < 1 then none else columns[columnNum - 1]?) = none := by
    split
    · rfl
    · exact List.getElem?_eq_none (by omega)
  unfold columnAttribute
  rw [hnone]
  exact List.cons_ne_nil _ _

/-- The attributes `SQLDescribeCol` asks for, of a column there is. -/
theorem columnAttribute_inRange (h : 1 ≤ columnNum ∧ columnNum ≤ columns.length)
    (strbuf : Option Nat) :
    (∀ fieldId numbuf,
        (columnAttribute w columns columnNum (.text fieldId) strbuf numbuf).1.1 ≠ .error) ∧
      ∀ fieldId, (columnAttribute w columns columnNum (.number fieldId) strbuf true).1 =
        (.success, []) := by
  have hlt : columnNum - 1 < columns.length := by omega
  unfold columnAttribute
  rw [if_neg (Nat.not_lt.mpr h.1), List.getElem?_eq_getElem hlt]
  refine ⟨fun fieldId numbuf => ?_, fun _ => rfl⟩
  cases strbuf with
  | none => simp
  | some buflen =>
    dsimp only
    split <;> simp

/-- A number is reported when the column is there. -/
theorem numberRecords_iff {fieldId : NumericAttribute} :
    [] ++ (columnAttribute w columns columnNum (.number fieldId) none true).1.2 = [] ↔
      1 ≤ columnNum ∧ columnNum ≤ columns.length := by
  rw [List.nil_append]
  constructor
  · intro h
    by_contra hout
    exact columnAttribute_outOfRange hout _ _ _ h
  · intro h
    rw [(columnAttribute_inRange h none).2 fieldId]

theorem records_eq_nil_iff {outcome : QueryOutcome} :
    outcome.records sql = [] ↔ ∃ r, outcome = .success r := by
  cases outcome with
  | failure e =>
    refine iff_of_false (List.cons_ne_nil _ _) ?_
    rintro ⟨r, h⟩
    cases h
  | success r => exact iff_of_true rfl ⟨r, rfl⟩

theorem worstOf_ne_error {returnCodes : List SqlResult} (h : ∀ r ∈ returnCodes, r ≠ .error) :
    worstOf returnCodes ≠ .error := by
  intro herror
  unfold worstOf at herror
  cases hfirst : returnCodes.find? fun r => r ≠ .success ∧ r ≠ .successWithInfo with
  | some r =>
    rw [hfirst, Option.some_or, Option.getD_some] at herror
    exact h r (List.mem_of_find?_eq_some hfirst) herror
  | none =>
    rw [hfirst, Option.none_or] at herror
    cases hsecond : returnCodes.find? (· ≠ .success) with
    | some r =>
      rw [hsecond, Option.getD_some] at herror
      exact h r (List.mem_of_find?_eq_some hsecond) herror
    | none =>
      rw [hsecond] at herror
      exact absurd herror (by decide)

/-- The fifth attribute asks after four attempts. -/
theorem sqlDescribeCol_records (s : MetaStatement) (columnNameBuf : Option Nat) :
    (s.sqlDescribeCol P service columnNum columnNameBuf).2.storage.statusRecords =
      (match (getMeta service ((fun q => (getMeta service q).2)^[4] s.currentQuery)).1 with
      | (none, records) => records
      | (some columns, records) =>
        records ++
          (columnAttribute P.wchar columns columnNum (.number .nullable) none true).1.2).map
          (·, false) := by
  simp only [sqlDescribeCol, getColumnAttribute_records, getColumnAttribute_query]
  rfl

/-- A statement that knows its columns reports the number of a column there is not. -/
theorem describeCol_known (storage : DiagnosticRecordStorage) (n : Nat)
    (columnNameBuf : Option Nat) :
    let s : MetaStatement := ⟨storage, some ⟨sql, some columns, n⟩⟩
    ¬ ((s.sqlDescribeCol P service columnNum columnNameBuf).1.result = .error ∧
      (s.sqlDescribeCol P service columnNum columnNameBuf).2.storage.statusRecords = []) := by
  intro s ⟨hresult, hrecords⟩
  rw [sqlDescribeCol_records] at hrecords
  have hfixed : (fun q => (getMeta service q).2)^[4] s.currentQuery = s.currentQuery :=
    Function.iterate_fixed rfl 4
  rw [hfixed] at hrecords
  have hcolumnNum := numberRecords_iff.mp (List.map_eq_nil_iff.mp hrecords)
  refine worstOf_ne_error (fun r hr => ?_) hresult
  have hnumber : ∀ fieldId,
      (columnAttribute P.wchar columns columnNum (.number fieldId) none true).1.1 ≠ .error :=
    fun fieldId => by
      rw [(columnAttribute_inRange hcolumnNum none).2 fieldId]
      decide
  simp only [List.mem_cons, List.not_mem_nil, or_false] at hr
  rcases hr with rfl | rfl | rfl | rfl | rfl
  · exact (columnAttribute_inRange hcolumnNum _).1 _ _
  · exact hnumber .type
  · exact hnumber .precision
  · exact hnumber .scale
  · exact hnumber .nullable

/-- `SQLDescribeCol` fails without a record when the first of its five requests gets a reply without
columns, and the last attribute has nothing to report: there are columns by then, or still a reply
without any. -/
theorem describeCol_unreported_iff (P : Platform) (service : Nat → QueryOutcome)
    (s : MetaStatement) (columnNum : Nat) (columnNameBuf : Option Nat) :
    ((s.sqlDescribeCol P service columnNum columnNameBuf).1.result = .error ∧
        (s.sqlDescribeCol P service columnNum columnNameBuf).2.storage.statusRecords = []) ↔
      ∃ sql n, s.currentQuery = some ⟨sql, none, n⟩ ∧ (service n).columns = none ∧
        match (List.range' (n + 1) 4).findSome? fun i => (service i).columns with
        | some columns => 1 ≤ columnNum ∧ columnNum ≤ columns.length
        | none => ∃ r, service (n + 4) = .success r := by
  obtain ⟨storage, query⟩ := s
  cases query with
  | none =>
    constructor
    · rintro ⟨-, hrecords⟩
      rw [sqlDescribeCol_records] at hrecords
      exact absurd (List.map_eq_nil_iff.mp hrecords) (List.cons_ne_nil _ _)
    · rintro ⟨sql, n, hquery, -⟩
      exact absurd hquery.symm (Option.some_ne_none _)
  | some q =>
    obtain ⟨sql, resultMeta, n⟩ := q
    cases resultMeta with
    | some columns =>
      refine iff_of_false (describeCol_known storage n columnNameBuf) ?_
      rintro ⟨sql', n', hquery, -⟩
      exact absurd (congrArg MetaQuery.resultMeta (Option.some.inj hquery)) (Option.some_ne_none _)
    | none =>
      cases hcolumns : (service n).columns with
      | some columns =>
        rw [sqlDescribeCol_asked hcolumns]
        refine iff_of_false (describeCol_known storage (n + 1) columnNameBuf) ?_
        rintro ⟨sql', n', hquery, hnone, -⟩
        obtain rfl : n = n' := congrArg MetaQuery.requests (Option.some.inj hquery)
        exact absurd (hcolumns.symm.trans hnone) (Option.some_ne_none columns)
      | none =>
        have hresult := @step_unknown P service storage sql n hcolumns
          (.describeCol columnNum columnNameBuf)
        have hlast := @getMeta_iterate service sql 4 n
        rw [List.range'_succ, List.findSome?_cons_of_isNone (by rw [hcolumns]; rfl)] at hlast
        rw [sqlDescribeCol_records, hlast, List.map_eq_nil_iff]
        refine (and_iff_right hresult).trans (Iff.trans ?_
          ⟨fun h => ⟨sql, n, rfl, hcolumns, h⟩, ?_⟩)
        · cases (List.range' (n + 1) 4).findSome? fun i => (service i).columns with
          | some columns => exact numberRecords_iff
          | none => exact records_eq_nil_iff
        · rintro ⟨sql', n', hquery, -, h⟩
          obtain rfl : n = n' := congrArg MetaQuery.requests (Option.some.inj hquery)
          exact h

end Unreported

end MetaStatement

end TrinoOdbc
