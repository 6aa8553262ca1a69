import TrinoOdbc.Cursor
import TrinoOdbc.Lts

/-!
# TrinoOdbc.DataQuery

`DataQuery` and its asynchronous fetch thread as a transition system of two parties.

The main thread runs one operation of the query at a time. Its control (`Main`) stops at every
point where it waits or where the other party can be seen: inside a request to the service, at a
`join`, at `cv_.wait`, between the pop of a page and its use. `mainStep`, `onQuery` and `onCancel`
take it from one such point to the next. A fetch thread (`FetchThread`) runs `AsyncFetchOnePage`:
it sends `request_`, waits for the slot of `context_.queue_` and pushes its page. `Step`
interleaves the two in every way; the service may give any answer that `Env.query` allows.

`threads` holds the threads of `threads_`, oldest first. A thread that has pushed its page (or
dropped it, because the query is closing) is `finished`: it can be joined.
-/

namespace TrinoOdbc

structure DataQueryContext where
  queue : List QueryOutcome := []
  isClosing : Bool := false

/-- The progress of `AsyncFetchOnePage`: it still has to read the request and get its answer; it
holds the answer and is about to wait for the slot; it is done. -/
inductive FetchThread where
  | started
  | answered (outcome : QueryOutcome)
  | finished

/-- `maxRowPerPage` is the connection's `MaxRowPerPage`, if set. `diag` holds the records the
query has added to its diagnostics collector. -/
structure DataQuery where
  sql : String
  maxRowPerPage : Option Nat := none
  resultMetaAvailable : Bool := false
  resultMeta : List ColumnMeta := []
  request : QueryRequest := {}
  result : Option QueryResult := none
  cursor : Option TrinoCursor := none
  context : DataQueryContext := {}
  threads : List FetchThread := []
  hasAsyncFetch : Bool := false
  rowCounter : Int32 := 0
  diag : List DiagnosticRecord := []

/-- The calls of a `DataQuery`. `destroy` is the destructor. -/
inductive Op where
  | execute
  | fetchNextRow (columnBindings : ColumnBindingMap)
  | getColumn (columnIdx : Nat) (buffer : ApplicationDataBuffer)
  | getMeta
  | cancel
  | close
  | destroy

/-- What a call returns: a result with the values it stored, or the metadata vector. -/
inductive Ret where
  | result (value : SqlResult) (stored : List Stored)
  | resultMeta (value : Option (List ColumnMeta))

/-- What runs after `InternalClose` has returned. -/
inductive AfterClose where
  | execute | executeFailed | resultsetMetaFailed | cancel | close | destroy
  deriving DecidableEq

/-- Where the main thread stands. -/
inductive Main where
  | idle
  | entered (op : Op)
  /-- in the join loop of `InternalClose` -/
  | closing (next : AfterClose)
  /-- in the `Query` call of `MakeRequestExecute` -/
  | requesting
  /-- in the `Query` call of `MakeRequestResultsetMeta` -/
  | requestingMeta
  /-- in the `CancelQuery` call of `Cancel` -/
  | cancelling
  /-- in the `cv_.wait` of `SwitchCursor` -/
  | waiting (columnBindings : ColumnBindingMap)
  /-- in `SwitchCursor`, with the page it popped -/
  | switching (columnBindings : ColumnBindingMap) (outcome : QueryOutcome)
  | destroyed

structure State where
  main : Main
  query : DataQuery

/-- What is visible of a step: a call, a return, or nothing. -/
inductive Event where
  | call (op : Op)
  | ret (value : Ret)
  | tau

/-- Go on at `main`. -/
def goTo (main : Main) (query : DataQuery) : Option (Event × State) :=
  some (.tau, ⟨main, query⟩)

/-- Return to the application. -/
def retWith (value : Ret) (query : DataQuery) : Option (Event × State) :=
  some (.ret value, ⟨.idle, query⟩)

namespace DataQuery

def addStatusRecord (q : DataQuery) (record : DiagnosticRecord) : DataQuery :=
  { q with diag := q.diag ++ [record] }

/-- `InternalClose` up to its join loop. The flag is written without the lock. -/
def beginClose (q : DataQuery) : DataQuery :=
  { q with context := { q.context with isClosing := true } }

/-- `InternalClose` after its join loop. -/
def endClose (q : DataQuery) : DataQuery := { q with result := none, cursor := none }

/-- The request `MakeRequestExecute` prepares. A next token that is set stays set. -/
def prepareRequest (q : DataQuery) : DataQuery :=
  { q with request := { q.request with
      queryString := q.sql
      maxRows := q.maxRowPerPage.orElse fun _ => q.request.maxRows } }

def setNextToken (q : DataQuery) (token : String) : DataQuery :=
  { q with request := { q.request with nextToken := some token } }

/-- `SetNextToken`, then `addThreads` of a new `AsyncFetchOnePage`. -/
def startFetch (q : DataQuery) (token : String) : DataQuery :=
  { q.setNextToken token with threads := q.threads ++ [.started] }

def readColumnMetadataVector (q : DataQuery) (vector : List ColumnInfo) : DataQuery :=
  if vector.isEmpty then { q with resultMeta := [] }
  else { q with resultMeta := vector.map ColumnMeta.readMetadata, resultMetaAvailable := true }

/-- The result and the record, if any, for a conversion result. -/
def processConversionResult (convRes : ConversionResult) (rowIdx columnIdx : Nat) :
    SqlResult × Option DiagnosticRecord :=
  match convRes with
  | .success => (.success, none)
  | .noData => (.noData, none)
  | .varlenDataTruncated => (.successWithInfo, some
      { sqlState := .s01004DataTruncated
        message := "Buffer is too small for the column data. Truncated from the right."
        rowNum := rowIdx, columnNum := columnIdx })
  | .fractionalTruncated => (.successWithInfo, some
      { sqlState := .s01S07FractionalTruncation
        message := "Buffer is too small for the column data. Fraction truncated."
        rowNum := rowIdx, columnNum := columnIdx })
  | .indicatorNeeded => (.successWithInfo, some
      { sqlState := .s22002IndicatorNeeded
        message := "Indicator is needed but not suplied for the column buffer."
        rowNum := rowIdx, columnNum := columnIdx })
  | .unsupportedConversion => (.successWithInfo, some
      { sqlState := .shyc00OptionalFeatureNotImplemented
        message := "Data conversion is not supported."
        rowNum := rowIdx, columnNum := columnIdx })
  | .failure => (.error, some
      { sqlState := .s01S01ErrorInRow
        message := "Can not retrieve row column."
        rowNum := rowIdx, columnNum := columnIdx })

/-- The column loop of `FetchNextRow`, over the column numbers `is`: bound columns are read until
one fails. -/
def readColumns (read : ReadToBuffer) (columns : List ColumnMeta) (cursor : TrinoCursor)
    (columnBindings : ColumnBindingMap) :
    List Nat → SqlResult × List Stored × List DiagnosticRecord
  | [] => (.success, [], [])
  | i :: is =>
    match columnBindings.find i with
    | none => readColumns read columns cursor columnBindings is
    | some buffer =>
      let put := cursor.readColumnToBuffer read columns i buffer
      let (res, record) := processConversionResult put.result 0 i
      if res = .error then (.error, [⟨i, buffer, put⟩], record.toList)
      else
        let (res', stored, records) := readColumns read columns cursor columnBindings is
        (res', ⟨i, buffer, put⟩ :: stored, record.toList ++ records)

/-- `FetchNextRow` once the cursor is on a row. -/
def readRow (read : ReadToBuffer) (q : DataQuery) (cursor : TrinoCursor)
    (columnBindings : ColumnBindingMap) : Option (Event × State) :=
  let (res, stored, records) :=
    readColumns read q.resultMeta cursor columnBindings (List.range' 1 q.resultMeta.length)
  let q := { q with diag := q.diag ++ records }
  if res = .error then retWith (.result .error stored) q
  else retWith (.result .success stored) { q with rowCounter := q.rowCounter + 1 }

def cursorNotOnData : DiagnosticRecord :=
  { sqlState := .s01000GeneralWarning, message := "Cursor does not point to any data." }

/-- `FetchNextRow` up to `SwitchCursor`. -/
def enterFetchNextRow (read : ReadToBuffer) (q : DataQuery) (columnBindings : ColumnBindingMap) :
    Option (Event × State) :=
  match q.cursor with
  | none => retWith (.result .noData []) (q.addStatusRecord cursorNotOnData)
  | some c =>
    let (onRow, c) := c.increment
    let q := { q with cursor := some c }
    if onRow then q.readRow read c columnBindings
    else if q.hasAsyncFetch then goTo (.waiting columnBindings) q
    else retWith (.result .noData []) q

/-- `FetchNextRow` when `SwitchCursor` did not succeed. -/
def switchFailed (q : DataQuery) (res : SqlResult) : Option (Event × State) :=
  retWith (.result res []) (q.addStatusRecord
    { sqlState := .s24000InvalidCursorState, message := "Invalid cursor state." })

/-- The last part of `SwitchCursor`, the start of the next fetch: `none` while the join of the
oldest thread blocks. -/
def joinAndStart (q : DataQuery) (token : String) : Option DataQuery :=
  match q.threads with
  | [] => some (q.startFetch token)
  | .finished :: ts => some ({ q with threads := ts }.startFetch token)
  | _ :: _ => none

/-- `SwitchCursor` with the popped page, then the rest of `FetchNextRow`. -/
def switchCursor (read : ReadToBuffer) (q : DataQuery) (columnBindings : ColumnBindingMap)
    (outcome : QueryOutcome) : Option (Event × State) :=
  match outcome with
  | .failure _ => { q with cursor := none, hasAsyncFetch := false }.switchFailed .error
  | .success r =>
    let q := { q with result := some r }
    if r.rows.isEmpty then q.switchFailed .noData
    else
      let c := ({ rowVec := r.rows } : TrinoCursor).increment.2
      let q := { q with cursor := some c }
      if r.nextToken = "" then { q with hasAsyncFetch := false }.readRow read c columnBindings
      else
        match q.joinAndStart r.nextToken with
        | none => none
        | some q => q.readRow read c columnBindings

def getColumn (read : ReadToBuffer) (q : DataQuery) (columnIdx : Nat)
    (buffer : ApplicationDataBuffer) : (SqlResult × List Stored) × DataQuery :=
  match q.cursor with
  | none => ((.noData, []), q.addStatusRecord cursorNotOnData)
  | some c =>
    if c.hasData then
      let put := c.readColumnToBuffer read q.resultMeta columnIdx buffer
      let (res, record) := processConversionResult put.result 0 columnIdx
      ((res, [⟨columnIdx, buffer, put⟩]), { q with diag := q.diag ++ record.toList })
    else
      ((.error, []), q.addStatusRecord
        { sqlState := .s24000InvalidCursorState
          message := "Cursor has reached end of the result set." })

def dataAvailable (q : DataQuery) : Bool := q.cursor.isSome

/-- The `int` counter, as the `int64_t` that is returned. -/
def rowNumber (q : DataQuery) : Int × DataQuery :=
  match q.cursor with
  | some c => if c.hasData then (q.rowCounter.toInt, q) else (0, q.addStatusRecord cursorNotOnData)
  | none => (0, q.addStatusRecord cursorNotOnData)

def getMetaResult (q : DataQuery) : Ret :=
  .resultMeta (if q.resultMetaAvailable then some q.resultMeta else none)

def makeRequestFetch (q : DataQuery) : Option (Event × State) :=
  match q.result with
  | none => retWith (.result .error []) (q.addStatusRecord
      { sqlState := .shy010SequenceError, message := "result_ is a null pointer" })
  | some r =>
    let q := if q.resultMetaAvailable then q else q.readColumnMetadataVector r.columnInfo
    if r.rows.isEmpty then retWith (.result .noData []) q
    else retWith (.result .success []) { q with cursor := some { rowVec := r.rows } }

/-- The loop body of `MakeRequestExecute` after its request, and what follows the loop. -/
def makeRequestExecute (q : DataQuery) (outcome : QueryOutcome) : Option (Event × State) :=
  match outcome with
  | .failure _ =>
    goTo (.closing .executeFailed) (q.addStatusRecord
      { sqlState := .shy000GeneralError
        message := "API Failure: Failed to execute query \"" ++ q.sql ++ "\"" }).beginClose
  | .success r =>
    let q := { q with result := some r }
    if r.rows.isEmpty then
      if r.nextToken = "" then retWith (.result .noData []) q
      else goTo .requesting (q.setNextToken r.nextToken)
    else
      let q := { q with cursor := some { rowVec := r.rows } }
      if r.nextToken = "" then q.makeRequestFetch
      else { q.startFetch r.nextToken with hasAsyncFetch := true }.makeRequestFetch

/-- `MakeRequestResultsetMeta` after its request, then the rest of `GetMeta`. -/
def makeRequestResultsetMeta (q : DataQuery) (outcome : QueryOutcome) :
    Option (Event × State) :=
  match outcome with
  | .failure e =>
    goTo (.closing .resultsetMetaFailed) (q.addStatusRecord
      { sqlState := .shy000GeneralError
        message := "API ERROR: " ++ e.exceptionName ++ ": " ++ e.message ++ " for query " ++
          q.sql }).beginClose
  | .success r =>
    let q := q.readColumnMetadataVector r.columnInfo
    retWith q.getMetaResult q

/-- `Cancel` after its request. A query that is finished cannot be cancelled: that is no error. -/
def cancelRequested (q : DataQuery) (outcome : CancelOutcome) : Option (Event × State) :=
  match outcome with
  | .success _ => goTo (.closing .cancel) q.beginClose
  | .failure e =>
    if e.exceptionName = "ValidationException" then goTo (.closing .cancel) q.beginClose
    else
      retWith (.result .error []) (q.addStatusRecord
        { sqlState := .shy000GeneralError
          message := "Query ID: " ++ (q.result.map (·.queryId)).getD "" ++ " can't cancel." ++
            e.message })

/-- Entering `Cancel`. -/
def enterCancel (q : DataQuery) : Option (Event × State) :=
  if q.hasAsyncFetch then
    match q.result with
    | none => retWith (.result .error []) (q.addStatusRecord
        { sqlState := .shy000GeneralError, message := "query is not executed" })
    | some _ => goTo .cancelling q
  else goTo (.closing .cancel) q.beginClose

def enter (read : ReadToBuffer) (q : DataQuery) : Op → Option (Event × State)
  | .execute =>
    if q.result.isSome then goTo (.closing .execute) q.beginClose
    else goTo .requesting q.prepareRequest
  | .fetchNextRow columnBindings => q.enterFetchNextRow read columnBindings
  | .getColumn columnIdx buffer =>
    let (res, q) := q.getColumn read columnIdx buffer
    retWith (.result res.1 res.2) q
  | .getMeta =>
    if q.resultMetaAvailable then retWith q.getMetaResult q else goTo .requestingMeta q
  | .cancel => q.enterCancel
  | .close => goTo (.closing .close) q.beginClose
  | .destroy =>
    if q.result.isSome then goTo (.closing .destroy) q.beginClose else goTo .destroyed q

/-- The caller of `InternalClose` goes on. -/
def afterClose (q : DataQuery) : AfterClose → Option (Event × State)
  | .execute => goTo .requesting q.prepareRequest
  | .executeFailed => retWith (.result .error []) q
  | .resultsetMetaFailed => retWith q.getMetaResult q
  | .cancel => retWith (.result .success []) q
  | .close => retWith (.result .success []) q
  | .destroy => goTo .destroyed q

/-- The join loop of `InternalClose`. -/
def internalClose (q : DataQuery) (next : AfterClose) : Option (Event × State) :=
  match q.threads with
  | [] => q.endClose.afterClose next
  | .finished :: ts => goTo (.closing next) { q with threads := ts }
  | _ :: _ => none

/-- The request of `MakeRequestResultsetMeta` is one of its own. -/
def metaRequest (q : DataQuery) : QueryRequest := { queryString := q.sql }

/-- The end of `AsyncFetchOnePage`: `none` while it blocks in `cv_.wait`. -/
def asyncPush (ctx : DataQueryContext) (outcome : QueryOutcome) : Option DataQueryContext :=
  if ctx.queue.isEmpty then some { ctx with queue := [outcome] }
  else if ctx.isClosing then some ctx
  else none

end DataQuery

open DataQuery

/-- The main thread, where it neither waits for the service nor for a call. -/
def mainStep (read : ReadToBuffer) (q : DataQuery) : Main → Option (Event × State)
  | .entered op => q.enter read op
  | .closing next => q.internalClose next
  | .waiting columnBindings =>
    match q.context.queue with
    | [] => none
    | outcome :: queue =>
      goTo (.switching columnBindings outcome) { q with context := { q.context with queue } }
  | .switching columnBindings outcome => q.switchCursor read columnBindings outcome
  | _ => none

/-- The request the main thread has sent, and what it does with the answer. -/
def mainRequest (q : DataQuery) : Main → Option QueryRequest
  | .requesting => some q.request
  | .requestingMeta => some q.metaRequest
  | _ => none

def onQuery (q : DataQuery) (outcome : QueryOutcome) : Main → Option (Event × State)
  | .requesting => q.makeRequestExecute outcome
  | .requestingMeta => q.makeRequestResultsetMeta outcome
  | _ => none

/-- The surroundings of a query: the column conversion, and the answers the service may give. -/
structure Env where
  read : ReadToBuffer
  query : QueryRequest → QueryOutcome → Prop
  cancel : String → CancelOutcome → Prop

/-- One step of one party. -/
inductive Step (E : Env) : State → Event → State → Prop where
  | call {q : DataQuery} (op : Op) : Step E ⟨.idle, q⟩ (.call op) ⟨.entered op, q⟩
  | main {m : Main} {q : DataQuery} {e : Event} {s' : State} :
      mainStep E.read q m = some (e, s') → Step E ⟨m, q⟩ e s'
  | query {m : Main} {q : DataQuery} {e : Event} {s' : State} {req : QueryRequest}
      {outcome : QueryOutcome} : mainRequest q m = some req → E.query req outcome →
      onQuery q outcome m = some (e, s') → Step E ⟨m, q⟩ e s'
  | cancel {q : DataQuery} {r : QueryResult} {e : Event} {s' : State} {outcome : CancelOutcome} :
      q.result = some r → E.cancel r.queryId outcome → q.cancelRequested outcome = some (e, s') →
      Step E ⟨.cancelling, q⟩ e s'
  | answer {m : Main} {q : DataQuery} {i : Nat} {outcome : QueryOutcome} :
      q.threads[i]? = some .started → E.query q.request outcome →
      Step E ⟨m, q⟩ .tau ⟨m, { q with threads := q.threads.set i (.answered outcome) }⟩
  | push {m : Main} {q : DataQuery} {i : Nat} {outcome : QueryOutcome} {ctx : DataQueryContext} :
      q.threads[i]? = some (.answered outcome) → asyncPush q.context outcome = some ctx →
      Step E ⟨m, q⟩ .tau ⟨m, { q with context := ctx, threads := q.threads.set i .finished }⟩

/-- A newly constructed query, before its first call. -/
def Fresh (s : State) : Prop := ∃ sql maxRowPerPage, s = ⟨.idle, { sql, maxRowPerPage }⟩

end TrinoOdbc
