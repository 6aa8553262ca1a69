import TrinoOdbc.DataQuery

/-!
# TrinoOdbc.DataQueryCases

What the steps of a `DataQuery` can do, stated once: every proof about runs case-splits with these
lemmas instead of unfolding the model.

* `RowRead`, `joinAndStart_cases`, `switchCursor_cases`, `makeRequestFetch_cases`,
  `makeRequestExecute_cases`: the outcomes of the functions.
* `Quiet q q'`: `q'` differs from `q` only in what neither the fetch threads nor the control of the
  main thread read: records, row counter and column metadata.
* `Advance E m q e m' q'`: the moves of the main thread, one constructor for each; `step_cases`
  says that a step is a call, one of these, or a `ThreadStep` of a fetch thread.
-/

namespace TrinoOdbc

open DataQuery

@[simp] theorem goTo_eq {m m' : Main} {q q' : DataQuery} {e : Event} :
    goTo m q = some (e, ⟨m', q'⟩) ↔ e = .tau ∧ m' = m ∧ q' = q := by
  simp [goTo, eq_comm]

@[simp] theorem retWith_eq {v : Ret} {m' : Main} {q q' : DataQuery} {e : Event} :
    retWith v q = some (e, ⟨m', q'⟩) ↔ e = .ret v ∧ m' = .idle ∧ q' = q := by
  simp [retWith, eq_comm]

/-- Equal but for records, row counter and column metadata. -/
structure Quiet (q q' : DataQuery) : Prop where
  sql : q'.sql = q.sql
  maxRowPerPage : q'.maxRowPerPage = q.maxRowPerPage
  request : q'.request = q.request
  result : q'.result = q.result
  cursor : q'.cursor = q.cursor
  context : q'.context = q.context
  threads : q'.threads = q.threads
  hasAsyncFetch : q'.hasAsyncFetch = q.hasAsyncFetch

theorem Quiet.refl (q : DataQuery) : Quiet q q := ⟨rfl, rfl, rfl, rfl, rfl, rfl, rfl, rfl⟩

theorem quiet_addStatusRecord (q : DataQuery) (record : DiagnosticRecord) :
    Quiet q (q.addStatusRecord record) := ⟨rfl, rfl, rfl, rfl, rfl, rfl, rfl, rfl⟩

theorem quiet_readColumnMetadataVector (q : DataQuery) (vector : List ColumnInfo) :
    Quiet q (q.readColumnMetadataVector vector) := by
  unfold readColumnMetadataVector
  split <;> exact ⟨rfl, rfl, rfl, rfl, rfl, rfl, rfl, rfl⟩

/-- The column loop over all columns of the result. -/
def boundColumns (read : ReadToBuffer) (columns : List ColumnMeta) (c : TrinoCursor)
    (b : ColumnBindingMap) : SqlResult × List Stored × List DiagnosticRecord :=
  readColumns read columns c b (List.range' 1 columns.length)

/-- The result of a `FetchNextRow` that is on a row. -/
def rowResult (read : ReadToBuffer) (columns : List ColumnMeta) (c : TrinoCursor)
    (b : ColumnBindingMap) : SqlResult :=
  if (boundColumns read columns c b).1 = .error then .error else .success

theorem rowResult_ne_noData (read : ReadToBuffer) (columns : List ColumnMeta) (c : TrinoCursor)
    (b : ColumnBindingMap) : rowResult read columns c b ≠ .noData := by
  unfold rowResult
  split <;> nofun

/-- `FetchNextRow` on the row under the cursor: it stores the bound columns, and counts the row
unless one of them failed. -/
structure RowRead (read : ReadToBuffer) (q : DataQuery) (c : TrinoCursor) (b : ColumnBindingMap)
    (e : Event) (q' : DataQuery) : Prop where
  event : e = .ret (.result (rowResult read q.resultMeta c b)
    (boundColumns read q.resultMeta c b).2.1)
  quiet : Quiet q q'
  resultMeta : q'.resultMeta = q.resultMeta
  resultMetaAvailable : q'.resultMetaAvailable = q.resultMetaAvailable
  rowCounter : q'.rowCounter =
    if rowResult read q.resultMeta c b = .error then q.rowCounter else q.rowCounter + 1

theorem readRow_cases {read : ReadToBuffer} {q q' : DataQuery} {c : TrinoCursor}
    {b : ColumnBindingMap} {e : Event} {m' : Main}
    (h : q.readRow read c b = some (e, ⟨m', q'⟩)) : m' = .idle ∧ RowRead read q c b e q' := by
  unfold readRow at h
  change (if (boundColumns read q.resultMeta c b).1 = .error then _ else _) = _ at h
  split at h
  · rename_i herr
    have hr : rowResult read q.resultMeta c b = .error := if_pos herr
    rw [retWith_eq] at h
    obtain ⟨rfl, rfl, rfl⟩ := h
    refine ⟨rfl, ?_, ⟨rfl, rfl, rfl, rfl, rfl, rfl, rfl, rfl⟩, rfl, rfl, ?_⟩
    · rw [hr]; rfl
    · rw [hr, if_pos rfl]
  · rename_i hok
    have hr : rowResult read q.resultMeta c b = .success := if_neg hok
    rw [retWith_eq] at h
    obtain ⟨rfl, rfl, rfl⟩ := h
    refine ⟨rfl, ?_, ⟨rfl, rfl, rfl, rfl, rfl, rfl, rfl, rfl⟩, rfl, rfl, ?_⟩
    · rw [hr]; rfl
    · rw [hr, if_neg nofun]

theorem joinAndStart_cases {q q' : DataQuery} {token : String}
    (h : q.joinAndStart token = some q') :
    ∃ ts, (q.threads = [] ∧ ts = [] ∨ q.threads = .finished :: ts) ∧
      q' = { q with threads := ts }.startFetch token := by
  unfold joinAndStart at h
  split at h
  · rename_i ht
    simp only [Option.some.injEq] at h
    refine ⟨[], .inl ⟨ht, rfl⟩, ?_⟩
    rw [← h, ← ht]
  · rename_i ts ht
    simp only [Option.some.injEq] at h
    exact ⟨ts, .inr ht, h.symm⟩
  · cases h

/-- `SwitchCursor` fails, finds an empty page, finds the last page, or finds a page with a next
token and starts the next fetch. -/
theorem switchCursor_cases {read : ReadToBuffer} {q : DataQuery} {b : ColumnBindingMap}
    {o : QueryOutcome} {e : Event} {s' : State}
    (h : q.switchCursor read b o = some (e, s')) :
    (∃ err, o = .failure err ∧
      { q with cursor := none, hasAsyncFetch := false }.switchFailed .error = some (e, s')) ∨
    (∃ r, o = .success r ∧ r.rows = [] ∧
      { q with result := some r }.switchFailed .noData = some (e, s')) ∨
    (∃ r c, o = .success r ∧ r.rows ≠ [] ∧ r.nextToken = "" ∧
      c = ({ rowVec := r.rows } : TrinoCursor).increment.2 ∧
      { q with result := some r, cursor := some c, hasAsyncFetch := false }.readRow read c b =
        some (e, s')) ∨
    (∃ r c q₁, o = .success r ∧ r.rows ≠ [] ∧ r.nextToken ≠ "" ∧
      c = ({ rowVec := r.rows } : TrinoCursor).increment.2 ∧
      { q with result := some r, cursor := some c }.joinAndStart r.nextToken = some q₁ ∧
      q₁.readRow read c b = some (e, s')) := by
  unfold switchCursor at h
  split at h
  · rename_i err; exact .inl ⟨err, rfl, h⟩
  · rename_i r
    simp only [List.isEmpty_iff] at h
    split at h
    · rename_i hr; exact .inr (.inl ⟨r, rfl, hr, h⟩)
    · rename_i hr
      split at h
      · rename_i ht; exact .inr (.inr (.inl ⟨r, _, rfl, hr, ht, rfl, h⟩))
      · rename_i ht
        split at h
        · cases h
        · rename_i q₁ hj; exact .inr (.inr (.inr ⟨r, _, q₁, rfl, hr, ht, rfl, hj, h⟩))

/-- The column metadata a result brings with it, unless some is there already. -/
def DataQuery.discoverMeta (q : DataQuery) (r : QueryResult) : DataQuery :=
  if q.resultMetaAvailable then q else q.readColumnMetadataVector r.columnInfo

theorem discoverMeta_cursor (q : DataQuery) (r : QueryResult) :
    (q.discoverMeta r).cursor = q.cursor := by
  unfold discoverMeta readColumnMetadataVector
  split
  · rfl
  · split <;> rfl

/-- `MakeRequestFetch` after a page with rows only adds the column metadata. -/
theorem makeRequestFetch_cases {q q' : DataQuery} {r : QueryResult} {e : Event} {m' : Main}
    (hq : q.result = some r) (hr : r.rows ≠ []) (hc : q.cursor = some { rowVec := r.rows })
    (h : q.makeRequestFetch = some (e, ⟨m', q'⟩)) :
    e = .ret (.result .success []) ∧ m' = .idle ∧ q' = q.discoverMeta r := by
  unfold makeRequestFetch at h
  rw [hq] at h
  simp only [List.isEmpty_iff, if_neg hr, retWith_eq] at h
  obtain ⟨rfl, rfl, rfl⟩ := h
  refine ⟨rfl, rfl, ?_⟩
  have hcur := discoverMeta_cursor q r
  rw [hc] at hcur
  change { q.discoverMeta r with cursor := some { rowVec := r.rows } } = q.discoverMeta r
  rw [← hcur]

/-- One turn of the loop of `MakeRequestExecute`: the request fails, the result is empty, the page
is empty but not the last, or the page has rows. -/
theorem makeRequestExecute_cases {q : DataQuery} {o : QueryOutcome} {e : Event} {s' : State}
    (h : q.makeRequestExecute o = some (e, s')) :
    (∃ err record, o = .failure err ∧
      goTo (.closing .executeFailed) (q.addStatusRecord record).beginClose = some (e, s')) ∨
    (∃ r, o = .success r ∧ r.rows = [] ∧ r.nextToken = "" ∧
      retWith (.result .noData []) { q with result := some r } = some (e, s')) ∨
    (∃ r, o = .success r ∧ r.rows = [] ∧ r.nextToken ≠ "" ∧
      goTo .requesting ({ q with result := some r }.setNextToken r.nextToken) = some (e, s')) ∨
    (∃ r, o = .success r ∧ r.rows ≠ [] ∧ r.nextToken = "" ∧
      { q with result := some r, cursor := some { rowVec := r.rows } }.makeRequestFetch =
        some (e, s')) ∨
    (∃ r, o = .success r ∧ r.rows ≠ [] ∧ r.nextToken ≠ "" ∧
      { { q with result := some r, cursor := some { rowVec := r.rows } }.startFetch
        r.nextToken with hasAsyncFetch := true }.makeRequestFetch = some (e, s')) := by
  unfold makeRequestExecute at h
  split at h
  · rename_i err; exact .inl ⟨err, _, rfl, h⟩
  · rename_i r
    simp only [List.isEmpty_iff] at h
    split at h
    · rename_i hr
      split at h
      · rename_i ht; exact .inr (.inl ⟨r, rfl, hr, ht, h⟩)
      · rename_i ht; exact .inr (.inr (.inl ⟨r, rfl, hr, ht, h⟩))
    · rename_i hr
      split at h
      · rename_i ht; exact .inr (.inr (.inr (.inl ⟨r, rfl, hr, ht, h⟩)))
      · rename_i ht; exact .inr (.inr (.inr (.inr ⟨r, rfl, hr, ht, h⟩)))

/-- `FetchNextRow` finds no cursor, finds a row on the page, has to switch pages, or is at the
end. -/
theorem enterFetchNextRow_cases {read : ReadToBuffer} {q : DataQuery} {b : ColumnBindingMap}
    {e : Event} {s' : State} (h : q.enterFetchNextRow read b = some (e, s')) :
    (q.cursor = none ∧
      retWith (.result .noData []) (q.addStatusRecord cursorNotOnData) = some (e, s')) ∨
    ∃ c, q.cursor = some c ∧
      ((c.curPos + 1 ≤ c.rowVec.length ∧
          { q with cursor := some c.increment.2 }.readRow read c.increment.2 b = some (e, s')) ∨
        (c.rowVec.length < c.curPos + 1 ∧ q.hasAsyncFetch = true ∧
          goTo (.waiting b) { q with cursor := some c.increment.2 } = some (e, s')) ∨
        (c.rowVec.length < c.curPos + 1 ∧ q.hasAsyncFetch = false ∧
          retWith (.result .noData []) { q with cursor := some c.increment.2 } =
            some (e, s'))) := by
  unfold enterFetchNextRow at h
  split at h
  · rename_i hc; exact .inl ⟨hc, h⟩
  · rename_i c hc
    refine .inr ⟨c, hc, ?_⟩
    simp only [TrinoCursor.increment_fst, decide_eq_true_eq] at h
    split at h
    · rename_i hlt; exact .inl ⟨hlt, h⟩
    · rename_i hge
      split at h
      · rename_i ha; exact .inr (.inl ⟨by omega, ha, h⟩)
      · rename_i ha; exact .inr (.inr ⟨by omega, by simpa using ha, h⟩)

theorem internalClose_cases {q : DataQuery} {k : AfterClose} {e : Event} {s' : State}
    (h : q.internalClose k = some (e, s')) :
    (q.threads = [] ∧ q.endClose.afterClose k = some (e, s')) ∨
    (∃ ts, q.threads = .finished :: ts ∧
      goTo (.closing k) { q with threads := ts } = some (e, s')) := by
  unfold internalClose at h
  split at h
  · rename_i ht; exact .inl ⟨ht, h⟩
  · rename_i ts ht; exact .inr ⟨ts, ht, h⟩
  · cases h

theorem asyncPush_cases {ctx ctx' : DataQueryContext} {o : QueryOutcome}
    (h : asyncPush ctx o = some ctx') :
    (ctx.queue = [] ∧ ctx' = { ctx with queue := [o] }) ∨
      (ctx.queue ≠ [] ∧ ctx.isClosing = true ∧ ctx' = ctx) := by
  unfold asyncPush at h
  simp only [List.isEmpty_iff] at h
  split at h
  · rename_i hq; exact .inl ⟨hq, by simpa using h.symm⟩
  · rename_i hq
    split at h
    · rename_i hc; exact .inr ⟨hq, hc, by simpa using h.symm⟩
    · cases h

/-! ## The moves of the main thread -/

/-- `SwitchCursor` takes over a page with rows. -/
def DataQuery.switchTo (q : DataQuery) (r : QueryResult) : DataQuery :=
  { q with result := some r, cursor := some (.onFirst r.rows) }

/-- `MakeRequestExecute` takes over its first page with rows. -/
def DataQuery.openPage (q : DataQuery) (r : QueryResult) : DataQuery :=
  { q with result := some r, cursor := some { rowVec := r.rows } }

/-- The same when there is a next page. -/
def DataQuery.openFirst (q : DataQuery) (r : QueryResult) : DataQuery :=
  { (q.openPage r).startFetch r.nextToken with hasAsyncFetch := true }

/-- What a call that ends with `InternalClose` returns. -/
def DataQuery.closeReturn (q : DataQuery) : AfterClose → Option Ret
  | .executeFailed => some (.result .error [])
  | .resultsetMetaFailed => some q.getMetaResult
  | .cancel => some (.result .success [])
  | .close => some (.result .success [])
  | .execute => none
  | .destroy => none

inductive Advance (E : Env) : Main → DataQuery → Event → Main → DataQuery → Prop where
  | executeAgain {q : DataQuery} : q.result ≠ none →
      Advance E (.entered .execute) q .tau (.closing .execute) q.beginClose
  | execute {q : DataQuery} : q.result = none →
      Advance E (.entered .execute) q .tau .requesting q.prepareRequest
  | requestFailed {q : DataQuery} {err : QueryError} {record : DiagnosticRecord} :
      E.query q.request (.failure err) →
      Advance E .requesting q .tau (.closing .executeFailed) (q.addStatusRecord record).beginClose
  | requestEmpty {q : DataQuery} {r : QueryResult} : E.query q.request (.success r) →
      r.rows = [] → r.nextToken = "" →
      Advance E .requesting q (.ret (.result .noData [])) .idle { q with result := some r }
  | requestSkip {q : DataQuery} {r : QueryResult} : E.query q.request (.success r) →
      r.rows = [] → r.nextToken ≠ "" →
      Advance E .requesting q .tau .requesting
        ({ q with result := some r }.setNextToken r.nextToken)
  | requestLast {q : DataQuery} {r : QueryResult} : E.query q.request (.success r) →
      r.rows ≠ [] → r.nextToken = "" →
      Advance E .requesting q (.ret (.result .success [])) .idle
        ((q.openPage r).discoverMeta r)
  | requestFirst {q : DataQuery} {r : QueryResult} : E.query q.request (.success r) →
      r.rows ≠ [] → r.nextToken ≠ "" →
      Advance E .requesting q (.ret (.result .success [])) .idle
        ((q.openFirst r).discoverMeta r)
  | fetchNoCursor {q : DataQuery} {b : ColumnBindingMap} : q.cursor = none →
      Advance E (.entered (.fetchNextRow b)) q (.ret (.result .noData [])) .idle
        (q.addStatusRecord cursorNotOnData)
  | fetchRow {q q' : DataQuery} {b : ColumnBindingMap} {c : TrinoCursor} {e : Event} :
      q.cursor = some c → c.curPos + 1 ≤ c.rowVec.length →
      RowRead E.read { q with cursor := some c.increment.2 } c.increment.2 b e q' →
      Advance E (.entered (.fetchNextRow b)) q e .idle q'
  | fetchWait {q : DataQuery} {b : ColumnBindingMap} {c : TrinoCursor} : q.cursor = some c →
      c.rowVec.length < c.curPos + 1 → q.hasAsyncFetch = true →
      Advance E (.entered (.fetchNextRow b)) q .tau (.waiting b)
        { q with cursor := some c.increment.2 }
  | fetchEnd {q : DataQuery} {b : ColumnBindingMap} {c : TrinoCursor} : q.cursor = some c →
      c.rowVec.length < c.curPos + 1 → q.hasAsyncFetch = false →
      Advance E (.entered (.fetchNextRow b)) q (.ret (.result .noData [])) .idle
        { q with cursor := some c.increment.2 }
  | pop {q : DataQuery} {b : ColumnBindingMap} {o : QueryOutcome} {os : List QueryOutcome} :
      q.context.queue = o :: os →
      Advance E (.waiting b) q .tau (.switching b o)
        { q with context := { q.context with queue := os } }
  | switchError {q : DataQuery} {b : ColumnBindingMap} {err : QueryError}
      {record : DiagnosticRecord} :
      Advance E (.switching b (.failure err)) q (.ret (.result .error [])) .idle
        ({ q with cursor := none, hasAsyncFetch := false }.addStatusRecord record)
  | switchEmpty {q : DataQuery} {b : ColumnBindingMap} {r : QueryResult}
      {record : DiagnosticRecord} : r.rows = [] →
      Advance E (.switching b (.success r)) q (.ret (.result .noData [])) .idle
        ({ q with result := some r }.addStatusRecord record)
  | switchLast {q q' : DataQuery} {b : ColumnBindingMap} {r : QueryResult} {e : Event} :
      r.rows ≠ [] → r.nextToken = "" →
      RowRead E.read { q.switchTo r with hasAsyncFetch := false } (.onFirst r.rows) b e q' →
      Advance E (.switching b (.success r)) q e .idle q'
  | switchNext {q q' : DataQuery} {b : ColumnBindingMap} {r : QueryResult} {e : Event}
      {ts : List FetchThread} : r.rows ≠ [] → r.nextToken ≠ "" →
      (q.threads = [] ∧ ts = [] ∨ q.threads = .finished :: ts) →
      RowRead E.read ({ q.switchTo r with threads := ts }.startFetch r.nextToken) (.onFirst r.rows)
        b e q' →
      Advance E (.switching b (.success r)) q e .idle q'
  | getColumn {q : DataQuery} {i : Nat} {buffer : ApplicationDataBuffer} :
      Advance E (.entered (.getColumn i buffer)) q
        (.ret (.result (q.getColumn E.read i buffer).1.1 (q.getColumn E.read i buffer).1.2)) .idle
        (q.getColumn E.read i buffer).2
  | getMeta {q : DataQuery} : q.resultMetaAvailable = true →
      Advance E (.entered .getMeta) q (.ret q.getMetaResult) .idle q
  | requestMeta {q : DataQuery} : q.resultMetaAvailable = false →
      Advance E (.entered .getMeta) q .tau .requestingMeta q
  | metaFailed {q : DataQuery} {record : DiagnosticRecord} :
      Advance E .requestingMeta q .tau (.closing .resultsetMetaFailed)
        (q.addStatusRecord record).beginClose
  | metaRead {q : DataQuery} {r : QueryResult} :
      Advance E .requestingMeta q (.ret (q.readColumnMetadataVector r.columnInfo).getMetaResult)
        .idle (q.readColumnMetadataVector r.columnInfo)
  | cancelNothing {q : DataQuery} {record : DiagnosticRecord} : q.hasAsyncFetch = true →
      q.result = none →
      Advance E (.entered .cancel) q (.ret (.result .error [])) .idle (q.addStatusRecord record)
  | cancelRequest {q : DataQuery} : q.hasAsyncFetch = true → q.result ≠ none →
      Advance E (.entered .cancel) q .tau .cancelling q
  | cancelIdle {q : DataQuery} : q.hasAsyncFetch = false →
      Advance E (.entered .cancel) q .tau (.closing .cancel) q.beginClose
  | cancelDone {q : DataQuery} : Advance E .cancelling q .tau (.closing .cancel) q.beginClose
  | cancelFailed {q : DataQuery} {record : DiagnosticRecord} :
      Advance E .cancelling q (.ret (.result .error [])) .idle (q.addStatusRecord record)
  | close {q : DataQuery} : Advance E (.entered .close) q .tau (.closing .close) q.beginClose
  | destroyOpen {q : DataQuery} : q.result ≠ none →
      Advance E (.entered .destroy) q .tau (.closing .destroy) q.beginClose
  | destroy {q : DataQuery} : q.result = none →
      Advance E (.entered .destroy) q .tau .destroyed q
  | join {q : DataQuery} {k : AfterClose} {ts : List FetchThread} : q.threads = .finished :: ts →
      Advance E (.closing k) q .tau (.closing k) { q with threads := ts }
  | closedExecute {q : DataQuery} : q.threads = [] →
      Advance E (.closing .execute) q .tau .requesting q.endClose.prepareRequest
  | closedDestroy {q : DataQuery} : q.threads = [] →
      Advance E (.closing .destroy) q .tau .destroyed q.endClose
  | closed {q : DataQuery} {k : AfterClose} {v : Ret} : q.threads = [] →
      q.closeReturn k = some v → Advance E (.closing k) q (.ret v) .idle q.endClose

/-- A step of a fetch thread. -/
inductive ThreadStep (E : Env) : DataQuery → DataQuery → Prop where
  | answer {q : DataQuery} {i : Nat} {o : QueryOutcome} : q.threads[i]? = some .started →
      E.query q.request o →
      ThreadStep E q { q with threads := q.threads.set i (.answered o) }
  | push {q : DataQuery} {i : Nat} {o : QueryOutcome} {ctx : DataQueryContext} :
      q.threads[i]? = some (.answered o) → asyncPush q.context o = some ctx →
      ThreadStep E q { q with context := ctx, threads := q.threads.set i .finished }

section Advances

variable {E : Env} {q q' : DataQuery} {m m' : Main} {e : Event}

theorem advance_enter {op : Op} (h : q.enter E.read op = some (e, ⟨m', q'⟩)) :
    Advance E (.entered op) q e m' q' := by
  cases op with
  | execute =>
    simp only [enter, Option.isSome_iff_ne_none] at h
    split at h
    · rename_i hr
      rw [goTo_eq] at h
      obtain ⟨rfl, rfl, rfl⟩ := h
      exact .executeAgain hr
    · rename_i hr
      rw [goTo_eq] at h
      obtain ⟨rfl, rfl, rfl⟩ := h
      exact .execute (not_not.mp hr)
  | fetchNextRow b =>
    rcases enterFetchNextRow_cases h with
      ⟨hc, h⟩ | ⟨c, hc, ⟨hlt, h⟩ | ⟨hge, ha, h⟩ | ⟨hge, ha, h⟩⟩
    · rw [retWith_eq] at h
      obtain ⟨rfl, rfl, rfl⟩ := h
      exact .fetchNoCursor hc
    · obtain ⟨rfl, hr⟩ := readRow_cases h
      exact .fetchRow hc hlt hr
    · rw [goTo_eq] at h
      obtain ⟨rfl, rfl, rfl⟩ := h
      exact .fetchWait hc hge ha
    · rw [retWith_eq] at h
      obtain ⟨rfl, rfl, rfl⟩ := h
      exact .fetchEnd hc hge ha
  | getColumn i buffer =>
    simp only [enter, retWith_eq] at h
    obtain ⟨rfl, rfl, rfl⟩ := h
    exact .getColumn
  | getMeta =>
    simp only [enter] at h
    split at h
    · rename_i ha
      rw [retWith_eq] at h
      obtain ⟨rfl, rfl, rfl⟩ := h
      exact .getMeta ha
    · rename_i ha
      rw [goTo_eq] at h
      obtain ⟨rfl, rfl, rfl⟩ := h
      exact .requestMeta (by simpa using ha)
  | cancel =>
    simp only [enter, enterCancel] at h
    split at h
    · rename_i ha
      split at h
      · rename_i hr
        rw [retWith_eq] at h
        obtain ⟨rfl, rfl, rfl⟩ := h
        exact .cancelNothing ha hr
      · rename_i r hr
        rw [goTo_eq] at h
        obtain ⟨rfl, rfl, rfl⟩ := h
        exact .cancelRequest ha (by simp [hr])
    · rename_i ha
      rw [goTo_eq] at h
      obtain ⟨rfl, rfl, rfl⟩ := h
      exact .cancelIdle (by simpa using ha)
  | close =>
    simp only [enter, goTo_eq] at h
    obtain ⟨rfl, rfl, rfl⟩ := h
    exact .close
  | destroy =>
    simp only [enter, Option.isSome_iff_ne_none] at h
    split at h
    · rename_i hr
      rw [goTo_eq] at h
      obtain ⟨rfl, rfl, rfl⟩ := h
      exact .destroyOpen hr
    · rename_i hr
      rw [goTo_eq] at h
      obtain ⟨rfl, rfl, rfl⟩ := h
      exact .destroy (not_not.mp hr)

theorem advance_switching {b : ColumnBindingMap} {o : QueryOutcome}
    (h : q.switchCursor E.read b o = some (e, ⟨m', q'⟩)) :
    Advance E (.switching b o) q e m' q' := by
  rcases switchCursor_cases h with ⟨err, rfl, hs⟩ | ⟨r, rfl, hr, hs⟩ |
    ⟨r, c, rfl, hr, ht, rfl, hs⟩ | ⟨r, c, q₁, rfl, hr, ht, rfl, hj, hs⟩
  · rw [switchFailed, retWith_eq] at hs
    obtain ⟨rfl, rfl, rfl⟩ := hs
    exact .switchError
  · rw [switchFailed, retWith_eq] at hs
    obtain ⟨rfl, rfl, rfl⟩ := hs
    exact .switchEmpty hr
  · obtain ⟨rfl, hrow⟩ := readRow_cases hs
    exact .switchLast hr ht hrow
  · obtain ⟨ts, hts, rfl⟩ := joinAndStart_cases hj
    obtain ⟨rfl, hrow⟩ := readRow_cases hs
    exact .switchNext hr ht hts hrow

theorem advance_closing {k : AfterClose} (h : q.internalClose k = some (e, ⟨m', q'⟩)) :
    Advance E (.closing k) q e m' q' := by
  rcases internalClose_cases h with ⟨ht, h⟩ | ⟨ts, ht, h⟩
  · cases k with
    | execute =>
      simp only [afterClose, goTo_eq] at h
      obtain ⟨rfl, rfl, rfl⟩ := h
      exact .closedExecute ht
    | destroy =>
      simp only [afterClose, goTo_eq] at h
      obtain ⟨rfl, rfl, rfl⟩ := h
      exact .closedDestroy ht
    | executeFailed | resultsetMetaFailed | cancel | close =>
      simp only [afterClose, retWith_eq] at h
      obtain ⟨rfl, rfl, rfl⟩ := h
      exact .closed ht rfl
  · rw [goTo_eq] at h
    obtain ⟨rfl, rfl, rfl⟩ := h
    exact .join ht

theorem advance_mainStep (h : mainStep E.read q m = some (e, ⟨m', q'⟩)) :
    Advance E m q e m' q' := by
  cases m with
  | entered op => exact advance_enter h
  | closing k => exact advance_closing h
  | waiting b =>
    simp only [mainStep] at h
    split at h
    · cases h
    · rename_i o os hq
      rw [goTo_eq] at h
      obtain ⟨rfl, rfl, rfl⟩ := h
      exact .pop hq
  | switching b o => exact advance_switching h
  | idle | requesting | requestingMeta | cancelling | destroyed => cases h

theorem advance_requesting {o : QueryOutcome} (ho : E.query q.request o)
    (h : q.makeRequestExecute o = some (e, ⟨m', q'⟩)) : Advance E .requesting q e m' q' := by
  rcases makeRequestExecute_cases h with ⟨err, record, rfl, hs⟩ | ⟨r, rfl, hr, ht, hs⟩ |
    ⟨r, rfl, hr, ht, hs⟩ | ⟨r, rfl, hr, ht, hs⟩ | ⟨r, rfl, hr, ht, hs⟩
  · rw [goTo_eq] at hs
    obtain ⟨rfl, rfl, rfl⟩ := hs
    exact .requestFailed ho
  · rw [retWith_eq] at hs
    obtain ⟨rfl, rfl, rfl⟩ := hs
    exact .requestEmpty ho hr ht
  · rw [goTo_eq] at hs
    obtain ⟨rfl, rfl, rfl⟩ := hs
    exact .requestSkip ho hr ht
  · obtain ⟨rfl, rfl, rfl⟩ := makeRequestFetch_cases rfl hr rfl hs
    exact .requestLast ho hr ht
  · obtain ⟨rfl, rfl, rfl⟩ := makeRequestFetch_cases rfl hr rfl hs
    exact .requestFirst ho hr ht

theorem makeRequestExecute_last {r : QueryResult} (hr : r.rows ≠ []) (ht : r.nextToken = "") :
    q.makeRequestExecute (.success r) =
      some (.ret (.result .success []), ⟨.idle, (q.openPage r).discoverMeta r⟩) := by
  have hc : q.makeRequestExecute (.success r) = (q.openPage r).makeRequestFetch := by
    simp [makeRequestExecute, openPage, hr, ht]
  rw [hc]
  obtain ⟨⟨e, m', q'⟩, h⟩ : ∃ x, (q.openPage r).makeRequestFetch = some x := by
    simp only [makeRequestFetch, openPage, List.isEmpty_iff, if_neg hr, retWith]
    exact ⟨_, rfl⟩
  obtain ⟨rfl, rfl, rfl⟩ := makeRequestFetch_cases rfl hr rfl h
  exact h

theorem advance_cancelling {o : CancelOutcome}
    (h : q.cancelRequested o = some (e, ⟨m', q'⟩)) : Advance E .cancelling q e m' q' := by
  unfold cancelRequested at h
  split at h
  · rw [goTo_eq] at h
    obtain ⟨rfl, rfl, rfl⟩ := h
    exact .cancelDone
  · split at h
    · rw [goTo_eq] at h
      obtain ⟨rfl, rfl, rfl⟩ := h
      exact .cancelDone
    · rw [retWith_eq] at h
      obtain ⟨rfl, rfl, rfl⟩ := h
      exact .cancelFailed

/-- A step is a call, a move of the main thread, or a move of a fetch thread. -/
theorem step_cases (h : Step E ⟨m, q⟩ e ⟨m', q'⟩) :
    (∃ op, m = .idle ∧ e = .call op ∧ m' = .entered op ∧ q' = q) ∨
    Advance E m q e m' q' ∨ e = .tau ∧ m' = m ∧ ThreadStep E q q' := by
  cases h with
  | call op => exact .inl ⟨op, rfl, rfl, rfl, rfl⟩
  | main h => exact .inr (.inl (advance_mainStep h))
  | @query _ _ _ _ _ o hreq ho h =>
    cases m with
    | requesting =>
      cases hreq
      exact .inr (.inl (advance_requesting ho h))
    | requestingMeta =>
      simp only [onQuery, makeRequestResultsetMeta] at h
      split at h
      · rw [goTo_eq] at h
        obtain ⟨rfl, rfl, rfl⟩ := h
        exact .inr (.inl .metaFailed)
      · rw [retWith_eq] at h
        obtain ⟨rfl, rfl, rfl⟩ := h
        exact .inr (.inl .metaRead)
    | _ => cases hreq
  | cancel _ _ h => exact .inr (.inl (advance_cancelling h))
  | answer hi ho => exact .inr (.inr ⟨rfl, rfl, .answer hi ho⟩)
  | push hi hp => exact .inr (.inr ⟨rfl, rfl, .push hi hp⟩)

end Advances

end TrinoOdbc
