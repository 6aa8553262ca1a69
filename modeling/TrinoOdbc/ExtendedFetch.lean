import TrinoOdbc.Rowset

/-!
# TrinoOdbc.ExtendedFetch

`SQLExtendedFetch`: `SQLFetchScroll`, and a report of the rowset through the arguments of the call.

The report is made from the return code alone. `extendedFetch_iff` says for which rowsets it is the
one `SQLFetch` makes through the statement's pointers.
-/

namespace TrinoOdbc

/-- `SQL_FETCH_NEXT`. -/
def fetchNextOrientation : Int := 1

/-- The values of an `SQLUSMALLINT` row status. -/
def RowStatus.code : RowStatus → Nat
  | .success => 0
  | .successWithInfo => 6
  | .error => 5
  | .noRow => 3

namespace Statement

def orientationNotSupported : DiagnosticRecord :=
  { sqlState := .shyc00OptionalFeatureNotImplemented
    message := "Only SQL_FETCH_NEXT FetchOrientation type is supported" }

inductive InternalFetchScroll (W : World) (orientation : Int) :
    Statement → Rowset → Statement → Prop where
  | notSupported {st : Statement} : orientation ≠ fetchNextOrientation →
      InternalFetchScroll W orientation st
        { result := .error, rowsFetched := none, rowStatuses := none, stored := [] }
        (st.addStatusRecord orientationNotSupported)
  | next {st st' : Statement} {o : Rowset} : orientation = fetchNextOrientation →
      st.InternalFetchRow W o st' → InternalFetchScroll W orientation st o st'

end Statement

/-- What the arguments `rowCount` and `rowStatusArray` point to. -/
structure RowReport where
  rowCount : Nat
  rowStatusArray : Nat → Nat

/-- What `SQLExtendedFetch` makes of them after `SQLFetchScroll` has returned `res`. -/
def RowReport.after (report : RowReport) (res : SqlResult) : RowReport :=
  match res with
  | .success =>
    { rowCount := 1
      rowStatusArray := Function.update report.rowStatusArray 0 RowStatus.success.code }
  | .noData => { report with rowCount := 0 }
  | _ => report

inductive SQLExtendedFetch (W : World) (orientation : Int) :
    Statement → RowReport → Rowset → RowReport → Statement → Prop where
  | call {st st' : Statement} {report : RowReport} {o : Rowset} :
      st.InternalFetchScroll W orientation o st' →
      SQLExtendedFetch W orientation st report o (report.after o.result) st'

/-- `SQL_ATTR_ROWS_FETCHED_PTR` and `SQL_ATTR_ROW_STATUS_PTR` are set. -/
def Statement.reporting (st : Statement) : Statement :=
  { st with rowsFetched := true, rowStatuses := true }

/-- The report agrees with the one `o` of `SQLFetch` through the pointers of the statement. -/
structure RowReport.Agrees (report : RowReport) (o : Rowset) : Prop where
  fetched : isFetched o.result → o.rowsFetched = some report.rowCount ∧
    ∃ statuses, o.rowStatuses = some statuses ∧
      ∀ i status, statuses[i]? = some status → report.rowStatusArray i = status.code
  noData : o.result = .noData → report.rowCount = 0

section Report

variable {W : World} {st st' : Statement} {q q' : Query} {b : ColumnBindingMap}
  {rs : List (SqlResult × List Stored)}

theorem FetchRows.length {i n : Nat} (h : FetchRows W b i n q rs q') : rs.length = n := by
  induction h with
  | done => rfl
  | row _ _ ih => rw [List.length_cons, ih]

theorem code_injective : Function.Injective RowStatus.code := by
  intro s s' h
  cases s <;> cases s' <;> first | rfl | cases h

theorem rowResult_code_success {r : SqlResult} :
    (sqlResultToRowResult r).code = RowStatus.success.code ↔ r = .success := by
  cases r <;> decide

/-- The statement's own pointers play no part in the fetch. -/
theorem rowset_result (st : Statement) (rs : List (SqlResult × List Stored)) :
    (st.reporting.rowset rs).result = (st.rowset rs).result := rfl

theorem rowset_fetched_iff (st : Statement) (rs : List (SqlResult × List Stored)) :
    isFetched (st.rowset rs).result = true ↔ ∃ r ∈ rs, isFetched r.1 = true := by
  rw [← List.countP_pos_iff]
  simp only [Statement.rowset, rowsetResult]
  split
  · rename_i hpos
    refine iff_of_true ?_ hpos
    split <;> rfl
  · rename_i hpos
    refine iff_of_false ?_ hpos
    split <;> simp [isFetched]

/-- A rowset with nothing but the rows it fetched is a success. -/
theorem rowset_one_success (st : Statement) (stored : List Stored) :
    (st.rowset [(.success, stored)]).result = .success := rfl

/-- The report for a rowset of one row that was read with success. -/
theorem agrees_one (st : Statement) (stored : List Stored) (report : RowReport) :
    (report.after (st.rowset [(.success, stored)]).result).Agrees
      (st.reporting.rowset [(.success, stored)]) := by
  rw [rowset_one_success]
  refine ⟨fun _ => ⟨rfl, _, rfl, fun i status hi => ?_⟩, fun h => by cases h⟩
  cases i with
  | zero =>
    obtain rfl := Option.some.inj hi
    rfl
  | succ i => cases hi

theorem agrees_noRow (st : Statement) (report : RowReport)
    (h : ∀ r ∈ rs, isFetched r.1 = false) :
    (report.after (st.rowset rs).result).Agrees (st.reporting.rowset rs) := by
  refine ⟨fun hf => ?_, fun hn => ?_⟩
  · rw [rowset_result, rowset_fetched_iff] at hf
    obtain ⟨r, hr, hfetched⟩ := hf
    rw [h r hr] at hfetched
    cases hfetched
  · rw [rowset_result] at hn
    rw [hn]
    rfl

/-- What a report from the return code can agree with, whatever stood there before. -/
theorem agrees_only (hlen : rs.length = st.rowArraySize) {r : SqlResult × List Stored}
    (hr : r ∈ rs) (hfetched : isFetched r.1 = true)
    (h : ∀ report : RowReport,
      (report.after (st.rowset rs).result).Agrees (st.reporting.rowset rs)) :
    st.rowArraySize = 1 ∧ ∀ r ∈ rs, r.1 = .success := by
  have hf : isFetched (st.reporting.rowset rs).result = true := by
    rw [rowset_result]
    exact (rowset_fetched_iff st rs).mpr ⟨r, hr, hfetched⟩
  have hsuccess : (st.rowset rs).result = .success := by
    by_contra hne
    have hinfo : (st.rowset rs).result = .successWithInfo := by
      rw [rowset_result] at hf
      generalize (st.rowset rs).result = res at hf hne
      cases res <;> first | rfl | exact absurd rfl hne | cases hf
    -- the count is left as it was, so two reports give two counts
    have h0 := ((h ⟨0, fun _ => 0⟩).fetched hf).1
    have h1 := ((h ⟨1, fun _ => 0⟩).fetched hf).1
    rw [hinfo] at h0 h1
    rw [h0] at h1
    cases Option.some.inj h1
  have hstatus : ∀ (report : RowReport) (i : Nat) (r : SqlResult × List Stored),
      rs[i]? = some r → (report.after .success).rowStatusArray i =
        (sqlResultToRowResult r.1).code := by
    intro report i r hi
    obtain ⟨_, statuses, hstatuses, hall⟩ := (h report).fetched hf
    rw [hsuccess] at hall
    obtain rfl := Option.some.inj hstatuses
    exact hall i _ (by rw [List.getElem?_map, hi]; rfl)
  have hone : rs.length ≤ 1 := by
    by_contra hlt
    have hi : rs[1]? = some (rs.get ⟨1, by omega⟩) := List.getElem?_eq_getElem (by omega)
    have h0 := hstatus ⟨0, fun _ => 0⟩ 1 _ hi
    have h1 := hstatus ⟨0, fun _ => 1⟩ 1 _ hi
    rw [← h0] at h1
    cases h1
  match rs, hone, hr with
  | [r₀], _, _ =>
    refine ⟨by rw [← hlen]; rfl, fun r' hr' => ?_⟩
    obtain rfl := List.mem_singleton.mp hr'
    exact rowResult_code_success.mp (hstatus ⟨0, fun _ => 0⟩ 0 _ rfl).symm

/-- `SQLExtendedFetch` reports its rowset exactly when it fetched no row, or when the row array has
one row and that row was read with success. -/
theorem extendedFetch_iff (hq : st.currentQuery = some q)
    (h : FetchRows W st.offsetBindings 0 st.rowArraySize q rs q') :
    (∀ report report' st',
        SQLExtendedFetch W fetchNextOrientation st report (st.rowset rs) report' st' →
          report'.Agrees (st.reporting.rowset rs)) ↔
      (∀ r ∈ rs, isFetched r.1 = false) ∨
        (st.rowArraySize = 1 ∧ ∀ r ∈ rs, r.1 = .success) := by
  constructor
  · intro hall
    by_cases hrow : ∀ r ∈ rs, isFetched r.1 = false
    · exact .inl hrow
    · simp only [not_forall, Bool.not_eq_false] at hrow
      obtain ⟨r, hr, hfetched⟩ := hrow
      refine .inr (agrees_only h.length hr hfetched fun report => ?_)
      exact hall report _ _ (.call (.next rfl (.fetch hq h)))
  · rintro hcond report report' st' ⟨_⟩
    rcases hcond with hnone | ⟨hsize, hsuccess⟩
    · exact agrees_noRow st report hnone
    · match rs, h.length.trans hsize with
      | [(r, stored)], _ =>
        obtain rfl : r = .success := hsuccess (r, stored) List.mem_cons_self
        exact agrees_one st stored report

end Report

/-! ## Rows of SQLGetTypeInfo -/

section Examples

/-- All types, executed. -/
def allTypes : TypeInfoQuery := (TypeInfoQuery.create 0).execute.2

/-- A statement on them, with no column bound. -/
def typesStatement (rowArraySize : Nat) (h : rowArraySize ≤ 1000) : Statement :=
  { currentQuery := some (.typeInfo allTypes), rowArraySize, rowArraySizeLe := h }

/-- Nothing reported yet. -/
def noReport : RowReport := ⟨0, fun _ => 0⟩

/-- One row. -/
theorem extendedFetch_oneRow : ∃ report' st',
    SQLExtendedFetch (textWorld threeRows) fetchNextOrientation (typesStatement 1 (by decide))
      noReport ((typesStatement 1 (by decide)).rowset [(.success, [])]) report' st' ∧
    report'.Agrees ((typesStatement 1 (by decide)).reporting.rowset [(.success, [])]) := by
  have hrows : FetchRows (textWorld threeRows) (typesStatement 1 (by decide)).offsetBindings 0 1
      (.typeInfo allTypes) [(.success, [])] _ := .row (.typeInfo allTypes) .done
  have hcall : SQLExtendedFetch (textWorld threeRows) fetchNextOrientation
      (typesStatement 1 (by decide)) noReport _ _ _ := .call (.next rfl (.fetch rfl hrows))
  refine ⟨_, _, hcall, (extendedFetch_iff rfl hrows).mpr (.inr ⟨rfl, ?_⟩) _ _ _ hcall⟩
  intro r hr
  obtain rfl := List.mem_singleton.mp hr
  rfl

/-- Two rows are reported as one, and the status of the second one is not written. -/
theorem extendedFetch_twoRows : ∃ report' st',
    SQLExtendedFetch (textWorld threeRows) fetchNextOrientation (typesStatement 2 (by decide))
      noReport ((typesStatement 2 (by decide)).rowset [(.success, []), (.success, [])])
      report' st' ∧
    ¬ report'.Agrees
      ((typesStatement 2 (by decide)).reporting.rowset [(.success, []), (.success, [])]) := by
  have hrows : FetchRows (textWorld threeRows) (typesStatement 2 (by decide)).offsetBindings 0 2
      (.typeInfo allTypes) [(.success, []), (.success, [])] _ :=
    .row (.typeInfo allTypes) (.row (.typeInfo _) .done)
  refine ⟨_, _, .call (.next rfl (.fetch rfl hrows)), fun hagrees => ?_⟩
  have hcount := (hagrees.fetched rfl).1
  cases Option.some.inj hcount

end Examples

end TrinoOdbc
