import TrinoOdbc.Reading

/-!
# TrinoOdbc.Paging

The rows that one execution of a `DataQuery` delivers, for every split of the result into pages and
every order in which the fetch thread and the main thread move.

`Fetches E q fs q'`: calls of `FetchNextRow` that put the cursor on a row, one after the other, with
what was seen of each. `paging_complete_iff`: the rows up to the first `NO_DATA` are all rows of the
result exactly when no page with rows comes behind a page without rows that itself comes behind a
page with rows; the leading pages without rows are skipped, such a gap is taken for the end.
-/

namespace TrinoOdbc

open DataQuery

/-- The row the cursor is on, if any, and the row number. -/
def DataQuery.seen (q : DataQuery) : Option Row × Int :=
  (q.cursor.bind TrinoCursor.current, q.rowNumber.1)

/-- A call of `FetchNextRow` and what is seen after it. -/
structure RowFetch where
  bindings : ColumnBindingMap
  value : Ret
  row : Row
  rowNumber : Int

inductive Fetches (E : Env) : DataQuery → List RowFetch → DataQuery → Prop where
  | nil {q : DataQuery} : Fetches E q [] q
  | cons {q q₁ q' : DataQuery} {f : RowFetch} {fs : List RowFetch} :
      Call E q (.fetchNextRow f.bindings) f.value q₁ → q₁.seen = (some f.row, f.rowNumber) →
      Fetches E q₁ fs q' → Fetches E q (f :: fs) q'

section Paging

variable {E : Env} {p : Position} {q q' q₁ q₂ : DataQuery} {fs : List RowFetch}
  {b : ColumnBindingMap} {v : Ret}

theorem Reading.seen (h : Reading E p q) :
    q.seen = (p.cursor.current, if p.cursor.hasData then q.rowCounter.toInt else 0) := by
  simp only [DataQuery.seen, rowNumber, h.cursor, Option.bind_some]
  split <;> rfl

theorem current_eq_none {c : TrinoCursor} (ha : c.Aligned) (h : c.rowVec.length < c.curPos) :
    c.current = none := by
  rw [ha.current_eq, List.getElem?_eq_none_iff]
  omega

theorem hasData_eq_false {c : TrinoCursor} (h : c.rowVec.length < c.curPos) :
    c.hasData = false := by
  simpa [TrinoCursor.hasData] using h

theorem Starving.seen (h : Starving q) : q.seen = (none, 0) := by
  obtain ⟨c, hc, ha, hlt⟩ := h.cursor
  simp [DataQuery.seen, rowNumber, hc, current_eq_none ha hlt, hasData_eq_false hlt]

theorem seen_noCursor (h : q.cursor = none) : q.seen = (none, 0) := by
  simp [DataQuery.seen, rowNumber, h]

/-- A fetch puts the cursor on a row exactly when the position says so, and is at 0 otherwise. -/
theorem fetch_seen (hr : Reading E p q) (h : Call E q (.fetchNextRow b) v q') :
    (∃ p', p.next = .row p' ∧ Reading E p' q' ∧ RowDone E.read q p'.cursor b v q') ∨
      (∀ p', p.next ≠ .row p') ∧ q'.seen = (none, 0) := by
  have hpost := fetch_spec hr h
  generalize hnext : p.next = f at hpost
  cases hpost with
  | row hr' hd => exact .inl ⟨_, rfl, hr', hd⟩
  | @finished p' _ hr' _ =>
    refine .inr ⟨nofun, ?_⟩
    have hends := Position.next_ends (p := p) (by rw [hnext]; nofun)
    rw [hnext] at hends
    obtain ⟨hrows, _, rfl⟩ := hends
    have hlt : p.cursor.increment.2.rowVec.length < p.cursor.increment.2.curPos := by
      have hdrop := (List.append_eq_nil_iff.mp hrows).1
      have := List.drop_eq_nil_iff.mp hdrop
      simp only [TrinoCursor.increment_rowVec, TrinoCursor.increment_curPos]
      omega
    rw [hr'.seen, current_eq_none hr'.aligned hlt, hasData_eq_false hlt]
    rfl
  | emptyPage hst _ => exact .inr ⟨nofun, hst.seen⟩
  | failed hc _ _ _ => exact .inr ⟨nofun, seen_noCursor hc⟩

/-- The fetched rows are taken from the front of the rows still to come. -/
theorem Fetches.reading (h : Fetches E q fs q') :
    ∀ {p : Position}, Reading E p q →
      ∃ p', Reading E p' q' ∧ p.rows = fs.map RowFetch.row ++ p'.rows ∧ p'.stop = p.stop := by
  induction h with
  | nil => intro p hr; exact ⟨p, hr, rfl, rfl⟩
  | @cons q q₁ q' f fs hcall hseen _ ih =>
    intro p hr
    rcases fetch_seen hr hcall with ⟨p₁, hnext, hr₁, _⟩ | ⟨_, hnone⟩
    · obtain ⟨_, hstop, row', hcur, hrows⟩ := Position.next_row hr.aligned hnext
      rw [hr₁.seen, hcur, Prod.mk.injEq, Option.some.injEq] at hseen
      obtain ⟨p', hr', hrows', hstop'⟩ := ih hr₁
      refine ⟨p', hr', ?_, hstop'.trans hstop⟩
      rw [hrows, hrows', hseen.1, List.map_cons, List.cons_append]
    · rw [hnone] at hseen
      cases hseen

/-- `NO_DATA` is returned with no row left to come. -/
theorem noData_rows {stored : List Stored} (hr : Reading E p q)
    (h : Call E q (.fetchNextRow b) (.result .noData stored) q') :
    p.rows = [] ∧ p.stop ≠ .failed := by
  have hpost := fetch_spec hr h
  have hends : (∀ p', p.next ≠ .row p') → p.Ends p.next := Position.next_ends
  generalize hval : Ret.result .noData stored = val at hpost
  generalize p.next = f at hpost hends
  cases hpost with
  | row _ hd =>
    rw [hd.value, Ret.result.injEq] at hval
    exact absurd hval.1.symm (rowResult_ne_noData _ _ _ _)
  | finished _ _ =>
    obtain ⟨h1, h2, _⟩ := hends nofun
    exact ⟨h1, by rw [h2]; nofun⟩
  | emptyPage _ _ =>
    obtain ⟨h1, h2⟩ := hends nofun
    exact ⟨h1, by rw [h2]; nofun⟩
  | failed _ _ _ _ => cases hval

theorem clean_fresh (sql : String) (n : Option Nat) :
    Clean { sql := sql, maxRowPerPage := n } :=
  ⟨rfl, rfl, ⟨rfl, .inl rfl⟩, fun _ => ⟨rfl, rfl⟩⟩

/-- A successful `Execute` stands before the first row of the script's first page with rows. -/
theorem execute_success {sc : Script} {stored : List Stored} (hc : Clean q)
    (hsc : Answers E (firstRequest q) sc)
    (h : Call E q .execute (.result .success stored) q₁) :
    ∃ page rest, sc.opened = .rows page rest ∧ Reading E (.start page rest) q₁ ∧
      Unread (q.discoverMeta page) q₁ := by
  have hpost := execute_spec hc hsc h
  generalize hval : Ret.result .success stored = val at hpost
  generalize ho : sc.opened = o at hpost
  cases hpost with
  | @rows page rest _ hr hu => exact ⟨page, rest, rfl, hr, hu⟩
  | noData _ _ _ _ => cases hval
  | failed _ _ _ _ => cases hval

/-- For every way the service splits the result into pages and every interleaving: the rows from a
successful `Execute` to the first `NO_DATA` are the rows of all pages exactly when no page has rows
behind a gap. -/
theorem paging_complete_iff (fs : List RowFetch) {sql : String} {n : Option Nat} {sc : Script}
    {stored stored' : List Stored}
    (hsc : Answers E { queryString := sql, maxRows := n } sc)
    (hexec : Call E { sql := sql, maxRowPerPage := n } .execute (.result .success stored) q)
    (hfetch : Fetches E q fs q₁)
    (hend : Call E q₁ (.fetchNextRow b) (.result .noData stored') q₂) :
    fs.map RowFetch.row = sc.rows ↔ sc.NoRowsAfterGap := by
  have hreq : firstRequest { sql := sql, maxRowPerPage := n } =
      { queryString := sql, maxRows := n } := by
    cases n <;> rfl
  obtain ⟨page, rest, ho, hr, _⟩ := execute_success (clean_fresh sql n) (hreq ▸ hsc) hexec
  obtain ⟨p', hr', hrows, _⟩ := hfetch.reading hr
  have hdel : sc.delivered = (Position.start page rest).rows := by
    simp only [Script.delivered, ho]
  rw [← Script.delivered_eq_rows, hdel, hrows, (noData_rows hr' hend).1, List.append_nil]

/-- On the way to the first `NO_DATA` every call returns. -/
theorem paging_returns (hE : Responsive E) {sc : Script} {stored : List Stored} (hc : Clean q)
    (hsc : Answers E (firstRequest q) sc) (hexec : Call E q .execute (.result .success stored) q₁)
    (hfetch : Fetches E q₁ fs q₂) (b : ColumnBindingMap) :
    Returns E q .execute ∧ Returns E q₂ (.fetchNextRow b) := by
  obtain ⟨page, rest, _, hr, _⟩ := execute_success hc hsc hexec
  obtain ⟨p', hr', _⟩ := hfetch.reading hr
  exact ⟨execute_returns hE hc hsc, fetch_returns hE hr'⟩

end Paging

section Examples

def onePage (v : String) (token : String) : QueryResult :=
  { rows := [[.scalar v]], nextToken := token, columnInfo := [⟨"a", some .varchar, true⟩] }

def noRows (token : String) : QueryResult :=
  { rows := [], nextToken := token, columnInfo := [⟨"a", some .varchar, true⟩] }

/-- A page with a row, a page without, and a page with a row. -/
def gapScript : Script :=
  .more (onePage "1" "a") (by decide) (.more (noRows "b") (by decide) (.last (onePage "2" "") rfl))

def gapService : Service where
  query req :=
    match req.nextToken with
    | none => some (.success (onePage "1" "a"))
    | some "a" => some (.success (noRows "b"))
    | some _ => some (.success (onePage "2" ""))

/-- A page without a row, then two pages with one each. -/
def leadingScript : Script :=
  .more (noRows "a") (by decide) (.more (onePage "1" "b") (by decide) (.last (onePage "2" "") rfl))

def leadingService : Service where
  query req :=
    match req.nextToken with
    | none => some (.success (noRows "a"))
    | some "a" => some (.success (onePage "1" "b"))
    | some _ => some (.success (onePage "2" ""))

theorem gapService_answers (read : ReadToBuffer) :
    Answers (gapService.env read) { queryString := "q" } gapScript := by
  refine ⟨fun o ho => ?_, fun o ho => ?_, fun o ho => ?_⟩ <;> exact (Option.some.inj ho).symm

theorem leadingService_answers (read : ReadToBuffer) :
    Answers (leadingService.env read) { queryString := "q" } leadingScript := by
  refine ⟨fun o ho => ?_, fun o ho => ?_, fun o ho => ?_⟩ <;> exact (Option.some.inj ho).symm

/-- The push and the second fetch may come in either order. -/
theorem paging_complete_leading : [[.scalar "1"], [.scalar "2"]] = leadingScript.rows ↔
    leadingScript.NoRowsAfterGap :=
  paging_complete_iff (b := .empty) (E := leadingService.env ignoreRead)
    [⟨.empty, .result .success [], [.scalar "1"], 1⟩,
      ⟨.empty, .result .success [], [.scalar "2"], 2⟩] (leadingService_answers _)
    (replay_call [.call .execute, .main, .query, .query] rfl rfl)
    (.cons (replay_call [.call (.fetchNextRow .empty), .main] rfl rfl) rfl
      (.cons (replay_call [.call (.fetchNextRow .empty), .main, .answer 0, .push 0, .main, .main]
        rfl rfl) rfl .nil))
    (replay_call [.call (.fetchNextRow .empty), .main] rfl rfl)

/-- Of two rows with a page without rows between theirs, the second is not delivered. -/
theorem gap_loses_rows : ∃ q₁ q₂ q₃ fs,
    Answers (gapService.env ignoreRead) { queryString := "q" } gapScript ∧ gapScript.Succeeds ∧
    Call (gapService.env ignoreRead) { sql := "q" } .execute (.result .success []) q₁ ∧
    Fetches (gapService.env ignoreRead) q₁ fs q₂ ∧
    Call (gapService.env ignoreRead) q₂ (.fetchNextRow .empty) (.result .noData []) q₃ ∧
    fs.map RowFetch.row ≠ gapScript.rows := by
  refine ⟨_, _, _, [⟨.empty, .result .success [], [.scalar "1"], 1⟩], gapService_answers _, trivial,
    replay_call [.call .execute, .main, .query] rfl rfl,
    .cons (replay_call [.call (.fetchNextRow .empty), .main] rfl rfl) rfl .nil,
    replay_call [.call (.fetchNextRow .empty), .answer 0, .push 0, .main, .main, .main] rfl rfl, ?_⟩
  intro h
  have hlen := congrArg List.length h
  revert hlen
  decide

end Examples

end TrinoOdbc
