import TrinoOdbc.MetadataExecute
import TrinoOdbc.Query
import TrinoOdbc.Reexecute
import TrinoOdbc.RefCursor
import TrinoOdbc.Rowset

/-!
# TrinoOdbc.OneCursor

The four query classes behind one cursor: after `Execute` each of them is the eager cursor of
`RefCursor` over its result, so it is the strict one as long as nothing is asked of it before the
first `FetchNextRow` (`oneCursor_iff`).

`MetadataCursor.place` and `DataAt` say where the cursor of a query is.
-/

namespace TrinoOdbc

open DataQuery

/-- A column and the buffer it is read to. -/
abbrev Look := Nat × ApplicationDataBuffer

abbrev CursorEvent := RefCursor.Event ColumnBindingMap Look (SqlResult × List Stored)

abbrev CursorSpec := RefCursor.Spec Look (SqlResult × List Stored)

def SqlResult.fetch : SqlResult → RefCursor.Fetch
  | .success | .successWithInfo => .row
  | .noData => .ended
  | .error | .needData => .failed

/-- The calls on a query that has been executed. -/
inductive CursorStep (W : World) : Query → CursorEvent → Query → Prop where
  | fetch {Q Q' : Query} {b : ColumnBindingMap} {r : SqlResult × List Stored} :
      Q.FetchNextRow W b r Q' → CursorStep W Q (.fetch b r.1.fetch) Q'
  | look {Q Q' : Query} {l : Look} {r : SqlResult × List Stored} :
      Q.GetColumn W l.1 l.2 r Q' → CursorStep W Q (.look l r) Q'
  | number (Q : Query) : CursorStep W Q (.number Q.rowNumber.1) Q.rowNumber.2

/-- Nothing is written to the buffer, and the result is not `SUCCESS`. -/
def WritesNothing (r : SqlResult × List Stored) : Prop :=
  r.1 ≠ .success ∧ ∀ s ∈ r.2, s.put.data = none ∧ s.put.resLen = none

theorem writesNothing_nil {r : SqlResult} (h : r ≠ .success) : WritesNothing (r, []) :=
  ⟨h, fun _ hs => nomatch hs⟩

/-- `GetColumn` of a `DataQuery` on `row`. -/
def readData (read : ReadToBuffer) (columns : List ColumnMeta) (row : Row) (l : Look) :
    SqlResult × List Stored :=
  let put := readCell read columns row l.1 l.2
  ((processConversionResult put.result 0 l.1).1, [⟨l.1, l.2, put⟩])

/-- The cursor over the rows of `sc` that its pages lead to. -/
def dataSpec (read : ReadToBuffer) (columns : List ColumnMeta) (sc : Script) : CursorSpec where
  size := sc.delivered.length
  value k := readData read columns (sc.rows[k - 1]?.getD [])
  Silent := WritesNothing
  numbered := False

def readMetadata {α : Type} (cells : Cells α) (row : Option α) (l : Look) :
    SqlResult × List Stored :=
  match row with
  | none => (.error, [])
  | some row => ((cells row l.1 l.2).result, (cells row l.1 l.2).stored l.1 l.2)

/-- The cursor over the rows of a metadata query. -/
def metadataSpec {α : Type} (cells : Cells α) (rows : List α) : CursorSpec where
  size := rows.length
  value k := readMetadata cells rows[k - 1]?
  Silent := WritesNothing
  numbered := True

/-! ## The metadata queries -/

def MetadataCursor.place {α : Type} (c : MetadataCursor α) : RefCursor.Place :=
  if c.fetched = false then .before
  else if c.cursor < c.metaVector.length then .on (c.cursor + 1)
  else .after

/-- The cursor of an executed query over `rows`. -/
structure CursorOver {α : Type} (rows : List α) (c : MetadataCursor α) : Prop where
  executed : c.executed = true
  metaVector : c.metaVector = rows
  first : c.fetched = false → c.cursor = 0

section Metadata

variable {α : Type} {rows : List α} {c : MetadataCursor α} {cells : Cells α}

theorem CursorOver.diag (h : CursorOver rows c) (diag : List DiagnosticRecord) :
    CursorOver rows { c with diag } := ⟨h.executed, h.metaVector, h.first⟩

theorem CursorOver.advance (hne : rows ≠ []) (h : CursorOver rows c) :
    CursorOver rows c.advance ∧ c.advance.place =
      if c.place.passed rows.length < rows.length then .on (c.place.passed rows.length + 1)
      else .after := by
  have hpos := List.length_pos_iff.mpr hne
  have hvec := h.metaVector
  unfold MetadataCursor.advance
  by_cases hf : c.fetched = false
  · have h0 := h.first hf
    rw [if_pos hf]
    refine ⟨⟨h.executed, hvec, nofun⟩, ?_⟩
    simp [MetadataCursor.place, hf, h0, hvec, RefCursor.Place.passed, hpos]
  · rw [if_neg hf]
    by_cases hlt : c.cursor < c.metaVector.length
    · rw [dif_pos hlt]
      refine ⟨⟨h.executed, hvec, fun hn => absurd hn hf⟩, ?_⟩
      rw [hvec] at hlt
      simp [MetadataCursor.place, hf, hvec, hlt, RefCursor.Place.passed]
    · rw [dif_neg hlt]
      refine ⟨h, ?_⟩
      rw [hvec] at hlt
      simp [MetadataCursor.place, hf, hvec, hlt, RefCursor.Place.passed]

/-- The row under the iterator is the one the eager cursor sees. -/
theorem CursorOver.current (hne : rows ≠ []) (h : CursorOver rows c) :
    (∃ k row, RefCursor.eager c.place = some k ∧ rows[k - 1]? = some row ∧ k = c.cursor + 1 ∧
      c.current = some row) ∨
    RefCursor.eager c.place = none ∧ c.cursor = rows.length ∧ c.current = none := by
  have hpos := List.length_pos_iff.mpr hne
  have hle := c.inBounds
  have hvec := h.metaVector
  simp only [MetadataCursor.current, MetadataCursor.place, hvec] at hle ⊢
  by_cases hf : c.fetched = false
  · refine .inl ⟨1, rows[0], ?_⟩
    simp [hf, h.first hf, RefCursor.eager, hpos]
  · by_cases hlt : c.cursor < rows.length
    · refine .inl ⟨c.cursor + 1, rows[c.cursor], ?_⟩
      simp [hf, hlt, RefCursor.eager]
    · refine .inr ?_
      have hend : c.cursor = rows.length := by omega
      simp [hf, hend, RefCursor.eager]

theorem CursorOver.fetchRow (hne : rows ≠ []) (h : CursorOver rows c) (b : ColumnBindingMap) :
    RefCursor.Step RefCursor.eager (metadataSpec cells rows) c.place
        (.fetch b (c.fetchRow cells b).1.1.fetch) (c.fetchRow cells b).2.place ∧
      CursorOver rows (c.fetchRow cells b).2 := by
  obtain ⟨hover, hplace⟩ := h.advance hne
  unfold MetadataCursor.fetchRow
  rcases hover.current hne with ⟨k, row, hk, _, _, hcur⟩ | ⟨hend, _, hcur⟩
  · simp only [hcur]
    refine ⟨?_, hover.diag _⟩
    rw [hplace] at hk
    split at hplace
    · rename_i hlt
      exact hplace ▸ .row hlt
    · rename_i hge
      rw [if_neg hge] at hk
      cases hk
  · simp only [hcur]
    refine ⟨?_, hover⟩
    rw [hplace] at hend
    split at hplace
    · rename_i hlt
      rw [if_pos hlt] at hend
      cases hend
    · rename_i hge
      have hle : c.place.passed rows.length ≤ rows.length := by
        have := c.inBounds
        rw [h.metaVector] at this
        unfold MetadataCursor.place
        rw [h.metaVector]
        split
        · exact Nat.zero_le _
        · split
          · simpa [RefCursor.Place.passed]
          · exact Nat.le_refl _
      exact hplace ▸ .ended (Nat.le_antisymm hle (Nat.not_lt.mp hge))

theorem CursorOver.readColumn (hne : rows ≠ []) (h : CursorOver rows c) (l : Look) :
    RefCursor.Step (β := ColumnBindingMap) RefCursor.eager (metadataSpec cells rows) c.place
        (.look l (c.readColumn cells l.1 l.2).1) (c.readColumn cells l.1 l.2).2.place ∧
      CursorOver rows (c.readColumn cells l.1 l.2).2 := by
  unfold MetadataCursor.readColumn
  rcases h.current hne with ⟨k, row, hk, hrow, _, hcur⟩ | ⟨hend, _, hcur⟩
  · simp only [hcur]
    refine ⟨.look ?_, h.diag _⟩
    rw [hk]
    simp [RefCursor.Spec.Shows, metadataSpec, hrow, readMetadata]
  · simp only [hcur]
    refine ⟨.look ?_, h.diag _⟩
    rw [hend]
    exact writesNothing_nil fun h => by cases h

theorem CursorOver.rowNumber (hne : rows ≠ []) (h : CursorOver rows c) :
    RefCursor.Step (β := ColumnBindingMap) RefCursor.eager (metadataSpec cells rows) c.place
        (.number c.rowNumber.1) c.rowNumber.2.place ∧ CursorOver rows c.rowNumber.2 := by
  unfold MetadataCursor.rowNumber
  rcases h.current hne with ⟨k, row, hk, hrow, hcursor, _⟩ | ⟨hend, hlen, _⟩
  · have hlt := (List.getElem?_eq_some_iff.mp hrow).1
    rw [if_neg (by simp [h.executed, h.metaVector]; omega)]
    refine ⟨.number fun _ => ?_, h⟩
    simp [hk, hcursor]
  · rw [if_pos (by simp [h.metaVector, hlen])]
    refine ⟨.number fun _ => ?_, h.diag _⟩
    rw [hend]
    rfl

/-- The calls on the cursor of an executed query. -/
inductive MetadataStep (cells : Cells α) :
    MetadataCursor α → CursorEvent → MetadataCursor α → Prop where
  | fetch (c : MetadataCursor α) (b : ColumnBindingMap) :
      MetadataStep cells c (.fetch b (c.fetchRow cells b).1.1.fetch) (c.fetchRow cells b).2
  | look (c : MetadataCursor α) (l : Look) :
      MetadataStep cells c (.look l (c.readColumn cells l.1 l.2).1) (c.readColumn cells l.1 l.2).2
  | number (c : MetadataCursor α) : MetadataStep cells c (.number c.rowNumber.1) c.rowNumber.2

theorem CursorOver.step {c' : MetadataCursor α} {e : CursorEvent} (hne : rows ≠ [])
    (h : CursorOver rows c) (hs : MetadataStep cells c e c') :
    RefCursor.Step RefCursor.eager (metadataSpec cells rows) c.place e c'.place ∧
      CursorOver rows c' := by
  cases hs with
  | fetch b => exact h.fetchRow hne b
  | look l => exact h.readColumn hne l
  | number => exact h.rowNumber hne

end Metadata

/-! ## DataQuery -/

/-- A `DataQuery` over the rows of `sc`, at a place. -/
inductive DataAt (E : Env) (columns : List ColumnMeta) (sc : Script) :
    RefCursor.Place → DataQuery → Prop where
  | before {p : Position} {q : DataQuery} : Reading E p q → q.resultMeta = columns →
      p.rows = sc.delivered → p.stop ≠ .failed → p.cursor.curPos = 0 → p.cursor.rowVec ≠ [] →
      DataAt E columns sc .before q
  | on {p : Position} {q : DataQuery} {k : Nat} : Reading E p q → q.resultMeta = columns →
      p.rows = sc.delivered.drop k → p.stop ≠ .failed →
      p.cursor.curPos ≤ p.cursor.rowVec.length →
      (∃ row, p.cursor.current = some row ∧ 0 < k ∧ sc.delivered[k - 1]? = some row) →
      DataAt E columns sc (.on k) q
  | after {p : Position} {q : DataQuery} : Reading E p q → q.resultMeta = columns → p.rows = [] →
      p.stop = .finished → p.cursor.rowVec.length < p.cursor.curPos → DataAt E columns sc .after q
  | starving {q : DataQuery} : Starving q → DataAt E columns sc .after q

section Data

variable {E : Env} {columns : List ColumnMeta} {sc : Script} {place : RefCursor.Place}
  {q q' : DataQuery} {b : ColumnBindingMap} {l : Look} {v : Ret}

/-- The rows reached are the first rows of the result. -/
theorem delivered_getElem? {k : Nat} {row : Row} (h : sc.delivered[k]? = some row) :
    sc.rows[k]? = some row := by
  rw [sc.rows_eq, List.getElem?_append_left (List.getElem?_eq_some_iff.mp h).1]
  exact h

theorem Starving.quiet (h : Starving q) (hq : Quiet q q') : Starving q' := by
  obtain ⟨hc, ha, hqueue, ht⟩ := h
  refine ⟨?_, hq.hasAsyncFetch.trans ha, ?_, ?_⟩
  · rw [hq.cursor]
    exact hc
  · rw [hq.context]
    exact hqueue
  · rw [hq.threads]
    exact ht

theorem DataAt.quiet (h : DataAt E columns sc place q) (hq : Quiet q q')
    (hm : q'.resultMeta = q.resultMeta) : DataAt E columns sc place q' := by
  cases h with
  | before hr hcols h1 h2 h3 h4 => exact .before (hr.quiet hq) (hm.trans hcols) h1 h2 h3 h4
  | on hr hcols h1 h2 h3 h4 => exact .on (hr.quiet hq) (hm.trans hcols) h1 h2 h3 h4
  | after hr hcols h1 h2 h3 => exact .after (hr.quiet hq) (hm.trans hcols) h1 h2 h3
  | starving hs => exact .starving (hs.quiet hq)

theorem DataAt.threadStep (h : DataAt E columns sc place q) (hs : ThreadStep E q q') :
    DataAt E columns sc place q' := by
  have hm := hs.unread.resultMeta
  cases h with
  | before hr hcols h1 h2 h3 h4 => exact .before (hr.threadStep hs) (hm.trans hcols) h1 h2 h3 h4
  | on hr hcols h1 h2 h3 h4 => exact .on (hr.threadStep hs) (hm.trans hcols) h1 h2 h3 h4
  | after hr hcols h1 h2 h3 => exact .after (hr.threadStep hs) (hm.trans hcols) h1 h2 h3
  | starving hst => exact absurd hs hst.quiescent.not_threadStep

/-- `GetColumn` with the cursor on a row of its page. -/
theorem getColumn_row {c : TrinoCursor} {row : Row} (hc : q.cursor = some c)
    (hle : c.curPos ≤ c.rowVec.length) (hrow : c.Reads row) :
    (q.getColumn E.read l.1 l.2).1 = readData E.read q.resultMeta row l := by
  have hdata : c.hasData = true := c.hasData_iff.mpr hle
  simp only [DataQuery.getColumn, hc, hdata, if_true, readColumnToBuffer_eq hrow]
  rfl

/-- `GetColumn` with the cursor behind its page. -/
theorem getColumn_end {c : TrinoCursor} (hc : q.cursor = some c)
    (hlt : c.rowVec.length < c.curPos) : (q.getColumn E.read l.1 l.2).1 = (.error, []) := by
  simp [DataQuery.getColumn, hc, hasData_eq_false hlt]

theorem DataAt.shows (h : DataAt E columns sc place q) :
    (dataSpec E.read columns sc).Shows l (q.getColumn E.read l.1 l.2).1
      (RefCursor.eager place) := by
  have hend : WritesNothing (SqlResult.error, []) := writesNothing_nil nofun
  cases h with
  | @before p _ hr hcols hrows _ h0 hne =>
    obtain ⟨row, rows, hvec⟩ := List.exists_cons_of_ne_nil hne
    have hcur : p.cursor.current = some row := by
      rw [hr.aligned.current_eq, h0, hvec]
      rfl
    have hfirst : sc.delivered[0]? = some row := by
      rw [← hrows]
      simp [Position.rows, h0, hvec]
    have hval := getColumn_row (E := E) (l := l) hr.cursor (by omega)
      (TrinoCursor.reads_of_current hcur)
    show _ = _
    rw [hval, hcols]
    simp [dataSpec, delivered_getElem? hfirst]
  | @on p _ k hr hcols _ _ hle hrow =>
    obtain ⟨row, hcur, _, hk⟩ := hrow
    have hval := getColumn_row (E := E) (l := l) hr.cursor hle (TrinoCursor.reads_of_current hcur)
    show _ = _
    rw [hval, hcols]
    simp [dataSpec, delivered_getElem? hk]
  | after hr _ _ _ hlt =>
    rw [getColumn_end hr.cursor hlt]
    exact hend
  | starving hs =>
    obtain ⟨c, hc, _, hlt⟩ := hs.cursor
    rw [getColumn_end hc hlt]
    exact hend

/-- A call of `GetColumn` is a look of the eager cursor. -/
theorem DataAt.getColumn_call (h : DataAt E columns sc place q)
    (hcall : Call E q (.getColumn l.1 l.2) v q') : ∃ r : SqlResult × List Stored,
      v = .result r.1 r.2 ∧ (dataSpec E.read columns sc).Shows l r (RefCursor.eager place) ∧
        DataAt E columns sc place q' := by
  refine Call.rule (I := DataAt E columns sc place)
    (Φ := fun m q => m = .entered (.getColumn l.1 l.2) ∧ DataAt E columns sc place q)
    (J := fun v q => ∃ r : SqlResult × List Stored, v = .result r.1 r.2 ∧
      (dataSpec E.read columns sc).Shows l r (RefCursor.eager place) ∧
        DataAt E columns sc place q) ?_ ?_ ?_ ?_ ?_ ?_ hcall h
  · exact fun _ _ hI hs => hI.threadStep hs
  · exact fun _ hI => ⟨rfl, hI⟩
  · rintro m q m' q' ⟨rfl, _⟩ hs
    cases hs
  · exact fun _ _ _ hΦ hs => ⟨hΦ.1, hΦ.2.threadStep hs⟩
  · rintro m q v q' ⟨rfl, hat⟩ hs
    cases hs with
    | getColumn =>
      exact ⟨_, rfl, hat.shows, hat.quiet (quiet_getColumn _ _ _ _) (getColumn_resultMeta _ _ _ _)⟩
  · rintro v q q' ⟨r, hv, hshow, hat⟩ hs
    exact ⟨r, hv, hshow, hat.threadStep hs⟩

/-- A fetch that waits for a page that never comes does not return. -/
theorem fetch_starving (h : Starving q) (hcall : Call E q (.fetchNextRow b) v q') : False := by
  refine Call.rule (I := Starving)
    (Φ := fun m q => m = .entered (.fetchNextRow b) ∧ Starving q ∨
      m = .waiting b ∧ Quiescent q)
    (J := fun _ _ => False) ?_ ?_ ?_ ?_ ?_ ?_ hcall h
  · exact fun _ _ hI hs => absurd hs hI.quiescent.not_threadStep
  · exact fun _ hI => .inl ⟨rfl, hI⟩
  · rintro m q m' q' (⟨rfl, hst⟩ | ⟨rfl, hq⟩) hs
    · cases hs with
      | fetchRow _ _ hr => cases hr.event
      | fetchWait _ _ _ => exact .inr ⟨rfl, hst.quiescent⟩
    · cases hs with
      | pop hqueue =>
        rw [hq.1] at hqueue
        cases hqueue
  · rintro m q q' (⟨rfl, hst⟩ | ⟨rfl, hq⟩) hs
    · exact absurd hs hst.quiescent.not_threadStep
    · exact absurd hs hq.not_threadStep
  · rintro m q v q' (⟨rfl, hst⟩ | ⟨rfl, _⟩) hs
    · obtain ⟨c, hc, _, hlt⟩ := hst.cursor
      cases hs with
      | fetchNoCursor hn => rw [hc] at hn; cases hn
      | fetchRow hc' hle _ =>
        rw [hc, Option.some.injEq] at hc'
        subst hc'
        omega
      | fetchEnd _ _ ha => rw [hst.hasAsyncFetch] at ha; cases ha
    · cases hs
  · exact fun _ _ _ hJ _ => hJ

/-- A fetch that finds a row. -/
theorem fetch_row_place {p p' : Position} {k : Nat} {r : SqlResult} {stored : List Stored}
    (hr : Reading E p q) (hcols : q.resultMeta = columns) (hrows : p.rows = sc.delivered.drop k)
    (hstop : p.stop ≠ .failed) (hconv : ∀ row ∈ sc.delivered, Converts E.read columns row b)
    (hf : p.next = .row p') (hr' : Reading E p' q')
    (hd : RowDone E.read q p'.cursor b (.result r stored) q') :
    k < sc.delivered.length ∧ r.fetch = .row ∧ DataAt E columns sc (.on (k + 1)) q' := by
  obtain ⟨_, hstop', row, hcur, hnext⟩ := Position.next_row hr.aligned hf
  rw [hrows] at hnext
  have hlt : k < sc.delivered.length := by
    by_contra hge
    rw [List.drop_eq_nil_of_le (Nat.not_lt.mp hge)] at hnext
    cases hnext
  rw [List.drop_eq_getElem_cons hlt] at hnext
  obtain ⟨hrow, hrest⟩ := List.cons.inj hnext
  have hget : sc.delivered[k]? = some row := by
    rw [← hrow]
    exact List.getElem?_eq_getElem hlt
  have hres : r = .success := by
    have hvalue := hd.value
    rw [Ret.result.injEq] at hvalue
    have hreads := TrinoCursor.reads_of_current hcur
    rw [hvalue.1, rowResult_success_iff hreads, hcols]
    exact hconv row (List.mem_of_getElem? hget)
  have hle : p'.cursor.curPos ≤ p'.cursor.rowVec.length := by
    by_contra hgt
    have hnone := current_eq_none hr'.aligned (Nat.not_le.mp hgt)
    rw [hcur] at hnone
    cases hnone
  refine ⟨hlt, by rw [hres]; rfl, .on hr' (hd.resultMeta.trans hcols) hrest.symm ?_ hle ?_⟩
  · rw [hstop']
    exact hstop
  · exact ⟨row, hcur, Nat.succ_pos k, hget⟩

/-- A fetch from a position before `rows`: the next row, or the end. -/
theorem fetch_place {p : Position} {k : Nat} {r : SqlResult} {stored : List Stored}
    (hr : Reading E p q) (hcols : q.resultMeta = columns) (hrows : p.rows = sc.delivered.drop k)
    (hk : k ≤ sc.delivered.length) (hstop : p.stop ≠ .failed)
    (hconv : ∀ row ∈ sc.delivered, Converts E.read columns row b)
    (hcall : Call E q (.fetchNextRow b) (.result r stored) q') :
    k < sc.delivered.length ∧ r.fetch = .row ∧ DataAt E columns sc (.on (k + 1)) q' ∨
    k = sc.delivered.length ∧ r.fetch = .ended ∧ DataAt E columns sc .after q' := by
  have hpost := fetch_spec hr hcall
  generalize hv : Ret.result r stored = v at hpost
  generalize hf : p.next = f at hpost
  have hlast : (∀ p', p.next ≠ .row p') → p.rows = [] → k = sc.delivered.length := by
    intro _ hnil
    rw [hrows] at hnil
    have := List.drop_eq_nil_iff.mp hnil
    omega
  cases hpost with
  | row hr' hd =>
    rw [← hv] at hd
    exact .inl (fetch_row_place hr hcols hrows hstop hconv hf hr' hd)
  | @finished p' _ hr' hu =>
    have hno : ∀ p', p.next ≠ .row p' := by rw [hf]; nofun
    have hends := Position.next_ends hno
    rw [hf] at hends
    obtain ⟨hnil, hfin, rfl⟩ := hends
    cases hv
    refine .inr ⟨hlast hno hnil, rfl, .after hr' (hu.resultMeta.trans hcols) ?_ hfin ?_⟩
    · obtain ⟨hdrop, hrest⟩ := List.append_eq_nil_iff.mp hnil
      have hlen := List.drop_eq_nil_iff.mp hdrop
      refine List.append_eq_nil_iff.mpr ⟨?_, hrest⟩
      simp only [TrinoCursor.increment_rowVec, TrinoCursor.increment_curPos]
      exact List.drop_eq_nil_iff.mpr (by omega)
    · obtain ⟨hdrop, _⟩ := List.append_eq_nil_iff.mp hnil
      have hlen := List.drop_eq_nil_iff.mp hdrop
      simp only [TrinoCursor.increment_rowVec, TrinoCursor.increment_curPos]
      omega
  | emptyPage hst hu =>
    have hno : ∀ p', p.next ≠ .row p' := by rw [hf]; nofun
    have hends := Position.next_ends hno
    rw [hf] at hends
    cases hv
    exact .inr ⟨hlast hno hends.1, rfl, .starving hst⟩
  | failed _ _ _ _ =>
    have hends := Position.next_ends (p := p) (by rw [hf]; nofun)
    rw [hf] at hends
    exact absurd hends.2 hstop

/-- A call of `FetchNextRow` is a fetch of the eager cursor. -/
theorem DataAt.fetch_call {r : SqlResult} {stored : List Stored}
    (h : DataAt E columns sc place q)
    (hconv : ∀ row ∈ sc.delivered, Converts E.read columns row b)
    (hcall : Call E q (.fetchNextRow b) (.result r stored) q') :
    ∃ place', RefCursor.Step RefCursor.eager (dataSpec E.read columns sc) place
        (.fetch b r.fetch) place' ∧ DataAt E columns sc place' q' := by
  cases h with
  | before hr hcols hrows hstop _ _ =>
    rcases fetch_place hr hcols (by simpa using hrows) (Nat.zero_le _) hstop hconv hcall with
      ⟨hlt, hres, hat⟩ | ⟨heq, hres, hat⟩
    · exact ⟨_, hres ▸ .row hlt, hat⟩
    · exact ⟨_, hres ▸ .ended heq, hat⟩
  | on hr hcols hrows hstop _ hrow =>
    obtain ⟨row, _, hpos, hk⟩ := hrow
    have hlen := (List.getElem?_eq_some_iff.mp hk).1
    rcases fetch_place hr hcols hrows (by omega) hstop hconv hcall with
      ⟨hlt, hres, hat⟩ | ⟨heq, hres, hat⟩
    · exact ⟨_, hres ▸ .row hlt, hat⟩
    · exact ⟨_, hres ▸ .ended heq, hat⟩
  | @after p _ hr hcols hnil hstop _ =>
    rcases fetch_place (k := sc.delivered.length) hr hcols (by simpa using hnil) (Nat.le_refl _)
      (by rw [hstop]; nofun) hconv hcall with ⟨hlt, _⟩ | ⟨_, hres, hat⟩
    · exact absurd hlt (Nat.lt_irrefl _)
    · exact ⟨_, hres ▸ .ended rfl, hat⟩
  | starving hst => exact absurd hcall (fun hcall => fetch_starving hst hcall)

end Data

/-! ## One cursor -/

theorem Script.Succeeds.tailStop {sc : Script} (h : sc.Succeeds) : sc.tailStop ≠ .failed := by
  induction sc with
  | last page hf =>
    unfold Script.tailStop
    split
    · intro h
      cases h
    · intro h
      cases h
  | failed err => exact absurd h id
  | more page hn rest ih =>
    unfold Script.tailStop
    split
    · intro h
      cases h
    · exact ih h

/-- The page a script is opened at has rows, and no request behind it fails. -/
theorem Script.opened_rows {sc : Script} {page : QueryResult} {rest : Option Script}
    (h : sc.opened = .rows page rest) (hs : sc.Succeeds) :
    page.rows ≠ [] ∧ (Position.start page rest).stop ≠ .failed := by
  induction sc with
  | last page' hf =>
    unfold Script.opened at h
    split at h
    · cases h
    · rename_i hne
      cases h
      exact ⟨by simpa using hne, fun h => by cases h⟩
  | failed err => cases h
  | more page' hn rest' ih =>
    unfold Script.opened at h
    split at h
    · exact ih h hs
    · rename_i hne
      cases h
      exact ⟨by simpa using hne, Script.Succeeds.tailStop hs⟩

/-- The result of an `Execute`: the cursor over it, whether all of it arrives, and which bindings
its rows convert to. -/
structure Result where
  spec : CursorSpec
  Intact : Prop
  Converts : ColumnBindingMap → Prop

def Result.ofMetadata {α : Type} (cells : Cells α) (rows : List α) : Result :=
  ⟨metadataSpec cells rows, True, fun _ => True⟩

/-- `Execute` has succeeded. -/
inductive Executes (W : World) : Query → Result → Query → Prop where
  | data {E₀ : Env} {q₀ q : DataQuery} {sc : Script} {stored : List Stored} :
      Lts.Reachable (Step E₀) Fresh ⟨.idle, q₀⟩ → Answers W.env (firstRequest q₀) sc →
      Call W.env q₀ .execute (.result .success stored) q →
      Executes W (.data q₀)
        { spec := dataSpec W.env.read q.resultMeta sc
          Intact := q₀.request.nextToken = none ∧ sc.Succeeds
          Converts := fun b => ∀ row ∈ sc.delivered, Converts W.env.read q.resultMeta row b }
        (.data q)
  | tableMetadata {q : TableMetadataQuery} :
      (q.execute W.setting).1 = .success ∨ (q.execute W.setting).1 = .successWithInfo →
      Executes W (.tableMetadata q)
        (.ofMetadata (TableMetadataQuery.cells W.setting.puts) (q.answer W.setting))
        (.tableMetadata (q.execute W.setting).2)
  | columnMetadata {q : ColumnMetadataQuery} :
      (q.execute W.setting).1 = .success ∨ (q.execute W.setting).1 = .successWithInfo →
      Executes W (.columnMetadata q)
        (.ofMetadata (ColumnMetadataQuery.cells W.setting.puts) (q.answer W.setting))
        (.columnMetadata (q.execute W.setting).2)
  | typeInfo (q : TypeInfoQuery) :
      Executes W (.typeInfo q)
        (.ofMetadata (TypeInfoQuery.cells W.setting.puts) q.cursor.metaVector)
        (.typeInfo q.execute.2)

section Classes

variable {W : World} {Q' : Query} {e : CursorEvent} {es : List CursorEvent}

theorem tableMetadata_step {rows : List TableMeta} {q : TableMetadataQuery} (hne : rows ≠ [])
    (h : CursorOver rows q.cursor) (hs : CursorStep W (.tableMetadata q) e Q') :
    ∃ q', Q' = .tableMetadata q' ∧
      MetadataStep (TableMetadataQuery.cells W.setting.puts) q.cursor e q'.cursor := by
  have hex : ¬ q.cursor.executed = false := by simp [h.executed]
  have hvec : ¬ q.cursor.metaVector.isEmpty = true := by simpa [h.metaVector] using hne
  cases hs with
  | @fetch _ b _ hf =>
    cases hf with
    | tableMetadata _ =>
      refine ⟨_, rfl, ?_⟩
      have hrow : q.fetchNextRow W.setting.puts b = _ := (if_neg hex).trans (if_neg hvec)
      rw [hrow]
      exact .fetch _ b
  | @look _ l _ hl =>
    cases hl with
    | tableMetadata _ =>
      refine ⟨_, rfl, ?_⟩
      have hrow : q.getColumn W.setting.puts l.1 l.2 = _ := (if_neg hex).trans (if_neg hvec)
      rw [hrow]
      exact .look _ l
  | number => exact ⟨_, rfl, .number _⟩

theorem columnMetadata_step {rows : List ColumnMeta} {q : ColumnMetadataQuery}
    (h : CursorOver rows q.cursor) (hs : CursorStep W (.columnMetadata q) e Q') :
    ∃ q', Q' = .columnMetadata q' ∧
      MetadataStep (ColumnMetadataQuery.cells W.setting.puts) q.cursor e q'.cursor := by
  have hex : ¬ q.cursor.executed = false := by simp [h.executed]
  cases hs with
  | @fetch _ b _ hf =>
    cases hf with
    | columnMetadata _ =>
      refine ⟨_, rfl, ?_⟩
      have hrow : q.cursor.fetchNextRow (ColumnMetadataQuery.cells W.setting.puts) b = _ :=
        if_neg hex
      rw [ColumnMetadataQuery.fetchNextRow, hrow]
      exact .fetch _ b
  | @look _ l _ hl =>
    cases hl with
    | columnMetadata _ =>
      refine ⟨_, rfl, ?_⟩
      have hrow : q.cursor.getColumn (ColumnMetadataQuery.cells W.setting.puts) l.1 l.2 = _ :=
        if_neg hex
      rw [ColumnMetadataQuery.getColumn, hrow]
      exact .look _ l
  | number => exact ⟨_, rfl, .number _⟩

theorem typeInfo_step {rows : List ScalarType} {q : TypeInfoQuery}
    (h : CursorOver rows q.cursor) (hs : CursorStep W (.typeInfo q) e Q') :
    ∃ q', Q' = .typeInfo q' ∧
      MetadataStep (TypeInfoQuery.cells W.setting.puts) q.cursor e q'.cursor := by
  have hex : ¬ q.cursor.executed = false := by simp [h.executed]
  cases hs with
  | @fetch _ b _ hf =>
    cases hf with
    | typeInfo _ =>
      refine ⟨_, rfl, ?_⟩
      have hrow : q.cursor.fetchNextRow (TypeInfoQuery.cells W.setting.puts) b = _ := if_neg hex
      rw [TypeInfoQuery.fetchNextRow, hrow]
      exact .fetch _ b
  | @look _ l _ hl =>
    cases hl with
    | typeInfo _ =>
      refine ⟨_, rfl, ?_⟩
      have hrow : q.cursor.getColumn (TypeInfoQuery.cells W.setting.puts) l.1 l.2 = _ :=
        if_neg hex
      rw [TypeInfoQuery.getColumn, hrow]
      exact .look _ l
  | number => exact ⟨_, rfl, .number _⟩

theorem Ahead.cursorOver {α : Type} {rows : List α} {c : MetadataCursor α} (h : Ahead rows c) :
    CursorOver rows c ∧ c.place = .before :=
  ⟨⟨h.executed, h.metaVector, fun _ => h.cursor⟩, if_pos h.fetched⟩

/-- A class whose calls are those of its cursor is the eager cursor over its rows. -/
theorem eager_of_metadata {α γ : Type} {cells : Cells α} {rows : List α} (wrap : γ → Query)
    {cursor : γ → MetadataCursor α}
    (hstep : ∀ q e Q', CursorOver rows (cursor q) → CursorStep W (wrap q) e Q' →
      ∃ q', Q' = wrap q' ∧ MetadataStep cells (cursor q) e (cursor q'))
    (hne : rows ≠ []) {q : γ} (h : Ahead rows (cursor q))
    (hrun : Lts.Steps (CursorStep W) (wrap q) es Q') :
    ∃ p, Lts.Steps (RefCursor.Step RefCursor.eager (metadataSpec cells rows)) .before es p := by
  have hsim : ∀ Q e Q' p, (∃ q, Q = wrap q ∧ CursorOver rows (cursor q) ∧ p = (cursor q).place) →
      True → CursorStep W Q e Q' →
      ∃ p', RefCursor.Step RefCursor.eager (metadataSpec cells rows) p e p' ∧
        ∃ q, Q' = wrap q ∧ CursorOver rows (cursor q) ∧ p' = (cursor q).place := by
    rintro Q e Q' p ⟨q, rfl, hover, rfl⟩ _ hs
    obtain ⟨q', rfl, hs'⟩ := hstep q e Q' hover hs
    obtain ⟨hstep', hover'⟩ := hover.step hne hs'
    exact ⟨_, hstep', q', rfl, hover', rfl⟩
  obtain ⟨hover, hplace⟩ := h.cursorOver
  obtain ⟨p, hsteps, _⟩ := hrun.simulates hsim (fun _ _ => trivial) ⟨q, rfl, hover, hplace.symm⟩
  exact ⟨p, hsteps⟩

theorem data_step {columns : List ColumnMeta} {sc : Script} {place : RefCursor.Place}
    {q : DataQuery} (h : DataAt W.env columns sc place q)
    (hconv : ∀ b f, e = .fetch b f → ∀ row ∈ sc.delivered, Converts W.env.read columns row b)
    (hs : CursorStep W (.data q) e Q') :
    ∃ place', RefCursor.Step RefCursor.eager (dataSpec W.env.read columns sc) place e place' ∧
      ∃ q', Q' = .data q' ∧ DataAt W.env columns sc place' q' := by
  cases hs with
  | @fetch _ b _ hf =>
    cases hf with
    | data hcall =>
      obtain ⟨place', hstep, hat⟩ := h.fetch_call (hconv b _ rfl) hcall
      exact ⟨place', hstep, _, rfl, hat⟩
  | @look _ l r hl =>
    cases hl with
    | data hcall =>
      obtain ⟨r, hr, hshow, hat⟩ := h.getColumn_call hcall
      cases hr
      exact ⟨place, .look hshow, _, rfl, hat⟩
  | number =>
    refine ⟨place, .number nofun, _, rfl, ?_⟩
    have hq : Quiet q q.rowNumber.2 := by
      unfold DataQuery.rowNumber
      split
      · split
        · exact Quiet.refl q
        · exact quiet_addStatusRecord _ _
      · exact quiet_addStatusRecord _ _
    refine h.quiet hq ?_
    unfold DataQuery.rowNumber
    split
    · split <;> rfl
    · rfl

/-- `Execute` of a `DataQuery` leaves it before its first row. -/
theorem dataAt_execute {E E₀ : Env} {q₀ q : DataQuery} {sc : Script} {stored : List Stored}
    (hq : Lts.Reachable (Step E₀) Fresh ⟨.idle, q₀⟩) (ht : q₀.request.nextToken = none)
    (hsc : Answers E (firstRequest q₀) sc) (hs : sc.Succeeds)
    (h : Call E q₀ .execute (.result .success stored) q) :
    DataAt E q.resultMeta sc .before q := by
  obtain ⟨page, rest, ho, hr, _⟩ := execute_success (clean_of_tokenless hq ht) hsc h
  obtain ⟨hne, hstop⟩ := sc.opened_rows ho hs
  have hrows : (Position.start page rest).rows = sc.delivered := by
    unfold Script.delivered
    rw [ho]
  exact .before hr rfl hrows hstop rfl hne

/-- After `Execute` every class is the eager cursor over its result. -/
theorem Executes.eager {Q₀ Q : Query} {R : Result} (h : Executes W Q₀ R Q)
    (hne : R.spec.size ≠ 0) (hintact : R.Intact)
    (hconv : ∀ b f, .fetch b f ∈ es → R.Converts b) (hrun : Lts.Steps (CursorStep W) Q es Q') :
    ∃ p, Lts.Steps (RefCursor.Step RefCursor.eager R.spec) .before es p := by
  cases h with
  | @data E₀ q₀ q sc stored hreach hsc hcall =>
    have hat := dataAt_execute hreach hintact.1 hsc hintact.2 hcall
    obtain ⟨p, hsteps, _⟩ := hrun.simulates (P := fun e => ∀ b f, e = .fetch b f →
        ∀ row ∈ sc.delivered, Converts W.env.read q.resultMeta row b)
      (R := fun Q p => ∃ q', Q = .data q' ∧ DataAt W.env q.resultMeta sc p q')
      (fun Q e Q' p hR hP hs => by
        obtain ⟨q', rfl, hat'⟩ := hR
        exact data_step hat' hP hs)
      (fun e he b f hf => hconv b f (hf ▸ he)) ⟨q, rfl, hat⟩
    exact ⟨p, hsteps⟩
  | tableMetadata hok =>
    have hrows := List.length_pos_iff.mp (Nat.pos_of_ne_zero hne)
    exact eager_of_metadata Query.tableMetadata (fun q e Q' => tableMetadata_step hrows)
      hrows (TableMetadataQuery.execute_ahead hok) hrun
  | columnMetadata hok =>
    have hrows := List.length_pos_iff.mp (Nat.pos_of_ne_zero hne)
    exact eager_of_metadata Query.columnMetadata (fun q e Q' => columnMetadata_step)
      hrows (ColumnMetadataQuery.execute_ahead hok hrows) hrun
  | typeInfo q =>
    have hrows := List.length_pos_iff.mp (Nat.pos_of_ne_zero hne)
    exact eager_of_metadata Query.typeInfo (fun q e Q' => typeInfo_step) hrows
      (ahead_opened _ _) hrun

end Classes

/-- For every class, every result that arrives whole and every sequence of calls whose fetches
convert: the calls are those of the one cursor exactly when none of those before the first
`FetchNextRow` tells that the first row is already there. -/
theorem oneCursor_iff {W : World} {Q₀ Q Q' : Query} {R : Result} {es : List CursorEvent}
    (hexec : Executes W Q₀ R Q) (hne : R.spec.size ≠ 0) (hintact : R.Intact)
    (hconv : ∀ b f, .fetch b f ∈ es → R.Converts b) (hrun : Lts.Steps (CursorStep W) Q es Q') :
    RefCursor.Conforms R.spec es ↔
      ∀ e ∈ RefCursor.beforeFetch es, RefCursor.Harmless R.spec e := by
  obtain ⟨p, hsteps⟩ := hexec.eager hne hintact hconv hrun
  exact RefCursor.conforms_iff hsteps

section Examples

/-- A buffer for `SQLGetData`. -/
def dataBuffer : ApplicationDataBuffer :=
  { type := .char, buffer := some 300, buflen := 8, reslen := some 400 }

def threeRowsResult : Result where
  spec := dataSpec readAsText (threeRowsQuery 0).resultMeta threeRowsScript
  Intact := (none : Option String) = none ∧ threeRowsScript.Succeeds
  Converts := fun b => ∀ row ∈ threeRowsScript.delivered,
    Converts readAsText (threeRowsQuery 0).resultMeta row b

theorem threeRows_executes :
    Executes (textWorld threeRows) (.data { sql := "q" }) threeRowsResult
      (.data (threeRowsQuery 0)) :=
  have hfresh : Lts.Reachable (Step (textWorld threeRows).env) Fresh ⟨.idle, { sql := "q" }⟩ :=
    .of_init ⟨"q", none, rfl⟩
  .data hfresh (threeRows_answers _) threeRows_execute

/-- On the second row the second row is read. -/
theorem oneCursor_threeRows : RefCursor.Conforms threeRowsResult.spec
    ([.fetch (textSlot 0) .row, .fetch (textSlot 1) .row, .look (1, dataBuffer)
      (.success, [⟨1, dataBuffer, ⟨some [98, 0], some 1, .success⟩⟩])] : List CursorEvent) := by
  have h3 : Call (textWorld threeRows).env (threeRowsQuery 2) (.getColumn 1 dataBuffer)
      (.result .success [⟨1, dataBuffer, ⟨some [98, 0], some 1, .success⟩⟩]) (threeRowsQuery 2) :=
    replay_call [.call (.getColumn 1 dataBuffer), .main] rfl rfl
  have s1 : CursorStep (textWorld threeRows) (.data (threeRowsQuery 0)) (.fetch (textSlot 0) .row)
      (.data (threeRowsQuery 1)) := .fetch (.data threeRows_first)
  have s2 : CursorStep (textWorld threeRows) (.data (threeRowsQuery 1)) (.fetch (textSlot 1) .row)
      (.data (threeRowsQuery 2)) := .fetch (.data threeRows_second)
  have s3 : CursorStep (textWorld threeRows) (.data (threeRowsQuery 2)) (.look (1, dataBuffer)
      (.success, [⟨1, dataBuffer, ⟨some [98, 0], some 1, .success⟩⟩])) (.data (threeRowsQuery 2)) :=
    .look (.data h3)
  have hconv : ∀ i < 2, ∀ row ∈ threeRowsScript.delivered,
      Converts readAsText (threeRowsQuery 0).resultMeta row (textSlot i) := by decide
  have hrun : Lts.Steps (CursorStep (textWorld threeRows)) (.data (threeRowsQuery 0)) [_, _, _]
      (.data (threeRowsQuery 2)) := .cons s1 (.cons s2 (.cons s3 .refl))
  refine (oneCursor_iff threeRows_executes (by decide) ⟨rfl, trivial⟩ ?_ hrun).mpr
    (by simp [RefCursor.beforeFetch, RefCursor.Event.isFetch])
  intro b f hf
  simp only [List.mem_cons, RefCursor.Event.fetch.injEq, reduceCtorEq, List.not_mem_nil, or_false]
    at hf
  rcases hf with ⟨rfl, _⟩ | ⟨rfl, _⟩
  · exact hconv 0 (by decide)
  · exact hconv 1 (by decide)

/-- Before the first fetch, a `DataQuery` delivers the first row, and a `TypeInfoQuery` numbers
it. -/
theorem cursor_before_fetch :
    (∃ Q r,
        CursorStep (textWorld threeRows) (.data (threeRowsQuery 0)) (.look (1, dataBuffer) r) Q ∧
      r.1 = .success ∧
      ¬ RefCursor.Conforms threeRowsResult.spec ([.look (1, dataBuffer) r] : List CursorEvent)) ∧
    ∃ Q R, Executes (textWorld threeRows) (.typeInfo (.create 0)) R Q ∧
      CursorStep (textWorld threeRows) Q (.number 1) Q ∧
      ¬ RefCursor.Conforms R.spec ([.number 1] : List CursorEvent) := by
  constructor
  · have h : Call (textWorld threeRows).env (threeRowsQuery 0) (.getColumn 1 dataBuffer)
        (.result .success [⟨1, dataBuffer, ⟨some [97, 0], some 1, .success⟩⟩])
        (threeRowsQuery 0) := replay_call [.call (.getColumn 1 dataBuffer), .main] rfl rfl
    refine ⟨_, _, .look (.data h), rfl, ?_⟩
    rintro ⟨p, hrun⟩
    cases hrun with
    | cons hs _ =>
      cases hs with
      | look hsilent => exact hsilent.1 rfl
  · refine ⟨_, _, .typeInfo _, .number _, ?_⟩
    rintro ⟨p, hrun⟩
    cases hrun with
    | cons hs _ =>
      cases hs with
      | number hn => cases hn trivial

end Examples

end TrinoOdbc
