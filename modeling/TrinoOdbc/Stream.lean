import TrinoOdbc.Cursor

/-!
# TrinoOdbc.Stream

The row stream of one query, apart from threads and requests.

* `Script`: what the service answers to a query, page by page. Every page but the last has a next
  token; the answer may also break off with an error.
* `Position`: a cursor on one page with the pages behind it. `Position.next` is one fetch.
* `Script.opened`: the position before the first row, behind the leading pages without rows.
* `Position.rows`, `Position.stop`: the rows the fetches from a position reach, and how they end. A
  page without rows ends them, whatever comes behind it (`Script.delivered_eq_rows`).
-/

namespace TrinoOdbc

inductive Script where
  | last (page : QueryResult) (final : page.nextToken = "")
  | failed (error : QueryError)
  | more (page : QueryResult) (next : page.nextToken ≠ "") (rest : Script)

/-- How the fetches of a stream end: after its last page, at a page without rows, or with an
error. -/
inductive Stop where
  | finished | emptyPage | failed
  deriving DecidableEq, Repr

namespace Script

/-- The first answer. -/
def first : Script → QueryOutcome
  | .last page _ => .success page
  | .failed error => .failure error
  | .more page _ _ => .success page

def pages : Script → List QueryResult
  | .last page _ => [page]
  | .failed _ => []
  | .more page _ rest => page :: rest.pages

/-- No request fails. -/
def Succeeds : Script → Prop
  | .last _ _ => True
  | .failed _ => False
  | .more _ _ rest => rest.Succeeds

/-- The rows of all pages. -/
def rows (sc : Script) : List Row := sc.pages.flatMap QueryResult.rows

/-- The rows reached by switching from page to page. -/
def tailRows : Script → List Row
  | .last page _ => page.rows
  | .failed _ => []
  | .more page _ rest => if page.rows.isEmpty then [] else page.rows ++ rest.tailRows

def tailStop : Script → Stop
  | .last page _ => if page.rows.isEmpty then .emptyPage else .finished
  | .failed _ => .failed
  | .more page _ rest => if page.rows.isEmpty then .emptyPage else rest.tailStop

end Script

structure Position where
  cursor : TrinoCursor
  rest : Option Script

/-- What one fetch comes to. -/
inductive Fetched where
  | row (p : Position)
  | finished (p : Position)
  | emptyPage
  | failed

namespace Position

def next (p : Position) : Fetched :=
  if p.cursor.curPos + 1 ≤ p.cursor.rowVec.length then
    .row { p with cursor := p.cursor.increment.2 }
  else
    match p.rest with
    | none => .finished { p with cursor := p.cursor.increment.2 }
    | some (.last page _) =>
      if page.rows.isEmpty then .emptyPage else .row ⟨.onFirst page.rows, none⟩
    | some (.failed _) => .failed
    | some (.more page _ rest) =>
      if page.rows.isEmpty then .emptyPage else .row ⟨.onFirst page.rows, some rest⟩

/-- The rows still to come. -/
def rows (p : Position) : List Row :=
  p.cursor.rowVec.drop p.cursor.curPos ++ (p.rest.map Script.tailRows).getD []

def stop (p : Position) : Stop := (p.rest.map Script.tailStop).getD .finished

theorem onFirst_aligned (rows : List Row) : (TrinoCursor.onFirst rows).Aligned :=
  (TrinoCursor.aligned_start rows).increment

theorem rows_onFirst (row : Row) (rows : List Row) (rest : Option Script) :
    (⟨.onFirst (row :: rows), rest⟩ : Position).rows =
      rows ++ (rest.map Script.tailRows).getD [] := rfl

/-- A page switched to gives its first row, and leaves the others and the answers after it. -/
theorem page_row {p : Position} {script : Script} {page : QueryResult} {rest : Option Script}
    (hdrop : p.cursor.rowVec.drop p.cursor.curPos = []) (hscript : p.rest = some script)
    (hrows : script.tailRows = page.rows ++ (rest.map Script.tailRows).getD [])
    (hstop : script.tailStop = (rest.map Script.tailStop).getD .finished)
    (hne : page.rows ≠ []) :
    (TrinoCursor.onFirst page.rows).Aligned ∧
      (⟨.onFirst page.rows, rest⟩ : Position).stop = p.stop ∧
      ∃ row, (TrinoCursor.onFirst page.rows).current = some row ∧
        p.rows = row :: (⟨.onFirst page.rows, rest⟩ : Position).rows := by
  obtain ⟨row, rs, hpage⟩ := List.exists_cons_of_ne_nil hne
  refine ⟨onFirst_aligned _, ?_, row, by rw [hpage]; rfl, ?_⟩
  · simp [stop, hscript, hstop]
  · rw [hpage, rows_onFirst]
    simp [rows, hdrop, hscript, hrows, hpage]

/-- A fetch that finds a row takes it from the front of the rows still to come. -/
theorem next_row {p p' : Position} (ha : p.cursor.Aligned) (h : p.next = .row p') :
    p'.cursor.Aligned ∧ p'.stop = p.stop ∧
      ∃ row, p'.cursor.current = some row ∧ p.rows = row :: p'.rows := by
  unfold next at h
  split at h
  · rename_i hlt
    cases h
    refine ⟨ha.increment, rfl, ?_⟩
    have hget : p.cursor.curPos < p.cursor.rowVec.length := by omega
    refine ⟨p.cursor.rowVec[p.cursor.curPos], ?_, ?_⟩
    · rw [ha.increment.current_eq]
      simp [hget]
    · simp only [rows, TrinoCursor.increment_rowVec, TrinoCursor.increment_curPos]
      rw [List.drop_eq_getElem_cons hget, List.cons_append]
  · rename_i hge
    have hdrop : p.cursor.rowVec.drop p.cursor.curPos = [] := List.drop_eq_nil_iff.mpr (by omega)
    split at h
    · cases h
    · rename_i page hf hrest
      split at h
      · cases h
      · rename_i hne
        cases h
        have hpage : page.rows ≠ [] := by simpa using hne
        exact page_row hdrop hrest (by simp [Script.tailRows])
          (by simp [Script.tailStop, hpage]) hpage
    · cases h
    · rename_i page hn rest hrest
      split at h
      · cases h
      · rename_i hne
        cases h
        have hpage : page.rows ≠ [] := by simpa using hne
        exact page_row hdrop hrest (by simp [Script.tailRows, hpage])
          (by simp [Script.tailStop, hpage]) hpage

/-- How a fetch that finds no row ends the stream. -/
def Ends (p : Position) : Fetched → Prop
  | .row _ => False
  | .finished p' =>
    p.rows = [] ∧ p.stop = .finished ∧ p' = { p with cursor := p.cursor.increment.2 }
  | .emptyPage => p.rows = [] ∧ p.stop = .emptyPage
  | .failed => p.rows = [] ∧ p.stop = .failed

theorem next_ends {p : Position} (h : ∀ p', p.next ≠ .row p') : p.Ends p.next := by
  unfold next at h ⊢
  split at h
  · exact absurd rfl (h _)
  · rename_i hge
    rw [if_neg hge]
    have hdrop : p.cursor.rowVec.drop p.cursor.curPos = [] := List.drop_eq_nil_iff.mpr (by omega)
    split at h
    · rename_i hrest
      simp [Ends, rows, stop, hdrop, hrest]
    · rename_i page hf hrest
      split at h
      · rename_i he
        simp [Ends, rows, stop, hdrop, hrest, Script.tailRows, Script.tailStop,
          List.isEmpty_iff.mp he]
      · exact absurd rfl (h _)
    · rename_i err hrest
      simp [Ends, rows, stop, hdrop, hrest, Script.tailRows, Script.tailStop]
    · rename_i page hn rest hrest
      split at h
      · rename_i he
        simp [Ends, rows, stop, hdrop, hrest, Script.tailRows, Script.tailStop,
          List.isEmpty_iff.mp he]
      · exact absurd rfl (h _)

end Position

/-- What the request loop of `Execute` comes to: its first page with rows and the pages behind it,
or none. -/
inductive Opened where
  | rows (page : QueryResult) (rest : Option Script)
  | noData
  | failed

/-- Before the first row of a page. -/
def Position.start (page : QueryResult) (rest : Option Script) : Position :=
  ⟨{ rowVec := page.rows }, rest⟩

namespace Script

def opened : Script → Opened
  | .last page _ => if page.rows.isEmpty then .noData else .rows page none
  | .failed _ => .failed
  | .more page _ rest => if page.rows.isEmpty then rest.opened else .rows page (some rest)

/-- The rows reached by opening the script and fetching to the end. -/
def delivered (sc : Script) : List Row :=
  match sc.opened with
  | .rows page rest => (Position.start page rest).rows
  | .noData => []
  | .failed => []

/-- Behind the leading pages without rows and the pages with rows that follow, no page has any. -/
def NoRowsAfterGap (sc : Script) : Prop :=
  ∀ page ∈ (sc.pages.dropWhile (·.rows.isEmpty)).dropWhile (!·.rows.isEmpty), page.rows = []

theorem tailRows_eq (sc : Script) :
    sc.tailRows = (sc.pages.takeWhile (!·.rows.isEmpty)).flatMap QueryResult.rows := by
  induction sc with
  | last page hf =>
    cases hr : page.rows with
    | nil => simp [tailRows, pages, hr]
    | cons row rows => simp [tailRows, pages, hr]
  | failed err => rfl
  | more page hn rest ih =>
    cases hr : page.rows with
    | nil => simp [tailRows, pages, hr]
    | cons row rows => simp [tailRows, pages, hr, ih]

theorem delivered_eq (sc : Script) :
    sc.delivered = ((sc.pages.dropWhile (·.rows.isEmpty)).takeWhile (!·.rows.isEmpty)).flatMap
      QueryResult.rows := by
  induction sc with
  | last page hf =>
    cases hr : page.rows with
    | nil => simp [delivered, opened, pages, hr]
    | cons row rows => simp [delivered, opened, pages, hr, Position.start, Position.rows]
  | failed err => rfl
  | more page hn rest ih =>
    cases hr : page.rows with
    | nil => simpa [delivered, opened, pages, hr] using ih
    | cons row rows =>
      simp [delivered, opened, pages, hr, Position.start, Position.rows, tailRows_eq]

/-- All rows are the rows before the gap and those behind it. -/
theorem rows_eq (sc : Script) :
    sc.rows = sc.delivered ++
      ((sc.pages.dropWhile (·.rows.isEmpty)).dropWhile (!·.rows.isEmpty)).flatMap
        QueryResult.rows := by
  have hlead : (sc.pages.takeWhile (·.rows.isEmpty)).flatMap QueryResult.rows = [] := by
    rw [List.flatMap_eq_nil_iff]
    intro page hp
    have hall := List.all_eq_true.mp List.all_takeWhile page hp
    simpa using hall
  rw [delivered_eq, ← List.flatMap_append, List.takeWhile_append_dropWhile, rows]
  conv_lhs => rw [← List.takeWhile_append_dropWhile (p := (·.rows.isEmpty)) (l := sc.pages)]
  rw [List.flatMap_append, hlead, List.nil_append]

/-- A reader reaches all rows exactly when no page has rows after a gap. -/
theorem delivered_eq_rows (sc : Script) : sc.delivered = sc.rows ↔ sc.NoRowsAfterGap := by
  rw [rows_eq, List.self_eq_append_right, List.flatMap_eq_nil_iff]
  rfl

end Script

end TrinoOdbc
