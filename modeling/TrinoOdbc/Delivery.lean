import TrinoOdbc.ColumnCatalog
import TrinoOdbc.Reexecute
import TrinoOdbc.Rowset

/-!
# TrinoOdbc.Delivery

The rows that a query of any class delivers, one `FetchNextRow` after the other.

`InFront rows Q`: the fetches from `Q` store `rows` and then return `NO_DATA` (`InFront.fetch`), and
return. `Sound` says which `Execute` puts a query in front of all rows of its result
(`Sound.inFront`).
-/

namespace TrinoOdbc

open DataQuery

/-- A row of a result: what its fetch stores through the bindings. -/
abbrev StoredRow := ColumnBindingMap → List Stored

def dataRow (read : ReadToBuffer) (columns : List ColumnMeta) (row : Row) : StoredRow :=
  fun b => storedCells read columns row b (List.range' 1 columns.length)

def metadataRow {α : Type} (cells : Cells α) (row : α) : StoredRow :=
  MetadataCursor.readBindings cells row

/-- The next fetch in front of `rows`. -/
def nextFetch (b : ColumnBindingMap) : List StoredRow → SqlResult × List Stored
  | [] => (.noData, [])
  | row :: _ => (.success, row b)

/-! ## Metadata queries -/

namespace MetadataCursor

variable {α : Type} {c : MetadataCursor α} {cells : Cells α} {b : ColumnBindingMap}

/-- The rows the next fetches find. -/
def remaining (c : MetadataCursor α) : List α :=
  c.metaVector.drop (if c.fetched then c.cursor + 1 else c.cursor)

theorem advance_remaining :
    c.advance.current = c.remaining.head? ∧ c.advance.remaining = c.remaining.tail := by
  unfold advance remaining current
  cases hf : c.fetched with
  | false => simp
  | true =>
    by_cases hlt : c.cursor < c.metaVector.length
    · simp [hlt]
    · have hend : c.metaVector.length ≤ c.cursor := Nat.not_lt.mp hlt
      simp [hlt, hf, Nat.le_succ_of_le hend]
      omega

/-- A fetch takes the first of the rows. -/
theorem fetchRow_remaining :
    (c.fetchRow cells b).1 = nextFetch b (c.remaining.map (metadataRow cells)) ∧
      (c.fetchRow cells b).2.remaining = c.remaining.tail ∧
      (c.fetchRow cells b).2.executed = c.executed := by
  obtain ⟨hcurrent, hrest⟩ := c.advance_remaining
  unfold fetchRow
  simp only [hcurrent]
  cases hrows : c.remaining with
  | nil =>
    rw [hrows] at hrest
    exact ⟨rfl, hrest, advance_executed⟩
  | cons row rest =>
    rw [hrows] at hrest
    exact ⟨rfl, hrest, advance_executed⟩

theorem fetchNextRow_remaining (cells : Cells α) (b : ColumnBindingMap) (h : c.executed = true) :
    (c.fetchNextRow cells b).1 = nextFetch b (c.remaining.map (metadataRow cells)) ∧
      (c.fetchNextRow cells b).2.remaining = c.remaining.tail ∧
      (c.fetchNextRow cells b).2.executed = true := by
  have hex : ¬ c.executed = false := by simp [h]
  unfold fetchNextRow
  rw [if_neg hex, ← h]
  exact fetchRow_remaining

end MetadataCursor

theorem Ahead.remaining {α : Type} {rows : List α} {c : MetadataCursor α} (h : Ahead rows c) :
    c.remaining = rows := by
  simp [MetadataCursor.remaining, h.fetched, h.cursor, h.metaVector]

theorem TableMetadataQuery.fetchNextRow_remaining {P : Puts} {q : TableMetadataQuery}
    {b : ColumnBindingMap} (h : q.cursor.executed = true) :
    (q.fetchNextRow P b).1 = nextFetch b (q.cursor.remaining.map (metadataRow (cells P))) ∧
      (q.fetchNextRow P b).2.cursor.remaining = q.cursor.remaining.tail ∧
      (q.fetchNextRow P b).2.cursor.executed = true := by
  rw [fetchNextRow_eq]
  split
  · rename_i hempty
    have hnil : q.cursor.remaining = [] := by simp [MetadataCursor.remaining, hempty.2]
    rw [hnil]
    exact ⟨rfl, rfl, h⟩
  · exact MetadataCursor.fetchNextRow_remaining (cells P) b h

/-! ## Scripts without gaps -/

namespace Script

/-- Every request succeeds, and behind the first page with rows every page has rows. -/
def Gapless (sc : Script) : Prop :=
  sc.Succeeds ∧ ∀ page ∈ sc.pages.dropWhile (·.rows.isEmpty), page.rows ≠ []

/-- Such a script is opened before all its rows, or has none. -/
theorem Gapless.opened {sc : Script} (h : sc.Gapless) :
    (sc.opened = .noData ∧ sc.rows = []) ∨
    ∃ page rest, sc.opened = .rows page rest ∧ (Position.start page rest).rows = sc.rows ∧
      (Position.start page rest).stop = .finished := by
  obtain ⟨hs, hp⟩ := h
  induction sc with
  | last page hf =>
    unfold Script.opened
    by_cases he : page.rows.isEmpty
    · rw [if_pos he]
      exact .inl ⟨rfl, by simpa [rows, pages] using he⟩
    · rw [if_neg he]
      exact .inr ⟨page, none, rfl, by simp [Position.start, Position.rows, rows, pages], rfl⟩
  | failed err => exact absurd hs id
  | more page hn rest ih =>
    unfold Script.opened
    by_cases he : page.rows.isEmpty
    · have hrows : (Script.more page hn rest).rows = rest.rows := by
        simp [rows, pages, List.isEmpty_iff.mp he]
      have hdrop : (Script.more page hn rest).pages.dropWhile (·.rows.isEmpty) =
          rest.pages.dropWhile (·.rows.isEmpty) := List.dropWhile_cons_of_pos he
      rw [if_pos he, hrows]
      exact ih hs fun page' hm => hp page' (by rw [hdrop]; exact hm)
    · have hdrop : (Script.more page hn rest).pages.dropWhile (·.rows.isEmpty) =
          page :: rest.pages := List.dropWhile_cons_of_neg he
      have hrest : rest.Full :=
        ⟨hs, fun page' hm => hp page' (by rw [hdrop]; exact List.mem_cons_of_mem _ hm)⟩
      obtain ⟨h1, h2⟩ := hrest.tail
      rw [if_neg he]
      exact .inr ⟨page, some rest, rfl, by
        simp [Position.start, Position.rows, rows, pages, h1], h2⟩

end Script

/-! ## All classes -/

namespace Query

/-- The next fetches through bindings of `B` store `rows`, and then find the end. -/
inductive InFront (W : World) (B : ColumnBindingMap → Prop) : List StoredRow → Query → Prop where
  | data {columns : List ColumnMeta} {rows : List Row} {Q : Query} : Before W columns rows Q →
      (∀ row ∈ rows, ∀ b, B b → Converts W.env.read columns row b) →
      InFront W B (rows.map (dataRow W.env.read columns)) Q
  | noCursor {q : DataQuery} : q.cursor = none → InFront W B [] (.data q)
  | tableMetadata {q : TableMetadataQuery} : q.cursor.executed = true →
      InFront W B (q.cursor.remaining.map (metadataRow (TableMetadataQuery.cells W.setting.puts)))
        (.tableMetadata q)
  | columnMetadata {q : ColumnMetadataQuery} : q.cursor.executed = true →
      InFront W B (q.cursor.remaining.map (metadataRow (ColumnMetadataQuery.cells W.setting.puts)))
        (.columnMetadata q)
  | typeInfo {q : TypeInfoQuery} : q.cursor.executed = true →
      InFront W B (q.cursor.remaining.map (metadataRow (TypeInfoQuery.cells W.setting.puts)))
        (.typeInfo q)
  | foreignKeys {q : ForeignKeysQuery} : InFront W B [] (.foreignKeys q)

variable {W : World} {B : ColumnBindingMap → Prop} {rows : List StoredRow} {Q Q' : Query}
  {b : ColumnBindingMap} {x : SqlResult × List Stored}

/-- One fetch. -/
theorem InFront.fetch (h : InFront W B rows Q) (hb : B b) (hf : Q.FetchNextRow W b x Q') :
    x = nextFetch b rows ∧ InFront W B rows.tail Q' := by
  cases h with
  | data hbefore hconv =>
    rcases hbefore.fetch hf with ⟨rfl, rfl, hbefore'⟩ | ⟨row, rest, rfl, hbefore', hval⟩
    · exact ⟨rfl, .data hbefore' nofun⟩
    · refine ⟨hval (hconv row List.mem_cons_self b hb), ?_⟩
      exact .data hbefore' fun row' hm => hconv row' (List.mem_cons_of_mem _ hm)
  | noCursor hc =>
    cases hf with
    | data hcall =>
      obtain ⟨hx, hc'⟩ := fetch_noCursor hc hcall
      cases hx
      exact ⟨rfl, .noCursor hc'⟩
  | tableMetadata hex =>
    cases hf with
    | tableMetadata q =>
      obtain ⟨hx, hrest, hex'⟩ :=
        TableMetadataQuery.fetchNextRow_remaining (P := W.setting.puts) (b := b) hex
      rw [← List.map_tail, ← hrest]
      exact ⟨hx, .tableMetadata hex'⟩
  | @columnMetadata q hex =>
    cases hf with
    | columnMetadata _ =>
      obtain ⟨hx, hrest, hex'⟩ :=
        MetadataCursor.fetchNextRow_remaining (ColumnMetadataQuery.cells W.setting.puts) b hex
      rw [← List.map_tail, ← hrest]
      exact ⟨hx, .columnMetadata (q := (q.fetchNextRow W.setting.puts b).2) hex'⟩
  | @typeInfo q hex =>
    cases hf with
    | typeInfo _ =>
      obtain ⟨hx, hrest, hex'⟩ :=
        MetadataCursor.fetchNextRow_remaining (TypeInfoQuery.cells W.setting.puts) b hex
      rw [← List.map_tail, ← hrest]
      exact ⟨hx, .typeInfo (q := (q.fetchNextRow W.setting.puts b).2) hex'⟩
  | foreignKeys =>
    cases hf with
    | foreignKeys q => exact ⟨rfl, .foreignKeys⟩

theorem InFront.returns (hE : Responsive W.env) (h : InFront W B rows Q) :
    Q.FetchReturns W b := by
  cases h with
  | data hbefore _ =>
    obtain ⟨p, d, rfl, hr, _⟩ := hbefore
    exact fetch_returns hE hr
  | noCursor hc => exact fetch_noCursor_returns hc
  | tableMetadata _ | columnMetadata _ | typeInfo _ | foreignKeys => trivial

/-- The row loop stores the next rows in slot after slot. -/
theorem InFront.fetchRows {i n : Nat} {rs : List (SqlResult × List Stored)}
    (hf : FetchRows W b i n Q rs Q') : ∀ {rows : List StoredRow}, InFront W B rows Q →
      (∀ j, i ≤ j → j < i + n → B (b.slot j)) →
      rs = rowOutcomes (fun j row => row (b.slot j)) i n rows ∧ InFront W B (rows.drop n) Q' := by
  induction hf with
  | done => exact fun h _ => ⟨by simp [rowOutcomes], h⟩
  | @row i n Q Q₁ Q' r rs hcall _ ih =>
    intro rows h hB
    obtain ⟨rfl, h'⟩ := h.fetch (hB i (Nat.le_refl i) (by omega)) hcall
    obtain ⟨rfl, hrest⟩ := ih h' fun j hle hlt => hB j (by omega) (by omega)
    cases rows with
    | nil => exact ⟨(rowOutcomes_nil _ _ _).symm, by simpa using hrest⟩
    | cons row rows =>
      have hrow := rowOutcomes_cons (fun j (row : StoredRow) => row (b.slot j)) i n row rows
      exact ⟨hrow.symm, hrest⟩

/-- The rows of the result of an `Execute`, as the service has them. -/
inductive Result (W : World) : Query → List StoredRow → Prop where
  | data {q : DataQuery} {sc : Script} : Answers W.env (firstRequest q) sc → sc.Succeeds →
      Result W (.data q) (sc.rows.map (dataRow W.env.read sc.columns))
  | tableMetadata {q : TableMetadataQuery} {rows : List TableMeta} :
      W.setting.wholeAnswer (q.search W.setting) = some rows → Result W (.tableMetadata q)
        (rows.map (metadataRow (TableMetadataQuery.cells W.setting.puts)))
  | columnMetadata {q : ColumnMetadataQuery} {rows : List ColumnMeta} :
      q.wholeAnswer W.setting = some rows → Result W (.columnMetadata q)
        (rows.map (metadataRow (ColumnMetadataQuery.cells W.setting.puts)))
  | typeInfo (q : TypeInfoQuery) : Result W (.typeInfo q)
      (q.cursor.metaVector.map (metadataRow (TypeInfoQuery.cells W.setting.puts)))
  | foreignKeys (q : ForeignKeysQuery) : Result W (.foreignKeys q) []

/-- What an `Execute` of a query needs for all rows of its result to be delivered: of a `DataQuery`,
no next token of an earlier result, pages without a gap whose columns are those that are known, and
rows that convert; of a catalog query, that every row is read, and for `ColumnMetadataQuery` also a
row, and rows from every `DESCRIBE`. -/
def Sound (W : World) (B : ColumnBindingMap → Prop) : Query → Prop
  | .data q => q.request.nextToken = none ∧ ∃ sc, Answers W.env (firstRequest q) sc ∧ sc.Gapless ∧
      (q.resultMetaAvailable = true → q.resultMeta = sc.columns) ∧
      ∀ row ∈ sc.rows, ∀ b, B b → Converts W.env.read sc.columns row b
  | .tableMetadata q => (W.setting.tables (q.search W.setting)).Full
  | .columnMetadata q => (q.columns W.setting).stopped = false ∧
      (q.columns W.setting).read ≠ [] ∧ (q.columns W.setting).Full
  | .typeInfo _ | .foreignKeys _ => True

/-- What holds of a query between two calls. -/
def Settled : Query → Prop
  | .data q => TrinoOdbc.Disciplined .idle q ∧ Kept .idle q
  | .columnMetadata q => q.tableMetadataQuery.allTableTypes = false
  | .tableMetadata _ | .typeInfo _ | .foreignKeys _ => True

theorem Sound.inFront_data {q q' : DataQuery} {r : SqlResult} {stored : List Stored}
    (hs : (Query.data q).Sound W B) (hset : (Query.data q).Settled)
    (h : Call W.env q .execute (.result r stored) q') :
    ∃ rows, Result W (.data q) rows ∧ InFront W B rows (.data q') := by
  obtain ⟨ht, sc, hsc, hgap, hmeta, hconv⟩ := hs
  have hpost := execute_spec (hset.2.clean hset.1 ht) hsc h
  refine ⟨_, .data hsc hgap.1, ?_⟩
  generalize hv : Ret.result r stored = v at hpost
  rcases hgap.opened with ⟨ho, hnil⟩ | ⟨page, rest, ho, hrows, hstop⟩
  · rw [ho] at hpost
    rw [hnil]
    cases hpost with
    | noData hc _ _ _ => exact .noCursor hc
  · rw [ho] at hpost
    have hcolumns : sc.columns = page.columnInfo.map ColumnMeta.readMetadata := by
      simp only [Script.columns, ho]
    cases hpost with
    | rows hr hu =>
      refine .data ⟨_, q', rfl, hr, hrows, hstop, ?_⟩ hconv
      rw [hu.resultMeta, hcolumns]
      exact discoverMeta_known fun ha => (hmeta ha).trans hcolumns

/-- An `Execute` that is not a failure puts the query in front of its result. -/
theorem Sound.inFront {r : SqlResult} (hs : Q.Sound W B) (hset : Q.Settled)
    (h : Q.Execute W r Q') (hok : r ≠ .error) :
    ∃ rows, Result W Q rows ∧ InFront W B rows Q' := by
  cases h with
  | data hcall => exact hs.inFront_data hset hcall
  | tableMetadata q =>
    have hreturned : ((q.execute W.setting).1 = .success ∨
        (q.execute W.setting).1 = .successWithInfo) ∧
          q.answer W.setting = (W.setting.tables (q.search W.setting)).read := by
      rw [q.execute_result] at hok ⊢
      cases q.request_follows W.setting with
      | stopped _ hr => exact absurd hr hok
      | warned _ hread hr hf => exact ⟨.inr hr, hf.trans hread.symm⟩
      | success _ hr hf => exact ⟨.inl hr, hf⟩
    have hahead := TableMetadataQuery.execute_ahead hreturned.1
    have hwhole : W.setting.wholeAnswer (q.search W.setting) = some (q.answer W.setting) := by
      rw [hreturned.2, ← Setting.tables_whole]
      exact (Listing.whole_eq_iff _).mpr hs
    refine ⟨_, .tableMetadata hwhole, ?_⟩
    rw [← hahead.remaining]
    exact .tableMetadata hahead.executed
  | columnMetadata q =>
    obtain ⟨hstop, hne, hfull⟩ := hs
    obtain ⟨hanswer, hahead⟩ := ColumnMetadataQuery.execute_listed hset hstop hne
    have hwhole : q.wholeAnswer W.setting = some (q.answer W.setting) := by
      rw [hanswer, ← ColumnMetadataQuery.columns_whole]
      exact (Listing.whole_eq_iff _).mpr hfull
    refine ⟨_, .columnMetadata hwhole, ?_⟩
    rw [← hahead.remaining]
    exact .columnMetadata hahead.executed
  | typeInfo q =>
    have hahead : Ahead q.cursor.metaVector q.execute.2.cursor := ahead_opened _ _
    refine ⟨_, .typeInfo q, ?_⟩
    rw [← hahead.remaining]
    exact .typeInfo hahead.executed
  | foreignKeys q => exact ⟨_, .foreignKeys q, .foreignKeys⟩

/-! ## Between two calls -/

theorem Settled.execute {r : SqlResult} (hset : Q.Settled) (h : Q.Execute W r Q') :
    Q'.Settled := by
  cases h with
  | data hcall => exact ⟨hcall.disciplined hset.1, hcall.kept hset.2⟩
  | columnMetadata q =>
    show (q.execute W.setting).2.tableMetadataQuery.allTableTypes = false
    rw [ColumnMetadataQuery.execute_tableMetadataQuery]
    exact hset
  | tableMetadata _ | typeInfo _ | foreignKeys _ => trivial

theorem Settled.fetch (hset : Q.Settled) (h : Q.FetchNextRow W b x Q') : Q'.Settled := by
  cases h with
  | data hcall => exact ⟨hcall.disciplined hset.1, hcall.kept hset.2⟩
  | columnMetadata q => exact hset
  | tableMetadata _ | typeInfo _ | foreignKeys _ => trivial

theorem Settled.fetchRows {i n : Nat} {rs : List (SqlResult × List Stored)}
    (hf : FetchRows W b i n Q rs Q') (hset : Q.Settled) : Q'.Settled := by
  induction hf with
  | done => exact hset
  | row hcall _ ih => exact ih (hset.fetch hcall)

theorem Settled.close {r : SqlResult} (hset : Q.Settled) (h : Q.Close W r Q') : Q'.Settled := by
  cases h with
  | data hcall => exact ⟨hcall.disciplined hset.1, hcall.kept hset.2⟩
  | columnMetadata q => exact hset
  | tableMetadata _ | typeInfo _ | foreignKeys _ => trivial

end Query

end TrinoOdbc
