import TrinoOdbc.Paging
import TrinoOdbc.RowStore

/-!
# TrinoOdbc.SubQuery

The `DataQuery`s that the catalog functions run inside: a new query is executed, then its rows are
read by `while (FetchNextRow(bindings) == SUCCESS)`.

`Drains` is that loop over the two parties. `subQuery` is what it comes to as a function of the
script that answers the query (`subQuery_execute`, `drains_spec`, `exists_drains`), and the catalog
functions are built on it.
-/

namespace TrinoOdbc

open DataQuery

/-- The loop `while (FetchNextRow(b) == SUCCESS)`, with the rows it has stood on. -/
inductive Drains (E : Env) (b : ColumnBindingMap) : DataQuery → List Row → DataQuery → Prop where
  | stop {q q' : DataQuery} {r : SqlResult} {stored : List Stored} :
      Call E q (.fetchNextRow b) (.result r stored) q' → r ≠ .success → Drains E b q [] q'
  | row {q q₁ q' : DataQuery} {stored : List Stored} {row : Row} {rows : List Row} :
      Call E q (.fetchNextRow b) (.result .success stored) q₁ → q₁.seen.1 = some row →
      Drains E b q₁ rows q' → Drains E b q (row :: rows) q'

/-- A new query after `Execute` and the loop: the result of `Execute`, the columns, and the rows the
loop has read. -/
structure SubQuery where
  result : SqlResult
  columns : List ColumnMeta
  rows : List Row

def subQuery (read : ReadToBuffer) (b : ColumnBindingMap) (sc : Script) : SubQuery :=
  match sc.opened with
  | .rows page _ =>
    let columns := page.columnInfo.map ColumnMeta.readMetadata
    ⟨.success, columns, sc.delivered.takeWhile fun row => Converts read columns row b⟩
  | .noData => ⟨.noData, [], []⟩
  | .failed => ⟨.error, [], []⟩

section Drain

variable {E : Env} {p : Position} {q q' q₁ : DataQuery} {b : ColumnBindingMap} {rows : List Row}
  {sc : Script} {v : Ret}

/-- The loop reads the rows still to come up to the first that does not convert. -/
theorem drains_spec (h : Drains E b q rows q') :
    ∀ {p : Position}, Reading E p q →
      rows = p.rows.takeWhile fun row => Converts E.read q.resultMeta row b := by
  induction h with
  | @stop q q' r stored hcall hne =>
    intro p hr
    rcases fetch_seen hr hcall with ⟨p₁, hn, hr₁, hd⟩ | ⟨hn, _⟩
    · obtain ⟨_, _, row, hcur, hrows⟩ := Position.next_row hr.aligned hn
      have hval := hd.value
      rw [Ret.result.injEq] at hval
      have hno : ¬ Converts E.read q.resultMeta row b := fun hc =>
        hne (hval.1.trans ((rowResult_success_iff (TrinoCursor.reads_of_current hcur)).mpr hc))
      rw [hrows, List.takeWhile_cons, if_neg (by simpa using hno)]
    · have hends := Position.next_ends hn
      have hnil : p.rows = [] := by
        cases hf : p.next with
        | row p' => exact absurd hf (hn p')
        | finished p' => rw [hf] at hends; exact hends.1
        | emptyPage => rw [hf] at hends; exact hends.1
        | failed => rw [hf] at hends; exact hends.1
      rw [hnil, List.takeWhile_nil]
  | @row q q₁ q' stored row rows hcall hseen _ ih =>
    intro p hr
    rcases fetch_seen hr hcall with ⟨p₁, hn, hr₁, hd⟩ | ⟨_, hnone⟩
    · obtain ⟨_, _, row', hcur, hrows⟩ := Position.next_row hr.aligned hn
      obtain rfl : row' = row := by
        rw [hr₁.seen, hcur] at hseen
        exact Option.some.inj hseen
      have hval := hd.value
      rw [Ret.result.injEq] at hval
      have hconv : Converts E.read q.resultMeta row' b :=
        (rowResult_success_iff (TrinoCursor.reads_of_current hcur)).mp hval.1.symm
      have hrest := ih hr₁
      rw [hd.resultMeta] at hrest
      rw [hrows, List.takeWhile_cons, if_pos (by simpa using hconv), ← hrest]
    · rw [hnone] at hseen
      cases hseen

/-- The loop ends. -/
theorem exists_drains (hE : Responsive E) (b : ColumnBindingMap) :
    ∀ (n : Nat) {p : Position} {q : DataQuery}, p.rows.length = n → Reading E p q →
      ∃ rows q', Drains E b q rows q' := by
  intro n
  induction n with
  | zero =>
    intro p q hlen hr
    obtain ⟨v, q₁, hcall⟩ := (fetch_returns (b := b) hE hr).exists_call
    have hpost := fetch_spec hr hcall
    have hno : ∀ p', p.next ≠ .row p' := by
      intro p' hn
      obtain ⟨_, _, row, _, hrows⟩ := Position.next_row hr.aligned hn
      rw [hrows] at hlen
      cases hlen
    generalize p.next = f at hpost hno
    cases hpost with
    | row => exact absurd rfl (hno _)
    | finished _ _ => exact ⟨[], q₁, .stop hcall nofun⟩
    | emptyPage _ _ => exact ⟨[], q₁, .stop hcall nofun⟩
    | failed _ _ _ _ => exact ⟨[], q₁, .stop hcall nofun⟩
  | succ n ih =>
    intro p q hlen hr
    obtain ⟨v, q₁, hcall⟩ := (fetch_returns (b := b) hE hr).exists_call
    rcases fetch_seen hr hcall with ⟨p₁, hn, hr₁, hd⟩ | ⟨hn, _⟩
    · obtain ⟨_, _, row, hcur, hrows⟩ := Position.next_row hr.aligned hn
      have hval := hd.value
      subst hval
      by_cases hres : rowResult E.read q.resultMeta p₁.cursor b = .success
      · obtain ⟨rows, q', hrest⟩ := ih (by rw [hrows] at hlen; simpa using hlen) hr₁
        rw [hres] at hcall
        exact ⟨row :: rows, q', .row hcall (by rw [hr₁.seen, hcur]) hrest⟩
      · exact ⟨[], q₁, .stop hcall hres⟩
    · have hpost := fetch_spec hr hcall
      generalize p.next = f at hpost hn
      cases hpost with
      | row => exact absurd rfl (hn _)
      | finished _ _ => exact ⟨[], q₁, .stop hcall nofun⟩
      | emptyPage _ _ => exact ⟨[], q₁, .stop hcall nofun⟩
      | failed _ _ _ _ => exact ⟨[], q₁, .stop hcall nofun⟩

theorem readColumnMetadataVector_resultMeta (q : DataQuery) (vector : List ColumnInfo) :
    (q.readColumnMetadataVector vector).resultMeta = vector.map ColumnMeta.readMetadata := by
  unfold readColumnMetadataVector
  split
  · rename_i he
    rw [List.isEmpty_iff.mp he]
    rfl
  · rfl

/-- A new query is executed with the result of `subQuery`, and with its columns when there are rows
to read. -/
theorem subQuery_execute {sql : String} {n : Option Nat} {r : SqlResult} {stored : List Stored}
    (hsc : Answers E { queryString := sql, maxRows := n } sc)
    (h : Call E { sql := sql, maxRowPerPage := n } .execute (.result r stored) q) :
    r = (subQuery E.read b sc).result ∧ (r = .success →
      ∃ p, Reading E p q ∧ p.rows = sc.delivered ∧
        q.resultMeta = (subQuery E.read b sc).columns) := by
  have hreq : firstRequest { sql := sql, maxRowPerPage := n } =
      { queryString := sql, maxRows := n } := by
    cases n <;> rfl
  have hpost := execute_spec (clean_fresh sql n) (hreq ▸ hsc) h
  generalize hval : Ret.result r stored = val at hpost
  generalize ho : sc.opened = o at hpost
  unfold subQuery Script.delivered
  rw [ho]
  cases hpost with
  | @rows page rest _ hr hu =>
    cases hval
    refine ⟨rfl, fun _ => ⟨_, hr, rfl, ?_⟩⟩
    rw [hu.resultMeta]
    exact readColumnMetadataVector_resultMeta _ _
  | noData _ _ _ _ => cases hval; exact ⟨rfl, nofun⟩
  | failed _ _ _ _ => cases hval; exact ⟨rfl, nofun⟩

/-- The whole of it: in every order of the two parties, a new query that is executed with success
and drained reads the rows of `subQuery`. -/
theorem subQuery_drains {sql : String} {n : Option Nat} {stored : List Stored}
    (hsc : Answers E { queryString := sql, maxRows := n } sc)
    (h : Call E { sql := sql, maxRowPerPage := n } .execute (.result .success stored) q)
    (hd : Drains E b q rows q') : rows = (subQuery E.read b sc).rows := by
  obtain ⟨hres, hread⟩ := subQuery_execute (b := b) hsc h
  obtain ⟨p, hr, hrows, hcols⟩ := hread rfl
  rw [drains_spec hd hr, hrows, hcols]
  unfold subQuery at hres ⊢
  split
  · rfl
  · rename_i ho; rw [ho] at hres; cases hres
  · rename_i ho; rw [ho] at hres; cases hres

end Drain

end TrinoOdbc
