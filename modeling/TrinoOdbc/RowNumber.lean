import TrinoOdbc.Reexecute
import TrinoOdbc.RowStore

/-!
# TrinoOdbc.RowNumber

`RowNumber` against the position of the current row in the whole result.

The counter behind it is advanced by a `FetchNextRow` that succeeds, while the cursor is advanced by
every `FetchNextRow`; it is an `int`, and nothing sets it back to 0. `rowNumber_iff` says for which
queries and which fetches the two agree.
-/

namespace TrinoOdbc

open DataQuery

/-- The numbers seen from counter `n` on, one for each fetch; `oks` says which succeed. -/
def numbers (n : Int32) : List Bool → List Int
  | [] => []
  | ok :: oks =>
    let n' := if ok then n + 1 else n
    n'.toInt :: numbers n' oks

theorem ofNat_succ (n : Nat) : Int32.ofNat n + 1 = Int32.ofNat (n + 1) := by
  rw [Int32.ofNat_add]
  rfl

theorem toInt_ofNat_succ {n : Nat} (h : n < 2 ^ 31) :
    (Int32.ofNat (n + 1)).toInt = n + 1 ↔ n + 1 < 2 ^ 31 := by
  by_cases hlt : n + 1 < 2 ^ 31
  · have := Int32.toInt_ofNat_of_lt hlt
    omega
  · obtain rfl : n = 2 ^ 31 - 1 := by omega
    decide

/-- The numbers go up from `n + 1` in steps of one exactly when every fetch succeeds and the `int`
does not overflow. -/
theorem numbers_iff (oks : List Bool) :
    ∀ {n : Nat}, n < 2 ^ 31 →
      ((∀ (k : Nat) (i : Int), (numbers (Int32.ofNat n) oks)[k]? = some i → i = n + k + 1) ↔
        (∀ ok ∈ oks, ok = true) ∧ n + oks.length < 2 ^ 31) := by
  induction oks with
  | nil => intro n hn; simpa [numbers] using hn
  | cons ok oks ih =>
    intro n hn
    cases ok with
    | false =>
      have hfalse : (Int32.ofNat n).toInt = n := Int32.toInt_ofNat_of_lt hn
      refine ⟨fun h => ?_, fun h => ?_⟩
      · have := h 0 (Int32.ofNat n).toInt rfl
        omega
      · simp at h
    | true =>
      have hcons : numbers (Int32.ofNat n) (true :: oks) =
          (Int32.ofNat (n + 1)).toInt :: numbers (Int32.ofNat (n + 1)) oks := by
        rw [← ofNat_succ]
        rfl
      rw [hcons]
      by_cases hlt : n + 1 < 2 ^ 31
      · have hhead := (toInt_ofNat_succ hn).mpr hlt
        have hrest := ih hlt
        constructor
        · intro h
          have hall := hrest.mp fun k i hk => by
            have := h (k + 1) i (by simpa using hk)
            push_cast at this ⊢
            omega
          refine ⟨by simpa using hall.1, ?_⟩
          have := hall.2
          simp only [List.length_cons]
          omega
        · rintro ⟨hall, hlen⟩ k i hk
          cases k with
          | zero =>
            simp only [List.getElem?_cons_zero, Option.some.injEq] at hk
            rw [← hk, hhead]
            simp
          | succ k =>
            simp only [List.getElem?_cons_succ] at hk
            have := hrest.mpr ⟨fun ok ho => hall ok (List.mem_cons_of_mem _ ho), by
              simp only [List.length_cons] at hlen; omega⟩ k i hk
            push_cast at this ⊢
            omega
      · constructor
        · intro h
          have := h 0 _ rfl
          exact absurd ((toInt_ofNat_succ hn).mp (by simpa using this)) hlt
        · rintro ⟨_, hlen⟩
          simp only [List.length_cons] at hlen
          omega

/-- The rows of `fs` are numbered by their positions in the whole result, and before and behind the
rows the number is 0. -/
structure RowsNumbered (E : Env) (sc : Script) (q₁ : DataQuery) (fs : List RowFetch)
    (q₂ : DataQuery) : Prop where
  before : q₁.seen.2 = 0
  row : ∀ (k : Nat) (f : RowFetch), fs[k]? = some f →
    f.rowNumber = k + 1 ∧ sc.rows[k]? = some f.row
  after : ∀ b v q₃, Call E q₂ (.fetchNextRow b) v q₃ → q₃.seen.1 = none → q₃.seen.2 = 0

/-- In every run of `Execute` and fetches the rows are numbered right, as long as no conversion of a
bound column fails and the counter does not overflow, and only then. -/
def NumbersRows (E : Env) (sc : Script) (q : DataQuery) : Prop :=
  ∀ stored q₁ fs q₂, Call E q .execute (.result .success stored) q₁ → Fetches E q₁ fs q₂ →
    (RowsNumbered E sc q₁ fs q₂ ↔
      (∀ f ∈ fs, Converts E.read q₁.resultMeta f.row f.bindings) ∧ fs.length < 2 ^ 31)

section Numbers

variable {E : Env} {p : Position} {q q' : DataQuery} {fs : List RowFetch}

/-- The fetch of a row adds one to the counter exactly when the row converts. -/
theorem fetches_numbers (h : Fetches E q fs q') :
    ∀ {p : Position}, Reading E p q →
      fs.map RowFetch.rowNumber = numbers q.rowCounter
        (fs.map fun f => decide (Converts E.read q.resultMeta f.row f.bindings)) := by
  induction h with
  | nil => intro p _; rfl
  | @cons q q₁ q' f fs hcall hseen _ ih =>
    intro p hr
    rcases fetch_seen hr hcall with ⟨p₁, hnext, hr₁, hd⟩ | ⟨_, hnone⟩
    · rw [hr₁.seen, Prod.mk.injEq] at hseen
      obtain ⟨hrow, hnum⟩ := hseen
      have hdata : p₁.cursor.hasData = true := by
        by_contra hno
        have hlt : p₁.cursor.rowVec.length < p₁.cursor.curPos := by
          simpa [TrinoCursor.hasData] using hno
        rw [current_eq_none hr₁.aligned hlt] at hrow
        cases hrow
      have hcount := hd.rowCounter
      have herr : rowResult E.read q.resultMeta p₁.cursor f.bindings = .error ↔
          ¬ Converts E.read q.resultMeta f.row f.bindings :=
            rowResult_error_iff (TrinoCursor.reads_of_current hrow)
      rw [if_pos hdata] at hnum
      simp only [List.map_cons, numbers, ih hr₁, hd.resultMeta, ← hnum]
      by_cases hconv : Converts E.read q.resultMeta f.row f.bindings
      · rw [if_neg (fun he => herr.mp he hconv)] at hcount
        simp [hconv, hcount]
      · rw [if_pos (herr.mpr hconv)] at hcount
        simp [hconv, hcount]
    · rw [hnone] at hseen
      cases hseen

/-- A query that starts clean and at 0 numbers its rows. -/
theorem numbersRows_of_clean {sc : Script} (hc : Clean q) (hcount : q.rowCounter = 0)
    (hsc : Answers E (firstRequest q) sc) : NumbersRows E sc q := by
  intro stored q₁ fs q₂ hx hf
  obtain ⟨page, rest, ho, hr, hu⟩ := execute_success hc hsc hx
  have hzero : q₁.rowCounter = 0 := by rw [hu.rowCounter, discoverMeta_rowCounter, hcount]
  obtain ⟨p', hr', hrows, _⟩ := hf.reading hr
  have hsplit : sc.rows = fs.map RowFetch.row ++ (p'.rows ++
      ((sc.pages.dropWhile (·.rows.isEmpty)).dropWhile (!·.rows.isEmpty)).flatMap
        QueryResult.rows) := by
    rw [Script.rows_eq, Script.delivered, ho]
    simp only [hrows, List.append_assoc]
  have hafter : ∀ b v q₃, Call E q₂ (.fetchNextRow b) v q₃ → q₃.seen.1 = none →
      q₃.seen.2 = 0 := by
    intro b v q₃ hcall hnone
    rcases fetch_seen hr' hcall with ⟨p₁, hnext, hr₁, _⟩ | ⟨_, hseen⟩
    · obtain ⟨_, _, row, hcur, _⟩ := Position.next_row hr'.aligned hnext
      rw [hr₁.seen, hcur] at hnone
      cases hnone
    · rw [hseen]
  have hbefore : q₁.seen.2 = 0 := by
    rw [hr.seen, hzero]
    simp
  have hnums := fetches_numbers hf hr
  rw [hzero] at hnums
  have hiff := numbers_iff (fs.map fun f =>
    decide (Converts E.read q₁.resultMeta f.row f.bindings)) (n := 0) (by decide)
  have h0 : Int32.ofNat 0 = 0 := rfl
  rw [h0, ← hnums] at hiff
  simp only [List.mem_map, forall_exists_index, and_imp, forall_apply_eq_imp_iff₂,
    decide_eq_true_eq, List.length_map, Nat.zero_add, List.getElem?_map] at hiff
  rw [← hiff]
  constructor
  · intro hn k i hk
    obtain ⟨f, hfk, rfl⟩ := Option.map_eq_some_iff.mp hk
    rw [(hn.row k f hfk).1]
    simp
  · intro hall
    refine ⟨hbefore, fun k f hfk => ⟨?_, ?_⟩, hafter⟩
    · have := hall k f.rowNumber (by rw [hfk]; rfl)
      rw [this]
      simp
    · have hlt := (List.getElem?_eq_some_iff.mp hfk).1
      rw [hsplit, List.getElem?_append_left (by simpa using hlt), List.getElem?_map, hfk]
      rfl

end Numbers

/-! ## Queries that are not clean -/

/-- A service that answers a first request and one with a token with different last pages. -/
def otherPage (read : ReadToBuffer) (page other : QueryResult) : Env where
  read
  query req o := o = .success (if req.nextToken = none then page else other)
  cancel _ _ := False

section Token

variable {E : Env} {q q' : DataQuery} {v : Ret}

/-- In an `Execute` whose requests do not fail. -/
inductive InExecute : Main → Prop where
  | entered : InExecute (.entered .execute)
  | closing : InExecute (.closing .execute)
  | requesting : InExecute .requesting

theorem execute_other (page : QueryResult)
    (hE : ∀ req o, req.nextToken ≠ none → E.query req o → o = .success page)
    (hrows : page.rows ≠ []) (hlast : page.nextToken = "") (ht : q.request.nextToken ≠ none)
    (h : Call E q .execute v q') :
    v = .result .success [] ∧ q'.cursor = some { rowVec := page.rows } := by
  refine Call.rule (I := fun q => q.request.nextToken ≠ none)
    (Φ := fun m q => q.request.nextToken ≠ none ∧ InExecute m)
    (J := fun v q => v = .result .success [] ∧ q.cursor = some { rowVec := page.rows })
    ?_ ?_ ?_ ?_ ?_ ?_ h ht
  · exact fun _ _ hI hs => by rw [hs.keeps.request]; exact hI
  · exact fun _ hI => ⟨hI, .entered⟩
  · rintro m q m' q' ⟨ht, hat⟩ hs
    cases hat with
    | entered =>
      cases hs with
      | executeAgain _ => exact ⟨ht, .closing⟩
      | execute _ => exact ⟨ht, .requesting⟩
    | closing =>
      cases hs with
      | join _ => exact ⟨ht, .closing⟩
      | closedExecute _ => exact ⟨ht, .requesting⟩
    | requesting =>
      cases hs with
      | requestFailed ho => cases hE _ _ ht ho
      | requestSkip ho hr _ =>
        cases hE _ _ ht ho
        exact absurd hr hrows
  · exact fun _ _ _ hΦ hs => ⟨by rw [hs.keeps.request]; exact hΦ.1, hΦ.2⟩
  · rintro m q v q' ⟨ht, hat⟩ hs
    cases hat with
    | entered => cases hs
    | closing =>
      cases hs with
      | closed _ hk => cases hk
    | requesting =>
      cases hs with
      | requestEmpty ho hr _ =>
        cases hE _ _ ht ho
        exact absurd hr hrows
      | requestLast ho _ _ =>
        cases hE _ _ ht ho
        exact ⟨rfl, discoverMeta_cursor _ _⟩
      | requestFirst ho _ hn =>
        cases hE _ _ ht ho
        exact absurd hlast hn
  · exact fun _ _ _ hJ hs => ⟨hJ.1, hs.keeps.cursor.trans hJ.2⟩

/-- Progress and a bound for `Execute` in any state of the fetch thread. -/
def executeRank : Main → Nat
  | .entered _ => 3
  | .closing _ => 2
  | _ => 1

theorem disciplined_threadStep {m : Main} (h : Disciplined m q) (hs : ThreadStep E q q') :
    Disciplined m q' := by
  cases hs with
  | answer hi _ => exact disciplined_answer h hi
  | push hi hp => exact disciplined_push h hi hp

/-- `Execute` returns on every query, when every answer is a page with rows. -/
theorem execute_returns_rows (hE : Responsive E)
    (hrows : ∀ req o, E.query req o → ∃ r, o = .success r ∧ r.rows ≠ [])
    (hd : Disciplined .idle q) : Returns E q .execute := by
  refine Returns.rule (Φ := fun n m q => Disciplined m q ∧ InExecute m ∧
    n = executeRank m + joinWork q) ?_ ?_ ?_ ⟨hd.plain ⟨nofun, nofun, nofun, nofun⟩, .entered, rfl⟩
  · rintro n m q m' q' ⟨hd, hat, rfl⟩ hs
    have hd' := disciplined_advance hd hs
    cases hat with
    | entered =>
      cases hs with
      | executeAgain _ => exact ⟨_, Nat.add_lt_add_right (Nat.lt_succ_self 2) _, hd', .closing, rfl⟩
      | execute _ =>
        exact ⟨_, Nat.add_lt_add_right (by decide : 1 < 3) _, hd', .requesting, rfl⟩
    | closing =>
      cases hs with
      | join ht =>
        refine ⟨_, ?_, hd', .closing, rfl⟩
        simp [joinWork, ht, FetchThread.work]
      | closedExecute _ =>
        exact ⟨_, Nat.add_lt_add_right (Nat.lt_succ_self 1) _, hd', .requesting, rfl⟩
    | requesting =>
      cases hs with
      | requestFailed ho =>
        obtain ⟨r, hr, _⟩ := hrows _ _ ho
        cases hr
      | requestSkip ho hr _ =>
        obtain ⟨r, he, hne⟩ := hrows _ _ ho
        cases he
        exact absurd hr hne
  · rintro n m q q' ⟨hd, hat, rfl⟩ hs
    exact ⟨_, Nat.add_lt_add_left hs.work _, disciplined_threadStep hd hs, hat, rfl⟩
  · rintro n m q ⟨hd, hat, _⟩
    cases hat with
    | entered =>
      refine exists_step_of_mainStep ?_
      simp only [mainStep, enter]
      split <;> rfl
    | closing =>
      by_cases hans : FetchThread.started ∈ q.threads
      · obtain ⟨i, hi⟩ := List.mem_iff_getElem?.mp hans
        obtain ⟨o, ho⟩ := hE q.request
        exact ⟨_, _, .answer hi ho⟩
      · exact join_progress hd (.inl ⟨_, rfl⟩) hans
    | requesting =>
      obtain ⟨o, ho⟩ := hE q.request
      obtain ⟨⟨e, s'⟩, hs⟩ := Option.isSome_iff_exists.mp (onQuery_requesting_isSome q o)
      exact ⟨e, s', .query rfl ho hs⟩

/-- A fetch that finds its row on the page under the cursor. -/
theorem fetch_onPage {c : TrinoCursor} {b : ColumnBindingMap} (hc : q.cursor = some c)
    (hlt : c.curPos + 1 ≤ c.rowVec.length) (h : Call E q (.fetchNextRow b) v q') :
    q'.cursor = some c.increment.2 := by
  refine Call.rule (I := fun q => q.cursor = some c)
    (Φ := fun m q => m = .entered (.fetchNextRow b) ∧ q.cursor = some c)
    (J := fun _ q => q.cursor = some c.increment.2) ?_ ?_ ?_ ?_ ?_ ?_ h hc
  · exact fun _ _ hI hs => hs.keeps.cursor.trans hI
  · exact fun _ hI => ⟨rfl, hI⟩
  · rintro m q m' q' ⟨rfl, hc⟩ hs
    cases hs with
    | fetchRow _ _ hr => cases hr.event
    | fetchWait hc' hge _ => rw [hc] at hc'; cases hc'; omega
  · exact fun _ _ _ hΦ hs => ⟨hΦ.1, hs.keeps.cursor.trans hΦ.2⟩
  · rintro m q v q' ⟨rfl, hc⟩ hs
    cases hs with
    | fetchNoCursor hc' => rw [hc] at hc'; cases hc'
    | fetchRow hc' _ hr =>
      rw [hc] at hc'
      cases hc'
      exact hr.quiet.cursor
    | fetchEnd hc' hge _ => rw [hc] at hc'; cases hc'; omega
  · exact fun _ _ _ hJ hs => hs.keeps.cursor.trans hJ

theorem fetch_onPage_returns {c : TrinoCursor} {b : ColumnBindingMap} (hc : q.cursor = some c)
    (hlt : c.curPos + 1 ≤ c.rowVec.length) : Returns E q (.fetchNextRow b) := by
  refine Returns.rule (Φ := fun n m q => m = .entered (.fetchNextRow b) ∧ q.cursor = some c ∧
    n = joinWork q) ?_ ?_ ?_ ⟨rfl, hc, rfl⟩
  · rintro n m q m' q' ⟨rfl, hc, _⟩ hs
    cases hs with
    | fetchRow _ _ hr => cases hr.event
    | fetchWait hc' hge _ => rw [hc] at hc'; cases hc'; omega
  · rintro n m q q' ⟨rfl, hc, rfl⟩ hs
    exact ⟨_, hs.work, rfl, hs.keeps.cursor.trans hc, rfl⟩
  · rintro n m q ⟨rfl, hc, _⟩
    exact exists_step_of_mainStep (enterFetchNextRow_isSome _ _ _)

end Token

section Numbered

variable {E₁ : Env} {q : DataQuery}

/-- The page for a first request, and the page for a token. -/
def firstPage : QueryResult := { rows := [[]], nextToken := "", columnInfo := [] }

def tokenPage : QueryResult := { rows := [[.null]], nextToken := "", columnInfo := [] }

theorem otherPage_answers (read : ReadToBuffer) {req : QueryRequest} (hn : req.nextToken = none) :
    Answers (otherPage read firstPage tokenPage) req (.last firstPage rfl) := by
  intro o ho
  rw [show o = _ from ho, if_pos hn]
  rfl

/-- The first row delivered is the row of the other page if a token is left. -/
theorem tokenless_of_numbersRows {sc : Script} (hrows : sc.rows = [[]])
    (hnum : NumbersRows (otherPage E₁.read firstPage tokenPage) sc q) {v : Ret} {q₁ : DataQuery}
    (hx : Call (otherPage E₁.read firstPage tokenPage) q .execute v q₁) :
    q.request.nextToken = none := by
  by_contra hne
  obtain ⟨rfl, hc⟩ := execute_other tokenPage
    (fun req o hn ho => by rw [show o = _ from ho, if_neg hn]) (fun h => by cases h) rfl hne hx
  have hlt : ({ rowVec := tokenPage.rows } : TrinoCursor).curPos + 1 ≤ tokenPage.rows.length :=
    Nat.le_refl 1
  obtain ⟨w, q₂, hf⟩ := (fetch_onPage_returns (b := .empty) hc hlt).exists_call
  have hc₂ := fetch_onPage hc hlt hf
  have hseen : q₂.seen = (some [.null], q₂.seen.2) := by
    simp only [DataQuery.seen, hc₂]
    rfl
  have hfs : Fetches (otherPage E₁.read firstPage tokenPage) q₁
      [⟨.empty, w, [.null], q₂.seen.2⟩] q₂ := .cons hf hseen .nil
  have hconv : ∀ f ∈ [(⟨.empty, w, [.null], q₂.seen.2⟩ : RowFetch)],
      Converts E₁.read q₁.resultMeta f.row f.bindings := by
    intro f hmem i buffer _ _ hb
    rw [List.mem_singleton.mp hmem] at hb
    cases hb
  have hrow := ((hnum _ _ _ _ hx hfs).mpr ⟨hconv, by simp⟩).row 0 _ rfl
  rw [hrows] at hrow
  cases hrow.2

theorem startsOver_of_numbersRows (h : Lts.Reachable (Step E₁) Fresh ⟨.idle, q⟩)
    (hnum : NumbersRows (otherPage E₁.read firstPage tokenPage) (.last firstPage rfl) q) :
    q.request.nextToken = none ∧ q.rowCounter = 0 := by
  have hE : Responsive (otherPage E₁.read firstPage tokenPage) := fun _ => ⟨_, rfl⟩
  have hret : Returns (otherPage E₁.read firstPage tokenPage) q .execute :=
    execute_returns_rows hE (fun req o ho => by
      rw [show o = _ from ho]
      split
      · exact ⟨firstPage, rfl, fun h => by cases h⟩
      · exact ⟨tokenPage, rfl, fun h => by cases h⟩) (disciplined_reachable h)
  obtain ⟨v, q₁, hx⟩ := hret.exists_call
  have htok := tokenless_of_numbersRows rfl hnum hx
  refine ⟨htok, ?_⟩
  have hanswers := @otherPage_answers E₁.read (firstRequest q) rfl
  have hpost := execute_spec (clean_of_tokenless h htok) hanswers hx
  cases hpost with
  | rows hr hu =>
    have hbefore := ((hnum _ _ _ _ hx .nil).mpr ⟨by simp, by decide⟩).before
    rw [hr.seen, hu.rowCounter, discoverMeta_rowCounter] at hbefore
    simp only [Position.start, firstPage, TrinoCursor.hasData, Nat.zero_le, decide_true,
      if_true] at hbefore
    exact Int32.toInt_inj.mp hbefore

end Numbered

/-- `RowNumber` is the position in the whole result, for every service whose answer to a first
request is the first page, exactly when `Execute` finds no token in its request and the row counter
at 0. -/
theorem rowNumber_iff {E₁ : Env} {q : DataQuery}
    (h : Lts.Reachable (Step E₁) Fresh ⟨.idle, q⟩) :
    (∀ E sc, Responsive E → Answers E { queryString := q.sql, maxRows := q.maxRowPerPage } sc →
      NumbersRows E sc q) ↔
    q.request.nextToken = none ∧ q.rowCounter = 0 := by
  have hfirst := firstRequest_of_reachable h
  constructor
  · intro hall
    exact startsOver_of_numbersRows h (hall (otherPage E₁.read firstPage tokenPage)
      (.last firstPage rfl) (fun _ => ⟨_, rfl⟩) (otherPage_answers E₁.read rfl))
  · rintro ⟨htok, hcount⟩ E sc _ hsc
    exact numbersRows_of_clean (clean_of_tokenless h htok) hcount (by rw [hfirst]; exact hsc)

section Examples

theorem onePageService_answers (read : ReadToBuffer) (req : QueryRequest) :
    Answers (onePageService.env read) req (.last (onePage "1" "") rfl) :=
  fun _ ho => (Option.some.inj ho).symm

theorem rowNumber_fresh :
    NumbersRows (onePageService.env ignoreRead) (.last (onePage "1" "") rfl) { sql := "q" } := by
  have hreach : Lts.Reachable (Step (onePageService.env ignoreRead)) Fresh
      ⟨.idle, { sql := "q" }⟩ := .of_init ⟨"q", none, rfl⟩
  exact (rowNumber_iff hreach).mpr ⟨rfl, rfl⟩ _ _ (fun _ => ⟨_, rfl⟩) (onePageService_answers _ _)

/-- Executed again after its one row has been fetched: 1 before the first fetch, 2 on the first
row. -/
theorem rowNumber_again : ∃ q q₁ q₂,
    Lts.Reachable (Step (onePageService.env ignoreRead)) Fresh ⟨.idle, q⟩ ∧
    Call (onePageService.env ignoreRead) q .execute (.result .success []) q₁ ∧ q₁.seen.2 = 1 ∧
    Fetches (onePageService.env ignoreRead) q₁
      [⟨.empty, .result .success [], [.scalar "1"], 2⟩] q₂ ∧
    ¬ RowsNumbered (onePageService.env ignoreRead) (.last (onePage "1" "") rfl) q₁
      [⟨.empty, .result .success [], [.scalar "1"], 2⟩] q₂ := by
  have hfresh : Fresh ⟨.idle, { sql := "q" }⟩ := ⟨"q", none, rfl⟩
  refine ⟨_, _, _, replay_reachable
    [.call .execute, .main, .query, .call (.fetchNextRow .empty), .main] hfresh rfl,
    replay_call [.call .execute, .main, .main, .query] rfl rfl, rfl,
    .cons (replay_call [.call (.fetchNextRow .empty), .main] rfl rfl) rfl .nil, fun hn => ?_⟩
  have hone := (hn.row 0 _ rfl).1
  simp at hone

end Examples

end TrinoOdbc
