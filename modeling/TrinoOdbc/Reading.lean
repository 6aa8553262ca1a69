import TrinoOdbc.Call
import TrinoOdbc.Stream

/-!
# TrinoOdbc.Reading

The two parties of a `DataQuery` read the stream of a script.

`Reading E p q`: between two calls, `q` stands at position `p`, and the page behind it is on its way
through the fetch thread and the queue. `fetch_spec` and `execute_spec` say that a call of
`FetchNextRow` or `Execute` does on `q` what `Position.next` and `Script.opened` say, in whatever
order the two parties move; `fetch_returns` and `execute_returns` say that the calls return when the
service answers.
-/

namespace TrinoOdbc

open DataQuery

/-- The service answers `req`, and the requests for the pages behind it, as `sc` says. -/
def Answers (E : Env) (req : QueryRequest) : Script → Prop
  | .last page final => ∀ o, E.query req o → o = (Script.last page final).first
  | .failed error => ∀ o, E.query req o → o = (Script.failed error).first
  | .more page next rest => (∀ o, E.query req o → o = (Script.more page next rest).first) ∧
      Answers E { req with nextToken := some page.nextToken } rest

theorem Answers.first {E : Env} {req : QueryRequest} {sc : Script} {o : QueryOutcome}
    (h : Answers E req sc) (ho : E.query req o) : o = sc.first := by
  cases sc with
  | last page final => exact h o ho
  | failed error => exact h o ho
  | more page next rest => exact h.1 o ho

/-- The service answers every request. -/
def Responsive (E : Env) : Prop := ∀ req, ∃ o, E.query req o

/-- The first page of `sc` is on its way. -/
structure Incoming (E : Env) (sc : Script) (q : DataQuery) : Prop where
  answers : Answers E q.request sc
  slot : q.context.queue = [] ∧ q.threads = [.started] ∨
    q.context.queue = [] ∧ q.threads = [.answered sc.first] ∨
    q.context.queue = [sc.first] ∧ q.threads = [.finished]

/-- No page is left and none is on its way. -/
def Quiescent (q : DataQuery) : Prop :=
  q.context.queue = [] ∧ (q.threads = [] ∨ q.threads = [.finished])

def Behind (E : Env) (q : DataQuery) : Option Script → Prop
  | none => q.hasAsyncFetch = false ∧ Quiescent q
  | some sc => q.hasAsyncFetch = true ∧ Incoming E sc q

theorem Behind.of_eq {E : Env} {q q' : DataQuery} {rest : Option Script} (h : Behind E q rest)
    (ha : q'.hasAsyncFetch = q.hasAsyncFetch) (hr : q'.request = q.request)
    (hc : q'.context = q.context) (ht : q'.threads = q.threads) : Behind E q' rest := by
  cases rest with
  | none => exact ⟨by rw [ha]; exact h.1, by unfold Quiescent; rw [hc, ht]; exact h.2⟩
  | some sc =>
    refine ⟨by rw [ha]; exact h.1, by rw [hr]; exact h.2.answers, ?_⟩
    rw [hc, ht]
    exact h.2.slot

structure Reading (E : Env) (p : Position) (q : DataQuery) : Prop where
  result : q.result ≠ none
  cursor : q.cursor = some p.cursor
  aligned : p.cursor.Aligned
  behind : Behind E q p.rest

/-- `q'` is the same query with the same column metadata and row counter. -/
structure Unread (q q' : DataQuery) : Prop where
  sql : q'.sql = q.sql
  maxRowPerPage : q'.maxRowPerPage = q.maxRowPerPage
  resultMeta : q'.resultMeta = q.resultMeta
  resultMetaAvailable : q'.resultMetaAvailable = q.resultMetaAvailable
  rowCounter : q'.rowCounter = q.rowCounter

section Threads

variable {E : Env} {sc : Script} {p : Position} {q q' q'' : DataQuery}

theorem Unread.refl (q : DataQuery) : Unread q q := ⟨rfl, rfl, rfl, rfl, rfl⟩

theorem Unread.trans (h : Unread q q') (h' : Unread q' q'') : Unread q q'' :=
  ⟨h'.1.trans h.1, h'.2.trans h.2, h'.3.trans h.3, h'.4.trans h.4, h'.5.trans h.5⟩

theorem ThreadStep.unread (h : ThreadStep E q q') : Unread q q' := by
  cases h <;> exact ⟨rfl, rfl, rfl, rfl, rfl⟩

theorem Unread.discoverMeta (h : Unread q q') (r : QueryResult) :
    Unread (q.discoverMeta r) (q'.discoverMeta r) := by
  unfold DataQuery.discoverMeta
  rw [h.resultMetaAvailable]
  split
  · exact h
  · unfold readColumnMetadataVector
    split
    · exact ⟨h.sql, h.maxRowPerPage, rfl, h.resultMetaAvailable, h.rowCounter⟩
    · exact ⟨h.sql, h.maxRowPerPage, rfl, rfl, h.rowCounter⟩

/-- What a fetch thread leaves alone. -/
structure ThreadKeeps (q q' : DataQuery) : Prop where
  result : q'.result = q.result
  cursor : q'.cursor = q.cursor
  hasAsyncFetch : q'.hasAsyncFetch = q.hasAsyncFetch
  request : q'.request = q.request

theorem ThreadStep.keeps (h : ThreadStep E q q') : ThreadKeeps q q' := by
  cases h <;> exact ⟨rfl, rfl, rfl, rfl⟩

theorem getElem?_singleton {α : Type*} {a b : α} {i : Nat} (h : [a][i]? = some b) :
    i = 0 ∧ a = b := by
  cases i with
  | zero => exact ⟨rfl, by simpa using h⟩
  | succ i => simp at h

theorem Quiescent.not_threadStep (h : Quiescent q) : ¬ ThreadStep E q q' := by
  obtain ⟨_, ht⟩ := h
  intro hs
  cases hs with
  | answer hi _ | push hi _ =>
    rcases ht with ht | ht
    · simp [ht] at hi
    · rw [ht] at hi
      cases (getElem?_singleton hi).2

theorem Incoming.threadStep (h : Incoming E sc q) (hs : ThreadStep E q q') : Incoming E sc q' := by
  obtain ⟨ha, hslot⟩ := h
  cases hs with
  | @answer i o hi ho =>
    refine ⟨ha, .inr (.inl ?_)⟩
    obtain rfl := ha.first ho
    rcases hslot with ⟨hq, ht⟩ | ⟨_, ht⟩ | ⟨_, ht⟩
    · rw [ht] at hi ⊢
      obtain ⟨rfl, -⟩ := getElem?_singleton hi
      exact ⟨hq, rfl⟩
    · rw [ht] at hi
      cases (getElem?_singleton hi).2
    · rw [ht] at hi
      cases (getElem?_singleton hi).2
  | @push i o ctx hi hp =>
    refine ⟨ha, .inr (.inr ?_)⟩
    rcases hslot with ⟨_, ht⟩ | ⟨hq, ht⟩ | ⟨_, ht⟩
    · rw [ht] at hi
      cases (getElem?_singleton hi).2
    · rw [ht] at hi
      obtain ⟨rfl, he⟩ := getElem?_singleton hi
      cases he
      rcases asyncPush_cases hp with ⟨_, rfl⟩ | ⟨hne, _, _⟩
      · exact ⟨rfl, by rw [ht]; rfl⟩
      · exact absurd hq hne
    · rw [ht] at hi
      cases (getElem?_singleton hi).2

theorem Reading.threadStep (h : Reading E p q) (hs : ThreadStep E q q') : Reading E p q' := by
  have hk := hs.keeps
  refine ⟨by rw [hk.result]; exact h.result, by rw [hk.cursor]; exact h.cursor, h.aligned, ?_⟩
  have hb := h.behind
  cases hr : p.rest with
  | none =>
    rw [hr] at hb
    exact absurd hs hb.2.not_threadStep
  | some sc =>
    rw [hr] at hb
    exact ⟨by rw [hk.hasAsyncFetch]; exact hb.1, hb.2.threadStep hs⟩

theorem Reading.quiet (h : Reading E p q) (hq : Quiet q q') : Reading E p q' := by
  exact ⟨by rw [hq.result]; exact h.result, by rw [hq.cursor]; exact h.cursor, h.aligned,
    h.behind.of_eq hq.hasAsyncFetch hq.request hq.context hq.threads⟩

end Threads

/-! ## FetchNextRow -/

/-- `FetchNextRow` from position `p`: at its entry, in the wait, and with the page it popped. -/
inductive FetchAt (E : Env) (p : Position) (b : ColumnBindingMap) (q₀ : DataQuery) :
    Main → DataQuery → Prop where
  | entered {q : DataQuery} : Reading E p q → Unread q₀ q →
      FetchAt E p b q₀ (.entered (.fetchNextRow b)) q
  | waiting {q : DataQuery} {sc : Script} : p.rest = some sc →
      p.cursor.rowVec.length < p.cursor.curPos + 1 → q.result ≠ none →
      q.cursor = some p.cursor.increment.2 → q.hasAsyncFetch = true → Incoming E sc q →
      Unread q₀ q → FetchAt E p b q₀ (.waiting b) q
  | switching {q : DataQuery} {sc : Script} : p.rest = some sc →
      p.cursor.rowVec.length < p.cursor.curPos + 1 →
      q.cursor = some p.cursor.increment.2 → q.hasAsyncFetch = true → Answers E q.request sc →
      q.context.queue = [] → q.threads = [.finished] → Unread q₀ q →
      FetchAt E p b q₀ (.switching b sc.first) q

/-- A row has been fetched. -/
structure RowDone (read : ReadToBuffer) (q₀ : DataQuery) (c : TrinoCursor) (b : ColumnBindingMap)
    (v : Ret) (q : DataQuery) : Prop where
  value : v = .result (rowResult read q₀.resultMeta c b) (boundColumns read q₀.resultMeta c b).2.1
  sql : q.sql = q₀.sql
  maxRowPerPage : q.maxRowPerPage = q₀.maxRowPerPage
  resultMeta : q.resultMeta = q₀.resultMeta
  resultMetaAvailable : q.resultMetaAvailable = q₀.resultMetaAvailable
  rowCounter : q.rowCounter =
    if rowResult read q₀.resultMeta c b = .error then q₀.rowCounter else q₀.rowCounter + 1

/-- The cursor is behind its page, and the page that would have to come never will. -/
structure Starving (q : DataQuery) : Prop where
  cursor : ∃ c, q.cursor = some c ∧ c.Aligned ∧ c.rowVec.length < c.curPos
  hasAsyncFetch : q.hasAsyncFetch = true
  quiescent : Quiescent q

/-- What `FetchNextRow` has done, by what the position says. -/
inductive FetchPost (E : Env) (b : ColumnBindingMap) (q₀ : DataQuery) :
    Fetched → Ret → DataQuery → Prop where
  | row {p : Position} {v : Ret} {q : DataQuery} : Reading E p q →
      RowDone E.read q₀ p.cursor b v q → FetchPost E b q₀ (.row p) v q
  | finished {p : Position} {q : DataQuery} : Reading E p q → Unread q₀ q →
      FetchPost E b q₀ (.finished p) (.result .noData []) q
  | emptyPage {q : DataQuery} : Starving q → Unread q₀ q →
      FetchPost E b q₀ .emptyPage (.result .noData []) q
  | failed {q : DataQuery} : q.cursor = none → q.hasAsyncFetch = false → Quiescent q →
      Unread q₀ q → FetchPost E b q₀ .failed (.result .error []) q

section Fetch

variable {E : Env} {p : Position} {b : ColumnBindingMap} {q₀ q q' : DataQuery} {m m' : Main}
  {v : Ret} {f : Fetched}

theorem RowDone.unread {read : ReadToBuffer} {c : TrinoCursor} (h : RowDone read q₀ c b v q)
    (hu : Unread q q') : RowDone read q₀ c b v q' :=
  ⟨h.value, hu.sql.trans h.sql, hu.maxRowPerPage.trans h.maxRowPerPage,
    hu.resultMeta.trans h.resultMeta, hu.resultMetaAvailable.trans h.resultMetaAvailable,
    hu.rowCounter.trans h.rowCounter⟩

theorem RowRead.done {read : ReadToBuffer} {c : TrinoCursor}
    (h : RowRead read q c b (.ret v) q') (hu : Unread q₀ q) : RowDone read q₀ c b v q' := by
  have he := h.event
  have hc := h.rowCounter
  rw [hu.resultMeta] at he hc
  rw [hu.rowCounter] at hc
  simp only [Event.ret.injEq] at he
  exact ⟨he, h.quiet.sql.trans hu.sql, h.quiet.maxRowPerPage.trans hu.maxRowPerPage,
    h.resultMeta.trans hu.resultMeta, h.resultMetaAvailable.trans hu.resultMetaAvailable, hc⟩

theorem FetchPost.threadStep (h : FetchPost E b q₀ f v q) (hs : ThreadStep E q q') :
    FetchPost E b q₀ f v q' := by
  cases h with
  | row hr hd => exact .row (hr.threadStep hs) (hd.unread hs.unread)
  | finished hr hu => exact .finished (hr.threadStep hs) (hu.trans hs.unread)
  | emptyPage hst _ => exact absurd hs hst.quiescent.not_threadStep
  | failed _ _ hq _ => exact absurd hs hq.not_threadStep

theorem FetchAt.threadStep (h : FetchAt E p b q₀ m q) (hs : ThreadStep E q q') :
    FetchAt E p b q₀ m q' := by
  have hk := hs.keeps
  cases h with
  | entered hr hu => exact .entered (hr.threadStep hs) (hu.trans hs.unread)
  | waiting hp hlt hres hc ha hin hu =>
    exact .waiting hp hlt (by rw [hk.result]; exact hres) (by rw [hk.cursor]; exact hc)
      (by rw [hk.hasAsyncFetch]; exact ha) (hin.threadStep hs) (hu.trans hs.unread)
  | switching _ _ _ _ _ hq ht _ =>
    exact absurd hs (Quiescent.not_threadStep ⟨hq, .inr ht⟩)

theorem FetchAt.silent (h : FetchAt E p b q₀ m q) (hs : Advance E m q .tau m' q') :
    FetchAt E p b q₀ m' q' := by
  cases h with
  | entered hr hu =>
    cases hs with
    | fetchRow _ _ hrow => cases hrow.event
    | @fetchWait _ _ c hc hge ha =>
      obtain rfl : c = p.cursor := by
        have := hr.cursor
        rw [hc] at this
        exact Option.some.inj this
      have hb := hr.behind
      cases hp : p.rest with
      | none =>
        rw [hp] at hb
        rw [hb.1] at ha
        cases ha
      | some sc =>
        rw [hp] at hb
        exact .waiting hp hge hr.result rfl ha ⟨hb.2.answers, hb.2.slot⟩
          (hu.trans ⟨rfl, rfl, rfl, rfl, rfl⟩)
  | @waiting _ sc hp hlt _ hc ha hin hu =>
    cases hs with
    | pop hq =>
      rcases hin.slot with ⟨hn, _⟩ | ⟨hn, _⟩ | ⟨hn, ht⟩
      · rw [hn] at hq; cases hq
      · rw [hn] at hq; cases hq
      · rw [hn] at hq
        cases hq
        exact .switching hp hlt hc ha hin.answers rfl ht
          (hu.trans ⟨rfl, rfl, rfl, rfl, rfl⟩)
  | @switching _ sc hp hlt hc ha han hq ht hu =>
    rcases advance_switching_ret hs with ⟨v, hv⟩
    cases hv

/-- The page behind `p` has been popped; the rest of `SwitchCursor` does what `p.next` says. -/
theorem switching_ret {sc : Script} (hal : p.cursor.Aligned) (hp : p.rest = some sc)
    (hlt : p.cursor.rowVec.length < p.cursor.curPos + 1)
    (hc : q.cursor = some p.cursor.increment.2) (ha : q.hasAsyncFetch = true)
    (han : Answers E q.request sc) (hq : q.context.queue = []) (ht : q.threads = [.finished])
    (hu : Unread q₀ q) (hs : Advance E (.switching b sc.first) q (.ret v) .idle q') :
    FetchPost E b q₀ p.next v q' := by
  have hge : ¬ p.cursor.curPos + 1 ≤ p.cursor.rowVec.length := by omega
  have hstarve : ∀ (r : QueryResult) (record : DiagnosticRecord),
      Starving ({ q with result := some r }.addStatusRecord record) := fun _ _ =>
    ⟨⟨_, hc, hal.increment, by simpa using hlt⟩, ha, hq, .inr ht⟩
  cases sc with
  | last page final =>
    cases hs with
    | switchEmpty hr =>
      simp only [Position.next, if_neg hge, hp, hr, List.isEmpty_nil, if_true]
      exact .emptyPage (hstarve _ _) (hu.trans ⟨rfl, rfl, rfl, rfl, rfl⟩)
    | switchLast hr _ hrow =>
      simp only [Position.next, if_neg hge, hp, List.isEmpty_iff, if_neg hr]
      refine .row ?_ (hrow.done (hu.trans ⟨rfl, rfl, rfl, rfl, rfl⟩))
      have hread : Reading E ⟨.onFirst page.rows, none⟩
          { q.switchTo page with hasAsyncFetch := false } :=
        ⟨(fun h => by cases h), rfl, Position.onFirst_aligned _, rfl, hq, .inr ht⟩
      exact hread.quiet hrow.quiet
    | switchNext _ hn _ _ => exact absurd final hn
  | failed err =>
    cases hs with
    | switchError =>
      simp only [Position.next, if_neg hge, hp]
      exact .failed rfl rfl ⟨hq, .inr ht⟩ (hu.trans ⟨rfl, rfl, rfl, rfl, rfl⟩)
  | more page next rest =>
    cases hs with
    | switchEmpty hr =>
      simp only [Position.next, if_neg hge, hp, hr, List.isEmpty_nil, if_true]
      exact .emptyPage (hstarve _ _) (hu.trans ⟨rfl, rfl, rfl, rfl, rfl⟩)
    | switchLast _ hf _ => exact absurd hf next
    | @switchNext _ _ _ _ _ ts hr _ hts hrow =>
      simp only [Position.next, if_neg hge, hp, List.isEmpty_iff, if_neg hr]
      refine .row ?_ (hrow.done (hu.trans ⟨rfl, rfl, rfl, rfl, rfl⟩))
      obtain rfl : ts = [] := by
        rcases hts with ⟨_, rfl⟩ | hts
        · rfl
        · rw [ht] at hts
          cases hts
          rfl
      have hread : Reading E ⟨.onFirst page.rows, some rest⟩
          ({ q.switchTo page with threads := [] }.startFetch page.nextToken) :=
        ⟨(fun h => by cases h), rfl, Position.onFirst_aligned _, ha, han.2, .inl ⟨hq, rfl⟩⟩
      exact hread.quiet hrow.quiet

theorem FetchAt.ret (hal : p.cursor.Aligned) (h : FetchAt E p b q₀ m q)
    (hs : Advance E m q (.ret v) .idle q') : FetchPost E b q₀ p.next v q' := by
  cases h with
  | entered hr hu =>
    cases hs with
    | fetchNoCursor hc =>
      have := hr.cursor
      rw [hc] at this
      cases this
    | @fetchRow _ _ _ c _ hc hlt hrow =>
      obtain rfl : c = p.cursor := by
        have := hr.cursor
        rw [hc] at this
        exact Option.some.inj this
      simp only [Position.next, if_pos hlt]
      refine .row ?_ (hrow.done (hu.trans ⟨rfl, rfl, rfl, rfl, rfl⟩))
      have hread : Reading E { p with cursor := p.cursor.increment.2 }
          { q with cursor := some p.cursor.increment.2 } :=
        ⟨hr.result, rfl, hr.aligned.increment, hr.behind.of_eq rfl rfl rfl rfl⟩
      exact hread.quiet hrow.quiet
    | @fetchEnd _ _ c hc hge ha =>
      obtain rfl : c = p.cursor := by
        have := hr.cursor
        rw [hc] at this
        exact Option.some.inj this
      have hb := hr.behind
      cases hp : p.rest with
      | some sc =>
        rw [hp] at hb
        rw [hb.1] at ha
        cases ha
      | none =>
        rw [hp] at hb
        have hge' : ¬ p.cursor.curPos + 1 ≤ p.cursor.rowVec.length := by omega
        simp only [Position.next, if_neg hge', hp]
        refine .finished ⟨hr.result, rfl, hr.aligned.increment, ?_⟩
          (hu.trans ⟨rfl, rfl, rfl, rfl, rfl⟩)
        exact hb.of_eq rfl rfl rfl rfl
  | waiting => cases hs
  | switching hp hlt hc ha han hq ht hu => exact switching_ret hal hp hlt hc ha han hq ht hu hs

/-- A call of `FetchNextRow` on position `p` does what `p.next` says. -/
theorem fetch_spec (hr : Reading E p q) (h : Call E q (.fetchNextRow b) v q') :
    FetchPost E b q p.next v q' := by
  refine Call.rule (I := fun q₁ => Reading E p q₁ ∧ Unread q q₁) (Φ := FetchAt E p b q)
    (J := FetchPost E b q p.next) ?_ ?_ ?_ ?_ ?_ ?_ h ⟨hr, Unread.refl q⟩
  · exact fun _ _ hI hs => ⟨hI.1.threadStep hs, hI.2.trans hs.unread⟩
  · exact fun _ hI => .entered hI.1 hI.2
  · exact fun _ _ _ _ hΦ hs => hΦ.silent hs
  · exact fun _ _ _ hΦ hs => hΦ.threadStep hs
  · exact fun _ _ _ _ hΦ hs => hΦ.ret hr.aligned hs
  · exact fun _ _ _ hJ hs => hJ.threadStep hs

/-- The moves of the main thread before `FetchNextRow` returns. -/
def fetchRank : Main → Nat
  | .entered _ => 2
  | .waiting _ => 1
  | _ => 0

theorem FetchAt.rank (h : FetchAt E p b q₀ m q) (hs : Advance E m q .tau m' q') :
    fetchRank m' + joinWork q' < fetchRank m + joinWork q := by
  cases h with
  | entered _ _ =>
    cases hs with
    | fetchRow _ _ hrow => cases hrow.event
    | fetchWait _ _ _ => exact Nat.add_lt_add_right (Nat.lt_succ_self 1) _
  | waiting =>
    cases hs with
    | pop _ => exact Nat.add_lt_add_right (Nat.lt_succ_self 0) _
  | switching =>
    obtain ⟨v, hv⟩ := advance_switching_ret hs
    cases hv

theorem exists_step_of_mainStep (h : (mainStep E.read q m).isSome) :
    ∃ e s', Step E ⟨m, q⟩ e s' := by
  obtain ⟨⟨e, s'⟩, he⟩ := Option.isSome_iff_exists.mp h
  exact ⟨e, s', .main he⟩

theorem enterFetchNextRow_isSome (read : ReadToBuffer) (q : DataQuery) (b : ColumnBindingMap) :
    (q.enterFetchNextRow read b).isSome := by
  unfold enterFetchNextRow
  split
  · rfl
  · simp only
    split
    · exact readRow_isSome _ _ _
    · split <;> rfl

theorem switchCursor_isSome {o : QueryOutcome} (read : ReadToBuffer) (b : ColumnBindingMap)
    (ht : q.threads = [.finished]) : (q.switchCursor read b o).isSome := by
  cases o with
  | failure err => rfl
  | success r =>
    simp only [switchCursor, joinAndStart, ht]
    split
    · rfl
    · split
      · exact readRow_isSome _ _ _
      · exact readRow_isSome _ _ _

theorem FetchAt.progress (hE : Responsive E) (h : FetchAt E p b q₀ m q) :
    ∃ e s', Step E ⟨m, q⟩ e s' := by
  cases h with
  | entered _ _ => exact exists_step_of_mainStep (enterFetchNextRow_isSome _ _ _)
  | @waiting _ sc _ _ _ _ _ hin _ =>
    rcases hin.slot with ⟨_, ht⟩ | ⟨hq, ht⟩ | ⟨hq, _⟩
    · obtain ⟨o, ho⟩ := hE q.request
      exact ⟨_, _, .answer (i := 0) (by rw [ht]; rfl) ho⟩
    · have hp : asyncPush q.context sc.first = some { q.context with queue := [sc.first] } := by
        simp [asyncPush, hq]
      exact ⟨_, _, .push (i := 0) (by rw [ht]; rfl) hp⟩
    · exact exists_step_of_mainStep (by simp [mainStep, hq, goTo])
  | switching _ _ _ _ _ _ ht _ => exact exists_step_of_mainStep (switchCursor_isSome _ _ ht)

theorem fetch_returns (hE : Responsive E) (hr : Reading E p q) :
    Returns E q (.fetchNextRow b) := by
  refine Returns.rule (Φ := fun n m q₁ => FetchAt E p b q m q₁ ∧ n = fetchRank m + joinWork q₁)
    ?_ ?_ ?_ ⟨.entered hr (Unread.refl q), rfl⟩
  · rintro n m q₁ m' q' ⟨hat, rfl⟩ hs
    exact ⟨_, hat.rank hs, hat.silent hs, rfl⟩
  · rintro n m q₁ q' ⟨hat, rfl⟩ hs
    exact ⟨_, Nat.add_lt_add_left hs.work _, hat.threadStep hs, rfl⟩
  · rintro n m q₁ ⟨hat, -⟩
    exact hat.progress hE

end Fetch

/-! ## Execute -/

/-- Nothing of an earlier run is left that `Execute` would take over. -/
structure Clean (q : DataQuery) : Prop where
  nextToken : q.request.nextToken = none
  hasAsyncFetch : q.hasAsyncFetch = false
  quiescent : Quiescent q
  noResult : q.result = none → q.threads = [] ∧ q.cursor = none

/-- The first request of `Execute` on a query that is clean. -/
def firstRequest (q : DataQuery) : QueryRequest :=
  { queryString := q.sql, nextToken := none,
    maxRows := q.maxRowPerPage.orElse fun _ => q.request.maxRows }

/-- What the request loop of `Execute` has come to. -/
inductive ExecutePost (E : Env) (q₀ : DataQuery) : Opened → Ret → DataQuery → Prop where
  | rows {page : QueryResult} {rest : Option Script} {q : DataQuery} :
      Reading E (.start page rest) q → Unread (q₀.discoverMeta page) q →
      ExecutePost E q₀ (.rows page rest) (.result .success []) q
  | noData {q : DataQuery} : q.cursor = none → q.hasAsyncFetch = false → Quiescent q →
      Unread q₀ q → ExecutePost E q₀ .noData (.result .noData []) q
  | failed {q : DataQuery} : q.cursor = none → q.hasAsyncFetch = false → Quiescent q →
      Unread q₀ q → ExecutePost E q₀ .failed (.result .error []) q

/-- `Execute` with the answers of `sc`: at its entry, in `InternalClose`, in the request loop, and
closing after a request that failed. The number bounds the silent steps that are left. -/
inductive ExecuteAt (E : Env) (sc : Script) (q₀ : DataQuery) : Nat → Main → DataQuery → Prop where
  | entered {q : DataQuery} : Clean q → firstRequest q = firstRequest q₀ → Unread q₀ q →
      ExecuteAt E sc q₀ (sc.pages.length + q.threads.length + 4) (.entered .execute) q
  | closing {q : DataQuery} : q.request.nextToken = none → q.hasAsyncFetch = false →
      Quiescent q → firstRequest q = firstRequest q₀ → Unread q₀ q →
      ExecuteAt E sc q₀ (sc.pages.length + q.threads.length + 3) (.closing .execute) q
  | requesting {q : DataQuery} (sc' : Script) : Answers E q.request sc' → sc'.opened = sc.opened →
      q.hasAsyncFetch = false → q.context.queue = [] → q.threads = [] → q.cursor = none →
      Unread q₀ q → ExecuteAt E sc q₀ (sc'.pages.length + 2) .requesting q
  | failed {q : DataQuery} : sc.opened = .failed → q.hasAsyncFetch = false →
      q.context.queue = [] → q.threads = [] → Unread q₀ q →
      ExecuteAt E sc q₀ 1 (.closing .executeFailed) q

section Execute

variable {E : Env} {sc : Script} {q₀ q q' : DataQuery} {m m' : Main} {v : Ret} {n : Nat}

theorem firstRequest_eq_prepareRequest (h : q.request.nextToken = none) :
    q.prepareRequest.request = firstRequest q := by
  simp only [prepareRequest, firstRequest, h]

theorem ExecuteAt.not_threadStep (h : ExecuteAt E sc q₀ n m q) : ¬ ThreadStep E q q' := by
  cases h with
  | entered hc _ _ => exact hc.quiescent.not_threadStep
  | closing _ _ hq _ _ => exact hq.not_threadStep
  | requesting _ _ _ _ hq ht _ _ => exact Quiescent.not_threadStep ⟨hq, .inl ht⟩
  | failed _ _ hq ht _ => exact Quiescent.not_threadStep ⟨hq, .inl ht⟩

theorem ExecuteAt.silent (hsc : Answers E (firstRequest q₀) sc) (h : ExecuteAt E sc q₀ n m q)
    (hs : Advance E m q .tau m' q') : ∃ n' < n, ExecuteAt E sc q₀ n' m' q' := by
  cases h with
  | entered hc hf hu =>
    cases hs with
    | executeAgain _ =>
      exact ⟨_, Nat.lt_succ_self _, .closing (q := q.beginClose) hc.nextToken hc.hasAsyncFetch
        hc.quiescent hf (hu.trans ⟨rfl, rfl, rfl, rfl, rfl⟩)⟩
    | execute hr =>
      obtain ⟨ht, hcur⟩ := hc.noResult hr
      refine ⟨_, ?_, .requesting sc ?_ rfl hc.hasAsyncFetch hc.quiescent.1 ht hcur
        (hu.trans ⟨rfl, rfl, rfl, rfl, rfl⟩)⟩
      · omega
      · rw [firstRequest_eq_prepareRequest hc.nextToken, hf]
        exact hsc
  | closing htok ha hq hf hu =>
    cases hs with
    | @join _ _ ts ht =>
      refine ⟨_, ?_, .closing htok ha ⟨hq.1, .inl ?_⟩ hf (hu.trans ⟨rfl, rfl, rfl, rfl, rfl⟩)⟩
      · simp [ht]
      · rcases hq.2 with hn | hn
        · rw [hn] at ht; cases ht
        · rw [hn] at ht; cases ht; rfl
    | closedExecute ht =>
      refine ⟨_, ?_, .requesting sc ?_ rfl ha hq.1 ht rfl (hu.trans ⟨rfl, rfl, rfl, rfl, rfl⟩)⟩
      · omega
      · have hreq : q.endClose.prepareRequest.request = firstRequest q :=
          firstRequest_eq_prepareRequest htok
        rw [hreq, hf]
        exact hsc
  | requesting sc' han ho ha hq ht hcur hu =>
    cases hs with
    | requestFailed herr =>
      have hfirst := han.first herr
      cases sc' with
      | failed err =>
        exact ⟨_, by simp [Script.pages], .failed ho.symm ha hq ht
          (hu.trans ⟨rfl, rfl, rfl, rfl, rfl⟩)⟩
      | last page final => cases hfirst
      | more page next rest => cases hfirst
    | @requestSkip _ r hans hr hn =>
      have hfirst := han.first hans
      cases sc' with
      | failed err => cases hfirst
      | last page final =>
        cases hfirst
        exact absurd final hn
      | more page next rest =>
        cases hfirst
        refine ⟨_, ?_, .requesting rest han.2 ?_ ha hq ht hcur
          (hu.trans ⟨rfl, rfl, rfl, rfl, rfl⟩)⟩
        · simp [Script.pages]
        · rw [← ho]
          simp [Script.opened, hr]
  | failed ho ha hq ht hu =>
    cases hs with
    | join hn => rw [ht] at hn; cases hn

theorem ExecuteAt.ret (h : ExecuteAt E sc q₀ n m q) (hs : Advance E m q (.ret v) .idle q') :
    ExecutePost E q₀ sc.opened v q' := by
  cases h with
  | entered _ _ _ => cases hs
  | closing _ _ _ _ _ =>
    cases hs with
    | closed _ hk => cases hk
  | requesting sc' han ho ha hq ht hcur hu =>
    rw [← ho]
    cases hs with
    | @requestEmpty _ r hans hr hf =>
      have hfirst := han.first hans
      cases sc' with
      | failed err => cases hfirst
      | last page final =>
        cases hfirst
        simp only [Script.opened, hr, List.isEmpty_nil, if_true]
        exact .noData hcur ha ⟨hq, .inl ht⟩ (hu.trans ⟨rfl, rfl, rfl, rfl, rfl⟩)
      | more page next rest =>
        cases hfirst
        exact absurd hf next
    | @requestLast _ r hans hr hf =>
      have hfirst := han.first hans
      cases sc' with
      | failed err => cases hfirst
      | more page next rest =>
        cases hfirst
        exact absurd hf next
      | last page final =>
        cases hfirst
        simp only [Script.opened, List.isEmpty_iff, if_neg hr]
        have hread : Reading E (.start r none) (q.openPage r) :=
          ⟨(fun h => by cases h), rfl, TrinoCursor.aligned_start _, ha, hq, .inl ht⟩
        have hu' : Unread q₀ (q.openPage r) := hu.trans ⟨rfl, rfl, rfl, rfl, rfl⟩
        exact .rows (hread.quiet (quiet_discoverMeta _ _)) (hu'.discoverMeta r)
    | @requestFirst _ r hans hr hn =>
      have hfirst := han.first hans
      cases sc' with
      | failed err => cases hfirst
      | last page final =>
        cases hfirst
        exact absurd final hn
      | more page next rest =>
        cases hfirst
        simp only [Script.opened, List.isEmpty_iff, if_neg hr]
        have hread : Reading E (.start r (some rest)) (q.openFirst r) :=
          ⟨(fun h => by cases h), rfl, TrinoCursor.aligned_start _, rfl, han.2, .inl ⟨hq, by
            simp [openFirst, openPage, startFetch, setNextToken, ht]⟩⟩
        have hu' : Unread q₀ (q.openFirst r) := hu.trans ⟨rfl, rfl, rfl, rfl, rfl⟩
        exact .rows (hread.quiet (quiet_discoverMeta _ _)) (hu'.discoverMeta r)
  | failed ho ha hq ht hu =>
    cases hs with
    | closed _ hk =>
      cases hk
      rw [ho]
      exact .failed rfl ha ⟨hq, .inl ht⟩ (hu.trans ⟨rfl, rfl, rfl, rfl, rfl⟩)

theorem ExecutePost.threadStep {o : Opened} (h : ExecutePost E q₀ o v q)
    (hs : ThreadStep E q q') : ExecutePost E q₀ o v q' := by
  cases h with
  | rows hr hu => exact .rows (hr.threadStep hs) (hu.trans hs.unread)
  | noData _ _ hq _ => exact absurd hs hq.not_threadStep
  | failed _ _ hq _ => exact absurd hs hq.not_threadStep

/-- `Execute` of a clean query opens the script that answers its first request. -/
theorem execute_spec (hc : Clean q) (hsc : Answers E (firstRequest q) sc)
    (h : Call E q .execute v q') : ExecutePost E q sc.opened v q' := by
  refine Call.rule (I := fun q₁ => Clean q₁ ∧ firstRequest q₁ = firstRequest q ∧ Unread q q₁)
    (Φ := fun m q₁ => ∃ n, ExecuteAt E sc q n m q₁) (J := ExecutePost E q sc.opened)
    ?_ ?_ ?_ ?_ ?_ ?_ h ⟨hc, rfl, Unread.refl q⟩
  · exact fun _ _ hI hs => absurd hs hI.1.quiescent.not_threadStep
  · exact fun _ hI => ⟨_, .entered hI.1 hI.2.1 hI.2.2⟩
  · intro m q₁ m' q' hΦ hs
    obtain ⟨n, hat⟩ := hΦ
    obtain ⟨n', _, hat'⟩ := hat.silent hsc hs
    exact ⟨n', hat'⟩
  · rintro m q₁ q' ⟨n, hat⟩ hs
    exact absurd hs hat.not_threadStep
  · rintro m q₁ v q' ⟨n, hat⟩ hs
    exact hat.ret hs
  · exact fun _ _ _ hJ hs => hJ.threadStep hs

theorem onQuery_requesting_isSome (q : DataQuery) (o : QueryOutcome) :
    (onQuery q o .requesting).isSome := by
  simp only [onQuery, makeRequestExecute]
  split
  · rfl
  · split
    · split <;> rfl
    · split <;> simp only [makeRequestFetch, startFetch, setNextToken] <;> split <;> rfl

theorem ExecuteAt.progress (hE : Responsive E) (h : ExecuteAt E sc q₀ n m q) :
    ∃ e s', Step E ⟨m, q⟩ e s' := by
  cases h with
  | entered _ _ _ =>
    refine exists_step_of_mainStep ?_
    simp only [mainStep, enter]
    split <;> rfl
  | closing _ _ hq _ _ =>
    refine exists_step_of_mainStep ?_
    rcases hq.2 with ht | ht <;> simp [mainStep, internalClose, ht, afterClose, goTo]
  | requesting _ _ _ _ _ _ _ _ =>
    obtain ⟨o, ho⟩ := hE q.request
    obtain ⟨⟨e, s'⟩, hs⟩ := Option.isSome_iff_exists.mp (onQuery_requesting_isSome q o)
    exact ⟨e, s', .query rfl ho hs⟩
  | failed _ _ _ ht _ =>
    exact exists_step_of_mainStep (by simp [mainStep, internalClose, ht, afterClose, retWith])

theorem execute_returns (hE : Responsive E) (hc : Clean q) (hsc : Answers E (firstRequest q) sc) :
    Returns E q .execute :=
  Returns.rule (fun _ _ _ _ _ hat hs => hat.silent hsc hs)
    (fun _ _ _ _ hat hs => absurd hs hat.not_threadStep) (fun _ _ _ hat => hat.progress hE)
    (ExecuteAt.entered hc rfl (Unread.refl q))

end Execute

end TrinoOdbc
