import TrinoOdbc.Discipline

/-!
# TrinoOdbc.Waiting

When a `FetchNextRow` that waits for a page gets one.

`SwitchCursor` waits for the queue as soon as `hasAsyncFetch` is set, but the flag and the fetch
thread come apart at two places:

* a page without rows ends the fetch with `NO_DATA` and leaves the flag set, with no thread left to
  push another page;
* `InternalClose` leaves the flag set, so a later `Execute` whose result is one page finds it set
  although it starts no thread.

`Feeding` excludes exactly these two moves. In a run of other moves every wait is answered and
`NO_DATA` is the end until the next `Execute` (`waits_answered`); `emptyLastPage_starves` is such a
wait that is never answered.
-/

namespace TrinoOdbc

open DataQuery

/-- A page is in the queue or on its way there. -/
def PagePending (q : DataQuery) : Prop :=
  q.context.queue ≠ [] ∨ ∃ t ∈ q.threads, t.Unfinished

/-- The service answers the request of `Execute` with `o` in this step. -/
def AnswersExecute (E : Env) (s : State) (e : Event) (s' : State) (o : QueryOutcome) : Prop :=
  s.main = .requesting ∧ E.query s.query.request o ∧ s.query.makeRequestExecute o = some (e, s')

structure Feeding (E : Env) (s : State) (e : Event) (s' : State) : Prop where
  /-- `SwitchCursor` does not take a page without rows. -/
  switchCursor : ∀ b r, s.main = .switching b (.success r) → s'.main ≠ s.main → r.rows ≠ []
  /-- With the flag left set and nothing in the queue, the result of `Execute` has a next page. -/
  execute : ∀ r, AnswersExecute E s e s' (.success r) → r.rows ≠ [] → r.nextToken = "" →
    s.query.hasAsyncFetch = true → s.query.context.queue ≠ []

abbrev FeedingStep (E : Env) : State → Event → State → Prop := Lts.Restrict (Step E) (Feeding E)

/-- With the flag set and a cursor, a page is pending, except while one is being taken over. -/
structure Fed (m : Main) (q : DataQuery) : Prop where
  requesting : m = .requesting → q.cursor = none
  pending : (∀ b o, m ≠ .switching b o) → q.hasAsyncFetch = true → q.cursor ≠ none →
    PagePending q

section Keep

variable {E : Env} {m m' : Main} {q q' : DataQuery} {e : Event}

theorem PagePending.quiet (h : PagePending q) (hq : Quiet q q') : PagePending q' := by
  unfold PagePending at h ⊢
  rw [hq.context, hq.threads]
  exact h

theorem Fed.quiet (h : Fed m q) (hq : Quiet q q') : Fed m q' := by
  refine ⟨fun hm => ?_, fun hm ha hc => ?_⟩
  · rw [hq.cursor]; exact h.requesting hm
  · rw [hq.hasAsyncFetch] at ha
    rw [hq.cursor] at hc
    exact (h.pending hm ha hc).quiet hq

theorem Fed.main (h : Fed m q) (hm : ∀ b o, m ≠ .switching b o) (hm' : m' ≠ .requesting) :
    Fed m' q :=
  ⟨fun e => absurd e hm', fun _ => h.pending hm⟩

theorem Fed.beginClose (h : Fed m q) (hm : ∀ b o, m ≠ .switching b o) (k : AfterClose) :
    Fed (.closing k) q.beginClose :=
  ⟨nofun, fun _ => h.pending hm⟩

theorem Fed.of_noCursor (hc : q.cursor = none) : Fed m q :=
  ⟨fun _ => hc, fun _ _ hn => absurd hc hn⟩

theorem Fed.of_noFetch (ha : q.hasAsyncFetch = false) (hm : m ≠ .requesting) : Fed m q := by
  refine ⟨fun e => absurd e hm, fun _ hn => ?_⟩
  rw [ha] at hn
  cases hn

theorem PagePending.startFetch (q : DataQuery) (token : String) :
    PagePending (q.startFetch token) :=
  .inr ⟨.started, by simp [DataQuery.startFetch, setNextToken], nofun⟩

theorem Fed.of_pending (h : PagePending q) (hm : m ≠ .requesting) : Fed m q :=
  ⟨fun e => absurd e hm, fun _ _ _ => h⟩

theorem fed_threadStep (h : Fed m q) (hs : ThreadStep E q q') : Fed m q' := by
  refine ⟨fun hm => ?_, fun hm ha hc => ?_⟩
  · have := h.requesting hm
    cases hs <;> exact this
  · cases hs with
    | @answer i o hi _ =>
      exact .inr ⟨.answered o, List.mem_set (List.getElem?_eq_some_iff.mp hi).1 _, nofun⟩
    | push hi hp =>
      refine .inl ?_
      rcases asyncPush_cases hp with ⟨_, rfl⟩ | ⟨hq, _, rfl⟩
      · simp
      · exact hq

theorem fed_advance (hd : Disciplined m q) (h : Fed m q) (hs : Advance E m q e m' q')
    (hf : Feeding E ⟨m, q⟩ e ⟨m', q'⟩) : Fed m' q' := by
  cases hs with
  | executeAgain _ | cancelIdle _ | cancelDone | close | destroyOpen _ => exact h.beginClose nofun _
  | execute hr => exact .of_noCursor (hd.noResult hr).2
  | requestFailed _ | requestEmpty _ _ _ | requestSkip _ _ _ =>
    exact .of_noCursor (h.requesting rfl)
  | @requestLast _ r ho hr ht =>
    have hfed : Fed .idle (q.openPage r) :=
      ⟨nofun, fun _ ha _ =>
        .inl (hf.execute r ⟨rfl, ho, makeRequestExecute_last hr ht⟩ hr ht ha)⟩
    exact hfed.quiet (quiet_discoverMeta _ _)
  | @requestFirst _ r _ _ _ =>
    have hfed : Fed .idle (q.openFirst r) :=
      .of_pending (PagePending.startFetch (q.openPage r) r.nextToken) nofun
    exact hfed.quiet (quiet_discoverMeta _ _)
  | fetchNoCursor hc => exact .of_noCursor hc
  | @fetchRow _ _ _ c _ hc _ hr =>
    have hfed : Fed .idle { q with cursor := some c.increment.2 } :=
      ⟨nofun, fun _ ha _ => h.pending nofun ha (by simp [hc])⟩
    exact hfed.quiet hr.quiet
  | fetchWait hc _ _ => exact ⟨nofun, fun _ ha _ => h.pending nofun ha (by simp [hc])⟩
  | fetchEnd _ _ ha => exact .of_noFetch ha nofun
  | pop _ => exact ⟨nofun, fun hm => absurd rfl (hm _ _)⟩
  | switchError => exact .of_noCursor rfl
  | switchEmpty hr => exact absurd hr (hf.switchCursor _ _ rfl nofun)
  | @switchLast _ _ _ r _ _ _ hr =>
    have hfed : Fed .idle { q.switchTo r with hasAsyncFetch := false } := .of_noFetch rfl nofun
    exact hfed.quiet hr.quiet
  | @switchNext _ _ _ r _ ts _ _ _ hr =>
    have hfed : Fed .idle ({ q.switchTo r with threads := ts }.startFetch r.nextToken) :=
      .of_pending (PagePending.startFetch _ _) nofun
    exact hfed.quiet hr.quiet
  | getColumn =>
    have hfed : Fed .idle q := h.main nofun nofun
    exact hfed.quiet (quiet_getColumn _ _ _ _)
  | @metaFailed _ record =>
    exact (h.quiet (quiet_addStatusRecord q record)).beginClose nofun _
  | cancelNothing _ _ | cancelFailed =>
    have hfed : Fed .idle q := h.main nofun nofun
    exact hfed.quiet (quiet_addStatusRecord _ _)
  | metaRead =>
    have hfed : Fed .idle q := h.main nofun nofun
    exact hfed.quiet (quiet_readColumnMetadataVector _ _)
  | join ht =>
    refine ⟨nofun, fun _ ha hc => ?_⟩
    rcases h.pending nofun ha hc with hq | ⟨t, hmem, hu⟩
    · exact .inl hq
    · rw [ht] at hmem
      rcases List.mem_cons.mp hmem with rfl | hmem
      · exact absurd rfl hu
      · exact .inr ⟨t, hmem, hu⟩
  | closedExecute _ | closedDestroy _ | closed _ _ => exact .of_noCursor rfl
  | getMeta _ | requestMeta _ | cancelRequest _ _ | destroy _ => exact h.main nofun nofun

theorem fed_step {s s' : State} (hd : Disciplined s.main s.query) (h : Fed s.main s.query)
    (hs : FeedingStep E s e s') : Fed s'.main s'.query := by
  obtain ⟨m, q⟩ := s
  obtain ⟨m', q'⟩ := s'
  obtain ⟨hs, hf⟩ := hs
  rcases step_cases hs with ⟨op, rfl, rfl, rfl, rfl⟩ | ha | ⟨_, rfl, ht⟩
  · exact h.main nofun nofun
  · exact fed_advance hd h ha hf
  · exact fed_threadStep h ht

end Keep

/-! ## The end of the data -/

/-- No row can come any more. -/
def Ended (q : DataQuery) : Prop :=
  q.cursor = none ∨ ∃ c, q.cursor = some c ∧ c.rowVec.length < c.curPos + 1 ∧
    q.hasAsyncFetch = false

/-- Neither in `Execute` nor in a `FetchNextRow` that has found a next page. -/
def Main.Settled (m : Main) : Prop :=
  m ≠ .entered .execute ∧ m ≠ .closing .execute ∧ m ≠ .requesting ∧ (∀ b, m ≠ .waiting b) ∧
    ∀ b o, m ≠ .switching b o

/-- `FetchNextRow` has returned `NO_DATA` in this step. -/
def ReturnsNoData (s : State) (e : Event) : Prop :=
  ((∃ b, s.main = .entered (.fetchNextRow b)) ∨ ∃ b o, s.main = .switching b o) ∧
    ∃ stored, e = .ret (.result .noData stored)

section Ended

variable {E : Env} {m m' : Main} {q q' : DataQuery} {e : Event}

theorem Ended.quiet (h : Ended q) (hq : Quiet q q') : Ended q' := by
  unfold Ended at h ⊢
  rw [hq.cursor, hq.hasAsyncFetch]
  exact h

theorem ended_advance (hm : m.Settled) (h : Ended q) (hs : Advance E m q e m' q') :
    m'.Settled ∧ Ended q' := by
  obtain ⟨hx, hcx, hr, hw, hsw⟩ := hm
  have idle : Main.Settled .idle := ⟨nofun, nofun, nofun, nofun, nofun⟩
  cases hs with
  | executeAgain _ | execute _ => exact absurd rfl hx
  | requestFailed _ | requestEmpty _ _ _ | requestSkip _ _ _ | requestLast _ _ _
  | requestFirst _ _ _ => exact absurd rfl hr
  | fetchNoCursor hc => exact ⟨idle, .inl hc⟩
  | fetchRow hc hlt _ =>
    rcases h with hn | ⟨c, hc', hlt', _⟩
    · rw [hc] at hn; cases hn
    · rw [hc] at hc'; cases hc'; omega
  | fetchWait hc _ ha =>
    rcases h with hn | ⟨c, _, _, ha'⟩
    · rw [hc] at hn; cases hn
    · rw [ha] at ha'; cases ha'
  | @fetchEnd _ _ c hc hge ha =>
    refine ⟨idle, .inr ⟨_, rfl, ?_, ha⟩⟩
    simp only [TrinoCursor.increment_rowVec, TrinoCursor.increment_curPos]
    omega
  | pop _ => exact absurd rfl (hw _)
  | switchError | switchEmpty _ | switchLast _ _ _ | switchNext _ _ _ _ =>
    exact absurd rfl (hsw _ _)
  | getColumn => exact ⟨idle, h.quiet (quiet_getColumn _ _ _ _)⟩
  | cancelNothing _ _ | cancelFailed => exact ⟨idle, h.quiet (quiet_addStatusRecord _ _)⟩
  | metaRead => exact ⟨idle, h.quiet (quiet_readColumnMetadataVector _ _)⟩
  | closedExecute _ => exact absurd rfl hcx
  | closedDestroy _ => exact ⟨⟨nofun, nofun, nofun, nofun, nofun⟩, .inl rfl⟩
  | closed _ _ => exact ⟨idle, .inl rfl⟩
  | @join _ k _ _ =>
    refine ⟨⟨nofun, ?_, nofun, nofun, nofun⟩, h⟩
    exact hcx
  | getMeta _ => exact ⟨idle, h⟩
  | requestMeta _ | cancelRequest _ _ | destroy _ | cancelIdle _ | cancelDone | close
  | destroyOpen _ | metaFailed => exact ⟨⟨nofun, nofun, nofun, nofun, nofun⟩, h⟩

theorem ended_step {s s' : State} (h : s.main.Settled ∧ Ended s.query)
    (he : e ≠ .call .execute) (hs : Step E s e s') : s'.main.Settled ∧ Ended s'.query := by
  obtain ⟨m, q⟩ := s
  obtain ⟨m', q'⟩ := s'
  obtain ⟨hm, h⟩ := h
  rcases step_cases hs with ⟨op, rfl, rfl, rfl, rfl⟩ | ha | ⟨_, rfl, ht⟩
  · refine ⟨⟨?_, nofun, nofun, nofun, nofun⟩, h⟩
    intro hop
    cases hop
    exact he rfl
  · exact ended_advance hm h ha
  · refine ⟨hm, ?_⟩
    cases ht <;> exact h

theorem rowRead_not_noData {read : ReadToBuffer} {c : TrinoCursor} {b : ColumnBindingMap}
    {stored : List Stored} : ¬ RowRead read q c b (.ret (.result .noData stored)) q' := by
  intro h
  have he := h.event
  simp only [Event.ret.injEq, Ret.result.injEq] at he
  exact rowResult_ne_noData _ _ _ _ he.1.symm

/-- Without a page that has no rows, `NO_DATA` is returned at the end only. -/
theorem ended_of_noData {s s' : State} (hs : FeedingStep E s e s') (hr : ReturnsNoData s e) :
    s'.main.Settled ∧ Ended s'.query := by
  obtain ⟨m, q⟩ := s
  obtain ⟨m', q'⟩ := s'
  obtain ⟨hs, hf⟩ := hs
  obtain ⟨hm, stored, rfl⟩ := hr
  have idle : Main.Settled .idle := ⟨nofun, nofun, nofun, nofun, nofun⟩
  rcases step_cases hs with ⟨op, _, he, _⟩ | ha | ⟨he, _, _⟩
  · cases he
  · rcases hm with ⟨b, rfl⟩ | ⟨b, o, rfl⟩
    · cases ha with
      | fetchNoCursor hc => exact ⟨idle, .inl hc⟩
      | fetchRow _ _ hrow => exact absurd hrow rowRead_not_noData
      | @fetchEnd _ _ c hc hge ha =>
        refine ⟨idle, .inr ⟨_, rfl, ?_, ha⟩⟩
        simp only [TrinoCursor.increment_rowVec, TrinoCursor.increment_curPos]
        omega
    · cases ha with
      | switchEmpty hr => exact absurd hr (hf.switchCursor _ _ rfl nofun)
      | switchLast _ _ hrow | switchNext _ _ _ hrow => exact absurd hrow rowRead_not_noData
  · cases he

theorem Ended.fetchNextRow (h : Ended q) (read : ReadToBuffer) (b : ColumnBindingMap) :
    ∃ q', mainStep read q (.entered (.fetchNextRow b)) =
      some (.ret (.result .noData []), ⟨.idle, q'⟩) := by
  simp only [mainStep, enter, enterFetchNextRow]
  rcases h with hc | ⟨c, hc, hlt, ha⟩
  · rw [hc]
    exact ⟨_, rfl⟩
  · rw [hc]
    have hoff : c.increment.1 = false := by
      rw [TrinoCursor.increment_fst]
      exact decide_eq_false (by omega)
    simp only [hoff, ha]
    exact ⟨_, rfl⟩

end Ended

theorem fed_run {E : Env} {s₀ s : State} {es : List Event} (h₀ : Fresh s₀)
    (hrun : Lts.Steps (FeedingStep E) s₀ es s) : Fed s.main s.query := by
  have hinv : Disciplined s.main s.query ∧ Fed s.main s.query := by
    refine hrun.invariant (I := fun s => Disciplined s.main s.query ∧ Fed s.main s.query)
      (fun _ _ _ hI hs => ⟨disciplined_step hI.1 hs.1, fed_step hI.1 hI.2 hs⟩) ?_
    refine ⟨disciplined_fresh h₀, ?_⟩
    obtain ⟨sql, n, rfl⟩ := h₀
    exact .of_noCursor rfl
  exact hinv.2

/-- A waiting `SwitchCursor` has a cursor and the flag set. -/
def Waits (m : Main) (q : DataQuery) : Prop :=
  ∀ b, m = .waiting b → q.hasAsyncFetch = true ∧ q.cursor ≠ none

theorem waits_step {E : Env} {s s' : State} {e : Event} (h : Waits s.main s.query)
    (hs : Step E s e s') : Waits s'.main s'.query := by
  obtain ⟨m, q⟩ := s
  obtain ⟨m', q'⟩ := s'
  rcases step_cases hs with ⟨op, rfl, rfl, rfl, rfl⟩ | ha | ⟨_, rfl, ht⟩
  · exact nofun
  · cases ha with
    | fetchWait _ _ ha => exact fun _ _ => ⟨ha, nofun⟩
    | _ => exact nofun
  · intro b hm
    have := h b hm
    cases ht <;> exact this

/-- In a run of `Feeding` steps every `SwitchCursor` that waits finds a page in the queue or on its
way, and after a `NO_DATA` of `FetchNextRow` every later `FetchNextRow` returns `NO_DATA` at once,
until the next `Execute`. -/
theorem waits_answered {E : Env} {s₀ s : State} {es : List Event} (h₀ : Fresh s₀)
    (hrun : Lts.Steps (FeedingStep E) s₀ es s) :
    (∀ b, s.main = .waiting b → PagePending s.query) ∧
    ∀ e s₁ fs s₂ b, FeedingStep E s e s₁ → ReturnsNoData s e →
      Lts.Steps (FeedingStep E) s₁ fs s₂ → (∀ f ∈ fs, f ≠ .call .execute) →
      s₂.main = .entered (.fetchNextRow b) →
      ∃ q', mainStep E.read s₂.query s₂.main = some (.ret (.result .noData []), ⟨.idle, q'⟩) := by
  refine ⟨fun b hm => ?_, fun e s₁ fs s₂ b hs hr hrest hexec hm => ?_⟩
  · have hw : Waits s.main s.query := by
      refine hrun.of_restrict.invariant (I := fun s => Waits s.main s.query)
        (fun _ _ _ hI hs => waits_step hI hs) ?_
      obtain ⟨sql, n, rfl⟩ := h₀
      exact nofun
    obtain ⟨ha, hc⟩ := hw b hm
    refine (fed_run h₀ hrun).pending (fun b' o hm' => ?_) ha hc
    rw [hm] at hm'
    cases hm'
  · have hend := hrest.of_restrict.invariant_of
      (fun _ _ _ hI he hst => ended_step hI he hst) hexec (ended_of_noData hs hr)
    rw [hm]
    exact hend.2.fetchNextRow E.read b

section Examples

/-- A row, then a last page without rows. -/
def emptyLastPage : Service where
  query req :=
    match req.nextToken with
    | none => some (.success { rows := [[.scalar "1"]], nextToken := "t", columnInfo := [] })
    | some _ => some (.success { rows := [], nextToken := "", columnInfo := [] })

/-- Enough for `Feeding`, and decidable. -/
def feedingNext (s : State) : Bool :=
  match s.main with
  | .switching _ (.success r) => !r.rows.isEmpty
  | .requesting => !s.query.hasAsyncFetch
  | _ => true

theorem feedingNext_feeding {E : Env} (s : State) (e : Event) (s' : State)
    (h : feedingNext s = true) : Feeding E s e s' := by
  refine ⟨fun b r hm _ => ?_, fun r hx _ _ ha => ?_⟩
  · simpa [feedingNext, hm] using h
  · simp [feedingNext, hx.1, ha] at h

/-- The second fetch waits while the thread has not sent its request. -/
theorem waits_answered_twoPages :
    ∃ s : State, s.main = .waiting .empty ∧ PagePending s.query := by
  have hfresh : Fresh ⟨.idle, { sql := "q" }⟩ := ⟨"q", none, rfl⟩
  refine ⟨_, rfl, (waits_answered (E := twoPages.env ignoreRead) hfresh
    (replay_steps feedingNext feedingNext_feeding
      [.call .execute, .main, .query, .call (.fetchNextRow .empty), .main,
        .call (.fetchNextRow .empty), .main] rfl)).1 .empty rfl⟩

end Examples

/-- Nobody moves once a waiting `SwitchCursor` has neither a page nor a thread to push one. -/
theorem starved_stuck {E : Env} {s s' : State} {e : Event} {b : ColumnBindingMap}
    (hm : s.main = .waiting b) (hp : ¬ PagePending s.query) : ¬ Step E s e s' := by
  obtain ⟨m, q⟩ := s
  obtain ⟨m', q'⟩ := s'
  obtain rfl : m = .waiting b := hm
  intro hs
  rcases step_cases hs with ⟨op, hm, _⟩ | ha | ⟨_, _, ht⟩
  · cases hm
  · cases ha with
    | pop hq => exact hp (.inl (by simp [hq]))
  · cases ht with
    | answer hi _ => exact hp (.inr ⟨_, List.mem_of_getElem? hi, nofun⟩)
    | push hi _ => exact hp (.inr ⟨_, List.mem_of_getElem? hi, nofun⟩)

/-- The row, `NO_DATA`, and then a fetch that waits for ever. -/
theorem emptyLastPage_starves : ∃ s, Lts.Reachable (Step (emptyLastPage.env ignoreRead)) Fresh s ∧
    s.main = .waiting .empty ∧ ¬ PagePending s.query ∧
    ∀ e s', ¬ Step (emptyLastPage.env ignoreRead) s e s' := by
  have hnone : ∀ s : State, s.query.context.queue = [] ∧ s.query.threads = [.finished] →
      ¬ PagePending s.query := by
    rintro s ⟨hq, ht⟩ (h | ⟨t, hmem, hu⟩)
    · exact h hq
    · rw [ht, List.mem_singleton] at hmem
      exact hu hmem
  have hfresh : Fresh ⟨.idle, { sql := "q" }⟩ := ⟨"q", none, rfl⟩
  refine ⟨_, replay_reachable [.call .execute, .main, .query, .answer 0, .push 0,
    .call (.fetchNextRow .empty), .main, .call (.fetchNextRow .empty), .main, .main, .main,
    .call (.fetchNextRow .empty), .main] hfresh rfl,
    rfl, hnone _ ⟨rfl, rfl⟩, fun e s' => starved_stuck rfl (hnone _ ⟨rfl, rfl⟩)⟩

end TrinoOdbc
