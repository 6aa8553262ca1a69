import TrinoOdbc.DataQueryCases
import TrinoOdbc.Replay

/-!
# TrinoOdbc.Discipline

The invariant behind the asynchronous fetch, over every run of a `DataQuery` against any service.

`Disciplined m q` holds in every reachable state (`disciplined_reachable`): there is at most one
thread, there is none while no result is held, and, as long as the query has never been closed, a
thread that is not finished finds the slot of the queue empty. Once the query has been closed
`isClosing_` stays set, so no thread ever waits for the slot after that.
-/

namespace TrinoOdbc

open DataQuery

/-- The main thread is neither in `MakeRequestExecute`, nor between pop and use of a page, nor in
the join loop of `InternalClose`, nor past the destructor. -/
def Main.Plain (m : Main) : Prop :=
  m ≠ .requesting ∧ m ≠ .destroyed ∧ (∀ b o, m ≠ .switching b o) ∧ ∀ k, m ≠ .closing k

/-- The queue before the first close. -/
structure Slot (m : Main) (q : DataQuery) : Prop where
  queue_le : q.context.queue.length ≤ 1
  unfinished : ∀ t ∈ q.threads, t ≠ .finished → q.context.queue = []
  noResult : q.result = none → q.context.queue = []
  requesting : m = .requesting → q.context.queue = []
  switching : ∀ b o, m = .switching b o →
    q.context.queue = [] ∧ ∀ t ∈ q.threads, t = .finished

structure Disciplined (m : Main) (q : DataQuery) : Prop where
  threads_le : q.threads.length ≤ 1
  noResult : q.result = none → q.threads = [] ∧ q.cursor = none
  requesting : m = .requesting → q.threads = []
  destroyed : m = .destroyed → q.threads = []
  closing : ∀ k, m = .closing k → q.context.isClosing = true
  slot : q.context.isClosing = false → Slot m q

namespace Disciplined

variable {m m' : Main} {q q' : DataQuery}

theorem quiet (h : Disciplined m q) (hq : Quiet q q') : Disciplined m q' := by
  refine ⟨?_, ?_, ?_, ?_, ?_, ?_⟩
  · rw [hq.threads]; exact h.threads_le
  · rw [hq.result, hq.threads, hq.cursor]; exact h.noResult
  · rw [hq.threads]; exact h.requesting
  · rw [hq.threads]; exact h.destroyed
  · rw [hq.context]; exact h.closing
  · intro hc
    rw [hq.context] at hc
    obtain ⟨h1, h2, h3, h4, h5⟩ := h.slot hc
    refine ⟨?_, ?_, ?_, ?_, ?_⟩
    · rw [hq.context]; exact h1
    · rw [hq.context, hq.threads]; exact h2
    · rw [hq.context, hq.result]; exact h3
    · rw [hq.context]; exact h4
    · rw [hq.context, hq.threads]; exact h5

theorem plain (h : Disciplined m q) (hm : m'.Plain) : Disciplined m' q := by
  obtain ⟨hr, hd, hs, hk⟩ := hm
  refine ⟨h.threads_le, h.noResult, fun e => absurd e hr, fun e => absurd e hd,
    fun k e => absurd e (hk k), fun hc => ?_⟩
  obtain ⟨h1, h2, h3, _, _⟩ := h.slot hc
  exact ⟨h1, h2, h3, fun e => absurd e hr, fun b o e => absurd e (hs b o)⟩

theorem beginClose (h : Disciplined m q) (k : AfterClose) :
    Disciplined (.closing k) q.beginClose := by
  refine ⟨h.threads_le, h.noResult, nofun, nofun, fun _ _ => rfl, fun hc => ?_⟩
  simp [DataQuery.beginClose] at hc

/-- With no thread left the result and the cursor may go. -/
theorem endClose (h : Disciplined m q) (ht : q.threads = []) (hc : q.context.isClosing = true) :
    Disciplined m' q.endClose := by
  refine ⟨h.threads_le, fun _ => ⟨ht, rfl⟩, fun _ => ht, fun _ => ht, fun _ _ => hc,
    fun hc' => ?_⟩
  rw [DataQuery.endClose] at hc'
  rw [hc] at hc'
  cases hc'

end Disciplined

/-! ## Every step keeps the discipline -/

section Keep

variable {E : Env} {m m' : Main} {q q' : DataQuery} {e : Event}

theorem plain_idle : Main.Plain .idle := ⟨nofun, nofun, nofun, nofun⟩

/-- The cursor may move as long as a result is held. -/
theorem Disciplined.setCursor (h : Disciplined m q) (c : Option TrinoCursor)
    (hc : q.result = none → c = none) : Disciplined m { q with cursor := c } := by
  refine ⟨h.threads_le, fun hr => ⟨(h.noResult hr).1, hc hr⟩, h.requesting, h.destroyed,
    h.closing, fun hcl => ?_⟩
  obtain ⟨h1, h2, h3, h4, h5⟩ := h.slot hcl
  exact ⟨h1, h2, h3, h4, h5⟩

theorem Disciplined.moveCursor (h : Disciplined m q) {c : TrinoCursor} (hc : q.cursor = some c)
    (c' : TrinoCursor) : Disciplined m { q with cursor := some c' } := by
  refine h.setCursor _ fun hr => ?_
  rw [(h.noResult hr).2] at hc
  cases hc

theorem Disciplined.setResult (h : Disciplined m q) (r : QueryResult) (c : Option TrinoCursor) :
    Disciplined m { q with result := some r, cursor := c } := by
  refine ⟨h.threads_le, nofun, h.requesting, h.destroyed, h.closing, fun hcl => ?_⟩
  obtain ⟨h1, h2, _, h4, h5⟩ := h.slot hcl
  exact ⟨h1, h2, nofun, h4, h5⟩

theorem Disciplined.setHasAsyncFetch (h : Disciplined m q) (v : Bool) :
    Disciplined m { q with hasAsyncFetch := v } := by
  refine ⟨h.threads_le, h.noResult, h.requesting, h.destroyed, h.closing, fun hcl => ?_⟩
  obtain ⟨h1, h2, h3, h4, h5⟩ := h.slot hcl
  exact ⟨h1, h2, h3, h4, h5⟩

/-- A fetch may start when every earlier thread is gone and, before the first close, the slot is
free. -/
theorem disciplined_startFetch (token : String) (ht : q.threads = [])
    (hr : q.result ≠ none) (hslot : q.context.isClosing = false → q.context.queue = []) :
    Disciplined .idle (q.startFetch token) := by
  refine ⟨?_, fun e => absurd e hr, nofun, nofun, nofun, fun hcl => ?_⟩
  · simp [startFetch, setNextToken, ht]
  · have hq := hslot hcl
    exact ⟨by simp [startFetch, setNextToken, hq], fun _ _ _ => hq, fun _ => hq, fun _ => hq,
      nofun⟩

theorem disciplined_wait {b : ColumnBindingMap} {o : QueryOutcome} {os : List QueryOutcome}
    (h : Disciplined (.waiting b) q) (hq : q.context.queue = o :: os) :
    Disciplined (.switching b o) { q with context := { q.context with queue := os } } := by
  refine ⟨h.threads_le, h.noResult, nofun, nofun, nofun, fun hcl => ?_⟩
  obtain ⟨h1, h2, _, _, _⟩ := h.slot hcl
  rw [hq] at h1 h2
  have hos : os = [] := by simpa using h1
  subst hos
  refine ⟨by simp, fun _ _ _ => rfl, fun _ => rfl, nofun, fun _ _ _ => ⟨rfl, ?_⟩⟩
  intro t ht
  by_contra hne
  cases h2 t ht hne

theorem disciplined_answer {i : Nat} {o : QueryOutcome} (h : Disciplined m q)
    (hi : q.threads[i]? = some .started) :
    Disciplined m { q with threads := q.threads.set i (.answered o) } := by
  have hmem : .started ∈ q.threads := List.mem_of_getElem? hi
  refine ⟨by simpa using h.threads_le, fun hr => ?_, fun hm => ?_, fun hm => ?_, h.closing,
    fun hcl => ?_⟩
  · rw [(h.noResult hr).1] at hmem; cases hmem
  · rw [h.requesting hm] at hmem; cases hmem
  · rw [h.destroyed hm] at hmem; cases hmem
  · obtain ⟨h1, h2, h3, h4, h5⟩ := h.slot hcl
    have hq := h2 _ hmem nofun
    exact ⟨h1, fun _ _ _ => hq, h3, h4, fun b o' hm => nomatch (h5 b o' hm).2 _ hmem⟩

theorem disciplined_push {i : Nat} {o : QueryOutcome} {ctx : DataQueryContext}
    (h : Disciplined m q) (hi : q.threads[i]? = some (.answered o))
    (hp : asyncPush q.context o = some ctx) :
    Disciplined m { q with context := ctx, threads := q.threads.set i .finished } := by
  have hmem : .answered o ∈ q.threads := List.mem_of_getElem? hi
  have hclose : ctx.isClosing = q.context.isClosing := by
    rcases asyncPush_cases hp with ⟨_, rfl⟩ | ⟨_, _, rfl⟩ <;> rfl
  refine ⟨by simpa using h.threads_le, fun hr => ?_, fun hm => ?_, fun hm => ?_,
    fun k hm => hclose ▸ h.closing k hm, fun hcl => ?_⟩
  · rw [(h.noResult hr).1] at hmem; cases hmem
  · rw [h.requesting hm] at hmem; cases hmem
  · rw [h.destroyed hm] at hmem; cases hmem
  · -- the only thread is done now, and its page is the only one in the queue
    replace hcl : q.context.isClosing = false := hclose ▸ hcl
    obtain ⟨_, h2, h3, h4, h5⟩ := h.slot hcl
    have hone : q.threads = [.answered o] := by
      have hle := h.threads_le
      cases ht : q.threads with
      | nil => rw [ht] at hmem; cases hmem
      | cons t ts =>
        rw [ht] at hle hmem
        have hts : ts = [] := by simpa using hle
        subst hts
        rw [List.mem_singleton] at hmem
        rw [hmem]
    have hi0 : i = 0 := by
      rw [hone] at hi
      cases i with
      | zero => rfl
      | succ i => simp at hi
    subst hi0
    rcases asyncPush_cases hp with ⟨_, rfl⟩ | ⟨_, hc, _⟩
    · refine ⟨by simp, fun t ht hne => ?_, fun hr => ?_, fun hm => ?_, fun b o' hm => ?_⟩
      · rw [hone] at ht
        simp at ht
        exact absurd ht hne
      · rw [(h.noResult hr).1] at hmem; cases hmem
      · rw [h.requesting hm] at hmem; cases hmem
      · cases (h5 b o' hm).2 _ hmem
    · cases hcl.symm.trans hc

theorem quiet_getColumn (read : ReadToBuffer) (q : DataQuery) (i : Nat)
    (buffer : ApplicationDataBuffer) : Quiet q (q.getColumn read i buffer).2 := by
  unfold getColumn
  split
  · exact quiet_addStatusRecord _ _
  · split <;> exact ⟨rfl, rfl, rfl, rfl, rfl, rfl, rfl, rfl⟩

theorem quiet_discoverMeta (q : DataQuery) (r : QueryResult) : Quiet q (q.discoverMeta r) := by
  unfold discoverMeta
  split
  · exact Quiet.refl q
  · exact quiet_readColumnMetadataVector q _

theorem Disciplined.rowRead {read : ReadToBuffer} {c : TrinoCursor} {b : ColumnBindingMap}
    (h : Disciplined m q) (hr : RowRead read q c b e q') : Disciplined .idle q' :=
  (h.plain plain_idle).quiet hr.quiet

theorem disciplined_advance (h : Disciplined m q) (hs : Advance E m q e m' q') :
    Disciplined m' q' := by
  cases hs with
  | executeAgain _ => exact h.beginClose _
  | execute hr =>
    have hn := h.noResult hr
    refine ⟨h.threads_le, fun _ => hn, fun _ => hn.1, by simp, by simp, fun hcl => ?_⟩
    obtain ⟨h1, h2, h3, _, _⟩ := h.slot hcl
    exact ⟨h1, h2, h3, fun _ => h3 hr, by simp⟩
  | requestFailed _ => exact (h.quiet (quiet_addStatusRecord _ _)).beginClose _
  | requestEmpty _ _ _ => exact (h.setResult _ q.cursor).plain plain_idle
  | @requestSkip _ r _ _ _ =>
    have hd := h.setResult r q.cursor
    refine ⟨hd.threads_le, (fun h => by cases h), hd.requesting, by simp, by simp, fun hcl => ?_⟩
    obtain ⟨h1, h2, _, h4, _⟩ := hd.slot hcl
    exact ⟨h1, h2, (fun h => by cases h), h4, by simp⟩
  | requestLast _ _ _ =>
    exact ((h.setResult _ _).plain plain_idle).quiet (quiet_discoverMeta _ _)
  | @requestFirst _ r _ _ _ =>
    have hd := disciplined_startFetch r.nextToken (q := q.openPage r) (h.requesting rfl)
      (by simp [openPage]) fun hcl => (h.slot hcl).requesting rfl
    exact (hd.setHasAsyncFetch true).quiet (quiet_discoverMeta _ _)
  | fetchNoCursor _ => exact (h.plain plain_idle).quiet (quiet_addStatusRecord _ _)
  | fetchRow hc _ hr => exact (h.moveCursor hc _).rowRead hr
  | fetchWait hc _ _ => exact (h.moveCursor hc _).plain ⟨by simp, by simp, by simp, by simp⟩
  | fetchEnd hc _ _ => exact (h.moveCursor hc _).plain plain_idle
  | pop hq => exact disciplined_wait h hq
  | switchError =>
    exact (((h.setCursor none fun _ => rfl).setHasAsyncFetch false).plain plain_idle).quiet
      (quiet_addStatusRecord _ _)
  | @switchEmpty _ _ r _ _ =>
    exact ((h.setResult r q.cursor).plain plain_idle).quiet (quiet_addStatusRecord _ _)
  | switchLast _ _ hr => exact ((h.setResult _ _).setHasAsyncFetch false).rowRead hr
  | @switchNext _ _ b r _ ts _ _ hts hr =>
    -- the oldest thread is joined: with at most one thread, none is left when the next starts
    obtain rfl : ts = [] := by
      rcases hts with ⟨_, rfl⟩ | hts
      · rfl
      · have hle := h.threads_le
        rw [hts] at hle
        simpa using hle
    exact (disciplined_startFetch r.nextToken (q := { q.switchTo r with threads := [] }) rfl
      (by simp [switchTo]) fun hcl => ((h.slot hcl).switching _ _ rfl).1).rowRead hr
  | getColumn => exact (h.plain plain_idle).quiet (quiet_getColumn _ _ _ _)
  | getMeta _ => exact h.plain plain_idle
  | requestMeta _ => exact h.plain ⟨by simp, by simp, by simp, by simp⟩
  | metaFailed => exact (h.quiet (quiet_addStatusRecord _ _)).beginClose _
  | metaRead => exact (h.plain plain_idle).quiet (quiet_readColumnMetadataVector _ _)
  | cancelNothing _ _ => exact (h.plain plain_idle).quiet (quiet_addStatusRecord _ _)
  | cancelRequest _ _ => exact h.plain ⟨by simp, by simp, by simp, by simp⟩
  | cancelIdle _ => exact h.beginClose _
  | cancelDone => exact h.beginClose _
  | cancelFailed => exact (h.plain plain_idle).quiet (quiet_addStatusRecord _ _)
  | close => exact h.beginClose _
  | destroyOpen _ => exact h.beginClose _
  | destroy hr =>
    have hn := h.noResult hr
    refine ⟨h.threads_le, fun _ => hn, by simp, fun _ => hn.1, by simp, fun hcl => ?_⟩
    obtain ⟨h1, h2, h3, _, _⟩ := h.slot hcl
    exact ⟨h1, h2, h3, by simp, by simp⟩
  | @join _ k ts ht =>
    have hle := h.threads_le
    rw [ht] at hle
    obtain rfl : ts = [] := by simpa using hle
    refine ⟨by simp, fun hr => ⟨rfl, (h.noResult hr).2⟩, by simp, by simp, fun _ _ => h.closing k rfl,
      fun hcl => ?_⟩
    rw [h.closing k rfl] at hcl
    cases hcl
  | closedExecute ht =>
    refine ⟨h.threads_le, fun _ => ⟨ht, rfl⟩, fun _ => ht, by simp, by simp, fun hcl => ?_⟩
    simp [prepareRequest, DataQuery.endClose, h.closing _ rfl] at hcl
  | closedDestroy ht => exact h.endClose ht (h.closing _ rfl)
  | closed ht _ => exact h.endClose ht (h.closing _ rfl)

theorem disciplined_step {s s' : State} (h : Disciplined s.main s.query) (hs : Step E s e s') :
    Disciplined s'.main s'.query := by
  obtain ⟨m, q⟩ := s
  obtain ⟨m', q'⟩ := s'
  rcases step_cases hs with ⟨op, rfl, rfl, rfl, rfl⟩ | ha | ⟨_, rfl, ht⟩
  · exact h.plain ⟨nofun, nofun, nofun, nofun⟩
  · exact disciplined_advance h ha
  · cases ht with
    | answer hi _ => exact disciplined_answer h hi
    | push hi hp => exact disciplined_push h hi hp

end Keep

theorem disciplined_fresh {s : State} (h : Fresh s) : Disciplined s.main s.query := by
  obtain ⟨sql, n, rfl⟩ := h
  exact ⟨by simp, fun _ => ⟨rfl, rfl⟩, fun _ => rfl, fun _ => rfl, nofun,
    fun _ => ⟨by simp, fun _ _ _ => rfl, fun _ => rfl, fun _ => rfl, nofun⟩⟩

theorem disciplined_reachable {E : Env} {s : State} (h : Lts.Reachable (Step E) Fresh s) :
    Disciplined s.main s.query :=
  h.invariant (fun _ hf => disciplined_fresh hf) fun _ _ _ hd hs => disciplined_step hd hs

/-! ## The joins return -/

def FetchThread.Unfinished (t : FetchThread) : Prop := t ≠ .finished

/-- At a join: in the loop of `InternalClose`, or in `SwitchCursor` with a page that has rows and a
next token. -/
def Main.Joining (m : Main) : Prop :=
  (∃ k, m = .closing k) ∨
    ∃ b r, m = .switching b (.success r) ∧ r.rows ≠ [] ∧ r.nextToken ≠ ""

/-- The steps a fetch thread still has before it, its join counted. -/
def FetchThread.work : FetchThread → Nat
  | .started => 3
  | .answered _ => 2
  | .finished => 1

def joinWork (q : DataQuery) : Nat := (q.threads.map FetchThread.work).sum

/-- One step of a run that stays at a join. -/
abbrev JoinStep (E : Env) : State → Event → State → Prop :=
  Lts.Restrict (Step E) fun s _ s' => s.main.Joining ∧ s'.main = s.main

section Join

variable {E : Env} {s s' : State} {e : Event} {q q' : DataQuery}

theorem work_set_lt {t t' : FetchThread} {ts : List FetchThread} :
    ∀ {i : Nat}, ts[i]? = some t → t'.work < t.work →
      ((ts.set i t').map FetchThread.work).sum < (ts.map FetchThread.work).sum := by
  induction ts with
  | nil => intro i hi; simp at hi
  | cons u ts ih =>
    intro i hi hlt
    cases i with
    | zero =>
      simp only [List.getElem?_cons_zero, Option.some.injEq] at hi
      subst hi
      simp only [List.set_cons_zero, List.map_cons, List.sum_cons]
      omega
    | succ i =>
      simp only [List.getElem?_cons_succ] at hi
      have := ih hi hlt
      simp only [List.set_cons_succ, List.map_cons, List.sum_cons]
      omega

theorem ThreadStep.work (h : ThreadStep E q q') : joinWork q' < joinWork q := by
  cases h with
  | answer hi _ => exact work_set_lt hi (by simp [FetchThread.work])
  | push hi _ => exact work_set_lt hi (by simp [FetchThread.work])

theorem joinStep_work (h : JoinStep E s e s') : joinWork s'.query < joinWork s.query := by
  obtain ⟨hs, hj, hm⟩ := h
  obtain ⟨m, q⟩ := s
  obtain ⟨m', q'⟩ := s'
  obtain rfl : m' = m := hm
  rcases step_cases hs with ⟨op, rfl, rfl, hm, rfl⟩ | ha | ⟨_, _, ht⟩
  · cases hm
  · rcases hj with ⟨k, rfl⟩ | ⟨b, r, rfl, _, _⟩
    · cases ha with
      | join ht => simp [joinWork, ht, FetchThread.work]
    · cases ha
  · exact ht.work

theorem Disciplined.push_isSome {m : Main} {i : Nat} {o : QueryOutcome} (h : Disciplined m q)
    (hi : q.threads[i]? = some (.answered o)) : (asyncPush q.context o).isSome := by
  unfold asyncPush
  cases hc : q.context.isClosing with
  | true => cases q.context.queue.isEmpty <;> rfl
  | false =>
    have hq := (h.slot hc).unfinished _ (List.mem_of_getElem? hi) nofun
    simp [hq]

theorem readRow_isSome (read : ReadToBuffer) (c : TrinoCursor) (b : ColumnBindingMap) :
    (q.readRow read c b).isSome := by
  simp only [readRow]
  split <;> rfl

/-- Once nobody waits for the service any more, somebody can move. -/
theorem join_progress (h : Disciplined s.main s.query) (hj : s.main.Joining)
    (hans : .started ∉ s.query.threads) : ∃ e s', Step E s e s' := by
  obtain ⟨m, q⟩ := s
  have hmain : (mainStep E.read q m).isSome → ∃ e s', Step E ⟨m, q⟩ e s' := by
    intro hsome
    obtain ⟨⟨e, s'⟩, he⟩ := Option.isSome_iff_exists.mp hsome
    exact ⟨e, s', .main he⟩
  cases ht : q.threads with
  | nil =>
    refine hmain ?_
    rcases hj with ⟨k, rfl⟩ | ⟨b, r, rfl, hr, htok⟩
    · cases k <;> simp [mainStep, internalClose, ht, afterClose, goTo, retWith]
    · simp [mainStep, switchCursor, hr, htok, joinAndStart, ht, readRow_isSome]
  | cons t ts =>
    cases t with
    | started => simp [ht] at hans
    | answered o =>
      have hi : q.threads[0]? = some (.answered o) := by simp [ht]
      obtain ⟨ctx, hp⟩ := Option.isSome_iff_exists.mp (h.push_isSome hi)
      exact ⟨_, _, .push hi hp⟩
    | finished =>
      refine hmain ?_
      rcases hj with ⟨k, rfl⟩ | ⟨b, r, rfl, hr, htok⟩
      · simp [mainStep, internalClose, ht, goTo]
      · simp [mainStep, switchCursor, hr, htok, joinAndStart, ht, readRow_isSome]

/-- The request changes only while no thread still has to read it. -/
theorem request_kept (h : Disciplined s.main s.query) (hs : Step E s e s')
    (hstart : .started ∈ s.query.threads) : s'.query.request = s.query.request := by
  obtain ⟨m, q⟩ := s
  obtain ⟨m', q'⟩ := s'
  change Disciplined m q at h
  change FetchThread.started ∈ q.threads at hstart
  rcases step_cases hs with ⟨op, rfl, rfl, rfl, rfl⟩ | ha | ⟨_, rfl, ht⟩
  · rfl
  · cases ha with
    | execute hr => simp [(h.noResult hr).1] at hstart
    | requestFailed _ | requestEmpty _ _ _ | requestSkip _ _ _ | requestLast _ _ _
    | requestFirst _ _ _ => simp [h.requesting rfl] at hstart
    | fetchRow _ _ hr => exact hr.quiet.request
    | switchLast _ _ hr => exact hr.quiet.request
    | @switchNext _ _ b r _ ts _ _ hts _ =>
      -- the join has waited for the only thread
      have hle := h.threads_le
      rcases hts with ⟨ht, _⟩ | ht
      · simp [ht] at hstart
      · rw [ht] at hle hstart
        obtain rfl : ts = [] := by simpa using hle
        simp at hstart
    | getColumn => exact (quiet_getColumn _ _ _ _).request
    | metaRead => exact (quiet_readColumnMetadataVector _ _).request
    | closedExecute ht => simp [ht] at hstart
    | _ => rfl
  · cases ht <;> rfl

end Join

/-- What holds in a reachable state `s` whatever the operations, the service and the order of the
steps. -/
structure FetchDiscipline (E : Env) (s : State) : Prop where
  one_unfinished : ∀ (i j : Nat) (t u : FetchThread), s.query.threads[i]? = some t →
      s.query.threads[j]? = some u → t.Unfinished → u.Unfinished → i = j
  request_kept : ∀ e s', Step E s e s' → .started ∈ s.query.threads →
    s'.query.request = s.query.request
  never_blocks : ∀ (i : Nat) (o : QueryOutcome), s.query.threads[i]? = some (.answered o) →
    (asyncPush s.query.context o).isSome
  /-- A run that stays at a join is short, and ends only where the join is over or the service has
  not answered yet. -/
  join_returns : s.main.Joining → ∀ es s', Lts.Steps (JoinStep E) s es s' →
    es.length ≤ 3 ∧ (.started ∉ s'.query.threads → ∃ e s'', Step E s' e s'')
  result_null : s.query.result = none → s.query.threads = []
  destroyed : s.main = .destroyed → s.query.threads = []

theorem joinWork_le {q : DataQuery} {m : Main} (h : Disciplined m q) : joinWork q ≤ 3 := by
  have hle := h.threads_le
  unfold joinWork
  match ht : q.threads with
  | [] => simp
  | [t] => cases t <;> simp [FetchThread.work]
  | _ :: _ :: _ => simp [ht] at hle

theorem joinSteps_main {E : Env} {s s' : State} {es : List Event}
    (h : Lts.Steps (JoinStep E) s es s') : s'.main = s.main := by
  induction h with
  | refl => rfl
  | cons hs _ ih => rw [ih, hs.2.2]

theorem fetchDiscipline_reachable {E : Env} {s : State} (h : Lts.Reachable (Step E) Fresh s) :
    FetchDiscipline E s := by
  have hd := disciplined_reachable h
  refine ⟨?_, fun e s' hs hstart => TrinoOdbc.request_kept hd hs hstart,
    fun i o hi => hd.push_isSome hi, ?_, fun hr => (hd.noResult hr).1, hd.destroyed⟩
  · intro i j t u hi hj _ _
    have hle := hd.threads_le
    have hi' := (List.getElem?_eq_some_iff.mp hi).1
    have hj' := (List.getElem?_eq_some_iff.mp hj).1
    omega
  · intro hj es s' hrun
    have hlen := hrun.measure_le fun _ _ _ hs => joinStep_work hs
    have hwork := joinWork_le hd
    refine ⟨?_, fun hans => ?_⟩
    · omega
    · have hd' : Disciplined s'.main s'.query :=
        hrun.of_restrict.invariant (fun _ _ _ hI hs => disciplined_step hI hs) hd
      exact join_progress hd' (by rw [joinSteps_main hrun]; exact hj) hans

section Example

/-- A service with one row on its first page and a next token on every page. -/
def endlessService : Service where
  query _ := some (.success
    { rows := [[.scalar "1"]], nextToken := "next", columnInfo := [⟨"a", some .varchar, true⟩] })

/-- Two pages with one row each. -/
def twoPages : Service where
  query req :=
    match req.nextToken with
    | none => some (.success { rows := [[.scalar "1"]], nextToken := "t", columnInfo := [] })
    | some _ => some (.success { rows := [[.scalar "2"]], nextToken := "", columnInfo := [] })

def ignoreRead : ReadToBuffer := fun _ _ _ => ⟨none, none, .success⟩

/-- `Execute`, then `Close` while the fetch thread has not read the request. -/
theorem fetchDiscipline_closing : ∃ s, s.main = .closing .close ∧
    s.query.threads = [.started] ∧ FetchDiscipline (endlessService.env ignoreRead) s :=
  ⟨_, rfl, rfl, fetchDiscipline_reachable (replay_reachable
    [.call .execute, .main, .query, .call .close, .main]
    ⟨"q", none, rfl⟩ rfl)⟩

end Example

end TrinoOdbc
