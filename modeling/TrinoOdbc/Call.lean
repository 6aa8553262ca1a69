import TrinoOdbc.Discipline

/-!
# TrinoOdbc.Call

One call of a `DataQuery` as a run of the two parties: `Call E q op v q'` says that the call `op`,
made on `q`, has returned `v` and left `q'`, with the fetch threads moving before, during and after
it as they like.

`Call.rule` is the rule all specifications of calls are proved with: an assertion for every control
point of the main thread, kept by its moves and by those of the fetch threads. `Returns.rule` is its
counterpart for termination: with a bound that every silent move lowers, and a move that is always
possible, the call returns.
-/

namespace TrinoOdbc

open DataQuery

def Event.visible : Event → Bool
  | .tau => false
  | _ => true

def Call (E : Env) (q : DataQuery) (op : Op) (v : Ret) (q' : DataQuery) : Prop :=
  ∃ es, Lts.Steps (Step E) ⟨.idle, q⟩ es ⟨.idle, q'⟩ ∧ es.filter Event.visible = [.call op, .ret v]

section Rule

variable {E : Env} {m m' : Main} {q q' : DataQuery} {e : Event} {op : Op} {v : Ret}

/-- A move of the main thread is silent, or returns to the application. -/
theorem advance_event (h : Advance E m q e m' q') : e = .tau ∨ ∃ v, e = .ret v ∧ m' = .idle := by
  cases h with
  | fetchRow _ _ hr | switchLast _ _ hr | switchNext _ _ _ hr => exact .inr ⟨_, hr.event, rfl⟩
  | requestEmpty _ _ _ | requestLast _ _ _ | requestFirst _ _ _ | fetchNoCursor _ | fetchEnd _ _ _
  | switchError | switchEmpty _ | getColumn | getMeta _ | metaRead | cancelNothing _ _
  | cancelFailed | closed _ _ => exact .inr ⟨_, rfl, rfl⟩
  | _ => exact .inl rfl

/-- `SwitchCursor` with a page runs to the return of `FetchNextRow`. -/
theorem advance_switching_ret {b : ColumnBindingMap} {o : QueryOutcome}
    (h : Advance E (.switching b o) q e m' q') : ∃ v, e = .ret v := by
  cases h with
  | switchLast _ _ hr | switchNext _ _ _ hr => exact ⟨_, hr.event⟩
  | switchError | switchEmpty _ => exact ⟨_, rfl⟩

theorem advance_not_idle (h : Advance E .idle q e m' q') : False := by
  cases h

/-- Between calls only the fetch threads move. -/
theorem idle_rule {J : DataQuery → Prop} (hJ : ∀ q q', J q → ThreadStep E q q' → J q')
    {s s' : State} {es : List Event} (hrun : Lts.Steps (Step E) s es s')
    (hs : s.main = .idle) (hes : es.filter Event.visible = []) (h : J s.query) :
    s'.main = .idle ∧ J s'.query := by
  induction hrun with
  | refl => exact ⟨hs, h⟩
  | @cons s s₁ s₂ e es hstep _ ih =>
    obtain ⟨m, q⟩ := s
    obtain ⟨m₁, q₁⟩ := s₁
    obtain rfl : m = .idle := hs
    rcases step_cases hstep with ⟨op, _, rfl, _, _⟩ | ha | ⟨rfl, rfl, ht⟩
    · cases hes
    · exact absurd ha advance_not_idle
    · exact ih rfl hes (hJ _ _ h ht)

/-- Inside a call: `Φ` at every control point, `J` after the return. -/
theorem entered_rule {Φ : Main → DataQuery → Prop} {J : Ret → DataQuery → Prop}
    (hΦ : ∀ m q m' q', Φ m q → Advance E m q .tau m' q' → Φ m' q')
    (hΦt : ∀ m q q', Φ m q → ThreadStep E q q' → Φ m q')
    (hret : ∀ m q v q', Φ m q → Advance E m q (.ret v) .idle q' → J v q')
    (hJ : ∀ v q q', J v q → ThreadStep E q q' → J v q')
    {s s' : State} {es : List Event} (hrun : Lts.Steps (Step E) s es s')
    (hs' : s'.main = .idle) (hes : es.filter Event.visible = [.ret v]) (h : Φ s.main s.query) :
    J v s'.query := by
  induction hrun with
  | refl => cases hes
  | @cons s s₁ s₂ e es hstep hrest ih =>
    obtain ⟨m, q⟩ := s
    obtain ⟨m₁, q₁⟩ := s₁
    rcases step_cases hstep with ⟨op, _, rfl, _, _⟩ | ha | ⟨rfl, rfl, ht⟩
    · cases hes
    · rcases advance_event ha with rfl | ⟨v', rfl, rfl⟩
      · exact ih hs' hes (hΦ _ _ _ _ h ha)
      · simp only [List.filter_cons, Event.visible, if_true, List.cons.injEq,
          Event.ret.injEq] at hes
        obtain ⟨rfl, hes⟩ := hes
        exact (idle_rule (hJ v') hrest rfl hes (hret _ _ _ _ h ha)).2
    · exact ih hs' hes (hΦt _ _ _ h ht)

theorem Call.rule {I : DataQuery → Prop} {Φ : Main → DataQuery → Prop}
    {J : Ret → DataQuery → Prop} (hI : ∀ q q', I q → ThreadStep E q q' → I q')
    (hcall : ∀ q, I q → Φ (.entered op) q)
    (hΦ : ∀ m q m' q', Φ m q → Advance E m q .tau m' q' → Φ m' q')
    (hΦt : ∀ m q q', Φ m q → ThreadStep E q q' → Φ m q')
    (hret : ∀ m q v q', Φ m q → Advance E m q (.ret v) .idle q' → J v q')
    (hJ : ∀ v q q', J v q → ThreadStep E q q' → J v q')
    (h : Call E q op v q') (hq : I q) : J v q' := by
  obtain ⟨es, hrun, hes⟩ := h
  generalize hs : (⟨.idle, q⟩ : State) = s at hrun
  generalize hs' : (⟨.idle, q'⟩ : State) = s' at hrun
  induction hrun generalizing q with
  | refl => cases hes
  | @cons s s₁ s₂ e es hstep hrest ih =>
    subst hs
    obtain ⟨m₁, q₁⟩ := s₁
    rcases step_cases hstep with ⟨op', _, rfl, rfl, rfl⟩ | ha | ⟨rfl, rfl, ht⟩
    · simp only [List.filter_cons, Event.visible, if_true, List.cons.injEq, Event.call.injEq] at hes
      obtain ⟨rfl, hes⟩ := hes
      have := entered_rule hΦ hΦt hret hJ hrest (by rw [← hs']) hes (hcall _ hq)
      rw [← hs'] at this
      exact this
    · exact absurd ha advance_not_idle
    · exact ih (hI _ _ hq ht) hes rfl hs'

/-- The call `op` made on `q` returns: it is never stuck and makes boundedly many silent steps. -/
def Returns (E : Env) (q : DataQuery) (op : Op) : Prop :=
  ∃ n, ∀ es s, Lts.Steps (Step E) ⟨.entered op, q⟩ es s → (∀ e ∈ es, e = .tau) →
    es.length ≤ n ∧ ∃ e s', Step E s e s'

theorem Returns.rule {Φ : Nat → Main → DataQuery → Prop}
    (hΦ : ∀ n m q m' q', Φ n m q → Advance E m q .tau m' q' → ∃ n' < n, Φ n' m' q')
    (hΦt : ∀ n m q q', Φ n m q → ThreadStep E q q' → ∃ n' < n, Φ n' m q')
    (hprog : ∀ n m q, Φ n m q → ∃ e s', Step E ⟨m, q⟩ e s') {n : Nat}
    (h : Φ n (.entered op) q) : Returns E q op := by
  refine ⟨n, fun es s hrun hes => ?_⟩
  have hbound : ∃ k, Φ k s.main s.query ∧ k + es.length ≤ n := by
    generalize hs : (⟨.entered op, q⟩ : State) = s₀ at hrun
    replace h : Φ n s₀.main s₀.query := by rw [← hs]; exact h
    clear hs
    induction hrun generalizing n with
    | refl => exact ⟨n, h, by simp⟩
    | @cons s s₁ s₂ e es hstep _ ih =>
      obtain ⟨m, q⟩ := s
      obtain ⟨m₁, q₁⟩ := s₁
      obtain rfl : e = .tau := hes e List.mem_cons_self
      have hnext : ∃ n' < n, Φ n' m₁ q₁ := by
        rcases step_cases hstep with ⟨op, _, he, _, _⟩ | ha | ⟨_, rfl, ht⟩
        · cases he
        · exact hΦ _ _ _ _ _ h ha
        · exact hΦt _ _ _ _ h ht
      obtain ⟨n', hlt, h'⟩ := hnext
      obtain ⟨k, hk, hle⟩ := ih (fun e he => hes e (List.mem_cons_of_mem _ he)) h'
      refine ⟨k, hk, ?_⟩
      simp only [List.length_cons]
      omega
  obtain ⟨k, hk, hle⟩ := hbound
  exact ⟨by omega, hprog k s.main s.query hk⟩

theorem advance_silent_not_idle (h : Advance E m q .tau m' q') : m' ≠ .idle := by
  cases h with
  | fetchRow _ _ hr | switchLast _ _ hr | switchNext _ _ _ hr => cases hr.event
  | _ => nofun

/-- Some run from `s` inside a call reaches its return. -/
def Completes (E : Env) (s : State) : Prop :=
  ∃ es v q', Lts.Steps (Step E) s es ⟨.idle, q'⟩ ∧ es.filter Event.visible = [.ret v]

/-- A step inside a call returns, unless it is silent and stays inside. -/
theorem completes_step {s s' : State} (hm : s.main ≠ .idle) (hs : Step E s e s')
    (h : e = .tau → s'.main ≠ .idle → Completes E s') : Completes E s := by
  obtain ⟨m, q⟩ := s
  obtain ⟨m', q'⟩ := s'
  have silent : e = .tau → m' ≠ .idle → Completes E ⟨m, q⟩ := by
    rintro rfl hm'
    obtain ⟨es, v, q'', hes, hv⟩ := h rfl hm'
    exact ⟨.tau :: es, v, q'', .cons hs hes, hv⟩
  rcases step_cases hs with ⟨op, rfl, _⟩ | ha | ⟨rfl, rfl, ht⟩
  · exact absurd rfl hm
  · rcases advance_event ha with rfl | ⟨v, rfl, rfl⟩
    · exact silent rfl (advance_silent_not_idle ha)
    · exact ⟨[.ret v], v, q', .single hs, rfl⟩
  · exact silent rfl hm

theorem silent_snoc {es : List Event} (hes : ∀ f ∈ es, f = .tau) (he : e = .tau) :
    ∀ f ∈ es ++ [e], f = .tau := by
  intro f hf
  rcases List.mem_append.mp hf with hf | hf
  · exact hes f hf
  · rw [List.mem_singleton.mp hf, he]

/-- A call that returns has a run to its return. -/
theorem Returns.exists_call (h : Returns E q op) : ∃ v q', Call E q op v q' := by
  obtain ⟨n, hn⟩ := h
  have hcomplete : ∀ k es s, n ≤ es.length + k → s.main ≠ .idle →
      Lts.Steps (Step E) ⟨.entered op, q⟩ es s → (∀ e ∈ es, e = .tau) → Completes E s := by
    intro k
    induction k with
    | zero =>
      intro es s hk hm hs hes
      obtain ⟨e, s', hstep⟩ := (hn es s hs hes).2
      refine completes_step hm hstep fun htau _ => ?_
      have hlen := (hn (es ++ [e]) s' (hs.snoc hstep) (silent_snoc hes htau)).1
      simp only [List.length_append, List.length_singleton] at hlen
      omega
    | succ k ih =>
      intro es s hk hm hs hes
      obtain ⟨e, s', hstep⟩ := (hn es s hs hes).2
      refine completes_step hm hstep fun htau hm' => ?_
      refine ih (es ++ [e]) s' ?_ hm' (hs.snoc hstep) (silent_snoc hes htau)
      simp only [List.length_append, List.length_singleton]
      omega
  obtain ⟨es, v, q', hes, hv⟩ := hcomplete n [] ⟨.entered op, q⟩ (by simp) nofun .refl (by simp)
  refine ⟨v, q', .call op :: es, .cons (.call op) hes, ?_⟩
  rw [List.filter_cons, hv]
  rfl

end Rule

theorem replay_call {service : Service} {read : ReadToBuffer} (ms : List Move) {q q' : DataQuery}
    {op : Op} {v : Ret} {es : List Event}
    (h : replay service read (fun _ => true) ms ⟨.idle, q⟩ = some (es, ⟨.idle, q'⟩))
    (hes : es.filter Event.visible = [.call op, .ret v]) : Call (service.env read) q op v q' :=
  ⟨es, (replay_steps _ (G := fun _ _ _ => True) (fun _ _ _ _ => trivial) ms h).of_restrict, hes⟩

end TrinoOdbc
