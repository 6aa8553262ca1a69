import Mathlib.Data.List.Basic

/-!
# TrinoOdbc.Lts

Runs of a labelled transition relation.

* `Steps step s es s'` — `s'` is reached from `s` by finitely many steps with events `es`.
* `Steps.invariant` — what one step preserves, a run preserves.
* `Restrict step G` — the steps of `step` that meet `G`; a run of it is a run all of whose steps
  meet `G`.
* `Steps.simulates` — a forward simulation of single steps is one of runs.
* `Steps.measure_le` — a measure that every step decreases bounds the length of a run.
* `always_iff`, `each_iff` — when the next state is a function of the event: what holds in every
  state of a run, or of every step of it, exactly when every step meets a condition.
-/

namespace Lts

variable {σ τ ε : Type*}

inductive Steps (step : σ → ε → σ → Prop) : σ → List ε → σ → Prop where
  | refl {s : σ} : Steps step s [] s
  | cons {s s' s'' : σ} {e : ε} {es : List ε} :
      step s e s' → Steps step s' es s'' → Steps step s (e :: es) s''

/-- The steps that meet `G`. -/
def Restrict (step : σ → ε → σ → Prop) (G : σ → ε → σ → Prop) (s : σ) (e : ε) (s' : σ) : Prop :=
  step s e s' ∧ G s e s'

/-- `s` is reached by some run from a state in `init`. -/
def Reachable (step : σ → ε → σ → Prop) (init : σ → Prop) (s : σ) : Prop :=
  ∃ s₀ es, init s₀ ∧ Steps step s₀ es s

namespace Steps

variable {step : σ → ε → σ → Prop}

theorem single {s s' : σ} {e : ε} (h : step s e s') : Steps step s [e] s' := .cons h .refl

theorem trans {s s' s'' : σ} {es fs : List ε} (h₁ : Steps step s es s')
    (h₂ : Steps step s' fs s'') : Steps step s (es ++ fs) s'' := by
  induction h₁ with
  | refl => exact h₂
  | cons hs _ ih => exact .cons hs (ih h₂)

theorem snoc {s s' s'' : σ} {es : List ε} {e : ε} (h₁ : Steps step s es s')
    (h₂ : step s' e s'') : Steps step s (es ++ [e]) s'' := h₁.trans (.single h₂)

/-- What one step preserves, a run preserves. -/
theorem invariant {I : σ → Prop} (hstep : ∀ s e s', I s → step s e s' → I s') {s s' : σ}
    {es : List ε} (h : Steps step s es s') (hI : I s) : I s' := by
  induction h with
  | refl => exact hI
  | cons hs _ ih => exact ih (hstep _ _ _ hI hs)

/-- The same for a run whose events all satisfy `P`, when only such steps preserve `I`. -/
theorem invariant_of {I : σ → Prop} {P : ε → Prop}
    (hstep : ∀ s e s', I s → P e → step s e s' → I s') {s s' : σ} {es : List ε}
    (h : Steps step s es s') (hP : ∀ e ∈ es, P e) (hI : I s) : I s' := by
  induction h with
  | refl => exact hI
  | cons hs _ ih =>
    exact ih (fun e he => hP e (List.mem_cons_of_mem _ he))
      (hstep _ _ _ hI (hP _ List.mem_cons_self) hs)

theorem mono {step' : σ → ε → σ → Prop} (hm : ∀ s e s', step s e s' → step' s e s') {s s' : σ}
    {es : List ε} (h : Steps step s es s') : Steps step' s es s' := by
  induction h with
  | refl => exact .refl
  | cons hs _ ih => exact .cons (hm _ _ _ hs) ih

theorem of_restrict {G : σ → ε → σ → Prop} {s s' : σ} {es : List ε}
    (h : Steps (Restrict step G) s es s') : Steps step s es s' :=
  h.mono fun _ _ _ hs => hs.1

/-- A relation that every step respects, on matching events, is respected by runs: here by those
whose events all satisfy `P`. -/
theorem simulates {step' : τ → ε → τ → Prop} {R : σ → τ → Prop} {P : ε → Prop}
    (hsim : ∀ s e s' t, R s t → P e → step s e s' → ∃ t', step' t e t' ∧ R s' t') {s s' : σ}
    {es : List ε} (h : Steps step s es s') (hP : ∀ e ∈ es, P e) :
    ∀ {t : τ}, R s t → ∃ t', Steps step' t es t' ∧ R s' t' := by
  induction h with
  | refl => intro t hR; exact ⟨t, .refl, hR⟩
  | cons hs _ ih =>
    intro t hR
    obtain ⟨t₁, ht, hR₁⟩ := hsim _ _ _ _ hR (hP _ List.mem_cons_self) hs
    obtain ⟨t', hts, hR'⟩ := ih (fun e he => hP e (List.mem_cons_of_mem _ he)) hR₁
    exact ⟨t', .cons ht hts, hR'⟩

/-- If every step decreases a measure, the measure bounds the length of the run. -/
theorem measure_le {μ : σ → Nat} (hdec : ∀ s e s', step s e s' → μ s' < μ s) {s s' : σ}
    {es : List ε} (h : Steps step s es s') : μ s' + es.length ≤ μ s := by
  induction h with
  | refl => simp
  | cons hs _ ih =>
    have := hdec _ _ _ hs
    simp only [List.length_cons]
    omega

end Steps

namespace Reachable

variable {step : σ → ε → σ → Prop} {init : σ → Prop}

theorem of_init {s : σ} (h : init s) : Reachable step init s := ⟨s, [], h, .refl⟩

/-- An invariant of the steps that holds initially holds in every reachable state. -/
theorem invariant {I : σ → Prop} (h0 : ∀ s, init s → I s)
    (hstep : ∀ s e s', I s → step s e s' → I s') {s : σ} (h : Reachable step init s) : I s := by
  obtain ⟨s₀, es, hi, hr⟩ := h
  exact hr.invariant hstep (h0 _ hi)

end Reachable

/-! ## Steps that are a function -/

section Function

variable (apply : σ → ε → σ)

/-- `P` holds in every state of the run of `es` from a state. -/
def Always (P : σ → Prop) : σ → List ε → Prop
  | s, [] => P s
  | s, e :: es => P s ∧ Always P (apply s e) es

/-- `L` holds of every step of the run. -/
def Each (L : σ → ε → Prop) : σ → List ε → Prop
  | _, [] => True
  | s, e :: es => L s e ∧ Each L (apply s e) es

variable {apply} {P I : σ → Prop} {L G : σ → ε → Prop}

theorem Always.head {s : σ} {es : List ε} (h : Always apply P s es) : P s := by
  cases es with
  | nil => exact h
  | cons e es => exact h.1

theorem Always.last {s : σ} {es : List ε} (h : Always apply P s es) : P (es.foldl apply s) := by
  induction es generalizing s with
  | nil => exact h
  | cons e es ih => exact ih h.2

/-- Along an invariant `I` of all steps: when the steps from states with `P` that keep it are those
that meet `G`, the runs that stay in `P` are those all of whose steps meet `G`. -/
theorem always_iff (hI : ∀ s e, I s → I (apply s e))
    (hstep : ∀ s e, I s → P s → (P (apply s e) ↔ G s e)) {s : σ} {es : List ε} (hi : I s)
    (hs : P s) : Always apply P s es ↔ Each apply G s es := by
  induction es generalizing s with
  | nil => exact iff_of_true hs trivial
  | cons e es ih =>
    constructor
    · intro h
      have hnext := h.2.head
      exact ⟨(hstep s e hi hs).mp hnext, (ih (hI s e hi) hnext).mp h.2⟩
    · intro h
      have hnext := (hstep s e hi hs).mpr h.1
      exact ⟨hs, (ih (hI s e hi) hnext).mpr h.2⟩

/-- The same for a law about single steps, along an invariant of the steps that meet `G`. -/
theorem each_iff (hI : ∀ s e, I s → G s e → I (apply s e)) (hstep : ∀ s e, I s → (L s e ↔ G s e))
    {s : σ} {es : List ε} (hs : I s) : Each apply L s es ↔ Each apply G s es := by
  induction es generalizing s with
  | nil => exact Iff.rfl
  | cons e es ih =>
    constructor
    · intro h
      have hG := (hstep s e hs).mp h.1
      exact ⟨hG, (ih (hI s e hs hG)).mp h.2⟩
    · intro h
      exact ⟨(hstep s e hs).mpr h.1, (ih (hI s e hs h.1)).mpr h.2⟩

end Function

end Lts
