import Mathlib.Data.List.Basic

/-!
# TrinoOdbc.Loops

Counted loops whose body can fail, and what they return.

* `Yields x P` — the computation `x` does not fail, and `P` holds of its value.
* `up_yields`, `down_yields` — an invariant that the body keeps holds when a loop ends.
* `up_eq`, `down_eq` — the state of each round is known.
-/

namespace Loops

universe u

variable {ε : Type*} {α β σ : Type u}

@[simp] theorem ok_bind (a : α) (f : α → Except ε β) : (Except.ok a >>= f) = f a := rfl

@[simp] theorem error_bind (e : ε) (f : α → Except ε β) :
    ((.error e : Except ε α) >>= f) = .error e := rfl

/-- The computation ends without a fault, with a value of which `P` holds. -/
def Yields (x : Except ε α) (P : α → Prop) : Prop := ∃ a, x = .ok a ∧ P a

namespace Yields

variable {x : Except ε α} {P Q : α → Prop}

theorem ok {a : α} (h : P a) : Yields (.ok a : Except ε α) P := ⟨a, rfl, h⟩

theorem mono (h : Yields x P) (hPQ : ∀ a, P a → Q a) : Yields x Q := by
  obtain ⟨a, hx, hP⟩ := h
  exact ⟨a, hx, hPQ a hP⟩

theorem bind {f : α → Except ε β} {R : β → Prop} (h : Yields x P)
    (hf : ∀ a, P a → Yields (f a) R) : Yields (x >>= f) R := by
  obtain ⟨a, hx, hP⟩ := h
  obtain ⟨b, hb, hR⟩ := hf a hP
  exact ⟨b, by rw [hx]; exact hb, hR⟩

theorem map {f : α → β} {R : β → Prop} (h : Yields x P) (hf : ∀ a, P a → R (f a)) :
    Yields (x.map f) R := by
  obtain ⟨a, hx, hP⟩ := h
  exact ⟨f a, by rw [hx]; rfl, hf a hP⟩

theorem ok_iff {a : α} : Yields (.ok a : Except ε α) P ↔ P a := by
  constructor
  · rintro ⟨b, hb, hP⟩
    rw [Except.ok.inj hb]
    exact hP
  · exact ok

end Yields

/-- The body for `0`, `1` and so on, below the bound. -/
def up (body : Nat → σ → Except ε σ) : Nat → σ → Except ε σ
  | 0, s => .ok s
  | n + 1, s => up body n s >>= body n

/-- The body for the numbers below the bound, the largest first. -/
def down (body : Nat → σ → Except ε σ) : Nat → σ → Except ε σ
  | 0, s => .ok s
  | n + 1, s => body n s >>= down body n

variable {body : Nat → σ → Except ε σ} {I : Nat → σ → Prop} {n : Nat} {s : σ}

theorem up_yields (hinit : I 0 s)
    (hbody : ∀ i s, i < n → I i s → Yields (body i s) (I (i + 1))) :
    Yields (up body n s) (I n) := by
  induction n with
  | zero => exact .ok hinit
  | succ n ih =>
    have hbefore := ih fun i s hi => hbody i s (Nat.lt_succ_of_lt hi)
    exact hbefore.bind fun s hs => hbody n s (Nat.lt_succ_self n) hs

theorem down_yields (hinit : I n s)
    (hbody : ∀ i s, i < n → I (i + 1) s → Yields (body i s) (I i)) :
    Yields (down body n s) (I 0) := by
  induction n generalizing s with
  | zero => exact .ok hinit
  | succ n ih =>
    have hfirst := hbody n s (Nat.lt_succ_self n) hinit
    exact hfirst.bind fun s hs => ih hs fun i s hi => hbody i s (Nat.lt_succ_of_lt hi)

variable {f : Nat → σ}

theorem up_eq (h : ∀ i, i < n → body i (f i) = .ok (f (i + 1))) :
    up body n (f 0) = .ok (f n) := by
  induction n with
  | zero => rfl
  | succ n ih =>
    have hbefore := ih fun i hi => h i (Nat.lt_succ_of_lt hi)
    rw [up, hbefore, ok_bind, h n (Nat.lt_succ_self n)]

theorem down_eq (h : ∀ i, i < n → body i (f (i + 1)) = .ok (f i)) :
    down body n (f n) = .ok (f 0) := by
  induction n with
  | zero => rfl
  | succ n ih =>
    rw [down, h n (Nat.lt_succ_self n), ok_bind, ih fun i hi => h i (Nat.lt_succ_of_lt hi)]

end Loops
