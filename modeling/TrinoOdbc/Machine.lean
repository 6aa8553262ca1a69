import Mathlib.Data.List.Basic
import Mathlib.Data.List.Induction
import Mathlib.Logic.Function.Basic

/-!
# TrinoOdbc.Machine

Machines that answer: a step takes an event and gives the next state and an answer.

* `answers`, `after` — the answers to a list of events, and the state they lead to.
* `Simulates` — a relation of states that events keep, with equal answers.
* `Simulates.run` — such a relation is kept by whole runs, and their answers are equal.
* `lastWritten` — what the events of a run have last written to a cell.
* `Inbox` — a queue that remembers what it has handed out, with `Inbox.marked`, the same as a list
  of elements that are marked as taken.
-/

namespace Machine

variable {σ τ ε ω α : Type*}

/-- The state the events lead to. -/
def after (step : σ → ε → σ × ω) : σ → List ε → σ
  | s, [] => s
  | s, e :: es => after step (step s e).1 es

/-- One answer for each event. -/
def answers (step : σ → ε → σ × ω) : σ → List ε → List ω
  | _, [] => []
  | s, e :: es => (step s e).2 :: answers step (step s e).1 es

/-- States that `R` relates answer alike, and stay related. -/
def Simulates (R : σ → τ → Prop) (step : σ → ε → σ × ω) (step' : τ → ε → τ × ω) : Prop :=
  ∀ s t e, R s t → (step s e).2 = (step' t e).2 ∧ R (step s e).1 (step' t e).1

section Run

variable {step : σ → ε → σ × ω} {step' : τ → ε → τ × ω} {R : σ → τ → Prop} {I : σ → Prop}

@[simp] theorem after_nil (s : σ) : after step s [] = s := rfl

@[simp] theorem after_cons (s : σ) (e : ε) (es : List ε) :
    after step s (e :: es) = after step (step s e).1 es := rfl

@[simp] theorem answers_nil (s : σ) : answers step s [] = [] := rfl

@[simp] theorem answers_cons (s : σ) (e : ε) (es : List ε) :
    answers step s (e :: es) = (step s e).2 :: answers step (step s e).1 es := rfl

theorem after_append (s : σ) (es fs : List ε) :
    after step s (es ++ fs) = after step (after step s es) fs := by
  induction es generalizing s with
  | nil => rfl
  | cons e es ih => exact ih _

theorem answers_append (s : σ) (es fs : List ε) :
    answers step s (es ++ fs) = answers step s es ++ answers step (after step s es) fs := by
  induction es generalizing s with
  | nil => rfl
  | cons e es ih => simp only [List.cons_append, answers_cons, after_cons, ih]

/-- Related states answer a run alike, and are related after it. -/
theorem Simulates.run (h : Simulates R step step') {s : σ} {t : τ} (hR : R s t) (es : List ε) :
    answers step s es = answers step' t es ∧ R (after step s es) (after step' t es) := by
  induction es generalizing s t with
  | nil => exact ⟨rfl, hR⟩
  | cons e es ih =>
    obtain ⟨hanswer, hnext⟩ := h s t e hR
    obtain ⟨hanswers, hlast⟩ := ih hnext
    exact ⟨by rw [answers_cons, answers_cons, hanswer, hanswers], hlast⟩

/-- What a step preserves, a run preserves. -/
theorem after_invariant (hstep : ∀ s e, I s → I (step s e).1) {s : σ} (hs : I s) (es : List ε) :
    I (after step s es) := by
  induction es generalizing s with
  | nil => exact hs
  | cons e es ih => exact ih (hstep s e hs)

end Run

/-! ## Cells -/

section Cells

variable {κ ν : Type*} [DecidableEq κ]

/-- What an event writes to a cell. `write` has the cell it writes, if any, and the value. -/
def writtenTo (write : ε → Option (κ × ν)) (k : κ) (e : ε) : Option ν :=
  (write e).bind fun p => if p.1 = k then some p.2 else none

/-- The value of a cell after a run: what the last event that writes to it has written. -/
def lastWritten (write : ε → Option (κ × ν)) (init : κ → ν) (es : List ε) (k : κ) : ν :=
  (es.reverse.findSome? (writtenTo write k)).getD (init k)

variable {write : ε → Option (κ × ν)} {init : κ → ν}

@[simp] theorem lastWritten_nil : lastWritten write init [] = init := rfl

theorem lastWritten_snoc (es : List ε) (e : ε) :
    lastWritten write init (es ++ [e]) =
      match write e with
      | some (k, v) => Function.update (lastWritten write init es) k v
      | none => lastWritten write init es := by
  funext k
  cases hwrite : write e with
  | none => simp [lastWritten, writtenTo, hwrite]
  | some p =>
    obtain ⟨k', v⟩ := p
    by_cases hk : k = k'
    · simp [lastWritten, writtenTo, hwrite, hk]
    · simp [lastWritten, writtenTo, hwrite, hk, Ne.symm hk]

end Cells

/-! ## A queue that remembers -/

/-- `delivered` has been handed out, `pending` is to be, in this order. -/
structure Inbox (α : Type*) where
  delivered : List α := []
  pending : List α := []

namespace Inbox

def all (q : Inbox α) : List α := q.delivered ++ q.pending

def add (q : Inbox α) (a : α) : Inbox α := { q with pending := q.pending ++ [a] }

/-- The next element is handed out. -/
def deliver (q : Inbox α) : Inbox α :=
  ⟨q.delivered ++ q.pending.take 1, q.pending.drop 1⟩

/-- The elements, with whether they have been handed out. -/
def marked (q : Inbox α) : List (α × Bool) :=
  q.delivered.map (fun a => (a, true)) ++ q.pending.map fun a => (a, false)

/-- The first element that is not marked becomes marked. -/
def markFirst : List (α × Bool) → List (α × Bool)
  | [] => []
  | (a, true) :: l => (a, true) :: markFirst l
  | (a, false) :: l => (a, true) :: l

variable {q : Inbox α}

@[simp] theorem all_add (a : α) : (q.add a).all = q.all ++ [a] := by
  simp [add, all]

@[simp] theorem all_deliver : q.deliver.all = q.all := by
  simp only [deliver, all, List.append_assoc, List.take_append_drop]

theorem marked_fst : q.marked.map Prod.fst = q.all := by
  simp [marked, all, List.map_map, Function.comp_def]

theorem marked_add (a : α) : (q.add a).marked = q.marked ++ [(a, false)] := by
  simp [add, marked]

theorem find_marked : q.marked.find? (fun p => p.2 = false) = q.pending.head?.map (·, false) := by
  have hdone : (q.delivered.map fun a => (a, true)).find? (fun p => p.2 = false) = none := by
    rw [List.find?_eq_none]
    intro p hp
    obtain ⟨a, -, rfl⟩ := List.mem_map.mp hp
    simp
  rw [marked, List.find?_append, hdone, Option.none_or]
  cases q.pending <;> simp

/-- Marking the first unmarked element by its place. -/
theorem modify_findIdx (l : List (α × Bool)) :
    match l.findIdx? (fun p => p.2 = false) with
    | some i => i < l.length ∧ l[i]? = l.find? (fun p => p.2 = false) ∧
        l.modify i (fun p => (p.1, true)) = markFirst l
    | none => l.find? (fun p => p.2 = false) = none ∧ markFirst l = l := by
  induction l with
  | nil => exact ⟨rfl, rfl⟩
  | cons p l ih =>
    obtain ⟨a, mark⟩ := p
    cases mark with
    | false => simp [List.findIdx?_cons, markFirst, List.modify_cons]
    | true =>
      simp only [List.findIdx?_cons, Bool.true_eq_false, decide_false, Bool.false_eq_true, if_false]
      cases hidx : l.findIdx? (fun p => p.2 = false) with
      | none =>
        simp only [hidx] at ih
        simpa [markFirst] using ih
      | some i =>
        simp only [hidx] at ih
        simpa [markFirst, List.modify_cons] using ih

theorem markFirst_marked : markFirst q.marked = q.deliver.marked := by
  obtain ⟨delivered, pending⟩ := q
  induction delivered with
  | nil => cases pending <;> simp [marked, deliver, markFirst]
  | cons a delivered ih =>
    simp only [marked, deliver, List.map_cons, List.cons_append, markFirst] at ih ⊢
    rw [ih]

end Inbox

end Machine
