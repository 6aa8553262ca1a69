import TrinoOdbc.Lts

/-!
# TrinoOdbc.RefCursor

The cursor over a result, as a reader sees it: fetches move it from row to row and then behind the
last one, looks read an entry of the row it is on, and it tells the number of that row.

* `Spec` — the result: its size, the entries of its rows, and what a look may return off the rows.
* `Step sees G` — one operation of a cursor whose looks see row `sees p` at place `p`.
* `strict` sees a row when the cursor is on it; `eager` sees the first row also before the first
  fetch.
* `conforms_iff` — a run of the eager cursor is one of the strict cursor exactly when no operation
  before the first fetch tells that it saw the first row.
-/

namespace RefCursor

open Lts

/-- Rows count from 1. -/
inductive Place where
  | before
  | on (k : Nat)
  | after

inductive Fetch where
  | row | ended | failed
  deriving DecidableEq

/-- An operation with what it returned. -/
inductive Event (β ι ο : Type*) where
  | fetch (how : β) (r : Fetch)
  | look (i : ι) (o : ο)
  | number (n : Int)

/-- `numbered` says whether the cursor has to tell row numbers. -/
structure Spec (ι ο : Type*) where
  size : Nat
  value : Nat → ι → ο
  Silent : ο → Prop
  numbered : Prop

/-- The rows that have been fetched. -/
def Place.passed (size : Nat) : Place → Nat
  | .before => 0
  | .on k => k
  | .after => size

def strict : Place → Option Nat
  | .on k => some k
  | .before | .after => none

def eager : Place → Option Nat
  | .before => some 1
  | .on k => some k
  | .after => none

variable {β ι ο : Type*}

/-- What a look at entry `i` returns. -/
def Spec.Shows (G : Spec ι ο) (i : ι) (o : ο) : Option Nat → Prop
  | some k => o = G.value k i
  | none => G.Silent o

inductive Step (sees : Place → Option Nat) (G : Spec ι ο) : Place → Event β ι ο → Place → Prop where
  | row {p : Place} {how : β} : p.passed G.size < G.size →
      Step sees G p (.fetch how .row) (.on (p.passed G.size + 1))
  | ended {p : Place} {how : β} : p.passed G.size = G.size →
      Step sees G p (.fetch how .ended) .after
  | look {p : Place} {i : ι} {o : ο} : G.Shows i o (sees p) → Step sees G p (.look i o) p
  | number {p : Place} {n : Int} : (G.numbered → n = (sees p).getD 0) →
      Step sees G p (.number n) p

/-- The operations are those of a strict cursor. -/
def Conforms (G : Spec ι ο) (es : List (Event β ι ο)) : Prop :=
  ∃ p, Steps (Step strict G) .before es p

def Event.isFetch : Event β ι ο → Bool
  | .fetch _ _ => true
  | .look _ _ | .number _ => false

/-- The operations before the first fetch. -/
def beforeFetch (es : List (Event β ι ο)) : List (Event β ι ο) := es.takeWhile (!·.isFetch)

/-- An operation that does not tell the first row from no row. -/
def Harmless (G : Spec ι ο) : Event β ι ο → Prop
  | .fetch _ _ => True
  | .look i _ => G.Silent (G.value 1 i)
  | .number _ => ¬ G.numbered

variable {G : Spec ι ο} {p p' : Place} {e : Event β ι ο} {es : List (Event β ι ο)}

theorem sees_eq (h : p ≠ .before) : eager p = strict p := by
  cases p with
  | before => exact absurd rfl h
  | on k => rfl
  | after => rfl

/-- Once it has been fetched from, the eager cursor is the strict one. -/
theorem step_strict (h : Step eager G p e p') (hp : p ≠ .before) :
    Step strict G p e p' ∧ p' ≠ .before := by
  cases h with
  | row hlt => exact ⟨.row hlt, nofun⟩
  | ended heq => exact ⟨.ended heq, nofun⟩
  | look hs => exact ⟨.look (by rw [← sees_eq hp]; exact hs), hp⟩
  | number hn => exact ⟨.number (by rw [← sees_eq hp]; exact hn), hp⟩

theorem steps_strict (h : Steps (Step eager G) p es p') (hp : p ≠ .before) :
    Steps (Step strict G) p es p' := by
  induction h with
  | refl => exact .refl
  | cons hs _ ih =>
    obtain ⟨hstrict, hne⟩ := step_strict hs hp
    exact .cons hstrict (ih hne)

/-- An operation other than a fetch, of the cursor that stands on the first row already. -/
theorem strict_iff_harmless (h : Step eager G .before e p') (he : e.isFetch = false) :
    p' = .before ∧ ∀ p'', Step strict G .before e p'' ↔ p'' = .before ∧ Harmless G e := by
  cases h with
  | row _ | ended _ => cases he
  | @look i o hshow =>
    obtain rfl : o = G.value 1 i := hshow
    refine ⟨rfl, fun p'' => ⟨fun hs => ?_, ?_⟩⟩
    · cases hs with
      | look hsilent => exact ⟨rfl, hsilent⟩
    · rintro ⟨rfl, hsilent⟩
      exact .look hsilent
  | number hn =>
    refine ⟨rfl, fun p'' => ⟨fun hs => ?_, ?_⟩⟩
    · cases hs with
      | number hn' =>
        refine ⟨rfl, fun hnum => ?_⟩
        have h1 := hn hnum
        have h0 := hn' hnum
        rw [h1] at h0
        cases h0
    · rintro ⟨rfl, hnum⟩
      exact .number fun h => absurd h hnum

theorem strict_of_fetch (h : Step eager G .before e p') (he : e.isFetch = true) :
    Step strict G .before e p' ∧ p' ≠ .before := by
  cases h with
  | row hlt => exact ⟨.row hlt, nofun⟩
  | ended heq => exact ⟨.ended heq, nofun⟩
  | look _ | number _ => cases he

theorem conforms_iff (h : Steps (Step eager G) .before es p) :
    Conforms G es ↔ ∀ e ∈ beforeFetch es, Harmless G e := by
  generalize hb : Place.before = b at h
  induction h with
  | refl =>
    subst hb
    exact ⟨fun _ => nofun, fun _ => ⟨_, .refl⟩⟩
  | @cons s s₁ s₂ e es hs hrest ih =>
    subst hb
    cases he : e.isFetch with
    | true =>
      obtain ⟨hstrict, hne⟩ := strict_of_fetch hs he
      rw [beforeFetch, List.takeWhile_cons_of_neg (by simp [he])]
      exact ⟨fun _ => nofun, fun _ => ⟨_, .cons hstrict (steps_strict hrest hne)⟩⟩
    | false =>
      obtain ⟨rfl, hiff⟩ := strict_iff_harmless hs he
      rw [beforeFetch, List.takeWhile_cons_of_pos (by simp [he]), List.forall_mem_cons,
        ← beforeFetch, ← ih rfl]
      constructor
      · rintro ⟨p', hrun⟩
        cases hrun with
        | cons hs' hrun' =>
          obtain ⟨rfl, hharm⟩ := (hiff _).mp hs'
          exact ⟨hharm, p', hrun'⟩
      · rintro ⟨hharm, p', hrun'⟩
        exact ⟨p', .cons ((hiff _).mpr ⟨rfl, hharm⟩) hrun'⟩

end RefCursor
