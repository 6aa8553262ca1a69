import Mathlib.Data.Finset.Insert
import Mathlib.Data.Finset.Erase
import Mathlib.Logic.Function.Basic

/-!
# TrinoOdbc.Naming

A partial naming of objects with distinct names, kept beside the set of the names in use.

`Exact` is the invariant; `release` keeps it, and `assign_iff` says when a new name does.
-/

namespace Naming

variable {α β : Type*}

/-- The naming is injective and the set is its range. -/
structure Exact (names : Finset β) (nameOf : α → Option β) : Prop where
  unique : ∀ a a' b, nameOf a = some b → nameOf a' = some b → a = a'
  mem_iff : ∀ b, b ∈ names ↔ ∃ a, nameOf a = some b

variable {names : Finset β} {nameOf : α → Option β}

theorem exact_empty : Exact (∅ : Finset β) (fun _ : α => none) := by
  refine ⟨fun a a' b h => ?_, fun b => ?_⟩
  · cases h
  · simp

theorem Exact.not_mem (h : Exact names nameOf) {a : α} {b : β} (hb : b ∉ names) :
    nameOf a ≠ some b := by
  intro ha
  exact hb ((h.mem_iff b).mpr ⟨a, ha⟩)

variable [DecidableEq β]

/-- The names without that of an object. -/
def eraseOf (names : Finset β) : Option β → Finset β
  | none => names
  | some old => names.erase old

theorem mem_eraseOf {old : Option β} {b : β} :
    b ∈ eraseOf names old ↔ b ∈ names ∧ old ≠ some b := by
  cases old with
  | none => simp [eraseOf]
  | some old => simp [eraseOf, and_comm, eq_comm]

variable [DecidableEq α]

theorem Exact.release (h : Exact names nameOf) (a : α) :
    Exact (eraseOf names (nameOf a)) (Function.update nameOf a none) := by
  have hold : ∀ a' b, Function.update nameOf a none a' = some b ↔ a' ≠ a ∧ nameOf a' = some b := by
    intro a' b
    by_cases ha : a' = a
    · simp [ha]
    · simp [ha]
  refine ⟨fun a₁ a₂ b h₁ h₂ => ?_, fun b => ?_⟩
  · exact h.unique a₁ a₂ b ((hold a₁ b).mp h₁).2 ((hold a₂ b).mp h₂).2
  · rw [mem_eraseOf, h.mem_iff]
    constructor
    · rintro ⟨⟨a', ha'⟩, hne⟩
      refine ⟨a', (hold a' b).mpr ⟨?_, ha'⟩⟩
      rintro rfl
      exact hne ha'
    · rintro ⟨a', ha'⟩
      obtain ⟨hne, hb⟩ := (hold a' b).mp ha'
      refine ⟨⟨a', hb⟩, fun ha => ?_⟩
      exact hne (h.unique a' a b hb ha)

/-- A new name for an object is to be one that no other has. -/
theorem Exact.assign_iff (h : Exact names nameOf) (a : α) (b : β) :
    Exact (insert b (eraseOf names (nameOf a))) (Function.update nameOf a (some b)) ↔
      ∀ a', a' ≠ a → nameOf a' ≠ some b := by
  constructor
  · intro h' a' ha hb
    refine ha (h'.unique a' a b ?_ (Function.update_self ..))
    rw [Function.update_of_ne ha, hb]
  · intro hfree
    refine ⟨fun a₁ a₂ c h₁ h₂ => ?_, fun c => ?_⟩
    · by_cases ha₁ : a₁ = a
      · by_cases ha₂ : a₂ = a
        · rw [ha₁, ha₂]
        · rw [ha₁, Function.update_self] at h₁
          rw [Function.update_of_ne ha₂, ← h₁] at h₂
          exact absurd h₂ (hfree a₂ ha₂)
      · by_cases ha₂ : a₂ = a
        · rw [ha₂, Function.update_self] at h₂
          rw [Function.update_of_ne ha₁, ← h₂] at h₁
          exact absurd h₁ (hfree a₁ ha₁)
        · rw [Function.update_of_ne ha₁] at h₁
          rw [Function.update_of_ne ha₂] at h₂
          exact h.unique a₁ a₂ c h₁ h₂
    · rw [Finset.mem_insert, mem_eraseOf, h.mem_iff]
      constructor
      · rintro (rfl | ⟨⟨a', ha'⟩, hne⟩)
        · exact ⟨a, Function.update_self ..⟩
        · refine ⟨a', ?_⟩
          rwa [Function.update_of_ne]
          rintro rfl
          exact hne ha'
      · rintro ⟨a', ha'⟩
        by_cases ha : a' = a
        · rw [ha, Function.update_self] at ha'
          exact .inl (Option.some.inj ha').symm
        · rw [Function.update_of_ne ha] at ha'
          refine .inr ⟨⟨a', ha'⟩, fun hold => ?_⟩
          exact ha (h.unique a' a c ha' hold)

end Naming
