import Mathlib.Data.List.Basic
import Mathlib.Order.BoundedOrder.Basic
import Mathlib.Order.MinMax

/-!
# TrinoOdbc.SortedMap

Association lists in key order, as a `std::map` keeps them: insertion, removal, and the largest key.

* `lookup_insert`, `lookup_erase` — what the two do to a lookup.
* `pairwise_insert`, `pairwise_erase` — they keep the order.
* `highest_le_iff` — the largest key bounds the keys, and nothing less does.
-/

namespace SortedMap

variable {κ α : Type*} [LinearOrder κ]

/-- A value for a key, in place of the one it had. -/
def insert (key : κ) (a : α) : List (κ × α) → List (κ × α)
  | [] => [(key, a)]
  | e :: l =>
    if key < e.1 then (key, a) :: e :: l
    else if key = e.1 then (key, a) :: l
    else e :: insert key a l

def erase (key : κ) (l : List (κ × α)) : List (κ × α) := l.filter fun e => e.1 ≠ key

/-- The keys in order. -/
def Sorted (l : List (κ × α)) : Prop := (l.map Prod.fst).Pairwise (· < ·)

theorem lookup_insert_self (key : κ) (a : α) (l : List (κ × α)) :
    (insert key a l).lookup key = some a := by
  induction l with
  | nil => simp [insert]
  | cons e l ih =>
    obtain ⟨k, b⟩ := e
    unfold insert
    split
    · simp
    · split
      · simp
      · rename_i hne
        simp [List.lookup_cons, beq_eq_false_iff_ne.mpr hne, ih]

theorem lookup_insert_of_ne {key k : κ} (h : k ≠ key) (a : α) (l : List (κ × α)) :
    (insert key a l).lookup k = l.lookup k := by
  have hno : (k == key) = false := beq_eq_false_iff_ne.mpr h
  induction l with
  | nil => simp [insert, List.lookup_cons, hno]
  | cons e l ih =>
    obtain ⟨k', b⟩ := e
    unfold insert
    split
    · simp [List.lookup_cons, hno]
    · split
      · rename_i heq
        have heq' : key = k' := heq
        subst heq'
        simp [List.lookup_cons, hno]
      · simp [List.lookup_cons, ih]

theorem lookup_erase (key k : κ) (l : List (κ × α)) :
    (erase key l).lookup k = if k = key then none else l.lookup k := by
  induction l with
  | nil => simp [erase]
  | cons e l ih =>
    obtain ⟨k', b⟩ := e
    unfold erase at ih ⊢
    rw [List.filter_cons]
    by_cases he : k' = key
    · subst he
      rw [if_neg (by simp), ih]
      by_cases hk : k = k'
      · rw [if_pos hk, if_pos hk]
      · rw [if_neg hk, if_neg hk, List.lookup_cons, beq_eq_false_iff_ne.mpr hk]
    · rw [if_pos (by simpa using he), List.lookup_cons, List.lookup_cons, ih]
      by_cases hk : k = k'
      · subst hk
        simp [he]
      · rw [beq_eq_false_iff_ne.mpr hk]

theorem mem_keys_insert {key k : κ} {a : α} {l : List (κ × α)}
    (h : k ∈ (insert key a l).map Prod.fst) : k = key ∨ k ∈ l.map Prod.fst := by
  induction l with
  | nil => simpa [insert] using h
  | cons e l ih =>
    unfold insert at h
    split at h
    · simpa using h
    · split at h
      · rename_i heq
        simp only [List.map_cons, List.mem_cons] at h ⊢
        exact h.imp_right .inr
      · simp only [List.map_cons, List.mem_cons] at h ⊢
        rcases h with h | h
        · exact .inr (.inl h)
        · exact (ih h).imp_right .inr

theorem Sorted.insert {l : List (κ × α)} (h : Sorted l) (key : κ) (a : α) :
    Sorted (insert key a l) := by
  induction l with
  | nil => simp [SortedMap.insert, Sorted]
  | cons e l ih =>
    have htail : Sorted l := (List.pairwise_cons.mp h).2
    have hhead := (List.pairwise_cons.mp h).1
    unfold SortedMap.insert
    split
    · rename_i hlt
      refine List.pairwise_cons.mpr ⟨fun k hk => ?_, h⟩
      rcases List.mem_cons.mp hk with rfl | hk
      · exact hlt
      · exact hlt.trans (hhead k hk)
    · split
      · rename_i heq
        subst heq
        exact List.pairwise_cons.mpr ⟨hhead, htail⟩
      · rename_i hle hne
        refine List.pairwise_cons.mpr ⟨fun k hk => ?_, ih htail⟩
        rcases mem_keys_insert hk with rfl | hk
        · exact lt_of_le_of_ne (not_lt.mp hle) (Ne.symm hne)
        · exact hhead k hk

theorem Sorted.erase {l : List (κ × α)} (h : Sorted l) (key : κ) : Sorted (erase key l) :=
  h.sublist (List.filter_sublist.map _)

theorem lookup_ne_none_iff {key : κ} {l : List (κ × α)} :
    l.lookup key ≠ none ↔ key ∈ l.map Prod.fst := by
  induction l with
  | nil => simp
  | cons e l ih =>
    obtain ⟨k, b⟩ := e
    rw [List.lookup_cons]
    by_cases h : key = k
    · simp [h]
    · rw [beq_eq_false_iff_ne.mpr h]
      simp [h, ih]

section Highest

variable [OrderBot κ]

/-- The largest key, the least element when there is none. -/
def highest (l : List (κ × α)) : κ := l.foldr (fun e n => max e.1 n) ⊥

theorem highest_le_iff {l : List (κ × α)} {n : κ} :
    highest l ≤ n ↔ ∀ k, l.lookup k ≠ none → k ≤ n := by
  have hmem : highest l ≤ n ↔ ∀ k ∈ l.map Prod.fst, k ≤ n := by
    induction l with
    | nil => simp [highest]
    | cons e l ih =>
      have hcons : highest (e :: l) = max e.1 (highest l) := rfl
      rw [hcons, max_le_iff, ih]
      simp
  rw [hmem]
  exact forall_congr' fun k => imp_congr_left lookup_ne_none_iff.symm

end Highest

end SortedMap
