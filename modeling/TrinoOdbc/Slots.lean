import TrinoOdbc.Loops

/-!
# TrinoOdbc.Slots

Memory for objects of one type, in which objects are constructed and destructed one by one.

A fault is an object constructed over another one, one destructed that is not there, an access
outside, or memory given back with objects in it.

* `filled` — objects in the first places of a memory, and none behind them.
* `constructAll_filled`, `destructAll_filled`, `readAll_filled` — the loops over such a memory.
-/

namespace Slots

open Loops

variable {α : Type*}

inductive MemoryFault where
  | outside | occupied | vacant | leaked | dangling | overflow
  deriving DecidableEq, Repr

def construct (m : List (Option α)) (i : Nat) (a : α) : Except MemoryFault (List (Option α)) :=
  match m[i]? with
  | none => .error .outside
  | some (some _) => .error .occupied
  | some none => .ok (m.set i (some a))

def destruct (m : List (Option α)) (i : Nat) : Except MemoryFault (List (Option α)) :=
  match m[i]? with
  | none => .error .outside
  | some none => .error .vacant
  | some (some _) => .ok (m.set i none)

def read (m : List (Option α)) (i : Nat) : Except MemoryFault α :=
  match m[i]? with
  | none => .error .outside
  | some none => .error .vacant
  | some (some a) => .ok a

/-- An object that is there gets a value. -/
def assign (m : List (Option α)) (i : Nat) (a : α) : Except MemoryFault (List (Option α)) :=
  match m[i]? with
  | none => .error .outside
  | some none => .error .vacant
  | some (some _) => .ok (m.set i (some a))

/-- Objects are constructed from place `i` on. -/
def constructAll (m : List (Option α)) (i : Nat) : List α → Except MemoryFault (List (Option α))
  | [] => .ok m
  | a :: as => do
    let m ← construct m i a
    constructAll m (i + 1) as

/-- `n` objects are destructed from place `i` on. -/
def destructAll (m : List (Option α)) (i : Nat) : Nat → Except MemoryFault (List (Option α))
  | 0 => .ok m
  | n + 1 => do
    let m ← destruct m i
    destructAll m (i + 1) n

def readAll (m : List (Option α)) (i : Nat) : Nat → Except MemoryFault (List α)
  | 0 => .ok []
  | n + 1 => do
    let a ← read m i
    let as ← readAll m (i + 1) n
    .ok (a :: as)

def deallocate (m : List (Option α)) : Except MemoryFault Unit :=
  if ∀ o ∈ m, o = none then .ok () else .error .leaked

/-- The objects of a list, and room behind them. -/
def filled (l : List α) (room : Nat) : List (Option α) := l.map some ++ List.replicate room none

variable {pre post : List (Option α)} {l src : List α} {room : Nat}

theorem getElem?_middle (o : Option α) : (pre ++ o :: post)[pre.length]? = some o := by
  rw [List.getElem?_append_right (Nat.le_refl _), Nat.sub_self, List.getElem?_cons_zero]

theorem set_middle (o o' : Option α) :
    (pre ++ o :: post).set pre.length o' = pre ++ o' :: post := by
  rw [List.set_append_right _ _ (Nat.le_refl _), Nat.sub_self, List.set_cons_zero]

theorem constructAll_vacant (as : List α) :
    constructAll (pre ++ (List.replicate as.length none ++ post)) pre.length as =
      .ok (pre ++ (as.map some ++ post)) := by
  induction as generalizing pre with
  | nil => rfl
  | cons a as ih =>
    have hfirst : construct (pre ++ (List.replicate (a :: as).length none ++ post)) pre.length a =
        .ok ((pre ++ [some a]) ++ (List.replicate as.length none ++ post)) := by
      rw [List.length_cons, List.replicate_succ, List.cons_append, construct, getElem?_middle]
      simp only [set_middle, List.append_assoc, List.singleton_append]
    have hrest := @ih (pre ++ [some a])
    rw [List.length_append, List.length_singleton] at hrest
    rw [constructAll, hfirst, ok_bind, hrest, List.append_assoc, List.singleton_append,
      List.map_cons, List.cons_append]

theorem destructAll_occupied (as : List α) :
    destructAll (pre ++ (as.map some ++ post)) pre.length as.length =
      .ok (pre ++ (List.replicate as.length none ++ post)) := by
  induction as generalizing pre with
  | nil => rfl
  | cons a as ih =>
    have hfirst : destruct (pre ++ ((a :: as).map some ++ post)) pre.length =
        .ok ((pre ++ [none]) ++ (as.map some ++ post)) := by
      rw [List.map_cons, List.cons_append, destruct, getElem?_middle]
      simp only [set_middle, List.append_assoc, List.singleton_append]
    have hrest := @ih (pre ++ [none])
    rw [List.length_append, List.length_singleton] at hrest
    rw [List.length_cons, destructAll, hfirst, ok_bind, hrest, List.append_assoc,
      List.singleton_append, List.replicate_succ, List.cons_append]

theorem readAll_occupied (as : List α) :
    readAll (pre ++ (as.map some ++ post)) pre.length as.length = .ok as := by
  induction as generalizing pre with
  | nil => rfl
  | cons a as ih =>
    have hfirst : read (pre ++ ((a :: as).map some ++ post)) pre.length = .ok a := by
      rw [List.map_cons, List.cons_append, read, getElem?_middle]
    have hrest := @ih (pre ++ [some a])
    rw [List.length_append, List.length_singleton, List.append_assoc, List.singleton_append]
      at hrest
    rw [List.length_cons, readAll, hfirst, ok_bind, List.map_cons, List.cons_append, hrest, ok_bind]

/-- Objects behind the others, in the room for them. -/
theorem constructAll_filled (h : src.length ≤ room) :
    constructAll (filled l room) l.length src = .ok (filled (l ++ src) (room - src.length)) := by
  have hroom : List.replicate room (none : Option α) =
      List.replicate src.length none ++ List.replicate (room - src.length) none := by
    rw [List.replicate_append_replicate, Nat.add_sub_cancel' h]
  have hlength : l.length = (l.map some).length := (List.length_map _).symm
  rw [filled, hroom, hlength, constructAll_vacant, filled, List.map_append, List.append_assoc]

/-- The last objects are destructed. -/
theorem destructAll_filled {k : Nat} (h : k ≤ l.length) :
    destructAll (filled l room) k (l.length - k) =
      .ok (filled (l.take k) (room + (l.length - k))) := by
  have hsplit : filled l room =
      (l.take k).map some ++ ((l.drop k).map some ++ List.replicate room none) := by
    rw [← List.append_assoc, ← List.map_append, List.take_append_drop]
    rfl
  have hk : k = ((l.take k).map some).length := by
    rw [List.length_map, List.length_take, Nat.min_eq_left h]
  have hdestruct := @destructAll_occupied _ ((l.take k).map some) (List.replicate room none)
    (l.drop k)
  rw [← hk, List.length_drop, List.replicate_append_replicate] at hdestruct
  rw [hsplit, hdestruct, filled, Nat.add_comm room]

theorem readAll_filled {k n : Nat} (h : k + n ≤ l.length) :
    readAll (filled l room) k n = .ok ((l.drop k).take n) := by
  have hsplit : filled l room = (l.take k).map some ++ (((l.drop k).take n).map some ++
      ((l.drop (k + n)).map some ++ List.replicate room none)) := by
    rw [← List.append_assoc, ← List.append_assoc, ← List.map_append, ← List.map_append,
      ← List.drop_drop, List.append_assoc (l.take k), List.take_append_drop, List.take_append_drop]
    rfl
  have hread := @readAll_occupied _ ((l.take k).map some)
    ((l.drop (k + n)).map some ++ List.replicate room none) ((l.drop k).take n)
  rw [List.length_map, List.length_take, Nat.min_eq_left (by omega), List.length_take,
    List.length_drop, Nat.min_eq_left (by omega)] at hread
  rw [hsplit, hread]

theorem read_filled {i : Nat} {a : α} (h : l[i]? = some a) : read (filled l room) i = .ok a := by
  obtain ⟨hi, -⟩ := List.getElem?_eq_some_iff.mp h
  have hget : (filled l room)[i]? = some (some a) := by
    rw [filled, List.getElem?_append_left (by rwa [List.length_map]), List.getElem?_map, h,
      Option.map_some]
  rw [read, hget]

theorem assign_filled {i : Nat} (h : i < l.length) (a : α) :
    assign (filled l room) i a = .ok (filled (l.set i a) room) := by
  have hget : (filled l room)[i]? = some (some l[i]) := by
    rw [filled, List.getElem?_append_left (by rwa [List.length_map]), List.getElem?_map,
      List.getElem?_eq_getElem h, Option.map_some]
  have hlt : i < (l.map some).length := by rwa [List.length_map]
  rw [assign, hget]
  simp only [filled, List.set_append_left _ _ hlt, List.map_set]

theorem assign_vacant {i : Nat} (hlow : l.length ≤ i) (hhigh : i < l.length + room) (a : α) :
    assign (filled l room) i a = .error .vacant := by
  have hget : (filled l room)[i]? = some none := by
    rw [filled, List.getElem?_append_right (by rwa [List.length_map]), List.length_map,
      List.getElem?_replicate, if_pos (by omega)]
  rw [assign, hget]

theorem assign_outside {i : Nat} (h : l.length + room ≤ i) (a : α) :
    assign (filled l room) i a = .error .outside := by
  have hget : (filled l room)[i]? = none := by
    rw [List.getElem?_eq_none_iff, filled, List.length_append, List.length_map,
      List.length_replicate]
    exact h
  rw [assign, hget]

theorem deallocate_filled (room : Nat) : deallocate (filled ([] : List α) room) = .ok () := by
  rw [deallocate, if_pos]
  intro o ho
  exact List.eq_of_mem_replicate ho

end Slots
