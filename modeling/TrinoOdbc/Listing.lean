import Mathlib.Data.List.TakeWhile

/-!
# TrinoOdbc.Listing

Enumerations of which a loop may read only a part.

A `Front` has a gap: what stands in front of it is read. A `Listing` marks each entry of the whole
enumeration with whether it is in front of the gap, so listings can be nested (`Listing.bind`):
below an entry behind a gap nothing is read. There may be no whole enumeration, when a part of it
cannot be had. `whole_eq_iff`: what is read is the whole exactly when every entry is marked.
-/

namespace TrinoOdbc

universe u v

/-! ## Marks -/

/-- The entries that are marked. -/
def reached {α : Type u} (l : List (α × Bool)) : List α := (l.filter Prod.snd).map Prod.fst

section Marks

variable {α : Type u} {β : Type v}

@[simp] theorem reached_nil : reached ([] : List (α × Bool)) = [] := rfl

@[simp] theorem reached_append (l l' : List (α × Bool)) :
    reached (l ++ l') = reached l ++ reached l' := by
  simp [reached]

@[simp] theorem reached_cons_true (a : α) (l : List (α × Bool)) :
    reached ((a, true) :: l) = a :: reached l := rfl

@[simp] theorem reached_cons_false (a : α) (l : List (α × Bool)) :
    reached ((a, false) :: l) = reached l := rfl

@[simp] theorem reached_map_true (l : List α) : reached (l.map (·, true)) = l := by
  induction l with
  | nil => rfl
  | cons a l ih => rw [List.map_cons, reached_cons_true, ih]

@[simp] theorem reached_map_false (l : List α) : reached (l.map (·, false)) = [] := by
  induction l with
  | nil => rfl
  | cons a l ih => rw [List.map_cons, reached_cons_false, ih]

/-- Below an entry with mark `m`. -/
def under (m : Bool) (l : List (β × Bool)) : List (β × Bool) := l.map fun e => (e.1, m && e.2)

@[simp] theorem under_true (l : List (β × Bool)) : under true l = l := by simp [under]

@[simp] theorem under_fst (m : Bool) (l : List (β × Bool)) :
    (under m l).map Prod.fst = l.map Prod.fst := by
  simp [under, Function.comp_def]

@[simp] theorem reached_under_false (l : List (β × Bool)) : reached (under false l) = [] := by
  induction l with
  | nil => rfl
  | cons e l ih => simpa [under] using ih

theorem reached_length_le (l : List (α × Bool)) : (reached l).length ≤ l.length := by
  rw [reached, List.length_map]
  exact List.length_filter_le _ _

theorem mem_reached {l : List (α × Bool)} {a : α} : a ∈ reached l ↔ (a, true) ∈ l := by
  simp [reached]

/-- Nothing is missing exactly when every entry is marked. -/
theorem reached_eq_iff (l : List (α × Bool)) :
    l.map Prod.fst = reached l ↔ ∀ e ∈ l, e.2 = true := by
  induction l with
  | nil => simp
  | cons e l ih =>
    obtain ⟨a, m⟩ := e
    cases m with
    | true => simp [ih]
    | false =>
      have hle := reached_length_le l
      simp only [reached_cons_false, List.map_cons, List.forall_mem_cons, Bool.false_eq_true,
        false_and, iff_false]
      intro h
      have hlen := congrArg List.length h
      simp only [List.length_cons, List.length_map] at hlen
      omega

end Marks

/-! ## Fronts -/

/-- `parts` are the entries in front of the gap and those behind it. With `stopped`, the caller
gives up. -/
structure Front (α : Type u) where
  stopped : Bool
  read : List α
  parts : Option (List α × List α)
  read_eq : ∀ l l', parts = some (l, l') → read = l

namespace Front

variable {α : Type u} {β : Type v}

def whole (F : Front α) : Option (List α) := F.parts.map fun p => p.1 ++ p.2

/-- Both parts by `f`. -/
def mapParts (f : List α → List β) (F : Front α) : Front β where
  stopped := F.stopped
  read := f F.read
  parts := F.parts.map fun p => (f p.1, f p.2)
  read_eq := by
    intro l l' hl
    obtain ⟨p, hp, hl⟩ := Option.map_eq_some_iff.mp hl
    obtain ⟨rfl, rfl⟩ := Prod.mk.inj hl
    rw [F.read_eq p.1 p.2 hp]

def map (f : α → β) (F : Front α) : Front β := F.mapParts (List.map f)

def filter (p : α → Bool) (F : Front α) : Front α := F.mapParts (List.filter p)

/-- The first entry with `p`. -/
def first (p : α → Bool) (F : Front α) : Front α where
  stopped := F.stopped
  read := (F.read.find? p).toList
  parts := F.parts.map fun q =>
    ((q.1.find? p).toList, if (q.1.find? p).isSome then [] else (q.2.find? p).toList)
  read_eq := by
    intro l l' hl
    obtain ⟨q, hq, hl⟩ := Option.map_eq_some_iff.mp hl
    obtain ⟨rfl, rfl⟩ := Prod.mk.inj hl
    rw [F.read_eq q.1 q.2 hq]

@[simp] theorem map_stopped (f : α → β) (F : Front α) : (F.map f).stopped = F.stopped := rfl
@[simp] theorem map_read (f : α → β) (F : Front α) : (F.map f).read = F.read.map f := rfl
@[simp] theorem filter_stopped (p : α → Bool) (F : Front α) :
    (F.filter p).stopped = F.stopped := rfl
@[simp] theorem filter_read (p : α → Bool) (F : Front α) :
    (F.filter p).read = F.read.filter p := rfl
@[simp] theorem first_stopped (p : α → Bool) (F : Front α) : (F.first p).stopped = F.stopped := rfl
@[simp] theorem first_read (p : α → Bool) (F : Front α) :
    (F.first p).read = (F.read.find? p).toList := rfl

theorem whole_map (f : α → β) (F : Front α) : (F.map f).whole = F.whole.map (List.map f) := by
  simp [whole, map, mapParts, Function.comp_def]

theorem whole_filter (p : α → Bool) (F : Front α) :
    (F.filter p).whole = F.whole.map (List.filter p) := by
  simp [whole, filter, mapParts, Function.comp_def]

theorem whole_first (p : α → Bool) (F : Front α) :
    (F.first p).whole = F.whole.map fun l => (l.find? p).toList := by
  have hfind : ∀ l l' : List α,
      (l.find? p).toList ++ (if (l.find? p).isSome then [] else (l'.find? p).toList) =
        ((l ++ l').find? p).toList := by
    intro l l'
    rw [List.find?_append]
    cases l.find? p <;> simp
  simp only [whole, first, Option.map_map, Function.comp_def, hfind]

end Front

/-! ## Listings -/

structure Listing (α : Type u) where
  stopped : Bool
  read : List α
  marked : Option (List (α × Bool))
  reached_eq : ∀ l, marked = some l → reached l = read

def Front.listing {α : Type u} (F : Front α) : Listing α where
  stopped := F.stopped
  read := F.read
  marked := F.parts.map fun p => p.1.map (·, true) ++ p.2.map (·, false)
  reached_eq := by
    intro l hl
    obtain ⟨p, hp, rfl⟩ := Option.map_eq_some_iff.mp hl
    rw [F.read_eq p.1 p.2 hp, reached_append, reached_map_true, reached_map_false, List.append_nil]

@[simp] theorem Front.listing_stopped {α : Type u} (F : Front α) :
    F.listing.stopped = F.stopped := rfl
@[simp] theorem Front.listing_read {α : Type u} (F : Front α) : F.listing.read = F.read := rfl

namespace Listing

variable {α : Type u} {β : Type v}

/-- All of a list is read. -/
def ofList (l : List α) : Listing α where
  stopped := false
  read := l
  marked := some (l.map (·, true))
  reached_eq := by
    intro l' hl
    obtain rfl := Option.some.inj hl
    exact reached_map_true l

def whole (L : Listing α) : Option (List α) := L.marked.map (List.map Prod.fst)

/-- There is a whole enumeration, and no entry of it is behind a gap. -/
def Full (L : Listing α) : Prop := ∃ l, L.marked = some l ∧ ∀ e ∈ l, e.2 = true

theorem whole_eq_iff (L : Listing α) : L.whole = some L.read ↔ L.Full := by
  unfold whole Full
  cases hm : L.marked with
  | none => simp
  | some l =>
    simp only [Option.map_some, Option.some.injEq, exists_eq_left', ← L.reached_eq l hm]
    exact reached_eq_iff l

theorem full_listing_iff (F : Front α) : F.listing.Full ↔ ∃ l, F.parts = some (l, []) := by
  have hmarked : F.listing.marked =
      F.parts.map fun p => p.1.map (·, true) ++ p.2.map (·, false) := rfl
  rw [Full, hmarked]
  cases F.parts with
  | none => simp
  | some p =>
    obtain ⟨l, l'⟩ := p
    cases l' with
    | nil => simp
    | cons a l' => simpa using ⟨a, fun h => absurd rfl h⟩

theorem whole_listing (F : Front α) : F.listing.whole = F.whole := by
  simp [Front.listing, whole, Front.whole, Function.comp_def]

/-- Below each entry of a list. -/
def collect (f : α → Option (List (β × Bool))) : List (α × Bool) → Option (List (β × Bool))
  | [] => some []
  | (a, m) :: es => (f a).bind fun l => (collect f es).map fun rest => under m l ++ rest

theorem reached_collect {f : α → Listing β} (es : List (α × Bool)) :
    ∀ l, collect (fun a => (f a).marked) es = some l →
      reached l = (reached es).flatMap fun a => (f a).read := by
  induction es with
  | nil =>
    intro l hl
    obtain rfl := Option.some.inj hl
    rfl
  | cons e es ih =>
    obtain ⟨a, m⟩ := e
    intro l hl
    obtain ⟨below, hbelow, hl⟩ := Option.bind_eq_some_iff.mp hl
    obtain ⟨rest, hrest, rfl⟩ := Option.map_eq_some_iff.mp hl
    rw [reached_append, ih rest hrest]
    cases m with
    | true => simp [(f a).reached_eq below hbelow]
    | false => simp

/-- The nested loops: a listing for each entry, one after the other. -/
def bind (L : Listing α) (f : α → Listing β) : Listing β where
  stopped := L.stopped || L.read.any fun a => (f a).stopped
  read := L.read.flatMap fun a => (f a).read
  marked := L.marked.bind (collect fun a => (f a).marked)
  reached_eq := by
    intro l hl
    obtain ⟨es, hes, hl⟩ := Option.bind_eq_some_iff.mp hl
    rw [reached_collect es l hl, L.reached_eq es hes]

/-- One after the other, when every one can be had. -/
def concat (f : α → Option (List β)) : List α → Option (List β)
  | [] => some []
  | a :: as => (f a).bind fun l => (concat f as).map fun rest => l ++ rest

theorem collect_fst {f : α → Listing β} (es : List (α × Bool)) :
    (collect (fun a => (f a).marked) es).map (List.map Prod.fst) =
      concat (fun a => (f a).whole) (es.map Prod.fst) := by
  induction es with
  | nil => rfl
  | cons e es ih =>
    obtain ⟨a, m⟩ := e
    rw [List.map_cons, concat, ← ih, collect, whole]
    cases (f a).marked with
    | none => rfl
    | some l =>
      cases collect (fun a => (f a).marked) es with
      | none => rfl
      | some rest => simp

theorem whole_bind (L : Listing α) (f : α → Listing β) :
    (L.bind f).whole = L.whole.bind (concat fun a => (f a).whole) := by
  have hmarked : (L.bind f).marked = L.marked.bind (collect fun a => (f a).marked) := rfl
  rw [whole, hmarked, whole]
  cases L.marked with
  | none => rfl
  | some es => exact collect_fst es

/-- A listing that stops is one that cannot be had as a whole. -/
def Reports (L : Listing α) : Prop := L.stopped = true → L.whole = none

theorem concat_eq_none {f : α → Option (List β)} {a : α} (h : f a = none) :
    ∀ {as : List α}, a ∈ as → concat f as = none := by
  intro as
  induction as with
  | nil => nofun
  | cons b as ih =>
    intro hmem
    rcases List.mem_cons.mp hmem with rfl | hmem
    · rw [concat, h]
      rfl
    · rw [concat, ih hmem]
      cases f b <;> rfl

theorem Reports.bind {L : Listing α} {f : α → Listing β} (hL : L.Reports)
    (hf : ∀ a, (f a).Reports) : (L.bind f).Reports := by
  intro hstop
  rw [whole_bind]
  rcases Bool.or_eq_true_iff.mp hstop with h | h
  · rw [hL h]
    rfl
  · obtain ⟨a, ha, hstop⟩ := List.any_eq_true.mp h
    cases hm : L.marked with
    | none => simp [whole, hm]
    | some es =>
      have hmem : a ∈ es.map Prod.fst := by
        rw [← L.reached_eq es hm] at ha
        exact List.mem_map.mpr ⟨(a, true), mem_reached.mp ha, rfl⟩
      simp only [whole, hm, Option.map_some, Option.bind_some]
      exact concat_eq_none (f := fun a => (f a).whole) (hf a hstop) hmem

end Listing

end TrinoOdbc
