import TrinoOdbc.Magnitude
import TrinoOdbc.Slots

/-!
# TrinoOdbc.DynamicArray

`DynamicSizeArray`, the array of the limbs of a `BigInteger`: its memory, in which each element is
constructed and destructed, and how it grows.

* `arrays_refine` — any run of operations on any arrays does to them what it does to lists that know
  their capacity, and fails where it fails there.
* `reallocation_amortized` — all the elements that an array has moved to new memory are no more than
  its capacity, which is less than twice what it has held.
-/

namespace TrinoOdbc

open Loops Slots

namespace Common

/-! ## The source -/

/-- `INT32_MAX`. -/
def int32Max : Nat := 2147483647

def getCapasityForSize (size : Nat) : Nat :=
  if size ≤ 8 then 8
  else
    let bl := bitLengthU32 size
    if 30 < bl then int32Max
    else
      let res := 1 <<< bl
      if res < size then res <<< 1 else res

/-- `data` is the memory behind the pointer. -/
structure DynamicSizeArray (T : Type) where
  size : Nat
  capasity : Nat
  data : List (Option T)

namespace DynamicSizeArray

variable {T : Type} [Inhabited T]

def empty : DynamicSizeArray T := ⟨0, 0, []⟩

/-- The constructor with a length. A length that is no `int32_t` cannot be given. -/
def withCapasity (len : Nat) : Except MemoryFault (DynamicSizeArray T) :=
  if int32Max < len then .error .overflow
  else .ok ⟨0, getCapasityForSize len, List.replicate (getCapasityForSize len) none⟩

/-- The destructor. -/
def destroy (a : DynamicSizeArray T) : Except MemoryFault Unit := do
  let data ← destructAll a.data 0 a.size
  deallocate data

/-- What `src[i]` of another array reads. -/
def elements (a : DynamicSizeArray T) : Except MemoryFault (List T) := readAll a.data 0 a.size

/-- `Assign` of a pointer and a length. The values are not those of the array. -/
def assignValues (a : DynamicSizeArray T) (src : List T) :
    Except MemoryFault (DynamicSizeArray T) := do
  let data ← destructAll a.data 0 a.size
  if a.capasity < src.length then
    deallocate data
    let new ← withCapasity src.length
    let data ← constructAll new.data 0 src
    .ok ⟨src.length, new.capasity, data⟩
  else
    let data ← constructAll data 0 src
    .ok ⟨src.length, a.capasity, data⟩

/-- The old memory goes with the temporary array that it is swapped into. -/
def reserve (a : DynamicSizeArray T) (newCapacity : Nat) :
    Except MemoryFault (DynamicSizeArray T) :=
  if a.capasity < newCapacity then do
    let tmp ← withCapasity newCapacity
    let src ← a.elements
    let tmp ← tmp.assignValues src
    a.destroy
    .ok tmp
  else .ok a

def append (a : DynamicSizeArray T) (src : List T) : Except MemoryFault (DynamicSizeArray T) := do
  let a ← a.reserve (a.size + src.length)
  let data ← constructAll a.data a.size src
  .ok { a with size := a.size + src.length, data }

def clear (a : DynamicSizeArray T) : Except MemoryFault (DynamicSizeArray T) := do
  let data ← destructAll a.data 0 a.size
  .ok { a with size := 0, data }

def resize (a : DynamicSizeArray T) (newSize : Nat) :
    Except MemoryFault (DynamicSizeArray T) := do
  let a ← (if a.capasity < newSize then a.reserve newSize else .ok a)
  let data ← (if a.size < newSize then
      constructAll a.data a.size (List.replicate (newSize - a.size) default)
    else destructAll a.data newSize (a.size - newSize))
  .ok { a with size := newSize, data }

/-- `operator[]` with a value. -/
def set (a : DynamicSizeArray T) (idx : Nat) (val : T) :
    Except MemoryFault (DynamicSizeArray T) := do
  let data ← assign a.data idx val
  .ok { a with data }

def pushBack (a : DynamicSizeArray T) (val : T) : Except MemoryFault (DynamicSizeArray T) := do
  let a ← a.resize (a.size + 1)
  a.set (a.size - 1) val

/-- `PushBack` of a reference to an element of the array itself. -/
def pushBackOwn (a : DynamicSizeArray T) (idx : Nat) :
    Except MemoryFault (DynamicSizeArray T) :=
  if idx < a.size then do
    let grown ← a.resize (a.size + 1)
    let val ← (if a.capasity < a.size + 1 then .error .dangling else read grown.data idx)
    grown.set (grown.size - 1) val
  else .error .outside

end DynamicSizeArray

/-- The operations on one array. -/
inductive ArrayOperation (T : Type) where
  | assignValues (src : List T)
  | append (src : List T)
  | clear
  | reserve (newCapacity : Nat)
  | resize (newSize : Nat)
  | set (idx : Nat) (val : T)
  | pushBack (val : T)
  | pushBackOwn (idx : Nat)

def DynamicSizeArray.perform {T : Type} [Inhabited T] (a : DynamicSizeArray T) :
    ArrayOperation T → Except MemoryFault (DynamicSizeArray T)
  | .assignValues src => a.assignValues src
  | .append src => a.append src
  | .clear => a.clear
  | .reserve newCapacity => a.reserve newCapacity
  | .resize newSize => a.resize newSize
  | .set idx val => a.set idx val
  | .pushBack val => a.pushBack val
  | .pushBackOwn idx => a.pushBackOwn idx

/-! ## Growing -/

section Growing

variable {size : Nat}

theorem getCapasityForSize_large (hlarge : 8 < size) (hsize : size ≤ int32Max) :
    getCapasityForSize size = if 30 < size.size then int32Max else 2 ^ size.size := by
  have hbits : bitLengthU32 size = size.size :=
    bitLengthU32_eq (by omega) (by unfold int32Max at hsize; omega)
  rw [getCapasityForSize, if_neg (by omega)]
  simp only [hbits, Nat.one_shiftLeft, if_neg (Nat.lt_size_self size).not_gt]

theorem le_getCapasityForSize (hsize : size ≤ int32Max) : size ≤ getCapasityForSize size := by
  by_cases hlarge : 8 < size
  · rw [getCapasityForSize_large hlarge hsize]
    split
    · exact hsize
    · exact (Nat.lt_size_self size).le
  · rw [getCapasityForSize, if_pos (by omega)]
    omega

theorem getCapasityForSize_le (hsize : size ≤ int32Max) : getCapasityForSize size ≤ int32Max := by
  by_cases hlarge : 8 < size
  · rw [getCapasityForSize_large hlarge hsize]
    split
    · exact le_rfl
    · rename_i hbits
      exact (Nat.pow_le_pow_right (by decide) (not_lt.mp hbits)).trans (by decide)
  · rw [getCapasityForSize, if_pos (by omega)]
    decide

end Growing

/-! ## Lists that know their capacity -/

/-- An array as a list. -/
structure Listed (T : Type) where
  elems : List T
  capasity : Nat
  room : elems.length ≤ capasity
  small : capasity ≤ int32Max

namespace Listed

variable {T : Type}

/-- The capacity after a request for `n` places. -/
def reserved (capasity n : Nat) : Nat := if capasity < n then getCapasityForSize n else capasity

theorem le_reserved {capasity n : Nat} (hn : n ≤ int32Max) : n ≤ reserved capasity n := by
  unfold reserved
  split
  · exact le_getCapasityForSize hn
  · omega

theorem capasity_le_reserved {capasity n : Nat} (hn : n ≤ int32Max) :
    capasity ≤ reserved capasity n := by
  unfold reserved
  split
  · rename_i hlt
    exact hlt.le.trans (le_getCapasityForSize hn)
  · exact le_rfl

theorem reserved_le {capasity n : Nat} (hcapasity : capasity ≤ int32Max) (hn : n ≤ int32Max) :
    reserved capasity n ≤ int32Max := by
  unfold reserved
  split
  · exact getCapasityForSize_le hn
  · exact hcapasity

/-- Another list, with room for `n` elements. -/
def hold (c : Listed T) (elems : List T) (n : Nat) (hlen : elems.length ≤ max n c.capasity) :
    Except MemoryFault (Listed T) :=
  if hn : n ≤ int32Max then
    .ok
      { elems
        capasity := reserved c.capasity n
        room := hlen.trans (max_le (le_reserved hn) (capasity_le_reserved hn))
        small := reserved_le c.small hn }
  else .error .overflow

def empty : Listed T := ⟨[], 0, le_rfl, Nat.zero_le _⟩

def assignValues (c : Listed T) (src : List T) : Except MemoryFault (Listed T) :=
  c.hold src src.length (le_max_left _ _)

def append (c : Listed T) (src : List T) : Except MemoryFault (Listed T) :=
  c.hold (c.elems ++ src) (c.elems.length + src.length) (by simp)

def clear (c : Listed T) : Listed T := ⟨[], c.capasity, Nat.zero_le _, c.small⟩

def reserve (c : Listed T) (n : Nat) : Except MemoryFault (Listed T) :=
  c.hold c.elems n (c.room.trans (le_max_right _ _))

def resize [Inhabited T] (c : Listed T) (n : Nat) : Except MemoryFault (Listed T) :=
  c.hold (c.elems.take n ++ List.replicate (n - c.elems.length) default) n (by simp; omega)

def set (c : Listed T) (i : Nat) (v : T) : Except MemoryFault (Listed T) :=
  if i < c.elems.length then
    .ok ⟨c.elems.set i v, c.capasity, by rw [List.length_set]; exact c.room, c.small⟩
  else if i < c.capasity then .error .vacant
  else .error .outside

/-- An array that has to grow reads the element from memory that is no longer there. -/
def pushBackOwn (c : Listed T) (i : Nat) : Except MemoryFault (Listed T) :=
  match c.elems[i]? with
  | none => .error .outside
  | some v => do
    let grown ← c.append [v]
    if c.capasity < c.elems.length + 1 then .error .dangling else .ok grown

def perform [Inhabited T] (c : Listed T) : ArrayOperation T → Except MemoryFault (Listed T)
  | .assignValues src => c.assignValues src
  | .append src => c.append src
  | .clear => .ok c.clear
  | .reserve newCapacity => c.reserve newCapacity
  | .resize newSize => c.resize newSize
  | .set idx val => c.set idx val
  | .pushBack val => c.append [val]
  | .pushBackOwn idx => c.pushBackOwn idx

/-- The array in memory. -/
def array (c : Listed T) : DynamicSizeArray T :=
  ⟨c.elems.length, c.capasity, filled c.elems (c.capasity - c.elems.length)⟩

/-! ### The operations -/

variable {c : Listed T}

theorem withCapasity_eq {len : Nat} (hlen : len ≤ int32Max) :
    DynamicSizeArray.withCapasity len =
      .ok (⟨0, getCapasityForSize len, filled [] (getCapasityForSize len)⟩ : DynamicSizeArray T) :=
  if_neg (not_lt.mpr hlen)

theorem withCapasity_overflow {len : Nat} (hlen : ¬ len ≤ int32Max) :
    (DynamicSizeArray.withCapasity len : Except MemoryFault (DynamicSizeArray T)) =
      .error .overflow :=
  if_pos (not_le.mp hlen)

theorem hold_array {elems : List T} {n : Nat} (hlen : elems.length ≤ max n c.capasity) :
    (c.hold elems n hlen).map array =
      if n ≤ int32Max then
        .ok ⟨elems.length, reserved c.capasity n,
          filled elems (reserved c.capasity n - elems.length)⟩
      else .error .overflow := by
  unfold hold
  split <;> rfl

theorem hold_elems {elems : List T} {n : Nat} {hlen : elems.length ≤ max n c.capasity}
    {d : Listed T} (h : c.hold elems n hlen = .ok d) : d.elems = elems := by
  unfold hold at h
  split at h <;> cases h
  rfl

theorem elements_array : c.array.elements = .ok c.elems := by
  have hread := @readAll_filled T c.elems (c.capasity - c.elems.length) 0 c.elems.length (by omega)
  rw [List.drop_zero, List.take_length] at hread
  exact hread

/-- All elements are destructed. -/
theorem destructAll_array :
    destructAll c.array.data 0 c.array.size = .ok (filled [] c.capasity) := by
  have hdestruct := @destructAll_filled T c.elems (c.capasity - c.elems.length) 0 (Nat.zero_le _)
  rw [Nat.sub_zero, List.take_zero, Nat.sub_add_cancel c.room] at hdestruct
  exact hdestruct

theorem destroy_array : c.array.destroy = .ok () := by
  rw [DynamicSizeArray.destroy, destructAll_array, ok_bind, deallocate_filled]

/-- Elements in memory where there is none. -/
theorem constructAll_empty {src : List T} {room : Nat} (h : src.length ≤ room) :
    constructAll (filled [] room) 0 src = .ok (filled src (room - src.length)) :=
  constructAll_filled (l := []) h

theorem assignValues_array (src : List T) :
    c.array.assignValues src = (c.assignValues src).map array := by
  rw [DynamicSizeArray.assignValues, destructAll_array, ok_bind, assignValues, hold_array]
  change (if c.capasity < src.length then _ else _) = _
  by_cases hgrow : c.capasity < src.length
  · rw [if_pos hgrow, deallocate_filled, ok_bind]
    by_cases hlen : src.length ≤ int32Max
    · rw [if_pos hlen, withCapasity_eq hlen, ok_bind,
        constructAll_empty (le_getCapasityForSize hlen), ok_bind, reserved, if_pos hgrow]
    · rw [if_neg hlen, withCapasity_overflow hlen, error_bind]
  · rw [if_neg hgrow, constructAll_empty (not_lt.mp hgrow), ok_bind,
      if_pos ((not_lt.mp hgrow).trans c.small), reserved, if_neg hgrow]
    rfl

theorem reserve_array (n : Nat) : c.array.reserve n = (c.reserve n).map array := by
  rw [DynamicSizeArray.reserve, reserve, hold_array]
  change (if c.capasity < n then _ else _) = _
  by_cases hgrow : c.capasity < n
  · rw [if_pos hgrow]
    by_cases hn : n ≤ int32Max
    · have hle := le_getCapasityForSize hn
      let tmp : Listed T := ⟨[], getCapasityForSize n, Nat.zero_le _, getCapasityForSize_le hn⟩
      have htmp := assignValues_array (c := tmp) c.elems
      have hfits : ¬ getCapasityForSize n < c.elems.length := not_lt.mpr (by have := c.room; omega)
      rw [assignValues, hold_array, if_pos (c.room.trans c.small), reserved, if_neg hfits] at htmp
      rw [if_pos hn, withCapasity_eq hn, ok_bind, elements_array, ok_bind]
      change tmp.array.assignValues c.elems >>= _ = _
      rw [htmp, ok_bind, destroy_array, ok_bind, reserved, if_pos hgrow]
    · rw [if_neg hn, withCapasity_overflow hn, error_bind]
  · rw [if_neg hgrow, if_pos ((not_lt.mp hgrow).trans c.small), reserved, if_neg hgrow]
    rfl

theorem append_array (src : List T) : c.array.append src = (c.append src).map array := by
  rw [DynamicSizeArray.append, append, hold_array]
  change c.array.reserve (c.elems.length + src.length) >>= _ = _
  rw [reserve_array, reserve, hold_array]
  by_cases hn : c.elems.length + src.length ≤ int32Max
  · have hle := @le_reserved c.capasity _ hn
    rw [if_pos hn, if_pos hn, ok_bind, constructAll_filled (by omega), ok_bind, List.length_append,
      Nat.sub_sub]
  · rw [if_neg hn, if_neg hn, error_bind]

theorem clear_array : c.array.clear = .ok c.clear.array := by
  rw [DynamicSizeArray.clear, destructAll_array, ok_bind]
  rfl

theorem set_array (i : Nat) (v : T) : c.array.set i v = (c.set i v).map array := by
  rw [DynamicSizeArray.set, set]
  change assign (filled c.elems (c.capasity - c.elems.length)) i v >>= _ = _
  have hroom := c.room
  split
  · rename_i hi
    rw [assign_filled hi, ok_bind]
    simp [array, Except.map]
  · rename_i hi
    split
    · rename_i hcapasity
      rw [assign_vacant (by omega) (by omega), error_bind]
      rfl
    · rename_i hcapasity
      rw [assign_outside (by omega), error_bind]
      rfl

variable [Inhabited T]

theorem resize_array (n : Nat) : c.array.resize n = (c.resize n).map array := by
  rw [DynamicSizeArray.resize, resize, hold_array]
  have hgrown : (if c.array.capasity < n then c.array.reserve n else .ok c.array) =
      (c.reserve n).map array := by
    rw [← reserve_array, DynamicSizeArray.reserve]
    split <;> rfl
  rw [hgrown, reserve, hold_array]
  by_cases hn : n ≤ int32Max
  · have hle := @le_reserved c.capasity n hn
    have hroom := c.room.trans (@capasity_le_reserved c.capasity n hn)
    rw [if_pos hn, if_pos hn, ok_bind]
    simp only
    generalize reserved c.capasity n = capasity at hle hroom
    by_cases hlonger : c.elems.length < n
    · rw [if_pos hlonger, constructAll_filled (by rw [List.length_replicate]; omega), ok_bind,
        List.take_of_length_le hlonger.le, List.length_append, List.length_replicate, Nat.sub_sub,
        Nat.add_sub_cancel' hlonger.le]
    · have hshorter := not_lt.mp hlonger
      have hfree : capasity - c.elems.length + (c.elems.length - n) = capasity - n := by omega
      rw [if_neg hlonger, destructAll_filled hshorter, ok_bind, Nat.sub_eq_zero_of_le hshorter,
        List.replicate_zero, List.append_nil, List.length_take, Nat.min_eq_left hshorter, hfree]
  · rw [if_neg hn, if_neg hn, error_bind]

omit [Inhabited T] in
/-- The arrays of limbs, of which other modules know the elements only. -/
theorem resize_magArray (c : Listed Nat) {n : Nat} (hn : n ≤ int32Max) :
    (c.resize n).map elems = .ok (MagArray.resize c.elems n) := by
  rw [resize, hold, dif_pos hn]
  rfl

/-- `Resize` by one and a value in the new place are an element behind the others. -/
theorem resize_set (v : T) :
    (c.resize (c.elems.length + 1) >>= fun grown => grown.set (grown.elems.length - 1) v) =
      c.append [v] := by
  unfold resize append hold
  by_cases hn : c.elems.length + 1 ≤ int32Max
  · have hlast : (List.take (c.elems.length + 1) c.elems ++
        List.replicate (c.elems.length + 1 - c.elems.length) default).set c.elems.length v =
          c.elems ++ [v] := by
      rw [List.take_of_length_le (Nat.le_succ _), Nat.add_sub_cancel_left, List.replicate_one,
        List.set_append_right _ _ le_rfl, Nat.sub_self, List.set_cons_zero]
    have hlength : (List.take (c.elems.length + 1) c.elems ++
        List.replicate (c.elems.length + 1 - c.elems.length) default).length =
          c.elems.length + 1 := by
      simp
    rw [dif_pos hn, ok_bind, set, if_pos (by rw [hlength]; omega)]
    simp only [hlength, Nat.add_sub_cancel, hlast, List.length_singleton, dif_pos hn]
  · rw [dif_neg hn, error_bind]
    simp only [List.length_singleton, dif_neg hn]

theorem pushBack_array (v : T) : c.array.pushBack v = (c.append [v]).map array := by
  rw [DynamicSizeArray.pushBack, ← resize_set]
  change c.array.resize (c.elems.length + 1) >>= _ = _
  rw [resize_array]
  cases c.resize (c.elems.length + 1) with
  | error e => rfl
  | ok grown => exact set_array (grown.elems.length - 1) v

theorem pushBackOwn_array (i : Nat) : c.array.pushBackOwn i = (c.pushBackOwn i).map array := by
  rw [DynamicSizeArray.pushBackOwn, pushBackOwn]
  change (if i < c.elems.length then _ else _) = _
  cases hget : c.elems[i]? with
  | none =>
    rw [if_neg (not_lt.mpr (List.getElem?_eq_none_iff.mp hget))]
    rfl
  | some v =>
    obtain ⟨hi, -⟩ := List.getElem?_eq_some_iff.mp hget
    rw [if_pos hi]
    change c.array.resize (c.elems.length + 1) >>= _ = _
    simp only
    rw [resize_array, ← resize_set]
    cases hgrown : c.resize (c.elems.length + 1) with
    | error e => rfl
    | ok grown =>
      have helems := hold_elems hgrown
      rw [List.take_of_length_le (Nat.le_succ _)] at helems
      have hread : grown.elems[i]? = some v := by
        rw [helems, List.getElem?_append_left hi, hget]
      have hlast : grown.elems.length - 1 < grown.elems.length := by
        rw [helems]
        simp
      have hset := set_array (c := grown) (grown.elems.length - 1) v
      rw [set, if_pos hlast] at hset
      simp only [Except.map, ok_bind]
      change (if c.capasity < c.elems.length + 1 then _
        else read (filled grown.elems _) i) >>= _ = _
      rw [read_filled hread, set, if_pos hlast, ok_bind]
      by_cases hmoved : c.capasity < c.elems.length + 1
      · rw [if_pos hmoved, if_pos hmoved]
        rfl
      · rw [if_neg hmoved, if_neg hmoved]
        exact hset

theorem perform_array (op : ArrayOperation T) :
    c.array.perform op = (c.perform op).map array := by
  cases op with
  | assignValues src => exact assignValues_array src
  | append src => exact append_array src
  | clear => exact clear_array
  | reserve n => exact reserve_array n
  | resize n => exact resize_array n
  | set i v => exact set_array i v
  | pushBack v => exact pushBack_array v
  | pushBackOwn i => exact pushBackOwn_array i

end Listed

/-! ## Programs with arrays -/

/-- What a program does with its arrays, which it calls by numbers. -/
inductive ArrayCommand (T : Type) where
  | create (x : Nat)
  | createSize (x len : Nat)
  | createValues (x : Nat) (src : List T)
  | createCopy (x other : Nat)
  | destroy (x : Nat)
  | assign (x other : Nat)
  | swap (x other : Nat)
  | operate (x : Nat) (op : ArrayOperation T)

/-- The functions of a class of arrays. -/
structure ArrayClass (T A : Type) where
  empty : A
  withCapasity : Nat → Except MemoryFault A
  elements : A → Except MemoryFault (List T)
  destroy : A → Except MemoryFault Unit
  perform : A → ArrayOperation T → Except MemoryFault A

/-- The arrays of a program, `none` for one that is not there. -/
abbrev Arrays (A : Type) := Nat → Option A

namespace ArrayClass

variable {T A : Type}

def get (s : Arrays A) (x : Nat) : Except MemoryFault A :=
  match s x with
  | some a => .ok a
  | none => .error .vacant

/-- A constructor is called where no array is. -/
def put (s : Arrays A) (x : Nat) (a : A) : Except MemoryFault (Arrays A) :=
  match s x with
  | some _ => .error .occupied
  | none => .ok (Function.update s x (some a))

def step (K : ArrayClass T A) (s : Arrays A) : ArrayCommand T → Except MemoryFault (Arrays A)
  | .create x => put s x K.empty
  | .createSize x len => do
    let a ← K.withCapasity len
    put s x a
  | .createValues x src => do
    let a ← K.perform K.empty (.assignValues src)
    put s x a
  | .createCopy x other => do
    let b ← get s other
    let src ← K.elements b
    let a ← K.perform K.empty (.assignValues src)
    put s x a
  | .destroy x => do
    let a ← get s x
    K.destroy a
    .ok (Function.update s x none)
  | .assign x other => do
    let a ← get s x
    let b ← get s other
    if x = other then .ok s
    else
      let src ← K.elements b
      let a ← K.perform a (.assignValues src)
      .ok (Function.update s x (some a))
  | .swap x other => do
    let a ← get s x
    let b ← get s other
    .ok (Function.update (Function.update s x (some b)) other (some a))
  | .operate x op => do
    let a ← get s x
    let a ← K.perform a op
    .ok (Function.update s x (some a))

def run (K : ArrayClass T A) (s : Arrays A) (commands : List (ArrayCommand T)) :
    Except MemoryFault (Arrays A) :=
  commands.foldlM K.step s

/-- The arrays of one class shown as those of another. -/
def shown {B : Type} (f : A → B) (s : Arrays A) : Arrays B := fun x => (s x).map f

/-- `f` keeps what the functions of a class do. -/
structure Shows {B : Type} (K : ArrayClass T A) (L : ArrayClass T B) (f : A → B) : Prop where
  empty : L.empty = f K.empty
  withCapasity : ∀ len, L.withCapasity len = (K.withCapasity len).map f
  elements : ∀ a, L.elements (f a) = K.elements a
  destroy : ∀ a, L.destroy (f a) = K.destroy a
  perform : ∀ a op, L.perform (f a) op = (K.perform a op).map f

section Shows

variable {B : Type} {K : ArrayClass T A} {L : ArrayClass T B} {f : A → B} {s : Arrays A}

theorem shown_update (x : Nat) (a : Option A) :
    Function.update (shown f s) x (a.map f) = shown f (Function.update s x a) := by
  funext y
  by_cases hy : y = x
  · subst hy
    simp [shown]
  · simp [shown, hy]

theorem get_shown (x : Nat) : get (shown f s) x = (get s x).map f := by
  unfold get shown
  cases s x <;> rfl

theorem put_shown (x : Nat) (a : A) : put (shown f s) x (f a) = (put s x a).map (shown f) := by
  unfold put
  cases hx : s x with
  | none =>
    have hshown : shown f s x = none := by simp [shown, hx]
    simp only [hshown, Except.map]
    rw [← shown_update]
    rfl
  | some b =>
    have hshown : shown f s x = some (f b) := by simp [shown, hx]
    simp only [hshown, Except.map]

theorem map_bind {α β γ δ : Type} (x : Except MemoryFault α) (g : α → β)
    (k : β → Except MemoryFault γ) (k' : α → Except MemoryFault δ) (h : δ → γ)
    (hk : ∀ a, k (g a) = (k' a).map h) : (x.map g >>= k) = (x >>= k').map h := by
  cases x with
  | error e => rfl
  | ok a => exact hk a

theorem step_shown (hf : Shows K L f) (c : ArrayCommand T) :
    L.step (shown f s) c = (K.step s c).map (shown f) := by
  have hassign (src : List T) (x : Nat) :
      (L.perform L.empty (.assignValues src) >>= put (shown f s) x) =
        (K.perform K.empty (.assignValues src) >>= put s x).map (shown f) := by
    rw [hf.empty, hf.perform]
    exact map_bind _ _ _ _ _ (put_shown x)
  cases c with
  | create x =>
    rw [step, step, hf.empty]
    exact put_shown x K.empty
  | createSize x len =>
    rw [step, step, hf.withCapasity]
    exact map_bind _ _ _ _ _ (put_shown x)
  | createValues x src => exact hassign src x
  | createCopy x other =>
    rw [step, step, get_shown]
    refine map_bind _ _ _ _ _ fun b => ?_
    rw [hf.elements]
    cases K.elements b with
    | error e => rfl
    | ok src => exact hassign src x
  | destroy x =>
    rw [step, step, get_shown]
    refine map_bind _ _ _ _ _ fun a => ?_
    rw [hf.destroy]
    cases K.destroy a with
    | error e => rfl
    | ok u => exact congrArg Except.ok (shown_update x none)
  | assign x other =>
    rw [step, step, get_shown]
    refine map_bind _ _ _ _ _ fun a => ?_
    rw [get_shown]
    refine map_bind _ _ _ _ _ fun b => ?_
    split
    · rfl
    · rw [hf.elements]
      cases K.elements b with
      | error e => rfl
      | ok src =>
        rw [ok_bind, ok_bind, hf.perform]
        exact map_bind _ _ _ _ _ fun a => congrArg Except.ok (shown_update x (some a))
  | swap x other =>
    rw [step, step, get_shown]
    refine map_bind _ _ _ _ _ fun a => ?_
    rw [get_shown]
    refine map_bind _ _ _ _ _ fun b => congrArg Except.ok ?_
    exact (congrArg (Function.update · other (some (f a))) (shown_update x (some b))).trans
      (shown_update other (some a))
  | operate x op =>
    rw [step, step, get_shown]
    refine map_bind _ _ _ _ _ fun a => ?_
    rw [hf.perform]
    exact map_bind _ _ _ _ _ fun a => congrArg Except.ok (shown_update x (some a))

theorem run_shown (hf : Shows K L f) (commands : List (ArrayCommand T)) :
    L.run (shown f s) commands = (K.run s commands).map (shown f) := by
  induction commands generalizing s with
  | nil => rfl
  | cons c commands ih =>
    rw [run, run, List.foldlM_cons, List.foldlM_cons, step_shown hf c]
    exact map_bind _ _ _ _ _ fun s => ih

end Shows

end ArrayClass

/-! ## The two classes -/

section Classes

variable {T : Type} [Inhabited T]

def DynamicSizeArray.arrayClass : ArrayClass T (DynamicSizeArray T) where
  empty := .empty
  withCapasity := DynamicSizeArray.withCapasity
  elements := DynamicSizeArray.elements
  destroy := DynamicSizeArray.destroy
  perform := DynamicSizeArray.perform

/-- Lists that know their capacity. -/
def Listed.arrayClass : ArrayClass T (Listed T) where
  empty := .empty
  withCapasity len :=
    if hlen : len ≤ int32Max then
      .ok ⟨[], getCapasityForSize len, Nat.zero_le _, getCapasityForSize_le hlen⟩
    else .error .overflow
  elements c := .ok c.elems
  destroy _ := .ok ()
  perform := Listed.perform

theorem array_shows :
    ArrayClass.Shows (Listed.arrayClass (T := T)) DynamicSizeArray.arrayClass Listed.array where
  empty := rfl
  withCapasity len := by
    by_cases hlen : len ≤ int32Max
    · have hlisted : (Listed.arrayClass (T := T)).withCapasity len =
          .ok ⟨[], getCapasityForSize len, Nat.zero_le _, getCapasityForSize_le hlen⟩ :=
        dif_pos hlen
      rw [hlisted]
      exact Listed.withCapasity_eq hlen
    · have hlisted : (Listed.arrayClass (T := T)).withCapasity len = .error .overflow :=
        dif_neg hlen
      rw [hlisted]
      exact Listed.withCapasity_overflow hlen
  elements c := Listed.elements_array
  destroy c := Listed.destroy_array
  perform c op := Listed.perform_array op

theorem bind_ne_leaked {α β : Type} {x : Except MemoryFault α} {k : α → Except MemoryFault β}
    (hx : x ≠ .error .leaked) (hk : ∀ a, k a ≠ .error .leaked) : (x >>= k) ≠ .error .leaked := by
  cases x with
  | error e =>
    intro h
    obtain rfl : e = .leaked := Except.error.inj h
    exact hx rfl
  | ok a => exact hk a

omit [Inhabited T] in
theorem Listed.hold_ne_leaked {c : Listed T} {elems : List T} {n : Nat}
    (hlen : elems.length ≤ max n c.capasity) : c.hold elems n hlen ≠ .error .leaked := by
  unfold hold
  split <;> nofun

theorem Listed.perform_ne_leaked (c : Listed T) (op : ArrayOperation T) :
    c.perform op ≠ .error .leaked := by
  cases op with
  | clear => nofun
  | set i v =>
    rw [perform, set]
    split
    · nofun
    · split <;> nofun
  | pushBackOwn i =>
    rw [perform, pushBackOwn]
    cases c.elems[i]? with
    | none => nofun
    | some v =>
      refine bind_ne_leaked (by rw [append]; exact hold_ne_leaked _) fun grown => ?_
      split <;> nofun
  | assignValues src =>
    rw [perform, assignValues]
    exact hold_ne_leaked _
  | append src =>
    rw [perform, append]
    exact hold_ne_leaked _
  | reserve n =>
    rw [perform, reserve]
    exact hold_ne_leaked _
  | resize n =>
    rw [perform, resize]
    exact hold_ne_leaked _
  | pushBack v =>
    rw [perform, append]
    exact hold_ne_leaked _

theorem ArrayClass.get_ne_leaked {A : Type} (s : Arrays A) (x : Nat) :
    get s x ≠ .error .leaked := by
  unfold get
  split <;> nofun

theorem ArrayClass.put_ne_leaked {A : Type} (s : Arrays A) (x : Nat) (a : A) :
    put s x a ≠ .error .leaked := by
  unfold put
  split <;> nofun

theorem Listed.step_ne_leaked (t : Arrays (Listed T)) (c : ArrayCommand T) :
    Listed.arrayClass.step t c ≠ .error .leaked := by
  have hperform (a : Listed T) (op : ArrayOperation T) :
      Listed.arrayClass.perform a op ≠ .error .leaked := perform_ne_leaked a op
  cases c with
  | create x => exact ArrayClass.put_ne_leaked _ _ _
  | createSize x len =>
    refine bind_ne_leaked ?_ fun a => ArrayClass.put_ne_leaked _ _ _
    by_cases hlen : len ≤ int32Max <;> simp [arrayClass, hlen]
  | createValues x src =>
    exact bind_ne_leaked (hperform _ _) fun a => ArrayClass.put_ne_leaked _ _ _
  | createCopy x other =>
    refine bind_ne_leaked (ArrayClass.get_ne_leaked _ _) fun b => ?_
    refine bind_ne_leaked nofun fun src => ?_
    exact bind_ne_leaked (hperform _ _) fun a => ArrayClass.put_ne_leaked _ _ _
  | destroy x => exact bind_ne_leaked (ArrayClass.get_ne_leaked _ _) nofun
  | assign x other =>
    refine bind_ne_leaked (ArrayClass.get_ne_leaked _ _) fun a => ?_
    refine bind_ne_leaked (ArrayClass.get_ne_leaked _ _) fun b => ?_
    split
    · nofun
    · refine bind_ne_leaked nofun fun src => ?_
      exact bind_ne_leaked (hperform _ _) nofun
  | swap x other =>
    refine bind_ne_leaked (ArrayClass.get_ne_leaked _ _) fun a => ?_
    exact bind_ne_leaked (ArrayClass.get_ne_leaked _ _) nofun
  | operate x op =>
    refine bind_ne_leaked (ArrayClass.get_ne_leaked _ _) fun a => ?_
    exact bind_ne_leaked (hperform _ _) nofun

theorem Listed.run_ne_leaked (t : Arrays (Listed T)) (commands : List (ArrayCommand T)) :
    Listed.arrayClass.run t commands ≠ .error .leaked := by
  induction commands generalizing t with
  | nil => nofun
  | cons c commands ih =>
    rw [ArrayClass.run, List.foldlM_cons]
    exact bind_ne_leaked (step_ne_leaked t c) ih

/-- A run on arrays in memory is the run on lists: the elements and capacities are the same, and so
is the fault of a run that fails. No memory is given back with elements in it. -/
theorem arrays_refine (commands : List (ArrayCommand T)) (t : Arrays (Listed T)) :
    DynamicSizeArray.arrayClass.run (ArrayClass.shown Listed.array t) commands =
        (Listed.arrayClass.run t commands).map (ArrayClass.shown Listed.array) ∧
      (∀ c : Listed T, c.array.elements = .ok c.elems) ∧
      DynamicSizeArray.arrayClass.run (ArrayClass.shown Listed.array t) commands ≠
        .error .leaked := by
  have hrun := ArrayClass.run_shown (s := t) array_shows commands
  refine ⟨hrun, fun c => Listed.elements_array, ?_⟩
  rw [hrun]
  have hlisted := Listed.run_ne_leaked t commands
  cases hresult : Listed.arrayClass.run t commands with
  | error e =>
    intro h
    obtain rfl : e = .leaked := Except.error.inj h
    exact hlisted hresult
  | ok t' => nofun

end Classes

/-! ## The price of growing -/

/-- The places that an operation needs. -/
def DynamicSizeArray.request {T : Type} (a : DynamicSizeArray T) : ArrayOperation T → Nat
  | .assignValues src => src.length
  | .append src => a.size + src.length
  | .reserve newCapacity => newCapacity
  | .resize newSize => newSize
  | .pushBack _ | .pushBackOwn _ => a.size + 1
  | .clear | .set _ _ => 0

/-- The elements that `Reserve` constructs once more in new memory. -/
def DynamicSizeArray.moved {T : Type} (a : DynamicSizeArray T) (op : ArrayOperation T) : Nat :=
  match op with
  | .assignValues _ => 0
  | op => if a.capasity < a.request op then a.size else 0

/-- An array, all the elements it has moved, and the most places that it has been asked for. -/
structure Growth (T : Type) where
  array : DynamicSizeArray T
  moved : Nat
  requested : Nat

namespace Growth

variable {T : Type} [Inhabited T]

def start : Growth T := ⟨.empty, 0, 0⟩

def step (g : Growth T) (op : ArrayOperation T) : Except MemoryFault (Growth T) := do
  let array ← g.array.perform op
  .ok ⟨array, g.moved + g.array.moved op, max g.requested (g.array.request op)⟩

/-- The capacities that arrays have. -/
def Regular (capasity : Nat) : Prop :=
  capasity = 0 ∨ (∃ k, 3 ≤ k ∧ k ≤ 30 ∧ capasity = 2 ^ k) ∨ capasity = int32Max

/-- What every operation keeps. -/
structure Amortized (g : Growth T) : Prop where
  listed : ∃ c : Listed T, g.array = c.array
  regular : Regular g.array.capasity
  moved_le : g.moved ≤ g.array.capasity
  spare : g.array.capasity ≠ 0 → g.array.capasity ≠ int32Max → g.moved + 8 ≤ g.array.capasity
  capasity_le : g.array.capasity ≤ max 8 (2 * g.requested)

section Capasity

variable {capasity n : Nat}

/-- An array that grows becomes twice as large, or as large as it can. -/
theorem grown_capasity (h : Regular capasity) (hn : n ≤ int32Max) (hgrow : capasity < n) :
    (getCapasityForSize n = int32Max ∧ capasity ≤ 1073741824) ∨
      ∃ k, 3 ≤ k ∧ k ≤ 30 ∧ getCapasityForSize n = 2 ^ k ∧ 2 * capasity ≤ 2 ^ k := by
  by_cases hsmall : n ≤ 8
  · refine .inr ⟨3, le_rfl, by decide, if_pos hsmall, ?_⟩
    rcases h with rfl | ⟨k, hk, -, rfl⟩ | rfl
    · decide
    · have hpow : 2 ^ 3 ≤ 2 ^ k := Nat.pow_le_pow_right (by decide) hk
      omega
    · unfold int32Max at hgrow
      omega
  · have hlarge : 8 < n := not_le.mp hsmall
    rw [getCapasityForSize_large hlarge hn]
    split
    · refine .inl ⟨rfl, ?_⟩
      rcases h with rfl | ⟨k, -, hk, rfl⟩ | rfl
      · decide
      · exact Nat.pow_le_pow_right (by decide) hk
      · omega
    · rename_i hbits
      refine .inr ⟨n.size, Nat.lt_size.mpr (by omega), not_lt.mp hbits, rfl, ?_⟩
      rcases h with rfl | ⟨k, -, -, rfl⟩ | rfl
      · exact Nat.zero_le _
      · rw [Nat.mul_comm, ← pow_succ]
        exact Nat.pow_le_pow_right (by decide) (Nat.lt_size.mpr hgrow.le)
      · omega

theorem regular_reserved (h : Regular capasity) (hn : n ≤ int32Max) :
    Regular (Listed.reserved capasity n) := by
  unfold Listed.reserved
  split
  · rename_i hgrow
    rcases grown_capasity h hn hgrow with ⟨hmax, -⟩ | ⟨k, hlow, hhigh, hpow, -⟩
    · exact .inr (.inr hmax)
    · exact .inr (.inl ⟨k, hlow, hhigh, hpow⟩)
  · exact h

/-- The capacity is less than twice what is asked for. -/
theorem getCapasityForSize_le_double (hn : n ≤ int32Max) :
    getCapasityForSize n ≤ max 8 (2 * n) := by
  by_cases hsmall : n ≤ 8
  · rw [getCapasityForSize, if_pos hsmall]
    exact le_max_left _ _
  · have hlarge : 8 < n := not_le.mp hsmall
    have hpos : 0 < n.size := Nat.size_pos.mpr (by omega)
    have hlow : 2 ^ (n.size - 1) ≤ n := Nat.lt_size.mp (by omega)
    rw [getCapasityForSize_large hlarge hn]
    split
    · rename_i hbits
      have hpow : 2 ^ 30 ≤ 2 ^ (n.size - 1) := Nat.pow_le_pow_right (by decide) (by omega)
      unfold int32Max
      omega
    · have hdouble : 2 ^ n.size = 2 * 2 ^ (n.size - 1) := by
        rw [Nat.mul_comm, ← pow_succ, Nat.sub_add_cancel hpos]
      omega

/-- What is moved into new memory is paid for by the places that are new. -/
theorem reserved_amortized {moved requested extra : Nat} (h : Regular capasity)
    (hn : n ≤ int32Max) (hmoved : moved ≤ capasity)
    (hspare : capasity ≠ 0 → capasity ≠ int32Max → moved + 8 ≤ capasity)
    (hcapasity : capasity ≤ max 8 (2 * requested))
    (hextra : extra ≤ if capasity < n then capasity else 0) :
    moved + extra ≤ Listed.reserved capasity n ∧
      (Listed.reserved capasity n ≠ 0 → Listed.reserved capasity n ≠ int32Max →
        moved + extra + 8 ≤ Listed.reserved capasity n) ∧
      Listed.reserved capasity n ≤ max 8 (2 * max requested n) := by
  unfold Listed.reserved
  by_cases hgrow : capasity < n
  · rw [if_pos hgrow] at hextra ⊢
    have hdouble := getCapasityForSize_le_double hn
    have hmax : int32Max = 2147483647 := rfl
    rcases grown_capasity h hn hgrow with ⟨hgrown, hhalf⟩ | ⟨k, hk, -, hgrown, hhalf⟩
    · refine ⟨?_, fun _ hne => absurd hgrown hne, by omega⟩
      by_cases hzero : capasity = 0 <;> omega
    · have hpow : 2 ^ 3 ≤ 2 ^ k := Nat.pow_le_pow_right (by decide) hk
      refine ⟨?_, fun _ _ => ?_, by omega⟩ <;> by_cases hzero : capasity = 0 <;> omega
  · rw [if_neg hgrow] at hextra ⊢
    refine ⟨by omega, fun hne hmax => ?_, by omega⟩
    have := hspare hne hmax
    omega

end Capasity

section Step

variable {c d : Listed T} {op : ArrayOperation T}

omit [Inhabited T] in
theorem hold_capasity {elems : List T} {n : Nat} {hlen : elems.length ≤ max n c.capasity}
    (h : c.hold elems n hlen = .ok d) :
    n ≤ int32Max ∧ d.capasity = Listed.reserved c.capasity n := by
  unfold Listed.hold at h
  split at h
  · rename_i hn
    obtain rfl := Except.ok.inj h
    exact ⟨hn, rfl⟩
  · cases h

/-- An operation that succeeds has found or made the places it needs. -/
theorem perform_capasity (h : c.perform op = .ok d) :
    c.array.request op ≤ int32Max ∧
      d.capasity = Listed.reserved c.capasity (c.array.request op) := by
  have hsame : Listed.reserved c.capasity 0 = c.capasity := if_neg (Nat.not_lt_zero _)
  cases op with
  | assignValues src =>
    rw [Listed.perform, Listed.assignValues] at h
    exact hold_capasity h
  | append src =>
    rw [Listed.perform, Listed.append] at h
    exact hold_capasity h
  | reserve n =>
    rw [Listed.perform, Listed.reserve] at h
    exact hold_capasity h
  | resize n =>
    rw [Listed.perform, Listed.resize] at h
    exact hold_capasity h
  | pushBack v =>
    rw [Listed.perform, Listed.append] at h
    exact hold_capasity h
  | clear =>
    obtain rfl := Except.ok.inj h
    exact ⟨Nat.zero_le _, hsame.symm⟩
  | set i v =>
    rw [Listed.perform, Listed.set] at h
    split at h
    · obtain rfl := Except.ok.inj h
      exact ⟨Nat.zero_le _, hsame.symm⟩
    · split at h <;> cases h
  | pushBackOwn i =>
    rw [Listed.perform, Listed.pushBackOwn] at h
    split at h
    · cases h
    · rename_i v hv
      cases hgrown : c.append [v] with
      | error e =>
        rw [hgrown] at h
        cases h
      | ok grown =>
        rw [hgrown, ok_bind] at h
        split at h
        · cases h
        · obtain rfl := Except.ok.inj h
          rw [Listed.append] at hgrown
          exact hold_capasity hgrown

theorem step_amortized {g g' : Growth T} (hg : g.Amortized) (h : g.step op = .ok g') :
    g'.Amortized := by
  obtain ⟨array, moved, requested⟩ := g
  obtain ⟨⟨c, rfl⟩, hregular, hmoved, hspare, hcapasity⟩ := hg
  rw [step, Listed.perform_array] at h
  cases hperform : c.perform op with
  | error e =>
    rw [hperform] at h
    cases h
  | ok d =>
    rw [hperform] at h
    obtain rfl := Except.ok.inj h
    obtain ⟨hn, hcapasity'⟩ := perform_capasity hperform
    have hmoves : c.array.moved op ≤ if c.capasity < c.array.request op then c.capasity else 0 := by
      unfold DynamicSizeArray.moved
      split
      · exact Nat.zero_le _
      · change (if c.capasity < _ then c.elems.length else 0) ≤ _
        split
        · exact c.room
        · exact le_rfl
    dsimp only at hregular hmoved hspare hcapasity
    change d.array.capasity = Listed.reserved c.array.capasity (c.array.request op) at hcapasity'
    obtain ⟨hmoved', hspare', hrequested⟩ :=
      reserved_amortized hregular hn hmoved hspare hcapasity hmoves
    have hregular' := regular_reserved hregular hn
    rw [← hcapasity'] at hmoved' hspare' hrequested hregular'
    exact ⟨⟨d, rfl⟩, hregular', hmoved', hspare', hrequested⟩

end Step

/-- However an array has grown, it has moved no more elements than it has places, and these are not
more than twice what it has been asked for. -/
theorem reallocation_amortized (ops : List (ArrayOperation T)) (g : Growth T)
    (h : ops.foldlM step start = .ok g) :
    g.moved ≤ g.array.capasity ∧ g.array.capasity ≤ max 8 (2 * g.requested) := by
  have hstart : (start : Growth T).Amortized :=
    ⟨⟨.empty, rfl⟩, .inl rfl, le_rfl, fun hne => absurd rfl hne, Nat.zero_le _⟩
  have hrun : ∀ (ops : List (ArrayOperation T)) (g₀ g : Growth T), g₀.Amortized →
      ops.foldlM step g₀ = .ok g → g.Amortized := by
    intro ops
    induction ops with
    | nil =>
      intro g₀ g hg h
      obtain rfl := Except.ok.inj h
      exact hg
    | cons op ops ih =>
      intro g₀ g hg h
      rw [List.foldlM_cons] at h
      cases hstep : g₀.step op with
      | error e =>
        rw [hstep] at h
        cases h
      | ok g₁ =>
        rw [hstep] at h
        exact ih g₁ g (step_amortized hg hstep) h
  have hg := hrun ops start g hstart h
  exact ⟨hg.moved_le, hg.capasity_le⟩

/-- Nine elements, one by one. -/
theorem reallocation_nine :
    ∃ g : Growth Nat, ((List.range 9).map ArrayOperation.pushBack).foldlM step start = .ok g ∧
      g.moved = 8 ∧ g.moved ≤ g.array.capasity ∧ g.array.capasity ≤ max 8 (2 * g.requested) := by
  refine ⟨_, rfl, rfl, ?_⟩
  exact reallocation_amortized ((List.range 9).map ArrayOperation.pushBack) _ rfl

end Growth

end Common

end TrinoOdbc
