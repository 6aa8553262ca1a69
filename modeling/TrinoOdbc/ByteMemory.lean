import Mathlib.Algebra.Order.Ring.Int
import Mathlib.Data.List.Basic
import Mathlib.Tactic.Positivity
import Mathlib.Tactic.Ring

/-!
# TrinoOdbc.ByteMemory

Memory as bytes: integers as little-endian bytes in two's complement, and writes of byte strings.

* `decodeNat_encode`, `decodeInt_encode` — what `n` bytes keep of an integer.
* `read_write_self`, `write_outside` — a write is read back, and changes nothing else.
* `read_apply` — of several writes that do not meet, each is read back.
-/

namespace ByteMemory

/-! ## Integers -/

/-- The `n` low bytes of an integer, the lowest first. -/
def encode : Nat → Int → List UInt8
  | 0, _ => []
  | n + 1, v => UInt8.ofNat (v % 256).toNat :: encode n (v / 256)

def decodeNat : List UInt8 → Nat
  | [] => 0
  | b :: bs => b.toNat + 256 * decodeNat bs

/-- The signed integer with these bytes. -/
def decodeInt (bs : List UInt8) : Int := (decodeNat bs : Int).bmod (256 ^ bs.length)

@[simp] theorem length_encode (n : Nat) (v : Int) : (encode n v).length = n := by
  induction n generalizing v with
  | zero => rfl
  | succ n ih => simp [encode, ih]

theorem emod_mul_eq (v : Int) {k : Int} (hk : 0 < k) :
    v % (256 * k) = v % 256 + 256 * (v / 256 % k) := by
  have hv : v = v % 256 + 256 * (v / 256 % k) + 256 * k * (v / 256 / k) := by
    have hlow := Int.emod_add_mul_ediv v 256
    have hhigh := Int.emod_add_mul_ediv (v / 256) k
    calc v = v % 256 + 256 * (v / 256) := hlow.symm
      _ = v % 256 + 256 * (v / 256 % k + k * (v / 256 / k)) := by rw [hhigh]
      _ = _ := by ring
  have hlow := Int.emod_nonneg v (b := 256) (by decide)
  have hlow' := Int.emod_lt_of_pos v (b := 256) (by decide)
  have hhigh := Int.emod_nonneg (v / 256) (b := k) (by omega)
  have hhigh' := Int.emod_lt_of_pos (v / 256) hk
  conv_lhs => rw [hv, Int.add_mul_emod_self_left]
  exact Int.emod_eq_of_lt (by omega) (by omega)

theorem decodeNat_encode (n : Nat) (v : Int) : (decodeNat (encode n v) : Int) = v % 256 ^ n := by
  induction n generalizing v with
  | zero => simp [encode, decodeNat, Int.emod_one]
  | succ n ih =>
    have hlow : (UInt8.ofNat (v % 256).toNat).toNat = (v % 256).toNat := by
      rw [UInt8.toNat_ofNat']
      omega
    have hnonneg : 0 ≤ v % 256 := Int.emod_nonneg _ (by decide)
    simp only [encode, decodeNat, hlow, Nat.cast_add, Nat.cast_mul, ih, Nat.cast_ofNat]
    rw [Int.toNat_of_nonneg hnonneg, pow_succ', emod_mul_eq v (by positivity)]

theorem decodeNat_lt (bs : List UInt8) : decodeNat bs < 256 ^ bs.length := by
  induction bs with
  | nil => simp [decodeNat]
  | cons b bs ih =>
    have hb : b.toNat < 256 := b.toNat_lt
    rw [decodeNat, List.length_cons, pow_succ]
    omega

theorem decodeInt_encode (n : Nat) (v : Int) :
    decodeInt (encode n v) = v.bmod (256 ^ n) := by
  rw [decodeInt, length_encode, decodeNat_encode]
  have h := Int.emod_bmod (x := v) (n := 256 ^ n)
  push_cast at h
  exact h

theorem decodeNat_append (xs ys : List UInt8) :
    decodeNat (xs ++ ys) = decodeNat xs + 256 ^ xs.length * decodeNat ys := by
  induction xs with
  | nil => simp [decodeNat]
  | cons b xs ih =>
    simp only [List.cons_append, decodeNat, List.length_cons, ih, pow_succ]
    ring

/-! ## Memory -/

abbrev Memory := Int → UInt8

def read (m : Memory) (a : Int) : Nat → List UInt8
  | 0 => []
  | n + 1 => m a :: read m (a + 1) n

def write (m : Memory) (a : Int) (bytes : List UInt8) : Memory := fun x =>
  if a ≤ x then (bytes[(x - a).toNat]?).getD (m x) else m x

@[simp] theorem length_read (m : Memory) (a : Int) (n : Nat) : (read m a n).length = n := by
  induction n generalizing a with
  | zero => rfl
  | succ n ih => simp [read, ih]

theorem getElem?_read (m : Memory) (a : Int) {n i : Nat} (h : i < n) :
    (read m a n)[i]? = some (m (a + i)) := by
  induction n generalizing a i with
  | zero => omega
  | succ n ih =>
    cases i with
    | zero => simp [read]
    | succ i =>
      rw [read, List.getElem?_cons_succ, ih _ (by omega)]
      congr 2
      push_cast
      ring

theorem read_congr {m m' : Memory} {a : Int} {n : Nat}
    (h : ∀ x, a ≤ x → x < a + n → m x = m' x) : read m a n = read m' a n := by
  induction n generalizing a with
  | zero => rfl
  | succ n ih =>
    rw [read, read, h a le_rfl (by omega), ih fun x hlo hhi => h x (by omega) (by omega)]

theorem read_add (m : Memory) (a : Int) (k n : Nat) :
    read m a (k + n) = read m a k ++ read m (a + k) n := by
  induction k generalizing a with
  | zero => simp [read]
  | succ k ih =>
    rw [Nat.add_right_comm, read, ih, read, List.cons_append]
    congr 3
    push_cast
    ring

theorem write_outside (m : Memory) {a x : Int} {bytes : List UInt8}
    (h : x < a ∨ a + bytes.length ≤ x) : write m a bytes x = m x := by
  unfold write
  split
  · rw [List.getElem?_eq_none (by omega), Option.getD_none]
  · rfl

theorem write_inside (m : Memory) (a : Int) {bytes : List UInt8} {i : Nat}
    (h : i < bytes.length) : write m a bytes (a + i) = bytes[i] := by
  have hi : (a + i - a).toNat = i := by omega
  rw [write, if_pos (by omega), hi, List.getElem?_eq_getElem h, Option.getD_some]

theorem read_write_self (m : Memory) (a : Int) (bytes : List UInt8) :
    read (write m a bytes) a bytes.length = bytes := by
  refine List.ext_getElem? fun i => ?_
  by_cases h : i < bytes.length
  · rw [getElem?_read _ _ h, write_inside m a h, List.getElem?_eq_getElem h]
  · rw [List.getElem?_eq_none (by simpa using h), List.getElem?_eq_none (by omega)]

theorem take_read (m : Memory) (a : Int) {k n : Nat} (h : k ≤ n) :
    (read m a n).take k = read m a k := by
  obtain ⟨r, rfl⟩ := Nat.exists_eq_add_of_le h
  rw [read_add, List.take_append_of_le_length (by simp), List.take_of_length_le (by simp)]

/-- The first bytes of what is written. -/
theorem read_write_take (m : Memory) (a : Int) {bytes : List UInt8} {k : Nat}
    (h : k ≤ bytes.length) : read (write m a bytes) a k = bytes.take k := by
  rw [← take_read _ _ h, read_write_self]

/-- A read that a write does not meet. -/
theorem read_write_outside (m : Memory) {a b : Int} {n : Nat} {bytes : List UInt8}
    (h : b + n ≤ a ∨ a + bytes.length ≤ b) : read (write m a bytes) b n = read m b n :=
  read_congr fun _ _ _ => write_outside m (by omega)

/-! ## Several writes -/

/-- Byte strings with the offsets they are written at. -/
abbrev Writes := List (Int × List UInt8)

/-- The writes one after the other, from a base address. -/
def apply (m : Memory) (base : Int) (ws : Writes) : Memory :=
  ws.foldl (fun m w => write m (base + w.1) w.2) m

/-- No byte is written below `lo`, or at `hi` or above. -/
def Within (lo hi : Int) (ws : Writes) : Prop :=
  ∀ w ∈ ws, w.2 ≠ [] → lo ≤ w.1 ∧ w.1 + w.2.length ≤ hi

/-- The byte is one of those written. -/
def Touches (base : Int) (ws : Writes) (x : Int) : Prop :=
  ∃ w ∈ ws, base + w.1 ≤ x ∧ x < base + w.1 + w.2.length

@[simp] theorem apply_nil (m : Memory) (base : Int) : apply m base [] = m := rfl

@[simp] theorem apply_cons (m : Memory) (base : Int) (w : Int × List UInt8) (ws : Writes) :
    apply m base (w :: ws) = apply (write m (base + w.1) w.2) base ws := rfl

theorem apply_concat (m : Memory) (base : Int) (ws : Writes) (w : Int × List UInt8) :
    apply m base (ws ++ [w]) = write (apply m base ws) (base + w.1) w.2 := by
  simp [apply]

theorem apply_of_not_touches {base x : Int} {ws : Writes} (h : ¬ Touches base ws x) (m : Memory) :
    apply m base ws x = m x := by
  induction ws generalizing m with
  | nil => rfl
  | cons w ws ih =>
    have hout : ¬ (base + w.1 ≤ x ∧ x < base + w.1 + w.2.length) :=
      fun hin => h ⟨w, List.mem_cons_self, hin⟩
    rw [apply_cons, ih fun ⟨v, hv, hin⟩ => h ⟨v, List.mem_cons_of_mem _ hv, hin⟩]
    exact write_outside m (by omega)

theorem Within.bounds {lo hi base x : Int} {ws : Writes} (h : Within lo hi ws)
    (hx : Touches base ws x) : base + lo ≤ x ∧ x < base + hi := by
  obtain ⟨w, hw, hlo, hhi⟩ := hx
  have hne : w.2 ≠ [] := by
    intro hnil
    rw [hnil, List.length_nil] at hhi
    omega
  have hbounds := h w hw hne
  omega

theorem Within.mono {lo hi lo' hi' : Int} {ws : Writes} (h : Within lo hi ws) (hlo : lo' ≤ lo)
    (hhi : hi ≤ hi') : Within lo' hi' ws := by
  intro w hw hne
  have hbounds := h w hw hne
  omega

theorem within_nil (lo hi : Int) : Within lo hi [] := nofun

theorem within_cons {lo hi : Int} {w : Int × List UInt8} {ws : Writes}
    (hw : lo ≤ w.1 ∧ w.1 + w.2.length ≤ hi) (hws : Within lo hi ws) : Within lo hi (w :: ws) := by
  intro v hv hne
  rcases List.mem_cons.mp hv with rfl | hv
  · exact hw
  · exact hws v hv hne

theorem within_singleton {lo hi a : Int} {bytes : List UInt8} (hlo : lo ≤ a)
    (hhi : a + bytes.length ≤ hi) : Within lo hi [(a, bytes)] :=
  within_cons ⟨hlo, hhi⟩ (within_nil lo hi)

/-- Each behind the ones before it. -/
def Ordered (ws : Writes) : Prop :=
  ws.Pairwise fun (v w : Int × List UInt8) => v.1 + v.2.length ≤ w.1

/-- Each of several writes, none of which meets another, is read back. -/
theorem read_apply {ws : Writes} {w : Int × List UInt8} (hordered : Ordered ws) (hw : w ∈ ws)
    (m : Memory) (base : Int) : read (apply m base ws) (base + w.1) w.2.length = w.2 := by
  induction ws generalizing m with
  | nil => cases hw
  | cons v ws ih =>
    obtain ⟨hv, hws⟩ := List.pairwise_cons.mp hordered
    rw [apply_cons]
    rcases List.mem_cons.mp hw with rfl | hw
    · refine (read_congr fun x _ hx => apply_of_not_touches ?_ _).trans (read_write_self _ _ _)
      rintro ⟨u, hu, hlo, -⟩
      have hbehind := hv u hu
      omega
    · exact ih hws hw _

end ByteMemory
