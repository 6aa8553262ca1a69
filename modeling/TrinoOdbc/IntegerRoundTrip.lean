import TrinoOdbc.BigInteger
import TrinoOdbc.IntegerColumns
import TrinoOdbc.SlotLayout

/-!
# TrinoOdbc.IntegerRoundTrip

`PutInt64` and `GetInt64` of one buffer, for the integer C types and `SQL_C_NUMERIC`.

`integers_roundTrip_iff` says for which of them, and for which numbers, the number that is put is
the number that is got, and neither call leaves the element.
-/

namespace TrinoOdbc

open ByteMemory
open ApplicationDataBuffer

/-! ## `GetInt64` -/

/-- The cast to `int64_t`. -/
def toInt64 (v : Int) : Int := v.bmod 18446744073709551616

def IsInt64 (v : Int) : Prop := -9223372036854775808 ≤ v ∧ v ≤ 9223372036854775807

instance (v : Int) : Decidable (IsInt64 v) := inferInstanceAs (Decidable (_ ∧ _))

/-- `SetScale( 0 )` of a `Decimal` that has a scale: a long division by a power of ten. -/
abbrev Rescale := Int → BigInteger → BigInteger

/-- The constructor of `Decimal` from bytes, and its `ToInt64`. -/
def decimalToInt64 (rescale : Rescale) (mag : List UInt8) (scale sign : Int) : Int :=
  let magnitude := BigInteger.ofBytes mag sign false
  let scale := scale % 2147483648
  if scale = 0 then magnitude.toInt64 else (rescale scale magnitude).toInt64

/-- The C types whose buffers hold an integer. -/
inductive NumberCType where
  | integer (t : IntegerCType)
  | bit | numeric

/-- The size of the type that `GetNum` reads an integer through. -/
def IntegerCType.readSize (P : Platform) : IntegerCType → Nat
  | .stinyint | .utinyint => 1
  | .sshort | .ushort => 2
  | .slong | .ulong => P.longBytes
  | .sbigint | .ubigint => 8

namespace NumberCType

def native : NumberCType → OdbcNativeType
  | .integer t => t.native
  | .bit => .bit
  | .numeric => .numeric

/-- The integers of the type. -/
def Holds : NumberCType → Int → Prop
  | .integer t, v => t.Holds v
  | .bit, v => IntegerCType.utinyint.Holds v
  | .numeric, _ => True

/-- The bytes that `GetNum` looks at: offsets from the data pointer, with sizes. -/
def accesses (P : Platform) : NumberCType → List (Int × Nat)
  | .integer t => [(0, t.readSize P)]
  | .bit => [(0, 1)]
  | .numeric => [(3, 16), (1, 1), (2, 1)]

/-- What `GetNum< int64_t >` makes of those bytes. -/
def ofFields (rescale : Rescale) : NumberCType → List (List UInt8) → Int
  | .integer t, [bytes] => toInt64 (t.decode bytes)
  | .bit, [bytes] => toInt64 (decodeNat bytes)
  | .numeric, [val, scale, sign] =>
    decimalToInt64 rescale val (decodeInt scale) (if decodeNat sign ≠ 0 then 1 else -1)
  | _, _ => 0

end NumberCType

/-- `GetInt64` of a buffer of one of these types. -/
def ApplicationDataBuffer.getInt64 (P : Platform) (rescale : Rescale) (t : NumberCType)
    (b : ApplicationDataBuffer) (m : Memory) : Except PutFault Int :=
  match b.getData with
  | none => .error .nullPointer
  | some base => .ok (t.ofFields rescale ((t.accesses P).map fun x => read m (base + x.1) x.2))

/-! ## Put and get -/

/-- What `PutInt64` has put is got by `GetInt64`, whatever was in memory before, and neither call
leaves the element. -/
def PutsAndGets (P : Platform) (rescale : Rescale) (t : NumberCType) (b : ApplicationDataBuffer)
    (v : Int) : Prop :=
  ∃ base c, b.getData = some base ∧ b.putInt64 P v = .ok c ∧
    Within 0 b.getElementSize c.writes ∧
    (∀ x ∈ t.accesses P, 0 ≤ x.1 ∧ x.1 + x.2 ≤ b.getElementSize) ∧
    (c.result = .success → ∀ m, b.getInt64 P rescale t (apply m base c.writes) = .ok v)

/-- `GetNum` reads a `long` where `PutNum` has written a `SQLINTEGER`, and it borrows from the high
limb of a negative number only where there is none. -/
def ReadAsWritten (P : Platform) (v : Int) : NumberCType → Prop
  | .integer .slong | .integer .ulong => P.longBytes = 4
  | .numeric => -4294967296 < v ∨ 4294967296 ∣ v
  | _ => True

section RoundTrip

variable {P : Platform} {rescale : Rescale} {v : Int}

theorem toInt64_of_isInt64 (hv : IsInt64 v) : toInt64 v = v := by
  obtain ⟨hlo, hhi⟩ := hv
  rw [toInt64, Int.bmod]
  split <;> omega

/-- The buffers of one C type. -/
def NumberCType.bufferAt (t : NumberCType) (b : ApplicationDataBuffer) (target : Addr) :
    ApplicationDataBuffer :=
  { b with type := t.native, buffer := some target }

theorem NumberCType.getData_bufferAt (t : NumberCType) (b : ApplicationDataBuffer)
    (target : Addr) : ∃ base, (t.bufferAt b target).getData = some base := ⟨_, rfl⟩

/-- The bytes of a single write, from its start. -/
theorem read_apply_singleton {bytes : List UInt8} {n : Nat} (hn : bytes.length = n) (m : Memory)
    (base : Int) : read (apply m base [(0, bytes)]) (base + 0) n = bytes := by
  subst hn
  simp only [apply_cons, apply_nil]
  exact read_write_self m (base + 0) bytes

/-- What `GetNum` reads has the size of the element, if it is no longer. -/
theorem IntegerCType.readSize_eq (t : IntegerCType) (P : Platform) (h : t.readSize P ≤ t.size) :
    t.readSize P = t.size := by
  have hlong := P.longBytes_eq
  cases t with
  | slong | ulong =>
    simp only [readSize, size] at h ⊢
    omega
  | _ => rfl

theorem integer_putsAndGets_iff (t : IntegerCType) (b : ApplicationDataBuffer) (target : Addr)
    (hv : IsInt64 v) (hholds : t.Holds v) :
    PutsAndGets P rescale (.integer t) ((NumberCType.integer t).bufferAt b target) v ↔
      ReadAsWritten P v (.integer t) := by
  obtain ⟨base, hdata⟩ := (NumberCType.integer t).getData_bufferAt b target
  have hput := putNum_integer P t 8 v (b := (NumberCType.integer t).bufferAt b target) rfl hdata
  have hsize : ((NumberCType.integer t).bufferAt b target).getElementSize = t.size := by
    cases t <;> rfl
  have hread : t.readSize P = t.size ↔ ReadAsWritten P v (.integer t) := by
    cases t <;> simp [IntegerCType.readSize, IntegerCType.size, ReadAsWritten]
  rw [← hread]
  constructor
  · rintro ⟨-, c, -, -, -, haccess, -⟩
    have hinside := haccess (0, t.readSize P) List.mem_cons_self
    rw [hsize] at hinside
    exact t.readSize_eq P (by omega)
  · intro heq
    refine ⟨base, _, hdata, hput, ?_, ?_, fun _ m => ?_⟩
    · rw [hsize]
      exact within_singleton le_rfl (by simp)
    · intro x hx
      obtain rfl := List.mem_singleton.mp hx
      rw [hsize, heq]
      simp
    · unfold getInt64
      rw [hdata]
      simp only [NumberCType.accesses, List.map_cons, List.map_nil, NumberCType.ofFields, heq]
      rw [read_apply_singleton (length_encode _ _), (t.decode_encode_iff v).mpr hholds,
        toInt64_of_isInt64 hv]

theorem putNumToNumBuffer_data {b : ApplicationDataBuffer} {base : Addr} (out : List UInt8)
    (hdata : b.getData = some base) :
    b.putNumToNumBuffer out = ⟨[(0, out)], b.storeLen out.length, .success⟩ := by
  simp [putNumToNumBuffer, hdata]

theorem bit_putsAndGets (b : ApplicationDataBuffer) (target : Addr) (hv : IsInt64 v)
    (hholds : NumberCType.bit.Holds v) :
    PutsAndGets P rescale .bit (NumberCType.bit.bufferAt b target) v := by
  obtain ⟨base, hdata⟩ := NumberCType.bit.getData_bufferAt b target
  have hput : (NumberCType.bit.bufferAt b target).putInt64 P v =
      .ok ⟨[(0, encode 1 v)], _, .success⟩ :=
    congrArg Except.ok (putNumToNumBuffer_data (encode 1 v) hdata)
  have hdecode := (IntegerCType.utinyint.decode_encode_iff v).mpr hholds
  refine ⟨base, _, hdata, hput, within_singleton le_rfl le_rfl, ?_, fun _ m => ?_⟩
  · intro x hx
    obtain rfl := List.mem_singleton.mp hx
    exact ⟨le_rfl, le_rfl⟩
  · unfold getInt64
    rw [hdata]
    simp only [NumberCType.accesses, List.map_cons, List.map_nil, NumberCType.ofFields]
    rw [read_apply_singleton (length_encode _ _)]
    exact congrArg Except.ok ((congrArg toInt64 hdecode).trans (toInt64_of_isInt64 hv))

/-! ### Numerics -/

/-- What `PutInt64` stores in a `SQL_NUMERIC_STRUCT`. -/
def numericWrites (v : Int) : Writes :=
  [(0, encode 1 (digitLength v.natAbs)), (1, encode 1 0), (2, encode 1 (if v < 0 then 0 else 1)),
    (3, encode 16 0), (3, encode 8 v.natAbs)]

theorem putInt64_numeric (b : ApplicationDataBuffer) (target : Addr) :
    ∃ resLen, (NumberCType.numeric.bufferAt b target).putInt64 P v =
      .ok ⟨numericWrites v, resLen, .success⟩ := by
  refine ⟨((NumberCType.numeric.bufferAt b target).storeLen 19), ?_⟩
  obtain ⟨base, hdata⟩ := NumberCType.numeric.getData_bufferAt b target
  have htype : (NumberCType.numeric.bufferAt b target).type = .numeric := rfl
  unfold putInt64 putNum
  simp only [htype, hdata, reduceCtorEq, if_false, Num.negative, Num.magnitude, decide_eq_true_eq]
  rfl

/-- The value that is written in two steps: zeros, and the magnitude over the first half. -/
theorem read_magnitude (m : Memory) (a : Int) (magnitude : Nat) :
    read (write (write m a (encode 16 0)) a (encode 8 magnitude)) a 16 =
      encode 8 magnitude ++ encode 8 0 := by
  have hzeros := read_write_self m a (encode 16 0)
  have hhalves : encode 16 0 = encode 8 0 ++ encode 8 0 := rfl
  rw [length_encode, read_add _ a 8 8, hhalves] at hzeros
  have hhigh := (List.append_inj hzeros (by simp)).2
  rw [read_add _ a 8 8, read_write_take _ _ (by simp), List.take_of_length_le (by simp),
    read_write_outside _ (.inr (by simp)), ← hhigh]
  rfl

/-- The three fields that are read. -/
theorem read_numericWrites (m : Memory) (base : Int) :
    read (apply m base (numericWrites v)) (base + 3) 16 = encode 8 v.natAbs ++ encode 8 0 ∧
      read (apply m base (numericWrites v)) (base + 1) 1 = encode 1 0 ∧
      read (apply m base (numericWrites v)) (base + 2) 1 = encode 1 (if v < 0 then 0 else 1) := by
  simp only [numericWrites, apply_cons, apply_nil]
  refine ⟨read_magnitude _ _ _, ?_, ?_⟩
  · rw [read_write_outside _ (.inl (by omega)), read_write_outside _ (.inl (by omega)),
      read_write_outside _ (.inl (by omega))]
    exact read_write_self _ _ (encode 1 0)
  · rw [read_write_outside _ (.inl (by omega)), read_write_outside _ (.inl (by omega))]
    exact read_write_self _ _ (encode 1 _)

theorem decodeNat_magnitude {magnitude : Nat} (h : magnitude < 18446744073709551616) :
    decodeNat (encode 8 magnitude ++ encode 8 0) = magnitude := by
  have hlow := decodeNat_encode 8 magnitude
  have hhigh : decodeNat (encode 8 0) = 0 := rfl
  rw [decodeNat_append, hhigh, Nat.mul_zero, Nat.add_zero]
  omega

/-- What is got of the fields of a numeric. -/
theorem ofFields_numeric (hv : IsInt64 v) :
    NumberCType.numeric.ofFields rescale
        [encode 8 v.natAbs ++ encode 8 0, encode 1 0, encode 1 (if v < 0 then 0 else 1)] = v ↔
      ReadAsWritten P v .numeric := by
  obtain ⟨hlo, hhi⟩ := hv
  have hmagnitude := decodeNat_magnitude (show v.natAbs < 18446744073709551616 by omega)
  have hscale : decodeInt (encode 1 0) % 2147483648 = 0 := by decide
  simp only [NumberCType.ofFields, decimalToInt64, hscale, if_true, ReadAsWritten]
  by_cases hneg : v < 0
  · have hsign : decodeNat (encode 1 0) = 0 := rfl
    have hthrough := @BigInteger.toInt64_negative_iff (encode 8 v.natAbs ++ encode 8 0)
      (by omega) (by omega)
    have hvalue : -(v.natAbs : Int) = v := by omega
    rw [hmagnitude, hvalue] at hthrough
    rw [if_pos hneg, if_neg (not_not.mpr hsign), hthrough]
    omega
  · have hsign : decodeNat (encode 1 1) ≠ 0 := by decide
    have hthrough := @BigInteger.toInt64_positive (encode 8 v.natAbs ++ encode 8 0) (by omega)
    rw [if_neg hneg, if_pos hsign, hthrough, hmagnitude]
    omega

theorem numeric_putsAndGets_iff (b : ApplicationDataBuffer) (target : Addr) (hv : IsInt64 v) :
    PutsAndGets P rescale .numeric (NumberCType.numeric.bufferAt b target) v ↔
      ReadAsWritten P v .numeric := by
  obtain ⟨base, hdata⟩ := NumberCType.numeric.getData_bufferAt b target
  obtain ⟨resLen, hput⟩ := @putInt64_numeric P v b target
  have hget (m : Memory) : (NumberCType.numeric.bufferAt b target).getInt64 P rescale .numeric
      (apply m base (numericWrites v)) = .ok v ↔ ReadAsWritten P v .numeric := by
    obtain ⟨hval, hscale, hsign⟩ := @read_numericWrites v m base
    unfold getInt64
    rw [hdata]
    simp only [NumberCType.accesses, List.map_cons, List.map_nil, hval, hscale, hsign,
      Except.ok.injEq]
    exact ofFields_numeric hv
  constructor
  · rintro ⟨base', c, hdata', hput', -, -, hgot⟩
    obtain rfl := Option.some.inj (hdata.symm.trans hdata')
    obtain rfl := Except.ok.inj (hput.symm.trans hput')
    exact (hget (fun _ => 0)).mp (hgot rfl _)
  · intro hread
    refine ⟨base, _, hdata, hput, ?_, ?_, fun _ m => (hget m).mpr hread⟩
    · exact numericFields_within _ _ _ _ _ (length_encode _ _) (by simp)
    · intro x hx
      simp only [NumberCType.accesses, List.mem_cons, List.not_mem_nil, or_false] at hx
      have hsize : (NumberCType.numeric.bufferAt b target).getElementSize = 19 := rfl
      rw [hsize]
      rcases hx with rfl | rfl | rfl <;> decide

/-- `GetInt64` gives what `PutInt64` was given, in the element, exactly where the reader reads what
the writer writes. -/
theorem integers_roundTrip_iff (P : Platform) (rescale : Rescale) (t : NumberCType)
    (b : ApplicationDataBuffer) (target : Addr) (v : Int) (hv : IsInt64 v) (hholds : t.Holds v) :
    PutsAndGets P rescale t { b with type := t.native, buffer := some target } v ↔
      ReadAsWritten P v t := by
  cases t with
  | integer t => exact integer_putsAndGets_iff t b target hv hholds
  | bit => exact iff_of_true (bit_putsAndGets b target hv hholds) trivial
  | numeric => exact numeric_putsAndGets_iff b target hv

end RoundTrip

section Examples

theorem integers_roundTrip_negative :
    PutsAndGets .linux (fun _ x => x) .numeric
      { type := .numeric, buffer := some 0, buflen := 19, reslen := none } (-4294967295) :=
  (integers_roundTrip_iff .linux (fun _ x => x) .numeric
    { type := .default, buffer := none, buflen := 19, reslen := none } 0 (-4294967295) (by decide)
    trivial).mpr (.inl (by decide))

/-- A `SQL_C_SLONG` is read with the four bytes behind it, and the numeric -4294967297 as -1. -/
theorem integers_readDifferently :
    ¬ PutsAndGets .linux (fun _ x => x) (.integer .slong)
        { type := .signedLong, buffer := some 0, buflen := 4, reslen := none } 1 ∧
      ¬ PutsAndGets .linux (fun _ x => x) .numeric
        { type := .numeric, buffer := some 0, buflen := 19, reslen := none } (-4294967297) := by
  constructor
  · rintro ⟨-, -, -, -, -, haccess, -⟩
    exact absurd (haccess (0, 8) List.mem_cons_self).2 (by decide)
  · rintro ⟨base, c, hdata, hput, -, -, hgot⟩
    obtain rfl := Option.some.inj hdata
    obtain rfl := Except.ok.inj hput
    exact absurd (hgot rfl fun _ => 0) (by decide +kernel)

end Examples

end TrinoOdbc
