import TrinoOdbc.NumericStruct

/-!
# TrinoOdbc.MagnitudeBytes

The bytes of a magnitude in arrays of `int8_t`, index by index as `big_integer.cpp` reads and writes
them: the constructor of a `BigInteger` from an array, and `MagnitudeToBytes`.

* `construct_eq` — the constructor, in both byte orders, is `ofBytes`.
* `magnitudeToBuffer_eq` — `MagnitudeToBytes` is `magnitudeToBytes`.
* `byteArray_codec` — what is written is read back, and nothing shorter is.
-/

namespace TrinoOdbc

open ByteMemory Loops

/-! ## Arrays of bytes -/

/-- An array of `int8_t`. An access outside of it is a fault. -/
abbrev ByteBuffer := List Int8

namespace ByteBuffer

def load (a : ByteBuffer) (i : Int) : Except ArithmeticFault Int8 :=
  if 0 ≤ i then a[i.toNat]?.elim (.error .outOfBounds) .ok else .error .outOfBounds

def store (a : ByteBuffer) (i : Int) (x : Int8) : Except ArithmeticFault ByteBuffer :=
  if 0 ≤ i ∧ i.toNat < a.length then .ok (a.set i.toNat x) else .error .outOfBounds

/-- All elements are zero. -/
def reset (newSize : Nat) : ByteBuffer := List.replicate newSize 0

/-- The bytes without their sign. -/
def octets (a : ByteBuffer) : List UInt8 := a.map Int8.toUInt8

/-- The array with these bytes. -/
def ofOctets (bytes : List UInt8) : ByteBuffer := bytes.map UInt8.toInt8

/-- The number of the bytes, the highest first. -/
def toNat (a : ByteBuffer) : Nat := decodeNat (octets a).reverse

/-- The first index with a byte other than zero, or the length. -/
def firstNonZero (a : ByteBuffer) : Nat := a.findIdx (· ≠ 0)

/-- The last index below `n` with a byte other than zero, or -1. -/
def lastNonZero (a : ByteBuffer) : Nat → Int
  | 0 => -1
  | n + 1 => if a[n]? = some 0 then lastNonZero a n else n

end ByteBuffer

namespace BigInteger

/-! ## Functions on arrays of bytes -/

/-- `val[b] & 0xFFUL`: the byte is extended with its sign, and cut off again. -/
def octet (byte : Int8) : Nat := (byte.toInt % 18446744073709551616).toNat &&& 255

/-- The four bytes of a limb. `step` is 1 or -1, the order of the bytes. -/
def fullLimb (val : ByteBuffer) (step b : Int) : Except ArithmeticFault Nat := do
  let b0 ← val.load b
  let b1 ← val.load (b + step)
  let b2 ← val.load (b + step * 2)
  let b3 ← val.load (b + step * 3)
  .ok (u32 (octet b0 ||| octet b1 <<< 8 ||| octet b2 <<< 16 ||| octet b3 <<< 24))

/-- The loop over the limbs but the last. -/
def fullLimbs (val : ByteBuffer) (step b : Int) (intLength : Nat) :
    Except ArithmeticFault (MagArray × Int) :=
  Loops.up (fun i (s : MagArray × Int) => do
    let limb ← fullLimb val step s.2
    let mag ← s.1.store i limb
    .ok (mag, s.2 + step * 4)) (intLength - 1) (MagArray.resize [] intLength, b)

/-- The switch for the last limb. Its cases fall through. -/
def lastLimb (val : ByteBuffer) (step b : Int) (i : Int) (bytesRemaining : Int) (mag : MagArray) :
    Except ArithmeticFault MagArray :=
  if 1 ≤ bytesRemaining ∧ bytesRemaining ≤ 4 then
    Loops.down (fun k mag => do
      let byte ← val.load (b + step * k)
      let limb ← mag.load i
      mag.store i (u32 (limb ||| octet byte <<< (8 * k)))) bytesRemaining.toNat mag
  else .ok mag

/-- The constructor from an array. -/
def construct (val : ByteBuffer) (sign : Int) (bigEndian : Bool) :
    Except ArithmeticFault BigInteger :=
  let len : Int := val.length
  if bigEndian then
    let firstNonZero : Int := val.firstNonZero
    if firstNonZero = len then .ok (assignInt64 0)
    else do
      let intLength := ((len - firstNonZero + 3) / 4).toNat
      let (mag, b) ← fullLimbs val (-1) (len - 1) intLength
      let mag ← lastLimb val (-1) b (intLength - 1) (b - firstNonZero + 1) mag
      .ok { sign, mag }
  else
    let firstNonZero := val.lastNonZero val.length
    if firstNonZero = -1 then .ok (assignInt64 0)
    else do
      let intLength := ((firstNonZero + 4) / 4).toNat
      let (mag, b) ← fullLimbs val 1 0 intLength
      let mag ← lastLimb val 1 b (intLength - 1) (firstNonZero - b + 1) mag
      .ok { sign, mag }

/-- The four bytes of a limb, the lowest at `j`. -/
def storeLimb (limb : Nat) (j : Int) (buffer : ByteBuffer) :
    Except ArithmeticFault ByteBuffer := do
  let buffer ← buffer.store j (Int8.ofNat limb)
  let buffer ← buffer.store (j - 1) (Int8.ofNat (limb >>> 8))
  let buffer ← buffer.store (j - 2) (Int8.ofNat (limb >>> 16))
  buffer.store (j - 3) (Int8.ofNat (limb >>> 24))

/-- The switch for the highest limb, from the front of the buffer on. Its cases fall through. -/
def storeLast (mag : MagArray) (bytesRemaining : Int) (buffer : ByteBuffer) :
    Except ArithmeticFault ByteBuffer :=
  if 1 ≤ bytesRemaining ∧ bytesRemaining ≤ 4 then do
    let s ← Loops.down (fun k (s : ByteBuffer × Nat) => do
      let limb ← mag.load (mag.length - 1)
      let byte ← s.1.load s.2
      let buffer ← s.1.store s.2 (byte ||| Int8.ofNat (limb >>> (8 * k)))
      .ok (buffer, s.2 + 1)) bytesRemaining.toNat (buffer, 0)
    .ok s.1
  else .ok buffer

/-- `MagnitudeToBytes` into a buffer. -/
def magnitudeToBuffer (x : BigInteger) : Except ArithmeticFault ByteBuffer :=
  let bytesNum := (x.getBitLength + 7) / 8
  if bytesNum = 0 then .ok (ByteBuffer.reset 1)
  else do
    let full := x.mag.length - 1
    let buffer ← Loops.up (fun i buffer => do
      let limb ← MagArray.load x.mag i
      storeLimb limb (bytesNum - 1 - 4 * i) buffer) full (ByteBuffer.reset bytesNum)
    storeLast x.mag (bytesNum - 4 * full) buffer

/-! ## Accesses -/

theorem set_append_replicate {α : Type*} (l : List α) (x z : α) (m : Nat) :
    (l ++ List.replicate (m + 1) z).set l.length x = l ++ [x] ++ List.replicate m z := by
  rw [List.set_append_right _ _ le_rfl, Nat.sub_self, List.replicate_succ, List.set_cons_zero,
    List.append_assoc]
  rfl

theorem octet_eq (byte : Int8) : octet byte = byte.toUInt8.toNat := by
  have hand := Nat.and_two_pow_sub_one_eq_mod (byte.toInt % 18446744073709551616).toNat 8
  have hint : byte.toInt = (byte.toUInt8.toNat : Int).bmod 256 := BitVec.toInt_eq_toNat_bmod _
  have hlt := byte.toUInt8.toNat_lt
  norm_num at hand
  rw [octet, hand, hint, Int.bmod_def]
  omega

/-- From the index `b` on, in this order, the array holds the bytes. -/
def Reads (val : ByteBuffer) (step b : Int) (bytes : List UInt8) : Prop :=
  ∀ k, (hk : k < bytes.length) → ∃ byte, val.load (b + step * k) = .ok byte ∧
    octet byte = bytes[k].toNat

section Construct

variable {val : ByteBuffer} {step b : Int} {bytes : List UInt8}

theorem Reads.drop (h : Reads val step b bytes) (n : Nat) :
    Reads val step (b + step * n) (bytes.drop n) := by
  intro k hk
  rw [List.length_drop] at hk
  obtain ⟨byte, hload, hbyte⟩ := h (n + k) (by omega)
  refine ⟨byte, ?_, ?_⟩
  · rw [← hload]
    congr 1
    push_cast
    ring
  · rw [hbyte, List.getElem_drop]

/-! ## From bytes to limbs -/

theorem pow_256 (k : Nat) : 256 ^ k = 2 ^ (8 * k) := by
  rw [pow_mul]
  rfl

theorem or_eq_add {n k : Nat} (h : n < 256 ^ k) (byte : Nat) :
    n ||| byte <<< (8 * k) = n + 256 ^ k * byte := by
  rw [pow_256] at h
  have hor := Nat.shiftLeft_add_eq_or_of_lt h byte
  rw [Nat.or_comm, ← hor, Nat.shiftLeft_eq, pow_256, Nat.mul_comm, Nat.add_comm]

/-- Four bytes that are or-ed into a limb. -/
theorem or_bytes (b0 b1 b2 b3 : UInt8) :
    u32 (b0.toNat ||| b1.toNat <<< 8 ||| b2.toNat <<< 16 ||| b3.toNat <<< 24) =
      decodeNat [b0, b1, b2, b3] := by
  have h0 := b0.toNat_lt
  have h1 := b1.toNat_lt
  have h2 := b2.toNat_lt
  have h3 := b3.toNat_lt
  have hor1 := or_eq_add (n := b0.toNat) (k := 1) (by omega) b1.toNat
  have hor2 := or_eq_add (n := b0.toNat + 256 ^ 1 * b1.toNat) (k := 2) (by omega) b2.toNat
  have hor3 := or_eq_add (n := b0.toNat + 256 ^ 1 * b1.toNat + 256 ^ 2 * b2.toNat) (k := 3)
    (by omega) b3.toNat
  simp only [Nat.reduceMul] at hor1 hor2 hor3
  rw [hor1, hor2, hor3, u32]
  simp only [decodeNat]
  omega

theorem fullLimb_eq (h : Reads val step b bytes) (hlen : 3 < bytes.length) :
    fullLimb val step b = .ok (decodeNat (bytes.take 4)) := by
  obtain ⟨byte0, hload0, hbyte0⟩ := h 0 (by omega)
  obtain ⟨byte1, hload1, hbyte1⟩ := h 1 (by omega)
  obtain ⟨byte2, hload2, hbyte2⟩ := h 2 hlen.le
  obtain ⟨byte3, hload3, hbyte3⟩ := h 3 hlen
  have htake : bytes.take 4 = [bytes[0], bytes[1], bytes[2], bytes[3]] := by
    rw [List.take_succ_eq_append_getElem hlen, List.take_succ_eq_append_getElem (by omega),
      List.take_succ_eq_append_getElem (by omega), List.take_succ_eq_append_getElem (by omega)]
    rfl
  rw [Nat.cast_zero, mul_zero, add_zero] at hload0
  rw [Nat.cast_one, mul_one] at hload1
  rw [Nat.cast_ofNat] at hload2 hload3
  rw [fullLimb, hload0, ok_bind, hload1, ok_bind, hload2, ok_bind, hload3, ok_bind, hbyte0, hbyte1,
    hbyte2, hbyte3, or_bytes, htake]

theorem length_limbs (bytes : List UInt8) : (limbs bytes).length = (bytes.length + 3) / 4 := by
  have hlt (i : Nat) : i < (limbs bytes).length ↔ 4 * i < bytes.length := by
    have hget := limbs_getElem? bytes i
    split at hget
    · rename_i h
      exact ⟨fun _ => h, fun _ => (List.getElem?_eq_some_iff.mp hget).1⟩
    · rename_i h
      have hle := List.getElem?_eq_none_iff.mp hget
      omega
  have hbefore := hlt ((bytes.length + 3) / 4 - 1)
  have hat := hlt ((bytes.length + 3) / 4)
  omega

/-- One more limb. -/
theorem take_limbs_succ {i : Nat} (hi : 4 * i < bytes.length) :
    (limbs bytes).take (i + 1) =
      (limbs bytes).take i ++ [decodeNat ((bytes.drop (4 * i)).take 4)] := by
  have hget := limbs_getElem? bytes i
  rw [if_pos hi] at hget
  rw [List.take_add_one, hget]
  rfl

theorem length_take_limbs {i : Nat} (hi : 4 * i < bytes.length) :
    ((limbs bytes).take i).length = i := by
  rw [List.length_take, length_limbs]
  omega

/-- After `i` rounds the first `i` limbs are there, and zeros behind them. -/
theorem fullLimbs_eq (h : Reads val step b bytes) {n : Nat} (hn : 4 * n < bytes.length) :
    fullLimbs val step b (n + 1) = .ok ((limbs bytes).take n ++ [0], b + step * (4 * n : Nat)) := by
  have hinit : (MagArray.resize [] (n + 1), b) = ((limbs bytes).take 0 ++
      List.replicate (n - 0 + 1) 0, b + step * (4 * 0 : Nat)) := by
    rw [Nat.mul_zero, Nat.cast_zero, mul_zero, add_zero]
    rfl
  have hend : [0] = List.replicate (n - n + 1) 0 := by
    rw [Nat.sub_self]
    rfl
  rw [fullLimbs, hinit, hend]
  refine up_eq (f := fun i => ((limbs bytes).take i ++ List.replicate (n - i + 1) 0,
    b + step * (4 * i : Nat))) fun i hi => ?_
  have hlimb := fullLimb_eq (h.drop (4 * i)) (by rw [List.length_drop]; omega)
  have hset := set_append_replicate ((limbs bytes).take i)
    (decodeNat ((bytes.drop (4 * i)).take 4)) 0 (n - i)
  rw [length_take_limbs (by omega), ← take_limbs_succ (by omega)] at hset
  have hzeros : n - i = n - (i + 1) + 1 := by omega
  have hbound : i < ((limbs bytes).take i ++ List.replicate (n - i + 1) 0).length := by
    rw [List.length_append, length_take_limbs (by omega), List.length_replicate]
    omega
  have hnext : b + step * (4 * i : Nat) + step * 4 = b + step * (4 * (i + 1) : Nat) := by
    push_cast
    ring
  dsimp only
  rw [hlimb, ok_bind, MagArray.store_eq rfl hbound, ok_bind, hset, hnext, hzeros]

/-- The bytes from `k + 1` on, and the byte below them. -/
theorem or_lower_byte {k : Nat} (hk : k < bytes.length) :
    decodeNat (bytes.drop (k + 1)) * 256 ^ (k + 1) ||| bytes[k].toNat <<< (8 * k) =
      decodeNat (bytes.drop k) * 256 ^ k := by
  have hbyte : bytes[k].toNat <<< (8 * k) < 2 ^ (8 * (k + 1)) := by
    rw [Nat.shiftLeft_eq, ← pow_256, ← pow_256, pow_succ, Nat.mul_comm]
    exact Nat.mul_lt_mul_of_pos_left bytes[k].toNat_lt (by positivity)
  have hor := Nat.shiftLeft_add_eq_or_of_lt hbyte (decodeNat (bytes.drop (k + 1)))
  have hdrop : decodeNat (bytes.drop k) =
      bytes[k].toNat + 256 * decodeNat (bytes.drop (k + 1)) := by
    rw [List.drop_eq_getElem_cons hk, decodeNat]
  rw [Nat.shiftLeft_eq, ← pow_256] at hor
  rw [← hor, hdrop, Nat.shiftLeft_eq, ← pow_256, pow_succ]
  ring

theorem decodeNat_drop_mul_lt (hlen : bytes.length ≤ 4) (k : Nat) :
    decodeNat (bytes.drop k) * 256 ^ k < 4294967296 := by
  have hle : decodeNat bytes / 256 ^ k * 256 ^ k ≤ decodeNat bytes := Nat.div_mul_le_self _ _
  have hpow : 256 ^ bytes.length ≤ 256 ^ 4 := Nat.pow_le_pow_right (by decide) hlen
  have hlt := decodeNat_lt bytes
  rw [decodeNat_drop]
  omega

/-- After the case `k` the bytes from `k` on are in the limb. -/
theorem lastLimb_eq (h : Reads val step b bytes) (hpos : 1 ≤ bytes.length)
    (hlen : bytes.length ≤ 4) (pre : MagArray) :
    lastLimb val step b pre.length bytes.length (pre ++ [0]) = .ok (pre ++ [decodeNat bytes]) := by
  have hinit : pre ++ [0] =
      pre ++ [decodeNat (bytes.drop bytes.length) * 256 ^ bytes.length] := by
    rw [List.drop_length, decodeNat, Nat.zero_mul]
  have hend : pre ++ [decodeNat bytes] = pre ++ [decodeNat (bytes.drop 0) * 256 ^ 0] := by
    rw [List.drop_zero, pow_zero, Nat.mul_one]
  rw [lastLimb, if_pos ⟨by exact_mod_cast hpos, by exact_mod_cast hlen⟩, Int.toNat_natCast, hinit,
    hend]
  refine down_eq (f := fun k => pre ++ [decodeNat (bytes.drop k) * 256 ^ k]) fun k hk => ?_
  obtain ⟨byte, hload, hbyte⟩ := h k hk
  have hbound : pre.length <
      (pre ++ [decodeNat (bytes.drop (k + 1)) * 256 ^ (k + 1)]).length := by
    rw [List.length_append, List.length_singleton]
    omega
  have hlt := decodeNat_drop_mul_lt hlen k
  rw [hload, ok_bind, MagArray.load_eq rfl hbound, ok_bind, MagArray.store_eq rfl hbound,
    List.getElem_concat_length rfl, hbyte, or_lower_byte hk, u32, Nat.mod_eq_of_lt hlt,
    List.set_append_right _ _ le_rfl, Nat.sub_self, List.set_cons_zero]

/-- The limbs but the last in the loop, and the last in the switch. -/
theorem limbs_bind (h : Reads val step b bytes) {n : Nat} (hn : 4 * n < bytes.length)
    (hlen : bytes.length ≤ 4 * n + 4) (sign : Int) (bytesRemaining : Int → Int)
    (hremaining : bytesRemaining (b + step * (4 * n : Nat)) = (bytes.length - 4 * n : Nat)) :
    (do
      let (mag, b) ← fullLimbs val step b (n + 1)
      let mag ← lastLimb val step b n (bytesRemaining b) mag
      .ok { sign, mag } : Except ArithmeticFault BigInteger) =
      .ok { sign, mag := limbs bytes } := by
  have hlast := lastLimb_eq (h.drop (4 * n)) (by rw [List.length_drop]; omega)
    (by rw [List.length_drop]; omega) ((limbs bytes).take n)
  have hall : limbs bytes = (limbs bytes).take n ++ [decodeNat (bytes.drop (4 * n))] := by
    have hsucc := take_limbs_succ hn
    have hwhole : (limbs bytes).length ≤ n + 1 := by
      rw [length_limbs]
      omega
    have hfour : (bytes.drop (4 * n)).length ≤ 4 := by
      rw [List.length_drop]
      omega
    rwa [List.take_of_length_le hwhole, List.take_of_length_le hfour] at hsucc
  rw [length_take_limbs hn, List.length_drop, ← hall] at hlast
  rw [fullLimbs_eq h hn, ok_bind]
  dsimp only
  rw [hremaining, hlast]
  rfl

end Construct

/-! ## The constructor -/

section Scans

variable (val : ByteBuffer)

theorem octets_getElem? (i : Nat) : (ByteBuffer.octets val)[i]? = val[i]?.map Int8.toUInt8 :=
  List.getElem?_map

/-- The bytes of the array as the loops find them. -/
theorem load_octets {i : Nat} (hi : i < val.length) {j : Int} (hj : j = i) {byte : UInt8}
    (hbyte : (ByteBuffer.octets val)[i]? = some byte) :
    ∃ c, val.load j = .ok c ∧ octet c = byte.toNat := by
  rw [octets_getElem?, List.getElem?_eq_getElem hi, Option.map_some, Option.some.injEq] at hbyte
  refine ⟨val[i], ?_, ?_⟩
  · rw [ByteBuffer.load, hj, if_pos (Int.natCast_nonneg i), Int.toNat_natCast,
      List.getElem?_eq_getElem hi]
    rfl
  · rw [octet_eq, hbyte]

theorem toUInt8_eq_zero_iff (byte : Int8) : byte.toUInt8 = 0 ↔ byte = 0 := by
  constructor
  · intro h
    exact congrArg UInt8.toInt8 h
  · rintro rfl
    rfl

/-- Without the zero bytes at the front. -/
theorem significant_octets_reverse :
    significant (ByteBuffer.octets val).reverse =
      ((ByteBuffer.octets val).drop val.firstNonZero).reverse := by
  have hindex : val.firstNonZero = (ByteBuffer.octets val).findIdx (fun b => !decide (b = 0)) := by
    rw [ByteBuffer.octets, List.findIdx_map, ByteBuffer.firstNonZero]
    congr 1
    funext byte
    simp only [Function.comp_apply, ne_eq, decide_not, toUInt8_eq_zero_iff]
  rw [significant, List.reverse_reverse, List.dropWhile_eq_drop_findIdx_not, hindex]

theorem significant_concat (bytes : List UInt8) (b : UInt8) :
    significant (bytes ++ [b]) = if b = 0 then significant bytes else bytes ++ [b] := by
  rw [significant, List.reverse_concat, List.dropWhile_cons]
  split
  · rename_i h
    rw [if_pos (of_decide_eq_true h), significant]
  · rename_i h
    rw [if_neg (fun hb => h (decide_eq_true hb)), List.reverse_cons, List.reverse_reverse]

/-- The index of the last byte other than zero. -/
theorem lastNonZero_eq {n : Nat} (hn : n ≤ val.length) :
    val.lastNonZero n = (significant ((ByteBuffer.octets val).take n)).length - 1 := by
  induction n with
  | zero => rfl
  | succ n ih =>
    have hlen : n < (ByteBuffer.octets val).length := by
      rw [ByteBuffer.octets, List.length_map]
      omega
    have hbyte := octets_getElem? val n
    rw [List.getElem?_eq_getElem hlen, List.getElem?_eq_getElem hn, Option.map_some,
      Option.some.injEq] at hbyte
    rw [ByteBuffer.lastNonZero, List.getElem?_eq_getElem hn,
      List.take_succ_eq_append_getElem hlen, significant_concat, hbyte]
    by_cases hzero : val[n] = 0
    · rw [if_pos (congrArg some hzero), if_pos ((toUInt8_eq_zero_iff _).mpr hzero),
        ih (Nat.le_of_succ_le hn)]
    · rw [if_neg fun h => hzero (Option.some.inj h),
        if_neg fun h => hzero ((toUInt8_eq_zero_iff _).mp h), List.length_append,
        List.length_singleton, List.length_take, Nat.min_eq_left hlen.le]
      omega

/-- From the end to the front. -/
theorem reads_down :
    Reads val (-1) (val.length - 1) (significant (ByteBuffer.octets val).reverse) := by
  intro k hk
  have hlen : (ByteBuffer.octets val).length = val.length := List.length_map _
  have hdrop : k < val.length - val.firstNonZero := by
    rwa [significant_octets_reverse, List.length_reverse, List.length_drop, hlen] at hk
  refine load_octets val (i := val.length - 1 - k) (by omega) (by omega) ?_
  simp only [significant_octets_reverse, List.getElem_reverse, List.getElem_drop, List.length_drop,
    hlen]
  rw [List.getElem?_eq_getElem (by omega), Option.some.injEq]
  congr 1
  omega

/-- From the front to the end. -/
theorem reads_up : Reads val 1 0 (significant (ByteBuffer.octets val)) := by
  intro k hk
  have hlen : (ByteBuffer.octets val).length = val.length := List.length_map _
  obtain ⟨n, hsplit⟩ := significant_append (ByteBuffer.octets val)
  have hsum := congrArg List.length hsplit
  rw [List.length_append, hlen] at hsum
  refine load_octets val (i := k) (by omega) (by omega) ?_
  conv_lhs => rw [hsplit]
  rw [List.getElem?_append_left hk, List.getElem?_eq_getElem hk]

theorem ofBytes_of_ne_nil {bytes : List UInt8} (h : significant bytes ≠ []) (sign : Int) :
    ofBytes bytes sign false = { sign, mag := limbs (significant bytes) } := by
  unfold ofBytes
  split
  · rename_i hnil
    exact absurd hnil h
  · rfl

theorem ofBytes_of_nil {bytes : List UInt8} (h : significant bytes = []) (sign : Int) :
    ofBytes bytes sign false = assignInt64 0 := by
  unfold ofBytes
  split
  · rfl
  · rename_i hne
    exact absurd h hne

end Scans

/-- Both orders of the bytes, whatever their number. -/
theorem construct_eq (val : ByteBuffer) (sign : Int) (bigEndian : Bool) :
    construct val sign bigEndian = .ok (ofBytes (ByteBuffer.octets val) sign bigEndian) := by
  have hlen : (ByteBuffer.octets val).length = val.length := List.length_map _
  cases bigEndian with
  | true =>
    have hbytes : (significant (ByteBuffer.octets val).reverse).length =
        val.length - val.firstNonZero := by
      rw [significant_octets_reverse, List.length_reverse, List.length_drop, hlen]
    have hle : val.firstNonZero ≤ val.length := List.findIdx_le_length
    change construct val sign true = .ok (ofBytes (ByteBuffer.octets val).reverse sign false)
    rw [construct]
    dsimp only
    rw [if_pos rfl]
    by_cases hnil : significant (ByteBuffer.octets val).reverse = []
    · rw [hnil, List.length_nil] at hbytes
      rw [if_pos (by omega), ofBytes_of_nil hnil]
    · have hpos := List.length_pos_iff.mpr hnil
      obtain ⟨n, hn⟩ : ∃ n, n = (val.length - val.firstNonZero - 1) / 4 := ⟨_, rfl⟩
      have hintLength : (((val.length : Int) - val.firstNonZero + 3) / 4).toNat = n + 1 := by
        omega
      have hlast : ((n + 1 : Nat) : Int) - 1 = n := by omega
      rw [if_neg (by omega), ofBytes_of_ne_nil hnil, hintLength, hlast]
      exact limbs_bind (reads_down val) (by omega) (by omega) sign
        (fun b => b - val.firstNonZero + 1) (by push_cast; omega)
  | false =>
    have hbytes := lastNonZero_eq val le_rfl
    rw [List.take_of_length_le hlen.le] at hbytes
    change construct val sign false = .ok (ofBytes (ByteBuffer.octets val) sign false)
    rw [construct]
    dsimp only
    rw [if_neg (by decide)]
    by_cases hnil : significant (ByteBuffer.octets val) = []
    · rw [hnil, List.length_nil] at hbytes
      rw [if_pos (by omega), ofBytes_of_nil hnil]
    · have hpos := List.length_pos_iff.mpr hnil
      obtain ⟨n, hn⟩ : ∃ n, n = ((significant (ByteBuffer.octets val)).length - 1) / 4 := ⟨_, rfl⟩
      have hintLength : ((val.lastNonZero val.length + 4) / 4).toNat = n + 1 := by omega
      have hlast : ((n + 1 : Nat) : Int) - 1 = n := by omega
      rw [if_neg (by omega), ofBytes_of_ne_nil hnil, hintLength, hlast]
      exact limbs_bind (reads_up val) (by omega) (by omega) sign
        (fun b => val.lastNonZero val.length - b + 1) (by push_cast; omega)

/-! ## From limbs to bytes -/

theorem encode_succ_natCast (k n : Nat) :
    encode (k + 1) n = UInt8.ofNat n :: encode k (n / 256 : Nat) := by
  have hmod : ((n : Int) % 256).toNat = n % 256 := by omega
  rw [encode, hmod, List.cons.injEq]
  refine ⟨?_, rfl⟩
  rw [← UInt8.toNat_inj, UInt8.toNat_ofNat', UInt8.toNat_ofNat', Nat.mod_mod]

theorem encode_four (limb : Nat) :
    encode 4 limb = [UInt8.ofNat limb, UInt8.ofNat (limb >>> 8), UInt8.ofNat (limb >>> 16),
      UInt8.ofNat (limb >>> 24)] := by
  rw [encode_succ_natCast, encode_succ_natCast, encode_succ_natCast, encode_succ_natCast, encode,
    Nat.div_div_eq_div_mul, Nat.div_div_eq_div_mul, Nat.shiftRight_eq_div_pow,
    Nat.shiftRight_eq_div_pow, Nat.shiftRight_eq_div_pow]

theorem store_replicate (m : Nat) (done : ByteBuffer) {i : Int} (hi : i = m) (x : Int8) :
    ByteBuffer.store (List.replicate (m + 1) 0 ++ done) i x =
      .ok (List.replicate m 0 ++ x :: done) := by
  have hbound : m < (List.replicate (m + 1) (0 : Int8) ++ done).length := by
    rw [List.length_append, List.length_replicate]
    omega
  rw [ByteBuffer.store, hi, Int.toNat_natCast, if_pos ⟨Int.natCast_nonneg m, hbound⟩,
    List.replicate_succ', List.append_assoc]
  congr 1
  have hset := List.set_append_right (s := List.replicate m (0 : Int8)) (t := [0] ++ done) m x
    (List.length_replicate).le
  rw [hset, List.length_replicate, Nat.sub_self]
  rfl

section Write

variable {mag : MagArray}

/-- The loop over the limbs but the last has written `i` limbs. -/
def written (mag : MagArray) (i : Nat) : ByteBuffer :=
  ByteBuffer.ofOctets ((mag.take i).flatMap fun limb : Nat => encode 4 limb).reverse

theorem written_succ {i : Nat} (hi : i < mag.length) :
    written mag (i + 1) = Int8.ofNat (mag[i] >>> 24) :: Int8.ofNat (mag[i] >>> 16) ::
      Int8.ofNat (mag[i] >>> 8) :: Int8.ofNat mag[i] :: written mag i := by
  rw [written, List.take_succ_eq_append_getElem hi, List.flatMap_append, List.flatMap_singleton,
    encode_four, List.reverse_append]
  rfl

theorem storeLimb_eq {i : Nat} (hi : i < mag.length) (m : Nat) {j : Int} (hj : j = m + 3) :
    storeLimb mag[i] j (List.replicate (m + 4) 0 ++ written mag i) =
      .ok (List.replicate m 0 ++ written mag (i + 1)) := by
  rw [storeLimb, store_replicate (m + 3) _ (by omega), ok_bind,
    store_replicate (m + 2) _ (by omega), ok_bind, store_replicate (m + 1) _ (by omega), ok_bind,
    store_replicate m _ (by omega), written_succ hi]

theorem storeLimbs_eq {n r : Nat} (hn : n ≤ mag.length) :
    Loops.up (fun i buffer => do
      let limb ← MagArray.load mag i
      storeLimb limb ((4 * n + r : Nat) - 1 - 4 * i) buffer) n (ByteBuffer.reset (4 * n + r)) =
      .ok (List.replicate r 0 ++ written mag n) := by
  have hinit : ByteBuffer.reset (4 * n + r) = List.replicate (4 * (n - 0) + r) 0 ++ written mag 0 :=
    (List.append_nil _).symm
  have hend : List.replicate r 0 ++ written mag n =
      List.replicate (4 * (n - n) + r) 0 ++ written mag n := by
    rw [Nat.sub_self, Nat.mul_zero, Nat.zero_add]
  rw [hinit, hend]
  refine up_eq (f := fun i => List.replicate (4 * (n - i) + r) 0 ++ written mag i) fun i hi => ?_
  have hzeros : 4 * (n - i) + r = 4 * (n - (i + 1)) + r + 4 := by omega
  rw [MagArray.load_eq rfl (by omega), ok_bind, hzeros, storeLimb_eq (by omega) _ (by omega)]

theorem load_front (front rest : ByteBuffer) (x : Int8) :
    ByteBuffer.load (front ++ x :: rest) front.length = .ok x := by
  rw [ByteBuffer.load, if_pos (Int.natCast_nonneg _), Int.toNat_natCast,
    List.getElem?_append_right le_rfl, Nat.sub_self]
  rfl

theorem store_front (front rest : ByteBuffer) (x y : Int8) :
    ByteBuffer.store (front ++ x :: rest) front.length y = .ok (front ++ [y] ++ rest) := by
  have hbound : front.length < (front ++ x :: rest).length := by
    rw [List.length_append, List.length_cons]
    omega
  rw [ByteBuffer.store, Int.toNat_natCast, if_pos ⟨Int.natCast_nonneg _, hbound⟩,
    List.set_append_right _ _ le_rfl, Nat.sub_self, List.set_cons_zero, List.append_assoc]
  rfl

/-- The bytes of the highest limb from byte `k` on, the highest first. -/
def front (limb r k : Nat) : ByteBuffer :=
  ByteBuffer.ofOctets (encode (r - k) (limb >>> (8 * k) : Nat)).reverse

theorem length_front {limb r k : Nat} : (front limb r k).length = r - k := by
  rw [front, ByteBuffer.ofOctets, List.length_map, List.length_reverse, length_encode]

theorem front_eq {limb r k : Nat} (hk : k < r) :
    front limb r k = front limb r (k + 1) ++ [Int8.ofNat (limb >>> (8 * k))] := by
  have hcount : r - k = r - (k + 1) + 1 := by omega
  have hshift : limb >>> (8 * k) / 256 = limb >>> (8 * (k + 1)) := by
    rw [Nat.mul_succ, Nat.shiftRight_add, Nat.shiftRight_eq_div_pow _ 8]
  rw [front, hcount, encode_succ_natCast, hshift, List.reverse_cons, ByteBuffer.ofOctets,
    List.map_append]
  rfl

theorem storeLast_eq (hne : mag ≠ []) {r : Nat} (hpos : 1 ≤ r) (hle : r ≤ 4) (done : ByteBuffer) :
    storeLast mag r (List.replicate r 0 ++ done) =
      .ok (ByteBuffer.ofOctets (encode r (mag.getLast hne)).reverse ++ done) := by
  have hlen := List.length_pos_iff.mpr hne
  have hload : mag.load (mag.length - 1) = .ok (mag.getLast hne) := by
    rw [MagArray.load_eq (k := mag.length - 1) (by omega) (by omega), List.getLast_eq_getElem]
  have hinit : (List.replicate r 0 ++ done, 0) =
      (front (mag.getLast hne) r r ++ (List.replicate r 0 ++ done), r - r) := by
    rw [front, Nat.sub_self]
    rfl
  have hloop : Loops.down (fun k (s : ByteBuffer × Nat) => do
      let limb ← mag.load (mag.length - 1)
      let byte ← s.1.load s.2
      let buffer ← s.1.store s.2 (byte ||| Int8.ofNat (limb >>> (8 * k)))
      .ok (buffer, s.2 + 1)) r
      (front (mag.getLast hne) r r ++ (List.replicate r 0 ++ done), r - r) =
      .ok (front (mag.getLast hne) r 0 ++ (List.replicate 0 0 ++ done), r - 0) := by
    refine down_eq (f := fun k =>
      (front (mag.getLast hne) r k ++ (List.replicate k 0 ++ done), r - k)) fun k hk => ?_
    have hindex : r - (k + 1) = (front (mag.getLast hne) r (k + 1)).length := length_front.symm
    have hnext : (front (mag.getLast hne) r (k + 1)).length + 1 = r - k := by
      rw [length_front]
      omega
    dsimp only
    rw [hindex, List.replicate_succ, List.cons_append, hload, ok_bind, load_front, ok_bind,
      store_front, ok_bind, Int8.zero_or, ← front_eq hk, hnext]
  rw [storeLast, if_pos (by omega), Int.toNat_natCast, hinit, hloop, ok_bind]
  rfl

end Write

/-- The bytes in the buffer, which is zero at first. -/
theorem magnitudeToBuffer_eq {x : BigInteger} (hx : Radix.Canonical 4294967296 x.mag) :
    x.magnitudeToBuffer = .ok (ByteBuffer.ofOctets x.magnitudeToBytes) := by
  rw [magnitudeToBuffer, magnitudeToBytes]
  dsimp only
  by_cases hne : x.mag = []
  · have hbits : x.getBitLength = 0 := by
      rw [getBitLength, hne]
      rfl
    rw [hbits]
    rfl
  · have hlen := List.length_pos_iff.mpr hne
    have hlimb := hx.digit _ (List.getLast_mem hne)
    have hpos := Nat.pos_of_ne_zero (hx.last hne)
    have hbits : x.getBitLength = (x.mag.getLast hne).size + (x.mag.length - 1) * 32 := by
      rw [getBitLength, List.getLast?_eq_some_getLast hne]
      dsimp only
      rw [bitLengthU32_eq hpos hlimb]
    have hsize := Nat.size_pos.mpr hpos
    have hsizeLe : (x.mag.getLast hne).size ≤ 32 := Nat.size_le.mpr hlimb
    obtain ⟨r, hr⟩ : ∃ r, r = ((x.mag.getLast hne).size + 7) / 8 := ⟨_, rfl⟩
    have hbytes : (x.getBitLength + 7) / 8 = 4 * (x.mag.length - 1) + r := by omega
    have hremaining : 4 * (x.mag.length - 1) + r - 4 * (x.mag.length - 1) = r := by omega
    have hremainingInt : ((4 * (x.mag.length - 1) + r : Nat) : Int) -
        4 * (x.mag.length - 1 : Nat) = r := by omega
    have hlast : x.mag.getLastD 0 = x.mag.getLast hne := by
      rw [List.getLastD_eq_getLast?, List.getLast?_eq_some_getLast hne]
      rfl
    rw [hbytes, if_neg (by omega), if_neg (by omega), storeLimbs_eq (by omega), ok_bind, hremaining,
      hremainingInt, storeLast_eq hne (by omega) (by omega), hlast, written, List.reverse_append,
      List.dropLast_eq_take, ByteBuffer.ofOctets, ByteBuffer.ofOctets, ByteBuffer.ofOctets,
      List.map_append]

/-! ## Bytes and numbers -/

/-- An array with this number, the highest byte first, and no other but the empty one is
shorter. -/
structure Shortest (bytes : ByteBuffer) (n : Nat) : Prop where
  number : bytes.toNat = n
  nonempty : bytes ≠ []
  least : ∀ other : ByteBuffer, other ≠ [] → other.toNat = n → bytes.length ≤ other.length

theorem octets_ofOctets (bytes : List UInt8) :
    ByteBuffer.octets (ByteBuffer.ofOctets bytes) = bytes := by
  rw [ByteBuffer.octets, ByteBuffer.ofOctets, List.map_map]
  exact List.map_id bytes

/-- The sign plays no part. -/
theorem decodeNat_magnitudeToBytes {x : BigInteger} (hx : Radix.Canonical 4294967296 x.mag) :
    decodeNat x.magnitudeToBytes.reverse = x.magnitude ∧
      x.magnitudeToBytes.length = if x.magnitude = 0 then 1 else (x.magnitude.size + 7) / 8 :=
  magnitudeToBytes_spec (x := { x with sign := 1 }) ⟨.inl rfl, hx⟩

theorem size_le_of_toNat_eq {bytes : ByteBuffer} {n : Nat} (h : bytes.toNat = n) :
    n.size ≤ 8 * bytes.length := by
  have hlt := decodeNat_lt (ByteBuffer.octets bytes).reverse
  rw [List.length_reverse, ByteBuffer.octets, List.length_map, pow_256] at hlt
  rw [← h, Nat.size_le]
  exact hlt

theorem shortest_magnitudeToBytes {x : BigInteger} (hx : Radix.Canonical 4294967296 x.mag) :
    Shortest (ByteBuffer.ofOctets x.magnitudeToBytes) x.magnitude := by
  obtain ⟨hdecode, hlength⟩ := decodeNat_magnitudeToBytes hx
  have hlen : (ByteBuffer.ofOctets x.magnitudeToBytes).length = x.magnitudeToBytes.length :=
    List.length_map _
  refine ⟨?_, ?_, ?_⟩
  · rw [ByteBuffer.toNat, octets_ofOctets, hdecode]
  · rw [← List.length_pos_iff, hlen, hlength]
    split
    · exact Nat.one_pos
    · rename_i hne
      have hsize := Nat.size_pos.mpr (Nat.pos_of_ne_zero hne)
      omega
  · intro other hother hnumber
    have hpos := List.length_pos_iff.mpr hother
    have hsize := size_le_of_toNat_eq hnumber
    rw [hlen, hlength]
    split <;> omega

/-- The constructor, by the number of the bytes. -/
theorem construct_eq_signed (val : ByteBuffer) (sign : Int) :
    construct val sign true = .ok (signed (if val.toNat = 0 then 1 else sign) val.toNat) := by
  have h := ofBytes_eq_signed (ByteBuffer.octets val).reverse sign
  rw [construct_eq]
  exact congrArg _ h

theorem construct_reverse (val : ByteBuffer) (sign : Int) :
    construct val.reverse sign false = construct val sign true := by
  rw [construct_eq, construct_eq, ByteBuffer.octets, List.map_reverse]
  rfl

/-- A number is read back from its bytes, but for the sign of zero, and the bytes are the shortest.
Arrays with the same bytes in opposite orders are the same number. -/
theorem byteArray_codec {x : BigInteger} (hx : Radix.Canonical 4294967296 x.mag)
    (val : ByteBuffer) (sign : Int) :
    (∃ bytes, x.magnitudeToBuffer = .ok bytes ∧ Shortest bytes x.magnitude ∧
      (x.magnitude = 0 → bytes = [0]) ∧
      construct bytes x.sign true = .ok (if x.magnitude = 0 then assignInt64 0 else x)) ∧
    ∃ y, construct val sign true = .ok y ∧ construct val.reverse sign false = .ok y ∧
      y.magnitude = val.toNat ∧ Radix.Canonical 4294967296 y.mag ∧
      y.sign = if val.toNat = 0 then 1 else sign := by
  have hdigits := eq_signed_of_canonical hx
  have hshortest := shortest_magnitudeToBytes hx
  constructor
  · refine ⟨_, magnitudeToBuffer_eq hx, hshortest, ?_, ?_⟩
    · intro hzero
      have hmag : x.mag = [] := by
        rw [hdigits, hzero, signed, Nat.digits_zero]
      have hbits : x.getBitLength = 0 := by
        rw [getBitLength, hmag]
        rfl
      rw [magnitudeToBytes, hbits]
      rfl
    · rw [construct_eq_signed, hshortest.number]
      split
      · rename_i hzero
        rw [hzero, signed, Nat.digits_zero]
        rfl
      · rw [← hdigits]
  · refine ⟨_, construct_eq_signed val sign, ?_, magnitude_signed, MagArray.canonical_digits _, rfl⟩
    rw [construct_reverse, construct_eq_signed]

theorem byteArray_codec_example :
    (∃ bytes, magnitudeToBuffer ⟨-1, [513, 1]⟩ = .ok bytes ∧ Shortest bytes 4294967809 ∧
      construct bytes (-1) true = .ok ⟨-1, [513, 1]⟩) ∧
    ∃ y, construct [0, -1, 5, 0] (-1) true = .ok y ∧ construct [0, 5, -1, 0] (-1) false = .ok y ∧
      y.magnitude = 16712960 := by
  have hcanonical : Radix.Canonical 4294967296 (⟨-1, [513, 1]⟩ : BigInteger).mag :=
    ⟨by decide, by decide⟩
  obtain ⟨⟨bytes, hbytes, hshortest, -, hread⟩, y, hbig, hlittle, hnumber, -, -⟩ :=
    byteArray_codec hcanonical [0, -1, 5, 0] (-1)
  exact ⟨⟨bytes, hbytes, hshortest, hread⟩, y, hbig, hlittle, hnumber⟩

/-- The product of 0 and -1 has the sign -1. It is read back with the sign 1. -/
theorem byteArray_codec_counterexample :
    (assignInt64 0).multiply (assignInt64 (-1)) = .ok ⟨-1, []⟩ ∧
      ¬ ∀ x : BigInteger, Radix.Canonical 4294967296 x.mag →
        (do
          let bytes ← x.magnitudeToBuffer
          construct bytes x.sign true) = .ok x := by
  refine ⟨by decide +kernel, fun h => ?_⟩
  have hzero := h ⟨-1, []⟩ ⟨by decide, fun hne => absurd rfl hne⟩
  exact absurd hzero (by decide +kernel)

end BigInteger

end TrinoOdbc
