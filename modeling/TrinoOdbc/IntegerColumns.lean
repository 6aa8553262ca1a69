import TrinoOdbc.TrinoColumn

/-!
# TrinoOdbc.IntegerColumns

`INTEGER` and `BIGINT` columns read into integers of all sizes: `integers_exact_iff` says for which
texts the number that is stored is the number in the text.
-/

namespace TrinoOdbc

open ByteMemory
open Formatted (Digits value scanInt scanInt_digits scanInt_negative scanInt_plus)

/-- The signed and unsigned integers of 8, 16, 32 and 64 bits. -/
inductive IntegerCType where
  | stinyint | utinyint | sshort | ushort | slong | ulong | sbigint | ubigint
  deriving DecidableEq

namespace IntegerCType

def native : IntegerCType → OdbcNativeType
  | .stinyint => .signedTinyint
  | .utinyint => .unsignedTinyint
  | .sshort => .signedShort
  | .ushort => .unsignedShort
  | .slong => .signedLong
  | .ulong => .unsignedLong
  | .sbigint => .signedBigint
  | .ubigint => .unsignedBigint

def signed : IntegerCType → Bool
  | .stinyint | .sshort | .slong | .sbigint => true
  | .utinyint | .ushort | .ulong | .ubigint => false

/-- In bytes. -/
def size : IntegerCType → Nat
  | .stinyint | .utinyint => 1
  | .sshort | .ushort => 2
  | .slong | .ulong => 4
  | .sbigint | .ubigint => 8

/-- The integers of the type. -/
def Holds (t : IntegerCType) (v : Int) : Prop :=
  if t.signed then -(256 ^ t.size / 2) ≤ v ∧ v < 256 ^ t.size / 2 else 0 ≤ v ∧ v < 256 ^ t.size

/-- The integer of the type with these bytes. -/
def decode (t : IntegerCType) (bytes : List UInt8) : Int :=
  if t.signed then decodeInt bytes else decodeNat bytes

theorem decode_encode_iff (t : IntegerCType) (v : Int) :
    t.decode (encode t.size v) = v ↔ t.Holds v := by
  unfold decode Holds
  cases hs : t.signed with
  | true =>
    simp only [if_true, decodeInt_encode]
    cases t <;> simp only [size, signed, reduceCtorEq] at hs ⊢ <;>
      simp only [Int.bmod, Nat.reducePow, Int.reducePow, Int.reduceDiv, Nat.cast_ofNat] <;>
      constructor <;> intro h <;> (try split at h) <;> (try split) <;> omega
  | false =>
    simp only [Bool.false_eq_true, if_false, decodeNat_encode]
    have hpos : (0 : Int) < 256 ^ t.size := by positivity
    constructor
    · intro h
      rw [← h]
      exact ⟨Int.emod_nonneg _ hpos.ne', Int.emod_lt_of_pos _ hpos⟩
    · rintro ⟨hlo, hhi⟩
      exact Int.emod_eq_of_lt hlo hhi

theorem holds_zero (t : IntegerCType) : t.Holds 0 := by
  unfold Holds
  cases t <;> decide

end IntegerCType

/-- Digits, maybe behind a sign, with their number. -/
inductive DecimalInteger : List Char → Int → Prop
  | plain {ds : List Char} : Digits ds → DecimalInteger ds (value ds)
  | plus {ds : List Char} : Digits ds → DecimalInteger ('+' :: ds) (value ds)
  | minus {ds : List Char} : Digits ds → DecimalInteger ('-' :: ds) (-value ds)

theorem scanInt_decimalInteger {text : List Char} {v : Int} (h : DecimalInteger text v) :
    scanInt none text = some (v, []) := by
  cases h with
  | plain hds => simpa using @scanInt_digits _ [] none hds (by simp) (by simp)
  | @plus ds hds => simpa using @scanInt_plus ds [] hds (by simp)
  | @minus ds hds => simpa using @scanInt_negative ds [] hds (by simp)

theorem DecimalInteger.unique {text : List Char} {v v' : Int} (h : DecimalInteger text v)
    (h' : DecimalInteger text v') : v = v' := by
  have heq := (scanInt_decimalInteger h).symm.trans (scanInt_decimalInteger h')
  exact (Prod.mk.inj (Option.some.inj heq)).1

/-- The columns of integers. -/
inductive IntegerColumn where
  | integer | bigint

namespace IntegerColumn

def type : IntegerColumn → ScalarType
  | .integer => .integer
  | .bigint => .bigint

/-- The largest number of `StringToInt` and `StringToLong`. -/
def largest (P : Platform) : IntegerColumn → Int
  | .integer => 2147483647
  | .bigint => P.longMax

def InRange (P : Platform) (column : IntegerColumn) (v : Int) : Prop :=
  -column.largest P - 1 ≤ v ∧ v ≤ column.largest P

/-- The number that is read from a text. -/
def parse (P : Platform) (column : IntegerColumn) (text : List Char) : Int :=
  (stringToNumber (-column.largest P - 1) (column.largest P) text).getD 0

theorem parse_decimalInteger {P : Platform} {column : IntegerColumn} {text : List Char} {v : Int}
    (h : DecimalInteger text v) (hrange : column.InRange P v) : column.parse P text = v := by
  have hrange' : -column.largest P - 1 ≤ v ∧ v ≤ column.largest P := hrange
  unfold parse stringToNumber
  simp only [scanInt_decimalInteger h, if_pos hrange', Option.getD_some]

/-- A number out of range is read as zero. -/
theorem parse_outOfRange {P : Platform} {column : IntegerColumn} {text : List Char} {v : Int}
    (h : DecimalInteger text v) (hrange : ¬ column.InRange P v) : column.parse P text = 0 := by
  have hrange' : ¬ (-column.largest P - 1 ≤ v ∧ v ≤ column.largest P) := hrange
  unfold parse stringToNumber
  simp only [scanInt_decimalInteger h, if_neg hrange', Option.getD_none]

theorem inRange_zero (P : Platform) (column : IntegerColumn) : column.InRange P 0 := by
  have hlargest : 0 ≤ column.largest P := by
    cases column with
    | integer => simp [largest]
    | bigint => rcases P.longBytes_eq with h | h <;> simp [largest, Platform.longMax, h]
  exact ⟨by omega, hlargest⟩

end IntegerColumn

/-- Reading the column into the buffer succeeds only with the number of the text stored, and does
not succeed without such a number in the C type. -/
def ExactInteger (t : IntegerCType) (text : List Char) (m : Memory) (base : Addr)
    (r : Except PutFault Conversion) : Prop :=
  ∃ c, r = .ok c ∧
    (c.result = .success →
      ∃ v, DecimalInteger text v ∧ t.decode (c.stored m base t.size) = v) ∧
    ((¬ ∃ v, DecimalInteger text v ∧ t.Holds v) → c.result ≠ .success)

theorem putNum_integer (P : Platform) (t : IntegerCType) (size : Nat) (v : Int)
    {b : ApplicationDataBuffer} (htype : b.type = t.native) {base : Addr}
    (hdata : b.getData = some base) :
    ApplicationDataBuffer.putNum P (.int size v) b =
      .ok
        { writes := [(0, encode t.size v)]
          resLen := b.storeLen t.size
          result := .success } := by
  unfold ApplicationDataBuffer.putNum
  rw [htype]
  cases t <;>
    simp [IntegerCType.native, ApplicationDataBuffer.putNumToNumBuffer, hdata, Num.toInteger,
      IntegerCType.size]

/-- The column is read exactly for the integers that both the column's type and the C type have. -/
theorem integers_exact_iff (P : Platform) (column : IntegerColumn) (t : IntegerCType)
    (b : ApplicationDataBuffer) (target : Addr) (m : Memory) (text : String) :
    let buffer := { b with type := t.native, buffer := some target }
    ExactInteger t text.toList m (target + (b.byteOffset + t.size * b.elementOffset))
        (parseScalarType P column.type text buffer) ↔
      ∃ v, DecimalInteger text.toList v ∧ column.InRange P v ∧ t.Holds v := by
  intro buffer
  have hdata : buffer.getData = some (target + (b.byteOffset + t.size * b.elementOffset)) := by
    cases t <;> rfl
  obtain ⟨size, hparse⟩ : ∃ size, parseScalarType P column.type text buffer =
      ApplicationDataBuffer.putNum P (.int size (column.parse P text.toList)) buffer := by
    cases column with
    | integer => exact ⟨4, rfl⟩
    | bigint => exact ⟨8, rfl⟩
  rw [hparse, putNum_integer P t size _ rfl hdata]
  constructor
  · rintro ⟨c, hc, hsuccess, hfailure⟩
    obtain rfl := Except.ok.inj hc
    obtain ⟨v, hv, hholds⟩ : ∃ v, DecimalInteger text.toList v ∧ t.Holds v :=
      by_contra fun hno => hfailure hno rfl
    refine ⟨v, hv, by_contra fun hrange => ?_, hholds⟩
    -- Zero is stored for a number that is not zero.
    obtain ⟨v', hv', hstored⟩ := hsuccess rfl
    obtain rfl := hv'.unique hv
    rw [Conversion.stored_singleton _ _ (length_encode t.size _),
      IntegerColumn.parse_outOfRange hv hrange] at hstored
    rw [← hstored, (t.decode_encode_iff 0).mpr t.holds_zero] at hrange
    exact hrange (column.inRange_zero P)
  · rintro ⟨v, hv, hrange, hholds⟩
    refine ⟨_, rfl, fun _ => ⟨v, hv, ?_⟩, fun hno => absurd ⟨v, hv, hholds⟩ hno⟩
    rw [Conversion.stored_singleton _ _ (length_encode t.size _),
      IntegerColumn.parse_decimalInteger hv hrange]
    exact (t.decode_encode_iff v).mpr hholds

section Examples

/-- A text that is no number is read as zero, with success. -/
theorem integers_zeroForText :
    ¬ ExactInteger .slong "abc".toList (fun _ => 0) 0
      (parseScalarType .linux IntegerColumn.integer.type "abc"
        { type := .signedLong, buffer := some 0, buflen := 4, reslen := none }) := by
  have hparse : parseScalarType .linux IntegerColumn.integer.type "abc"
      { type := .signedLong, buffer := some 0, buflen := 4, reslen := none } =
        .ok { writes := [(0, [0, 0, 0, 0])], result := .success } := by
    rfl
  rw [hparse]
  rintro ⟨c, hc, hsuccess, -⟩
  obtain rfl := Except.ok.inj hc
  obtain ⟨v, hv, -⟩ := hsuccess rfl
  have hnone : scanInt none "abc".toList = none := by decide
  have hsome := scanInt_decimalInteger hv
  rw [hnone] at hsome
  cases hsome

end Examples

end TrinoOdbc
