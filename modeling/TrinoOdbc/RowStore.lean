import TrinoOdbc.DataQueryCases

/-!
# TrinoOdbc.RowStore

What `FetchNextRow` stores from one row: `Converts` says that no bound column fails, and then every
bound column of the result is stored, in column order (`boundColumns_stored`).
-/

namespace TrinoOdbc

open DataQuery

/-- The bound columns among `is`, with what reading them from `row` stores. -/
def storedCells (read : ReadToBuffer) (columns : List ColumnMeta) (row : Row)
    (b : ColumnBindingMap) (is : List Nat) : List Stored :=
  is.filterMap fun i => (b.find i).map fun buffer => ⟨i, buffer, readCell read columns row i buffer⟩

/-- No bound column of the result fails on `row`. -/
def Converts (read : ReadToBuffer) (columns : List ColumnMeta) (row : Row)
    (b : ColumnBindingMap) : Prop :=
  ∀ i buffer, 1 ≤ i → i ≤ columns.length → b.find i = some buffer →
    (readCell read columns row i buffer).result ≠ .failure

instance (read : ReadToBuffer) (columns : List ColumnMeta) (row : Row) (b : ColumnBindingMap) :
    Decidable (Converts read columns row b) :=
  decidable_of_iff (∀ i ∈ List.range' 1 columns.length, ∀ buffer ∈ b.find i,
    (readCell read columns row i buffer).result ≠ .failure) (by
      simp only [Converts, List.mem_range'_1, Option.mem_def]
      constructor
      · intro h i buffer h1 h2 hf
        exact h i ⟨h1, by omega⟩ buffer hf
      · intro h i hi buffer hf
        exact h i buffer hi.1 (by omega) hf)

section Columns

variable {read : ReadToBuffer} {columns : List ColumnMeta} {c : TrinoCursor} {row : Row}
  {b : ColumnBindingMap}

/-- `c` reads the values of `row`. -/
def TrinoCursor.Reads (c : TrinoCursor) (row : Row) : Prop := c.current.getD [] = row

theorem TrinoCursor.reads_of_current (h : c.current = some row) : c.Reads row := by
  rw [TrinoCursor.Reads, h, Option.getD_some]

theorem readColumnToBuffer_eq (h : c.Reads row) (i : Nat) (buffer : ApplicationDataBuffer) :
    c.readColumnToBuffer read columns i buffer = readCell read columns row i buffer := by
  rw [TrinoCursor.readColumnToBuffer, h]

theorem processConversionResult_error (r : ConversionResult) (rowIdx columnIdx : Nat) :
    (processConversionResult r rowIdx columnIdx).1 = .error ↔ r = .failure := by
  cases r <;> simp [processConversionResult]

theorem readColumns_error_iff (h : c.Reads row) (is : List Nat) :
    (readColumns read columns c b is).1 = .error ↔
      ∃ i ∈ is, ∃ buffer, b.find i = some buffer ∧
        (readCell read columns row i buffer).result = .failure := by
  induction is with
  | nil => simp [readColumns]
  | cons i is ih =>
    simp only [readColumns]
    cases hb : b.find i with
    | none => simp [ih, hb]
    | some buffer =>
      simp only [readColumnToBuffer_eq h, processConversionResult_error]
      split
      · rename_i hf
        simp [hb, hf]
      · rename_i hf
        simp [ih, hb, hf]

/-- Without a failure every bound column is stored. -/
theorem readColumns_stored (h : c.Reads row) (is : List Nat)
    (hok : (readColumns read columns c b is).1 ≠ .error) :
    (readColumns read columns c b is).2.1 = storedCells read columns row b is := by
  induction is with
  | nil => rfl
  | cons i is ih =>
    simp only [readColumns] at hok ⊢
    cases hb : b.find i with
    | none =>
      simp only [hb] at hok
      simp [storedCells, hb, ih hok]
    | some buffer =>
      simp only [hb, readColumnToBuffer_eq h] at hok ⊢
      split at hok
      · exact absurd rfl hok
      · rename_i hf
        rw [if_neg hf]
        simp [storedCells, hb, ih hok]

theorem rowResult_error_iff (h : c.Reads row) :
    rowResult read columns c b = .error ↔ ¬ Converts read columns row b := by
  have hb : rowResult read columns c b = .error ↔ (boundColumns read columns c b).1 = .error := by
    unfold rowResult
    split
    · rename_i he; simp [he]
    · rename_i he; simp [he]
  rw [hb, boundColumns, readColumns_error_iff h]
  simp only [Converts, not_forall, not_not, List.mem_range'_1]
  constructor
  · rintro ⟨i, ⟨h1, h2⟩, buffer, hf, hr⟩
    exact ⟨i, buffer, h1, by omega, hf, hr⟩
  · rintro ⟨i, buffer, h1, h2, hf, hr⟩
    exact ⟨i, ⟨h1, by omega⟩, buffer, hf, hr⟩

theorem rowResult_success_iff (h : c.Reads row) :
    rowResult read columns c b = .success ↔ Converts read columns row b := by
  have herr : rowResult read columns c b = .error ↔ ¬ Converts read columns row b :=
    rowResult_error_iff h
  have hcases : rowResult read columns c b = .error ∨ rowResult read columns c b = .success := by
    unfold rowResult
    split
    · exact .inl rfl
    · exact .inr rfl
  rcases hcases with he | hs
  · rw [he]
    exact ⟨nofun, fun hc => absurd hc (herr.mp he)⟩
  · rw [hs]
    refine ⟨fun _ => ?_, fun _ => rfl⟩
    by_contra hno
    have := herr.mpr hno
    rw [hs] at this
    cases this

theorem boundColumns_stored (h : c.Reads row) (hc : Converts read columns row b) :
    (boundColumns read columns c b).2.1 =
      storedCells read columns row b (List.range' 1 columns.length) := by
  refine readColumns_stored h _ fun he => ?_
  have hr : rowResult read columns c b = .error := if_pos he
  exact (rowResult_error_iff h).mp hr hc

end Columns

end TrinoOdbc
