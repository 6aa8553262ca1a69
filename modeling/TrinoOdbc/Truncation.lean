import TrinoOdbc.OneCursor

/-!
# TrinoOdbc.Truncation

What the result of a fetch says about the values it has stored.

`FetchNextRow` of every class drops the results of the conversions, but for a failure in a
`DataQuery`: so its result is the worst result of the bound columns, and `SQL_ROW_SUCCESS` stands
for values that are whole, exactly when a `DataQuery` fails or every bound column is stored whole
(`truncation_iff`).
-/

namespace TrinoOdbc

open DataQuery

/-- Error above success-with-info above success. -/
def severity : SqlResult → Nat
  | .success => 0
  | .noData | .needData => 1
  | .successWithInfo => 2
  | .error => 3

/-- `r` is the worst of the results of `GetColumn` for the bound columns. -/
structure IsWorst (W : World) (b : ColumnBindingMap) (Q : Query) (r : SqlResult) : Prop where
  bound : ∀ i buffer x Q', b.find i = some buffer → Q.GetColumn W i buffer x Q' →
    severity x.1 ≤ severity r
  attained : r = .success ∨ ∃ i buffer x Q', b.find i = some buffer ∧
    Q.GetColumn W i buffer x Q' ∧ x.1 = r

/-- Every bound column has been stored, and its conversion was a success. -/
def StoredWhole (b : ColumnBindingMap) (stored : List Stored) : Prop :=
  ∀ i buffer, b.find i = some buffer →
    ∃ s ∈ stored, s.column = i ∧ s.buffer = buffer ∧ s.put.result = .success

/-! ## The row under the cursor -/

namespace MetadataCursor

variable {α : Type}

def OnRow (c : MetadataCursor α) : Prop := c.executed = true ∧ ∃ row, c.current = some row

/-- What column `i` of the row under the iterator puts. -/
def cell (cells : Cells α) (c : MetadataCursor α) (i : Nat) (buffer : ApplicationDataBuffer) :
    Option Put :=
  c.current.bind fun row => (cells row i buffer).put

end MetadataCursor

namespace Query

def OnRow : Query → Prop
  | .data q => ∃ c, q.cursor = some c ∧ c.curPos ≤ c.rowVec.length
  | .tableMetadata q => q.cursor.OnRow
  | .columnMetadata q => q.cursor.OnRow
  | .typeInfo q => q.cursor.OnRow
  | .foreignKeys _ => False

/-- What column `i` of the row under the cursor puts: `none` for a column the class does not
have. -/
def cell (W : World) (i : Nat) (buffer : ApplicationDataBuffer) : Query → Option Put
  | .data q => q.cursor.map fun c => c.readColumnToBuffer W.env.read q.resultMeta i buffer
  | .tableMetadata q => q.cursor.cell (TableMetadataQuery.cells W.setting.puts) i buffer
  | .columnMetadata q => q.cursor.cell (ColumnMetadataQuery.cells W.setting.puts) i buffer
  | .typeInfo q => q.cursor.cell (TypeInfoQuery.cells W.setting.puts) i buffer
  | .foreignKeys _ => none

/-- Every bound column of the row is put whole. -/
def Whole (W : World) (b : ColumnBindingMap) (Q : Query) : Prop :=
  ∀ i buffer, b.find i = some buffer → ∃ put, Q.cell W i buffer = some put ∧ put.result = .success

/-- A bound column of the row fails, in a class that looks at the conversions. -/
def Rejects (W : World) (b : ColumnBindingMap) : Query → Prop
  | .data q => ∃ c, q.cursor = some c ∧
      ¬ Converts W.env.read q.resultMeta (c.current.getD []) b
  | _ => False

end Query

theorem ColumnBindingMap.find_eq_some_iff {b : ColumnBindingMap} {i : Nat}
    {buffer : ApplicationDataBuffer} : b.find i = some buffer ↔ (i, buffer) ∈ b.entries := by
  unfold find
  constructor
  · intro h
    obtain ⟨l₁, l₂, hsplit, _⟩ := List.lookup_eq_some_iff.mp h
    rw [hsplit]
    exact List.mem_append_right _ List.mem_cons_self
  · intro h
    obtain ⟨l₁, l₂, hsplit⟩ := List.append_of_mem h
    refine List.lookup_eq_some_iff.mpr ⟨l₁, l₂, hsplit, fun e he => ?_⟩
    have hsorted := b.sorted
    rw [hsplit, List.map_append, List.map_cons] at hsorted
    have hlt := (List.pairwise_append.mp hsorted).2.2 e.1 (List.mem_map_of_mem he) i
      List.mem_cons_self
    simp only [bne_iff_ne, ne_eq]
    omega

/-! ## Metadata queries -/

section Metadata

variable {α : Type} {cells : Cells α} {row : α} {b : ColumnBindingMap}

theorem mem_readBindings {s : Stored} : s ∈ MetadataCursor.readBindings cells row b ↔
    b.find s.column = some s.buffer ∧ (cells row s.column s.buffer).put = some s.put := by
  simp only [MetadataCursor.readBindings, List.mem_flatMap, ColumnRead.stored, Option.mem_toList,
    Option.map_eq_some_iff]
  constructor
  · rintro ⟨e, he, put, hput, rfl⟩
    exact ⟨ColumnBindingMap.find_eq_some_iff.mpr he, hput⟩
  · rintro ⟨hb, hput⟩
    exact ⟨_, ColumnBindingMap.find_eq_some_iff.mp hb, _, hput, rfl⟩

theorem storedWhole_readBindings : StoredWhole b (MetadataCursor.readBindings cells row b) ↔
    ∀ i buffer, b.find i = some buffer →
      ∃ put, (cells row i buffer).put = some put ∧ put.result = .success := by
  constructor
  · intro h i buffer hb
    obtain ⟨s, hs, rfl, rfl, hres⟩ := h i buffer hb
    exact ⟨s.put, (mem_readBindings.mp hs).2, hres⟩
  · intro h i buffer hb
    obtain ⟨put, hput, hres⟩ := h i buffer hb
    exact ⟨⟨i, buffer, put⟩, mem_readBindings.mpr ⟨hb, hput⟩, rfl, rfl, hres⟩

/-- A fetch that ends on a row has returned `SUCCESS` and read every binding. -/
theorem fetchRow_onRow {c : MetadataCursor α} (h : (c.fetchRow cells b).2.OnRow) :
    ∃ row, (c.fetchRow cells b).1 = (.success, MetadataCursor.readBindings cells row b) ∧
      (c.fetchRow cells b).2.current = some row := by
  unfold MetadataCursor.fetchRow at h ⊢
  cases hcur : c.advance.current with
  | none =>
    simp only [hcur] at h
    obtain ⟨row, hrow⟩ := h.2
    rw [hcur] at hrow
    cases hrow
  | some row =>
    refine ⟨row, ?_, ?_⟩ <;> simp only [hcur]
    exact hcur

theorem fetchRow_result (c : MetadataCursor α) :
    (c.fetchRow cells b).1.1 = .success ∨ (c.fetchRow cells b).1.1 = .noData := by
  unfold MetadataCursor.fetchRow
  cases hcur : c.advance.current with
  | none => exact .inr (by simp only [hcur])
  | some row => exact .inl (by simp only [hcur])

theorem fetchNextRow_onRow {c : MetadataCursor α} (h : (c.fetchNextRow cells b).2.OnRow) :
    ∃ row, (c.fetchNextRow cells b).1 = (.success, MetadataCursor.readBindings cells row b) ∧
      (c.fetchNextRow cells b).2.current = some row := by
  unfold MetadataCursor.fetchNextRow at h ⊢
  split at h
  · rename_i hex
    have hexec : c.executed = true := h.1
    rw [hex] at hexec
    cases hexec
  · rename_i hex
    rw [if_neg hex]
    exact fetchRow_onRow h

theorem fetchNextRow_result (c : MetadataCursor α) :
    (c.fetchNextRow cells b).1.1 ≠ .successWithInfo := by
  unfold MetadataCursor.fetchNextRow
  split
  · nofun
  · have hresult : (c.fetchRow cells b).1.1 = .success ∨ (c.fetchRow cells b).1.1 = .noData :=
      fetchRow_result c
    rcases hresult with h | h <;> rw [h] <;> nofun

theorem getColumn_onRow {c : MetadataCursor α} {i : Nat} {buffer : ApplicationDataBuffer}
    (h : c.OnRow) (hcur : c.current = some row) :
    (c.getColumn cells i buffer).1.1 = (cells row i buffer).result := by
  simp [MetadataCursor.getColumn, MetadataCursor.readColumn, h.1, hcur]

/-- Of a row that has been read with `SUCCESS`, the result is honest exactly when every bound column
is put whole. -/
theorem metadata_honest_iff {W : World} {Q : Query}
    (hget : ∀ i buffer x Q', Q.GetColumn W i buffer x Q' → x.1 = (cells row i buffer).result)
    (hcell : ∀ i buffer, Q.cell W i buffer = (cells row i buffer).put)
    (hcells : ∀ i buffer put, (cells row i buffer).put = some put →
      (cells row i buffer).result = .success) :
    (IsWorst W b Q .success ∧ StoredWhole b (MetadataCursor.readBindings cells row b)) ↔
      Q.Whole W b := by
  have hwhole : StoredWhole b (MetadataCursor.readBindings cells row b) ↔ Q.Whole W b := by
    rw [storedWhole_readBindings]
    unfold Query.Whole
    simp only [hcell]
  rw [hwhole]
  refine ⟨And.right, fun h => ⟨⟨fun i buffer x Q' hb hcol => ?_, .inl rfl⟩, h⟩⟩
  obtain ⟨put, hput, _⟩ := h i buffer hb
  have hres := hcells i buffer put (by rw [← hcell]; exact hput)
  exact Nat.le_of_eq (congrArg severity ((hget i buffer x Q' hcol).trans hres))

end Metadata

/-! ## DataQuery -/

section Data

variable {E : Env} {q q' : DataQuery} {b : ColumnBindingMap} {v : Ret} {m m' : Main} {e : Event}

/-- The cursor, if any, is behind its page. -/
def Off (q : DataQuery) : Prop := ∀ c, q.cursor = some c → c.rowVec.length < c.curPos

/-- What a call of `FetchNextRow` leaves: the cursor on a row it has read, or off the rows. -/
def FetchLeaves (E : Env) (b : ColumnBindingMap) (v : Ret) (q : DataQuery) : Prop :=
  (∃ c, q.cursor = some c ∧ v = .result (rowResult E.read q.resultMeta c b)
    (boundColumns E.read q.resultMeta c b).2.1) ∨
  Off q ∧ (v = .result .noData [] ∨ v = .result .error [])

theorem FetchLeaves.of_rowRead {c : TrinoCursor} (hc : q.cursor = some c)
    (h : RowRead E.read q c b (.ret v) q') : FetchLeaves E b v q' := by
  refine .inl ⟨c, h.quiet.cursor.trans hc, ?_⟩
  rw [h.resultMeta]
  have he := h.event
  simp only [Event.ret.injEq] at he
  exact he

theorem FetchLeaves.threadStep (h : FetchLeaves E b v q) (hs : ThreadStep E q q') :
    FetchLeaves E b v q' := by
  unfold FetchLeaves Off at h ⊢
  rw [hs.keeps.cursor, hs.unread.resultMeta]
  exact h

/-- A fetch from any state. -/
theorem fetch_leaves (h : Call E q (.fetchNextRow b) v q') : FetchLeaves E b v q' := by
  refine Call.rule (I := fun _ => True)
    (Φ := fun m q => m = .entered (.fetchNextRow b) ∨
      (m = .waiting b ∨ ∃ o, m = .switching b o) ∧ Off q)
    (J := FetchLeaves E b) ?_ ?_ ?_ ?_ ?_ ?_ h trivial
  · exact fun _ _ _ _ => trivial
  · exact fun _ _ => .inl rfl
  · rintro m q m' q' (rfl | ⟨rfl | ⟨o, rfl⟩, hoff⟩) hs
    · cases hs with
      | fetchRow _ _ hr => cases hr.event
      | fetchWait hc hlt _ =>
        refine .inr ⟨.inl rfl, fun c hc' => ?_⟩
        cases hc'
        simpa using hlt
    · cases hs with
      | pop _ => exact .inr ⟨.inr ⟨_, rfl⟩, hoff⟩
    · obtain ⟨v, hv⟩ := advance_switching_ret hs
      cases hv
  · rintro m q q' (rfl | ⟨hm, hoff⟩) hs
    · exact .inl rfl
    · refine .inr ⟨hm, ?_⟩
      unfold Off
      rw [hs.keeps.cursor]
      exact hoff
  · rintro m q v q' (rfl | ⟨rfl | ⟨o, rfl⟩, hoff⟩) hs
    · cases hs with
      | fetchNoCursor hc =>
        refine .inr ⟨fun c hc' => ?_, .inl rfl⟩
        rw [show q.cursor = some c from hc'] at hc
        cases hc
      | fetchRow _ _ hr => exact .of_rowRead rfl hr
      | fetchEnd hc hlt _ =>
        refine .inr ⟨fun c hc' => ?_, .inl rfl⟩
        cases hc'
        simpa using hlt
    · cases hs
    · cases hs with
      | switchError => exact .inr ⟨nofun, .inr rfl⟩
      | switchEmpty _ => exact .inr ⟨hoff, .inl rfl⟩
      | switchLast _ _ hr => exact .of_rowRead rfl hr
      | switchNext _ _ _ hr => exact .of_rowRead rfl hr
  · exact fun _ _ _ hJ hs => hJ.threadStep hs

theorem getColumn_call_iff {c : TrinoCursor} (hc : q.cursor = some c)
    (hle : c.curPos ≤ c.rowVec.length) {i : Nat} {buffer : ApplicationDataBuffer} :
    (∃ q', Call E q (.getColumn i buffer) v q') ↔
      v = .result (readData E.read q.resultMeta (c.current.getD []) (i, buffer)).1
        (readData E.read q.resultMeta (c.current.getD []) (i, buffer)).2 := by
  have hval := fun (q₁ : DataQuery) (hc₁ : q₁.cursor = q.cursor) =>
    getColumn_row (E := E) (l := (i, buffer)) (hc₁.trans hc) hle rfl
  constructor
  · rintro ⟨q', hcall⟩
    refine Call.rule (I := fun q₁ => q₁.cursor = q.cursor ∧ q₁.resultMeta = q.resultMeta)
      (Φ := fun m q₁ => m = .entered (.getColumn i buffer) ∧ q₁.cursor = q.cursor ∧
        q₁.resultMeta = q.resultMeta)
      (J := fun v _ => v = .result _ _) ?_ ?_ ?_ ?_ ?_ ?_ hcall ⟨rfl, rfl⟩
    · exact fun _ _ hI hs => ⟨hs.keeps.cursor.trans hI.1, hs.unread.resultMeta.trans hI.2⟩
    · exact fun _ hI => ⟨rfl, hI⟩
    · rintro m q₁ m' q' ⟨rfl, _⟩ hs
      cases hs
    · exact fun _ _ _ hΦ hs =>
        ⟨hΦ.1, hs.keeps.cursor.trans hΦ.2.1, hs.unread.resultMeta.trans hΦ.2.2⟩
    · rintro m q₁ v q' ⟨rfl, hc₁, hm₁⟩ hs
      cases hs with
      | getColumn => rw [hval q₁ hc₁, hm₁]
    · exact fun _ _ _ hJ _ => hJ
  · rintro rfl
    have hstep : Step E ⟨.entered (.getColumn i buffer), q⟩
        (.ret (.result (q.getColumn E.read i buffer).1.1 (q.getColumn E.read i buffer).1.2))
        ⟨.idle, (q.getColumn E.read i buffer).2⟩ := .main rfl
    rw [hval q rfl] at hstep
    exact ⟨_, [_, _], .cons (.call _) (.single hstep), rfl⟩

theorem processConversionResult_success (r : ConversionResult) (rowIdx columnIdx : Nat) :
    (processConversionResult r rowIdx columnIdx).1 = .success ↔ r = .success := by
  cases r <;> simp [processConversionResult]

theorem severity_eq_zero {r : SqlResult} (h : severity r ≤ 0) : r = .success := by
  cases r with
  | success => rfl
  | successWithInfo | error | noData | needData => cases h

/-- A column that is put whole is a column of the result. -/
theorem readCell_success {read : ReadToBuffer} {columns : List ColumnMeta} {row : Row} {i : Nat}
    {buffer : ApplicationDataBuffer} (h : (readCell read columns row i buffer).result = .success) :
    1 ≤ i ∧ i ≤ columns.length := by
  unfold readCell at h
  split at h
  · cases h
  · rename_i hi
    split at h
    · cases h
    · rename_i hcol
      have := (List.getElem?_eq_some_iff.mp hcol).1
      omega

theorem storedCells_whole {read : ReadToBuffer} {columns : List ColumnMeta} {row : Row}
    (h : ∀ i buffer, b.find i = some buffer →
      (readCell read columns row i buffer).result = .success) :
    StoredWhole b (storedCells read columns row b (List.range' 1 columns.length)) := by
  intro i buffer hb
  have hres := h i buffer hb
  obtain ⟨h1, h2⟩ := readCell_success hres
  refine ⟨⟨i, buffer, readCell read columns row i buffer⟩, ?_, rfl, rfl, hres⟩
  refine List.mem_filterMap.mpr ⟨i, List.mem_range'_1.mpr ⟨h1, by omega⟩, ?_⟩
  rw [hb]
  rfl

section Row

variable {W : World} {c : TrinoCursor} {row : Row}

theorem cell_data (hc : q.cursor = some c) (hreads : c.Reads row) (i : Nat)
    (buffer : ApplicationDataBuffer) :
    Query.cell W i buffer (.data q) = some (readCell W.env.read q.resultMeta row i buffer) := by
  simp only [Query.cell, hc, Option.map_some, readColumnToBuffer_eq hreads]

theorem getColumn_data (hc : q.cursor = some c) (hle : c.curPos ≤ c.rowVec.length)
    (hreads : c.Reads row) {i : Nat} {buffer : ApplicationDataBuffer}
    {x : SqlResult × List Stored} {Q' : Query} (hcol : Query.GetColumn W i buffer (.data q) x Q') :
    x.1 = (processConversionResult (readCell W.env.read q.resultMeta row i buffer).result 0 i).1 := by
  cases hcol with
  | data hcall =>
    have hval := (getColumn_call_iff hc hle).mp ⟨_, hcall⟩
    rw [Ret.result.injEq, hreads] at hval
    exact hval.1

theorem exists_getColumn_data (hc : q.cursor = some c) (hle : c.curPos ≤ c.rowVec.length) (i : Nat)
    (buffer : ApplicationDataBuffer) : ∃ x Q', Query.GetColumn W i buffer (.data q) x Q' := by
  have hreturn : ∃ q', Call W.env q (.getColumn i buffer) _ q' :=
    (getColumn_call_iff hc hle).mpr rfl
  obtain ⟨q', hcall⟩ := hreturn
  exact ⟨_, _, .data hcall⟩

theorem rejects_data_iff (hc : q.cursor = some c) (hreads : c.current.getD [] = row) :
    Query.Rejects W b (.data q) ↔ ¬ Converts W.env.read q.resultMeta row b := by
  unfold Query.Rejects
  constructor
  · rintro ⟨c', hc', hno⟩
    obtain rfl := Option.some.inj (hc.symm.trans hc')
    rwa [hreads] at hno
  · intro hno
    exact ⟨c, hc, by rwa [hreads]⟩

end Row

/-- Of a row a `DataQuery` has read: the result is honest exactly when it is an error, or every
bound column is put whole. -/
theorem data_honest_iff {W : World} {c : TrinoCursor} (hc : q.cursor = some c)
    (hle : c.curPos ≤ c.rowVec.length) {r : SqlResult} {stored : List Stored}
    (hr : r = rowResult W.env.read q.resultMeta c b)
    (hs : stored = (boundColumns W.env.read q.resultMeta c b).2.1) :
    (IsWorst W b (.data q) r ∧ (sqlResultToRowResult r = .success → StoredWhole b stored)) ↔
      Query.Whole W b (.data q) ∨ Query.Rejects W b (.data q) := by
  have hreads : c.Reads (c.current.getD []) := rfl
  generalize c.current.getD [] = row at hreads
  have hrejects := rejects_data_iff (W := W) (b := b) hc hreads
  by_cases hconv : Converts W.env.read q.resultMeta row b
  · -- the fetch has succeeded, so every column has to be whole
    rw [hrejects, or_iff_left (not_not_intro hconv)]
    rw [(rowResult_success_iff hreads).mpr hconv] at hr
    rw [boundColumns_stored hreads hconv] at hs
    subst hr hs
    constructor
    · rintro ⟨hworst, _⟩ i buffer hb
      obtain ⟨x, Q', hcol⟩ := exists_getColumn_data (W := W) hc hle i buffer
      have hzero := severity_eq_zero (hworst.bound i buffer x Q' hb hcol)
      rw [getColumn_data hc hle hreads hcol, processConversionResult_success] at hzero
      exact ⟨_, cell_data hc hreads i buffer, hzero⟩
    · intro hwhole
      have hres : ∀ i buffer, b.find i = some buffer →
          (readCell W.env.read q.resultMeta row i buffer).result = .success := by
        intro i buffer hb
        obtain ⟨put, hput, hsucc⟩ := hwhole i buffer hb
        obtain rfl := Option.some.inj ((cell_data hc hreads i buffer).symm.trans hput)
        exact hsucc
      refine ⟨⟨fun i buffer x Q' hb hcol => ?_, .inl rfl⟩, fun _ => storedCells_whole hres⟩
      rw [getColumn_data hc hle hreads hcol, hres i buffer hb]
      exact Nat.le_refl _
  · -- the fetch has failed as the column it failed at does
    have herr := (rowResult_error_iff hreads).mpr hconv
    rw [herr] at hr
    subst hr
    refine ⟨fun _ => .inr (hrejects.mpr hconv), fun _ => ⟨⟨?_, .inr ?_⟩, nofun⟩⟩
    · intro i buffer x Q' _ _
      cases x.1 <;> decide
    · unfold Converts at hconv
      push Not at hconv
      obtain ⟨i, buffer, _, _, hb, hfail⟩ := hconv
      obtain ⟨x, Q', hcol⟩ := exists_getColumn_data (W := W) hc hle i buffer
      refine ⟨i, buffer, x, Q', hb, hcol, ?_⟩
      rw [getColumn_data hc hle hreads hcol, processConversionResult_error]
      exact hfail

end Data

/-! ## Fetches of a rowset -/

/-- A fetch of the row loop: the bindings of its slot, what it returned and the query it left. -/
structure SlotFetch where
  bindings : ColumnBindingMap
  outcome : SqlResult × List Stored
  after : Query

/-- The row loop of `InternalFetchRow` from row `i` on, fetch by fetch. -/
inductive FetchTrace (W : World) (b : ColumnBindingMap) :
    Nat → Nat → Query → List SlotFetch → Query → Prop where
  | done {i : Nat} {Q : Query} : FetchTrace W b i 0 Q [] Q
  | row {i n : Nat} {Q Q₁ Q' : Query} {r : SqlResult × List Stored} {fs : List SlotFetch} :
      Q.FetchNextRow W (b.slot i) r Q₁ → FetchTrace W b (i + 1) n Q₁ fs Q' →
      FetchTrace W b i (n + 1) Q (⟨b.slot i, r, Q₁⟩ :: fs) Q'

namespace SlotFetch

/-- When a row has been fetched: the result is the worst of its bound columns, and the status is
`SQL_ROW_SUCCESS` only if every bound column has been stored whole. -/
def Honest (W : World) (f : SlotFetch) : Prop :=
  f.after.OnRow → IsWorst W f.bindings f.after f.outcome.1 ∧
    (sqlResultToRowResult f.outcome.1 = .success → StoredWhole f.bindings f.outcome.2)

/-- When a row has been fetched: its bound columns are whole, or one fails in a `DataQuery`. -/
def Clear (W : World) (f : SlotFetch) : Prop :=
  f.after.OnRow → f.after.Whole W f.bindings ∨ f.after.Rejects W f.bindings

end SlotFetch

/-- A call of `InternalFetchRow` on a statement with a query, and its fetches. -/
structure TracedCall (W : World) (st : Statement) (o : Rowset) (fs : List SlotFetch)
    (st' : Statement) : Prop where
  call : st.InternalFetchRow W o st'
  rowset : o = st.rowset (fs.map SlotFetch.outcome)
  trace : ∃ Q Q', st.currentQuery = some Q ∧
    FetchTrace W st.offsetBindings 0 st.rowArraySize Q fs Q'

/-- What a call of `InternalFetchRow` says about its rows. -/
structure HonestRowset (W : World) (o : Rowset) (fs : List SlotFetch) : Prop where
  rows : ∀ f ∈ fs, f.Honest W
  statuses : ∀ statuses, o.rowStatuses = some statuses →
    statuses = fs.map fun f => sqlResultToRowResult f.outcome.1
  result : o.result = .success →
    ∀ f ∈ fs, isFetched f.outcome.1 → sqlResultToRowResult f.outcome.1 = .success

section Loop

variable {W : World} {b : ColumnBindingMap} {Q Q' : Query} {i n : Nat}
  {r : SqlResult × List Stored} {fs : List SlotFetch}

theorem fetchRows_iff_trace {rs : List (SqlResult × List Stored)} :
    FetchRows W b i n Q rs Q' ↔
      ∃ fs, FetchTrace W b i n Q fs Q' ∧ fs.map SlotFetch.outcome = rs := by
  constructor
  · intro h
    induction h with
    | done => exact ⟨[], .done, rfl⟩
    | row hf _ ih =>
      obtain ⟨fs, htrace, rfl⟩ := ih
      exact ⟨_, .row hf htrace, rfl⟩
  · rintro ⟨fs, htrace, rfl⟩
    induction htrace with
    | done => exact .done
    | row hf _ ih => exact .row hf ih

/-- Puts of the cells of a class go with `SUCCESS`. -/
theorem tableCells_result (P : Puts) (row : TableMeta) (i : Nat) (buffer : ApplicationDataBuffer)
    (put : Put) (h : (TableMetadataQuery.cells P row i buffer).put = some put) :
    (TableMetadataQuery.cells P row i buffer).result = .success := by
  unfold TableMetadataQuery.cells at h ⊢
  split <;> rfl

theorem columnCells_result (P : Puts) (row : ColumnMeta) (i : Nat) (buffer : ApplicationDataBuffer)
    (put : Put) (h : (ColumnMetadataQuery.cells P row i buffer).put = some put) :
    (ColumnMetadataQuery.cells P row i buffer).result = .success := by
  unfold ColumnMetadataQuery.cells at h ⊢
  split at h <;> first | rfl | cases h

theorem typeCells_result (P : Puts) (row : ScalarType) (i : Nat) (buffer : ApplicationDataBuffer)
    (put : Put) (h : (TypeInfoQuery.cells P row i buffer).put = some put) :
    (TypeInfoQuery.cells P row i buffer).result = .success := by
  unfold TypeInfoQuery.cells at h ⊢
  simp only
  split <;> rfl

/-- No class returns `SUCCESS_WITH_INFO`. -/
theorem fetch_not_info (h : Q.FetchNextRow W b r Q') : r.1 ≠ .successWithInfo := by
  cases h with
  | data hcall =>
    rcases fetch_leaves hcall with ⟨c, _, hv⟩ | ⟨_, hv | hv⟩
    · rw [Ret.result.injEq] at hv
      simp only [hv.1, rowResult]
      split <;> nofun
    · cases hv; nofun
    · cases hv; nofun
  | tableMetadata q =>
    rw [TableMetadataQuery.fetchNextRow_eq]
    split
    · nofun
    · exact fetchNextRow_result q.cursor
  | columnMetadata q => exact fetchNextRow_result q.cursor
  | typeInfo q => exact fetchNextRow_result q.cursor
  | foreignKeys q => nofun

theorem current_ne_nil {α : Type} {c : MetadataCursor α} {row : α} (h : c.current = some row) :
    ¬ c.metaVector.isEmpty = true := by
  intro hempty
  rw [MetadataCursor.current, List.isEmpty_iff.mp hempty] at h
  cases h

theorem tableFetch_onRow {P : Puts} {q : TableMetadataQuery}
    (h : (q.fetchNextRow P b).2.cursor.OnRow) :
    ∃ row, (q.fetchNextRow P b).1 =
        (.success, MetadataCursor.readBindings (TableMetadataQuery.cells P) row b) ∧
      (q.fetchNextRow P b).2.cursor.current = some row := by
  rw [TableMetadataQuery.fetchNextRow_eq] at h ⊢
  by_cases hempty : q.cursor.executed = true ∧ q.cursor.metaVector = []
  · rw [if_pos hempty] at h
    obtain ⟨row, hrow⟩ := h.2
    exact absurd (List.isEmpty_iff.mpr hempty.2) (current_ne_nil hrow)
  · rw [if_neg hempty] at h ⊢
    exact fetchNextRow_onRow h

theorem tableGetColumn_onRow {P : Puts} {q : TableMetadataQuery} {row : TableMeta} {j : Nat}
    {buffer : ApplicationDataBuffer} (h : q.cursor.OnRow) (hcur : q.cursor.current = some row) :
    (q.getColumn P j buffer).1.1 = (TableMetadataQuery.cells P row j buffer).result := by
  unfold TableMetadataQuery.getColumn
  rw [if_neg (by simp [h.1]), if_neg (current_ne_nil hcur)]
  simp [MetadataCursor.readColumn, hcur]

/-- One fetch, of every class. -/
theorem fetch_honest_iff (h : Q.FetchNextRow W b r Q') (hon : Q'.OnRow) :
    (IsWorst W b Q' r.1 ∧ (sqlResultToRowResult r.1 = .success → StoredWhole b r.2)) ↔
      Q'.Whole W b ∨ Q'.Rejects W b := by
  have hmetadata : ∀ {α : Type} {cells : Cells α} {row : α}, ¬ Q'.Rejects W b →
      r = (.success, MetadataCursor.readBindings cells row b) →
      ((IsWorst W b Q' .success ∧ StoredWhole b (MetadataCursor.readBindings cells row b)) ↔
        Q'.Whole W b) →
      ((IsWorst W b Q' r.1 ∧ (sqlResultToRowResult r.1 = .success → StoredWhole b r.2)) ↔
        Q'.Whole W b ∨ Q'.Rejects W b) := by
    rintro α cells row hno rfl hiff
    rw [or_iff_left hno, ← hiff]
    exact and_congr_right fun _ => ⟨fun h => h rfl, fun h _ => h⟩
  cases h with
  | @data q q' r stored hcall =>
    obtain ⟨c, hc, hle⟩ := hon
    rcases fetch_leaves hcall with ⟨c', hc', hv⟩ | ⟨hoff, _⟩
    · obtain rfl := Option.some.inj (hc.symm.trans hc')
      rw [Ret.result.injEq] at hv
      exact data_honest_iff hc hle hv.1 hv.2
    · have := hoff c hc
      omega
  | tableMetadata q =>
    obtain ⟨row, hres, hcur⟩ := tableFetch_onRow hon
    refine hmetadata id hres (metadata_honest_iff ?_ (fun i buffer => ?_)
      (tableCells_result W.setting.puts row))
    · intro i buffer x Q'' hcol
      cases hcol with
      | tableMetadata _ => exact tableGetColumn_onRow hon hcur
    · simp only [Query.cell, MetadataCursor.cell, hcur, Option.bind_some]
  | columnMetadata q =>
    obtain ⟨row, hres, hcur⟩ := fetchNextRow_onRow hon
    refine hmetadata id hres (metadata_honest_iff ?_ (fun i buffer => ?_)
      (columnCells_result W.setting.puts row))
    · intro i buffer x Q'' hcol
      cases hcol with
      | columnMetadata _ => exact getColumn_onRow hon hcur
    · have hcur' : (q.fetchNextRow W.setting.puts b).2.cursor.current = some row := hcur
      simp only [Query.cell, MetadataCursor.cell, hcur', Option.bind_some]
  | typeInfo q =>
    obtain ⟨row, hres, hcur⟩ := fetchNextRow_onRow hon
    refine hmetadata id hres (metadata_honest_iff ?_ (fun i buffer => ?_)
      (typeCells_result W.setting.puts row))
    · intro i buffer x Q'' hcol
      cases hcol with
      | typeInfo _ => exact getColumn_onRow hon hcur
    · have hcur' : (q.fetchNextRow W.setting.puts b).2.cursor.current = some row := hcur
      simp only [Query.cell, MetadataCursor.cell, hcur', Option.bind_some]
  | foreignKeys q => exact absurd hon id

/-- Every fetch of the loop. -/
theorem FetchTrace.honest_iff (h : FetchTrace W b i n Q fs Q') :
    ∀ f ∈ fs, (f.Honest W ↔ f.Clear W) ∧ f.outcome.1 ≠ .successWithInfo := by
  induction h with
  | done => exact fun _ hf => nomatch hf
  | row hfetch _ ih =>
    intro f hf
    rcases List.mem_cons.mp hf with rfl | hf
    · exact ⟨forall_congr' fun hon => fetch_honest_iff hfetch hon, fetch_not_info hfetch⟩
    · exact ih f hf

end Loop

/-- Every call on a statement with a query has its fetches. -/
theorem exists_tracedCall {W : World} {st st' : Statement} {o : Rowset}
    (h : st.InternalFetchRow W o st') (hq : st.currentQuery ≠ none) :
    ∃ fs, TracedCall W st o fs st' := by
  have hcall := h
  cases h with
  | noQuery hnone => exact absurd hnone hq
  | fetch hQ hrows =>
    obtain ⟨fs, htrace, rfl⟩ := fetchRows_iff_trace.mp hrows
    exact ⟨fs, hcall, rfl, _, _, hQ, htrace⟩

/-- For every class, every rowset, every set of bindings and every outcome of the conversions: the
results and statuses of the rows are honest exactly when of every fetched row all bound columns are
put whole, or one fails in a `DataQuery`. -/
theorem truncation_iff {W : World} {st st' : Statement} {o : Rowset} {fs : List SlotFetch}
    (h : TracedCall W st o fs st') : HonestRowset W o fs ↔ ∀ f ∈ fs, f.Clear W := by
  obtain ⟨Q, Q', _, htrace⟩ := h.trace
  have hiff := htrace.honest_iff
  constructor
  · exact fun hrows f hf => (hiff f hf).1.mp (hrows.rows f hf)
  · intro hclear
    refine ⟨fun f hf => (hiff f hf).1.mpr (hclear f hf), ?_, ?_⟩
    · intro statuses hs
      rw [h.rowset] at hs
      simp only [Statement.rowset, Option.ite_none_right_eq_some, Option.some.injEq] at hs
      rw [← hs.2, List.map_map]
      rfl
    · -- a row that has been fetched has been fetched with success
      intro _ f hf hfetched
      have hinfo := (hiff f hf).2
      simp only [isFetched, Bool.or_eq_true, decide_eq_true_eq] at hfetched
      rw [hfetched.resolve_right hinfo]
      rfl

section Examples

theorem textSlot_whole {W : World} {Q : Query} {i : Nat}
    (h : ∃ put, Q.cell W 1 ((⟨.char, some 100, 2, some 200, 0, 0⟩ :
      ApplicationDataBuffer).setElementOffset i) = some put ∧ put.result = .success) :
    Q.Whole W (textSlot i) := by
  intro j buffer hb
  have hm := ColumnBindingMap.find_eq_some_iff.mp hb
  obtain ⟨rfl, rfl⟩ := Prod.mk.inj (List.mem_singleton.mp hm)
  exact h

/-- Two rows, whole. -/
theorem truncation_twoRows : ∃ (o : Rowset) (fs : List SlotFetch) (st' : Statement),
    TracedCall (textWorld threeRows) (textStatement (threeRowsQuery 0)) o fs st' ∧
      o.rowStatuses = some [.success, .success] ∧ HonestRowset (textWorld threeRows) o fs := by
  have hcall : (textStatement (threeRowsQuery 0)).InternalFetchRow (textWorld threeRows) _ _ :=
    .fetch rfl (.row (.data threeRows_first) (.row (.data threeRows_second) .done))
  have htrace : FetchTrace (textWorld threeRows) textBindings 0 2 (.data (threeRowsQuery 0)) _
      (.data (threeRowsQuery 2)) :=
    .row (.data threeRows_first) (.row (.data threeRows_second) .done)
  have htraced : TracedCall (textWorld threeRows) (textStatement (threeRowsQuery 0)) _ _ _ :=
    ⟨hcall, rfl, _, _, rfl, htrace⟩
  refine ⟨_, _, _, htraced, rfl, (truncation_iff htraced).mpr fun f hf _ => .inl ?_⟩
  simp only [List.mem_cons, List.not_mem_nil, or_false] at hf
  rcases hf with rfl | rfl
  · exact textSlot_whole ⟨_, rfl, rfl⟩
  · exact textSlot_whole ⟨_, rfl, rfl⟩

/-- Column 1 bound to an array of one character: there is room for the terminator only. -/
def shortBuffer : ApplicationDataBuffer :=
  { type := .char, buffer := some 100, buflen := 1, reslen := some 200 }

def shortBindings : ColumnBindingMap := ⟨[(1, shortBuffer)], .cons nofun .nil⟩

def shortStatement : Statement :=
  { columnBindings := shortBindings, currentQuery := some (.data (threeRowsQuery 0))
    rowStatuses := true }

def shortQuery : DataQuery :=
  queryAfter threeRows readAsText [.call .execute, .main, .query,
    .call (.fetchNextRow (shortBindings.slot 0)), .main] { sql := "q" }

/-- A row whose value is cut off has the status of a row that is whole, and `GetColumn` reports
it. -/
theorem truncation_silent : ∃ (o : Rowset) (fs : List SlotFetch) (st' : Statement),
    TracedCall (textWorld threeRows) shortStatement o fs st' ∧ o.result = .success ∧
      o.rowStatuses = some [.success] ∧ ¬ HonestRowset (textWorld threeRows) o fs := by
  have h1 : Call (textWorld threeRows).env (threeRowsQuery 0)
      (.fetchNextRow (shortBindings.slot 0)) (.result .success _) shortQuery :=
    replay_call [.call (.fetchNextRow (shortBindings.slot 0)), .main] rfl rfl
  have hget : Call (textWorld threeRows).env shortQuery
      (.getColumn 1 (shortBuffer.setElementOffset 0)) (.result .successWithInfo _) _ :=
    replay_call [.call (.getColumn 1 (shortBuffer.setElementOffset 0)), .main] rfl rfl
  have hcall : shortStatement.InternalFetchRow (textWorld threeRows) _ _ :=
    .fetch rfl (.row (.data h1) .done)
  have htrace : FetchTrace (textWorld threeRows) shortBindings 0 1 (.data (threeRowsQuery 0)) _
      (.data shortQuery) := .row (.data h1) .done
  refine ⟨_, _, _, ⟨hcall, rfl, _, _, rfl, htrace⟩, rfl, rfl, fun h => ?_⟩
  have hrow : (Query.data shortQuery).OnRow := ⟨_, rfl, by decide⟩
  have hworst := (h.rows _ List.mem_cons_self hrow).1
  have hle := hworst.bound 1 _ _ _ rfl (.data hget)
  exact absurd hle (by decide)

end Examples

end TrinoOdbc
