import TrinoOdbc.Binding
import TrinoOdbc.Statement

/-!
# TrinoOdbc.BindOffset

The bind offset: `SetAttribute` with `SQL_ATTR_ROW_BIND_OFFSET_PTR` stores the pointer and adds the
offset to the addresses in the ARD; a fetch reads the offset through the pointer, as an `int`, and
stores it in the bindings.

`bindOffset_lawful_iff` says when every fetch uses the bound addresses plus the current offset, and
the ARD keeps to the bound addresses.

Addresses are not cut to 64 bits.
-/

namespace TrinoOdbc

/-- The bindings and the ARD of a statement, `columnBindOffset` (0 when null), and what the
application has at an address, as a `SQLLEN`. -/
structure OffsetStatement where
  columnBindings : ColumnBindingMap
  ard : Descriptor
  columnBindOffset : Addr := 0
  rowArraySize : Fin 1001 := 1
  memory : Addr → Int

inductive OffsetCall where
  | setOffsetPtr (ptr : Addr)
  | write (ptr : Addr) (value : Int)
  | fetch

/-- `dataPtr` is moved by bytes, the other two, of type `SQLLEN*`, by eight times as much. -/
def DescriptorRecord.addOffset (record : DescriptorRecord) (offset : Int) : DescriptorRecord :=
  { record with
    dataPtr := record.dataPtr + offset
    indicatorPtr := record.indicatorPtr + 8 * offset
    octetLengthPtr := record.octetLengthPtr + 8 * offset }

namespace OffsetStatement

/-- The branch of `InternalSetAttribute`. It reads the offset through the pointer: `none` is a null
pointer dereferenced. -/
def setOffsetPtr (s : OffsetStatement) (ptr : Addr) : Option OffsetStatement :=
  if ptr = 0 then none
  else
    some { s with
      columnBindOffset := ptr
      ard := { s.ard with
        header := { s.ard.header with bindOffsetPtr := ptr }
        records := fun n => (s.ard.records n).map (·.addOffset (s.memory ptr)) } }

/-- The statement a fetch works on, which takes the offset for an `int`. -/
def statement (s : OffsetStatement) : Statement :=
  { columnBindings := s.columnBindings
    columnBindOffset :=
      if s.columnBindOffset = 0 then none else some (toInteger (s.memory s.columnBindOffset))
    rowArraySize := s.rowArraySize
    rowArraySizeLe := Nat.le_of_lt_succ s.rowArraySize.isLt }

/-- A fetch of a statement that has a query. -/
def fetch (s : OffsetStatement) : OffsetStatement :=
  { s with columnBindings := s.statement.lastBindings }

def call (s : OffsetStatement) : OffsetCall → Option OffsetStatement
  | .setOffsetPtr ptr => s.setOffsetPtr ptr
  | .write ptr value => some { s with memory := Function.update s.memory ptr value }
  | .fetch => some s.fetch

/-- A call of a statement that is still there. -/
def apply (s : Option OffsetStatement) (c : OffsetCall) : Option OffsetStatement :=
  s.bind (·.call c)

/-! ## What an offset is for -/

/-- The current offset, 0 for a null pointer. -/
def offset (s : OffsetStatement) : Int :=
  if s.columnBindOffset = 0 then 0 else s.memory s.columnBindOffset

end OffsetStatement

/-- The addresses of a record: data, indicator and octet length. -/
def DescriptorRecord.addresses (record : DescriptorRecord) : Addr × Addr × Addr :=
  (record.dataPtr, record.indicatorPtr, record.octetLengthPtr)

/-- The addresses a buffer is bound to. -/
def ApplicationDataBuffer.addresses (b : ApplicationDataBuffer) : Addr × Addr × Addr :=
  (b.buffer.getD 0, b.reslen.getD 0, b.reslen.getD 0)

namespace OffsetStatement

/-- The ARD reports the bound addresses, null for the columns that are not bound. -/
def Reports (s : OffsetStatement) : Prop :=
  ∀ c, (s.ard.record c).addresses =
    ((s.columnBindings.column c).map (·.addresses)).getD (0, 0, 0)

/-- Row `i` of a rowset goes to the bound addresses, moved by the offset and by the rows in front
of it. -/
def FetchesAt (s : OffsetStatement) : Prop :=
  ∀ c b, s.columnBindings.find c = some b → ∀ i : Nat,
    ∃ b', (s.statement.offsetBindings.slot i).find c = some b' ∧
      b'.getData = b.buffer.map (· + (s.offset + b.getElementSize * i)) ∧
      b'.getResLen = b.reslen.map (· + (s.offset + 8 * i))

/-- The law of the offset for one call. -/
def Lawful (s : Option OffsetStatement) (c : OffsetCall) : Prop :=
  ∃ t, s = some t ∧
    match c with
    | .setOffsetPtr ptr => ∃ t', t.setOffsetPtr ptr = some t' ∧ t'.Reports
    | .write _ _ => True
    | .fetch => t.FetchesAt

/-- The calls that meet the law: a pointer is set that is not null, while the offset it points to is
0 or the ARD has no records; and a fetch finds an offset that is an `int`, or there is no pointer or
no column bound. -/
def Meets (s : Option OffsetStatement) (c : OffsetCall) : Prop :=
  ∃ t, s = some t ∧
    match c with
    | .setOffsetPtr ptr => ptr ≠ 0 ∧ (t.memory ptr = 0 ∨ ∀ n, t.ard.records n = none)
    | .write _ _ => True
    | .fetch => t.columnBindOffset = 0 ∨ (∀ c, t.columnBindings.find c = none) ∨
        -2147483648 ≤ t.offset ∧ t.offset < 2147483648

/-- What holds between the calls: a buffer is bound by one of its pointers, it has no offset before
a pointer is set, and the ARD reports the bound addresses. -/
structure Settled (s : OffsetStatement) : Prop where
  bound : ∀ c b, s.columnBindings.find c = some b → b.buffer ≠ none ∨ b.reslen ≠ none
  unmoved : s.columnBindOffset = 0 → ∀ c b, s.columnBindings.find c = some b → b.byteOffset = 0
  reports : s.Reports

/-! ## Setting the pointer -/

section SetPointer

variable {s : OffsetStatement}

theorem addresses_addOffset (record : DescriptorRecord) (v : Int) :
    (record.addOffset v).addresses = record.addresses ↔ v = 0 := by
  constructor
  · intro h
    have hdata : record.dataPtr + v = record.dataPtr := congrArg Prod.fst h
    exact Int.add_left_cancel (hdata.trans (Int.add_zero _).symm)
  · rintro rfl
    simp [DescriptorRecord.addresses, DescriptorRecord.addOffset]

theorem setOffsetPtr_lawful_iff (h : s.Settled) (ptr : Addr) :
    Lawful (some s) (.setOffsetPtr ptr) ↔ Meets (some s) (.setOffsetPtr ptr) := by
  simp only [Lawful, Meets, Option.some.injEq, exists_eq_left', setOffsetPtr]
  by_cases hptr : ptr = 0
  · simp [hptr]
  simp only [hptr, if_false, Option.some.injEq, exists_eq_left', ne_eq, not_false_eq_true,
    true_and]
  have hrecord : ∀ n, (({ s.ard with
      header := { s.ard.header with bindOffsetPtr := ptr }
      records := fun n => (s.ard.records n).map (·.addOffset (s.memory ptr)) } :
        Descriptor).record n) =
      if s.ard.records n = none then {} else (s.ard.record n).addOffset (s.memory ptr) := by
    intro n
    simp only [Descriptor.record]
    cases s.ard.records n <;> rfl
  constructor
  · intro h'
    by_contra hno
    obtain ⟨hzero, hsome⟩ := not_or.mp hno
    obtain ⟨n, hn⟩ := not_forall.mp hsome
    have hnew := h' n
    rw [hrecord, if_neg hn, ← h.reports n] at hnew
    exact hzero ((addresses_addOffset _ _).mp hnew)
  · intro hmeets n
    rw [hrecord, ← h.reports n]
    by_cases hn : s.ard.records n = none
    · rw [if_pos hn, Descriptor.record, hn]
      rfl
    · rw [if_neg hn]
      rcases hmeets with hzero | hnone
      · exact (addresses_addOffset _ _).mpr hzero
      · exact absurd (hnone n) hn

end SetPointer

/-! ## Fetching -/

section Fetching

variable {s : OffsetStatement}

theorem toInteger_eq_iff {v : Int} : toInteger v = v ↔ -2147483648 ≤ v ∧ v < 2147483648 := by
  unfold toInteger
  rw [Int.bmod_def]
  split <;> omega

/-- The offset of a buffer in a fetch. -/
def usedOffset (s : OffsetStatement) (b : ApplicationDataBuffer) : Int :=
  if s.columnBindOffset = 0 then b.byteOffset else toInteger (s.memory s.columnBindOffset)

theorem find_offsetBindings (c : Nat) :
    s.statement.offsetBindings.find c =
      (s.columnBindings.find c).map fun b => b.setByteOffset (s.usedOffset b) := by
  unfold Statement.offsetBindings usedOffset statement
  by_cases h : s.columnBindOffset = 0
  · simp only [h, if_true]
    cases s.columnBindings.find c <;> rfl
  · simp only [h, if_false]
    exact ColumnBindingMap.find_mapBuffers _ _ _

theorem map_add_eq_iff {p : Option Addr} (hp : p ≠ none) {x y : Int} :
    p.map (· + x) = p.map (· + y) ↔ x = y := by
  obtain ⟨a, rfl⟩ := Option.ne_none_iff_exists'.mp hp
  simp

/-- A buffer is used with the offset it gets. -/
theorem fetchesAt_iff (h : s.Settled) :
    s.FetchesAt ↔ ∀ c b, s.columnBindings.find c = some b → s.usedOffset b = s.offset := by
  refine forall₃_congr fun c b hb => ?_
  simp only [ColumnBindingMap.find_slot, find_offsetBindings, hb, Option.map_some,
    Option.some.injEq, exists_eq_left']
  constructor
  · intro h'
    obtain ⟨hdata, hres⟩ := h' 0
    rcases h.bound c b hb with hp | hp
    · have := (map_add_eq_iff hp).mp hdata
      simpa [ApplicationDataBuffer.setByteOffset, ApplicationDataBuffer.setElementOffset] using this
    · have := (map_add_eq_iff hp).mp hres
      simpa [ApplicationDataBuffer.setByteOffset, ApplicationDataBuffer.setElementOffset] using this
  · intro hsame i
    rw [hsame]
    exact ⟨rfl, rfl⟩

theorem fetch_lawful_iff (h : s.Settled) : Lawful (some s) .fetch ↔ Meets (some s) .fetch := by
  simp only [Lawful, Meets, Option.some.injEq, exists_eq_left', fetchesAt_iff h]
  by_cases hptr : s.columnBindOffset = 0
  · refine iff_of_true (fun c b hb => ?_) (.inl hptr)
    rw [usedOffset, offset, if_pos hptr, if_pos hptr]
    exact h.unmoved hptr c b hb
  · have hused : ∀ b, s.usedOffset b = s.offset ↔
        -2147483648 ≤ s.offset ∧ s.offset < 2147483648 := by
      intro b
      rw [usedOffset, offset, if_neg hptr, if_neg hptr]
      exact toInteger_eq_iff
    simp only [hused, hptr, false_or]
    constructor
    · intro h'
      by_cases hnone : ∀ c, s.columnBindings.find c = none
      · exact .inl hnone
      · obtain ⟨c, hc⟩ := not_forall.mp hnone
        obtain ⟨b, hb⟩ := Option.ne_none_iff_exists'.mp hc
        exact .inr (h' c b hb)
    · rintro (hnone | hfits) c b hb
      · rw [hnone c] at hb
        cases hb
      · exact hfits

/-- A fetch moves the buffers and keeps what they are bound to. -/
theorem find_lastBindings (c : Nat) :
    ∃ element : Option Nat, s.statement.lastBindings.find c = (s.columnBindings.find c).map fun b =>
      { b with byteOffset := s.usedOffset b, elementOffset := element.getD b.elementOffset } := by
  unfold Statement.lastBindings
  split
  · refine ⟨none, ?_⟩
    rw [find_offsetBindings]
    rfl
  · refine ⟨some (s.statement.rowArraySize - 1), ?_⟩
    rw [ColumnBindingMap.find_slot, find_offsetBindings, Option.map_map]
    rfl

theorem Settled.fetch (h : s.Settled) : s.fetch.Settled := by
  have hfind : ∀ c b', s.fetch.columnBindings.find c = some b' →
      ∃ b, s.columnBindings.find c = some b ∧ b'.buffer = b.buffer ∧ b'.reslen = b.reslen ∧
        b'.byteOffset = s.usedOffset b := by
    intro c b' hb'
    obtain ⟨element, hlast⟩ := find_lastBindings (s := s) c
    obtain ⟨b, hb, rfl⟩ := Option.map_eq_some_iff.mp (hlast.symm.trans hb')
    exact ⟨b, hb, rfl, rfl, rfl⟩
  refine ⟨fun c b' hb' => ?_, fun hptr c b' hb' => ?_, fun c => ?_⟩
  · obtain ⟨b, hb, hbuffer, hres, _⟩ := hfind c b' hb'
    rw [hbuffer, hres]
    exact h.bound c b hb
  · obtain ⟨b, hb, _, _, hbyte⟩ := hfind c b' hb'
    have hptr' : s.columnBindOffset = 0 := hptr
    rw [hbyte, usedOffset, if_pos hptr']
    exact h.unmoved hptr c b hb
  · have hcolumn : (s.fetch.columnBindings.column c).map (·.addresses) =
        (s.columnBindings.column c).map (·.addresses) := by
      unfold ColumnBindingMap.column
      split
      · obtain ⟨element, hlast⟩ := find_lastBindings (s := s) c.toNat
        have hfetch : s.fetch.columnBindings.find c.toNat = _ := hlast
        rw [hfetch, Option.map_map]
        rfl
      · rfl
    rw [hcolumn]
    exact h.reports c

end Fetching

/-! ## Runs -/

theorem call_lawful_iff {s : OffsetStatement} (h : s.Settled) (c : OffsetCall) :
    Lawful (some s) c ↔ Meets (some s) c := by
  cases c with
  | setOffsetPtr ptr => exact setOffsetPtr_lawful_iff h ptr
  | write ptr value => simp [Lawful, Meets]
  | fetch => exact fetch_lawful_iff h

/-- A call that meets the law leaves a statement that is settled. -/
theorem Settled.apply {s : OffsetStatement} (h : s.Settled) {c : OffsetCall}
    (hlaw : Lawful (some s) c) : ∃ s', OffsetStatement.apply (some s) c = some s' ∧ s'.Settled := by
  obtain ⟨t, ht, hlaw⟩ := hlaw
  obtain rfl := Option.some.inj ht
  cases c with
  | setOffsetPtr ptr =>
    obtain ⟨s', hs', hreports⟩ := hlaw
    refine ⟨s', hs', ?_⟩
    have hset : s.setOffsetPtr ptr = some s' := hs'
    unfold setOffsetPtr at hset
    split at hset
    · cases hset
    · rename_i hptr
      obtain rfl := Option.some.inj hset
      exact ⟨h.bound, fun hzero => absurd hzero hptr, hreports⟩
  | write ptr value => exact ⟨_, rfl, h.bound, h.unmoved, h.reports⟩
  | fetch => exact ⟨_, rfl, h.fetch⟩

/-- The arguments of a call that binds a column. -/
abbrev Bind := { a : BindArgs // a.unbinds = false }

/-- A statement whose columns some calls have bound. -/
def bindAll (implicit : Bool) (header : DescriptorHeader) (binds : List Bind) : BoundStatement :=
  binds.foldl (fun s a => (s.internalBindColumn a.1).statement) (.unbound implicit header)

/-- Such a statement, without an offset pointer. -/
def start (implicit : Bool) (header : DescriptorHeader) (binds : List Bind)
    (rowArraySize : Fin 1001) (memory : Addr → Int) : OffsetStatement :=
  let s := bindAll implicit header binds
  { columnBindings := s.columnBindings, ard := s.ard, rowArraySize, memory }

/-- The bindings and the ARD of such a statement. -/
structure Fresh (s : BoundStatement) : Prop where
  buffers : ∀ c b, s.columnBindings.find c = some b →
    (b.buffer ≠ none ∨ b.reslen ≠ none) ∧ b.byteOffset = 0
  reports : ∀ c, (s.ard.record c).addresses =
    ((s.columnBindings.column c).map (·.addresses)).getD (0, 0, 0)

theorem getD_pointer (a : Addr) : (pointer a).getD 0 = a := by
  unfold pointer
  split
  · rename_i h
    exact h.symm
  · rfl

theorem Fresh.bind {s : BoundStatement} (h : Fresh s) (a : Bind) :
    Fresh (s.internalBindColumn a.1).statement := by
  simp only [BoundStatement.internalBindColumn]
  cases a.1.check with
  | some record => exact h
  | none =>
    simp only [a.2, Bool.false_eq_true, if_false, BoundStatement.safeBindColumn,
      Descriptor.setDescriptorFields]
    refine ⟨fun c b hb => ?_, fun c => ?_⟩
    · by_cases hc : c = a.1.columnIdx.toNat
      · rw [hc, ColumnBindingMap.find_insert_self] at hb
        obtain rfl := Option.some.inj hb
        refine ⟨?_, rfl⟩
        by_contra hno
        obtain ⟨hdata, hres⟩ := not_or.mp hno
        have hdata' := pointer_eq_none_iff.mp (not_not.mp hdata)
        have hres' := pointer_eq_none_iff.mp (not_not.mp hres)
        have hunbind := a.2
        simp [BindArgs.unbinds, hdata', hres'] at hunbind
      · rw [ColumnBindingMap.find_insert_of_ne _ hc] at hb
        exact h.buffers c b hb
    · rw [ColumnBindingMap.column_insert]
      by_cases hc : c = (a.1.columnIdx.toNat : Int)
      · rw [if_pos hc, hc, Descriptor.record_setRecord_self]
        simp [DescriptorRecord.addresses, DescriptorRecord.bind, ApplicationDataBuffer.addresses,
          BindArgs.dataBuffer, getD_pointer]
      · rw [if_neg hc, Descriptor.record_setRecord_of_ne _ _ _ hc]
        exact h.reports c

theorem fresh_bindAll (implicit : Bool) (header : DescriptorHeader) (binds : List Bind) :
    Fresh (bindAll implicit header binds) := by
  have hfold : ∀ s, Fresh s →
      Fresh (binds.foldl (fun s a => (s.internalBindColumn a.1).statement) s) := by
    induction binds with
    | nil => exact fun _ h => h
    | cons a binds ih => exact fun s h => ih _ (h.bind a)
  refine hfold _ ⟨fun c b hb => ?_, fun c => ?_⟩
  · cases hb
  · simp [BoundStatement.unbound, Descriptor.newArd, Descriptor.record, ColumnBindingMap.column,
      DescriptorRecord.addresses]

theorem start_settled (implicit : Bool) (header : DescriptorHeader) (binds : List Bind)
    (rowArraySize : Fin 1001) (memory : Addr → Int) :
    (start implicit header binds rowArraySize memory).Settled :=
  have h := fresh_bindAll implicit header binds
  ⟨fun c b hb => (h.buffers c b hb).1, fun _ c b hb => (h.buffers c b hb).2, h.reports⟩

/-- From columns that are bound, all calls follow the law of the offset exactly when each meets the
condition: no null pointer is set, none is set while its offset is not 0 and the ARD has records,
and no fetch of bound columns finds an offset that is no `int`. -/
theorem bindOffset_lawful_iff (implicit : Bool) (header : DescriptorHeader) (binds : List Bind)
    (rowArraySize : Fin 1001) (memory : Addr → Int) (calls : List OffsetCall) :
    Lts.Each apply Lawful (some (start implicit header binds rowArraySize memory)) calls ↔
      Lts.Each apply Meets (some (start implicit header binds rowArraySize memory)) calls := by
  refine Lts.each_iff (I := fun s => ∃ t, s = some t ∧ t.Settled) ?_ ?_
    ⟨_, rfl, start_settled implicit header binds rowArraySize memory⟩
  · rintro s c ⟨t, rfl, ht⟩ hmeets
    exact ht.apply ((call_lawful_iff ht c).mpr hmeets)
  · rintro s c ⟨t, rfl, ht⟩
    exact call_lawful_iff ht c

section Examples

theorem oneRow_lt : 1 < 1001 := by decide

/-- An integer column at 4096 with its indicator at 8192, and an offset of 16 at 64. -/
def integerColumn : OffsetStatement :=
  start true {} [⟨BoundStatement.bindInteger 4096 8192, rfl⟩] ⟨1, oneRow_lt⟩ fun _ => 16

/-- Setting the pointer moves the data address in the ARD by 16 and the indicator by 128, and
resetting it to null is a null pointer dereferenced. -/
theorem offsetPtr_moves :
    ¬ Lts.Each apply Lawful (some integerColumn) [.setOffsetPtr 64] ∧
      ¬ Lts.Each apply Lawful (some integerColumn) [.setOffsetPtr 0] := by
  constructor
  · rintro ⟨⟨t, ht, t', ht', hreports⟩, _⟩
    obtain rfl := Option.some.inj ht
    obtain rfl := Option.some.inj ht'
    exact absurd (hreports 1) (by decide)
  · rintro ⟨⟨t, ht, t', ht', _⟩, _⟩
    cases ht'

end Examples

end OffsetStatement

end TrinoOdbc
