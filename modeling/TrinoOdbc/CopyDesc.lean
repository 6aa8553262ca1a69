import TrinoOdbc.Binding

/-!
# TrinoOdbc.CopyDesc

Descriptors in memory, and `CopyDesc` between two of them or of one to itself.

`internalCopyDesc_eq` says what the steps of the function come to, and `copies_iff` when this is a
copy.
-/

namespace TrinoOdbc

/-- An implicit descriptor of a statement, or one that the application has allocated. -/
inductive DescRef where
  | implicit (stmt : Nat) (type : DescType)
  | explicit (desc : Nat)
  deriving DecidableEq

abbrev DescHeap := DescRef → Descriptor

namespace Descriptor

/-- The application descriptors. -/
def isApp (type : DescType) : Bool := type = .ard || type = .apd

/-- An implicit descriptor, as the constructor of a statement leaves it. -/
def newImplicit (stmt : Nat) (type : DescType) (header : DescriptorHeader) : Descriptor :=
  { type, stmt := some stmt
    header := if isApp type then header.initAppHead true else header.initImpHead }

/-- A descriptor of `InternalCreateDescriptor`. -/
def newExplicit (conn : Nat) (header : DescriptorHeader) : Descriptor :=
  { conn := some conn, header := header.initAppHead false }

end Descriptor

def modifyIrd : DiagnosticRecord :=
  { sqlState := .shy016ModifyIrd, message := "Cannot modify an implementation row descriptor" }

structure CopyOutcome where
  result : SqlResult
  diag : List DiagnosticRecord
  heap : DescHeap

namespace DescHeap

def modify (heap : DescHeap) (ref : DescRef) (f : Descriptor → Descriptor) : DescHeap :=
  Function.update heap ref (f (heap ref))

/-- Each step reads the source anew, which may be the destination. -/
def internalCopyDesc (heap : DescHeap) (src dst : DescRef) : CopyOutcome :=
  if (heap dst).type = .ird then { result := .error, diag := [modifyIrd], heap }
  else
    let heap := heap.modify dst fun d => { d with header := {} }
    let heap := heap.modify dst fun d => { d with records := fun _ => none }
    let heap := heap.modify dst fun d =>
      { d with
        header :=
          if Descriptor.isApp (heap src).type then d.header.initAppHead true
          else d.header.initImpHead }
    let heap := heap.modify dst fun d => { d with type := (heap src).type }
    let heap := heap.modify dst fun d => { d with conn := (heap src).conn }
    let heap := heap.modify dst fun d => { d with stmt := (heap src).stmt }
    let heap := heap.modify dst fun d => { d with records := (heap src).records }
    { result := .success, diag := [], heap }

end DescHeap

/-- The header that a copy of a descriptor gets. -/
def DescType.copyHeader (type : DescType) : DescriptorHeader :=
  if Descriptor.isApp type then ({} : DescriptorHeader).initAppHead true
  else ({} : DescriptorHeader).initImpHead

namespace DescHeap

/-- What the destination becomes. -/
def copied (heap : DescHeap) (src dst : DescRef) : Descriptor :=
  { type := (heap src).type, conn := (heap src).conn, stmt := (heap src).stmt
    header := (heap src).type.copyHeader
    records := if src = dst then fun _ => none else (heap src).records }

/-- The destination is the only descriptor that changes. -/
theorem internalCopyDesc_eq {heap : DescHeap} {src dst : DescRef} (h : (heap dst).type ≠ .ird) :
    (heap.internalCopyDesc src dst).heap = Function.update heap dst (heap.copied src dst) := by
  unfold internalCopyDesc
  rw [if_neg h]
  by_cases hself : src = dst
  · subst hself
    simp [modify, copied, DescType.copyHeader]
  · simp [modify, copied, DescType.copyHeader, hself]

/-! ## Copying -/

/-- What `CopyDesc` is for: the destination gets the fields that can be read on the source; it keeps
how it was allocated and what it belongs to; the source stays as it is. -/
structure Copies (heap heap' : DescHeap) (src dst : DescRef) : Prop where
  fields : ∀ recNum field v, field ≠ .allocType → (heap src).getField recNum field = .ok v →
    (heap' dst).getField recNum field = .ok v
  allocType : (heap' dst).header.allocType = (heap dst).header.allocType
  source : heap' src = heap src
  conn : (heap' dst).conn = (heap dst).conn
  stmt : (heap' dst).stmt = (heap dst).stmt

/-- The header fields that can be read hold what a new header holds. -/
structure NewHeader (d : Descriptor) : Prop where
  arrayStatusPtr : d.header.arrayStatusPtr = 0
  count : d.header.count = 0
  app : Descriptor.isApp d.type → d.header.arraySize = 1 ∧ d.header.bindOffsetPtr = 0 ∧
    d.header.bindType = DescriptorHeader.bindByColumn
  imp : d.type = .ird ∨ d.type = .ipd → d.header.rowsProcessedPtr = 0

/-- The descriptors that `CopyDesc` copies: the readable header fields of the source are those of a
new header, and the destination is of the same connection and statement and allocated
automatically; or the two are one that is new. -/
def CanCopy (heap : DescHeap) (src dst : DescRef) : Prop :=
  if src = dst then
    (heap src).header = (heap src).type.copyHeader ∧ (heap src).records = fun _ => none
  else
    NewHeader (heap src) ∧ (heap dst).header.allocType = DescriptorHeader.allocAuto ∧
      (heap dst).conn = (heap src).conn ∧ (heap dst).stmt = (heap src).stmt

theorem isAllowed_app {type : DescType} (h : Descriptor.isApp type = true) :
    DescField.isAllowed .arraySize type = true ∧ DescField.isAllowed .bindOffsetPtr type = true ∧
      DescField.isAllowed .bindType type = true := by
  revert h
  cases type <;> decide

theorem isAllowed_rowsProcessed {type : DescType} :
    DescField.isAllowed .rowsProcessedPtr type = true ↔ type = .ird ∨ type = .ipd := by
  cases type <;> decide

theorem not_isApp {type : DescType} (h : DescField.isAllowed .arraySize type = true) :
    Descriptor.isApp type = true := by
  revert h
  cases type <;> decide

theorem copyHeader_allocType (type : DescType) :
    type.copyHeader.allocType = DescriptorHeader.allocAuto := by
  cases type <;> rfl

theorem getField_ok_iff {d : Descriptor} {recNum v : Int} {field : DescField} :
    d.getField recNum field = .ok v ↔
      field.isAllowed d.type = true ∧ field.value d.header (d.record recNum) = some v := by
  unfold Descriptor.getField
  by_cases h : field.isAllowed d.type = true
  · rw [if_pos h]
    cases hv : field.value d.header (d.record recNum) <;> simp [h]
  · simp [h]

/-- With the records of another descriptor and a new header all fields but the allocation type are
the same exactly when its header is new. -/
theorem fields_iff {s d : Descriptor} (htype : d.type = s.type) (hrecords : d.records = s.records)
    (hheader : d.header = s.type.copyHeader) :
    (∀ recNum field v, field ≠ .allocType → s.getField recNum field = .ok v →
      d.getField recNum field = .ok v) ↔ NewHeader s := by
  have hrecord : ∀ recNum, d.record recNum = s.record recNum := by
    intro recNum
    rw [Descriptor.record, hrecords, Descriptor.record]
  simp only [getField_ok_iff, htype, hrecord, hheader]
  constructor
  · intro h
    have hval : ∀ field : DescField, field ≠ .allocType → field.isAllowed s.type = true →
        ∀ v, field.value s.header (s.record 0) = some v →
          field.value s.type.copyHeader (s.record 0) = some v :=
      fun field hne hallowed v hv => (h 0 field v hne ⟨hallowed, hv⟩).2
    refine ⟨?_, ?_, fun happ => ?_, fun himp => ?_⟩
    · have := hval .arrayStatusPtr (by decide) rfl _ rfl
      revert this
      unfold DescType.copyHeader
      split <;> exact fun h => (Option.some.inj h).symm
    · have := hval .count (by decide) rfl _ rfl
      revert this
      unfold DescType.copyHeader
      split <;> exact fun h => (Option.some.inj h).symm
    · obtain ⟨hsize, hoffset, hbind⟩ := isAllowed_app happ
      have h₁ := hval .arraySize (by decide) hsize _ rfl
      have h₂ := hval .bindOffsetPtr (by decide) hoffset _ rfl
      have h₃ := hval .bindType (by decide) hbind _ rfl
      rw [DescType.copyHeader, if_pos happ] at h₁ h₂ h₃
      exact ⟨(Option.some.inj h₁).symm, (Option.some.inj h₂).symm, (Option.some.inj h₃).symm⟩
    · have h₁ := hval .rowsProcessedPtr (by decide) (isAllowed_rowsProcessed.mpr himp) _ rfl
      rcases himp with himp | himp <;> rw [himp] at h₁ <;> exact (Option.some.inj h₁).symm
  · rintro ⟨hstatus, hcount, happ, himp⟩ recNum field v hne ⟨hallowed, hv⟩
    refine ⟨hallowed, ?_⟩
    rw [← hv]
    cases field with
    | allocType => exact absurd rfl hne
    | arrayStatusPtr =>
      rw [DescField.value, DescField.value, hstatus, DescType.copyHeader]
      split <;> rfl
    | count =>
      rw [DescField.value, DescField.value, hcount, DescType.copyHeader]
      split <;> rfl
    | arraySize =>
      have h := not_isApp hallowed
      rw [DescField.value, DescField.value, (happ h).1, DescType.copyHeader, if_pos h]
      rfl
    | bindOffsetPtr =>
      have h := not_isApp hallowed
      rw [DescField.value, DescField.value, (happ h).2.1, DescType.copyHeader, if_pos h]
      rfl
    | bindType =>
      have h := not_isApp hallowed
      rw [DescField.value, DescField.value, (happ h).2.2, DescType.copyHeader, if_pos h]
      rfl
    | rowsProcessedPtr =>
      have h := isAllowed_rowsProcessed.mp hallowed
      rw [DescField.value, DescField.value, himp h]
      rcases h with h | h <;> rw [h] <;> rfl
    | _ => rfl

/-- `CopyDesc` copies exactly the descriptors of `CanCopy`. -/
theorem copies_iff {heap : DescHeap} {src dst : DescRef} (h : (heap dst).type ≠ .ird) :
    Copies heap (heap.internalCopyDesc src dst).heap src dst ↔ CanCopy heap src dst := by
  rw [internalCopyDesc_eq h]
  unfold CanCopy
  by_cases hself : src = dst
  · subst hself
    rw [if_pos rfl]
    have hcopied : heap.copied src src =
        { heap src with header := (heap src).type.copyHeader, records := fun _ => none } := by
      simp [copied]
    constructor
    · intro h'
      have hsource := h'.source
      rw [Function.update_self, hcopied] at hsource
      exact ⟨(congrArg Descriptor.header hsource).symm, (congrArg Descriptor.records hsource).symm⟩
    · rintro ⟨hheader, hrecords⟩
      have hsame : Function.update heap src (heap.copied src src) = heap := by
        rw [hcopied, ← hheader, ← hrecords]
        exact Function.update_eq_self src heap
      rw [hsame]
      exact ⟨fun _ _ _ _ hv => hv, rfl, rfl, rfl, rfl⟩
  · rw [if_neg hself]
    have hrecords : (heap.copied src dst).records = (heap src).records := if_neg hself
    have hfields := fields_iff (s := heap src) (d := heap.copied src dst) rfl hrecords rfl
    have halloc : (heap.copied src dst).header.allocType = DescriptorHeader.allocAuto :=
      copyHeader_allocType _
    constructor
    · intro h'
      have hdst := Function.update_self dst (heap.copied src dst) heap
      refine ⟨hfields.mp fun recNum field v hne hv => ?_, ?_, ?_, ?_⟩
      · rw [← hdst]
        exact h'.fields recNum field v hne hv
      · rw [← halloc, ← h'.allocType, hdst]
      · rw [← h'.conn, hdst]
        rfl
      · rw [← h'.stmt, hdst]
        rfl
    · rintro ⟨hnew, hauto, hconn, hstmt⟩
      refine ⟨fun recNum field v hne hv => ?_, ?_, ?_, ?_, ?_⟩
      · rw [Function.update_self]
        exact hfields.mpr hnew recNum field v hne hv
      · rw [Function.update_self, halloc, hauto]
      · rw [Function.update_of_ne hself]
      · rw [Function.update_self, hconn]
        rfl
      · rw [Function.update_self, hstmt]
        rfl

section Examples

/-- New descriptors, but for the implicit ARD of the first statement. -/
def withArd (ard : Descriptor) : DescHeap
  | .implicit stmt type =>
    if stmt = 0 ∧ type = .ard then ard else Descriptor.newImplicit stmt type {}
  | .explicit _ => Descriptor.newExplicit 0 {}

/-- The ARD with an indicator in its first record. -/
def indicatorArd : Descriptor :=
  ((Descriptor.newImplicit 0 .ard {}).internalSetField 1 .indicatorPtr 8192 0).desc

/-- The ARD with its first column bound. -/
def boundArd : Descriptor :=
  (BoundStatement.internalBindColumn { ard := Descriptor.newImplicit 0 .ard {} }
    (BoundStatement.bindInteger 4096 8192)).statement.ard

/-- Records alone are copied within a statement. -/
theorem copies_records :
    Copies (withArd indicatorArd)
      ((withArd indicatorArd).internalCopyDesc (.implicit 0 .ard) (.implicit 0 .apd)).heap
      (.implicit 0 .ard) (.implicit 0 .apd) :=
  (copies_iff (by decide)).mpr ⟨⟨rfl, rfl, fun _ => ⟨rfl, rfl, rfl⟩, fun _ => rfl⟩, rfl, rfl, rfl⟩

/-- The count of a bound ARD is not copied, and a copy to itself loses it. -/
theorem copy_losesCount :
    ¬ Copies (withArd boundArd)
        ((withArd boundArd).internalCopyDesc (.implicit 0 .ard) (.explicit 0)).heap
        (.implicit 0 .ard) (.explicit 0) ∧
      ¬ Copies (withArd boundArd)
        ((withArd boundArd).internalCopyDesc (.implicit 0 .ard) (.implicit 0 .ard)).heap
        (.implicit 0 .ard) (.implicit 0 .ard) := by
  have hsource : (withArd boundArd (.implicit 0 .ard)).getField 0 .count = .ok 1 :=
    getField_ok_iff.mpr ⟨by decide, by decide⟩
  constructor
  · intro h
    have hcount := h.fields 0 .count 1 (by decide) hsource
    exact absurd (getField_ok_iff.mp hcount).2 (by decide)
  · intro h
    have hcount := h.fields 0 .count 1 (by decide) hsource
    exact absurd (getField_ok_iff.mp hcount).2 (by decide)

end Examples

end DescHeap

end TrinoOdbc
