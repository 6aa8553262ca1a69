import TrinoOdbc.Binding
import Mathlib.Tactic.Tauto
import Mathlib.Tactic.SplitIfs

/-!
# TrinoOdbc.RecordTypes

A record has a type, a concise type and an interval code. The calls that set one of them and the
calls that bind the column each derive the others in their own way.

`types_agree_iff` says which calls keep them in agreement: all but a change of the code alone, a
change between `SQL_DATETIME` and `SQL_INTERVAL` with a code that is set, and binding a column to a
plain type while its code is set.
-/

namespace TrinoOdbc

open SqlCode

/-- The concise type of a verbose type and a code that belongs to it. -/
def conciseOf (type code : Int) : Option Int :=
  if type = datetime then
    if code = codeDate then some SqlType.typeDate.code
    else if code = codeTime then some SqlType.typeTime.code
    else if code = codeTimestamp then some SqlType.typeTimestamp.code
    else none
  else if type = interval then
    if code = codeYearToMonth then some SqlType.intervalYearToMonth.code
    else if code = codeDayToSecond then some SqlType.intervalDayToSecond.code
    else none
  else none

def isVerbose (type : Int) : Prop := type = datetime ∨ type = interval

instance (type : Int) : Decidable (isVerbose type) := by
  unfold isVerbose
  infer_instance

namespace DescriptorRecord

/-- The three fields agree. A code that is not set is 0. -/
structure Agrees (record : DescriptorRecord) : Prop where
  verbose : isVerbose record.type → record.datetimeIntervalCode ≠ 0 →
    conciseOf record.type record.datetimeIntervalCode = some record.conciseType
  plain : ¬ isVerbose record.type →
    record.conciseType = record.type ∧ record.datetimeIntervalCode = 0

end DescriptorRecord

/-- The field of a `SetField` call about types. -/
inductive TypeField where
  | type | conciseType | datetimeIntervalCode

def TypeField.descField : TypeField → DescField
  | .type => .type
  | .conciseType => .conciseType
  | .datetimeIntervalCode => .datetimeIntervalCode

inductive TypeCall where
  | setField (recNum : Int) (field : TypeField) (buffer : Addr) (bufferLen : Int)
  | bindColumn (a : BindArgs)

namespace DescriptorRecord

/-- The values of a field that keep the record in agreement. A type may be set to `SQL_DATETIME` or
`SQL_INTERVAL` when it is that already or no code is set, and a code when the concise type is the
one that goes with it. -/
def KeepsAgreement (record : DescriptorRecord) (value : Int) : TypeField → Prop
  | .type => isVerbose value → record.type = value ∨ record.datetimeIntervalCode = 0
  | .conciseType => True
  | .datetimeIntervalCode => conciseOf record.type value = some record.conciseType

/-- A target type that has a code of its own. -/
def hasCode (targetType : Int) : Prop :=
  targetType = SqlType.typeDate.code ∨ targetType = SqlType.typeTime.code ∨
    targetType = SqlType.typeTimestamp.code ∨ targetType = SqlType.intervalYearToMonth.code ∨
    targetType = SqlType.intervalDayToSecond.code

end DescriptorRecord

namespace BoundStatement

def typeCall (s : BoundStatement) : TypeCall → BoundStatement
  | .setField recNum field buffer bufferLen =>
    (s.setArdField recNum field.descField buffer bufferLen).statement
  | .bindColumn a => (s.internalBindColumn a).statement

/-- All records of the ARD agree. -/
def TypesAgree (s : BoundStatement) : Prop := ∀ n, (s.ard.record n).Agrees

/-- The calls that keep the records in agreement. Calls that fail do. -/
def KeepsTypes (s : BoundStatement) : TypeCall → Prop
  | .setField recNum field buffer bufferLen =>
    (s.ard.internalSetField recNum field.descField buffer bufferLen).result = .success →
      (s.ard.record recNum).KeepsAgreement (toSmallInt buffer) field
  | .bindColumn a => a.check = none → a.unbinds = false → ¬ DescriptorRecord.hasCode a.targetType →
      (s.ard.record a.columnIdx.toNat).datetimeIntervalCode = 0

end BoundStatement

/-! ## One record -/

section Codes

theorem conciseOf_none {type code : Int} (h : ¬ isVerbose type) : conciseOf type code = none := by
  simp only [isVerbose, not_or] at h
  simp [conciseOf, h.1, h.2]

theorem conciseOf_datetime_le {code : Int} (h : conciseOf datetime code ≠ none) : code ≤ 3 := by
  by_contra hlt
  have h₁ : code ≠ codeDate := by unfold codeDate; omega
  have h₂ : code ≠ codeTime := by unfold codeTime; omega
  have h₃ : code ≠ codeTimestamp := by unfold codeTimestamp; omega
  exact h (by simp [conciseOf, h₁, h₂, h₃])

theorem le_conciseOf_interval {code : Int} (h : conciseOf interval code ≠ none) : 7 ≤ code := by
  by_contra hlt
  have h₁ : code ≠ codeYearToMonth := by unfold codeYearToMonth; omega
  have h₂ : code ≠ codeDayToSecond := by unfold codeDayToSecond; omega
  have hne : interval ≠ datetime := by decide
  exact h (by simp [conciseOf, hne, h₁, h₂])

/-- A code belongs to one verbose type. -/
theorem conciseOf_other {t u code : Int} (hne : t ≠ u)
    (h : conciseOf t code ≠ none) : conciseOf u code = none := by
  by_contra hu
  have ht : isVerbose t := by_contra fun hno => h (conciseOf_none hno)
  have hu' : isVerbose u := by_contra fun hno => hu (conciseOf_none hno)
  rcases ht with rfl | rfl <;> rcases hu' with rfl | rfl
  · exact hne rfl
  · have := conciseOf_datetime_le h
    have := le_conciseOf_interval hu
    omega
  · have := conciseOf_datetime_le hu
    have := le_conciseOf_interval h
    omega
  · exact hne rfl

theorem hasCode_of_conciseOf {type code concise : Int} (h : conciseOf type code = some concise) :
    DescriptorRecord.hasCode concise := by
  unfold conciseOf at h
  unfold DescriptorRecord.hasCode
  split_ifs at h <;> obtain rfl := Option.some.inj h <;> tauto

end Codes

namespace DescriptorRecord

section Agreement

variable {record : DescriptorRecord}

theorem setConciseType_agrees (value : Int) (hvalid : isValidConciseType value = true) :
    (record.setConciseType value).Agrees := by
  have hplain : ¬ isVerbose value := by
    rintro (rfl | rfl) <;> exact absurd hvalid (by decide)
  unfold setConciseType
  simp only
  split
  · rename_i hdate
    refine ⟨fun _ _ => ?_, fun hno => absurd (.inl rfl) hno⟩
    rcases hdate with rfl | rfl | rfl <;> rfl
  · split
    · rename_i hinterval
      refine ⟨fun _ _ => ?_, fun hno => absurd (.inr rfl) hno⟩
      rcases hinterval with rfl | rfl <;> rfl
    · exact ⟨fun hverbose => absurd hverbose hplain, fun _ => ⟨rfl, rfl⟩⟩

theorem setDescType_agrees_iff (h : record.Agrees) (value : Int) :
    (record.setDescType value).Agrees ↔ record.KeepsAgreement value .type := by
  by_cases hverbose : isVerbose value
  · have hno : ¬ (value ≠ datetime ∧ value ≠ interval) := by
      rintro ⟨h₁, h₂⟩
      exact hverbose.elim h₁ h₂
    have hset : (record.setDescType value).Agrees ↔
        (record.datetimeIntervalCode ≠ 0 →
          conciseOf value record.datetimeIntervalCode = some record.conciseType) := by
      constructor
      · intro h'
        have := h'.verbose
        simpa [setDescType, if_neg hno, hverbose] using this
      · intro h'
        refine ⟨fun _ => ?_, fun hplain => absurd hverbose hplain⟩
        simpa [setDescType, if_neg hno] using h'
    rw [hset]
    simp only [KeepsAgreement, hverbose, forall_const]
    constructor
    · intro h'
      by_contra hne
      obtain ⟨htype, hcode⟩ := not_or.mp hne
      have hold : isVerbose record.type := by_contra fun hplain => hcode (h.plain hplain).2
      have hmine := h.verbose hold hcode
      have hother := conciseOf_other htype (by rw [hmine]; nofun)
      rw [h' hcode] at hother
      cases hother
    · rintro (rfl | hzero) hcode
      · exact h.verbose hverbose hcode
      · exact absurd hzero hcode
  · have hyes : value ≠ datetime ∧ value ≠ interval := not_or.mp hverbose
    refine iff_of_true ⟨fun hv => absurd hv hverbose, fun _ => ?_⟩ fun hv => absurd hv hverbose
    simp [setDescType, hyes]

theorem setCode_agrees_iff {value : Int} (hvalid : record.isValidIntervalCode value = true) :
    ({ record with datetimeIntervalCode := value } : DescriptorRecord).Agrees ↔
      record.KeepsAgreement value .datetimeIntervalCode := by
  have hverbose : isVerbose record.type ∧ value ≠ 0 := by
    unfold isValidIntervalCode at hvalid
    split at hvalid
    · rename_i htype
      refine ⟨.inl htype, ?_⟩
      rintro rfl
      exact absurd hvalid (by decide)
    · split at hvalid
      · rename_i htype
        refine ⟨.inr htype, ?_⟩
        rintro rfl
        exact absurd hvalid (by decide)
      · cases hvalid
  constructor
  · intro h
    exact h.verbose hverbose.1 hverbose.2
  · intro h
    exact ⟨fun _ _ => h, fun hplain => absurd hverbose.1 hplain⟩

theorem bind_agrees_iff (a : BindArgs) :
    (record.bind a).Agrees ↔ (¬ hasCode a.targetType → record.datetimeIntervalCode = 0) := by
  have hfields : (record.bind a).Agrees ↔ (record.setTargetType a.targetType).Agrees :=
    ⟨fun h => ⟨h.verbose, h.plain⟩, fun h => ⟨h.verbose, h.plain⟩⟩
  rw [hfields]
  unfold setTargetType
  split
  · rename_i hdate
    refine iff_of_true ⟨fun _ _ => ?_, fun hno => absurd (.inl rfl) hno⟩ fun hno => ?_
    · rcases hdate with h | h | h <;> rw [h] <;> rfl
    · exact absurd (by unfold hasCode; tauto) hno
  · split
    · rename_i hinterval
      refine iff_of_true ⟨fun _ _ => ?_, fun hno => absurd (.inr rfl) hno⟩ fun hno => ?_
      · rcases hinterval with h | h <;> rw [h] <;> rfl
      · exact absurd (by unfold hasCode; tauto) hno
    · rename_i hdate hinterval
      have hno : ¬ hasCode a.targetType := by unfold hasCode; tauto
      simp only [hno, not_false_eq_true, forall_const]
      constructor
      · intro h'
        by_cases hverbose : isVerbose a.targetType
        · by_contra hcode
          exact hno (hasCode_of_conciseOf (h'.verbose hverbose hcode))
        · exact (h'.plain hverbose).2
      · intro hzero
        exact ⟨fun _ hcode => absurd hzero hcode, fun _ => ⟨rfl, hzero⟩⟩

end Agreement

end DescriptorRecord

/-! ## Calls -/

/-- A field call fails and is not seen, or it replaces one record. -/
theorem Descriptor.internalSetField_cases (d : Descriptor) (recNum : Int) (field : DescField)
    (buffer : Addr) (bufferLen : Int) :
    ((d.internalSetField recNum field buffer bufferLen).result = .error ∧
      ∀ n, (d.internalSetField recNum field buffer bufferLen).desc.record n = d.record n) ∨
    ∃ r, (d.record recNum).setField field buffer bufferLen = .ok r ∧
      (d.internalSetField recNum field buffer bufferLen).result = .success ∧
      (d.internalSetField recNum field buffer bufferLen).desc = d.setRecord recNum r := by
  unfold Descriptor.internalSetField
  split
  · exact .inl ⟨rfl, fun _ => rfl⟩
  · cases hset : (d.record recNum).setField field buffer bufferLen with
    | error record => exact .inl ⟨rfl, fun n => Descriptor.record_setRecord_record d recNum n⟩
    | ok r => exact .inr ⟨r, rfl, rfl, rfl⟩

namespace DescriptorRecord

/-- A type field that is set. -/
theorem setField_agrees_iff {record r : DescriptorRecord} (h : record.Agrees) {field : TypeField}
    {buffer : Addr} {bufferLen : Int}
    (hset : record.setField field.descField buffer bufferLen = .ok r) :
    r.Agrees ↔ record.KeepsAgreement (toSmallInt buffer) field := by
  cases field with
  | type =>
    simp only [TypeField.descField, setField] at hset
    split at hset
    · obtain rfl := Except.ok.inj hset
      exact setDescType_agrees_iff h _
    · cases hset
  | conciseType =>
    simp only [TypeField.descField, setField] at hset
    split at hset
    · rename_i hvalid
      obtain rfl := Except.ok.inj hset
      exact iff_of_true (setConciseType_agrees _ hvalid) trivial
    · cases hset
  | datetimeIntervalCode =>
    simp only [TypeField.descField, setField] at hset
    split at hset
    · rename_i hvalid
      obtain rfl := Except.ok.inj hset
      exact setCode_agrees_iff hvalid
    · cases hset

end DescriptorRecord

namespace BoundStatement

variable {s : BoundStatement}

/-- A new record among records that agree. -/
theorem setRecord_agree_iff {d : Descriptor} (h : ∀ n, (d.record n).Agrees) (recNum : Int)
    (r : DescriptorRecord) : (∀ n, ((d.setRecord recNum r).record n).Agrees) ↔ r.Agrees := by
  constructor
  · intro h'
    have := h' recNum
    rwa [Descriptor.record_setRecord_self] at this
  · intro hr n
    by_cases hn : n = recNum
    · rw [hn, Descriptor.record_setRecord_self]
      exact hr
    · rw [Descriptor.record_setRecord_of_ne _ _ _ hn]
      exact h n

theorem typeCall_agree_iff (h : s.TypesAgree) (call : TypeCall) :
    (s.typeCall call).TypesAgree ↔ s.KeepsTypes call := by
  cases call with
  | setField recNum field buffer bufferLen =>
    simp only [typeCall, TypesAgree, setArdField, KeepsTypes]
    rcases s.ard.internalSetField_cases recNum field.descField buffer bufferLen with
      ⟨hresult, hsame⟩ | ⟨r, hset, hresult, hdesc⟩
    · refine iff_of_true (fun n => by rw [hsame]; exact h n) fun hsuccess => ?_
      rw [hresult] at hsuccess
      cases hsuccess
    · rw [hdesc, hresult, setRecord_agree_iff h]
      simp only [forall_const]
      exact DescriptorRecord.setField_agrees_iff (h recNum) hset
  | bindColumn a =>
    simp only [typeCall, TypesAgree, internalBindColumn, KeepsTypes]
    cases hcheck : a.check with
    | some record =>
      refine iff_of_true h fun hno => ?_
      cases hno
    | none =>
      simp only [forall_const]
      cases hunbind : a.unbinds with
      | true =>
        refine iff_of_true h fun hno => ?_
        cases hno
      | false =>
        simp only [forall_const, Bool.false_eq_true, if_false, safeBindColumn]
        exact (setRecord_agree_iff (d := { s.ard with
          header := s.ard.header.raiseCount a.columnIdx }) h _ _).trans
            (DescriptorRecord.bind_agrees_iff a)

/-- The records of a new ARD are zero. -/
theorem unbound_typesAgree (implicit : Bool) (header : DescriptorHeader) :
    (unbound implicit header).TypesAgree := fun _ =>
  ⟨fun _ hcode => absurd rfl hcode, fun _ => ⟨rfl, rfl⟩⟩

/-- The three fields of every record of the ARD agree all along the calls from a new ARD exactly
when every call keeps them so. -/
theorem types_agree_iff (implicit : Bool) (header : DescriptorHeader) (calls : List TypeCall) :
    Lts.Always typeCall TypesAgree (unbound implicit header) calls ↔
      Lts.Each typeCall KeepsTypes (unbound implicit header) calls :=
  Lts.always_iff (I := fun _ => True) (fun _ _ _ => trivial)
    (fun _ call _ h => typeCall_agree_iff h call) trivial (unbound_typesAgree implicit header)

section Examples

/-- The code of a date is changed to the one of a time, and its concise type stays. -/
theorem codeAlone_disagrees :
    ¬ Lts.Always typeCall TypesAgree (unbound true {})
      [.setField 1 .conciseType 91 0, .setField 1 .datetimeIntervalCode 2 0] := by
  intro h
  have hverbose := (h.last 1).verbose (by decide) (by decide)
  exact absurd hverbose (by decide)

end Examples

end BoundStatement

end TrinoOdbc
