import TrinoOdbc.Descriptor
import Mathlib.Data.List.Induction

/-!
# TrinoOdbc.StatementOptions

The statement options of a connection: `SetConnectOption` stores them in `stmtAttr_`, and
`InternalCreateStatement` sets them on a new statement.

`SetAttribute` of a statement takes an integer for a pointer, and its form for `StatementAttributes&`
hands it the addresses of the fields. `created_eq_reference_iff` says what comes of it.
-/

namespace TrinoOdbc

/-- The options of `InternalSetStmtAttribute`. -/
inductive StmtOption where
  | bindType | concurrency | cursorType | retrieveData | rowsetSize
  | noscan | queryTimeout | maxRows | maxLength | keysetSize | asyncEnable
  | useBookmarks | simulateCursor
  deriving DecidableEq, Repr

structure StatementAttributes where
  bindType : Nat
  concurrency : Nat
  cursorType : Nat
  retrievData : Nat
  rowsetSize : Nat

def sqlBindByColumn : Nat := 0

def sqlConcurReadOnly : Nat := 1

def sqlCursorForwardOnly : Nat := 0

def sqlRdOn : Nat := 1

/-- The records of the checks, which connection and statement share. -/
def notImplemented (message : String) : DiagnosticRecord :=
  { sqlState := .shyc00OptionalFeatureNotImplemented, message }

def onlyByColumn : DiagnosticRecord :=
  notImplemented "Only binding by column is currently supported"

def onlyReadOnly : DiagnosticRecord := notImplemented "Only read-only cursors are supported"

def onlyForward : DiagnosticRecord := notImplemented "Only forward cursors are currently supported"

def onlyAfterPosition : DiagnosticRecord :=
  notImplemented "SQLFetch can only retrieve data after it positions the cursor"

def arraySizeTooLarge : DiagnosticRecord :=
  { sqlState := .sim001FunctionNotSupported
    message := "Array size value cannot be set to a value other than 1000" }

/-- What a call of `SetConnectOption` comes to. -/
structure OptionOutcome where
  stmtAttr : StatementAttributes
  result : SqlResult
  records : List DiagnosticRecord := []

namespace StatementAttributes

def rejected (attr : StatementAttributes) (record : DiagnosticRecord) : OptionOutcome :=
  { stmtAttr := attr, result := .error, records := [record] }

def accepted (attr : StatementAttributes) : OptionOutcome :=
  { stmtAttr := attr, result := .success }

def internalSetStmtAttribute (attr : StatementAttributes) (option : StmtOption) (value : Nat) :
    OptionOutcome :=
  match option with
  | .bindType =>
    if value ≠ sqlBindByColumn then attr.rejected onlyByColumn
    else accepted { attr with bindType := value }
  | .concurrency =>
    if value ≠ sqlConcurReadOnly then attr.rejected onlyReadOnly
    else accepted { attr with concurrency := value }
  | .cursorType =>
    if value ≠ sqlCursorForwardOnly then attr.rejected onlyForward
    else accepted { attr with cursorType := value }
  | .retrieveData =>
    if value ≠ sqlRdOn then attr.rejected onlyAfterPosition
    else accepted { attr with retrievData := value }
  | .rowsetSize =>
    if 1000 < value then attr.rejected arraySizeTooLarge
    else accepted { attr with rowsetSize := value }
  | .noscan | .queryTimeout | .maxRows | .maxLength | .keysetSize | .asyncEnable =>
    { stmtAttr := attr, result := .successWithInfo
      records :=
        [{ sqlState := .s01000GeneralWarning, message := "Specified attribute is ignored." }] }
  | .useBookmarks | .simulateCursor =>
    attr.rejected (notImplemented "Specified attribute is not supported")

/-- What is stored for an option. -/
def value (attr : StatementAttributes) : StmtOption → Option Nat
  | .bindType => some attr.bindType
  | .concurrency => some attr.concurrency
  | .cursorType => some attr.cursorType
  | .retrieveData => some attr.retrievData
  | .rowsetSize => some attr.rowsetSize
  | _ => none

/-- The addresses of the fields of an attribute structure at an address. -/
def addresses (addr : Nat) : StatementAttributes :=
  { bindType := addr, concurrency := addr + 8, cursorType := addr + 16, retrievData := addr + 24
    rowsetSize := addr + 32 }

end StatementAttributes

/-- The attributes of a statement that connections have options for. -/
inductive StmtAttr where
  | rowBindType | concurrency | cursorType | retrieveData | rowArraySize

/-- A statement, as far as these attributes change it: its size of a rowset, the header of its ARD
and its diagnostics. -/
structure OptionStatement where
  rowArraySize : Fin 1001 := 1
  ardHeader : DescriptorHeader
  result : SqlResult := .success
  records : List DiagnosticRecord := []
  deriving DecidableEq

namespace OptionStatement

/-- The constructor, with what is in the memory of the header. -/
def fresh (header : DescriptorHeader) : OptionStatement := { ardHeader := header.initAppHead true }

def fails (s : OptionStatement) (record : DiagnosticRecord) : OptionStatement × SqlResult :=
  ({ s with records := s.records ++ [record] }, .error)

/-- `InternalSetAttribute`. The value is a pointer taken for an integer. -/
def internalSetAttribute (s : OptionStatement) (attr : StmtAttr) (value : Nat) :
    OptionStatement × SqlResult :=
  match attr with
  | .concurrency => if value ≠ sqlConcurReadOnly then s.fails onlyReadOnly else (s, .success)
  | .cursorType => if value ≠ sqlCursorForwardOnly then s.fails onlyForward else (s, .success)
  | .retrieveData => if value ≠ sqlRdOn then s.fails onlyAfterPosition else (s, .success)
  | .rowArraySize =>
    if h : 1000 < value then s.fails arraySizeTooLarge
    else
      ({ s with
          rowArraySize := ⟨value, by omega⟩
          ardHeader := { s.ardHeader with arraySize := value } }, .success)
  | .rowBindType =>
    if value ≠ sqlBindByColumn then s.fails onlyByColumn
    else ({ s with ardHeader := { s.ardHeader with bindType := value } }, .success)

/-- `SetAttribute` resets the diagnostics first. -/
def setAttribute (s : OptionStatement) (attr : StmtAttr) (value : Nat) : OptionStatement :=
  let (t, result) := internalSetAttribute { s with result := .error, records := [] } attr value
  { t with result }

/-- `SetAttribute(StatementAttributes&)`, with the address of the structure. -/
def setAttributes (s : OptionStatement) (stmtAttr : Nat) : OptionStatement :=
  let addresses := StatementAttributes.addresses stmtAttr
  ((((s.setAttribute .rowBindType addresses.bindType).setAttribute .concurrency
    addresses.concurrency).setAttribute .cursorType addresses.cursorType).setAttribute .retrieveData
    addresses.retrievData).setAttribute .rowArraySize addresses.rowsetSize

end OptionStatement

/-- A connection: the options, and where they are. -/
structure OptionConnection where
  stmtAttr : StatementAttributes
  stmtAttrAddr : Nat

namespace OptionConnection

def setConnectOption (c : OptionConnection) (call : StmtOption × Nat) : OptionConnection :=
  { c with stmtAttr := (c.stmtAttr.internalSetStmtAttribute call.1 call.2).stmtAttr }

def internalCreateStatement (c : OptionConnection) (header : DescriptorHeader) : OptionStatement :=
  (OptionStatement.fresh header).setAttributes c.stmtAttrAddr

end OptionConnection

/-! ## The statement that is meant -/

/-- Whether a call of `SetConnectOption` is accepted, whatever has been stored before. -/
def StmtOption.accepts (option : StmtOption) (value : Nat) : Bool :=
  (StatementAttributes.internalSetStmtAttribute ⟨0, 0, 0, 0, 0⟩ option value).result = .success

/-- The last accepted value of an option. -/
def lastAccepted (option : StmtOption) (calls : List (StmtOption × Nat)) : Option Nat :=
  ((calls.filter fun call => call.1 = option && option.accepts call.2).getLast?).map (·.2)

namespace OptionStatement

/-- Sets an attribute through `InternalSetAttribute`, where there is a value. -/
def withAccepted (s : OptionStatement) (attr : StmtAttr) (value : Option Nat) : OptionStatement :=
  match value with
  | none => s
  | some v => (s.internalSetAttribute attr v).1

/-- A fresh statement on which the last accepted values have been set. -/
def reference (header : DescriptorHeader) (calls : List (StmtOption × Nat)) : OptionStatement :=
  (((((fresh header).withAccepted .rowBindType (lastAccepted .bindType calls)).withAccepted
    .concurrency (lastAccepted .concurrency calls)).withAccepted .cursorType
    (lastAccepted .cursorType calls)).withAccepted .retrieveData
    (lastAccepted .retrieveData calls)).withAccepted .rowArraySize (lastAccepted .rowsetSize calls)

end OptionStatement

/-! ## Accepted values -/

section Accepted

variable {option : StmtOption} {value : Nat} {calls : List (StmtOption × Nat)}

/-- What is accepted does not depend on what has been stored. -/
theorem accepts_iff (attr : StatementAttributes) :
    option.accepts value = true ↔
      (attr.internalSetStmtAttribute option value).result = .success := by
  unfold StmtOption.accepts StatementAttributes.internalSetStmtAttribute
  rw [decide_eq_true_eq]
  cases option with
  | bindType | concurrency | cursorType | retrieveData | rowsetSize =>
    simp only
    split
    · exact Iff.rfl
    · exact Iff.rfl
  | noscan | queryTimeout | maxRows | maxLength | keysetSize | asyncEnable => exact Iff.rfl
  | useBookmarks | simulateCursor => exact Iff.rfl

/-- A call that is not accepted stores nothing. -/
theorem internalSetStmtAttribute_of_not_accepts (attr : StatementAttributes)
    (h : option.accepts value = false) :
    (attr.internalSetStmtAttribute option value).stmtAttr = attr := by
  have hresult := mt (accepts_iff attr).mpr (Bool.eq_false_iff.mp h)
  revert hresult
  unfold StatementAttributes.internalSetStmtAttribute
  cases option with
  | bindType | concurrency | cursorType | retrieveData | rowsetSize =>
    simp only
    split
    · exact fun _ => rfl
    · exact fun hresult => absurd rfl hresult
  | noscan | queryTimeout | maxRows | maxLength | keysetSize | asyncEnable => exact fun _ => rfl
  | useBookmarks | simulateCursor => exact fun _ => rfl

theorem lastAccepted_accepts (h : lastAccepted option calls = some value) :
    option.accepts value = true := by
  obtain ⟨call, hcall, rfl⟩ := Option.map_eq_some_iff.mp h
  have hmem := List.mem_of_getLast? hcall
  have hboth : call ∈ calls ∧ call.1 = option ∧ option.accepts call.2 = true := by
    simpa using hmem
  exact hboth.2.2

/-- The values an option is accepted with. -/
theorem accepts_allows (h : option.accepts value = true) :
    match option with
    | .bindType => value = sqlBindByColumn
    | .concurrency => value = sqlConcurReadOnly
    | .cursorType => value = sqlCursorForwardOnly
    | .retrieveData => value = sqlRdOn
    | .rowsetSize => value ≤ 1000
    | _ => False := by
  rw [accepts_iff ⟨0, 0, 0, 0, 0⟩] at h
  unfold StatementAttributes.internalSetStmtAttribute at h
  cases option with
  | bindType | concurrency | cursorType | retrieveData | rowsetSize =>
    simp only at h ⊢
    split at h
    · cases h
    · omega
  | noscan | queryTimeout | maxRows | maxLength | keysetSize | asyncEnable => cases h
  | useBookmarks | simulateCursor => cases h

end Accepted

/-! ## What the statement becomes -/

namespace OptionStatement

variable {s : OptionStatement} {header : DescriptorHeader} {calls : List (StmtOption × Nat)}

/-- The statement with a size of a rowset. -/
def sized (header : DescriptorHeader) (size : Fin 1001) : OptionStatement :=
  { rowArraySize := size, ardHeader := { header.initAppHead true with arraySize := size } }

/-- An option with one accepted value sets what a fresh statement has. -/
theorem withAccepted_fresh {option : StmtOption} {attr : StmtAttr} {only : Nat}
    (honly : ∀ v, option.accepts v = true → v = only)
    (hset : ((fresh header).internalSetAttribute attr only).1 = fresh header) :
    (fresh header).withAccepted attr (lastAccepted option calls) = fresh header := by
  cases hlast : lastAccepted option calls with
  | none => rfl
  | some v =>
    obtain rfl := honly v (lastAccepted_accepts hlast)
    exact hset

theorem internalSetAttribute_size {value : Nat} (h : value ≤ 1000) :
    (s.internalSetAttribute .rowArraySize value) =
      ({ s with
          rowArraySize := ⟨value, by omega⟩
          ardHeader := { s.ardHeader with arraySize := value } }, .success) := by
  unfold internalSetAttribute
  rw [dif_neg (by omega)]

/-- Only the size of a rowset makes a difference. -/
theorem reference_eq (header : DescriptorHeader) (calls : List (StmtOption × Nat)) :
    ∃ size : Fin 1001, size.val = (lastAccepted .rowsetSize calls).getD 1 ∧
      reference header calls = sized header size := by
  rw [reference, withAccepted_fresh (fun v h => (accepts_allows h : v = sqlBindByColumn)) rfl,
    withAccepted_fresh (fun v h => (accepts_allows h : v = sqlConcurReadOnly)) rfl,
    withAccepted_fresh (fun v h => (accepts_allows h : v = sqlCursorForwardOnly)) rfl,
    withAccepted_fresh (fun v h => (accepts_allows h : v = sqlRdOn)) rfl]
  cases hlast : lastAccepted .rowsetSize calls with
  | none => exact ⟨1, rfl, rfl⟩
  | some v =>
    have hle : v ≤ 1000 := accepts_allows (lastAccepted_accepts hlast)
    refine ⟨⟨v, by omega⟩, rfl, ?_⟩
    rw [withAccepted, internalSetAttribute_size hle]
    rfl

/-- A statement with the attributes of a fresh one, whatever its diagnostics. -/
def LikeFresh (header : DescriptorHeader) (s : OptionStatement) : Prop :=
  s.rowArraySize = 1 ∧ s.ardHeader = header.initAppHead true

/-- The other four attributes make no difference. -/
theorem LikeFresh.setAttribute (h : LikeFresh header s) {attr : StmtAttr}
    (hattr : attr ≠ .rowArraySize) (value : Nat) :
    LikeFresh header (s.setAttribute attr value) := by
  obtain ⟨hsize, hheader⟩ := h
  unfold OptionStatement.setAttribute internalSetAttribute
  cases attr with
  | rowArraySize => exact absurd rfl hattr
  | concurrency | cursorType | retrieveData =>
    simp only
    split
    · exact ⟨hsize, hheader⟩
    · exact ⟨hsize, hheader⟩
  | rowBindType =>
    simp only
    split
    · exact ⟨hsize, hheader⟩
    · rename_i hvalue
      refine ⟨hsize, ?_⟩
      simp only [hheader, not_not.mp hvalue]
      rfl

theorem setAttribute_size (h : LikeFresh header s) (value : Nat) :
    s.setAttribute .rowArraySize value =
      if h : 1000 < value then
        { fresh header with result := .error, records := [arraySizeTooLarge] }
      else sized header ⟨value, by omega⟩ := by
  obtain ⟨hsize, hheader⟩ := h
  unfold OptionStatement.setAttribute internalSetAttribute
  by_cases hlarge : 1000 < value
  · simp [hlarge, fails, fresh, hsize, hheader]
  · simp [hlarge, sized, hheader]

theorem setAttributes_eq (header : DescriptorHeader) (stmtAttr : Nat) :
    (fresh header).setAttributes stmtAttr =
      if h : 1000 < stmtAttr + 32 then
        { fresh header with result := .error, records := [arraySizeTooLarge] }
      else sized header ⟨stmtAttr + 32, by omega⟩ := by
  have hfresh : LikeFresh header (fresh header) := ⟨rfl, rfl⟩
  exact setAttribute_size ((((hfresh.setAttribute (by nofun) _).setAttribute (by nofun)
    _).setAttribute (by nofun) _).setAttribute (by nofun) _) _

end OptionStatement

namespace OptionConnection

section Stored

variable {option : StmtOption} {value : Nat}

theorem lastAccepted_append (option : StmtOption) (calls : List (StmtOption × Nat))
    (call : StmtOption × Nat) :
    lastAccepted option (calls ++ [call]) =
      if call.1 = option && option.accepts call.2 then some call.2
      else lastAccepted option calls := by
  unfold lastAccepted
  rw [List.filter_append]
  by_cases h : (call.1 = option && option.accepts call.2) = true
  · rw [if_pos h]
    simp [h]
  · rw [if_neg h]
    simp [h]

theorem value_of_accepts (attr : StatementAttributes) (h : option.accepts value = true) :
    (attr.internalSetStmtAttribute option value).stmtAttr.value option = some value := by
  have hresult := (accepts_iff attr).mp h
  unfold StatementAttributes.internalSetStmtAttribute at hresult ⊢
  cases option with
  | bindType | concurrency | cursorType | retrieveData | rowsetSize =>
    simp only at hresult ⊢
    split at hresult
    · cases hresult
    · rename_i hvalue
      rw [if_neg hvalue]
      rfl
  | noscan | queryTimeout | maxRows | maxLength | keysetSize | asyncEnable => cases hresult
  | useBookmarks | simulateCursor => cases hresult

/-- Setting one option leaves the others as they were. -/
theorem value_of_ne (attr : StatementAttributes) {other : StmtOption} (h : other ≠ option) :
    (attr.internalSetStmtAttribute option value).stmtAttr.value other = attr.value other := by
  unfold StatementAttributes.internalSetStmtAttribute
  cases option with
  | bindType | concurrency | cursorType | retrieveData | rowsetSize =>
    simp only
    split
    · rfl
    · cases other <;> first | rfl | exact absurd rfl h
  | noscan | queryTimeout | maxRows | maxLength | keysetSize | asyncEnable => rfl
  | useBookmarks | simulateCursor => rfl

/-- The connection itself has the last accepted value of each option. -/
theorem stored_eq_lastAccepted (c : OptionConnection) (calls : List (StmtOption × Nat)) :
    (calls.foldl setConnectOption c).stmtAttr.value option =
      (lastAccepted option calls).or (c.stmtAttr.value option) := by
  induction calls using List.reverseRecOn with
  | nil => rfl
  | append_singleton calls call ih =>
    rw [List.foldl_append, List.foldl_cons, List.foldl_nil, lastAccepted_append]
    obtain ⟨set, v⟩ := call
    by_cases hset : set = option
    · subst hset
      cases haccepts : set.accepts v with
      | true => simp [setConnectOption, value_of_accepts _ haccepts]
      | false =>
        simp only [setConnectOption, internalSetStmtAttribute_of_not_accepts _ haccepts, ih]
        simp
    · simp only [setConnectOption, value_of_ne _ (Ne.symm hset), ih]
      simp [hset]

end Stored

theorem foldl_setConnectOption_addr (calls : List (StmtOption × Nat)) :
    ∀ c : OptionConnection, (calls.foldl setConnectOption c).stmtAttrAddr = c.stmtAttrAddr := by
  induction calls with
  | nil => intro c; rfl
  | cons call calls ih => intro c; exact ih _

/-- A statement that is created is the one that is meant exactly when the address of the field for
the size of a rowset is the last accepted size, or 1 when there is none. -/
theorem created_eq_reference_iff (c : OptionConnection) (calls : List (StmtOption × Nat))
    (header : DescriptorHeader) :
    (calls.foldl setConnectOption c).internalCreateStatement header =
        OptionStatement.reference header calls ↔
      c.stmtAttrAddr + 32 = (lastAccepted .rowsetSize calls).getD 1 := by
  obtain ⟨size, hsize, href⟩ := OptionStatement.reference_eq header calls
  rw [internalCreateStatement, foldl_setConnectOption_addr, OptionStatement.setAttributes_eq, href,
    ← hsize]
  split
  · rename_i hlarge
    refine iff_of_false (fun h => ?_) (by omega)
    have hrecords := congrArg OptionStatement.records h
    cases hrecords
  · constructor
    · intro h
      have hsame := congrArg OptionStatement.rowArraySize h
      exact congrArg Fin.val hsame
    · intro h
      have hfin : (⟨c.stmtAttrAddr + 32, by omega⟩ : Fin 1001) = size := Fin.ext h
      rw [hfin]

/-- A statement of a connection whose size of a rowset is 10 has the size 1, and an error. -/
theorem created_losesSize :
    ¬ ([(.rowsetSize, 10)].foldl setConnectOption
        { stmtAttr := ⟨0, 0, 0, 0, 0⟩, stmtAttrAddr := 4096 }).internalCreateStatement {} =
      OptionStatement.reference {} [(.rowsetSize, 10)] := by
  decide

end OptionConnection

end TrinoOdbc
