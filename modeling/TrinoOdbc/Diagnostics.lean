import TrinoOdbc.Conversion
import TrinoOdbc.Machine
import TrinoOdbc.StringOutput

/-!
# TrinoOdbc.Diagnostics

The diagnostics of a handle: `DiagnosticRecordStorage`, what the calls of the driver do to it
(`IGNITE_ODBC_API_CALL`, and the calls that add a record and refuse), and the calls that read it,
`SQLError`, `SQLGetDiagRec` and `SQLGetDiagField`.

* `DiagnosticReport` — what the diagnostics are for: the code of the last call, and its records in
  a queue that `SQLError` takes from.
* `refines` — one event: the storage answers as the report does.
* `diagnostics_refine` — whole runs: the answers are those of the report, `SQLError` hands out the
  records since the last call in their order, each of them once, and has none when all have been
  handed out.
-/

namespace TrinoOdbc

open Machine (Inbox after answers Simulates)

/-! ## Records -/

/-- `GetSqlState`. -/
def SqlState.text : SqlState → String
  | .s01000GeneralWarning => "01000"
  | .s01004DataTruncated => "01004"
  | .s01S00InvalidConnectionStringAttribute => "01S00"
  | .s01S01ErrorInRow => "01S01"
  | .s01S02OptionValueChanged => "01S02"
  | .s01S07FractionalTruncation => "01S07"
  | .s07009InvalidDescriptorIndex => "07009"
  | .s08002AlreadyConnected => "08002"
  | .s08003NotConnected => "08003"
  | .s22002IndicatorNeeded => "22002"
  | .s24000InvalidCursorState => "24000"
  | .s34000InvalidCursorName => "34000"
  | .s3C000DuplicateCursorName => "3C000"
  | .shy000GeneralError => "HY000"
  | .shy003InvalidApplicationBufferType => "HY003"
  | .shy009InvalidUseOfNullPointer => "HY009"
  | .shy010SequenceError => "HY010"
  | .shy016ModifyIrd => "HY016"
  | .shy024InvalidAttributeValue => "HY024"
  | .shy090InvalidStringOrBufferLength => "HY090"
  | .shy091InvalidDescrFieldId => "HY091"
  | .shyc00OptionalFeatureNotImplemented => "HYC00"
  | .sim001FunctionNotSupported => "IM001"

namespace DiagnosticRecord

def getSqlState (r : DiagnosticRecord) : String := r.sqlState.text

/-- "ODBC 3.0" for the class "IM". -/
def getClassOrigin (r : DiagnosticRecord) : String :=
  if r.getSqlState.toList.take 2 = ['I', 'M'] then "ODBC 3.0" else "ISO 9075"

def odbcSubclasses : List String :=
  ["01S00", "01S01", "01S02", "01S06", "01S07", "07S01", "08S01", "21S01", "21S02", "25S01",
    "25S02", "25S03", "42S01", "42S02", "42S11", "42S12", "42S21", "42S22", "HY024", "HY095",
    "HY097", "HY098", "HY099", "HY100", "HY101", "HY105", "HY107", "HY109", "HY110", "HY111",
    "HYT00", "HYT01", "IM001", "IM002", "IM003", "IM004", "IM005", "IM006", "IM007", "IM008",
    "IM010", "IM011", "IM012"]

def getSubclassOrigin (r : DiagnosticRecord) : String :=
  if r.getSqlState ∈ odbcSubclasses then "ODBC 3.0" else "ISO 9075"

/-- Every record is made with the empty string for the connection and for the server. -/
def getConnectionName (_ : DiagnosticRecord) : String := ""

def getServerName (_ : DiagnosticRecord) : String := ""

end DiagnosticRecord

theorem SqlState.length_text (state : SqlState) : state.text.toList.length = 5 := by
  cases state <;> decide

theorem SqlState.text_ascii (state : SqlState) :
    ∀ c ∈ state.text.toList, c ≠ '\x00' ∧ c.toNat < 128 := by
  have hall : state.text.toList.all (fun c => c ≠ '\x00' && c.toNat < 128) = true := by
    cases state <;> rfl
  simpa using hall

/-! ## The storage -/

inductive DiagnosticField where
  | unknown
  | headerCursorRowCount | headerDynamicFunction | headerDynamicFunctionCode | headerNumber
  | headerReturncode | headerRowCount
  | statusClassOrigin | statusColumnNumber | statusConnectionName | statusMessageText
  | statusNative | statusRowNumber | statusServerName | statusSqlstate | statusSubclassOrigin
  deriving DecidableEq, Repr

/-- The kinds of handles. -/
inductive HandleType where
  | env | dbc | stmt | desc
  deriving DecidableEq, Repr

/-- `SqlResultToReturnCode`. -/
def SqlResult.returnCode : SqlResult → Int
  | .success => 0
  | .successWithInfo => 1
  | .noData => 100
  | .needData => 99
  | .error => -1

/-- Each record comes with whether it has been retrieved. -/
structure DiagnosticRecordStorage where
  rowCount : Int := 0
  dynamicFunction : String := ""
  dynamicFunctionCode : Int := 0
  result : SqlResult := .success
  rowsAffected : Int := 0
  statusRecords : List (DiagnosticRecord × Bool) := []

namespace DiagnosticRecordStorage

open ApplicationDataBuffer (putInt32 putInt64 putString)

def setHeaderRecord (s : DiagnosticRecordStorage) (result : SqlResult) : DiagnosticRecordStorage :=
  { s with rowCount := 0, dynamicFunction := "", dynamicFunctionCode := 0, result,
           rowsAffected := 0 }

def reset (s : DiagnosticRecordStorage) : DiagnosticRecordStorage :=
  { s.setHeaderRecord .error with statusRecords := [] }

def addStatusRecord (s : DiagnosticRecordStorage) (record : DiagnosticRecord) :
    DiagnosticRecordStorage :=
  { s with statusRecords := s.statusRecords ++ [(record, false)] }

def getStatusRecordsNumber (s : DiagnosticRecordStorage) : Nat := s.statusRecords.length

/-- The number of the first record that has not been retrieved, 0 when there is none. -/
def getLastNonRetrieved (s : DiagnosticRecordStorage) : Nat :=
  match s.statusRecords.findIdx? (fun record => record.2 = false) with
  | some i => i + 1
  | none => 0

/-- `MarkRetrieved` of the record with a number. -/
def markRetrieved (s : DiagnosticRecordStorage) (recNum : Nat) : DiagnosticRecordStorage :=
  { s with statusRecords := s.statusRecords.modify (recNum - 1) fun record => (record.1, true) }

/-- `GetField`: the result, and what is put in the buffer. -/
def getField (P : Platform) (s : DiagnosticRecordStorage) (recNum : Int) (field : DiagnosticField)
    (buffer : ApplicationDataBuffer) : SqlResult × Option (Except PutFault Conversion) :=
  match field with
  | .headerCursorRowCount => (.success, some (putInt64 P s.rowCount buffer))
  | .headerDynamicFunction =>
    (.success, some (putString P (Utf8.encode s.dynamicFunction.toList) buffer))
  | .headerDynamicFunctionCode => (.success, some (putInt32 P s.dynamicFunctionCode buffer))
  | .headerNumber => (.success, some (putInt32 P s.getStatusRecordsNumber buffer))
  | .headerReturncode => (.success, some (putInt32 P s.result.returnCode buffer))
  | .headerRowCount => (.success, some (putInt64 P s.rowsAffected buffer))
  | _ =>
    if recNum < 1 ∨ (s.statusRecords.length : Int) < recNum then (.noData, none)
    else
      match s.statusRecords[(recNum - 1).toNat]? with
      | none => (.noData, none)
      | some (record, _) =>
        match field with
        | .statusClassOrigin =>
          (.success, some (putString P (Utf8.encode record.getClassOrigin.toList) buffer))
        | .statusColumnNumber => (.success, some (putInt32 P record.columnNum buffer))
        | .statusConnectionName =>
          (.success, some (putString P (Utf8.encode record.getConnectionName.toList) buffer))
        | .statusMessageText =>
          (.success, some (putString P (Utf8.encode record.message.toList) buffer))
        | .statusNative => (.success, some (putInt32 P 0 buffer))
        | .statusRowNumber => (.success, some (putInt64 P record.rowNum buffer))
        | .statusServerName =>
          (.success, some (putString P (Utf8.encode record.getServerName.toList) buffer))
        | .statusSqlstate =>
          (.success, some (putString P (Utf8.encode record.getSqlState.toList) buffer))
        | .statusSubclassOrigin =>
          (.success, some (putString P (Utf8.encode record.getSubclassOrigin.toList) buffer))
        | _ => (.error, none)

end DiagnosticRecordStorage

/-! ## The calls -/

/-- A call of the driver that adds `records` and comes to `result`: `IGNITE_ODBC_API_CALL`. -/
def DiagnosticRecordStorage.apiCall (s : DiagnosticRecordStorage) (records : List DiagnosticRecord)
    (result : SqlResult) : DiagnosticRecordStorage :=
  (records.foldl addStatusRecord s.reset).setHeaderRecord result

/-- What `SQLGetDiagField` returns, what it puts in the buffer, and the length it stores. -/
structure FieldOutput where
  result : SqlResult
  put : Option (Except PutFault Conversion) := none
  resLen : Option Int := none

/-- The buffer of `SQLGetDiagField`; its length goes to a variable that is not initialized. -/
def diagFieldBuffer (buffer : Option Addr) (bufferLen : Nat) : ApplicationDataBuffer :=
  { type := .default, buffer, buflen := bufferLen, reslen := some 0 }

/-- The end of `SQLGetDiagField`. `resLen` says whether there is a place for the length. -/
def diagFieldOutput (P : Platform) (resLen : Bool)
    (output : SqlResult × Option (Except PutFault Conversion)) : FieldOutput :=
  let length := match output.2 with
    | some (.ok put) => put.resLen.getD (P.uninitialized 0)
    | _ => P.uninitialized 0
  { result := output.1
    put := output.2
    resLen := if resLen ∧ output.1 = .success then some (toSmallInt length) else none }

/-- What the application does with a handle. `refuse` stands for the calls that add a record and
return without `IGNITE_ODBC_API_CALL`: those that are not supported, and `SQLColumns` with an empty
catalog and schema. -/
inductive DiagnosticEvent where
  | call (records : List DiagnosticRecord) (result : SqlResult)
  | refuse (record : DiagnosticRecord) (result : SqlResult)
  | sqlError (msgBufLen : Nat)
  | sqlGetDiagRec (recNum : Int) (msgLen : Bool) (msgBufferLen : Int)
  | sqlGetDiagField (recNum : Int) (field : DiagnosticField) (buffer : Option Addr)
      (bufferLen : Nat) (resLen : Bool)

/-- A return code; the SQL state and the message of a record; or a field. -/
inductive DiagnosticAnswer where
  | returned (result : SqlResult)
  | record (sqlState : Option (List Char)) (message : StringOutput)
  | field (output : FieldOutput)

/-- The SQL state as it is stored in six `SQLWCHAR`s. -/
def storedState (w : WcharSize) (record : DiagnosticRecord) : List Char :=
  (copyStringToBuffer w record.getSqlState true 6 false).written

namespace DiagnosticRecordStorage

def step (P : Platform) (handle : HandleType) (s : DiagnosticRecordStorage) :
    DiagnosticEvent → DiagnosticRecordStorage × DiagnosticAnswer
  | .call records result => (s.apiCall records result, .returned (s.apiCall records result).result)
  | .refuse record result => (s.addStatusRecord record, .returned result)
  | .sqlError msgBufLen =>
    let recNum := s.getLastNonRetrieved
    if recNum < 1 ∨ s.getStatusRecordsNumber < recNum then (s, .record none { result := .noData })
    else
      (s.markRetrieved recNum,
        .record ((s.statusRecords[recNum - 1]?).map fun record => storedState P.wchar record.1)
          (TrinoOdbc.sqlError P.wchar s.statusRecords msgBufLen))
  | .sqlGetDiagRec recNum msgLen msgBufferLen =>
    let records := s.statusRecords.map Prod.fst
    (s, .record
      (if recNum < 1 ∨ msgBufferLen < 0 then none
        else (records[(recNum - 1).toNat]?).map (storedState P.wchar))
      (TrinoOdbc.sqlGetDiagRec P.wchar records recNum msgLen msgBufferLen))
  | .sqlGetDiagField recNum field buffer bufferLen resLen =>
    let output := if handle = .desc then (.noData, none)
      else s.getField P recNum field (diagFieldBuffer buffer bufferLen)
    (s, .field (diagFieldOutput P resLen output))

end DiagnosticRecordStorage

/-! ## What the diagnostics are for -/

/-- The value of a field. -/
inductive FieldValue where
  | int32 (v : Int)
  | int64 (v : Int)
  | text (s : String)

def FieldValue.put (P : Platform) (b : ApplicationDataBuffer) :
    FieldValue → Except PutFault Conversion
  | .int32 v => ApplicationDataBuffer.putInt32 P v b
  | .int64 v => ApplicationDataBuffer.putInt64 P v b
  | .text s => ApplicationDataBuffer.putString P (Utf8.encode s.toList) b

/-- The fields of a record. -/
def DiagnosticField.ofRecord (record : DiagnosticRecord) : DiagnosticField → Option FieldValue
  | .statusClassOrigin => some (.text record.getClassOrigin)
  | .statusColumnNumber => some (.int32 record.columnNum)
  | .statusConnectionName | .statusServerName => some (.text "")
  | .statusMessageText => some (.text record.message)
  | .statusNative => some (.int32 0)
  | .statusRowNumber => some (.int64 record.rowNum)
  | .statusSqlstate => some (.text record.getSqlState)
  | .statusSubclassOrigin => some (.text record.getSubclassOrigin)
  | _ => none

/-- The result of the last call, and the records since it. -/
structure DiagnosticReport where
  result : SqlResult := .success
  inbox : Inbox DiagnosticRecord := {}

namespace DiagnosticReport

/-- The record with a number. -/
def record? (t : DiagnosticReport) (recNum : Int) : Option DiagnosticRecord :=
  if recNum < 1 then none else t.inbox.all[(recNum - 1).toNat]?

def fieldValue (t : DiagnosticReport) (recNum : Int) : DiagnosticField → Except SqlResult FieldValue
  | .headerNumber => .ok (.int32 t.inbox.all.length)
  | .headerReturncode => .ok (.int32 t.result.returnCode)
  | .headerCursorRowCount | .headerRowCount => .ok (.int64 0)
  | .headerDynamicFunction => .ok (.text "")
  | .headerDynamicFunctionCode => .ok (.int32 0)
  | field =>
    match t.record? recNum with
    | none => .error .noData
    | some record =>
      match field.ofRecord record with
      | some value => .ok value
      | none => .error .error

/-- What `SQLError` is to answer. -/
def errorAnswer (w : WcharSize) (msgBufLen : Nat) : Option DiagnosticRecord → DiagnosticAnswer
  | none => .record none { result := .noData }
  | some record =>
    let r := copyStringToBuffer w record.message true msgBufLen false
    .record (some (record.getSqlState.toList ++ ['\x00']))
      { result := .success, written := r.written, length := some (toSmallInt r.length) }

def step (P : Platform) (handle : HandleType) (t : DiagnosticReport) :
    DiagnosticEvent → DiagnosticReport × DiagnosticAnswer
  | .call records result => (⟨result, ⟨[], records⟩⟩, .returned result)
  | .refuse record result => (⟨t.result, t.inbox.add record⟩, .returned result)
  | .sqlError msgBufLen =>
    (⟨t.result, t.inbox.deliver⟩, errorAnswer P.wchar msgBufLen t.inbox.pending.head?)
  | .sqlGetDiagRec recNum msgLen msgBufferLen =>
    (t, .record
      (if msgBufferLen < 0 then none
        else (t.record? recNum).map fun record => record.getSqlState.toList ++ ['\x00'])
      (TrinoOdbc.sqlGetDiagRec P.wchar t.inbox.all recNum msgLen msgBufferLen))
  | .sqlGetDiagField recNum field buffer bufferLen resLen =>
    let output := if handle = .desc then (.noData, none)
      else
        match t.fieldValue recNum field with
        | .error result => (result, none)
        | .ok value => (.success, some (value.put P (diagFieldBuffer buffer bufferLen)))
    (t, .field (diagFieldOutput P resLen output))

end DiagnosticReport

/-! ## One event -/

theorem storedState_eq (w : WcharSize) (record : DiagnosticRecord) :
    storedState w record = record.getSqlState.toList ++ ['\x00'] := by
  have hplain := record.sqlState.text_ascii
  have hstorable : Storable w 6 record.getSqlState := by
    refine ⟨fun hzero => (hplain _ hzero).1 rfl, fun c hc => ?_, ?_⟩
    · have hlt := (hplain c hc).2
      cases w
      · exact decide_eq_true (by omega)
      · rfl
    · change record.sqlState.text.toList.length < 6
      rw [record.sqlState.length_text]
      decide
  rw [storedState, copyStringToBuffer_written _ (by decide), (take_reach_eq_iff (by decide)).mpr
    hstorable]

namespace DiagnosticRecordStorage

/-- The storage that holds a report. Nothing sets the other fields of the header. -/
def ofReport (t : DiagnosticReport) : DiagnosticRecordStorage :=
  { result := t.result, statusRecords := t.inbox.marked }

variable {t : DiagnosticReport} {records : List DiagnosticRecord}

@[simp] theorem statusRecords_ofReport : (ofReport t).statusRecords = t.inbox.marked := rfl

@[simp] theorem getStatusRecordsNumber_ofReport :
    (ofReport t).getStatusRecordsNumber = t.inbox.all.length := by
  rw [← Inbox.marked_fst, List.length_map]
  rfl

theorem addStatusRecord_ofReport (record : DiagnosticRecord) :
    (ofReport t).addStatusRecord record = ofReport ⟨t.result, t.inbox.add record⟩ := by
  simp only [addStatusRecord, ofReport, Inbox.marked_add]

theorem foldl_addStatusRecord (s : DiagnosticRecordStorage) :
    records.foldl addStatusRecord s =
      { s with statusRecords := s.statusRecords ++ records.map (·, false) } := by
  induction records generalizing s with
  | nil => simp
  | cons record records ih =>
    rw [List.foldl_cons, ih]
    simp [addStatusRecord]

/-- A call leaves nothing of the calls before. -/
theorem apiCall_eq (s : DiagnosticRecordStorage) (result : SqlResult) :
    s.apiCall records result = ofReport ⟨result, ⟨[], records⟩⟩ := by
  rw [apiCall, foldl_addStatusRecord]
  simp [reset, setHeaderRecord, ofReport, Inbox.marked]

theorem sqlError_marked (w : WcharSize) (q : Inbox DiagnosticRecord) (msgBufLen : Nat) :
    DiagnosticAnswer.record (q.pending.head?.map (storedState w))
        (TrinoOdbc.sqlError w q.marked msgBufLen) =
      DiagnosticReport.errorAnswer w msgBufLen q.pending.head? := by
  rw [TrinoOdbc.sqlError, Inbox.find_marked]
  cases q.pending.head? with
  | none => rfl
  | some record => simp only [Option.map_some, DiagnosticReport.errorAnswer, storedState_eq]

/-- `SQLError` takes the first of the records that are left. -/
theorem step_sqlError (P : Platform) (handle : HandleType) (msgBufLen : Nat) :
    (ofReport t).step P handle (.sqlError msgBufLen) =
      (ofReport ⟨t.result, t.inbox.deliver⟩,
        DiagnosticReport.errorAnswer P.wchar msgBufLen t.inbox.pending.head?) := by
  have hfirst := Inbox.modify_findIdx t.inbox.marked
  have hanswer := sqlError_marked P.wchar t.inbox msgBufLen
  cases hidx : t.inbox.marked.findIdx? (fun record => record.2 = false) with
  | none =>
    simp only [hidx, Inbox.find_marked, Option.map_eq_none_iff] at hfirst
    have hlast : (ofReport t).getLastNonRetrieved = 0 := by
      simp only [getLastNonRetrieved, statusRecords_ofReport, hidx]
    have hmarked : t.inbox.deliver.marked = t.inbox.marked := by
      rw [← Inbox.markFirst_marked, hfirst.2]
    simp only [step, hlast, Nat.zero_lt_one, true_or, if_true, hfirst.1,
      DiagnosticReport.errorAnswer]
    simp only [ofReport, hmarked]
  | some i =>
    simp only [hidx, Inbox.find_marked] at hfirst
    obtain ⟨hlt, hrecord, hmodify⟩ := hfirst
    have hlast : (ofReport t).getLastNonRetrieved = i + 1 := by
      simp only [getLastNonRetrieved, statusRecords_ofReport, hidx]
    have hnumber : ¬ (i + 1 < 1 ∨ (ofReport t).getStatusRecordsNumber < i + 1) := by
      rw [getStatusRecordsNumber_ofReport, ← Inbox.marked_fst, List.length_map]
      omega
    have hstate : (t.inbox.marked[i]?).map (fun record => storedState P.wchar record.1) =
        t.inbox.pending.head?.map (storedState P.wchar) := by
      rw [hrecord, Option.map_map]
      rfl
    simp only [step, hlast, if_neg hnumber, Nat.add_sub_cancel, statusRecords_ofReport, hstate,
      hanswer]
    simp only [markRetrieved, ofReport, Nat.add_sub_cancel, hmodify, Inbox.markFirst_marked]

theorem getField_ofReport (P : Platform) (recNum : Int) (field : DiagnosticField)
    (buffer : ApplicationDataBuffer) :
    (ofReport t).getField P recNum field buffer =
      match t.fieldValue recNum field with
      | .error result => (result, none)
      | .ok value => (.success, some (value.put P buffer)) := by
  have hlength : (t.inbox.marked.length : Int) = t.inbox.all.length := by
    rw [← Inbox.marked_fst, List.length_map]
  have hrecord : (t.inbox.marked[(recNum - 1).toNat]?).map Prod.fst =
      t.inbox.all[(recNum - 1).toNat]? := by
    rw [← Inbox.marked_fst, List.getElem?_map]
  by_cases hrange : recNum < 1 ∨ (t.inbox.all.length : Int) < recNum
  · have hnone : t.record? recNum = none := by
      rw [DiagnosticReport.record?]
      split
      · rfl
      · exact List.getElem?_eq_none (by omega)
    cases field <;>
      simp only [getField, statusRecords_ofReport, hlength, hrange, if_true,
        DiagnosticReport.fieldValue, hnone, getStatusRecordsNumber_ofReport] <;> rfl
  · have hsome : t.record? recNum = t.inbox.all[(recNum - 1).toNat]? := by
      rw [DiagnosticReport.record?, if_neg (fun h => hrange (.inl h))]
    obtain ⟨record, hget⟩ : ∃ record, t.inbox.marked[(recNum - 1).toNat]? = some record :=
      ⟨_, List.getElem?_eq_getElem (by omega)⟩
    rw [hget, Option.map_some] at hrecord
    cases field <;>
      simp only [getField, statusRecords_ofReport, hlength, hrange, if_false, hget,
        DiagnosticReport.fieldValue, hsome, ← hrecord, getStatusRecordsNumber_ofReport] <;> rfl

/-- The storage answers as the report does, and goes on holding it. -/
theorem refines (P : Platform) (handle : HandleType) :
    Simulates (fun s t => s = ofReport t) (step P handle) (DiagnosticReport.step P handle) := by
  rintro _ t event rfl
  cases event with
  | call records result =>
    refine ⟨?_, apiCall_eq _ result⟩
    simp only [step, apiCall_eq]
    rfl
  | refuse record result => exact ⟨rfl, addStatusRecord_ofReport record⟩
  | sqlError msgBufLen =>
    rw [step_sqlError]
    exact ⟨rfl, rfl⟩
  | sqlGetDiagRec recNum msgLen msgBufferLen =>
    have hstate : storedState P.wchar = fun record => record.getSqlState.toList ++ ['\x00'] :=
      funext (storedState_eq P.wchar)
    refine ⟨?_, rfl⟩
    simp only [step, DiagnosticReport.step, statusRecords_ofReport, Inbox.marked_fst,
      DiagnosticReport.record?]
    by_cases hnum : recNum < 1 <;> by_cases hlen : msgBufferLen < 0 <;>
      simp [hnum, hlen, hstate]
  | sqlGetDiagField recNum field buffer bufferLen resLen =>
    refine ⟨?_, rfl⟩
    simp only [step, DiagnosticReport.step, getField_ofReport]

end DiagnosticRecordStorage

/-! ## Runs -/

/-- The records that the last call of the driver and the refusals after it add. -/
def recordsSince : List DiagnosticRecord → List DiagnosticEvent → List DiagnosticRecord
  | records, [] => records
  | _, .call records _ :: es => recordsSince records es
  | records, .refuse record _ :: es => recordsSince (records ++ [record]) es
  | records, _ :: es => recordsSince records es

theorem DiagnosticReport.all_after (P : Platform) (handle : HandleType) (es : List DiagnosticEvent)
    (t : DiagnosticReport) :
    (after (DiagnosticReport.step P handle) t es).inbox.all = recordsSince t.inbox.all es := by
  induction es generalizing t with
  | nil => rfl
  | cons e es ih =>
    rw [Machine.after_cons, ih]
    cases e with
    | call records result => rfl
    | refuse record result => exact congrArg (recordsSince · es) (Inbox.all_add record)
    | sqlError msgBufLen => exact congrArg (recordsSince · es) Inbox.all_deliver
    | sqlGetDiagRec | sqlGetDiagField => rfl

/-- `SQLError` again and again. -/
theorem DiagnosticReport.answers_sqlError (P : Platform) (handle : HandleType) (msgBufLen : Nat)
    (k : Nat) (t : DiagnosticReport) :
    answers (DiagnosticReport.step P handle) t (List.replicate k (.sqlError msgBufLen)) =
      (List.range k).map fun i => errorAnswer P.wchar msgBufLen t.inbox.pending[i]? := by
  induction k generalizing t with
  | zero => rfl
  | succ k ih =>
    rw [List.replicate_succ, Machine.answers_cons, ih, List.range_succ_eq_map, List.map_cons,
      List.map_map]
    refine congrArg₂ List.cons ?_ (List.map_congr_left fun i _ => ?_)
    · rw [← List.head?_eq_getElem?]
      rfl
    · change errorAnswer P.wchar msgBufLen (t.inbox.pending.drop 1)[i]? = _
      rw [List.getElem?_drop, Nat.add_comm]
      rfl

/-- In every run the storage answers as the report does: the records of the report are those since
the last call, and `SQLError` hands out the pending ones in their order, then none. -/
theorem diagnostics_refine (P : Platform) (handle : HandleType) (es : List DiagnosticEvent) :
    let report := after (DiagnosticReport.step P handle) {} es
    answers (DiagnosticRecordStorage.step P handle) {} es =
        answers (DiagnosticReport.step P handle) {} es ∧
      report.inbox.all = recordsSince [] es ∧
      ∀ msgBufLen k,
        answers (DiagnosticRecordStorage.step P handle)
            (after (DiagnosticRecordStorage.step P handle) {} es)
            (List.replicate k (.sqlError msgBufLen)) =
          (List.range k).map fun i =>
            DiagnosticReport.errorAnswer P.wchar msgBufLen report.inbox.pending[i]? := by
  intro report
  have hrefines := DiagnosticRecordStorage.refines P handle
  have hinit : ({} : DiagnosticRecordStorage) = .ofReport {} := rfl
  obtain ⟨hanswers, hlast⟩ := hrefines.run hinit es
  refine ⟨hanswers, DiagnosticReport.all_after P handle es {}, fun msgBufLen k => ?_⟩
  rw [(hrefines.run hlast _).1]
  exact DiagnosticReport.answers_sqlError P handle msgBufLen k report

end TrinoOdbc
