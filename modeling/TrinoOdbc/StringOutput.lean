import TrinoOdbc.Connection
import TrinoOdbc.Cursor
import TrinoOdbc.CursorNames
import TrinoOdbc.Descriptor
import TrinoOdbc.WideText

/-!
# TrinoOdbc.StringOutput

The calls that return a string in a buffer of `SQLWCHAR`s: `SQLDriverConnect`, `SQLGetDiagRec`,
`SQLError`, `SQLGetCursorName` and `SQLColAttribute`. Each copies the string with
`CopyUtf8StringToWcharString` and finds its return code in its own way.

`complete_or_flagged_iff` says when the return code tells whether the whole string is stored.

The strings are UTF-8, so a string is its characters.
-/

namespace TrinoOdbc

/-- The return code of a call, what it writes to the buffer for the string, and the length it
stores. -/
structure StringOutput where
  result : SqlResult
  written : List Char := []
  length : Option Int := none

/-! ## The calls, with a buffer -/

def sqlDriverConnect (w : WcharSize) (H : Host) (c : Connection) (store : DsnStore)
    (connectStr : String) (bufferLen : Nat) : StringOutput :=
  let established := (c.internalEstablish H store connectStr.toList).2.result
  if established ≠ .success ∧ established ≠ .successWithInfo then { result := established }
  else
    let r := copyStringToBuffer w connectStr true bufferLen false
    { result := established, written := r.written, length := some (toSmallInt r.length) }

/-- `SQLGetDiagRec`. `msgLen` says whether there is a place for the length. -/
def sqlGetDiagRec (w : WcharSize) (records : List DiagnosticRecord) (recNum : Int) (msgLen : Bool)
    (msgBufferLen : Int) : StringOutput :=
  if recNum < 1 ∨ msgBufferLen < 0 then { result := .error }
  else
    match records[(recNum - 1).toNat]? with
    | none => { result := .noData }
    | some record =>
      let r := copyStringToBuffer w record.message true msgBufferLen.toNat false
      if msgBufferLen < toSmallInt (record.message.utf8ByteSize + 1) then
        if msgLen = false then { result := .error }
        else
          { result := .successWithInfo, written := r.written, length := some (toSmallInt r.length) }
      else
        { result := .success, written := r.written
          length := if msgLen then some (toSmallInt r.length) else none }

/-- `SQLError`, of the records with whether they have been retrieved. -/
def sqlError (w : WcharSize) (records : List (DiagnosticRecord × Bool)) (msgBufLen : Nat) :
    StringOutput :=
  match records.find? (fun record => record.2 = false) with
  | none => { result := .noData }
  | some record =>
    let r := copyStringToBuffer w record.1.message true msgBufLen false
    { result := .success, written := r.written, length := some (toSmallInt r.length) }

/-- `SQLGetCursorName`. The length is taken for one that does not count the final zero. -/
def sqlGetCursorName (w : WcharSize) (names : CursorNames) (stmt : Nat) (nameBufLen : Nat) :
    StringOutput :=
  let r := copyUtf8StringToWcharString w (names.getCursorName stmt) true
    ((nameBufLen + 1) * w.bytes) false
  { result := if r.isTruncated then .successWithInfo else .success
    written := r.written
    length := some (toSmallInt (r.length / w.bytes)) }

/-- The character attributes of a column. -/
inductive CharAttribute where
  | label | baseColumnName | name | tableName | baseTableName | schemaName | catalogName
  | literalPrefix | literalSuffix | typeName | localTypeName

/-- `GetAttribute` for a string. -/
def ColumnMeta.getAttribute (c : ColumnMeta) : CharAttribute → String
  | .label | .baseColumnName | .name => c.columnName.getD ""
  | .tableName | .baseTableName => c.tableName.getD ""
  | .schemaName => c.schemaName.getD ""
  | .catalogName => c.catalogName.getD ""
  | .literalPrefix | .literalSuffix => if c.dataType = some .varchar then "'" else ""
  | .typeName | .localTypeName => (c.dataType.map ScalarType.binaryTypeToSqlTypeName).getD ""

/-- `SQLColAttribute`, for a character attribute. The length is in bytes. -/
def sqlColAttribute (w : WcharSize) (columns : List ColumnMeta) (columnNum : Nat)
    (fieldId : CharAttribute) (bufferLen : Nat) : StringOutput :=
  if columns.length < columnNum ∨ columnNum < 1 then { result := .error }
  else
    match columns[columnNum - 1]? with
    | none => { result := .error }
    | some column =>
      let r := copyStringToBuffer w (column.getAttribute fieldId) true bufferLen true
      { result := if r.isTruncated then .successWithInfo else .success
        written := r.written
        length := some (toSmallInt r.length) }

/-! ## What a call is to return -/

/-- The calls, with what they return the string of. -/
inductive OutputCall where
  | driverConnect (H : Host) (c : Connection) (store : DsnStore) (connectStr : String)
  | getDiagRec (records : List DiagnosticRecord) (recNum : Int) (msgLen : Bool)
  | error (records : List (DiagnosticRecord × Bool))
  | getCursorName (names : CursorNames) (stmt : Nat)
  | colAttribute (columns : List ColumnMeta) (columnNum : Nat) (fieldId : CharAttribute)

namespace OutputCall

/-- The string to return. There is none when the attempt to connect fails, and for a record or a
column that does not exist. -/
def text : OutputCall → Option String
  | .driverConnect H c store connectStr =>
    if (c.internalEstablish H store connectStr.toList).2.result = .error then none
    else some connectStr
  | .getDiagRec records recNum _ =>
    if recNum < 1 then none else (records[(recNum - 1).toNat]?).map (·.message)
  | .error records => (records.find? fun record => record.2 = false).map (·.1.message)
  | .getCursorName names stmt => some (names.getCursorName stmt)
  | .colAttribute columns columnNum fieldId =>
    if columnNum < 1 then none else (columns[columnNum - 1]?).map (·.getAttribute fieldId)

/-- The call with a buffer of `n` characters. -/
def perform (w : WcharSize) (n : Nat) : OutputCall → StringOutput
  | .driverConnect H c store connectStr => sqlDriverConnect w H c store connectStr n
  | .getDiagRec records recNum msgLen => sqlGetDiagRec w records recNum msgLen n
  | .error records => sqlError w records n
  | .getCursorName names stmt => sqlGetCursorName w names stmt n
  | .colAttribute columns columnNum fieldId =>
    sqlColAttribute w columns columnNum fieldId (n * w.bytes)

end OutputCall

/-- At most `n` characters are written, a prefix of the string and a zero; the return code says
whether it is the whole string. -/
def CompleteOrFlagged (n : Nat) (s : String) (o : StringOutput) : Prop :=
  ∃ stored, o.written = stored ++ ['\x00'] ∧ stored <+: s.toList ∧ o.written.length ≤ n ∧
    (o.result = .success ↔ stored = s.toList) ∧
    (stored ≠ s.toList → o.result = .successWithInfo)

namespace OutputCall

/-- When a call does right by a string. `SQLDriverConnect` has the return code of `Establish`;
`SQLGetDiagRec` compares the length with the bytes of the message, as a `SQLSMALLINT`; `SQLError`
does not look at the flag; `SQLGetCursorName` takes the buffer for one character longer; and the
flag does not show what is behind a zero. -/
def Fits (w : WcharSize) (n : Nat) (s : String) : OutputCall → Prop
  | .driverConnect H c store connectStr =>
    (c.internalEstablish H store connectStr.toList).2.result = .success ↔ Storable w n s
  | .getDiagRec _ _ msgLen =>
    if (n : Int) < toSmallInt (s.utf8ByteSize + 1) then msgLen = true ∧ ¬ Storable w n s
    else Storable w n s
  | .error _ => Storable w n s
  | .getCursorName _ _ =>
    ((plain s).takeWhile w.holds).length < n ∧
      ((∀ c ∈ plain s, w.holds c = true) → '\x00' ∉ s.toList)
  | .colAttribute _ _ _ =>
    (∀ c ∈ plain s, w.holds c = true) ∧ (plain s).length < n → '\x00' ∉ s.toList

end OutputCall

/-! ## Return codes -/

section Flags

variable {w : WcharSize} {n : Nat} {s : String} {o : StringOutput}

theorem completeOrFlagged_iff {stored : List Char} (hwritten : o.written = stored ++ ['\x00'])
    (hstart : stored <+: s.toList) :
    CompleteOrFlagged n s o ↔
      stored.length < n ∧ (o.result = .success ↔ stored = s.toList) ∧
        (stored ≠ s.toList → o.result = .successWithInfo) := by
  have hlen : o.written.length = stored.length + 1 := by simp [hwritten]
  constructor
  · rintro ⟨stored', hwritten', _, hle, hcode⟩
    obtain rfl := List.append_cancel_right (hwritten.symm.trans hwritten')
    exact ⟨by omega, hcode⟩
  · rintro ⟨hlt, hcode⟩
    exact ⟨stored, hwritten, hstart, by omega, hcode⟩

/-- A call that writes what fits. -/
theorem completeOrFlagged_take_iff (hn : 0 < n)
    (hwritten : o.written = (reach w s).take (n - 1) ++ ['\x00']) :
    CompleteOrFlagged n s o ↔
      (o.result = .success ↔ Storable w n s) ∧
        (¬ Storable w n s → o.result = .successWithInfo) := by
  rw [completeOrFlagged_iff hwritten (take_reach_starts s _), ← take_reach_eq_iff hn]
  have hlen : ((reach w s).take (n - 1)).length < n := by
    rw [List.length_take]
    omega
  simp only [hlen, true_and, ne_eq]

/-- A call whose return code is the flag. -/
theorem completeOrFlagged_flag_iff {k : Nat}
    (hwritten : o.written = (reach w s).take k ++ ['\x00'])
    (hresult : o.result =
      if decide ((reach w s).take k ≠ plain s) then .successWithInfo else .success) :
    CompleteOrFlagged n s o ↔
      min k (reach w s).length < n ∧
        ((∀ c ∈ plain s, w.holds c = true) ∧ (plain s).length ≤ k → '\x00' ∉ s.toList) := by
  rw [completeOrFlagged_iff hwritten (take_reach_starts s k), List.length_take,
    ← take_reach_flag_iff, hresult]
  refine and_congr_right fun _ => ?_
  by_cases hplain : (reach w s).take k = plain s
  · simp [hplain]
  · simp [hplain]

end Flags

namespace OutputCall

variable {w : WcharSize} {n : Nat} {s : String}

theorem driverConnect_iff (hn : 0 < n) {H : Host} {c : Connection} {store : DsnStore}
    {connectStr : String} (htext : text (.driverConnect H c store connectStr) = some s) :
    CompleteOrFlagged n s (perform w n (.driverConnect H c store connectStr)) ↔
      Fits w n s (.driverConnect H c store connectStr) := by
  simp only [text, Option.ite_none_left_eq_some, Option.some.injEq] at htext
  obtain ⟨hconnected, rfl⟩ := htext
  have hresult : (c.internalEstablish H store connectStr.toList).2.result = .success ∨
      (c.internalEstablish H store connectStr.toList).2.result = .successWithInfo :=
    Connection.internalEstablishConfig_result hconnected
  have hcopied : perform w n (.driverConnect H c store connectStr) =
      { result := (c.internalEstablish H store connectStr.toList).2.result
        written := (copyStringToBuffer w connectStr true n false).written
        length := some (toSmallInt (copyStringToBuffer w connectStr true n false).length) } := by
    have hno : ¬ ((c.internalEstablish H store connectStr.toList).2.result ≠ .success ∧
        (c.internalEstablish H store connectStr.toList).2.result ≠ .successWithInfo) :=
      fun hne => hresult.elim hne.1 hne.2
    exact if_neg hno
  rw [hcopied, completeOrFlagged_take_iff hn (copyStringToBuffer_written connectStr hn), Fits]
  refine and_iff_left_of_imp fun hcode hno => ?_
  exact hresult.resolve_left fun hsuccess => hno (hcode.mp hsuccess)

theorem getDiagRec_iff (hn : 0 < n) {records : List DiagnosticRecord} {recNum : Int} {msgLen : Bool}
    (htext : text (.getDiagRec records recNum msgLen) = some s) :
    CompleteOrFlagged n s (perform w n (.getDiagRec records recNum msgLen)) ↔
      Fits w n s (.getDiagRec records recNum msgLen) := by
  simp only [text, Option.ite_none_left_eq_some, Option.map_eq_some_iff] at htext
  obtain ⟨hnum, record, hrecord, rfl⟩ := htext
  have hno : ¬ (recNum < 1 ∨ (n : Int) < 0) := by omega
  change CompleteOrFlagged n record.message (sqlGetDiagRec w records recNum msgLen n) ↔ _
  unfold sqlGetDiagRec Fits
  rw [if_neg hno, hrecord]
  simp only [Int.toNat_natCast]
  split
  · cases msgLen with
    | false =>
      refine iff_of_false ?_ (by simp)
      rintro ⟨stored, hwritten, _⟩
      simp at hwritten
    | true =>
      simp only [Bool.true_eq_false, if_false]
      rw [completeOrFlagged_take_iff hn (copyStringToBuffer_written record.message hn)]
      simp
  · rw [completeOrFlagged_take_iff hn (copyStringToBuffer_written record.message hn)]
    simp

theorem error_iff (hn : 0 < n) {records : List (DiagnosticRecord × Bool)}
    (htext : text (.error records) = some s) :
    CompleteOrFlagged n s (perform w n (.error records)) ↔ Fits w n s (.error records) := by
  simp only [text, Option.map_eq_some_iff] at htext
  obtain ⟨record, hrecord, rfl⟩ := htext
  change CompleteOrFlagged n record.1.message (sqlError w records n) ↔ _
  unfold sqlError Fits
  rw [hrecord]
  simp only
  rw [completeOrFlagged_take_iff hn (copyStringToBuffer_written record.1.message hn)]
  simp

theorem getCursorName_iff {names : CursorNames} {stmt : Nat}
    (htext : text (.getCursorName names stmt) = some s) :
    CompleteOrFlagged n s (perform w n (.getCursorName names stmt)) ↔
      Fits w n s (.getCursorName names stmt) := by
  have hname : names.getCursorName stmt = s := Option.some.inj htext
  have hcopy := copyUtf8_buffer (w := w) s (Nat.succ_pos n) false
  change CompleteOrFlagged n s (sqlGetCursorName w names stmt n) ↔ _
  unfold sqlGetCursorName
  rw [hname, hcopy, completeOrFlagged_flag_iff rfl rfl, Fits]
  have hshort : min (n + 1 - 1) (reach w s).length < n ↔ (reach w s).length < n := by omega
  refine (and_congr_left' hshort).trans (and_congr_right fun hlt => imp_congr_left ?_)
  constructor
  · intro hboth
    exact hboth.1
  · intro hholds
    refine ⟨hholds, ?_⟩
    rw [← reach_eq_plain_iff.mpr hholds]
    omega

theorem colAttribute_iff (hn : 0 < n) {columns : List ColumnMeta} {columnNum : Nat}
    {fieldId : CharAttribute} (htext : text (.colAttribute columns columnNum fieldId) = some s) :
    CompleteOrFlagged n s (perform w n (.colAttribute columns columnNum fieldId)) ↔
      Fits w n s (.colAttribute columns columnNum fieldId) := by
  simp only [text, Option.ite_none_left_eq_some, Option.map_eq_some_iff] at htext
  obtain ⟨hnum, column, hcolumn, rfl⟩ := htext
  have hno : ¬ (columns.length < columnNum ∨ columnNum < 1) := by
    obtain ⟨hlt, _⟩ := List.getElem?_eq_some_iff.mp hcolumn
    omega
  obtain ⟨hwritten, hflag⟩ := copyStringToBuffer_bytes (w := w) (column.getAttribute fieldId) hn
  change CompleteOrFlagged n _ (sqlColAttribute w columns columnNum fieldId (n * w.bytes)) ↔ _
  unfold sqlColAttribute
  rw [if_neg hno, hcolumn]
  simp only [hwritten, hflag]
  rw [completeOrFlagged_flag_iff rfl rfl, Fits]
  have hshort : min (n - 1) (reach w (column.getAttribute fieldId)).length < n := by omega
  have hle : (plain (column.getAttribute fieldId)).length ≤ n - 1 ↔
      (plain (column.getAttribute fieldId)).length < n := by omega
  simp only [hshort, hle, true_and]

/-- The strings that the calls return are complete or flagged exactly when they fit in the way the
call looks at. -/
theorem complete_or_flagged_iff (w : WcharSize) (n : Nat) (hn : 0 < n) (call : OutputCall)
    (s : String) (htext : call.text = some s) :
    CompleteOrFlagged n s (call.perform w n) ↔ call.Fits w n s := by
  cases call with
  | driverConnect H c store connectStr => exact driverConnect_iff hn htext
  | getDiagRec records recNum msgLen => exact getDiagRec_iff hn htext
  | error records => exact error_iff hn htext
  | getCursorName names stmt => exact getCursorName_iff htext
  | colAttribute columns columnNum fieldId => exact colAttribute_iff hn htext

section Examples

def messageOf (message : String) : DiagnosticRecord :=
  { sqlState := .s01000GeneralWarning, message }

/-- In a buffer of four characters `SQLGetDiagRec` stores the whole message. -/
theorem complete_or_flagged_abc :
    (0 < 4 ∧ text (.getDiagRec [messageOf "abc"] 1 true) = some "abc") ∧
      CompleteOrFlagged 4 "abc" (perform .two 4 (.getDiagRec [messageOf "abc"] 1 true)) := by
  refine ⟨by decide, (complete_or_flagged_iff .two 4 (by decide) _ "abc" (by decide)).mpr ?_⟩
  have hlarge : ¬ ((4 : Nat) : Int) < toSmallInt ("abc".utf8ByteSize + 1) := by decide +kernel
  simp only [Fits]
  rw [if_neg hlarge]
  have hholds : "abc".toList.all WcharSize.two.holds = true := by decide
  exact ⟨by decide, List.all_eq_true.mp hholds, by decide⟩

/-- `SQLError` does not flag a message that is cut, `SQLGetDiagRec` flags one that is not, and
`SQLGetCursorName` writes three characters to a buffer of two. -/
theorem output_notFlagged :
    ¬ CompleteOrFlagged 2 "abc" (perform .two 2 (.error [(messageOf "abc", false)])) ∧
      ¬ CompleteOrFlagged 2 "é" (perform .two 2 (.getDiagRec [messageOf "é"] 1 true)) ∧
      ¬ CompleteOrFlagged 2 "abc"
        (perform .two 2 (.getCursorName (({} : CursorNames).addCursorName 0 "abc") 0)) := by
  refine ⟨?_, ?_, ?_⟩
  · rintro ⟨stored, hwritten, _, _, hcode, _⟩
    obtain rfl := hcode.mp rfl
    exact absurd hwritten (by decide)
  · rintro ⟨stored, hwritten, _, _, hcode, _⟩
    have hstored : ['é', '\x00'] = stored ++ ['\x00'] := hwritten
    obtain rfl : ['é'] = stored := List.append_cancel_right hstored
    exact absurd (hcode.mpr (by decide)) (by decide)
  · rintro ⟨_, _, _, hlen, _⟩
    exact absurd hlen (by decide)

end Examples

end OutputCall

end TrinoOdbc
