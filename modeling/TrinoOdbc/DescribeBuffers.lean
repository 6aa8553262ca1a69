import TrinoOdbc.ColumnRows
import TrinoOdbc.SlotLayout
import TrinoOdbc.TrinoColumn
import TrinoOdbc.WideStrings

/-!
# TrinoOdbc.DescribeBuffers

The rows of a `DESCRIBE` in memory: `MakeRequestGetColumnsMetaPerTable` binds three local arrays,
all with one length, and reads each row back from them.

* `conversion_within_iff` — what a row writes stays in the arrays.
* `describeLoop_eq` — what is recorded of rows that stay in the arrays.
* `describe_holds_iff` — for which results both are right.
* `describeLoop_contents` — such rows are recorded as if each array were memory of its own.
-/

namespace TrinoOdbc

open ByteMemory
open ApplicationDataBuffer

/-! ## The arrays -/

/-- The texts of a row. -/
structure DescribeRow where
  columnName : String
  dataType : String
  remarks : String

/-- `SQLWCHAR columnName[STRING_BUFFER_SIZE]`, `char dataType[64]` and `char remarks[64]`. -/
inductive DescribeArray where
  | columnName | dataType | remarks
  deriving DecidableEq

namespace DescribeArray

def type : DescribeArray → OdbcNativeType
  | .columnName => .wchar
  | .dataType | .remarks => .char

/-- In bytes. -/
def size (w : WcharSize) : DescribeArray → Nat
  | .columnName => stringBufferSize * w.bytes
  | .dataType | .remarks => 64

def text (row : DescribeRow) : DescribeArray → String
  | .columnName => row.columnName
  | .dataType => row.dataType
  | .remarks => row.remarks

end DescribeArray

/-- The places of the arrays. -/
structure DescribeFrame (w : WcharSize) where
  address : DescribeArray → Int
  apart : ∀ a b, a ≠ b → address a + a.size w ≤ address b ∨ address b + b.size w ≤ address a

namespace DescribeFrame

/-- Every array is bound with `STRING_BUFFER_SIZE` bytes, and without an indicator. -/
def buffer {w : WcharSize} (F : DescribeFrame w) (a : DescribeArray) : ApplicationDataBuffer :=
  { type := a.type, buffer := some (F.address a), buflen := stringBufferSize, reslen := none }

end DescribeFrame

/-- The columns of a `DESCRIBE` are strings. -/
def describeColumn : ColumnMeta := .readMetadata { name := "", scalarType := some .varchar }

/-- `GetString` of a buffer without an indicator, whose text ends with a zero. What is behind
`maxLen` is cut off. -/
def ApplicationDataBuffer.getString (P : Platform) (b : ApplicationDataBuffer) (m : Memory)
    (maxLen : Nat) : Option (List UInt8) :=
  match b.getData with
  | none => some []
  | some base =>
    match b.type with
    | .char => some ((read m base maxLen).takeWhile (· ≠ 0))
    | .wchar =>
      (sqlWcharUnitsToString P.wchar (some (P.wchar.readUnits m base maxLen)) sqlNts true).map
        (List.take maxLen)
    | _ => some []

/-- `Read`, from the buffers that are bound to the columns. -/
def ColumnMeta.readBuffers (P : Platform) (F : DescribeFrame P.wchar) (c : ColumnMeta) (m : Memory)
    (position : Int) : Option ColumnMeta :=
  match (F.buffer .columnName).getString P m stringBufferSize,
    (F.buffer .dataType).getString P m stringBufferSize,
    (F.buffer .remarks).getString P m stringBufferSize with
  | some columnName, some dataType, some remarks =>
    some
      { c with
        columnName := some (bytesString columnName)
        dataType := some (ColumnMeta.getScalarDataType (bytesString dataType))
        remarks := some (bytesString remarks)
        nullability :=
          if bytesString remarks = "MEASURE_VALUE" ∨ bytesString remarks = "MULTI" then .nullable
          else .noNull
        ordinalPosition := position }
  | _, _, _ => none

namespace DescribeFrame

variable (P : Platform) (F : DescribeFrame P.wchar)

/-- The conversion of a column. -/
def conversion (row : DescribeRow) (a : DescribeArray) : Except PutFault Conversion :=
  readToBuffer P describeColumn (.scalar (a.text row)) (F.buffer a)

/-- `ReadColumnToBuffer`. -/
def readColumn (row : DescribeRow) (m : Memory) (a : DescribeArray) : Except PutFault Memory :=
  (F.conversion P row a).map fun c => apply m (F.address a) c.writes

/-- `FetchNextRow`. No conversion of a text fails, so that it is a success. -/
def fetchNextRow (m : Memory) (row : DescribeRow) : Except PutFault Memory :=
  [DescribeArray.columnName, .dataType, .remarks].foldlM (F.readColumn P row) m

/-- Whether a row is taken for the argument. -/
def takesRow (column : String) (m : Memory) : Option Bool :=
  if column = "%" then some true
  else
    (sqlWcharUnitsToString P.wchar
        (some (P.wchar.readUnits m (F.address .columnName) stringBufferSize)) stringBufferSize
        false).map fun name => decide (column = bytesString name)

/-- The loop of `MakeRequestGetColumnsMetaPerTable` over the rows: what is recorded, with the row it
is recorded for. -/
def describeLoop (S : Setting) (column databaseName tableName : String) :
    Memory → Int → List DescribeRow → Except PutFault (List (DescribeRow × ColumnMeta))
  | _, _, [] => .ok []
  | m, prevPosition, row :: rows =>
    match F.fetchNextRow P m row with
    | .error e => .error e
    | .ok m =>
      match F.takesRow P column m with
      | none => .error .exception
      | some false => describeLoop S column databaseName tableName m prevPosition rows
      | some true =>
        match (ColumnMeta.ofTable S databaseName tableName).readBuffers P F m (prevPosition + 1) with
        | none => .error .exception
        | some c =>
          (describeLoop S column databaseName tableName m (prevPosition + 1) rows).map
            ((row, c) :: ·)

end DescribeFrame

/-! ## What is to hold -/

/-- A string as the bytes of a `std::string`. -/
def stdString (s : String) : String := bytesString (Utf8.encode s.toList)

/-- What is recorded for a row is its name, the type of its type text, and its role text. -/
def DescribeRow.RecordedAs (row : DescribeRow) (c : ColumnMeta) : Prop :=
  c.columnName = some (stdString row.columnName) ∧
    c.dataType = some (ColumnMeta.getScalarDataType (stdString row.dataType)) ∧
    c.remarks = some (stdString row.remarks)

/-- Nothing is written outside the arrays, and every row that is recorded is recorded as it is. -/
def DescribeHolds (P : Platform) (F : DescribeFrame P.wchar) (S : Setting)
    (column databaseName tableName : String) (rows : List DescribeRow) : Prop :=
  (∀ row ∈ rows, ∀ a, ∃ c, F.conversion P row a = .ok c ∧ Within 0 (a.size P.wchar) c.writes) ∧
    ∀ m, ∃ recorded, F.describeLoop P S column databaseName tableName m 0 rows = .ok recorded ∧
      ∀ x ∈ recorded, x.1.RecordedAs x.2

/-! ## When it holds -/

/-- What there is of a name in the array. -/
def shownName (w : WcharSize) (name : String) : List Char :=
  (reach w name).take (stringBufferSize / w.bytes - 1)

/-- What there is of a text in an array of `char`s that is long enough. -/
def shownText (P : Platform) (text : String) : List UInt8 :=
  narrowed P (Utf8.encode (plain text))

/-- The rows that the code takes. -/
def DescribeRow.Taken (w : WcharSize) (column : String) (row : DescribeRow) : Prop :=
  column = "%" ∨ column = bytesString (Utf8.encode (shownName w row.columnName))

/-- A name that fits, in `SQLWCHAR`s and in bytes. -/
def NameKept (w : WcharSize) (name : String) : Prop :=
  Storable w (stringBufferSize / w.bytes) name ∧ (Utf8.encode name.toList).length ≤ stringBufferSize

def typeNames : List String :=
  ["varchar", "bigint", "double", "boolean", "timestamp", "date", "time", "integer",
    "interval day to second", "interval year to month"]

/-- A type text that is not shown as the name of another type. -/
def TypeKept (P : Platform) (text : String) : Prop :=
  ∀ name ∈ typeNames, shownText P text = Utf8.encode name.toList → text = name

/-- A text in characters that the locale does not change. -/
def TextKept (P : Platform) (text : String) : Prop :=
  '\x00' ∉ text.toList ∧ (P.ansiStringOnly = true ∨ ∀ c ∈ text.toList, c.toNat < 128)

/-- The texts of the row fit in the small arrays, and a row that is taken is kept. -/
def DescribeRow.Fits (P : Platform) (column : String) (row : DescribeRow) : Prop :=
  (shownText P row.dataType).length < 64 ∧ (shownText P row.remarks).length < 64 ∧
    (row.Taken P.wchar column →
      NameKept P.wchar row.columnName ∧ TypeKept P row.dataType ∧ TextKept P row.remarks)

/-! ## What a row writes -/

section Conversions

variable {P : Platform} {F : DescribeFrame P.wchar} {row : DescribeRow}

theorem getData_buffer (a : DescribeArray) : (F.buffer a).getData = some (F.address a) := by
  simp [DescribeFrame.buffer, getData, applyOffset]

/-- The bytes that a row writes in an array. -/
def writtenBytes (P : Platform) (row : DescribeRow) : DescribeArray → List UInt8
  | .columnName => wideBytes P.wchar (shownName P.wchar row.columnName ++ ['\x00'])
  | .dataType => (shownText P row.dataType).take (stringBufferSize - 1) ++ [0]
  | .remarks => (shownText P row.remarks).take (stringBufferSize - 1) ++ [0]

theorem units_mul_bytes (w : WcharSize) :
    stringBufferSize = stringBufferSize / w.bytes * w.bytes := by
  cases w <;> rfl

theorem units_pos (w : WcharSize) : 1 ≤ stringBufferSize / w.bytes := by
  cases w <;> decide

theorem conversion_narrow {a : DescribeArray} (htype : a.type = .char) :
    ∃ resLen result, F.conversion P row a =
      .ok ⟨[(0, (shownText P (a.text row)).take (stringBufferSize - 1) ++ [0])], resLen, result⟩ := by
  have hput := putStrToStrBuffer_narrow_eq (P := P) (Utf8.encode (a.text row).toList)
    (getData_buffer (F := F) a) (show 1 ≤ stringBufferSize by decide)
  rw [if_pos (isText_encode _), beforeZero, Utf8.takeWhile_encode] at hput
  have hstring : F.conversion P row a =
      (F.buffer a).putStrToStrBuffer P false (Utf8.encode (a.text row).toList) := by
    change putString P _ (F.buffer a) = _
    unfold putString
    rw [show (F.buffer a).type = .char from htype]
  exact ⟨_, _, hstring.trans hput⟩

theorem conversion_wide :
    ∃ resLen result, F.conversion P row .columnName =
      .ok ⟨[(0, wideBytes P.wchar (shownName P.wchar row.columnName ++ ['\x00']))], resLen,
        result⟩ := by
  have hput := putStrToStrBuffer_wide_eq (P := P) (Utf8.encode row.columnName.toList)
    (getData_buffer (F := F) .columnName) (units_mul_bytes P.wchar) (units_pos P.wchar)
  rw [beforeZero, Utf8.takeWhile_encode, Utf8.decode_encode] at hput
  exact ⟨_, _, hput⟩

theorem conversion_ok (a : DescribeArray) :
    ∃ resLen result, F.conversion P row a = .ok ⟨[(0, writtenBytes P row a)], resLen, result⟩ := by
  cases a with
  | columnName => exact conversion_wide
  | dataType => exact conversion_narrow rfl
  | remarks => exact conversion_narrow rfl

theorem length_shownName_lt (w : WcharSize) (name : String) :
    (shownName w name).length < stringBufferSize / w.bytes := by
  have hle := List.length_take_le (stringBufferSize / w.bytes - 1) (reach w name)
  have hpos := units_pos w
  unfold shownName
  omega

/-- The name stays in its array. -/
theorem length_writtenBytes_columnName :
    (writtenBytes P row .columnName).length ≤ DescribeArray.columnName.size P.wchar := by
  have hlt := length_shownName_lt P.wchar row.columnName
  have hle : stringBufferSize / P.wchar.bytes ≤ stringBufferSize := Nat.div_le_self _ _
  rw [writtenBytes, length_wideBytes, List.length_append, List.length_singleton]
  exact Nat.mul_le_mul_right _ (by omega)

theorem length_writtenBytes_iff :
    (∀ a, (writtenBytes P row a).length ≤ a.size P.wchar) ↔
      (shownText P row.dataType).length < 64 ∧ (shownText P row.remarks).length < 64 := by
  have hlen (text : String) :
      ((shownText P text).take (stringBufferSize - 1) ++ [0]).length ≤ 64 ↔
        (shownText P text).length < 64 := by
    rw [List.length_append, List.length_take, List.length_singleton]
    unfold stringBufferSize
    omega
  constructor
  · intro h
    exact ⟨(hlen _).mp (h .dataType), (hlen _).mp (h .remarks)⟩
  · rintro ⟨htype, hremarks⟩ a
    cases a with
    | columnName => exact length_writtenBytes_columnName
    | dataType => exact (hlen _).mpr htype
    | remarks => exact (hlen _).mpr hremarks

theorem writtenBytes_ne_nil (a : DescribeArray) : writtenBytes P row a ≠ [] := by
  cases a with
  | columnName =>
    intro h
    have hlen := congrArg List.length h
    have hpos := P.wchar.bytes_pos
    rw [writtenBytes, length_wideBytes, List.length_append, List.length_singleton,
      Nat.succ_mul] at hlen
    simp at hlen
    omega
  | dataType => simp [writtenBytes]
  | remarks => simp [writtenBytes]

/-- What a row writes stays in the arrays exactly when the texts fit in the small ones. -/
theorem conversion_within_iff :
    (∀ a, ∃ c, F.conversion P row a = .ok c ∧ Within 0 (a.size P.wchar) c.writes) ↔
      (shownText P row.dataType).length < 64 ∧ (shownText P row.remarks).length < 64 := by
  rw [← length_writtenBytes_iff]
  refine forall_congr' fun a => ?_
  obtain ⟨resLen, result, hconversion⟩ := @conversion_ok P F row a
  constructor
  · rintro ⟨c, hc, hwithin⟩
    obtain rfl := Except.ok.inj (hconversion.symm.trans hc)
    have hbounds := hwithin _ List.mem_cons_self (writtenBytes_ne_nil a)
    simpa using hbounds
  · intro hle
    exact ⟨_, hconversion, within_singleton le_rfl (by simpa using hle)⟩

end Conversions

/-! ## What is read back -/

section ReadBack

variable {P : Platform} {F : DescribeFrame P.wchar} {row : DescribeRow}

/-- Memory after a row has been fetched. -/
def fetched (P : Platform) (F : DescribeFrame P.wchar) (m : Memory) (row : DescribeRow) : Memory :=
  write
    (write (write m (F.address .columnName) (writtenBytes P row .columnName)) (F.address .dataType)
      (writtenBytes P row .dataType))
    (F.address .remarks) (writtenBytes P row .remarks)

theorem readColumn_eq (m : Memory) (a : DescribeArray) :
    F.readColumn P row m a = .ok (write m (F.address a) (writtenBytes P row a)) := by
  obtain ⟨resLen, result, hconversion⟩ := @conversion_ok P F row a
  unfold DescribeFrame.readColumn
  rw [hconversion]
  simp only [Except.map, apply_cons, apply_nil, Int.add_zero]

theorem fetchNextRow_eq (m : Memory) : F.fetchNextRow P m row = .ok (fetched P F m row) := by
  unfold DescribeFrame.fetchNextRow
  simp only [List.foldlM_cons, List.foldlM_nil, readColumn_eq]
  rfl

/-- Where every text fits, a row leaves in each array what it has written there. -/
theorem read_fetched (hfits : ∀ a, (writtenBytes P row a).length ≤ a.size P.wchar) (m : Memory)
    (a : DescribeArray) :
    read (fetched P F m row) (F.address a) (writtenBytes P row a).length = writtenBytes P row a := by
  have hapart (a' : DescribeArray) (hne : a' ≠ a) :
      F.address a + (writtenBytes P row a).length ≤ F.address a' ∨
        F.address a' + (writtenBytes P row a').length ≤ F.address a := by
    have hsize := hfits a
    have hsize' := hfits a'
    rcases F.apart a' a hne with h | h
    · exact .inr (by omega)
    · exact .inl (by omega)
  unfold fetched
  cases a with
  | columnName =>
    rw [read_write_outside _ (hapart .remarks nofun), read_write_outside _ (hapart .dataType nofun),
      read_write_self]
  | dataType => rw [read_write_outside _ (hapart .remarks nofun), read_write_self]
  | remarks => rw [read_write_self]

theorem holds_shownName {w : WcharSize} {name : String} :
    ∀ c ∈ shownName w name, w.holds c = true := by
  intro c hc
  exact List.mem_takeWhile_imp (List.mem_of_mem_take hc)

theorem zero_not_mem_shownName {w : WcharSize} {name : String} : '\x00' ∉ shownName w name := by
  intro hmem
  have hplain := (List.takeWhile_prefix _).subset (List.mem_of_mem_take hmem)
  simpa using List.mem_takeWhile_imp hplain

theorem zero_not_mem_shownText (text : String) : 0 ∉ shownText P text := by
  have hzero := zero_not_mem_narrowed (P := P) (Utf8.encode text.toList)
  rwa [beforeZero, Utf8.takeWhile_encode] at hzero

variable (hfits : ∀ a, (writtenBytes P row a).length ≤ a.size P.wchar) (m : Memory)
include hfits

theorem toBytes_columnName :
    toBytes ((P.wchar.readUnits (fetched P F m row) (F.address .columnName)
        stringBufferSize).takeWhile (· ≠ 0)) =
      some (Utf8.encode (shownName P.wchar row.columnName)) := by
  have hlt := length_shownName_lt P.wchar row.columnName
  have hle : stringBufferSize / P.wchar.bytes ≤ stringBufferSize := Nat.div_le_self _ _
  exact toBytes_readUnits holds_shownName zero_not_mem_shownName (by omega)
    (read_fetched hfits m .columnName)

theorem getString_columnName :
    (F.buffer .columnName).getString P (fetched P F m row) stringBufferSize =
      some ((Utf8.encode (shownName P.wchar row.columnName)).take stringBufferSize) := by
  have hname := toBytes_columnName (F := F) hfits m
  unfold ApplicationDataBuffer.getString
  rw [getData_buffer]
  simp only [DescribeFrame.buffer, DescribeArray.type, sqlWcharUnitsToString_nts, hname,
    Option.map_some]

theorem getString_text {a : DescribeArray} (htype : a.type = .char)
    (hshort : (shownText P (a.text row)).length < 64) :
    (F.buffer a).getString P (fetched P F m row) stringBufferSize =
      some (shownText P (a.text row)) := by
  have hread := read_fetched (F := F) hfits m a
  have hwritten : writtenBytes P row a = shownText P (a.text row) ++ [0] := by
    have hall : (shownText P (a.text row)).take (stringBufferSize - 1) = shownText P (a.text row) :=
      List.take_of_length_le (by unfold stringBufferSize; omega)
    cases a with
    | columnName => cases htype
    | dataType => exact congrArg (· ++ [0]) hall
    | remarks => exact congrArg (· ++ [0]) hall
  rw [hwritten] at hread
  unfold ApplicationDataBuffer.getString
  rw [getData_buffer]
  simp only [DescribeFrame.buffer, htype]
  exact congrArg some
    (takeWhile_read (zero_not_mem_shownText _) (by unfold stringBufferSize; omega) hread)

theorem takesRow_fetched (column : String) :
    ∃ taken, F.takesRow P column (fetched P F m row) = some taken ∧
      (taken = true ↔ row.Taken P.wchar column) := by
  unfold DescribeFrame.takesRow DescribeRow.Taken
  by_cases hall : column = "%"
  · exact ⟨true, if_pos hall, by simp [hall]⟩
  · have hname := toBytes_columnName (F := F) hfits m
    have hunits : (P.wchar.readUnits (fetched P F m row) (F.address .columnName)
        stringBufferSize).length = stringBufferSize := length_readUnits _ _ _ _
    have hpos : 0 < (P.wchar.readUnits (fetched P F m row) (F.address .columnName)
        stringBufferSize).length := by
      rw [hunits]
      decide
    have hcount := sqlWcharUnitsToString_count (w := P.wchar) hpos
    rw [hunits, hname] at hcount
    refine ⟨_, (if_neg hall).trans (congrArg (Option.map _) hcount), ?_⟩
    simp [hall]

omit hfits in
/-- The row that is recorded. -/
def shownMeta (P : Platform) (S : Setting) (databaseName tableName : String) (row : DescribeRow)
    (position : Int) : ColumnMeta :=
  { ColumnMeta.ofTable S databaseName tableName with
    columnName := some (bytesString
      ((Utf8.encode (shownName P.wchar row.columnName)).take stringBufferSize))
    dataType := some (ColumnMeta.getScalarDataType (bytesString (shownText P row.dataType)))
    remarks := some (bytesString (shownText P row.remarks))
    nullability :=
      if bytesString (shownText P row.remarks) = "MEASURE_VALUE" ∨
          bytesString (shownText P row.remarks) = "MULTI" then .nullable
      else .noNull
    ordinalPosition := position }

theorem readBuffers_fetched (S : Setting) (databaseName tableName : String) (position : Int)
    (hshort : (shownText P row.dataType).length < 64 ∧ (shownText P row.remarks).length < 64) :
    (ColumnMeta.ofTable S databaseName tableName).readBuffers P F (fetched P F m row) position =
      some (shownMeta P S databaseName tableName row position) := by
  have hname := getString_columnName (F := F) hfits m
  have htype := getString_text (F := F) hfits m (a := .dataType) rfl hshort.1
  have hremarks := getString_text (F := F) hfits m (a := .remarks) rfl hshort.2
  unfold ColumnMeta.readBuffers
  rw [hname, htype, hremarks]
  rfl

end ReadBack

/-! ## What is recorded -/

section Recorded

variable {P : Platform} {F : DescribeFrame P.wchar} {S : Setting}
  {column databaseName tableName : String} {rows : List DescribeRow}

instance (w : WcharSize) (column : String) (row : DescribeRow) : Decidable (row.Taken w column) :=
  inferInstanceAs (Decidable (_ ∨ _))

/-- The rows that are taken, with what is recorded for them. -/
def recordedRows (P : Platform) (S : Setting) (column databaseName tableName : String) :
    Int → List DescribeRow → List (DescribeRow × ColumnMeta)
  | _, [] => []
  | position, row :: rows =>
    if row.Taken P.wchar column then
      (row, shownMeta P S databaseName tableName row (position + 1)) ::
        recordedRows P S column databaseName tableName (position + 1) rows
    else recordedRows P S column databaseName tableName position rows

/-- What is recorded of rows that stay in the arrays, whatever was in memory before. -/
theorem describeLoop_eq
    (hshort : ∀ row ∈ rows,
      (shownText P row.dataType).length < 64 ∧ (shownText P row.remarks).length < 64)
    (m : Memory) (position : Int) :
    DescribeFrame.describeLoop P F S column databaseName tableName m position rows =
      .ok (recordedRows P S column databaseName tableName position rows) := by
  induction rows generalizing m position with
  | nil => rfl
  | cons row rows ih =>
    have hrow := hshort row List.mem_cons_self
    have hfits := length_writtenBytes_iff.mpr hrow
    have hrest := ih fun row' hrow' => hshort row' (List.mem_cons_of_mem row hrow')
    obtain ⟨taken, htakes, htaken⟩ := takesRow_fetched (F := F) hfits m column
    unfold DescribeFrame.describeLoop recordedRows
    simp only [fetchNextRow_eq, htakes]
    cases taken with
    | false =>
      rw [if_neg (fun h => Bool.false_ne_true (htaken.mpr h))]
      exact hrest _ _
    | true =>
      rw [if_pos (htaken.mp rfl)]
      simp only [readBuffers_fetched hfits m S databaseName tableName (position + 1) hrow, hrest]
      rfl

theorem recordedRows_iff (position : Int) :
    (∀ x ∈ recordedRows P S column databaseName tableName position rows, x.1.RecordedAs x.2) ↔
      ∀ row ∈ rows, row.Taken P.wchar column →
        row.RecordedAs (shownMeta P S databaseName tableName row 0) := by
  induction rows generalizing position with
  | nil => simp [recordedRows]
  | cons row rows ih =>
    unfold recordedRows
    by_cases htaken : row.Taken P.wchar column
    · rw [if_pos htaken, List.forall_mem_cons, List.forall_mem_cons, ih]
      exact and_congr ⟨fun h _ => h, fun h => h htaken⟩ Iff.rfl
    · rw [if_neg htaken, List.forall_mem_cons, ih]
      exact ⟨fun h => ⟨fun htaken' => absurd htaken' htaken, h⟩, And.right⟩

theorem bytesString_inj {xs ys : List UInt8} : bytesString xs = bytesString ys ↔ xs = ys := by
  unfold bytesString
  rw [String.ofList_inj]
  refine List.map_inj_right fun x y h => ?_
  have hvalid (b : UInt8) : b.toNat.isValidChar := .inl (by have := b.toNat_lt; omega)
  have htoNat := congrArg Char.toNat h
  rw [Utf8.toNat_ofNat (hvalid x), Utf8.toNat_ofNat (hvalid y)] at htoNat
  exact UInt8.toNat_inj.mp htoNat

/-- The name that is recorded is the row's name exactly when it fits. -/
theorem name_kept_iff {w : WcharSize} {name : String} :
    bytesString ((Utf8.encode (shownName w name)).take stringBufferSize) = stdString name ↔
      NameKept w name := by
  have hpos := units_pos w
  have hstorable := take_reach_eq_iff (w := w) (s := name) hpos
  have hstarts : Utf8.encode (shownName w name) <+: Utf8.encode name.toList :=
    (take_reach_starts name _).flatMap _
  rw [stdString, bytesString_inj]
  unfold NameKept
  rw [← hstorable]
  change _ ↔ shownName w name = name.toList ∧ _
  constructor
  · intro h
    have hlen := congrArg List.length h
    rw [List.length_take] at hlen
    have heq := hstarts.eq_of_length_le (by omega)
    exact ⟨Utf8.encode_injective heq, by omega⟩
  · rintro ⟨heq, hlen⟩
    rw [heq, List.take_of_length_le hlen]

theorem shownText_ascii {text : String} (hzero : '\x00' ∉ text.toList)
    (hascii : ∀ c ∈ text.toList, c.toNat < 128) : shownText P text = Utf8.encode text.toList := by
  rw [shownText, plain_eq_iff.mpr hzero]
  exact narrowed_ascii hascii

/-- The role text that is recorded is the row's exactly when the locale has its characters. -/
theorem text_kept_iff {text : String} :
    bytesString (shownText P text) = stdString text ↔ TextKept P text := by
  rw [stdString, bytesString_inj]
  unfold TextKept
  constructor
  · intro h
    have hzero : '\x00' ∉ text.toList := by
      intro hmem
      refine zero_not_mem_shownText (P := P) text ?_
      rw [h]
      exact List.mem_flatMap.mpr ⟨_, hmem, Utf8.zero_mem_encodeChar.mpr rfl⟩
    refine ⟨hzero, ?_⟩
    by_cases hansi : P.ansiStringOnly = true
    · exact .inl hansi
    · refine .inr (Utf8.ascii_of_length ?_)
      rw [← h, shownText, plain_eq_iff.mpr hzero, narrowed, if_neg hansi, Utf8.decode_encode,
        List.length_map]
  · rintro ⟨hzero, hansi | hascii⟩
    · rw [shownText, plain_eq_iff.mpr hzero, narrowed, if_pos hansi]
    · exact shownText_ascii hzero hascii

/-- The name of a type in type texts. -/
def typeName : ScalarType → String
  | .varchar => "varchar"
  | .bigint => "bigint"
  | .double => "double"
  | .boolean => "boolean"
  | .timestamp => "timestamp"
  | .date => "date"
  | .time => "time"
  | .integer => "integer"
  | .intervalDayToSecond => "interval day to second"
  | .intervalYearToMonth => "interval year to month"
  | .notSet | .unknown => ""

/-- A type text is the name of its type, or of none. -/
theorem getScalarDataType_spec (s : String) :
    (s ∈ typeNames ∧ typeName (ColumnMeta.getScalarDataType s) = s) ∨
      (s ∉ typeNames ∧ ColumnMeta.getScalarDataType s = .unknown) := by
  by_cases h : s ∈ typeNames
  · refine .inl ⟨h, ?_⟩
    simp only [typeNames, List.mem_cons, List.not_mem_nil, or_false] at h
    rcases h with rfl | rfl | rfl | rfl | rfl | rfl | rfl | rfl | rfl | rfl <;> rfl
  · refine .inr ⟨h, ?_⟩
    simp only [typeNames, List.mem_cons, List.not_mem_nil, or_false, not_or] at h
    obtain ⟨h1, h2, h3, h4, h5, h6, h7, h8, h9, h10⟩ := h
    unfold ColumnMeta.getScalarDataType
    simp only [h1, h2, h3, h4, h5, h6, h7, h8, h9, h10, if_false]

theorem getScalarDataType_eq_iff {s t : String} :
    ColumnMeta.getScalarDataType s = ColumnMeta.getScalarDataType t ↔
      ∀ name ∈ typeNames, s = name ↔ t = name := by
  have hunknown : typeName .unknown ∉ typeNames := by decide
  constructor
  · intro h name hname
    rcases getScalarDataType_spec s with ⟨hs, hsname⟩ | ⟨hs, hsunknown⟩
    · rcases getScalarDataType_spec t with ⟨ht, htname⟩ | ⟨ht, htunknown⟩
      · rw [← hsname, ← htname, h]
      · rw [h, htunknown] at hsname
        rw [← hsname] at hs
        exact absurd hs hunknown
    · rcases getScalarDataType_spec t with ⟨ht, htname⟩ | ⟨ht, htunknown⟩
      · rw [← h, hsunknown] at htname
        rw [← htname] at ht
        exact absurd ht hunknown
      · constructor
        · rintro rfl
          exact absurd hname hs
        · rintro rfl
          exact absurd hname ht
  · intro h
    rcases getScalarDataType_spec s with ⟨hs, -⟩ | ⟨hs, hsunknown⟩
    · rw [(h s hs).mp rfl]
    · rcases getScalarDataType_spec t with ⟨ht, -⟩ | ⟨ht, htunknown⟩
      · rw [(h t ht).mpr rfl]
      · rw [hsunknown, htunknown]

theorem typeNames_ascii :
    ∀ name ∈ typeNames, '\x00' ∉ name.toList ∧ ∀ c ∈ name.toList, c.toNat < 128 := by
  have hall : ∀ name ∈ typeNames, '\x00' ∉ name.toList ∧
      name.toList.all (fun c => c.toNat < 128) = true := by
    decide
  intro name hname
  obtain ⟨hzero, hascii⟩ := hall name hname
  exact ⟨hzero, fun c hc => decide_eq_true_eq.mp (List.all_eq_true.mp hascii c hc)⟩

theorem bytesString_name : ∀ name ∈ typeNames, bytesString (Utf8.encode name.toList) = name := by
  decide +kernel

/-- The type that is recorded is the one of the row's type text exactly when that text is not shown
as the name of another type. -/
theorem type_kept_iff {text : String} :
    ColumnMeta.getScalarDataType (bytesString (shownText P text)) =
        ColumnMeta.getScalarDataType (stdString text) ↔ TypeKept P text := by
  rw [getScalarDataType_eq_iff]
  unfold TypeKept
  refine forall₂_congr fun name hname => ?_
  have hbytes := bytesString_name name hname
  obtain ⟨hzero, hascii⟩ := typeNames_ascii name hname
  have hshown : bytesString (shownText P text) = name ↔
      shownText P text = Utf8.encode name.toList := by
    conv_lhs => rw [← hbytes]
    exact bytesString_inj
  have htext : stdString text = name ↔ text = name := by
    conv_lhs => rw [← hbytes]
    rw [stdString, bytesString_inj]
    constructor
    · intro h
      exact String.toList_inj.mp (Utf8.encode_injective h)
    · rintro rfl
      rfl
  rw [hshown, htext]
  constructor
  · exact Iff.mp
  · intro h
    refine ⟨h, ?_⟩
    rintro rfl
    exact shownText_ascii hzero hascii

theorem recordedAs_iff {row : DescribeRow} (position : Int) :
    row.RecordedAs (shownMeta P S databaseName tableName row position) ↔
      NameKept P.wchar row.columnName ∧ TypeKept P row.dataType ∧ TextKept P row.remarks := by
  unfold DescribeRow.RecordedAs shownMeta
  simp only [Option.some.injEq]
  rw [name_kept_iff, type_kept_iff, text_kept_iff]

/-- Only the array for the name is as long as its binding says. For every result, the rows are read
in bounds and recorded as they are exactly when their texts fit. -/
theorem describe_holds_iff (P : Platform) (F : DescribeFrame P.wchar) (S : Setting)
    (column databaseName tableName : String) (rows : List DescribeRow) :
    (∀ a, (F.buffer a).buflen ≤ a.size P.wchar ↔ a = .columnName) ∧
      (DescribeHolds P F S column databaseName tableName rows ↔
        ∀ row ∈ rows, row.Fits P column) := by
  constructor
  · intro a
    have hpos := P.wchar.bytes_pos
    cases a with
    | columnName => exact iff_of_true (Nat.le_mul_of_pos_right _ hpos) rfl
    | dataType => exact iff_of_false (show ¬ stringBufferSize ≤ 64 by decide) nofun
    | remarks => exact iff_of_false (show ¬ stringBufferSize ≤ 64 by decide) nofun
  · have hshort : (∀ row ∈ rows, ∀ a, ∃ c, F.conversion P row a = .ok c ∧
        Within 0 (a.size P.wchar) c.writes) ↔ ∀ row ∈ rows,
          (shownText P row.dataType).length < 64 ∧ (shownText P row.remarks).length < 64 :=
      forall₂_congr fun row _ => conversion_within_iff
    unfold DescribeHolds
    rw [hshort]
    constructor
    · rintro ⟨hfits, hrecorded⟩ row hrow
      obtain ⟨recorded, hloop, hall⟩ := hrecorded fun _ => 0
      rw [describeLoop_eq hfits] at hloop
      obtain rfl := Except.ok.inj hloop
      have hrows := (recordedRows_iff 0).mp hall row hrow
      exact ⟨(hfits row hrow).1, (hfits row hrow).2, fun htaken =>
        (recordedAs_iff 0).mp (hrows htaken)⟩
    · intro h
      have hfits : ∀ row ∈ rows,
          (shownText P row.dataType).length < 64 ∧ (shownText P row.remarks).length < 64 :=
        fun row hrow => ⟨(h row hrow).1, (h row hrow).2.1⟩
      refine ⟨hfits, fun m => ⟨_, describeLoop_eq hfits m 0, ?_⟩⟩
      rw [recordedRows_iff]
      intro row hrow htaken
      exact (recordedAs_iff 0).mpr ((h row hrow).2.2 htaken)

end Recorded

/-! ## Arrays without addresses -/

section Contents

variable {P : Platform} {row : DescribeRow}

/-- What a conversion stores from the start of a buffer. -/
def columnPut (P : Platform) : ReadToBuffer := fun column datum b =>
  match readToBuffer P column datum b with
  | .error _ => .failure
  | .ok c => ⟨c.writes.head?.map Prod.snd, c.resLen, c.result⟩

def DescribeRow.data (row : DescribeRow) : Row :=
  [.scalar row.columnName, .scalar row.dataType, .scalar row.remarks]

/-- The frame with the addresses of `describeBindings`. -/
def bindingsFrame (w : WcharSize) : DescribeFrame w where
  address
    | .columnName => 0
    | .dataType => 8192
    | .remarks => 16384
  apart := by
    intro a b hne
    cases w <;> cases a <;> cases b <;> first | exact absurd rfl hne | decide

/-- An array after the conversion of its column. -/
theorem fill_columnPut (a : DescribeArray) (content : List UInt8) :
    fill content
        (columnPut P describeColumn (.scalar (a.text row)) ((bindingsFrame P.wchar).buffer a)) =
      writtenBytes P row a ++ content.drop (writtenBytes P row a).length := by
  obtain ⟨resLen, result, hconversion⟩ :=
    @conversion_ok P (bindingsFrame P.wchar) row a
  unfold DescribeFrame.conversion at hconversion
  unfold fill columnPut
  rw [hconversion]
  rfl

/-- The contents of the arrays after a row. -/
theorem storeRow_contents (m : Contents) :
    let m' := m.storeRow (columnPut P) [describeColumn, describeColumn, describeColumn]
      describeBindings row.data
    (∃ rest, m' 1 = writtenBytes P row .columnName ++ rest) ∧
      (∃ rest, m' 2 = writtenBytes P row .dataType ++ rest) ∧
      ∃ rest, m' 3 = writtenBytes P row .remarks ++ rest :=
  ⟨⟨_, fill_columnPut .columnName (m 1)⟩, ⟨_, fill_columnPut .dataType (m 2)⟩,
    ⟨_, fill_columnPut .remarks (m 3)⟩⟩

theorem wideUnits_wideBytes {chars : List Char} (hholds : ∀ c ∈ chars, WcharSize.two.holds c = true)
    (hzero : '\x00' ∉ chars) (rest : List UInt8) :
    wideUnits (wideBytes .two (chars ++ ['\x00']) ++ rest) = chars.map Char.toNat := by
  induction chars with
  | nil => rfl
  | cons c chars ih =>
    have hc : c.toNat ≤ 65535 := of_decide_eq_true (hholds c List.mem_cons_self)
    have hne : c.toNat ≠ 0 := by
      intro h
      obtain rfl : c = '\x00' := Char.toNat_inj.mp h
      exact hzero List.mem_cons_self
    have hbytes : ∃ low high : UInt8, encode 2 (c.toNat : Int) = [low, high] ∧
        low.toNat + 256 * high.toNat = c.toNat := by
      refine ⟨_, _, rfl, ?_⟩
      have hdecode := decodeNat_encode 2 (c.toNat : Int)
      simp only [encode, decodeNat] at hdecode
      omega
    obtain ⟨low, high, hencode, hunit⟩ := hbytes
    have hrest := ih (fun d hd => hholds d (List.mem_cons_of_mem c hd))
      fun hmem => hzero (List.mem_cons_of_mem c hmem)
    have hcons : wideBytes .two (c :: chars ++ ['\x00']) ++ rest =
        low :: high :: (wideBytes .two (chars ++ ['\x00']) ++ rest) := by
      rw [wideBytes, List.cons_append, List.flatMap_cons, ← wideBytes]
      change encode 2 (c.toNat : Int) ++ _ ++ rest = _
      rw [hencode]
      rfl
    rw [hcons, wideUnits]
    simp only [hunit, if_neg hne, hrest, List.map_cons]

theorem cString_append {bytes rest : List UInt8} (hzero : 0 ∉ bytes) :
    cString (bytes ++ [0] ++ rest) = bytesString bytes := by
  rw [cString, List.append_assoc]
  exact congrArg bytesString (takeWhile_zero hzero)

theorem flatMap_ofNat (chars : List Char) :
    ((chars.map Char.toNat).flatMap fun unit => String.utf8EncodeChar (Char.ofNat unit)) =
      Utf8.encode chars := by
  rw [List.flatMap_map]
  exact congrArg (List.flatMap · chars) (funext fun c => by rw [Char.ofNat_toNat])

theorem cutString_bytesString (bytes : List UInt8) :
    cutString stringBufferSize (bytesString bytes) = bytesString (bytes.take stringBufferSize) := by
  rw [cutString, bytesString, bytesString, String.toList_ofList, ← List.map_take]

/-- What is read from contents that start with what a row has written. -/
theorem read_contents (hwchar : P.wchar = .two)
    (hshort : (shownText P row.dataType).length < 64 ∧ (shownText P row.remarks).length < 64)
    {m : Contents} (hname : ∃ rest, m 1 = writtenBytes P row .columnName ++ rest)
    (htype : ∃ rest, m 2 = writtenBytes P row .dataType ++ rest)
    (hremarks : ∃ rest, m 3 = writtenBytes P row .remarks ++ rest) (S : Setting)
    (databaseName tableName : String) (position : Int) :
    wcharString (m 1) = bytesString (Utf8.encode (shownName P.wchar row.columnName)) ∧
      (ColumnMeta.ofTable S databaseName tableName).read m position =
        shownMeta P S databaseName tableName row position := by
  obtain ⟨rest₁, hname⟩ := hname
  obtain ⟨rest₂, htype⟩ := htype
  obtain ⟨rest₃, hremarks⟩ := hremarks
  have hwhole {text : String} (h : (shownText P text).length < 64) (rest : List UInt8) :
      cutString stringBufferSize
          (cString ((shownText P text).take (stringBufferSize - 1) ++ [0] ++ rest)) =
        bytesString (shownText P text) := by
    rw [List.take_of_length_le (by unfold stringBufferSize; omega),
      cString_append (zero_not_mem_shownText _), cutString_bytesString,
      List.take_of_length_le (by unfold stringBufferSize; omega)]
  have hunits : wcharString (m 1) =
      bytesString (Utf8.encode (shownName P.wchar row.columnName)) := by
    rw [hname, writtenBytes, hwchar, wcharString,
      wideUnits_wideBytes holds_shownName zero_not_mem_shownName, flatMap_ofNat]
  refine ⟨hunits, ?_⟩
  unfold ColumnMeta.read shownMeta
  rw [hunits, cutString_bytesString, htype, hremarks, writtenBytes, writtenBytes, hwhole hshort.1,
    hwhole hshort.2]

/-- Rows that stay in the arrays are recorded as they are where each array is memory of its own. -/
theorem readColumnRows_eq_recorded {S : Setting} (hread : S.read = columnPut P)
    (hwchar : P.wchar = .two) {column databaseName tableName : String} {rows : List DescribeRow}
    (hshort : ∀ row ∈ rows,
      (shownText P row.dataType).length < 64 ∧ (shownText P row.remarks).length < 64)
    (m : Contents) (position : Int) :
    S.readColumnRows column databaseName tableName [describeColumn, describeColumn, describeColumn]
        m position (rows.map DescribeRow.data) =
      (recordedRows P S column databaseName tableName position rows).map Prod.snd := by
  induction rows generalizing m position with
  | nil => rfl
  | cons row rows ih =>
    have hrest := ih fun row' hrow' => hshort row' (List.mem_cons_of_mem row hrow')
    obtain ⟨hname, htype, hremarks⟩ := @storeRow_contents P row m
    rw [List.map_cons, Setting.readColumnRows, recordedRows, hread]
    generalize m.storeRow (columnPut P) [describeColumn, describeColumn, describeColumn]
      describeBindings row.data = m' at hname htype hremarks ⊢
    obtain ⟨hunits, hmeta⟩ := read_contents hwchar (hshort row List.mem_cons_self) hname htype
      hremarks S databaseName tableName (position + 1)
    have htaken_iff : (column = "%" ∨
        column = bytesString (Utf8.encode (shownName P.wchar row.columnName))) ↔
          row.Taken P.wchar column := Iff.rfl
    simp only [hunits, hmeta, htaken_iff]
    by_cases htaken : row.Taken P.wchar column
    · rw [if_pos htaken, if_pos htaken, List.map_cons, hrest]
    · rw [if_neg htaken, if_neg htaken, hrest]

/-- Rows that stay in the arrays are recorded alike in memory and in arrays of their own. -/
theorem describeLoop_contents {S : Setting} (hread : S.read = columnPut P)
    (hwchar : P.wchar = .two) (F : DescribeFrame P.wchar)
    {column databaseName tableName : String} {rows : List DescribeRow}
    (hshort : ∀ row ∈ rows,
      (shownText P row.dataType).length < 64 ∧ (shownText P row.remarks).length < 64)
    (m : Memory) (position : Int) :
    (DescribeFrame.describeLoop P F S column databaseName tableName m position rows).map
        (List.map Prod.snd) =
      .ok (S.readColumnRows column databaseName tableName
        [describeColumn, describeColumn, describeColumn] (fun _ => []) position
        (rows.map DescribeRow.data)) := by
  rw [describeLoop_eq hshort, readColumnRows_eq_recorded hread hwchar hshort]
  rfl

end Contents

/-! ## A nested type -/

section Examples

/-- The arrays one behind the other. -/
def describeFrame : DescribeFrame Platform.linux.wchar where
  address
    | .columnName => 0
    | .dataType => 4096
    | .remarks => 4160
  apart := by
    intro a b hne
    cases a <;> cases b <;> first | exact absurd rfl hne | decide

/-- The type text has 68 characters. -/
def addressRow : DescribeRow where
  columnName := "address"
  dataType := "row(street varchar, city varchar, postcode varchar, country varchar)"
  remarks := ""

/-- A nested type is written beyond its array, into the next one. -/
theorem describe_typeOverflow :
    ¬ DescribeHolds .linux describeFrame (shop false) "%" "shop" "customers" [addressRow] := by
  rintro ⟨hwithin, -⟩
  have hshort := (conversion_within_iff.mp (hwithin addressRow List.mem_cons_self)).1
  exact absurd hshort (by decide)

end Examples

end TrinoOdbc
