import TrinoOdbc.TableMetadata

/-!
# TrinoOdbc.ColumnMetadata

`ColumnMetadataQuery`. Its request runs a `TableMetadataQuery` for the tables and a `DESCRIBE` for
each of them; with `SQL_ATTR_METADATA_ID` set it runs one `DESCRIBE`.

A `SQLWCHAR` has two bytes and holds no surrogate. The three arrays a `DESCRIBE` row is read into
are apart: what a text longer than its array overwrites is left to `DescribeBuffers`.
-/

namespace TrinoOdbc

/-- The code units of a `SQLWCHAR` array up to its first NUL. -/
def wideUnits : List UInt8 → List Nat
  | low :: high :: rest =>
    let unit := low.toNat + 256 * high.toNat
    if unit = 0 then [] else unit :: wideUnits rest
  | _ => []

/-- `SqlWcharToString`, to UTF-8. -/
def wcharString (content : List UInt8) : String :=
  bytesString ((wideUnits content).flatMap fun unit => String.utf8EncodeChar (Char.ofNat unit))

/-- `GetString` cuts the text to its argument. -/
def cutString (maxLen : Nat) (s : String) : String := String.ofList (s.toList.take maxLen)

namespace ColumnMeta

def getScalarDataType (dataType : String) : ScalarType :=
  if dataType = "varchar" then .varchar
  else if dataType = "bigint" then .bigint
  else if dataType = "double" then .double
  else if dataType = "boolean" then .boolean
  else if dataType = "timestamp" then .timestamp
  else if dataType = "date" then .date
  else if dataType = "time" then .time
  else if dataType = "integer" then .integer
  else if dataType = "interval day to second" then .intervalDayToSecond
  else if dataType = "interval year to month" then .intervalYearToMonth
  else .unknown

/-- The constructor for a column of a table. -/
def ofTable (S : Setting) (databaseName tableName : String) : ColumnMeta :=
  { schemaName := if S.databaseAsSchema then some databaseName else none
    catalogName := if S.databaseAsSchema then none else some databaseName
    tableName := some tableName
    columnName := some ""
    dataType := some .notSet }

/-- `Read`, from the arrays bound to the columns of a `DESCRIBE`. -/
def read (c : ColumnMeta) (m : Contents) (position : Int) : ColumnMeta :=
  let remarks := cutString stringBufferSize (cString (m 3))
  { c with
    columnName := some (cutString stringBufferSize (wcharString (m 1)))
    dataType := some (getScalarDataType (cutString stringBufferSize (cString (m 2))))
    remarks := some remarks
    nullability := if remarks = "MEASURE_VALUE" ∨ remarks = "MULTI" then .nullable else .noNull
    ordinalPosition := position }

end ColumnMeta

/-- `tableMetadataQuery` is the query for the tables before its `Execute`: every `Execute` starts it
afresh. -/
structure ColumnMetadataQuery where
  catalog : Option String
  schema : Option String
  table : Option String
  column : Option String
  tableMetadataQuery : TableMetadataQuery
  cursor : MetadataCursor ColumnMeta := {}

def describeBindings : ColumnBindingMap where
  entries := [
    (1, { type := .wchar, buffer := some 0, buflen := stringBufferSize, reslen := none }),
    (2, { type := .char, buffer := some 8192, buflen := stringBufferSize, reslen := none }),
    (3, { type := .char, buffer := some 16384, buflen := stringBufferSize, reslen := none })]
  sorted := by decide

namespace Setting

/-- The column of the tables' result that holds the databases. -/
def databaseColumn (S : Setting) : Nat := if S.databaseAsSchema then 2 else 1

/-- The name of the database and of the table are read through two `char` arrays. -/
def tableBindings (S : Setting) : ColumnBindingMap where
  entries := [(S.databaseColumn, nameBuffer), (3, { nameBuffer with buffer := some 4096 })]
  sorted := by
    unfold databaseColumn
    split <;> decide

def describe (databaseName tableName : String) : String :=
  "describe \"" ++ databaseName ++ "\".\"" ++ tableName ++ "\""

/-- The loop over the rows of a `DESCRIBE`. `column` is `"%"` or the name of a column;
`prevPosition` counts the rows that are taken. -/
def readColumnRows (S : Setting) (column databaseName tableName : String)
    (columns : List ColumnMeta) : Contents → Int → List Row → List ColumnMeta
  | _, _, [] => []
  | m, prevPosition, row :: rows =>
    let m := m.storeRow S.read columns describeBindings row
    if column = "%" ∨ column = wcharString (m 1) then
      (ColumnMeta.ofTable S databaseName tableName).read m (prevPosition + 1) ::
        S.readColumnRows column databaseName tableName columns m (prevPosition + 1) rows
    else S.readColumnRows column databaseName tableName columns m prevPosition rows

/-- `MakeRequestGetColumnsMetaPerTable`. `before` is what `meta` holds already. -/
def makeRequestGetColumnsMetaPerTable (S : Setting) (column databaseName tableName : String)
    (before : List ColumnMeta) : Found ColumnMeta :=
  let q := subQuery S.read describeBindings (S.server (describe databaseName tableName))
  if q.result ≠ .success then ⟨.noData, [], []⟩
  else
    let found := S.readColumnRows column databaseName tableName q.columns (fun _ => []) 0 q.rows
    if (before ++ found).isEmpty then .warn ("No columns with name '" ++ column ++ "' found")
    else ⟨.success, found, []⟩

/-- `FetchNextRow` of the tables' query stores the names of its row. -/
def storeTable (S : Setting) (m : Contents) (t : TableMeta) : Contents :=
  (MetadataCursor.readBindings (TableMetadataQuery.cells S.puts) t S.tableBindings).foldl
    Contents.store m

/-- The loop of `GetColumnsWithDatabaseSearchPattern` over the tables, which `FetchNextRow` gives
one after the other. `result` is the result so far. -/
def columnsOfTables (S : Setting) (column : String) :
    Contents → List ColumnMeta → SqlResult → List TableMeta → Found ColumnMeta
  | _, _, result, [] => ⟨result, [], []⟩
  | m, before, _, t :: ts =>
    let m := S.storeTable m t
    let r := S.makeRequestGetColumnsMetaPerTable column (cString (m S.databaseColumn))
      (cString (m 3)) before
    if r.result ≠ .success ∧ r.result ≠ .successWithInfo then ⟨r.result, [], r.records⟩
    else
      let rest := S.columnsOfTables column m (before ++ r.found) r.result ts
      ⟨rest.result, r.found ++ rest.found, r.records ++ rest.records⟩

end Setting

namespace ColumnMetadataQuery

def create (S : Setting) (catalog schema table column : Option String) : ColumnMetadataQuery where
  catalog
  schema
  table
  column
  tableMetadataQuery := .create S catalog schema table none

def withCursor (q : ColumnMetadataQuery) (cursor : MetadataCursor ColumnMeta) :
    ColumnMetadataQuery :=
  { q with cursor }

def addStatusRecord (q : ColumnMetadataQuery) (record : DiagnosticRecord) :
    ColumnMetadataQuery :=
  q.withCursor (q.cursor.addStatusRecord record)

def close (q : ColumnMetadataQuery) : ColumnMetadataQuery := q.withCursor q.cursor.close

/-- `GetColumnsWithDatabaseSearchPattern`. -/
def getColumns (S : Setting) (q : ColumnMetadataQuery) (databasePattern : Option String) :
    Found ColumnMeta :=
  if S.metadataId then
    S.makeRequestGetColumnsMetaPerTable (q.column.getD "") (databasePattern.getD "")
      (q.table.getD "") []
  else
    let (result, tables) := q.tableMetadataQuery.execute S
    let records := tables.cursor.diag
    if result ≠ .success then
      ⟨.successWithInfo, [], records ++ [warning ("Failed to get table metadata for " ++
        databasePattern.getD "" ++ "." ++ q.table.getD "")]⟩
    else
      let r := S.columnsOfTables (q.column.getD "") (fun _ => []) [] result
        tables.cursor.metaVector
      ⟨r.result, r.found, records ++ r.records⟩

def makeRequestGetColumnsMeta (S : Setting) (q : ColumnMetadataQuery) : Found ColumnMeta :=
  q.getColumns S (if S.databaseAsSchema then q.schema else q.catalog)

/-- The search patterns that were null pointers become `"%"`. -/
def withDefaults (q : ColumnMetadataQuery) : ColumnMetadataQuery :=
  { q with
    catalog := some (q.catalog.getD "%")
    schema := some (q.schema.getD "%")
    table := some (q.table.getD "%")
    column := some (q.column.getD "%") }

/-- An argument that may not be a null pointer when the arguments are identifiers. -/
def hasNullArgument (S : Setting) (q : ColumnMetadataQuery) : Bool :=
  (if S.databaseAsSchema then q.schema else q.catalog) == none || q.table == none ||
    q.column == none

def nullArgument (S : Setting) : DiagnosticRecord :=
  { sqlState := .shy009InvalidUseOfNullPointer
    message := "SQL_ATTR_METADATA_ID statement attribute was set to SQL_TRUE, and the " ++
      (if S.databaseAsSchema then "SchemaName" else "CatalogName") ++
      ", TableName, or ColumnName argument was a null pointer." }

/-- The last part of `Execute`. Only `AI_SUCCESS` makes the query an executed one. -/
def executeRequest (S : Setting) (q : ColumnMetadataQuery) : SqlResult × ColumnMetadataQuery :=
  if S.databaseAsSchema ∧ (q.schema = some "" ∨ q.table = some "") then
    (.successWithInfo, q.addStatusRecord (warning "Schema and table name should not be empty."))
  else if ¬ S.databaseAsSchema ∧ (q.catalog = some "" ∨ q.table = some "") then
    (.successWithInfo, q.addStatusRecord (warning "Catalog and table name should not be empty."))
  else
    let request := q.makeRequestGetColumnsMeta S
    let cursor := { q.cursor with diag := q.cursor.diag ++ request.records }
    if request.result = .success then
      (request.result, q.withCursor (cursor.opened request.found))
    else (request.result, q.withCursor (cursor.unopened request.found))

def execute (S : Setting) (q : ColumnMetadataQuery) : SqlResult × ColumnMetadataQuery :=
  let q := if q.cursor.executed then q.close else q
  if S.databaseAsSchema ∧ q.catalog ≠ none ∧ q.catalog ≠ some "" ∧ q.catalog ≠ some "%" then
    (.successWithInfo, q.addStatusRecord (warning
      ("Empty result set is returned as catalog is set to \"" ++ q.catalog.getD "" ++
        "\" and Trino does not have catalogs")))
  else if ¬ S.databaseAsSchema ∧ q.schema ≠ none ∧ q.schema ≠ some "" ∧ q.schema ≠ some "%" then
    (.successWithInfo, q.addStatusRecord (warning
      ("Empty result set is returned as schema is set to \"" ++ q.schema.getD "" ++
        "\" and Trino does not have schemas")))
  else if S.metadataId then
    if q.hasNullArgument S then (.error, q.addStatusRecord (nullArgument S))
    else q.executeRequest S
  else q.withDefaults.executeRequest S

/-- Put as a `short`, or null when the type has none. -/
def putDigits (P : Puts) (digits : Option Int) (buffer : ApplicationDataBuffer) : Put :=
  match digits with
  | some n => if n < 0 then putNull buffer else P.int16 n buffer
  | none => putNull buffer

def nullabilityCode : Nullability → Int
  | .noNull => 0
  | .nullable => 1
  | .nullabilityUnknown => 2

def nullabilityToIsNullable : Nullability → Option String
  | .noNull => some "NO"
  | .nullable => some "YES"
  | .nullabilityUnknown => none

def invalidIndex : DiagnosticRecord :=
  { sqlState := .s07009InvalidDescriptorIndex, message := "Invalid index." }

def cells (P : Puts) : Cells ColumnMeta := fun row columnIdx buffer =>
  let sqlType := row.dataType.map ScalarType.binaryToSqlType
  match columnIdx with
  | 1 => .ofPut (P.putString row.catalogName buffer)
  | 2 => .ofPut (P.putString row.schemaName buffer)
  | 3 => .ofPut (P.putString row.tableName buffer)
  | 4 => .ofPut (P.putString row.columnName buffer)
  | 5 => .ofPut (P.putInt16 (sqlType.map SqlType.code) buffer)
  | 6 => .ofPut (P.putString (row.dataType.map ScalarType.binaryTypeToSqlTypeName) buffer)
  | 7 => .ofPut (P.putInt32 (sqlType.map SqlType.columnSize) buffer)
  | 8 => .ofPut (P.putInt32 (sqlType.map SqlType.transferLength) buffer)
  | 9 => .ofPut (putDigits P (sqlType.map SqlType.decimalDigits) buffer)
  | 10 => .ofPut (putDigits P (sqlType.map SqlType.numPrecRadix) buffer)
  | 11 => .ofPut (P.putInt32 (some (nullabilityCode row.nullability)) buffer)
  | 12 => .ofPut (P.putString row.remarks buffer)
  | 13 => .ofPut (P.putString row.columnDef buffer)
  | 14 => .ofPut (P.putInt16 (sqlType.map SqlType.code) buffer)
  | 15 => .ofPut (putNull buffer)
  | 16 => .ofPut (P.putInt32 (sqlType.map SqlType.charOctetLength) buffer)
  | 17 => .ofPut (P.putInt32 (some row.ordinalPosition) buffer)
  | 18 => .ofPut (P.putString (nullabilityToIsNullable row.nullability) buffer)
  | _ => ⟨none, .error, [invalidIndex]⟩

def fetchNextRow (P : Puts) (q : ColumnMetadataQuery) (b : ColumnBindingMap) :
    (SqlResult × List Stored) × ColumnMetadataQuery :=
  let (r, cursor) := q.cursor.fetchNextRow (cells P) b
  (r, q.withCursor cursor)

def getColumn (P : Puts) (q : ColumnMetadataQuery) (columnIdx : Nat)
    (buffer : ApplicationDataBuffer) : (SqlResult × List Stored) × ColumnMetadataQuery :=
  let (r, cursor) := q.cursor.getColumn (cells P) columnIdx buffer
  (r, q.withCursor cursor)

def rowNumber (q : ColumnMetadataQuery) : Int × ColumnMetadataQuery :=
  (q.cursor.rowNumber.1, q.withCursor q.cursor.rowNumber.2)

end ColumnMetadataQuery

end TrinoOdbc
