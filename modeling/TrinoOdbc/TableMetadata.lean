import TrinoOdbc.MetadataCursor
import TrinoOdbc.SubQuery

/-!
# TrinoOdbc.TableMetadata

`TableMetadataQuery`. Its request runs `SHOW DATABASES` and, for each database found, `SHOW TABLES`,
one `DataQuery` after the other, and assembles their rows.

A `std::string` is a `String` whose characters stand for its bytes. The functions return the result,
the rows they append to `meta` and the records they add themselves (`Found`).
-/

namespace TrinoOdbc

/-! ## Text read through buffers -/

/-- The contents of an array after a `Put` through a pointer to its start. -/
def fill (content : List UInt8) (put : Put) : List UInt8 :=
  match put.data with
  | none => content
  | some bytes => bytes ++ content.drop bytes.length

/-- The contents of the arrays bound to the columns. An array that has never been written reads as
empty. -/
abbrev Contents := Nat → List UInt8

def Contents.store (m : Contents) (s : Stored) : Contents :=
  Function.update m s.column (fill (m s.column) s.put)

/-- The contents after `FetchNextRow` of a row. -/
def Contents.storeRow (read : ReadToBuffer) (columns : List ColumnMeta) (b : ColumnBindingMap)
    (m : Contents) (row : Row) : Contents :=
  (storedCells read columns row b (List.range' 1 columns.length)).foldl Contents.store m

def bytesString (bytes : List UInt8) : String :=
  String.ofList (bytes.map fun byte => Char.ofNat byte.toNat)

/-- The text of a `char` array: up to its first NUL. -/
def cString (content : List UInt8) : String := bytesString (content.takeWhile (· ≠ 0))

def stringBufferSize : Nat := 2048

/-! ## The class -/

structure TableMeta where
  catalogName : Option String := none
  schemaName : Option String := none
  tableName : Option String := none
  tableType : Option String := none
  remarks : Option String := none
  deriving DecidableEq, Repr

/-- What the requests of the catalog functions depend on: the connection's `SQL_ATTR_METADATA_ID`,
`DATABASE_AS_SCHEMA`, the conversions, and the answers of the service to the queries they send. -/
structure Setting where
  metadataId : Bool := false
  databaseAsSchema : Bool := false
  read : ReadToBuffer
  puts : Puts
  server : String → Script

structure Found (α : Type) where
  result : SqlResult
  found : List α
  records : List DiagnosticRecord

def warning (message : String) : DiagnosticRecord :=
  { sqlState := .s01000GeneralWarning, message }

/-- No row, and a warning. -/
def Found.warn {α : Type} (message : String) : Found α :=
  ⟨.successWithInfo, [], [warning message]⟩

/-- Success, or a warning when nothing was found. -/
def Found.orWarn {α : Type} (f : Found α) (message : String) : Found α :=
  if f.result ≠ .success then f
  else if f.found.isEmpty then ⟨.successWithInfo, [], f.records ++ [warning message]⟩
  else f

structure TableMetadataQuery where
  catalog : Option String
  schema : Option String
  table : Option String
  tableType : Option String
  allSchemas : Bool
  allCatalogs : Bool
  allTableTypes : Bool
  cursor : MetadataCursor TableMeta := {}

/-- A `char` array of `STRING_BUFFER_SIZE`, with no length pointer. -/
def nameBuffer : ApplicationDataBuffer :=
  { type := .char, buffer := some 0, buflen := stringBufferSize, reslen := none }

def nameBindings : ColumnBindingMap := ⟨[(1, nameBuffer)], .cons nofun .nil⟩

/-- The texts of the first column, row by row. -/
def readNames (read : ReadToBuffer) (columns : List ColumnMeta) : Contents → List Row → List String
  | _, [] => []
  | m, row :: rows =>
    let m := m.storeRow read columns nameBindings row
    cString (m 1) :: readNames read columns m rows

namespace Setting

/-- `getMatchedDatabases` and `getMatchedTables`: the names a `SHOW` query returns. -/
def getMatchedNames (S : Setting) (sql warnMsg : String) : Found String :=
  let q := subQuery S.read nameBindings (S.server sql)
  match q.result with
  | .noData => .warn warnMsg
  | .success => ⟨.success, readNames S.read q.columns (fun _ => []) q.rows, []⟩
  | result => ⟨result, [], []⟩

def showDatabases (databasePattern : String) : String :=
  "SHOW DATABASES LIKE '" ++ databasePattern ++ "'"

def getMatchedDatabases (S : Setting) (databasePattern : String) : Found String :=
  S.getMatchedNames (showDatabases databasePattern)
    ("No database is found with pattern '" ++ databasePattern ++ "'")

def showTables (databaseName tablePattern : String) : String :=
  "SHOW TABLES FROM \"" ++ databaseName ++ "\" LIKE '" ++ tablePattern ++ "'"

def getMatchedTables (S : Setting) (databaseName tablePattern : String) : Found String :=
  S.getMatchedNames (showTables databaseName tablePattern)
    ("No table is found with pattern '" ++ tablePattern ++ "' from database (" ++ databaseName ++
      ")")

/-- The row for a table of a database. -/
def tableOf (S : Setting) (databaseName tableName : String) : TableMeta :=
  if S.databaseAsSchema then
    { catalogName := some "", schemaName := some databaseName, tableName := some tableName
      tableType := some "TABLE" }
  else
    { catalogName := some databaseName, schemaName := some "", tableName := some tableName
      tableType := some "TABLE" }

def getAllDatabases (S : Setting) : Found TableMeta :=
  let databases := S.getMatchedDatabases "%"
  if databases.result ≠ .success then ⟨databases.result, [], databases.records⟩
  else ⟨.success, databases.found.map fun name => S.tableOf name "", databases.records⟩

/-- `ToUpper`, for comparing. -/
def upper (s : String) : List Char := s.toList.map Char.toUpper

def getTablesWithIdentifier (S : Setting) (databaseIdentifier table : String) : Found TableMeta :=
  let databases := S.getMatchedDatabases "%"
  if databases.result ≠ .success then ⟨databases.result, [], databases.records⟩
  else
    match databases.found.find? fun name => upper databaseIdentifier = upper name with
    | none => .warn ("No matched database for " ++ databaseIdentifier)
    | some databaseName =>
      let tables := S.getMatchedTables databaseName "%"
      if tables.result ≠ .success ∧ tables.result ≠ .successWithInfo then
        ⟨tables.result, [], tables.records⟩
      else
        let names := tables.found.filter fun name => upper table = upper name
        Found.orWarn ⟨.success, names.map (S.tableOf databaseName), tables.records⟩
          ("Empty result set is returned as we could not find tables with " ++ databaseName ++
            "." ++ table)

/-- The loop of `getTablesWithSearchPattern` over the databases. -/
def tablesOfDatabases (S : Setting) (tablePattern : String) : List String → Found TableMeta
  | [] => ⟨.success, [], []⟩
  | databaseName :: databaseNames =>
    let tables := S.getMatchedTables databaseName tablePattern
    if tables.result ≠ .success ∧ tables.result ≠ .successWithInfo then
      ⟨tables.result, [], tables.records⟩
    else
      let rest := S.tablesOfDatabases tablePattern databaseNames
      ⟨rest.result, tables.found.map (S.tableOf databaseName) ++ rest.found,
        tables.records ++ rest.records⟩

def getTablesWithSearchPattern (S : Setting) (databasePattern table : Option String) :
    Found TableMeta :=
  let databases := S.getMatchedDatabases (databasePattern.getD "%")
  if databases.result ≠ .success then ⟨databases.result, [], databases.records⟩
  else
    (S.tablesOfDatabases (table.getD "%") databases.found).orWarn
      ("Empty result set is returned as we could not find tables for database pattern " ++
        databasePattern.getD "%")

end Setting

namespace TableMetadataQuery

/-- The constructor. -/
def create (S : Setting) (catalog schema table tableType : Option String) : TableMetadataQuery where
  catalog
  schema
  table
  tableType
  allCatalogs :=
    !S.metadataId && catalog == some "%" && schema == some "" && table == some ""
  allSchemas :=
    !S.metadataId && schema == some "%" && catalog == some "" && table == some ""
  allTableTypes :=
    tableType == some "%" && catalog == some "" && schema == some "" && table == some ""

def isSpace (c : Char) : Bool := c ∈ [' ', '\t', '\n', '\x0b', '\x0c', '\r']

def trim (s : List Char) : List Char :=
  ((s.dropWhile isSpace).reverse.dropWhile isSpace).reverse

/-- Without a pair of quotes around it. -/
def dequote (s : List Char) : List Char :=
  if 2 ≤ s.length ∧ (s.head? = some '\'' ∧ s.getLast? = some '\'' ∨
      s.head? = some '"' ∧ s.getLast? = some '"') then
    (s.drop 1).dropLast
  else s

/-- `"TABLE"` is the one table type. -/
def validTableType (tableType : String) : Bool :=
  tableType = "" || tableType = "%" ||
    (tableType.toList.splitOn ',').any fun single => dequote (trim single) = "TABLE".toList

/-- The data source has one level of databases, reported as schemas or as catalogs. -/
def getTables (S : Setting) (q : TableMetadataQuery) : Found TableMeta :=
  if S.databaseAsSchema then
    if S.metadataId then
      match q.schema, q.table with
      | some schema, some table => S.getTablesWithIdentifier schema table
      | _, _ => ⟨.error, [], [
          { sqlState := .shy009InvalidUseOfNullPointer
            message := "The SQL_ATTR_METADATA_ID statement attribute is set to SQL_TRUE, and " ++
              "SchemaName or the TableName argument was a null pointer." }]⟩
    else if q.allSchemas then S.getAllDatabases
    else if q.catalog ≠ none ∧ q.catalog ≠ some "" ∧ q.catalog ≠ some "%" then
      .warn ("Empty result set is returned as catalog is set to \"" ++ q.catalog.getD "" ++
        "\" and Trino does not have catalogs")
    else if q.allCatalogs then
      .warn ("Empty result set is returned for a list of catalogs because Trino does not have " ++
        "catalogs")
    else if q.schema = some "" ∨ q.table = some "" then
      .warn "Schema and table name should not be empty"
    else S.getTablesWithSearchPattern q.schema q.table
  else
    if S.metadataId then
      match q.catalog, q.table with
      | some catalog, some table => S.getTablesWithIdentifier catalog table
      | _, _ => ⟨.error, [], [
          { sqlState := .shy009InvalidUseOfNullPointer
            message := "The SQL_ATTR_METADATA_ID statement attribute is set to SQL_TRUE, and " ++
              "CatalogName or the TableName argument was a null pointer." }]⟩
    else if q.allCatalogs then S.getAllDatabases
    else if q.schema ≠ none ∧ q.schema ≠ some "" ∧ q.schema ≠ some "%" then
      .warn ("Empty result set is returned as schema is set to \"" ++ q.schema.getD "" ++
        "\" and Trino does not have schemas")
    else if q.allSchemas then
      .warn "Empty result set is returned for a list of schemas because Trino does not have schemas"
    else if q.catalog = some "" ∨ q.table = some "" then
      .warn "Catalog and table name should not be empty"
    else S.getTablesWithSearchPattern q.catalog q.table

def makeRequestGetTablesMeta (S : Setting) (q : TableMetadataQuery) : Found TableMeta :=
  if q.allTableTypes then ⟨.success, [{ tableType := some "TABLE" }], []⟩
  else
    match q.tableType with
    | none => getTables S q
    | some tableType =>
      if validTableType tableType then getTables S q
      else
        .warn ("Empty result set is returned as tableType is set to \"" ++ tableType ++
          "\" and Trino only supports \"TABLE\" table type")

def withCursor (q : TableMetadataQuery) (cursor : MetadataCursor TableMeta) :
    TableMetadataQuery :=
  { q with cursor }

def close (q : TableMetadataQuery) : TableMetadataQuery := q.withCursor q.cursor.close

def execute (S : Setting) (q : TableMetadataQuery) : SqlResult × TableMetadataQuery :=
  let q := if q.cursor.executed then q.close else q
  let request := q.makeRequestGetTablesMeta S
  let cursor := { q.cursor with diag := q.cursor.diag ++ request.records }
  if request.result = .success ∨ request.result = .successWithInfo then
    (request.result, q.withCursor (cursor.opened request.found))
  else (request.result, q.withCursor (cursor.unopened request.found))

def cells (P : Puts) : Cells TableMeta := fun row columnIdx buffer =>
  match columnIdx with
  | 1 => .ofPut (P.putString row.catalogName buffer)
  | 2 => .ofPut (P.putString row.schemaName buffer)
  | 3 => .ofPut (P.putString row.tableName buffer)
  | 4 => .ofPut (P.putString row.tableType buffer)
  | 5 => .ofPut (P.putString row.remarks buffer)
  | _ => ⟨none, .success, []⟩

def fetchNextRow (P : Puts) (q : TableMetadataQuery) (b : ColumnBindingMap) :
    (SqlResult × List Stored) × TableMetadataQuery :=
  if q.cursor.executed = false then
    ((.error, []), q.withCursor (q.cursor.addStatusRecord MetadataCursor.notExecuted))
  else if q.cursor.metaVector.isEmpty then ((.noData, []), q)
  else
    let (r, cursor) := q.cursor.fetchRow (cells P) b
    (r, q.withCursor cursor)

/-- As in the other classes, but the cursor over an empty vector is left alone. -/
theorem fetchNextRow_eq (P : Puts) (q : TableMetadataQuery) (b : ColumnBindingMap) :
    q.fetchNextRow P b =
      if q.cursor.executed = true ∧ q.cursor.metaVector = [] then ((.noData, []), q)
      else ((q.cursor.fetchNextRow (cells P) b).1,
        q.withCursor (q.cursor.fetchNextRow (cells P) b).2) := by
  unfold fetchNextRow MetadataCursor.fetchNextRow
  cases hex : q.cursor.executed with
  | false => simp
  | true => simp [List.isEmpty_iff]

def getColumn (P : Puts) (q : TableMetadataQuery) (columnIdx : Nat)
    (buffer : ApplicationDataBuffer) : (SqlResult × List Stored) × TableMetadataQuery :=
  if q.cursor.executed = false then
    ((.error, []), q.withCursor (q.cursor.addStatusRecord MetadataCursor.notExecuted))
  else if q.cursor.metaVector.isEmpty then ((.noData, []), q)
  else
    let (r, cursor) := q.cursor.readColumn (cells P) columnIdx buffer
    (r, q.withCursor cursor)

def rowNumber (q : TableMetadataQuery) : Int × TableMetadataQuery :=
  (q.cursor.rowNumber.1, q.withCursor q.cursor.rowNumber.2)

end TableMetadataQuery

end TrinoOdbc
