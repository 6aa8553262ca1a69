import TrinoOdbc.ColumnMetadata

/-!
# TrinoOdbc.Query

`TypeInfoQuery` and `ForeignKeysQuery`, and the query of a statement: one of the classes behind the
interface `Query`.

The calls of a `DataQuery` are runs of two parties, so the calls of the interface are relations;
those of the other classes are functions.
-/

namespace TrinoOdbc

/-! ## TypeInfoQuery -/

/-- `types` is the vector of the cursor. -/
structure TypeInfoQuery where
  cursor : MetadataCursor ScalarType

namespace TypeInfoQuery

/-- `SQL_ALL_TYPES` is 0. -/
def typesOf (sqlType : Int) : List ScalarType :=
  if sqlType = 0 then
    [.varchar, .boolean, .bigint, .double, .timestamp, .date, .time, .intervalDayToSecond,
      .intervalYearToMonth, .integer, .notSet, .unknown]
  else [sqlTypeToBinary sqlType]

/-- The iterator is `end()`. -/
def create (sqlType : Int) : TypeInfoQuery where
  cursor :=
    { metaVector := typesOf sqlType, cursor := (typesOf sqlType).length, inBounds := Nat.le_refl _ }

def execute (q : TypeInfoQuery) : SqlResult × TypeInfoQuery :=
  (.success, ⟨q.cursor.opened q.cursor.metaVector⟩)

/-- The types are kept. -/
def close (q : TypeInfoQuery) : TypeInfoQuery :=
  ⟨{ q.cursor with
    cursor := q.cursor.metaVector.length, executed := false, inBounds := Nat.le_refl _ }⟩

def dataAvailable (q : TypeInfoQuery) : Bool :=
  q.cursor.executed && decide (q.cursor.cursor ≠ q.cursor.metaVector.length)

def boolCode (b : Bool) : Int := if b then 1 else 0

/-- `SQL_NULLABLE_UNKNOWN` is 2, `SQL_SEARCHABLE` is 3. -/
def cells (P : Puts) : Cells ScalarType := fun currentType columnIdx buffer =>
  let sqlType := currentType.binaryToSqlType
  let quote := if currentType = .varchar then P.string "'" buffer else putNull buffer
  match columnIdx with
  | 1 => .ofPut (P.string currentType.binaryTypeToSqlTypeName buffer)
  | 2 | 16 => .ofPut (P.int16 sqlType.code buffer)
  | 3 => .ofPut (P.int32 sqlType.columnSize buffer)
  | 4 | 5 => .ofPut quote
  | 6 => .ofPut (putNull buffer)
  | 7 => .ofPut (P.int32 2 buffer)
  | 8 => .ofPut (P.int16 (boolCode (currentType = .varchar)) buffer)
  | 9 => .ofPut (P.int16 3 buffer)
  | 10 => .ofPut (P.int16 (boolCode sqlType.isUnsigned) buffer)
  | 11 | 12 => .ofPut (P.int16 0 buffer)
  | 13 => .ofPut (putNull buffer)
  | 14 | 15 => .ofPut (P.int16 sqlType.decimalDigits buffer)
  | 17 => .ofPut (putNull buffer)
  | 18 => .ofPut (P.int32 sqlType.numPrecRadix buffer)
  | 19 => .ofPut (putNull buffer)
  | _ => ⟨none, .success, []⟩

def fetchNextRow (P : Puts) (q : TypeInfoQuery) (b : ColumnBindingMap) :
    (SqlResult × List Stored) × TypeInfoQuery :=
  let (r, cursor) := q.cursor.fetchNextRow (cells P) b
  (r, ⟨cursor⟩)

def getColumn (P : Puts) (q : TypeInfoQuery) (columnIdx : Nat) (buffer : ApplicationDataBuffer) :
    (SqlResult × List Stored) × TypeInfoQuery :=
  let (r, cursor) := q.cursor.getColumn (cells P) columnIdx buffer
  (r, ⟨cursor⟩)

def rowNumber (q : TypeInfoQuery) : Int × TypeInfoQuery :=
  (q.cursor.rowNumber.1, ⟨q.cursor.rowNumber.2⟩)

end TypeInfoQuery

/-! ## ForeignKeysQuery -/

/-- The functions whose results are always empty. -/
inductive UnsupportedFunction where
  | foreignKeys | primaryKeys | specialColumns | statistics | procedureColumns | procedures
  | columnPrivileges | tablePrivileges
  deriving DecidableEq, Repr

def UnsupportedFunction.name : UnsupportedFunction → String
  | .foreignKeys => "SQLForeignKeys"
  | .primaryKeys => "SQLPrimaryKeys"
  | .specialColumns => "SQLSpecialColumns"
  | .statistics => "SQLStatistics"
  | .procedureColumns => "SQLProcedureColumns"
  | .procedures => "SQLProcedures"
  | .columnPrivileges => "SQLColumnPrivileges"
  | .tablePrivileges => "SQLTablePrivileges"

/-- The classes of the other functions differ in the name of the function only. -/
structure ForeignKeysQuery where
  function : UnsupportedFunction := .foreignKeys
  diag : List DiagnosticRecord := []

namespace ForeignKeysQuery

def execute (q : ForeignKeysQuery) : SqlResult × ForeignKeysQuery :=
  (.successWithInfo, { q with diag := q.diag ++
    [warning (q.function.name ++ " is not supported. Return empty result set.")] })

/-- `FetchNextRow` and `GetColumn`. -/
def noData (q : ForeignKeysQuery) : (SqlResult × List Stored) × ForeignKeysQuery :=
  ((.noData, []), { q with diag := q.diag ++
    [warning (q.function.name ++ " is not supported. No data is returned.")] })

end ForeignKeysQuery

/-! ## The interface -/

inductive Query where
  | data (q : DataQuery)
  | tableMetadata (q : TableMetadataQuery)
  | columnMetadata (q : ColumnMetadataQuery)
  | typeInfo (q : TypeInfoQuery)
  | foreignKeys (q : ForeignKeysQuery)

/-- The surroundings of a statement's query: those of its own `DataQuery`, and those of the requests
of a catalog function. -/
structure World where
  env : Env
  setting : Setting

namespace Query

def dataAvailable : Query → Bool
  | .data q => q.dataAvailable
  | .tableMetadata q => q.cursor.dataAvailable
  | .columnMetadata q => q.cursor.dataAvailable
  | .typeInfo q => q.dataAvailable
  | .foreignKeys _ => false

inductive Execute (W : World) : Query → SqlResult → Query → Prop where
  | data {q q' : DataQuery} {r : SqlResult} {stored : List Stored} :
      Call W.env q .execute (.result r stored) q' → Execute W (.data q) r (.data q')
  | tableMetadata (q : TableMetadataQuery) :
      Execute W (.tableMetadata q) (q.execute W.setting).1 (.tableMetadata (q.execute W.setting).2)
  | columnMetadata (q : ColumnMetadataQuery) :
      Execute W (.columnMetadata q) (q.execute W.setting).1
        (.columnMetadata (q.execute W.setting).2)
  | typeInfo (q : TypeInfoQuery) : Execute W (.typeInfo q) q.execute.1 (.typeInfo q.execute.2)
  | foreignKeys (q : ForeignKeysQuery) :
      Execute W (.foreignKeys q) q.execute.1 (.foreignKeys q.execute.2)

inductive FetchNextRow (W : World) (b : ColumnBindingMap) :
    Query → SqlResult × List Stored → Query → Prop where
  | data {q q' : DataQuery} {r : SqlResult} {stored : List Stored} :
      Call W.env q (.fetchNextRow b) (.result r stored) q' →
      FetchNextRow W b (.data q) (r, stored) (.data q')
  | tableMetadata (q : TableMetadataQuery) :
      FetchNextRow W b (.tableMetadata q) (q.fetchNextRow W.setting.puts b).1
        (.tableMetadata (q.fetchNextRow W.setting.puts b).2)
  | columnMetadata (q : ColumnMetadataQuery) :
      FetchNextRow W b (.columnMetadata q) (q.fetchNextRow W.setting.puts b).1
        (.columnMetadata (q.fetchNextRow W.setting.puts b).2)
  | typeInfo (q : TypeInfoQuery) :
      FetchNextRow W b (.typeInfo q) (q.fetchNextRow W.setting.puts b).1
        (.typeInfo (q.fetchNextRow W.setting.puts b).2)
  | foreignKeys (q : ForeignKeysQuery) :
      FetchNextRow W b (.foreignKeys q) q.noData.1 (.foreignKeys q.noData.2)

inductive GetColumn (W : World) (i : Nat) (buffer : ApplicationDataBuffer) :
    Query → SqlResult × List Stored → Query → Prop where
  | data {q q' : DataQuery} {r : SqlResult} {stored : List Stored} :
      Call W.env q (.getColumn i buffer) (.result r stored) q' →
      GetColumn W i buffer (.data q) (r, stored) (.data q')
  | tableMetadata (q : TableMetadataQuery) :
      GetColumn W i buffer (.tableMetadata q) (q.getColumn W.setting.puts i buffer).1
        (.tableMetadata (q.getColumn W.setting.puts i buffer).2)
  | columnMetadata (q : ColumnMetadataQuery) :
      GetColumn W i buffer (.columnMetadata q) (q.getColumn W.setting.puts i buffer).1
        (.columnMetadata (q.getColumn W.setting.puts i buffer).2)
  | typeInfo (q : TypeInfoQuery) :
      GetColumn W i buffer (.typeInfo q) (q.getColumn W.setting.puts i buffer).1
        (.typeInfo (q.getColumn W.setting.puts i buffer).2)
  | foreignKeys (q : ForeignKeysQuery) :
      GetColumn W i buffer (.foreignKeys q) q.noData.1 (.foreignKeys q.noData.2)

/-- `Close`. -/
inductive Close (W : World) : Query → SqlResult → Query → Prop where
  | data {q q' : DataQuery} {r : SqlResult} {stored : List Stored} :
      Call W.env q .close (.result r stored) q' → Close W (.data q) r (.data q')
  | tableMetadata (q : TableMetadataQuery) :
      Close W (.tableMetadata q) .success (.tableMetadata q.close)
  | columnMetadata (q : ColumnMetadataQuery) :
      Close W (.columnMetadata q) .success (.columnMetadata q.close)
  | typeInfo (q : TypeInfoQuery) : Close W (.typeInfo q) .success (.typeInfo q.close)
  | foreignKeys (q : ForeignKeysQuery) : Close W (.foreignKeys q) .success (.foreignKeys q)

def rowNumber : Query → Int × Query
  | .data q => (q.rowNumber.1, .data q.rowNumber.2)
  | .tableMetadata q => (q.rowNumber.1, .tableMetadata q.rowNumber.2)
  | .columnMetadata q => (q.rowNumber.1, .columnMetadata q.rowNumber.2)
  | .typeInfo q => (q.rowNumber.1, .typeInfo q.rowNumber.2)
  | .foreignKeys q => (0, .foreignKeys q)

end Query

end TrinoOdbc
