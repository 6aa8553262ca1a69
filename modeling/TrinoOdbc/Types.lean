import Mathlib.Algebra.Order.Ring.Int
import Mathlib.Data.List.Basic

/-!
# TrinoOdbc.Types

Result codes, diagnostic records and the data of the query service: requests, pages of rows and
their column descriptions.
-/

namespace TrinoOdbc

inductive SqlResult where
  | success | successWithInfo | error | noData | needData
  deriving DecidableEq, Repr

/-- The SQL states the modelled functions report. -/
inductive SqlState where
  | s01000GeneralWarning
  | s01004DataTruncated
  | s01S00InvalidConnectionStringAttribute
  | s01S01ErrorInRow
  | s01S02OptionValueChanged
  | s01S07FractionalTruncation
  | s07009InvalidDescriptorIndex
  | s08002AlreadyConnected
  | s08003NotConnected
  | s22002IndicatorNeeded
  | s24000InvalidCursorState
  | s34000InvalidCursorName
  | s3C000DuplicateCursorName
  | shy000GeneralError
  | shy003InvalidApplicationBufferType
  | shy009InvalidUseOfNullPointer
  | shy010SequenceError
  | shy016ModifyIrd
  | shy024InvalidAttributeValue
  | shy090InvalidStringOrBufferLength
  | shy091InvalidDescrFieldId
  | shyc00OptionalFeatureNotImplemented
  | sim001FunctionNotSupported
  deriving DecidableEq, Repr

structure DiagnosticRecord where
  sqlState : SqlState
  message : String
  rowNum : Nat := 0
  columnNum : Nat := 0
  deriving DecidableEq, Repr

/-- What storing one value in an application buffer can come to. -/
inductive ConversionResult where
  | success | fractionalTruncated | varlenDataTruncated | unsupportedConversion
  | indicatorNeeded | noData | failure
  deriving DecidableEq, Repr

/-! ## The query service -/

inductive ScalarType where
  | notSet | varchar | boolean | bigint | double | timestamp | date | time
  | intervalDayToSecond | intervalYearToMonth | unknown | integer
  deriving DecidableEq, Repr

/-- A value of a row. `unset` is a datum of which the service set no alternative. -/
inductive Datum where
  | scalar (value : String)
  | timeSeries (points : List (Option String × Option Datum))
  | array (values : List Datum)
  | row (data : Option (List Datum))
  | null
  | unset
  deriving Repr

/-- One row of a page: its data, one datum for each column. -/
abbrev Row := List Datum

/-- A column of a result. `scalarType` is `none` when the type is not a scalar one, and
`typeHasBeenSet` says whether the service sent a type at all. -/
structure ColumnInfo where
  name : String
  scalarType : Option ScalarType
  typeHasBeenSet : Bool := true
  deriving DecidableEq, Repr

structure QueryRequest where
  queryString : String := ""
  nextToken : Option String := none
  maxRows : Option Nat := none
  deriving DecidableEq, Repr

/-- One page. `nextToken` is empty when there is no next page. -/
structure QueryResult where
  queryId : String := ""
  rows : List Row
  nextToken : String
  columnInfo : List ColumnInfo

structure QueryError where
  exceptionName : String
  message : String
  deriving DecidableEq, Repr

inductive QueryOutcome where
  | success (result : QueryResult)
  | failure (error : QueryError)

/-- The answer to a cancel request: the cancellation message, or an error. -/
inductive CancelOutcome where
  | success (message : String)
  | failure (error : QueryError)
  deriving DecidableEq, Repr

end TrinoOdbc
