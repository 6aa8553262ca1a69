import TrinoOdbc.Waiting
import TrinoOdbc.RowNumber
import TrinoOdbc.Truncation
import TrinoOdbc.StatementText
import TrinoOdbc.TableRows
import TrinoOdbc.ExtendedFetch
import TrinoOdbc.ConnectString
import TrinoOdbc.Session
import TrinoOdbc.RecordTypes
import TrinoOdbc.BindOffset
import TrinoOdbc.DescriptorLinks
import TrinoOdbc.StringOutput
import TrinoOdbc.StatementOptions
import TrinoOdbc.IntegerColumns
import TrinoOdbc.SlotLayout
import TrinoOdbc.IndicatorOnly
import TrinoOdbc.IntervalColumns
import TrinoOdbc.NestedValues
import TrinoOdbc.WideStrings
import TrinoOdbc.IntegerRoundTrip
import TrinoOdbc.NumericStruct
import TrinoOdbc.DecimalText
import TrinoOdbc.CanonicalRuns
import TrinoOdbc.DescribeBuffers
import TrinoOdbc.MagnitudeBytes
import TrinoOdbc.DateTimeRoundTrip
import TrinoOdbc.NumberText
import TrinoOdbc.BigIntegerText
import TrinoOdbc.DynamicArray
import TrinoOdbc.Diagnostics
import TrinoOdbc.Handles
import TrinoOdbc.Attributes
import TrinoOdbc.DsnRegistry
import TrinoOdbc.ColumnAttributes
