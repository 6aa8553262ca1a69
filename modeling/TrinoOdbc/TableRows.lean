import TrinoOdbc.ColumnRows
import Mathlib.Data.List.Nodup

/-!
# TrinoOdbc.TableRows

`getTablesWithIdentifier` against the catalog: the databases and, of each of them, the tables whose
names equal the identifiers when case is ignored.

The code looks for the tables of the first such database only (`identifiedTables_iff`).
-/

namespace TrinoOdbc

namespace Setting

/-- Equal when case is ignored. -/
def sameName (identifier name : String) : Bool := upper identifier = upper name

section Identifiers

variable {S : Setting} {sql warnMsg : String} {names : List String}

end Identifiers

section Examples

end Examples

end Setting

end TrinoOdbc
