import Mathlib.Data.List.Infix

/-!
# TrinoOdbc.SearchPattern

Search patterns over UTF-8 texts: `%` stands for any sequence of characters, `_` for any one
character, and every other character for itself. The elements of a text are its bytes, so one
character is a byte that starts one and the bytes that continue it.
-/

namespace TrinoOdbc.SearchPattern

end TrinoOdbc.SearchPattern
