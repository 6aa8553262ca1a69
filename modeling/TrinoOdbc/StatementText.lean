import TrinoOdbc.ColumnMetadata
import TrinoOdbc.SqlLexer

/-!
# TrinoOdbc.StatementText

The statements the catalog functions send, read by the rules of SQL. Their arguments are put between
quotes as they are, so a statement has the tokens it is meant to have exactly when no argument
contains the quote that encloses it (`statements_read_iff`).
-/

namespace TrinoOdbc

open SqlLexer

/-- A keyword. -/
def keyword (letters : String) : Token := .word letters.toList

def literal (value : String) : Token := .quoted .single value.toList

def identifier (value : String) : Token := .quoted .double value.toList

def showDatabasesTokens (databasePattern : String) : List Token :=
  [keyword "SHOW", keyword "DATABASES", keyword "LIKE", literal databasePattern]

def showTablesTokens (databaseName tablePattern : String) : List Token :=
  [keyword "SHOW", keyword "TABLES", keyword "FROM", identifier databaseName, keyword "LIKE",
    literal tablePattern]

def describeTokens (databaseName tableName : String) : List Token :=
  [keyword "DESCRIBE", identifier databaseName, .symbol '.', identifier tableName]

section Reading

variable {q q' : Quote} {st st' : SqlLexer.State} {a s rest : List Char}
  {before between ts : List Token} {head middle last : String}

/-- The tokens before the rest of a text that begins with `a`. -/
theorem lexFrom_append_iff (h : scan st a = (before, st')) :
    lexFrom st (a ++ s) = some (before ++ ts) ↔ lexFrom st' s = some ts := by
  rw [lexFrom_append, h]
  constructor
  · intro hs
    obtain ⟨ts', hts', heq⟩ := Option.map_eq_some_iff.mp hs
    rw [hts', List.append_cancel_left heq]
  · intro hs
    rw [hs, Option.map_some]

/-- Behind a quoted text that ends the statement nothing is left to read. -/
theorem lexFrom_last_iff (hlast : last.toList = [q.char]) (value : String) :
    lexFrom (.inside q []) (value.toList ++ last.toList) = some [.quoted q value.toList] ↔
      q.char ∉ value.toList := by
  have hnil : ([] : List Char).head? ≠ some q.char := nofun
  rw [hlast, lexFrom_quoted_iff hnil]
  exact and_iff_left rfl

/-- A statement with one argument. -/
theorem lex_one_iff (hhead : scan .between head.toList = (before, .inside q []))
    (hlast : last.toList = [q.char]) (value : String) :
    lex (head ++ value ++ last).toList = some (before ++ [.quoted q value.toList]) ↔
      q.char ∉ value.toList := by
  rw [String.toList_append, String.toList_append, List.append_assoc, lex,
    lexFrom_append_iff hhead, lexFrom_last_iff hlast]

/-- A statement with two arguments, whose text between them starts with the closing quote. -/
theorem lex_two_iff (hhead : scan .between head.toList = (before, .inside q []))
    (hmiddle : middle.toList = q.char :: rest) (hrest : rest.head? ≠ some q.char)
    (hscan : scan .between rest = (between, .inside q' [])) (hlast : last.toList = [q'.char])
    (value value' : String) :
    lex (head ++ value ++ middle ++ value' ++ last).toList =
        some (before ++ .quoted q value.toList :: (between ++ [.quoted q' value'.toList])) ↔
      q.char ∉ value.toList ∧ q'.char ∉ value'.toList := by
  have hnext : (rest ++ (value'.toList ++ last.toList)).head? ≠ some q.char := by
    cases rest with
    | nil =>
      rw [scan, Prod.mk.injEq] at hscan
      cases hscan.2
    | cons c rest => simpa using hrest
  simp only [String.toList_append, List.append_assoc, hmiddle, List.cons_append]
  rw [lex, lexFrom_append_iff hhead, lexFrom_quoted_iff hnext, lexFrom_append_iff hscan,
    lexFrom_last_iff hlast]

theorem showDatabases_read_iff (databasePattern : String) :
    lex (Setting.showDatabases databasePattern).toList =
      some (showDatabasesTokens databasePattern) ↔ '\'' ∉ databasePattern.toList := by
  have hhead : scan .between "SHOW DATABASES LIKE '".toList =
      ([keyword "SHOW", keyword "DATABASES", keyword "LIKE"], .inside .single []) := by
    decide +kernel
  exact lex_one_iff hhead rfl databasePattern

theorem showTables_read_iff (databaseName tablePattern : String) :
    lex (Setting.showTables databaseName tablePattern).toList =
      some (showTablesTokens databaseName tablePattern) ↔
        '"' ∉ databaseName.toList ∧ '\'' ∉ tablePattern.toList := by
  have hhead : scan .between "SHOW TABLES FROM \"".toList =
      ([keyword "SHOW", keyword "TABLES", keyword "FROM"], .inside .double []) := by
    decide +kernel
  have hmiddle : scan .between " LIKE '".toList = ([keyword "LIKE"], .inside .single []) := by
    decide +kernel
  exact lex_two_iff hhead rfl (by decide) hmiddle rfl databaseName tablePattern

theorem describe_read_iff (databaseName tableName : String) :
    lex (Setting.describe databaseName tableName).toList =
      some (describeTokens databaseName tableName) ↔
        '"' ∉ databaseName.toList ∧ '"' ∉ tableName.toList := by
  have hhead : scan .between "describe \"".toList =
      ([keyword "DESCRIBE"], .inside .double []) := by decide +kernel
  have hmiddle : scan .between ".\"".toList = ([.symbol '.'], .inside .double []) := by
    decide +kernel
  exact lex_two_iff hhead rfl (by decide) hmiddle rfl databaseName tableName

end Reading

/-- The three statements have the tokens and the values they are meant to have, for exactly the
arguments without the quote they are put between. -/
theorem statements_read_iff (databasePattern databaseName tablePattern tableName : String) :
    (lex (Setting.showDatabases databasePattern).toList =
        some (showDatabasesTokens databasePattern) ↔ '\'' ∉ databasePattern.toList) ∧
    (lex (Setting.showTables databaseName tablePattern).toList =
        some (showTablesTokens databaseName tablePattern) ↔
      '"' ∉ databaseName.toList ∧ '\'' ∉ tablePattern.toList) ∧
    (lex (Setting.describe databaseName tableName).toList =
        some (describeTokens databaseName tableName) ↔
      '"' ∉ databaseName.toList ∧ '"' ∉ tableName.toList) :=
  ⟨showDatabases_read_iff databasePattern, showTables_read_iff databaseName tablePattern,
    describe_read_iff databaseName tableName⟩

/-- A quote in a pattern ends the literal, and what follows it is read as SQL: two patterns instead
of one, or a literal that is not closed. -/
theorem pattern_with_quote :
    (lex (Setting.showTables "sales" "a' OR 'b").toList =
        some (showTablesTokens "sales" "a" ++ [keyword "OR", literal "b"]) ∧
      lex (Setting.showTables "sales" "a' OR 'b").toList ≠
        some (showTablesTokens "sales" "a' OR 'b")) ∧
    lex (Setting.showDatabases "a'b").toList = none := by
  decide +kernel

end TrinoOdbc
