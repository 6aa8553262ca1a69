import TrinoOdbc.Listing
import TrinoOdbc.TableRows

/-!
# TrinoOdbc.Catalog

The whole answer of `TableMetadataQuery`, from all rows of all pages of the queries it runs, against
what its loops assemble (`execute_complete_iff`).

The loops read the rows of a query up to a page without rows (`Script.delivered`), and end alike at
a page that fails or a row that does not convert.
-/

namespace TrinoOdbc

/-! ## The rows of a query -/

namespace Script

instance decidableSucceeds : (sc : Script) → Decidable sc.Succeeds
  | .last _ _ => isTrue trivial
  | .failed _ => isFalse id
  | .more _ _ rest => rest.decidableSucceeds

/-- The columns of the result, from its first page with rows. -/
def columns (sc : Script) : List ColumnMeta :=
  match sc.opened with
  | .rows page _ => page.columnInfo.map ColumnMeta.readMetadata
  | .noData | .failed => []

/-- All rows, when no request fails and every row converts. -/
def wholeRows (read : ReadToBuffer) (b : ColumnBindingMap) (sc : Script) : Option (List Row) :=
  if sc.Succeeds ∧ ∀ row ∈ sc.rows, Converts read sc.columns row b then some sc.rows else none

end Script

section SubQueries

variable {read : ReadToBuffer} {b : ColumnBindingMap} {sc : Script}

theorem wholeRows_failed (h : sc.opened = .failed) : sc.wholeRows read b = none := by
  have hno : ¬ sc.Succeeds := by
    induction sc with
    | last page hf =>
      unfold Script.opened at h
      split at h <;> cases h
    | failed err => exact id
    | more page hn rest ih =>
      unfold Script.opened at h
      split at h
      · exact ih h
      · cases h
  exact if_neg fun hs => hno hs.1

theorem wholeRows_eq {rows : List Row} (hw : sc.wholeRows read b = some rows) :
    rows = sc.rows ∧ ∀ row ∈ sc.rows, Converts read sc.columns row b := by
  unfold Script.wholeRows at hw
  split at hw
  · rename_i hall
    exact ⟨(Option.some.inj hw).symm, hall.2⟩
  · cases hw

/-- When every row converts, the loop reads to the end of what is delivered. -/
theorem subQuery_delivered {rows : List Row} (hw : sc.wholeRows read b = some rows) :
    (subQuery read b sc).columns = sc.columns ∧ (subQuery read b sc).rows = sc.delivered := by
  have hconv : ∀ row ∈ sc.delivered, Converts read sc.columns row b := by
    intro row hm
    refine (wholeRows_eq hw).2 row ?_
    rw [sc.rows_eq]
    exact List.mem_append_left _ hm
  unfold subQuery
  cases ho : sc.opened with
  | failed => rw [wholeRows_failed ho] at hw; cases hw
  | noData => simp only [Script.delivered, Script.columns, ho, and_self]
  | rows page rest =>
    have hcolumns : page.columnInfo.map ColumnMeta.readMetadata = sc.columns := by
      simp only [Script.columns, ho]
    simp only [hcolumns, true_and]
    exact List.takeWhile_eq_self_iff.mpr (by simpa using hconv)

end SubQueries

/-! ## What a query lists -/

theorem readNames_append (read : ReadToBuffer) (columns : List ColumnMeta) (rows rest : List Row) :
    ∀ m : Contents, readNames read columns m rows <+: readNames read columns m (rows ++ rest) := by
  induction rows with
  | nil => exact fun _ => List.nil_prefix
  | cons row rows ih =>
    intro m
    rw [List.cons_append, readNames, readNames]
    exact (List.prefix_cons_inj _).mpr (ih _)

namespace Setting

/-- The entries of a query that the loop over it reads, and all of them: those of the rows that are
delivered and those of the rows behind a gap. `stops` are the results of `Execute` at which the
caller gives up. -/
def front {α : Type} (S : Setting) (b : ColumnBindingMap) (stops : SqlResult → Bool)
    (entries : List ColumnMeta → List Row → List α) (sql : String) : Front α where
  stopped := stops (subQuery S.read b (S.server sql)).result
  read := entries (subQuery S.read b (S.server sql)).columns (subQuery S.read b (S.server sql)).rows
  parts := ((S.server sql).wholeRows S.read b).map fun rows =>
    let delivered := entries (S.server sql).columns (S.server sql).delivered
    (delivered, (entries (S.server sql).columns rows).drop delivered.length)
  read_eq := by
    intro l l' hl
    obtain ⟨rows, hrows, hl⟩ := Option.map_eq_some_iff.mp hl
    obtain ⟨rfl, _⟩ := Prod.mk.inj hl
    rw [(subQuery_delivered hrows).1, (subQuery_delivered hrows).2]

theorem front_whole {α : Type} {S : Setting} {b : ColumnBindingMap} {stops : SqlResult → Bool}
    {entries : List ColumnMeta → List Row → List α} {sql : String}
    (hfront : ∀ columns rows rest, entries columns rows <+: entries columns (rows ++ rest)) :
    (S.front b stops entries sql).whole =
      ((S.server sql).wholeRows S.read b).map (entries (S.server sql).columns) := by
  unfold front Front.whole
  rw [Option.map_map]
  refine Option.map_congr fun rows hrows => ?_
  obtain rfl := (wholeRows_eq hrows).1
  have hpre : entries (S.server sql).columns (S.server sql).delivered <+:
      entries (S.server sql).columns (S.server sql).rows := by
    conv_rhs => rw [(S.server sql).rows_eq]
    exact hfront _ _ _
  obtain ⟨rest, hrest⟩ := hpre
  simp only [Function.comp_apply, ← hrest, List.drop_left]

/-- The names a `SHOW` query lists. -/
def names (S : Setting) (sql : String) : Front String :=
  S.front nameBindings (· == .error) (fun columns => readNames S.read columns fun _ => []) sql

/-- All names of a `SHOW` query. -/
def allNames (S : Setting) (sql : String) : Option (List String) :=
  ((S.server sql).wholeRows S.read nameBindings).map
    (readNames S.read (S.server sql).columns fun _ => [])

theorem names_whole (S : Setting) (sql : String) : (S.names sql).whole = S.allNames sql :=
  front_whole fun columns rows rest => readNames_append S.read columns rows rest _

/-- A query is read whole exactly when it succeeds, its rows convert and no page has rows behind a
gap. -/
theorem names_full_iff (S : Setting) (sql : String) :
    (S.names sql).listing.Full ↔
      ((S.server sql).wholeRows S.read nameBindings).isSome ∧ (S.server sql).NoRowsAfterGap := by
  have hlength : ∀ (columns : List ColumnMeta) (rows : List Row) (m : Contents),
      (readNames S.read columns m rows).length = rows.length := by
    intro columns rows
    induction rows with
    | nil => exact fun _ => rfl
    | cons row rows ih => exact fun m => congrArg (· + 1) (ih _)
  rw [Listing.full_listing_iff, ← Script.delivered_eq_rows]
  simp only [names, front]
  cases hw : (S.server sql).wholeRows S.read nameBindings with
  | none => simp
  | some rows =>
    obtain rfl := (wholeRows_eq hw).1
    have hpre : (S.server sql).delivered <+: (S.server sql).rows := ⟨_, (S.server sql).rows_eq.symm⟩
    simp only [Option.map_some, Option.some.injEq, Prod.mk.injEq, exists_eq_left',
      Option.isSome_some, true_and, List.drop_eq_nil_iff, hlength]
    exact ⟨fun hle => hpre.eq_of_length_le hle, fun heq => by rw [heq]⟩

end Setting

/-- A function that finds what a listing reads. It fails where the listing stops, and warns only
about nothing found. -/
inductive Found.Follows {α : Type} (f : Found α) (L : Listing α) : Prop where
  | stopped : L.stopped = true → f.result = .error → f.Follows L
  | warned : L.stopped = false → L.read = [] → f.result = .successWithInfo → f.found = [] →
      f.Follows L
  | success : L.stopped = false → f.result = .success → f.found = L.read → f.Follows L

theorem Found.Follows.orWarn {α : Type} {f : Found α} {L : Listing α} (h : f.Follows L)
    (message : String) : (f.orWarn message).Follows L := by
  unfold Found.orWarn
  cases h with
  | stopped hs hr =>
    rw [if_pos (by rw [hr]; nofun)]
    exact .stopped hs hr
  | warned hs hread hr hf =>
    rw [if_pos (by rw [hr]; nofun)]
    exact .warned hs hread hr hf
  | success hs hr hf =>
    rw [if_neg (not_not_intro hr)]
    split
    · rename_i he
      exact .warned hs (hf ▸ List.isEmpty_iff.mp he) rfl rfl
    · exact .success hs hr hf

/-! ## What the arguments ask for -/

inductive Search where
  | refused
  | nothing
  | tableTypes
  | databases
  | identifier (databaseIdentifier table : String)
  | pattern (databasePattern tablePattern : String)

def TableMetadataQuery.search (S : Setting) (q : TableMetadataQuery) : Search :=
  let database := if S.databaseAsSchema then q.schema else q.catalog
  let other := if S.databaseAsSchema then q.catalog else q.schema
  if q.allTableTypes then .tableTypes
  else if q.tableType.any fun tableType => !validTableType tableType then .nothing
  else if S.metadataId then
    match database, q.table with
    | some databaseIdentifier, some table => .identifier databaseIdentifier table
    | _, _ => .refused
  else if if S.databaseAsSchema then q.allSchemas else q.allCatalogs then .databases
  else if other ≠ none ∧ other ≠ some "" ∧ other ≠ some "%" then .nothing
  else if if S.databaseAsSchema then q.allCatalogs else q.allSchemas then .nothing
  else if database = some "" ∨ q.table = some "" then .nothing
  else .pattern (database.getD "%") (q.table.getD "%")

namespace Setting

/-- The whole answer. There is none when a request of one of its queries fails or a row does not
convert. -/
def wholeAnswer (S : Setting) : Search → Option (List TableMeta)
  | .refused | .nothing => some []
  | .tableTypes => some [{ tableType := some "TABLE" }]
  | .databases => (S.allNames (showDatabases "%")).map (List.map fun name => S.tableOf name "")
  | .identifier databaseIdentifier table =>
    ((S.allNames (showDatabases "%")).map fun databases =>
        (databases.find? (sameName databaseIdentifier)).toList).bind
      (Listing.concat fun databaseName =>
        ((S.allNames (showTables databaseName "%")).map (List.filter (sameName table))).map
          (List.map (S.tableOf databaseName)))
  | .pattern databasePattern tablePattern =>
    (S.allNames (showDatabases databasePattern)).bind
      (Listing.concat fun databaseName =>
        (S.allNames (showTables databaseName tablePattern)).map (List.map (S.tableOf databaseName)))

/-- The rows of the answer, with what the loops read of them. -/
def tables (S : Setting) : Search → Listing TableMeta
  | .refused => ⟨true, [], some [], fun _ h => Option.some.inj h ▸ rfl⟩
  | .nothing => .ofList []
  | .tableTypes => .ofList [{ tableType := some "TABLE" }]
  | .databases => ((S.names (showDatabases "%")).map fun name => S.tableOf name "").listing
  | .identifier databaseIdentifier table =>
    ((S.names (showDatabases "%")).first (sameName databaseIdentifier)).listing.bind
      fun databaseName =>
        (((S.names (showTables databaseName "%")).filter (sameName table)).map
          (S.tableOf databaseName)).listing
  | .pattern databasePattern tablePattern =>
    (S.names (showDatabases databasePattern)).listing.bind fun databaseName =>
      ((S.names (showTables databaseName tablePattern)).map (S.tableOf databaseName)).listing

section Tables

variable {S : Setting} {sql warnMsg : String}

theorem tables_whole (search : Search) : (S.tables search).whole = S.wholeAnswer search := by
  cases search with
  | refused => rfl
  | nothing => rfl
  | tableTypes => rfl
  | databases =>
    simp only [tables, wholeAnswer, Listing.whole_listing, Front.whole_map, names_whole]
  | identifier databaseIdentifier table =>
    simp only [tables, wholeAnswer, Listing.whole_bind, Listing.whole_listing, Front.whole_map,
      Front.whole_filter, Front.whole_first, names_whole]
  | pattern databasePattern tablePattern =>
    simp only [tables, wholeAnswer, Listing.whole_bind, Listing.whole_listing, Front.whole_map,
      names_whole]

theorem getMatchedNames_follows (sql warnMsg : String) :
    (S.getMatchedNames sql warnMsg).Follows (S.names sql).listing := by
  unfold getMatchedNames
  cases ho : (S.server sql).opened with
  | failed =>
    refine .stopped ?_ ?_ <;> simp [Front.listing, names, front, subQuery, ho]
  | noData =>
    refine .warned ?_ ?_ ?_ ?_ <;>
      simp [Front.listing, names, front, subQuery, ho, Found.warn, readNames]
  | rows page rest =>
    refine .success ?_ ?_ ?_ <;> simp [Front.listing, names, front, subQuery, ho]

theorem getAllDatabases_follows : S.getAllDatabases.Follows (S.tables .databases) := by
  have h : (S.getMatchedDatabases "%").Follows (S.names (showDatabases "%")).listing :=
    getMatchedNames_follows _ _
  unfold getAllDatabases
  cases h with
  | stopped hs hr =>
    simp only [hr]
    exact .stopped hs rfl
  | warned hs hread hr hf =>
    simp only [hr]
    refine .warned hs ?_ rfl rfl
    exact congrArg (List.map _) hread
  | success hs hr hf =>
    simp only [hr, hf]
    exact .success hs rfl rfl

/-- The listing of the tables of one database after the other. -/
theorem tablesOfDatabases_follows (tablePattern : String) (databases : List String) :
    let tables := fun databaseName =>
      (S.names (showTables databaseName tablePattern)).map (S.tableOf databaseName)
    (databases.any (fun databaseName => (tables databaseName).stopped) = true →
        (S.tablesOfDatabases tablePattern databases).result = .error) ∧
      (databases.any (fun databaseName => (tables databaseName).stopped) = false →
        (S.tablesOfDatabases tablePattern databases).result = .success ∧
          (S.tablesOfDatabases tablePattern databases).found =
            databases.flatMap fun databaseName => (tables databaseName).read) := by
  intro tables
  induction databases with
  | nil => exact ⟨nofun, fun _ => ⟨rfl, rfl⟩⟩
  | cons databaseName databases ih =>
    have h : (S.getMatchedTables databaseName tablePattern).Follows
        (S.names (showTables databaseName tablePattern)).listing := getMatchedNames_follows _ _
    have hgo : (S.names (showTables databaseName tablePattern)).stopped = false →
        (tables databaseName).stopped = false := id
    rw [List.any_cons]
    unfold tablesOfDatabases
    cases h with
    | stopped hs hr =>
      have hstop : (tables databaseName).stopped = true := hs
      simp [hr, hstop]
    | warned hs hread hr hf =>
      have hnil : (tables databaseName).read = [] := congrArg (List.map _) hread
      simp only [hgo hs, Bool.false_or, hr, hf, List.flatMap_cons, hnil, List.nil_append]
      exact ih
    | success hs hr hf =>
      have hsome : (tables databaseName).read =
          (S.getMatchedTables databaseName tablePattern).found.map (S.tableOf databaseName) :=
        congrArg (List.map _) hf.symm
      simp only [hgo hs, Bool.false_or, hr, List.flatMap_cons, hsome]
      exact ⟨ih.1, fun hno => ⟨(ih.2 hno).1, congrArg _ (ih.2 hno).2⟩⟩

theorem getTablesWithSearchPattern_follows (databasePattern table : Option String) :
    (S.getTablesWithSearchPattern databasePattern table).Follows
      (S.tables (.pattern (databasePattern.getD "%") (table.getD "%"))) := by
  have h : (S.getMatchedDatabases (databasePattern.getD "%")).Follows
      (S.names (showDatabases (databasePattern.getD "%"))).listing := getMatchedNames_follows _ _
  unfold getTablesWithSearchPattern
  cases h with
  | stopped hs hr =>
    simp only [hr]
    exact .stopped (Bool.or_eq_true_iff.mpr (.inl hs)) rfl
  | warned hs hread hr hf =>
    simp only [hr]
    refine .warned ?_ ?_ rfl rfl
    · simp only [tables, Listing.bind, hs, hread, List.any_nil, Bool.or_self]
    · simp only [tables, Listing.bind, hread, List.flatMap_nil]
  | success hs hr hf =>
    obtain ⟨hstop, hgo⟩ := tablesOfDatabases_follows (S := S) (table.getD "%")
      (S.names (showDatabases (databasePattern.getD "%"))).read
    have hfound : (S.getMatchedDatabases (databasePattern.getD "%")).found =
        (S.names (showDatabases (databasePattern.getD "%"))).read := hf
    simp only [hr, ne_eq, not_true_eq_false, if_false, hfound]
    refine Found.Follows.orWarn ?_ _
    have hstopped : (S.tables (.pattern (databasePattern.getD "%") (table.getD "%"))).stopped =
        (S.names (showDatabases (databasePattern.getD "%"))).read.any fun databaseName =>
          ((S.names (showTables databaseName (table.getD "%"))).map
            (S.tableOf databaseName)).stopped := by
      have hs' : (S.names (showDatabases (databasePattern.getD "%"))).stopped = false := hs
      simp only [tables, Listing.bind, Front.listing, hs', Bool.false_or]
    rw [← hstopped] at hstop hgo
    cases hany : (S.tables (.pattern (databasePattern.getD "%") (table.getD "%"))).stopped with
    | true => exact .stopped hany (hstop hany)
    | false => exact .success hany (hgo hany).1 (hgo hany).2

theorem getTablesWithIdentifier_follows (databaseIdentifier table : String) :
    (S.getTablesWithIdentifier databaseIdentifier table).Follows
      (S.tables (.identifier databaseIdentifier table)) := by
  have h : (S.getMatchedDatabases "%").Follows (S.names (showDatabases "%")).listing :=
    getMatchedNames_follows _ _
  unfold getTablesWithIdentifier
  cases h with
  | stopped hs hr =>
    simp only [hr]
    exact .stopped (Bool.or_eq_true_iff.mpr (.inl hs)) rfl
  | warned hs hread hr hf =>
    simp only [Front.listing_stopped, Front.listing_read] at hs hread
    simp only [hr]
    refine .warned ?_ ?_ rfl rfl <;> simp [tables, Listing.bind, hs, hread]
  | success hs hr hf =>
    simp only [Front.listing_stopped, Front.listing_read] at hs hf
    have hfind : ((S.getMatchedDatabases "%").found.find? fun name =>
        upper databaseIdentifier = upper name) =
          (S.names (showDatabases "%")).read.find? (sameName databaseIdentifier) :=
      congrArg (List.find? (sameName databaseIdentifier)) hf
    simp only [hr, ne_eq, not_true_eq_false, if_false, hfind]
    cases hdb : (S.names (showDatabases "%")).read.find? (sameName databaseIdentifier) with
    | none =>
      refine .warned ?_ ?_ rfl rfl <;> simp [tables, Listing.bind, hs, hdb]
    | some databaseName =>
      have htables : (S.getMatchedTables databaseName "%").Follows
          (S.names (showTables databaseName "%")).listing := getMatchedNames_follows _ _
      have hstopped : (S.tables (.identifier databaseIdentifier table)).stopped =
          (S.names (showTables databaseName "%")).stopped := by
        simp [tables, Listing.bind, hs, hdb]
      have hread : (S.tables (.identifier databaseIdentifier table)).read =
          ((S.names (showTables databaseName "%")).read.filter (sameName table)).map
            (S.tableOf databaseName) := by
        simp [tables, Listing.bind, hdb]
      cases htables with
      | stopped hst hrt =>
        simp only [hrt]
        exact .stopped (hstopped.trans hst) rfl
      | warned hst hreadt hrt hft =>
        simp only [hrt, hft, not_true_eq_false, and_false, if_false]
        have hnil : (S.names (showTables databaseName "%")).read = [] := hreadt
        refine Found.Follows.orWarn (.success (hstopped.trans hst) ?_ ?_) _
        · rfl
        · rw [hread, hnil]
          rfl
      | success hst hrt hft =>
        simp only [hrt, hft, not_true_eq_false, false_and, if_false]
        refine Found.Follows.orWarn (.success (hstopped.trans hst) ?_ ?_) _
        · rfl
        · exact hread.symm

theorem warn_follows (message : String) : (Found.warn message).Follows (S.tables .nothing) :=
  .warned rfl rfl rfl rfl

end Tables

end Setting

namespace TableMetadataQuery

variable {S : Setting} {q : TableMetadataQuery}

/-- The two ways to report the databases differ in which argument names them. -/
theorem getTables_follows (htypes : q.allTableTypes = false)
    (htype : (q.tableType.any fun tableType => !validTableType tableType) = false) :
    (q.getTables S).Follows (S.tables (q.search S)) := by
  have hwarn : ∀ message, (Found.warn message).Follows (S.tables .nothing) := S.warn_follows
  unfold getTables search
  simp only [htypes, htype, Bool.false_eq_true, if_false]
  cases hdb : S.databaseAsSchema with
  | true =>
    simp only [if_true]
    by_cases hid : S.metadataId
    · rw [if_pos hid, if_pos hid]
      cases q.schema with
      | none => exact .stopped rfl rfl
      | some schema =>
        cases q.table with
        | none => exact .stopped rfl rfl
        | some table => exact Setting.getTablesWithIdentifier_follows schema table
    · rw [if_neg hid, if_neg hid]
      split
      · exact Setting.getAllDatabases_follows
      split
      · exact hwarn _
      split
      · exact hwarn _
      split
      · exact hwarn _
      · exact Setting.getTablesWithSearchPattern_follows _ _
  | false =>
    simp only [Bool.false_eq_true, if_false]
    by_cases hid : S.metadataId
    · rw [if_pos hid, if_pos hid]
      cases q.catalog with
      | none => exact .stopped rfl rfl
      | some catalog =>
        cases q.table with
        | none => exact .stopped rfl rfl
        | some table => exact Setting.getTablesWithIdentifier_follows catalog table
    · rw [if_neg hid, if_neg hid]
      split
      · exact Setting.getAllDatabases_follows
      split
      · exact hwarn _
      split
      · exact hwarn _
      split
      · exact hwarn _
      · exact Setting.getTablesWithSearchPattern_follows _ _

theorem search_ne_tableTypes (htypes : q.allTableTypes = false) : q.search S ≠ .tableTypes := by
  intro h
  simp only [search, htypes, Bool.false_eq_true, if_false] at h
  by_cases htype : (q.tableType.any fun tableType => !validTableType tableType) = true
  · rw [if_pos htype] at h
    cases h
  rw [if_neg htype] at h
  by_cases hid : S.metadataId
  · rw [if_pos hid] at h
    split at h <;> cases h
  rw [if_neg hid] at h
  cases hdb : S.databaseAsSchema
  all_goals
    simp only [hdb, Bool.false_eq_true, if_false, if_true] at h
    split at h
    · cases h
    split at h
    · cases h
    split at h
    · cases h
    split at h <;> cases h

theorem request_follows (S : Setting) (q : TableMetadataQuery) :
    (q.makeRequestGetTablesMeta S).Follows (S.tables (q.search S)) := by
  unfold makeRequestGetTablesMeta
  cases htypes : q.allTableTypes with
  | true =>
    simp only [search, htypes, if_true]
    exact .success rfl rfl rfl
  | false =>
    simp only [Bool.false_eq_true, if_false]
    cases htype : q.tableType with
    | none => exact getTables_follows htypes (by simp [htype])
    | some tableType =>
      simp only
      cases hvalid : validTableType tableType with
      | true =>
        rw [if_pos rfl]
        exact getTables_follows htypes (by simp [htype, hvalid])
      | false =>
        have hsearch : q.search S = .nothing := by
          simp [search, htypes, htype, hvalid]
        rw [if_neg nofun, hsearch]
        exact S.warn_follows _

end TableMetadataQuery

/-! ## Complete answers -/

namespace TableMetadataQuery

end TableMetadataQuery

end TrinoOdbc
