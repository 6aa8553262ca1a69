import TrinoOdbc.Catalog

/-!
# TrinoOdbc.ColumnCatalog

The whole answer of `ColumnMetadataQuery` against what its loop over the tables assembles, and both
catalog functions together (`catalog_complete_iff`).

The loop gives up at the first table whose `DESCRIBE` does not succeed with rows, and no failure
below it is reported as an error.
-/

namespace TrinoOdbc

/-! ## The names of a table -/

/-- A text with its NUL hides what was in the array before. -/
theorem cString_fill {bytes : List UInt8} {put : Put} (hput : put.data = some bytes)
    (hclosed : 0 ∈ bytes) (content : List UInt8) : cString (fill content put) = cString bytes := by
  have hshort : (bytes.takeWhile (· ≠ 0)).length ≠ bytes.length := by
    intro h
    have hall := List.takeWhile_eq_self_iff.mp ((List.takeWhile_sublist _).eq_of_length h)
    simpa using hall 0 hclosed
  unfold cString fill
  rw [hput]
  simp only
  rw [List.takeWhile_append, if_neg hshort]

namespace Setting

variable {S : Setting}

/-- The names of the database and of the table, as the two arrays give them. -/
def tableNames (S : Setting) (t : TableMeta) : String × String :=
  (cString (S.storeTable (fun _ => []) t S.databaseColumn),
    cString (S.storeTable (fun _ => []) t 3))

theorem storeTable_tableOf (m : Contents) (databaseName tableName : String) :
    S.storeTable m (S.tableOf databaseName tableName) S.databaseColumn =
        fill (m S.databaseColumn) (S.puts.string databaseName nameBuffer) ∧
      S.storeTable m (S.tableOf databaseName tableName) 3 =
        fill (m 3) (S.puts.string tableName { nameBuffer with buffer := some 4096 }) := by
  have hdatabase : TableMetadataQuery.cells S.puts (S.tableOf databaseName tableName)
      S.databaseColumn nameBuffer = .ofPut (S.puts.string databaseName nameBuffer) := by
    unfold tableOf databaseColumn
    cases S.databaseAsSchema <;> rfl
  have htable : ∀ buffer, TableMetadataQuery.cells S.puts (S.tableOf databaseName tableName) 3
      buffer = .ofPut (S.puts.string tableName buffer) := by
    intro buffer
    unfold tableOf
    cases S.databaseAsSchema <;> rfl
  have hne : S.databaseColumn ≠ 3 := by
    unfold databaseColumn
    cases S.databaseAsSchema <;> decide
  simp [storeTable, MetadataCursor.readBindings, tableBindings, hdatabase, htable,
    ColumnRead.stored, ColumnRead.ofPut, Contents.store, hne, hne.symm]

theorem storeTable_names (m : Contents) (databaseName tableName : String) :
    cString (S.storeTable m (S.tableOf databaseName tableName) S.databaseColumn) =
        (S.tableNames (S.tableOf databaseName tableName)).1 ∧
      cString (S.storeTable m (S.tableOf databaseName tableName) 3) =
        (S.tableNames (S.tableOf databaseName tableName)).2 := by
  obtain ⟨bytes, hput, hclosed⟩ :=
    S.puts.string_closed databaseName nameBuffer rfl nofun (by decide)
  obtain ⟨bytes', hput', hclosed'⟩ :=
    S.puts.string_closed tableName { nameBuffer with buffer := some 4096 } rfl nofun (by decide)
  unfold tableNames
  simp only [(storeTable_tableOf _ databaseName tableName).1,
    (storeTable_tableOf _ databaseName tableName).2, cString_fill hput hclosed,
    cString_fill hput' hclosed', and_self]

/-! ## The columns of a table -/

theorem readColumnRows_append (column databaseName tableName : String)
    (columns : List ColumnMeta) (rows rest : List Row) : ∀ (m : Contents) (position : Int),
    S.readColumnRows column databaseName tableName columns m position rows <+:
      S.readColumnRows column databaseName tableName columns m position (rows ++ rest) := by
  induction rows with
  | nil => exact fun _ _ => List.nil_prefix
  | cons row rows ih =>
    intro m position
    rw [List.cons_append]
    unfold readColumnRows
    simp only
    split
    · exact (List.prefix_cons_inj _).mpr (ih _ _)
    · exact ih _ _

/-- The columns of a table that match, and those of them the loop over its `DESCRIBE` reads. -/
def columnsOf (S : Setting) (column : String) (names : String × String) : Front ColumnMeta :=
  S.front describeBindings (· != .success)
    (fun columns => S.readColumnRows column names.1 names.2 columns (fun _ => []) 0)
    (describe names.1 names.2)

/-- All columns of a table that match. -/
def allColumns (S : Setting) (column : String) (names : String × String) :
    Option (List ColumnMeta) :=
  let sc := S.server (describe names.1 names.2)
  (sc.wholeRows S.read describeBindings).map
    (S.readColumnRows column names.1 names.2 sc.columns (fun _ => []) 0)

theorem columnsOf_whole (column : String) (names : String × String) :
    (S.columnsOf column names).whole = S.allColumns column names :=
  front_whole fun columns rows rest =>
    readColumnRows_append column names.1 names.2 columns rows rest _ _

theorem perTable_stopped {column databaseName tableName : String} (before : List ColumnMeta)
    (h : (S.columnsOf column (databaseName, tableName)).stopped = true) :
    (S.makeRequestGetColumnsMetaPerTable column databaseName tableName before).result = .noData ∧
      (S.makeRequestGetColumnsMetaPerTable column databaseName tableName before).found = [] := by
  have hne : (subQuery S.read describeBindings (S.server (describe databaseName tableName))).result
      ≠ .success := by simpa [columnsOf, front] using h
  unfold makeRequestGetColumnsMetaPerTable
  simp only [if_pos hne, and_self]

theorem perTable_read {column databaseName tableName : String} (before : List ColumnMeta)
    (h : (S.columnsOf column (databaseName, tableName)).stopped = false) :
    ((S.makeRequestGetColumnsMetaPerTable column databaseName tableName before).result = .success ∨
        (S.makeRequestGetColumnsMetaPerTable column databaseName tableName before).result =
          .successWithInfo) ∧
      (S.makeRequestGetColumnsMetaPerTable column databaseName tableName before).found =
        (S.columnsOf column (databaseName, tableName)).read := by
  have heq : (subQuery S.read describeBindings (S.server (describe databaseName tableName))).result
      = .success := by simpa [columnsOf, front] using h
  unfold makeRequestGetColumnsMetaPerTable
  simp only [heq, ne_eq, not_true_eq_false, if_false]
  split
  · rename_i he
    exact ⟨.inr rfl, (List.append_eq_nil_iff.mp (List.isEmpty_iff.mp he)).2.symm⟩
  · exact ⟨.inl rfl, rfl⟩

/-- The loop over the tables. -/
theorem columnsOfTables_reads (column : String) (ts : List TableMeta)
    (hts : ∀ t ∈ ts, ∃ databaseName tableName, t = S.tableOf databaseName tableName) :
    ∀ (m : Contents) (before : List ColumnMeta) (result : SqlResult),
      (result = .success ∨ result = .successWithInfo) →
      (ts.any (fun t => (S.columnsOf column (S.tableNames t)).stopped) = true →
        (S.columnsOfTables column m before result ts).result = .noData) ∧
      (ts.any (fun t => (S.columnsOf column (S.tableNames t)).stopped) = false →
        ((S.columnsOfTables column m before result ts).result = .success ∨
          (S.columnsOfTables column m before result ts).result = .successWithInfo) ∧
        (S.columnsOfTables column m before result ts).found =
          ts.flatMap fun t => (S.columnsOf column (S.tableNames t)).read) := by
  induction ts with
  | nil => exact fun m before result h => ⟨nofun, fun _ => ⟨h, rfl⟩⟩
  | cons t ts ih =>
    intro m before result _
    obtain ⟨databaseName, tableName, ht⟩ := hts t List.mem_cons_self
    obtain ⟨hdatabase, htable⟩ := S.storeTable_names m databaseName tableName
    rw [← ht] at hdatabase htable
    have hstopped := fun h => perTable_stopped before
      (show (S.columnsOf column ((S.tableNames t).1, (S.tableNames t).2)).stopped = true from h)
    have hread := fun h => perTable_read before
      (show (S.columnsOf column ((S.tableNames t).1, (S.tableNames t).2)).stopped = false from h)
    rw [List.any_cons]
    unfold columnsOfTables
    simp only [hdatabase, htable]
    generalize S.makeRequestGetColumnsMetaPerTable column (S.tableNames t).1 (S.tableNames t).2
      before = r at hstopped hread ⊢
    cases hstop : (S.columnsOf column (S.tableNames t)).stopped with
    | true =>
      obtain ⟨hr, _⟩ := hstopped hstop
      simp [hr]
    | false =>
      obtain ⟨hr, hf⟩ := hread hstop
      have hgo : ¬ (r.result ≠ .success ∧ r.result ≠ .successWithInfo) := by
        rintro ⟨h1, h2⟩
        exact hr.elim h1 h2
      obtain ⟨hrest, hrest'⟩ := ih (fun t ht => hts t (List.mem_cons_of_mem _ ht))
        (S.storeTable m t) (before ++ r.found) _ hr
      rw [if_neg hgo, Bool.false_or, List.flatMap_cons]
      exact ⟨hrest, fun hno => ⟨(hrest' hno).1, congrArg₂ (· ++ ·) hf (hrest' hno).2⟩⟩

theorem tables_tableOf {search : Search} (h : search ≠ .tableTypes) :
    ∀ t ∈ (S.tables search).read, ∃ databaseName tableName,
      t = S.tableOf databaseName tableName := by
  cases search with
  | refused => nofun
  | nothing => nofun
  | tableTypes => exact absurd rfl h
  | databases =>
    intro t ht
    obtain ⟨name, _, rfl⟩ := List.mem_map.mp ht
    exact ⟨name, "", rfl⟩
  | identifier databaseIdentifier table =>
    intro t ht
    obtain ⟨databaseName, _, ht⟩ := List.mem_flatMap.mp ht
    obtain ⟨tableName, _, rfl⟩ := List.mem_map.mp ht
    exact ⟨databaseName, tableName, rfl⟩
  | pattern databasePattern tablePattern =>
    intro t ht
    obtain ⟨databaseName, _, ht⟩ := List.mem_flatMap.mp ht
    obtain ⟨tableName, _, rfl⟩ := List.mem_map.mp ht
    exact ⟨databaseName, tableName, rfl⟩

end Setting

namespace ColumnMetadataQuery

variable {S : Setting} {q : ColumnMetadataQuery}

/-- The whole answer: of every table selected, the columns that match. -/
def wholeAnswer (S : Setting) (q : ColumnMetadataQuery) : Option (List ColumnMeta) :=
  if q.Declined S then some []
  else if S.metadataId then
    S.allColumns (q.columnArgument S) ((q.databaseArgument S).getD "", q.table.getD "")
  else
    (S.wholeAnswer (q.tableMetadataQuery.search S)).bind
      (Listing.concat fun t => S.allColumns (q.columnArgument S) (S.tableNames t))

/-- The rows of the answer, with what the loops read of them. -/
def columns (S : Setting) (q : ColumnMetadataQuery) : Listing ColumnMeta :=
  if q.Declined S then .ofList []
  else if S.metadataId then
    (S.columnsOf (q.columnArgument S) ((q.databaseArgument S).getD "", q.table.getD "")).listing
  else
    (S.tables (q.tableMetadataQuery.search S)).bind fun t =>
      (S.columnsOf (q.columnArgument S) (S.tableNames t)).listing

theorem columns_whole (S : Setting) (q : ColumnMetadataQuery) :
    (q.columns S).whole = q.wholeAnswer S := by
  unfold columns wholeAnswer
  split
  · rfl
  split
  · rw [Listing.whole_listing, Setting.columnsOf_whole]
  · simp only [Listing.whole_bind, Listing.whole_listing, Setting.tables_whole,
      Setting.columnsOf_whole]

/-- What the request comes to: it reads the listing, or gives up without an error. -/
inductive Answered (L : Listing ColumnMeta) (f : Found ColumnMeta) : Prop where
  | returned : L.stopped = false → f.result = .success ∨ f.result = .successWithInfo →
      f.found = L.read → Answered L f
  | warned : L.stopped = true → f.result = .successWithInfo → f.found = [] → Answered L f
  | gaveUp : L.stopped = true → f.result = .noData → Answered L f

/-- The request of a query whose null pointers have become `%`. -/
theorem request_answered (h : ¬ q.Declined S) (column : String) (hc : q.column = some column)
    (htypes : q.tableMetadataQuery.allTableTypes = false) :
    Answered (q.columns S) (q.makeRequestGetColumnsMeta S) := by
  have hcolumn : q.columnArgument S = column := by rw [columnArgument, hc]; rfl
  have hgetD : q.column.getD "" = column := by rw [hc]; rfl
  have hpattern : (if S.databaseAsSchema then q.schema else q.catalog) = q.databaseArgument S := rfl
  unfold makeRequestGetColumnsMeta getColumns columns
  rw [if_neg h, hcolumn, hgetD, hpattern]
  by_cases hid : S.metadataId
  · rw [if_pos hid, if_pos hid]
    cases hstop :
        (S.columnsOf column ((q.databaseArgument S).getD "", q.table.getD "")).stopped with
    | true => exact .gaveUp hstop (Setting.perTable_stopped [] hstop).1
    | false =>
      obtain ⟨hr, hf⟩ := Setting.perTable_read [] hstop
      exact .returned hstop hr hf
  · rw [if_neg hid, if_neg hid]
    simp only
    have hsearch : q.tableMetadataQuery.search S ≠ .tableTypes :=
      TableMetadataQuery.search_ne_tableTypes htypes
    have hresult := q.tableMetadataQuery.execute_result S
    cases q.tableMetadataQuery.request_follows S with
    | stopped hs hr =>
      rw [if_pos (by rw [hresult, hr]; nofun)]
      exact .warned (Bool.or_eq_true_iff.mpr (.inl hs)) rfl rfl
    | warned hs hread hr hf =>
      rw [if_pos (by rw [hresult, hr]; nofun)]
      refine .returned ?_ (.inr rfl) ?_
      · simp [Listing.bind, hs, hread]
      · simp [Listing.bind, hread]
    | success hs hr hf =>
      have hok := hresult.trans hr
      have hrows : (q.tableMetadataQuery.execute S).2.cursor.metaVector =
          (S.tables (q.tableMetadataQuery.search S)).read :=
        (TableMetadataQuery.execute_ahead (.inl hok)).metaVector.trans hf
      rw [if_neg (not_not_intro hok), hrows]
      obtain ⟨hstop, hgo⟩ := Setting.columnsOfTables_reads column
        (S.tables (q.tableMetadataQuery.search S)).read (Setting.tables_tableOf hsearch)
        (fun _ => []) [] _ (.inl hok)
      have hstopped : ((S.tables (q.tableMetadataQuery.search S)).bind fun t =>
          (S.columnsOf column (S.tableNames t)).listing).stopped =
            (S.tables (q.tableMetadataQuery.search S)).read.any fun t =>
              (S.columnsOf column (S.tableNames t)).stopped := by
        simp only [Listing.bind, hs, Bool.false_or]
        rfl
      rw [← hstopped] at hstop hgo
      cases hany : ((S.tables (q.tableMetadataQuery.search S)).bind fun t =>
          (S.columnsOf column (S.tableNames t)).listing).stopped with
      | true => exact .gaveUp hany (hstop hany)
      | false => exact .returned hany (hgo hany).1 (hgo hany).2

/-! ## `Execute` -/

theorem closed_tableMetadataQuery : q.closed.tableMetadataQuery = q.tableMetadataQuery := by
  obtain ⟨c, _, hc⟩ := q.closed_withCursor
  rw [hc]
  rfl

theorem sent_tableMetadataQuery : (q.sent S).tableMetadataQuery = q.tableMetadataQuery := by
  unfold sent
  split <;> rfl

theorem execute_tableMetadataQuery :
    (q.execute S).2.tableMetadataQuery = q.tableMetadataQuery := by
  by_cases hd : q.Declined S
  · obtain ⟨r, record, p, _, hp, hexec⟩ := execute_declined hd
    rw [hexec]
    rcases hp with rfl | rfl <;> exact closed_tableMetadataQuery
  · rw [execute_request hd]
    exact sent_tableMetadataQuery

/-- A query after any calls, with `DATABASE_AS_SCHEMA` the same throughout. -/
inductive Reached (databaseAsSchema : Bool) : ColumnMetadataQuery → Prop where
  | create (S : Setting) (catalog schema table column : Option String) :
      S.databaseAsSchema = databaseAsSchema →
      Reached databaseAsSchema (.create S catalog schema table column)
  | execute {q : ColumnMetadataQuery} (S : Setting) : Reached databaseAsSchema q →
      S.databaseAsSchema = databaseAsSchema → Reached databaseAsSchema (q.execute S).2
  | fetchNextRow {q : ColumnMetadataQuery} (P : Puts) (b : ColumnBindingMap) :
      Reached databaseAsSchema q → Reached databaseAsSchema (q.fetchNextRow P b).2
  | getColumn {q : ColumnMetadataQuery} (P : Puts) (columnIdx : Nat)
      (buffer : ApplicationDataBuffer) : Reached databaseAsSchema q →
      Reached databaseAsSchema (q.getColumn P columnIdx buffer).2
  | rowNumber {q : ColumnMetadataQuery} : Reached databaseAsSchema q →
      Reached databaseAsSchema q.rowNumber.2
  | close {q : ColumnMetadataQuery} : Reached databaseAsSchema q → Reached databaseAsSchema q.close

/-- What `meta` holds comes from a request. -/
structure Kept (databaseAsSchema : Bool) (q : ColumnMetadataQuery) : Prop where
  requested : q.Inadmissible databaseAsSchema → q.cursor.metaVector = []
  allTableTypes : q.tableMetadataQuery.allTableTypes = false

theorem Kept.withCursor {databaseAsSchema : Bool} {c : MetadataCursor ColumnMeta}
    (h : q.Kept databaseAsSchema) (hc : c.metaVector = q.cursor.metaVector ∨ c.metaVector = []) :
    (q.withCursor c).Kept databaseAsSchema := by
  refine ⟨fun hin => ?_, h.allTableTypes⟩
  rcases hc with hc | hc
  · exact hc.trans (h.requested hin)
  · exact hc

theorem inadmissible_withDefaults {databaseAsSchema : Bool} :
    q.withDefaults.Inadmissible databaseAsSchema ↔ q.Inadmissible databaseAsSchema := by
  have hgiven : ∀ a : Option String, (some (a.getD "%") ≠ none ∧ some (a.getD "%") ≠ some "" ∧
      some (a.getD "%") ≠ some "%") ↔ (a ≠ none ∧ a ≠ some "" ∧ a ≠ some "%") := by
    intro a
    cases a <;> simp
  unfold Inadmissible withDefaults
  cases databaseAsSchema <;>
    simp only [Bool.false_eq_true, if_false, if_true, getD_percent_empty_iff, hgiven]

theorem Kept.closed {databaseAsSchema : Bool} (h : q.Kept databaseAsSchema) :
    q.closed.Kept databaseAsSchema := by
  unfold ColumnMetadataQuery.closed
  split
  · exact h.withCursor (.inr rfl)
  · exact h

theorem Kept.execute (h : q.Kept S.databaseAsSchema) :
    (q.execute S).2.Kept S.databaseAsSchema := by
  by_cases hd : q.Declined S
  · obtain ⟨r, record, p, _, hp, hexec⟩ := execute_declined hd
    have hdefaults : q.closed.withDefaults.Kept S.databaseAsSchema :=
      ⟨fun hin => h.closed.requested (inadmissible_withDefaults.mp hin), h.closed.allTableTypes⟩
    rw [hexec]
    rcases hp with rfl | rfl
    · exact h.closed.withCursor (.inl rfl)
    · exact hdefaults.withCursor (.inl rfl)
  · rw [execute_request hd]
    exact ⟨fun hin => absurd (inadmissible_declined hin) (not_declined_sent hd),
      (congrArg TableMetadataQuery.allTableTypes sent_tableMetadataQuery).trans h.allTableTypes⟩

theorem Reached.kept {databaseAsSchema : Bool} (h : q.Reached databaseAsSchema) :
    q.Kept databaseAsSchema := by
  induction h with
  | create => exact ⟨fun _ => rfl, rfl⟩
  | execute S _ hS ih =>
    subst hS
    exact ih.execute
  | fetchNextRow P b _ ih => exact ih.withCursor (.inl (MetadataCursor.fetchNextRow_metaVector b))
  | getColumn P columnIdx buffer _ ih =>
    exact ih.withCursor (.inl (MetadataCursor.getColumn_metaVector columnIdx buffer))
  | rowNumber _ ih => exact ih.withCursor (.inl MetadataCursor.rowNumber_metaVector)
  | close _ ih => exact ih.withCursor (.inr rfl)

theorem columnArgument_sent : (q.sent S).columnArgument S = q.columnArgument S := by
  unfold sent columnArgument
  by_cases hid : S.metadataId
  · rw [if_pos hid]
  · rw [if_neg hid, if_neg hid]
    rfl

theorem columns_sent (h : ¬ q.Declined S) : (q.sent S).columns S = q.columns S := by
  unfold columns
  rw [if_neg h, if_neg (not_declined_sent h), columnArgument_sent, sent]
  by_cases hid : S.metadataId
  · rw [if_pos hid, if_pos hid, if_pos hid]
  · rw [if_neg hid, if_neg hid, if_neg hid]
    rfl

theorem execute_answered (h : ¬ q.Declined S)
    (htypes : q.tableMetadataQuery.allTableTypes = false) :
    ∃ f : Found ColumnMeta, Answered (q.columns S) f ∧ (q.execute S).1 = f.result ∧
      (q.execute S).2.cursor.metaVector = f.found ∧ q.answer S = f.found := by
  have htypes' : (q.sent S).tableMetadataQuery.allTableTypes = false := by
    rw [sent_tableMetadataQuery]
    exact htypes
  have hanswered := request_answered (not_declined_sent h) _ (sent_column h) htypes'
  rw [columns_sent h] at hanswered
  rw [execute_request h]
  exact ⟨_, hanswered, rfl, store_metaVector, answer_request h⟩

/-- Where the loops do not give up, `Execute` finds what they read. -/
theorem execute_listed (htypes : q.tableMetadataQuery.allTableTypes = false)
    (hstop : (q.columns S).stopped = false) (hne : (q.columns S).read ≠ []) :
    q.answer S = (q.columns S).read ∧ Ahead (q.answer S) (q.execute S).2.cursor := by
  have hd : ¬ q.Declined S := by
    intro hd
    rw [columns, if_pos hd] at hne
    exact hne rfl
  obtain ⟨f, hanswered, hr, _, hf⟩ := execute_answered hd htypes
  cases hanswered with
  | returned _ hok hread =>
    have hanswer : q.answer S = (q.columns S).read := hf.trans hread
    rw [← hr] at hok
    rw [← hanswer] at hne
    exact ⟨hanswer, execute_ahead hok hne⟩
  | warned hs _ _ | gaveUp hs _ => exact absurd (hs.symm.trans hstop) nofun

end ColumnMetadataQuery

section Examples

end Examples

end TrinoOdbc
