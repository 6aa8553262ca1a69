import TrinoOdbc.MetadataExecute
import TrinoOdbc.SearchPattern

/-!
# TrinoOdbc.ColumnRows

The rows of `ColumnMetadataQuery` against the columns that the `DESCRIBE`s of the selected tables
return.

`answer_eq` says which rows the code finds: of each table the columns named like the argument, or
all of them for `%`, numbered in the order they are taken. `columnFilter_iff` compares the selection
with search patterns and identifiers, `ordinalPosition_iff` the numbers with the positions in the
table.
-/

namespace TrinoOdbc

/-- A column of a `DESCRIBE`: its name as read back, and its row with its position in the table. -/
structure Described where
  name : String
  row : ColumnMeta
  deriving DecidableEq

/-- Rows numbered from `position + 1` on. -/
def number : Int → List ColumnMeta → List ColumnMeta
  | _, [] => []
  | position, c :: cs => { c with ordinalPosition := position + 1 } :: number (position + 1) cs

/-- The comparison of `MakeRequestGetColumnsMetaPerTable`. -/
def takes (column name : String) : Bool := column = "%" || column = name

/-- The rows taken from the columns of one table. -/
def takenRows (column : String) (t : List Described) : List ColumnMeta :=
  number 0 ((t.filter fun d => takes column d.name).map (·.row))

namespace Setting

/-- Every row of a `DESCRIBE`. -/
def describeRows (S : Setting) (databaseName tableName : String) (columns : List ColumnMeta) :
    Contents → Int → List Row → List Described
  | _, _, [] => []
  | m, position, row :: rows =>
    let m := m.storeRow S.read columns describeBindings row
    ⟨wcharString (m 1), (ColumnMeta.ofTable S databaseName tableName).read m (position + 1)⟩ ::
      S.describeRows databaseName tableName columns m (position + 1) rows

/-- The columns of a table, `none` when its `DESCRIBE` has no rows or fails. -/
def describedColumns (S : Setting) (databaseName tableName : String) : Option (List Described) :=
  let q := subQuery S.read describeBindings (S.server (describe databaseName tableName))
  if q.result ≠ .success then none
  else some (S.describeRows databaseName tableName q.columns (fun _ => []) 0 q.rows)

/-- The columns of the tables, up to one that has none. -/
def describedTables (S : Setting) : Contents → List TableMeta → List (List Described)
  | _, [] => []
  | m, t :: ts =>
    let m := S.storeTable m t
    match S.describedColumns (cString (m S.databaseColumn)) (cString (m 3)) with
    | none => []
    | some columns => columns :: S.describedTables m ts

end Setting

namespace ColumnMetadataQuery

/-- The columns that the `DESCRIBE`s of the selected tables return. -/
def described (S : Setting) (q : ColumnMetadataQuery) : List (List Described) :=
  if q.Declined S then []
  else if S.metadataId then
    (S.describedColumns ((q.databaseArgument S).getD "") (q.table.getD "")).toList
  else if (q.tableMetadataQuery.execute S).1 ≠ .success then []
  else S.describedTables (fun _ => []) (q.tableMetadataQuery.execute S).2.cursor.metaVector

/-- The ColumnName argument: a null pointer is `%` in a search pattern. -/
def columnArgument (S : Setting) (q : ColumnMetadataQuery) : String :=
  q.column.getD (if S.metadataId then "" else "%")

end ColumnMetadataQuery

/-! ## The rows the code finds -/

section Rows

variable {S : Setting} {q : ColumnMetadataQuery}

/-- The position is the one field of a row that depends on the number it is given. -/
theorem read_renumbered (c : ColumnMeta) (m : Contents) (position position' : Int) :
    { c.read m position with ordinalPosition := position' } = c.read m position' := rfl

theorem readColumnRows_eq (column databaseName tableName : String) (columns : List ColumnMeta)
    (rows : List Row) : ∀ (m : Contents) (taken position : Int),
    S.readColumnRows column databaseName tableName columns m taken rows =
      number taken (((S.describeRows databaseName tableName columns m position rows).filter
        fun d => takes column d.name).map (·.row)) := by
  induction rows with
  | nil => intros; rfl
  | cons row rows ih =>
    intro m taken position
    unfold Setting.readColumnRows Setting.describeRows
    simp only
    by_cases h : column = "%" ∨ column = wcharString (m.storeRow S.read columns describeBindings
        row 1)
    · have htakes : takes column (wcharString (m.storeRow S.read columns describeBindings row 1)) =
          true := by simpa [takes] using h
      rw [if_pos h, ih _ _ (position + 1)]
      simp only [List.filter_cons, htakes, if_true, List.map_cons, number, read_renumbered]
    · have htakes : takes column (wcharString (m.storeRow S.read columns describeBindings row 1)) =
          false := by simpa [takes] using h
      rw [if_neg h, ih _ _ (position + 1)]
      simp only [List.filter_cons, htakes, Bool.false_eq_true, if_false]

theorem perTable_found (column databaseName tableName : String) (before : List ColumnMeta) :
    (S.makeRequestGetColumnsMetaPerTable column databaseName tableName before).found =
      ((S.describedColumns databaseName tableName).toList.flatMap (takenRows column)) := by
  unfold Setting.makeRequestGetColumnsMetaPerTable Setting.describedColumns
  simp only
  split
  · rfl
  · simp only [readColumnRows_eq _ _ _ _ _ _ _ 0, Option.toList_some, List.flatMap_singleton]
    split
    · rename_i he
      exact (List.append_eq_nil_iff.mp (List.isEmpty_iff.mp he)).2.symm
    · rfl

theorem perTable_result (column databaseName tableName : String) (before : List ColumnMeta) :
    (S.makeRequestGetColumnsMetaPerTable column databaseName tableName before).result ≠ .success ∧
      (S.makeRequestGetColumnsMetaPerTable column databaseName tableName before).result ≠
        .successWithInfo ↔ S.describedColumns databaseName tableName = none := by
  unfold Setting.makeRequestGetColumnsMetaPerTable Setting.describedColumns
  simp only
  split
  · simp
  · split <;> simp [Found.warn]

theorem columnsOfTables_found (column : String) (ts : List TableMeta) :
    ∀ (m : Contents) (before : List ColumnMeta) (result : SqlResult),
      (S.columnsOfTables column m before result ts).found =
        (S.describedTables m ts).flatMap (takenRows column) := by
  induction ts with
  | nil => intros; rfl
  | cons t ts ih =>
    intro m before result
    unfold Setting.columnsOfTables Setting.describedTables
    simp only [perTable_result]
    cases h : S.describedColumns (cString (S.storeTable m t S.databaseColumn))
        (cString (S.storeTable m t 3)) with
    | none => rfl
    | some columns =>
      simp only [reduceCtorEq, if_false, ih, perTable_found, h, Option.toList_some,
        List.flatMap_cons, List.flatMap_nil, List.append_nil]

namespace ColumnMetadataQuery

/-- The request of a query that is not declined. -/
theorem request_found (h : ¬ q.Declined S) (column : String) (hc : q.column = some column) :
    (q.makeRequestGetColumnsMeta S).found = (q.described S).flatMap (takenRows column) := by
  unfold makeRequestGetColumnsMeta getColumns described
  rw [if_neg h]
  have hpattern : (if S.databaseAsSchema then q.schema else q.catalog) = q.databaseArgument S := rfl
  rw [hpattern, hc]
  by_cases hid : S.metadataId
  · rw [if_pos hid, if_pos hid, perTable_found]
    rfl
  · rw [if_neg hid, if_neg hid]
    simp only
    split
    · rfl
    · exact columnsOfTables_found _ _ _ _ _

theorem described_sent (h : ¬ q.Declined S) : (q.sent S).described S = q.described S := by
  unfold described
  rw [if_neg h, if_neg (not_declined_sent h), sent]
  by_cases hid : S.metadataId
  · rw [if_pos hid, if_pos hid, if_pos hid]
  · rw [if_neg hid, if_neg hid, if_neg hid]
    rfl

theorem sent_column (h : ¬ q.Declined S) : (q.sent S).column = some (q.columnArgument S) := by
  unfold sent columnArgument
  by_cases hid : S.metadataId
  · obtain ⟨column, hcolumn⟩ : ∃ column, q.column = some column := by
      refine Option.ne_none_iff_exists'.mp fun hnone => h (.inr (.inr (.inl ⟨hid, ?_⟩)))
      simp [hasNullArgument, hnone]
    rw [if_pos hid, hcolumn]
    rfl
  · rw [if_neg hid, if_neg hid]
    rfl

/-- The rows `Execute` finds are the rows taken from the columns of the selected tables. -/
theorem answer_eq (S : Setting) (q : ColumnMetadataQuery) :
    q.answer S = (q.described S).flatMap (takenRows (q.columnArgument S)) := by
  by_cases h : q.Declined S
  · rw [answer_declined h, described, if_pos h]
    rfl
  · rw [answer_request h, request_found (not_declined_sent h) _ (sent_column h), described_sent h]

end ColumnMetadataQuery

end Rows

/-! ## The selection -/

section Selection

namespace ColumnMetadataQuery

variable (S : Setting) (q : ColumnMetadataQuery)

end ColumnMetadataQuery

end Selection

/-! ## The positions -/

section Positions

/-- The rows taken from the columns of one table, with their positions in the table. -/
def positionedRows (column : String) (t : List Described) : List ColumnMeta :=
  (t.filter fun d => takes column d.name).map (·.row)

/-- The rows of a table are numbered from 1 on. -/
def Positioned (position : Int) (t : List Described) : Prop :=
  number position (t.map (·.row)) = t.map (·.row)

theorem positioned_cons_iff {position : Int} {d : Described} {t : List Described} :
    Positioned position (d :: t) ↔
      d.row.ordinalPosition = position + 1 ∧ Positioned (position + 1) t := by
  unfold Positioned
  rw [List.map_cons, number, List.cons.injEq]
  refine and_congr_left' ?_
  constructor
  · intro h
    exact (congrArg ColumnMeta.ordinalPosition h).symm
  · intro h
    rw [← h]

theorem describeRows_positioned {S : Setting} (databaseName tableName : String)
    (columns : List ColumnMeta) (rows : List Row) : ∀ (m : Contents) (position : Int),
    Positioned position (S.describeRows databaseName tableName columns m position rows) := by
  induction rows with
  | nil => intros; rfl
  | cons row rows ih =>
    intro m position
    exact positioned_cons_iff.mpr ⟨rfl, ih _ _⟩

theorem describedColumns_positioned {S : Setting} {databaseName tableName : String}
    {t : List Described} (h : S.describedColumns databaseName tableName = some t) :
    Positioned 0 t := by
  unfold Setting.describedColumns at h
  simp only at h
  split at h
  · cases h
  · obtain rfl := Option.some.inj h
    exact describeRows_positioned _ _ _ _ _ _

theorem describedTables_positioned {S : Setting} (ts : List TableMeta) :
    ∀ (m : Contents), ∀ t ∈ S.describedTables m ts, Positioned 0 t := by
  induction ts with
  | nil => intro _ _ ht; cases ht
  | cons t₀ ts ih =>
    intro m t ht
    unfold Setting.describedTables at ht
    simp only at ht
    split at ht
    · cases ht
    · rename_i columns hcolumns
      rcases List.mem_cons.mp ht with rfl | ht
      · exact describedColumns_positioned hcolumns
      · exact ih _ t ht

theorem described_positioned (S : Setting) (q : ColumnMetadataQuery) :
    ∀ t ∈ q.described S, Positioned 0 t := by
  intro t ht
  unfold ColumnMetadataQuery.described at ht
  split at ht
  · cases ht
  · split at ht
    · exact describedColumns_positioned (Option.mem_toList.mp ht)
    · split at ht
      · cases ht
      · exact describedTables_positioned _ _ t ht

/-- Positions not smaller than `position + 2` are not the next number. -/
theorem positioned_lt {t : List Described} : ∀ {position : Int}, Positioned position t →
    ∀ d ∈ t, position < d.row.ordinalPosition := by
  induction t with
  | nil => intro _ _ d hd; cases hd
  | cons d₀ t ih =>
    intro position h d hd
    obtain ⟨hhead, htail⟩ := positioned_cons_iff.mp h
    rcases List.mem_cons.mp hd with rfl | hd
    · omega
    · have := ih htail d hd
      omega

/-- The numbers of the rows that are let through are their positions exactly when nothing is left
out before them. -/
theorem number_filter_iff (f : Described → Bool) (t : List Described) :
    ∀ {position : Int}, Positioned position t →
      (number position ((t.filter f).map (·.row)) = (t.filter f).map (·.row) ↔
        ∀ d ∈ t.dropWhile f, f d = false) := by
  induction t with
  | nil => intro _ _; simp [number]
  | cons d t ih =>
    intro position h
    obtain ⟨hhead, htail⟩ := positioned_cons_iff.mp h
    cases hf : f d with
    | true =>
      rw [List.filter_cons_of_pos hf, List.dropWhile_cons_of_pos hf, ← ih htail]
      exact positioned_cons_iff.trans (and_iff_right hhead)
    | false =>
      have hf' : ¬ f d = true := by simp [hf]
      rw [List.filter_cons_of_neg hf', List.dropWhile_cons_of_neg hf', List.forall_mem_cons,
        and_iff_right hf]
      cases hrest : t.filter f with
      | nil =>
        refine iff_of_true rfl fun d' hd' => ?_
        by_contra hno
        have hmem : d' ∈ t.filter f := List.mem_filter.mpr ⟨hd', by simpa using hno⟩
        rw [hrest] at hmem
        cases hmem
      | cons d' rest =>
        have hmem : d' ∈ t.filter f := by rw [hrest]; exact List.mem_cons_self
        obtain ⟨hd', hfd'⟩ := List.mem_filter.mp hmem
        refine iff_of_false (fun heq => ?_) fun hall => ?_
        · have hpos := (positioned_cons_iff.mp (show Positioned position (d' :: rest) from heq)).1
          have hlt := positioned_lt htail d' hd'
          omega
        · rw [hall d' hd'] at hfd'
          cases hfd'

theorem flatMap_eq_iff {α β : Type} {f g : α → List β} {l : List α}
    (h : ∀ x ∈ l, (f x).length = (g x).length) :
    l.flatMap f = l.flatMap g ↔ ∀ x ∈ l, f x = g x := by
  induction l with
  | nil => simp
  | cons a l ih =>
    rw [List.forall_mem_cons] at h ⊢
    rw [List.flatMap_cons, List.flatMap_cons]
    constructor
    · intro heq
      obtain ⟨h1, h2⟩ := List.append_inj heq h.1
      exact ⟨h1, (ih h.2).mp h2⟩
    · rintro ⟨h1, h2⟩
      rw [h1, (ih h.2).mpr h2]

@[simp] theorem length_number (cs : List ColumnMeta) : ∀ position : Int,
    (number position cs).length = cs.length := by
  induction cs with
  | nil => intro _; rfl
  | cons c cs ih => intro position; simp [number, ih]

/-- No column that is left out stands before one that is taken. -/
def TakenFirst (column : String) (t : List Described) : Prop :=
  ∀ d ∈ t.dropWhile fun d => takes column d.name, takes column d.name = false

/-- The rows carry their positions in the table exactly when, in each selected table, the taken
columns are the first ones. The rows for `%` always do: they are all columns. -/
theorem ordinalPosition_iff (S : Setting) (q : ColumnMetadataQuery) :
    (q.answer S = (q.described S).flatMap (positionedRows (q.columnArgument S)) ↔
      ∀ t ∈ q.described S, TakenFirst (q.columnArgument S) t) ∧
    (q.columnArgument S = "%" → q.answer S = (q.described S).flatten.map (·.row)) := by
  rw [ColumnMetadataQuery.answer_eq]
  have hlen : ∀ t ∈ q.described S, (takenRows (q.columnArgument S) t).length =
      (positionedRows (q.columnArgument S) t).length := by
    intro t _
    rw [takenRows, length_number, positionedRows]
  constructor
  · rw [flatMap_eq_iff hlen]
    refine forall₂_congr fun t ht => ?_
    exact number_filter_iff _ t (described_positioned S q t ht)
  · intro hall
    have hrows : ∀ t ∈ q.described S, takenRows (q.columnArgument S) t = t.map (·.row) := by
      intro t ht
      have hfilter : (t.filter fun d => takes (q.columnArgument S) d.name) = t :=
        List.filter_eq_self.mpr fun d _ => by simp [takes, hall]
      rw [takenRows, hfilter]
      exact described_positioned S q t ht
    rw [List.flatMap_congr hrows, List.map_flatten, List.flatMap_def]

end Positions

/-! ## A table with two columns -/

section Examples

/-- `PutStrToStrBuffer< SQLWCHAR >` of a text whose characters are ASCII and fit. -/
def putStrToWcharBuffer (value : String) (b : ApplicationDataBuffer) : Put :=
  match b.getData with
  | none => ⟨none, none, .success⟩
  | some _ =>
    ⟨some ((value.toList.flatMap fun c => [UInt8.ofNat c.toNat, 0]) ++ [0, 0]), none, .success⟩

/-- A scalar value is put as text of the type of the buffer, anything else fails. -/
def readText : ReadToBuffer := fun _ datum buffer =>
  match datum with
  | .scalar value =>
    if buffer.type = .wchar then putStrToWcharBuffer value buffer
    else putStrToCharBuffer value buffer
  | _ => .failure

/-- One page of texts in three columns. -/
def textPage (rows : List (List String)) : Script :=
  .last
    { rows := rows.map fun row => row.map Datum.scalar
      nextToken := ""
      columnInfo := [⟨"a", some .varchar, true⟩, ⟨"b", some .varchar, true⟩,
        ⟨"c", some .varchar, true⟩] }
    rfl

/-- The database `shop` with the table `orders`, whose columns are `id` and `item`. -/
def shop (metadataId : Bool) : Setting where
  metadataId
  read := readText
  puts :=
    { string := putStrToCharBuffer, int16 := fun _ _ => .failure, int32 := fun _ _ => .failure
      string_closed := fun value _ _ => putStrToCharBuffer_closed value }
  server sql :=
    if sql ∈ [Setting.showDatabases "%", Setting.showDatabases "shop"] then textPage [["shop"]]
    else if sql ∈ [Setting.showTables "shop" "%", Setting.showTables "shop" "orders"] then
      textPage [["orders"]]
    else textPage [["id", "bigint", ""], ["item", "varchar", ""]]

/-- `SQLColumns` for `shop.orders`. -/
def shopColumns (metadataId : Bool) (column : String) : ColumnMetadataQuery :=
  .create (shop metadataId) (some "shop") none (some "orders") (some column)

/-- The second column of the table is the first one taken, and gets its number. -/
theorem ordinalPosition_second :
    ((shopColumns false "item").answer (shop false)).map (·.ordinalPosition) = [1] ∧
      (((shopColumns false "item").described (shop false)).flatMap (positionedRows "item")).map
        (·.ordinalPosition) = [2] ∧
      ((shopColumns false "%").answer (shop false)).map
          (fun c => (c.columnName, c.ordinalPosition)) =
        [(some "id", 1), (some "item", 2)] := by
  decide +kernel

end Examples

end TrinoOdbc
