import TrinoOdbc.ColumnMetadata

/-!
# TrinoOdbc.MetadataExecute

What `Execute` of `TableMetadataQuery` and `ColumnMetadataQuery` leaves behind: a cursor before the
first row of its answer (`Ahead`), or a query that is not executed. The latter ends at a check of
its arguments (`execute_declined`) or stores what its request finds (`execute_request`).
-/

namespace TrinoOdbc

/-- The cursor of an executed query before its first row. -/
structure Ahead {α : Type} (rows : List α) (c : MetadataCursor α) : Prop where
  executed : c.executed = true
  metaVector : c.metaVector = rows
  fetched : c.fetched = false
  cursor : c.cursor = 0

theorem ahead_opened {α : Type} (c : MetadataCursor α) (rows : List α) :
    Ahead rows (c.opened rows) := ⟨rfl, rfl, rfl, rfl⟩

namespace TableMetadataQuery

/-- The rows `Execute` finds. -/
def answer (S : Setting) (q : TableMetadataQuery) : List TableMeta :=
  (q.makeRequestGetTablesMeta S).found

theorem execute_result (S : Setting) (q : TableMetadataQuery) :
    (q.execute S).1 = (q.makeRequestGetTablesMeta S).result := by
  unfold execute
  by_cases hex : q.cursor.executed
  · simp only [if_pos hex, apply_ite Prod.fst, ite_self]
    rfl
  · simp only [if_neg hex, apply_ite Prod.fst, ite_self]

theorem execute_ahead {S : Setting} {q : TableMetadataQuery}
    (h : (q.execute S).1 = .success ∨ (q.execute S).1 = .successWithInfo) :
    Ahead (q.answer S) (q.execute S).2.cursor := by
  rw [execute_result] at h
  unfold execute
  by_cases hex : q.cursor.executed
  · have hreq : q.close.makeRequestGetTablesMeta S = q.makeRequestGetTablesMeta S := rfl
    simp only [if_pos hex, hreq, if_pos h]
    exact ahead_opened _ _
  · simp only [if_neg hex, if_pos h]
    exact ahead_opened _ _

end TableMetadataQuery

namespace ColumnMetadataQuery

theorem perTable_info {S : Setting} {column databaseName tableName : String}
    {before : List ColumnMeta}
    (h : (S.makeRequestGetColumnsMetaPerTable column databaseName tableName before).result =
      .successWithInfo) :
    before ++ (S.makeRequestGetColumnsMetaPerTable column databaseName tableName before).found =
      [] := by
  unfold Setting.makeRequestGetColumnsMetaPerTable at h ⊢
  simp only at h ⊢
  split at h
  · cases h
  · rename_i hq
    split at h
    · rename_i he
      rw [if_neg hq, if_pos he]
      rw [(List.append_eq_nil_iff.mp (List.isEmpty_iff.mp he)).1]
      rfl
    · cases h

/-- With a warning for its result, the loop over the tables has found nothing. -/
theorem columnsOfTables_info {S : Setting} {column : String} (ts : List TableMeta) :
    ∀ {m : Contents} {before : List ColumnMeta} {result : SqlResult},
      (result = .successWithInfo → before = []) →
      (S.columnsOfTables column m before result ts).result = .successWithInfo →
      before ++ (S.columnsOfTables column m before result ts).found = [] := by
  induction ts with
  | nil =>
    intro m before result hb h
    simpa [Setting.columnsOfTables] using hb h
  | cons t ts ih =>
    intro m before result _ h
    unfold Setting.columnsOfTables at h ⊢
    simp only at h ⊢
    split at h
    · rename_i hne
      exact absurd h hne.2
    · rename_i hok
      rw [if_neg hok]
      have := ih perTable_info h
      rwa [List.append_assoc] at this

theorem getColumns_info {S : Setting} {q : ColumnMetadataQuery} {pattern : Option String}
    (h : (q.getColumns S pattern).result = .successWithInfo) :
    (q.getColumns S pattern).found = [] := by
  unfold getColumns at h ⊢
  split at h
  · rename_i hid
    rw [if_pos hid]
    exact perTable_info h
  · rename_i hid
    rw [if_neg hid]
    simp only at h ⊢
    split at h
    · rename_i hne
      rw [if_pos hne]
    · rename_i heq
      rw [if_neg heq]
      exact columnsOfTables_info _ (fun _ => rfl) h

/-! ## The arguments of `SQLColumns` -/

/-- The argument that names the database. -/
def databaseArgument (S : Setting) (q : ColumnMetadataQuery) : Option String :=
  if S.databaseAsSchema then q.schema else q.catalog

/-- `Execute` ends at a check of its arguments. -/
def Declined (S : Setting) (q : ColumnMetadataQuery) : Prop :=
  (S.databaseAsSchema ∧ q.catalog ≠ none ∧ q.catalog ≠ some "" ∧ q.catalog ≠ some "%") ∨
  (¬ S.databaseAsSchema ∧ q.schema ≠ none ∧ q.schema ≠ some "" ∧ q.schema ≠ some "%") ∨
  (S.metadataId ∧ q.hasNullArgument S) ∨
  q.databaseArgument S = some "" ∨ q.table = some ""

instance (S : Setting) (q : ColumnMetadataQuery) : Decidable (q.Declined S) :=
  inferInstanceAs (Decidable (_ ∨ _))

/-- The arguments for which `Execute` returns a warning without a request. -/
def Inadmissible (databaseAsSchema : Bool) (q : ColumnMetadataQuery) : Prop :=
  (if databaseAsSchema then q.catalog ≠ none ∧ q.catalog ≠ some "" ∧ q.catalog ≠ some "%"
    else q.schema ≠ none ∧ q.schema ≠ some "" ∧ q.schema ≠ some "%") ∨
  (if databaseAsSchema then q.schema else q.catalog) = some "" ∨ q.table = some ""

section Arguments

variable {S : Setting} {q : ColumnMetadataQuery}

theorem inadmissible_declined : q.Inadmissible S.databaseAsSchema → q.Declined S := by
  unfold Inadmissible Declined databaseArgument
  cases S.databaseAsSchema <;> simp <;> tauto

theorem getD_percent_empty_iff (a : Option String) :
    some (a.getD "%") = some "" ↔ a = some "" := by
  cases a <;> simp

theorem getD_percent_other {a : Option String} (h1 : some (a.getD "%") ≠ some "")
    (h2 : some (a.getD "%") ≠ some "%") : a ≠ none ∧ a ≠ some "" ∧ a ≠ some "%" := by
  cases a with
  | none => exact absurd rfl h2
  | some s => exact ⟨nofun, h1, h2⟩

theorem emptyArgument_withDefaults :
    (q.withDefaults.databaseArgument S = some "" ∨ q.withDefaults.table = some "") ↔
      (q.databaseArgument S = some "" ∨ q.table = some "") := by
  unfold databaseArgument withDefaults
  cases S.databaseAsSchema <;>
    simp only [Bool.false_eq_true, if_false, if_true, getD_percent_empty_iff]

/-- The null pointers that become `%` do not make a query a declined one. -/
theorem not_declined_withDefaults (hid : ¬ S.metadataId) (h : ¬ q.Declined S) :
    ¬ q.withDefaults.Declined S := by
  rintro (⟨hdb, _, h1, h2⟩ | ⟨hdb, _, h1, h2⟩ | ⟨hid', _⟩ | hempty)
  · exact h (.inl ⟨hdb, getD_percent_other h1 h2⟩)
  · exact h (.inr (.inl ⟨hdb, getD_percent_other h1 h2⟩))
  · exact hid hid'
  · exact h (.inr (.inr (.inr (emptyArgument_withDefaults.mp hempty))))

theorem executeRequest_empty (h : q.databaseArgument S = some "" ∨ q.table = some "") :
    ∃ record, q.executeRequest S = (.successWithInfo, q.addStatusRecord record) := by
  unfold executeRequest
  unfold databaseArgument at h
  cases hdb : S.databaseAsSchema with
  | true =>
    simp only [hdb, if_true] at h
    exact ⟨_, if_pos ⟨rfl, h⟩⟩
  | false =>
    simp only [hdb, Bool.false_eq_true, if_false] at h
    exact ⟨_, (if_neg nofun).trans (if_pos ⟨nofun, h⟩)⟩

end Arguments

/-! ## `Execute` -/

/-- Where an `Execute` that sends its request leaves the cursor. -/
def store (c : MetadataCursor ColumnMeta) (f : Found ColumnMeta) : MetadataCursor ColumnMeta :=
  let c := { c with diag := c.diag ++ f.records }
  if f.result = .success then c.opened f.found else c.unopened f.found

section Store

variable {c : MetadataCursor ColumnMeta} {f : Found ColumnMeta}

theorem store_metaVector : (store c f).metaVector = f.found := by
  unfold store
  simp only
  split <;> rfl

theorem store_success (h : f.result = .success) : Ahead f.found (store c f) := by
  rw [store, if_pos h]
  exact ahead_opened _ _

theorem store_failed (hc : c.executed = false) (h : f.result ≠ .success) :
    (store c f).executed = false := by
  rw [store, if_neg h]
  exact hc

end Store

section Execute

variable {S : Setting} {q : ColumnMetadataQuery}

theorem executeRequest_request (h : ¬ (q.databaseArgument S = some "" ∨ q.table = some "")) :
    q.executeRequest S = ((q.makeRequestGetColumnsMeta S).result,
      q.withCursor (store q.cursor (q.makeRequestGetColumnsMeta S))) := by
  unfold executeRequest store
  unfold databaseArgument at h
  have h1 : ¬ (S.databaseAsSchema ∧ (q.schema = some "" ∨ q.table = some "")) := by
    rintro ⟨hdb, he⟩
    rw [if_pos hdb] at h
    exact h he
  have h2 : ¬ (¬ S.databaseAsSchema ∧ (q.catalog = some "" ∨ q.table = some "")) := by
    rintro ⟨hdb, he⟩
    rw [if_neg hdb] at h
    exact h he
  rw [if_neg h1, if_neg h2]
  simp only
  split <;> rfl

/-- The query when `Execute` has closed it. -/
def closed (q : ColumnMetadataQuery) : ColumnMetadataQuery :=
  if q.cursor.executed then q.close else q

theorem closed_withCursor (q : ColumnMetadataQuery) :
    ∃ c, c.executed = false ∧ q.closed = q.withCursor c := by
  unfold closed
  cases hex : q.cursor.executed with
  | false => exact ⟨q.cursor, hex, rfl⟩
  | true => exact ⟨q.cursor.close, rfl, rfl⟩

/-- `Execute`, with the query closed. -/
theorem execute_eq (S : Setting) (q : ColumnMetadataQuery) :
    q.execute S =
      if S.databaseAsSchema ∧ q.catalog ≠ none ∧ q.catalog ≠ some "" ∧ q.catalog ≠ some "%" then
        (.successWithInfo, q.closed.addStatusRecord (warning
          ("Empty result set is returned as catalog is set to \"" ++ q.catalog.getD "" ++
            "\" and Trino does not have catalogs")))
      else if ¬ S.databaseAsSchema ∧ q.schema ≠ none ∧ q.schema ≠ some "" ∧ q.schema ≠ some "%" then
        (.successWithInfo, q.closed.addStatusRecord (warning
          ("Empty result set is returned as schema is set to \"" ++ q.schema.getD "" ++
            "\" and Trino does not have schemas")))
      else if S.metadataId then
        if q.hasNullArgument S then (.error, q.closed.addStatusRecord (nullArgument S))
        else q.closed.executeRequest S
      else q.closed.withDefaults.executeRequest S := by
  unfold execute closed hasNullArgument
  split <;> rfl

/-- A query that is declined sends no request. -/
theorem execute_declined (h : q.Declined S) : ∃ r record p,
    (r = .error ∨ r = .successWithInfo ∧ q.Inadmissible S.databaseAsSchema) ∧
      (p = q.closed ∨ p = q.closed.withDefaults) ∧ q.execute S = (r, p.addStatusRecord record) := by
  obtain ⟨c, _, hc⟩ := q.closed_withCursor
  rw [execute_eq, hc]
  by_cases h1 : S.databaseAsSchema ∧ q.catalog ≠ none ∧ q.catalog ≠ some "" ∧ q.catalog ≠ some "%"
  · rw [if_pos h1]
    exact ⟨_, _, _, .inr ⟨rfl, .inl ((if_pos h1.1).mpr h1.2)⟩, .inl rfl, rfl⟩
  by_cases h2 : ¬ S.databaseAsSchema ∧ q.schema ≠ none ∧ q.schema ≠ some "" ∧ q.schema ≠ some "%"
  · rw [if_neg h1, if_pos h2]
    exact ⟨_, _, _, .inr ⟨rfl, .inl ((if_neg h2.1).mpr h2.2)⟩, .inl rfl, rfl⟩
  rw [if_neg h1, if_neg h2]
  by_cases hnull : S.metadataId ∧ q.hasNullArgument S
  · rw [if_pos hnull.1, if_pos hnull.2]
    exact ⟨_, _, _, .inl rfl, .inl rfl, rfl⟩
  have hempty : q.databaseArgument S = some "" ∨ q.table = some "" :=
    ((h.resolve_left h1).resolve_left h2).resolve_left hnull
  by_cases hid : S.metadataId
  · rw [if_pos hid, if_neg fun hn => hnull ⟨hid, hn⟩]
    obtain ⟨record, hexec⟩ := executeRequest_empty (q := q.withCursor c) hempty
    exact ⟨_, record, _, .inr ⟨rfl, .inr hempty⟩, .inl rfl, hexec⟩
  · rw [if_neg hid]
    obtain ⟨record, hexec⟩ := executeRequest_empty (q := (q.withCursor c).withDefaults)
      (emptyArgument_withDefaults.mpr hempty)
    exact ⟨_, record, _, .inr ⟨rfl, .inr hempty⟩, .inr rfl, hexec⟩

/-- The query whose request `Execute` sends. -/
def sent (S : Setting) (q : ColumnMetadataQuery) : ColumnMetadataQuery :=
  if S.metadataId then q else q.withDefaults

theorem not_declined_sent (h : ¬ q.Declined S) : ¬ (q.sent S).Declined S := by
  unfold sent
  split
  · exact h
  · rename_i hid
    exact not_declined_withDefaults hid h

/-- A query that is not declined stores what its request finds. -/
theorem execute_request (h : ¬ q.Declined S) :
    q.execute S = (((q.sent S).makeRequestGetColumnsMeta S).result, (q.sent S).withCursor
      (store q.closed.cursor ((q.sent S).makeRequestGetColumnsMeta S))) := by
  have h1 := fun h1 => h (.inl h1)
  have h2 := fun h2 => h (.inr (.inl h2))
  have hempty : ¬ (q.databaseArgument S = some "" ∨ q.table = some "") :=
    fun he => h (.inr (.inr (.inr he)))
  obtain ⟨c, _, hc⟩ := q.closed_withCursor
  rw [execute_eq, if_neg h1, if_neg h2, hc, sent]
  by_cases hid : S.metadataId
  · rw [if_pos hid, if_pos hid, if_neg fun hn => h (.inr (.inr (.inl ⟨hid, hn⟩)))]
    exact executeRequest_request (q := q.withCursor c) hempty
  · rw [if_neg hid, if_neg hid]
    exact executeRequest_request (q := (q.withCursor c).withDefaults)
      fun he => hempty (emptyArgument_withDefaults.mp he)

/-- `Execute`, with the cursor it starts from and the one it leaves. -/
def executeFrom (S : Setting) (q : ColumnMetadataQuery) (c : MetadataCursor ColumnMeta) :
    SqlResult × MetadataCursor ColumnMeta :=
  (((q.withCursor c).execute S).1, ((q.withCursor c).execute S).2.cursor)

/-- The rows `Execute` finds: what it leaves in an empty vector. -/
def answer (S : Setting) (q : ColumnMetadataQuery) : List ColumnMeta :=
  (q.executeFrom S q.cursor.close).2.metaVector

theorem answer_declined (h : q.Declined S) : q.answer S = [] := by
  obtain ⟨r, record, p, _, hp, hexec⟩ := execute_declined (q := q.withCursor q.cursor.close) h
  unfold answer executeFrom
  rw [hexec]
  rcases hp with rfl | rfl <;> rfl

theorem answer_request (h : ¬ q.Declined S) :
    q.answer S = ((q.sent S).makeRequestGetColumnsMeta S).found := by
  have hsent : ((q.withCursor q.cursor.close).sent S).makeRequestGetColumnsMeta S =
      (q.sent S).makeRequestGetColumnsMeta S := by
    unfold sent
    split <;> rfl
  unfold answer executeFrom
  rw [execute_request (q := q.withCursor q.cursor.close) h, hsent]
  exact store_metaVector

/-- How `Execute` ends, where it leaves the cursor, and what it finds. -/
theorem execute_spec (S : Setting) (q : ColumnMetadataQuery) :
    ((q.execute S).1 ≠ .success ∧ (q.execute S).2.cursor.executed = false ∧ q.answer S = []) ∨
    ∃ (c : MetadataCursor ColumnMeta) (f : Found ColumnMeta), c.executed = false ∧
      (f.result = .successWithInfo → f.found = []) ∧ (q.execute S).1 = f.result ∧
      (q.execute S).2.cursor = store c f ∧ q.answer S = f.found := by
  obtain ⟨c, hex, hc⟩ := q.closed_withCursor
  by_cases h : q.Declined S
  · obtain ⟨r, record, p, hr, hp, hexec⟩ := execute_declined h
    refine .inl ⟨?_, ?_, answer_declined h⟩
    · rw [hexec]
      rcases hr with rfl | ⟨rfl, _⟩ <;> nofun
    · rw [hc] at hp
      rw [hexec]
      rcases hp with rfl | rfl <;> exact hex
  · have hexec := execute_request h
    rw [hc] at hexec
    exact .inr ⟨c, _, hex, getColumns_info, congrArg Prod.fst hexec,
      congrArg (·.2.cursor) hexec, answer_request h⟩

theorem execute_ahead {S : Setting} {q : ColumnMetadataQuery}
    (h : (q.execute S).1 = .success ∨ (q.execute S).1 = .successWithInfo)
    (hne : q.answer S ≠ []) : Ahead (q.answer S) (q.execute S).2.cursor := by
  rcases q.execute_spec S with ⟨_, _, hnil⟩ | ⟨c, f, _, hinfo, hres, hcur, hanswer⟩
  · exact absurd hnil hne
  · rw [hres] at h
    rw [hanswer] at hne ⊢
    rw [hcur]
    exact store_success (h.resolve_right fun hi => hne (hinfo hi))

end Execute

end ColumnMetadataQuery

end TrinoOdbc
