import TrinoOdbc.Request
import TrinoOdbc.RowNumber
import TrinoOdbc.Rowset

/-!
# TrinoOdbc.Closing

`InternalClose` behind a request and the fetches that follow it. Each class has its own idea of a
cursor that can be closed (`Query.Open`): a `DataQuery` keeps it until a request for a page fails,
and the other classes lose it with the first fetch that finds no row.

`closes_iff` says when the close succeeds.
-/

namespace TrinoOdbc

open DataQuery

/-! ## The metadata queries -/

namespace MetadataCursor

variable {α : Type} {c : MetadataCursor α} {cells : Cells α} {b : ColumnBindingMap}

/-- An executed query with a row under its iterator. -/
def Open (c : MetadataCursor α) : Prop := c.executed = true ∧ c.cursor < c.metaVector.length

theorem open_iff : c.Open ↔ c.executed = true ∧ c.cursor ≠ c.metaVector.length := by
  have hle := c.inBounds
  have hlt : c.cursor < c.metaVector.length ↔ c.cursor ≠ c.metaVector.length := by omega
  rw [Open, hlt]

theorem dataAvailable_iff : c.dataAvailable = true ↔ c.Open := by
  have hle := c.inBounds
  rw [open_iff]
  unfold dataAvailable
  cases hv : c.metaVector with
  | nil =>
    rw [hv] at hle
    simpa using fun _ => hle
  | cons row rows => simp

theorem current_eq_none_iff : c.current = none ↔ ¬ c.cursor < c.metaVector.length := by
  unfold current
  rw [List.getElem?_eq_none_iff]
  omega

theorem le_cursor_advance : c.cursor ≤ c.advance.cursor := by
  unfold advance
  split
  · exact Nat.le_refl _
  · split
    · exact Nat.le_succ _
    · exact Nat.le_refl _

/-- A row is fetched from a cursor on a row, and none is fetched when it is lost. -/
theorem fetchRow_open_iff (hex : c.executed = true) :
    ((c.fetchRow cells b).2.Open ↔ c.Open ∧ (c.fetchRow cells b).1.1 ≠ .noData) ∧
      (isFetched (c.fetchRow cells b).1.1 = true → c.Open) := by
  have hle := c.le_cursor_advance
  have hex' : c.advance.executed = true := c.advance_executed.trans hex
  have hlen : c.advance.metaVector.length = c.metaVector.length := by rw [c.advance_metaVector]
  unfold fetchRow
  cases hcur : c.advance.current with
  | none =>
    have hend := current_eq_none_iff.mp hcur
    simp only [hcur, ne_eq, not_true_eq_false, and_false, iff_false]
    exact ⟨fun h => hend h.2, nofun⟩
  | some row =>
    have hrow : c.advance.cursor < c.advance.metaVector.length := by
      by_contra hend
      rw [current_eq_none_iff.mpr hend] at hcur
      cases hcur
    have hon : c.Open := ⟨hex, by omega⟩
    simp only [hcur, ne_eq, reduceCtorEq, not_false_eq_true, and_true]
    exact ⟨iff_of_true ⟨hex', hrow⟩ hon, fun _ => hon⟩

theorem fetchNextRow_open_iff :
    ((c.fetchNextRow cells b).2.Open ↔ c.Open ∧ (c.fetchNextRow cells b).1.1 ≠ .noData) ∧
      (isFetched (c.fetchNextRow cells b).1.1 = true → c.Open) := by
  unfold fetchNextRow
  by_cases hex : c.executed = false
  · rw [if_pos hex]
    have hoff : ¬ c.Open := fun h => by simp [h.1] at hex
    exact ⟨iff_of_false (fun h => hoff h) fun h => hoff h.1, nofun⟩
  · rw [if_neg hex]
    exact fetchRow_open_iff (by simpa using hex)

end MetadataCursor

theorem Ahead.open_iff {α : Type} {c : MetadataCursor α} {rows : List α} (h : Ahead rows c) :
    c.Open ↔ rows ≠ [] := by
  unfold MetadataCursor.Open
  rw [h.executed, h.metaVector, h.cursor, ← List.length_pos_iff]
  simp

theorem TableMetadataQuery.fetchNextRow_open_iff (P : Puts) (q : TableMetadataQuery)
    (b : ColumnBindingMap) :
    ((q.fetchNextRow P b).2.cursor.Open ↔
        q.cursor.Open ∧ (q.fetchNextRow P b).1.1 ≠ .noData) ∧
      (isFetched (q.fetchNextRow P b).1.1 = true → q.cursor.Open) := by
  rw [fetchNextRow_eq]
  split
  · rename_i hempty
    have hoff : ¬ q.cursor.Open := fun h => by
      have hlt := h.2
      rw [hempty.2] at hlt
      exact Nat.not_lt_zero _ hlt
    exact ⟨iff_of_false hoff fun h => hoff h.1, nofun⟩
  · exact MetadataCursor.fetchNextRow_open_iff

/-- Nothing can be closed when `Execute` has found no row. -/
theorem ColumnMetadataQuery.execute_empty {S : Setting} {q : ColumnMetadataQuery}
    (h : q.answer S = []) : ¬ (q.execute S).2.cursor.Open := by
  intro hon
  rcases q.execute_spec S with ⟨_, hex, _⟩ | ⟨c, f, _, _, _, hcur, hanswer⟩
  · exact Bool.false_ne_true (hex.symm.trans hon.1)
  · have hlt := hon.2
    rw [hcur, store_metaVector, ← hanswer, h] at hlt
    exact Nat.not_lt_zero _ hlt

/-- What an `Execute` that returns `AI_NO_DATA` or an error leaves. -/
theorem ColumnMetadataQuery.execute_failed {S : Setting} {q : ColumnMetadataQuery}
    (h : (q.execute S).1 ≠ .success) : ¬ (q.execute S).2.cursor.Open := by
  intro hon
  rcases q.execute_spec S with ⟨_, hex, _⟩ | ⟨c, f, hc, _, hres, hcur, _⟩
  · exact Bool.false_ne_true (hex.symm.trans hon.1)
  · have hex := hon.1
    rw [hcur, store_failed hc (hres ▸ h)] at hex
    exact Bool.false_ne_true hex

theorem TableMetadataQuery.execute_failed {S : Setting} {q : TableMetadataQuery}
    (h : ¬ ((q.execute S).1 = .success ∨ (q.execute S).1 = .successWithInfo)) :
    ¬ (q.execute S).2.cursor.Open := by
  rw [execute_result] at h
  unfold execute
  by_cases hex : q.cursor.executed
  · have hreq : q.close.makeRequestGetTablesMeta S = q.makeRequestGetTablesMeta S := rfl
    simp only [if_pos hex, hreq, if_neg h]
    exact fun hon => Bool.false_ne_true hon.1
  · simp only [if_neg hex, if_neg h]
    exact fun hon => hex hon.1

theorem TableMetadataQuery.execute_open_iff {S : Setting} {q : TableMetadataQuery} :
    (q.execute S).2.cursor.Open ↔
      ((q.execute S).1 = .success ∨ (q.execute S).1 = .successWithInfo) ∧ q.answer S ≠ [] := by
  by_cases hok : (q.execute S).1 = .success ∨ (q.execute S).1 = .successWithInfo
  · rw [(execute_ahead hok).open_iff, and_iff_right hok]
  · exact iff_of_false (execute_failed hok) fun h => hok h.1

theorem ColumnMetadataQuery.execute_open_iff {S : Setting} {q : ColumnMetadataQuery} :
    (q.execute S).2.cursor.Open ↔ (q.execute S).1 = .success ∧ q.answer S ≠ [] := by
  by_cases hok : (q.execute S).1 = .success
  · by_cases hne : q.answer S = []
    · exact iff_of_false (execute_empty hne) fun h => h.2 hne
    · rw [(execute_ahead (.inl hok) hne).open_iff, and_iff_right hok]
  · exact iff_of_false (execute_failed hok) fun h => hok h.1

/-! ## DataQuery -/

section Data

variable {E : Env} {q q' : DataQuery} {b : ColumnBindingMap} {v : Ret}

theorem readColumns_error_stored (read : ReadToBuffer) (columns : List ColumnMeta)
    (c : TrinoCursor) (b : ColumnBindingMap) (is : List Nat)
    (h : (readColumns read columns c b is).1 = .error) :
    (readColumns read columns c b is).2.1 ≠ [] := by
  induction is with
  | nil => cases h
  | cons i is ih =>
    unfold readColumns at h ⊢
    cases hb : b.find i with
    | none =>
      rw [hb] at h
      exact ih h
    | some buffer =>
      rw [hb] at h
      simp only at h ⊢
      split
      · exact List.cons_ne_nil _ _
      · exact List.cons_ne_nil _ _

/-- A row that fails has stored a column. -/
theorem RowRead.ne_lost {q : DataQuery} {read : ReadToBuffer} {c : TrinoCursor} {e : Event}
    (h : RowRead read q c b e q') : e ≠ .ret (.result .error []) := by
  rw [h.event]
  intro he
  injection he with he
  injection he with hr hs
  have herr : (boundColumns read q.resultMeta c b).1 = .error := by
    unfold rowResult at hr
    split at hr
    · assumption
    · cases hr
  exact readColumns_error_stored _ _ _ _ _ herr hs

/-- A `FetchNextRow` loses the cursor exactly when the request for the next page has failed, and it
delivers a row only from a cursor. -/
theorem fetch_cursor_iff (h : Call E q (.fetchNextRow b) v q') :
    (q'.cursor ≠ none ↔ q.cursor ≠ none ∧ v ≠ .result .error []) ∧
      (q.cursor = none → v = .result .noData []) := by
  by_cases hnone : q.cursor = none
  · obtain ⟨rfl, hnone'⟩ := fetch_noCursor hnone h
    exact ⟨iff_of_false (fun h => h hnone') fun h => h.1 hnone, fun _ => rfl⟩
  refine ⟨?_, fun h => absurd h hnone⟩
  rw [and_iff_right hnone]
  refine Call.rule (I := fun q => q.cursor ≠ none)
    (Φ := fun m q => (m = .entered (.fetchNextRow b) ∨ m.Switching) ∧ q.cursor ≠ none)
    (J := fun v q => q.cursor ≠ none ↔ v ≠ .result .error []) ?_ ?_ ?_ ?_ ?_ ?_ h hnone
  · exact fun _ _ hI hs => by rw [hs.keeps.cursor]; exact hI
  · exact fun _ hI => ⟨.inl rfl, hI⟩
  · rintro m q m' q' ⟨rfl | ⟨b, rfl⟩ | ⟨b, o, rfl⟩, hc⟩ hs
    · cases hs with
      | fetchRow _ _ hr => cases hr.event
      | fetchWait _ _ _ => exact ⟨.inr (.inl ⟨_, rfl⟩), nofun⟩
    · cases hs with
      | pop _ => exact ⟨.inr (.inr ⟨_, _, rfl⟩), hc⟩
    · obtain ⟨v, hv⟩ := advance_switching_ret hs
      cases hv
  · exact fun _ _ _ hΦ hs => ⟨hΦ.1, by rw [hs.keeps.cursor]; exact hΦ.2⟩
  · rintro m q v q' ⟨rfl | ⟨b, rfl⟩ | ⟨b, o, rfl⟩, hc⟩ hs
    · cases hs with
      | fetchNoCursor hnone => exact absurd hnone hc
      | fetchRow _ _ hr =>
        refine iff_of_true ?_ fun hv => hr.ne_lost (by rw [hv])
        rw [hr.quiet.cursor]
        nofun
      | fetchEnd _ _ _ => exact iff_of_true nofun nofun
    · cases hs
    · cases hs with
      | switchError => exact iff_of_false (fun h => h rfl) fun h => h rfl
      | switchEmpty _ => exact iff_of_true hc nofun
      | switchLast _ _ hr =>
        refine iff_of_true ?_ fun hv => hr.ne_lost (by rw [hv])
        rw [hr.quiet.cursor]
        nofun
      | switchNext _ _ _ hr =>
        refine iff_of_true ?_ fun hv => hr.ne_lost (by rw [hv])
        rw [hr.quiet.cursor]
        nofun
  · exact fun _ _ _ hJ hs => by rw [hs.keeps.cursor]; exact hJ

/-- `Execute` opens a cursor exactly when it returns success. -/
theorem execute_cursor_iff (hq : q.result = none → q.cursor = none)
    (h : Call E q .execute v q') :
    q'.cursor ≠ none ↔ ∃ stored, v = .result .success stored := by
  refine Call.rule (I := fun q => q.result = none → q.cursor = none)
    (Φ := fun m q => m = .entered .execute ∧ (q.result = none → q.cursor = none) ∨
      m = .closing .execute ∨ m = .closing .executeFailed ∨ m = .requesting ∧ q.cursor = none)
    (J := fun v q => q.cursor ≠ none ↔ ∃ stored, v = .result .success stored) ?_ ?_ ?_ ?_ ?_ ?_ h hq
  · intro q q' hI hs hr
    rw [hs.keeps.cursor]
    exact hI (hs.keeps.result.symm.trans hr)
  · exact fun _ hI => .inl ⟨rfl, hI⟩
  · rintro m q m' q' (⟨rfl, hI⟩ | rfl | rfl | ⟨rfl, hc⟩) hs
    · cases hs with
      | executeAgain _ => exact .inr (.inl rfl)
      | execute hr => exact .inr (.inr (.inr ⟨rfl, hI hr⟩))
    · cases hs with
      | join _ => exact .inr (.inl rfl)
      | closedExecute _ => exact .inr (.inr (.inr ⟨rfl, rfl⟩))
    · cases hs with
      | join _ => exact .inr (.inr (.inl rfl))
    · cases hs with
      | requestFailed _ => exact .inr (.inr (.inl rfl))
      | requestSkip _ _ _ => exact .inr (.inr (.inr ⟨rfl, hc⟩))
  · rintro m q q' (⟨rfl, hI⟩ | rfl | rfl | ⟨rfl, hc⟩) hs
    · refine .inl ⟨rfl, fun hr => ?_⟩
      rw [hs.keeps.cursor]
      exact hI (hs.keeps.result.symm.trans hr)
    · exact .inr (.inl rfl)
    · exact .inr (.inr (.inl rfl))
    · exact .inr (.inr (.inr ⟨rfl, hs.keeps.cursor.trans hc⟩))
  · rintro m q v q' (⟨rfl, hI⟩ | rfl | rfl | ⟨rfl, hc⟩) hs
    · cases hs
    · cases hs with
      | closed _ hk => cases hk
    · cases hs with
      | closed _ hk =>
        cases hk
        exact iff_of_false (fun h => h rfl) fun ⟨_, h⟩ => by cases h
    · cases hs with
      | requestEmpty _ _ _ => exact iff_of_false (fun h => h hc) fun ⟨_, h⟩ => by cases h
      | requestLast _ _ _ =>
        refine iff_of_true ?_ ⟨_, rfl⟩
        rw [discoverMeta_cursor]
        nofun
      | requestFirst _ _ _ =>
        refine iff_of_true ?_ ⟨_, rfl⟩
        rw [discoverMeta_cursor]
        nofun
  · exact fun _ _ _ hJ hs => by rw [hs.keeps.cursor]; exact hJ

/-- `Close` leaves no cursor. -/
theorem close_cursor (h : Call E q .close v q') :
    v = .result .success [] ∧ q'.cursor = none := by
  refine Call.rule (I := fun _ => True)
    (Φ := fun m _ => m = .entered .close ∨ m = .closing .close)
    (J := fun v q => v = .result .success [] ∧ q.cursor = none) ?_ ?_ ?_ ?_ ?_ ?_ h trivial
  · exact fun _ _ _ _ => trivial
  · exact fun _ _ => .inl rfl
  · rintro m q m' q' (rfl | rfl) hs
    · cases hs with
      | close => exact .inr rfl
    · cases hs with
      | join _ => exact .inr rfl
  · exact fun _ _ _ hΦ _ => hΦ
  · rintro m q v q' (rfl | rfl) hs
    · cases hs
    · cases hs with
      | closed _ hk =>
        cases hk
        exact ⟨rfl, rfl⟩
  · exact fun _ _ _ hJ hs => ⟨hJ.1, hs.keeps.cursor.trans hJ.2⟩

/-- `Close` returns when the service answers. -/
theorem close_returns (hE : Responsive E) (hd : Disciplined .idle q) : Returns E q .close := by
  refine Returns.rule (Φ := fun n m q => Disciplined m q ∧
    (m = .entered .close ∨ m = .closing .close) ∧ n = executeRank m + joinWork q) ?_ ?_ ?_
    ⟨hd.plain ⟨nofun, nofun, nofun, nofun⟩, .inl rfl, rfl⟩
  · rintro n m q m' q' ⟨hd, rfl | rfl, rfl⟩ hs
    · have hd' := disciplined_advance hd hs
      cases hs with
      | close => exact ⟨_, Nat.add_lt_add_right (Nat.lt_succ_self 2) _, hd', .inr rfl, rfl⟩
    · have hd' := disciplined_advance hd hs
      cases hs with
      | join ht =>
        refine ⟨_, ?_, hd', .inr rfl, rfl⟩
        simp [joinWork, ht, FetchThread.work]
  · rintro n m q q' ⟨hd, hm, rfl⟩ hs
    exact ⟨_, Nat.add_lt_add_left hs.work _, disciplined_threadStep hd hs, hm, rfl⟩
  · rintro n m q ⟨hd, rfl | rfl, _⟩
    · exact exists_step_of_mainStep rfl
    · by_cases hans : FetchThread.started ∈ q.threads
      · obtain ⟨i, hi⟩ := List.mem_iff_getElem?.mp hans
        obtain ⟨o, ho⟩ := hE q.request
        exact ⟨_, _, .answer hi ho⟩
      · exact join_progress hd (.inl ⟨_, rfl⟩) hans

end Data

/-! ## All classes -/

namespace Query

/-- The cursor can be closed. -/
def Open : Query → Prop
  | .data q => q.cursor ≠ none
  | .tableMetadata q => q.cursor.Open
  | .columnMetadata q => q.cursor.Open
  | .typeInfo q => q.cursor.Open
  | .foreignKeys _ => False

/-- The result of an `Execute` that returned `r` has a row. A `DataQuery` returns `AI_NO_DATA` for
an empty result. -/
def HasRow (W : World) : Query → SqlResult → Prop
  | .data _, r => r = .success
  | .tableMetadata q, r => (r = .success ∨ r = .successWithInfo) ∧ q.answer W.setting ≠ []
  | .columnMetadata q, r => r = .success ∧ q.answer W.setting ≠ []
  | .typeInfo q, _ => q.cursor.metaVector ≠ []
  | .foreignKeys _, _ => False

/-- A `FetchNextRow` that loses the cursor: the request for the next page of a `DataQuery` has
failed, another class has no row left. -/
def Loses : Query → SqlResult × List Stored → Prop
  | .data _, x => x = (.error, [])
  | _, x => x.1 = .noData

/-- What holds of the fetch threads. -/
def Disciplined : Query → Prop
  | .data q => TrinoOdbc.Disciplined .idle q
  | _ => True

variable {W : World} {b : ColumnBindingMap} {Q Q' : Query}

theorem dataAvailable_iff (Q : Query) : Q.dataAvailable = true ↔ Q.Open := by
  cases Q with
  | data q => exact Option.isSome_iff_ne_none
  | tableMetadata q => exact MetadataCursor.dataAvailable_iff
  | columnMetadata q => exact MetadataCursor.dataAvailable_iff
  | typeInfo q =>
    show (q.cursor.executed && decide _) = true ↔ _
    rw [Bool.and_eq_true, decide_eq_true_eq]
    exact MetadataCursor.open_iff.symm
  | foreignKeys q => exact iff_of_false Bool.false_ne_true id

/-- One `FetchNextRow`. -/
structure FetchStep (Q : Query) (x : SqlResult × List Stored) (Q' : Query) : Prop where
  open_iff : Q'.Open ↔ Q.Open ∧ ¬ Q.Loses x
  fetched : isFetched x.1 = true → Q.Open
  loses : Q'.Loses = Q.Loses
  disciplined : Q.Disciplined → Q'.Disciplined

theorem fetchStep {x : SqlResult × List Stored} (h : Q.FetchNextRow W b x Q') :
    FetchStep Q x Q' := by
  cases h with
  | @data q q' r stored hcall =>
    obtain ⟨hiff, hnone⟩ := fetch_cursor_iff hcall
    have hlost : Ret.result r stored ≠ .result .error [] ↔ ¬ (r, stored) = (.error, []) := by
      simp
    refine ⟨hiff.trans (and_congr_right fun _ => hlost), fun hr hq => ?_, rfl,
      fun hd => hcall.disciplined hd⟩
    cases hnone hq
    cases hr
  | tableMetadata q =>
    obtain ⟨hiff, hrow⟩ := q.fetchNextRow_open_iff W.setting.puts b
    exact ⟨hiff, hrow, rfl, id⟩
  | columnMetadata q =>
    exact ⟨MetadataCursor.fetchNextRow_open_iff.1, MetadataCursor.fetchNextRow_open_iff.2, rfl,
      id⟩
  | typeInfo q =>
    exact ⟨MetadataCursor.fetchNextRow_open_iff.1, MetadataCursor.fetchNextRow_open_iff.2, rfl,
      id⟩
  | foreignKeys q => exact ⟨iff_of_false id fun h => h.1, nofun, rfl, id⟩

/-- Fetches one after the other. -/
structure FetchRun (Q : Query) (rs : List (SqlResult × List Stored)) (Q' : Query) : Prop where
  open_iff : Q'.Open ↔ Q.Open ∧ ∀ x ∈ rs, ¬ Q.Loses x
  fetched : ¬ Q.Open → ∀ x ∈ rs, isFetched x.1 = false
  loses : Q'.Loses = Q.Loses
  disciplined : Q.Disciplined → Q'.Disciplined

theorem FetchRun.nil (Q : Query) : FetchRun Q [] Q := ⟨by simp, nofun, rfl, id⟩

theorem FetchRun.cons {Q₁ : Query} {x : SqlResult × List Stored}
    {rs : List (SqlResult × List Stored)} (h : FetchStep Q x Q₁) (h' : FetchRun Q₁ rs Q') :
    FetchRun Q (x :: rs) Q' := by
  refine ⟨?_, fun hclosed => ?_, h'.loses.trans h.loses,
    fun hd => h'.disciplined (h.disciplined hd)⟩
  · rw [h'.open_iff, h.open_iff, h.loses, List.forall_mem_cons, and_assoc]
  · have hclosed₁ : ¬ Q₁.Open := fun hopen => hclosed (h.open_iff.mp hopen).1
    have hx : isFetched x.1 = false := by
      by_contra hx
      exact hclosed (h.fetched (by simpa using hx))
    exact List.forall_mem_cons.mpr ⟨hx, h'.fetched hclosed₁⟩

theorem FetchRun.append {Q₁ : Query} {rs rs' : List (SqlResult × List Stored)}
    (h : FetchRun Q rs Q₁) (h' : FetchRun Q₁ rs' Q') : FetchRun Q (rs ++ rs') Q' := by
  refine ⟨?_, fun hclosed => ?_, h'.loses.trans h.loses,
    fun hd => h'.disciplined (h.disciplined hd)⟩
  · rw [h'.open_iff, h.open_iff, h.loses, List.forall_mem_append, and_assoc]
  · have hclosed₁ : ¬ Q₁.Open := fun hopen => hclosed (h.open_iff.mp hopen).1
    exact List.forall_mem_append.mpr ⟨h.fetched hclosed, h'.fetched hclosed₁⟩

theorem fetchRun {i n : Nat} {rs : List (SqlResult × List Stored)}
    (h : FetchRows W b i n Q rs Q') : FetchRun Q rs Q' := by
  induction h with
  | done => exact .nil _
  | row hx _ ih => exact .cons (fetchStep hx) ih

theorem execute_open_iff {r : SqlResult} (h : Q.Execute W r Q') (hd : Q.Disciplined) :
    (Q'.Open ↔ Q.HasRow W r) ∧ Q'.Disciplined := by
  cases h with
  | @data q q' r stored hcall =>
    refine ⟨?_, hcall.disciplined hd⟩
    have hsucc : (∃ stored', Ret.result r stored = .result .success stored') ↔ r = .success := by
      simp
    exact (execute_cursor_iff (fun hr => (hd.noResult hr).2) hcall).trans hsucc
  | tableMetadata q => exact ⟨TableMetadataQuery.execute_open_iff, trivial⟩
  | columnMetadata q => exact ⟨ColumnMetadataQuery.execute_open_iff, trivial⟩
  | typeInfo q => exact ⟨(ahead_opened _ _).open_iff, trivial⟩
  | foreignKeys q => exact ⟨Iff.rfl, trivial⟩

/-- `Close` leaves nothing that can be closed. -/
theorem close_spec {r : SqlResult} (h : Q.Close W r Q') : r = .success ∧ ¬ Q'.Open := by
  cases h with
  | data hcall =>
    obtain ⟨hr, hcursor⟩ := close_cursor hcall
    cases hr
    exact ⟨rfl, fun hopen => hopen hcursor⟩
  | tableMetadata q | columnMetadata q | typeInfo q =>
    exact ⟨rfl, fun hopen => Bool.false_ne_true hopen.1⟩
  | foreignKeys q => exact ⟨rfl, id⟩

end Query

/-! ## Closing a statement -/

namespace Statement

variable {W : World} {st st₁ st₂ st' : Statement} {rq : Request} {Q : Query} {r r' : SqlResult}
  {rs : List (SqlResult × List Stored)}

theorem Rowsets.fetchRun (h : Rowsets W st rs st') (hq : st.currentQuery = some Q) :
    ∃ Q', st'.currentQuery = some Q' ∧ Q.FetchRun rs Q' := by
  induction h generalizing Q with
  | nil => exact ⟨Q, hq, .nil Q⟩
  | cons hcur hrows _ ih =>
    rw [hcur] at hq
    obtain rfl := Option.some.inj hq
    obtain ⟨Q'', hq'', hrun⟩ := ih rfl
    exact ⟨Q'', hq'', (Query.fetchRun hrows).append hrun⟩

/-- `InternalClose` is a success that returns, whatever the fetch threads do, and the query delivers
no row until it is executed again. -/
structure Closes (W : World) (st : Statement) : Prop where
  returns : Responsive W.env → ∀ q, st.currentQuery = some (.data q) → Returns W.env q .close
  success : ∀ r st', st.InternalClose W r st' → r = .success
  delivers : ∀ r st' rs st'', st.InternalClose W r st' → Rowsets W st' rs st'' →
    ∀ x ∈ rs, isFetched x.1 = false

/-- A statement whose cursor can be closed, and no other one. -/
theorem closes_iff_open (hq : st.currentQuery = some Q) (hd : Q.Disciplined) :
    st.Closes W ↔ Q.Open := by
  constructor
  · intro h
    by_contra hclosed
    have hav : Q.dataAvailable = false := by
      rw [← Bool.not_eq_true, Q.dataAvailable_iff]
      exact hclosed
    cases h.success _ _ (.notOpen hq hav)
  · intro hopen
    have hav : Q.dataAvailable = true := Q.dataAvailable_iff.mpr hopen
    have hclose : ∀ r st', st.InternalClose W r st' →
        r = .success ∧ ∃ Q', st'.currentQuery = some Q' ∧ ¬ Q'.Open := by
      intro r st' h
      cases h with
      | noQuery hnone =>
        rw [hq] at hnone
        cases hnone
      | notOpen hq' hno =>
        rw [hq] at hq'
        obtain rfl := Option.some.inj hq'
        rw [hav] at hno
        cases hno
      | close hq' _ hcall =>
        rw [hq] at hq'
        obtain rfl := Option.some.inj hq'
        exact ⟨(Query.close_spec hcall).1, _, rfl, (Query.close_spec hcall).2⟩
    refine ⟨fun hE q hdata => ?_, fun r st' h => (hclose r st' h).1, ?_⟩
    · rw [hq] at hdata
      obtain rfl := Option.some.inj hdata
      exact close_returns hE hd
    · intro r st' rs st'' h hrows
      obtain ⟨_, Q', hq', hclosed⟩ := hclose r st' h
      obtain ⟨_, _, hrun⟩ := hrows.fetchRun hq'
      exact hrun.fetched hclosed

/-- Behind a request and any fetches, the statement can be closed exactly when the result of the
request has a row and no fetch has lost the cursor. -/
theorem closes_iff (hst : st.Reached) (hreq : st.Executes W rq Q r r' st₁)
    (hfetch : Rowsets W st₁ rs st₂) :
    st₂.Closes W ↔ Q.HasRow W r ∧ ∀ x ∈ rs, ¬ Q.Loses x := by
  obtain ⟨Q₁, hexec, hq₁⟩ := hreq.query
  have hd : Q.Disciplined := by
    cases Q with
    | data q =>
      obtain ⟨E, hreach⟩ := hreq.reached hst q rfl
      exact disciplined_reachable hreach
    | tableMetadata _ | columnMetadata _ | typeInfo _ | foreignKeys _ => trivial
  obtain ⟨hopen, hd₁⟩ := Query.execute_open_iff hexec hd
  obtain ⟨Q₂, hq₂, hrun⟩ := hfetch.fetchRun hq₁
  have hloses : Q₁.Loses = Q.Loses := by
    cases hexec <;> rfl
  rw [closes_iff_open hq₂ (hrun.disciplined hd₁), hrun.open_iff, hopen, hloses]

section Examples

/-- All types, and no fetch yet. -/
theorem closes_typeInfo : ∃ st₁, ({} : Statement).Executes (textWorld threeRows) (.typeInfo 0)
      (.typeInfo (.create 0)) .success .success st₁ ∧ st₁.Closes (textWorld threeRows) := by
  have hreq : ({} : Statement).Executes (textWorld threeRows) (.typeInfo 0) (.typeInfo (.create 0))
      .success .success _ := .catalog rfl (.first rfl) (.typeInfo _)
  refine ⟨_, hreq, (closes_iff (fun q hq => by cases hq) hreq .nil).mpr ⟨?_, nofun⟩⟩
  have hne : TypeInfoQuery.typesOf 0 ≠ [] := by decide
  exact hne

/-- One type, executed. -/
def varcharType : TypeInfoQuery := (TypeInfoQuery.create 12).execute.2

def varcharStatement : Statement := { currentQuery := some (.typeInfo varcharType) }

/-- Its row is read, and then its end. -/
theorem closes_atEnd : ({} : Statement).Executes (textWorld threeRows) (.typeInfo 12)
      (.typeInfo (.create 12)) .success .success varcharStatement ∧
    ∃ st₂ st₃, Rowsets (textWorld threeRows) varcharStatement [(.success, []), (.noData, [])] st₂ ∧
      st₂.InternalClose (textWorld threeRows) .error st₃ ∧ ¬ st₂.Closes (textWorld threeRows) := by
  have hreq : ({} : Statement).Executes (textWorld threeRows) (.typeInfo 12)
      (.typeInfo (.create 12)) .success .success varcharStatement :=
    .catalog rfl (.first rfl) (.typeInfo _)
  have hrow : FetchRows (textWorld threeRows) varcharStatement.offsetBindings 0 1
      (.typeInfo varcharType) [(.success, [])] _ := .row (.typeInfo varcharType) .done
  have hend : FetchRows (textWorld threeRows) varcharStatement.offsetBindings 0 1
      (.typeInfo (varcharType.fetchNextRow (textWorld threeRows).setting.puts
        (varcharStatement.offsetBindings.slot 0)).2) [(.noData, [])] _ := .row (.typeInfo _) .done
  have hfetch : Rowsets (textWorld threeRows) varcharStatement
      ([(.success, [])] ++ ([(.noData, [])] ++ [])) _ := .cons rfl hrow (.cons rfl hend .nil)
  refine ⟨hreq, _, _, hfetch, .notOpen rfl rfl, fun h => ?_⟩
  cases h.success _ _ (.notOpen rfl rfl)

end Examples

end Statement

end TrinoOdbc
