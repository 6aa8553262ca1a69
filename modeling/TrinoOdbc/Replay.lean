import TrinoOdbc.DataQuery

/-!
# TrinoOdbc.Replay

Replaying a schedule: `replay` runs the two parties of a `DataQuery` in a given order against a
service that is a function, and `replay_steps` says that what it computes is a run of `Step`. A
schedule stops where a state does not meet `guard`, so a run of steps that meet a condition can be
replayed too.
-/

namespace TrinoOdbc

/-- A service that gives at most one answer to a request. -/
structure Service where
  query : QueryRequest → Option QueryOutcome
  cancel : String → Option CancelOutcome := fun _ => none

def Service.env (service : Service) (read : ReadToBuffer) : Env :=
  { read
    query := fun req outcome => service.query req = some outcome
    cancel := fun queryId outcome => service.cancel queryId = some outcome }

/-- Whose step comes next; `answer` and `push` are those of thread `i`. -/
inductive Move where
  | call (op : Op)
  | main
  | query
  | cancel
  | answer (i : Nat)
  | push (i : Nat)

variable (service : Service) (read : ReadToBuffer)

def replayStep (s : State) : Move → Option (Event × State)
  | .call op =>
    match s.main with
    | .idle => some (.call op, ⟨.entered op, s.query⟩)
    | _ => none
  | .main => mainStep read s.query s.main
  | .query =>
    match mainRequest s.query s.main with
    | none => none
    | some req =>
      match service.query req with
      | none => none
      | some outcome => onQuery s.query outcome s.main
  | .cancel =>
    match s.main, s.query.result with
    | .cancelling, some r =>
      match service.cancel r.queryId with
      | none => none
      | some outcome => s.query.cancelRequested outcome
    | _, _ => none
  | .answer i =>
    match s.query.threads[i]?, service.query s.query.request with
    | some .started, some outcome =>
      some (.tau, ⟨s.main, { s.query with threads := s.query.threads.set i (.answered outcome) }⟩)
    | _, _ => none
  | .push i =>
    match s.query.threads[i]? with
    | some (.answered outcome) =>
      match DataQuery.asyncPush s.query.context outcome with
      | none => none
      | some context =>
        some (.tau, ⟨s.main,
          { s.query with context, threads := s.query.threads.set i .finished }⟩)
    | _ => none

def replay (guard : State → Bool) : List Move → State → Option (List Event × State)
  | [], s => some ([], s)
  | m :: ms, s =>
    if guard s then
      match replayStep service read s m with
      | none => none
      | some (e, s') =>
        match replay guard ms s' with
        | none => none
        | some (es, s'') => some (e :: es, s'')
    else none

/-- The query a schedule leads to. -/
def queryAfter (ms : List Move) (q : DataQuery) : DataQuery :=
  match replay service read (fun _ => true) ms ⟨.idle, q⟩ with
  | some (_, s) => s.query
  | none => q

variable {service read}

theorem replayStep_step {s s' : State} {m : Move} {e : Event}
    (h : replayStep service read s m = some (e, s')) : Step (service.env read) s e s' := by
  obtain ⟨main, q⟩ := s
  cases m with
  | call op =>
    simp only [replayStep] at h
    split at h
    · cases h; exact .call op
    · cases h
  | main => exact .main h
  | query =>
    simp only [replayStep] at h
    split at h
    · cases h
    · rename_i req hreq
      split at h
      · cases h
      · rename_i outcome ho; exact .query hreq ho h
  | cancel =>
    simp only [replayStep] at h
    split at h
    · rename_i r hr
      split at h
      · cases h
      · rename_i outcome ho; exact .cancel hr ho h
    · cases h
  | answer i =>
    simp only [replayStep] at h
    split at h
    · rename_i outcome hi ho; cases h; exact .answer hi ho
    · cases h
  | push i =>
    simp only [replayStep] at h
    split at h
    · rename_i outcome hi
      split at h
      · cases h
      · rename_i context hp; cases h; exact .push hi hp
    · cases h

theorem replay_steps (guard : State → Bool) {G : State → Event → State → Prop}
    (hG : ∀ s e s', guard s = true → G s e s') (ms : List Move) :
    ∀ {s s' : State} {es : List Event}, replay service read guard ms s = some (es, s') →
      Lts.Steps (Lts.Restrict (Step (service.env read)) G) s es s' := by
  induction ms with
  | nil => intro s s' es h; cases h; exact .refl
  | cons m ms ih =>
    intro s s' es h
    simp only [replay] at h
    split at h
    · rename_i hg
      split at h
      · cases h
      · rename_i e s₁ hs
        split at h
        · cases h
        · rename_i es' s'' hr
          cases h
          exact .cons ⟨replayStep_step hs, hG _ _ _ hg⟩ (ih hr)
    · cases h

/-- A schedule of a fresh query leads to a reachable state. -/
theorem replay_reachable (ms : List Move) {s s' : State} {es : List Event} (h0 : Fresh s)
    (h : replay service read (fun _ => true) ms s = some (es, s')) :
    Lts.Reachable (Step (service.env read)) Fresh s' :=
  ⟨s, es, h0, (replay_steps _ (G := fun _ _ _ => True) (fun _ _ _ _ => trivial) ms h).of_restrict⟩

end TrinoOdbc
