import TrinoOdbc.Lts
import TrinoOdbc.Naming
import TrinoOdbc.Types

/-!
# TrinoOdbc.CursorNames

The cursor names of a connection, which its statements set, get and drop in different threads.

`InternalSetCursorName` is two steps: `checkCursorName`, which looks the name up without the lock,
and `addCursorName` under the lock. Steps of other statements may come between them.

`cursorNames_lawful_iff` says which interleavings keep the names unique.
-/

namespace TrinoOdbc

/-- `cursorNames_` and `cursorNameMap_` of a connection. A statement is its address, which a new
statement may have after the old one is dropped. -/
structure CursorNames where
  cursorNames : Finset String := ∅
  cursorNameMap : Nat → Option String := fun _ => none

def cursorNameMaxLength : Int := 18

/-- `SqlWcharToString`, of characters that are one `SQLWCHAR` each. `SQL_NTS` is -3, and a zero ends
the string in any case. -/
def sqlWcharToString (sqlStr : Option (List Char)) (sqlStrLen : Int) : String :=
  match sqlStr with
  | none => ""
  | some chars =>
    if sqlStrLen = -3 then String.ofList (chars.takeWhile (· ≠ '\x00'))
    else if 0 < sqlStrLen then
      String.ofList ((chars.take sqlStrLen.toNat).takeWhile (· ≠ '\x00'))
    else ""

namespace CursorNames

def getCursorName (t : CursorNames) (stmt : Nat) : String :=
  match t.cursorNameMap stmt with
  | some name => name
  | none => ""

def cursorNameExists (t : CursorNames) (cursorName : String) : Bool := cursorName ∈ t.cursorNames

def addCursorName (t : CursorNames) (stmt : Nat) (cursorName : String) : CursorNames :=
  { cursorNames :=
      insert cursorName (match t.cursorNameMap stmt with
        | some old => t.cursorNames.erase old
        | none => t.cursorNames)
    cursorNameMap := Function.update t.cursorNameMap stmt (some cursorName) }

def removeCursorName (t : CursorNames) (stmt : Nat) : CursorNames :=
  match t.cursorNameMap stmt with
  | some old =>
    { cursorNames := t.cursorNames.erase old
      cursorNameMap := Function.update t.cursorNameMap stmt none }
  | none => t

/-- `InternalSetCursorName` up to the call of `AddCursorName`. -/
def checkCursorName (t : CursorNames) (name : Option (List Char)) (nameLen : Int) :
    Except DiagnosticRecord String :=
  if cursorNameMaxLength < nameLen then
    .error
      { sqlState := .s3C000DuplicateCursorName
        message := "The number of characters in cursor name (" ++ toString nameLen ++
          ") exceeds the maximum allowed number (" ++ toString cursorNameMaxLength ++ ")" }
  else
    let cursorName := sqlWcharToString name nameLen
    if (cursorName.toList.take 7).map Char.toUpper = "SQL_CUR".toList then
      .error
        { sqlState := .s34000InvalidCursorName
          message := "Cursor name should not start with SQL_CUR" }
    else if t.cursorNameExists cursorName then
      .error
        { sqlState := .s3C000DuplicateCursorName
          message := "Cursor name \"" ++ cursorName ++ "\" has already been used." }
    else .ok cursorName

end CursorNames

/-! ## Statements in different threads -/

/-- What a call came to. -/
inductive NameOutcome where
  | failed (stmt : Nat) (record : DiagnosticRecord)
  | named (stmt : Nat) (name : String)
  | got (stmt : Nat) (name : String)
  | dropped (stmt : Nat)

/-- The names, the names that statements have checked and not yet added, and the outcomes of the
calls up to now, the last one in front. -/
structure CursorThreads where
  names : CursorNames := {}
  pending : Nat → Option String := fun _ => none
  history : List NameOutcome := []

/-- One step of one statement. -/
inductive NameStep where
  | checkName (stmt : Nat) (name : Option (List Char)) (nameLen : Int)
  | addName (stmt : Nat)
  | getName (stmt : Nat)
  | drop (stmt : Nat)

namespace CursorThreads

/-- A statement makes one call at a time: a step that is not its turn is not taken. -/
def step (w : CursorThreads) : NameStep → CursorThreads
  | .checkName stmt name nameLen =>
    match w.pending stmt with
    | some _ => w
    | none =>
      match w.names.checkCursorName name nameLen with
      | .error record => { w with history := .failed stmt record :: w.history }
      | .ok cursorName => { w with pending := Function.update w.pending stmt (some cursorName) }
  | .addName stmt =>
    match w.pending stmt with
    | none => w
    | some cursorName =>
      { names := w.names.addCursorName stmt cursorName
        pending := Function.update w.pending stmt none
        history := .named stmt cursorName :: w.history }
  | .getName stmt =>
    match w.pending stmt with
    | some _ => w
    | none => { w with history := .got stmt (w.names.getCursorName stmt) :: w.history }
  | .drop stmt =>
    match w.pending stmt with
    | some _ => w
    | none =>
      { w with
        names := w.names.removeCursorName stmt
        history := .dropped stmt :: w.history }

/-! ## What is to hold -/

/-- The name that a statement has set last with success. -/
def lastName (stmt : Nat) : List NameOutcome → Option String
  | [] => none
  | .failed _ _ :: outcomes => lastName stmt outcomes
  | .named s name :: outcomes => if s = stmt then some name else lastName stmt outcomes
  | .got _ _ :: outcomes => lastName stmt outcomes
  | .dropped s :: outcomes => if s = stmt then none else lastName stmt outcomes

/-- No two statements have the same name, the set is that of the names in the map, and
`GetCursorName` returns the name that was set last. -/
structure Sound (w : CursorThreads) : Prop where
  exact : Naming.Exact w.names.cursorNames w.names.cursorNameMap
  returns : ∀ stmt, w.names.getCursorName stmt = (lastName stmt w.history).getD ""

/-- A step keeps the names sound, and changes nothing where `SetCursorName` fails. -/
def Lawful (w : CursorThreads) (c : NameStep) : Prop :=
  (w.step c).Sound ∧
    ∀ stmt record, (w.step c).history = .failed stmt record :: w.history →
      (w.step c).names = w.names ∧ (w.step c).pending = w.pending

/-- What was found when the name was checked still holds when it is added. -/
def StillFree (w : CursorThreads) : NameStep → Prop
  | .addName stmt =>
    ∀ cursorName, w.pending stmt = some cursorName → w.names.cursorNameExists cursorName = false
  | _ => True

/-- The map is what the history tells, and a statement does not have the name it is about to
add. -/
structure Tracked (w : CursorThreads) : Prop where
  exact : Naming.Exact w.names.cursorNames w.names.cursorNameMap
  map_eq : ∀ stmt, w.names.cursorNameMap stmt = lastName stmt w.history
  fresh : ∀ stmt name, w.pending stmt = some name → w.names.cursorNameMap stmt ≠ some name

end CursorThreads

/-! ## The operations -/

namespace CursorNames

variable {t : CursorNames}

theorem getCursorName_eq (t : CursorNames) (stmt : Nat) :
    t.getCursorName stmt = (t.cursorNameMap stmt).getD "" := by
  unfold getCursorName
  cases t.cursorNameMap stmt with
  | none => rfl
  | some name => rfl

theorem cursorNameExists_eq_false {name : String} :
    t.cursorNameExists name = false ↔ name ∉ t.cursorNames := by
  simp [cursorNameExists]

theorem checkCursorName_ok {name : Option (List Char)} {nameLen : Int} {cursorName : String}
    (h : t.checkCursorName name nameLen = .ok cursorName) : cursorName ∉ t.cursorNames := by
  unfold checkCursorName at h
  split at h
  · cases h
  · simp only at h
    split at h
    · cases h
    · split at h
      · cases h
      · rename_i hfree
        obtain rfl := Except.ok.inj h
        simpa [cursorNameExists] using hfree

theorem addCursorName_names (t : CursorNames) (stmt : Nat) (name : String) :
    (t.addCursorName stmt name).cursorNames =
      insert name (Naming.eraseOf t.cursorNames (t.cursorNameMap stmt)) := by
  unfold addCursorName Naming.eraseOf
  cases t.cursorNameMap stmt with
  | none => rfl
  | some old => rfl

theorem addCursorName_map (t : CursorNames) (stmt : Nat) (name : String) :
    (t.addCursorName stmt name).cursorNameMap =
      Function.update t.cursorNameMap stmt (some name) := rfl

theorem removeCursorName_names (t : CursorNames) (stmt : Nat) :
    (t.removeCursorName stmt).cursorNames =
      Naming.eraseOf t.cursorNames (t.cursorNameMap stmt) := by
  unfold removeCursorName Naming.eraseOf
  cases t.cursorNameMap stmt with
  | none => rfl
  | some old => rfl

theorem removeCursorName_map (t : CursorNames) (stmt : Nat) :
    (t.removeCursorName stmt).cursorNameMap = Function.update t.cursorNameMap stmt none := by
  unfold removeCursorName
  cases h : t.cursorNameMap stmt with
  | none => simp [← h]
  | some old => rfl

end CursorNames

namespace CursorThreads

variable {w : CursorThreads}

theorem Tracked.sound (h : w.Tracked) : w.Sound := by
  refine ⟨h.exact, fun stmt => ?_⟩
  rw [CursorNames.getCursorName_eq, h.map_eq]

/-- Adding a checked name. -/
theorem add_exact_iff (h : w.Tracked) {stmt : Nat} {name : String}
    (hpending : w.pending stmt = some name) :
    Naming.Exact (w.names.addCursorName stmt name).cursorNames
        (w.names.addCursorName stmt name).cursorNameMap ↔
      w.names.cursorNameExists name = false := by
  rw [CursorNames.addCursorName_names, CursorNames.addCursorName_map, h.exact.assign_iff,
    CursorNames.cursorNameExists_eq_false, h.exact.mem_iff]
  constructor
  · rintro hfree ⟨s, hs⟩
    by_cases heq : s = stmt
    · exact h.fresh stmt name hpending (heq ▸ hs)
    · exact hfree s heq hs
  · intro hfree s _ hs
    exact hfree ⟨s, hs⟩

/-- A name that has been found to be free is about to be added. -/
theorem Tracked.checked (h : w.Tracked) {name : String} (hfree : name ∉ w.names.cursorNames)
    (stmt : Nat) : Tracked { w with pending := Function.update w.pending stmt (some name) } := by
  refine ⟨h.exact, h.map_eq, fun s n hs => ?_⟩
  change Function.update w.pending stmt (some name) s = some n at hs
  by_cases heq : s = stmt
  · rw [heq, Function.update_self] at hs
    obtain rfl := Option.some.inj hs
    exact h.exact.not_mem hfree
  · rw [Function.update_of_ne heq] at hs
    exact h.fresh s n hs

theorem Tracked.added (h : w.Tracked) {stmt : Nat} {name : String}
    (hpending : w.pending stmt = some name) (hfree : w.names.cursorNameExists name = false) :
    Tracked
      { names := w.names.addCursorName stmt name
        pending := Function.update w.pending stmt none
        history := .named stmt name :: w.history } := by
  refine ⟨(add_exact_iff h hpending).mpr hfree, fun s => ?_, fun s n hs => ?_⟩
  · change Function.update w.names.cursorNameMap stmt (some name) s =
      if stmt = s then some name else lastName s w.history
    by_cases heq : s = stmt
    · rw [heq, Function.update_self, if_pos rfl]
    · rw [Function.update_of_ne heq, if_neg (Ne.symm heq), h.map_eq]
  · change Function.update w.pending stmt none s = some n at hs
    change Function.update w.names.cursorNameMap stmt (some name) s ≠ some n
    by_cases heq : s = stmt
    · rw [heq, Function.update_self] at hs
      cases hs
    · rw [Function.update_of_ne heq] at hs ⊢
      exact h.fresh s n hs

theorem Tracked.dropped (h : w.Tracked) (stmt : Nat) :
    Tracked
      { w with
        names := w.names.removeCursorName stmt
        history := .dropped stmt :: w.history } := by
  have hmap := CursorNames.removeCursorName_map w.names stmt
  refine ⟨?_, fun s => ?_, fun s n hs => ?_⟩
  · change Naming.Exact (w.names.removeCursorName stmt).cursorNames
      (w.names.removeCursorName stmt).cursorNameMap
    rw [CursorNames.removeCursorName_names, hmap]
    exact h.exact.release stmt
  · change (w.names.removeCursorName stmt).cursorNameMap s =
      if stmt = s then none else lastName s w.history
    rw [hmap]
    by_cases heq : s = stmt
    · rw [heq, Function.update_self, if_pos rfl]
    · rw [Function.update_of_ne heq, if_neg (Ne.symm heq), h.map_eq]
  · change (w.names.removeCursorName stmt).cursorNameMap s ≠ some n
    rw [hmap]
    by_cases heq : s = stmt
    · rw [heq, Function.update_self]
      nofun
    · rw [Function.update_of_ne heq]
      exact h.fresh s n hs

/-- What a step can do. -/
theorem step_cases (w : CursorThreads) (c : NameStep) :
    w.step c = w ∨
      (∃ stmt record, w.step c = { w with history := .failed stmt record :: w.history }) ∨
      (∃ stmt name, name ∉ w.names.cursorNames ∧
        w.step c = { w with pending := Function.update w.pending stmt (some name) }) ∨
      (∃ stmt name, c = .addName stmt ∧ w.pending stmt = some name ∧
        w.step c =
          { names := w.names.addCursorName stmt name
            pending := Function.update w.pending stmt none
            history := .named stmt name :: w.history }) ∨
      (∃ stmt, w.step c =
        { w with history := .got stmt (w.names.getCursorName stmt) :: w.history }) ∨
      ∃ stmt, w.step c =
        { w with
          names := w.names.removeCursorName stmt
          history := .dropped stmt :: w.history } := by
  cases c with
  | checkName stmt name nameLen =>
    cases hp : w.pending stmt with
    | some pending => exact .inl (by simp only [step, hp])
    | none =>
      cases hc : w.names.checkCursorName name nameLen with
      | error record => exact .inr (.inl ⟨stmt, record, by simp only [step, hp, hc]⟩)
      | ok cursorName =>
        refine .inr (.inr (.inl ⟨stmt, cursorName, CursorNames.checkCursorName_ok hc, ?_⟩))
        simp only [step, hp, hc]
  | addName stmt =>
    cases hp : w.pending stmt with
    | none => exact .inl (by simp only [step, hp])
    | some name =>
      refine .inr (.inr (.inr (.inl ⟨stmt, name, rfl, hp, ?_⟩)))
      simp only [step, hp]
  | getName stmt =>
    cases hp : w.pending stmt with
    | some pending => exact .inl (by simp only [step, hp])
    | none => exact .inr (.inr (.inr (.inr (.inl ⟨stmt, by simp only [step, hp]⟩))))
  | drop stmt =>
    cases hp : w.pending stmt with
    | some pending => exact .inl (by simp only [step, hp])
    | none => exact .inr (.inr (.inr (.inr (.inr ⟨stmt, by simp only [step, hp]⟩))))

theorem step_tracked (h : w.Tracked) {c : NameStep} (hfree : w.StillFree c) :
    (w.step c).Tracked := by
  obtain heq | ⟨stmt, record, heq⟩ | ⟨stmt, name, hname, heq⟩ | ⟨stmt, name, rfl, hp, heq⟩ |
    ⟨stmt, heq⟩ | ⟨stmt, heq⟩ := step_cases w c
  · rwa [heq]
  · rw [heq]
    exact ⟨h.exact, h.map_eq, h.fresh⟩
  · rw [heq]
    exact h.checked hname stmt
  · rw [heq]
    exact h.added hp (hfree name hp)
  · rw [heq]
    exact ⟨h.exact, h.map_eq, h.fresh⟩
  · rw [heq]
    exact h.dropped stmt

/-- Only a check fails, and it does so without a change. -/
theorem step_failed {c : NameStep} {stmt : Nat} {record : DiagnosticRecord}
    (h : (w.step c).history = .failed stmt record :: w.history) :
    (w.step c).names = w.names ∧ (w.step c).pending = w.pending := by
  obtain heq | ⟨_, _, heq⟩ | ⟨_, _, _, heq⟩ | ⟨_, _, _, _, heq⟩ | ⟨_, heq⟩ | ⟨_, heq⟩ :=
    step_cases w c
  · rw [heq]
    exact ⟨rfl, rfl⟩
  · rw [heq]
    exact ⟨rfl, rfl⟩
  · simp [heq] at h
  · simp [heq] at h
  · rw [heq]
    exact ⟨rfl, rfl⟩
  · simp [heq] at h

theorem lawful_iff (h : w.Tracked) (c : NameStep) : w.Lawful c ↔ w.StillFree c := by
  constructor
  · rintro ⟨hsound, _⟩
    cases c with
    | addName stmt =>
      intro name hp
      have hexact := hsound.exact
      simp only [step, hp] at hexact
      exact (add_exact_iff h hp).mp hexact
    | checkName stmt name nameLen => trivial
    | getName stmt => trivial
    | drop stmt => trivial
  · intro hfree
    exact ⟨(step_tracked h hfree).sound, fun _ _ => step_failed⟩

theorem start_tracked : Tracked {} :=
  ⟨Naming.exact_empty, fun _ => rfl, nofun⟩

/-- In every interleaving, the names stay unique exactly when each name that is added is still free
then. -/
theorem cursorNames_lawful_iff (steps : List NameStep) :
    Lts.Each step Lawful {} steps ↔ Lts.Each step StillFree {} steps :=
  Lts.each_iff (fun _ _ h hfree => step_tracked h hfree) (fun _ c h => lawful_iff h c) start_tracked

section Examples

/-- Two statements check the same name before either adds it. -/
theorem cursorNames_clash :
    ¬ Lts.Each step Lawful {}
        [.checkName 0 (some ['c']) 1, .checkName 1 (some ['c']) 1, .addName 0, .addName 1] := by
  rintro ⟨_, _, _, ⟨hsound, _⟩, _⟩
  have hsame : (0 : Nat) = 1 := hsound.exact.unique 0 1 "c" (by decide) (by decide)
  cases hsame

end Examples

end CursorThreads

end TrinoOdbc
