import TrinoOdbc.CursorNames
import TrinoOdbc.Loops

/-!
# TrinoOdbc.Handles

The environments, connections and statements of the driver, which refer to each other: an
environment to its connections, a connection to its environment and to the statements with a cursor
name, a statement to its connection.

* `HandleCall`, `exec` — the calls that allocate and free them, and `SQLSetCursorName`.
* `Sound` — no reference of a live object dangles, and what an environment and a connection know of
  others is exact.
* `handles_sound_iff` — the sequences of calls in which this holds throughout.

Handles are the addresses of the objects: one that has been freed may be allocated again.
-/

namespace TrinoOdbc

structure ConnectionHandle where
  env : Nat
  names : CursorNames := {}

/-- The live objects: an environment with `connections`, a statement with its connection. -/
structure Handles where
  envs : Nat → Option (Finset Nat) := fun _ => none
  conns : Nat → Option ConnectionHandle := fun _ => none
  stmts : Nat → Option Nat := fun _ => none

inductive HandleCall where
  | allocEnv (env : Nat)
  | allocConnect (env conn : Nat)
  | allocStmt (conn stmt : Nat)
  | setCursorName (stmt : Nat) (name : Option (List Char)) (nameLen : Int)
  | freeEnv (env : Nat)
  | freeConnect (conn : Nat)
  | freeStmt (stmt : Nat)

/-- A call through a reference to an object that has been freed. -/
inductive HandleFault where
  | freedEnvironment | freedConnection
  deriving DecidableEq, Repr

namespace Handles

/-- The calls with handles of live objects, and with new addresses. -/
def possible (w : Handles) : HandleCall → Bool
  | .allocEnv env => (w.envs env).isNone
  | .allocConnect env conn => (w.envs env).isSome && (w.conns conn).isNone
  | .allocStmt conn stmt => (w.conns conn).isSome && (w.stmts stmt).isNone
  | .setCursorName stmt _ _ | .freeStmt stmt => (w.stmts stmt).isSome
  | .freeEnv env => (w.envs env).isSome
  | .freeConnect conn => (w.conns conn).isSome

/-- The environment that a connection or a call refers to. -/
def getEnv (w : Handles) (env : Nat) : Except HandleFault (Finset Nat) :=
  match w.envs env with
  | some connections => .ok connections
  | none => .error .freedEnvironment

def getConnection (w : Handles) (conn : Nat) : Except HandleFault ConnectionHandle :=
  match w.conns conn with
  | some c => .ok c
  | none => .error .freedConnection

/-- `InternalCreateConnection`. -/
def createConnection (w : Handles) (env conn : Nat) : Except HandleFault Handles := do
  let connections ← w.getEnv env
  return { w with
    envs := Function.update w.envs env (some (insert conn connections))
    conns := Function.update w.conns conn (some { env }) }

/-- `SQLFreeConnect`: `Deregister` goes to the environment. -/
def freeConnect (w : Handles) (conn : Nat) : Except HandleFault Handles := do
  let c ← w.getConnection conn
  let connections ← w.getEnv c.env
  return { w with
    envs := Function.update w.envs c.env (some (connections.erase conn))
    conns := Function.update w.conns conn none }

/-- `InternalSetCursorName`. -/
def setCursorName (w : Handles) (stmt conn : Nat) (name : Option (List Char)) (nameLen : Int) :
    Except HandleFault Handles := do
  let c ← w.getConnection conn
  return match c.names.checkCursorName name nameLen with
    | .error _ => w
    | .ok cursorName =>
      { w with
        conns := Function.update w.conns conn
          (some { c with names := c.names.addCursorName stmt cursorName }) }

/-- `SQLFreeStmt` with `SQL_DROP`: `RemoveCursorName` goes to the connection. -/
def freeStmt (w : Handles) (stmt conn : Nat) : Except HandleFault Handles := do
  let c ← w.getConnection conn
  return { w with
    conns := Function.update w.conns conn (some { c with names := c.names.removeCursorName stmt })
    stmts := Function.update w.stmts stmt none }

def exec (w : Handles) : HandleCall → Except HandleFault Handles
  | .allocEnv env => .ok { w with envs := Function.update w.envs env (some ∅) }
  | .allocConnect env conn => w.createConnection env conn
  | .allocStmt conn stmt => .ok { w with stmts := Function.update w.stmts stmt (some conn) }
  | .setCursorName stmt name nameLen =>
    match w.stmts stmt with
    | none => .ok w
    | some conn => w.setCursorName stmt conn name nameLen
  | .freeEnv env => .ok { w with envs := Function.update w.envs env none }
  | .freeConnect conn => w.freeConnect conn
  | .freeStmt stmt =>
    match w.stmts stmt with
    | none => .ok w
    | some conn => w.freeStmt stmt conn

/-- A call with the handle of an object that is not live is not made. -/
def apply (w : Option Handles) (c : HandleCall) : Option Handles :=
  w.bind fun t => if t.possible c then (t.exec c).toOption else some t

/-! ## What is to hold -/

/-- An environment knows the connections that refer to it, these are live, and so is the connection
of every statement; only the live statements of a connection have a name on it, each its own. -/
structure Sound (w : Handles) : Prop where
  connections : ∀ env set, w.envs env = some set →
    ∀ conn, conn ∈ set ↔ ∃ c, w.conns conn = some c ∧ c.env = env
  environment : ∀ conn c, w.conns conn = some c → w.envs c.env ≠ none
  connection : ∀ stmt conn, w.stmts stmt = some conn → w.conns conn ≠ none
  unique : ∀ conn c, w.conns conn = some c →
    Naming.Exact c.names.cursorNames c.names.cursorNameMap
  named : ∀ conn c, w.conns conn = some c →
    ∀ stmt, c.names.cursorNameMap stmt ≠ none → w.stmts stmt = some conn

/-- An environment is freed when it has no connections, a connection when it has no statements. -/
def Keeps (w : Handles) : HandleCall → Prop
  | .freeEnv env => w.envs env = some ∅
  | .freeConnect conn => ∀ stmt, w.stmts stmt ≠ some conn
  | _ => True

def Holds (w : Option Handles) : Prop := ∃ t, w = some t ∧ t.Sound

def Meets (w : Option Handles) (c : HandleCall) : Prop :=
  ∃ t, w = some t ∧ (t.possible c = true → t.Keeps c)

/-! ## One call -/

/-- What a possible call comes to. -/
def Succeeds (w : Handles) (c : HandleCall) : Prop := ∃ w', w.exec c = .ok w' ∧ w'.Sound

section Calls

variable {w : Handles} {env conn stmt : Nat}

theorem getEnv_some {connections : Finset Nat} (h : w.envs env = some connections) :
    w.getEnv env = .ok connections := by
  rw [getEnv, h]

theorem getConnection_some {c : ConnectionHandle} (h : w.conns conn = some c) :
    w.getConnection conn = .ok c := by
  rw [getConnection, h]

theorem Sound.environment_some (h : w.Sound) {c : ConnectionHandle} (hc : w.conns conn = some c) :
    ∃ connections, w.envs c.env = some connections ∧ conn ∈ connections := by
  obtain ⟨connections, hset⟩ := Option.ne_none_iff_exists'.mp (h.environment conn c hc)
  exact ⟨connections, hset, (h.connections _ _ hset conn).mpr ⟨c, hc, rfl⟩⟩

theorem update_eq_some {α : Type*} {f : Nat → Option α} {a b : Nat} {v x : α} :
    Function.update f a (some v) b = some x ↔ (b = a ∧ x = v) ∨ (b ≠ a ∧ f b = some x) := by
  by_cases h : b = a
  · simp [h, eq_comm]
  · simp [h]

theorem update_none_eq_some {α : Type*} {f : Nat → Option α} {a b : Nat} {x : α} :
    Function.update f a none b = some x ↔ b ≠ a ∧ f b = some x := by
  by_cases h : b = a
  · simp [h]
  · simp [h]

theorem allocEnv_sound (h : w.Sound) (hnew : w.envs env = none) :
    Sound { w with envs := Function.update w.envs env (some ∅) } := by
  refine ⟨fun e set hset conn => ?_, fun conn c hc => ?_, h.connection, h.unique, h.named⟩
  · rcases update_eq_some.mp hset with ⟨rfl, rfl⟩ | ⟨_, hold⟩
    · refine iff_of_false (Finset.notMem_empty conn) ?_
      rintro ⟨c, hc, rfl⟩
      exact h.environment conn c hc hnew
    · exact h.connections e set hold conn
  · obtain ⟨connections, hset⟩ := Option.ne_none_iff_exists'.mp (h.environment conn c hc)
    have hne : c.env ≠ env := by
      rintro rfl
      rw [hnew] at hset
      cases hset
    change Function.update w.envs env (some ∅) c.env ≠ none
    rw [Function.update_of_ne hne]
    exact h.environment conn c hc

theorem createConnection_succeeds (h : w.Sound) {connections : Finset Nat}
    (henv : w.envs env = some connections) (hnew : w.conns conn = none) :
    ∃ w', w.createConnection env conn = .ok w' ∧ w'.Sound := by
  refine ⟨_, by rw [createConnection, getEnv_some henv]; rfl, ?_⟩
  refine ⟨fun e set hset k => ?_, fun k c hc => ?_, fun s k hs => ?_, fun k c hc => ?_,
    fun k c hc s hs => ?_⟩
  · have hknown : k = conn ∨ (k ≠ conn ∧ ∃ c, w.conns k = some c ∧ c.env = e) ↔
        k = conn ∨ ∃ c, w.conns k = some c ∧ c.env = e := by tauto
    rcases update_eq_some.mp hset with ⟨rfl, rfl⟩ | ⟨hne, hold⟩
    · rw [Finset.mem_insert, h.connections e connections henv k]
      constructor
      · rintro (rfl | ⟨c, hc, hce⟩)
        · exact ⟨_, update_eq_some.mpr (.inl ⟨rfl, rfl⟩), rfl⟩
        · refine ⟨c, update_eq_some.mpr (.inr ⟨?_, hc⟩), hce⟩
          rintro rfl
          rw [hnew] at hc
          cases hc
      · rintro ⟨c, hc, hce⟩
        rcases update_eq_some.mp hc with ⟨rfl, _⟩ | ⟨_, hold⟩
        · exact .inl rfl
        · exact .inr ⟨c, hold, hce⟩
    · rw [h.connections e set hold k]
      constructor
      · rintro ⟨c, hc, hce⟩
        refine ⟨c, update_eq_some.mpr (.inr ⟨?_, hc⟩), hce⟩
        rintro rfl
        rw [hnew] at hc
        cases hc
      · rintro ⟨c, hc, hce⟩
        rcases update_eq_some.mp hc with ⟨_, rfl⟩ | ⟨_, hold⟩
        · exact absurd hce.symm hne
        · exact ⟨c, hold, hce⟩
  · have hlive : c.env = env ∨ w.envs c.env ≠ none := by
      rcases update_eq_some.mp hc with ⟨_, rfl⟩ | ⟨_, hold⟩
      · exact .inl rfl
      · exact .inr (h.environment k c hold)
    change Function.update w.envs env _ c.env ≠ none
    by_cases heq : c.env = env
    · rw [heq, Function.update_self]
      nofun
    · rw [Function.update_of_ne heq]
      exact hlive.resolve_left heq
  · change Function.update w.conns conn _ k ≠ none
    by_cases heq : k = conn
    · rw [heq, Function.update_self]
      nofun
    · rw [Function.update_of_ne heq]
      exact h.connection s k hs
  · rcases update_eq_some.mp hc with ⟨_, rfl⟩ | ⟨_, hold⟩
    · exact Naming.exact_empty
    · exact h.unique k c hold
  · rcases update_eq_some.mp hc with ⟨_, rfl⟩ | ⟨_, hold⟩
    · exact absurd rfl hs
    · exact h.named k c hold s hs

theorem allocStmt_sound (h : w.Sound) (hconn : w.conns conn ≠ none) (hnew : w.stmts stmt = none) :
    Sound { w with stmts := Function.update w.stmts stmt (some conn) } := by
  refine ⟨h.connections, h.environment, fun s k hs => ?_, h.unique, fun k c hc s hs => ?_⟩
  · rcases update_eq_some.mp hs with ⟨_, rfl⟩ | ⟨_, hold⟩
    · exact hconn
    · exact h.connection s k hold
  · have hold := h.named k c hc s hs
    refine update_eq_some.mpr (.inr ⟨?_, hold⟩)
    rintro rfl
    rw [hnew] at hold
    cases hold

/-- Other names on a connection, of its live statements. -/
theorem Sound.updateNames (h : w.Sound) {c : ConnectionHandle} (hc : w.conns conn = some c)
    {names : CursorNames} {stmts : Nat → Option Nat}
    (hunique : Naming.Exact names.cursorNames names.cursorNameMap)
    (hnamed : ∀ s, names.cursorNameMap s ≠ none → stmts s = some conn)
    (hlive : ∀ s k, stmts s = some k → w.stmts s = some k)
    (hother : ∀ s k, k ≠ conn → w.stmts s = some k → stmts s = some k) :
    Sound { w with conns := Function.update w.conns conn (some { c with names }), stmts } := by
  refine ⟨fun e set hset k => ?_, fun k d hd => ?_, fun s k hs => ?_, fun k d hd => ?_,
    fun k d hd s hs => ?_⟩
  · rw [h.connections e set hset k]
    constructor
    · rintro ⟨d, hd, hde⟩
      by_cases heq : k = conn
      · subst heq
        obtain rfl := Option.some.inj (hc.symm.trans hd)
        exact ⟨_, update_eq_some.mpr (.inl ⟨rfl, rfl⟩), hde⟩
      · exact ⟨d, update_eq_some.mpr (.inr ⟨heq, hd⟩), hde⟩
    · rintro ⟨d, hd, hde⟩
      rcases update_eq_some.mp hd with ⟨rfl, rfl⟩ | ⟨_, hold⟩
      · exact ⟨c, hc, hde⟩
      · exact ⟨d, hold, hde⟩
  · rcases update_eq_some.mp hd with ⟨_, rfl⟩ | ⟨_, hold⟩
    · exact h.environment conn c hc
    · exact h.environment k d hold
  · change Function.update w.conns conn _ k ≠ none
    by_cases heq : k = conn
    · rw [heq, Function.update_self]
      nofun
    · rw [Function.update_of_ne heq]
      exact h.connection s k (hlive s k hs)
  · rcases update_eq_some.mp hd with ⟨_, rfl⟩ | ⟨_, hold⟩
    · exact hunique
    · exact h.unique k d hold
  · rcases update_eq_some.mp hd with ⟨rfl, rfl⟩ | ⟨hne, hold⟩
    · exact hnamed s hs
    · exact hother s k hne (h.named k d hold s hs)

theorem setCursorName_succeeds (h : w.Sound) (hstmt : w.stmts stmt = some conn)
    (name : Option (List Char)) (nameLen : Int) :
    ∃ w', w.setCursorName stmt conn name nameLen = .ok w' ∧ w'.Sound := by
  obtain ⟨c, hc⟩ := Option.ne_none_iff_exists'.mp (h.connection stmt conn hstmt)
  rw [setCursorName, getConnection_some hc, Loops.ok_bind]
  refine ⟨_, rfl, ?_⟩
  cases hname : c.names.checkCursorName name nameLen with
  | error record => exact h
  | ok cursorName =>
    have hfree := CursorNames.checkCursorName_ok hname
    refine h.updateNames hc ?_ (fun s hs => ?_) (fun s k hs => hs) (fun s k _ hs => hs)
    · rw [CursorNames.addCursorName_names, CursorNames.addCursorName_map,
        (h.unique conn c hc).assign_iff]
      intro s _ hs
      exact hfree (((h.unique conn c hc).mem_iff cursorName).mpr ⟨s, hs⟩)
    · by_cases heq : s = stmt
      · exact heq ▸ hstmt
      · rw [CursorNames.addCursorName_map, Function.update_of_ne heq] at hs
        exact h.named conn c hc s hs

theorem freeStmt_succeeds (h : w.Sound) (hstmt : w.stmts stmt = some conn) :
    ∃ w', w.freeStmt stmt conn = .ok w' ∧ w'.Sound := by
  obtain ⟨c, hc⟩ := Option.ne_none_iff_exists'.mp (h.connection stmt conn hstmt)
  rw [freeStmt, getConnection_some hc, Loops.ok_bind]
  refine ⟨_, rfl, h.updateNames hc ?_ (fun s hs => ?_) (fun s k hs => ?_) (fun s k hne hs => ?_)⟩
  · rw [CursorNames.removeCursorName_names, CursorNames.removeCursorName_map]
    exact (h.unique conn c hc).release stmt
  · rw [CursorNames.removeCursorName_map] at hs
    by_cases heq : s = stmt
    · rw [heq, Function.update_self] at hs
      exact absurd rfl hs
    · rw [Function.update_of_ne heq] at hs
      exact update_none_eq_some.mpr ⟨heq, h.named conn c hc s hs⟩
  · exact (update_none_eq_some.mp hs).2
  · refine update_none_eq_some.mpr ⟨?_, hs⟩
    rintro rfl
    exact hne (Option.some.inj (hs.symm.trans hstmt))

theorem freeEnv_succeeds_iff (h : w.Sound) (hlive : w.envs env ≠ none) :
    w.Succeeds (.freeEnv env) ↔ w.Keeps (.freeEnv env) := by
  obtain ⟨connections, hset⟩ := Option.ne_none_iff_exists'.mp hlive
  have hkeeps : w.Keeps (.freeEnv env) ↔ ∀ k c, w.conns k = some c → c.env ≠ env := by
    change w.envs env = some ∅ ↔ _
    rw [hset, Option.some.injEq, Finset.eq_empty_iff_forall_notMem]
    simp only [h.connections env connections hset, not_exists, not_and]
  rw [hkeeps]
  constructor
  · rintro ⟨w', hw', hsound⟩ k c hc rfl
    obtain rfl := Except.ok.inj hw'
    exact hsound.environment k c hc (Function.update_self ..)
  · intro hnone
    refine ⟨_, rfl, fun e set hset k => ?_, fun k c hc => ?_, h.connection, h.unique, h.named⟩
    · exact h.connections e set (update_none_eq_some.mp hset).2 k
    · change Function.update w.envs env none c.env ≠ none
      rw [Function.update_of_ne (hnone k c hc)]
      exact h.environment k c hc

theorem freeConnect_succeeds_iff (h : w.Sound) (hlive : w.conns conn ≠ none) :
    w.Succeeds (.freeConnect conn) ↔ w.Keeps (.freeConnect conn) := by
  obtain ⟨c, hc⟩ := Option.ne_none_iff_exists'.mp hlive
  obtain ⟨connections, hset, hmem⟩ := h.environment_some hc
  have hexec : w.exec (.freeConnect conn) =
      .ok { w with
        envs := Function.update w.envs c.env (some (connections.erase conn))
        conns := Function.update w.conns conn none } := by
    rw [exec, freeConnect, getConnection_some hc, Loops.ok_bind, getEnv_some hset]
    rfl
  constructor
  · rintro ⟨w', hw', hsound⟩ s hs
    obtain rfl := Except.ok.inj (hexec.symm.trans hw')
    exact hsound.connection s conn hs (Function.update_self ..)
  · intro hnone
    refine ⟨_, hexec, fun e set he k => ?_, fun k d hd => ?_, fun s k hs => ?_, fun k d hd => ?_,
      fun k d hd s hs => ?_⟩
    · simp only [update_none_eq_some]
      rcases update_eq_some.mp he with ⟨rfl, rfl⟩ | ⟨hne, hold⟩
      · rw [Finset.mem_erase, h.connections _ _ hset k]
        tauto
      · rw [h.connections e set hold k]
        constructor
        · rintro ⟨d, hd, hde⟩
          refine ⟨d, ⟨?_, hd⟩, hde⟩
          rintro rfl
          obtain rfl := Option.some.inj (hc.symm.trans hd)
          exact hne hde.symm
        · rintro ⟨d, ⟨_, hd⟩, hde⟩
          exact ⟨d, hd, hde⟩
    · have hold := (update_none_eq_some.mp hd).2
      change Function.update w.envs c.env _ d.env ≠ none
      by_cases heq : d.env = c.env
      · rw [heq, Function.update_self]
        nofun
      · rw [Function.update_of_ne heq]
        exact h.environment k d hold
    · change Function.update w.conns conn none k ≠ none
      have hne : k ≠ conn := by
        rintro rfl
        exact hnone s hs
      rw [Function.update_of_ne hne]
      exact h.connection s k hs
    · exact h.unique k d (update_none_eq_some.mp hd).2
    · exact h.named k d (update_none_eq_some.mp hd).2 s hs

theorem succeeds_iff (h : w.Sound) {c : HandleCall} (hpos : w.possible c = true) :
    w.Succeeds c ↔ w.Keeps c := by
  cases c with
  | allocEnv env =>
    have hnew : w.envs env = none := by simpa [possible] using hpos
    exact iff_of_true ⟨_, rfl, allocEnv_sound h hnew⟩ trivial
  | allocConnect env conn =>
    have hboth : (w.envs env).isSome = true ∧ w.conns conn = none := by simpa [possible] using hpos
    obtain ⟨connections, henv⟩ := Option.isSome_iff_exists.mp hboth.1
    exact iff_of_true (createConnection_succeeds h henv hboth.2) trivial
  | allocStmt conn stmt =>
    have hboth : (w.conns conn).isSome = true ∧ w.stmts stmt = none := by
      simpa [possible] using hpos
    have hconn := Option.isSome_iff_ne_none.mp hboth.1
    exact iff_of_true ⟨_, rfl, allocStmt_sound h hconn hboth.2⟩ trivial
  | setCursorName stmt name nameLen =>
    obtain ⟨conn, hstmt⟩ := Option.isSome_iff_exists.mp hpos
    obtain ⟨w', hw', hsound⟩ := setCursorName_succeeds h hstmt name nameLen
    exact iff_of_true ⟨w', by rw [exec, hstmt]; exact hw', hsound⟩ trivial
  | freeEnv env => exact freeEnv_succeeds_iff h (Option.isSome_iff_ne_none.mp hpos)
  | freeConnect conn => exact freeConnect_succeeds_iff h (Option.isSome_iff_ne_none.mp hpos)
  | freeStmt stmt =>
    obtain ⟨conn, hstmt⟩ := Option.isSome_iff_exists.mp hpos
    obtain ⟨w', hw', hsound⟩ := freeStmt_succeeds h hstmt
    exact iff_of_true ⟨w', by rw [exec, hstmt]; exact hw', hsound⟩ trivial

end Calls

/-! ## Runs -/

theorem start_sound : Sound {} :=
  ⟨nofun, nofun, nofun, nofun, nofun⟩

/-- Nothing dangles in a sequence of calls exactly when each environment is freed after its
connections and each connection after its statements. -/
theorem handles_sound_iff (calls : List HandleCall) :
    Lts.Always apply Holds (some {}) calls ↔ Lts.Each apply Meets (some {}) calls := by
  refine Lts.always_iff (I := fun _ => True) (fun _ _ _ => trivial) (fun w c _ hw => ?_) trivial
    ⟨_, rfl, start_sound⟩
  obtain ⟨t, rfl, ht⟩ := hw
  simp only [Holds, Meets, apply, Option.bind_some, Option.some.injEq, exists_eq_left']
  by_cases hpos : t.possible c = true
  · rw [if_pos hpos]
    have hiff := succeeds_iff ht hpos
    simp only [hpos, true_imp_iff, ← hiff, Succeeds]
    cases t.exec c with
    | error fault => simp [Except.toOption]
    | ok w' => simp [Except.toOption]
  · rw [if_neg hpos]
    exact iff_of_true ⟨t, rfl, ht⟩ fun h => absurd h hpos

end Handles

end TrinoOdbc
