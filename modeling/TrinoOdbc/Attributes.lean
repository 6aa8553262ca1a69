import TrinoOdbc.Descriptor
import TrinoOdbc.Machine

/-!
# TrinoOdbc.Attributes

The attributes of an environment, of its connections and of their statements: the calls that set one
and the calls that get one, in any order and on any of the handles.

* `AttrSystem.step` — `InternalSetAttribute` and `InternalGetAttribute` of the three classes.
* `AttrCell` — what an attribute of a handle stands for: `SQL_ATTR_METADATA_ID` of a statement is
  that of its connection, and the log level is that of the process.
* `attributes_last_set` — a call gets the value that was last accepted for the attribute.

A value that is set comes as a pointer, here the number it is. `SQL_ATTR_APP_ROW_DESC`,
`SQL_ATTR_ROW_BIND_OFFSET_PTR` and `SQL_ATTR_ROW_NUMBER` are in `DescriptorLinks`, `BindOffset` and
`RowNumber`.
-/

namespace TrinoOdbc

open Machine (after lastWritten)

/-! ## Calls -/

inductive EnvAttr where
  | odbcVersion | outputNts | other
  deriving DecidableEq, Repr

inductive ConnAttr where
  | connectionDead | connectionTimeout | autocommit | metadataId | autoIpd | asyncEnable
  | ansiApp | trinologDebug | other
  deriving DecidableEq, Repr

inductive StatementAttr where
  | concurrency | cursorType | metadataId | retrieveData | paramBindType | rowArraySize
  | rowBindType | rowOperationPtr | rowStatusPtr | rowsFetchedPtr
  | cursorScrollable | cursorSensitivity | enableAutoIpd | other
  deriving DecidableEq, Repr

/-- The attribute of a handle. -/
inductive AttrOf where
  | env (attr : EnvAttr)
  | conn (conn : Nat) (attr : ConnAttr)
  | stmt (stmt : Nat) (attr : StatementAttr)
  deriving DecidableEq, Repr

/-- `buf` says whether there is a buffer for the value. -/
inductive AttrCall where
  | set (attr : AttrOf) (value : Int)
  | get (attr : AttrOf) (buf : Bool)

/-- A diagnostic record, with the text of its SQL state. -/
structure AttrRecord where
  sqlState : String
  message : String
  deriving DecidableEq, Repr

/-- What a call returns, what it stores in the buffer, with its size in bytes, and the length it
stores, where there is a place for it. -/
structure AttrAnswer where
  result : SqlResult
  records : List AttrRecord := []
  stored : Option (Nat × Int) := none
  valueLen : Option Int := none
  deriving DecidableEq, Repr

namespace AttrAnswer

def ok : AttrAnswer := { result := .success }

def fails (sqlState message : String) : AttrAnswer :=
  { result := .error, records := [⟨sqlState, message⟩] }

def warns (message : String) : AttrAnswer :=
  { result := .successWithInfo, records := [⟨"01S02", message⟩] }

end AttrAnswer

open AttrAnswer (ok fails warns)

/-- `static_cast< SQLUINTEGER >`. -/
def toUInteger (n : Int) : Int := n.emod 4294967296

/-! ## The objects -/

structure ConnectionAttrs where
  autoCommit : Bool := true
  metadataID : Bool := false

/-- The attributes of a statement, and the headers of its descriptors. -/
structure StatementAttrs where
  rowArraySize : Int := 1
  rowStatuses : Addr := 0
  rowsFetched : Addr := 0
  ard : DescriptorHeader := {}
  ird : DescriptorHeader := {}

/-- An environment with its connections and their statements; the log level is that of the only
`Logger`. `connOf` has the connection of a statement. -/
structure AttrSystem where
  connOf : Nat → Nat
  odbcVersion : Int := 3
  odbcNts : Int := 1
  logLevel : Int
  conns : Nat → ConnectionAttrs := fun _ => {}
  stmts : Nat → StatementAttrs := fun _ => {}

namespace AttrSystem

def updateConn (w : AttrSystem) (conn : Nat) (f : ConnectionAttrs → ConnectionAttrs) :
    AttrSystem :=
  { w with conns := Function.update w.conns conn (f (w.conns conn)) }

def updateStmt (w : AttrSystem) (stmt : Nat) (f : StatementAttrs → StatementAttrs) : AttrSystem :=
  { w with stmts := Function.update w.stmts stmt (f (w.stmts stmt)) }

/-! ## The environment -/

def setEnv (w : AttrSystem) (attr : EnvAttr) (value : Int) : AttrSystem × AttrAnswer :=
  match attr with
  | .odbcVersion =>
    let version := toInteger value
    if version = 2 ∨ version = 3 then ({ w with odbcVersion := version }, ok)
    else
      (w, warns ("The value of ODBC version(" ++ toString version ++
        ") is not supported and the default value(" ++ toString w.odbcVersion ++
        ") will be used."))
  | .outputNts =>
    let nts := toInteger value
    if nts ≠ w.odbcNts then (w, warns "Only null-termination of strings is supported.")
    else (w, ok)
  | .other => (w, fails "HYC00" "Attribute is not supported.")

/-- The buffer is one for an `SQLINTEGER`. -/
def getEnv (w : AttrSystem) (attr : EnvAttr) (buf : Bool) : AttrAnswer :=
  let put (v : Int) : AttrAnswer :=
    { result := .success, stored := if buf then some (4, v) else none, valueLen := some 4 }
  match attr with
  | .odbcVersion => put w.odbcVersion
  | .outputNts => put w.odbcNts
  | .other => fails "HYC00" "Attribute is not supported."

/-! ## A connection -/

def setConn (w : AttrSystem) (conn : Nat) (attr : ConnAttr) (value : Int) :
    AttrSystem × AttrAnswer :=
  match attr with
  | .connectionDead => (w, fails "HY092" "Attribute is read only.")
  | .autocommit =>
    let mode := toUInteger value
    if mode ≠ 1 ∧ mode ≠ 0 then (w, fails "HYC00" "Specified attribute is not supported.")
    else (w.updateConn conn fun c => { c with autoCommit := mode = 1 }, ok)
  | .metadataId =>
    let id := toUInteger value
    if id ≠ 1 ∧ id ≠ 0 then (w, fails "HY024" "Invalid argument value")
    else (w.updateConn conn fun c => { c with metadataID := id ≠ 0 }, ok)
  | .ansiApp => (w, fails "HY000" "Same behavior for ANSI and Unicode applications.")
  | .trinologDebug => ({ w with logLevel := toInteger value }, ok)
  | .connectionTimeout | .autoIpd | .asyncEnable | .other =>
    (w, fails "HYC00" "Specified attribute is not supported.")

/-- An `SQLUINTEGER` is stored, and `SQL_IS_INTEGER` for the length. The case of
`SQL_ATTR_CONNECTION_DEAD` has no `break`: what it stores is stored over. -/
def getConn (w : AttrSystem) (conn : Nat) (attr : ConnAttr) (buf : Bool) : AttrAnswer :=
  let put (v : Int) : AttrAnswer :=
    { result := .success, stored := some (4, v), valueLen := some (-6) }
  if buf = false then fails "HY009" "Data buffer is null."
  else
    match attr with
    | .connectionDead | .connectionTimeout => put 0
    | .autocommit => put (if (w.conns conn).autoCommit then 1 else 0)
    | .metadataId => put (if (w.conns conn).metadataID then 1 else 0)
    | .autoIpd => put 0
    | .asyncEnable => put 0
    | .trinologDebug => put (toUInteger w.logLevel)
    | .ansiApp | .other => fails "HYC00" "Specified attribute is not supported."

/-! ## A statement -/

def setStmt (w : AttrSystem) (stmt : Nat) (attr : StatementAttr) (value : Int) :
    AttrSystem × AttrAnswer :=
  match attr with
  | .concurrency =>
    if toULen value ≠ 1 then (w, fails "HYC00" "Only read-only cursors are supported") else (w, ok)
  | .cursorType =>
    if toULen value ≠ 0 then (w, fails "HYC00" "Only forward cursors are currently supported")
    else (w, ok)
  | .metadataId =>
    let id := toULen value
    if id ≠ 1 ∧ id ≠ 0 then (w, fails "HY024" "Invalid argument value")
    else ((w.setConn (w.connOf stmt) .metadataId id).1, ok)
  | .retrieveData =>
    if toULen value ≠ 1 then
      (w, fails "HYC00" "SQLFetch can only retrieve data after it positions the cursor")
    else (w, ok)
  | .paramBindType =>
    if toULen value ≠ 0 then (w, fails "HYC00" "Only binding by column is currently supported")
    else (w, ok)
  | .rowArraySize =>
    let val := toULen value
    if 1000 < val then
      (w, fails "IM001" "Array size value cannot be set to a value other than 1000")
    else
      (w.updateStmt stmt fun s =>
        { s with rowArraySize := val, ard := { s.ard with arraySize := val } }, ok)
  | .rowBindType =>
    let rowBindType := toULen value
    if rowBindType ≠ 0 then (w, fails "HYC00" "Only binding by column is currently supported")
    else (w.updateStmt stmt fun s => { s with ard := { s.ard with bindType := rowBindType } }, ok)
  | .rowOperationPtr =>
    (w.updateStmt stmt fun s => { s with ard := { s.ard with arrayStatusPtr := value } }, ok)
  | .rowStatusPtr =>
    (w.updateStmt stmt fun s =>
      { s with rowStatuses := value, ird := { s.ird with arrayStatusPtr := value } }, ok)
  | .rowsFetchedPtr =>
    (w.updateStmt stmt fun s =>
      { s with rowsFetched := value, ird := { s.ird with rowsProcessedPtr := value } }, ok)
  | .cursorScrollable | .cursorSensitivity | .enableAutoIpd | .other =>
    (w, fails "HYC00" "Specified attribute is not supported.")

/-- An `SQLULEN` is stored, but an `SQLINTEGER` for the size of the row array; the length is stored
for that and for the pointers, `SQL_IS_POINTER`. -/
def getStmt (w : AttrSystem) (stmt : Nat) (attr : StatementAttr) (buf : Bool) : AttrAnswer :=
  let put (v : Int) : AttrAnswer := { result := .success, stored := some (8, v) }
  let putPtr (v : Int) : AttrAnswer :=
    { result := .success, stored := some (8, v), valueLen := some (-4) }
  if buf = false then fails "HY000" "Data buffer is NULL."
  else
    match attr with
    | .concurrency => put 1
    | .cursorScrollable => put 0
    | .cursorSensitivity => put 1
    | .cursorType => put 0
    | .enableAutoIpd => put 0
    | .metadataId => put (if (w.conns (w.connOf stmt)).metadataID then 1 else 0)
    | .retrieveData => put 1
    | .rowArraySize =>
      { result := .success, stored := some (4, toInteger (w.stmts stmt).rowArraySize)
        valueLen := some (-6) }
    | .rowBindType => put 0
    | .rowsFetchedPtr => putPtr (w.stmts stmt).rowsFetched
    | .rowStatusPtr => putPtr (w.stmts stmt).rowStatuses
    | .paramBindType => put 0
    | .rowOperationPtr | .other => fails "HYC00" "Specified attribute is not supported."

def step (w : AttrSystem) : AttrCall → AttrSystem × AttrAnswer
  | .set (.env attr) value => w.setEnv attr value
  | .set (.conn conn attr) value => w.setConn conn attr value
  | .set (.stmt stmt attr) value => w.setStmt stmt attr value
  | .get (.env attr) buf => (w, w.getEnv attr buf)
  | .get (.conn conn attr) buf => (w, w.getConn conn attr buf)
  | .get (.stmt stmt attr) buf => (w, w.getStmt stmt attr buf)

end AttrSystem

/-! ## What the attributes are for -/

/-- Where a value that is set is kept. -/
inductive AttrCell where
  | odbcVersion | outputNts | logLevel
  | autocommit (conn : Nat)
  | metadataId (conn : Nat)
  | own (stmt : Nat) (attr : StatementAttr)
  deriving DecidableEq, Repr

/-- The only value of a statement attribute that has no other. -/
def StatementAttr.only : StatementAttr → Option Int
  | .concurrency | .retrieveData => some 1
  | .cursorType | .paramBindType | .rowBindType => some 0
  | _ => none

namespace AttrOf

/-- The cell of an attribute that can be set. -/
def cell (connOf : Nat → Nat) : AttrOf → Option AttrCell
  | .env .odbcVersion => some .odbcVersion
  | .env .outputNts => some .outputNts
  | .conn c .autocommit => some (.autocommit c)
  | .conn c .metadataId => some (.metadataId c)
  | .conn _ .trinologDebug => some .logLevel
  | .stmt s .metadataId => some (.metadataId (connOf s))
  | .stmt _ .cursorScrollable | .stmt _ .cursorSensitivity | .stmt _ .enableAutoIpd
  | .stmt _ .other => none
  | .stmt s attr => some (.own s attr)
  | _ => none

def oneOf (values : List Int) (v : Int) : Option Int := if v ∈ values then some v else none

/-- The value that is kept, when the one that is given is accepted. -/
def accepts (value : Int) : AttrOf → Option Int
  | .env .odbcVersion => oneOf [2, 3] (toInteger value)
  | .env .outputNts => oneOf [1] (toInteger value)
  | .conn _ .autocommit | .conn _ .metadataId => oneOf [0, 1] (toUInteger value)
  | .conn _ .trinologDebug => some (toInteger value)
  | .stmt _ .metadataId => oneOf [0, 1] (toULen value)
  | .stmt _ .rowArraySize => if toULen value ≤ 1000 then some (toULen value) else none
  | .stmt _ .rowOperationPtr | .stmt _ .rowStatusPtr | .stmt _ .rowsFetchedPtr => some value
  | .stmt _ attr => attr.only.bind fun v => oneOf [v] (toULen value)
  | _ => none

/-- The answer to a call that gets a value. -/
def format (v : Int) : AttrOf → AttrAnswer
  | .env _ => { result := .success, stored := some (4, v), valueLen := some 4 }
  | .conn _ .trinologDebug =>
    { result := .success, stored := some (4, toUInteger v), valueLen := some (-6) }
  | .conn .. => { result := .success, stored := some (4, v), valueLen := some (-6) }
  | .stmt _ .rowArraySize => { result := .success, stored := some (4, v), valueLen := some (-6) }
  | .stmt _ .rowStatusPtr | .stmt _ .rowsFetchedPtr =>
    { result := .success, stored := some (8, v), valueLen := some (-4) }
  | .stmt .. => { result := .success, stored := some (8, v) }

/-- The address of the row operations is not given back. -/
def gettable : AttrOf → Bool
  | .stmt _ .rowOperationPtr => false
  | _ => true

end AttrOf

/-- The cell that a call writes, and the value. -/
def AttrCall.written (connOf : Nat → Nat) : AttrCall → Option (AttrCell × Int)
  | .set attr value => (attr.cell connOf).bind fun k => (attr.accepts value).map fun v => (k, v)
  | .get _ _ => none

/-- The values at the start. -/
def AttrCell.initial (level : Int) : AttrCell → Int
  | .odbcVersion => 3
  | .outputNts => 1
  | .logLevel => level
  | .autocommit _ => 1
  | .metadataId _ => 0
  | .own _ .rowArraySize => 1
  | .own _ attr => attr.only.getD 0

/-- The headers of the descriptors agree with the statement. -/
structure StatementAttrs.Agree (s : StatementAttrs) : Prop where
  size : s.ard.arraySize = s.rowArraySize
  bindType : s.ard.bindType = 0
  statuses : s.ird.arrayStatusPtr = s.rowStatuses
  fetched : s.ird.rowsProcessedPtr = s.rowsFetched
  range : 0 ≤ s.rowArraySize ∧ s.rowArraySize ≤ 1000

namespace AttrSystem

/-- New objects, with what is in the memory of the headers. -/
def start (connOf : Nat → Nat) (level : Int) (header : Nat → DescriptorHeader) : AttrSystem :=
  { connOf, logLevel := level
    stmts := fun stmt =>
      { ard := (header stmt).initAppHead true, ird := (header stmt).initImpHead } }

/-- What is kept in the cells. -/
def kept (w : AttrSystem) : AttrCell → Int
  | .odbcVersion => w.odbcVersion
  | .outputNts => w.odbcNts
  | .logLevel => w.logLevel
  | .autocommit conn => if (w.conns conn).autoCommit then 1 else 0
  | .metadataId conn => if (w.conns conn).metadataID then 1 else 0
  | .own stmt .rowArraySize => (w.stmts stmt).rowArraySize
  | .own stmt .rowOperationPtr => (w.stmts stmt).ard.arrayStatusPtr
  | .own stmt .rowStatusPtr => (w.stmts stmt).rowStatuses
  | .own stmt .rowsFetchedPtr => (w.stmts stmt).rowsFetched
  | .own _ attr => attr.only.getD 0

structure Sound (connOf : Nat → Nat) (w : AttrSystem) : Prop where
  connOf_eq : w.connOf = connOf
  nts : w.odbcNts = 1
  stmts : ∀ stmt, StatementAttrs.Agree (w.stmts stmt)

/-! ## One call -/

section Calls

variable {connOf : Nat → Nat} {w : AttrSystem}

theorem Sound.updateStmt (h : w.Sound connOf) (stmt : Nat) {f : StatementAttrs → StatementAttrs}
    (hf : StatementAttrs.Agree (f (w.stmts stmt))) : (w.updateStmt stmt f).Sound connOf := by
  refine ⟨h.connOf_eq, h.nts, fun s => ?_⟩
  change StatementAttrs.Agree (Function.update w.stmts stmt (f (w.stmts stmt)) s)
  by_cases hs : s = stmt
  · rw [hs, Function.update_self]
    exact hf
  · rw [Function.update_of_ne hs]
    exact h.stmts s

theorem toULen_nonneg (v : Int) : 0 ≤ toULen v := Int.emod_nonneg v (by decide)

theorem toULen_of_le {v : Int} (h₀ : 0 ≤ v) (h₁ : v ≤ 1000) : toULen v = v :=
  Int.emod_eq_of_lt h₀ (by omega)

theorem toInteger_of_le {v : Int} (h₀ : 0 ≤ v) (h₁ : v ≤ 1000) : toInteger v = v := by
  rw [toInteger, Int.bmod_def, Int.emod_eq_of_lt h₀ (by omega)]
  exact if_pos (by omega)

theorem Sound.step (h : w.Sound connOf) (call : AttrCall) : (w.step call).1.Sound connOf := by
  cases call with
  | get attr buf => cases attr <;> exact h
  | set attr value =>
    cases attr with
    | env attr =>
      cases attr <;> simp only [AttrSystem.step, setEnv]
      · split
        · exact ⟨h.connOf_eq, h.nts, h.stmts⟩
        · exact h
      · split <;> exact h
      · exact h
    | conn conn attr =>
      cases attr <;> simp only [AttrSystem.step, setConn]
      case autocommit | metadataId =>
        split
        · exact h
        · exact ⟨h.connOf_eq, h.nts, h.stmts⟩
      case trinologDebug => exact ⟨h.connOf_eq, h.nts, h.stmts⟩
      all_goals exact h
    | stmt stmt attr =>
      obtain ⟨hsize, hbind, hstatuses, hfetched, hrange⟩ := h.stmts stmt
      cases attr <;> simp only [AttrSystem.step, setStmt]
      case metadataId =>
        split
        · exact h
        · simp only [setConn]
          split
          · exact h
          · exact ⟨h.connOf_eq, h.nts, h.stmts⟩
      case rowArraySize =>
        split
        · exact h
        · rename_i hle
          dsimp only
          refine h.updateStmt stmt ?_
          exact ⟨rfl, hbind, hstatuses, hfetched, toULen_nonneg value, not_lt.mp hle⟩
      case rowBindType =>
        split
        · exact h
        · rename_i hzero
          dsimp only
          refine h.updateStmt stmt ?_
          exact ⟨hsize, not_not.mp hzero, hstatuses, hfetched, hrange⟩
      case rowOperationPtr =>
        refine h.updateStmt stmt ?_
        exact ⟨hsize, hbind, hstatuses, hfetched, hrange⟩
      case rowStatusPtr =>
        refine h.updateStmt stmt ?_
        exact ⟨hsize, hbind, rfl, hfetched, hrange⟩
      case rowsFetchedPtr =>
        refine h.updateStmt stmt ?_
        exact ⟨hsize, hbind, hstatuses, rfl, hrange⟩
      case concurrency | cursorType | retrieveData | paramBindType => split <;> exact h
      all_goals exact h

theorem kept_updateStmt {stmt : Nat} {f : StatementAttrs → StatementAttrs} {attr : StatementAttr}
    {v : Int} (hown : (w.updateStmt stmt f).kept (.own stmt attr) = v)
    (hother : ∀ a, a ≠ attr → (w.updateStmt stmt f).kept (.own stmt a) = w.kept (.own stmt a)) :
    (w.updateStmt stmt f).kept = Function.update w.kept (.own stmt attr) v := by
  funext k
  by_cases hk : k = .own stmt attr
  · rw [hk, Function.update_self, hown]
  · rw [Function.update_of_ne hk]
    cases k with
    | own s a =>
      by_cases hs : s = stmt
      · subst hs
        exact hother a fun ha => hk (by rw [ha])
      · have hsame : (w.updateStmt stmt f).stmts s = w.stmts s := Function.update_of_ne hs ..
        cases a <;> simp only [kept, hsame]
    | odbcVersion | outputNts | logLevel | autocommit | metadataId => rfl

theorem kept_metadataId (conn : Nat) {id : Int} (hid : id = 0 ∨ id = 1) :
    (w.updateConn conn fun c => { c with metadataID := id ≠ 0 }).kept =
      Function.update w.kept (.metadataId conn) id := by
  funext k
  by_cases hk : k = .metadataId conn
  · rw [hk, Function.update_self]
    rcases hid with rfl | rfl <;> simp [kept, updateConn]
  · rw [Function.update_of_ne hk]
    cases k with
    | autocommit c | metadataId c =>
      by_cases hc : c = conn
      · subst hc
        first
        | exact absurd rfl hk
        | simp [kept, updateConn]
      · simp [kept, updateConn, hc]
    | own s a => cases a <;> rfl
    | odbcVersion | outputNts | logLevel => rfl

theorem kept_autocommit (conn : Nat) {mode : Int} (hmode : mode = 0 ∨ mode = 1) :
    (w.updateConn conn fun c => { c with autoCommit := mode = 1 }).kept =
      Function.update w.kept (.autocommit conn) mode := by
  funext k
  by_cases hk : k = .autocommit conn
  · rw [hk, Function.update_self]
    rcases hmode with rfl | rfl <;> simp [kept, updateConn]
  · rw [Function.update_of_ne hk]
    cases k with
    | autocommit c | metadataId c =>
      by_cases hc : c = conn
      · subst hc
        first
        | exact absurd rfl hk
        | simp [kept, updateConn]
      · simp [kept, updateConn, hc]
    | own s a => cases a <;> rfl
    | odbcVersion | outputNts | logLevel => rfl

/-- A call changes the cell it writes, and no other. -/
def keptAfter (connOf : Nat → Nat) (w : AttrSystem) (call : AttrCall) : AttrCell → Int :=
  match call.written connOf with
  | some (k, v) => Function.update w.kept k v
  | none => w.kept

/-- A value that is the only one is kept already. -/
theorem kept_only {stmt : Nat} {attr : StatementAttr} {v : Int} (honly : attr.only = some v)
    (value : Int) :
    keptAfter connOf w (.set (.stmt stmt attr) value) = w.kept := by
  have hkept : w.kept (.own stmt attr) = v := by
    cases attr <;> cases honly <;> rfl
  have hcell : (AttrOf.stmt stmt attr).cell connOf = some (.own stmt attr) := by
    cases attr <;> cases honly <;> rfl
  have haccepts : (AttrOf.stmt stmt attr).accepts value = AttrOf.oneOf [v] (toULen value) := by
    cases attr <;> cases honly <;> rfl
  simp only [keptAfter, AttrCall.written, hcell, haccepts, AttrOf.oneOf, Option.bind_some]
  by_cases hvalue : toULen value = v
  · rw [if_pos (by simpa using hvalue), hvalue, ← hkept]
    exact Function.update_eq_self _ _
  · rw [if_neg (by simpa using hvalue)]
    rfl

theorem kept_setStmt (h : w.Sound connOf) (stmt : Nat) (attr : StatementAttr) (value : Int) :
    (w.setStmt stmt attr value).1.kept = keptAfter connOf w (.set (.stmt stmt attr) value) := by
  cases attr
  case concurrency | cursorType | retrieveData | paramBindType =>
    rw [kept_only rfl value]
    simp only [setStmt]
    split <;> rfl
  case rowBindType =>
    rw [kept_only rfl value]
    simp only [setStmt]
    split
    · rfl
    · funext k
      cases k with
      | own s a =>
        by_cases hs : s = stmt
        · subst hs
          cases a <;> simp [kept, updateStmt]
        · cases a <;> simp [kept, updateStmt, hs]
      | _ => rfl
  case metadataId =>
    simp only [setStmt, keptAfter, AttrCall.written, AttrOf.cell, AttrOf.accepts, AttrOf.oneOf,
      Option.bind_some]
    by_cases hid : toULen value = 0 ∨ toULen value = 1
    · have hsame : toUInteger (toULen value) = toULen value := by
        rcases hid with hid | hid <;> rw [hid] <;> rfl
      rw [if_neg (by omega), if_pos (by simpa using hid)]
      simp only [setConn, hsame]
      rw [if_neg (by omega), h.connOf_eq]
      exact kept_metadataId _ hid
    · rw [if_pos (by omega), if_neg (by simpa using hid)]
      rfl
  case rowArraySize =>
    simp only [setStmt, keptAfter, AttrCall.written, AttrOf.cell, AttrOf.accepts, Option.bind_some]
    by_cases hle : toULen value ≤ 1000
    · rw [if_neg (not_lt.mpr hle), if_pos hle]
      refine kept_updateStmt (by simp [kept, updateStmt]) fun a ha => ?_
      cases a <;> first | exact absurd rfl ha | simp [kept, updateStmt]
    · rw [if_pos (not_le.mp hle), if_neg hle]
      rfl
  case rowOperationPtr | rowStatusPtr | rowsFetchedPtr =>
    refine kept_updateStmt (by simp [kept, updateStmt]) fun a ha => ?_
    cases a <;> first | exact absurd rfl ha | simp [kept, updateStmt]
  all_goals rfl

theorem kept_step (h : w.Sound connOf) (call : AttrCall) :
    (w.step call).1.kept = keptAfter connOf w call := by
  cases call with
  | get attr buf => cases attr <;> rfl
  | set attr value =>
    cases attr with
    | env attr =>
      cases attr
      case odbcVersion =>
        simp only [step, setEnv, keptAfter, AttrCall.written, AttrOf.cell, AttrOf.accepts,
          AttrOf.oneOf, Option.bind_some]
        by_cases hversion : toInteger value = 2 ∨ toInteger value = 3
        · rw [if_pos hversion, if_pos (by simpa using hversion)]
          funext k
          cases k with
          | own s a => cases a <;> rfl
          | _ => rfl
        · rw [if_neg hversion, if_neg (by simpa using hversion)]
          rfl
      case outputNts =>
        have hkept : w.kept = Function.update w.kept .outputNts 1 := by
          rw [← h.nts]
          exact (Function.update_eq_self AttrCell.outputNts w.kept).symm
        simp only [step, setEnv, keptAfter, AttrCall.written, AttrOf.cell, AttrOf.accepts,
          AttrOf.oneOf, Option.bind_some, h.nts]
        by_cases hnts : toInteger value = 1
        · rw [if_neg (not_not.mpr hnts), if_pos (by simpa using hnts), hnts]
          exact hkept
        · rw [if_pos hnts, if_neg (by simpa using hnts)]
          rfl
      case other => rfl
    | conn conn attr =>
      cases attr
      case autocommit =>
        simp only [step, setConn, keptAfter, AttrCall.written, AttrOf.cell, AttrOf.accepts,
          AttrOf.oneOf, Option.bind_some]
        by_cases hmode : toUInteger value = 0 ∨ toUInteger value = 1
        · rw [if_neg (by omega), if_pos (by simpa using hmode)]
          exact kept_autocommit conn hmode
        · rw [if_pos (by omega), if_neg (by simpa using hmode)]
          rfl
      case metadataId =>
        simp only [step, setConn, keptAfter, AttrCall.written, AttrOf.cell, AttrOf.accepts,
          AttrOf.oneOf, Option.bind_some]
        by_cases hid : toUInteger value = 0 ∨ toUInteger value = 1
        · rw [if_neg (by omega), if_pos (by simpa using hid)]
          exact kept_metadataId conn hid
        · rw [if_pos (by omega), if_neg (by simpa using hid)]
          rfl
      case trinologDebug =>
        funext k
        cases k with
        | own s a => cases a <;> rfl
        | _ => rfl
      all_goals rfl
    | stmt stmt attr => exact kept_setStmt h stmt attr value

/-- A call that writes a cell succeeds; one that writes none changes nothing and adds a record. -/
theorem set_answer (h : w.Sound connOf) (attr : AttrOf) (value : Int) :
    match (AttrCall.set attr value).written connOf with
    | some _ => (w.step (.set attr value)).2 = ok
    | none => (w.step (.set attr value)).1 = w ∧
        (w.step (.set attr value)).2.result ≠ .success ∧
        (w.step (.set attr value)).2.records.length = 1 := by
  simp only [AttrCall.written]
  cases attr with
  | env attr =>
    cases attr
    case odbcVersion =>
      simp only [AttrOf.cell, AttrOf.accepts, AttrOf.oneOf, Option.bind_some, step, setEnv]
      by_cases hversion : toInteger value = 2 ∨ toInteger value = 3
      · rw [if_pos (by simpa using hversion), if_pos hversion]
        rfl
      · rw [if_neg (by simpa using hversion), if_neg hversion]
        exact ⟨rfl, nofun, rfl⟩
    case outputNts =>
      simp only [AttrOf.cell, AttrOf.accepts, AttrOf.oneOf, Option.bind_some, step, setEnv, h.nts]
      by_cases hnts : toInteger value = 1
      · rw [if_pos (by simpa using hnts), if_neg (not_not.mpr hnts)]
        rfl
      · rw [if_neg (by simpa using hnts), if_pos hnts]
        exact ⟨rfl, nofun, rfl⟩
    case other => exact ⟨rfl, nofun, rfl⟩
  | conn conn attr =>
    cases attr
    case autocommit | metadataId =>
      simp only [AttrOf.cell, AttrOf.accepts, AttrOf.oneOf, Option.bind_some, step, setConn]
      by_cases hbit : toUInteger value = 0 ∨ toUInteger value = 1
      · rw [if_pos (by simpa using hbit), if_neg (by omega)]
        rfl
      · rw [if_neg (by simpa using hbit), if_pos (by omega)]
        exact ⟨rfl, nofun, rfl⟩
    case trinologDebug => rfl
    all_goals exact ⟨rfl, nofun, rfl⟩
  | stmt stmt attr =>
    cases attr
    case concurrency | retrieveData =>
      simp only [AttrOf.cell, AttrOf.accepts, AttrOf.oneOf, StatementAttr.only, Option.bind_some,
        step, setStmt]
      by_cases hvalue : toULen value = 1
      · rw [if_pos (by simpa using hvalue), if_neg (not_not.mpr hvalue)]
        rfl
      · rw [if_neg (by simpa using hvalue), if_pos hvalue]
        exact ⟨rfl, nofun, rfl⟩
    case cursorType | paramBindType | rowBindType =>
      simp only [AttrOf.cell, AttrOf.accepts, AttrOf.oneOf, StatementAttr.only, Option.bind_some,
        step, setStmt]
      by_cases hvalue : toULen value = 0
      · rw [if_pos (by simpa using hvalue), if_neg (not_not.mpr hvalue)]
        rfl
      · rw [if_neg (by simpa using hvalue), if_pos hvalue]
        exact ⟨rfl, nofun, rfl⟩
    case metadataId =>
      simp only [AttrOf.cell, AttrOf.accepts, AttrOf.oneOf, Option.bind_some, step, setStmt]
      by_cases hbit : toULen value = 0 ∨ toULen value = 1
      · rw [if_pos (by simpa using hbit), if_neg (by omega)]
        rfl
      · rw [if_neg (by simpa using hbit), if_pos (by omega)]
        exact ⟨rfl, nofun, rfl⟩
    case rowArraySize =>
      simp only [AttrOf.cell, AttrOf.accepts, Option.bind_some, step, setStmt]
      by_cases hle : toULen value ≤ 1000
      · rw [if_pos hle, if_neg (not_lt.mpr hle)]
        rfl
      · rw [if_neg hle, if_pos (not_le.mp hle)]
        exact ⟨rfl, nofun, rfl⟩
    case rowOperationPtr | rowStatusPtr | rowsFetchedPtr => rfl
    all_goals exact ⟨rfl, nofun, rfl⟩

theorem get_answer (h : w.Sound connOf) {attr : AttrOf} {k : AttrCell}
    (hcell : attr.cell connOf = some k) (hget : attr.gettable = true) :
    (w.step (.get attr true)).2 = attr.format (w.kept k) := by
  cases attr with
  | env attr => cases attr <;> cases hcell <;> rfl
  | conn conn attr => cases attr <;> cases hcell <;> rfl
  | stmt stmt attr =>
    cases attr
    case metadataId =>
      cases hcell
      rw [← h.connOf_eq]
      rfl
    case rowArraySize =>
      cases hcell
      have hrange := (h.stmts stmt).range
      simp only [step, getStmt, AttrOf.format, kept, toInteger_of_le hrange.1 hrange.2,
        Bool.true_eq_false, if_false]
    case rowOperationPtr => cases hget
    all_goals cases hcell <;> rfl

end Calls

/-! ## Runs -/

section Runs

variable (connOf : Nat → Nat) (level : Int) (header : Nat → DescriptorHeader)

theorem start_sound : (start connOf level header).Sound connOf :=
  ⟨rfl, rfl, fun _ => ⟨rfl, rfl, rfl, rfl, (by decide : (0 : Int) ≤ 1 ∧ (1 : Int) ≤ 1000)⟩⟩

theorem kept_start : (start connOf level header).kept = AttrCell.initial level := by
  funext k
  cases k with
  | own s a => cases a <;> rfl
  | _ => rfl

theorem after_sound (calls : List AttrCall) :
    (after step (start connOf level header) calls).Sound connOf :=
  Machine.after_invariant (fun _ call h => h.step call) (start_sound connOf level header) calls

theorem kept_after (calls : List AttrCall) :
    (after step (start connOf level header) calls).kept =
      lastWritten (AttrCall.written connOf) (AttrCell.initial level) calls := by
  induction calls using List.reverseRecOn with
  | nil => exact kept_start connOf level header
  | append_singleton calls call ih =>
    rw [Machine.after_append, Machine.lastWritten_snoc, ← ih, Machine.after_cons,
      Machine.after_nil, kept_step (after_sound connOf level header calls) call, keptAfter]
    cases AttrCall.written connOf call <;> rfl

/-- After any calls, on whatever handles, an attribute is got as it was last accepted; a value is
accepted or the call changes nothing; and the headers of the descriptors have the values that were
last accepted. -/
theorem attributes_last_set (calls : List AttrCall) :
    let w := after step (start connOf level header) calls
    let last := lastWritten (AttrCall.written connOf) (AttrCell.initial level) calls
    (∀ attr k, attr.cell connOf = some k → attr.gettable = true →
        (w.step (.get attr true)).2 = attr.format (last k)) ∧
      (∀ attr value,
        match (AttrCall.set attr value).written connOf with
        | some _ => (w.step (.set attr value)).2 = ok
        | none => (w.step (.set attr value)).1 = w ∧
            (w.step (.set attr value)).2.result ≠ .success ∧
            (w.step (.set attr value)).2.records.length = 1) ∧
      ∀ stmt, (w.stmts stmt).ard.arraySize = last (.own stmt .rowArraySize) ∧
        (w.stmts stmt).ard.arrayStatusPtr = last (.own stmt .rowOperationPtr) ∧
        (w.stmts stmt).ird.arrayStatusPtr = last (.own stmt .rowStatusPtr) ∧
        (w.stmts stmt).ird.rowsProcessedPtr = last (.own stmt .rowsFetchedPtr) := by
  intro w last
  have hsound := after_sound connOf level header calls
  have hkept : w.kept = last := kept_after connOf level header calls
  refine ⟨fun attr k hcell hget => ?_, fun attr value => set_answer hsound attr value,
    fun stmt => ?_⟩
  · rw [← hkept]
    exact get_answer hsound hcell hget
  · obtain ⟨hsize, -, hstatuses, hfetched, -⟩ := hsound.stmts stmt
    rw [← hkept]
    exact ⟨hsize, rfl, hstatuses, hfetched⟩

end Runs

end AttrSystem

end TrinoOdbc
