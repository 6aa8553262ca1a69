import TrinoOdbc.DsnConfiguration
import TrinoOdbc.Lts

/-!
# TrinoOdbc.Connection

`Connection`: `Establish`, `Release` and `GetAttribute`.

* `attempted` — the configuration that a connection string leads to, attribute by attribute.
* `establish_lawful_iff` — the sequences of calls in which `Establish` depends on its argument only
  and has no effect when it fails.
* `ConnState` — the machine with two states that a connection is to be, and `machine_iff`.
-/

namespace TrinoOdbc

/-- The data sources, and what the variables of their reader happen to hold. -/
structure DsnStore where
  before : Attribute → Int
  profiles : String → Profile

/-- `queryClient` says whether there is one. -/
structure Connection where
  config : Configuration := .empty
  queryClient : Bool := false

/-- What a call comes to: the return code, the status records, and what it stores in the buffer. -/
structure CallResult where
  result : SqlResult
  records : List DiagnosticRecord := []
  value : Option Nat := none

inductive ConnectionAttr where
  | connectionDead | connectionTimeout

/-- `getDead` is `GetAttribute` with `SQL_ATTR_CONNECTION_DEAD`, with or without a buffer. -/
inductive ConnectionCall where
  | establish (store : DsnStore) (connectStr : List Char)
  | establishConfig (cfg : Configuration)
  | release
  | getDead (buf : Bool)

def alreadyConnectedRecord : DiagnosticRecord :=
  { sqlState := .s08002AlreadyConnected, message := "Already connected." }

def notOpenRecord : DiagnosticRecord :=
  { sqlState := .s08003NotConnected, message := "Connection is not open." }

def sqlCdFalse : Nat := 0

def sqlCdTrue : Nat := 1

def Configuration.validate (H : Host) (cfg : Configuration) : Option DiagnosticRecord :=
  if cfg.get H .authType = AuthType.password ∧ (cfg.get H .uid = "" ∨ cfg.get H .pwd = "") then
    some
      { sqlState := .s01S00InvalidConnectionStringAttribute
        message := "The following is required to connect:\nAUTH is \"PASSWORD\" and UID and PWD" }
  else none

namespace Connection

variable (H : Host)

/-- `InternalEstablish` of a configuration, after the given status records. -/
def internalEstablishConfig (c : Connection) (records : List DiagnosticRecord)
    (cfg : Configuration) : Connection × CallResult :=
  let c : Connection := { c with config := cfg }
  if c.queryClient then (c, { result := .error, records := records ++ [alreadyConnectedRecord] })
  else
    match c.config.validate H with
    | some err => (c, { result := .error, records := records ++ [err] })
    | none =>
      (c, { result := if 0 < records.length then .successWithInfo else .success, records })

/-- `InternalEstablish` of a connection string. The parser writes to the configuration of the
connection. -/
def internalEstablish (c : Connection) (store : DsnStore) (connectStr : List Char) :
    Connection × CallResult :=
  let p := (⟨c.config, some []⟩ : ConnectionStringParser).internalEstablish H store.before
    store.profiles connectStr
  internalEstablishConfig H c (p.diag.getD []) p.cfg

def close (c : Connection) : Connection :=
  if c.queryClient then { c with queryClient := false } else c

def internalRelease (c : Connection) : Connection × CallResult :=
  if c.queryClient = false then
    (c.close, { result := .successWithInfo, records := [notOpenRecord] })
  else (c.close, { result := .success })

/-- What `InternalGetAttribute` stores in the buffer, one store after the other. The case of
`SQL_ATTR_CONNECTION_DEAD` has no `break`. -/
def attributeStores (c : Connection) : ConnectionAttr → List Nat
  | .connectionDead => [if c.queryClient then sqlCdFalse else sqlCdTrue] ++ [0]
  | .connectionTimeout => [0]

def internalGetAttribute (c : Connection) (attr : ConnectionAttr) (buf : Bool) : CallResult :=
  if buf = false then
    { result := .error
      records :=
        [{ sqlState := .shy009InvalidUseOfNullPointer, message := "Data buffer is null." }] }
  else { result := .success, value := (c.attributeStores attr).getLast? }

def call (c : Connection) : ConnectionCall → Connection × CallResult
  | .establish store connectStr => c.internalEstablish H store connectStr
  | .establishConfig cfg => c.internalEstablishConfig H [] cfg
  | .release => c.internalRelease
  | .getDead buf => (c, c.internalGetAttribute .connectionDead buf)

def apply (c : Connection) (k : ConnectionCall) : Connection := (c.call H k).1

end Connection

/-! ## The configuration of an attempt -/

namespace Configuration

variable (H : Host) (store : DsnStore)

/-- What the string gives, and for the rest what was there before. -/
def withGiven (old : Configuration) (connectStr : List Char) : Configuration := fun a =>
  (given H connectStr a).or (old a)

/-- What is stored for an attribute under a data source, if one is named. -/
def storedUnder (dsn : Option String) (a : Attribute) : Option a.Value :=
  dsn.bind fun d => dsnValue H store.before (store.profiles (cStr d)) a

/-- What an attempt offers for an attribute: the given value, or for an attribute that is not set
then, the stored one. An empty profile name counts as not set. -/
def offered (old : Configuration) (connectStr : List Char) : Configuration := fun a =>
  let parsed := old.withGiven H connectStr
  if parsed.isSet a then given H connectStr a
  else (storedUnder H store (parsed .dsn) a).or (given H connectStr a)

def attempted (old : Configuration) (connectStr : List Char) : Configuration := fun a =>
  (old.offered H store connectStr a).or (old a)

theorem storedUnder_dsn (dsn : Option String) : storedUnder H store dsn .dsn = none := by
  cases dsn with
  | none => rfl
  | some d => rfl

theorem empty_withGiven (connectStr : List Char) :
    empty.withGiven H connectStr = given H connectStr := by
  funext a
  exact Option.or_none

theorem isSet_dsn (cfg : Configuration) : cfg.isSet .dsn = (cfg .dsn).isSome := rfl

theorem attempted_eq (old : Configuration) (connectStr : List Char) (a : Attribute) :
    old.attempted H store connectStr a =
      if (old.withGiven H connectStr).isSet a then old.withGiven H connectStr a
      else
        (storedUnder H store (old.withGiven H connectStr .dsn) a).or
          (old.withGiven H connectStr a) := by
  simp only [attempted, offered]
  split
  · rfl
  · exact Option.or_assoc

end Configuration

/-- The parser and the reader of the data source come to the attempted configuration. -/
theorem ConnectionStringParser.internalEstablish_attempted (H : Host) (store : DsnStore)
    (p : ConnectionStringParser) (connectStr : List Char) :
    (p.internalEstablish H store.before store.profiles connectStr).cfg =
      p.cfg.attempted H store connectStr := by
  have hparsed : (p.parseConnectionString H connectStr ';').cfg = p.cfg.withGiven H connectStr := by
    funext a
    rw [parseConnectionString_fold, foldr_handleSegment_get]
    rfl
  unfold internalEstablish
  simp only [hparsed]
  funext a
  cases hdsn : p.cfg.withGiven H connectStr .dsn with
  | none =>
    rw [Configuration.attempted_eq, hdsn]
    simp [Configuration.storedUnder, hparsed]
  | some dsn =>
    refine (Configuration.readDsnConfiguration_get a).trans ?_
    rw [Configuration.attempted_eq]
    simp only [hdsn, Configuration.storedUnder, Option.bind_some]
    cases hset : (p.cfg.withGiven H connectStr).isSet a with
    | false => simp
    | true => simp

namespace Connection

variable {H : Host} {c : Connection} {records : List DiagnosticRecord} {cfg : Configuration}

theorem internalEstablishConfig_config :
    (c.internalEstablishConfig H records cfg).1.config = cfg := by
  unfold internalEstablishConfig
  simp only
  split
  · rfl
  · split <;> rfl

theorem internalEstablishConfig_queryClient :
    (c.internalEstablishConfig H records cfg).1.queryClient = c.queryClient := by
  unfold internalEstablishConfig
  simp only
  split
  · rfl
  · split <;> rfl

theorem internalEstablishConfig_error_iff :
    (c.internalEstablishConfig H records cfg).2.result = .error ↔
      c.queryClient = true ∨ cfg.validate H ≠ none := by
  unfold internalEstablishConfig
  simp only
  split
  · rename_i hopen
    exact iff_of_true rfl (.inl hopen)
  · rename_i hclosed
    cases hvalid : cfg.validate H with
    | none => simp [hclosed, ite_eq_iff]
    | some err => simp

theorem internalEstablishConfig_result
    (h : (c.internalEstablishConfig H records cfg).2.result ≠ .error) :
    (c.internalEstablishConfig H records cfg).2.result = .success ∨
      (c.internalEstablishConfig H records cfg).2.result = .successWithInfo := by
  unfold internalEstablishConfig at h ⊢
  simp only at h ⊢
  split at h
  · exact absurd rfl h
  · rename_i hclosed
    rw [if_neg hclosed]
    split at h
    · exact absurd rfl h
    · split
      · exact .inr rfl
      · exact .inl rfl

theorem internalEstablish_config (store : DsnStore) (connectStr : List Char) :
    (c.internalEstablish H store connectStr).1.config =
      c.config.attempted H store connectStr := by
  unfold internalEstablish
  simp only [internalEstablishConfig_config]
  exact ConnectionStringParser.internalEstablish_attempted H store ⟨c.config, some []⟩ connectStr

theorem internalEstablish_error_iff (store : DsnStore) (connectStr : List Char) :
    (c.internalEstablish H store connectStr).2.result = .error ↔
      c.queryClient = true ∨ (c.config.attempted H store connectStr).validate H ≠ none := by
  unfold internalEstablish
  simp only [internalEstablishConfig_error_iff,
    ConnectionStringParser.internalEstablish_attempted]

end Connection

/-! ## Establish is atomic -/

namespace Connection

variable (H : Host)

/-- `Establish` leaves the configuration as it was when it fails; when it succeeds, it comes to the
configuration that a new connection comes to. -/
def EstablishLaw (c : Connection) (k : ConnectionCall) : Prop :=
  match k with
  | .establish store connectStr =>
    ((c.call H k).2.result = .error → (c.call H k).1.config = c.config) ∧
      ((c.call H k).2.result ≠ .error →
        (c.call H k).1.config = (internalEstablish H {} store connectStr).1.config)
  | .establishConfig cfg =>
    ((c.call H k).2.result = .error → (c.call H k).1.config = c.config) ∧
      ((c.call H k).2.result ≠ .error → (c.call H k).1.config = cfg)
  | .release | .getDead _ => (c.call H k).1.config = c.config

/-- The attempts to which nothing is left over from before: an attribute that the string does not
give is unset, or has the value that is stored under the data source that the string names. An
empty profile name counts as unset to the reader of data sources, so that it is enough for it that
a name is stored. -/
def NothingLeft (store : DsnStore) (old : Configuration) (connectStr : List Char) : Prop :=
  ∀ a, given H connectStr a = none →
    let stored := Configuration.storedUnder H store (given H connectStr .dsn) a
    if old.isSet a then old a = stored else old a = none ∨ stored ≠ none

/-- The attempts that offer nothing but what is there. -/
def NothingNew (store : DsnStore) (old : Configuration) (connectStr : List Char) : Prop :=
  ∀ a v, old.offered H store connectStr a = some v → old a = some v

/-- An attempt fails on an open connection, and with a configuration that does not validate. -/
def Fails (c : Connection) (cfg : Configuration) : Prop :=
  c.queryClient = true ∨ cfg.validate H ≠ none

def MeetsEstablish (c : Connection) : ConnectionCall → Prop
  | .establish store connectStr =>
    (c.Fails H (c.config.attempted H store connectStr) → NothingNew H store c.config connectStr) ∧
      (¬ c.Fails H (c.config.attempted H store connectStr) →
        NothingLeft H store c.config connectStr)
  | .establishConfig cfg => c.Fails H cfg → cfg = c.config
  | .release | .getDead _ => True

end Connection

namespace Configuration

variable {H : Host} {store : DsnStore} {old : Configuration} {connectStr : List Char}

theorem or_eq_right_iff {α : Type} {x y : Option α} :
    x.or y = y ↔ ∀ v, x = some v → y = some v := by
  cases x with
  | none => simp
  | some v => simp [eq_comm]

theorem attempted_eq_old_iff :
    old.attempted H store connectStr = old ↔ Connection.NothingNew H store old connectStr := by
  constructor
  · intro h a
    exact or_eq_right_iff.mp (congrFun h a)
  · intro h
    funext a
    exact or_eq_right_iff.mpr (h a)

theorem isSet_of_none {cfg : Configuration} {a : Attribute} (h : cfg a = none) :
    cfg.isSet a = false :=
  isSet_eq_false_iff.mpr (.inl h)

/-- A given value is taken over what was there, or gives way to the same stored one. -/
theorem attempted_of_given {a : Attribute} {v : a.Value} (hgiven : given H connectStr a = some v)
    (hdsn : old.withGiven H connectStr .dsn = given H connectStr .dsn) :
    old.attempted H store connectStr a = empty.attempted H store connectStr a := by
  have hmerged : old.withGiven H connectStr a = given H connectStr a := by
    simp [withGiven, hgiven]
  rw [attempted_eq, attempted_eq, empty_withGiven, isSet_congr hmerged, hmerged, hdsn]

theorem attempted_of_not_given {a : Attribute} (hgiven : given H connectStr a = none)
    (hdsn : old.withGiven H connectStr .dsn = given H connectStr .dsn) :
    old.attempted H store connectStr a = empty.attempted H store connectStr a ↔
      if old.isSet a then old a = storedUnder H store (given H connectStr .dsn) a
      else old a = none ∨ storedUnder H store (given H connectStr .dsn) a ≠ none := by
  have hmerged : old.withGiven H connectStr a = old a := by
    simp [withGiven, hgiven]
  rw [attempted_eq, attempted_eq, empty_withGiven, isSet_congr hmerged, hmerged, hdsn, hgiven,
    isSet_of_none hgiven]
  simp only [Bool.false_eq_true, if_false, Option.or_none]
  split
  · exact Iff.rfl
  · cases storedUnder H store (given H connectStr .dsn) a with
    | none => simp
    | some v => simp

theorem attempted_eq_new_iff :
    old.attempted H store connectStr = empty.attempted H store connectStr ↔
      Connection.NothingLeft H store old connectStr := by
  constructor
  · intro h
    have hdsn : old.withGiven H connectStr .dsn = given H connectStr .dsn := by
      have := congrFun h .dsn
      rw [attempted_eq, attempted_eq, empty_withGiven, storedUnder_dsn, storedUnder_dsn] at this
      simpa only [Option.none_or, ite_self] using this
    intro a hgiven
    exact (attempted_of_not_given hgiven hdsn).mp (congrFun h a)
  · intro h
    have hdsn : old.withGiven H connectStr .dsn = given H connectStr .dsn := by
      cases hgiven : given H connectStr .dsn with
      | some v => simp [withGiven, hgiven]
      | none =>
        have hold := h .dsn hgiven
        simp only [storedUnder_dsn, isSet_dsn] at hold
        cases hdsn : old .dsn with
        | none => simp [withGiven, hgiven, hdsn]
        | some v => simp [hdsn] at hold
    funext a
    cases hgiven : given H connectStr a with
    | some v => exact attempted_of_given hgiven hdsn
    | none => exact (attempted_of_not_given hgiven hdsn).mpr (h a hgiven)

end Configuration

namespace Connection

variable {H : Host}

theorem establishLaw_iff (c : Connection) (k : ConnectionCall) :
    c.EstablishLaw H k ↔ c.MeetsEstablish H k := by
  cases k with
  | establish store connectStr =>
    have herror : (c.call H (.establish store connectStr)).2.result = .error ↔
        c.Fails H (c.config.attempted H store connectStr) :=
      internalEstablish_error_iff store connectStr
    have hconfig : (c.call H (.establish store connectStr)).1.config =
        c.config.attempted H store connectStr := internalEstablish_config store connectStr
    unfold EstablishLaw MeetsEstablish
    simp only [ne_eq, herror, hconfig, internalEstablish_config,
      Configuration.attempted_eq_old_iff, Configuration.attempted_eq_new_iff]
  | establishConfig cfg =>
    have herror : (c.call H (.establishConfig cfg)).2.result = .error ↔ c.Fails H cfg :=
      internalEstablishConfig_error_iff
    have hconfig : (c.call H (.establishConfig cfg)).1.config = cfg :=
      internalEstablishConfig_config
    unfold EstablishLaw MeetsEstablish
    simp [herror, hconfig]
  | release =>
    refine iff_of_true ?_ trivial
    simp only [EstablishLaw, call, internalRelease, close]
    split <;> split <;> rfl
  | getDead buf => exact iff_of_true rfl trivial

/-- `Establish` is atomic and independent of earlier attempts in exactly the sequences of calls
whose failing attempts offer nothing new and whose other attempts find nothing left over. -/
theorem establish_lawful_iff (H : Host) (calls : List ConnectionCall) :
    Lts.Each (apply H) (EstablishLaw H) {} calls ↔ Lts.Each (apply H) (MeetsEstablish H) {} calls :=
  Lts.each_iff (I := fun _ => True) (fun _ _ _ _ => trivial) (fun c k _ => establishLaw_iff c k)
    trivial

/-- Two connections with different histories come to the same configuration. -/
theorem EstablishLaw.same_config {H : Host} {store : DsnStore} {connectStr : List Char}
    {c₁ c₂ : Connection} (h₁ : c₁.EstablishLaw H (.establish store connectStr))
    (h₂ : c₂.EstablishLaw H (.establish store connectStr))
    (hs₁ : (c₁.call H (.establish store connectStr)).2.result ≠ .error)
    (hs₂ : (c₂.call H (.establish store connectStr)).2.result ≠ .error) :
    (c₁.call H (.establish store connectStr)).1.config =
      (c₂.call H (.establish store connectStr)).1.config := by
  rw [h₁.2 hs₁, h₂.2 hs₂]

section Examples

def noDataSources : DsnStore := { before := fun _ => 0, profiles := fun _ _ => none }

/-- A user name and a password. -/
def userConfig : Configuration := (Configuration.empty.set .uid "me").set .pwd "secret"

/-- A failing attempt leaves its user name behind, and a successful one finds the password of an
earlier one. -/
theorem establish_leavesBehind :
    ¬ Lts.Each (apply linuxHost) (EstablishLaw linuxHost) {}
        [.establish noDataSources "UID=me".toList] ∧
      ¬ Lts.Each (apply linuxHost) (EstablishLaw linuxHost) {}
        [.establishConfig userConfig, .establish noDataSources "UID=you".toList] := by
  constructor
  · rintro ⟨⟨hatomic, _⟩, _⟩
    have huid := congrFun (hatomic (by decide +kernel)) .uid
    exact absurd huid (by decide +kernel)
  · rintro ⟨_, ⟨_, hown⟩, _⟩
    have hpwd := congrFun (hown (by decide +kernel)) .pwd
    exact absurd hpwd (by decide +kernel)

end Examples

end Connection

/-! ## The machine with two states -/

inductive ConnState where
  | closed | opened
  deriving DecidableEq, Repr

/-- What is asked of the machine. -/
inductive ConnRequest where
  | establish (validates : Bool)
  | release
  | isDead

/-- What it answers. -/
inductive ConnAnswer where
  | connected | alreadyConnected | rejected | released | notConnected
  | dead (isDead : Bool)

def ConnState.step : ConnState → ConnRequest → ConnState × ConnAnswer
  | .closed, .establish true => (.opened, .connected)
  | .closed, .establish false => (.closed, .rejected)
  | .closed, .release => (.closed, .notConnected)
  | .closed, .isDead => (.closed, .dead true)
  | .opened, .establish _ => (.opened, .alreadyConnected)
  | .opened, .release => (.closed, .released)
  | .opened, .isDead => (.opened, .dead false)

/-- The results that show an answer. -/
def ConnAnswer.ShownBy (r : CallResult) : ConnAnswer → Prop
  | .connected => r.result ≠ .error
  | .alreadyConnected => r.result = .error ∧ alreadyConnectedRecord ∈ r.records
  | .rejected => r.result = .error
  | .released => r.result = .success
  | .notConnected => r.result = .successWithInfo ∧ notOpenRecord ∈ r.records
  | .dead isDead => r.value = some (if isDead then sqlCdTrue else sqlCdFalse)

namespace Connection

variable (H : Host)

def getQueryClient (c : Connection) : Bool := c.queryClient

/-- The state of the machine. -/
def state (c : Connection) : ConnState := if c.getQueryClient then .opened else .closed

/-- What a call asks. Without a buffer `GetAttribute` asks nothing. -/
def request (c : Connection) : ConnectionCall → Option ConnRequest
  | .establish store connectStr =>
    some (.establish ((c.config.attempted H store connectStr).validate H).isNone)
  | .establishConfig cfg => some (.establish (cfg.validate H).isNone)
  | .release => some .release
  | .getDead buf => if buf then some .isDead else none

/-- A call takes the step of the machine and shows its answer. -/
def MachineLaw (c : Connection) (k : ConnectionCall) : Prop :=
  match c.request H k with
  | none => (c.call H k).1.state = c.state
  | some r =>
    (c.call H k).1.state = (c.state.step r).1 ∧ (c.state.step r).2.ShownBy (c.call H k).2

/-- The calls that do not open the connection, and do not ask whether it is dead. -/
def NeverOpens (c : Connection) (k : ConnectionCall) : Prop :=
  c.request H k ≠ some (.establish true) ∧ c.request H k ≠ some .isDead

variable {H : Host} {c : Connection}

theorem call_queryClient (hclosed : c.queryClient = false) (k : ConnectionCall) :
    (c.call H k).1.queryClient = false := by
  cases k with
  | establish store connectStr => exact internalEstablishConfig_queryClient.trans hclosed
  | establishConfig cfg => exact internalEstablishConfig_queryClient.trans hclosed
  | release => simp [call, internalRelease, close, hclosed]
  | getDead buf => exact hclosed

theorem state_eq_closed (hclosed : c.queryClient = false) : c.state = .closed := by
  simp [state, getQueryClient, hclosed]

/-- The step for `Establish`, in both forms. -/
theorem machineLaw_establish_iff (hclosed : c.queryClient = false) {k : ConnectionCall}
    {cfg : Configuration} (hrequest : c.request H k = some (.establish (cfg.validate H).isNone))
    (herror : (c.call H k).2.result = .error ↔ c.queryClient = true ∨ cfg.validate H ≠ none) :
    c.MachineLaw H k ↔ c.NeverOpens H k := by
  have hstate := state_eq_closed (call_queryClient (H := H) hclosed k)
  unfold MachineLaw NeverOpens
  rw [hrequest, state_eq_closed hclosed]
  simp only [hstate]
  cases hvalid : cfg.validate H with
  | none => simp [ConnState.step]
  | some err =>
    have hresult : (c.call H k).2.result = .error := herror.mpr (.inr (by simp [hvalid]))
    simp [ConnState.step, ConnAnswer.ShownBy, hresult]

theorem machineLaw_iff (hclosed : c.queryClient = false) (k : ConnectionCall) :
    c.MachineLaw H k ↔ c.NeverOpens H k := by
  cases k with
  | establish store connectStr =>
    exact machineLaw_establish_iff hclosed rfl (internalEstablish_error_iff store connectStr)
  | establishConfig cfg =>
    exact machineLaw_establish_iff hclosed rfl internalEstablishConfig_error_iff
  | release =>
    have hstate := state_eq_closed (call_queryClient (H := H) hclosed .release)
    refine iff_of_true ?_ ⟨nofun, nofun⟩
    unfold MachineLaw
    simp only [request, hstate, state_eq_closed hclosed]
    simp [ConnState.step, ConnAnswer.ShownBy, call, internalRelease, hclosed]
  | getDead buf =>
    unfold MachineLaw NeverOpens
    cases buf with
    | false => exact iff_of_true rfl ⟨nofun, nofun⟩
    | true =>
      refine iff_of_false ?_ fun h => h.2 rfl
      rintro ⟨_, hvalue⟩
      rw [state_eq_closed hclosed] at hvalue
      cases hvalue

/-- A connection is the machine with two states in exactly the sequences of calls that would not
open it and do not ask whether it is dead. -/
theorem machine_iff (H : Host) (calls : List ConnectionCall) :
    Lts.Each (apply H) (MachineLaw H) {} calls ↔ Lts.Each (apply H) (NeverOpens H) {} calls :=
  Lts.each_iff (I := fun c => c.queryClient = false)
    (fun _ k hclosed _ => call_queryClient hclosed k) (fun _ k hclosed => machineLaw_iff hclosed k)
    rfl

/-- `Establish` succeeds and opens nothing, and a new connection is not dead. -/
theorem machine_neverOpened :
    ¬ Lts.Each (apply linuxHost) (MachineLaw linuxHost) {} [.establishConfig userConfig] ∧
      ¬ Lts.Each (apply linuxHost) (MachineLaw linuxHost) {} [.getDead true] := by
  constructor
  · rintro ⟨⟨hstate, _⟩, _⟩
    exact absurd hstate (by decide +kernel)
  · rintro ⟨⟨_, hvalue⟩, _⟩
    cases hvalue

end Connection

end TrinoOdbc
