import TrinoOdbc.ConnectionString
import TrinoOdbc.NumberAttributes

/-!
# TrinoOdbc.DsnConfiguration

`InternalEstablish` parses the connection string, and `ReadDsnConfiguration` adds the values stored
for the data source it names. The stored texts have a reader of their own: numbers go through
`LexicalCast`, names of an enumeration fall back to the default.

`precedence_iff` compares the two readers.
-/

namespace TrinoOdbc

/-- What is stored for a data source: the text of a key, `none` when there is none. -/
abbrev Profile := String → Option String

/-- The default text that says that there is none. -/
def unique : String := "35a920dd-8837-43d2-a846-e01a2e7b5f84"

/-- `LexicalCast< int >`. Its variable is not initialized: `before` is what it happens to hold. -/
def lexicalCast (before : Int) (text : String) : Int :=
  extractInt (-2147483648) 2147483647 (toInt32 before) text.toList

namespace Profile

def readDsnString (profile : Profile) (key : String) : Option String :=
  let res := (profile key).getD unique
  if res ≠ unique then some res else none

def readDsnInt (profile : Profile) (before : Int) (key : String) : Option Int :=
  (profile.readDsnString key).map (lexicalCast before)

end Profile

namespace Configuration

/-- `IsXxxSet`. An empty profile name is not a set one. -/
def isSet (cfg : Configuration) (a : Attribute) : Bool :=
  if a = .profileName then (cfg .profileName).getD "" ≠ "" else (cfg a).isSome

/-- The value `ReadDsnConfiguration` reads for an attribute. -/
def dsnValue (H : Host) (before : Attribute → Int) (profile : Profile) :
    (a : Attribute) → Option a.Value
  | .dsn | .driver => none
  | .uid => profile.readDsnString Attribute.uid.key
  | .pwd => profile.readDsnString Attribute.pwd.key
  | .profileName => profile.readDsnString Attribute.profileName.key
  | .reqTimeout => profile.readDsnInt (before .reqTimeout) Attribute.reqTimeout.key
  | .maxRetryCountClient =>
    profile.readDsnInt (before .maxRetryCountClient) Attribute.maxRetryCountClient.key
  | .endpoint => profile.readDsnString Attribute.endpoint.key
  | .authType =>
    (profile.readDsnString Attribute.authType.key).map (AuthType.fromString · .password)
  | .logLevel =>
    (profile.readDsnString Attribute.logLevel.key).map (LogLevel.fromString · .warningLevel)
  | .logPath => (profile.readDsnString Attribute.logPath.key).filter H.isValidDirectory
  | .maxRowPerPage => profile.readDsnInt (before .maxRowPerPage) Attribute.maxRowPerPage.key

/-- A value is taken over when the attribute is not set yet. -/
def adopt (cfg : Configuration) (a : Attribute) (value : Option a.Value) : Configuration :=
  match value with
  | none => cfg
  | some v => if cfg.isSet a then cfg else cfg.set a v

def readDsnConfiguration (H : Host) (before : Attribute → Int) (profile : Profile)
    (cfg : Configuration) : Configuration :=
  [Attribute.uid, .pwd, .profileName, .reqTimeout, .maxRetryCountClient, .endpoint, .authType,
    .logLevel, .logPath, .maxRowPerPage].foldl
    (fun cfg a => cfg.adopt a (dsnValue H before profile a)) cfg

end Configuration

/-- The text of a `char` pointer to a string. -/
def cStr (s : String) : String := String.ofList (s.toList.takeWhile (· ≠ '\x00'))

namespace ConnectionStringParser

/-- `Connection::InternalEstablish`, as far as it changes the configuration. -/
def internalEstablish (H : Host) (before : Attribute → Int) (profiles : String → Profile)
    (p : ConnectionStringParser) (connectStr : List Char) : ConnectionStringParser :=
  let p := p.parseConnectionString H connectStr ';'
  match p.cfg .dsn with
  | none => p
  | some dsn => { p with cfg := p.cfg.readDsnConfiguration H before (profiles (cStr dsn)) }

end ConnectionStringParser

/-! ## What is read -/

namespace Configuration

section Adopt

variable {H : Host} {before : Attribute → Int} {profile : Profile} {cfg : Configuration}

theorem adopt_self (a : Attribute) (value : Option a.Value) :
    cfg.adopt a value a = if cfg.isSet a then cfg a else value.or (cfg a) := by
  unfold adopt
  cases value with
  | none => simp
  | some v =>
    by_cases h : cfg.isSet a
    · simp [h]
    · simp [h]

theorem adopt_of_ne {a b : Attribute} (h : b ≠ a) (value : Option a.Value) :
    cfg.adopt a value b = cfg b := by
  unfold adopt
  cases value with
  | none => rfl
  | some v =>
    simp only
    split
    · rfl
    · exact set_of_ne cfg v h

theorem isSet_congr {cfg cfg' : Configuration} {a : Attribute} (h : cfg a = cfg' a) :
    cfg.isSet a = cfg'.isSet a := by
  unfold isSet
  split
  · rename_i ha
    subst ha
    rw [h]
  · rw [h]

/-- Each attribute is taken over once. -/
theorem foldl_adopt (as : List Attribute) (hnodup : as.Nodup) : ∀ cfg : Configuration, ∀ a,
    (as.foldl (fun cfg a => cfg.adopt a (dsnValue H before profile a)) cfg) a =
      if a ∈ as ∧ cfg.isSet a = false then (dsnValue H before profile a).or (cfg a) else cfg a := by
  induction as with
  | nil => intro cfg a; simp
  | cons b as ih =>
    intro cfg a
    obtain ⟨hb, hnodup⟩ := List.nodup_cons.mp hnodup
    rw [List.foldl_cons, ih hnodup]
    by_cases hab : a = b
    · subst hab
      have hno : ¬ (a ∈ as ∧ (cfg.adopt a (dsnValue H before profile a)).isSet a = false) :=
        fun h => hb h.1
      rw [if_neg hno, adopt_self]
      by_cases hset : cfg.isSet a <;> simp [hset]
    · have hsame : cfg.adopt b (dsnValue H before profile b) a = cfg a := adopt_of_ne hab _
      simp only [hsame, isSet_congr hsame, List.mem_cons, hab, false_or]

theorem readDsnConfiguration_get (a : Attribute) :
    cfg.readDsnConfiguration H before profile a =
      if cfg.isSet a = false then (dsnValue H before profile a).or (cfg a) else cfg a := by
  unfold readDsnConfiguration
  rw [foldl_adopt _ (by decide)]
  cases a <;> simp [dsnValue]

end Adopt

theorem isSet_eq_false_iff {cfg : Configuration} {a : Attribute} :
    cfg.isSet a = false ↔ cfg a = none ∨ a = .profileName ∧ cfg .profileName = some "" := by
  unfold isSet
  split
  · rename_i ha
    subst ha
    cases cfg .profileName <;> simp
  · rename_i ha
    simp [ha]

end Configuration

/-! ## The two readers -/

/-- What a connection string sets: the leftmost value that is accepted. -/
def given (H : Host) (connectStr : List Char) : Configuration := fun a =>
  ((eraseTrailingNuls connectStr).splitOn ';').findSome? (ConnectionStringParser.segmentValue H a)

/-- The value an attribute is meant to have: the given one, else the one that the parser accepts the
stored text with, else the default. -/
def intendedValue (H : Host) (given : Configuration) (profile : Profile) (a : Attribute) :
    a.Value :=
  ((given a).or ((profile a.key).bind (a.accepted H a.key))).getD (a.defaultValue H)

/-- The texts for a number that both readers take for the same one. -/
def NumberAlike (H : Host) (n : NumberAttribute) (before dflt : Int) (text : String) : Prop :=
  text = unique ∨
    if n.Accepts text ∧ ¬ H.sizeofString ≤ text.length then digitsValue text.toList < 2147483648
    else lexicalCast before text = dflt

/-- The texts that both readers read as the same value. -/
def ReadAlike (H : Host) (before : Attribute → Int) (a : Attribute) (text : String) : Prop :=
  match a with
  | .dsn | .authType | .logLevel => True
  | .driver => text = "Trino ODBC Driver"
  | .uid | .pwd | .profileName | .endpoint => text ≠ unique
  | .reqTimeout => NumberAlike H .reqTimeout (before .reqTimeout) 3000 text
  | .maxRetryCountClient => NumberAlike H .maxRetryCountClient (before .maxRetryCountClient) 0 text
  | .maxRowPerPage => NumberAlike H .maxRowPerPage (before .maxRowPerPage) (-1) text
  | .logPath => text = unique → H.isValidDirectory text = true → H.defaultLogPath = unique

section Readers

variable {H : Host} {before : Attribute → Int} {profile : Profile}

theorem readDsnString_none {key : String} (h : profile key = none) :
    profile.readDsnString key = none := by
  simp [Profile.readDsnString, h]

theorem readDsnString_unique {key : String} (h : profile key = some unique) :
    profile.readDsnString key = none := by
  simp [Profile.readDsnString, h]

theorem readDsnString_some {key text : String} (h : profile key = some text) (hu : text ≠ unique) :
    profile.readDsnString key = some text := by
  simp [Profile.readDsnString, h, hu]

theorem string_alike_iff (key : String) :
    ((profile.readDsnString key).getD "" = ((profile key).bind some).getD "") ↔
      ∀ text, profile key = some text → text ≠ unique := by
  have hempty : "" ≠ unique := by decide
  cases h : profile key with
  | none => simp [readDsnString_none h]
  | some text =>
    by_cases hu : text = unique
    · subst hu
      simp [readDsnString_unique h, hempty]
    · simp [readDsnString_some h hu, hu]

theorem lexicalCast_accepts {n : NumberAttribute} {text : String} (old : Int)
    (h : n.Accepts text) :
    lexicalCast old text = min (2147483647 : Int) (digitsValue text.toList) :=
  extractInt_digits _ (by decide) (by decide) h.1 h.2.1

theorem min_eq_toInt32_iff {v : Int} (hlo : 0 ≤ v) (hhi : v ≤ uint32Max) :
    min 2147483647 v = toInt32 v ↔ v < 2147483648 := by
  have hfits := toInt32_eq_iff hlo hhi
  constructor
  · intro h
    by_contra hlarge
    have hmin : min 2147483647 v = 2147483647 := min_eq_left (by omega)
    have hmod := toInt32_emod v
    unfold uint32Max at hhi
    rw [← h, hmin] at hmod
    omega
  · intro h
    rw [hfits.mpr h]
    omega

theorem number_alike_iff (n : NumberAttribute) (old dflt : Int) (key : String) :
    ((profile.readDsnInt old key).getD dflt =
        ((profile key).bind fun text =>
          (readNumber H n.name n.least key text).toOption).getD dflt) ↔
      ∀ text, profile key = some text → NumberAlike H n old dflt text := by
  have hunique : ¬ n.Accepts unique := fun h => absurd h.2.1 (by decide)
  unfold Profile.readDsnInt
  cases h : profile key with
  | none => simp [readDsnString_none h]
  | some text =>
    simp only [Option.some.injEq, forall_eq', Option.bind_some, NumberAlike]
    by_cases hu : text = unique
    · obtain ⟨message, hread⟩ := readNumber_rejects H key hunique
      subst hu
      simp [readDsnString_unique h, hread, Except.toOption]
    rw [readDsnString_some h hu, Option.map_some, Option.getD_some, or_iff_right hu]
    by_cases hacc : n.Accepts text
    · rcases readNumber_accepts H key hacc with ⟨hlong, message, hread⟩ |
        ⟨hshort, hread⟩
      · rw [hread, if_neg fun h => h.2 hlong]
        rfl
      · have hfits := min_eq_toInt32_iff (Int.natCast_nonneg _) hacc.2.2.2
        have hok : (readNumber H n.name n.least key text).toOption =
            some (toInt32 (digitsValue text.toList)) := by
          rw [hread]
          rfl
        rw [hok, if_pos ⟨hacc, hshort⟩, lexicalCast_accepts old hacc, Option.getD_some, hfits]
        exact Int.ofNat_lt
    · obtain ⟨message, hread⟩ := readNumber_rejects H key hacc
      rw [hread, if_neg fun h => hacc h.1]
      rfl

/-- A text that is rejected when it is not the default's name gives the default. -/
theorem getD_ite_error {α : Type} {c : Prop} [Decidable c] (message : Option String) {v dflt : α}
    (h : c → v = dflt) :
    (if c then Except.error message else .ok v : Except (Option String) α).toOption.getD dflt =
      v := by
  by_cases hc : c
  · rw [if_pos hc]
    exact (h hc).symm
  · rw [if_neg hc]
    rfl

/-- An attribute with named values is read alike by both readers as soon as the text the default
reader passes in for an absent key names the default. -/
theorem named_alike {α : Type} {dflt : α} {fromString : String → α}
    {read : String → Except (Option String) α}
    (hread : ∀ text, (read text).toOption.getD dflt = fromString text)
    (hunique : fromString unique = dflt) (key : String) :
    ((profile.readDsnString key).map fromString).getD dflt =
      ((profile key).bind fun text => (read text).toOption).getD dflt := by
  cases h : profile key with
  | none => simp [readDsnString_none h]
  | some text =>
    by_cases hu : text = unique
    · subst hu
      rw [readDsnString_unique h, Option.bind_some, hread, hunique]
      rfl
    · rw [readDsnString_some h hu, Option.bind_some, hread, Option.map_some, Option.getD_some]

theorem auth_alike (key : String) :
    ((profile.readDsnString key).map (AuthType.fromString · .password)).getD .password =
      ((profile key).bind fun text => (readAuthType text).toOption).getD .password := by
  have hread : ∀ text, (readAuthType text).toOption.getD .password =
      AuthType.fromString text .password := by
    intro text
    unfold readAuthType
    generalize AuthType.fromString text .password = authType
    exact getD_ite_error _ fun h => h.2
  exact named_alike hread (by decide +kernel) key

theorem ite_level (p₄ p₃ p₂ p₁ p₀ : Prop) [Decidable p₄] [Decidable p₃] [Decidable p₂]
    [Decidable p₁] [Decidable p₀] (level : LogLevel → LogLevel) (dflt : LogLevel)
    (h : level = fun dflt => if p₄ then .debugLevel else if p₃ then .infoLevel
      else if p₂ then .warningLevel else if p₁ then .errorLevel else if p₀ then .off else dflt) :
    level dflt = if level .unknown = .unknown then dflt else level .unknown := by
  subst h
  by_cases h₄ : p₄
  · simp [h₄]
  by_cases h₃ : p₃
  · simp [h₄, h₃]
  by_cases h₂ : p₂
  · simp [h₄, h₃, h₂]
  by_cases h₁ : p₁
  · simp [h₄, h₃, h₂, h₁]
  by_cases h₀ : p₀
  · simp [h₄, h₃, h₂, h₁, h₀]
  · simp [h₄, h₃, h₂, h₁, h₀]

/-- The default counts for the texts that name no level. -/
theorem logLevel_fromString (text : String) (dflt : LogLevel) :
    LogLevel.fromString text dflt =
      if LogLevel.fromString text .unknown = .unknown then dflt
      else LogLevel.fromString text .unknown :=
  ite_level _ _ _ _ _ (LogLevel.fromString text) dflt rfl

theorem logLevel_alike (key : String) :
    ((profile.readDsnString key).map (LogLevel.fromString · .warningLevel)).getD .warningLevel =
      ((profile key).bind fun text => (readLogLevel text).toOption).getD .warningLevel := by
  have hread : ∀ text, (readLogLevel text).toOption.getD .warningLevel =
      LogLevel.fromString text .warningLevel := by
    intro text
    rw [logLevel_fromString]
    unfold readLogLevel
    simp only
    split <;> rfl
  exact named_alike hread (by decide +kernel) key

theorem logPath_alike_iff (key : String) :
    (((profile.readDsnString key).filter H.isValidDirectory).getD H.defaultLogPath =
        ((profile key).bind fun text => (readLogPath H text).toOption).getD H.defaultLogPath) ↔
      ∀ text, profile key = some text → text = unique → H.isValidDirectory text = true →
        H.defaultLogPath = unique := by
  cases h : profile key with
  | none => simp [readDsnString_none h]
  | some text =>
    simp only [Option.some.injEq, forall_eq', Option.bind_some, readLogPath]
    by_cases hvalid : H.isValidDirectory text = true
    · by_cases hu : text = unique
      · subst hu
        simp [readDsnString_unique h, hvalid, Except.toOption]
      · simp [readDsnString_some h hu, hvalid, hu, Except.toOption, Option.filter_some]
    · by_cases hu : text = unique
      · subst hu
        simp [readDsnString_unique h, hvalid, Except.toOption]
      · simp [readDsnString_some h hu, hvalid, hu, Except.toOption, Option.filter_some]

/-- What the two readers make of the text that is stored for an attribute. -/
theorem dsnValue_alike_iff (a : Attribute) (ha : a ≠ .dsn) :
    ((Configuration.dsnValue H before profile a).getD (a.defaultValue H) =
        ((profile a.key).bind (a.accepted H a.key)).getD (a.defaultValue H)) ↔
      ∀ text, profile a.key = some text → ReadAlike H before a text := by
  cases a with
  | dsn => exact absurd rfl ha
  | driver =>
    show ("Trino ODBC Driver" = ((profile "driver").bind some).getD "Trino ODBC Driver") ↔
      ∀ text, profile "driver" = some text → text = "Trino ODBC Driver"
    cases profile "driver" with
    | none => simp
    | some text => simp [eq_comm]
  | uid | pwd | profileName | endpoint => exact string_alike_iff _
  | reqTimeout => exact number_alike_iff .reqTimeout _ _ _
  | maxRetryCountClient => exact number_alike_iff .maxRetryCountClient _ _ _
  | maxRowPerPage => exact number_alike_iff .maxRowPerPage _ _ _
  | authType => exact iff_of_true (auth_alike _) fun _ _ => trivial
  | logLevel => exact iff_of_true (logLevel_alike _) fun _ _ => trivial
  | logPath => exact logPath_alike_iff _

end Readers

/-! ## Precedence -/

section Precedence

variable {H : Host} {before : Attribute → Int} {profiles : String → Profile}
  {connectStr : List Char} {diag : Option (List DiagnosticRecord)} {dsn : String}

theorem internalEstablish_get (hdsn : given H connectStr .dsn = some dsn) (a : Attribute) :
    ((⟨Configuration.empty, diag⟩ : ConnectionStringParser).internalEstablish H before profiles
        connectStr).cfg a =
      if (given H connectStr).isSet a = false then
        (Configuration.dsnValue H before (profiles (cStr dsn)) a).or (given H connectStr a)
      else given H connectStr a := by
  have hparsed : ((⟨Configuration.empty, diag⟩ : ConnectionStringParser).parseConnectionString H
      connectStr ';').cfg = given H connectStr := by
    funext b
    rw [ConnectionStringParser.parseConnectionString_fold,
      ConnectionStringParser.foldr_handleSegment_get]
    exact Option.or_none
  unfold ConnectionStringParser.internalEstablish
  simp only [hparsed, hdsn]
  exact Configuration.readDsnConfiguration_get a

/-- A fresh connection gets the intended value of an attribute exactly when the text stored for it
is read alike, in case the string does not give the attribute. An empty profile name in the string
gives way to a stored one. -/
theorem precedence_iff (hdsn : given H connectStr .dsn = some dsn) (a : Attribute) :
    ((⟨Configuration.empty, diag⟩ : ConnectionStringParser).internalEstablish H before profiles
        connectStr).cfg.get H a = intendedValue H (given H connectStr) (profiles (cStr dsn)) a ↔
      ∀ text, profiles (cStr dsn) a.key = some text →
        (given H connectStr a = none → ReadAlike H before a text) ∧
        (a = .profileName → given H connectStr .profileName = some "" →
          text = "" ∨ text = unique) := by
  unfold Configuration.get intendedValue
  rw [internalEstablish_get hdsn]
  by_cases hnone : given H connectStr a = none
  · have ha : a ≠ .dsn := by
      rintro rfl
      rw [hnone] at hdsn
      cases hdsn
    have hunset := Configuration.isSet_eq_false_iff.mpr (.inl hnone)
    have hname : ∀ text, ¬ (a = .profileName ∧ given H connectStr .profileName = some text) := by
      rintro text ⟨rfl, hsome⟩
      rw [hnone] at hsome
      cases hsome
    rw [if_pos hunset, hnone, Option.or_none, Option.none_or, dsnValue_alike_iff a ha]
    refine forall₂_congr fun text _ => ?_
    constructor
    · intro h
      exact ⟨fun _ => h, fun ha hempty => absurd ⟨ha, hempty⟩ (hname "")⟩
    · intro h
      exact h.1 rfl
  by_cases hunset : (given H connectStr).isSet a = false
  · obtain ⟨rfl, hempty⟩ := (Configuration.isSet_eq_false_iff.mp hunset).resolve_left hnone
    show ((if (given H connectStr).isSet .profileName = false then
        ((profiles (cStr dsn)).readDsnString "profilename").or (given H connectStr .profileName)
      else given H connectStr .profileName).getD "" =
      ((given H connectStr .profileName).or _).getD "") ↔
      ∀ text, profiles (cStr dsn) "profilename" = some text → _
    rw [if_pos hunset, hempty]
    cases hstored : profiles (cStr dsn) "profilename" with
    | none => simp [readDsnString_none hstored]
    | some text =>
      by_cases hu : text = unique
      · subst hu
        simp [readDsnString_unique hstored]
      · simp [readDsnString_some hstored hu, hu]
  · have hset : ¬ (a = .profileName ∧ given H connectStr .profileName = some "") := fun h =>
      hunset (Configuration.isSet_eq_false_iff.mpr (.inr h))
    obtain ⟨v, hv⟩ := Option.ne_none_iff_exists'.mp hnone
    rw [if_neg hunset, hv, Option.some_or]
    refine iff_of_true rfl fun text _ => ⟨fun h => ?_, fun ha hempty => absurd ⟨ha, hempty⟩ hset⟩
    cases h

end Precedence

section Examples

/-- A data source `trino` with one value. -/
def stored (key text : String) : String → Profile := fun dsn key' =>
  if dsn = "trino" ∧ key' = key then some text else none

def established (profiles : String → Profile) (connectStr : String) : Configuration :=
  (newParser.internalEstablish linuxHost (fun _ => 0) profiles connectStr.toList).cfg

/-- A stored password. -/
theorem precedence_stored :
    (established (stored "pwd" "secret") "DSN=trino;UID=me").get linuxHost .pwd =
      intendedValue linuxHost (given linuxHost "DSN=trino;UID=me".toList)
        (stored "pwd" "secret" (cStr "trino")) .pwd := by
  have hdsn : given linuxHost "DSN=trino;UID=me".toList .dsn = some "trino" := by decide +kernel
  refine (precedence_iff hdsn .pwd).mpr fun text htext => ⟨fun _ => ?_, fun hne => ?_⟩
  · have hsecret : stored "pwd" "secret" (cStr "trino") Attribute.pwd.key = some "secret" := by
      decide
    rw [hsecret] at htext
    obtain rfl := Option.some.inj htext
    have hplain : "secret" ≠ unique := by decide
    exact hplain
  · exact absurd hne (by decide)

/-- A text with a number in front counts as the number when it is stored, and it is rejected in a
connection string. A stored profile name overrides an empty one. -/
theorem precedence_differs :
    ((established (stored "requesttimeout" "12abc") "DSN=trino").get linuxHost .reqTimeout =
        (12 : Int) ∧
      intendedValue linuxHost (given linuxHost "DSN=trino".toList)
        (stored "requesttimeout" "12abc" "trino") .reqTimeout = (3000 : Int)) ∧
    (established (stored "profilename" "p") "DSN=trino;ProfileName=").get linuxHost .profileName =
        "p" ∧
      intendedValue linuxHost (given linuxHost "DSN=trino;ProfileName=".toList)
        (stored "profilename" "p" "trino") .profileName = "" := by
  decide +kernel

end Examples

end TrinoOdbc
