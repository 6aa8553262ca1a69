import TrinoOdbc.ConnectString
import TrinoOdbc.Machine

/-!
# TrinoOdbc.DsnRegistry

The data sources that `WriteDsnConfiguration` registers and `DeleteDsnConfiguration` removes, and
what `ReadDsnConfiguration` finds of them.

`registry_iff` says that after any run of these calls a data source is read as it has been
registered last, and which values come back unchanged.
-/

namespace TrinoOdbc

/-! ## The installer library -/

/-- The section that lists the data sources. -/
def dataSources : String := "ODBC Data Sources"

/-- Names of sections and keys are the same in any case. -/
def SameName (n m : String) : Prop := toLower n = toLower m

instance (n m : String) : Decidable (SameName n m) := inferInstanceAs (Decidable (_ = _))

/-- The functions of the installer library, which is not part of the driver: whether a call
succeeds, and the state of the file after it. -/
structure Installer where
  File : Type
  /-- `SQLGetPrivateProfileString`: the text of a key in a section. -/
  getString : File → String → Profile
  /-- `SQLWritePrivateProfileString`. -/
  writeString : File → String → String → String → Bool × File
  /-- `SQLWriteDSNToIni`. -/
  writeDsn : File → String → String → Bool × File
  /-- `SQLRemoveDSNFromIni`. -/
  removeDsn : File → String → Bool × File
  /-- What is read of a text that has been written. -/
  stored : String → String

/-- Letters, digits and a sign. -/
def Word (text : String) : Prop := text ≠ "" ∧ ∀ c ∈ text.toList, c.isAlphanum = true ∨ c = '-'

namespace Installer

/-- What the documentation of these functions says. A call that fails can have changed the section
it is about. -/
structure Documented (I : Installer) : Prop where
  stored_word : ∀ text, Word text → I.stored text = text
  writeString_self : ∀ file dsn key value n k, (I.writeString file dsn key value).1 = true →
    SameName n dsn → I.getString (I.writeString file dsn key value).2 n k =
      if SameName k key then some (I.stored value) else I.getString file n k
  writeString_other : ∀ file dsn key value n, ¬ SameName n dsn →
    I.getString (I.writeString file dsn key value).2 n = I.getString file n
  writeDsn_self : ∀ file dsn driver n k, (I.writeDsn file dsn driver).1 = true →
    ¬ SameName n dataSources → SameName n dsn → ¬ SameName k "driver" →
      I.getString (I.writeDsn file dsn driver).2 n k = none
  writeDsn_other : ∀ file dsn driver n, ¬ SameName n dataSources → ¬ SameName n dsn →
    I.getString (I.writeDsn file dsn driver).2 n = I.getString file n
  removeDsn_self : ∀ file dsn n, (I.removeDsn file dsn).1 = true → ¬ SameName n dataSources →
    SameName n dsn → I.getString (I.removeDsn file dsn).2 n = fun _ => none
  removeDsn_other : ∀ file dsn n, ¬ SameName n dataSources → ¬ SameName n dsn →
    I.getString (I.removeDsn file dsn).2 n = I.getString file n

end Installer

/-! ## Registering -/

namespace Configuration

/-- The entries of `ToMap` without `dsn` and `driver`. -/
def entries (cfg : Configuration) : List (String × String) :=
  (Attribute.inKeyOrder.filter fun a => a ≠ .dsn ∧ a ≠ .driver).filterMap fun a =>
    (cfg.toMap a).map fun value => (a.key, value)

end Configuration

/-- The loop of `RegisterDsn`. -/
def writeDsnStrings (I : Installer) (dsn : String) :
    List (String × String) → I.File → Bool × I.File
  | [], file => (true, file)
  | (key, value) :: entries, file =>
    match I.writeString file dsn key (cStr value) with
    | (false, file) => (false, file)
    | (true, file) => writeDsnStrings I dsn entries file

def registerDsn (I : Installer) (H : Host) (file : I.File) (config : Configuration)
    (driver : String) : Bool × I.File :=
  let dsn := cStr (config.get H .dsn)
  match I.writeDsn file dsn driver with
  | (false, file) => (false, file)
  | (true, file) => writeDsnStrings I dsn config.entries file

/-- Without a name or a driver nothing is written. -/
def writeDsnConfiguration (I : Installer) (H : Host) (file : I.File) (config : Configuration) :
    Bool × I.File :=
  if (config .dsn).getD "" = "" ∨ config.get H .driver = "" then (false, file)
  else registerDsn I H file config (cStr (config.get H .driver))

def deleteDsnConfiguration (I : Installer) (file : I.File) (dsn : String) : Bool × I.File :=
  I.removeDsn file (cStr dsn)

inductive DsnCommand where
  | write (config : Configuration)
  | delete (dsn : String)

namespace DsnCommand

def perform (I : Installer) (H : Host) (file : I.File) : DsnCommand → Bool × I.File
  | .write config => writeDsnConfiguration I H file config
  | .delete dsn => deleteDsnConfiguration I file dsn

/-- The data source that a call is about, if it is about one. -/
def dsn (H : Host) : DsnCommand → Option String
  | .write config =>
    if (config .dsn).getD "" = "" ∨ config.get H .driver = "" then none
    else some (cStr (config.get H .dsn))
  | .delete dsn => some (cStr dsn)

/-- What the call registers under the name. -/
def config : DsnCommand → Option Configuration
  | .write config => some config
  | .delete _ => none

end DsnCommand

/-! ## The registry -/

/-- What is registered under a name: `none` where that is not known. -/
abbrev DsnRegistry := String → Option (Option Configuration)

namespace DsnRegistry

/-- A call that succeeds says what is registered under its name, one that fails leaves it open. -/
def update (R : DsnRegistry) (H : Host) (c : DsnCommand) (succeeded : Bool) : DsnRegistry :=
  fun n =>
    if ∃ dsn ∈ c.dsn H, SameName n dsn then (if succeeded then some c.config else none) else R n

/-- The step of the file and of the registry. -/
def step (I : Installer) (H : Host) (s : I.File × DsnRegistry) (c : DsnCommand) :
    (I.File × DsnRegistry) × Bool :=
  let (succeeded, file) := c.perform I H s.1
  ((file, s.2.update H c succeeded), succeeded)

end DsnRegistry

namespace Configuration

/-- The profile that holds the entries of a configuration. -/
def profile (I : Installer) (cfg : Configuration) : Profile := fun key =>
  cfg.entries.findSome? fun entry =>
    if SameName key entry.1 then some (I.stored (cStr entry.2)) else none

end Configuration

/-- The file has what is registered. -/
def Describes (I : Installer) (file : I.File) (R : DsnRegistry) : Prop :=
  ∀ n, ¬ SameName n dataSources → ∀ registered, R n = some registered →
    ∀ key, ¬ SameName key "driver" →
      I.getString file n key = registered.bind fun cfg => cfg.profile I key

section Steps

variable {I : Installer} {H : Host} {file : I.File} {R : DsnRegistry}

theorem SameName.congr {n m d : String} (h : SameName n d) : SameName m n ↔ SameName m d := by
  unfold SameName at h ⊢
  rw [h]

theorem writeDsnStrings_other (hI : I.Documented) {dsn n : String} (hn : ¬ SameName n dsn)
    (entries : List (String × String)) (file : I.File) :
    I.getString (writeDsnStrings I dsn entries file).2 n = I.getString file n := by
  induction entries generalizing file with
  | nil => rfl
  | cons entry entries ih =>
    obtain ⟨key, value⟩ := entry
    have hother := hI.writeString_other file dsn key (cStr value) n hn
    rw [writeDsnStrings]
    split
    · rename_i file' hwrite
      rw [hwrite] at hother
      exact hother
    · rename_i file' hwrite
      rw [hwrite] at hother
      rw [ih, hother]

/-- Different keys are kept apart. -/
theorem writeDsnStrings_self (hI : I.Documented) {dsn n : String} (hn : SameName n dsn)
    {entries : List (String × String)} (hdistinct : entries.Pairwise fun e f => ¬ SameName f.1 e.1)
    (file : I.File) (hok : (writeDsnStrings I dsn entries file).1 = true) (key : String) :
    I.getString (writeDsnStrings I dsn entries file).2 n key =
      (entries.findSome? fun entry =>
        if SameName key entry.1 then some (I.stored (cStr entry.2)) else none).or
        (I.getString file n key) := by
  induction entries generalizing file with
  | nil => rfl
  | cons entry entries ih =>
    obtain ⟨key', value⟩ := entry
    obtain ⟨hhead, htail⟩ := List.pairwise_cons.mp hdistinct
    rw [writeDsnStrings] at hok ⊢
    split at hok
    · cases hok
    · rename_i file' hwrite
      have hself := hI.writeString_self file dsn key' (cStr value) n key (by rw [hwrite]) hn
      rw [hwrite] at hself
      rw [ih htail file' hok, hself, List.findSome?_cons]
      by_cases hkey : SameName key key'
      · have hnone : (entries.findSome? fun entry =>
            if SameName key entry.1 then some (I.stored (cStr entry.2)) else none) = none := by
          rw [List.findSome?_eq_none_iff]
          intro e he
          rw [if_neg]
          intro hsame
          exact hhead e he (hsame.symm.trans hkey)
        rw [if_pos hkey, if_pos hkey, hnone, Option.none_or]
        rfl
      · rw [if_neg hkey, if_neg hkey]

theorem keys_distinct :
    Attribute.inKeyOrder.Pairwise fun a b => ¬ SameName b.key a.key := by decide +kernel

theorem entries_distinct (cfg : Configuration) :
    cfg.entries.Pairwise fun e f => ¬ SameName f.1 e.1 := by
  refine List.Pairwise.filterMap _ ?_ (keys_distinct.filter _)
  intro a b hab e he f hf
  obtain ⟨_, -, rfl⟩ := Option.map_eq_some_iff.mp he
  obtain ⟨_, -, rfl⟩ := Option.map_eq_some_iff.mp hf
  exact hab

theorem registerDsn_other (hI : I.Documented) {cfg : Configuration} {driver n : String}
    (hsources : ¬ SameName n dataSources) (hn : ¬ SameName n (cStr (cfg.get H .dsn))) :
    I.getString (registerDsn I H file cfg driver).2 n = I.getString file n := by
  have hother := hI.writeDsn_other file (cStr (cfg.get H .dsn)) driver n hsources hn
  rw [registerDsn]
  split
  · rename_i file' hwrite
    rw [hwrite] at hother
    exact hother
  · rename_i file' hwrite
    rw [hwrite] at hother
    rw [writeDsnStrings_other hI hn, hother]

theorem registerDsn_self (hI : I.Documented) {cfg : Configuration} {driver n key : String}
    (hsources : ¬ SameName n dataSources) (hn : SameName n (cStr (cfg.get H .dsn)))
    (hkey : ¬ SameName key "driver") (hok : (registerDsn I H file cfg driver).1 = true) :
    I.getString (registerDsn I H file cfg driver).2 n key = cfg.profile I key := by
  rw [registerDsn] at hok ⊢
  split at hok
  · cases hok
  · rename_i file' hwrite
    have hself := hI.writeDsn_self file (cStr (cfg.get H .dsn)) driver n key (by rw [hwrite])
      hsources hn hkey
    rw [hwrite] at hself
    rw [writeDsnStrings_self hI hn (entries_distinct cfg) file' hok, hself, Option.or_none]
    rfl

/-- One call keeps file and registry in step. -/
theorem step_describes (hI : I.Documented) (s : I.File × DsnRegistry) (c : DsnCommand)
    (hs : Describes I s.1 s.2) :
    Describes I (DsnRegistry.step I H s c).1.1 (DsnRegistry.step I H s c).1.2 := by
  intro n hsources registered hregistered key hkey
  have hother (hdsn : ¬ ∃ dsn ∈ c.dsn H, SameName n dsn) :
      I.getString (c.perform I H s.1).2 n = I.getString s.1 n := by
    cases c with
    | write config =>
      rw [DsnCommand.perform, writeDsnConfiguration]
      split
      · rfl
      · rename_i hnamed
        refine registerDsn_other hI hsources fun hn => hdsn ⟨_, ?_, hn⟩
        rw [DsnCommand.dsn, if_neg hnamed]
        rfl
    | delete dsn =>
      exact hI.removeDsn_other s.1 (cStr dsn) n hsources fun hn => hdsn ⟨_, rfl, hn⟩
  simp only [DsnRegistry.step, DsnRegistry.update] at hregistered ⊢
  split at hregistered
  · rename_i hdsn
    obtain ⟨dsn, hmem, hn⟩ := hdsn
    split at hregistered
    · rename_i hok
      obtain rfl := Option.some.inj hregistered
      cases c with
      | write config =>
        rw [DsnCommand.dsn] at hmem
        rw [DsnCommand.perform, writeDsnConfiguration] at hok ⊢
        split at hmem
        · cases hmem
        · rename_i hnamed
          obtain rfl := Option.some.inj hmem
          rw [if_neg hnamed] at hok ⊢
          exact registerDsn_self hI hsources hn hkey hok
      | delete dsn =>
        obtain rfl := Option.some.inj hmem
        exact congrFun (hI.removeDsn_self s.1 _ n hok hsources hn) key
    · cases hregistered
  · rename_i hdsn
    rw [hother hdsn]
    exact hs n hsources registered hregistered key hkey

end Steps

/-! ## Reading -/

namespace Attribute

/-- The numbers are `int32_t`s. -/
def InRange : (a : Attribute) → a.Value → Prop
  | .reqTimeout, v | .maxRetryCountClient, v | .maxRowPerPage, v =>
    -2147483648 ≤ (v : Int) ∧ (v : Int) ≤ 2147483647
  | _, _ => True

/-- The values that are read as they have been registered. -/
def Kept (I : Installer) (H : Host) : (a : Attribute) → a.Value → Prop
  | .dsn, _ | .driver, _ => False
  | .uid, v | .pwd, v | .profileName, v | .endpoint, v => I.stored (cStr v) = v ∧ v ≠ unique
  | .logPath, v => (I.stored (cStr v) = v ∧ v ≠ unique) ∧ H.isValidDirectory v = true
  | .reqTimeout, _ | .maxRetryCountClient, _ | .maxRowPerPage, _ | .authType, _ => True
  | .logLevel, v => v ≠ LogLevel.unknown

end Attribute

section Reading

variable {I : Installer} {H : Host} {before : Attribute → Int}

theorem profile_key (cfg : Configuration) {a : Attribute} (hdsn : a ≠ .dsn)
    (hdriver : a ≠ .driver) :
    cfg.profile I a.key = (cfg a).map fun v => I.stored (cStr (a.print v)) := by
  have hmem : a ∈ Attribute.inKeyOrder.filter fun a => a ≠ .dsn ∧ a ≠ .driver :=
    List.mem_filter.mpr ⟨Attribute.mem_inKeyOrder a, by simp [hdsn, hdriver]⟩
  have hother : ∀ b, b ≠ a → ((cfg.toMap b).map fun value => (b.key, value)).bind (fun entry =>
      if SameName a.key entry.1 then some (I.stored (cStr entry.2)) else none) = none := by
    intro b hb
    cases cfg.toMap b with
    | none => rfl
    | some value =>
      rw [Option.map_some, Option.bind_some, if_neg]
      intro hsame
      unfold SameName at hsame
      rw [Configuration.toLower_key, Configuration.toLower_key] at hsame
      exact hb (Attribute.key_injective hsame.symm)
  rw [Configuration.profile, Configuration.entries, Configuration.findSome?_filterMap,
    Configuration.findSome?_only hother hmem,
    Configuration.toMap]
  cases cfg a with
  | none => rfl
  | some v => simp [SameName]

theorem dsnValue_none {p : Profile} {a : Attribute} (h : p a.key = none) :
    Configuration.dsnValue H before p a = none := by
  have hread : p.readDsnString a.key = none := by simp [Profile.readDsnString, h]
  cases a with
  | dsn | driver => rfl
  | uid | pwd | profileName | endpoint => exact hread
  | reqTimeout | maxRetryCountClient | maxRowPerPage =>
    rw [Configuration.dsnValue, Profile.readDsnInt, hread]
    rfl
  | authType | logLevel | logPath =>
    rw [Configuration.dsnValue, hread]
    rfl

theorem word_of_all {text : String} (hne : text ≠ "")
    (hall : text.toList.all (fun c => c.isAlphanum || c = '-') = true) : Word text :=
  ⟨hne, by simpa using hall⟩

theorem word_toString (v : Int) : Word (toString v) := by
  constructor
  · intro h
    rcases toString_toList v with ⟨hlist, -⟩ | ⟨⟨n, hlist⟩, -⟩
    · rw [h] at hlist
      exact Nat.toDigits_ne_nil hlist.symm
    · rw [h] at hlist
      cases hlist
  · intro c hc
    refine (toString_chars v c hc).imp_left fun hdigit => ?_
    simp [Char.isAlphanum, hdigit]

theorem cStr_word {text : String} (h : Word text) : cStr text = text := by
  have hall : text.toList.takeWhile (· ≠ '\x00') = text.toList := by
    refine List.takeWhile_eq_self_iff.mpr fun c hc => ?_
    rw [decide_eq_true_eq]
    rintro rfl
    rcases h.2 _ hc with h | h <;> cases h
  rw [cStr, hall, String.ofList_toList]

/-- A number that is printed is read as it is. -/
theorem lexicalCast_toString (before : Int) {v : Int} (hlo : -2147483648 ≤ v)
    (hhi : v ≤ 2147483647) : lexicalCast before (toString v) = v := by
  have hdigits (n : Nat) : digitsValue (Nat.toDigits 10 n) = n := Nat.ofDigitChars_ten_toDigits
  cases v with
  | ofNat n =>
    have hlist : (toString (Int.ofNat n)).toList = [] ++ Nat.toDigits 10 n := Nat.toList_repr
    rw [lexicalCast, hlist, extractInt_signed (.inl rfl) Nat.toDigits_ne_nil isDigit_toDigits,
      if_pos rfl, hdigits]
    unfold clamp
    rw [Int.ofNat_eq_natCast] at hlo hhi ⊢
    omega
  | negSucc n =>
    have hlist : (toString (Int.negSucc n)).toList = ['-'] ++ Nat.toDigits 10 (n + 1) := by
      show ("-" ++ Nat.repr (n + 1)).toList = _
      rw [String.toList_append, Nat.toList_repr]
      rfl
    rw [lexicalCast, hlist, extractInt_signed (.inr rfl) Nat.toDigits_ne_nil isDigit_toDigits,
      if_neg (by decide), hdigits]
    unfold clamp
    omega

theorem readDsnString_iff {text v key : String} {p : Profile} (h : p key = some text) :
    p.readDsnString key = some v ↔ text = v ∧ v ≠ unique := by
  unfold Profile.readDsnString
  simp only [h, Option.getD_some]
  constructor
  · intro hread
    split at hread
    · rename_i hne
      obtain rfl := Option.some.inj hread
      exact ⟨rfl, hne⟩
    · cases hread
  · rintro ⟨rfl, hne⟩
    rw [if_pos hne]

theorem dsnValue_kept_iff (hI : I.Documented) {p : Profile} {a : Attribute} {v : a.Value}
    (hv : a.InRange v) (h : p a.key = some (I.stored (cStr (a.print v)))) :
    Configuration.dsnValue H before p a = some v ↔ a.Kept I H v := by
  have hword {text : String} (hw : Word text) : I.stored (cStr text) = text := by
    rw [cStr_word hw, hI.stored_word text hw]
  have hnumber (key : String) (before v : Int) (hlo : -2147483648 ≤ v) (hhi : v ≤ 2147483647)
      (hkey : p key = some (I.stored (cStr (toString v)))) :
      p.readDsnInt before key = some v := by
    rw [hword (word_toString v)] at hkey
    have hne : toString v ≠ unique := by
      intro hsame
      rcases toString_chars v 'a' (by rw [hsame]; decide) with h | h <;> cases h
    rw [Profile.readDsnInt, (readDsnString_iff hkey).mpr ⟨rfl, hne⟩, Option.map_some,
      lexicalCast_toString before hlo hhi]
  cases a with
  | dsn | driver => exact iff_of_false nofun id
  | uid | pwd | profileName | endpoint => exact readDsnString_iff h
  | reqTimeout | maxRetryCountClient | maxRowPerPage =>
    exact iff_of_true (hnumber _ _ v hv.1 hv.2 h) trivial
  | authType =>
    refine iff_of_true ?_ trivial
    have hw : Word (AuthType.toText v) := by cases v <;> exact word_of_all (by decide) rfl
    have htext : p Attribute.authType.key = some (AuthType.toText v) :=
      h.trans (congrArg some (hword hw))
    have hne : AuthType.toText v ≠ unique := by cases v <;> decide
    rw [Configuration.dsnValue, (readDsnString_iff htext).mpr ⟨rfl, hne⟩, Option.map_some]
    cases v <;> decide +kernel
  | logLevel =>
    have hw : Word (LogLevel.toText v) := by cases v <;> exact word_of_all (by decide) rfl
    have htext : p Attribute.logLevel.key = some (LogLevel.toText v) :=
      h.trans (congrArg some (hword hw))
    have hne : LogLevel.toText v ≠ unique := by cases v <;> decide
    rw [Configuration.dsnValue, (readDsnString_iff htext).mpr ⟨rfl, hne⟩, Option.map_some]
    show _ ↔ v ≠ LogLevel.unknown
    cases v <;> decide +kernel
  | logPath =>
    rw [Configuration.dsnValue, Option.filter_eq_some_iff, readDsnString_iff h]
    rfl

/-- After any run of calls a data source is read as it has been registered last, with the values
that are kept, and one that has been removed is read as nothing. -/
theorem registry_iff (I : Installer) (hI : I.Documented) (H : Host) (before : Attribute → Int)
    (file : I.File) (commands : List DsnCommand) (n : String) (hn : ¬ SameName n dataSources)
    (registered : Option Configuration)
    (hregistered : (Machine.after (DsnRegistry.step I H) (file, fun _ => none) commands).2 n =
      some registered)
    (hrange : ∀ cfg ∈ registered, ∀ (a : Attribute) (v : a.Value), cfg a = some v → a.InRange v)
    (a : Attribute) :
    Configuration.readDsnConfiguration H before
        (I.getString (Machine.after (DsnRegistry.step I H) (file, fun _ => none) commands).1 n)
        .empty a = registered.bind (· a) ↔
      ∀ cfg ∈ registered, ∀ v, cfg a = some v → a.Kept I H v := by
  have hdescribes := Machine.after_invariant (I := fun s => Describes I s.1 s.2)
    (step_describes hI) (s := (file, fun _ => none)) nofun commands n hn registered hregistered
  have hempty : Configuration.isSet .empty a = false := by
    simp [Configuration.isSet, Configuration.empty]
  rw [Configuration.readDsnConfiguration_get, if_pos hempty, Configuration.empty, Option.or_none]
  generalize I.getString (Machine.after (DsnRegistry.step I H) (file, fun _ => none) commands).1 n
    = p at hdescribes
  -- The text of the key, of an attribute that is written.
  have hprofile (hdsn : a ≠ .dsn) (hdriver : a ≠ .driver) :
      p a.key = (registered.bind (· a)).map fun v => I.stored (cStr (a.print v)) := by
    have hkey : ¬ SameName a.key "driver" := by
      intro hsame
      rw [SameName, Configuration.toLower_key] at hsame
      exact hdriver (Attribute.key_injective (hsame.trans (Configuration.toLower_key .driver)))
    rw [hdescribes a.key hkey]
    cases registered with
    | none => rfl
    | some cfg => exact profile_key cfg hdsn hdriver
  cases hvalue : registered.bind (· a) with
  | none =>
    refine iff_of_true ?_ fun cfg hcfg v hv => ?_
    · by_cases hdsn : a = .dsn
      · rw [hdsn]
        rfl
      by_cases hdriver : a = .driver
      · rw [hdriver]
        rfl
      exact dsnValue_none (by rw [hprofile hdsn hdriver, hvalue, Option.map_none])
    · rw [Option.bind_eq_none_iff] at hvalue
      rw [hvalue cfg hcfg] at hv
      cases hv
  | some v =>
    obtain ⟨cfg, hcfg, hv⟩ := Option.bind_eq_some_iff.mp hvalue
    have hkept : Configuration.dsnValue H before p a = some v ↔ a.Kept I H v := by
      by_cases hdsn : a = .dsn
      · subst hdsn
        exact iff_of_false nofun id
      by_cases hdriver : a = .driver
      · subst hdriver
        exact iff_of_false nofun id
      exact dsnValue_kept_iff hI (hrange cfg hcfg a v hv)
        (by rw [hprofile hdsn hdriver, hvalue, Option.map_some])
    rw [hkept]
    constructor
    · intro h cfg' hcfg' v' hv'
      obtain rfl := Option.some.inj (hcfg.symm.trans hcfg')
      obtain rfl := Option.some.inj (hv.symm.trans hv')
      exact h
    · exact fun h => h cfg hcfg v hv

end Reading

section Example

/-- An installer library that never fails, and does not keep spaces around a text. -/
def memoryInstaller : Installer where
  File := String → Profile
  getString file n k := file (toLower n) (toLower k)
  writeString file dsn key value :=
    (true, fun n k => if n = toLower dsn ∧ k = toLower key then some (trim value) else file n k)
  writeDsn file dsn driver :=
    (true, fun n k =>
      if n = toLower dsn then if k = "driver" then some driver else none
      else if n = toLower dataSources ∧ k = toLower dsn then some driver else file n k)
  removeDsn file dsn :=
    (true, fun n k =>
      if n = toLower dsn then none
      else if n = toLower dataSources ∧ k = toLower dsn then none else file n k)
  stored := trim

theorem trim_word {text : String} (h : Word text) : trim text = text := by
  have hspace : ∀ c ∈ text.toList, TableMetadataQuery.isSpace c = false := by
    intro c hc
    by_contra hspace
    rw [Bool.not_eq_false] at hspace
    have hmem : c ∈ [' ', '\t', '\n', '\x0b', '\x0c', '\r'] := of_decide_eq_true hspace
    simp only [List.mem_cons, List.not_mem_nil, or_false] at hmem
    rcases hmem with rfl | rfl | rfl | rfl | rfl | rfl <;> rcases h.2 _ hc with h | h <;> cases h
  rw [trim, trim_of_noSpace hspace, String.ofList_toList]

theorem memoryInstaller_documented : memoryInstaller.Documented where
  stored_word _ h := trim_word h
  writeString_self file dsn key value n k _ hn := by
    have hn : toLower n = toLower dsn := hn
    simp [memoryInstaller, hn, SameName]
  writeString_other file dsn key value n hn := by
    have hn : toLower n ≠ toLower dsn := hn
    funext k
    simp [memoryInstaller, hn]
  writeDsn_self file dsn driver n k _ _ hn hk := by
    have hn : toLower n = toLower dsn := hn
    have hk : toLower k ≠ "driver" := hk
    simp [memoryInstaller, hn, hk]
  writeDsn_other file dsn driver n hsources hn := by
    have hn : toLower n ≠ toLower dsn := hn
    have hsources : toLower n ≠ toLower dataSources := hsources
    funext k
    simp [memoryInstaller, hn, hsources]
  removeDsn_self file dsn n _ _ hn := by
    have hn : toLower n = toLower dsn := hn
    funext k
    simp [memoryInstaller, hn]
  removeDsn_other file dsn n hsources hn := by
    have hn : toLower n ≠ toLower dsn := hn
    have hsources : toLower n ≠ toLower dataSources := hsources
    funext k
    simp [memoryInstaller, hn, hsources]

def paddedPassword : Configuration :=
  ((Configuration.empty.set .dsn "Trino").set .uid "me").set .pwd " secret"

def paddedRun : memoryInstaller.File × DsnRegistry :=
  Machine.after (DsnRegistry.step memoryInstaller linuxHost) (fun _ _ => none, fun _ => none)
    [.write paddedPassword, .delete "Other"]

/-- The user comes back, and the password does not: it has a space before it. -/
theorem registry_padded :
    Configuration.readDsnConfiguration linuxHost (fun _ => 0)
        (memoryInstaller.getString paddedRun.1 "TRINO") .empty .uid = some "me" ∧
      Configuration.readDsnConfiguration linuxHost (fun _ => 0)
        (memoryInstaller.getString paddedRun.1 "TRINO") .empty .pwd ≠ some " secret" := by
  have hregistered : paddedRun.2 "TRINO" = some (some paddedPassword) := by
    rfl
  have hrange : ∀ cfg ∈ some paddedPassword, ∀ (a : Attribute) (v : a.Value),
      cfg a = some v → a.InRange v := by
    intro cfg hcfg a v hv
    obtain rfl := Option.some.inj hcfg
    cases a with
    | reqTimeout | maxRetryCountClient | maxRowPerPage => exact absurd hv nofun
    | _ => trivial
  have hread := registry_iff memoryInstaller memoryInstaller_documented linuxHost (fun _ => 0)
    (fun _ _ => none) [.write paddedPassword, .delete "Other"] "TRINO" (by decide)
    (some paddedPassword) hregistered hrange
  constructor
  · refine (hread .uid).mpr fun cfg hcfg v hv => ?_
    obtain rfl := Option.some.inj hcfg
    obtain rfl : "me" = v := Option.some.inj hv
    exact ⟨by decide, by decide⟩
  · intro hpwd
    have hkept := (hread .pwd).mp hpwd paddedPassword rfl " secret" rfl
    exact absurd hkept.1 (by decide)

end Example

end TrinoOdbc
