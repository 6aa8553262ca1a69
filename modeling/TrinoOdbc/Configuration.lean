import TrinoOdbc.TableMetadata
import Mathlib.Data.Int.ModEq

/-!
# TrinoOdbc.Configuration

`Configuration`: a value for each connection attribute, set or not. `HandleAttributePair` sets the
attribute that a key names, when it accepts the text.

A `std::string` is a `String` whose characters stand for its bytes. What setting the log level and
the log path does to the logger is not modelled here.
-/

namespace TrinoOdbc

inductive AuthType where
  | password | oauth2 | kerberos | certificate | jwt | header
  deriving DecidableEq, Repr

inductive LogLevel where
  | off | errorLevel | warningLevel | infoLevel | debugLevel | unknown
  deriving DecidableEq, Repr

/-- What the configuration depends on: the file system, the default path for the log, and the size
of a `std::string` object. -/
structure Host where
  isValidDirectory : String → Bool
  defaultLogPath : String
  sizeofString : Nat

/-! ## Texts -/

def toLower (s : String) : String := String.ofList (s.toList.map Char.toLower)

def trim (s : String) : String := String.ofList (TableMetadataQuery.trim s.toList)

def allDigits (s : String) : Bool := s.toList.all Char.isDigit

/-- The number a text of digits denotes. -/
def digitsValue (digits : List Char) : Nat := Nat.ofDigitChars 10 digits 0

def clamp (lo hi n : Int) : Int := max lo (min hi n)

/-- `stream >> n` for an integer `n` between `lo` and `hi` that was `before`. Without anything to
read it keeps its value, without a number it becomes 0, and a number out of range is cut. -/
def extractInt (lo hi before : Int) (text : List Char) : Int :=
  match text.dropWhile TableMetadataQuery.isSpace with
  | [] => before
  | c :: cs =>
    let digits := (if c = '-' ∨ c = '+' then cs else c :: cs).takeWhile Char.isDigit
    if digits = [] then 0
    else clamp lo hi (if c = '-' then -digitsValue digits else digitsValue digits)

def extractInt64 (before : Int) (text : String) : Int :=
  extractInt (-9223372036854775808) 9223372036854775807 before text.toList

/-- `UINT32_MAX`. -/
def uint32Max : Int := 4294967295

/-- The conversion of an `uint32_t` to an `int32_t`. -/
def toInt32 (n : Int) : Int := n.bmod 4294967296

namespace AuthType

def fromString (val : String) (dflt : AuthType) : AuthType :=
  let lowerVal := trim (toLower val)
  if lowerVal = "password" then .password
  else if lowerVal = "oauth2" then .oauth2
  else if lowerVal = "kerberos" then .kerberos
  else if lowerVal = "certificate" then .certificate
  else if lowerVal = "jwt" then .jwt
  else if lowerVal = "header" then .header
  else dflt

def toText : AuthType → String
  | .password => "password"
  | .oauth2 => "oauth2"
  | .kerberos => "kerberos"
  | .certificate => "certificate"
  | .jwt => "jwt"
  | .header => "header"

end AuthType

namespace LogLevel

def fromString (val : String) (dflt : LogLevel) : LogLevel :=
  let logLevel := trim val
  if logLevel = "4" then .debugLevel
  else if logLevel = "3" then .infoLevel
  else if logLevel = "2" then .warningLevel
  else if logLevel = "1" then .errorLevel
  else if logLevel = "0" then .off
  else dflt

def toText : LogLevel → String
  | .debugLevel => "4"
  | .infoLevel => "3"
  | .warningLevel => "2"
  | .errorLevel => "1"
  | .off => "0"
  | .unknown => "unknown"

end LogLevel

/-! ## The class -/

inductive Attribute where
  | dsn | driver | uid | pwd | profileName | reqTimeout | maxRetryCountClient | endpoint | authType
  | logLevel | logPath | maxRowPerPage
  deriving DecidableEq, Repr

namespace Attribute

def all : List Attribute :=
  [.dsn, .driver, .uid, .pwd, .profileName, .reqTimeout, .maxRetryCountClient, .endpoint, .authType,
    .logLevel, .logPath, .maxRowPerPage]

/-- `ConnectionStringParser::Key`. -/
def key : Attribute → String
  | .dsn => "dsn"
  | .driver => "driver"
  | .uid => "uid"
  | .pwd => "pwd"
  | .profileName => "profilename"
  | .reqTimeout => "requesttimeout"
  | .maxRetryCountClient => "maxretrycountclient"
  | .endpoint => "endpointoverride"
  | .authType => "auth"
  | .logLevel => "loglevel"
  | .logPath => "logoutput"
  | .maxRowPerPage => "maxrowperpage"

/-- The attribute with a key. -/
def ofKey (lKey : String) : Option Attribute := all.find? fun a => lKey = a.key

abbrev Value : Attribute → Type
  | .reqTimeout | .maxRetryCountClient | .maxRowPerPage => Int
  | .authType => AuthType
  | .logLevel => LogLevel
  | .dsn | .driver | .uid | .pwd | .profileName | .endpoint | .logPath => String

instance (a : Attribute) : DecidableEq a.Value := by
  cases a <;> infer_instance

/-- `Configuration::DefaultValue`. -/
def defaultValue (H : Host) : (a : Attribute) → a.Value
  | .dsn => "Trino DSN"
  | .driver => "Trino ODBC Driver"
  | .uid | .pwd | .profileName | .endpoint => ""
  | .reqTimeout => (3000 : Int)
  | .maxRetryCountClient => (0 : Int)
  | .authType => AuthType.password
  | .logLevel => LogLevel.warningLevel
  | .logPath => H.defaultLogPath
  | .maxRowPerPage => (-1 : Int)

end Attribute

/-- A `SettableValue` for each attribute, `none` when it is not set. -/
def Configuration := (a : Attribute) → Option a.Value

namespace Configuration

def empty : Configuration := fun _ => none

def set (cfg : Configuration) (a : Attribute) (value : a.Value) : Configuration :=
  Function.update cfg a (some value)

/-- `GetValue`: the value, or the default when it is not set. -/
def get (H : Host) (cfg : Configuration) (a : Attribute) : a.Value :=
  (cfg a).getD (a.defaultValue H)

@[simp] theorem set_self (cfg : Configuration) (a : Attribute) (value : a.Value) :
    cfg.set a value a = some value := Function.update_self ..

@[simp] theorem set_of_ne (cfg : Configuration) {a b : Attribute} (value : a.Value) (h : b ≠ a) :
    cfg.set a value b = cfg b := Function.update_of_ne h ..

end Configuration

/-! ## HandleAttributePair -/

def makeErrorMessage (msg key value : String) : String :=
  msg ++ " [key='" ++ key ++ "', value='" ++ value ++ "']"

/-- The text of a number attribute: the number it is set to, or the message that rejects it. -/
def readNumber (H : Host) (name : String) (least : Int) (key value : String) :
    Except (Option String) Int :=
  let reject (reason : String) : Except (Option String) Int :=
    .error (some (makeErrorMessage
      (name ++ " attribute value " ++ reason ++ ". Using default value.") key value))
  if value = "" then reject "is empty"
  else if allDigits value = false then reject "contains unexpected characters"
  else if H.sizeofString ≤ value.length then reject "is too large"
  else
    let numValue := extractInt64 0 value
    if numValue < least ∨ uint32Max < numValue then reject "is out of range"
    else .ok (toInt32 numValue)

def readReqTimeout (H : Host) := readNumber H "Request Timeout" 1

def readMaxRetryCountClient (H : Host) := readNumber H "Max Retry Count Client" 0

def readMaxRowPerPage (H : Host) := readNumber H "Max Row Per Page" 0

def readAuthType (value : String) : Except (Option String) AuthType :=
  let authType := AuthType.fromString value .password
  if trim (toLower value) ≠ "password" ∧ authType = .password then
    .error (some "Specified AUTH is not supported. Default value used ('PASSWORD').")
  else .ok authType

def readLogLevel (value : String) : Except (Option String) LogLevel :=
  let level := LogLevel.fromString value .unknown
  if level = .unknown then
    .error (some "Specified Log Level is not supported. Default value used ('2').")
  else .ok level

/-- `SetLogPath`. -/
def readLogPath (H : Host) (path : String) : Except (Option String) String :=
  if H.isValidDirectory path then .ok path else .error none

/-- What `HandleAttributePair` makes of the text for an attribute. -/
def Attribute.read (H : Host) (a : Attribute) (key value : String) :
    Except (Option String) a.Value :=
  match a with
  | .dsn | .driver | .uid | .pwd | .profileName | .endpoint => .ok value
  | .reqTimeout => readReqTimeout H key value
  | .maxRetryCountClient => readMaxRetryCountClient H key value
  | .authType => readAuthType value
  | .logLevel => readLogLevel value
  | .logPath => readLogPath H value
  | .maxRowPerPage => readMaxRowPerPage H key value

/-- The configuration a parser works on, and the records, `none` when there is no place for them. -/
structure ConnectionStringParser where
  cfg : Configuration
  diag : Option (List DiagnosticRecord)

namespace ConnectionStringParser

def addStatusRecord (p : ConnectionStringParser) (message : String) : ConnectionStringParser :=
  { p with diag := p.diag.map (· ++ [{ sqlState := .s01S02OptionValueChanged, message }]) }

/-- The record about an attribute that has been set before. -/
def warnRewriting (p : ConnectionStringParser) (a : Attribute) : ConnectionStringParser :=
  if a = .uid ∧ (p.cfg .uid).getD "" ≠ "" then
    p.addStatusRecord "Re-writing UID (have you specified it several times?"
  else if a = .pwd ∧ (p.cfg .pwd).getD "" ≠ "" then
    p.addStatusRecord "Re-writing PWD (have you specified it several times?"
  else p

def set (p : ConnectionStringParser) (a : Attribute) (value : a.Value) : ConnectionStringParser :=
  { p with cfg := p.cfg.set a value }

/-- The end of each branch of `HandleAttributePair`. -/
def store (p : ConnectionStringParser) (a : Attribute) :
    Except (Option String) a.Value → ConnectionStringParser
  | .error none => p
  | .error (some message) => p.addStatusRecord message
  | .ok value => (p.warnRewriting a).set a value

def handleAttributePair (H : Host) (p : ConnectionStringParser) (key value : String) :
    ConnectionStringParser :=
  match Attribute.ofKey (toLower key) with
  | none => p.addStatusRecord ("Unknown attribute: '" ++ key ++ "'. Ignoring.")
  | some a => p.store a (a.read H key value)

end ConnectionStringParser

/-! ## What a pair comes to -/

namespace Attribute

theorem ofKey_key (a : Attribute) : ofKey a.key = some a := by
  cases a <;> decide

theorem key_injective : Function.Injective key := by
  intro a b h
  have hsome : some a = some b := by rw [← ofKey_key, h, ofKey_key]
  exact Option.some.inj hsome

theorem key_of_ofKey {lKey : String} {a : Attribute} (h : ofKey lKey = some a) : lKey = a.key := by
  simpa using List.find?_some h

/-- The value a text is accepted with. -/
def accepted (H : Host) (a : Attribute) (key value : String) : Option a.Value :=
  (a.read H key value).toOption

end Attribute

namespace ConnectionStringParser

variable {H : Host} {p : ConnectionStringParser} {key value : String}

@[simp] theorem warnRewriting_cfg (a : Attribute) : (p.warnRewriting a).cfg = p.cfg := by
  unfold warnRewriting
  split
  · rfl
  · split <;> rfl

/-- A key that names an attribute, in any case. -/
theorem handleAttributePair_of_key {a : Attribute} (hkey : toLower key = a.key) :
    p.handleAttributePair H key value = p.store a (a.read H key value) := by
  unfold handleAttributePair
  rw [hkey, Attribute.ofKey_key]

theorem store_get_self (a : Attribute) (r : Except (Option String) a.Value) :
    (p.store a r).cfg a = r.toOption.or (p.cfg a) := by
  rcases r with (_ | message) | v
  · rfl
  · rfl
  · exact Configuration.set_self _ a v

theorem store_get_of_ne {a b : Attribute} (h : b ≠ a) (r : Except (Option String) a.Value) :
    (p.store a r).cfg b = p.cfg b := by
  rcases r with (_ | message) | v
  · rfl
  · rfl
  · have hset : ((p.warnRewriting a).set a v).cfg b = (p.warnRewriting a).cfg b :=
      Configuration.set_of_ne _ v h
    exact hset.trans (congrFun (warnRewriting_cfg a) b)

/-- A pair sets the attribute its key names, to the value its text is accepted with, and no
other. -/
theorem handleAttributePair_get (a : Attribute) :
    (p.handleAttributePair H key value).cfg a =
      (if toLower key = a.key then a.accepted H key value else none).or (p.cfg a) := by
  by_cases hkey : toLower key = a.key
  · rw [if_pos hkey, handleAttributePair_of_key hkey, store_get_self, Attribute.accepted]
  · rw [if_neg hkey, Option.none_or]
    unfold handleAttributePair
    cases hof : Attribute.ofKey (toLower key) with
    | none => rfl
    | some b =>
      have hne : a ≠ b := by
        rintro rfl
        exact hkey (Attribute.key_of_ofKey hof)
      exact store_get_of_ne hne _

end ConnectionStringParser

/-! ## A host -/

/-- A host whose `std::string` has 32 bytes. -/
def linuxHost : Host :=
  { isValidDirectory := (· = "/var/log"), defaultLogPath := "/home/user", sizeofString := 32 }

def newParser : ConnectionStringParser := ⟨Configuration.empty, some []⟩

end TrinoOdbc
