import TrinoOdbc.Configuration
import Mathlib.Data.List.TakeWhile

/-!
# TrinoOdbc.NumberAttributes

`RequestTimeout`, `MaxRetryCountClient` and `MaxRowPerPage`. The text of such an attribute is
checked as an `uint32_t` and stored in an `int32_t` (`keepsNumber_iff`).
-/

namespace TrinoOdbc

open ConnectionStringParser

/-! ## Reading digits -/

section Digits

variable {value : String}

theorem toList_ne_nil (h : value ≠ "") : value.toList ≠ [] := by
  rwa [ne_eq, String.toList_eq_nil_iff]

theorem isSpace_digit {c : Char} (h : c.isDigit = true) : TableMetadataQuery.isSpace c = false := by
  by_contra hspace
  rw [Bool.not_eq_false] at hspace
  have hmem : c ∈ [' ', '\t', '\n', '\x0b', '\x0c', '\r'] := of_decide_eq_true hspace
  simp only [List.mem_cons, List.not_mem_nil, or_false] at hmem
  rcases hmem with rfl | rfl | rfl | rfl | rfl | rfl <;> cases h

theorem sign_digit {c : Char} (h : c.isDigit = true) : ¬ c = '-' ∧ ¬ c = '+' := by
  constructor <;> rintro rfl <;> cases h

/-- Digits are read as the number they denote, cut at the largest one. -/
theorem extractInt_digits {lo hi : Int} (before : Int) (hlo : lo ≤ 0) (hhi : 0 ≤ hi)
    (hne : value ≠ "") (h : allDigits value = true) :
    extractInt lo hi before value.toList = min hi (digitsValue value.toList) := by
  have hall : ∀ c ∈ value.toList, c.isDigit = true := List.all_eq_true.mp h
  unfold extractInt
  cases hlist : value.toList with
  | nil => exact absurd hlist (toList_ne_nil hne)
  | cons c cs =>
    rw [hlist] at hall
    have hc : c.isDigit = true := hall c List.mem_cons_self
    obtain ⟨hminus, hplus⟩ := sign_digit hc
    have hdrop : (c :: cs).dropWhile TableMetadataQuery.isSpace = c :: cs :=
      List.dropWhile_cons_of_neg (by simp [isSpace_digit hc])
    have htake : (c :: cs).takeWhile Char.isDigit = c :: cs :=
      List.takeWhile_eq_self_iff.mpr hall
    simp only [hdrop, hminus, hplus, or_self, if_false, htake, reduceCtorEq]
    unfold clamp
    omega

/-- A sign and digits, or digits alone. -/
theorem extractInt_signed {lo hi before : Int} {sign ds : List Char}
    (hsign : sign = [] ∨ sign = ['-']) (hne : ds ≠ []) (hds : ∀ c ∈ ds, c.isDigit = true) :
    extractInt lo hi before (sign ++ ds) =
      clamp lo hi (if sign = [] then digitsValue ds else -digitsValue ds) := by
  have htake : ds.takeWhile Char.isDigit = ds := List.takeWhile_eq_self_iff.mpr hds
  unfold extractInt
  rcases hsign with rfl | rfl
  · obtain ⟨c, cs, rfl⟩ := List.exists_cons_of_ne_nil hne
    have hc := hds c List.mem_cons_self
    obtain ⟨hminus, hplus⟩ := sign_digit hc
    rw [List.nil_append, List.dropWhile_cons_of_neg (by simp [isSpace_digit hc])]
    simp only [hminus, hplus, or_self, if_false, htake, reduceCtorEq, if_true]
  · rw [List.singleton_append, List.dropWhile_cons_of_neg (by decide)]
    simp only [true_or, if_true, htake, if_neg hne, reduceCtorEq, if_false]

theorem extractInt64_digits (before : Int) (hne : value ≠ "") (h : allDigits value = true) :
    extractInt64 before value = min (9223372036854775807 : Int) (digitsValue value.toList) :=
  extractInt_digits before (by decide) (by decide) hne h

theorem toInt32_emod (n : Int) : toInt32 n % 4294967296 = n % 4294967296 := by
  have h := @Int.bmod_emod n 4294967296
  simp only [Nat.cast_ofNat] at h
  exact h

theorem toInt32_eq_iff {n : Int} (hlo : 0 ≤ n) (hhi : n ≤ uint32Max) :
    toInt32 n = n ↔ n < 2147483648 := by
  unfold uint32Max at hhi
  have hmod : n % 4294967296 = n := Int.emod_eq_of_lt hlo (by omega)
  unfold toInt32 Int.bmod
  simp only [Nat.cast_ofNat, hmod]
  split <;> omega

end Digits

/-! ## The three attributes -/

inductive NumberAttribute where
  | reqTimeout | maxRetryCountClient | maxRowPerPage
  deriving DecidableEq, Repr

namespace NumberAttribute

def toAttribute : NumberAttribute → Attribute
  | .reqTimeout => .reqTimeout
  | .maxRetryCountClient => .maxRetryCountClient
  | .maxRowPerPage => .maxRowPerPage

def name : NumberAttribute → String
  | .reqTimeout => "Request Timeout"
  | .maxRetryCountClient => "Max Retry Count Client"
  | .maxRowPerPage => "Max Row Per Page"

def least : NumberAttribute → Int
  | .reqTimeout => 1
  | .maxRetryCountClient | .maxRowPerPage => 0

/-- `GetReqTimeout`, `GetMaxRetryCountClient` and `GetMaxRowPerPage`. -/
def get (H : Host) (cfg : Configuration) : NumberAttribute → Int
  | .reqTimeout => cfg.get H .reqTimeout
  | .maxRetryCountClient => cfg.get H .maxRetryCountClient
  | .maxRowPerPage => cfg.get H .maxRowPerPage

/-- The set value. -/
def set (p : ConnectionStringParser) (v : Int) : NumberAttribute → ConnectionStringParser
  | .reqTimeout => p.set .reqTimeout v
  | .maxRetryCountClient => p.set .maxRetryCountClient v
  | .maxRowPerPage => p.set .maxRowPerPage v

/-- A text of digits only, for a number in the range of the parser. -/
def Accepts (n : NumberAttribute) (value : String) : Prop :=
  value ≠ "" ∧ allDigits value = true ∧ n.least ≤ digitsValue value.toList ∧
    (digitsValue value.toList : Int) ≤ uint32Max

instance (n : NumberAttribute) (value : String) : Decidable (n.Accepts value) :=
  inferInstanceAs (Decidable (_ ∧ _))

end NumberAttribute

section Numbers

variable {H : Host} {n : NumberAttribute} {p : ConnectionStringParser} {key value : String}

theorem handleAttributePair_number (hkey : toLower key = n.toAttribute.key) :
    p.handleAttributePair H key value =
      match readNumber H n.name n.least key value with
      | .error none => p
      | .error (some message) => p.addStatusRecord message
      | .ok v => n.set p v := by
  rw [handleAttributePair_of_key hkey]
  cases n with
  | reqTimeout =>
    show p.store .reqTimeout (readNumber H "Request Timeout" 1 key value) = _
    simp only [NumberAttribute.name, NumberAttribute.least]
    rcases readNumber H "Request Timeout" 1 key value with (_ | _) | _ <;> rfl
  | maxRetryCountClient =>
    show p.store .maxRetryCountClient (readNumber H "Max Retry Count Client" 0 key value) = _
    simp only [NumberAttribute.name, NumberAttribute.least]
    rcases readNumber H "Max Retry Count Client" 0 key value with (_ | _) | _ <;> rfl
  | maxRowPerPage =>
    show p.store .maxRowPerPage (readNumber H "Max Row Per Page" 0 key value) = _
    simp only [NumberAttribute.name, NumberAttribute.least]
    rcases readNumber H "Max Row Per Page" 0 key value with (_ | _) | _ <;> rfl

theorem get_set (v : Int) : n.get H (n.set p v).cfg = v := by
  cases n <;> simp [NumberAttribute.get, NumberAttribute.set, ConnectionStringParser.set,
    Configuration.get]

/-- A text the parser accepts, unless it is too long for it. -/
theorem readNumber_accepts (H : Host) (key : String) (h : n.Accepts value) :
    (H.sizeofString ≤ value.length ∧
      ∃ message, readNumber H n.name n.least key value = .error (some message)) ∨
    (¬ H.sizeofString ≤ value.length ∧
      readNumber H n.name n.least key value = .ok (toInt32 (digitsValue value.toList))) := by
  obtain ⟨hne, hdigits, hlo, hhi⟩ := h
  have hdigits' : ¬ allDigits value = false := by simp [hdigits]
  unfold readNumber
  simp only
  rw [if_neg hne, if_neg hdigits']
  by_cases hlong : H.sizeofString ≤ value.length
  · exact .inl ⟨hlong, _, if_pos hlong⟩
  · refine .inr ⟨hlong, ?_⟩
    have hnum : extractInt64 0 value = digitsValue value.toList := by
      rw [extractInt64_digits 0 hne hdigits]
      unfold uint32Max at hhi
      omega
    have hrange : ¬ ((digitsValue value.toList : Int) < n.least ∨
        uint32Max < (digitsValue value.toList : Int)) := by omega
    rw [if_neg hlong, hnum, if_neg hrange]

/-- Every other text is rejected with a message. -/
theorem readNumber_rejects (H : Host) (key : String) (h : ¬ n.Accepts value) :
    ∃ message, readNumber H n.name n.least key value = .error (some message) := by
  unfold readNumber
  simp only
  by_cases hne : value = ""
  · exact ⟨_, if_pos hne⟩
  by_cases hdigits : allDigits value = false
  · exact ⟨_, (if_neg hne).trans (if_pos hdigits)⟩
  by_cases hlong : H.sizeofString ≤ value.length
  · exact ⟨_, (if_neg hne).trans ((if_neg hdigits).trans (if_pos hlong))⟩
  have hdigits' : allDigits value = true := by simpa using hdigits
  have hrange : extractInt64 0 value < n.least ∨ uint32Max < extractInt64 0 value := by
    rw [extractInt64_digits 0 hne hdigits']
    by_contra hin
    refine h ⟨hne, hdigits', ?_⟩
    unfold uint32Max at hin ⊢
    omega
  exact ⟨_, (if_neg hne).trans ((if_neg hdigits).trans ((if_neg hlong).trans (if_pos hrange)))⟩

/-- What a number attribute is meant to do with a text: keep the number, or leave the configuration
as it is and add one record. -/
structure KeepsNumber (H : Host) (n : NumberAttribute) (p : ConnectionStringParser)
    (key value : String) : Prop where
  kept : n.Accepts value →
    n.get H (p.handleAttributePair H key value).cfg = digitsValue value.toList
  unchanged : ¬ n.Accepts value → (p.handleAttributePair H key value).cfg = p.cfg
  recorded : ¬ n.Accepts value → ∀ records, p.diag = some records → ∃ record,
    (p.handleAttributePair H key value).diag = some (records ++ [record]) ∧
      record.sqlState = .s01S02OptionValueChanged

/-- The number is kept exactly when it fits an `int32_t` and its text is shorter than a
`std::string` object is large; a longer text is rejected, which goes unnoticed when the attribute
has that number already. -/
theorem keepsNumber_iff (hkey : toLower key = n.toAttribute.key) :
    KeepsNumber H n p key value ↔
      (n.Accepts value →
        if H.sizeofString ≤ value.length then n.get H p.cfg = digitsValue value.toList
        else digitsValue value.toList < 2147483648) := by
  have hpair : p.handleAttributePair H key value = _ := handleAttributePair_number hkey
  by_cases hacc : n.Accepts value
  · have hpos : (0 : Int) ≤ digitsValue value.toList := Int.natCast_nonneg _
    have hkept : n.get H (p.handleAttributePair H key value).cfg = digitsValue value.toList ↔
        if H.sizeofString ≤ value.length then n.get H p.cfg = digitsValue value.toList
        else digitsValue value.toList < 2147483648 := by
      rcases readNumber_accepts H key hacc with ⟨hlong, message, hread⟩ |
        ⟨hlong, hread⟩
      · rw [hpair, hread, if_pos hlong]
        rfl
      · rw [hpair, hread, if_neg hlong]
        simp only
        rw [get_set, toInt32_eq_iff hpos hacc.2.2.2]
        omega
    constructor
    · intro h _
      exact hkept.mp (h.kept hacc)
    · intro h
      exact ⟨fun _ => hkept.mpr (h hacc), fun hno => absurd hacc hno, fun hno => absurd hacc hno⟩
  · obtain ⟨message, hread⟩ := readNumber_rejects H key hacc
    rw [hread] at hpair
    refine iff_of_true ⟨fun h => absurd h hacc, fun _ => ?_, fun _ records hdiag => ?_⟩
      fun h => absurd h hacc
    · rw [hpair]
      rfl
    · refine ⟨{ sqlState := .s01S02OptionValueChanged, message }, ?_, rfl⟩
      simp only [hpair, addStatusRecord, hdiag, Option.map_some]

end Numbers

section Examples

/-- A number below 2 ^ 31. -/
theorem keepsNumber_small :
    KeepsNumber linuxHost .reqTimeout newParser "RequestTimeout" "4000" := by
  have hkey : toLower "RequestTimeout" = NumberAttribute.reqTimeout.toAttribute.key := by decide
  refine (keepsNumber_iff hkey).mpr fun _ => ?_
  have hshort : ¬ linuxHost.sizeofString ≤ "4000".length := by decide
  rw [if_neg hshort]
  decide

/-- 3000000000 is accepted and stored as a negative number. -/
theorem keepsNumber_wraps : NumberAttribute.reqTimeout.Accepts "3000000000" ∧
    NumberAttribute.reqTimeout.get linuxHost
      (newParser.handleAttributePair linuxHost "RequestTimeout" "3000000000").cfg = -1294967296 ∧
    ¬ KeepsNumber linuxHost .reqTimeout newParser "RequestTimeout" "3000000000" := by
  have haccepts : NumberAttribute.reqTimeout.Accepts "3000000000" := by decide
  have hget : NumberAttribute.reqTimeout.get linuxHost
      (newParser.handleAttributePair linuxHost "RequestTimeout" "3000000000").cfg =
        -1294967296 := by
    decide +kernel
  refine ⟨haccepts, hget, fun h => ?_⟩
  have hkept := h.kept haccepts
  rw [hget] at hkept
  exact absurd hkept (by decide)

end Examples

end TrinoOdbc
