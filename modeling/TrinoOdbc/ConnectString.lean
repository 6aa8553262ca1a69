import TrinoOdbc.DsnConfiguration

/-!
# TrinoOdbc.ConnectString

`ToConnectString` prints the set attributes of a configuration, in the order of their keys. A value
with a space is put in braces, and every other value is printed as it is.

`roundTrip_iff` says which configurations `ParseConnectionString` gets back from what is printed.
-/

namespace TrinoOdbc

namespace Attribute

/-- The order of `ArgumentMap`. -/
def inKeyOrder : List Attribute :=
  [.authType, .driver, .dsn, .endpoint, .logLevel, .logPath, .maxRetryCountClient, .maxRowPerPage,
    .profileName, .pwd, .reqTimeout, .uid]

theorem keys_ordered : (inKeyOrder.map fun a => a.key.toList).Pairwise (· < ·) := by
  decide

theorem mem_inKeyOrder (a : Attribute) : a ∈ inKeyOrder := by
  cases a <;> decide

/-- The text of a value in the map. -/
def print : (a : Attribute) → a.Value → String
  | .dsn, v | .driver, v | .uid, v | .pwd, v | .profileName, v | .endpoint, v | .logPath, v => v
  | .reqTimeout, v | .maxRetryCountClient, v | .maxRowPerPage, v => toString (v : Int)
  | .authType, v => AuthType.toText v
  | .logLevel, v => LogLevel.toText v

end Attribute

namespace Configuration

/-- `ToMap`. -/
def toMap (cfg : Configuration) (a : Attribute) : Option String := (cfg a).map a.print

/-- If there is a space in the value, brackets are added around it. -/
def bracketed (value : List Char) : List Char :=
  if ' ' ∈ value then '{' :: (value ++ ['}']) else value

/-- A pair of the string, without the `;` behind it. -/
def printPair (a : Attribute) (value : String) : List Char :=
  a.key.toList ++ '=' :: bracketed value.toList

def toConnectString (cfg : Configuration) : List Char :=
  Attribute.inKeyOrder.flatMap fun a =>
    match cfg.toMap a with
    | none => []
    | some value => if value = "" then [] else printPair a value ++ [';']

/-- The configurations that connection strings and data sources lead to. -/
inductive Obtained (H : Host) : Configuration → Prop
  | empty : Obtained H empty
  | parse {p : ConnectionStringParser} (str : List Char) (delimiter : Char) :
      Obtained H p.cfg → Obtained H (p.parseConnectionString H str delimiter).cfg
  | dsn {cfg : Configuration} (before : Attribute → Int) (profile : Profile) :
      Obtained H cfg → Obtained H (cfg.readDsnConfiguration H before profile)

end Configuration

/-! ## What is obtained -/

namespace Attribute

/-- The values that can be set. -/
def Settable (H : Host) : (a : Attribute) → a.Value → Prop
  | .reqTimeout, v | .maxRetryCountClient, v | .maxRowPerPage, v => v < (2147483648 : Int)
  | .logLevel, v => v ≠ LogLevel.unknown
  | .logPath, v => H.isValidDirectory v = true
  | .dsn, _ | .driver, _ | .uid, _ | .pwd, _ | .profileName, _ | .endpoint, _ | .authType, _ => True

section Settable

variable {H : Host} {key text : String}

theorem toInt32_lt (n : Int) : toInt32 n < 2147483648 :=
  Int.bmod_lt (by decide)

theorem readNumber_lt {name : String} {least v : Int}
    (h : (readNumber H name least key text).toOption = some v) : v < 2147483648 := by
  unfold readNumber at h
  simp only at h
  split at h
  · cases h
  split at h
  · cases h
  split at h
  · cases h
  split at h
  · cases h
  · obtain rfl := Option.some.inj h
    exact toInt32_lt _

theorem accepted_settable {a : Attribute} {v : a.Value} (h : a.accepted H key text = some v) :
    a.Settable H v := by
  cases a with
  | dsn | driver | uid | pwd | profileName | endpoint | authType => trivial
  | reqTimeout | maxRetryCountClient | maxRowPerPage => exact readNumber_lt h
  | logLevel =>
    unfold accepted read readLogLevel at h
    simp only at h
    split at h
    · cases h
    · rename_i hne
      obtain rfl := Option.some.inj h
      exact hne
  | logPath =>
    unfold accepted read readLogPath at h
    simp only at h
    split at h
    · rename_i hvalid
      obtain rfl := Option.some.inj h
      exact hvalid
    · cases h

theorem lexicalCast_lt (before : Int) (text : String) : lexicalCast before text < 2147483648 := by
  unfold lexicalCast extractInt
  split
  · exact toInt32_lt before
  · simp only
    unfold clamp
    split <;> omega

theorem readDsnInt_lt {profile : Profile} {before v : Int}
    (h : profile.readDsnInt before key = some v) : v < 2147483648 := by
  obtain ⟨text, _, rfl⟩ := Option.map_eq_some_iff.mp h
  exact lexicalCast_lt before text

theorem logLevel_warning_ne (text : String) :
    LogLevel.fromString text .warningLevel ≠ .unknown := by
  rw [logLevel_fromString]
  split
  · decide
  · assumption

theorem dsnValue_settable {before : Attribute → Int} {profile : Profile} {a : Attribute}
    {v : a.Value} (h : Configuration.dsnValue H before profile a = some v) : a.Settable H v := by
  cases a with
  | dsn | driver | uid | pwd | profileName | endpoint | authType => trivial
  | reqTimeout | maxRetryCountClient | maxRowPerPage => exact readDsnInt_lt h
  | logLevel =>
    obtain ⟨text, _, rfl⟩ := Option.map_eq_some_iff.mp h
    exact logLevel_warning_ne text
  | logPath =>
    obtain ⟨_, hvalid⟩ := Option.filter_eq_some_iff.mp h
    exact hvalid

end Settable

end Attribute

namespace Configuration

variable {H : Host}

theorem Obtained.settable {cfg : Configuration} (h : Obtained H cfg) :
    ∀ a v, cfg a = some v → a.Settable H v := by
  induction h with
  | empty =>
    intro a v hv
    cases hv
  | parse str delimiter _ ih =>
    intro a v hv
    rw [ConnectionStringParser.parseConnectionString_fold,
      ConnectionStringParser.foldr_handleSegment_get, Option.or_eq_some_iff] at hv
    rcases hv with hseg | ⟨_, hold⟩
    · obtain ⟨segment, _, hvalue⟩ := List.exists_of_findSome?_eq_some hseg
      obtain ⟨pair, _, hpair⟩ := Option.bind_eq_some_iff.mp hvalue
      split at hpair
      · exact Attribute.accepted_settable hpair
      · cases hpair
    · exact ih a v hold
  | dsn before profile _ ih =>
    intro a v hv
    rw [readDsnConfiguration_get] at hv
    split at hv
    · rcases Option.or_eq_some_iff.mp hv with hstored | ⟨_, hold⟩
      · exact Attribute.dsnValue_settable hstored
      · exact ih a v hold
    · exact ih a v hv

end Configuration

/-! ## Texts -/

section Texts

open TableMetadataQuery (isSpace)

theorem length_trim_le (s : List Char) : (TableMetadataQuery.trim s).length ≤ s.length := by
  unfold TableMetadataQuery.trim
  have hleft := (List.dropWhile_suffix (p := isSpace) (l := s)).length_le
  have hright := (List.dropWhile_suffix (p := isSpace)
    (l := (s.dropWhile isSpace).reverse)).length_le
  simp only [List.length_reverse] at hright ⊢
  omega

theorem trim_of_length {s : List Char} (h : (TableMetadataQuery.trim s).length = s.length) :
    TableMetadataQuery.trim s = s := by
  have hleft := List.dropWhile_suffix isSpace (l := s)
  have hright := List.dropWhile_suffix isSpace (l := (s.dropWhile isSpace).reverse)
  have hlen := hright.length_le
  have hlen' := hleft.length_le
  unfold TableMetadataQuery.trim at h ⊢
  rw [List.length_reverse] at h
  rw [List.length_reverse] at hlen
  have hs : s.dropWhile isSpace = s := hleft.eq_of_length (by omega)
  rw [hright.eq_of_length (by rw [List.length_reverse]; omega), List.reverse_reverse, hs]

/-- A text between two characters that are no spaces. -/
theorem trim_between {a b : Char} (ha : isSpace a = false) (hb : isSpace b = false)
    (s : List Char) : TableMetadataQuery.trim (a :: (s ++ [b])) = a :: (s ++ [b]) := by
  unfold TableMetadataQuery.trim
  have hleft : (a :: (s ++ [b])).dropWhile isSpace = a :: (s ++ [b]) :=
    List.dropWhile_cons_of_neg (by simp [ha])
  have hreverse : (a :: (s ++ [b])).reverse = b :: (s.reverse ++ [a]) := by simp
  have hright : (b :: (s.reverse ++ [a])).dropWhile isSpace = b :: (s.reverse ++ [a]) :=
    List.dropWhile_cons_of_neg (by simp [hb])
  rw [hleft, hreverse, hright, ← hreverse, List.reverse_reverse]

theorem trim_of_noSpace {s : List Char} (h : ∀ c ∈ s, isSpace c = false) :
    TableMetadataQuery.trim s = s := by
  have hdrop : ∀ s : List Char, (∀ c ∈ s, isSpace c = false) → s.dropWhile isSpace = s := by
    intro s hs
    cases s with
    | nil => rfl
    | cons c s => exact List.dropWhile_cons_of_neg (by simp [hs c List.mem_cons_self])
  unfold TableMetadataQuery.trim
  rw [hdrop s h, hdrop _ (by simpa using h), List.reverse_reverse]

theorem length_unbrace_le (s : List Char) : (unbrace s).length ≤ s.length := by
  unfold unbrace
  split
  · simp only [List.length_take, List.length_drop]
    omega
  · exact le_rfl

theorem unbrace_braces (s : List Char) : unbrace ('{' :: (s ++ ['}'])) = s := by
  have hlast : ('{' :: (s ++ ['}'])).getLast? = some '}' := by
    rw [← List.cons_append, List.getLast?_concat]
  rw [unbrace, if_pos ⟨rfl, hlast⟩]
  simp

/-- What the parser makes of a printed value. -/
def reread (value : String) : String :=
  String.ofList (unbrace (TableMetadataQuery.trim (Configuration.bracketed value.toList)))

/-- A value with a space, or without spaces at its ends and braces around it. -/
def Bare (value : List Char) : Prop :=
  ' ' ∈ value ∨
    TableMetadataQuery.trim value = value ∧
      ¬ (value.head? = some '{' ∧ value.getLast? = some '}')

theorem reread_eq_iff {value : String} : reread value = value ↔ Bare value.toList := by
  have hlist : reread value = value ↔
      unbrace (TableMetadataQuery.trim (Configuration.bracketed value.toList)) = value.toList := by
    constructor
    · intro h
      rw [← String.toList_ofList (l := unbrace _)]
      exact congrArg String.toList h
    · intro h
      rw [reread, h, String.ofList_toList]
  rw [hlist]
  unfold Configuration.bracketed Bare
  by_cases hspace : ' ' ∈ value.toList
  · rw [if_pos hspace, trim_between (by decide) (by decide), unbrace_braces]
    exact iff_of_true rfl (.inl hspace)
  rw [if_neg hspace, or_iff_right hspace]
  constructor
  · intro h
    have hunbrace := length_unbrace_le (TableMetadataQuery.trim value.toList)
    have htrim := length_trim_le value.toList
    have hlen : (TableMetadataQuery.trim value.toList).length = value.toList.length := by
      rw [h] at hunbrace
      omega
    have hbare := trim_of_length hlen
    rw [hbare] at h
    refine ⟨hbare, fun hbraces => ?_⟩
    have hpos : 0 < value.toList.length := by
      obtain ⟨c, hc⟩ := Option.isSome_iff_exists.mp (Option.isSome_of_eq_some hbraces.1)
      exact List.length_pos_iff.mpr fun hnil => by simp [hnil] at hc
    have hshort := congrArg List.length h
    rw [unbrace, if_pos hbraces, List.length_take, List.length_drop] at hshort
    omega
  · rintro ⟨htrim, hbraces⟩
    rw [htrim, unbrace, if_neg hbraces]

end Texts

/-! ## What can be read back -/

/-- A text without the delimiters of a connection string. -/
def Separable (text : List Char) : Prop := ';' ∉ text ∧ '=' ∉ text

namespace Attribute

/-- The printed value is read as the value. -/
def ReadBack (H : Host) : (a : Attribute) → a.Value → Prop
  | .dsn, v | .driver, v | .uid, v | .pwd, v | .profileName, v | .endpoint, v | .logPath, v =>
    Bare (String.toList v)
  | .reqTimeout, v => 1 ≤ (v : Int) ∧ ¬ H.sizeofString ≤ (toString (v : Int)).length
  | .maxRetryCountClient, v | .maxRowPerPage, v =>
    0 ≤ (v : Int) ∧ ¬ H.sizeofString ≤ (toString (v : Int)).length
  | .authType, _ | .logLevel, _ => True

end Attribute

section Numbers

theorem toString_toList (v : Int) :
    (toString v).toList = Nat.toDigits 10 v.toNat ∧ 0 ≤ v ∨
      (∃ n, (toString v).toList = '-' :: Nat.toDigits 10 n) ∧ v < 0 := by
  cases v with
  | ofNat n =>
    refine .inl ⟨?_, Int.natCast_nonneg n⟩
    show (Nat.repr n).toList = _
    rw [Nat.toList_repr]
    rfl
  | negSucc n =>
    refine .inr ⟨⟨n + 1, ?_⟩, Int.negSucc_lt_zero n⟩
    show ("-" ++ Nat.repr (n + 1)).toList = _
    rw [String.toList_append, Nat.toList_repr]
    rfl

theorem isDigit_toDigits {n : Nat} : ∀ c ∈ Nat.toDigits 10 n, c.isDigit = true := fun _ hc =>
  Nat.isDigit_of_mem_toDigits (by decide) (by decide) hc

/-- The characters of a number. -/
theorem toString_chars (v : Int) : ∀ c ∈ (toString v).toList, c.isDigit = true ∨ c = '-' := by
  rcases toString_toList v with ⟨hlist, _⟩ | ⟨⟨n, hlist⟩, _⟩
  · rw [hlist]
    exact fun c hc => .inl (isDigit_toDigits c hc)
  · rw [hlist]
    intro c hc
    rcases List.mem_cons.mp hc with rfl | hc
    · exact .inr rfl
    · exact .inl (isDigit_toDigits c hc)

theorem toString_separable (v : Int) : Separable (toString v).toList := by
  constructor
  · intro h
    rcases toString_chars v _ h with h | h <;> cases h
  · intro h
    rcases toString_chars v _ h with h | h <;> cases h

theorem toString_bare (v : Int) : Bare (toString v).toList := by
  refine .inr ⟨trim_of_noSpace fun c hc => ?_, fun hbraces => ?_⟩
  · rcases toString_chars v c hc with h | rfl
    · exact isSpace_digit h
    · decide
  · have hmem := List.mem_of_head? hbraces.1
    rcases toString_chars v _ hmem with h | h <;> cases h

/-- Which numbers are read back. -/
theorem readNumber_toString_iff {H : Host} (n : NumberAttribute) {v : Int} (key : String)
    (hv : v < 2147483648) :
    (readNumber H n.name n.least key (toString v)).toOption = some v ↔
      n.least ≤ v ∧ ¬ H.sizeofString ≤ (toString v).length := by
  have hleast : 0 ≤ n.least := by cases n <;> decide
  rcases toString_toList v with ⟨hlist, hpos⟩ | ⟨⟨m, hlist⟩, hneg⟩
  · have hvalue : digitsValue (toString v).toList = v.toNat := by
      rw [hlist]
      exact Nat.ofDigitChars_ten_toDigits
    have hacc : n.Accepts (toString v) ↔ n.least ≤ v := by
      unfold NumberAttribute.Accepts uint32Max
      rw [hvalue]
      constructor
      · rintro ⟨_, _, hlo, _⟩
        omega
      · intro hlo
        refine ⟨?_, ?_, by omega, by omega⟩
        · rw [ne_eq, ← String.toList_eq_nil_iff, hlist]
          exact Nat.toDigits_ne_nil
        · unfold allDigits
          rw [hlist]
          exact List.all_eq_true.mpr isDigit_toDigits
    by_cases hlo : n.least ≤ v
    · rcases readNumber_accepts H key (hacc.mpr hlo) with ⟨hlong, message, hread⟩ |
        ⟨hshort, hread⟩
      · rw [hread]
        refine iff_of_false (fun h => ?_) fun h => h.2 hlong
        cases h
      · have hfits : toInt32 v = v := (toInt32_eq_iff hpos (by unfold uint32Max; omega)).mpr hv
        have hcast : ((v.toNat : Nat) : Int) = v := Int.toNat_of_nonneg hpos
        rw [hread, hvalue, hcast, hfits]
        exact iff_of_true rfl ⟨hlo, hshort⟩
    · obtain ⟨message, hread⟩ := readNumber_rejects H key fun h => hlo (hacc.mp h)
      rw [hread]
      refine iff_of_false (fun h => ?_) fun h => hlo h.1
      cases h
  · have hrejects : ¬ n.Accepts (toString v) := by
      rintro ⟨_, hdigits, _⟩
      unfold allDigits at hdigits
      rw [hlist] at hdigits
      exact absurd (List.all_eq_true.mp hdigits '-' List.mem_cons_self) (by decide)
    obtain ⟨message, hread⟩ := readNumber_rejects H key hrejects
    rw [hread]
    refine iff_of_false (fun h => ?_) fun h => by omega
    cases h

end Numbers

namespace Attribute

variable {H : Host}

theorem accepted_bare_iff {v : String} :
    (some (reread v) : Option String) = some v ↔ Bare v.toList := by
  rw [Option.some.injEq, reread_eq_iff]

theorem accepted_print_iff {a : Attribute} {v : a.Value} (h : a.Settable H v) :
    a.accepted H a.key (reread (a.print v)) = some v ↔ a.ReadBack H v := by
  have hnumber : ∀ (n : NumberAttribute) (v : Int) (key : String), v < 2147483648 →
      ((readNumber H n.name n.least key (reread (toString v))).toOption = some v ↔
        n.least ≤ v ∧ ¬ H.sizeofString ≤ (toString v).length) := by
    intro n v key hv
    rw [reread_eq_iff.mpr (toString_bare v)]
    exact readNumber_toString_iff n key hv
  cases a with
  | dsn | driver | uid | pwd | profileName | endpoint => exact accepted_bare_iff
  | reqTimeout => exact hnumber .reqTimeout v Attribute.reqTimeout.key h
  | maxRetryCountClient => exact hnumber .maxRetryCountClient v Attribute.maxRetryCountClient.key h
  | maxRowPerPage => exact hnumber .maxRowPerPage v Attribute.maxRowPerPage.key h
  | authType =>
    refine iff_of_true ?_ trivial
    show (readAuthType (reread (AuthType.toText v))).toOption = some v
    cases v <;> decide +kernel
  | logLevel =>
    refine iff_of_true ?_ trivial
    show (readLogLevel (reread (LogLevel.toText v))).toOption = some v
    cases v with
    | unknown => exact absurd rfl h
    | off | errorLevel | warningLevel | infoLevel | debugLevel => decide +kernel
  | logPath =>
    show (readLogPath H (reread v)).toOption = some v ↔ Bare (String.toList v)
    have hvalid : H.isValidDirectory v = true := h
    rw [← reread_eq_iff]
    unfold readLogPath
    constructor
    · intro hread
      split at hread
      · exact Option.some.inj hread
      · cases hread
    · intro hsame
      rw [hsame, if_pos hvalid]
      rfl

/-- A text without delimiters is not accepted as a value that is printed with one. -/
theorem print_separable {a : Attribute} {key text : String} {v : a.Value}
    (h : a.accepted H key text = some v) (htext : Separable text.toList) :
    Separable (a.print v).toList := by
  cases a with
  | dsn | driver | uid | pwd | profileName | endpoint =>
    obtain rfl := Option.some.inj h
    exact htext
  | reqTimeout | maxRetryCountClient | maxRowPerPage => exact toString_separable v
  | authType =>
    show Separable (AuthType.toText v).toList
    unfold Separable
    cases v <;> decide
  | logLevel =>
    show Separable (LogLevel.toText v).toList
    unfold Separable
    cases v <;> decide
  | logPath =>
    unfold accepted read readLogPath at h
    simp only at h
    split at h
    · obtain rfl := Option.some.inj h
      exact htext
    · cases h

end Attribute

/-! ## The printed segments -/

theorem mem_of_mem_unbrace {c : Char} {s : List Char} (h : c ∈ unbrace s) : c ∈ s := by
  unfold unbrace at h
  split at h
  · exact List.mem_of_mem_drop (List.mem_of_mem_take h)
  · exact h

theorem mem_of_mem_trim {c : Char} {s : List Char} (h : c ∈ TableMetadataQuery.trim s) : c ∈ s := by
  unfold TableMetadataQuery.trim at h
  have hright := (List.dropWhile_suffix _).subset (List.mem_reverse.mp h)
  exact (List.dropWhile_suffix _).subset (List.mem_reverse.mp hright)

/-- The value of a segment has no `=`, and no delimiter that the segment does not have. -/
theorem segmentPair_value {segment : List Char} {key value : String}
    (h : segmentPair segment = some (key, value)) (hsegment : ';' ∉ segment) :
    Separable value.toList := by
  unfold segmentPair at h
  cases hi : rfind '=' segment with
  | none =>
    rw [hi] at h
    cases h
  | some i =>
    obtain ⟨a, b, rfl, hb, rfl⟩ := eq_of_rfind hi
    have hdrop : (a ++ '=' :: b).drop (a.length + 1) = b := by simp
    rw [hi] at h
    cases ha : a.length with
    | zero =>
      rw [ha] at h
      cases h
    | succ n =>
      rw [ha] at h hdrop
      simp only [hdrop] at h
      obtain ⟨_, rfl⟩ := Prod.mk.inj (Option.some.inj h)
      rw [Separable, String.toList_ofList]
      constructor
      · intro hmem
        have hb' := mem_of_mem_trim (mem_of_mem_unbrace hmem)
        exact hsegment (List.mem_append_right _ (List.mem_cons_of_mem _ hb'))
      · exact fun hmem => hb (mem_of_mem_trim (mem_of_mem_unbrace hmem))

namespace ConnectionStringParser

variable {H : Host}

theorem segmentValue_separable {a : Attribute} {segment : List Char} {v : a.Value}
    (h : segmentValue H a segment = some v) (hsegment : ';' ∉ segment) :
    Separable (a.print v).toList := by
  obtain ⟨⟨key, value⟩, hpair, hv⟩ := Option.bind_eq_some_iff.mp h
  split at hv
  · exact Attribute.print_separable hv (segmentPair_value hpair hsegment)
  · cases hv

end ConnectionStringParser

theorem notMem_of_mem_splitOn {x : Char} (s : List Char) : ∀ part ∈ s.splitOn x, x ∉ part := by
  induction s with
  | nil => simp
  | cons c s ih =>
    intro part hpart
    rw [List.splitOn_cons_eq_if_modifyHead] at hpart
    split at hpart
    · rcases List.mem_cons.mp hpart with rfl | hpart
      · exact List.not_mem_nil
      · exact ih part hpart
    · rename_i hc
      cases hsplit : s.splitOn x with
      | nil => exact absurd hsplit (List.splitOn_ne_nil x s)
      | cons first rest =>
        rw [hsplit] at hpart ih
        rcases List.mem_cons.mp hpart with rfl | hpart
        · rw [List.mem_cons, not_or]
          exact ⟨fun h => hc (by simp [h]), ih first List.mem_cons_self⟩
        · exact ih part (List.mem_cons_of_mem _ hpart)

namespace Configuration

open ConnectionStringParser

variable {H : Host} {cfg : Configuration}

/-- The text that is printed for an attribute, unless it is empty. -/
def printedText (cfg : Configuration) (a : Attribute) : Option String :=
  (cfg.toMap a).filter (· ≠ "")

theorem printedText_eq_some_iff {a : Attribute} {text : String} :
    cfg.printedText a = some text ↔ ∃ v, cfg a = some v ∧ a.print v = text ∧ text ≠ "" := by
  unfold printedText toMap
  rw [Option.filter_eq_some_iff, Option.map_eq_some_iff]
  simp only [decide_eq_true_eq]
  constructor
  · rintro ⟨⟨v, hv, htext⟩, hne⟩
    exact ⟨v, hv, htext, hne⟩
  · rintro ⟨v, hv, htext, hne⟩
    exact ⟨⟨v, hv, htext⟩, hne⟩

/-- The segments that are printed. -/
def printedPairs (cfg : Configuration) : List (List Char) :=
  Attribute.inKeyOrder.filterMap fun a => (cfg.printedText a).map (printPair a)

theorem toConnectString_pairs : cfg.toConnectString = cfg.printedPairs.flatMap (· ++ [';']) := by
  unfold toConnectString printedPairs
  induction Attribute.inKeyOrder with
  | nil => rfl
  | cons a as ih =>
    rw [List.flatMap_cons, ih]
    unfold printedText
    cases h : cfg.toMap a with
    | none => simp [h]
    | some text => by_cases hempty : text = "" <;> simp [h, hempty, Option.filter_some]

/-- There is no NUL behind the last `;`. -/
theorem eraseTrailingNuls_printed (pairs : List (List Char)) :
    eraseTrailingNuls (pairs.flatMap (· ++ [';'])) = pairs.flatMap (· ++ [';']) := by
  by_cases hne : pairs = []
  · subst hne
    rfl
  · rw [flatMap_closed _ _ hne]
    exact eraseTrailingNuls_of_last (by decide)

theorem splitOn_printed (pairs : List (List Char)) (h : ∀ pair ∈ pairs, ';' ∉ pair) :
    (pairs.flatMap (· ++ [';'])).splitOn ';' = pairs ++ [[]] := by
  induction pairs with
  | nil => simp
  | cons pair pairs ih =>
    obtain ⟨hpair, hpairs⟩ := List.forall_mem_cons.mp h
    rw [List.flatMap_cons, List.append_assoc, List.singleton_append,
      List.splitOn_append_cons_self_of_not_mem hpair, ih hpairs, List.cons_append]

/-- The configuration that is parsed from what is printed. -/
def reparsed (H : Host) (diag : Option (List DiagnosticRecord)) (cfg : Configuration) :
    Configuration :=
  ((⟨empty, diag⟩ : ConnectionStringParser).parseConnectionString H cfg.toConnectString ';').cfg

theorem reparsed_get (diag : Option (List DiagnosticRecord)) (a : Attribute) :
    cfg.reparsed H diag a =
      (cfg.toConnectString.splitOn ';').findSome? (segmentValue H a) := by
  unfold reparsed
  rw [parseConnectionString_fold, foldr_handleSegment_get, toConnectString_pairs,
    eraseTrailingNuls_printed]
  exact Option.or_none

/-- What is parsed has no delimiters in its texts. -/
theorem reparsed_separable {diag : Option (List DiagnosticRecord)} {a : Attribute} {v : a.Value}
    (h : cfg.reparsed H diag a = some v) : Separable (a.print v).toList := by
  rw [reparsed_get] at h
  obtain ⟨segment, hmem, hv⟩ := List.exists_of_findSome?_eq_some h
  exact segmentValue_separable hv (notMem_of_mem_splitOn _ segment hmem)

theorem key_trimmed (a : Attribute) : TableMetadataQuery.trim a.key.toList = a.key.toList := by
  cases a <;> decide

theorem key_separable (a : Attribute) : Separable a.key.toList := by
  unfold Separable
  cases a <;> decide

theorem bracketed_separable {text : List Char} (h : Separable text) :
    Separable (bracketed text) := by
  unfold bracketed
  split
  · simpa [Separable] using h
  · exact h

theorem segmentPair_printPair (a : Attribute) {text : String} (h : Separable text.toList) :
    segmentPair (printPair a text) = some (a.key, reread text) := by
  have hno : '=' ∉ bracketed text.toList := (bracketed_separable h).2
  have hfind : rfind '=' (printPair a text) = some a.key.toList.length := by
    have hmem : '=' ∈ '=' :: bracketed text.toList := List.mem_cons_self
    unfold printPair
    rw [rfind_append _ _ hmem, rfind, rfind_eq_none_iff.mpr hno]
    simp
  have hlen : ∃ n, a.key.toList.length = n + 1 := by
    cases a <;> exact ⟨_, rfl⟩
  obtain ⟨n, hn⟩ := hlen
  have htake : (printPair a text).take (n + 1) = a.key.toList := by
    rw [← hn]
    exact List.take_left
  have hdrop : (printPair a text).drop (n + 1 + 1) = bracketed text.toList := by
    rw [← hn, printPair, List.drop_append, List.drop_eq_nil_of_le (by omega),
      Nat.add_sub_cancel_left]
    rfl
  rw [segmentPair, hfind, hn]
  simp only [htake, hdrop, key_trimmed, String.ofList_toList]
  rfl

theorem toLower_key (a : Attribute) : toLower a.key = a.key := by
  cases a <;> decide

theorem segmentValue_printPair (a b : Attribute) {text : String} (h : Separable text.toList) :
    segmentValue H a (printPair b text) =
      if b = a then a.accepted H a.key (reread text) else none := by
  rw [segmentValue, segmentPair_printPair b h, Option.bind_some]
  simp only [toLower_key]
  by_cases hb : b = a
  · subst hb
    rw [if_pos rfl, if_pos rfl]
  · rw [if_neg hb, if_neg fun hkey => hb (Attribute.key_injective hkey)]

theorem findSome?_filterMap {α β γ : Type} (f : β → Option γ) (g : α → Option β) (l : List α) :
    (l.filterMap g).findSome? f = l.findSome? fun a => (g a).bind f := by
  induction l with
  | nil => rfl
  | cons a l ih =>
    rw [List.filterMap_cons, List.findSome?_cons]
    cases g a with
    | none => exact ih
    | some b => rw [Option.bind_some, List.findSome?_cons, ih]

theorem findSome?_only {α β : Type} [DecidableEq α] {f : α → Option β} {a : α}
    (h : ∀ b, b ≠ a → f b = none) : ∀ {l : List α}, a ∈ l → l.findSome? f = f a := by
  intro l
  induction l with
  | nil => intro ha; cases ha
  | cons b l ih =>
    intro ha
    rw [List.findSome?_cons]
    by_cases hb : b = a
    · subst hb
      cases hf : f b with
      | some v => rfl
      | none =>
        simp only
        by_cases hmem : b ∈ l
        · rw [ih hmem, hf]
        · rw [List.findSome?_eq_none_iff]
          intro c hc
          exact h c fun hcb => hmem (hcb ▸ hc)
    · rw [h b hb]
      exact ih ((List.mem_cons.mp ha).resolve_left (Ne.symm hb))

/-- Without delimiters in the texts each attribute is read from its own pair. -/
theorem reparsed_of_separable (diag : Option (List DiagnosticRecord))
    (h : ∀ a text, cfg.printedText a = some text → Separable text.toList) (a : Attribute) :
    cfg.reparsed H diag a =
      (cfg.printedText a).bind fun text => a.accepted H a.key (reread text) := by
  have hpairs : ∀ pair ∈ cfg.printedPairs, ';' ∉ pair := by
    intro pair hpair
    obtain ⟨b, _, hb⟩ := List.mem_filterMap.mp hpair
    obtain ⟨text, htext, rfl⟩ := Option.map_eq_some_iff.mp hb
    have hno := (bracketed_separable (h b text htext)).1
    have hkey := (key_separable b).1
    simp [printPair, hno, hkey]
  rw [reparsed_get, toConnectString_pairs, splitOn_printed _ hpairs, List.findSome?_append]
  have hlast : [([] : List Char)].findSome? (segmentValue H a) = none := rfl
  rw [hlast, Option.or_none, printedPairs, findSome?_filterMap]
  have hother : ∀ b, b ≠ a →
      ((cfg.printedText b).map (printPair b)).bind (segmentValue H a) = none := by
    intro b hb
    cases htext : cfg.printedText b with
    | none => rfl
    | some text =>
      rw [Option.map_some, Option.bind_some, segmentValue_printPair a b (h b text htext), if_neg hb]
  rw [findSome?_only hother (Attribute.mem_inKeyOrder a)]
  cases htext : cfg.printedText a with
  | none => rfl
  | some text =>
    rw [Option.map_some, Option.bind_some, segmentValue_printPair a a (h a text htext), if_pos rfl,
      Option.bind_some]

/-- What is printed is parsed back to the same values exactly when no printed text has a delimiter
in it, a text without a space has no spaces at its ends and no braces around it, and a number is in
range and its text is shorter than a `std::string` object is large. -/
theorem roundTrip_iff (hcfg : Obtained H cfg) (diag : Option (List DiagnosticRecord)) :
    (∀ a v, cfg a = some v → a.print v ≠ "" → cfg.reparsed H diag a = some v) ↔
      ∀ a v, cfg a = some v → a.print v ≠ "" →
        Separable (a.print v).toList ∧ a.ReadBack H v := by
  have hread : (∀ a text, cfg.printedText a = some text → Separable text.toList) →
      ∀ a v, cfg a = some v → a.print v ≠ "" →
        (cfg.reparsed H diag a = some v ↔ a.ReadBack H v) := by
    intro hsep a v hv hne
    have hprinted : cfg.printedText a = some (a.print v) :=
      printedText_eq_some_iff.mpr ⟨v, hv, rfl, hne⟩
    rw [reparsed_of_separable diag hsep, hprinted, Option.bind_some]
    exact Attribute.accepted_print_iff (hcfg.settable a v hv)
  constructor
  · intro h a v hv hne
    have hsep : ∀ a text, cfg.printedText a = some text → Separable text.toList := by
      intro a text htext
      obtain ⟨v, hv, rfl, hne⟩ := printedText_eq_some_iff.mp htext
      exact reparsed_separable (h a v hv hne)
    exact ⟨reparsed_separable (h a v hv hne), (hread hsep a v hv hne).mp (h a v hv hne)⟩
  · intro h a v hv hne
    have hsep : ∀ a text, cfg.printedText a = some text → Separable text.toList := by
      intro a text htext
      obtain ⟨v, hv, rfl, hne⟩ := printedText_eq_some_iff.mp htext
      exact (h a v hv hne).1
    exact (hread hsep a v hv hne).mpr (h a v hv hne).2

theorem Obtained.internalEstablish {p : ConnectionStringParser} (h : Obtained H p.cfg)
    (before : Attribute → Int) (profiles : String → Profile) (connectStr : List Char) :
    Obtained H (p.internalEstablish H before profiles connectStr).cfg := by
  unfold ConnectionStringParser.internalEstablish
  simp only
  split
  · exact .parse connectStr ';' h
  · exact .dsn before _ (.parse connectStr ';' h)

section Examples

/-- A password with a space. -/
theorem roundTrip_space :
    (established (fun _ _ => none) "UID=me;PWD={a b}").reparsed linuxHost none .pwd =
      some "a b" := by
  have hcfg : Obtained linuxHost (established (fun _ _ => none) "UID=me;PWD={a b}") :=
    .internalEstablish .empty _ _ _
  have huid : established (fun _ _ => none) "UID=me;PWD={a b}" .uid = some "me" := by
    decide +kernel
  have hpwd : established (fun _ _ => none) "UID=me;PWD={a b}" .pwd = some "a b" := by
    decide +kernel
  have hother : ∀ a, a ≠ .uid → a ≠ .pwd →
      established (fun _ _ => none) "UID=me;PWD={a b}" a = none := by
    intro a
    cases a <;> decide +kernel
  refine (roundTrip_iff hcfg none).mpr (fun a v hv _ => ?_) .pwd "a b" hpwd (by decide)
  by_cases ha : a = .uid
  · subst ha
    rw [huid] at hv
    obtain rfl := Option.some.inj hv
    unfold Separable Attribute.ReadBack Bare
    decide
  by_cases ha' : a = .pwd
  · subst ha'
    rw [hpwd] at hv
    obtain rfl := Option.some.inj hv
    unfold Separable Attribute.ReadBack Bare
    decide
  · rw [hother a ha ha'] at hv
    cases hv

/-- A password with a `;` is cut there, and one with braces around it loses them. -/
theorem roundTrip_password :
    (Obtained linuxHost (established (stored "pwd" "a;b") "DSN=trino") ∧
      established (stored "pwd" "a;b") "DSN=trino" .pwd = some "a;b" ∧
      (established (stored "pwd" "a;b") "DSN=trino").reparsed linuxHost none .pwd = some "a") ∧
    (Obtained linuxHost (established (fun _ _ => none) "PWD={{a}}") ∧
      established (fun _ _ => none) "PWD={{a}}" .pwd = some "{a}" ∧
      (established (fun _ _ => none) "PWD={{a}}").reparsed linuxHost none .pwd = some "a") := by
  refine ⟨⟨.internalEstablish .empty _ _ _, ?_⟩, .internalEstablish .empty _ _ _, ?_⟩ <;>
    decide +kernel

end Examples

end Configuration

end TrinoOdbc
