import TrinoOdbc.Configuration
import Mathlib.Data.List.Infix

/-!
# TrinoOdbc.ConnectionString

`ParseConnectionString` takes attributes off the end of a string, one segment at a time. The last
`=` and the last delimiter of what is left are found by `rfind`.

`parseConnectionString_fold` says that this is a fold over the segments from the last to the first,
and `parseConnectionString_get` that the leftmost segment whose value is accepted decides.
-/

namespace TrinoOdbc

/-- `rfind`: the position of the last `c`. -/
def rfind (c : Char) : List Char → Option Nat
  | [] => none
  | x :: s =>
    match rfind c s with
    | some i => some (i + 1)
    | none => if x = c then some 0 else none

section Rfind

variable {c : Char}

theorem rfind_eq_none_iff {s : List Char} : rfind c s = none ↔ c ∉ s := by
  induction s with
  | nil => simp [rfind]
  | cons x s ih =>
    unfold rfind
    cases h : rfind c s with
    | some i =>
      have hmem : c ∈ s := by
        by_contra hno
        rw [ih.mpr hno] at h
        cases h
      simp [hmem]
    | none =>
      have hno := ih.mp h
      by_cases hx : x = c
      · simp [hx]
      · simp [hx, hno, Ne.symm hx]

theorem rfind_append (a b : List Char) (h : c ∈ b) :
    rfind c (a ++ b) = (rfind c b).map (a.length + ·) := by
  obtain ⟨i, hi⟩ := Option.ne_none_iff_exists'.mp fun hnone => rfind_eq_none_iff.mp hnone h
  induction a with
  | nil => simp
  | cons x a ih =>
    rw [List.cons_append, rfind, ih, hi]
    simp only [Option.map_some, List.length_cons, Option.some.injEq]
    omega

theorem rfind_append_of_notMem (a b : List Char) (h : c ∉ b) : rfind c (a ++ b) = rfind c a := by
  induction a with
  | nil => rw [List.nil_append, rfind_eq_none_iff.mpr h]; rfl
  | cons x a ih => rw [List.cons_append, rfind, ih, rfind]

theorem rfind_lt {s : List Char} : ∀ {i : Nat}, rfind c s = some i → i < s.length := by
  induction s with
  | nil => intro i h; cases h
  | cons x s ih =>
    intro i h
    unfold rfind at h
    cases hs : rfind c s with
    | some j =>
      rw [hs] at h
      obtain rfl := Option.some.inj h
      have := ih hs
      simp only [List.length_cons]
      omega
    | none =>
      rw [hs] at h
      simp only at h
      split at h
      · obtain rfl := Option.some.inj h
        exact Nat.zero_lt_succ _
      · cases h

/-- What `rfind` finds splits the string. -/
theorem eq_of_rfind {s : List Char} : ∀ {i : Nat}, rfind c s = some i →
    ∃ a b, s = a ++ c :: b ∧ c ∉ b ∧ a.length = i := by
  induction s with
  | nil => intro i h; cases h
  | cons x s ih =>
    intro i h
    unfold rfind at h
    cases hs : rfind c s with
    | some j =>
      rw [hs] at h
      obtain rfl := Option.some.inj h
      obtain ⟨a, b, rfl, hb, rfl⟩ := ih hs
      exact ⟨x :: a, b, rfl, hb, rfl⟩
    | none =>
      rw [hs] at h
      simp only at h
      split at h
      · rename_i hx
        obtain rfl := Option.some.inj h
        exact ⟨[], s, by rw [hx]; rfl, rfind_eq_none_iff.mp hs, rfl⟩
      · cases h

end Rfind

/-! ## The parser -/

/-- Without one pair of braces around it. -/
def unbrace (value : List Char) : List Char :=
  if value.head? = some '{' ∧ value.getLast? = some '}' then (value.drop 1).take (value.length - 2)
  else value

def eraseTrailingNuls (s : List Char) : List Char := (s.reverse.dropWhile (· = '\x00')).reverse

namespace ConnectionStringParser

/-- Where the last segment begins: behind the last delimiter. -/
def attrBegin (delimiter : Char) (connectStr : List Char) : Nat :=
  match rfind delimiter connectStr with
  | none => 0
  | some i => i + 1

theorem attrBegin_lt {delimiter : Char} {connectStr : List Char} (h : connectStr ≠ []) :
    attrBegin delimiter connectStr - 1 < connectStr.length := by
  have hpos := List.length_pos_iff.mpr h
  unfold attrBegin
  cases hi : rfind delimiter connectStr with
  | none => exact hpos
  | some i =>
    have := rfind_lt hi
    exact this

/-- One turn of the loop of `ParseConnectionString`. -/
def parseLast (H : Host) (delimiter : Char) (p : ConnectionStringParser)
    (connectStr : List Char) : ConnectionStringParser :=
  let attrBegin := attrBegin delimiter connectStr
  let attrEqPos := (rfind '=' connectStr).getD 0
  if attrBegin < attrEqPos then
    let key := TableMetadataQuery.trim ((connectStr.drop attrBegin).take (attrEqPos - attrBegin))
    let value := TableMetadataQuery.trim (connectStr.drop (attrEqPos + 1))
    p.handleAttributePair H (String.ofList key) (String.ofList (unbrace value))
  else p

/-- The loop of `ParseConnectionString`. -/
def parseAttributes (H : Host) (delimiter : Char) (p : ConnectionStringParser)
    (connectStr : List Char) : ConnectionStringParser :=
  if connectStr = [] then p
  else if attrBegin delimiter connectStr = 0 then p.parseLast H delimiter connectStr
  else
    parseAttributes H delimiter (p.parseLast H delimiter connectStr)
      (connectStr.take (attrBegin delimiter connectStr - 1))
  termination_by connectStr.length
  decreasing_by
    rename_i hne _
    have hlt : attrBegin delimiter connectStr - 1 < connectStr.length := attrBegin_lt hne
    rw [List.length_take]
    omega

def parseConnectionString (H : Host) (p : ConnectionStringParser) (str : List Char)
    (delimiter : Char) : ConnectionStringParser :=
  p.parseAttributes H delimiter (eraseTrailingNuls str)

/-- The loop of `ParseConfigAttributes`, to the first of two NULs. -/
def configAttributesLength : List Char → Nat
  | a :: b :: str =>
    if a ≠ '\x00' ∨ b ≠ '\x00' then configAttributesLength (b :: str) + 1 else 0
  | _ => 0

def parseConfigAttributes (H : Host) (p : ConnectionStringParser) (str : List Char) :
    ConnectionStringParser :=
  p.parseConnectionString H (str.take (configAttributesLength str + 1)) '\x00'

end ConnectionStringParser

/-! ## Segments -/

/-- The key and the value of a segment. A segment without `=`, or with its last `=` in front, has
none. -/
def segmentPair (segment : List Char) : Option (String × String) :=
  match rfind '=' segment with
  | none | some 0 => none
  | some i => some (String.ofList (TableMetadataQuery.trim (segment.take i)),
      String.ofList (unbrace (TableMetadataQuery.trim (segment.drop (i + 1)))))

namespace ConnectionStringParser

def handleSegment (H : Host) (segment : List Char) (p : ConnectionStringParser) :
    ConnectionStringParser :=
  match segmentPair segment with
  | none => p
  | some (key, value) => p.handleAttributePair H key value

section Fold

variable {H : Host} {delimiter : Char} {p : ConnectionStringParser}

theorem handleSegment_of_notMem {segment : List Char} (h : '=' ∉ segment) :
    handleSegment H segment p = p := by
  rw [handleSegment, segmentPair, rfind_eq_none_iff.mpr h]

/-- A segment behind `before`, which ends with a delimiter or is empty: the last `=` counts when it
is in the segment, behind its first character. -/
theorem parseLast_segment {before segment : List Char}
    (hbegin : attrBegin delimiter (before ++ segment) = before.length) :
    p.parseLast H delimiter (before ++ segment) = handleSegment H segment p := by
  unfold parseLast
  simp only [hbegin]
  by_cases hmem : '=' ∈ segment
  · obtain ⟨i, hi⟩ := Option.ne_none_iff_exists'.mp fun hnone => rfind_eq_none_iff.mp hnone hmem
    have hpos : (rfind '=' (before ++ segment)).getD 0 = before.length + i := by
      rw [rfind_append _ _ hmem, hi]
      rfl
    rw [hpos]
    cases i with
    | zero =>
      rw [if_neg (by omega), handleSegment, segmentPair, hi]
      rfl
    | succ i =>
      have hkey : ((before ++ segment).drop before.length).take
          (before.length + (i + 1) - before.length) = segment.take (i + 1) := by
        rw [List.drop_left, Nat.add_sub_cancel_left]
      have hvalue : (before ++ segment).drop (before.length + (i + 1) + 1) =
          segment.drop (i + 1 + 1) := by
        rw [Nat.add_assoc, List.drop_append, List.drop_eq_nil_of_le (by omega),
          Nat.add_sub_cancel_left]
        rfl
      rw [if_pos (by omega), hkey, hvalue, handleSegment, segmentPair, hi]
      rfl
  · rw [handleSegment_of_notMem hmem, rfind_append_of_notMem _ _ hmem]
    have hle : ¬ before.length < (rfind '=' before).getD 0 := by
      cases h : rfind '=' before with
      | none => exact Nat.not_lt_zero _
      | some i =>
        have := rfind_lt h
        simp only [Option.getD_some]
        omega
    rw [if_neg hle]

/-- The loop takes the segments from the last to the first. -/
theorem parseAttributes_fold (s : List Char) : ∀ p : ConnectionStringParser,
    p.parseAttributes H delimiter s = (s.splitOn delimiter).foldr (handleSegment H) p := by
  -- every turn leaves a shorter string
  induction hn : s.length using Nat.strongRecOn generalizing s with
  | ind n ih =>
    intro p
    unfold parseAttributes
    by_cases hnil : s = []
    · subst hnil
      rw [if_pos rfl, List.splitOn_nil]
      exact (handleSegment_of_notMem List.not_mem_nil).symm
    rw [if_neg hnil]
    cases h : rfind delimiter s with
    | none =>
      have hbegin : attrBegin delimiter s = 0 := by rw [attrBegin, h]
      have hempty : attrBegin delimiter ([] ++ s) = ([] : List Char).length := hbegin
      have hlast : p.parseLast H delimiter s = handleSegment H s p := parseLast_segment hempty
      rw [if_pos hbegin, List.splitOn_eq_singleton (rfind_eq_none_iff.mp h)]
      exact hlast
    | some i =>
      obtain ⟨a, b, rfl, hb, rfl⟩ := eq_of_rfind h
      have hbegin : attrBegin delimiter (a ++ delimiter :: b) = a.length + 1 := by
        rw [attrBegin, h]
      have hsplit : a ++ delimiter :: b = (a ++ [delimiter]) ++ b := by simp
      have hlast : p.parseLast H delimiter (a ++ delimiter :: b) = handleSegment H b p := by
        rw [hsplit] at hbegin ⊢
        exact parseLast_segment (by simpa using hbegin)
      have htake : (a ++ delimiter :: b).take (a.length + 1 - 1) = a := List.take_left
      have hlt : a.length < n := by
        rw [← hn, List.length_append, List.length_cons]
        omega
      rw [hbegin, if_neg (Nat.succ_ne_zero _), hlast, htake, ih a.length hlt a rfl,
        List.splitOn_append_cons_self, List.splitOn_eq_singleton hb, List.foldr_append]
      rfl

theorem parseConnectionString_fold (str : List Char) :
    p.parseConnectionString H str delimiter =
      ((eraseTrailingNuls str).splitOn delimiter).foldr (handleSegment H) p :=
  parseAttributes_fold _ _

end Fold

/-! ## What the segments decide -/

/-- The value a segment has for an attribute: it names the attribute and its text is accepted. -/
def segmentValue (H : Host) (a : Attribute) (segment : List Char) : Option a.Value :=
  (segmentPair segment).bind fun pair =>
    if toLower pair.1 = a.key then a.accepted H pair.1 pair.2 else none

section Segments

variable {H : Host} {p : ConnectionStringParser}

theorem handleSegment_get (a : Attribute) (segment : List Char) :
    (handleSegment H segment p).cfg a = (segmentValue H a segment).or (p.cfg a) := by
  unfold handleSegment segmentValue
  cases segmentPair segment with
  | none => rfl
  | some pair => exact handleAttributePair_get a

/-- The leftmost segment with a value for the attribute decides. -/
theorem foldr_handleSegment_get (a : Attribute) (segments : List (List Char)) :
    (segments.foldr (handleSegment H) p).cfg a =
      (segments.findSome? (segmentValue H a)).or (p.cfg a) := by
  induction segments with
  | nil => rfl
  | cons segment segments ih =>
    rw [List.foldr_cons, handleSegment_get, ih, List.findSome?_cons]
    cases segmentValue H a segment <;> rfl

/-- Segments without `=` leave no trace. -/
theorem foldr_handleSegment_filter (segments : List (List Char)) :
    (segments.filter fun segment => '=' ∈ segment).foldr (handleSegment H) p =
      segments.foldr (handleSegment H) p := by
  induction segments with
  | nil => rfl
  | cons segment segments ih =>
    by_cases hmem : '=' ∈ segment
    · rw [List.filter_cons_of_pos (by simpa using hmem), List.foldr_cons, ih, List.foldr_cons]
    · rw [List.filter_cons_of_neg (by simpa using hmem), ih, List.foldr_cons,
        handleSegment_of_notMem hmem]

end Segments

/-! ## Lists of attributes -/

section Lists

variable {H : Host} {p : ConnectionStringParser}

/-- The pairs, each closed by a NUL, and a NUL behind the last one. -/
def doubleNulList (pairs : List (List Char)) : List Char :=
  if pairs = [] then ['\x00', '\x00'] else pairs.flatMap (· ++ ['\x00']) ++ ['\x00']

/-- A pair of a list: a text that is not empty, without NUL. -/
def IsPair (pair : List Char) : Prop := pair ≠ [] ∧ '\x00' ∉ pair

theorem configAttributesLength_pair {pair : List Char} (hpair : '\x00' ∉ pair) (rest : List Char) :
    configAttributesLength (pair ++ '\x00' :: rest) =
      pair.length + configAttributesLength ('\x00' :: rest) := by
  induction pair with
  | nil => simp
  | cons c pair ih =>
    rw [List.mem_cons, not_or] at hpair
    have hc : c ≠ '\x00' := Ne.symm hpair.1
    have htail : configAttributesLength (c :: (pair ++ '\x00' :: rest)) =
        configAttributesLength (pair ++ '\x00' :: rest) + 1 := by
      cases pair with
      | nil => simp [configAttributesLength, hc]
      | cons d pair => simp [configAttributesLength, hc]
    rw [List.cons_append, htail, ih hpair.2, List.length_cons]
    omega

theorem configAttributesLength_nul {c : Char} (hc : c ≠ '\x00') (rest : List Char) :
    configAttributesLength ('\x00' :: c :: rest) = configAttributesLength (c :: rest) + 1 := by
  simp [configAttributesLength, hc]

/-- The list ends in front of its last NUL. -/
theorem configAttributesLength_list (pairs : List (List Char)) (hne : pairs ≠ [])
    (hpairs : ∀ pair ∈ pairs, IsPair pair) (junk : List Char) :
    configAttributesLength (pairs.flatMap (· ++ ['\x00']) ++ '\x00' :: junk) + 1 =
      (pairs.flatMap (· ++ ['\x00'])).length := by
  induction pairs with
  | nil => exact absurd rfl hne
  | cons pair pairs ih =>
    rw [List.forall_mem_cons] at hpairs
    obtain ⟨⟨_, hnul⟩, hrest⟩ := hpairs
    have hsplit : (pair :: pairs).flatMap (· ++ ['\x00']) ++ '\x00' :: junk =
        pair ++ '\x00' :: (pairs.flatMap (· ++ ['\x00']) ++ '\x00' :: junk) := by simp
    rw [hsplit, configAttributesLength_pair hnul]
    cases pairs with
    | nil => simp [configAttributesLength]
    | cons next pairs =>
      have hnext := hrest next List.mem_cons_self
      obtain ⟨c, next', rfl⟩ := List.exists_cons_of_ne_nil hnext.1
      have hc : c ≠ '\x00' := by
        rintro rfl
        exact hnext.2 List.mem_cons_self
      have hlen := ih (List.cons_ne_nil _ _) hrest
      have hcons : ((c :: next') :: pairs).flatMap (· ++ ['\x00']) ++ '\x00' :: junk =
          c :: (next' ++ ['\x00'] ++ pairs.flatMap (· ++ ['\x00']) ++ '\x00' :: junk) := by simp
      rw [hcons] at hlen ⊢
      rw [configAttributesLength_nul hc]
      simp only [List.flatMap_cons, List.length_append, List.length_cons, List.length_nil] at hlen ⊢
      omega

theorem eraseTrailingNuls_of_last {s : List Char} {c : Char} (hc : c ≠ '\x00') :
    eraseTrailingNuls (s ++ [c]) = s ++ [c] := by
  simp [eraseTrailingNuls, hc]

theorem eraseTrailingNuls_nul (s : List Char) :
    eraseTrailingNuls (s ++ ['\x00']) = eraseTrailingNuls s := by
  simp [eraseTrailingNuls]

theorem flatMap_closed (x : Char) (pairs : List (List Char)) (hne : pairs ≠ []) :
    pairs.flatMap (· ++ [x]) = [x].intercalate pairs ++ [x] := by
  induction pairs with
  | nil => exact absurd rfl hne
  | cons pair pairs ih =>
    cases pairs with
    | nil => simp
    | cons next pairs =>
      rw [List.flatMap_cons, ih (List.cons_ne_nil _ _), List.intercalate_cons_cons]
      simp

/-- The pairs joined by a delimiter have no NUL at the end. -/
theorem eraseTrailingNuls_intercalate (x : Char) (pairs : List (List Char))
    (hpairs : ∀ pair ∈ pairs, IsPair pair) :
    eraseTrailingNuls ([x].intercalate pairs) = [x].intercalate pairs := by
  have hlast : ∀ pairs : List (List Char), pairs ≠ [] → (∀ pair ∈ pairs, IsPair pair) →
      ∃ s c, [x].intercalate pairs = s ++ [c] ∧ c ≠ '\x00' := by
    intro pairs
    induction pairs with
    | nil => intro h; exact absurd rfl h
    | cons pair pairs ih =>
      intro _ hpairs
      rw [List.forall_mem_cons] at hpairs
      cases pairs with
      | nil =>
        obtain ⟨hne, hnul⟩ := hpairs.1
        refine ⟨pair.dropLast, pair.getLast hne, ?_, fun hc => hnul ?_⟩
        · rw [List.dropLast_concat_getLast]
          simp
        · rw [← hc]
          exact List.getLast_mem hne
      | cons next pairs =>
        obtain ⟨s, c, heq, hc⟩ := ih (List.cons_ne_nil _ _) hpairs.2
        refine ⟨pair ++ [x] ++ s, c, ?_, hc⟩
        rw [List.intercalate_cons_cons, heq]
        simp
  by_cases hne : pairs = []
  · subst hne
    rfl
  · obtain ⟨s, c, heq, hc⟩ := hlast pairs hne hpairs
    rw [heq]
    exact eraseTrailingNuls_of_last hc

/-- The pairs joined by a delimiter that none of them contains. -/
theorem parseConnectionString_pairs {delimiter : Char} (pairs : List (List Char))
    (hpairs : ∀ pair ∈ pairs, IsPair pair) (hno : ∀ pair ∈ pairs, delimiter ∉ pair) :
    p.parseConnectionString H ([delimiter].intercalate pairs) delimiter =
      pairs.foldr (handleSegment H) p := by
  rw [parseConnectionString_fold, eraseTrailingNuls_intercalate _ _ hpairs]
  by_cases hne : pairs = []
  · subst hne
    exact handleSegment_of_notMem List.not_mem_nil
  · rw [List.splitOn_intercalate _ hno hne]

theorem parseConfigAttributes_pairs (pairs : List (List Char))
    (hpairs : ∀ pair ∈ pairs, IsPair pair) (junk : List Char) :
    p.parseConfigAttributes H (doubleNulList pairs ++ junk) =
      p.parseConnectionString H (['\x00'].intercalate pairs) '\x00' := by
  unfold parseConfigAttributes doubleNulList
  by_cases hne : pairs = []
  · subst hne
    rfl
  · rw [if_neg hne, List.append_assoc, List.singleton_append,
      configAttributesLength_list pairs hne hpairs, List.take_left, flatMap_closed _ _ hne]
    unfold parseConnectionString
    rw [eraseTrailingNuls_nul]

end Lists

/-- The parser is a fold over the segments from the last to the first. So the leftmost segment with
a value for an attribute decides, and a segment without `=` leaves no trace. A list of attributes is
parsed like its pairs joined by `;`, when none of them contains one. -/
theorem parser_fold (H : Host) (p : ConnectionStringParser) :
    (∀ (str : List Char) (delimiter : Char),
      p.parseConnectionString H str delimiter =
        ((eraseTrailingNuls str).splitOn delimiter).foldr (handleSegment H) p ∧
      (∀ a, (p.parseConnectionString H str delimiter).cfg a =
        (((eraseTrailingNuls str).splitOn delimiter).findSome? (segmentValue H a)).or (p.cfg a)) ∧
      p.parseConnectionString H str delimiter =
        (((eraseTrailingNuls str).splitOn delimiter).filter fun segment => '=' ∈ segment).foldr
          (handleSegment H) p) ∧
    (∀ (pairs : List (List Char)) (junk : List Char), (∀ pair ∈ pairs, IsPair pair) →
      (∀ pair ∈ pairs, ';' ∉ pair) →
      p.parseConfigAttributes H (doubleNulList pairs ++ junk) =
        p.parseConnectionString H ([';'].intercalate pairs) ';') := by
  constructor
  · intro str delimiter
    refine ⟨parseConnectionString_fold str, fun a => ?_, ?_⟩
    · rw [parseConnectionString_fold, foldr_handleSegment_get]
    · rw [parseConnectionString_fold, foldr_handleSegment_filter]
  · intro pairs junk hpairs hsemicolon
    have hnul : ∀ pair ∈ pairs, '\x00' ∉ pair := fun pair hpair => (hpairs pair hpair).2
    rw [parseConfigAttributes_pairs pairs hpairs, parseConnectionString_pairs pairs hpairs hnul,
      parseConnectionString_pairs pairs hpairs hsemicolon]

section Examples

def twoPairs : List (List Char) := ["UID=a".toList, "PWD={b c}".toList]

/-- A list of two attributes, one of them with braces around its value. -/
theorem parser_twoPairs :
    newParser.parseConfigAttributes linuxHost (doubleNulList twoPairs) =
      newParser.parseConnectionString linuxHost "UID=a;PWD={b c}".toList ';' ∧
    (newParser.parseConnectionString linuxHost "UID=a;PWD={b c}".toList ';').cfg .pwd =
      some "b c" := by
  have hpairs : ∀ pair ∈ twoPairs, IsPair pair := by
    simp only [twoPairs, List.forall_mem_cons, IsPair]
    decide
  have hlist := (parser_fold linuxHost newParser).2 twoPairs [] hpairs (by decide)
  have hstring := (parser_fold linuxHost newParser).1 "UID=a;PWD={b c}".toList ';'
  have hjoin : [';'].intercalate twoPairs = "UID=a;PWD={b c}".toList := by decide
  rw [List.append_nil, hjoin] at hlist
  refine ⟨hlist, ?_⟩
  rw [hstring.2.1 .pwd]
  decide +kernel

end Examples

end ConnectionStringParser

end TrinoOdbc
