import Mathlib.Data.List.Basic

/-!
# TrinoOdbc.SqlLexer

The lexical rules of SQL for words, quoted texts and symbols: inside `'...'` and inside `"..."` a
doubled quote stands for one quote.

`lexFrom_inside_iff` says what a quoted text is read from. `lexFrom_quoted_iff` follows: a text that
was put between quotes as it is comes back exactly when the quote does not occur in it.
-/

namespace TrinoOdbc.SqlLexer

/-- Single quotes enclose a literal, double quotes an identifier. -/
inductive Quote where
  | single | double
  deriving DecidableEq, Repr

def Quote.char : Quote → Char
  | .single => '\''
  | .double => '"'

/-- The case of a word is ignored: it is kept in upper case. -/
inductive Token where
  | word (letters : List Char)
  | quoted (q : Quote) (value : List Char)
  | symbol (c : Char)
  deriving DecidableEq, Repr

/-- What the lexer has read of the current token. After a quote inside a quoted text it is `closing`
until it sees that no second one follows. -/
inductive State where
  | between
  | word (letters : List Char)
  | inside (q : Quote) (value : List Char)
  | closing (q : Quote) (value : List Char)
  deriving DecidableEq, Repr

def isWordChar (c : Char) : Bool := c.isAlphanum || c = '_'

/-- A character that does not belong to the token before it. -/
def begin (c : Char) : List Token × State :=
  if c.isWhitespace then ([], .between)
  else if c = '\'' then ([], .inside .single [])
  else if c = '"' then ([], .inside .double [])
  else if isWordChar c then ([], .word [c.toUpper])
  else ([.symbol c], .between)

def step (st : State) (c : Char) : List Token × State :=
  match st with
  | .between => begin c
  | .word letters =>
    if isWordChar c then ([], .word (letters ++ [c.toUpper]))
    else (.word letters :: (begin c).1, (begin c).2)
  | .inside q value =>
    if c = q.char then ([], .closing q value) else ([], .inside q (value ++ [c]))
  | .closing q value =>
    if c = q.char then ([], .inside q (value ++ [c]))
    else (.quoted q value :: (begin c).1, (begin c).2)

def scan (st : State) : List Char → List Token × State
  | [] => ([], st)
  | c :: cs => ((step st c).1 ++ (scan (step st c).2 cs).1, (scan (step st c).2 cs).2)

/-- A quoted text that is not closed is no token. -/
def finish : State → Option (List Token)
  | .between => some []
  | .word letters => some [.word letters]
  | .inside _ _ => none
  | .closing q value => some [.quoted q value]

def lexFrom (st : State) (s : List Char) : Option (List Token) :=
  (finish (scan st s).2).map ((scan st s).1 ++ ·)

def lex (s : List Char) : Option (List Token) := lexFrom .between s

/-- Every quote doubled. -/
def escape (q : Quote) (s : List Char) : List Char :=
  s.flatMap fun c => if c = q.char then [c, c] else [c]

/-! ## Runs of the lexer -/

theorem scan_append (a b : List Char) : ∀ st : State,
    scan st (a ++ b) =
      ((scan st a).1 ++ (scan (scan st a).2 b).1, (scan (scan st a).2 b).2) := by
  induction a with
  | nil => intro st; rfl
  | cons c a ih =>
    intro st
    simp only [List.cons_append, scan, ih, List.append_assoc]

theorem lexFrom_append (st : State) (a b : List Char) :
    lexFrom st (a ++ b) = (lexFrom (scan st a).2 b).map ((scan st a).1 ++ ·) := by
  simp only [lexFrom, scan_append, Option.map_map, Function.comp_def, List.append_assoc]

theorem lexFrom_cons (st : State) (c : Char) (s : List Char) :
    lexFrom st (c :: s) = (lexFrom (step st c).2 s).map ((step st c).1 ++ ·) := by
  have h := lexFrom_append st [c] s
  simpa only [List.singleton_append, scan, List.append_nil] using h

section Quoted

variable {q : Quote} {v s : List Char} {ts : List Token}

theorem lexFrom_inside_quote :
    lexFrom (.inside q v) (q.char :: s) = lexFrom (.closing q v) s := by
  simp [lexFrom_cons, step]

theorem lexFrom_inside_char {c : Char} (h : c ≠ q.char) :
    lexFrom (.inside q v) (c :: s) = lexFrom (.inside q (v ++ [c])) s := by
  simp [lexFrom_cons, step, h]

theorem lexFrom_closing_quote :
    lexFrom (.closing q v) (q.char :: s) = lexFrom (.inside q (v ++ [q.char])) s := by
  simp [lexFrom_cons, step]

/-- No second quote follows: the text ends here. -/
theorem lexFrom_closing (h : s.head? ≠ some q.char) :
    lexFrom (.closing q v) s = (lexFrom .between s).map (.quoted q v :: ·) := by
  cases s with
  | nil => rfl
  | cons c s =>
    have hc : c ≠ q.char := by simpa using h
    simp only [lexFrom_cons, step, if_neg hc, Option.map_map, Function.comp_def,
      List.cons_append]

theorem escape_cons_quote : escape q (q.char :: v) = q.char :: q.char :: escape q v := by
  simp [escape]

theorem escape_cons_char {c : Char} (h : c ≠ q.char) : escape q (c :: v) = c :: escape q v := by
  simp [escape, h]

theorem lexFrom_escape {r : List Char} (hr : r.head? ≠ some q.char) (w : List Char) :
    ∀ v, lexFrom (.inside q v) (escape q w ++ q.char :: r) =
      (lexFrom .between r).map (.quoted q (v ++ w) :: ·) := by
  induction w with
  | nil =>
    intro v
    rw [List.append_nil]
    exact lexFrom_inside_quote.trans (lexFrom_closing hr)
  | cons c w ih =>
    intro v
    by_cases hc : c = q.char
    · subst hc
      rw [escape_cons_quote, List.cons_append, List.cons_append, lexFrom_inside_quote,
        lexFrom_closing_quote, ih, List.append_assoc, List.singleton_append]
    · rw [escape_cons_char hc, List.cons_append, lexFrom_inside_char hc, ih, List.append_assoc,
        List.singleton_append]

/-- A quoted text is read from its value with the quotes doubled and a closing quote. -/
theorem lexFrom_inside_iff :
    lexFrom (.inside q v) s = some ts ↔ ∃ w r ts', s = escape q w ++ q.char :: r ∧
      r.head? ≠ some q.char ∧ lexFrom .between r = some ts' ∧ ts = .quoted q (v ++ w) :: ts' := by
  constructor
  · intro h
    -- two quotes in a row are one step of the argument
    induction hn : s.length using Nat.strongRecOn generalizing s v with
    | ind n ih =>
      cases s with
      | nil => cases h
      | cons c s =>
        by_cases hc : c = q.char
        · subst hc
          rw [lexFrom_inside_quote] at h
          by_cases hs : s.head? = some q.char
          · obtain ⟨s', rfl⟩ := List.head?_eq_some_iff.mp hs
            rw [lexFrom_closing_quote] at h
            have hlt : s'.length < n := by
              simp only [List.length_cons] at hn
              omega
            obtain ⟨w, r, ts', rfl, hr, hb, rfl⟩ := ih s'.length hlt h rfl
            exact ⟨q.char :: w, r, ts', by rw [escape_cons_quote]; rfl, hr, hb, by simp⟩
          · rw [lexFrom_closing hs, Option.map_eq_some_iff] at h
            obtain ⟨ts', hb, rfl⟩ := h
            exact ⟨[], s, ts', rfl, hs, hb, by simp⟩
        · rw [lexFrom_inside_char hc] at h
          have hlt : s.length < n := by
            simp only [List.length_cons] at hn
            omega
          obtain ⟨w, r, ts', rfl, hr, hb, rfl⟩ := ih s.length hlt h rfl
          exact ⟨c :: w, r, ts', by rw [escape_cons_char hc]; rfl, hr, hb, by simp⟩
  · rintro ⟨w, r, ts', rfl, hr, hb, rfl⟩
    rw [lexFrom_escape hr, hb, Option.map_some]

/-! ## Texts put between quotes as they are -/

theorem length_escape (q : Quote) (v : List Char) :
    (escape q v).length = v.length + v.count q.char := by
  induction v with
  | nil => rfl
  | cons c v ih =>
    by_cases hc : c = q.char
    · subst hc
      rw [escape_cons_quote]
      simp only [List.length_cons, List.count_cons_self, ih]
      omega
    · rw [escape_cons_char hc]
      simp only [List.length_cons, List.count_cons_of_ne hc, ih]
      omega

theorem count_escape (q : Quote) (v : List Char) :
    (escape q v).count q.char = 2 * v.count q.char := by
  induction v with
  | nil => rfl
  | cons c v ih =>
    by_cases hc : c = q.char
    · subst hc
      rw [escape_cons_quote]
      simp only [List.count_cons_self, ih]
      omega
    · rw [escape_cons_char hc]
      simp only [List.count_cons_of_ne hc, ih]

theorem escape_eq_self (h : q.char ∉ v) : escape q v = v := by
  induction v with
  | nil => rfl
  | cons c v ih =>
    rw [List.mem_cons, not_or] at h
    rw [escape_cons_char (Ne.symm h.1), ih h.2]

/-- The quotes that doubling adds would have to follow the closing quote. -/
theorem notMem_of_escape {r rest : List Char}
    (h : escape q v ++ q.char :: r = v ++ q.char :: rest) (hrest : rest.head? ≠ some q.char) :
    q.char ∉ v := by
  have hsplit : (escape q v ++ [q.char]) ++ r = (v ++ [q.char]) ++ rest := by simpa using h
  have hlen : (v ++ [q.char]).length ≤ (escape q v ++ [q.char]).length := by
    simp only [List.length_append, length_escape]
    omega
  obtain ⟨x, hx⟩ := List.prefix_of_prefix_length_le ⟨rest, rfl⟩ ⟨r, hsplit⟩ hlen
  have hrx : rest = x ++ r := by
    rw [← hx, List.append_assoc] at hsplit
    exact (List.append_cancel_left hsplit).symm
  have hlength := congrArg List.length hx
  have hcount := congrArg (List.count q.char) hx
  simp only [List.length_append, length_escape, List.length_singleton] at hlength
  simp only [List.count_append, count_escape, List.count_singleton_self] at hcount
  have hall : x.count q.char = x.length := by omega
  cases x with
  | nil =>
    rw [← List.count_eq_zero]
    simp only [List.length_nil] at hlength
    omega
  | cons c x =>
    have hc : q.char = c := List.count_eq_length.mp hall c List.mem_cons_self
    rw [hrx, hc] at hrest
    exact absurd rfl hrest

/-- A text put between quotes is read back exactly when the quote does not occur in it. -/
theorem lexFrom_quoted_iff {rest : List Char} (hrest : rest.head? ≠ some q.char) :
    lexFrom (.inside q []) (v ++ q.char :: rest) = some (.quoted q v :: ts) ↔
      q.char ∉ v ∧ lexFrom .between rest = some ts := by
  constructor
  · intro h
    obtain ⟨w, r, ts', hs, _, hb, hts⟩ := lexFrom_inside_iff.mp h
    simp only [List.nil_append, List.cons.injEq, Token.quoted.injEq, true_and] at hts
    obtain ⟨rfl, rfl⟩ := hts
    have hno := notMem_of_escape hs.symm hrest
    rw [escape_eq_self hno] at hs
    have hr : rest = r := by simpa using hs
    exact ⟨hno, hr ▸ hb⟩
  · rintro ⟨hno, hb⟩
    refine lexFrom_inside_iff.mpr ⟨v, rest, ts, by rw [escape_eq_self hno], hrest, hb, rfl⟩

end Quoted

end TrinoOdbc.SqlLexer
