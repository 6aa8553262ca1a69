import Mathlib.Algebra.Order.Ring.Int
import Mathlib.Data.List.TakeWhile

/-!
# TrinoOdbc.Formatted

Integers in text: the conversions `%d`, `%4d`, `%02d` of `printf`, and `scanf` with the conversions
`%d`, `%2d`.

* `scanInt_digits`, `scanInt_negative` — a digit string is read up to its end or the field width.
* `value_zeroPadded`, `length_zeroPadded` — what is printed has the value and the width asked for.
-/

namespace Formatted

/-! ## Printing -/

def digits (n : Nat) : List Char := Nat.toDigits 10 n

/-- `%d`. -/
def decimal (v : Int) : List Char := if v < 0 then '-' :: digits v.natAbs else digits v.natAbs

/-- `%4d`, of width 4. -/
def spacePadded (width : Nat) (v : Int) : List Char :=
  List.replicate (width - (decimal v).length) ' ' ++ decimal v

/-- `%02d`, of width 2. The sign comes before the zeros. -/
def zeroPadded (width : Nat) (v : Int) : List Char :=
  let zeros := List.replicate (width - (decimal v).length) '0'
  if v < 0 then '-' :: (zeros ++ digits v.natAbs) else zeros ++ digits v.natAbs

/-! ## Reading -/

def isSpace (c : Char) : Bool := c ∈ [' ', '\t', '\n', '\x0b', '\x0c', '\r']

/-- The value of a digit string. -/
def value (ds : List Char) : Nat := Nat.ofDigitChars 10 ds 0

inductive Directive where
  | literal (c : Char)
  | space
  | int (width : Option Nat)

/-- `%d`, and `%2d` of width 2: the number read, and the rest of the text. -/
def scanInt (width : Option Nat) (text : List Char) : Option (Int × List Char) :=
  let text := text.dropWhile isSpace
  let field := match width with
    | none => text
    | some n => text.take n
  match field with
  | '-' :: field =>
    let ds := field.takeWhile Char.isDigit
    if ds = [] then none else some (-value ds, text.drop (ds.length + 1))
  | '+' :: field =>
    let ds := field.takeWhile Char.isDigit
    if ds = [] then none else some (value ds, text.drop (ds.length + 1))
  | field =>
    let ds := field.takeWhile Char.isDigit
    if ds = [] then none else some (value ds, text.drop ds.length)

/-- The numbers that `scanf` reads until the text does not match. -/
def scan : List Directive → List Char → List Int
  | [], _ => []
  | .literal c :: format, text =>
    match text with
    | [] => []
    | d :: text => if c = d then scan format text else []
  | .space :: format, text => scan format (text.dropWhile isSpace)
  | .int width :: format, text =>
    match scanInt width text with
    | none => []
    | some (v, text) => v :: scan format text

/-! ## What is printed -/

/-- Digit strings are not empty. -/
structure Digits (ds : List Char) : Prop where
  ne_nil : ds ≠ []
  all : ∀ c ∈ ds, c.isDigit = true

theorem digits_digits (n : Nat) : Digits (digits n) :=
  ⟨Nat.toDigits_ne_nil, fun _ hc => Nat.isDigit_of_mem_toDigits (by decide) (by decide) hc⟩

theorem value_digits (n : Nat) : value (digits n) = n := Nat.ofDigitChars_ten_toDigits

theorem length_digits_le {n width : Nat} (hw : 0 < width) :
    (digits n).length ≤ width ↔ n < 10 ^ width :=
  Nat.length_toDigits_le_iff (by decide) hw

theorem decimal_natCast (n : Nat) : decimal (n : Int) = digits n := by
  rw [decimal, if_neg (by omega), Int.natAbs_natCast]

theorem zeroPadded_natCast (width n : Nat) :
    zeroPadded width (n : Int) =
      List.replicate (width - (digits n).length) '0' ++ digits n := by
  rw [zeroPadded, decimal_natCast]
  simp

theorem digits_zeroPadded (width n : Nat) : Digits (zeroPadded width (n : Int)) := by
  rw [zeroPadded_natCast]
  constructor
  · simp [(digits_digits n).ne_nil]
  · intro c hc
    rcases List.mem_append.mp hc with hzero | hdigit
    · rw [List.eq_of_mem_replicate hzero]
      rfl
    · exact (digits_digits n).all c hdigit

theorem value_zeroPadded (width n : Nat) : value (zeroPadded width (n : Int)) = n := by
  rw [zeroPadded_natCast, value, Nat.ofDigitChars_append, Nat.ofDigitChars_replicate_zero,
    Nat.mul_zero]
  exact value_digits n

theorem length_zeroPadded {width n : Nat} (hw : 0 < width) (h : n < 10 ^ width) :
    (zeroPadded width (n : Int)).length = width := by
  have hle := (length_digits_le hw).mpr h
  rw [zeroPadded_natCast, List.length_append, List.length_replicate]
  omega

/-- Enough digits for the width are not padded. -/
theorem zeroPadded_digits {width n : Nat} (h : 10 ^ (width - 1) ≤ n) (hw : 1 < width) :
    zeroPadded width (n : Int) = digits n := by
  have hlen : ¬ (digits n).length ≤ width - 1 := by
    rw [length_digits_le (by omega)]
    omega
  rw [zeroPadded_natCast, Nat.sub_eq_zero_of_le (by omega)]
  rfl

theorem zeroPadded_negative {v : Int} (h : v < 0) (width : Nat) :
    ∃ rest, zeroPadded width v = '-' :: rest := by
  unfold zeroPadded
  simp only [if_pos h]
  exact ⟨_, rfl⟩

theorem zeroPadded_inj {width n : Nat} {v : Int} (h : zeroPadded width v = zeroPadded width n) :
    v = n := by
  rcases Int.lt_or_le v 0 with hneg | hnonneg
  · -- The sign is no digit.
    obtain ⟨rest, hrest⟩ := zeroPadded_negative hneg width
    have hdigit := (digits_zeroPadded width n).all '-' (by rw [← h, hrest]; exact List.mem_cons_self)
    exact absurd hdigit (by decide)
  · obtain ⟨k, rfl⟩ := Int.eq_ofNat_of_zero_le hnonneg
    have hvalue := congrArg value h
    rw [value_zeroPadded, value_zeroPadded] at hvalue
    exact_mod_cast hvalue

/-! ## What is read -/

theorem isDigit_iff {c : Char} : c.isDigit = true ↔ 48 ≤ c.toNat ∧ c.toNat ≤ 57 := by
  unfold Char.isDigit
  simp only [Bool.and_eq_true, decide_eq_true_eq]
  exact Iff.rfl

/-- A digit string has less than the power of ten of its length. -/
theorem value_lt {ds : List Char} (h : ∀ c ∈ ds, c.isDigit = true) : value ds < 10 ^ ds.length := by
  induction ds with
  | nil => decide
  | cons c cs ih =>
    have hc := isDigit_iff.mp (h c List.mem_cons_self)
    have hcs := ih fun d hd => h d (List.mem_cons_of_mem c hd)
    have hzero : '0'.toNat = 48 := rfl
    have hle : 10 ^ cs.length * (c.toNat - 48) ≤ 10 ^ cs.length * 9 :=
      Nat.mul_le_mul_left _ (by omega)
    unfold value at hcs ⊢
    rw [Nat.ofDigitChars_cons, Nat.ofDigitChars_eq_ofDigitChars_zero, hzero, Nat.mul_zero,
      Nat.zero_add, List.length_cons, Nat.pow_succ]
    omega

theorem isSpace_of_isDigit {c : Char} (h : c.isDigit = true) : isSpace c = false := by
  rw [isDigit_iff] at h
  rw [Bool.eq_false_iff]
  intro hspace
  simp only [isSpace, List.mem_cons, List.not_mem_nil, or_false, decide_eq_true_eq] at hspace
  rcases hspace with rfl | rfl | rfl | rfl | rfl | rfl <;> revert h <;> decide

theorem sign_of_isDigit {c : Char} (h : c.isDigit = true) : c ≠ '-' ∧ c ≠ '+' := by
  constructor
  · rintro rfl
    revert h
    decide
  · rintro rfl
    revert h
    decide

theorem takeWhile_digits {ds rest : List Char} (hds : ∀ c ∈ ds, c.isDigit = true)
    (hrest : ∀ c ∈ rest.head?, c.isDigit = false) :
    (ds ++ rest).takeWhile Char.isDigit = ds := by
  rw [List.takeWhile_append_of_pos hds]
  cases rest with
  | nil => simp
  | cons c rest =>
    rw [List.takeWhile_cons_of_neg (by simp [hrest c rfl]), List.append_nil]

/-- The digits of a field end where the width does, or before a character that is no digit. -/
theorem takeWhile_field {ds rest : List Char} {width : Option Nat}
    (hds : ∀ c ∈ ds, c.isDigit = true)
    (hend : ∀ c ∈ rest.head?, c.isDigit = false ∨ width = some ds.length)
    (hwidth : ∀ n ∈ width, ds.length ≤ n) :
    (match width with
      | none => ds ++ rest
      | some n => (ds ++ rest).take n).takeWhile Char.isDigit = ds := by
  cases width with
  | none => exact takeWhile_digits hds fun c hc => by simpa using hend c hc
  | some n =>
    have hle : ds.length ≤ n := hwidth n rfl
    simp only [List.take_append, List.take_of_length_le hle]
    refine takeWhile_digits hds fun c hc => ?_
    cases rest with
    | nil => simp at hc
    | cons d rest =>
      rcases Nat.eq_or_lt_of_le hle with heq | hlt
      · simp [heq] at hc
      · obtain ⟨k, hk⟩ : ∃ k, n - ds.length = k + 1 := ⟨n - ds.length - 1, by omega⟩
        rw [hk, List.take_succ_cons, List.head?_cons, Option.mem_some_iff] at hc
        subst hc
        rcases hend d rfl with h | h
        · exact h
        · cases h
          omega

/-- `%d`, and `%2d` where the field has two digits or ends. -/
theorem scanInt_digits {ds rest : List Char} {width : Option Nat} (hds : Digits ds)
    (hend : ∀ c ∈ rest.head?, c.isDigit = false ∨ width = some ds.length)
    (hwidth : ∀ n ∈ width, ds.length ≤ n) :
    scanInt width (ds ++ rest) = some ((value ds : Int), rest) := by
  have hfield := takeWhile_field hds.all hend hwidth
  obtain ⟨c, cs, rfl⟩ := List.exists_cons_of_ne_nil hds.ne_nil
  have hc : c.isDigit = true := hds.all c List.mem_cons_self
  obtain ⟨hminus, hplus⟩ := sign_of_isDigit hc
  have hspace : ((c :: cs) ++ rest).dropWhile isSpace = (c :: cs) ++ rest :=
    List.dropWhile_cons_of_neg (by simp [isSpace_of_isDigit hc])
  unfold scanInt
  simp only [hspace]
  split
  · rename_i field heq
    rw [heq, List.takeWhile_cons_of_neg (by decide)] at hfield
    cases hfield
  · rename_i field heq
    rw [heq, List.takeWhile_cons_of_neg (by decide)] at hfield
    cases hfield
  · rw [hfield, if_neg (List.cons_ne_nil c cs), List.drop_left]

/-- `%d` of a number with a minus sign. -/
theorem scanInt_negative {ds rest : List Char} (hds : Digits ds)
    (hend : ∀ c ∈ rest.head?, c.isDigit = false) :
    scanInt none ('-' :: (ds ++ rest)) = some (-(value ds : Int), rest) := by
  have hspace : ('-' :: (ds ++ rest)).dropWhile isSpace = '-' :: (ds ++ rest) :=
    List.dropWhile_cons_of_neg (by decide)
  unfold scanInt
  simp only [hspace, takeWhile_digits hds.all hend]
  rw [if_neg hds.ne_nil, List.drop_succ_cons, List.drop_left]

/-- `%d` of a number with a plus sign. -/
theorem scanInt_plus {ds rest : List Char} (hds : Digits ds)
    (hend : ∀ c ∈ rest.head?, c.isDigit = false) :
    scanInt none ('+' :: (ds ++ rest)) = some ((value ds : Int), rest) := by
  have hspace : ('+' :: (ds ++ rest)).dropWhile isSpace = '+' :: (ds ++ rest) :=
    List.dropWhile_cons_of_neg (by decide)
  unfold scanInt
  simp only [hspace, takeWhile_digits hds.all hend]
  rw [if_neg hds.ne_nil, List.drop_succ_cons, List.drop_left]

@[simp] theorem scan_literal (c : Char) (format : List Directive) (text : List Char) :
    scan (.literal c :: format) (c :: text) = scan format text := by
  simp [scan]

theorem scan_int {format : List Directive} {width : Option Nat} {text rest : List Char} {v : Int}
    (h : scanInt width text = some (v, rest)) :
    scan (.int width :: format) text = v :: scan format rest := by
  simp [scan, h]

/-- A space in the format takes the space in the text. -/
theorem scan_space {format : List Directive} {text : List Char} {c : Char}
    (hc : isSpace c = false) :
    scan (.space :: format) (' ' :: c :: text) = scan format (c :: text) := by
  rw [scan, List.dropWhile_cons_of_pos (by decide), List.dropWhile_cons_of_neg (by simp [hc])]

end Formatted
