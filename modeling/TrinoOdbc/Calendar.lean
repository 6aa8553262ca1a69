import Mathlib.Algebra.Order.Ring.Int
import Mathlib.Data.List.Basic
import Mathlib.Tactic.IntervalCases

/-!
# TrinoOdbc.Calendar

The Gregorian calendar of the C library, before and after its introduction: `timegm` and `gmtime`.

* `yearOf_eq_iff` — the year of a day is the one whose first day is not behind it.
* `monthOf_sum` — the month and the day in it, from the day of the year.
* `gmtime_timegm` — `gmtime` gives back a date and a time of day that `timegm` was given.
* `timegm_gmtime` — `timegm` gives back the seconds that `gmtime` was given.
-/

namespace Calendar

/-- `struct tm`: years since 1900, months since January. -/
structure Tm where
  year : Int
  mon : Int
  mday : Int
  hour : Int
  min : Int
  sec : Int
  deriving DecidableEq, Repr

def isLeap (y : Int) : Bool := y % 4 = 0 && (y % 100 ≠ 0 || y % 400 = 0)

/-- The days of the months. -/
def monthLengths (leap : Bool) : List Nat :=
  [31, if leap then 29 else 28, 31, 30, 31, 30, 31, 31, 30, 31, 30, 31]

/-- The days from the first day of the year 1 to the first day of `y`. -/
def yearStart (y : Int) : Int := 365 * (y - 1) + (y - 1) / 4 - (y - 1) / 100 + (y - 1) / 400

/-- The year of a day, counted like `yearStart`. The mean length of a year is at most a year off. -/
def yearOf (day : Int) : Int :=
  let y := day * 400 / 146097 + 1
  if day < yearStart y then y - 1 else if yearStart (y + 1) ≤ day then y + 1 else y

/-- The month and the day in it, both from 0. -/
def monthOf : List Nat → Nat → Nat × Nat
  | [], day => (0, day)
  | l :: ls, day =>
    if day < l then (0, day)
    else
      let (month, day) := monthOf ls (day - l)
      (month + 1, day)

/-- The first of January 1970. -/
def epoch : Int := 719162

/-- The seconds since 1970. Months beyond December count into the next years. -/
def timegm (t : Tm) : Int :=
  let y := t.year + 1900 + t.mon / 12
  let day := yearStart y + ((monthLengths (isLeap y)).take (t.mon % 12).toNat).sum + t.mday - 1
  (day - epoch) * 86400 + t.hour * 3600 + t.min * 60 + t.sec

def gmtime (seconds : Int) : Tm :=
  let day := seconds / 86400 + epoch
  let y := yearOf day
  let (month, mday) := monthOf (monthLengths (isLeap y)) (day - yearStart y).toNat
  let rest := seconds % 86400
  { year := y - 1900, mon := month, mday := mday + 1
    hour := rest / 3600, min := rest / 60 % 60, sec := rest % 60 }

/-- A day of the calendar and a time of day. -/
structure Tm.Valid (t : Tm) : Prop where
  mon : 0 ≤ t.mon ∧ t.mon < 12
  mday : 1 ≤ t.mday ∧ t.mday ≤ (monthLengths (isLeap (t.year + 1900)))[t.mon.toNat]?.getD 0
  hour : 0 ≤ t.hour ∧ t.hour < 24
  min : 0 ≤ t.min ∧ t.min < 60
  sec : 0 ≤ t.sec ∧ t.sec < 60

/-! ## Years -/

theorem sum_monthLengths (leap : Bool) :
    ((monthLengths leap).sum : Int) = if leap then 366 else 365 := by
  cases leap <;> rfl

theorem yearStart_succ (y : Int) :
    yearStart (y + 1) = yearStart y + (monthLengths (isLeap y)).sum := by
  rw [sum_monthLengths]
  unfold yearStart isLeap
  by_cases h4 : y % 4 = 0
  · by_cases h100 : y % 100 = 0
    · by_cases h400 : y % 400 = 0
      · simp only [h4, h100, h400, decide_true, decide_false, ne_eq, not_true_eq_false, Bool.or_true,
          Bool.and_self, if_true]
        omega
      · simp only [h4, h100, h400, decide_true, decide_false, ne_eq, not_true_eq_false,
          Bool.or_self, Bool.and_false, Bool.false_eq_true, if_false]
        omega
    · have h400 : ¬ y % 400 = 0 := by omega
      simp only [h4, h100, h400, decide_true, decide_false, ne_eq, not_false_eq_true, Bool.or_false,
        Bool.and_self, if_true]
      omega
  · have h100 : ¬ y % 100 = 0 := by omega
    have h400 : ¬ y % 400 = 0 := by omega
    simp only [h4, decide_false, Bool.false_and, Bool.false_eq_true, if_false]
    omega

/-- Years do not overlap. -/
theorem yearStart_mono {y z : Int} (h : y < z) : yearStart (y + 1) ≤ yearStart z := by
  by_cases hz : z = y + 1
  · exact Int.le_of_eq (by rw [hz])
  · unfold yearStart
    omega

theorem yearOf_spec (day : Int) :
    yearStart (yearOf day) ≤ day ∧ day < yearStart (yearOf day + 1) := by
  have hlo : yearStart (day * 400 / 146097 + 1 - 1) ≤ day := by
    unfold yearStart
    omega
  have hhi : day < yearStart (day * 400 / 146097 + 1 + 1 + 1) := by
    unfold yearStart
    omega
  unfold yearOf
  simp only
  split
  · rename_i h
    exact ⟨hlo, by rw [Int.sub_add_cancel]; exact h⟩
  · rename_i h
    split
    · rename_i h'
      exact ⟨h', hhi⟩
    · rename_i h'
      exact ⟨by omega, by omega⟩

theorem yearOf_eq_iff {day y : Int} :
    yearOf day = y ↔ yearStart y ≤ day ∧ day < yearStart (y + 1) := by
  have hspec := yearOf_spec day
  constructor
  · rintro rfl
    exact hspec
  · intro h
    rcases Int.lt_trichotomy (yearOf day) y with hlt | heq | hgt
    · have := yearStart_mono hlt
      omega
    · exact heq
    · have := yearStart_mono hgt
      omega

/-! ## Months -/

theorem monthOf_sum : ∀ {ls : List Nat} {month day : Nat}, day < ls[month]?.getD 0 →
    monthOf ls ((ls.take month).sum + day) = (month, day) := by
  intro ls
  induction ls with
  | nil => intro month day h; simp at h
  | cons l ls ih =>
    intro month day h
    cases month with
    | zero =>
      have hday : day < l := by simpa using h
      simp [monthOf, hday]
    | succ month =>
      have hday : day < ls[month]?.getD 0 := by simpa using h
      have hsub : l + (ls.take month).sum + day - l = (ls.take month).sum + day := by omega
      rw [List.take_succ_cons, List.sum_cons, monthOf, if_neg (by omega), hsub, ih hday]

theorem sum_take_add_lt : ∀ {ls : List Nat} {month day : Nat}, day < ls[month]?.getD 0 →
    (ls.take month).sum + day < ls.sum := by
  intro ls
  induction ls with
  | nil => intro month day h; simp at h
  | cons l ls ih =>
    intro month day h
    cases month with
    | zero =>
      have hday : day < l := by simpa using h
      simp only [List.take_zero, List.sum_nil, List.sum_cons]
      omega
    | succ month =>
      have hday : (ls.take month).sum + day < ls.sum := ih (by simpa using h)
      simp only [List.take_succ_cons, List.sum_cons]
      omega

theorem monthOf_spec : ∀ {ls : List Nat} {day : Nat}, day < ls.sum →
    (monthOf ls day).2 < ls[(monthOf ls day).1]?.getD 0 ∧
      (ls.take (monthOf ls day).1).sum + (monthOf ls day).2 = day := by
  intro ls
  induction ls with
  | nil => intro day h; simp at h
  | cons l ls ih =>
    intro day h
    rw [List.sum_cons] at h
    unfold monthOf
    split
    · rename_i hlt
      exact ⟨by simpa using hlt, by simp⟩
    · rename_i hge
      obtain ⟨hinside, hsum⟩ := @ih (day - l) (by omega)
      refine ⟨by simpa using hinside, ?_⟩
      simp only [List.take_succ_cons, List.sum_cons]
      omega

theorem length_monthLengths (leap : Bool) : (monthLengths leap).length = 12 := rfl

/-! ## The two functions -/

theorem gmtime_timegm {t : Tm} (h : t.Valid) : gmtime (timegm t) = t := by
  obtain ⟨hmon, hmday, hhour, hmin, hsec⟩ := h
  obtain ⟨month, hmonth⟩ : ∃ month : Nat, t.mon = month := ⟨t.mon.toNat, by omega⟩
  obtain ⟨day, hday⟩ : ∃ day : Nat, t.mday = day + 1 := ⟨(t.mday - 1).toNat, by omega⟩
  rw [hmonth, Int.toNat_natCast] at hmday
  have hlt : day < (monthLengths (isLeap (t.year + 1900)))[month]?.getD 0 := by omega
  have hyear : t.year + 1900 + t.mon / 12 = t.year + 1900 := by omega
  have hmod : (t.mon % 12).toNat = month := by omega
  have hinside := sum_take_add_lt hlt
  have hnext := yearStart_succ (t.year + 1900)
  have hseconds : timegm t = (yearStart (t.year + 1900) +
      (((monthLengths (isLeap (t.year + 1900))).take month).sum + day : Nat) - epoch) * 86400 +
      (t.hour * 3600 + t.min * 60 + t.sec) := by
    unfold timegm
    simp only [hyear, hmod, hday]
    push_cast
    omega
  have hdays : timegm t / 86400 + epoch = yearStart (t.year + 1900) +
      (((monthLengths (isLeap (t.year + 1900))).take month).sum + day : Nat) := by omega
  have hrest : timegm t % 86400 = t.hour * 3600 + t.min * 60 + t.sec := by omega
  have hof : yearOf (timegm t / 86400 + epoch) = t.year + 1900 :=
    yearOf_eq_iff.mpr ⟨by omega, by omega⟩
  rw [hdays] at hof
  have hof_day : (yearStart (t.year + 1900) +
      (((monthLengths (isLeap (t.year + 1900))).take month).sum + day : Nat) -
        yearStart (t.year + 1900)).toNat =
      ((monthLengths (isLeap (t.year + 1900))).take month).sum + day := by omega
  unfold gmtime
  simp only [hdays, hof, hrest, hof_day, monthOf_sum hlt]
  obtain ⟨year, mon, mday, hour, min, sec⟩ := t
  simp only at hmonth hday hhour hmin hsec ⊢
  rw [Tm.mk.injEq]
  refine ⟨by omega, by omega, by omega, by omega, by omega, by omega⟩

/-- The day of the year, from 0. -/
theorem yearDay_lt (day : Int) :
    (day - yearStart (yearOf day)).toNat < (monthLengths (isLeap (yearOf day))).sum := by
  have hspec := yearOf_spec day
  have hnext := yearStart_succ (yearOf day)
  omega

theorem gmtime_valid (seconds : Int) : (gmtime seconds).Valid := by
  have hlt := yearDay_lt (seconds / 86400 + epoch)
  obtain ⟨hinside, -⟩ := monthOf_spec hlt
  have hmonth : (monthOf (monthLengths (isLeap (yearOf (seconds / 86400 + epoch))))
      (seconds / 86400 + epoch - yearStart (yearOf (seconds / 86400 + epoch))).toNat).1 < 12 := by
    by_contra hge
    rw [List.getElem?_eq_none (by rw [length_monthLengths]; omega), Option.getD_none] at hinside
    omega
  have hyear : (gmtime seconds).year + 1900 = yearOf (seconds / 86400 + epoch) :=
    Int.sub_add_cancel _ _
  refine ⟨⟨Int.natCast_nonneg _, ?_⟩, ⟨?_, ?_⟩, ?_, ?_, ?_⟩
  · exact Int.ofNat_lt.mpr hmonth
  · exact Int.le_add_of_nonneg_left (Int.natCast_nonneg _)
  · rw [hyear]
    simp only [gmtime, Int.toNat_natCast]
    omega
  all_goals
    simp only [gmtime]
    omega

theorem timegm_gmtime (seconds : Int) : timegm (gmtime seconds) = seconds := by
  have hlt := yearDay_lt (seconds / 86400 + epoch)
  have hvalid := gmtime_valid seconds
  have hstart := (yearOf_spec (seconds / 86400 + epoch)).1
  obtain ⟨-, hsum⟩ := monthOf_spec hlt
  have hmon := hvalid.mon
  have hyear : (gmtime seconds).year + 1900 + (gmtime seconds).mon / 12 =
      yearOf (seconds / 86400 + epoch) := by
    rw [Int.ediv_eq_zero_of_lt hmon.1 hmon.2, Int.add_zero]
    exact Int.sub_add_cancel _ _
  have hmod : ((gmtime seconds).mon % 12).toNat = (monthOf
      (monthLengths (isLeap (yearOf (seconds / 86400 + epoch))))
      (seconds / 86400 + epoch - yearStart (yearOf (seconds / 86400 + epoch))).toNat).1 := by
    rw [Int.emod_eq_of_lt hmon.1 hmon.2]
    exact Int.toNat_natCast _
  unfold timegm
  simp only [hyear, hmod]
  simp only [gmtime]
  omega

/-- A month and a day, in any year, and a time of day. -/
structure Tm.InYear (t : Tm) : Prop where
  mon : 0 ≤ t.mon ∧ t.mon < 12
  mday : 1 ≤ t.mday ∧ t.mday ≤ 31
  clock : 0 ≤ t.hour * 3600 + t.min * 60 + t.sec ∧ t.hour * 3600 + t.min * 60 + t.sec < 86400

theorem monthLengths_le (leap : Bool) (month : Nat) : (monthLengths leap)[month]?.getD 0 ≤ 31 := by
  rcases Nat.lt_or_ge month 12 with hlt | hge
  · cases leap <;> interval_cases month <;> decide
  · rw [List.getElem?_eq_none (by rw [length_monthLengths]; exact hge), Option.getD_none]
    decide

theorem Tm.Valid.inYear {t : Tm} (h : t.Valid) : t.InYear := by
  obtain ⟨hmon, hmday, hhour, hmin, hsec⟩ := h
  have hle := monthLengths_le (isLeap (t.year + 1900)) t.mon.toNat
  exact ⟨hmon, by omega, by omega⟩

theorem Tm.InYear.midnight {t : Tm} (h : t.InYear) :
    Tm.InYear { t with hour := 0, min := 0, sec := 0 } :=
  ⟨h.mon, h.mday, by simp⟩

theorem timegm_inYear {t : Tm} (h : t.InYear) :
    timegm t = (yearStart (t.year + 1900) +
      ((monthLengths (isLeap (t.year + 1900))).take t.mon.toNat).sum + t.mday - 1 - epoch) * 86400 +
        (t.hour * 3600 + t.min * 60 + t.sec) := by
  have hmon := h.mon
  have hyear : t.year + 1900 + t.mon / 12 = t.year + 1900 := by omega
  have hmod : (t.mon % 12).toNat = t.mon.toNat := by omega
  unfold timegm
  simp only [hyear, hmod]
  omega

theorem sum_take_monthLengths_le (leap : Bool) (month : Nat) :
    ((monthLengths leap).take month).sum ≤ (monthLengths leap).sum := by
  conv_rhs => rw [← List.take_append_drop month (monthLengths leap), List.sum_append]
  exact Nat.le_add_right _ _

/-- What is a year and more behind is earlier. -/
theorem timegm_lt {t u : Tm} (ht : t.InYear) (hu : u.InYear) (hyear : u.year + 1 < t.year) :
    timegm u < timegm t := by
  have htmday := ht.mday
  have htclock := ht.clock
  have humday := hu.mday
  have huclock := hu.clock
  have hsum := sum_take_monthLengths_le (isLeap (u.year + 1900)) u.mon.toNat
  have hnext := yearStart_succ (u.year + 1900)
  have hfar := yearStart_succ (u.year + 1900 + 1)
  have hlong : (365 : Int) ≤ (monthLengths (isLeap (u.year + 1900 + 1))).sum := by
    rw [sum_monthLengths]
    split <;> omega
  have hstart : yearStart (u.year + 1900 + 1 + 1) ≤ yearStart (t.year + 1900) := by
    have hmono := @yearStart_mono (u.year + 1900 + 1) (t.year + 1900) (by omega)
    exact hmono
  rw [timegm_inYear ht, timegm_inYear hu]
  omega

end Calendar
