import TrinoOdbc.BufferInput

/-!
# TrinoOdbc.DateTimeRoundTrip

Dates, times and timestamps that are put into a struct and got back.

`dateTime_structs_iff` says what comes back of them, and for which years.
-/

namespace TrinoOdbc

open ByteMemory
open Calendar (Tm timegm)
open ApplicationDataBuffer

/-! ## Values -/

/-- The values that have both a `Put` and a `Get` function. A date is in milliseconds. -/
inductive DateTimeValue where
  | date (ms : Int)
  | time (value : TimeOfDay)
  | timestamp (value : Timestamp)

namespace DateTimeValue

def timed : DateTimeValue → TimedValue
  | .date ms => .date ms
  | .time value => .time value
  | .timestamp value => .timestamp value

def seconds : DateTimeValue → Int
  | .date ms => ms.tdiv 1000
  | .time value => value.seconds
  | .timestamp value => value.seconds

def fraction : DateTimeValue → Int
  | .date _ => 0
  | .time value => value.fractionNs
  | .timestamp value => value.fractionNs

def isTime : DateTimeValue → Bool
  | .time _ => true
  | _ => false

def put (P : Platform) (value : DateTimeValue) (b : ApplicationDataBuffer) :
    Except PutFault Conversion :=
  (value.timed.call P).perform b

/-- The `Get` function for the kind of the value. -/
def get (P : Platform) (value : DateTimeValue) (b : ApplicationDataBuffer) (m : Memory)
    (indicator : Int) : Except GetFault DateTimeValue :=
  match value with
  | .date _ => (b.getDate P m indicator).map .date
  | .time _ => (b.getTime P m indicator).map .time
  | .timestamp _ => (b.getTimestamp P m indicator).map .timestamp

/-- The structs that take the value. -/
def structs : DateTimeValue → List OdbcNativeType
  | .date _ => [.tdate, .ttimestamp]
  | .time _ => [.ttime, .ttimestamp]
  | .timestamp _ => [.tdate, .ttime, .ttimestamp]

/-- The midnight before. -/
def midnight (seconds : Int) : Int := seconds / 86400 * 86400

/-- What a struct holds of a value: days, times of day, or seconds with their fraction, which only a
timestamp gives back. -/
def held (type : OdbcNativeType) : DateTimeValue → DateTimeValue
  | .date ms =>
    .date (if type = .tdate then midnight (ms.tdiv 1000) * 1000 else ms.tdiv 1000 * 1000)
  | .time value => .time ⟨value.seconds % 86400, 0⟩
  | .timestamp value =>
    .timestamp
      (match type with
      | .tdate => ⟨midnight value.seconds, 0⟩
      | .ttime => ⟨value.seconds % 86400, 0⟩
      | _ => value)

/-- Whether the year is stored at all, and whether it is read. -/
def UsesYear (type : OdbcNativeType) (value : DateTimeValue) : Prop :=
  type ≠ .ttime ∧ value.isTime = false

/-- The values that the types of the source can hold, with a year that `gmtime` knows. -/
structure Ranged (value : DateTimeValue) : Prop where
  fraction : IsInt32 value.fraction
  year : IsInt32 (Calendar.gmtime value.seconds).year

end DateTimeValue

/-- The years of a `SQLSMALLINT`. -/
def IsSmallYear (seconds : Int) : Prop :=
  -32768 ≤ (Calendar.gmtime seconds).year + 1900 ∧ (Calendar.gmtime seconds).year + 1900 ≤ 32767

instance (seconds : Int) : Decidable (IsSmallYear seconds) := inferInstanceAs (Decidable (_ ∧ _))

/-- What is put is got as the struct holds it, whatever was in memory before. -/
def ComesBack (P : Platform) (b : ApplicationDataBuffer) (value held : DateTimeValue) : Prop :=
  ∃ base c, b.getData = some base ∧ value.put P b = .ok c ∧
    Within 0 b.getElementSize c.writes ∧
    ∀ m indicator, value.get P b (apply m base c.writes) indicator = .ok held

/-! ## The fields in memory -/

/-- A year in 16 bits. -/
def smallYear (year : Int) : Int := (year + 1900).bmod 65536 - 1900

theorem decodeNat_field {v : Int} (hlo : 0 ≤ v) (hhi : v < 65536) :
    (decodeNat (encode 2 v) : Int) = v := by
  rw [decodeNat_encode]
  omega

section Fields

variable {t : Tm} {ws : Writes} (ht : t.Valid) (hordered : Ordered ws) (m : Memory) (base : Int)
include ht hordered

theorem loadDate_apply (hws : ∀ w ∈ dateFields t, w ∈ ws) (u : Tm) :
    loadDate (apply m base ws) base u =
      { u with year := smallYear t.year, mon := t.mon, mday := t.mday } := by
  have hmon := ht.mon
  have hmday := ht.inYear.mday
  have hread (w) (hw : w ∈ dateFields t) := read_apply hordered (hws w hw) m base
  have hyear := hread (0, encode 2 (t.year + 1900)) List.mem_cons_self
  have hmonth := hread (2, encode 2 (t.mon + 1)) (by simp [dateFields])
  have hday := hread (4, encode 2 t.mday) (by simp [dateFields])
  simp only [length_encode, Int.add_zero] at hyear hmonth hday
  unfold loadDate
  rw [hyear, hmonth, hday, decodeInt_encode, decodeNat_field (by omega) (by omega),
    decodeNat_field (by omega) (by omega), Int.add_sub_cancel]
  rfl

theorem loadClock_apply (offset : Int)
    (hws : ∀ w ∈ timeFields t, (offset + w.1, w.2) ∈ ws) (u : Tm) :
    loadClock (apply m base ws) (base + offset) u =
      { u with hour := t.hour, min := t.min, sec := t.sec } := by
  have hhour := ht.hour
  have hmin := ht.min
  have hsec := ht.sec
  have hread (w) (hw : w ∈ timeFields t) := read_apply hordered (hws w hw) m base
  have hh := hread (0, encode 2 t.hour) List.mem_cons_self
  have hm := hread (2, encode 2 t.min) (by simp [timeFields])
  have hs := hread (4, encode 2 t.sec) (by simp [timeFields])
  simp only [length_encode, Int.add_zero, ← Int.add_assoc] at hh hm hs
  unfold loadClock
  rw [hh, hm, hs, decodeNat_field (by omega) (by omega), decodeNat_field (by omega) (by omega),
    decodeNat_field (by omega) (by omega)]

end Fields

theorem ordered_dateFields (t : Tm) : Ordered (dateFields t) := by
  simp [Ordered, dateFields]

theorem ordered_timeFields (t : Tm) : Ordered (timeFields t) := by
  simp [Ordered, timeFields]

theorem ordered_timestampFields (t : Tm) (fraction : Int) :
    Ordered (timestampFields t fraction) := by
  simp [Ordered, timestampFields, dateFields]

theorem read_fraction (t : Tm) {fraction : Int} (h : IsInt32 fraction) (m : Memory) (base : Int) :
    decodeInt (read (apply m base (timestampFields t fraction)) (base + 12) 4) = fraction := by
  have hread := @read_apply (timestampFields t fraction) (12, encode 4 fraction)
    (ordered_timestampFields t fraction) (by simp [timestampFields]) m base
  rw [length_encode] at hread
  rw [hread, decodeInt_encode]
  exact toInt32_of_isInt32 h

/-! ## Structs -/

/-- What is written to a struct. -/
def structFields (type : OdbcNativeType) (t : Tm) (fraction : Int) : Writes :=
  match type with
  | .tdate => dateFields t
  | .ttime => timeFields t
  | _ => timestampFields t fraction

/-- The first of January 1970, at the same time of day. -/
def epochTm (t : Tm) : Tm := { t with year := 70, mon := 0, mday := 1 }

/-- The `tm` that is read from it. -/
def structTm (type : OdbcNativeType) (t : Tm) : Tm :=
  match type with
  | .tdate => { cleared with year := smallYear t.year, mon := t.mon, mday := t.mday }
  | .ttime => epochTm t
  | _ => { t with year := smallYear t.year }

variable {P : Platform} {b : ApplicationDataBuffer} {value : DateTimeValue} {t : Tm} {base : Addr}

theorem gmtime_of_ranged (hvalue : value.Ranged) :
    P.gmtime value.seconds = Calendar.gmtime value.seconds := if_pos hvalue.year

theorem put_struct (htype : b.type ∈ value.structs) (hdata : b.getData = some base) :
    ∃ resLen result, value.put P b =
      .ok ⟨structFields b.type (P.gmtime value.seconds) value.fraction, resLen, result⟩ := by
  cases value with
  | date ms =>
    simp only [DateTimeValue.structs, List.mem_cons, List.not_mem_nil, or_false] at htype
    rcases htype with htype | htype <;>
      simp [DateTimeValue.put, DateTimeValue.timed, TimedValue.call, PutCall.perform, putDate,
        putStruct, structFields, htype, hdata, DateTimeValue.seconds, DateTimeValue.fraction]
  | time value =>
    simp only [DateTimeValue.structs, List.mem_cons, List.not_mem_nil, or_false] at htype
    rcases htype with htype | htype <;>
      simp [DateTimeValue.put, DateTimeValue.timed, TimedValue.call, PutCall.perform, putTime,
        putStruct, structFields, htype, hdata, DateTimeValue.seconds, DateTimeValue.fraction]
  | timestamp value =>
    simp only [DateTimeValue.structs, List.mem_cons, List.not_mem_nil, or_false] at htype
    rcases htype with htype | htype | htype <;>
      simp [DateTimeValue.put, DateTimeValue.timed, TimedValue.call, PutCall.perform, putTimestamp,
        putStruct, structFields, htype, hdata, DateTimeValue.seconds, DateTimeValue.fraction]

theorem structFields_within (htype : b.type ∈ value.structs) (t : Tm) (fraction : Int) :
    Within 0 b.getElementSize (structFields b.type t fraction) := by
  have hcases : b.type = .tdate ∨ b.type = .ttime ∨ b.type = .ttimestamp := by
    cases value <;>
      simp only [DateTimeValue.structs, List.mem_cons, List.not_mem_nil, or_false] at htype <;>
      tauto
  rcases hcases with h | h | h
  · simp only [h, structFields, getElementSize]
    exact dateFields_within t
  · simp only [h, structFields, getElementSize]
    exact timeFields_within t
  · simp only [h, structFields, getElementSize]
    exact timestampFields_within t fraction

/-- Both `GetDate` and `GetTimestamp` read this. -/
theorem readDateTime_struct (ht : t.Valid) (hdata : b.getData = some base)
    (htype : b.type = .tdate ∨ b.type = .ttime ∨ b.type = .ttimestamp) (fraction : Int) (m : Memory)
    (indicator : Int) :
    b.readDateTime P (apply m base (structFields b.type t fraction)) indicator =
      .ok (structTm b.type t) := by
  have hzero : base + 0 = base := Int.add_zero base
  rcases htype with h | h | h
  · have hload := loadDate_apply ht (ordered_dateFields t) m base (fun _ hw => hw) cleared
    simp only [readDateTime, loadStruct, h, hdata, structFields, hload, structTm]
  · have hload := loadClock_apply ht (ordered_timeFields t) m base 0
      (fun w hw => by rwa [Int.zero_add]) { cleared with year := 70, mday := 1 }
    rw [hzero] at hload
    simp only [readDateTime, loadStruct, h, hdata, structFields, hload, structTm]
    rfl
  · have hdate := loadDate_apply ht (ordered_timestampFields t fraction) m base
      (fun _ hw => List.mem_append_left _ hw) cleared
    have hclock := loadClock_apply ht (ordered_timestampFields t fraction) m base 6
      (by simp [timestampFields, timeFields])
      { cleared with year := smallYear t.year, mon := t.mon, mday := t.mday }
    simp only [readDateTime, loadStruct, h, hdata, structFields, hdate, hclock, structTm]

theorem readTime_struct (ht : t.Valid) (hdata : b.getData = some base)
    (htype : b.type = .ttime ∨ b.type = .ttimestamp) (fraction : Int) (m : Memory)
    (indicator : Int) :
    b.readTime P (apply m base (structFields b.type t fraction)) indicator = .ok (epochTm t) := by
  have hzero : base + 0 = base := Int.add_zero base
  rcases htype with h | h
  · have hload := loadClock_apply ht (ordered_timeFields t) m base 0
      (fun w hw => by rwa [Int.zero_add]) { cleared with year := 70, mday := 1 }
    rw [hzero] at hload
    simp only [readTime, loadStruct, h, hdata, structFields, hload]
    rfl
  · have hclock := loadClock_apply ht (ordered_timestampFields t fraction) m base 6
      (by simp [timestampFields, timeFields]) { cleared with year := 70, mday := 1 }
    simp only [readTime, loadStruct, h, hdata, structFields, hclock]
    rfl

/-! ## What comes back -/

theorem timegm_epochTm (t : Tm) : timegm (epochTm t) = t.hour * 3600 + t.min * 60 + t.sec := by
  simp only [timegm, epochTm, Calendar.yearStart, Calendar.epoch]
  simp

theorem clock_gmtime (seconds : Int) :
    (Calendar.gmtime seconds).hour * 3600 + (Calendar.gmtime seconds).min * 60 +
      (Calendar.gmtime seconds).sec = seconds % 86400 := by
  simp only [Calendar.gmtime]
  omega

theorem timegm_midnight (t : Tm) :
    timegm { t with hour := 0, min := 0, sec := 0 } =
      timegm t - (t.hour * 3600 + t.min * 60 + t.sec) := by
  unfold timegm
  simp only
  omega

/-- The seconds that a struct gives back. -/
def heldSeconds (type : OdbcNativeType) (seconds : Int) : Int :=
  match type with
  | .tdate => DateTimeValue.midnight seconds
  | .ttime => seconds % 86400
  | _ => seconds

theorem smallYear_eq_iff {year : Int} :
    smallYear year = year ↔ -32768 ≤ year + 1900 ∧ year + 1900 ≤ 32767 := by
  unfold smallYear
  rw [Int.bmod_def]
  split <;> omega

/-- The years differ by more than 65535 or not at all. -/
theorem smallYear_far {year : Int} (h : smallYear year ≠ year) :
    smallYear year + 1 < year ∨ year + 1 < smallYear year := by
  unfold smallYear at h ⊢
  rw [Int.bmod_def] at h ⊢
  split at h <;> rename_i hlt <;> simp only [hlt, if_true, if_false] <;> omega

theorem timegm_structTm_iff (seconds : Int) (type : OdbcNativeType) :
    timegm (structTm type (Calendar.gmtime seconds)) = heldSeconds type seconds ↔
      (type ≠ .ttime → IsSmallYear seconds) := by
  have hvalid := Calendar.gmtime_valid seconds
  have hclock := clock_gmtime seconds
  have hback := Calendar.timegm_gmtime seconds
  have hsmall : IsSmallYear seconds ↔ smallYear (Calendar.gmtime seconds).year =
      (Calendar.gmtime seconds).year := smallYear_eq_iff.symm
  set t := Calendar.gmtime seconds with ht
  have hin := hvalid.inYear
  -- The time of day is that of the value, or midnight.
  have hfar {u v : Tm} (hu : u.InYear) (hv : v.InYear) (hyears : u.year = t.year)
      (hyears' : v.year = smallYear t.year) (hne : smallYear t.year ≠ t.year) :
      timegm v ≠ timegm u := by
    rcases smallYear_far hne with h | h
    · exact (Calendar.timegm_lt hu hv (by omega)).ne
    · exact (Calendar.timegm_lt hv hu (by omega)).ne'
  by_cases htime : type = .ttime
  · subst htime
    refine iff_of_true ?_ (fun h => absurd rfl h)
    exact (timegm_epochTm t).trans hclock
  rw [hsmall]
  simp only [ne_eq, htime, not_false_eq_true, forall_const]
  by_cases hdate : type = .tdate
  · subst hdate
    have hmid := timegm_midnight t
    rw [hback, hclock] at hmid
    have hheld : heldSeconds .tdate seconds = timegm { t with hour := 0, min := 0, sec := 0 } := by
      rw [hmid, heldSeconds, DateTimeValue.midnight]
      omega
    rw [hheld]
    constructor
    · intro h
      by_contra hne
      have hmid' := hin.midnight
      exact hfar (u := { t with hour := 0, min := 0, sec := 0 }) (v := structTm .tdate t)
        hmid' ⟨hin.mon, hin.mday, hmid'.clock⟩ rfl rfl hne h
    · intro h
      simp only [structTm, h]
      rfl
  · have hfields : structTm type t = { t with year := smallYear t.year } := by
      unfold structTm
      split <;> first | rfl | contradiction
    have hheld : heldSeconds type seconds = timegm t := by
      rw [hback]
      unfold heldSeconds
      split <;> first | rfl | contradiction
    rw [hfields, hheld]
    constructor
    · intro h
      by_contra hne
      exact hfar (v := { t with year := smallYear t.year }) hin ⟨hin.mon, hin.mday, hin.clock⟩ rfl
        rfl hne h
    · intro h
      rw [h]

/-- What is got, from the seconds of the `tm` and the fraction. -/
def DateTimeValue.ofSeconds (seconds fraction : Int) : DateTimeValue → DateTimeValue
  | .date _ => .date (seconds * 1000)
  | .time _ => .time ⟨seconds, 0⟩
  | .timestamp _ => .timestamp ⟨seconds, fraction⟩

theorem isInt32_clock (seconds : Int) : IsInt32 (seconds % 86400) := by
  constructor <;> omega

/-- The seconds that the `Get` function of a value takes from a struct. -/
def gotSeconds (value : DateTimeValue) (type : OdbcNativeType) : Int :=
  if value.isTime then value.seconds % 86400
  else timegm (structTm type (Calendar.gmtime value.seconds))

theorem get_struct (hvalue : value.Ranged) (htype : b.type ∈ value.structs)
    (hdata : b.getData = some base) (m : Memory) (indicator : Int) :
    value.get P b (apply m base
        (structFields b.type (Calendar.gmtime value.seconds) value.fraction)) indicator =
      .ok (value.ofSeconds (gotSeconds value b.type)
        (if b.type = .ttimestamp then value.fraction else 0)) := by
  have hvalid := Calendar.gmtime_valid value.seconds
  cases value with
  | date ms =>
    simp only [DateTimeValue.structs, List.mem_cons, List.not_mem_nil, or_false] at htype
    have hread := readDateTime_struct (P := P) hvalid hdata (by tauto)
      (DateTimeValue.date ms).fraction m indicator
    simp only [DateTimeValue.get, getDate, hread, Except.map, gotSeconds, DateTimeValue.isTime,
      DateTimeValue.ofSeconds, Bool.false_eq_true, if_false]
  | time value =>
    simp only [DateTimeValue.structs, List.mem_cons, List.not_mem_nil, or_false] at htype
    have hread := readTime_struct (P := P) hvalid hdata htype (DateTimeValue.time value).fraction m
      indicator
    have hclock := toInt32_of_isInt32 (isInt32_clock (DateTimeValue.time value).seconds)
    simp only [DateTimeValue.get, getTime, hread, Except.map, timegm_epochTm, clock_gmtime,
      gotSeconds, DateTimeValue.isTime, DateTimeValue.ofSeconds, if_true, hclock]
  | timestamp value =>
    simp only [DateTimeValue.structs, List.mem_cons, List.not_mem_nil, or_false] at htype
    have hread := readDateTime_struct (P := P) hvalid hdata (by tauto)
      (DateTimeValue.timestamp value).fraction m indicator
    have hfraction := read_fraction (Calendar.gmtime value.seconds) hvalue.fraction m base
    simp only [DateTimeValue.get, getTimestamp, hread, Except.map, gotSeconds, DateTimeValue.isTime,
      DateTimeValue.ofSeconds, Bool.false_eq_true, if_false, hdata]
    rcases htype with h | h | h
    · simp only [h, reduceCtorEq, if_false]
    · simp only [h, reduceCtorEq, if_false]
    · simp only [h, if_true, structFields]
      exact congrArg (fun nanos => Except.ok (DateTimeValue.timestamp ⟨_, nanos⟩)) hfraction

/-- The specification of a struct, with its seconds. -/
theorem held_eq (htype : b.type ∈ value.structs) :
    value.held b.type = value.ofSeconds
      (if value.isTime then value.seconds % 86400 else heldSeconds b.type value.seconds)
      (if b.type = .ttimestamp then value.fraction else 0) := by
  cases value with
  | date ms =>
    simp only [DateTimeValue.structs, List.mem_cons, List.not_mem_nil, or_false] at htype
    rcases htype with h | h <;>
      simp [DateTimeValue.held, DateTimeValue.ofSeconds, DateTimeValue.isTime, heldSeconds, h,
        DateTimeValue.seconds]
  | time value => rfl
  | timestamp value =>
    simp only [DateTimeValue.structs, List.mem_cons, List.not_mem_nil, or_false] at htype
    rcases htype with h | h | h <;>
      simp [DateTimeValue.held, DateTimeValue.ofSeconds, DateTimeValue.isTime, heldSeconds, h,
        DateTimeValue.seconds, DateTimeValue.fraction]

theorem ofSeconds_inj {seconds seconds' fraction : Int} :
    value.ofSeconds seconds fraction = value.ofSeconds seconds' fraction ↔ seconds = seconds' := by
  cases value with
  | date ms =>
    simp only [DateTimeValue.ofSeconds, DateTimeValue.date.injEq]
    omega
  | time value => simp [DateTimeValue.ofSeconds]
  | timestamp value => simp [DateTimeValue.ofSeconds]

/-- A date, time or timestamp in a struct comes back as the struct holds it, inside the struct,
exactly for the years of 16 bits, where the year is used. -/
theorem dateTime_structs_iff (P : Platform) (value : DateTimeValue) (hvalue : value.Ranged)
    (b : ApplicationDataBuffer) (htype : b.type ∈ value.structs) (target : Addr) :
    ComesBack P { b with buffer := some target } value (value.held b.type) ↔
      (value.UsesYear b.type → IsSmallYear value.seconds) := by
  have hgot : gotSeconds value b.type =
      (if value.isTime then value.seconds % 86400 else heldSeconds b.type value.seconds) ↔
        (value.UsesYear b.type → IsSmallYear value.seconds) := by
    unfold gotSeconds DateTimeValue.UsesYear
    by_cases htime : value.isTime = true
    · simp [htime]
    · rw [Bool.not_eq_true] at htime
      simp only [htime, Bool.false_eq_true, if_false, and_true]
      exact timegm_structTm_iff value.seconds b.type
  obtain ⟨base, hdata⟩ : ∃ base, ({ b with buffer := some target } :
      ApplicationDataBuffer).getData = some base := ⟨_, rfl⟩
  obtain ⟨resLen, result, hput⟩ := put_struct (P := P)
    (b := { b with buffer := some target }) htype hdata
  rw [gmtime_of_ranged hvalue] at hput
  have hget (m : Memory) (indicator : Int) := get_struct (P := P)
    (b := { b with buffer := some target }) hvalue htype hdata m indicator
  have hheld := held_eq (b := { b with buffer := some target }) htype
  rw [← hgot]
  constructor
  · rintro ⟨base', c, hdata', hput', -, hback⟩
    obtain rfl := Option.some.inj (hdata.symm.trans hdata')
    obtain rfl := Except.ok.inj (hput.symm.trans hput')
    have h := Except.ok.inj ((hget (fun _ => 0) 0).symm.trans (hback (fun _ => 0) 0))
    rw [show value.held b.type = _ from hheld] at h
    exact ofSeconds_inj.mp h
  · intro h
    refine ⟨base, _, hdata, hput, ?_, fun m indicator => ?_⟩
    · exact structFields_within (b := { b with buffer := some target }) htype _ _
    · rw [hget, show value.held b.type = _ from hheld]
      exact congrArg Except.ok (ofSeconds_inj.mpr h)

/-- The first nanosecond of 2024 in a `SQL_TIMESTAMP_STRUCT`. -/
theorem dateTime_structs_newYear :
    ComesBack .linux
      { type := .ttimestamp, buffer := some 0, buflen := 0, reslen := none }
      (.timestamp ⟨1704067200, 1⟩) (.timestamp ⟨1704067200, 1⟩) :=
  (dateTime_structs_iff .linux (.timestamp ⟨1704067200, 1⟩) ⟨by decide, by decide +kernel⟩
    { type := .ttimestamp, buffer := none, buflen := 0, reslen := none } (by decide) 0).mpr
    fun _ => by decide +kernel

end TrinoOdbc
