import Mathlib.Algebra.GroupWithZero.Nat
import Mathlib.Order.Lattice
import Mathlib.Order.Lex
import Mathlib.Data.List.Lex
import Mathlib.Order.Monotone.Basic

/-!
# Times and their ISO text

* `DateTime` — a date and a time of day that exist, ordered as time passes;
* `microseconds`, `microseconds_strictMono` — the time that has passed, greater for later times;
* `Stamp` — a time with or without an offset from UTC;
* `isoformat`, `fromisoformat` — the text of a stamp, and the reader of such texts;
* `fromisoformat_isoformat` — every stamp is read back.
-/

namespace IsoTime

def isLeap (year : ℕ) : Bool :=
  year % 4 == 0 && (year % 100 != 0 || year % 400 == 0)

def daysInMonth (year month : ℕ) : ℕ :=
  if month = 2 then if isLeap year then 29 else 28
  else if month = 4 ∨ month = 6 ∨ month = 9 ∨ month = 11 then 30
  else 31

/-- The fields name a moment of the years 1 to 9999. -/
structure Exists (year month day hour minute second microsecond : ℕ) : Prop where
  year_pos : 1 ≤ year
  year_le : year ≤ 9999
  month_pos : 1 ≤ month
  month_le : month ≤ 12
  day_pos : 1 ≤ day
  day_le : day ≤ daysInMonth year month
  hour_lt : hour < 24
  minute_lt : minute < 60
  second_lt : second < 60
  microsecond_lt : microsecond < 1000000

structure DateTime where
  year : ℕ
  month : ℕ
  day : ℕ
  hour : ℕ
  minute : ℕ
  second : ℕ
  microsecond : ℕ
  valid : Exists year month day hour minute second microsecond

instance (year month day hour minute second microsecond : ℕ) :
    Decidable (Exists year month day hour minute second microsecond) :=
  decidable_of_iff
    (1 ≤ year ∧ year ≤ 9999 ∧ 1 ≤ month ∧ month ≤ 12 ∧ 1 ≤ day ∧ day ≤ daysInMonth year month ∧
      hour < 24 ∧ minute < 60 ∧ second < 60 ∧ microsecond < 1000000)
    ⟨fun ⟨a, b, c, d, e, f, g, h, i, j⟩ => ⟨a, b, c, d, e, f, g, h, i, j⟩,
      fun ⟨a, b, c, d, e, f, g, h, i, j⟩ => ⟨a, b, c, d, e, f, g, h, i, j⟩⟩

namespace DateTime

/-- The fields from the greatest unit down. -/
def fields (t : DateTime) : List ℕ :=
  [t.year, t.month, t.day, t.hour, t.minute, t.second, t.microsecond]

theorem fields_injective : Function.Injective fields := by
  rintro ⟨⟩ ⟨⟩ h
  simp only [fields, List.cons.injEq, and_true] at h
  obtain ⟨rfl, rfl, rfl, rfl, rfl, rfl, rfl⟩ := h
  rfl

instance : LinearOrder DateTime := LinearOrder.lift' fields fields_injective

/-- Days since the first of January of year 1. -/
def ordinal (t : DateTime) : ℕ :=
  let before := t.year - 1
  before * 365 + before / 4 - before / 100 + before / 400 +
    ((List.range t.month).map fun m => if m = 0 then 0 else daysInMonth t.year m).sum + (t.day - 1)

/-- Microseconds since the first of January of year 1. -/
def microseconds (t : DateTime) : ℕ :=
  (((t.ordinal * 24 + t.hour) * 60 + t.minute) * 60 + t.second) * 1000000 + t.microsecond

end DateTime

/-- An offset from UTC in microseconds, less than a day. -/
structure Offset where
  microseconds : ℤ
  bound : microseconds.natAbs < 86400000000
  deriving DecidableEq

/-- A time, with its offset where it has one. -/
structure Stamp where
  time : DateTime
  offset : Option Offset

/-- The moment in UTC; a time without an offset is taken to be UTC. -/
def Stamp.instant (s : Stamp) : ℤ :=
  s.time.microseconds - s.offset.elim 0 Offset.microseconds

/-! ### The order of times -/

/-- Days before the first of January of the year. -/
def daysBeforeYear (year : ℕ) : ℕ :=
  let before := year - 1
  before * 365 + before / 4 - before / 100 + before / 400

/-- Days of the year before the first of the month. -/
def daysBeforeMonth (year month : ℕ) : ℕ :=
  ((List.range month).map fun m => if m = 0 then 0 else daysInMonth year m).sum

theorem DateTime.ordinal_eq (t : DateTime) :
    t.ordinal = daysBeforeYear t.year + daysBeforeMonth t.year t.month + (t.day - 1) := rfl

theorem daysBeforeMonth_succ (year : ℕ) {month : ℕ} (hmonth : 1 ≤ month) :
    daysBeforeMonth year (month + 1) = daysBeforeMonth year month + daysInMonth year month := by
  rw [daysBeforeMonth, List.range_succ, List.map_append, List.sum_append, List.map_cons,
    List.map_nil, List.sum_singleton, if_neg (by omega), ← daysBeforeMonth]

theorem daysBeforeMonth_mono (year : ℕ) {month later : ℕ} (hmonth : 1 ≤ month)
    (hlater : month ≤ later) : daysBeforeMonth year month ≤ daysBeforeMonth year later := by
  induction hlater with
  | refl => exact le_refl _
  | @step later hle ih =>
      have hlater : 1 ≤ later := hmonth.trans hle
      rw [Nat.succ_eq_add_one, daysBeforeMonth_succ year hlater]
      omega

/-- Twelve months fill the year. -/
theorem daysBeforeMonth_year (year : ℕ) :
    daysBeforeMonth year 13 = if isLeap year then 366 else 365 := by
  cases hleap : isLeap year <;> simp [daysBeforeMonth, List.range_succ, daysInMonth, hleap]

theorem isLeap_iff (year : ℕ) :
    isLeap year = true ↔ 4 ∣ year ∧ (¬ 100 ∣ year ∨ 400 ∣ year) := by
  simp [isLeap, Nat.dvd_iff_mod_eq_zero]

/-- The next year begins after the days of this one. -/
theorem daysBeforeYear_succ {year : ℕ} (hyear : 1 ≤ year) :
    daysBeforeYear (year + 1) = daysBeforeYear year + daysBeforeMonth year 13 := by
  obtain ⟨before, rfl⟩ := Nat.exists_eq_add_of_le' hyear
  have hcentury : before / 100 ≤ before / 4 := Nat.div_le_div_left (by omega) (by omega)
  have hfour : 100 ∣ before + 1 → 4 ∣ before + 1 := fun h => Nat.dvd_trans (by decide) h
  have hhundred : 400 ∣ before + 1 → 100 ∣ before + 1 := fun h => Nat.dvd_trans (by decide) h
  rw [daysBeforeMonth_year]
  show (before + 1) * 365 + (before + 1) / 4 - (before + 1) / 100 + (before + 1) / 400 =
    before * 365 + before / 4 - before / 100 + before / 400 + _
  simp only [Nat.succ_div, isLeap_iff]
  generalize before / 4 = fours at hcentury ⊢
  generalize before / 100 = hundreds at hcentury ⊢
  by_cases h4 : 4 ∣ before + 1
  · by_cases h100 : 100 ∣ before + 1
    · by_cases h400 : 400 ∣ before + 1
      · simp only [h4, h100, h400, if_true, not_true, or_true, and_self]
        omega
      · simp only [h4, h100, h400, if_true, if_false, not_true, or_self, and_false]
        omega
    · have h400 : ¬ 400 ∣ before + 1 := fun h => h100 (hhundred h)
      simp only [h4, h100, h400, if_true, if_false, not_false_eq_true, true_or, and_self]
      omega
  · have h100 : ¬ 100 ∣ before + 1 := fun h => h4 (hfour h)
    have h400 : ¬ 400 ∣ before + 1 := fun h => h100 (hhundred h)
    simp only [h4, h100, h400, if_false, false_and]
    omega

theorem daysBeforeYear_mono {year later : ℕ} (hyear : 1 ≤ year) (hlater : year ≤ later) :
    daysBeforeYear year ≤ daysBeforeYear later := by
  induction hlater with
  | refl => exact le_refl _
  | @step later hle ih =>
      have hlater : 1 ≤ later := hyear.trans hle
      rw [Nat.succ_eq_add_one, daysBeforeYear_succ hlater]
      omega

namespace DateTime

/-- A day lies before the first of any later month of its year. -/
theorem daysBeforeMonth_lt (t : DateTime) {month : ℕ} (h : t.month < month) :
    daysBeforeMonth t.year t.month + (t.day - 1) < daysBeforeMonth t.year month := by
  have hnext := daysBeforeMonth_succ t.year t.valid.month_pos
  have hle := @daysBeforeMonth_mono t.year (t.month + 1) month (by omega) h
  have hday := t.valid.day_le
  have hpos := t.valid.day_pos
  omega

/-- A day lies before the first of any later year. -/
theorem ordinal_lt_year (t : DateTime) {year : ℕ} (h : t.year < year) :
    t.ordinal < daysBeforeYear year := by
  have hmonth := @daysBeforeMonth_lt t 13 (Nat.lt_succ_of_le t.valid.month_le)
  have hnext := daysBeforeYear_succ t.valid.year_pos
  have hle := @daysBeforeYear_mono (t.year + 1) year (by omega) h
  rw [ordinal_eq]
  omega

/-- A later date has a greater ordinal. -/
theorem ordinal_lt {a b : DateTime}
    (h : a.year < b.year ∨ a.year = b.year ∧ (a.month < b.month ∨
      a.month = b.month ∧ a.day < b.day)) : a.ordinal < b.ordinal := by
  rcases h with hyear | ⟨hyear, hmonth | ⟨hmonth, hday⟩⟩
  · have hlt := ordinal_lt_year a hyear
    rw [ordinal_eq b]
    omega
  · have hlt := daysBeforeMonth_lt a hmonth
    rw [ordinal_eq a, ordinal_eq b, ← hyear]
    omega
  · have hpos := a.valid.day_pos
    rw [ordinal_eq a, ordinal_eq b, ← hyear, ← hmonth]
    omega

/-- Later times have greater microseconds. -/
theorem microseconds_strictMono : StrictMono microseconds := by
  intro a b h
  have hfields : a.fields < b.fields := h
  simp only [fields, List.cons_lt_cons_iff, List.lt_irrefl, and_false, or_false] at hfields
  have hhour := a.valid.hour_lt
  have hminute := a.valid.minute_lt
  have hsecond := a.valid.second_lt
  have hmicrosecond := a.valid.microsecond_lt
  rw [microseconds, microseconds]
  by_cases hdate : a.year < b.year ∨ a.year = b.year ∧ (a.month < b.month ∨
      a.month = b.month ∧ a.day < b.day)
  · have hordinal := ordinal_lt hdate
    omega
  · have hordinal : a.ordinal = b.ordinal := by
      rw [ordinal_eq a, ordinal_eq b]
      have hsame : a.year = b.year ∧ a.month = b.month ∧ a.day = b.day := by omega
      rw [hsame.1, hsame.2.1, hsame.2.2]
    omega

theorem microseconds_le_iff {a b : DateTime} : a.microseconds ≤ b.microseconds ↔ a ≤ b :=
  microseconds_strictMono.le_iff_le

end DateTime

/-! ### Digits -/

def digit (n : ℕ) : Char := Char.ofNat (48 + n)

def digitValue (c : Char) : Option ℕ := if c.isDigit then some (c.toNat - 48) else none

theorem digitValue_digit : ∀ n < 10, digitValue (digit n) = some n := by decide

def two (n : ℕ) : List Char := [digit (n / 10), digit (n % 10)]

def readTwo (a b : Char) : Option ℕ := do
  let a ← digitValue a
  let b ← digitValue b
  return a * 10 + b

theorem readTwo_digit {a b : ℕ} (ha : a < 10) (hb : b < 10) :
    readTwo (digit a) (digit b) = some (a * 10 + b) := by
  rw [readTwo, digitValue_digit _ ha, digitValue_digit _ hb]
  rfl

theorem readTwo_two {n : ℕ} (hn : n < 100) :
    readTwo (digit (n / 10)) (digit (n % 10)) = some n := by
  rw [readTwo_digit (by omega) (by omega)]
  congr 1
  omega

/-! ### The text of a stamp -/

/-- A count of microseconds in six digits. -/
def sixDigits (n : ℕ) : List Char := two (n / 10000) ++ two (n / 100 % 100) ++ two (n % 100)

def fractionText (microsecond : ℕ) : List Char :=
  if microsecond = 0 then [] else '.' :: sixDigits microsecond

/-- Seconds that an offset does not have are not written. -/
def offsetText : Option Offset → List Char
  | none => []
  | some o =>
    let total := o.microseconds.natAbs
    let behind := total % 60000000
    (if o.microseconds < 0 then '-' else '+') ::
      (two (total / 3600000000) ++ ':' :: two (total / 60000000 % 60) ++
        if behind = 0 then [] else ':' :: (two (behind / 1000000) ++ fractionText (behind % 1000000)))

def isoformat (s : Stamp) : List Char :=
  two (s.time.year / 100) ++ two (s.time.year % 100) ++ '-' :: two s.time.month ++
    '-' :: two s.time.day ++ 'T' :: two s.time.hour ++ ':' :: two s.time.minute ++
    ':' :: two s.time.second ++ (fractionText s.time.microsecond ++ offsetText s.offset)

def readThree : List Char → Option (ℕ × List Char)
  | a :: b :: c :: rest => do
    let high ← digitValue a
    let low ← readTwo b c
    return (high * 100 + low, rest)
  | _ => none

/-- Three digits behind a point, or six. -/
def readFraction : List Char → Option (ℕ × List Char)
  | '.' :: text => do
    let (high, rest) ← readThree text
    match readThree rest with
    | some (low, rest) => return (high * 1000 + low, rest)
    | none => return (high * 1000, rest)
  | text => some (0, text)

/-- Hours, minutes, seconds and microseconds. -/
structure Clock where
  hour : ℕ
  minute : ℕ := 0
  second : ℕ := 0
  microsecond : ℕ := 0

/-- A clock's text, which may end behind the hours or behind the minutes. -/
def readClock : List Char → Option (Clock × List Char)
  | h₁ :: h₂ :: ':' :: n₁ :: n₂ :: ':' :: s₁ :: s₂ :: rest => do
    let hour ← readTwo h₁ h₂
    let minute ← readTwo n₁ n₂
    let second ← readTwo s₁ s₂
    let (microsecond, rest) ← readFraction rest
    return (⟨hour, minute, second, microsecond⟩, rest)
  | h₁ :: h₂ :: ':' :: n₁ :: n₂ :: rest => do
    let hour ← readTwo h₁ h₂
    let minute ← readTwo n₁ n₂
    return ({ hour := hour, minute := minute }, rest)
  | h₁ :: h₂ :: rest => do
    let hour ← readTwo h₁ h₂
    return ({ hour := hour }, rest)
  | _ => none

def Clock.total (c : Clock) : ℕ :=
  ((c.hour * 60 + c.minute) * 60 + c.second) * 1000000 + c.microsecond

/-- A sign and a clock, with nothing behind it. -/
def readOffset : List Char → Option (Option Offset)
  | [] => some none
  | sign :: text => do
    let (clock, rest) ← readClock text
    if h : rest = [] ∧ clock.total < 86400000000 then
      if sign = '+' then return some ⟨clock.total, by simpa using h.2⟩
      else if sign = '-' then return some ⟨-clock.total, by simpa using h.2⟩
      else none
    else none

/-- Where nothing follows the date the time is midnight; else any character may stand between
the two. -/
def readTimeOfDay : List Char → Option (Clock × List Char)
  | [] => some ({ hour := 0 }, [])
  | _ :: text => readClock text

/-- The reader of the texts every Python reads: a date, a time of day and an offset. -/
def fromisoformat : List Char → Option Stamp
  | y₁ :: y₂ :: y₃ :: y₄ :: '-' :: m₁ :: m₂ :: '-' :: d₁ :: d₂ :: text => do
    let century ← readTwo y₁ y₂
    let year ← readTwo y₃ y₄
    let month ← readTwo m₁ m₂
    let day ← readTwo d₁ d₂
    let (clock, rest) ← readTimeOfDay text
    let offset ← readOffset rest
    if h : Exists (century * 100 + year) month day clock.hour clock.minute clock.second
        clock.microsecond then
      return ⟨⟨century * 100 + year, month, day, clock.hour, clock.minute, clock.second,
        clock.microsecond, h⟩, offset⟩
    else none
  | _ => none

/-! ### Reading back what was written -/

theorem readThree_digits {a b c : ℕ} (ha : a < 10) (hb : b < 10) (hc : c < 10)
    (rest : List Char) :
    readThree (digit a :: digit b :: digit c :: rest) = some (a * 100 + (b * 10 + c), rest) := by
  rw [readThree, digitValue_digit _ ha, readTwo_digit hb hc]
  rfl

theorem readFraction_sixDigits {n : ℕ} (hn : n < 1000000) (rest : List Char) :
    readFraction ('.' :: (sixDigits n ++ rest)) = some (n, rest) := by
  have hfirst := readThree_digits (by omega : n / 10000 / 10 < 10)
    (by omega : n / 10000 % 10 < 10) (by omega : n / 100 % 100 / 10 < 10)
    (digit (n / 100 % 100 % 10) :: digit (n % 100 / 10) :: digit (n % 100 % 10) :: rest)
  have hsecond := readThree_digits (by omega : n / 100 % 100 % 10 < 10)
    (by omega : n % 100 / 10 < 10) (by omega : n % 100 % 10 < 10) rest
  have hsum : (n / 10000 / 10 * 100 + (n / 10000 % 10 * 10 + n / 100 % 100 / 10)) * 1000 +
      (n / 100 % 100 % 10 * 100 + (n % 100 / 10 * 10 + n % 100 % 10)) = n := by omega
  simp only [sixDigits, two, List.cons_append, List.nil_append, readFraction, hfirst, hsecond,
    hsum, Option.bind_eq_bind, Option.bind_some, Option.pure_def]

/-- A fraction is read up to where no point and no further digits follow it. -/
theorem readFraction_text {microsecond : ℕ} (h : microsecond < 1000000) {rest : List Char}
    (hrest : rest.head? ≠ some '.') :
    readFraction (fractionText microsecond ++ rest) = some (microsecond, rest) := by
  unfold fractionText
  split_ifs with hzero
  · subst hzero
    show readFraction rest = some (0, rest)
    unfold readFraction
    split
    · exact absurd List.head?_cons hrest
    · rfl
  · exact readFraction_sixDigits h rest

theorem readClock_seconds {hour minute second : ℕ} (hhour : hour < 100) (hminute : minute < 100)
    (hsecond : second < 100) {text rest : List Char} {microsecond : ℕ}
    (hfraction : readFraction text = some (microsecond, rest)) :
    readClock (two hour ++ ':' :: two minute ++ ':' :: two second ++ text) =
      some (⟨hour, minute, second, microsecond⟩, rest) := by
  simp only [two, List.cons_append, List.nil_append, readClock, readTwo_two hhour,
    readTwo_two hminute, readTwo_two hsecond, hfraction, Option.bind_eq_bind, Option.bind_some,
    Option.pure_def]

theorem readClock_minutes {hour minute : ℕ} (hhour : hour < 100) (hminute : minute < 100) :
    readClock (two hour ++ ':' :: two minute) = some ({ hour := hour, minute := minute }, []) := by
  simp only [two, List.cons_append, List.nil_append, readClock, readTwo_two hhour,
    readTwo_two hminute, Option.bind_eq_bind, Option.bind_some, Option.pure_def]

/-- A sign and a clock's text name an offset. -/
theorem readOffset_clock (ahead : Bool) {clock : Clock} {text : List Char}
    (hclock : readClock text = some (clock, [])) (htotal : clock.total < 86400000000) :
    ∃ o : Offset, readOffset ((if ahead then '+' else '-') :: text) = some (some o) ∧
      o.microseconds = if ahead then (clock.total : ℤ) else -clock.total := by
  -- `split` keeps the kernel from deciding the comparison with a literal of that size
  cases ahead
  · refine ⟨⟨-clock.total, by simpa using htotal⟩, ?_, (if_neg Bool.false_ne_true).symm⟩
    rw [if_neg Bool.false_ne_true, readOffset, hclock, Option.bind_eq_bind, Option.bind_some]
    split
    next clock' rest heq =>
      obtain ⟨rfl, rfl⟩ := Prod.mk.inj heq
      rw [dif_pos ⟨rfl, htotal⟩, if_neg (by decide), if_pos rfl, Option.pure_def]
  · refine ⟨⟨clock.total, by simpa using htotal⟩, ?_, (if_pos rfl).symm⟩
    rw [if_pos rfl, readOffset, hclock, Option.bind_eq_bind, Option.bind_some]
    split
    next clock' rest heq =>
      obtain ⟨rfl, rfl⟩ := Prod.mk.inj heq
      rw [dif_pos ⟨rfl, htotal⟩, if_pos rfl, Option.pure_def]

theorem readOffset_signed {o : Offset} {clock : Clock} {text : List Char}
    (hclock : readClock text = some (clock, []))
    (htotal : clock.total = o.microseconds.natAbs) :
    readOffset ((if o.microseconds < 0 then '-' else '+') :: text) = some (some o) := by
  have hbound := o.bound
  by_cases hsign : o.microseconds < 0
  · obtain ⟨o', hread, hvalue⟩ := readOffset_clock false hclock (by omega)
    have heq : o' = o := by
      cases o; cases o'
      simp only [Bool.false_eq_true, if_false, Offset.mk.injEq] at hvalue htotal hsign ⊢
      omega
    rw [if_pos hsign, ← heq]
    exact hread
  · obtain ⟨o', hread, hvalue⟩ := readOffset_clock true hclock (by omega)
    have heq : o' = o := by
      cases o; cases o'
      simp only [if_true, Offset.mk.injEq] at hvalue htotal hsign ⊢
      omega
    rw [if_neg hsign, ← heq]
    exact hread

theorem readOffset_text (o : Option Offset) : readOffset (offsetText o) = some o := by
  cases o with
  | none => rfl
  | some o =>
      have hbound := o.bound
      have hhour : o.microseconds.natAbs / 3600000000 < 100 := by omega
      have hminute : o.microseconds.natAbs / 60000000 % 60 < 100 := by omega
      simp only [offsetText]
      by_cases hbehind : o.microseconds.natAbs % 60000000 = 0
      · rw [if_pos hbehind, List.append_nil]
        refine readOffset_signed (readClock_minutes hhour hminute) ?_
        simp only [Clock.total]
        omega
      · have hfraction := @readFraction_text (o.microseconds.natAbs % 60000000 % 1000000)
          (by omega) [] (by simp)
        rw [List.append_nil] at hfraction
        have hclock := readClock_seconds hhour hminute
          (by omega : o.microseconds.natAbs % 60000000 / 1000000 < 100) hfraction
        simp only [List.append_assoc, List.cons_append] at hclock
        rw [if_neg hbehind, List.append_assoc, List.cons_append]
        refine readOffset_signed hclock ?_
        simp only [Clock.total]
        omega

theorem offsetText_head (o : Option Offset) : (offsetText o).head? ≠ some '.' := by
  cases o with
  | none => simp [offsetText]
  | some o => by_cases hsign : o.microseconds < 0 <;> simp [offsetText, hsign]

/-- A time without what stands behind its seconds. -/
def secondsText (t : DateTime) : List Char :=
  two (t.year / 100) ++ two (t.year % 100) ++ '-' :: two t.month ++ '-' :: two t.day ++
    'T' :: two t.hour ++ ':' :: two t.minute ++ ':' :: two t.second

theorem DateTime.month_day_lt (t : DateTime) : t.month < 100 ∧ t.day < 100 := by
  have hmonth := t.valid.month_le
  have hday := t.valid.day_le
  unfold daysInMonth at hday
  split_ifs at hday <;> omega

/-- A time is read where the rest is read as its microseconds and an offset. -/
theorem fromisoformat_seconds (t : DateTime) {text rest : List Char} {offset : Option Offset}
    (hfraction : readFraction text = some (t.microsecond, rest))
    (hoffset : readOffset rest = some offset) :
    fromisoformat (secondsText t ++ text) = some ⟨t, offset⟩ := by
  obtain ⟨hmonth, hday⟩ := t.month_day_lt
  obtain ⟨year, month, day, hour, minute, second, microsecond, hvalid⟩ := t
  have hyear := hvalid.year_le
  have hhour := hvalid.hour_lt
  have hminute := hvalid.minute_lt
  have hsecond := hvalid.second_lt
  have hsum : year / 100 * 100 + year % 100 = year := by omega
  have hclock := readClock_seconds (by omega : hour < 100) (by omega : minute < 100)
    (by omega : second < 100) hfraction
  simp only [two, List.cons_append, List.nil_append] at hclock
  simp only [secondsText, two, List.cons_append, List.nil_append, fromisoformat, readTimeOfDay,
    readTwo_two (by omega : year / 100 < 100), readTwo_two (by omega : year % 100 < 100),
    readTwo_two hmonth, readTwo_two hday, hclock, hoffset, Option.bind_eq_bind, Option.bind_some,
    hsum, hvalid, dite_true, Option.pure_def]

theorem fromisoformat_isoformat (s : Stamp) : fromisoformat (isoformat s) = some s :=
  fromisoformat_seconds s.time
    (readFraction_text s.time.valid.microsecond_lt (offsetText_head s.offset))
    (readOffset_text s.offset)

end IsoTime
