import Mathlib.Data.Int.Order.Basic
import Mathlib.Logic.Function.Iterate
import Mathlib.Order.Lattice
import Mathlib.Tactic.Linarith

/-!
# Dates, months and timestamps

The proleptic Gregorian calendar, as far as month windows and short intervals need it.
-/

namespace BaptistApi.Calendar

def isLeap (y : ℤ) : Bool := y % 4 = 0 && (y % 100 ≠ 0 || y % 400 = 0)

def daysInMonth (y : ℤ) (m : ℕ) : ℕ :=
  if m = 2 then (if isLeap y then 29 else 28)
  else if m = 4 ∨ m = 6 ∨ m = 9 ∨ m = 11 then 30 else 31

theorem one_le_daysInMonth (y : ℤ) (m : ℕ) : 1 ≤ daysInMonth y m := by
  unfold daysInMonth; split_ifs <;> omega

theorem daysInMonth_le (y : ℤ) (m : ℕ) : daysInMonth y m ≤ 31 := by
  unfold daysInMonth; split_ifs <;> omega

structure Date where
  year : ℤ
  month : ℕ
  day : ℕ
  monthOk : 1 ≤ month ∧ month ≤ 12
  dayOk : 1 ≤ day ∧ day ≤ daysInMonth year month
  deriving DecidableEq

namespace Date

/-- Dates in order, with 31 places kept for every month. -/
def key (d : Date) : ℤ := d.year * 372 + (d.month - 1) * 31 + (d.day - 1)

theorem day_le (d : Date) : d.day ≤ 31 := d.dayOk.2.trans (daysInMonth_le _ _)

theorem key_injective : Function.Injective key := by
  intro a b h
  have ha := a.day_le
  have hb := b.day_le
  obtain ⟨ya, ma, da, hma, hda⟩ := a
  obtain ⟨yb, mb, db, hmb, hdb⟩ := b
  simp only [key] at h ha hb
  obtain ⟨rfl, rfl, rfl⟩ : ya = yb ∧ ma = mb ∧ da = db := by
    refine ⟨?_, ?_, ?_⟩ <;> omega
  rfl

instance : LinearOrder Date := LinearOrder.lift' key key_injective

theorem le_iff (a b : Date) : a ≤ b ↔ a.key ≤ b.key := Iff.rfl

/-- `date_trunc('month', d)::date`. -/
def truncMonth (d : Date) : Date :=
  { d with day := 1, dayOk := ⟨le_refl _, one_le_daysInMonth _ _⟩ }

/-- `(d + interval '1 month')::date`: a day past the end of the next month becomes its last day. -/
def plusMonth (d : Date) : Date :=
  let y := if d.month = 12 then d.year + 1 else d.year
  let m := if d.month = 12 then 1 else d.month + 1
  { year := y
    month := m
    day := min d.day (daysInMonth y m)
    monthOk := by have := d.monthOk; simp only [m]; split <;> omega
    dayOk := by have := d.dayOk; have := one_le_daysInMonth y m; omega }

/-- Months in order. -/
def monthIndex (d : Date) : ℤ := d.year * 12 + (d.month - 1)

theorem monthIndex_eq_iff {a b : Date} : a.monthIndex = b.monthIndex ↔ a.year = b.year ∧ a.month = b.month := by
  have ha := a.monthOk
  have hb := b.monthOk
  unfold monthIndex
  constructor
  · intro h
    constructor <;> omega
  · rintro ⟨hy, hm⟩
    rw [hy, hm]

theorem truncMonth_eq_iff {d m : Date} (hm : m.day = 1) : d.truncMonth = m ↔ d.monthIndex = m.monthIndex := by
  rw [monthIndex_eq_iff]
  obtain ⟨y, mo, da, hmo, hda⟩ := m
  simp only at hm
  subst hm
  simp only [truncMonth, mk.injEq, and_true]

theorem plusMonth_day {d : Date} (h : d.day = 1) : d.plusMonth.day = 1 := by
  have hone := one_le_daysInMonth d.plusMonth.year d.plusMonth.month
  have hday : d.plusMonth.day = min d.day (daysInMonth d.plusMonth.year d.plusMonth.month) := rfl
  omega

theorem monthIndex_plusMonth (d : Date) : d.plusMonth.monthIndex = d.monthIndex + 1 := by
  have hd := d.monthOk
  simp only [monthIndex, plusMonth]
  split <;> omega

theorem le_iff_monthIndex_le {m d : Date} (hm : m.day = 1) : m ≤ d ↔ m.monthIndex ≤ d.monthIndex := by
  have hd := d.day_le
  have hone := d.dayOk
  have hmonth := m.monthOk
  have hmonth' := d.monthOk
  rw [le_iff]
  unfold key monthIndex
  rw [hm]
  omega

theorem lt_iff_monthIndex_lt {m d : Date} (hm : m.day = 1) : d < m ↔ d.monthIndex < m.monthIndex := by
  rw [← not_le, le_iff_monthIndex_le hm, not_le]

/-- The half-open window `[m, m + 1 month)` of a first of a month holds exactly that month. -/
theorem window_iff {d m : Date} (hm : m.day = 1) :
    m ≤ d ∧ d < m.plusMonth ↔ d.truncMonth = m := by
  rw [le_iff_monthIndex_le hm, lt_iff_monthIndex_lt (plusMonth_day hm), monthIndex_plusMonth,
    truncMonth_eq_iff hm]
  omega

/-! ### Runs of months -/

theorem iterate_plusMonth_day {m : Date} (hm : m.day = 1) (k : ℕ) : (plusMonth^[k] m).day = 1 := by
  induction k with
  | zero => exact hm
  | succ k ih =>
    rw [Function.iterate_succ_apply']
    exact plusMonth_day ih

theorem monthIndex_iterate_plusMonth (m : Date) (k : ℕ) : (plusMonth^[k] m).monthIndex = m.monthIndex + k := by
  induction k with
  | zero => simp
  | succ k ih =>
    rw [Function.iterate_succ_apply', monthIndex_plusMonth, ih]
    push_cast
    omega

theorem monotone_iterate_plusMonth {m : Date} (hm : m.day = 1) : Monotone fun k => plusMonth^[k] m := by
  intro j k h
  dsimp only
  rw [le_iff_monthIndex_le (iterate_plusMonth_day hm j), monthIndex_iterate_plusMonth, monthIndex_iterate_plusMonth]
  omega

def next (d : Date) : Date :=
  if h : d.day < daysInMonth d.year d.month then
    { d with day := d.day + 1, dayOk := ⟨by omega, h⟩ }
  else if h12 : d.month < 12 then
    { year := d.year, month := d.month + 1, day := 1
      monthOk := ⟨by omega, by omega⟩, dayOk := ⟨le_refl _, one_le_daysInMonth _ _⟩ }
  else
    { year := d.year + 1, month := 1, day := 1
      monthOk := ⟨by omega, by omega⟩, dayOk := ⟨le_refl _, one_le_daysInMonth _ _⟩ }

end Date

def microsPerMinute : ℕ := 60000000
def microsPerDay : ℕ := 1440 * microsPerMinute

/-- An instant, in UTC. -/
structure Timestamp where
  date : Date
  micros : ℕ
  microsOk : micros < microsPerDay
  deriving DecidableEq

namespace Timestamp

def key (t : Timestamp) : ℤ := t.date.key * microsPerDay + t.micros

theorem key_injective : Function.Injective key := by
  rintro ⟨a, m, hm⟩ ⟨b, n, hn⟩ h
  simp only [key, microsPerDay, microsPerMinute] at h hm hn
  have hd : a.key = b.key := by omega
  obtain rfl := Date.key_injective hd
  obtain rfl : m = n := by omega
  rfl

instance : LinearOrder Timestamp := LinearOrder.lift' key key_injective

/-- `t + interval 'n minutes'` for less than a day. -/
def plusMinutes (t : Timestamp) (n : ℕ) (hn : n < 1440) : Timestamp :=
  if h : t.micros + n * microsPerMinute < microsPerDay then
    { date := t.date, micros := t.micros + n * microsPerMinute, microsOk := h }
  else
    { date := t.date.next
      micros := t.micros + n * microsPerMinute - microsPerDay
      microsOk := by
        have := t.microsOk
        simp only [microsPerDay, microsPerMinute] at *
        omega }

end Timestamp

end BaptistApi.Calendar
