import Mathlib.Algebra.Order.BigOperators.Group.Finset
import Mathlib.Algebra.Order.Group.Int
import Mathlib.Tactic.Push

/-!
# The proleptic Gregorian calendar

Dates of any year, before and after the calendar was introduced, and the number of a date: how many
days it comes after 1 January 1970. The number is given by a formula; the calendar itself by the day
that follows a date.

## Main definitions

- `CivilDate`, `CivilDate.next` — the dates, and the day after one
- `CivilDate.dayNumber` — the number of a date
- `DayCount` — what it is to count the days from 1 January 1970
- `DayCount.eq_dayNumber` — there is one way to do so
-/

namespace Rav

/-! ### Years and months -/

def LeapYear (y : Int) : Prop := y % 4 = 0 ∧ (y % 100 ≠ 0 ∨ y % 400 = 0)

instance decidableLeapYear (y : Int) : Decidable (LeapYear y) := inferInstanceAs (Decidable (_ ∧ _))

def yearLength (y : Int) : Nat := if LeapYear y then 366 else 365

def monthLength (y : Int) : Nat → Nat
  | 2 => if LeapYear y then 29 else 28
  | 4 | 6 | 9 | 11 => 30
  | _ => 31

/-- How many days the first day of a year comes after 1 January 1970. -/
def daysBeforeYear (y : Int) : Int :=
  365 * (y - 1970) + (y - 1) / 4 - (y - 1) / 100 + (y - 1) / 400 - 477

/-- How many days of a year come before a month. -/
def daysBeforeMonth (y : Int) (m : Nat) : Nat := ∑ k ∈ Finset.range (m - 1), monthLength y (k + 1)

theorem daysBeforeYear_succ (y : Int) : daysBeforeYear (y + 1) = daysBeforeYear y + yearLength y := by
  unfold daysBeforeYear yearLength
  by_cases h : LeapYear y
  all_goals
    simp only [h, if_true, if_false]
    unfold LeapYear at h
    omega

theorem yearLength_pos (y : Int) : 0 < yearLength y := by
  unfold yearLength
  split <;> omega

theorem monthLength_pos (y : Int) (m : Nat) : 0 < monthLength y m := by
  unfold monthLength
  repeat' split
  all_goals omega

theorem monthLength_le (y : Int) (m : Nat) : monthLength y m ≤ 31 := by
  unfold monthLength
  repeat' split
  all_goals omega

theorem daysBeforeMonth_one (y : Int) : daysBeforeMonth y 1 = 0 := rfl

theorem daysBeforeMonth_succ (y : Int) {m : Nat} (hm : 1 ≤ m) :
    daysBeforeMonth y (m + 1) = daysBeforeMonth y m + monthLength y m := by
  unfold daysBeforeMonth
  have hsucc : m + 1 - 1 = (m - 1) + 1 := by omega
  rw [hsucc, Finset.sum_range_succ, Nat.sub_add_cancel hm]

theorem daysBeforeMonth_thirteen (y : Int) : daysBeforeMonth y 13 = yearLength y := by
  unfold yearLength
  by_cases h : LeapYear y <;> simp [daysBeforeMonth, Finset.sum_range_succ, monthLength, h]

theorem daysBeforeMonth_mono (y : Int) {m n : Nat} (h : m ≤ n) :
    daysBeforeMonth y m ≤ daysBeforeMonth y n :=
  Finset.sum_le_sum_of_subset (Finset.range_subset_range.mpr (Nat.sub_le_sub_right h 1))

/-- A month lies within its year. -/
theorem daysBeforeMonth_add_le (y : Int) {m : Nat} (hm : 1 ≤ m) (hm' : m ≤ 12) :
    daysBeforeMonth y m + monthLength y m ≤ yearLength y := by
  rw [← daysBeforeMonth_succ y hm, ← daysBeforeMonth_thirteen]
  exact daysBeforeMonth_mono y (Nat.succ_le_succ hm')

theorem daysBeforeYear_mono {y z : Int} (h : y ≤ z) : daysBeforeYear y ≤ daysBeforeYear z := by
  unfold daysBeforeYear
  omega

/-! ### Dates -/

/-- A date of the calendar. -/
@[ext] structure CivilDate where
  year : Int
  month : Nat
  day : Nat
  month_pos : 1 ≤ month
  month_le : month ≤ 12
  day_pos : 1 ≤ day
  day_le : day ≤ monthLength year month
  deriving DecidableEq, Repr

/-- 1 January 1970. -/
def unixDay : CivilDate := ⟨1970,1,1,by decide,by decide,by decide,by decide⟩

namespace CivilDate

/-- The first day of a month. -/
def first (year : Int) (month : Nat) (hpos : 1 ≤ month) (hle : month ≤ 12) : CivilDate :=
  ⟨year,month,1,hpos,hle,le_rfl,monthLength_pos year month⟩

/-- The day after a date. -/
def next (d : CivilDate) : CivilDate :=
  if h : d.day + 1 ≤ monthLength d.year d.month then
    ⟨d.year,d.month,d.day + 1,d.month_pos,d.month_le,Nat.le_add_left 1 _,h⟩
  else if h : d.month + 1 ≤ 12 then first d.year (d.month + 1) (Nat.le_add_left 1 _) h
  else first (d.year + 1) 1 le_rfl (by decide)

/-- The day before a date. -/
def prev (d : CivilDate) : CivilDate :=
  if h : 1 < d.day then
    ⟨d.year,d.month,d.day - 1,d.month_pos,d.month_le,by omega,le_trans (Nat.sub_le _ _) d.day_le⟩
  else if h : 1 < d.month then
    ⟨d.year,d.month - 1,monthLength d.year (d.month - 1),by omega,
      le_trans (Nat.sub_le _ _) d.month_le,monthLength_pos _ _,le_rfl⟩
  else ⟨d.year - 1,12,31,by decide,by decide,by decide,le_rfl⟩

theorem next_prev (d : CivilDate) : d.prev.next = d := by
  obtain ⟨y,m,k,hm,hm',hk,hk'⟩ := d
  unfold prev
  dsimp only at hm hm' hk hk' ⊢
  split
  · next h =>
    have hsub : k - 1 + 1 = k := Nat.sub_add_cancel hk
    simp only [next, hsub, dif_pos hk']
  · next h =>
    obtain rfl : k = 1 := by omega
    split
    · next h' =>
      have hsub : m - 1 + 1 = m := Nat.sub_add_cancel hm
      simp only [next, hsub, dif_pos hm', Nat.succ_le_iff, lt_irrefl, dif_neg, not_false_iff, first]
    · next h' =>
      obtain rfl : m = 1 := by omega
      simp [next, first, monthLength]

/-! ### The number of a date -/

/-- How many days a date comes after 1 January 1970. -/
def dayNumber (d : CivilDate) : Int :=
  daysBeforeYear d.year + daysBeforeMonth d.year d.month + (d.day - 1)

theorem dayNumber_unixDay : unixDay.dayNumber = 0 := by decide

theorem dayNumber_first (y : Int) {m : Nat} (hm : 1 ≤ m) (hm' : m ≤ 12) :
    (first y m hm hm').dayNumber = daysBeforeYear y + daysBeforeMonth y m := by
  simp [dayNumber, first]

theorem dayNumber_next (d : CivilDate) : d.next.dayNumber = d.dayNumber + 1 := by
  obtain ⟨y,m,k,hm,hm',hk,hk'⟩ := d
  unfold next
  dsimp only at hm hm' hk hk' ⊢
  split
  · simp only [dayNumber]
    omega
  · next h =>
    -- the month is over
    obtain rfl : k = monthLength y m := by omega
    split
    · rw [dayNumber_first, daysBeforeMonth_succ y hm]
      simp only [dayNumber]
      omega
    · next h' =>
      obtain rfl : m = 12 := by omega
      have hyear := daysBeforeMonth_thirteen y
      rw [daysBeforeMonth_succ y (by decide)] at hyear
      rw [dayNumber_first, daysBeforeYear_succ, daysBeforeMonth_one, ← hyear]
      simp only [dayNumber]
      omega

/-- The days of a year. -/
theorem dayNumber_mem_year (d : CivilDate) :
    daysBeforeYear d.year ≤ d.dayNumber ∧ d.dayNumber < daysBeforeYear (d.year + 1) := by
  have hmonth := daysBeforeMonth_add_le d.year d.month_pos d.month_le
  have hday := d.day_le
  have hpos := d.day_pos
  rw [daysBeforeYear_succ]
  unfold dayNumber
  omega

/-- The days of a month. -/
theorem dayNumber_mem_month (d : CivilDate) :
    daysBeforeYear d.year + daysBeforeMonth d.year d.month ≤ d.dayNumber ∧
      d.dayNumber < daysBeforeYear d.year + daysBeforeMonth d.year d.month + monthLength d.year d.month := by
  have hday := d.day_le
  have hpos := d.day_pos
  unfold dayNumber
  omega

theorem year_eq_iff (d : CivilDate) {y : Int} :
    d.year = y ↔ daysBeforeYear y ≤ d.dayNumber ∧ d.dayNumber < daysBeforeYear (y + 1) := by
  have hd := d.dayNumber_mem_year
  refine ⟨fun h => h ▸ hd,fun h => ?_⟩
  rcases lt_trichotomy d.year y with hlt | heq | hlt
  · have hmono := daysBeforeYear_mono (Int.add_one_le_iff.mpr hlt)
    omega
  · exact heq
  · have hmono := daysBeforeYear_mono (Int.add_one_le_iff.mpr hlt)
    omega

theorem month_eq_iff (d : CivilDate) {m : Nat} (hm : 1 ≤ m) :
    d.month = m ↔ daysBeforeYear d.year + daysBeforeMonth d.year m ≤ d.dayNumber ∧
      d.dayNumber < daysBeforeYear d.year + daysBeforeMonth d.year m + monthLength d.year m := by
  have hd := d.dayNumber_mem_month
  refine ⟨fun h => h ▸ hd,fun h => ?_⟩
  rcases lt_trichotomy d.month m with hlt | heq | hlt
  · have hmono := daysBeforeMonth_mono d.year (Nat.succ_le_iff.mpr hlt)
    rw [Nat.succ_eq_add_one, daysBeforeMonth_succ d.year d.month_pos] at hmono
    omega
  · exact heq
  · have hmono := daysBeforeMonth_mono d.year (Nat.succ_le_iff.mpr hlt)
    rw [Nat.succ_eq_add_one, daysBeforeMonth_succ d.year hm] at hmono
    omega

theorem dayNumber_injective : Function.Injective dayNumber := by
  intro d e h
  have hyear : d.year = e.year := d.year_eq_iff.mpr (h ▸ e.dayNumber_mem_year)
  have hmonth : d.month = e.month := by
    refine (d.month_eq_iff e.month_pos).mpr ?_
    rw [h, hyear]
    exact e.dayNumber_mem_month
  have hday : d.day = e.day := by
    unfold dayNumber at h
    rw [hyear, hmonth] at h
    omega
  exact CivilDate.ext hyear hmonth hday

theorem dayNumber_prev (d : CivilDate) : d.prev.dayNumber = d.dayNumber - 1 := by
  have h := dayNumber_next d.prev
  rw [next_prev] at h
  omega

/-- Every number is that of a date. -/
theorem exists_dayNumber (n : Int) : ∃ d : CivilDate, d.dayNumber = n := by
  induction n using Int.induction_on with
  | zero => exact ⟨unixDay,dayNumber_unixDay⟩
  | succ n ih =>
    obtain ⟨d,hd⟩ := ih
    exact ⟨d.next,by rw [dayNumber_next, hd]⟩
  | pred n ih =>
    obtain ⟨d,hd⟩ := ih
    exact ⟨d.prev,by rw [dayNumber_prev, hd]⟩

/-- The numbers of the days of a year, of a month, and of a date. -/
theorem exists_year_iff {y k : Int} : (∃ c : CivilDate, c.year = y ∧ c.dayNumber = k) ↔
    daysBeforeYear y ≤ k ∧ k < daysBeforeYear y + yearLength y := by
  rw [← daysBeforeYear_succ]
  constructor
  · rintro ⟨c,rfl,rfl⟩
    exact c.dayNumber_mem_year
  · intro hk
    obtain ⟨c,rfl⟩ := exists_dayNumber k
    exact ⟨c,c.year_eq_iff.mpr hk,rfl⟩

theorem exists_month_iff {y k : Int} {m : Nat} (hm : 1 ≤ m ∧ m ≤ 12) :
    (∃ c : CivilDate, c.year = y ∧ c.month = m ∧ c.dayNumber = k) ↔
      daysBeforeYear y + daysBeforeMonth y m ≤ k ∧
        k < daysBeforeYear y + daysBeforeMonth y m + monthLength y m := by
  constructor
  · rintro ⟨c,rfl,rfl,rfl⟩
    exact c.dayNumber_mem_month
  · intro hk
    have hle := daysBeforeMonth_add_le y hm.1 hm.2
    obtain ⟨c,rfl,rfl⟩ := exists_year_iff.mpr (show daysBeforeYear y ≤ k ∧ k < _ by omega)
    exact ⟨c,rfl,(c.month_eq_iff hm.1).mpr hk,rfl⟩

theorem exists_day_iff {y k : Int} {m d : Nat} (hm : 1 ≤ m ∧ m ≤ 12) (hd : 1 ≤ d) :
    (∃ c : CivilDate, c.year = y ∧ c.month = m ∧ c.day = d ∧ c.dayNumber = k) ↔
      d ≤ monthLength y m ∧ k = daysBeforeYear y + daysBeforeMonth y m + (d - 1) := by
  constructor
  · rintro ⟨c,rfl,rfl,rfl,rfl⟩
    exact ⟨c.day_le,rfl⟩
  · rintro ⟨hle,rfl⟩
    exact ⟨⟨y,m,d,hm.1,hm.2,hd,hle⟩,rfl,rfl,rfl,rfl⟩

end CivilDate

/-! ### Counting days -/

/-- The days are counted from 1 January 1970, each date one after the day before it. -/
structure DayCount (count : CivilDate → Int) : Prop where
  unix : count unixDay = 0
  next : ∀ d, count d.next = count d + 1

theorem dayCount_dayNumber : DayCount CivilDate.dayNumber :=
  ⟨CivilDate.dayNumber_unixDay,CivilDate.dayNumber_next⟩

/-- There is one count of the days. -/
theorem DayCount.eq_dayNumber {count : CivilDate → Int} (h : DayCount count) (d : CivilDate) :
    count d = d.dayNumber := by
  have hall : ∀ n : Int, ∀ d : CivilDate, d.dayNumber = n → count d = n := by
    intro n
    induction n using Int.induction_on with
    | zero =>
      intro d hd
      rw [CivilDate.dayNumber_injective (hd.trans CivilDate.dayNumber_unixDay.symm)]
      exact h.unix
    | succ n ih =>
      intro d hd
      have hprev := ih d.prev (by rw [CivilDate.dayNumber_prev, hd]; omega)
      rw [← d.next_prev, h.next, hprev]
    | pred n ih =>
      intro d hd
      have hnext := ih d.next (by rw [CivilDate.dayNumber_next, hd]; omega)
      rw [h.next] at hnext
      omega
  exact hall d.dayNumber d rfl

end Rav
