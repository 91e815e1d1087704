import Rav.Db.Dates

/-!
# The date arithmetic of a search, with overflow

The functions that read the date of an operator once more, with the arithmetic of `i64` and overflow
as a panic.

## Main definitions

- `I64.yearToEpoch`, `I64.monthToEpoch`, `I64.dayToEpoch` — the epochs of a date
- `I64.parseDateStart`, `I64.parseDateRange` — the bounds an operator sets
- `I64.yearToEpoch_eq`, `I64.monthToEpoch_eq`, `I64.dayToEpoch_eq` — the epochs as numbers
-/

namespace Rav

namespace I64

/-! ### The source -/

/-- Epoch of Jan 1 00:00:00 UTC for the given year. -/
def yearToEpoch (year : Int) : Except Panic (Option Int) := do
  if year < 1970 then return none
  let days ← (yearRange 1970 year).foldlM (fun days y => i64 (days + daysOfYear y)) 0
  return some (← i64 (days * 86400))

def daysPerMonth (year : Int) : List Int :=
  [31,28 + (if isLeapYear year then 1 else 0),31,30,31,30,31,31,30,31,30,31]

/-- Epoch of the 1st of the given month at 00:00:00 UTC. -/
def monthToEpoch (year month : Int) : Except Panic (Option Int) := do
  if ¬(1 ≤ month ∧ month ≤ 12) then return none
  let some yearStart ← yearToEpoch year | return none
  let offset ← ((daysPerMonth year).take (month - 1).toNat).foldlM (fun n d => i64 (n + d)) 0
  return some (← i64 (yearStart + (← i64 (offset * 86400))))

/-- Epoch of the given day at 00:00:00 UTC. -/
def dayToEpoch (year month day : Int) : Except Panic (Option Int) := do
  if ¬(1 ≤ day ∧ day ≤ 31) then return none
  let some monthStart ← monthToEpoch year month | return none
  return some (← i64 (monthStart + (← i64 ((← i64 (day - 1)) * 86400))))

/-- A year, a month and a day, each of them as text. -/
def monthOf (year month : List Char) : Except Panic (Option Int) := do
  let some y := parseI64 year | return none
  let some m := parseI64 month | return none
  monthToEpoch y m

def dayOf (year month day : List Char) : Except Panic (Option Int) := do
  let some y := parseI64 year | return none
  let some m := parseI64 month | return none
  let some d := parseI64 day | return none
  dayToEpoch y m d

/-- Parse a date expression into a start epoch for `after:` and `before:`. -/
def parseDateStart (now : Int) (date : String) : Except Panic (Option Int) := do
  let s := (toLowercase (strTrim date)).toList
  let todayStart := now - now % 86400
  if s = "today".toList then return some todayStart
  if s = "yesterday".toList then return some (todayStart - 86400)
  if s = "last-week".toList then return some (todayStart - 7 * 86400)
  if s = "last-month".toList then return some (todayStart - 30 * 86400)
  if yearOnly s then
    let some year := parseI64 s | return none
    yearToEpoch year
  else if s.contains '-' then
    match splitFuel ['-'] 2 s with
    | [y,m] => monthOf y m
    | [y,m,d] => dayOf y m d
    | _ => return none
  else if s.contains '/' then
    match splitAll ['/'] s with
    | [m,y] => monthOf y m
    | [m,d,y] => dayOf y m d
    | _ => return none
  else return none

/-- A single day. -/
def dayRange (now : Int) (date : String) : Except Panic (Option (Int × Int)) := do
  let some start ← parseDateStart now date | return none
  return some (start,← i64 ((← i64 (start + 86400)) - 1))

/-- A full year, and a full month. -/
def yearSpan (year : List Char) : Except Panic (Option (Int × Int)) := do
  let some y := parseI64 year | return none
  let some start ← yearToEpoch y | return none
  let some next ← yearToEpoch (← i64 (y + 1)) | return none
  return some (start,← i64 (next - 1))

def nextMonth (year month : Int) : Except Panic (Int × Int) :=
  if month = 12 then do return (← i64 (year + 1),1) else do return (year,← i64 (month + 1))

def monthSpan (year month : List Char) : Except Panic (Option (Int × Int)) := do
  let some y := parseI64 year | return none
  let some m := parseI64 month | return none
  let some start ← monthToEpoch y m | return none
  let (ny,nm) ← nextMonth y m
  let some next ← monthToEpoch ny nm | return none
  return some (start,← i64 (next - 1))

/-- Parse a date expression into a (start, end) epoch range for `date:`. -/
def parseDateRange (now : Int) (date : String) : Except Panic (Option (Int × Int)) :=
  let s := (toLowercase (strTrim date)).toList
  if yearOnly s then yearSpan s
  else if s.contains '-' then
    match splitFuel ['-'] 2 s with
    | [y,m] => monthSpan y m
    | _ => dayRange now date
  else dayRange now date

/-! ### The epochs as numbers -/

theorem yearToEpoch_eq {y : Int} (hy : 1970 ≤ y) :
    yearToEpoch y = some <$> i64 (daysBeforeYear y * 86400) := by
  have hpos : daysBeforeYear 1970 ≤ daysBeforeYear y := daysBeforeYear_mono hy
  rw [show daysBeforeYear 1970 = 0 by decide] at hpos
  have hfold : (yearRange 1970 y).foldlM (fun days y => i64 (days + daysOfYear y)) 0 =
      i64 (daysBeforeYear y) := by
    rw [foldlM_i64 (by decide) (fun _ _ _ _ => rfl) (Or.inl fun y _ => daysOfYear_nonneg y),
      sum_daysOfYear hy, show daysBeforeYear 1970 = 0 by decide, sub_zero, zero_add]
  unfold yearToEpoch
  rw [if_neg (by omega), hfold]
  refine i64_bind fun hdays => ?_
  have hsecs : ¬InI64 (daysBeforeYear y * 86400) := by
    unfold InI64 at hdays ⊢
    omega
  rw [i64_of_not hsecs]
  rfl

theorem yearToEpoch_of_lt {y : Int} (hy : y < 1970) : yearToEpoch y = .ok none := if_pos hy

theorem daysPerMonth_eq (y : Int) :
    daysPerMonth y = (List.range 12).map (fun i : Nat => (monthLength y (i + 1) : Int)) := by
  by_cases h : LeapYear y
  · simp [daysPerMonth, monthLength, List.range, List.range.loop, h, isLeapYear_iff.mpr h]
  · simp [daysPerMonth, monthLength, List.range, List.range.loop, h, mt isLeapYear_iff.mp h]

theorem monthToEpoch_eq {y : Int} {m : Nat} (hy : 1970 ≤ y) (hm : 1 ≤ m) (hm' : m ≤ 12) :
    monthToEpoch y m = some <$> i64 ((daysBeforeYear y + daysBeforeMonth y m) * 86400) := by
  have hpos : daysBeforeYear 1970 ≤ daysBeforeYear y := daysBeforeYear_mono hy
  rw [show daysBeforeYear 1970 = 0 by decide] at hpos
  have hle := daysBeforeMonth_add_le y hm hm'
  have hlength : yearLength y ≤ 366 := by
    unfold yearLength
    split <;> omega
  have htake : (daysPerMonth y).take (m - 1 : Int).toNat =
      (List.range (m - 1)).map (fun i : Nat => (monthLength y (i + 1) : Int)) := by
    have hindex : (m - 1 : Int).toNat = m - 1 := by omega
    rw [daysPerMonth_eq, ← List.map_take, List.take_range, hindex, min_eq_left (by omega)]
  have hfold : ((daysPerMonth y).take (m - 1 : Int).toNat).foldlM (fun n d => i64 (n + d)) 0 =
      .ok (daysBeforeMonth y m : Int) := by
    have hsum : ((daysPerMonth y).take (m - 1 : Int).toNat).foldlM (fun n d => i64 (n + d)) 0 =
        i64 (0 + (((daysPerMonth y).take (m - 1 : Int).toNat).map id).sum) := by
      refine foldlM_i64 (by decide) (fun _ _ _ _ => rfl) (Or.inl fun d hd => ?_)
      rw [htake] at hd
      obtain ⟨i,-,rfl⟩ := List.mem_map.mp hd
      exact Int.natCast_nonneg _
    rw [hsum, List.map_id, zero_add, htake, sum_monthLength, Nat.sub_add_cancel hm]
    exact i64_of (by omega) (by omega)
  unfold monthToEpoch
  rw [if_neg (by omega), yearToEpoch_eq hy, hfold, Int.add_mul]
  by_cases hyear : InI64 (daysBeforeYear y * 86400)
  · -- Each bind is rewritten by name: comparing the two sides outright evaluates the bounds.
    rw [i64_eq_ok.mpr ⟨hyear,rfl⟩, Except.map_ok, Except.bind_ok]
    dsimp only
    rw [Except.bind_ok, i64_of (by omega) (by omega), Except.bind_ok]
    rfl
  · have hmonth : ¬InI64 (daysBeforeYear y * 86400 + daysBeforeMonth y m * 86400) := by
      unfold InI64 at hyear ⊢
      omega
    rw [i64_of_not hyear, i64_of_not hmonth]
    rfl

theorem monthToEpoch_of_lt {y m : Int} (hy : y < 1970) : monthToEpoch y m = .ok none := by
  unfold monthToEpoch
  rw [yearToEpoch_of_lt hy]
  split <;> rfl

theorem monthToEpoch_of_not {y m : Int} (hm : ¬(1 ≤ m ∧ m ≤ 12)) : monthToEpoch y m = .ok none :=
  if_pos hm

theorem dayToEpoch_eq {y : Int} {m d : Nat} (hy : 1970 ≤ y) (hm : 1 ≤ m) (hm' : m ≤ 12) (hd : 1 ≤ d)
    (hd' : d ≤ 31) : dayToEpoch y m d =
      some <$> i64 ((daysBeforeYear y + daysBeforeMonth y m + (d - 1)) * 86400) := by
  have hpos : daysBeforeYear 1970 ≤ daysBeforeYear y := daysBeforeYear_mono hy
  rw [show daysBeforeYear 1970 = 0 by decide] at hpos
  unfold dayToEpoch
  rw [if_neg (by omega), monthToEpoch_eq hy hm hm', Int.add_mul _ (d - 1 : Int)]
  by_cases hmonth : InI64 ((daysBeforeYear y + daysBeforeMonth y m) * 86400)
  · rw [i64, if_pos hmonth]
    show (i64 (d - 1) >>= fun n => i64 (n * 86400) >>= fun n =>
      some <$> i64 ((daysBeforeYear y + daysBeforeMonth y m) * 86400 + n)) = _
    rw [i64_of (by omega) (by omega), Except.bind_ok, i64_of (by omega) (by omega), Except.bind_ok]
  · have hday : ¬InI64 ((daysBeforeYear y + daysBeforeMonth y m) * 86400 + (d - 1) * 86400) := by
      unfold InI64 at hmonth ⊢
      omega
    rw [i64_of_not hmonth, i64_of_not hday]
    rfl

theorem dayToEpoch_of_not {y m d : Int} (hd : ¬(1 ≤ d ∧ d ≤ 31)) : dayToEpoch y m d = .ok none :=
  if_pos hd

/-- Without a month there is no day. -/
theorem dayToEpoch_of_month {y m d : Int} (h : monthToEpoch y m = .ok none) :
    dayToEpoch y m d = .ok none := by
  unfold dayToEpoch
  rw [h]
  split <;> rfl

end I64

end Rav
