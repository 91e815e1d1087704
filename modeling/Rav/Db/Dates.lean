import Rav.Checked
import Rav.Gregorian
import Rav.Search.Query

/-!
# The dates of `db::messages`

The epoch of a `Date` header: an ISO 8601 text is read by fixed byte offsets, any other text by
`mail_parser`. Arithmetic is that of `i64`, with overflow as a panic.

## Main definitions

- `DateTime`, `datetimeToEpoch` — a date as `mail_parser` gives it, and its epoch
- `parseIso8601ToEpoch`, `parseDateEpoch` — the epoch of a text
- `DateTime.offset`, `DateTime.secondOfDay` — what the epoch is made of beside the date
- `datetimeToEpoch_eq` — the epoch as a number
-/

namespace Rav

/-! ### The source -/

/-- `mail_parser::DateTime`. -/
structure DateTime where
  year : UInt16
  month : UInt8
  day : UInt8
  hour : UInt8
  minute : UInt8
  second : UInt8
  tzBeforeGmt : Bool
  tzHour : UInt8
  tzMinute : UInt8
  deriving DecidableEq, Repr

def daysOfYear (y : Int) : Int := if isLeapYear y then 366 else 365

/-- The years `a..b`. -/
def yearRange (a b : Int) : List Int := (List.range (b - a).toNat).map (fun i : Nat => a + i)

def monthDays : List Int := [31,28,31,30,31,30,31,31,30,31,30,31]

/-- One turn of the loop over the months: `m` counts from 0. -/
def addMonth (year : Int) (days : Int) (d : Int) (m : Nat) : Except Panic Int := do
  let days ← i64 (days + d)
  if m = 1 ∧ isLeapYear year then i64 (days + 1) else pure days

/-- Convert a `DateTime` to a Unix epoch timestamp. -/
def datetimeToEpoch (dt : DateTime) : Except Panic Int := do
  let year : Int := dt.year.toNat
  let days ← (yearRange 1970 year).foldlM (fun days y => i64 (days + daysOfYear y)) 0
  let days ← (yearRange year 1970).reverse.foldlM (fun days y => i64 (days - daysOfYear y)) days
  let month := min (dt.month.toNat - 1) 11
  let days ← (monthDays.zipIdx.take month).foldlM (fun days p => addMonth year days p.1 p.2) days
  let days ← i64 (days + (dt.day.toNat - 1))
  let secs ← i64 (days * 86400)
  let secs ← i64 (secs + dt.hour.toNat * 3600)
  let secs ← i64 (secs + dt.minute.toNat * 60)
  let secs ← i64 (secs + dt.second.toNat)
  let tzOffsetSecs ← i64 (dt.tzHour.toNat * 3600 + dt.tzMinute.toNat * 60)
  if dt.tzBeforeGmt then i64 (secs + tzOffsetSecs) else i64 (secs - tzOffsetSecs)

/-- `str::parse` of a `u32`. -/
def parseU32 (s : List Char) : Option Nat := parseUnsigned 4294967296 (String.ofList s)

/-- `s[i..j].parse().map_err(|_| ())?`, and what follows it. -/
def withField {α : Type} (s : List Char) (i j : Nat) (parse : List Char → Option α)
    (rest : α → Except Panic (Option Int)) : Except Panic (Option Int) := do
  match parse (← byteSlice i j s) with
  | some a => rest a
  | none => return none

/-- Parse ISO 8601 dates like "2024-01-01T10:00:00Z": `none` for an error. -/
def parseIso8601ToEpoch (s : String) : Except Panic (Option Int) :=
  let s := (strTrim s).toList
  if byteLength s < 19 then .ok none
  else
    withField s 0 4 parseI64 fun year =>
    withField s 5 7 parseU32 fun month =>
    withField s 8 10 parseU32 fun day =>
    withField s 11 13 parseU32 fun hour =>
    withField s 14 16 parseU32 fun minute =>
    withField s 17 19 parseU32 fun second =>
    some <$> datetimeToEpoch
      ⟨UInt16.ofInt year,UInt8.ofNat month,UInt8.ofNat day,UInt8.ofNat hour,UInt8.ofNat minute,
        UInt8.ofNat second,false,0,0⟩

/-- Parse a date string to a Unix epoch timestamp: ISO 8601 first, then RFC 2822, as
`mail_parser::DateTime::parse_rfc822` reads it. 0 on parse failure. -/
def parseDateEpoch (parseRfc822 : String → Option DateTime) (date : String) : Except Panic Int := do
  if date = "" then return 0
  if let some epoch ← parseIso8601ToEpoch date then return epoch
  if let some dt := parseRfc822 date then
    let epoch ← datetimeToEpoch dt
    -- `mail_parser` can misparse other dates
    if 1970 ≤ dt.year.toNat ∧ 1 ≤ dt.month.toNat ∧ dt.month.toNat ≤ 12 ∧ 0 < epoch then return epoch
  return 0

/-! ### The epoch of a date -/

theorem isLeapYear_iff {y : Int} : isLeapYear y = true ↔ LeapYear y := by
  unfold isLeapYear LeapYear
  simp only [Bool.or_eq_true, Bool.and_eq_true, decide_eq_true_eq]
  omega

theorem daysOfYear_eq (y : Int) : daysOfYear y = yearLength y := by
  unfold daysOfYear yearLength
  by_cases h : LeapYear y
  · rw [if_pos (isLeapYear_iff.mpr h), if_pos h]
    rfl
  · rw [if_neg (mt isLeapYear_iff.mp h), if_neg h]
    rfl

/-- The lengths of the years of a range add up to what lies between them. -/
theorem sum_daysOfYear {a b : Int} (h : a ≤ b) :
    ((yearRange a b).map daysOfYear).sum = daysBeforeYear b - daysBeforeYear a := by
  obtain ⟨n,rfl⟩ := Int.le.dest h
  unfold yearRange
  rw [add_sub_cancel_left, Int.toNat_natCast]
  clear h
  induction n with
  | zero => simp
  | succ n ih =>
    have hlast := daysBeforeYear_succ (a + n)
    rw [List.range_succ, List.map_append, List.map_append, List.sum_append, ih]
    simp only [List.map_cons, List.map_nil, List.sum_singleton, daysOfYear_eq]
    rw [add_assoc] at hlast
    push_cast
    omega

theorem yearRange_of_le {a b : Int} (h : b ≤ a) : yearRange a b = [] := by
  rw [yearRange, Int.toNat_of_nonpos (by omega)]
  rfl

theorem daysOfYear_nonneg (y : Int) : 0 ≤ daysOfYear y := by
  rw [daysOfYear_eq]
  exact Int.natCast_nonneg _

/-- The days that one turn of the loop over the months adds. -/
def monthTerm (y : Int) (p : Int × Nat) : Int := p.1 + if p.2 = 1 ∧ isLeapYear y then 1 else 0

theorem addMonth_eq {y n : Int} {p : Int × Nat} (hn : InI64 n) (hp : 0 ≤ p.1) :
    addMonth y n p.1 p.2 = i64 (n + monthTerm y p) := by
  unfold addMonth monthTerm
  split
  · exact i64_add_add hn (Or.inl ⟨hp,by decide⟩)
  · rw [add_zero]
    exact bind_pure _

theorem map_monthTerm (y : Int) : monthDays.zipIdx.map (monthTerm y) =
    (List.range 12).map (fun i : Nat => (monthLength y (i + 1) : Int)) := by
  by_cases h : LeapYear y
  · simp [monthDays, monthTerm, monthLength, List.range, List.range.loop, h, isLeapYear_iff.mpr h]
  · simp [monthDays, monthTerm, monthLength, List.range, List.range.loop, h, mt isLeapYear_iff.mp h]

theorem sum_monthLength (y : Int) (k : Nat) :
    ((List.range k).map (fun i : Nat => (monthLength y (i + 1) : Int))).sum =
      daysBeforeMonth y (k + 1) := by
  induction k with
  | zero => rfl
  | succ k ih =>
    rw [List.range_succ, List.map_append, List.sum_append, ih,
      daysBeforeMonth_succ y (Nat.le_add_left 1 k)]
    simp

/-- The turns for the first months add up to the days before the next one. -/
theorem sum_monthTerm (y : Int) {k : Nat} (hk : k ≤ 11) :
    ((monthDays.zipIdx.take k).map (monthTerm y)).sum = daysBeforeMonth y (k + 1) := by
  rw [List.map_take, map_monthTerm, ← List.map_take, List.take_range, min_eq_left (by omega)]
  exact sum_monthLength y k

/-- The seconds of the day. -/
def DateTime.secondOfDay (dt : DateTime) : Int :=
  dt.hour.toNat * 3600 + dt.minute.toNat * 60 + dt.second.toNat

/-- The offset of the zone from UTC, in seconds. -/
def DateTime.offset (dt : DateTime) : Int :=
  let seconds : Int := dt.tzHour.toNat * 3600 + dt.tzMinute.toNat * 60
  if dt.tzBeforeGmt then -seconds else seconds

/-- The number of the day; a month that is none counts as the first or the last one. -/
def DateTime.dayNumber (dt : DateTime) : Int :=
  daysBeforeYear dt.year.toNat + daysBeforeMonth dt.year.toNat (min (dt.month.toNat - 1) 11 + 1) +
    (dt.day.toNat - 1)

theorem DateTime.dayNumber_bounds (dt : DateTime) :
    -1000000 ≤ dt.dayNumber ∧ dt.dayNumber ≤ 100000000 := by
  have hyear := dt.year.toNat_lt
  have hday := dt.day.toNat_lt
  have hmonth := daysBeforeMonth_add_le dt.year.toNat
    (Nat.le_add_left 1 (min (dt.month.toNat - 1) 11)) (by omega)
  have hlength : yearLength dt.year.toNat ≤ 366 := by
    unfold yearLength
    split <;> omega
  unfold dayNumber daysBeforeYear
  omega

/-- The loop over the years up to a year, and the one down to it: only one of them has a turn. -/
theorem foldlM_years_up {y : Int} (hy : 0 ≤ y ∧ y < 65536) :
    (yearRange 1970 y).foldlM (fun days y => i64 (days + daysOfYear y)) 0 =
      .ok (daysBeforeYear (max 1970 y)) := by
  have hbound : -1000000 ≤ daysBeforeYear (max 1970 y) ∧ daysBeforeYear (max 1970 y) ≤ 100000000 := by
    unfold daysBeforeYear
    omega
  rw [foldlM_i64 (by decide) (fun _ _ _ _ => rfl) (Or.inl fun y _ => daysOfYear_nonneg y), zero_add]
  rcases Int.le_total 1970 y with h | h
  · rw [max_eq_right h] at hbound ⊢
    rw [sum_daysOfYear h, show daysBeforeYear 1970 = 0 by decide, sub_zero]
    exact i64_of (by omega) (by omega)
  · rw [yearRange_of_le h, max_eq_left h]
    rfl

theorem foldlM_years_down {y n : Int} (hy : 0 ≤ y ∧ y < 65536) (hn : 0 ≤ n ∧ n ≤ 100000000) :
    (yearRange y 1970).reverse.foldlM (fun days y => i64 (days - daysOfYear y)) n =
      .ok (n + daysBeforeYear (min 1970 y)) := by
  have hbound : -1000000 ≤ daysBeforeYear (min 1970 y) ∧ daysBeforeYear (min 1970 y) ≤ 0 := by
    unfold daysBeforeYear
    omega
  have hfold : (yearRange y 1970).reverse.foldlM (fun days y => i64 (days - daysOfYear y)) n =
      i64 (n + ((yearRange y 1970).reverse.map (fun y => -daysOfYear y)).sum) :=
    foldlM_i64 ⟨by omega,by omega⟩ (fun _ _ _ _ => rfl)
      (Or.inr fun y _ => neg_nonpos.mpr (daysOfYear_nonneg y))
  have hsum : ((yearRange y 1970).reverse.map (fun y => -daysOfYear y)).sum =
      daysBeforeYear (min 1970 y) := by
    rcases Int.le_total 1970 y with h | h
    · rw [yearRange_of_le h, min_eq_left h]
      rfl
    · have hyears := sum_daysOfYear h
      rw [show daysBeforeYear 1970 = 0 by decide] at hyears
      have hneg := List.sum_neg_reverse ((yearRange y 1970).map daysOfYear)
      rw [List.map_map, ← List.map_reverse] at hneg
      rw [min_eq_right h]
      exact hneg.symm.trans (by omega)
  rw [hfold, hsum]
  exact i64_of (by omega) (by omega)

theorem foldlM_months {y n : Int} {k : Nat} (hk : k ≤ 11) (hn : -1000000 ≤ n ∧ n ≤ 100000000) :
    (monthDays.zipIdx.take k).foldlM (fun days p => addMonth y days p.1 p.2) n =
      .ok (n + daysBeforeMonth y (k + 1)) := by
  have hdays : ∀ p ∈ monthDays.zipIdx, 0 ≤ p.1 := by decide
  have hsum : daysBeforeMonth y (k + 1) ≤ 366 := by
    have hmonth := daysBeforeMonth_add_le y (Nat.le_add_left 1 k) (by omega)
    have hlength : yearLength y ≤ 366 := by
      unfold yearLength
      split <;> omega
    omega
  have hfold : (monthDays.zipIdx.take k).foldlM (fun days p => addMonth y days p.1 p.2) n =
      i64 (n + ((monthDays.zipIdx.take k).map (monthTerm y)).sum) := by
    refine foldlM_i64 ⟨by omega,by omega⟩
      (fun m p hp hm => addMonth_eq hm (hdays p (List.mem_of_mem_take hp))) (Or.inl fun p hp => ?_)
    have hp' := hdays p (List.mem_of_mem_take hp)
    unfold monthTerm
    split <;> omega
  rw [hfold, sum_monthTerm y hk]
  exact i64_of (by omega) (by omega)

/-- No date overflows. -/
theorem datetimeToEpoch_eq (dt : DateTime) :
    datetimeToEpoch dt = .ok (dt.dayNumber * 86400 + dt.secondOfDay - dt.offset) := by
  have hyear := dt.year.toNat_lt
  have hday := dt.day.toNat_lt
  have hhour := dt.hour.toNat_lt
  have hminute := dt.minute.toNat_lt
  have hsecond := dt.second.toNat_lt
  have htzHour := dt.tzHour.toNat_lt
  have htzMinute := dt.tzMinute.toNat_lt
  have hbounds := dt.dayNumber_bounds
  have hup : 0 ≤ daysBeforeYear (max 1970 dt.year.toNat) ∧
      daysBeforeYear (max 1970 dt.year.toNat) ≤ 100000000 := by
    unfold daysBeforeYear
    omega
  have hsplit : daysBeforeYear (max 1970 dt.year.toNat) + daysBeforeYear (min 1970 dt.year.toNat) =
      daysBeforeYear dt.year.toNat := by
    unfold daysBeforeYear
    omega
  have hyears : -1000000 ≤ daysBeforeYear dt.year.toNat ∧
      daysBeforeYear dt.year.toNat ≤ 100000000 := by
    unfold daysBeforeYear
    omega
  have hdayNumber : daysBeforeYear dt.year.toNat +
      daysBeforeMonth dt.year.toNat (min (dt.month.toNat - 1) 11 + 1) + (dt.day.toNat - 1) =
        dt.dayNumber := rfl
  unfold datetimeToEpoch
  dsimp only
  rw [foldlM_years_up ⟨by omega,by omega⟩, Except.bind_ok, foldlM_years_down ⟨by omega,by omega⟩ hup,
    Except.bind_ok, hsplit, foldlM_months (Nat.min_le_right _ _) hyears, Except.bind_ok, hdayNumber]
  unfold DateTime.secondOfDay DateTime.offset
  simp (disch := omega) only [i64_of, Except.bind_ok]
  split
  · exact congrArg Except.ok (by omega)
  · exact congrArg Except.ok (by omega)

end Rav
