import Rav.Numerals
import Rav.Search.Epochs

/-!
# Date headers

What becomes of the text of a `Date` header. The cache and the search count the days of a date each in
its own way, and both counts are that of the calendar. A text that is cut within a character stops the
program. An ISO 8601 text is read as if its zone were UTC, and a date in RFC 5322 is taken for none if
it is before 1970.

## Main definitions

- `DateTime.On` — the date of a `DateTime`
- `datetimeToEpoch_dayCount` — both counts are that of the calendar
- `CutsCleanly` — no cut that is made is within a character
- `parseDateEpoch_returns_iff` — when the epoch of a text is found without a panic
- `ZonedTime`, `ZonedTime.isoTexts`, `ZonedTime.rfcTexts` — a time in a zone, and its texts
- `parseDateEpoch_instant_iff` — when the epoch of such a text is the instant
-/

namespace Rav

/-! ### Two counts of days -/

/-- The year, month and day are those of a date. -/
def DateTime.On (dt : DateTime) (d : CivilDate) : Prop :=
  dt.year.toNat = d.year ∧ dt.month.toNat = d.month ∧ dt.day.toNat = d.day

theorem DateTime.On.dayNumber_eq {dt : DateTime} {d : CivilDate} (h : dt.On d) :
    dt.dayNumber = d.dayNumber := by
  obtain ⟨hyear,hmonth,hday⟩ := h
  have hindex : min (d.month - 1) 11 + 1 = d.month := by
    have hpos := d.month_pos
    have hle := d.month_le
    omega
  unfold DateTime.dayNumber CivilDate.dayNumber
  rw [hyear, hmonth, hday, hindex]

/-- The number of a day of the cache's range fits into 64 bits, as seconds. -/
theorem DateTime.On.dayToEpoch_eq {dt : DateTime} {d : CivilDate} (h : dt.On d) (hyear : 1970 ≤ d.year) :
    I64.dayToEpoch d.year d.month d.day = .ok (some (d.dayNumber * 86400)) := by
  have hbounds := dt.dayNumber_bounds
  rw [h.dayNumber_eq] at hbounds
  have hnumber : daysBeforeYear d.year + daysBeforeMonth d.year d.month + (d.day - 1) = d.dayNumber := rfl
  rw [I64.dayToEpoch_eq hyear d.month_pos d.month_le d.day_pos (d.day_le.trans (monthLength_le _ _)),
    hnumber, i64_of (by omega) (by omega)]
  rfl

/-- The epoch of a date, time and zone is the count of the days in seconds, and the seconds of the
day, less the offset; and from 1970 on the search counts the same days. -/
theorem datetimeToEpoch_dayCount {count : CivilDate → Int} (hcount : DayCount count) {dt : DateTime}
    {d : CivilDate} (h : dt.On d) :
    datetimeToEpoch dt = .ok (count d * 86400 + dt.secondOfDay - dt.offset) ∧
      (1970 ≤ d.year → ∃ t, I64.dayToEpoch d.year d.month d.day = .ok (some t) ∧
        datetimeToEpoch dt = .ok (t + dt.secondOfDay - dt.offset)) := by
  have hepoch : datetimeToEpoch dt = .ok (d.dayNumber * 86400 + dt.secondOfDay - dt.offset) := by
    rw [datetimeToEpoch_eq, h.dayNumber_eq]
  exact ⟨by rw [hcount.eq_dayNumber, hepoch],fun hyear => ⟨_,h.dayToEpoch_eq hyear,hepoch⟩⟩

/-- Noon of a leap day, half past five hours behind UTC. -/
def leapNoon : DateTime := ⟨2024,2,29,12,0,0,true,5,30⟩

def leapDay : CivilDate := ⟨2024,2,29,by decide,by decide,by decide,by decide⟩

theorem datetimeToEpoch_leapNoon :
    datetimeToEpoch leapNoon = .ok (leapDay.dayNumber * 86400 + 43200 + 19800) ∧
      ∃ t, I64.dayToEpoch 2024 2 29 = .ok (some t) ∧
        datetimeToEpoch leapNoon = .ok (t + 43200 + 19800) := by
  have hon : leapNoon.On leapDay := ⟨rfl,rfl,rfl⟩
  obtain ⟨hepoch,hsearch⟩ := datetimeToEpoch_dayCount dayCount_dayNumber hon
  exact ⟨hepoch,hsearch (by decide)⟩

/-! ### Cuts -/

/-- The fields of an ISO 8601 text, and what is a number in each. -/
def isoFields : List (Nat × Nat × (List Char → Bool)) :=
  (0,4,fun f => (parseI64 f).isSome) ::
    [(5,7),(8,10),(11,13),(14,16),(17,19)].map (fun p => (p.1,p.2,fun f => (parseU32 f).isSome))

/-- Both ends of the first field are between characters, and if it holds a number, so it is with the
others. -/
def CutsCleanly (s : List Char) : List (Nat × Nat × (List Char → Bool)) → Prop
  | [] => True
  | (i,j,isNumber) :: fields =>
    IsCharBoundary i s ∧ IsCharBoundary j s ∧
      ∀ f, byteSlice i j s = .ok f → isNumber f = true → CutsCleanly s fields

/-- A text that is short of an ISO 8601 text, or is cut cleanly. -/
def DateSafe (date : String) : Prop :=
  byteLength (strTrim date).toList < 19 ∨ CutsCleanly (strTrim date).toList isoFields

/-- A field is read if it can be cut out, and the rest is read if it holds a number. -/
theorem withField_returns_iff {α : Type} {s : List Char} {i j : Nat} (hij : i ≤ j)
    {parse : List Char → Option α} {rest : α → Except Panic (Option Int)} {p : Prop}
    (hrest : ∀ a, (∃ r, rest a = .ok r) ↔ p) :
    (∃ r, withField s i j parse rest = .ok r) ↔
      IsCharBoundary i s ∧ IsCharBoundary j s ∧
        ∀ f, byteSlice i j s = .ok f → (parse f).isSome = true → p := by
  unfold withField
  cases hslice : byteSlice i j s with
  | error e =>
    refine iff_of_false ?_ fun h => ?_
    · rintro ⟨r,hr⟩
      exact absurd hr nofun
    · obtain ⟨f,hf⟩ := (exists_byteSlice_iff hij).mpr ⟨h.1,h.2.1⟩
      exact absurd (hslice.symm.trans hf) nofun
  | ok f =>
    obtain ⟨hi,hj⟩ := (exists_byteSlice_iff hij).mp ⟨f,hslice⟩
    rw [Except.bind_ok]
    cases hparse : parse f with
    | none =>
      refine iff_of_true ⟨none,rfl⟩ ⟨hi,hj,fun g hg hnumber => ?_⟩
      obtain rfl := Except.ok.inj hg
      rw [hparse] at hnumber
      exact absurd hnumber Bool.false_ne_true
    | some a =>
      refine (hrest a).trans ⟨fun h => ⟨hi,hj,fun _ _ _ => h⟩,fun h => h.2.2 f rfl ?_⟩
      rw [hparse]
      rfl

theorem parseIso8601_returns_iff {date : String} :
    (∃ r, parseIso8601ToEpoch date = .ok r) ↔ DateSafe date := by
  unfold parseIso8601ToEpoch DateSafe
  by_cases hlen : byteLength (strTrim date).toList < 19
  · rw [if_pos hlen]
    exact iff_of_true ⟨none,rfl⟩ (Or.inl hlen)
  · rw [if_neg hlen]
    refine Iff.trans ?_ (or_iff_right hlen).symm
    refine withField_returns_iff (by decide) fun year => ?_
    refine withField_returns_iff (by decide) fun month => ?_
    refine withField_returns_iff (by decide) fun day => ?_
    refine withField_returns_iff (by decide) fun hour => ?_
    refine withField_returns_iff (by decide) fun minute => ?_
    refine withField_returns_iff (by decide) fun second => ?_
    refine iff_of_true ?_ trivial
    rw [datetimeToEpoch_eq]
    exact ⟨_,rfl⟩

/-- The epoch of a text is found, whatever the text, unless it is cut within a character. -/
theorem parseDateEpoch_returns_iff {parseRfc822 : String → Option DateTime} {date : String} :
    (∃ epoch, parseDateEpoch parseRfc822 date = .ok epoch) ↔ DateSafe date := by
  rw [← parseIso8601_returns_iff]
  by_cases hempty : date = ""
  · subst hempty
    exact iff_of_true ⟨0,rfl⟩ ⟨none,rfl⟩
  · unfold parseDateEpoch
    rw [if_neg hempty]
    cases hiso : parseIso8601ToEpoch date with
    | error e => exact iff_of_false (by rintro ⟨_,h⟩; exact absurd h nofun) (by rintro ⟨_,h⟩; exact absurd h nofun)
    | ok r =>
      refine iff_of_true ?_ ⟨r,rfl⟩
      cases r with
      | some epoch => exact ⟨epoch,rfl⟩
      | none =>
        cases parseRfc822 date with
        | none => exact ⟨0,rfl⟩
        | some dt =>
          rw [Except.bind_ok]
          dsimp only
          rw [datetimeToEpoch_eq, Except.bind_ok]
          split
          · exact ⟨_,rfl⟩
          · exact ⟨0,rfl⟩

/-- The fifth byte of the text is within a character. -/
theorem parseDateEpoch_cut_within_character :
    ¬∀ (parseRfc822 : String → Option DateTime) (date : String),
      ∃ epoch, parseDateEpoch parseRfc822 date = .ok epoch := by
  intro hall
  obtain ⟨epoch,h⟩ := hall (fun _ => none) "2024年01月01日 10:00:00"
  have hslice : parseDateEpoch (fun _ => none) "2024年01月01日 10:00:00" = .error .slice := by decide +kernel
  exact absurd (hslice.symm.trans h) nofun

/-! ### Times in a zone -/

/-- A date of four digits, a time of the day, and the offset of a zone. -/
structure ZonedTime where
  date : CivilDate
  hour : Fin 24
  minute : Fin 60
  second : Fin 60
  west : Bool
  zoneHour : Fin 100
  zoneMinute : Fin 60
  year_nonneg : 0 ≤ date.year
  year_le : date.year ≤ 9999

namespace ZonedTime

variable (z : ZonedTime)

def offset : Int :=
  let seconds : Int := z.zoneHour * 3600 + z.zoneMinute * 60
  if z.west then -seconds else seconds

def secondOfDay : Int := z.hour * 3600 + z.minute * 60 + z.second

/-- The instant, in seconds since the start of 1970 in UTC. -/
def instant : Int := z.date.dayNumber * 86400 + z.secondOfDay - z.offset

/-- The time as a `DateTime`, and a `DateTime` that says the same. -/
def dateTime : DateTime :=
  ⟨UInt16.ofInt z.date.year,UInt8.ofNat z.date.month,UInt8.ofNat z.date.day,UInt8.ofNat z.hour,
    UInt8.ofNat z.minute,UInt8.ofNat z.second,z.west,UInt8.ofNat z.zoneHour,UInt8.ofNat z.zoneMinute⟩

def SaidBy (dt : DateTime) : Prop :=
  dt.On z.date ∧ dt.secondOfDay = z.secondOfDay ∧ dt.offset = z.offset

def clock : List Char :=
  twoDigits z.hour ++ [':'] ++ twoDigits z.minute ++ [':'] ++ twoDigits z.second

def sign : Char := if z.west then '-' else '+'

/-- The date and time of an ISO 8601 text. -/
def isoStem : List Char :=
  fourDigits z.date.year.toNat ++ ['-'] ++ twoDigits z.date.month ++ ['-'] ++ twoDigits z.date.day ++
    ['T'] ++ z.clock

/-- The zone as `build_synthetic_message` writes it, and `Z` for UTC. -/
def isoZones : List (List Char) :=
  (z.sign :: (twoDigits z.zoneHour ++ [':'] ++ twoDigits z.zoneMinute)) ::
    if z.offset = 0 then [['Z']] else []

def isoTexts : List String := z.isoZones.map (fun zone => String.ofList (z.isoStem ++ zone))

end ZonedTime

/-- The days of the week, the months and the named zones of RFC 5322. -/
def rfcDays : List String := ["Mon","Tue","Wed","Thu","Fri","Sat","Sun"]

def rfcMonths : List String :=
  ["Jan","Feb","Mar","Apr","May","Jun","Jul","Aug","Sep","Oct","Nov","Dec"]

/-- The named zones of RFC 5322, with the hours they are behind UTC. -/
def rfcZoneNames : List (String × Nat) :=
  [("UT",0),("GMT",0),("EDT",4),("EST",5),("CDT",5),("CST",6),("MDT",6),("MST",7),("PDT",7),("PST",8)]

namespace ZonedTime

variable (z : ZonedTime)

/-- The zone by its offset, or by a name. -/
def rfcZones : List (List Char) :=
  (z.sign :: (twoDigits z.zoneHour ++ twoDigits z.zoneMinute)) ::
    (rfcZoneNames.filter (fun p => z.offset = -(p.2 * 3600 : Int))).map (fun p => p.1.toList)

/-- The texts of RFC 5322: the day of the week, the leading zero of the day and the seconds of a full
minute may be left out. -/
def rfcTexts : List String := do
  let weekday ← [] :: rfcDays.map (fun d => d.toList ++ ",".toList ++ " ".toList)
  let day ← twoDigits z.date.day ::
    if z.date.day < 10 then [[Nat.digitChar z.date.day]] else []
  let time ← z.clock ::
    if z.second = 0 then [twoDigits z.hour ++ [':'] ++ twoDigits z.minute] else []
  let zone ← z.rfcZones
  [String.ofList (weekday ++ day ++ [' '] ++ (rfcMonths.getD (z.date.month - 1) "").toList ++ [' '] ++
    fourDigits z.date.year.toNat ++ [' '] ++ time ++ [' '] ++ zone)]

end ZonedTime

/-! ### ISO 8601 -/

/-- A character of one byte that is no white space. -/
def Solid (c : Char) : Prop := c.utf8Size = 1 ∧ isWhitespace c = false

instance decidableSolid (c : Char) : Decidable (Solid c) := inferInstanceAs (Decidable (_ ∧ _))

theorem solid_of_isDigit {c : Char} (hc : c.isDigit = true) : Solid c :=
  ⟨utf8Size_of_isDigit hc,isWhitespace_of_isDigit hc⟩

theorem solid_twoDigits {n : Nat} (hn : n < 100) : ∀ c ∈ twoDigits n, Solid c :=
  fun c hc => solid_of_isDigit (twoDigits_isDigit hn c hc)

theorem solid_fourDigits {n : Nat} (hn : n < 10000) : ∀ c ∈ fourDigits n, Solid c :=
  fun c hc => solid_of_isDigit (fourDigits_isDigit hn c hc)

theorem withField_of {α : Type} {s f : List Char} {i j : Nat} {parse : List Char → Option α} {a : α}
    (hslice : byteSlice i j s = .ok f) (hparse : parse f = some a)
    (rest : α → Except Panic (Option Int)) : withField s i j parse rest = rest a := by
  unfold withField
  rw [hslice, Except.bind_ok, hparse]

namespace ZonedTime

variable (z : ZonedTime)

theorem year_lt : z.date.year.toNat < 10000 := by
  have hle := z.year_le
  omega

theorem month_lt : z.date.month < 100 := lt_of_le_of_lt z.date.month_le (by decide)

theorem day_lt : z.date.day < 100 :=
  lt_of_le_of_lt (z.date.day_le.trans (monthLength_le _ _)) (by decide)

theorem clock_solid : ∀ c ∈ z.clock, Solid c := by
  have hhour := solid_twoDigits (show z.hour.val < 100 by omega)
  have hminute := solid_twoDigits (show z.minute.val < 100 by omega)
  have hsecond := solid_twoDigits (show z.second.val < 100 by omega)
  simp only [clock, List.forall_mem_append, List.forall_mem_singleton]
  exact ⟨⟨⟨⟨hhour,by decide⟩,hminute⟩,by decide⟩,hsecond⟩

theorem isoStem_solid : ∀ c ∈ z.isoStem, Solid c := by
  have hyear := solid_fourDigits z.year_lt
  have hmonth := solid_twoDigits z.month_lt
  have hday := solid_twoDigits z.day_lt
  simp only [isoStem, List.forall_mem_append, List.forall_mem_singleton]
  exact ⟨⟨⟨⟨⟨⟨hyear,by decide⟩,hmonth⟩,by decide⟩,hday⟩,by decide⟩,z.clock_solid⟩

theorem dateTime_on : z.dateTime.On z.date := by
  have hyear := z.year_nonneg
  have hyear' := z.year_le
  have hmonth := z.month_lt
  have hday := z.day_lt
  refine ⟨?_,?_,?_⟩
  · simp only [dateTime, UInt16.ofInt, UInt16.toNat_ofNat']
    omega
  · simp only [dateTime, UInt8.toNat_ofNat']
    omega
  · simp only [dateTime, UInt8.toNat_ofNat']
    omega

theorem dateTime_secondOfDay : z.dateTime.secondOfDay = z.secondOfDay := by
  have hhour := z.hour.isLt
  have hminute := z.minute.isLt
  have hsecond := z.second.isLt
  simp only [DateTime.secondOfDay, dateTime, UInt8.toNat_ofNat', secondOfDay]
  omega

theorem saidBy_dateTime : z.SaidBy z.dateTime := by
  have hzoneHour := z.zoneHour.isLt
  have hzoneMinute := z.zoneMinute.isLt
  refine ⟨z.dateTime_on,z.dateTime_secondOfDay,?_⟩
  simp only [DateTime.offset, dateTime, UInt8.toNat_ofNat', offset]
  split <;> omega

theorem datetimeToEpoch_of_saidBy {dt : DateTime} (h : z.SaidBy dt) :
    datetimeToEpoch dt = .ok z.instant := by
  obtain ⟨hon,hsecond,hoffset⟩ := h
  rw [datetimeToEpoch_eq, hon.dayNumber_eq, hsecond, hoffset]
  rfl

/-- The instant of a date and time whose zone is left out. -/
theorem datetimeToEpoch_local :
    datetimeToEpoch { z.dateTime with tzBeforeGmt := false, tzHour := 0, tzMinute := 0 } =
      .ok (z.instant + z.offset) := by
  have hon : DateTime.On { z.dateTime with tzBeforeGmt := false, tzHour := 0, tzMinute := 0 } z.date :=
    z.dateTime_on
  have hsecond : DateTime.secondOfDay { z.dateTime with tzBeforeGmt := false, tzHour := 0, tzMinute := 0 } =
      z.secondOfDay := z.dateTime_secondOfDay
  have hoffset : DateTime.offset { z.dateTime with tzBeforeGmt := false, tzHour := 0, tzMinute := 0 } = 0 := by
    simp [DateTime.offset]
  rw [datetimeToEpoch_eq, hon.dayNumber_eq, hsecond, hoffset, sub_zero, instant, sub_add_cancel]

/-- The date and time of an ISO 8601 text are read, and nothing else of it. -/
theorem parseIso8601_isoStem {zone : List Char} (hzone : ∀ c ∈ zone, isWhitespace c = false) :
    parseIso8601ToEpoch (String.ofList (z.isoStem ++ zone)) = .ok (some (z.instant + z.offset)) := by
  have hsolid := z.isoStem_solid
  have hascii : ∀ c ∈ z.isoStem, c.utf8Size = 1 := fun c hc => (hsolid c hc).1
  have hspace : ∀ c ∈ z.isoStem ++ zone, isWhitespace c = false :=
    List.forall_mem_append.mpr ⟨fun c hc => (hsolid c hc).2,hzone⟩
  have htrim : (strTrim (String.ofList (z.isoStem ++ zone))).toList = z.isoStem ++ zone := by
    rw [strTrim_of_ends (fun c hc => hspace c (List.mem_of_mem_head? hc))
      (fun c hc => hspace c (List.mem_of_mem_getLast? hc)), String.toList_ofList]
  have hlen : byteLength (z.isoStem ++ zone) = 19 + byteLength zone := by
    rw [byteLength_append, byteLength_of_ascii hascii]
    rfl
  have hfield : ∀ {i j : Nat}, i ≤ j → j ≤ 19 →
      byteSlice i j (z.isoStem ++ zone) = .ok ((z.isoStem.take j).drop i) :=
    fun hij hj => byteSlice_of_ascii hascii hij hj
  have hyear : byteSlice 0 4 (z.isoStem ++ zone) = .ok (fourDigits z.date.year.toNat) :=
    hfield (by decide) (by decide)
  have hmonth : byteSlice 5 7 (z.isoStem ++ zone) = .ok (twoDigits z.date.month) :=
    hfield (by decide) (by decide)
  have hday : byteSlice 8 10 (z.isoStem ++ zone) = .ok (twoDigits z.date.day) :=
    hfield (by decide) (by decide)
  have hhour : byteSlice 11 13 (z.isoStem ++ zone) = .ok (twoDigits z.hour) :=
    hfield (by decide) (by decide)
  have hminute : byteSlice 14 16 (z.isoStem ++ zone) = .ok (twoDigits z.minute) :=
    hfield (by decide) (by decide)
  have hsecond : byteSlice 17 19 (z.isoStem ++ zone) = .ok (twoDigits z.second) :=
    hfield (by decide) (by decide)
  have hlong : ¬byteLength (z.isoStem ++ zone) < 19 := by
    rw [hlen]
    exact Nat.not_lt.mpr (Nat.le_add_right 19 _)
  unfold parseIso8601ToEpoch
  dsimp only
  rw [htrim, if_neg hlong, withField_of hyear (parseI64_fourDigits z.year_lt),
    withField_of hmonth (parseU32_twoDigits z.month_lt), withField_of hday (parseU32_twoDigits z.day_lt),
    withField_of hhour (parseU32_twoDigits (by omega)),
    withField_of hminute (parseU32_twoDigits (by omega)),
    withField_of hsecond (parseU32_twoDigits (by omega)), Int.toNat_of_nonneg z.year_nonneg]
  exact congrArg (some <$> ·) z.datetimeToEpoch_local

end ZonedTime

/-! ### RFC 5322 -/

theorem parseI64_of_not {f : List Char} {c : Char} (hc : c ∈ f.tail) (hdigit : c.isDigit = false) :
    parseI64 f = none := by
  have hmem : c ∈ (if f.head? = some '-' ∨ f.head? = some '+' then f.tail else f) := by
    split
    · exact hc
    · exact List.mem_of_mem_tail hc
  unfold parseI64
  refine if_neg fun h => ?_
  rw [List.all_eq_true.mp h.2.1 c hmem] at hdigit
  exact absurd hdigit Bool.noConfusion

/-- A text that does not begin with a year is not read as ISO 8601. -/
theorem parseIso8601_of_not {s f t : List Char} (hs : s = f ++ t) (hf : ∀ c ∈ f, c.utf8Size = 1)
    (hlen : f.length = 4) (hyear : parseI64 f = none) (hhead : ∀ c ∈ f.head?, isWhitespace c = false)
    (hlast : ∀ c ∈ s.getLast?, isWhitespace c = false) :
    parseIso8601ToEpoch (String.ofList s) = .ok none := by
  have hhead' : ∀ c ∈ s.head?, isWhitespace c = false := by
    intro c hc
    refine hhead c ?_
    subst hs
    cases f with
    | nil => exact absurd hlen nofun
    | cons d f => exact hc
  have hslice : byteSlice 0 4 s = .ok f := by
    rw [hs, byteSlice_of_ascii hf (by decide) hlen.ge, ← hlen, List.take_length]
    rfl
  unfold parseIso8601ToEpoch
  dsimp only
  rw [strTrim_of_ends hhead' hlast, String.toList_ofList]
  split
  · rfl
  · unfold withField
    rw [hslice, Except.bind_ok, hyear]
    rfl

/-- Four characters of one byte, of which the second or a later one is no digit. -/
theorem parseIso8601_of_four {s t : List Char} {a b c d : Char} (hs : s = a :: b :: c :: d :: t)
    (ha : Solid a) (hsize : b.utf8Size = 1 ∧ c.utf8Size = 1 ∧ d.utf8Size = 1)
    (hdigit : b.isDigit = false ∨ c.isDigit = false)
    (hlast : ∀ c ∈ s.getLast?, isWhitespace c = false) :
    parseIso8601ToEpoch (String.ofList s) = .ok none := by
  have hyear : parseI64 [a,b,c,d] = none := by
    rcases hdigit with h | h
    · exact parseI64_of_not List.mem_cons_self h
    · exact parseI64_of_not (List.mem_cons_of_mem _ List.mem_cons_self) h
  refine parseIso8601_of_not hs ?_ rfl hyear (fun e he => ?_) hlast
  · simp [ha.1, hsize]
  · rw [← Option.some.inj he]
    exact ha.2

namespace ZonedTime

variable (z : ZonedTime)

theorem rfcZones_solid {zone : List Char} (hzone : zone ∈ z.rfcZones) :
    zone ≠ [] ∧ ∀ c ∈ zone, isWhitespace c = false := by
  rcases List.mem_cons.mp hzone with rfl | hzone
  · have hhour := solid_twoDigits (show z.zoneHour.val < 100 by omega)
    have hminute := solid_twoDigits (show z.zoneMinute.val < 100 by omega)
    refine ⟨List.cons_ne_nil _ _,List.forall_mem_cons.mpr ⟨?_,?_⟩⟩
    · unfold sign
      split <;> decide
    · exact List.forall_mem_append.mpr ⟨fun c hc => (hhour c hc).2,fun c hc => (hminute c hc).2⟩
  · have hnames : ∀ p ∈ rfcZoneNames, p.1.toList ≠ [] ∧
        p.1.toList.all (fun c => decide (isWhitespace c = false)) = true := by decide
    obtain ⟨p,hp,rfl⟩ := List.mem_map.mp hzone
    obtain ⟨hne,hsolid⟩ := hnames p (List.mem_filter.mp hp).1
    exact ⟨hne,forall_mem_of_all hsolid⟩

/-- A date in RFC 5322 is not read as ISO 8601. -/
theorem parseIso8601_rfcTexts {r : String} (hr : r ∈ z.rfcTexts) :
    parseIso8601ToEpoch r = .ok none := by
  simp only [rfcTexts, List.bind_eq_flatMap, List.mem_flatMap, List.mem_singleton] at hr
  obtain ⟨weekday,hweekday,day,hday,time,-,zone,hzone,rfl⟩ := hr
  obtain ⟨hne,hzone⟩ := z.rfcZones_solid hzone
  have hlast : ∀ (s : List Char), ∀ c ∈ (s ++ zone).getLast?, isWhitespace c = false := by
    intro s c hc
    rw [List.getLast?_append_of_ne_nil _ hne] at hc
    exact hzone c (List.mem_of_mem_getLast? hc)
  have hmonths : ∀ i < 12, (rfcMonths.getD i "").toList.length = 3 ∧
      (rfcMonths.getD i "").toList.all (fun c => decide (c.utf8Size = 1)) = true := by decide
  have hmonth := hmonths (z.date.month - 1) (by have := z.date.month_pos; have := z.date.month_le; omega)
  obtain ⟨a,b,c,habc⟩ := List.length_eq_three.mp hmonth.1
  rw [habc] at hmonth ⊢
  have ha : a.utf8Size = 1 := forall_mem_of_all hmonth.2 a (by simp)
  have hb : b.utf8Size = 1 := forall_mem_of_all hmonth.2 b (by simp)
  rcases List.mem_cons.mp hweekday with rfl | hweekday
  · rcases List.mem_cons.mp hday with rfl | hday
    · have hten := (digitChar_spec (show z.date.day / 10 < 10 by have := z.day_lt; omega)).1
      have hone := (digitChar_spec (show z.date.day % 10 < 10 by omega)).1
      exact parseIso8601_of_four rfl (solid_of_isDigit hten)
        ⟨(solid_of_isDigit hone).1,rfl,ha⟩ (Or.inr rfl) (hlast _)
    · split at hday
      · next hlt =>
        rw [List.mem_singleton.mp hday]
        exact parseIso8601_of_four rfl (solid_of_isDigit (digitChar_spec hlt).1) ⟨rfl,ha,hb⟩
          (Or.inl rfl) (hlast _)
      · exact absurd hday List.not_mem_nil
  · obtain ⟨d,hd,rfl⟩ := List.mem_map.mp hweekday
    have hdays : ∀ d ∈ rfcDays, d.toList.length = 3 ∧
        d.toList.all (fun c => decide (Solid c ∧ c.isDigit = false)) = true := by decide
    obtain ⟨hlength,hsolid⟩ := hdays d hd
    obtain ⟨e,f,g,hefg⟩ := List.length_eq_three.mp hlength
    rw [hefg] at hsolid ⊢
    have he := forall_mem_of_all hsolid e (by simp)
    have hf := forall_mem_of_all hsolid f (by simp)
    have hg := forall_mem_of_all hsolid g (by simp)
    exact parseIso8601_of_four rfl he.1 ⟨hf.1.1,hg.1.1,rfl⟩ (Or.inl hf.2) (hlast _)

end ZonedTime

/-! ### The instant -/

namespace ZonedTime

variable (z : ZonedTime)

theorem isoZones_solid {zone : List Char} (hzone : zone ∈ z.isoZones) :
    ∀ c ∈ zone, isWhitespace c = false := by
  rcases List.mem_cons.mp hzone with rfl | hzone
  · have hhour := solid_twoDigits z.zoneHour.isLt
    have hminute := solid_twoDigits (show z.zoneMinute.val < 100 by omega)
    have hsign : isWhitespace z.sign = false := by
      unfold sign
      split <;> decide
    simp only [List.forall_mem_cons, List.forall_mem_append]
    exact ⟨hsign,⟨fun c hc => (hhour c hc).2,⟨by decide,List.forall_mem_nil _⟩⟩,fun c hc => (hminute c hc).2⟩
  · split at hzone
    · rw [List.mem_singleton.mp hzone]
      exact forall_mem_of_all (by decide)
    · exact absurd hzone List.not_mem_nil

theorem isoTexts_epoch (parseRfc822 : String → Option DateTime) {r : String} (hr : r ∈ z.isoTexts) :
    parseDateEpoch parseRfc822 r = .ok (z.instant + z.offset) := by
  obtain ⟨zone,hzone,rfl⟩ := List.mem_map.mp hr
  have hne : String.ofList (z.isoStem ++ zone) ≠ "" := by
    intro h
    have hnil := String.ofList_inj.mp (h.trans String.ofList_nil.symm)
    exact absurd hnil nofun
  unfold parseDateEpoch
  rw [if_neg hne, z.parseIso8601_isoStem (z.isoZones_solid hzone)]
  rfl

theorem rfcTexts_ne_empty {r : String} (hr : r ∈ z.rfcTexts) : r ≠ "" := by
  simp only [rfcTexts, List.bind_eq_flatMap, List.mem_flatMap, List.mem_singleton] at hr
  obtain ⟨weekday,-,day,-,time,-,zone,hzone,rfl⟩ := hr
  intro h
  have hnil := String.ofList_inj.mp (h.trans String.ofList_nil.symm)
  exact (z.rfcZones_solid hzone).1 (List.append_eq_nil_iff.mp hnil).2

theorem rfcTexts_epoch {parseRfc822 : String → Option DateTime} {r : String} {dt : DateTime}
    (hr : r ∈ z.rfcTexts) (hparse : parseRfc822 r = some dt) (hsaid : z.SaidBy dt) :
    parseDateEpoch parseRfc822 r =
      .ok (if 1970 ≤ z.date.year ∧ 0 < z.instant then z.instant else 0) := by
  have hyear : (1970 ≤ dt.year.toNat ∧ 1 ≤ dt.month.toNat ∧ dt.month.toNat ≤ 12 ∧ 0 < z.instant) ↔
      1970 ≤ z.date.year ∧ 0 < z.instant := by
    have hpos := z.date.month_pos
    have hle := z.date.month_le
    obtain ⟨⟨hyear,hmonth,-⟩,-⟩ := hsaid
    omega
  unfold parseDateEpoch
  rw [if_neg (z.rfcTexts_ne_empty hr), z.parseIso8601_rfcTexts hr, Except.bind_ok, hparse]
  dsimp only
  rw [z.datetimeToEpoch_of_saidBy hsaid, Except.bind_ok]
  split
  · next h => rw [if_pos (hyear.mp h)]; rfl
  · next h => rw [if_neg (mt hyear.mpr h)]; rfl

end ZonedTime

/-- The epoch of a text is the instant if it is in ISO 8601 and its zone is that of UTC, or in RFC
5322, of 1970 or a later year, and after the start of 1970. Else it is not, unless the instant is the
start of 1970. -/
theorem parseDateEpoch_instant_iff (parseRfc822 : String → Option DateTime) (z : ZonedTime) :
    (∀ r ∈ z.isoTexts, parseDateEpoch parseRfc822 r = .ok z.instant ↔ z.offset = 0) ∧
      ∀ r ∈ z.rfcTexts, (∃ dt, parseRfc822 r = some dt ∧ z.SaidBy dt) →
        (parseDateEpoch parseRfc822 r = .ok z.instant ↔
          1970 ≤ z.date.year ∧ 0 < z.instant ∨ z.instant = 0) := by
  constructor
  · intro r hr
    rw [z.isoTexts_epoch parseRfc822 hr]
    refine ⟨fun h => ?_,fun h => by rw [h, add_zero]⟩
    have heq := Except.ok.inj h
    omega
  · rintro r hr ⟨dt,hparse,hsaid⟩
    rw [z.rfcTexts_epoch hr hparse hsaid]
    split
    · next h => exact iff_of_true rfl (Or.inl h)
    · next h =>
      refine ⟨fun h0 => Or.inr (Except.ok.inj h0).symm,fun h0 => ?_⟩
      rw [h0.resolve_left h]

/-- Ten o'clock, an hour ahead of UTC. -/
def tenAhead : ZonedTime :=
  ⟨⟨2024,6,15,by decide,by decide,by decide,by decide⟩,10,0,0,false,1,0,by decide,by decide⟩

/-- What a library makes of the texts of that time. -/
def readTenAhead (r : String) : Option DateTime :=
  if r ∈ tenAhead.rfcTexts then some tenAhead.dateTime else none

theorem parseDateEpoch_tenAhead :
    ∀ r ∈ tenAhead.rfcTexts, parseDateEpoch readTenAhead r = .ok tenAhead.instant := by
  intro r hr
  have hiff := (parseDateEpoch_instant_iff readTenAhead tenAhead).2 r hr
    ⟨_,if_pos hr,tenAhead.saidBy_dateTime⟩
  exact hiff.mpr (Or.inl (by decide))

/-- The same time in ISO 8601 is taken to be an hour later. -/
theorem parseDateEpoch_ignores_zone :
    ¬∀ (parseRfc822 : String → Option DateTime) (z : ZonedTime), ∀ r ∈ z.isoTexts,
      parseDateEpoch parseRfc822 r = .ok z.instant := by
  intro hall
  have hepoch := hall (fun _ => none) tenAhead "2024-06-15T10:00:00+01:00"
    (List.mem_cons.mpr (Or.inl rfl))
  have hlater := tenAhead.isoTexts_epoch (fun _ => none) (List.mem_cons.mpr (Or.inl rfl))
  have hoffset : tenAhead.offset = 3600 := by decide
  have heq := Except.ok.inj (hlater.symm.trans hepoch)
  omega

end Rav
