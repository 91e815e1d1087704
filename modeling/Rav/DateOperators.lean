import Rav.Db.Search
import Rav.Numerals
import Rav.Search.Epochs

/-!
# Date operators

The bounds that `before:`, `after:` and `date:` set. A message from the very start of a date is both
before and after it; a day is taken if it is one of some month; and a month that is written before its
year is taken for its first day.

## Main definitions

- `DateExpr` — the expressions of a date
- `DateExpr.Names`, `DateExpr.Covers` — the days an expression names, and the times in them
- `DateExpr.Meets` — the operators part the times at a date
- `DateExpr.meets_iff` — when they do
-/

namespace Rav

/-- The expressions of a date, by their digits. -/
inductive DateExpr
  | year (y : Numeral)
  | yearMonth (y m : Numeral)
  | yearMonthDay (y m d : Numeral)
  | monthDayYear (m d y : Numeral)
  | monthYear (m y : Numeral)

namespace DateExpr

variable (e : DateExpr)

def chars : DateExpr → List Char
  | .year y => y.chars
  | .yearMonth y m => ['-'].intercalate [y.chars,m.chars]
  | .yearMonthDay y m d => ['-'].intercalate [y.chars,m.chars,d.chars]
  | .monthDayYear m d y => ['/'].intercalate [m.chars,d.chars,y.chars]
  | .monthYear m y => ['/'].intercalate [m.chars,y.chars]

def text : String := String.ofList e.chars

def yearOf : DateExpr → Nat
  | .year y => y.value
  | .yearMonth y _ => y.value
  | .yearMonthDay y _ _ => y.value
  | .monthDayYear _ _ y => y.value
  | .monthYear _ y => y.value

def monthOf : DateExpr → Option Nat
  | .year _ => none
  | .yearMonth _ m => some m.value
  | .yearMonthDay _ m _ => some m.value
  | .monthDayYear m _ _ => some m.value
  | .monthYear m _ => some m.value

def dayOf : DateExpr → Option Nat
  | .year _ => none
  | .yearMonth _ _ => none
  | .yearMonthDay _ _ d => some d.value
  | .monthDayYear _ d _ => some d.value
  | .monthYear _ _ => none

/-- The expression names a day, or a year or month with the day in it. -/
def Names (c : CivilDate) : Prop :=
  c.year = e.yearOf ∧ (∀ m ∈ e.monthOf, c.month = m) ∧ ∀ d ∈ e.dayOf, c.day = d

/-- A time is in one of the days that are named. -/
def Covers (t : Int) : Prop := ∃ c, e.Names c ∧ c.dayNumber = t / 86400

/-- The operators end without a panic, take no day that does not exist, put a message on one side of
every other date, and a date covers what it names. -/
structure Meets (now : Int) (m : CachedMessage) : Prop where
  returns : (∃ r, I64.parseDateStart now e.text = .ok r) ∧ ∃ r, I64.parseDateRange now e.text = .ok r
  rejected : (¬∃ c, e.Names c) →
    I64.parseDateStart now e.text = .ok none ∧ I64.parseDateRange now e.text = .ok none
  parted : ∀ start, I64.parseDateStart now e.text = .ok (some start) →
    Xor ((Filter.dateTo start).condition m = true) ((Filter.dateFrom start).condition m = true)
  covered : ∀ range, I64.parseDateRange now e.text = .ok (some range) →
    ((Filter.dateFrom range.1).condition m = true ∧ (Filter.dateTo range.2).condition m = true ↔
      e.Covers m.dateEpoch)

/-! ### What is read -/

/-- The numbers of an expression that is read. -/
def Read : Prop :=
  (∀ y, e = .year y → y.chars.length = 4) ∧
    (1970 ≤ e.yearOf ∧ e.yearOf ≤ 9223372036854775807) ∧
      (∀ m ∈ e.monthOf, 1 ≤ m ∧ m ≤ 12) ∧ ∀ d ∈ e.dayOf, 1 ≤ d ∧ d ≤ 31

/-- The number of the first day. -/
def first : Int :=
  daysBeforeYear e.yearOf + daysBeforeMonth e.yearOf (e.monthOf.getD 1) + ((e.dayOf.getD 1 : Nat) - 1)

/-- The number of days that are named, and of those that `date:` takes. -/
def length : Nat :=
  match e.monthOf,e.dayOf with
  | none,_ => yearLength e.yearOf
  | some m,none => monthLength e.yearOf m
  | some _,some _ => 1

def taken : DateExpr → Nat
  | .monthYear _ _ => 1
  | e => e.length

/-- The end of what `date:` takes is in range. -/
def Fits : Prop := InI64 ((e.first + e.taken) * 86400)

/-- The day is one of the month. -/
def Exists : Prop := ∀ m ∈ e.monthOf, ∀ d ∈ e.dayOf, d ≤ monthLength e.yearOf m

/-! ### The text -/

theorem chars_plain : ∀ c ∈ e.chars, c.isDigit = true ∨ c = '-' ∨ c = '/' := by
  have hjoined : ∀ (sep : Char) (l : List Numeral), ∀ c ∈ [sep].intercalate (l.map Numeral.chars),
      c.isDigit = true ∨ c = sep := by
    intro sep l c hc
    rcases of_mem_intercalate hc with hsep | ⟨p,hp,hc⟩
    · exact Or.inr (List.mem_singleton.mp hsep)
    · obtain ⟨n,-,rfl⟩ := List.mem_map.mp hp
      exact Or.inl (n.digits c hc)
  intro c hc
  cases e with
  | year y => exact Or.inl (y.digits c hc)
  | yearMonth y m => exact (hjoined '-' [y,m] c hc).imp_right Or.inl
  | yearMonthDay y m d => exact (hjoined '-' [y,m,d] c hc).imp_right Or.inl
  | monthDayYear m d y => exact (hjoined '/' [m,d,y] c hc).imp_right Or.inr
  | monthYear m y => exact (hjoined '/' [m,y] c hc).imp_right Or.inr

theorem toNat_le_of_mem_chars {c : Char} (hc : c ∈ e.chars) : 45 ≤ c.toNat ∧ c.toNat ≤ 57 := by
  rcases e.chars_plain c hc with h | rfl | rfl
  · have hrange := toNat_of_isDigit h
    omega
  · decide
  · decide

/-- The text is not changed by trimming and by lower case. -/
theorem toLowercase_strTrim_text : (toLowercase (strTrim e.text)).toList = e.chars := by
  have hspace : ∀ c ∈ e.chars, isWhitespace c = false := by
    intro c hc
    have hrange := e.toNat_le_of_mem_chars hc
    unfold isWhitespace
    simp only [Bool.or_eq_false_iff, Bool.and_eq_false_iff, decide_eq_false_iff_not]
    omega
  have hlower : ∀ c ∈ e.chars, (if c.toNat = 0x212A then 'k' else c.toLower) = c := by
    intro c hc
    have hrange := e.toNat_le_of_mem_chars hc
    have hupper : ¬(65 ≤ c.toNat ∧ c.toNat ≤ 90) := by omega
    rw [if_neg (by omega)]
    unfold Char.toLower
    exact dif_neg hupper
  rw [text, strTrim_of_ends (fun c hc => hspace c (List.mem_of_mem_head? hc))
    (fun c hc => hspace c (List.mem_of_mem_getLast? hc)), toLowercase, String.toList_ofList,
    String.toList_ofList, List.map_congr_left hlower, List.map_id']

theorem chars_ne {w : String} {c : Char} (hc : c ∈ w.toList) (hletter : 57 < c.toNat) :
    e.chars ≠ w.toList := by
  intro h
  have hrange := e.toNat_le_of_mem_chars (h ▸ hc)
  omega

end DateExpr

/-! ### Numbers that are read -/

section Numbers

variable {y m d : Numeral}

theorem value_lt_of_length (h : y.chars.length = 4) : y.value < 10000 := by
  have hdigits := y.digits
  unfold Numeral.value
  match hchars : y.chars, h with
  | [a,b,c,d], _ =>
    rw [hchars] at hdigits
    simp only [List.forall_mem_cons] at hdigits
    obtain ⟨ha,hb,hc,hd,-⟩ := hdigits
    have ha := toNat_of_isDigit ha
    have hb := toNat_of_isDigit hb
    have hc := toNat_of_isDigit hc
    have hd := toNat_of_isDigit hd
    have hzero : '0'.toNat = 48 := rfl
    simp only [Nat.ofDigitChars_cons, Nat.ofDigitChars_nil, hzero]
    omega

theorem monthOf_of_read (hy : 1970 ≤ y.value ∧ y.value ≤ 9223372036854775807)
    (hm : 1 ≤ m.value ∧ m.value ≤ 12) : I64.monthOf y.chars m.chars =
      some <$> i64 ((daysBeforeYear y.value + daysBeforeMonth y.value m.value) * 86400) := by
  unfold I64.monthOf
  rw [parseI64_numeral, parseI64_numeral, if_pos hy.2, if_pos (by omega)]
  exact I64.monthToEpoch_eq (by omega) hm.1 hm.2

theorem monthOf_of_not (h : ¬((1970 ≤ y.value ∧ y.value ≤ 9223372036854775807) ∧
    1 ≤ m.value ∧ m.value ≤ 12)) : I64.monthOf y.chars m.chars = .ok none := by
  unfold I64.monthOf
  rw [parseI64_numeral, parseI64_numeral]
  by_cases hy : y.value ≤ 9223372036854775807
  · rw [if_pos hy]
    by_cases hm : m.value ≤ 9223372036854775807
    · rw [if_pos hm]
      by_cases hmonth : 1 ≤ m.value ∧ m.value ≤ 12
      · exact I64.monthToEpoch_of_lt (by omega)
      · exact I64.monthToEpoch_of_not (by omega)
    · rw [if_neg hm]
      rfl
  · rw [if_neg hy]
    rfl

theorem dayOf_of_read (hy : 1970 ≤ y.value ∧ y.value ≤ 9223372036854775807)
    (hm : 1 ≤ m.value ∧ m.value ≤ 12) (hd : 1 ≤ d.value ∧ d.value ≤ 31) :
    I64.dayOf y.chars m.chars d.chars = some <$> i64
      ((daysBeforeYear y.value + daysBeforeMonth y.value m.value + (d.value - 1)) * 86400) := by
  unfold I64.dayOf
  rw [parseI64_numeral, parseI64_numeral, parseI64_numeral, if_pos hy.2, if_pos (by omega),
    if_pos (by omega)]
  exact I64.dayToEpoch_eq (by omega) hm.1 hm.2 hd.1 hd.2

theorem dayOf_of_not (h : ¬((1970 ≤ y.value ∧ y.value ≤ 9223372036854775807) ∧
    (1 ≤ m.value ∧ m.value ≤ 12) ∧ 1 ≤ d.value ∧ d.value ≤ 31)) :
    I64.dayOf y.chars m.chars d.chars = .ok none := by
  unfold I64.dayOf
  rw [parseI64_numeral, parseI64_numeral, parseI64_numeral]
  by_cases hy : y.value ≤ 9223372036854775807
  · rw [if_pos hy]
    by_cases hm : m.value ≤ 9223372036854775807
    · rw [if_pos hm]
      by_cases hd : d.value ≤ 9223372036854775807
      · rw [if_pos hd]
        by_cases hday : 1 ≤ d.value ∧ d.value ≤ 31
        · refine I64.dayToEpoch_of_month ?_
          by_cases hmonth : 1 ≤ m.value ∧ m.value ≤ 12
          · exact I64.monthToEpoch_of_lt (by omega)
          · exact I64.monthToEpoch_of_not (by omega)
        · exact I64.dayToEpoch_of_not (by omega)
      · rw [if_neg hd]
        rfl
    · rw [if_neg hm]
      rfl
  · rw [if_neg hy]
    rfl

/-- A year of four digits is far from the end of the range. -/
theorem yearSpan_of_length (hlen : y.chars.length = 4) (hy : 1970 ≤ y.value) :
    I64.yearSpan y.chars =
      .ok (some (daysBeforeYear y.value * 86400,daysBeforeYear (y.value + 1) * 86400 - 1)) := by
  have hvalue := value_lt_of_length hlen
  have hzero : daysBeforeYear 1970 = 0 := by decide
  have hbound : daysBeforeYear 10000 = 2932897 := by decide
  have hstart := daysBeforeYear_mono (show (1970 : Int) ≤ y.value by omega)
  have hmono := daysBeforeYear_mono (show (y.value : Int) ≤ y.value + 1 by omega)
  have hnext := daysBeforeYear_mono (show (y.value + 1 : Int) ≤ 10000 by omega)
  have hfirst : I64.yearToEpoch y.value = .ok (some (daysBeforeYear y.value * 86400)) := by
    rw [I64.yearToEpoch_eq (by omega), i64_of (by omega) (by omega)]
    rfl
  have hlast : I64.yearToEpoch (y.value + 1) = .ok (some (daysBeforeYear (y.value + 1) * 86400)) := by
    rw [I64.yearToEpoch_eq (by omega), i64_of (by omega) (by omega)]
    rfl
  unfold I64.yearSpan
  rw [parseI64_numeral, if_pos (by omega)]
  dsimp only
  rw [hfirst, Except.bind_ok]
  dsimp only
  rw [i64_of (by omega) (by omega), Except.bind_ok, hlast, Except.bind_ok]
  dsimp only
  rw [i64_of (by omega) (by omega)]
  rfl

theorem yearSpan_of_lt (hy : y.value < 1970) :
    I64.yearSpan y.chars = .ok none := by
  unfold I64.yearSpan
  rw [parseI64_numeral, if_pos (by omega)]
  dsimp only
  rw [I64.yearToEpoch_of_lt (by omega)]
  rfl

/-- The month after a month starts where that one ends. -/
theorem nextMonth_spec {y : Int} {m : Nat} (hy : 1970 ≤ y ∧ y < 9223372036854775807)
    (hm : 1 ≤ m ∧ m ≤ 12) : ∃ n, I64.nextMonth y m = .ok n ∧ I64.monthToEpoch n.1 n.2 =
      some <$> i64 ((daysBeforeYear y + daysBeforeMonth y m + monthLength y m) * 86400) := by
  by_cases hlast : m = 12
  · subst hlast
    have hyear : daysBeforeMonth y 12 + monthLength y 12 = yearLength y := by
      rw [← daysBeforeMonth_succ y (by decide), daysBeforeMonth_thirteen]
    have hnext := I64.monthToEpoch_eq (y := y + 1) (m := 1) (by omega) (by decide) (by decide)
    refine ⟨(y + 1,1),?_,hnext.trans ?_⟩
    · unfold I64.nextMonth
      rw [if_pos (by decide), i64_of (by omega) (by omega)]
      rfl
    · rw [daysBeforeYear_succ, daysBeforeMonth_one, ← hyear, Int.natCast_zero, add_zero, Int.natCast_add,
        add_assoc]
  · have hnext := I64.monthToEpoch_eq (y := y) (m := m + 1) hy.1 (by omega) (by omega)
    refine ⟨(y,(m + 1 : Nat)),?_,hnext.trans ?_⟩
    · unfold I64.nextMonth
      rw [if_neg (by omega), i64_of (by omega) (by omega)]
      rfl
    · rw [daysBeforeMonth_succ y hm.1, Int.natCast_add, add_assoc]

/-- A month is read unless its end is out of range. -/
theorem monthSpan_of_read (hy : 1970 ≤ y.value ∧ y.value ≤ 9223372036854775807)
    (hm : 1 ≤ m.value ∧ m.value ≤ 12) : I64.monthSpan y.chars m.chars =
      (fun next => some ((daysBeforeYear y.value + daysBeforeMonth y.value m.value) * 86400,next - 1)) <$>
        i64 ((daysBeforeYear y.value + daysBeforeMonth y.value m.value +
          monthLength y.value m.value) * 86400) := by
  have hzero : daysBeforeYear 1970 = 0 := by decide
  have hpos := daysBeforeYear_mono (show (1970 : Int) ≤ y.value by omega)
  have hlength := monthLength_pos y.value m.value
  have hstart := I64.monthToEpoch_eq (y := y.value) (by omega) hm.1 hm.2
  unfold I64.monthSpan
  rw [parseI64_numeral, parseI64_numeral, if_pos hy.2, if_pos (by omega)]
  dsimp only
  by_cases hin : InI64 ((daysBeforeYear y.value + daysBeforeMonth y.value m.value) * 86400)
  · have hlt : (y.value : Int) < 9223372036854775807 := by
      unfold InI64 daysBeforeYear at hin
      omega
    obtain ⟨n,hn,hnext⟩ := nextMonth_spec (y := y.value) (m := m.value) (by omega) hm
    have hstart : I64.monthToEpoch y.value m.value =
        .ok (some ((daysBeforeYear y.value + daysBeforeMonth y.value m.value) * 86400)) := by
      rw [hstart, i64, if_pos hin]
      rfl
    rw [hstart, Except.bind_ok]
    dsimp only
    rw [hn, Except.bind_ok, hnext]
    by_cases hend : InI64 ((daysBeforeYear y.value + daysBeforeMonth y.value m.value +
        monthLength y.value m.value) * 86400)
    · rw [i64, if_pos hend]
      show (i64 _ >>= _) = _
      rw [i64_of (by omega) (by unfold InI64 at hend; omega)]
      rfl
    · rw [i64_of_not hend]
      rfl
  · have hend : ¬InI64 ((daysBeforeYear y.value + daysBeforeMonth y.value m.value +
        monthLength y.value m.value) * 86400) := by
      unfold InI64 at hin ⊢
      omega
    rw [i64_of_not hin] at hstart
    rw [hstart, i64_of_not hend]
    rfl

theorem monthSpan_of_not (h : ¬((1970 ≤ y.value ∧ y.value ≤ 9223372036854775807) ∧
    1 ≤ m.value ∧ m.value ≤ 12)) : I64.monthSpan y.chars m.chars = .ok none := by
  unfold I64.monthSpan
  rw [parseI64_numeral, parseI64_numeral]
  by_cases hy : y.value ≤ 9223372036854775807
  · rw [if_pos hy]
    by_cases hm : m.value ≤ 9223372036854775807
    · rw [if_pos hm]
      dsimp only
      by_cases hmonth : 1 ≤ m.value ∧ m.value ≤ 12
      · rw [I64.monthToEpoch_of_lt (by omega)]
        rfl
      · rw [I64.monthToEpoch_of_not (by omega)]
        rfl
    · rw [if_neg hm]
      rfl
  · rw [if_neg hy]
    rfl

end Numbers

namespace DateExpr

variable (e : DateExpr)

/-! ### The first day -/

/-- How the expression is read, once it is known which of them it is. -/
def start : DateExpr → Except Panic (Option Int)
  | .year y => if y.chars.length = 4 then I64.yearToEpoch y.value else .ok none
  | .yearMonth y m => I64.monthOf y.chars m.chars
  | .yearMonthDay y m d => I64.dayOf y.chars m.chars d.chars
  | .monthDayYear m d y => I64.dayOf y.chars m.chars d.chars
  | .monthYear m y => I64.monthOf y.chars m.chars

theorem yearOnly_numeral (y : Numeral) : yearOnly y.chars = decide (y.chars.length = 4) := by
  unfold yearOnly
  rw [List.all_eq_true.mpr y.digits, Bool.and_true]

/-- A text with a character that is no digit is not a year. -/
theorem yearOnly_of_mem {s : List Char} {c : Char} (hc : c ∈ s) (hdigit : c.isDigit = false) :
    ¬yearOnly s = true := by
  intro h
  have hall := List.all_eq_true.mp (Bool.and_eq_true_iff.mp h).2 c hc
  exact Bool.false_ne_true (hdigit.symm.trans hall)

theorem isDigit_dash : '-'.isDigit = false := rfl

theorem isDigit_slash : '/'.isDigit = false := rfl

theorem mem_intercalate_cons (sep : Char) (p q : List Char) (l : List (List Char)) :
    sep ∈ [sep].intercalate (p :: q :: l) := by
  rw [List.intercalate_cons_cons]
  simp

theorem not_mem_numeral {c : Char} (hc : c.isDigit = false) (n : Numeral) : c ∉ n.chars :=
  fun h => ne_of_isDigit_of_not (n.digits c h) hc rfl

theorem not_mem_joined {sep c : Char} (hc : c.isDigit = false) (hne : c ≠ sep) (l : List Numeral) :
    c ∉ [sep].intercalate (l.map Numeral.chars) := by
  intro h
  rcases of_mem_intercalate h with hsep | ⟨p,hp,h⟩
  · exact hne (List.mem_singleton.mp hsep)
  · obtain ⟨n,-,rfl⟩ := List.mem_map.mp hp
    exact not_mem_numeral hc n h

theorem splitFuel_joined {sep : Char} (hsep : sep.isDigit = false) {l : List Numeral} (hl : l ≠ [])
    {n : Nat} (hn : l.length ≤ n + 1) :
    splitFuel [sep] n ([sep].intercalate (l.map Numeral.chars)) = l.map Numeral.chars := by
  refine splitFuel_intercalate (mt List.map_eq_nil_iff.mp hl) ?_ n (by rwa [List.length_map])
  intro p hp
  obtain ⟨m,-,rfl⟩ := List.mem_map.mp hp
  exact not_mem_numeral hsep m

theorem splitAll_joined {sep : Char} (hsep : sep.isDigit = false) {l : List Numeral} (hl : l ≠ []) :
    splitAll [sep] ([sep].intercalate (l.map Numeral.chars)) = l.map Numeral.chars := by
  refine splitAll_intercalate (mt List.map_eq_nil_iff.mp hl) ?_
  intro p hp
  obtain ⟨m,-,rfl⟩ := List.mem_map.mp hp
  exact not_mem_numeral hsep m

theorem parseDateStart_text (now : Int) : I64.parseDateStart now e.text = e.start := by
  unfold I64.parseDateStart
  rw [e.toLowercase_strTrim_text]
  dsimp only
  rw [if_neg (e.chars_ne (c := 't') (by decide) (by decide)),
    if_neg (e.chars_ne (c := 'y') (by decide) (by decide)),
    if_neg (e.chars_ne (c := 'l') (by decide) (by decide)),
    if_neg (e.chars_ne (c := 'l') (by decide) (by decide))]
  simp only [List.contains_iff_mem]
  generalize hs : e.chars = s
  cases e with
  | year y =>
    have hs : y.chars = s := hs
    subst hs
    rw [yearOnly_numeral]
    dsimp only [start]
    by_cases hlen : y.chars.length = 4
    · have hvalue := value_lt_of_length hlen
      rw [if_pos (decide_eq_true hlen), if_pos hlen, parseI64_numeral, if_pos (by omega)]
    · rw [if_neg (by simpa using hlen), if_neg hlen, if_neg (not_mem_numeral isDigit_dash y),
        if_neg (not_mem_numeral isDigit_slash y)]
      rfl
  | yearMonth y m =>
    have hs : ['-'].intercalate ([y,m].map Numeral.chars) = s := hs
    have hmem : '-' ∈ s := hs ▸ mem_intercalate_cons '-' y.chars m.chars []
    rw [if_neg (yearOnly_of_mem hmem isDigit_dash), if_pos hmem, ← hs,
      splitFuel_joined isDigit_dash (List.cons_ne_nil _ _) (by simp)]
    rfl
  | yearMonthDay y m d =>
    have hs : ['-'].intercalate ([y,m,d].map Numeral.chars) = s := hs
    have hmem : '-' ∈ s := hs ▸ mem_intercalate_cons '-' y.chars m.chars [d.chars]
    rw [if_neg (yearOnly_of_mem hmem isDigit_dash), if_pos hmem, ← hs,
      splitFuel_joined isDigit_dash (List.cons_ne_nil _ _) (by simp)]
    rfl
  | monthDayYear m d y =>
    have hs : ['/'].intercalate ([m,d,y].map Numeral.chars) = s := hs
    have hmem : '/' ∈ s := hs ▸ mem_intercalate_cons '/' m.chars d.chars [y.chars]
    have hnot : '-' ∉ s := hs ▸ not_mem_joined isDigit_dash (by decide) [m,d,y]
    rw [if_neg (yearOnly_of_mem hmem isDigit_slash), if_neg hnot, if_pos hmem, ← hs,
      splitAll_joined isDigit_slash (List.cons_ne_nil _ _)]
    rfl
  | monthYear m y =>
    have hs : ['/'].intercalate ([m,y].map Numeral.chars) = s := hs
    have hmem : '/' ∈ s := hs ▸ mem_intercalate_cons '/' m.chars y.chars []
    have hnot : '-' ∉ s := hs ▸ not_mem_joined isDigit_dash (by decide) [m,y]
    rw [if_neg (yearOnly_of_mem hmem isDigit_slash), if_neg hnot, if_pos hmem, ← hs,
      splitAll_joined isDigit_slash (List.cons_ne_nil _ _)]
    rfl

theorem start_of_read (h : e.Read) : e.start = some <$> i64 (e.first * 86400) := by
  obtain ⟨hlen,hy,hm,hd⟩ := h
  cases e with
  | year y =>
    have hfirst : (year y).first = daysBeforeYear y.value := by
      simp [first, yearOf, monthOf, dayOf, daysBeforeMonth_one]
    have hyear : (1970 : Int) ≤ y.value := Int.ofNat_le.mpr hy.1
    rw [start, if_pos (hlen y rfl), I64.yearToEpoch_eq hyear, hfirst]
  | yearMonth y m =>
    rw [start, monthOf_of_read hy (hm _ rfl)]
    simp [first, yearOf, monthOf, dayOf]
  | yearMonthDay y m d =>
    rw [start, dayOf_of_read hy (hm _ rfl) (hd _ rfl)]
    rfl
  | monthDayYear m d y =>
    rw [start, dayOf_of_read hy (hm _ rfl) (hd _ rfl)]
    rfl
  | monthYear m y =>
    rw [start, monthOf_of_read hy (hm _ rfl)]
    simp [first, yearOf, monthOf, dayOf]

theorem start_of_not (h : ¬e.Read) : e.start = .ok none := by
  cases e with
  | year y =>
    rw [start]
    split
    · next hlen =>
      have hvalue := value_lt_of_length hlen
      refine I64.yearToEpoch_of_lt ?_
      by_contra hyear
      refine h ⟨?_,⟨?_,?_⟩,nofun,nofun⟩
      · rintro _ ⟨⟩
        exact hlen
      · exact Int.ofNat_le.mp (not_lt.mp hyear)
      · exact (show y.value ≤ _ by omega)
    · rfl
  | yearMonth y m =>
    refine monthOf_of_not fun hread => h ⟨nofun,hread.1,?_,nofun⟩
    rintro _ ⟨⟩
    exact hread.2
  | yearMonthDay y m d =>
    refine dayOf_of_not fun hread => h ⟨nofun,hread.1,?_,?_⟩
    · rintro _ ⟨⟩
      exact hread.2.1
    · rintro _ ⟨⟩
      exact hread.2.2
  | monthDayYear m d y =>
    refine dayOf_of_not fun hread => h ⟨nofun,hread.1,?_,?_⟩
    · rintro _ ⟨⟩
      exact hread.2.1
    · rintro _ ⟨⟩
      exact hread.2.2
  | monthYear m y =>
    refine monthOf_of_not fun hread => h ⟨nofun,hread.1,?_,nofun⟩
    rintro _ ⟨⟩
    exact hread.2

theorem first_nonneg (h : e.Read) : 0 ≤ e.first := by
  have hyear := daysBeforeYear_mono (Int.ofNat_le.mpr h.2.1.1)
  have hzero : daysBeforeYear (1970 : Nat) = 0 := by decide
  have hday : ∀ d ∈ e.dayOf, 1 ≤ d := fun d hd => (h.2.2.2 d hd).1
  have hday : 1 ≤ e.dayOf.getD 1 := by
    cases hd : e.dayOf with
    | none => exact Nat.le_refl 1
    | some d => exact hday d hd
  unfold first
  omega

/-- A day, or what is read as its first day. -/
theorem dayRange_of_read (h : e.Read) (now : Int) : I64.dayRange now e.text =
    (fun next => some (e.first * 86400,next - 1)) <$> i64 ((e.first + 1) * 86400) := by
  have hfirst := e.first_nonneg h
  unfold I64.dayRange
  rw [e.parseDateStart_text now, e.start_of_read h, Int.add_mul, one_mul]
  by_cases hin : InI64 (e.first * 86400)
  · rw [i64, if_pos hin]
    show (i64 (e.first * 86400 + 86400) >>= fun n => i64 (n - 1) >>= fun n =>
      .ok (some (e.first * 86400,n))) = _
    by_cases hnext : InI64 (e.first * 86400 + 86400)
    · rw [i64, if_pos hnext, Except.bind_ok, i64_of (by omega) (by unfold InI64 at hnext; omega)]
      rfl
    · rw [i64_of_not hnext]
      rfl
  · have hnext : ¬InI64 (e.first * 86400 + 86400) := by
      unfold InI64 at hin ⊢
      omega
    rw [i64_of_not hin, i64_of_not hnext]
    rfl

theorem dayRange_of_not (h : ¬e.Read) (now : Int) : I64.dayRange now e.text = .ok none := by
  unfold I64.dayRange
  rw [e.parseDateStart_text now, e.start_of_not h]
  rfl

/-- Only years, and months after them, are read as more than a day. -/
theorem parseDateRange_day (hyear : ∀ y, e = .year y → y.chars.length ≠ 4) (hmonth : ∀ y m, e ≠ .yearMonth y m) (now : Int) :
    I64.parseDateRange now e.text = I64.dayRange now e.text := by
  unfold I64.parseDateRange
  rw [e.toLowercase_strTrim_text]
  simp only [List.contains_iff_mem]
  generalize hs : e.chars = s
  cases e with
  | year y =>
    have hs : y.chars = s := hs
    subst hs
    have hlen : ¬yearOnly y.chars = true := by
      rw [yearOnly_numeral, decide_eq_true_eq]
      exact hyear y rfl
    rw [if_neg hlen, if_neg (not_mem_numeral isDigit_dash y)]
  | yearMonth y m => exact absurd rfl (hmonth y m)
  | yearMonthDay y m d =>
    have hs : ['-'].intercalate ([y,m,d].map Numeral.chars) = s := hs
    have hmem : '-' ∈ s := hs ▸ mem_intercalate_cons '-' y.chars m.chars [d.chars]
    rw [if_neg (yearOnly_of_mem hmem isDigit_dash), if_pos hmem, ← hs,
      splitFuel_joined isDigit_dash (List.cons_ne_nil _ _) (by simp)]
    rfl
  | monthDayYear m d y =>
    have hs : ['/'].intercalate ([m,d,y].map Numeral.chars) = s := hs
    have hmem : '/' ∈ s := hs ▸ mem_intercalate_cons '/' m.chars d.chars [y.chars]
    have hnot : '-' ∉ s := hs ▸ not_mem_joined isDigit_dash (by decide) [m,d,y]
    rw [if_neg (yearOnly_of_mem hmem isDigit_slash), if_neg hnot]
  | monthYear m y =>
    have hs : ['/'].intercalate ([m,y].map Numeral.chars) = s := hs
    have hmem : '/' ∈ s := hs ▸ mem_intercalate_cons '/' m.chars y.chars []
    have hnot : '-' ∉ s := hs ▸ not_mem_joined isDigit_dash (by decide) [m,y]
    rw [if_neg (yearOnly_of_mem hmem isDigit_slash), if_neg hnot]

/-- The text of a year, and of a month after its year. -/
theorem parseDateRange_year {y : Numeral} (hlen : y.chars.length = 4) (now : Int) :
    I64.parseDateRange now (year y).text = I64.yearSpan y.chars := by
  unfold I64.parseDateRange
  rw [toLowercase_strTrim_text]
  exact if_pos ((yearOnly_numeral y).trans (decide_eq_true hlen))

theorem parseDateRange_month (y m : Numeral) (now : Int) :
    I64.parseDateRange now (yearMonth y m).text = I64.monthSpan y.chars m.chars := by
  unfold I64.parseDateRange
  rw [toLowercase_strTrim_text]
  simp only [List.contains_iff_mem]
  generalize hs : (yearMonth y m).chars = s
  have hs : ['-'].intercalate ([y,m].map Numeral.chars) = s := hs
  have hmem : '-' ∈ s := hs ▸ mem_intercalate_cons '-' y.chars m.chars []
  rw [if_neg (yearOnly_of_mem hmem isDigit_dash), if_pos hmem, ← hs,
    splitFuel_joined isDigit_dash (List.cons_ne_nil _ _) (by simp)]
  rfl

theorem parseDateRange_of_read (h : e.Read) (now : Int) : I64.parseDateRange now e.text =
    (fun next => some (e.first * 86400,next - 1)) <$> i64 ((e.first + e.taken) * 86400) := by
  cases e with
  | year y =>
    have hlen := h.1 y rfl
    have hvalue := value_lt_of_length hlen
    have hfirst : (year y).first = daysBeforeYear y.value := by
      simp [first, yearOf, monthOf, dayOf, daysBeforeMonth_one]
    have hend : (year y).first + (year y).taken = daysBeforeYear (y.value + 1) := by
      rw [hfirst, daysBeforeYear_succ]
      rfl
    have hbound := daysBeforeYear_mono (show (y.value + 1 : Int) ≤ 10000 by omega)
    have hmax : daysBeforeYear 10000 = 2932897 := by decide
    have hnonneg := first_nonneg _ h
    rw [parseDateRange_year hlen, yearSpan_of_length hlen h.2.1.1, i64_of (by omega) (by omega), hend,
      hfirst]
    rfl
  | yearMonth y m =>
    have hfirst : (yearMonth y m).first = daysBeforeYear y.value + daysBeforeMonth y.value m.value := by
      simp [first, yearOf, monthOf, dayOf]
    rw [parseDateRange_month, monthSpan_of_read h.2.1 (h.2.2.1 _ rfl), hfirst]
    rfl
  | yearMonthDay y m d =>
    rw [parseDateRange_day _ (by simp) (by simp), dayRange_of_read _ h]
    rfl
  | monthDayYear m d y =>
    rw [parseDateRange_day _ (by simp) (by simp), dayRange_of_read _ h]
    rfl
  | monthYear m y =>
    rw [parseDateRange_day _ (by simp) (by simp), dayRange_of_read _ h]
    rfl

theorem parseDateRange_of_not (h : ¬e.Read) (now : Int) : I64.parseDateRange now e.text = .ok none := by
  cases e with
  | year y =>
    by_cases hlen : y.chars.length = 4
    · have hvalue := value_lt_of_length hlen
      have hyear : y.value < 1970 := by
        by_contra hyear
        refine h ⟨?_,⟨not_lt.mp hyear,?_⟩,nofun,nofun⟩
        · rintro _ ⟨⟩
          exact hlen
        · exact (show y.value ≤ _ by omega)
      rw [parseDateRange_year hlen, yearSpan_of_lt hyear]
    · rw [parseDateRange_day _ ?_ (by simp), dayRange_of_not _ h]
      rintro _ ⟨⟩
      exact hlen
  | yearMonth y m =>
    rw [parseDateRange_month]
    refine monthSpan_of_not fun hread => h ⟨nofun,hread.1,?_,nofun⟩
    rintro _ ⟨⟩
    exact hread.2
  | yearMonthDay y m d =>
    rw [parseDateRange_day _ (by simp) (by simp), dayRange_of_not _ h]
  | monthDayYear m d y =>
    rw [parseDateRange_day _ (by simp) (by simp), dayRange_of_not _ h]
  | monthYear m y =>
    rw [parseDateRange_day _ (by simp) (by simp), dayRange_of_not _ h]

/-! ### The days that are named -/

/-- A year, a month or a day is named. -/
theorem fields_cases : e.monthOf = none ∧ e.dayOf = none ∨
    (∃ m, e.monthOf = some m ∧ e.dayOf = none) ∨ ∃ m d, e.monthOf = some m ∧ e.dayOf = some d := by
  cases e with
  | year y => exact Or.inl ⟨rfl,rfl⟩
  | yearMonth y m => exact Or.inr (Or.inl ⟨_,rfl,rfl⟩)
  | yearMonthDay y m d => exact Or.inr (Or.inr ⟨_,_,rfl,rfl⟩)
  | monthDayYear m d y => exact Or.inr (Or.inr ⟨_,_,rfl,rfl⟩)
  | monthYear m y => exact Or.inr (Or.inl ⟨_,rfl,rfl⟩)

/-- The days that are named follow on each other, if there are any. -/
theorem covers_iff (h : e.Read) (t : Int) :
    e.Covers t ↔ e.Exists ∧ e.first ≤ t / 86400 ∧ t / 86400 < e.first + e.length := by
  obtain ⟨-,-,hmonth,hday⟩ := h
  unfold Covers Names Exists first length
  rcases e.fields_cases with ⟨hm,hd⟩ | ⟨m,hm,hd⟩ | ⟨m,d,hm,hd⟩
  · have hyear := CivilDate.exists_year_iff (y := e.yearOf) (k := t / 86400)
    simpa [hm, hd, daysBeforeMonth_one] using hyear
  · have hmonth := CivilDate.exists_month_iff (y := e.yearOf) (k := t / 86400) (hmonth m hm)
    simpa [hm, hd, and_assoc] using hmonth
  · have hday := CivilDate.exists_day_iff (y := e.yearOf) (k := t / 86400) (hmonth m hm) (hday d hd).1
    have hone : ∀ {a b : Int}, a ≤ b ∧ b < a + 1 ↔ b = a := by omega
    simp only [hm, hd, Option.mem_def, Option.some.injEq, forall_eq', Option.getD_some, hone,
      Int.natCast_one]
    simpa [and_assoc] using hday

theorem length_pos : 0 < e.length := by
  unfold length
  rcases e.fields_cases with ⟨hm,hd⟩ | ⟨m,hm,hd⟩ | ⟨m,d,hm,hd⟩
  · simp only [hm, hd]
    exact yearLength_pos _
  · simp only [hm, hd]
    exact monthLength_pos _ _
  · simp only [hm, hd]
    exact Nat.one_pos

theorem names_iff (h : e.Read) : (∃ c, e.Names c) ↔ e.Exists := by
  constructor
  · rintro ⟨c,hc⟩
    refine ((e.covers_iff h (c.dayNumber * 86400)).mp ⟨c,hc,?_⟩).1
    exact (Int.mul_ediv_cancel _ (by decide)).symm
  · intro hexists
    have hpos := e.length_pos
    obtain ⟨c,hc,-⟩ := (e.covers_iff h (e.first * 86400)).mpr ⟨hexists,by omega,by omega⟩
    exact ⟨c,hc⟩

/-- What `date:` takes is what is named, or its first day. -/
theorem taken_cases : e.taken = e.length ∧ (∀ m y, e ≠ .monthYear m y) ∨
    e.taken = 1 ∧ ∃ m y, e = .monthYear m y := by
  cases e with
  | monthYear m y => exact Or.inr ⟨rfl,m,y,rfl⟩
  | _ => exact Or.inl ⟨rfl,by simp⟩

/-- An expression that is not read is asked nothing of. -/
theorem meets_of_not (h : ¬e.Read) (now : Int) (m : CachedMessage) : e.Meets now m where
  returns := ⟨⟨_,(e.parseDateStart_text now).trans (e.start_of_not h)⟩,_,e.parseDateRange_of_not h now⟩
  rejected := fun _ => ⟨(e.parseDateStart_text now).trans (e.start_of_not h),e.parseDateRange_of_not h now⟩
  parted := by
    intro start hstart
    rw [e.parseDateStart_text now, e.start_of_not h] at hstart
    exact absurd (Except.ok.inj hstart) nofun
  covered := by
    intro range hrange
    rw [e.parseDateRange_of_not h now] at hrange
    exact absurd (Except.ok.inj hrange) nofun

/-- The bounds of an expression that is read. -/
theorem parted_iff {start : Int} {m : CachedMessage} :
    Xor ((Filter.dateTo start).condition m = true) ((Filter.dateFrom start).condition m = true) ↔
      m.dateEpoch ≠ start := by
  unfold Filter.condition Xor
  simp only [decide_eq_true_eq]
  omega

theorem covered_iff {a b : Int} {m : CachedMessage} :
    ((Filter.dateFrom (a * 86400)).condition m = true ∧ (Filter.dateTo (b * 86400 - 1)).condition m = true) ↔
      a ≤ m.dateEpoch / 86400 ∧ m.dateEpoch / 86400 < b := by
  unfold Filter.condition
  simp only [decide_eq_true_eq]
  omega

theorem taken_pos : 0 < e.taken ∧ e.taken ≤ e.length := by
  have hlength := e.length_pos
  rcases e.taken_cases with ⟨htaken,-⟩ | ⟨htaken,-⟩
  · omega
  · omega

/-- The bounds of an expression that is read and in range. -/
theorem bounds_of_fits (h : e.Read) (hfits : e.Fits) (now : Int) :
    I64.parseDateStart now e.text = .ok (some (e.first * 86400)) ∧
      I64.parseDateRange now e.text = .ok (some (e.first * 86400,(e.first + e.taken) * 86400 - 1)) := by
  have hnonneg := e.first_nonneg h
  have htaken := e.taken_pos.1
  have hstart : InI64 (e.first * 86400) := by
    unfold Fits InI64 at hfits
    unfold InI64
    omega
  rw [e.parseDateStart_text now, e.start_of_read h, e.parseDateRange_of_read h now,
    i64_of hstart.1 hstart.2, i64_of hfits.1 hfits.2]
  exact ⟨rfl,rfl⟩

/-- The times that `date:` takes are those that are named, unless the month is written before its
year: then they are those of its first day. -/
theorem taken_iff (h : e.Read) (hexists : e.Exists) (t : Int) :
    (e.first ≤ t / 86400 ∧ t / 86400 < e.first + e.taken ↔ e.Covers t) ↔
      ((∃ m y, e = .monthYear m y) → e.Covers t → t / 86400 = e.first) := by
  have hcovers := e.covers_iff h t
  have htaken := e.taken_pos
  rcases e.taken_cases with ⟨hlength,hne⟩ | ⟨hone,heq⟩
  · refine iff_of_true ?_ fun ⟨m,y,he⟩ => absurd he (hne m y)
    rw [hcovers, hlength]
    exact (and_iff_right hexists).symm
  · constructor
    · intro htakes _ hcov
      have hlt := htakes.mpr hcov
      omega
    · intro hfirst
      refine ⟨fun hlt => hcovers.mpr ⟨hexists,by omega⟩,fun hcov => ?_⟩
      have hday := hfirst heq hcov
      omega

/-- The operators part the times at an expression that is read if it is in range and names a day, and
the time is not the very start, and is not that of a later day of a month that is written before its
year. -/
theorem meets_iff (now : Int) (m : CachedMessage) :
    e.Meets now m ↔ (e.Read → e.Fits ∧ e.Exists ∧ m.dateEpoch ≠ e.first * 86400 ∧
      ((∃ mo y, e = .monthYear mo y) → e.Covers m.dateEpoch → m.dateEpoch / 86400 = e.first)) := by
  constructor
  · intro hmeets h
    have hfits : e.Fits := by
      obtain ⟨r,hr⟩ := hmeets.returns.2
      by_contra hfits
      rw [e.parseDateRange_of_read h now, i64_of_not hfits] at hr
      exact absurd hr nofun
    obtain ⟨hstart,hrange⟩ := e.bounds_of_fits h hfits now
    have hexists : e.Exists := by
      by_contra hexists
      have hnone := (hmeets.rejected (mt (e.names_iff h).mp hexists)).1
      exact absurd (Except.ok.inj (hstart.symm.trans hnone)) nofun
    have hcovered := hmeets.covered _ hrange
    rw [covered_iff] at hcovered
    exact ⟨hfits,hexists,parted_iff.mp (hmeets.parted _ hstart),
      (e.taken_iff h hexists m.dateEpoch).mp hcovered⟩
  · intro hcond
    by_cases h : e.Read
    · obtain ⟨hfits,hexists,hne,hmonth⟩ := hcond h
      obtain ⟨hstart,hrange⟩ := e.bounds_of_fits h hfits now
      refine ⟨⟨⟨_,hstart⟩,_,hrange⟩,fun hnames => absurd ((e.names_iff h).mpr hexists) hnames,?_,?_⟩
      · intro start hs
        obtain rfl := Option.some.inj (Except.ok.inj (hstart.symm.trans hs))
        exact parted_iff.mpr hne
      · intro range hr
        obtain rfl := Option.some.inj (Except.ok.inj (hrange.symm.trans hr))
        rw [covered_iff]
        exact (e.taken_iff h hexists m.dateEpoch).mpr hmonth
    · exact e.meets_of_not h now m

end DateExpr

/-! ### The start of a date -/

/-- A message of the first second of 2024. -/
def newYearRow : CachedMessage :=
  ⟨1,"INBOX",none,none,none,"","","","[]","[]","","",0,false,"",none,1704067200,none,none,⟨1,0⟩⟩

/-- It is both before and after the year. -/
theorem before_and_after_year :
    ¬∀ (e : DateExpr) (now : Int) (m : CachedMessage), e.Meets now m := by
  intro hall
  have hmeets := hall (.year ⟨"2024".toList,by decide,forall_mem_of_all (by decide)⟩) 0 newYearRow
  have hparted := hmeets.parted 1704067200 (by decide +kernel)
  exact absurd hparted (by decide)

end Rav
