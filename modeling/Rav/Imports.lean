import Rav.Calendar.Ics
import Rav.Numerals

/-!
# Importing a calendar twice

What importing an iCalendar text comes to. A time is cut by bytes, and the request panics if a cut is
within a character. An event is all-day by its value as it is written, but its start is read without the
white space around it. An event without a `UID` is created anew by every import.

## Main definitions

- `CleanTime` — a value that is cut between characters
- `lastValue` — the value of a property that counts
- `parseCalendars_spec` — the events of a text
- `CalendarWorld.Healthy` — a calendar none of whose statements fails
- `importsCleanly_iff` — when a text is imported as it should be
-/

namespace Rav.Ics

/-! ### Times -/

/-- The offsets a time is cut at. -/
def cutOffsets : List Nat := [4, 6, 8, 9, 11, 13, 15]

/-- A value that is not taken for a time, or is cut between characters. -/
def CleanTime (value : String) : Prop :=
  isBasicDate (strTrim value).toList = true ∨
    (15 ≤ byteLength (strTrim value).toList ∧ 'T' ∈ (strTrim value).toList →
      ∀ i ∈ cutOffsets, IsCharBoundary i (strTrim value).toList)

theorem length_of_isBasicDate {v : List Char} (h : isBasicDate v = true) :
    v.length = 8 ∧ ∀ c ∈ v, c.isDigit = true := by
  obtain ⟨hlength, hdigits⟩ := Bool.and_eq_true_iff.mp h
  have hdigits := List.all_eq_true.mp hdigits
  rw [decide_eq_true_eq, byteLength_of_ascii fun c hc => utf8Size_of_isDigit (hdigits c hc)] at hlength
  exact ⟨hlength, hdigits⟩

theorem isoDay_returns_iff {date : List Char} (h : byteLength date = 8) :
    (∃ day, isoDay date = .ok day) ↔ IsCharBoundary 4 date ∧ IsCharBoundary 6 date := by
  have hend : IsCharBoundary 8 date := h ▸ isCharBoundary_byteLength date
  unfold isoDay
  rw [returns_bind fun year _ => returns_bind fun month _ => returns_bind fun day _ => returns_pure _,
    exists_byteSlice_iff (by decide), exists_byteSlice_iff (by decide), exists_byteSlice_iff (by decide)]
  have hstart := isCharBoundary_zero date
  tauto

theorem isoClock_returns_iff {time : List Char} (h : 6 ≤ byteLength time) :
    (∃ clock, isoClock time = .ok clock) ↔
      IsCharBoundary 2 time ∧ IsCharBoundary 4 time ∧ IsCharBoundary 6 time := by
  unfold isoClock isoSeconds
  rw [returns_bind fun hour _ => returns_bind fun min _ => returns_bind fun sec _ => returns_pure _, if_pos h,
    exists_byteSlice_iff (by decide), exists_byteSlice_iff (by decide), exists_byteSlice_iff (by decide)]
  have hstart := isCharBoundary_zero time
  tauto

/-- A value is read if it is cut between characters. -/
theorem parseIcalDatetime_returns_iff {value : String} :
    (∃ t, parseIcalDatetime value = .ok t) ↔ CleanTime value := by
  unfold parseIcalDatetime CleanTime
  generalize (strTrim value).toList = v
  dsimp only
  by_cases hbasic : isBasicDate v = true
  · rw [if_pos hbasic]
    obtain ⟨hlength, hdigits⟩ := length_of_isBasicDate hbasic
    have hbytes := byteLength_of_ascii fun c hc => utf8Size_of_isDigit (hdigits c hc)
    have hboundary : ∀ i ≤ 8, IsCharBoundary i v := by
      intro i hi
      refine ⟨v.take i, v.drop i, (List.take_append_drop i v).symm, ?_⟩
      rw [byteLength_of_ascii fun c hc => utf8Size_of_isDigit (hdigits c (List.mem_of_mem_take hc)), List.length_take]
      omega
    obtain ⟨day, hday⟩ := (isoDay_returns_iff (hbytes.trans hlength)).mpr
      ⟨hboundary 4 (by decide), hboundary 6 (by decide)⟩
    rw [hday]
    exact iff_of_true ⟨_, rfl⟩ (.inl hbasic)
  rw [if_neg hbasic, or_iff_right hbasic]
  by_cases htime : 15 ≤ byteLength v ∧ 'T' ∈ v
  · rw [if_pos htime, forall_prop_of_true htime]
    obtain ⟨hlength, -⟩ := htime
    have hdate : ∀ d, byteSlice 0 8 v = .ok d →
        ((∃ day, isoDay d = .ok day) ↔ IsCharBoundary 4 v ∧ IsCharBoundary 6 v) := by
      intro d hd
      obtain ⟨p, t, rfl, hp, hpd⟩ := (byteSlice_eq_ok (by decide)).mp hd
      obtain rfl := byteLength_eq_zero.mp hp
      rw [List.nil_append] at hpd ⊢
      rw [isoDay_returns_iff hpd, isCharBoundary_append_left (by omega), isCharBoundary_append_left (by omega)]
    have hclock : ∀ r, dropBytes 9 v = .ok r → ((∃ clock, isoClock r = .ok clock) ↔
        IsCharBoundary 11 v ∧ IsCharBoundary 13 v ∧ IsCharBoundary 15 v) := by
      intro r hr
      obtain ⟨p, rfl, hp⟩ := dropBytes_eq_ok.mp hr
      have hboundary : ∀ i, IsCharBoundary (9 + i) (p ++ r) ↔ IsCharBoundary i r := fun i =>
        hp ▸ isCharBoundary_append_right
      rw [byteLength_append] at hlength
      rw [isoClock_returns_iff (by omega), ← hboundary 2, ← hboundary 4, ← hboundary 6]
    have hdrop : (∃ r, dropBytes 9 v = .ok r) ↔ IsCharBoundary 9 v := by
      constructor
      · rintro ⟨r, hr⟩
        obtain ⟨p, heq, hp⟩ := dropBytes_eq_ok.mp hr
        exact ⟨p, r, heq, hp⟩
      · rintro ⟨p, r, heq, hp⟩
        exact ⟨r, dropBytes_eq_ok.mpr ⟨p, heq, hp⟩⟩
    have hparts : ∀ (d r : List Char) (finish : List Char → List Char → String), byteSlice 0 8 v = .ok d →
        dropBytes 9 v = .ok r → ((∃ t, (isoDay d >>= fun day => isoClock r >>= fun clock =>
          pure (finish day clock)) = .ok t) ↔ (IsCharBoundary 4 v ∧ IsCharBoundary 6 v) ∧
            IsCharBoundary 11 v ∧ IsCharBoundary 13 v ∧ IsCharBoundary 15 v) := by
      intro d r finish hd hr
      rw [returns_bind fun day _ => returns_bind fun clock _ => returns_pure _, hdate d hd, hclock r hr, and_true]
    have hstart := isCharBoundary_zero v
    rw [returns_bind fun d hd => returns_bind fun r hr => hparts d r _ hd hr, exists_byteSlice_iff (by decide), hdrop]
    simp only [cutOffsets, List.forall_mem_cons]
    tauto
  · rw [if_neg htime]
    exact iff_of_true ⟨_, rfl⟩ fun h => absurd h htime

/-! ### Dates -/

/-- A date without a time, as events have it. -/
def isIsoDate (s : List Char) : Bool :=
  match s with
  | [a, b, c, d, '-', e, f, '-', g, h] => [a, b, c, d, e, f, g, h].all Char.isDigit
  | _ => false

/-- A value that is a date, in either way of writing, is taken for one by the check of the value. -/
def DateAsWritten (value : String) : Prop :=
  isBasicDate (strTrim value).toList = true ∨ isIsoDate (strTrim value).toList = true → isDateOnly value = true

theorem chars_of_isIsoDate {s : List Char} (h : isIsoDate s = true) : ∀ c ∈ s, c.isDigit = true ∨ c = '-' := by
  unfold isIsoDate at h
  split at h
  · next a b c d e f g i =>
    have hdigits := List.all_eq_true.mp h
    intro j hj
    by_cases hdash : j = '-'
    · exact Or.inr hdash
    · simp only [List.mem_cons, List.not_mem_nil, or_false, hdash, false_or] at hj
      refine Or.inl (hdigits j ?_)
      simp only [List.mem_cons, List.not_mem_nil, or_false]
      exact hj
  · exact absurd h Bool.false_ne_true

theorem not_isIsoDate_of_mem {s : List Char} (h : 'T' ∈ s) : isIsoDate s = false := by
  refine Bool.eq_false_iff.mpr fun hdate => ?_
  obtain hdigit | heq := chars_of_isIsoDate hdate 'T' h
  · exact absurd hdigit (by decide)
  · exact absurd heq (by decide)

/-- The date that eight digits become. -/
theorem isoDay_of_isBasicDate {v day : List Char} (h : isBasicDate v = true) (hday : isoDay v = .ok day) :
    isIsoDate day = true := by
  obtain ⟨hlength, hdigits⟩ := length_of_isBasicDate h
  have hslice : ∀ i j, i ≤ j → j ≤ 8 → byteSlice i j v = .ok ((v.take j).drop i) := by
    intro i j hij hj
    have hcut := byteSlice_of_ascii (t := []) (fun c hc => utf8Size_of_isDigit (hdigits c hc)) hij (hlength ▸ hj)
    rwa [List.append_nil] at hcut
  unfold isoDay at hday
  rw [hslice 0 4 (by decide) (by decide), hslice 4 6 (by decide) (by decide), hslice 6 8 (by decide) (by decide),
    Except.bind_ok, Except.bind_ok, Except.bind_ok] at hday
  obtain rfl := Except.ok.inj hday
  obtain ⟨a, b, c, d, e, f, g, i, rfl⟩ : ∃ a b c d e f g i, v = [a, b, c, d, e, f, g, i] := by
    match v, hlength with
    | [a, b, c, d, e, f, g, i], _ => exact ⟨a, b, c, d, e, f, g, i, rfl⟩
  exact List.all_eq_true.mpr hdigits

/-- What a value is read as: a date, a text with a `T` for one with a `T`, or the value itself. -/
theorem parseIcalDatetime_cases {value t : String} (h : parseIcalDatetime value = .ok t) :
    isBasicDate (strTrim value).toList = true ∧ isIsoDate t.toList = true ∨
      isBasicDate (strTrim value).toList = false ∧
        ('T' ∈ (strTrim value).toList ∧ 'T' ∈ t.toList ∨ t.toList = (strTrim value).toList) := by
  unfold parseIcalDatetime at h
  generalize (strTrim value).toList = v at h ⊢
  dsimp only at h
  cases hbasic : isBasicDate v with
  | true =>
    rw [if_pos hbasic] at h
    cases hday : isoDay v with
    | error e =>
      rw [hday] at h
      cases h
    | ok day =>
      rw [hday] at h
      obtain rfl := Except.ok.inj h
      rw [String.toList_ofList]
      exact .inl ⟨rfl, isoDay_of_isBasicDate hbasic hday⟩
  | false =>
    rw [hbasic, if_neg Bool.false_ne_true] at h
    refine .inr ⟨rfl, ?_⟩
    by_cases htime : 15 ≤ byteLength v ∧ 'T' ∈ v
    · rw [if_pos htime] at h
      obtain ⟨d, -, h⟩ := except_bind_eq_ok.mp h
      obtain ⟨r, -, h⟩ := except_bind_eq_ok.mp h
      obtain ⟨day, -, h⟩ := except_bind_eq_ok.mp h
      obtain ⟨clock, -, h⟩ := except_bind_eq_ok.mp h
      obtain rfl := Except.ok.inj h
      rw [String.toList_ofList]
      exact .inl ⟨htime.2, List.mem_append_right day List.mem_cons_self⟩
    · rw [if_neg htime] at h
      obtain rfl := Except.ok.inj h
      rw [String.toList_ofList]
      exact .inr rfl

/-- The start that is read of a value is a date if the value is one, but for white space around it. -/
theorem isIsoDate_parsed {value t : String} (h : parseIcalDatetime value = .ok t) :
    isIsoDate t.toList = true ↔
      isBasicDate (strTrim value).toList = true ∨ isIsoDate (strTrim value).toList = true := by
  obtain ⟨hbasic, hdate⟩ | ⟨hbasic, ⟨hvalue, ht⟩ | heq⟩ := parseIcalDatetime_cases h
  · exact iff_of_true hdate (.inl hbasic)
  · rw [hbasic, not_isIsoDate_of_mem hvalue, not_isIsoDate_of_mem ht]
    decide
  · rw [hbasic, heq]
    exact (or_iff_right Bool.false_ne_true).symm

theorem strTrim_of_isDateOnly {value : String} (h : isDateOnly value = true) : strTrim value = value := by
  obtain ⟨-, hdigits⟩ := length_of_isBasicDate h
  have hends := strTrim_of_ends (s := value.toList)
    (fun c hc => isWhitespace_of_isDigit (hdigits c (List.mem_of_mem_head? hc)))
    (fun c hc => isWhitespace_of_isDigit (hdigits c (List.mem_of_mem_getLast? hc)))
  rwa [String.ofList_toList] at hends

/-- Whether an event is all-day agrees with its start exactly if its value is taken for what it is. -/
theorem allDay_iff {value t : String} (h : parseIcalDatetime value = .ok t) :
    (isDateOnly value = true ↔ isIsoDate t.toList = true) ↔ DateAsWritten value := by
  rw [isIsoDate_parsed h, DateAsWritten]
  refine ⟨fun h => h.mpr, fun hwritten => ⟨fun hdate => ?_, hwritten⟩⟩
  rw [strTrim_of_isDateOnly hdate]
  exact .inl hdate

theorem parsed_eq_empty {value t : String} (h : parseIcalDatetime value = .ok t) :
    t = "" ↔ strTrim value = "" := by
  rw [← String.toList_eq_nil_iff, ← String.toList_eq_nil_iff]
  obtain ⟨hbasic, hdate⟩ | ⟨-, ⟨hvalue, ht⟩ | heq⟩ := parseIcalDatetime_cases h
  · refine iff_of_false (fun hnil => ?_) fun hnil => ?_
    · rw [hnil] at hdate
      exact absurd hdate Bool.false_ne_true
    · rw [hnil] at hbasic
      exact absurd hbasic Bool.false_ne_true
  · exact iff_of_false (List.ne_nil_of_mem ht) (List.ne_nil_of_mem hvalue)
  · rw [heq]

/-! ### Events -/

/-- The value of the last property of a name. -/
def lastValue (name : String) (vevent : IcalEvent) : Option String :=
  (vevent.reverse.find? (fun p => p.name = name)).map (fun p => p.value.getD "")

section Property

variable {f g : EventFields} {prop : IcalProperty}

theorem property_start (h : prop.name = "DTSTART") : f.property prop = (parseIcalDatetime (prop.value.getD "") >>=
    fun parsed => pure { f with allDay := isDateOnly (prop.value.getD ""), startTime := parsed }) := by
  have hother : ∀ name, "DTSTART" ≠ name → ¬prop.name = name := fun name hne heq => hne (h.symm.trans heq)
  unfold EventFields.property
  dsimp only
  rw [if_neg (hother _ (by decide)), if_neg (hother _ (by decide)), if_neg (hother _ (by decide)), if_pos h]

theorem property_end (h : prop.name = "DTEND") : f.property prop = (parseIcalDatetime (prop.value.getD "") >>=
    fun parsed => pure { f with endTime := parsed }) := by
  have hother : ∀ name, "DTEND" ≠ name → ¬prop.name = name := fun name hne heq => hne (h.symm.trans heq)
  unfold EventFields.property
  dsimp only
  rw [if_neg (hother _ (by decide)), if_neg (hother _ (by decide)), if_neg (hother _ (by decide)),
    if_neg (hother _ (by decide)), if_pos h]

/-- Any other property is read without a panic, and only a `UID` changes the identity. -/
theorem property_other (hstart : prop.name ≠ "DTSTART") (hend : prop.name ≠ "DTEND") :
    ∃ g, f.property prop = .ok g ∧ g.startTime = f.startTime ∧ g.allDay = f.allDay ∧
      g.uid = if prop.name = "UID" then some (prop.value.getD "") else f.uid := by
  unfold EventFields.property
  dsimp only
  rw [if_neg hstart, if_neg hend]
  by_cases huid : prop.name = "UID"
  · have hother : ∀ name, "UID" ≠ name → ¬prop.name = name := fun name hne heq => hne (huid.symm.trans heq)
    rw [if_neg (hother _ (by decide)), if_neg (hother _ (by decide)), if_neg (hother _ (by decide)), if_pos huid,
      if_pos huid]
    exact ⟨_, rfl, rfl, rfl, rfl⟩
  rw [if_neg huid, if_neg huid]
  split
  · exact ⟨_, rfl, rfl, rfl, rfl⟩
  split
  · exact ⟨_, rfl, rfl, rfl, rfl⟩
  split
  · exact ⟨_, rfl, rfl, rfl, rfl⟩
  split
  · exact ⟨_, rfl, rfl, rfl, rfl⟩
  split
  · exact ⟨_, rfl, rfl, rfl, rfl⟩
  split
  · exact ⟨_, rfl, rfl, rfl, rfl⟩
  split
  · exact ⟨_, rfl, rfl, rfl, rfl⟩
  · exact ⟨_, rfl, rfl, rfl, rfl⟩

/-- What one turn of the loop reads of the start and the identity of an event. -/
theorem property_spec (h : f.property prop = .ok g) :
    (if prop.name = "DTSTART" then
        parseIcalDatetime (prop.value.getD "") = .ok g.startTime ∧ g.allDay = isDateOnly (prop.value.getD "")
      else g.startTime = f.startTime ∧ g.allDay = f.allDay) ∧
      g.uid = if prop.name = "UID" then some (prop.value.getD "") else f.uid := by
  by_cases hstart : prop.name = "DTSTART"
  · rw [property_start hstart] at h
    obtain ⟨t, ht, h⟩ := except_bind_eq_ok.mp h
    obtain rfl := Except.ok.inj h
    rw [if_pos hstart, hstart, if_neg (by decide)]
    exact ⟨⟨ht, rfl⟩, rfl⟩
  rw [if_neg hstart]
  by_cases hend : prop.name = "DTEND"
  · rw [property_end hend] at h
    obtain ⟨t, -, h⟩ := except_bind_eq_ok.mp h
    obtain rfl := Except.ok.inj h
    rw [hend, if_neg (by decide)]
    exact ⟨⟨rfl, rfl⟩, rfl⟩
  · obtain ⟨g', hg, hkept, hday, huid⟩ := property_other (f := f) hstart hend
    obtain rfl := Except.ok.inj (hg.symm.trans h)
    exact ⟨⟨hkept, hday⟩, huid⟩

/-- The properties that hold a time. -/
def CleanProperty (prop : IcalProperty) : Prop :=
  prop.name = "DTSTART" ∨ prop.name = "DTEND" → CleanTime (prop.value.getD "")

theorem property_returns_iff (f : EventFields) (prop : IcalProperty) :
    (∃ g, f.property prop = .ok g) ↔ CleanProperty prop := by
  unfold CleanProperty
  by_cases hstart : prop.name = "DTSTART"
  · rw [property_start hstart, forall_prop_of_true (.inl hstart), ← parseIcalDatetime_returns_iff,
      returns_bind fun t _ => returns_pure _, and_true]
  by_cases hend : prop.name = "DTEND"
  · rw [property_end hend, forall_prop_of_true (.inr hend), ← parseIcalDatetime_returns_iff,
      returns_bind fun t _ => returns_pure _, and_true]
  · obtain ⟨g, hg, -⟩ := property_other (f := f) hstart hend
    exact iff_of_true ⟨g, hg⟩ fun h => absurd h (not_or.mpr ⟨hstart, hend⟩)

end Property

/-- What the loop reads of the start and the identity of an event. -/
theorem fields_spec {vevent : IcalEvent} {f : EventFields} (h : vevent.foldlM EventFields.property {} = .ok f) :
    (match lastValue "DTSTART" vevent with
      | none => f.startTime = ""
      | some v => parseIcalDatetime v = .ok f.startTime ∧ f.allDay = isDateOnly v) ∧
      f.uid = lastValue "UID" vevent := by
  have hlast : ∀ (name : String) (vevent : IcalEvent) (p : IcalProperty), lastValue name (vevent ++ [p]) =
      if p.name = name then some (p.value.getD "") else lastValue name vevent := by
    intro name vevent p
    unfold lastValue
    rw [List.reverse_append, List.reverse_singleton, List.singleton_append, List.find?_cons]
    split
    · next h => rw [if_pos (of_decide_eq_true h)]; rfl
    · next h => rw [if_neg (of_decide_eq_false h)]
  induction vevent using List.reverseRecOn generalizing f with
  | nil =>
    obtain rfl := Except.ok.inj h
    exact ⟨rfl, rfl⟩
  | append_singleton vevent p ih =>
    rw [List.foldlM_append] at h
    obtain ⟨g, hg, h⟩ := except_bind_eq_ok.mp h
    obtain ⟨hstart, huid⟩ := ih hg
    rw [List.foldlM_cons] at h
    obtain ⟨g', hg', h⟩ := except_bind_eq_ok.mp h
    obtain rfl := Except.ok.inj h
    obtain ⟨hstart', huid'⟩ := property_spec hg'
    rw [hlast, hlast, huid', ← huid]
    refine ⟨?_, rfl⟩
    by_cases hname : p.name = "DTSTART"
    · rw [if_pos hname] at hstart' ⊢
      exact hstart'
    · rw [if_neg hname] at hstart' ⊢
      rw [hstart'.1, hstart'.2]
      exact hstart

/-- An event that is yielded has the start and the identity of its last properties. -/
theorem parseEvent_spec {vevent : IcalEvent} {e : CreateEvent} (h : parseEvent vevent = .ok (some e)) :
    ∃ v, lastValue "DTSTART" vevent = some v ∧ strTrim v ≠ "" ∧ parseIcalDatetime v = .ok e.startTime ∧
      e.allDay = isDateOnly v ∧ e.sourceUid = lastValue "UID" vevent := by
  unfold parseEvent at h
  cases hfold : vevent.foldlM EventFields.property {} with
  | error err =>
    rw [hfold] at h
    cases h
  | ok f =>
    rw [hfold] at h
    have hevent : f.event = some e := Except.ok.inj h
    obtain ⟨hstart, huid⟩ := fields_spec hfold
    unfold EventFields.event at hevent
    split at hevent
    · cases hevent
    next hne =>
    obtain rfl := Option.some.inj hevent
    cases hlast : lastValue "DTSTART" vevent with
    | none =>
      rw [hlast] at hstart
      exact absurd hstart hne
    | some v =>
      rw [hlast] at hstart
      exact ⟨v, rfl, mt (parsed_eq_empty hstart.1).mpr hne, hstart.1, hstart.2, huid⟩

/-- An event with a start is yielded, if its times are clean. -/
theorem exists_parseEvent {vevent : IcalEvent} (hclean : ∀ p ∈ vevent, CleanProperty p) {v : String}
    (hv : lastValue "DTSTART" vevent = some v) (hne : strTrim v ≠ "") :
    ∃ e, parseEvent vevent = .ok (some e) := by
  obtain ⟨f, hfold⟩ := (foldlM_returns_iff property_returns_iff vevent {}).mpr hclean
  obtain ⟨hstart, -⟩ := fields_spec hfold
  rw [hv] at hstart
  unfold parseEvent
  rw [hfold]
  have hevent : f.event ≠ none := by
    unfold EventFields.event
    rw [if_neg (mt (parsed_eq_empty hstart.1).mp hne)]
    exact Option.some_ne_none _
  obtain ⟨e, he⟩ := Option.ne_none_iff_exists'.mp hevent
  exact ⟨e, congrArg Except.ok he⟩

theorem parseEvent_returns_iff (vevent : IcalEvent) :
    (∃ r, parseEvent vevent = .ok r) ↔ ∀ p ∈ vevent, CleanProperty p := by
  rw [← foldlM_returns_iff property_returns_iff vevent {}]
  unfold parseEvent
  cases vevent.foldlM EventFields.property {} with
  | error e => exact iff_of_false (fun ⟨r, hr⟩ => absurd hr nofun) fun ⟨f, hf⟩ => absurd hf nofun
  | ok f => exact iff_of_true ⟨_, rfl⟩ ⟨f, rfl⟩

/-! ### Texts -/

/-- The events that are looked at: those of the calendars before the first error. -/
def eventsRead : List (Except String (List IcalEvent)) → List IcalEvent
  | [] => []
  | .error _ :: _ => []
  | .ok vevents :: rest => vevents ++ eventsRead rest

/-- Whether every calendar is read. -/
def allRead (calendars : List (Except String (List IcalEvent))) : Prop := ∀ c ∈ calendars, ∃ vevents, c = .ok vevents

theorem parseCalendars_returns_iff (calendars : List (Except String (List IcalEvent))) :
    (∃ r, parseCalendars calendars = .ok r) ↔ ∀ vevent ∈ eventsRead calendars, ∀ p ∈ vevent, CleanProperty p := by
  induction calendars with
  | nil => exact iff_of_true ⟨_, rfl⟩ (List.forall_mem_nil _)
  | cons c rest ih =>
    cases c with
    | error e => exact iff_of_true ⟨_, rfl⟩ (List.forall_mem_nil _)
    | ok vevents =>
      rw [parseCalendars, eventsRead, List.forall_mem_append, ← ih,
        returns_bind fun parsed _ => returns_bind fun more _ => returns_pure _, mapM_returns_iff, and_true]
      simp only [parseEvent_returns_iff]

/-- The events of a text that is read: those that its events become. -/
theorem mem_parseCalendars {calendars : List (Except String (List IcalEvent))} {events : List CreateEvent}
    (h : parseCalendars calendars = .ok (.ok events)) :
    allRead calendars ∧ ∀ e, e ∈ events ↔ ∃ vevent ∈ eventsRead calendars, parseEvent vevent = .ok (some e) := by
  induction calendars generalizing events with
  | nil =>
    obtain rfl := Except.ok.inj (Except.ok.inj h)
    exact ⟨List.forall_mem_nil _, fun e => iff_of_false List.not_mem_nil fun ⟨_, hv, _⟩ => absurd hv List.not_mem_nil⟩
  | cons c rest ih =>
    cases c with
    | error e => exact absurd (Except.ok.inj h) nofun
    | ok vevents =>
      rw [parseCalendars] at h
      obtain ⟨parsed, hparsed, h⟩ := except_bind_eq_ok.mp h
      obtain ⟨more, hmore, h⟩ := except_bind_eq_ok.mp h
      cases more with
      | error e => exact absurd (Except.ok.inj h) nofun
      | ok more =>
        obtain rfl := Except.ok.inj (Except.ok.inj h)
        obtain ⟨hread, hmem⟩ := ih hmore
        refine ⟨List.forall_mem_cons.mpr ⟨⟨vevents, rfl⟩, hread⟩, fun e => ?_⟩
        have hhere : (∃ r ∈ parsed, id r = some e) ↔ ∃ vevent ∈ vevents, parseEvent vevent = .ok (some e) := by
          rw [← mem_of_mapM_ok hparsed (some e)]
          exact ⟨fun ⟨r, hr, heq⟩ => heq ▸ hr, fun hr => ⟨some e, hr, rfl⟩⟩
        rw [List.mem_append, hmem, List.mem_filterMap, eventsRead, hhere]
        simp only [List.mem_append, or_and_right, exists_or]

theorem exists_parseCalendars {calendars : List (Except String (List IcalEvent))} (hread : allRead calendars)
    (hclean : ∀ vevent ∈ eventsRead calendars, ∀ p ∈ vevent, CleanProperty p) :
    ∃ events, parseCalendars calendars = .ok (.ok events) := by
  induction calendars with
  | nil => exact ⟨[], rfl⟩
  | cons c rest ih =>
    obtain ⟨⟨vevents, rfl⟩, hrest⟩ := List.forall_mem_cons.mp hread
    rw [eventsRead, List.forall_mem_append] at hclean
    obtain ⟨parsed, hparsed⟩ := (mapM_returns_iff vevents).mpr fun vevent hv =>
      (parseEvent_returns_iff vevent).mpr (hclean.1 vevent hv)
    obtain ⟨more, hmore⟩ := ih hrest hclean.2
    rw [parseCalendars, hparsed, hmore]
    exact ⟨_, rfl⟩

/-! ### Imports -/

namespace CalendarWorld

variable {w : CalendarWorld} {data : CreateEvent}

/-- No statement fails, and the ids that are drawn are new. -/
structure Healthy (w : CalendarWorld) : Prop where
  faults : w.faults = []
  injective : Function.Injective w.uuids
  fresh : ∀ n, w.issued ≤ n → ∀ r ∈ w.events.rows, r.id ≠ w.uuids n

/-- An event of that identity is in the calendar. -/
def Holds (w : CalendarWorld) (uid : String) : Prop := ∃ r ∈ w.events.rows, r.sourceUid = some uid

theorem statement_eq (hw : w.faults = []) {α : Type} (failed : String) (r : Except String α × CalendarEvents) :
    w.statement failed r = (r.1, { w with events := r.2 }) := by
  unfold statement fault
  rw [hw]
  rfl

end CalendarWorld

section Runs

variable {w : CalendarWorld} {data : CreateEvent}

/-- The world once an event has been created. -/
def withEvent (w : CalendarWorld) (data : CreateEvent) : CalendarWorld :=
  { w with
    events := w.events.insertOrIgnore (data.row (w.uuids w.issued) w.now)
    issued := w.issued + 1 }

theorem rows_withEvent (hw : w.Healthy) (data : CreateEvent) :
    (withEvent w data).events.rows = w.events.rows ++ [data.row (w.uuids w.issued) w.now] := by
  have hnew : (data.row (w.uuids w.issued) w.now).id ∉ w.events.rows.map CalendarEvent.id := by
    intro hmem
    obtain ⟨r, hr, hid⟩ := List.mem_map.mp hmem
    exact hw.fresh w.issued (Nat.le_refl _) r hr hid
  unfold withEvent Table.insertOrIgnore
  rw [dif_neg hnew]

theorem healthy_withEvent (hw : w.Healthy) (data : CreateEvent) : (withEvent w data).Healthy where
  faults := hw.faults
  injective := hw.injective
  fresh := by
    intro n hn r hr
    rw [rows_withEvent hw, List.mem_append, List.mem_singleton] at hr
    obtain hr | rfl := hr
    · exact hw.fresh n (Nat.le_of_succ_le hn) r hr
    · exact fun hid => absurd (hw.injective hid) (Nat.ne_of_lt hn)

theorem run_createEvent (hw : w.Healthy) (data : CreateEvent) :
    ((createEvent data).run CalendarCall.serve w).2 = withEvent w data ∧
      ∃ e, ((createEvent data).run CalendarCall.serve w).1 = .ok e := by
  have hnone : w.events.find? (w.uuids w.issued) = none :=
    Table.find?_eq_none.mpr (hw.fresh w.issued (Nat.le_refl _))
  let drawn : CalendarWorld := { w with issued := w.issued + 1 }
  let row := data.row (w.uuids w.issued) w.now
  have hinsert : drawn.insert row = (.ok (), w.events.insertOrIgnore row) := by
    have hid : drawn.events.find? row.id = none := hnone
    unfold CalendarWorld.insert
    rw [hid]
  have hfound : (w.events.insertOrIgnore row).find? (w.uuids w.issued) = some row := by
    rw [Table.find?_insertOrIgnore, hnone]
    exact if_pos rfl
  have hdraw : CalendarCall.newV4.serve w = (w.uuids w.issued, drawn) := rfl
  have htime : CalendarCall.strftimeNow.serve drawn = (.ok w.now, drawn) :=
    CalendarWorld.statement_eq (w := drawn) hw.faults "" _
  have hstored : (CalendarCall.insertEvent row).serve drawn = (.ok (), withEvent w data) :=
    (CalendarWorld.statement_eq (w := drawn) hw.faults "" (drawn.insert row)).trans
      (congrArg (fun r => (r.1, { drawn with events := r.2 })) hinsert)
  have hread : (CalendarCall.getEvent (w.uuids w.issued)).serve (withEvent w data) =
      (.ok (some row), withEvent w data) :=
    (CalendarWorld.statement_eq (w := withEvent w data) hw.faults _ _).trans
      (congrArg (fun r => (Except.ok r, withEvent w data)) hfound)
  have hrun : (createEvent data).run CalendarCall.serve w = (.ok row, withEvent w data) := by
    unfold createEvent calendarCall
    rw [Prog.run_bind, Prog.run_perform, hdraw]
    dsimp only
    rw [Prog.run_bind, Prog.run_perform, htime]
    dsimp only
    rw [Prog.run_bind, Prog.run_perform, hstored]
    dsimp only
    rw [Prog.run_bind, Prog.run_perform, hread]
    rfl
  rw [hrun]
  exact ⟨rfl, row, rfl⟩

theorem run_isKnown (hw : w.Healthy) (uid : Option String) :
    ((isKnown uid).run CalendarCall.serve w).2 = w ∧
      (((isKnown uid).run CalendarCall.serve w).1 = true ↔ ∃ u, uid = some u ∧ w.Holds u) := by
  cases uid with
  | none => exact ⟨rfl, iff_of_false Bool.false_ne_true fun ⟨u, hu, _⟩ => absurd hu nofun⟩
  | some u =>
    have hserve : (CalendarCall.findEventBySourceUid u).serve w =
        (.ok (w.events.rows.find? (fun r => r.sourceUid = some u)), w) :=
      CalendarWorld.statement_eq hw.faults _ _
    have hholds : w.Holds u ↔ (w.events.rows.find? (fun r => r.sourceUid = some u)).isSome = true := by
      rw [List.find?_isSome]
      simp only [decide_eq_true_eq]
      rfl
    have hsome : (∃ v, some u = some v ∧ w.Holds v) ↔ w.Holds u :=
      ⟨fun ⟨v, hv, h⟩ => Option.some.inj hv ▸ h, fun h => ⟨u, rfl, h⟩⟩
    unfold isKnown calendarCall
    dsimp only
    rw [Prog.run_bind, Prog.run_perform, hserve, hsome, hholds]
    dsimp only
    cases w.events.rows.find? (fun r => r.sourceUid = some u) with
    | none => exact ⟨rfl, iff_of_false Bool.false_ne_true Bool.false_ne_true⟩
    | some r => exact ⟨rfl, iff_of_true rfl rfl⟩

/-- An event that is known is skipped, any other is created. -/
theorem run_importEvent (hw : w.Healthy) (data : CreateEvent) (r : Imported) :
    ((∃ u, data.sourceUid = some u ∧ w.Holds u) → ((importEvent data r).run CalendarCall.serve w).2 = w) ∧
      ((¬∃ u, data.sourceUid = some u ∧ w.Holds u) →
        ((importEvent data r).run CalendarCall.serve w).2 = withEvent w data) := by
  obtain ⟨hsame, hknown⟩ := run_isKnown hw data.sourceUid
  obtain ⟨hafter, e, he⟩ := run_createEvent hw data
  unfold importEvent
  rw [Prog.run_bind, hsame]
  constructor
  · intro h
    rw [hknown.mpr h]
    rfl
  · intro h
    rw [Bool.eq_false_iff.mpr (mt hknown.mp h), if_neg Bool.false_ne_true, Prog.run_bind, he]
    exact hafter

theorem holds_withEvent (hw : w.Healthy) (data : CreateEvent) {u : String}
    (h : w.Holds u ∨ data.sourceUid = some u) : (withEvent w data).Holds u := by
  unfold CalendarWorld.Holds
  rw [rows_withEvent hw]
  obtain ⟨r, hr, hu⟩ | hu := h
  · exact ⟨r, List.mem_append_left _ hr, hu⟩
  · exact ⟨data.row (w.uuids w.issued) w.now, List.mem_append_right _ (List.mem_singleton_self _), hu⟩

/-- What a whole import leaves: a calendar that is no smaller, larger if an event has no identity, and that
holds every identity of the file. -/
theorem run_importEvents (hw : w.Healthy) (parsed : List CreateEvent) (r : Imported) :
    ((importEvents parsed r).run CalendarCall.serve w).2.Healthy ∧
      w.events.rows.length ≤ ((importEvents parsed r).run CalendarCall.serve w).2.events.rows.length ∧
      ((∃ data ∈ parsed, data.sourceUid = none) →
        w.events.rows.length < ((importEvents parsed r).run CalendarCall.serve w).2.events.rows.length) ∧
      ∀ u, (w.Holds u ∨ ∃ data ∈ parsed, data.sourceUid = some u) →
        ((importEvents parsed r).run CalendarCall.serve w).2.Holds u := by
  induction parsed generalizing w r with
  | nil =>
    refine ⟨hw, Nat.le_refl _, fun ⟨_, h, _⟩ => absurd h List.not_mem_nil, fun u h => ?_⟩
    exact h.resolve_right fun ⟨_, h, _⟩ => List.not_mem_nil h
  | cons data rest ih =>
    obtain ⟨hskipped, hcreated⟩ := run_importEvent hw data r
    rw [importEvents, Prog.run_bind]
    by_cases hknown : ∃ u, data.sourceUid = some u ∧ w.Holds u
    · rw [hskipped hknown]
      obtain ⟨hhealthy, hle, hlt, hholds⟩ := ih hw ((importEvent data r).run CalendarCall.serve w).1
      obtain ⟨v, hv, hheld⟩ := hknown
      refine ⟨hhealthy, hle, fun ⟨d, hd, hnone⟩ => ?_, fun u h => hholds u ?_⟩
      · obtain rfl | hd := List.mem_cons.mp hd
        · rw [hv] at hnone
          cases hnone
        · exact hlt ⟨d, hd, hnone⟩
      · obtain h | ⟨d, hd, hu⟩ := h
        · exact .inl h
        obtain rfl | hd := List.mem_cons.mp hd
        · exact .inl (Option.some.inj (hv.symm.trans hu) ▸ hheld)
        · exact .inr ⟨d, hd, hu⟩
    · rw [hcreated hknown]
      obtain ⟨hhealthy, hle, -, hholds⟩ := ih (healthy_withEvent hw data)
        ((importEvent data r).run CalendarCall.serve w).1
      rw [rows_withEvent hw, List.length_append, List.length_singleton] at hle
      refine ⟨hhealthy, by omega, fun _ => by omega, fun u h => hholds u ?_⟩
      obtain h | ⟨d, hd, hu⟩ := h
      · exact .inl (holds_withEvent hw data (.inl h))
      obtain rfl | hd := List.mem_cons.mp hd
      · exact .inl (holds_withEvent hw d (.inr hu))
      · exact .inr ⟨d, hd, hu⟩

/-- Nothing is added where everything is known. -/
theorem run_importEvents_known (hw : w.Healthy) {parsed : List CreateEvent}
    (h : ∀ data ∈ parsed, ∃ u, data.sourceUid = some u ∧ w.Holds u) (r : Imported) :
    ((importEvents parsed r).run CalendarCall.serve w).2 = w := by
  induction parsed generalizing r with
  | nil => rfl
  | cons data rest ih =>
    obtain ⟨hdata, hrest⟩ := List.forall_mem_cons.mp h
    rw [importEvents, Prog.run_bind, (run_importEvent hw data r).1 hdata]
    exact ih hrest _

end Runs

theorem afterImport_blank {parser : IcalParser} {text : String} (h : strTrim text = "") (w : CalendarWorld) :
    afterImport parser text w = w := by
  unfold afterImport importIcs
  rw [if_pos h]
  rfl

theorem afterImport_error {parser : IcalParser} {text e : String} (h : parseIcs parser text = .ok (.error e))
    (w : CalendarWorld) : afterImport parser text w = w := by
  unfold afterImport importIcs
  split
  · rfl
  · next task hok =>
    split at hok
    · obtain rfl := Except.ok.inj hok
      rfl
    · rw [h] at hok
      obtain rfl := Except.ok.inj hok
      rfl

theorem afterImport_parsed {parser : IcalParser} {text : String} {parsed : List CreateEvent}
    (hne : strTrim text ≠ "") (h : parseIcs parser text = .ok (.ok parsed)) {w : CalendarWorld} (hw : w.Healthy) :
    afterImport parser text w = ((importEvents parsed ⟨[], 0⟩).run CalendarCall.serve w).2 := by
  have hopen : CalendarCall.withUserDb.serve w = (.ok (), w) := CalendarWorld.statement_eq hw.faults "" _
  have himport : importIcs parser text = .ok (storeEvents parsed) := by
    unfold importIcs
    rw [if_neg hne, h]
    rfl
  unfold afterImport
  rw [himport]
  unfold storeEvents calendarCall
  dsimp only
  rw [Prog.run_bind, Prog.run_perform, hopen]
  dsimp only
  rw [Prog.run_bind]
  rfl

/-! ### Texts that are imported as they should be -/

/-- The text is read without a panic, every event of it is all-day exactly if its start is a date, and
importing it again adds nothing to the calendar, at whatever time. -/
structure ImportsCleanly (parser : IcalParser) (text : String) : Prop where
  returns : ∃ r, parseIcs parser text = .ok r
  allDay : ∀ events, parseIcs parser text = .ok (.ok events) →
    ∀ e ∈ events, e.allDay = true ↔ isIsoDate e.startTime.toList = true
  again : ∀ w : CalendarWorld, w.Healthy → ∀ now : String,
    (afterImport parser text { afterImport parser text w with now := now }).events =
      (afterImport parser text w).events

/-- An event that has a start. -/
def Yielded (vevent : IcalEvent) : Prop := ∃ v, lastValue "DTSTART" vevent = some v ∧ strTrim v ≠ ""

/-- What a text must be for that: its times are cut between characters, the start of an event is not a date
between white space or with dashes, and every event has a `UID`. -/
structure CleanIcs (parser : IcalParser) (text : String) : Prop where
  times : ∀ vevent ∈ eventsRead (parser text), ∀ p ∈ vevent, CleanProperty p
  dates : allRead (parser text) → ∀ vevent ∈ eventsRead (parser text), ∀ v,
    lastValue "DTSTART" vevent = some v → DateAsWritten v
  uids : allRead (parser text) → strTrim text ≠ "" → ∀ vevent ∈ eventsRead (parser text), Yielded vevent →
    ∃ p ∈ vevent, p.name = "UID"

theorem lastValue_ne_none {name : String} {vevent : IcalEvent} :
    lastValue name vevent ≠ none ↔ ∃ p ∈ vevent, p.name = name := by
  unfold lastValue
  rw [ne_eq, Option.map_eq_none_iff, ← Option.not_isSome_iff_eq_none, not_not, List.find?_isSome]
  simp only [List.mem_reverse, decide_eq_true_eq]

theorem dateAsWritten_of_blank {v : String} (h : strTrim v = "") : DateAsWritten v := by
  unfold DateAsWritten
  rw [h]
  exact fun hdate => absurd hdate (by decide)

/-- An empty calendar. -/
def emptyCalendar : CalendarWorld := ⟨Table.empty, "", fun n => String.ofList (List.replicate n 'a'), 0, []⟩

theorem healthy_emptyCalendar : emptyCalendar.Healthy where
  faults := rfl
  injective := fun _ _ h => List.replicate_left_injective 'a' (String.ofList_injective h)
  fresh := fun _ _ _ hr => absurd hr List.not_mem_nil

theorem healthy_now {w : CalendarWorld} (hw : w.Healthy) (now : String) : { w with now := now }.Healthy :=
  ⟨hw.faults, hw.injective, hw.fresh⟩

section Main

variable {parser : IcalParser} {text : String}

theorem CleanIcs.of_importsCleanly (h : ImportsCleanly parser text) : CleanIcs parser text := by
  have htimes := (parseCalendars_returns_iff (parser text)).mp h.returns
  refine ⟨htimes, fun hread vevent hv v hlast => ?_, fun hread hne vevent hv hyielded => ?_⟩
  · by_cases hblank : strTrim v = ""
    · exact dateAsWritten_of_blank hblank
    obtain ⟨events, hevents⟩ := exists_parseCalendars hread htimes
    obtain ⟨e, he⟩ := exists_parseEvent (htimes vevent hv) hlast hblank
    have hmem := ((mem_parseCalendars hevents).2 e).mpr ⟨vevent, hv, he⟩
    obtain ⟨v', hlast', -, hstart, hday, -⟩ := parseEvent_spec he
    obtain rfl := Option.some.inj (hlast.symm.trans hlast')
    have hdate := h.allDay events hevents e hmem
    rw [hday] at hdate
    exact (allDay_iff hstart).mp hdate
  · -- An event without a `UID` would be created again in an empty calendar.
    rw [← lastValue_ne_none]
    intro hnone
    obtain ⟨events, hevents⟩ := exists_parseCalendars hread htimes
    obtain ⟨v, hlast, hstart⟩ := hyielded
    obtain ⟨e, he⟩ := exists_parseEvent (htimes vevent hv) hlast hstart
    have hmem := ((mem_parseCalendars hevents).2 e).mpr ⟨vevent, hv, he⟩
    obtain ⟨-, -, -, -, -, huid⟩ := parseEvent_spec he
    have hagain := h.again emptyCalendar healthy_emptyCalendar ""
    rw [afterImport_parsed hne hevents healthy_emptyCalendar] at hagain
    obtain ⟨hhealthy, -⟩ := run_importEvents healthy_emptyCalendar events ⟨[], 0⟩
    have hhealthy' := healthy_now hhealthy ""
    obtain ⟨-, -, hlt, -⟩ := run_importEvents hhealthy' events ⟨[], 0⟩
    rw [afterImport_parsed hne hevents hhealthy'] at hagain
    have hlarger := hlt ⟨e, hmem, huid.trans hnone⟩
    rw [hagain] at hlarger
    exact absurd hlarger (Nat.lt_irrefl _)

theorem CleanIcs.importsCleanly (h : CleanIcs parser text) : ImportsCleanly parser text := by
  have hreturns := (parseCalendars_returns_iff (parser text)).mpr h.times
  refine ⟨hreturns, fun events hevents e he => ?_, fun w hw now => ?_⟩
  · obtain ⟨hread, hmem⟩ := mem_parseCalendars hevents
    obtain ⟨vevent, hv, hevent⟩ := (hmem e).mp he
    obtain ⟨v, hlast, -, hstart, hday, -⟩ := parseEvent_spec hevent
    rw [hday]
    exact (allDay_iff hstart).mpr (h.dates hread vevent hv v hlast)
  by_cases hne : strTrim text = ""
  · rw [afterImport_blank hne]
  obtain ⟨r, hr⟩ := hreturns
  cases r with
  | error e =>
    rw [afterImport_error hr]
  | ok events =>
    obtain ⟨hread, hmem⟩ := mem_parseCalendars hr
    rw [afterImport_parsed hne hr hw]
    obtain ⟨hhealthy, -, -, hholds⟩ := run_importEvents hw events ⟨[], 0⟩
    have hhealthy' := healthy_now hhealthy now
    rw [afterImport_parsed hne hr hhealthy', run_importEvents_known hhealthy']
    intro data hdata
    obtain ⟨vevent, hv, hevent⟩ := (hmem data).mp hdata
    obtain ⟨v, hlast, hstart, -, -, huid⟩ := parseEvent_spec hevent
    obtain ⟨u, hu⟩ := Option.ne_none_iff_exists'.mp
      (lastValue_ne_none.mpr (h.uids hread hne vevent hv ⟨v, hlast, hstart⟩))
    exact ⟨u, huid.trans hu, hholds u (.inr ⟨data, hdata, huid.trans hu⟩)⟩

end Main

/-- A text is imported as it should be if it is clean. -/
theorem importsCleanly_iff (parser : IcalParser) (text : String) :
    ImportsCleanly parser text ↔ CleanIcs parser text :=
  ⟨CleanIcs.of_importsCleanly, CleanIcs.importsCleanly⟩

/-- A start whose month would be cut out of the middle of a character. -/
def reviewText : String :=
  "BEGIN:VCALENDAR\nVERSION:2.0\nBEGIN:VEVENT\nDTSTART:2025年03月06日T090000\nUID:1\nEND:VEVENT\nEND:VCALENDAR"

/-- What the crate makes of it. -/
def reviewParser : IcalParser := fun text =>
  if text = reviewText then [.ok [[⟨"DTSTART", some "2025年03月06日T090000"⟩, ⟨"UID", some "1"⟩]]] else []

theorem parseIcs_cut_within_character : ¬ImportsCleanly reviewParser reviewText := by
  intro h
  obtain ⟨r, hr⟩ := h.returns
  have hpanic : parseIcalDatetime "2025年03月06日T090000" = .error .slice := by decide +kernel
  have hparsed : reviewParser reviewText =
      [.ok [[⟨"DTSTART", some "2025年03月06日T090000"⟩, ⟨"UID", some "1"⟩]]] := if_pos rfl
  rw [parseIcs, hparsed] at hr
  obtain ⟨events, hevents, -⟩ := except_bind_eq_ok.mp hr
  obtain ⟨e, he⟩ := (mapM_returns_iff _).mp ⟨events, hevents⟩ _ List.mem_cons_self
  have hclean := (parseEvent_returns_iff _).mp ⟨e, he⟩ _ List.mem_cons_self (.inl rfl)
  obtain ⟨t, ht⟩ := parseIcalDatetime_returns_iff.mpr hclean
  cases hpanic.symm.trans ht

end Rav.Ics
