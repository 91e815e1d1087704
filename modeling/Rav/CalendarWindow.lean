import Mathlib.Data.List.Perm.Basic
import Rav.Db.Calendar

/-!
# What a range of the calendar shows

Which occurrences of the calendar's events overlap a range of time, and when the query of the range
returns these and no others. The query compares stored texts, expands recurring events from the
occurrences that start in the range, and falls back on the event itself.

## Main definitions

- `TimeReading`, `TimeWindow` — what texts stand for as times, and a range of time
- `occurrencesIn` — the occurrences of an event that overlap a range
- `Exact` — a query returns these occurrences, each once
- `Fits` — what the query relies on for one event
-/

namespace Rav

/-- The instants that ISO 8601 texts stand for, and the occurrences of a valid rule from a start. -/
structure TimeReading where
  reads : String → Option Int
  recurs : String → String → Option (Ascending Int)

/-- A range of time, as it is asked for. -/
structure TimeWindow (m : TimeReading) where
  rangeStart : String
  rangeEnd : String
  lo : Int
  hi : Int
  reads_start : m.reads rangeStart = some lo
  reads_end : m.reads rangeEnd = some hi

/-- What overlaps a range: an overlap of `[lo,hi]`, or of `[lo,hi)`, and a time from `s` to `t`. -/
abbrev Overlap := Int → Int → Int → Int → Bool

/-- Start and end of the range are part of it. -/
def closedOverlap : Overlap :=
  fun lo hi s t => decide ((lo ≤ s ∧ s ≤ hi) ∨ (s < lo ∧ lo ≤ t ∧ lo ≤ hi))

/-- Ends are not part of a range or of an event; an event without a duration is at its start. -/
def halfOpenOverlap : Overlap :=
  fun lo hi s t => decide ((lo ≤ s ∧ s < hi) ∨ (s < lo ∧ lo < t ∧ lo < hi))

namespace TimeReading

variable (m : TimeReading)

/-- The times an event is stored with. -/
def times (e : CalendarEvent) : Option (Int × Int) := do
  let s ← m.reads e.startTime
  let t ← m.reads e.endTime
  pure (s,t)

/-- The occurrences of an event that start up to `b`; without a valid rule it occurs once. -/
def occurrencesUpTo (b : Int) (e : CalendarEvent) : List (Int × Int) :=
  match m.times e, e.recurrenceRule.bind (m.recurs e.startTime) with
  | none, _ => []
  | some p, none => [p]
  | some p, some o => (o.upTo b).map (fun u => (u,u + (p.2 - p.1)))

end TimeReading

variable {m : TimeReading}

/-- The occurrences of an event that overlap a range. -/
def occurrencesIn (overlap : Overlap) (w : TimeWindow m) (e : CalendarEvent) : List (Int × Int) :=
  (m.occurrencesUpTo w.hi e).filter (fun p => overlap w.lo w.hi p.1 p.2)

/-- An event without its times. -/
def CalendarEvent.blank (e : CalendarEvent) : CalendarEvent :=
  { e with startTime := "", endTime := "" }

/-- What an entry of the calendar shows: an event and times, to the second. -/
abbrev Entry := CalendarEvent × Option Int × Option Int

def entryOf (m : TimeReading) (e : CalendarEvent) : Entry :=
  (e.blank,(m.reads e.startTime).map (· / second),(m.reads e.endTime).map (· / second))

def entryAt (e : CalendarEvent) (p : Int × Int) : Entry :=
  (e.blank,some (p.1 / second),some (p.2 / second))

/-- The query of a range returns the occurrences that overlap it, each once, and nothing else. -/
def Exact (overlap : Overlap) (env : CalendarEnv) (w : TimeWindow m) (db : CalendarEvents) : Prop :=
  ((listEvents env db w.rangeStart w.rangeEnd).map (entryOf m)).Perm
    (db.rows.flatMap (fun e => (occurrencesIn overlap w e).map (entryAt e)))

/-- The rule of an event is accepted, and the times of the event and of the range can be read. -/
structure CanExpand (env : CalendarEnv) (w : TimeWindow m) (e : CalendarEvent) (o : Ascending Int) :
    Prop where
  rule : ∃ rule, e.recurrenceRule = some rule ∧ env.rruleSet (icalRule e.startTime rule) = some o
  start : (parseIsoAsUtc env w.rangeStart).isSome
  end_ : (parseIsoAsUtc env w.rangeEnd).isSome
  duration : (eventDuration env e).isSome

/-- What is relied on of `chrono` and `rrule`: they read times for what they are, a rule occurs in
whole seconds, or on whole days if it starts on one, and what is written is read back. -/
structure Faithful (env : CalendarEnv) (w : TimeWindow m) (db : CalendarEvents) : Prop where
  date : ∀ s d, env.date s = some d → m.reads s = some (d * day)
  dateTime : ∀ s t, env.dateTime s = some t → m.reads s = some t
  naiveDateTime : ∀ s t, env.naiveDateTime s = some t → m.reads s = some t
  rule : ∀ start rule o, env.rruleSet (icalRule start rule) = some o →
    m.recurs start rule = some o
  seconds : ∀ e ∈ db.rows, ∀ o, CanExpand env w e o → ∀ t ∈ o.upTo w.hi, second ∣ t
  days : ∀ e ∈ db.rows, ∀ o, CanExpand env w e o → isDateOnly e.startTime →
    ∀ t ∈ o.upTo w.hi, day ∣ t
  formatUtc : ∀ e ∈ db.rows, ∀ o, CanExpand env w e o → isDateOnly e.startTime = false →
    ∀ t ∈ o.upTo w.hi, ∀ d, d = 0 ∨ eventDuration env e = some d →
      (m.reads (env.formatUtc (t + d))).map (· / second) = some ((t + d) / second)
  formatDate : ∀ e ∈ db.rows, ∀ o, CanExpand env w e o → isDateOnly e.startTime →
    ∀ t ∈ o.upTo w.hi, ∀ d, d = 0 ∨ eventDuration env e = some d →
      m.reads (env.formatDate ((t + d) / day)) = some ((t + d) / day * day)

/-- What the query of a range relies on for one event. -/
inductive Fits (env : CalendarEnv) (w : TimeWindow m) (e : CalendarEvent) : Prop
  /-- Its stored texts do not meet the range, and indeed no occurrence overlaps it. -/
  | unseen (hseen : ¬ e.MeetsRange w.rangeStart w.rangeEnd)
      (hnone : occurrencesIn closedOverlap w e = [])
  /-- No occurrence is found to start in the range, and the event as it is stored is the only
  occurrence that overlaps it. -/
  | itself (hseen : e.MeetsRange w.rangeStart w.rangeEnd)
      (hmaster : ∀ o, CanExpand env w e o → o.between w.lo w.hi = [])
      (hone : ∃ p, occurrencesIn closedOverlap w e = [p] ∧ entryAt e p = entryOf m e)
  /-- Some occurrences start in the range, at most 500, and none reaches into it from before. -/
  | expanded {o : Ascending Int} (hseen : e.MeetsRange w.rangeStart w.rangeEnd)
      (ho : CanExpand env w e o) (hne : o.between w.lo w.hi ≠ [])
      (hearly : ∀ p ∈ occurrencesIn closedOverlap w e, w.lo ≤ p.1)
      (hlimit : (o.between w.lo w.hi).length ≤ 500)

/-! ### What is read -/

section Reading

variable {env : CalendarEnv} {w : TimeWindow m} {db : CalendarEvents} {e : CalendarEvent}
  {o : Ascending Int}

theorem Faithful.parse (h : Faithful env w db) {s : String} {t : Int}
    (ht : parseIsoAsUtc env s = some t) : m.reads s = some t := by
  unfold parseIsoAsUtc at ht
  split_ifs at ht
  · obtain ⟨d,hd,rfl⟩ := Option.map_eq_some_iff.mp ht
    exact h.date s d hd
  · exact h.dateTime s t ht
  · exact h.naiveDateTime s t ht

/-- The duration of an event is the time between its start and its end. -/
theorem Faithful.duration (h : Faithful env w db) {d : Int} (hd : eventDuration env e = some d) :
    (∃ s, m.times e = some (s,s + d)) ∧ (isDateOnly e.startTime → day ∣ d) := by
  unfold eventDuration at hd
  by_cases hdate : isDateOnly e.startTime
  · rw [if_pos hdate] at hd
    obtain ⟨s,hs,hd⟩ := Option.bind_eq_some_iff.mp hd
    obtain ⟨t,ht,hd⟩ := Option.bind_eq_some_iff.mp hd
    obtain rfl := Option.some.inj hd
    refine ⟨⟨s * day,?_⟩,fun _ => Int.dvd_mul_left _ _⟩
    rw [TimeReading.times,h.date _ _ hs,h.date _ _ ht,← Int.add_mul,show s + (t - s) = t by omega]
    rfl
  · rw [if_neg hdate] at hd
    obtain ⟨s,hs,hd⟩ := Option.bind_eq_some_iff.mp hd
    obtain ⟨t,ht,hd⟩ := Option.bind_eq_some_iff.mp hd
    obtain rfl := Option.some.inj hd
    refine ⟨⟨s,?_⟩,fun hc => absurd hc hdate⟩
    rw [TimeReading.times,h.parse hs,h.parse ht,show s + (t - s) = t by omega]
    rfl

theorem blank_occurrenceAt (d t : Int) : (occurrenceAt env e d t).blank = e.blank := by
  unfold occurrenceAt
  split_ifs <;> rfl

/-- An occurrence is written as what it is. -/
theorem Faithful.entryOf_occurrenceAt (h : Faithful env w db) (he : e ∈ db.rows)
    (ho : CanExpand env w e o) {t d : Int} (ht : t ∈ o.upTo w.hi)
    (hd : eventDuration env e = some d) :
    entryOf m (occurrenceAt env e d t) = entryAt e (t,t + d) := by
  unfold entryOf entryAt
  rw [blank_occurrenceAt]
  by_cases hdate : isDateOnly e.startTime
  · have hday : day ∣ t := h.days e he o ho hdate t ht
    have hdur : day ∣ d := (h.duration hd).2 hdate
    have hstart := h.formatDate e he o ho hdate t ht 0 (.inl rfl)
    have hend := h.formatDate e he o ho hdate t ht d (.inr hd)
    rw [Int.add_zero,Int.ediv_mul_cancel hday] at hstart
    rw [Int.ediv_mul_cancel (Int.dvd_add hday hdur),Int.add_ediv_of_dvd_left hday] at hend
    simp only [occurrenceAt,if_pos hdate,hstart,hend,Option.map_some]
  · have hstart := h.formatUtc e he o ho (Bool.eq_false_iff.mpr hdate) t ht 0 (.inl rfl)
    have hend := h.formatUtc e he o ho (Bool.eq_false_iff.mpr hdate) t ht d (.inr hd)
    rw [Int.add_zero] at hstart
    simp only [occurrenceAt,if_neg hdate,hstart,hend]

/-- Where an event can be expanded, its occurrences in the range are those found to start there. -/
theorem Faithful.expandable_of_within (h : Faithful env w db) {rule : String}
    (hrule : e.recurrenceRule = some rule) {d : Int} {ts : List Int}
    (hts : occurrencesWithin env e rule w.rangeStart w.rangeEnd = some (d,ts)) :
    eventDuration env e = some d ∧ ∃ o, CanExpand env w e o ∧ ts = o.between w.lo w.hi := by
  obtain ⟨o,ho,hts⟩ := Option.bind_eq_some_iff.mp hts
  obtain ⟨lo,hlo,hts⟩ := Option.bind_eq_some_iff.mp hts
  obtain ⟨hi,hhi,hts⟩ := Option.bind_eq_some_iff.mp hts
  obtain ⟨d',hd,hts⟩ := Option.bind_eq_some_iff.mp hts
  obtain ⟨rfl,rfl⟩ := Prod.mk.inj (Option.some.inj hts)
  obtain rfl : lo = w.lo := Option.some.inj ((h.parse hlo).symm.trans w.reads_start)
  obtain rfl : hi = w.hi := Option.some.inj ((h.parse hhi).symm.trans w.reads_end)
  exact ⟨hd,o,⟨⟨rule,hrule,ho⟩,by rw [hlo]; rfl,by rw [hhi]; rfl,by rw [hd]; rfl⟩,rfl⟩

theorem Faithful.within_of_expandable (h : Faithful env w db)
    (ho : CanExpand env w e o) : ∃ rule d, e.recurrenceRule = some rule ∧
      eventDuration env e = some d ∧
      occurrencesWithin env e rule w.rangeStart w.rangeEnd = some (d,o.between w.lo w.hi) := by
  obtain ⟨⟨rule,hrule,hset⟩,hstart,hend,hdur⟩ := ho
  obtain ⟨lo,hlo⟩ := Option.isSome_iff_exists.mp hstart
  obtain ⟨hi,hhi⟩ := Option.isSome_iff_exists.mp hend
  obtain ⟨d,hd⟩ := Option.isSome_iff_exists.mp hdur
  refine ⟨rule,d,hrule,hd,?_⟩
  unfold occurrencesWithin
  rw [hset,hlo,hhi,hd]
  obtain rfl : lo = w.lo := Option.some.inj ((h.parse hlo).symm.trans w.reads_start)
  obtain rfl : hi = w.hi := Option.some.inj ((h.parse hhi).symm.trans w.reads_end)
  rfl

/-- What the query returns for an event it has seen. -/
def expanded (env : CalendarEnv) (w : TimeWindow m) (e : CalendarEvent) : List CalendarEvent :=
  (tryExpand env e w.rangeStart w.rangeEnd).getD [e]

/-- An event of which no occurrence is found to start in the range is returned as it is. -/
theorem Faithful.expanded_itself (h : Faithful env w db)
    (hnone : ∀ o, CanExpand env w e o → o.between w.lo w.hi = []) : expanded env w e = [e] := by
  unfold expanded tryExpand
  cases hrule : e.recurrenceRule with
  | none => rfl
  | some rule =>
    cases hts : occurrencesWithin env e rule w.rangeStart w.rangeEnd with
    | none =>
      simp only [hts]
      rfl
    | some p =>
      obtain ⟨d,ts⟩ := p
      obtain ⟨_,o,ho,rfl⟩ := h.expandable_of_within hrule hts
      simp only [hts,hnone o ho]
      rfl

/-- The others are returned as their first 500 occurrences that start in the range. -/
theorem Faithful.expanded_occurrences (h : Faithful env w db) (ho : CanExpand env w e o)
    (hne : o.between w.lo w.hi ≠ []) : ∃ d, eventDuration env e = some d ∧
      expanded env w e = ((o.between w.lo w.hi).take 500).map (occurrenceAt env e d) := by
  obtain ⟨rule,d,hrule,hd,hts⟩ := h.within_of_expandable ho
  refine ⟨d,hd,?_⟩
  have hsome : ((o.between w.lo w.hi).take 500).map (occurrenceAt env e d) ≠ [] := by
    cases hb : o.between w.lo w.hi with
    | nil => exact absurd hb hne
    | cons t ts => exact List.cons_ne_nil _ _
  unfold expanded tryExpand
  rw [hrule]
  simp only [hts,Option.bind_eq_bind,Option.bind_some,if_neg hsome]
  rfl

/-- The overlapping occurrences of an event that can be expanded. -/
theorem Faithful.occurrencesIn_eq (h : Faithful env w db) (ho : CanExpand env w e o) {d : Int}
    (hd : eventDuration env e = some d) {overlap : Overlap} :
    occurrencesIn overlap w e =
      ((o.upTo w.hi).filter (fun u => overlap w.lo w.hi u (u + d))).map (fun u => (u,u + d)) := by
  obtain ⟨⟨rule,hrule,hset⟩,-,-,-⟩ := ho
  obtain ⟨⟨s,hs⟩,-⟩ := h.duration hd
  unfold occurrencesIn TimeReading.occurrencesUpTo
  rw [hs,hrule]
  simp only [Option.bind_some,h.rule _ _ _ hset,show s + d - s = d by omega]
  rw [List.filter_map]
  rfl

/-- If none reaches into the range from before, what overlaps it starts in it. -/
theorem Faithful.occurrencesIn_of_late (h : Faithful env w db) (ho : CanExpand env w e o) {d : Int}
    (hd : eventDuration env e = some d)
    (hearly : ∀ p ∈ occurrencesIn closedOverlap w e, w.lo ≤ p.1) :
    occurrencesIn closedOverlap w e = (o.between w.lo w.hi).map (fun u => (u,u + d)) := by
  rw [h.occurrencesIn_eq ho hd] at hearly ⊢
  rw [o.between_eq]
  congr 1
  refine List.filter_congr (fun u hu => ?_)
  have hle := o.le_of_mem_upTo hu
  refine decide_eq_decide.mpr ⟨fun hover => ?_,fun hlo => .inl ⟨hlo,hle⟩⟩
  exact hearly _ (List.mem_map_of_mem (List.mem_filter.mpr ⟨hu,decide_eq_true hover⟩))

theorem eq_of_ediv_second {a b : Int} (ha : second ∣ a) (hb : second ∣ b)
    (h : a / second = b / second) : a = b := by
  rw [← Int.ediv_mul_cancel ha,h,Int.ediv_mul_cancel hb]

/-- What is returned for an event that can be expanded. -/
theorem Faithful.map_expanded (h : Faithful env w db) (he : e ∈ db.rows)
    (ho : CanExpand env w e o) (hne : o.between w.lo w.hi ≠ []) : ∃ d,
    eventDuration env e = some d ∧ (expanded env w e).map (entryOf m) =
      ((o.between w.lo w.hi).take 500).map (fun t => entryAt e (t,t + d)) := by
  obtain ⟨d,hd,hex⟩ := h.expanded_occurrences ho hne
  refine ⟨d,hd,?_⟩
  rw [hex,List.map_map]
  refine List.map_congr_left (fun t ht => ?_)
  exact h.entryOf_occurrenceAt he ho (o.mem_between.mp (List.mem_of_mem_take ht)).1 hd

/-- For one event the query returns what overlaps the range exactly if the event fits. -/
theorem Faithful.fits_iff (h : Faithful env w db) (he : e ∈ db.rows) :
    ((if e.MeetsRange w.rangeStart w.rangeEnd then expanded env w e else []).map (entryOf m)).Perm
      ((occurrencesIn closedOverlap w e).map (entryAt e)) ↔ Fits env w e := by
  by_cases hseen : e.MeetsRange w.rangeStart w.rangeEnd
  · rw [if_pos hseen]
    by_cases hmaster : ∀ o, CanExpand env w e o → o.between w.lo w.hi = []
    · rw [h.expanded_itself hmaster,List.map_singleton,List.singleton_perm]
      constructor
      · intro hmap
        obtain ⟨p,hp,hentry⟩ := List.map_eq_singleton_iff.mp hmap.symm
        exact .itself hseen hmaster ⟨p,hp,hentry⟩
      · intro hfits
        cases hfits with
        | unseen hnot _ => exact absurd hseen hnot
        | itself _ _ hone =>
          obtain ⟨p,hp,hentry⟩ := hone
          rw [hp,List.map_singleton,hentry]
        | expanded _ ho hne _ _ => exact absurd (hmaster _ ho) hne
    · obtain ⟨o,ho,hne⟩ : ∃ o, CanExpand env w e o ∧ o.between w.lo w.hi ≠ [] := by
        by_contra hc
        exact hmaster (fun o ho => by_contra (fun hne => hc ⟨o,ho,hne⟩))
      obtain ⟨d,hd,hmap⟩ := h.map_expanded he ho hne
      rw [hmap]
      constructor
      · intro hperm
        -- Nothing that starts before the range is returned, so nothing may reach into it.
        have hearly : ∀ p ∈ occurrencesIn closedOverlap w e, w.lo ≤ p.1 := by
          intro p hp
          obtain ⟨t,ht,hentry⟩ := List.mem_map.mp (hperm.mem_iff.mpr (List.mem_map_of_mem hp))
          obtain ⟨htu,hlo⟩ := o.mem_between.mp (List.mem_of_mem_take ht)
          rw [h.occurrencesIn_eq ho hd] at hp
          obtain ⟨u,hu,rfl⟩ := List.mem_map.mp hp
          have htimes : t / second = u / second :=
            Option.some.inj (Prod.mk.inj (Prod.mk.inj hentry).2).1
          have hsec := h.seconds e he o ho
          rw [← eq_of_ediv_second (hsec t htu) (hsec u (List.mem_filter.mp hu).1) htimes]
          exact hlo
        refine .expanded hseen ho hne hearly ?_
        have hlen := hperm.length_eq
        rw [h.occurrencesIn_of_late ho hd hearly,List.length_map,List.length_map,List.length_map,
          List.length_take] at hlen
        omega
      · intro hfits
        cases hfits with
        | unseen hnot _ => exact absurd hseen hnot
        | itself _ hnone _ => exact absurd (hnone o ho) hne
        | @expanded o' _ ho' _ hearly hlimit =>
          obtain rfl : o = o' := by
            obtain ⟨rule,hrule,hset⟩ := ho.rule
            obtain ⟨rule',hrule',hset'⟩ := ho'.rule
            obtain rfl := Option.some.inj (hrule.symm.trans hrule')
            exact Option.some.inj (hset.symm.trans hset')
          rw [h.occurrencesIn_of_late ho hd hearly,List.take_of_length_le hlimit,List.map_map]
          exact .refl _
  · rw [if_neg hseen]
    constructor
    · intro hperm
      exact .unseen hseen (List.map_eq_nil_iff.mp hperm.symm.eq_nil)
    · intro hfits
      cases hfits with
      | unseen _ hnone =>
        rw [hnone]
        exact .refl _
      | itself hyes _ _ => exact absurd hyes hseen
      | expanded hyes _ _ _ _ => exact absurd hyes hseen

end Reading

/-! ### All events together -/

section Parts

variable {ι α κ : Type*} [DecidableEq κ] {tag : α → κ} {key : ι → κ} {l : List ι} {f g : ι → List α}

/-- The part of one index in a list of parts. -/
theorem filter_flatMap_key (hl : (l.map key).Nodup) (hf : ∀ i ∈ l, ∀ a ∈ f i, tag a = key i) {i : ι}
    (hi : i ∈ l) : (l.flatMap f).filter (fun a => decide (tag a = key i)) = f i := by
  induction l with
  | nil => exact absurd hi List.not_mem_nil
  | cons j l ih =>
    obtain ⟨hj,hnodup⟩ := List.nodup_cons.mp hl
    have hrest : ∀ i ∈ l, ∀ a ∈ f i, tag a = key i := fun i hi => hf i (List.mem_cons_of_mem _ hi)
    rw [List.flatMap_cons,List.filter_append]
    rcases List.mem_cons.mp hi with rfl | hi
    · rw [List.filter_eq_self.mpr (fun a ha => decide_eq_true (hf i List.mem_cons_self a ha)),
        List.filter_eq_nil_iff.mpr,List.append_nil]
      intro a ha hc
      obtain ⟨k,hk,ha⟩ := List.mem_flatMap.mp ha
      refine hj (List.mem_map.mpr ⟨k,hk,?_⟩)
      exact (hrest k hk a ha).symm.trans (of_decide_eq_true hc)
    · rw [ih hnodup hrest hi,List.filter_eq_nil_iff.mpr,List.nil_append]
      intro a ha hc
      refine hj (List.mem_map.mpr ⟨i,hi,?_⟩)
      exact (of_decide_eq_true hc).symm.trans (hf j List.mem_cons_self a ha)

/-- Lists of parts under distinct keys agree exactly if the parts do. -/
theorem perm_flatMap_iff (tag : α → κ) (hl : (l.map key).Nodup) (hf : ∀ i ∈ l, ∀ a ∈ f i, tag a = key i)
    (hg : ∀ i ∈ l, ∀ a ∈ g i, tag a = key i) :
    (l.flatMap f).Perm (l.flatMap g) ↔ ∀ i ∈ l, (f i).Perm (g i) := by
  constructor
  · intro h i hi
    have hfilter := h.filter (fun a => decide (tag a = key i))
    rwa [filter_flatMap_key hl hf hi,filter_flatMap_key hl hg hi] at hfilter
  · exact List.Perm.flatMap_left l

theorem flatMap_filter_ite {p : ι → Prop} [DecidablePred p] :
    (l.filter (fun i => decide (p i))).flatMap f = l.flatMap (fun i => if p i then f i else []) := by
  induction l with
  | nil => rfl
  | cons i l ih =>
    by_cases hi : p i
    · rw [List.filter_cons_of_pos (by simpa using hi),List.flatMap_cons,List.flatMap_cons,if_pos hi,
        ih]
    · rw [List.filter_cons_of_neg (by simpa using hi),List.flatMap_cons,if_neg hi,ih,List.nil_append]

end Parts

section Query

variable {env : CalendarEnv} {w : TimeWindow m} {db : CalendarEvents}

/-- The query returns, in some order, what each event that meets the range is expanded to. -/
theorem listEvents_perm : (listEvents env db w.rangeStart w.rangeEnd).Perm
    (db.rows.flatMap
      (fun e => if e.MeetsRange w.rangeStart w.rangeEnd then expanded env w e else [])) := by
  unfold listEvents expandRecurring sortByStart
  refine (List.mergeSort_perm _ _).trans ?_
  refine ((List.mergeSort_perm _ _).flatMap_right _).trans ?_
  rw [flatMap_filter_ite]
  exact .refl _

/-- What is returned for an event is of that event. -/
theorem Faithful.id_of_mem_expanded (h : Faithful env w db) {e e' : CalendarEvent}
    (he : e' ∈ expanded env w e) : e'.id = e.id := by
  by_cases hmaster : ∀ o, CanExpand env w e o → o.between w.lo w.hi = []
  · rw [h.expanded_itself hmaster] at he
    rw [List.mem_singleton.mp he]
  · obtain ⟨o,ho,hne⟩ : ∃ o, CanExpand env w e o ∧ o.between w.lo w.hi ≠ [] := by
      by_contra hc
      exact hmaster (fun o ho => by_contra (fun hne => hc ⟨o,ho,hne⟩))
    obtain ⟨d,_,hex⟩ := h.expanded_occurrences ho hne
    rw [hex] at he
    obtain ⟨t,_,rfl⟩ := List.mem_map.mp he
    show (occurrenceAt env e d t).blank.id = e.blank.id
    rw [blank_occurrenceAt]

end Query

/-! ### A month with a weekly event -/

/-- The instants of some texts, in seconds. -/
def marchSeconds : List (String × Int) :=
  [("2025-03-01T00:00:00Z",1740787200),("2025-03-06T09:00:00Z",1741251600),
    ("2025-03-06T09:30:00Z",1741253400),("2025-03-13T09:00:00Z",1741856400),
    ("2025-03-13T09:30:00Z",1741858200),("2025-03-31T00:00:00Z",1743379200),
    ("2025-03-31T01:00:00Z",1743382800)]

def weekly : Ascending Int := .ofList [1741251600 * second,1741856400 * second] (by decide)

/-- Only these texts are read and written. -/
def marchEnv : CalendarEnv where
  date _ := none
  dateTime s := (marchSeconds.lookup s).map (· * second)
  naiveDateTime _ := none
  formatDate _ := ""
  formatUtc t := ((marchSeconds.find? (fun p => p.2 = t / second)).map Prod.fst).getD ""
  rruleSet s :=
    if s = "DTSTART:20250306T090000Z\nRRULE:FREQ=WEEKLY;COUNT=2" then some weekly else none

def marchReading : TimeReading where
  reads := marchEnv.dateTime
  recurs start rule := marchEnv.rruleSet (icalRule start rule)

def eventAt (id start end_ : String) (rule : Option String) : CalendarEvent where
  id := id
  title := "Rain"
  description := ""
  location := ""
  startTime := start
  endTime := end_
  allDay := false
  recurrenceRule := rule
  attendees := "[]"
  organizer := ""
  status := "confirmed"
  source := "manual"
  sourceUid := none
  sourceMessageUid := none
  sourceMessageFolder := none
  meetingUrl := none
  color := none
  reminderMinutes := none
  createdAt := "2025-03-01T00:00:00Z"
  updatedAt := "2025-03-01T00:00:00Z"

def standup : CalendarEvent :=
  eventAt "standup" "2025-03-06T09:00:00Z" "2025-03-06T09:30:00Z" (some "FREQ=WEEKLY;COUNT=2")

/-- It starts right at the end of March's range. -/
def lastDay : CalendarEvent := eventAt "last" "2025-03-31T00:00:00Z" "2025-03-31T01:00:00Z" none

def marchEvents : CalendarEvents := ⟨[standup,lastDay],by decide⟩

def march : TimeWindow marchReading where
  rangeStart := "2025-03-01T00:00:00Z"
  rangeEnd := "2025-03-31T00:00:00Z"
  lo := 1740787200 * second
  hi := 1743379200 * second
  reads_start := by decide
  reads_end := by decide

/-- The week of the second occurrence. -/
def secondWeek : TimeWindow marchReading where
  rangeStart := "2025-03-13T09:00:00Z"
  rangeEnd := "2025-03-31T00:00:00Z"
  lo := 1741856400 * second
  hi := 1743379200 * second
  reads_start := by decide
  reads_end := by decide

theorem isDateOnly_march : ∀ e ∈ marchEvents.rows, isDateOnly e.startTime = false := by decide

theorem expandable_march {w : TimeWindow marchReading} {e : CalendarEvent} {o : Ascending Int}
    (h : CanExpand marchEnv w e o) : o = weekly := by
  obtain ⟨rule,_,hset⟩ := h.rule
  unfold marchEnv at hset
  simp only at hset
  split_ifs at hset
  exact (Option.some.inj hset).symm

theorem faithful_march : Faithful marchEnv march marchEvents where
  date _ _ h := nomatch h
  dateTime _ _ h := h
  naiveDateTime _ _ h := nomatch h
  rule _ _ _ h := h
  seconds e _ o ho t ht := by
    rw [expandable_march ho] at ht
    have hall : ∀ t ∈ weekly.upTo march.hi, second ∣ t := by decide
    exact hall t ht
  days e he o _ hdate := absurd hdate (by rw [isDateOnly_march e he]; exact Bool.false_ne_true)
  formatUtc e he o ho _ t ht d hd := by
    rw [expandable_march ho] at ht
    obtain ⟨rule,hrule,_⟩ := ho.rule
    have hdur : d ∈ [0,1800 * second] := by
      rcases List.mem_cons.mp he with rfl | he
      · have hstandup : eventDuration marchEnv standup = some (1800 * second) := by decide
        rcases hd with rfl | hd
        · exact List.mem_cons_self
        · rw [Option.some.inj (hd.symm.trans hstandup)]
          exact List.mem_cons_of_mem _ List.mem_cons_self
      · rw [List.mem_singleton.mp he] at hrule
        cases hrule
    have hall : ∀ t ∈ weekly.upTo march.hi, ∀ d ∈ [0,1800 * second],
        (marchReading.reads (marchEnv.formatUtc (t + d))).map (· / second) =
          some ((t + d) / second) := by decide
    exact hall t ht d hdur
  formatDate e he o _ hdate := absurd hdate (by rw [isDateOnly_march e he]; exact Bool.false_ne_true)

theorem fits_standup : Fits marchEnv march standup :=
  .expanded (by decide) ⟨⟨_,rfl,rfl⟩,by decide,by decide,by decide⟩ (by decide) (by decide)
    (by decide)

theorem fits_lastDay : Fits marchEnv march lastDay := by
  refine .itself (by decide) (fun o ho => ?_)
    ⟨(1743379200 * second,1743382800 * second),by decide,by decide⟩
  obtain ⟨_,hrule,_⟩ := ho.rule
  cases hrule

end Rav
