import Mathlib.Data.List.MinMax
import Rav.DashMap
import Rav.Runs

/-!
# Least recently used

A map that makes what it is asked for and does not hold, and holds at most a number of entries: at
capacity, the entry used longest ago goes before the new one is made, whether or not making it succeeds.
A sweep drops what has not been used for a while. Of entries used at the same instant any may go, since the
order in which the map is gone through is not fixed.

## Main definitions

- `Lru.use`, `Lru.sweep` — the operations
- `Lru.Event`, `Lru.step` — runs of them
- `Lru.Rivals` — the other keys that were asked for at a time or later
- `Lru.card_held_run`, `Lru.made_run`, `Lru.kept_run`
-/

namespace Rav

universe u v

/-- A value and the time of its last use. -/
structure LruEntry (ν : Type v) where
  value : ν
  lastUsed : Nat
  deriving DecidableEq, Repr

abbrev Lru (κ : Type u) (ν : Type v) : Type (max u v) := DashMap κ (LruEntry ν)

namespace Lru

variable {κ : Type u} {ν : Type v} [DecidableEq κ]

/-- At capacity, drop the entry that was used longest ago, the first of them in the order the map is gone
through. -/
def makeRoom (capacity : Nat) (order : List (κ × LruEntry ν)) (m : Lru κ ν) : Lru κ ν :=
  if capacity ≤ m.iter.length then
    match order.argmin (fun e => e.2.lastUsed) with
    | some oldest => m.remove oldest.1
    | none => m
  else m

/-- Ask for a key; `made` is what is made of it if it is not held. -/
def use (capacity : Nat) (order : List (κ × LruEntry ν)) (k : κ) (now : Nat) (made : Option ν)
    (m : Lru κ ν) : Option ν × Lru κ ν :=
  match m.get k with
  | some e => (some e.value,m.modify k (fun e => { e with lastUsed := now }))
  | none =>
    let m := makeRoom capacity order m
    match made with
    | none => (none,m)
    | some v => (some v,m.insert k ⟨v,now⟩)

/-- Drop what has not been used for as long as `idle`. -/
def sweep (idle now : Nat) (m : Lru κ ν) : Lru κ ν :=
  m.retain (fun _ e => if now - e.lastUsed < idle then some e else none)

inductive Event (κ : Type u) (ν : Type v)
  | use (order : List (κ × LruEntry ν)) (k : κ) (now : Nat) (made : Option ν)
  | sweep (now : Nat)

def Event.time : Event κ ν → Nat
  | .use _ _ now _ => now
  | .sweep now => now

/-- The map is gone through in some order. -/
def Event.Possible (m : Lru κ ν) : Event κ ν → Prop
  | .use order .. => order.Perm m.iter
  | .sweep _ => True

def Event.apply (capacity idle : Nat) (m : Lru κ ν) : Event κ ν → Lru κ ν
  | .use order k now made => (m.use capacity order k now made).2
  | .sweep now => m.sweep idle now

def step (capacity idle : Nat) (m : Lru κ ν) (e : Event κ ν) : Option (Lru κ ν) :=
  some (e.apply capacity idle m)

/-- The runs from an empty map. -/
abbrev Reaches (capacity idle : Nat) : List (Event κ ν) → Lru κ ν → Prop :=
  Run (step capacity idle) Event.Possible DashMap.new

/-- Another key that was asked for at the time `t` or later. -/
def Rivals (k : κ) (t : Nat) (es : List (Event κ ν)) : Finset κ :=
  (es.filterMap fun
    | .use _ l now _ => if l ≠ k ∧ t ≤ now then some l else none
    | .sweep _ => none).toFinset

theorem mem_rivals {k l : κ} {t : Nat} {es : List (Event κ ν)} :
    l ∈ Rivals k t es ↔ l ≠ k ∧ ∃ order now made, t ≤ now ∧ Event.use order l now made ∈ es := by
  rw [Rivals, List.mem_toFinset, List.mem_filterMap]
  constructor
  · rintro ⟨e, he, hl⟩
    cases e with
    | use order l' now made =>
      obtain ⟨hif, hl⟩ := Option.ite_none_right_eq_some.mp hl
      obtain rfl := Option.some.inj hl
      exact ⟨hif.1, order, now, made, hif.2, he⟩
    | sweep now => exact absurd hl.symm (Option.some_ne_none l)
  · rintro ⟨hne, order, now, made, ht, he⟩
    exact ⟨_, he, if_pos ⟨hne, ht⟩⟩

/-! ### What is held -/

section Held

variable {m : Lru κ ν} {k l : κ} {capacity idle now : Nat} {order : List (κ × LruEntry ν)} {made : Option ν}

def held (m : Lru κ ν) : Finset κ := (m.iter.map Prod.fst).toFinset

theorem mem_held : k ∈ held m ↔ ∃ e, m.get k = some e := by
  simp [held, DashMap.get_eq_some]

theorem card_held : (held m).card = m.iter.length := by
  have hnodup : (m.iter.map Prod.fst).Nodup := m.nodup
  rw [held, List.toFinset_card_of_nodup hnodup, List.length_map]

theorem held_remove : held (m.remove k) = (held m).erase k := by
  ext l
  rw [Finset.mem_erase, mem_held, mem_held, DashMap.get_remove]
  by_cases hl : l = k
  · simp [hl]
  · simp [hl]

theorem held_insert (e : LruEntry ν) : held (m.insert k e) = insert k (held m) := by
  ext l
  rw [Finset.mem_insert, mem_held, mem_held, DashMap.get_insert]
  by_cases hl : l = k
  · simp [hl]
  · simp [hl]

theorem held_modify (f : LruEntry ν → LruEntry ν) : held (m.modify k f) = held m := by
  ext l
  rw [mem_held, mem_held, DashMap.get_modify]
  by_cases hl : l = k
  · simp [hl]
  · simp [hl]

/-- What is made room for fits: nothing goes below capacity, and at capacity one entry does. -/
theorem makeRoom_cases (horder : order.Perm m.iter) :
    (m.makeRoom capacity order = m ∧ ((held m).card < capacity ∨ held m = ∅)) ∨
      ∃ l e, m.get l = some e ∧ (∀ l' e', m.get l' = some e' → e.lastUsed ≤ e'.lastUsed) ∧
        capacity ≤ (held m).card ∧ m.makeRoom capacity order = m.remove l := by
  rw [makeRoom, ← card_held]
  split
  · next hfull =>
    cases hmin : order.argmin (fun e => e.2.lastUsed) with
    | none =>
      have hnil := List.argmin_eq_none.mp hmin
      rw [hnil] at horder
      refine Or.inl ⟨rfl, Or.inr ?_⟩
      rw [held, List.nil_perm.mp horder]
      rfl
    | some oldest =>
      have hmem := List.argmin_mem hmin
      refine Or.inr ⟨oldest.1, oldest.2, DashMap.get_eq_some.mpr (horder.mem_iff.mp hmem), ?_, hfull, rfl⟩
      intro l' e' he'
      have hmem' : (l',e') ∈ order := horder.mem_iff.mpr (DashMap.get_eq_some.mp he')
      exact @List.le_of_mem_argmin _ _ _ (fun e : κ × LruEntry ν => e.2.lastUsed) _ _ _ hmem' hmin
  · next hroom => exact Or.inl ⟨rfl, Or.inl (Nat.not_le.mp hroom)⟩

theorem get_makeRoom_of_some (horder : order.Perm m.iter) {e : LruEntry ν}
    (he : (m.makeRoom capacity order).get k = some e) : m.get k = some e := by
  obtain ⟨hsame, -⟩ | ⟨l, -, -, -, -, hremove⟩ := @makeRoom_cases κ ν _ m capacity order horder
  · rwa [hsame] at he
  · rw [hremove, DashMap.get_remove] at he
    split at he
    · exact absurd he.symm (Option.some_ne_none e)
    · exact he

theorem card_makeRoom (horder : order.Perm m.iter) (hcap : (held m).card ≤ max 1 capacity) :
    (held (m.makeRoom capacity order)).card + 1 ≤ max 1 capacity := by
  obtain ⟨hsame, hroom | hnone⟩ | ⟨l, e, hl, -, hfull, hremove⟩ := @makeRoom_cases κ ν _ m capacity order horder
  · rw [hsame]
    omega
  · rw [hsame, hnone, Finset.card_empty]
    omega
  · rw [hremove, held_remove, Finset.card_erase_of_mem (mem_held.mpr ⟨e, hl⟩)]
    have hpos : 0 < (held m).card := Finset.card_pos.mpr ⟨l, mem_held.mpr ⟨e, hl⟩⟩
    omega

theorem held_sweep : held (m.sweep idle now) ⊆ held m := by
  intro l hl
  obtain ⟨e, he⟩ := mem_held.mp hl
  rw [sweep, DashMap.get_retain] at he
  obtain ⟨e', he', -⟩ := Option.bind_eq_some_iff.mp he
  exact mem_held.mpr ⟨e', he'⟩

/-- One step keeps within capacity. -/
theorem card_held_apply {e : Event κ ν} (he : e.Possible m) (hcap : (held m).card ≤ max 1 capacity) :
    (held (e.apply capacity idle m)).card ≤ max 1 capacity := by
  cases e with
  | sweep now => exact (Finset.card_le_card held_sweep).trans hcap
  | use order k now made =>
    have hroom := card_makeRoom he hcap
    rw [Event.apply, use]
    cases m.get k with
    | some e =>
      dsimp only
      rw [held_modify]
      exact hcap
    | none =>
      cases made with
      | none => exact (Nat.le_succ _).trans hroom
      | some v =>
        dsimp only
        rw [held_insert]
        exact (Finset.card_insert_le _ _).trans hroom

end Held

/-! ### Runs -/

variable {capacity idle : Nat} {es es' : List (Event κ ν)} {m m' : Lru κ ν} {k : κ} {v : ν} {t : Nat}

/-- In every run at most the capacity is held, but one entry at least may be. -/
theorem card_held_run (h : Reaches capacity idle es m) : (held m).card ≤ max 1 capacity := by
  apply h.invariant
  · exact Nat.zero_le _
  · intro s e t hs he hst
    obtain rfl := Option.some.inj hst
    exact card_held_apply he hs

/-- What an entry is after a step: it was used, or it was there before. -/
theorem get_apply {e : Event κ ν} (he : e.Possible m) {x : LruEntry ν}
    (hx : (e.apply capacity idle m).get k = some x) :
    (∃ order now made, e = .use order k now made ∧ x.lastUsed = now ∧
      (made = some x.value ∨ ∃ y, m.get k = some y ∧ y.value = x.value)) ∨ m.get k = some x := by
  cases e with
  | sweep now =>
    rw [Event.apply, sweep, DashMap.get_retain] at hx
    obtain ⟨y, hy, hxy⟩ := Option.bind_eq_some_iff.mp hx
    rw [← (Option.ite_none_right_eq_some.mp hxy).2]
    exact Or.inr hy
  | use order l now made =>
    rw [Event.apply, use] at hx
    cases hl : m.get l with
    | some y =>
      rw [hl] at hx
      dsimp only at hx
      rw [DashMap.get_modify] at hx
      by_cases hk : k = l
      · subst hk
        rw [if_pos rfl, hl] at hx
        obtain rfl := Option.some.inj hx
        exact Or.inl ⟨order, now, made, rfl, rfl, Or.inr ⟨y, hl, rfl⟩⟩
      · rw [if_neg hk] at hx
        exact Or.inr hx
    | none =>
      rw [hl] at hx
      cases made with
      | none => exact Or.inr (get_makeRoom_of_some he hx)
      | some v =>
        dsimp only at hx
        rw [DashMap.get_insert] at hx
        by_cases hk : k = l
        · subst hk
          rw [if_pos rfl] at hx
          obtain rfl := Option.some.inj hx
          exact Or.inl ⟨order, now, some v, rfl, rfl, Or.inl rfl⟩
        · rw [if_neg hk] at hx
          exact Or.inr (get_makeRoom_of_some he hx)

/-- What is held under a key has been made for it, and was asked for when its stamp says. -/
theorem made_run (h : Reaches capacity idle es m) {x : LruEntry ν} (hx : m.get k = some x) :
    (∃ order now, Event.use order k now (some x.value) ∈ es) ∧
      ∃ order made, Event.use order k x.lastUsed made ∈ es := by
  induction h generalizing x with
  | nil => exact absurd hx.symm (Option.some_ne_none x)
  | @snoc s t es e hrun he hst ih =>
    obtain rfl := Option.some.inj hst
    have hmem : ∀ {e'}, e' ∈ es → e' ∈ es ++ [e] := fun he' => List.mem_append_left _ he'
    obtain ⟨order, now, made, rfl, rfl, hvalue⟩ | hold := get_apply he hx
    · refine ⟨?_, order, made, List.mem_append_right _ List.mem_cons_self⟩
      obtain rfl | ⟨y, hy, hyx⟩ := hvalue
      · exact ⟨order, x.lastUsed, List.mem_append_right _ List.mem_cons_self⟩
      · obtain ⟨⟨order', now', hmade⟩, -⟩ := ih hy
        rw [hyx] at hmade
        exact ⟨order', now', hmem hmade⟩
    · obtain ⟨⟨order, now, hmade⟩, order', made', huse⟩ := ih hold
      exact ⟨⟨order, now, hmem hmade⟩, order', made', hmem huse⟩

/-- One step that keeps an entry: a sweep before its time, or a use while it has few rivals. -/
theorem kept_apply (h : Reaches capacity idle es m) {e : Event κ ν} (he : e.Possible m) {x : LruEntry ν}
    (hx : m.get k = some x) (hclock : ∀ e' ∈ es, e'.time ≤ e.time)
    (hidle : ∀ now, e = .sweep now → now - x.lastUsed < idle)
    (hrivals : (Rivals k x.lastUsed (es ++ [e])).card < max 1 capacity) :
    ∃ y, (e.apply capacity idle m).get k = some y ∧ y.value = x.value ∧ x.lastUsed ≤ y.lastUsed := by
  obtain ⟨-, order', made', huse⟩ := made_run h hx
  cases e with
  | sweep now =>
    refine ⟨x, ?_, rfl, Nat.le_refl _⟩
    rw [Event.apply, sweep, DashMap.get_retain, hx, Option.bind_some, if_pos (hidle now rfl)]
  | use order l now made =>
    have hnow : x.lastUsed ≤ now := hclock _ huse
    rw [Event.apply, use]
    cases hl : m.get l with
    | some z =>
      dsimp only
      rw [DashMap.get_modify]
      by_cases hk : k = l
      · subst hk
        rw [if_pos rfl, hx]
        exact ⟨_, rfl, rfl, hnow⟩
      · rw [if_neg hk]
        exact ⟨x, hx, rfl, Nat.le_refl _⟩
    | none =>
      have hkl : k ≠ l := by
        rintro rfl
        exact Option.some_ne_none x (hx.symm.trans hl)
      -- had the entry to go, every other one and the key asked for would be a rival
      have hstays : (m.makeRoom capacity order).get k = some x := by
        obtain ⟨hsame, -⟩ | ⟨g, z, hg, hmin, hfull, hremove⟩ := @makeRoom_cases κ ν _ m capacity order he
        · rw [hsame]
          exact hx
        rw [hremove, DashMap.get_remove, if_neg]
        · exact hx
        rintro rfl
        obtain rfl := Option.some.inj (hx.symm.trans hg)
        have hsub : insert l ((held m).erase k) ⊆ Rivals k x.lastUsed (es ++ [.use order l now made]) := by
          intro g hg
          rw [mem_rivals]
          obtain rfl | hg := Finset.mem_insert.mp hg
          · exact ⟨Ne.symm hkl, order, now, made, hnow, List.mem_append_right _ List.mem_cons_self⟩
          · obtain ⟨hne, hheld⟩ := Finset.mem_erase.mp hg
            obtain ⟨w, hw⟩ := mem_held.mp hheld
            obtain ⟨-, order'', made'', hused⟩ := made_run h hw
            exact ⟨hne, order'', w.lastUsed, made'', hmin g w hw, List.mem_append_left _ hused⟩
        have hfresh : l ∉ (held m).erase k := by
          intro hmem
          obtain ⟨w, hw⟩ := mem_held.mp (Finset.mem_erase.mp hmem).2
          exact Option.some_ne_none w (hw.symm.trans hl)
        have hcard := Finset.card_le_card hsub
        rw [Finset.card_insert_of_notMem hfresh,
          Finset.card_erase_of_mem (mem_held.mpr ⟨x, hx⟩)] at hcard
        have hpos : 0 < (held m).card := Finset.card_pos.mpr ⟨k, mem_held.mpr ⟨x, hx⟩⟩
        omega
      cases made with
      | none => exact ⟨x, hstays, rfl, Nat.le_refl _⟩
      | some w =>
        dsimp only
        rw [DashMap.get_insert, if_neg hkl]
        exact ⟨x, hstays, rfl, Nat.le_refl _⟩

theorem rivals_mono {t' : Nat} (ht : t ≤ t') {fs : List (Event κ ν)} (hfs : fs ⊆ es) :
    Rivals k t' fs ⊆ Rivals k t es := by
  intro l hl
  obtain ⟨hne, order, now, made, hnow, hmem⟩ := mem_rivals.mp hl
  exact mem_rivals.mpr ⟨hne, order, now, made, ht.trans hnow, hfs hmem⟩

/-- An entry is kept as long as its rivals since its last use are fewer than the capacity and no sweep
comes when it has been idle for too long. -/
theorem kept_run (h : Reaches capacity idle es m) {x : LruEntry ν} (hx : m.get k = some x)
    (h' : Run (step capacity idle) Event.Possible m es' m')
    (hclock : ((es ++ es').map Event.time).Pairwise (· ≤ ·))
    (hidle : ∀ now, Event.sweep now ∈ es' → now - x.lastUsed < idle)
    (hrivals : (Rivals k x.lastUsed (es ++ es')).card < max 1 capacity) :
    ∃ y, m'.get k = some y ∧ y.value = x.value ∧ x.lastUsed ≤ y.lastUsed := by
  induction h' with
  | nil => exact ⟨x, hx, rfl, Nat.le_refl _⟩
  | @snoc s t es' e hrun he hst ih =>
    obtain rfl := Option.some.inj hst
    rw [← List.append_assoc] at hclock hrivals
    rw [List.map_append] at hclock
    obtain ⟨hclock, -, hlast⟩ := List.pairwise_append.mp hclock
    have hfewer := Finset.card_le_card
      (@rivals_mono κ ν _ (es ++ es' ++ [e]) k x.lastUsed x.lastUsed (Nat.le_refl _) (es ++ es')
        (List.subset_append_left _ _))
    obtain ⟨y, hy, hvalue, hlater⟩ := ih hclock
      (fun now hmem => hidle now (List.mem_append_left _ hmem)) (Nat.lt_of_le_of_lt hfewer hrivals)
    have hstep := @kept_apply κ ν _ capacity idle (es ++ es') s k (h.trans hrun) e he y hy ?_ ?_ ?_
    · obtain ⟨z, hz, hzy, hyz⟩ := hstep
      exact ⟨z, hz, hzy.trans hvalue, hlater.trans hyz⟩
    · intro e' he'
      exact hlast _ (List.mem_map_of_mem he') _ (List.mem_map_of_mem List.mem_cons_self)
    · rintro now rfl
      have hsweep := hidle now (List.mem_append_right _ List.mem_cons_self)
      omega
    · exact Nat.lt_of_le_of_lt (Finset.card_le_card (rivals_mono hlater (List.Subset.refl _))) hrivals

end Lru

end Rav
