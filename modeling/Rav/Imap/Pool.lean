import Rav.DashMap

/-!
# `imap::pool`

A bounded number of idle values for each key. A lock makes every operation atomic. Instants are in
nanoseconds; an instant before another is no time after it.

## Main definitions

- `IdlePool`, `IdlePool.take`, `IdlePool.put`
- `PoolOp`, `IdlePool.play` — operations one after the other, with what each came to
- `PoolSound`, `pool_sound` — values come out once, under their key and in time
-/

namespace Rav

universe u

/-- The idle values of each key, the last one first, each with the instant it was put. -/
structure IdlePool (T : Type u) where
  slots : DashMap String (List (T × Nat))
  maxIdle : Nat
  maxAge : Option Nat

/-- What has been idle since an instant may still be handed out. -/
def Young (maxAge : Option Nat) (since now : Nat) : Prop := ∀ max ∈ maxAge, now - since < max

instance (maxAge : Option Nat) (since now : Nat) : Decidable (Young maxAge since now) :=
  inferInstanceAs (Decidable (∀ max ∈ maxAge, now - since < max))

namespace IdlePool

variable {T : Type u}

/-- `IdlePool::new` and `IdlePool::with_max_age`. -/
def empty (maxIdle : Nat) (maxAge : Option Nat) : IdlePool T := ⟨DashMap.new,maxIdle,maxAge⟩

def slot (p : IdlePool T) (key : String) : List (T × Nat) := (p.slots.get key).getD []

/-- Drop values up to one that is young enough, which is returned with the reading of the clock that
says so; the `n`-th value is compared with the `n`-th reading. -/
def popYoung (maxAge : Option Nat) :
    (Nat → Nat) → List (T × Nat) → Option (T × Nat) × List (T × Nat)
  | _, [] => (none,[])
  | clock, (value,since) :: rest =>
    if Young maxAge since (clock 0) then (some (value,clock 0),rest)
    else popYoung maxAge (fun n => clock (n+1)) rest

/-- `take`, with the reading of the clock at which the value was young enough. -/
def takeAt (p : IdlePool T) (clock : Nat → Nat) (key : String) : Option (T × Nat) × IdlePool T :=
  match p.slots.get key with
  | none => (none,p)
  | some entry =>
    let r := popYoung p.maxAge clock entry
    (r.1,{ p with slots := p.slots.insert key r.2 })

def take (p : IdlePool T) (clock : Nat → Nat) (key : String) : Option T × IdlePool T :=
  ((p.takeAt clock key).1.map Prod.fst,(p.takeAt clock key).2)

/-- Returns false when this key is already at capacity, in which case the value is dropped. -/
def put (p : IdlePool T) (now : Nat) (key : String) (value : T) : Bool × IdlePool T :=
  if p.maxIdle = 0 then (false,p)
  else
    let entry := p.slot key
    if p.maxIdle ≤ entry.length then (false,{ p with slots := p.slots.insert key entry })
    else (true,{ p with slots := p.slots.insert key ((value,now) :: entry) })

end IdlePool

/-- An operation, with the instants it reads from the clock. -/
inductive PoolOp (T : Type u)
  | put (key : String) (value : T) (now : Nat)
  | take (key : String) (clock : Nat → Nat)

/-- What an operation came to. -/
inductive PoolRecord (T : Type u)
  | stored (key : String) (value : T) (now : Nat)
  | refused (key : String) (value : T)
  | handed (key : String) (value : T) (now : Nat)
  | nothing (key : String)

namespace IdlePool

variable {T : Type u}

def perform (p : IdlePool T) : PoolOp T → PoolRecord T × IdlePool T
  | .put key value now =>
    (if (p.put now key value).1 then .stored key value now else .refused key value,
      (p.put now key value).2)
  | .take key clock =>
    (match (p.takeAt clock key).1 with
      | some (value,now) => .handed key value now
      | none => .nothing key,
      (p.takeAt clock key).2)

/-- Operations one after the other: what they came to, and what they leave. -/
def play (p : IdlePool T) (ops : List (PoolOp T)) : List (PoolRecord T) × IdlePool T :=
  ops.foldl (fun s op => (s.1 ++ [(s.2.perform op).1],(s.2.perform op).2)) ([],p)

end IdlePool

/-- Each value handed out is one that was stored before, under the same key and not too long ago, and
no two are the same; and no key has too many. -/
structure PoolSound {T : Type u} (maxIdle : Nat) (maxAge : Option Nat)
    (s : List (PoolRecord T) × IdlePool T) : Prop where
  once : ∃ source : Nat → Nat,
    (∀ i key value now, s.1[i]? = some (.handed key value now) → source i < i ∧
      ∃ since, s.1[source i]? = some (.stored key value since) ∧ Young maxAge since now) ∧
    ∀ i j key key' value value' now now', s.1[i]? = some (.handed key value now) →
      s.1[j]? = some (.handed key' value' now') → source i = source j → i = j
  bounded : ∀ key, (s.2.slot key).length ≤ maxIdle

/-! ### One operation -/

namespace IdlePool

variable {T : Type u} {p : IdlePool T} {key : String}

/-- Either all values are too old, or those before the one returned. -/
theorem popYoung_cases (maxAge : Option Nat) (clock : Nat → Nat) (entry : List (T × Nat)) :
    popYoung maxAge clock entry = (none,[]) ∨ ∃ old value since now rest,
      entry = old ++ (value,since) :: rest ∧ Young maxAge since now ∧
        popYoung maxAge clock entry = (some (value,now),rest) := by
  induction entry generalizing clock with
  | nil => exact .inl rfl
  | cons e entry ih =>
    obtain ⟨value,since⟩ := e
    rw [popYoung]
    split
    · next hy => exact .inr ⟨[],value,since,clock 0,entry,rfl,hy,rfl⟩
    · rcases ih (fun n => clock (n+1)) with h | ⟨old,v,s,now,rest,rfl,hy,h⟩
      · exact .inl h
      · exact .inr ⟨(value,since) :: old,v,s,now,rest,rfl,hy,h⟩

/-- What is returned is the first that is young enough at its reading of the clock. -/
theorem popYoung_fst_eq_some {maxAge : Option Nat} {clock : Nat → Nat} {entry : List (T × Nat)}
    {value : T} {now : Nat} : (popYoung maxAge clock entry).1 = some (value,now) ↔
      ∃ old since rest, entry = old ++ (value,since) :: rest ∧
        (∀ n e, old[n]? = some e → ¬Young maxAge e.2 (clock n)) ∧
        Young maxAge since (clock old.length) ∧ now = clock old.length := by
  induction entry generalizing clock with
  | nil =>
    refine ⟨nofun,?_⟩
    rintro ⟨old,since,rest,h,-⟩
    exact absurd h.symm (List.append_ne_nil_of_right_ne_nil old (List.cons_ne_nil _ _))
  | cons e entry ih =>
    obtain ⟨v,t⟩ := e
    rw [popYoung]
    split
    · next hy =>
      constructor
      · intro h
        obtain ⟨rfl,rfl⟩ := Prod.mk.inj (Option.some.inj h)
        exact ⟨[],t,entry,rfl,nofun,hy,rfl⟩
      · rintro ⟨old,since,rest,h,hold,-,rfl⟩
        cases old with
        | nil =>
          obtain ⟨rfl,rfl⟩ := Prod.mk.inj (List.cons.inj h).1
          rfl
        | cons e old =>
          obtain rfl := (List.cons.inj h).1
          exact absurd hy (hold 0 _ rfl)
    · next hy =>
      rw [ih]
      constructor
      · rintro ⟨old,since,rest,rfl,hold,hyoung,rfl⟩
        refine ⟨(v,t) :: old,since,rest,rfl,fun n e hn => ?_,hyoung,rfl⟩
        cases n with
        | zero =>
          obtain rfl := Option.some.inj hn
          exact hy
        | succ n => exact hold n e hn
      · rintro ⟨old,since,rest,h,hold,hyoung,rfl⟩
        cases old with
        | nil =>
          obtain ⟨rfl,rfl⟩ := Prod.mk.inj (List.cons.inj h).1
          exact absurd hyoung hy
        | cons e old =>
          exact ⟨old,since,rest,(List.cons.inj h).2,fun n e hn => hold (n+1) e hn,hyoung,rfl⟩

theorem take_eq_some {clock : Nat → Nat} {value : T} : (p.take clock key).1 = some value ↔
    ∃ old since rest, p.slot key = old ++ (value,since) :: rest ∧
      (∀ n e, old[n]? = some e → ¬Young p.maxAge e.2 (clock n)) ∧
      Young p.maxAge since (clock old.length) := by
  have hfst : (p.takeAt clock key).1 = (popYoung p.maxAge clock (p.slot key)).1 := by
    unfold takeAt slot
    cases p.slots.get key with
    | none => rfl
    | some entry => rfl
  unfold take
  rw [Option.map_eq_some_iff,hfst]
  constructor
  · rintro ⟨⟨v,now⟩,h,rfl⟩
    obtain ⟨old,since,rest,he,hold,hy,-⟩ := popYoung_fst_eq_some.mp h
    exact ⟨old,since,rest,he,hold,hy⟩
  · rintro ⟨old,since,rest,he,hold,hy⟩
    exact ⟨(value,_),popYoung_fst_eq_some.mpr ⟨old,since,rest,he,hold,hy,rfl⟩,rfl⟩

theorem slot_insert (p : IdlePool T) (key : String) (entry : List (T × Nat)) (k : String) :
    slot { p with slots := p.slots.insert key entry } k = if k = key then entry else p.slot k := by
  unfold slot
  rw [DashMap.get_insert]
  split <;> rfl

/-- What one operation does: a value comes to the front of its slot, the slot of a key loses values
from its front and perhaps one more is handed out, or nothing changes. -/
theorem perform_cases (p : IdlePool T) (op : PoolOp T) :
    (p.perform op).2.maxIdle = p.maxIdle ∧ (p.perform op).2.maxAge = p.maxAge ∧
    ((∃ key value now, op = .put key value now ∧ (p.perform op).1 = .stored key value now ∧
        (p.slot key).length < p.maxIdle ∧ ∀ k, (p.perform op).2.slot k =
          if k = key then (value,now) :: p.slot key else p.slot k) ∨
      (∃ key old value since now rest, (p.perform op).1 = .handed key value now ∧
        p.slot key = old ++ (value,since) :: rest ∧ Young p.maxAge since now ∧
        ∀ k, (p.perform op).2.slot k = if k = key then rest else p.slot k) ∨
      (∀ key value now, (p.perform op).1 ≠ .handed key value now) ∧
        ∀ k, (p.perform op).2.slot k = p.slot k ∨ (p.perform op).2.slot k = []) := by
  cases op with
  | put key value now =>
    simp only [perform,put]
    split
    · exact ⟨rfl,rfl,.inr (.inr ⟨nofun,fun _ => .inl rfl⟩)⟩
    split
    · refine ⟨rfl,rfl,.inr (.inr ⟨nofun,fun k => .inl ?_⟩)⟩
      rw [slot_insert]
      split
      · next hk => rw [hk]
      · rfl
    · next hlt =>
      exact ⟨rfl,rfl,.inl ⟨key,value,now,rfl,rfl,Nat.lt_of_not_le hlt,fun k => slot_insert _ _ _ k⟩⟩
  | take key clock =>
    simp only [perform,takeAt]
    cases hentry : p.slots.get key with
    | none => exact ⟨rfl,rfl,.inr (.inr ⟨nofun,fun _ => .inl rfl⟩)⟩
    | some entry =>
      have hslot : p.slot key = entry := by rw [slot,hentry]; rfl
      dsimp only
      rcases popYoung_cases p.maxAge clock entry with h | ⟨old,value,since,now,rest,he,hy,h⟩
      · refine ⟨rfl,rfl,.inr (.inr ⟨?_,fun k => ?_⟩)⟩
        · rw [h]
          exact nofun
        · rw [h,slot_insert]
          split
          · exact .inr rfl
          · exact .inl rfl
      · refine ⟨rfl,rfl,.inr (.inl ⟨key,old,value,since,now,rest,?_,hslot.trans he,hy,fun k => ?_⟩)⟩
        · rw [h]
        · rw [h]
          exact slot_insert _ _ _ k

/-- What is idle after an operation was idle before, or has just been put. -/
theorem mem_slot_perform {op : PoolOp T} {k : String} {e : T × Nat}
    (he : e ∈ (p.perform op).2.slot k) : e ∈ p.slot k ∨ op = .put k e.1 e.2 := by
  obtain ⟨-,-,hcase⟩ := p.perform_cases op
  rcases hcase with ⟨key,value,now,hop,-,-,hslot⟩ | ⟨key,old,value,since,now,rest,-,hentry,-,hslot⟩ |
    ⟨-,hslot⟩
  · rw [hslot] at he
    split at he
    · next hk =>
      subst hk
      rcases List.mem_cons.mp he with rfl | he
      · exact .inr hop
      · exact .inl he
    · exact .inl he
  · rw [hslot] at he
    split at he
    · next hk =>
      subst hk
      rw [hentry]
      exact .inl (List.mem_append_right _ (List.mem_cons_of_mem _ he))
    · exact .inl he
  · rcases hslot k with hs | hs
    · exact .inl (hs ▸ he)
    · rw [hs] at he
      exact absurd he List.not_mem_nil

end IdlePool

/-! ### Where values come from -/

section Sources

variable {T : Type u} {h : List (PoolRecord T)} {p : IdlePool T}

theorem getElem?_concat_eq_some {α : Type u} {l : List α} {a b : α} {i : Nat} :
    (l ++ [a])[i]? = some b ↔ l[i]? = some b ∨ i = l.length ∧ b = a := by
  rcases Nat.lt_trichotomy i l.length with hi | rfl | hi
  · rw [List.getElem?_append_left hi]
    exact ⟨.inl,fun h => h.resolve_right (fun h => absurd h.1 (Nat.ne_of_lt hi))⟩
  · rw [List.getElem?_concat_length,List.getElem?_eq_none (Nat.le_refl _)]
    simp [eq_comm]
  · rw [List.getElem?_eq_none (by rw [List.length_append]; exact hi),List.getElem?_eq_none (Nat.le_of_lt hi)]
    exact ⟨nofun,fun h => h.elim nofun (fun h => absurd h.1.symm (Nat.ne_of_lt hi))⟩

/-- The `i`-th operation hands a value out. -/
def Hands (h : List (PoolRecord T)) (i : Nat) : Prop :=
  ∃ key value now, h[i]? = some (.handed key value now)

/-- The values in the slots and those handed out come from operations that stored them, each from
one of its own. -/
structure Tracked (h : List (PoolRecord T)) (p : IdlePool T) (source : Nat → Nat)
    (labelled : String → List (Nat × T × Nat)) : Prop where
  slots : ∀ key, (labelled key).map Prod.snd = p.slot key
  stored : ∀ key, ∀ e ∈ labelled key, h[e.1]? = some (.stored key e.2.1 e.2.2)
  nodup : ∀ key, ((labelled key).map Prod.fst).Nodup
  handed : ∀ i key value now, h[i]? = some (.handed key value now) → source i < i ∧
    ∃ since, h[source i]? = some (.stored key value since) ∧ Young p.maxAge since now
  once : ∀ i j, Hands h i → Hands h j → source i = source j → i = j
  spent : ∀ i, Hands h i → ∀ key, ∀ e ∈ labelled key, source i ≠ e.1

namespace Tracked

variable {source : Nat → Nat} {labelled : String → List (Nat × T × Nat)} {p' : IdlePool T}
  {r : PoolRecord T}

theorem lt_length (ht : Tracked h p source labelled) {key : String} {e : Nat × T × Nat}
    (he : e ∈ labelled key) : e.1 < h.length :=
  (List.getElem?_eq_some_iff.mp (ht.stored key e he)).1

theorem hands_concat {i : Nat} (hr : ∀ key value now, r ≠ .handed key value now)
    (hi : Hands (h ++ [r]) i) : Hands h i := by
  obtain ⟨key,value,now,hi⟩ := hi
  rcases getElem?_concat_eq_some.mp hi with hi | ⟨-,hi⟩
  · exact ⟨key,value,now,hi⟩
  · exact absurd hi.symm (hr key value now)

theorem length_of_hands {i : Nat} (hi : Hands h i) : i < h.length := by
  obtain ⟨key,value,now,hi⟩ := hi
  exact (List.getElem?_eq_some_iff.mp hi).1

/-- An operation that hands nothing out and leaves a part of each slot. -/
theorem idle (ht : Tracked h p source labelled) (hage : p'.maxAge = p.maxAge)
    (hr : ∀ key value now, r ≠ .handed key value now)
    (hslot : ∀ key, p'.slot key = p.slot key ∨ p'.slot key = []) :
    Tracked (h ++ [r]) p' source (fun key => if (p'.slot key).isEmpty then [] else labelled key) := by
  refine ⟨fun key => ?_,fun key e he => ?_,fun key => ?_,fun i key value now hi => ?_,
    fun i j hi hj => ht.once i j (hands_concat hr hi) (hands_concat hr hj),fun i hi key e he => ?_⟩
  · split
    · next hs => exact (List.isEmpty_iff.mp hs).symm
    · next hs =>
      rcases hslot key with hk | hk
      · exact (ht.slots key).trans hk.symm
      · exact absurd (List.isEmpty_iff.mpr hk) hs
  · split at he
    · exact absurd he List.not_mem_nil
    · exact getElem?_concat_eq_some.mpr (.inl (ht.stored key e he))
  · split
    · exact List.nodup_nil
    · exact ht.nodup key
  · obtain ⟨hlt,since,hs,hy⟩ := ht.handed i key value now
      ((getElem?_concat_eq_some.mp hi).resolve_right (fun hi => hr key value now hi.2.symm))
    exact ⟨hlt,since,getElem?_concat_eq_some.mpr (.inl hs),hage ▸ hy⟩
  · split at he
    · exact absurd he List.not_mem_nil
    · exact ht.spent i (hands_concat hr hi) key e he

/-- A value is stored. -/
theorem store (ht : Tracked h p source labelled) (hage : p'.maxAge = p.maxAge) {key : String}
    {value : T} {now : Nat} (hr : r = .stored key value now)
    (hslot : ∀ k, p'.slot k = if k = key then (value,now) :: p.slot key else p.slot k) :
    Tracked (h ++ [r]) p' source
      (Function.update labelled key ((h.length,value,now) :: labelled key)) := by
  have hnot : ∀ key value now, r ≠ .handed key value now := by
    rw [hr]
    exact nofun
  refine ⟨fun k => ?_,fun k e he => ?_,fun k => ?_,fun i k v t hi => ?_,
    fun i j hi hj => ht.once i j (hands_concat hnot hi) (hands_concat hnot hj),fun i hi k e he => ?_⟩
  · rw [hslot]
    by_cases hk : k = key
    · subst hk
      rw [if_pos rfl,Function.update_self,List.map_cons,ht.slots]
    · rw [if_neg hk,Function.update_of_ne hk,ht.slots]
  · by_cases hk : k = key
    · subst hk
      rw [Function.update_self] at he
      rcases List.mem_cons.mp he with rfl | he
      · exact getElem?_concat_eq_some.mpr (.inr ⟨rfl,hr.symm⟩)
      · exact getElem?_concat_eq_some.mpr (.inl (ht.stored k e he))
    · rw [Function.update_of_ne hk] at he
      exact getElem?_concat_eq_some.mpr (.inl (ht.stored k e he))
  · by_cases hk : k = key
    · subst hk
      rw [Function.update_self,List.map_cons]
      refine List.nodup_cons.mpr ⟨fun hmem => ?_,ht.nodup k⟩
      obtain ⟨e,he,hl⟩ := List.mem_map.mp hmem
      exact absurd hl (Nat.ne_of_lt (ht.lt_length he))
    · rw [Function.update_of_ne hk]
      exact ht.nodup k
  · obtain ⟨hlt,since,hs,hy⟩ := ht.handed i k v t
      ((getElem?_concat_eq_some.mp hi).resolve_right (fun hi => hnot k v t hi.2.symm))
    exact ⟨hlt,since,getElem?_concat_eq_some.mpr (.inl hs),hage ▸ hy⟩
  · have hi' := hands_concat hnot hi
    by_cases hk : k = key
    · subst hk
      rw [Function.update_self] at he
      rcases List.mem_cons.mp he with rfl | he
      · obtain ⟨k',v,t,hrec⟩ := hi'
        have hlt := (ht.handed i k' v t hrec).1
        have hlen := length_of_hands ⟨k',v,t,hrec⟩
        exact Nat.ne_of_lt (hlt.trans hlen)
      · exact ht.spent i hi' k e he
    · rw [Function.update_of_ne hk] at he
      exact ht.spent i hi' k e he

/-- A value is handed out, and those before it are dropped. -/
theorem hand (ht : Tracked h p source labelled) (hage : p'.maxAge = p.maxAge) {key : String}
    {old rest : List (T × Nat)} {value : T} {since now : Nat} (hr : r = .handed key value now)
    (hentry : p.slot key = old ++ (value,since) :: rest) (hy : Young p.maxAge since now)
    (hslot : ∀ k, p'.slot k = if k = key then rest else p.slot k) :
    ∃ source' labelled', Tracked (h ++ [r]) p' source' labelled' := by
  obtain ⟨before,tail,hsplit,-,htail⟩ :=
    List.map_eq_append_iff.mp ((ht.slots key).trans hentry)
  obtain ⟨⟨l,e⟩,after,rfl,he,hafter⟩ := List.map_eq_cons_iff.mp htail
  obtain rfl : e = (value,since) := he
  have hmem : (l,value,since) ∈ labelled key := by
    rw [hsplit]
    exact List.mem_append_right _ List.mem_cons_self
  have hsub : ∀ k, ∀ e ∈ Function.update labelled key after k, e ∈ labelled k := by
    intro k e he
    by_cases hk : k = key
    · subst hk
      rw [Function.update_self] at he
      rw [hsplit]
      exact List.mem_append_right _ (List.mem_cons_of_mem _ he)
    · rwa [Function.update_of_ne hk] at he
  -- The label of the value is no longer among those of the slots, whatever the key.
  have hgone : ∀ k, ∀ e ∈ Function.update labelled key after k, l ≠ e.1 := by
    intro k e he hl
    have hkey : k = key := by
      have hthere := ht.stored k e (hsub k e he)
      rw [← hl,ht.stored key _ hmem] at hthere
      injection Option.some.inj hthere with hk
      exact hk.symm
    subst hkey
    rw [Function.update_self] at he
    have hnd := ht.nodup k
    rw [hsplit,List.map_append,List.map_cons] at hnd
    have hnot := (List.nodup_cons.mp (hnd.sublist (List.sublist_append_right _ _))).1
    exact hnot (List.mem_map.mpr ⟨e,he,hl.symm⟩)
  have hfresh : ∀ i, Hands h i → i ≠ h.length := fun i hi => Nat.ne_of_lt (length_of_hands hi)
  have hcases : ∀ i, Hands (h ++ [r]) i → Hands h i ∨ i = h.length := by
    rintro i ⟨k,v,t,hi⟩
    exact (getElem?_concat_eq_some.mp hi).imp (fun hi => ⟨k,v,t,hi⟩) And.left
  refine ⟨Function.update source h.length l,Function.update labelled key after,fun k => ?_,
    fun k e he => getElem?_concat_eq_some.mpr (.inl (ht.stored k e (hsub k e he))),fun k => ?_,
    fun i k v t hi => ?_,fun i j hi hj hij => ?_,fun i hi k e he => ?_⟩
  · rw [hslot]
    by_cases hk : k = key
    · subst hk
      rw [if_pos rfl,Function.update_self]
      exact hafter
    · rw [if_neg hk,Function.update_of_ne hk,ht.slots]
  · by_cases hk : k = key
    · subst hk
      rw [Function.update_self]
      have hnd := ht.nodup k
      rw [hsplit,List.map_append,List.map_cons] at hnd
      exact (List.nodup_cons.mp (hnd.sublist (List.sublist_append_right _ _))).2
    · rw [Function.update_of_ne hk]
      exact ht.nodup k
  · rcases getElem?_concat_eq_some.mp hi with hi | ⟨rfl,hlast⟩
    · obtain ⟨hlt,since',hs,hy'⟩ := ht.handed i k v t hi
      rw [Function.update_of_ne (hfresh i ⟨k,v,t,hi⟩)]
      exact ⟨hlt,since',getElem?_concat_eq_some.mpr (.inl hs),hage ▸ hy'⟩
    · obtain ⟨rfl,rfl,rfl⟩ : k = key ∧ v = value ∧ t = now := by
        rw [hr] at hlast
        injection hlast with h₁ h₂ h₃
        exact ⟨h₁,h₂,h₃⟩
      rw [Function.update_self]
      exact ⟨ht.lt_length hmem,since,getElem?_concat_eq_some.mpr (.inl (ht.stored k _ hmem)),
        hage ▸ hy⟩
  · rcases hcases i hi with hi | rfl <;> rcases hcases j hj with hj | rfl
    · rw [Function.update_of_ne (hfresh i hi),Function.update_of_ne (hfresh j hj)] at hij
      exact ht.once i j hi hj hij
    · rw [Function.update_of_ne (hfresh i hi),Function.update_self] at hij
      exact absurd hij (ht.spent i hi key _ hmem)
    · rw [Function.update_self,Function.update_of_ne (hfresh j hj)] at hij
      exact absurd hij.symm (ht.spent j hj key _ hmem)
    · rfl
  · rcases hcases i hi with hi | rfl
    · rw [Function.update_of_ne (hfresh i hi)]
      exact ht.spent i hi k e (hsub k e he)
    · rw [Function.update_self]
      exact hgone k e he

end Tracked

/-- Every operation keeps track of the values. -/
theorem exists_tracked_perform {source : Nat → Nat} {labelled : String → List (Nat × T × Nat)}
    (ht : Tracked h p source labelled) (op : PoolOp T) :
    ∃ source' labelled', Tracked (h ++ [(p.perform op).1]) (p.perform op).2 source' labelled' := by
  obtain ⟨-,hage,hcase⟩ := p.perform_cases op
  rcases hcase with ⟨key,value,now,-,hr,-,hslot⟩ | ⟨key,old,value,since,now,rest,hr,he,hy,hslot⟩ |
    ⟨hr,hslot⟩
  · exact ⟨_,_,ht.store hage hr hslot⟩
  · exact ht.hand hage hr he hy hslot
  · exact ⟨_,_,ht.idle hage hr hslot⟩

theorem bounded_perform (hb : ∀ key, (p.slot key).length ≤ p.maxIdle) (op : PoolOp T) (k : String) :
    ((p.perform op).2.slot k).length ≤ p.maxIdle := by
  obtain ⟨-,-,hcase⟩ := p.perform_cases op
  rcases hcase with ⟨key,value,now,-,-,hlt,hslot⟩ | ⟨key,old,value,since,now,rest,-,he,-,hslot⟩ |
    ⟨-,hslot⟩
  · rw [hslot]
    split
    · exact hlt
    · exact hb k
  · rw [hslot]
    split
    · have hlen := hb key
      rw [he,List.length_append,List.length_cons] at hlen
      omega
    · exact hb k
  · rcases hslot k with hs | hs
    · exact hs ▸ hb k
    · rw [hs]
      exact Nat.zero_le _

end Sources

/-- Whatever is put and taken, and whatever the clock says: each value put is handed out once at most,
under its key, and never once it has been idle for too long; and no key ever holds too many. -/
theorem pool_sound {T : Type u} (maxIdle : Nat) (maxAge : Option Nat) (ops : List (PoolOp T)) :
    PoolSound maxIdle maxAge ((IdlePool.empty maxIdle maxAge).play ops) := by
  have hinv : ((IdlePool.empty maxIdle maxAge : IdlePool T).play ops).2.maxIdle = maxIdle ∧
      ((IdlePool.empty maxIdle maxAge : IdlePool T).play ops).2.maxAge = maxAge ∧
      (∃ source labelled, Tracked ((IdlePool.empty maxIdle maxAge).play ops).1
        ((IdlePool.empty maxIdle maxAge).play ops).2 source labelled) ∧
      ∀ key, (((IdlePool.empty maxIdle maxAge : IdlePool T).play ops).2.slot key).length ≤ maxIdle := by
    induction ops using List.reverseRecOn with
    | nil =>
      refine ⟨rfl,rfl,⟨id,fun _ => [],fun _ => rfl,nofun,fun _ => List.nodup_nil,nofun,?_,?_⟩,
        fun _ => Nat.zero_le _⟩
      · rintro i j ⟨_,_,_,hi⟩
        exact absurd hi nofun
      · rintro i ⟨_,_,_,hi⟩
        exact absurd hi nofun
    | append_singleton ops op ih =>
      obtain ⟨hidle,hage,⟨source,labelled,ht⟩,hb⟩ := ih
      rw [IdlePool.play,List.foldl_concat,← IdlePool.play]
      obtain ⟨hidle',hage',-⟩ := IdlePool.perform_cases ((IdlePool.empty maxIdle maxAge).play ops).2 op
      refine ⟨hidle'.trans hidle,hage'.trans hage,exists_tracked_perform ht op,fun key => ?_⟩
      have hbound := bounded_perform (fun key => (hb key).trans hidle.ge) op key
      exact hbound.trans hidle.le
  obtain ⟨-,hage,⟨source,labelled,ht⟩,hb⟩ := hinv
  refine ⟨⟨source,fun i key value now hi => ?_,fun i j key key' value value' now now' hi hj => ?_⟩,hb⟩
  · obtain ⟨hlt,since,hs,hy⟩ := ht.handed i key value now hi
    exact ⟨hlt,since,hs,hage ▸ hy⟩
  · exact ht.once i j ⟨key,value,now,hi⟩ ⟨key',value',now',hj⟩

end Rav
