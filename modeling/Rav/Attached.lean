import Rav.Realtime.Events

/-!
# Receivers stay attached

Whatever calls of `subscribe`, `publish` and `cleanup` do beside each other and however receivers are
dropped, a receiver that lives is attached to the channel its user's events are sent to, and what is
published once it has been handed out reaches it.

## Main definitions

- `EventBus.Reached` — an event has reached the receivers of a user
- `BusStage.Knows` — what the stage of a call says about the bus
- `BusInv` — the invariant of the bus
- `receivers_attached` — what holds along every run
-/

namespace Rav

variable {ε : Type}

/-! ### What stages know -/

/-- The event has reached those of the first receivers that live and belong to the user. -/
def EventBus.Reached (b : EventBus ε) (user : String) (event : ε) (since : Nat) : Prop :=
  ∀ rx < since, ∀ r, b.receivers[rx]? = some r → r.live = true → r.user = user → event ∈ r.queue

namespace BusStage

/-- What a stage says about the bus. -/
def Knows (b : EventBus ε) : BusStage ε → Prop
  | .found user tx => b.channels.get user = some tx
  | .created user tx => b.channels.get user = some tx
  | .publishing _ _ since => since ≤ b.receivers.length
  | .reading _ _ since => since ≤ b.receivers.length
  | .addressed user _ since tx => since ≤ b.receivers.length ∧ b.channels.get user = some tx
  | .reached user event since => since ≤ b.receivers.length ∧ b.Reached user event since
  | .published user event since => since ≤ b.receivers.length ∧ b.Reached user event since
  | .counting user tx => b.channels.get user = some tx
  | .emptied user tx => b.channels.get user = some tx ∧ ∀ r ∈ b.receivers, ¬r.On tx
  | _ => True

end BusStage

/-! ### What calls leave of the receivers -/

/-- Receivers are added at the end; old ones may get events or be dropped. -/
structure EventBus.Grows (b b' : EventBus ε) : Prop where
  length : b.receivers.length ≤ b'.receivers.length
  old : ∀ rx r', rx < b.receivers.length → b'.receivers[rx]? = some r' → ∃ r, b.receivers[rx]? = some r ∧
    r'.user = r.user ∧ r'.channel = r.channel ∧ (r'.live = true → r.live = true) ∧
      ∀ e ∈ r.queue, e ∈ r'.queue

namespace EventBus

variable {b b' : EventBus ε}

theorem Grows.of_eq (h : b'.receivers = b.receivers) : b.Grows b' := by
  refine ⟨Nat.le_of_eq (congrArg List.length h.symm),fun rx r' _ hr => ?_⟩
  rw [h] at hr
  exact ⟨r',hr,rfl,rfl,id,fun _ => id⟩

/-- Receivers change one by one. -/
theorem Grows.of_map {f : Nat → BusReceiver ε → BusReceiver ε}
    (hlen : b'.receivers.length = b.receivers.length)
    (h : ∀ i, b'.receivers[i]? = (b.receivers[i]?).map (f i)) (hf : ∀ i r, (f i r).user = r.user ∧
      (f i r).channel = r.channel ∧ ((f i r).live = true → r.live = true) ∧
        ∀ e ∈ r.queue, e ∈ (f i r).queue) : b.Grows b' := by
  refine ⟨Nat.le_of_eq hlen.symm,fun rx r' _ hr => ?_⟩
  obtain ⟨r,hold,rfl⟩ := Option.map_eq_some_iff.mp ((h rx).symm.trans hr)
  exact ⟨r,hold,hf rx r⟩

theorem grows_dropReceiver (b : EventBus ε) (rx : Nat) : b.Grows (b.dropReceiver rx) := by
  refine .of_map (List.length_modify _ _ _) (List.getElem?_modify _ _ _) fun i r => ?_
  split
  · exact ⟨rfl,rfl,nofun,fun _ => id⟩
  · exact ⟨rfl,rfl,id,fun _ => id⟩

/-- A channel is found, or a new one takes the place of none. -/
theorem serve_orInsert (b : EventBus ε) (user : String) :
    (∃ tx : Nat, b.channels.get user = some tx ∧ serve (.orInsert user) b = (tx,b)) ∨
      b.channels.get user = none ∧ serve (.orInsert user) b = (b.created,{ b with
        channels := b.channels.insert user b.created, created := b.created + 1 }) := by
  have hserve : serve (.orInsert user) b = b.orInsert user := rfl
  rw [hserve]
  unfold orInsert
  cases hget : b.channels.get user with
  | some tx => exact Or.inl ⟨tx,rfl,rfl⟩
  | none => exact Or.inr ⟨rfl,rfl⟩

theorem grows_serve (c : BusCall ε) (b : EventBus ε) : b.Grows (serve c b).2 := by
  cases c with
  | orInsert user =>
    rcases b.serve_orInsert user with ⟨tx,-,h⟩ | ⟨-,h⟩
    · rw [h]
      exact .of_eq rfl
    · rw [h]
      exact .of_eq rfl
  | subscribe user tx =>
    refine ⟨?_,fun rx r' hrx hr => ?_⟩
    · show _ ≤ (b.receivers ++ [_]).length
      simp
    · have hold : b.receivers[rx]? = some r' := (List.getElem?_append_left hrx).symm.trans hr
      exact ⟨r',hold,rfl,rfl,id,fun _ => id⟩
  | send tx event =>
    refine .of_map (List.length_map _) (fun _ => List.getElem?_map) fun _ r => ?_
    split
    · exact ⟨rfl,rfl,id,fun _ => List.mem_append_left _⟩
    · exact ⟨rfl,rfl,id,fun _ => id⟩
  | _ => exact .of_eq rfl

/-- Only two calls change the map, and only one adds a receiver. -/
theorem channels_serve {c : BusCall ε} (b : EventBus ε)
    (h : ∀ user, c ≠ .orInsert user ∧ c ≠ .remove user) :
    (serve c b).2.channels = b.channels := by
  cases c with
  | orInsert user => exact absurd rfl (h user).1
  | remove user => exact absurd rfl (h user).2
  | _ => rfl

theorem length_serve {c : BusCall ε} (b : EventBus ε) (h : ∀ user tx, c ≠ .subscribe user tx) :
    (serve c b).2.receivers.length = b.receivers.length := by
  cases c with
  | subscribe user tx => exact absurd rfl (h user tx)
  | orInsert user =>
    rcases b.serve_orInsert user with ⟨tx,-,h⟩ | ⟨-,h⟩
    · rw [h]
    · rw [h]
  | send tx event => exact List.length_map _
  | _ => rfl

theorem Grows.reached (h : b.Grows b') {user : String} {event : ε} {since : Nat}
    (hsince : since ≤ b.receivers.length) (hb : b.Reached user event since) :
    b'.Reached user event since := by
  intro rx hrx r' hr' hlive huser
  obtain ⟨r,hr,hu,-,hl,hq⟩ := h.old rx r' (Nat.lt_of_lt_of_le hrx hsince) hr'
  exact hq event (hb rx hrx r hr (hl hlive) (hu.symm.trans huser))

/-- Without new receivers none is attached anew. -/
theorem Grows.not_on (h : b.Grows b') (hlen : b'.receivers.length = b.receivers.length) {tx : Nat}
    (hb : ∀ r ∈ b.receivers, ¬r.On tx) : ∀ r ∈ b'.receivers, ¬r.On tx := by
  rintro r' hr' ⟨hlive,hchannel⟩
  obtain ⟨rx,hrx⟩ := List.mem_iff_getElem?.mp hr'
  have hlt : rx < b.receivers.length := hlen ▸ (List.getElem?_eq_some_iff.mp hrx).1
  obtain ⟨r,hr,-,hc,hl,-⟩ := h.old rx r' hlt hrx
  exact hb r (List.mem_of_getElem? hr) ⟨hl hlive,hc.symm.trans hchannel⟩

end EventBus

/-- A stage goes on knowing what it knows, if those that hold the lock see the map unchanged and a
writer sees no new receivers. -/
theorem BusStage.Knows.mono {b b' : EventBus ε} {g : BusStage ε} (h : g.Knows b) (hg : b.Grows b')
    (hchannels : g.hold ≠ .free → b'.channels = b.channels)
    (hnew : g.hold = .write → b'.receivers.length = b.receivers.length) : g.Knows b' := by
  cases g with
  | found user tx => exact (congrArg (fun m => DashMap.get m user) (hchannels nofun)).trans h
  | created user tx => exact (congrArg (fun m => DashMap.get m user) (hchannels nofun)).trans h
  | counting user tx => exact (congrArg (fun m => DashMap.get m user) (hchannels nofun)).trans h
  | publishing user event since => exact Nat.le_trans h hg.length
  | reading user event since => exact Nat.le_trans h hg.length
  | addressed user event since tx =>
    exact ⟨Nat.le_trans h.1 hg.length,
      (congrArg (fun m => DashMap.get m user) (hchannels nofun)).trans h.2⟩
  | reached user event since => exact ⟨Nat.le_trans h.1 hg.length,hg.reached h.1 h.2⟩
  | published user event since => exact ⟨Nat.le_trans h.1 hg.length,hg.reached h.1 h.2⟩
  | emptied user tx =>
    exact ⟨(congrArg (fun m => DashMap.get m user) (hchannels nofun)).trans h.1,
      hg.not_on (hnew rfl) h.2⟩
  | _ => trivial

/-! ### The invariant -/

/-- Live receivers are attached to the channels of their users, and no two users share one. -/
structure EventBus.Wired (b : EventBus ε) : Prop where
  attached : ∀ r ∈ b.receivers, r.live = true → b.channels.get r.user = some r.channel
  apart : ∀ user user' tx, b.channels.get user = some tx → b.channels.get user' = some tx → user = user'
  fresh : ∀ user tx, b.channels.get user = some tx → tx < b.created

/-- The calls keep to their stages, the lock counts those that hold it, the receivers are attached,
and every stage is right about the bus. -/
structure BusInv (s : BusSystem ε) : Prop where
  keep : s.Keep BusStage.Allows BusStage.next (fun _ _ => True)
  fits : s.world.lock.Fits (s.tasks.map (fun t => t.1.hold))
  wired : s.world.Wired
  knows : ∀ t ∈ s.tasks, t.1.Knows s.world

section Calls

variable {b : EventBus ε} {g : BusStage ε} {c : BusCall ε}

/-- What calls leave of the map and the receivers. -/
theorem EventBus.Wired.serve (h : b.Wired) (hg : g.Knows b) (hallow : g.Allows c) :
    (EventBus.serve c b).2.Wired := by
  cases c with
  | orInsert user =>
    rcases b.serve_orInsert user with ⟨tx,-,hs⟩ | ⟨hnone,hs⟩
    · rw [hs]
      exact h
    · rw [hs]
      refine ⟨fun r hr hlive => ?_,fun u u' tx hu hu' => ?_,fun u tx hu => ?_⟩
      · have hsome := h.attached r hr hlive
        have hne : r.user ≠ user := by
          intro he
          rw [he,hnone] at hsome
          exact absurd hsome nofun
        exact (DashMap.get_insert _ _ _ _).trans ((if_neg hne).trans hsome)
      · have hold : ∀ v, v ≠ user → ∀ tx, (b.channels.insert user b.created).get v = some tx →
            b.channels.get v = some tx := fun v hv tx hget =>
          (if_neg hv).symm.trans ((DashMap.get_insert _ _ _ _).symm.trans hget)
        have hnew : ∀ tx, (b.channels.insert user b.created).get user = some tx → b.created = tx :=
          fun tx hget =>
            Option.some.inj ((if_pos rfl).symm.trans ((DashMap.get_insert _ _ _ _).symm.trans hget))
        by_cases he : u = user
        · by_cases he' : u' = user
          · exact he.trans he'.symm
          · subst he
            have hlt := h.fresh u' tx (hold u' he' tx hu')
            exact absurd (hnew tx hu) (Nat.ne_of_gt hlt)
        · by_cases he' : u' = user
          · subst he'
            have hlt := h.fresh u tx (hold u he tx hu)
            exact absurd (hnew tx hu') (Nat.ne_of_gt hlt)
          · exact h.apart u u' tx (hold u he tx hu) (hold u' he' tx hu')
      · rw [DashMap.get_insert] at hu
        split at hu
        · obtain rfl := Option.some.inj hu
          exact Nat.lt_succ_self _
        · exact Nat.lt_succ_of_lt (h.fresh u tx hu)
  | remove user =>
    obtain ⟨tx,rfl⟩ := hallow
    obtain ⟨htx,hempty⟩ := hg
    have hget : ∀ u tx', (b.channels.remove user).get u = some tx' → b.channels.get u = some tx' := by
      intro u tx' hu
      rw [DashMap.get_remove] at hu
      split at hu
      · simp at hu
      · exact hu
    refine ⟨fun r hr hlive => ?_,fun u u' tx' hu hu' => ?_,fun u tx' hu => ?_⟩
    · have hsome := h.attached r hr hlive
      have hne : r.user ≠ user := by
        intro he
        rw [he,htx] at hsome
        exact hempty r hr ⟨hlive,(Option.some.inj hsome).symm⟩
      exact (DashMap.get_remove _ _ _).trans ((if_neg hne).trans hsome)
    · exact h.apart u u' tx' (hget u tx' hu) (hget u' tx' hu')
    · exact h.fresh u tx' (hget u tx' hu)
  | subscribe user tx =>
    have htx : b.channels.get user = some tx := by
      rcases hallow with rfl | rfl
      · exact hg
      · exact hg
    refine ⟨fun r hr hlive => ?_,h.apart,h.fresh⟩
    rcases List.mem_append.mp hr with hr | hr
    · exact h.attached r hr hlive
    · rw [List.mem_singleton.mp hr]
      exact htx
  | send tx event =>
    refine ⟨fun r hr hlive => ?_,h.apart,h.fresh⟩
    obtain ⟨r₀,hr₀,rfl⟩ := List.mem_map.mp hr
    split at hlive
    · next hon =>
      rw [if_pos hon]
      exact h.attached r₀ hr₀ hlive
    · next hon =>
      rw [if_neg hon]
      exact h.attached r₀ hr₀ hlive
  | _ => exact ⟨h.attached,h.apart,h.fresh⟩

/-- Dropping receivers is no matter. -/
theorem EventBus.Wired.dropReceiver (h : b.Wired) (rx : Nat) : (b.dropReceiver rx).Wired := by
  refine ⟨fun r hr hlive => ?_,h.apart,h.fresh⟩
  obtain ⟨i,hi⟩ := List.mem_iff_getElem?.mp hr
  have hlt : i < b.receivers.length := by
    have := (List.getElem?_eq_some_iff.mp hi).1
    rwa [show (b.dropReceiver rx).receivers.length = b.receivers.length from List.length_modify _ _ _]
      at this
  obtain ⟨r₀,hr₀,hu,hc,hl,-⟩ := (grows_dropReceiver b rx).old i r hlt hi
  rw [hu,hc]
  exact h.attached r₀ (List.mem_of_getElem? hr₀) (hl hlive)

/-- A call moves its stage on to one that is right. -/
theorem knows_next (h : b.Wired) (hg : g.Knows b) (hallow : g.Allows c) :
    (g.next c (EventBus.serve c b).1).Knows (EventBus.serve c b).2 := by
  cases c with
  | read =>
    rcases hallow with ⟨user,rfl⟩ | ⟨user,event,since,rfl⟩
    · trivial
    · exact hg
  | unread =>
    rcases hallow with rfl | ⟨user,rfl⟩ | ⟨user,event,since,rfl⟩
    · trivial
    · trivial
    · exact hg
  | write =>
    rcases hallow with ⟨user,rfl⟩ | ⟨user,rfl⟩
    · trivial
    · trivial
  | unwrite =>
    rcases hallow with rfl | rfl
    · trivial
    · trivial
  | get user =>
    have hserve : EventBus.serve (.get user) b = (b.channels.get user,b) := rfl
    rw [hserve]
    rcases hallow with rfl | ⟨event,since,rfl⟩ | rfl
    · cases hget : b.channels.get user with
      | some tx => exact hget
      | none => trivial
    · cases hget : b.channels.get user with
      | some tx => exact ⟨hg,hget⟩
      | none =>
        refine ⟨hg,fun rx _ r hr hlive huser => ?_⟩
        have hsome := h.attached r (List.mem_of_getElem? hr) hlive
        rw [huser,hget] at hsome
        exact absurd hsome nofun
    · cases hget : b.channels.get user with
      | some tx => exact hget
      | none => trivial
  | orInsert user =>
    obtain rfl := hallow
    rcases b.serve_orInsert user with ⟨tx,hget,hs⟩ | ⟨-,hs⟩
    · rw [hs]
      exact hget
    · rw [hs]
      exact (DashMap.get_insert _ _ _ _).trans (if_pos rfl)
  | subscribe user tx =>
    rcases hallow with rfl | rfl
    · trivial
    · trivial
  | send tx event =>
    obtain ⟨user,since,rfl⟩ := hallow
    obtain ⟨hsince,htx⟩ := hg
    refine ⟨hsince.trans (Nat.le_of_eq (List.length_map _).symm),fun rx _ r hr hlive huser => ?_⟩
    obtain ⟨r₀,hr₀,rfl⟩ := List.mem_map.mp (List.mem_of_getElem? hr)
    by_cases hon : r₀.On tx
    · rw [if_pos hon]
      exact List.mem_append_right _ (List.mem_singleton_self event)
    · rw [if_neg hon] at hlive huser
      have hsome := h.attached r₀ hr₀ hlive
      rw [huser,htx] at hsome
      exact absurd ⟨hlive,(Option.some.inj hsome).symm⟩ hon
  | receiverCount tx =>
    obtain ⟨user,rfl⟩ := hallow
    have hserve : EventBus.serve (.receiverCount tx) b = (b.receivers.countP (fun r => r.On tx),b) := rfl
    rw [hserve]
    show (if b.receivers.countP (fun r => r.On tx) = 0 then BusStage.emptied user tx
      else BusStage.swept).Knows b
    split
    · next hzero =>
      refine ⟨hg,fun r hr hon => ?_⟩
      exact absurd (decide_eq_true hon) (List.countP_eq_zero.mp hzero r hr)
    · trivial
  | remove user =>
    obtain ⟨tx,rfl⟩ := hallow
    trivial

/-- What a call holds of the lock is what the lock counts. -/
theorem fits_call {hs : List Hold} {i : Nat} (h : b.lock.Fits hs) (hi : hs[i]? = some g.hold)
    (hallow : g.Allows c) (hgrant : b.Grants c) :
    (EventBus.serve c b).2.lock.Fits (hs.set i (g.next c (EventBus.serve c b).1).hold) := by
  cases c with
  | read =>
    rcases hallow with ⟨user,rfl⟩ | ⟨user,event,since,rfl⟩
    · exact h.acquireRead hi hgrant
    · exact h.acquireRead hi hgrant
  | unread =>
    rcases hallow with rfl | ⟨user,rfl⟩ | ⟨user,event,since,rfl⟩
    · exact h.releaseRead hi
    · exact h.releaseRead hi
    · exact h.releaseRead hi
  | write =>
    rcases hallow with ⟨user,rfl⟩ | ⟨user,rfl⟩
    · exact h.acquireWrite hi hgrant
    · exact h.acquireWrite hi hgrant
  | unwrite =>
    rcases hallow with rfl | rfl
    · exact h.releaseWrite hi
    · exact h.releaseWrite hi
  | get user =>
    have hserve : EventBus.serve (.get user) b = (b.channels.get user,b) := rfl
    rw [hserve]
    rcases hallow with rfl | ⟨event,since,rfl⟩ | rfl
    · cases b.channels.get user with
      | some tx => exact h.same hi
      | none => exact h.same hi
    · cases b.channels.get user with
      | some tx => exact h.same hi
      | none => exact h.same hi
    · cases b.channels.get user with
      | some tx => exact h.same hi
      | none => exact h.same hi
  | orInsert user =>
    obtain rfl := hallow
    rcases b.serve_orInsert user with ⟨tx,-,hs⟩ | ⟨-,hs⟩
    · rw [hs]
      exact h.same hi
    · rw [hs]
      exact h.same hi
  | subscribe user tx =>
    rcases hallow with rfl | rfl
    · exact h.same hi
    · exact h.same hi
  | send tx event =>
    obtain ⟨user,since,rfl⟩ := hallow
    exact h.same hi
  | receiverCount tx =>
    obtain ⟨user,rfl⟩ := hallow
    have hstage : (BusStage.next (.counting user tx) (.receiverCount tx)
        (EventBus.serve (.receiverCount tx) b).1 : BusStage ε).hold = .write := by
      show (if b.receivers.countP (fun r => r.On tx) = 0 then BusStage.emptied user tx
        else BusStage.swept).hold = .write
      split
      · rfl
      · rfl
    rw [hstage]
    exact h.same hi
  | remove user =>
    obtain ⟨tx,rfl⟩ := hallow
    exact h.same hi

/-- Those that change the map write, and those that add a receiver hold the lock. -/
theorem hold_of_allows (hallow : g.Allows c) :
    ((∀ user, c ≠ .orInsert user ∧ c ≠ .remove user) ∨ g.hold = .write) ∧
      ((∀ user tx, c ≠ .subscribe user tx) ∨ g.hold ≠ .free) := by
  cases c with
  | orInsert user =>
    obtain rfl := hallow
    exact ⟨Or.inr rfl,Or.inl nofun⟩
  | remove user =>
    obtain ⟨tx,rfl⟩ := hallow
    exact ⟨Or.inr rfl,Or.inl nofun⟩
  | subscribe user tx =>
    rcases hallow with rfl | rfl
    · exact ⟨Or.inl fun _ => ⟨nofun,nofun⟩,Or.inr nofun⟩
    · exact ⟨Or.inl fun _ => ⟨nofun,nofun⟩,Or.inr nofun⟩
  | _ => exact ⟨Or.inl fun _ => ⟨nofun,nofun⟩,Or.inl nofun⟩

end Calls

section Steps

variable {s s' : BusSystem ε} {i : Nat}

/-- Somebody calls a function. -/
theorem BusInv.start (h : BusInv s) {g : BusStage ε} {t : BusTask ε Unit} (hkeep : g.Keeps t)
    (hfree : g.hold = .free) (hg : g.Knows s.world) : BusInv ⟨s.world,s.tasks ++ [(g,t)]⟩ := by
  refine ⟨h.keep.start hkeep,?_,h.wired,fun t' ht' => ?_⟩
  · show s.world.lock.Fits ((s.tasks ++ [(g,t)]).map (fun t => t.1.hold))
    rw [List.map_append,List.map_singleton,hfree]
    exact h.fits.join
  · rcases List.mem_append.mp ht' with ht' | ht'
    · exact h.knows t' ht'
    · rw [List.mem_singleton.mp ht']
      exact hg

theorem getElem?_hold {t : Thread (BusStage ε) (BusCall ε) BusCall.Answer Unit}
    (ht : s.tasks[i]? = some t) : (s.tasks.map (fun t => t.1.hold))[i]? = some t.1.hold := by
  rw [List.getElem?_map,ht]
  rfl

/-- A call goes on. -/
theorem BusInv.call (h : BusInv s) {g : BusStage ε} {c : BusCall ε} {k : c.Answer → BusTask ε Unit}
    (ht : s.tasks[i]? = some (g,.call c k)) (hgrant : s.world.Grants c) :
    BusInv ⟨(EventBus.serve c s.world).2,s.tasks.set i
      (g.next c (EventBus.serve c s.world).1,k (EventBus.serve c s.world).1)⟩ := by
  have hallow := h.keep.allowed ht
  have hhold := getElem?_hold ht
  have hown := h.knows _ (List.mem_of_getElem? ht)
  refine ⟨h.keep.call ht,?_,h.wired.serve hown hallow,fun t hmem => ?_⟩
  · show (EventBus.serve c s.world).2.lock.Fits ((s.tasks.set i _).map (fun t => t.1.hold))
    rw [List.map_set]
    exact fits_call h.fits hhold hallow hgrant
  · obtain ⟨j,hj⟩ := List.mem_iff_getElem?.mp hmem
    rcases getElem?_of_set hj with ⟨-,rfl⟩ | ⟨hij,hj⟩
    · exact knows_next h.wired hown hallow
    · have hholdj := getElem?_hold hj
      obtain ⟨hwrites,hadds⟩ := hold_of_allows hallow
      refine (h.knows t (List.mem_of_getElem? hj)).mono (EventBus.grows_serve c s.world)
        (fun hheld => ?_) (fun hwrite => ?_)
      · rcases hwrites with hsame | hwrite
        · exact EventBus.channels_serve _ hsame
        · rw [hwrite] at hhold
          exact absurd (h.fits.exclusive hhold hholdj hij) hheld
      · rcases hadds with hsame | hheld
        · exact EventBus.length_serve _ hsame
        · rw [hwrite] at hholdj
          exact absurd (h.fits.exclusive hholdj hhold (Ne.symm hij)) hheld

theorem BusInv.advance (h : BusInv s) (hs : s.advance i = some s') : BusInv s' := by
  unfold BusSystem.advance at hs
  split at hs
  · next g c hup =>
    split at hs
    · next hgrant =>
      obtain ⟨g',c',k,ht,rfl⟩ := Threads.call_eq_some.mp hs
      obtain ⟨rfl,rfl⟩ := Prod.mk.inj (Option.some.inj ((Threads.upcoming_eq ht).symm.trans hup))
      exact h.call ht hgrant
    · simp at hs
  · simp at hs

/-- A call that holds nothing is given up. -/
theorem BusInv.giveUp (h : BusInv s) {t : Thread (BusStage ε) (BusCall ε) BusCall.Answer Unit}
    (ht : s.tasks[i]? = some t) (hfree : t.1.hold = .free) :
    BusInv ⟨s.world,s.tasks.set i (.done,pure ())⟩ := by
  have hhold := getElem?_hold ht
  rw [hfree] at hhold
  refine ⟨fun t' hmem => ?_,?_,h.wired,fun t' hmem => ?_⟩
  · rcases List.mem_or_eq_of_mem_set hmem with hmem | rfl
    · exact h.keep t' hmem
    · trivial
  · show s.world.lock.Fits ((s.tasks.set i _).map (fun t => t.1.hold))
    rw [List.map_set]
    exact h.fits.same hhold
  · rcases List.mem_or_eq_of_mem_set hmem with hmem | rfl
    · exact h.knows t' hmem
    · trivial

theorem BusInv.abandon (h : BusInv s) (hs : s.abandon i = some s') : BusInv s' := by
  have hcall : ∀ {g : BusStage ε} {c : BusCall ε}, s.upcoming i = some (g,c) → c = .read ∨ c = .write →
      BusInv ⟨s.world,s.tasks.set i (.done,pure ())⟩ := by
    intro g c hup hc
    unfold Threads.upcoming at hup
    split at hup
    · next g' c' k ht =>
      obtain ⟨rfl,rfl⟩ := Prod.mk.inj (Option.some.inj hup)
      have hallow := h.keep.allowed ht
      refine h.giveUp ht ?_
      rcases hc with rfl | rfl
      · rcases hallow with ⟨user,rfl⟩ | ⟨user,event,since,rfl⟩
        · rfl
        · rfl
      · rcases hallow with ⟨user,rfl⟩ | ⟨user,rfl⟩
        · rfl
        · rfl
    · simp at hup
  unfold BusSystem.abandon at hs
  split at hs
  · next g hup =>
    obtain rfl := Option.some.inj hs
    exact hcall hup (Or.inl rfl)
  · next g hup =>
    obtain rfl := Option.some.inj hs
    exact hcall hup (Or.inr rfl)
  · simp at hs

/-- A receiver is dropped. -/
theorem BusInv.drop (h : BusInv s) (rx : Nat) : BusInv ⟨s.world.dropReceiver rx,s.tasks⟩ := by
  refine ⟨h.keep,h.fits,h.wired.dropReceiver rx,fun t ht => ?_⟩
  exact (h.knows t ht).mono (s.world.grows_dropReceiver rx) (fun _ => rfl)
    (fun _ => List.length_modify _ _ _)

theorem BusInv.step {e : BusEvent ε} (h : BusInv s) (hs : s.step e = some s') : BusInv s' := by
  cases e with
  | subscribe user =>
    obtain rfl := Option.some.inj hs
    exact h.start (keeps_subscribe user) rfl trivial
  | publish user event =>
    obtain rfl := Option.some.inj hs
    exact h.start (keeps_publish user event _) rfl (Nat.le_refl _)
  | cleanup user =>
    obtain rfl := Option.some.inj hs
    exact h.start (keeps_cleanup user) rfl trivial
  | call i => exact h.advance hs
  | abandon i => exact h.abandon hs
  | drop rx =>
    obtain rfl := Option.some.inj hs
    exact h.drop rx

theorem busInv_opening : BusInv (.opening : BusSystem ε) :=
  ⟨nofun,RwLock.fits_unlocked,⟨nofun,nofun,nofun⟩,nofun⟩

/-- A channel about to be removed has no receivers, of whatever user. -/
theorem BusInv.removes_empty (h : BusInv s) {g : BusStage ε} {user : String}
    (hup : s.upcoming i = some (g,.remove user)) :
    ∃ tx, s.world.channels.get user = some tx ∧ ∀ r ∈ s.world.receivers, ¬r.On tx := by
  unfold Threads.upcoming at hup
  split at hup
  · next g' c k ht =>
    obtain ⟨rfl,rfl⟩ := Prod.mk.inj (Option.some.inj hup)
    obtain ⟨tx,rfl⟩ := h.keep.allowed ht
    exact ⟨tx,h.knows _ (List.mem_of_getElem? ht)⟩
  · simp at hup

end Steps

/-- In every state of the bus: live receivers are attached to the channel that is in the map for their
user; an event whose publication is over is in the queue of every live receiver of the user that had
been handed out when it began; and a call about to remove a channel removes one without receivers. -/
theorem receivers_attached {es : List (BusEvent ε)} {s : BusSystem ε}
    (h : Run BusSystem.step (fun _ _ => True) .opening es s) :
    (∀ r ∈ s.world.receivers, r.live = true → s.world.channels.get r.user = some r.channel) ∧
      (∀ user event since rest, (.published user event since,rest) ∈ s.tasks →
        ∀ rx < since, ∀ r, s.world.receivers[rx]? = some r → r.live = true → r.user = user →
          event ∈ r.queue) ∧
      ∀ i g user, s.upcoming i = some (g,.remove user) →
        ∃ tx, s.world.channels.get user = some tx ∧ ∀ r ∈ s.world.receivers, ¬r.On tx := by
  have hinv : BusInv s := h.invariant busInv_opening fun _ _ _ hi _ hs => hi.step hs
  refine ⟨hinv.wired.attached,fun user event since rest hmem => ?_,fun i g user hup => ?_⟩
  · exact (hinv.knows _ hmem).2
  · exact hinv.removes_empty hup

/-- Two sockets open at once; one is dropped, its channel is looked at, and an event is published. -/
def twoSockets : List (BusEvent Nat) :=
  [.subscribe "u",.subscribe "u",.call 0,.call 1,.call 0,.call 1,.call 0,.call 1,.call 1,.call 1,.call 1,
    .call 1,.call 0,.call 0,.call 0,.call 0,.drop 0,.cleanup "u",.publish "u" 7,.call 2,.call 2,.call 2,
    .call 2,.call 3,.call 3,.call 3,.call 3]

theorem receivers_attached_twoSockets :
    ∃ s : BusSystem Nat, Run BusSystem.step (fun _ _ => True) .opening twoSockets s ∧
      s.world.receivers = [⟨"u",0,[],false⟩,⟨"u",0,[7],true⟩] ∧
      ∀ r ∈ s.world.receivers, r.live = true → s.world.channels.get r.user = some r.channel := by
  have hv : (execWhere BusSystem.step (fun _ _ => True) (.opening : BusSystem Nat) twoSockets).map
      (fun s => s.world.receivers) = some [⟨"u",0,[],false⟩,⟨"u",0,[7],true⟩] := by
    decide
  obtain ⟨s,hrun,hl⟩ := run_of_map_execWhere hv
  exact ⟨s,hrun,hl,(receivers_attached hrun).1⟩

end Rav
