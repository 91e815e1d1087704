import Rav.Push.Worker

/-!
# What keeps an IDLE task running

IDLE tasks are shared by the sockets of a user and by push, and nothing counts them. As long as no
task is stopped for one owner while another needs it, no two starts of one task overlap, and push ends
only beside a socket that will end too, the INBOX IDLE task of a user runs exactly while a socket or a
push subscription of the user is open.

## Main definitions

- `LiveSystem.Open`, `LiveSystem.Busy` — a user has an open socket or subscription; a socket or a pass
  is in the middle of starting or stopping the user's task
- `LiveSystem.Unshared` — the condition on each step
- `IdleInv` — the invariant
- `idle_follows_owners` — what holds along every such run
-/

namespace Rav

/-! ### Who needs a task -/

def Starting.entering : Starting → Option String
  | .unsure => none
  | .absent user => some user
  | .spawned user _ => some user

def Starting.handle : Starting → Option (String × Nat)
  | .spawned user handle => some (user,handle)
  | _ => none

namespace LiveStage

/-- The socket has started the user's task and not ended, or the pass has and does not listen yet. -/
def Uses (user : String) : LiveStage → Prop
  | .opening os _ => user ∈ os
  | .started u _ => user = u
  | _ => False

/-- The key is yet to be stopped. -/
def Stops (key : String × String) : LiveStage → Prop
  | .closing us ks => key.1 ∈ us ∨ key ∈ ks
  | .aborting us _ _ ks => key.1 ∈ us ∨ key ∈ ks
  | _ => False

/-- The user whose task is about to be entered in the map. -/
def entering : LiveStage → Option String
  | .opening _ start => start.entering
  | .starting _ _ start => start.entering
  | _ => none

/-- The user and the task that the stage has in its hands, outside the map. -/
def handle : LiveStage → Option (String × Nat)
  | .opening _ start => start.handle
  | .starting _ _ start => start.handle
  | .aborting _ user handle _ => some (user,handle)
  | _ => none

/-- In the middle of starting or stopping the user's task. -/
def Busy (user : String) : LiveStage → Prop
  | .opening _ start => start.entering = some user
  | .closing us ks => user ∈ us ∨ user ∈ ks.map Prod.fst
  | .aborting us u _ ks => user ∈ us ∨ user = u ∨ user ∈ ks.map Prod.fst
  | .starting u _ start => user = u ∨ start.entering = some user
  | .started u _ => user = u
  | _ => False

instance (user : String) : DecidablePred (Uses user) := by
  intro g
  cases g <;> unfold Uses <;> infer_instance

instance (key : String × String) : DecidablePred (Stops key) := by
  intro g
  cases g <;> unfold Stops <;> infer_instance

end LiveStage

namespace LiveWorld

/-- Push works for the user: the worker listens, and the credential has not been taken back. -/
def PushOpen (w : LiveWorld) (user : String) : Prop :=
  user ∈ w.listeners.map Prod.fst ∧ (w.credentials user).isSome = true

instance (w : LiveWorld) (user : String) : Decidable (w.PushOpen user) :=
  inferInstanceAs (Decidable (_ ∧ _))

/-- A task of the user for the folder runs. -/
def Idles (w : LiveWorld) (user folder : String) : Prop :=
  ∃ t ∈ w.spawned, t.user = user ∧ t.folder = folder ∧ t.live = true

end LiveWorld

namespace LiveSystem

/-- A socket has started the user's task and not ended, or push works for the user. -/
def Open (s : LiveSystem) (user : String) : Prop :=
  s.world.PushOpen user ∨ ∃ t ∈ s.tasks, ∃ os start, t.1 = .opening os start ∧ user ∈ os

def Busy (s : LiveSystem) (user : String) : Prop := ∃ t ∈ s.tasks, t.1.Busy user

/-- Someone has started the user's task, and needs it. -/
def Needed (s : LiveSystem) (user : String) : Prop :=
  s.world.PushOpen user ∨ ∃ t ∈ s.tasks, t.1.Uses user

/-- A socket is open for the user, or will still stop the user's task. -/
def Covered (s : LiveSystem) (user : String) : Prop :=
  ∃ t ∈ s.tasks, (t.1.scans = false ∧ t.1.Uses user) ∨ t.1.Stops (user,"INBOX")

instance (s : LiveSystem) (user : String) : Decidable (s.Needed user) :=
  inferInstanceAs (Decidable (_ ∨ ∃ t ∈ s.tasks, _))

instance (s : LiveSystem) (user : String) : Decidable (s.Covered user) :=
  inferInstanceAs (Decidable (∃ t ∈ s.tasks, _))

/-- What a call must not meet: a task removed that someone needs, a task found missing that someone
else is just entering, push that begins after its credential has been taken back, with no socket. -/
def UnsharedCall (s : LiveSystem) : LiveCall → Prop
  | .remove key => s.world.tasks.containsKey key = true → ¬s.Needed key.1
  | .containsKey key =>
    s.world.tasks.containsKey key = false → ∀ t ∈ s.tasks, t.1.entering ≠ some key.1
  | .listen user _ => (s.world.credentials user).isSome = true ∨ s.Covered user
  | _ => True

instance (s : LiveSystem) (c : LiveCall) : Decidable (s.UnsharedCall c) := by
  cases c <;> unfold UnsharedCall <;> infer_instance

/-- Nor may push end while no socket will stop the task, or begin again while the task does not run. -/
def Unshared (s : LiveSystem) : LiveEvent → Prop
  | .call i => ∀ g c, s.upcoming i = some (g,c) → s.UnsharedCall c
  | .delete user => s.world.PushOpen user → s.Covered user
  | .store user _ =>
    user ∈ s.world.listeners.map Prod.fst → (s.world.credentials user).isSome = false →
      s.world.tasks.containsKey (user,"INBOX") = true
  | _ => True

instance (s : LiveSystem) (e : LiveEvent) : Decidable (s.Unshared e) := by
  cases e with
  | call i =>
    refine decidable_of_iff (∀ c ∈ s.upcoming i, s.UnsharedCall c.2) ?_
    constructor
    · exact fun h g c hc => h (g,c) hc
    · exact fun h c hc => h c.1 c.2 hc
  | _ => unfold Unshared; infer_instance

end LiveSystem

/-! ### The invariant -/

/-- The two have no start and no task in common. -/
def LiveStage.Apart (g g' : LiveStage) : Prop :=
  (∀ u, g.entering = some u → g'.entering ≠ some u) ∧
    ∀ u u' h, g.handle = some (u,h) → g'.handle ≠ some (u',h)

/-- There is an entry under the key. -/
def LiveWorld.Has (w : LiveWorld) (key : String × String) : Prop := ∃ h, w.tasks.get key = some h

theorem LiveWorld.containsKey_iff {w : LiveWorld} {key : String × String} :
    w.tasks.containsKey key = true ↔ w.Has key := Option.isSome_iff_exists

/-- What holds of the world and the stages of those who work in it. -/
structure IdleInv (w : LiveWorld) (gs : List LiveStage) : Prop where
  uses : ∀ g ∈ gs, ∀ u, g.Uses u → w.Has (u,"INBOX")
  enters : ∀ g ∈ gs, ∀ u, g.entering = some u → ¬w.Has (u,"INBOX")
  holds : ∀ g ∈ gs, ∀ u h, g.handle = some (u,h) →
    (∃ t, w.spawned[h]? = some t ∧ (t.user,t.folder) = (u,"INBOX") ∧ t.live = true) ∧
      ∀ key, w.tasks.get key ≠ some h
  mapped : ∀ key h, w.tasks.get key = some h → key.2 = "INBOX" ∧
    ∃ t, w.spawned[h]? = some t ∧ (t.user,t.folder) = key ∧ t.live = true
  kept : ∀ h t, w.spawned[h]? = some t → t.live = true →
    w.tasks.get (t.user,t.folder) = some h ∨ ∃ g ∈ gs, g.handle = some (t.user,h)
  apart : ∀ (i j : Nat) g g', gs[i]? = some g → gs[j]? = some g' → i ≠ j → g.Apart g'
  push : ∀ u, w.PushOpen u → w.Has (u,"INBOX")
  needed : ∀ u, w.Has (u,"INBOX") →
    w.PushOpen u ∨ ∃ g ∈ gs, g.Uses u ∨ g.Stops (u,"INBOX")

section Steps

variable {w w' : LiveWorld} {gs : List LiveStage} {i : Nat} {g g' : LiveStage}

theorem LiveStage.Apart.symm (h : g.Apart g') : g'.Apart g :=
  ⟨fun u hu hu' => h.1 u hu' hu,fun u u' n hn hn' => h.2 u' u n hn' hn⟩

/-- The others when one stage changes. -/
theorem IdleInv.apart_set (h : IdleInv w gs)
    (hg : ∀ j g'', gs[j]? = some g'' → i ≠ j → g'.Apart g'') (j k : Nat) (a b : LiveStage)
    (ha : (gs.set i g')[j]? = some a) (hb : (gs.set i g')[k]? = some b) (hjk : j ≠ k) :
    a.Apart b := by
  rcases getElem?_of_set ha with ⟨rfl,rfl⟩ | ⟨hij,ha'⟩
  · rcases getElem?_of_set hb with ⟨rfl,-⟩ | ⟨hik,hold⟩
    · exact absurd rfl hjk
    · exact hg k b hold hik
  · rcases getElem?_of_set hb with ⟨rfl,rfl⟩ | ⟨hik,hold⟩
    · exact (hg j a ha' hij).symm
    · exact h.apart j k a b ha' hold hjk

/-- A stage that is kept, or the new one. -/
theorem mem_of_mem_set {a : LiveStage} (ha : a ∈ gs.set i g') : a ∈ gs ∨ a = g' :=
  List.mem_or_eq_of_mem_set ha

/-- A stage with a property is still there after a change that keeps the property. -/
theorem exists_set {P : LiveStage → Prop} (hi : gs[i]? = some g) (h : P g → P g') :
    (∃ a ∈ gs, P a) → ∃ a ∈ gs.set i g', P a := exists_mem_set hi h

theorem LiveWorld.has_congr (h : ∀ key, w'.tasks.get key = w.tasks.get key) (key : String × String) :
    w'.Has key ↔ w.Has key := by
  unfold Has
  rw [h]

/-- A step that leaves the map and the tasks alone. -/
theorem IdleInv.turn (h : IdleInv w gs) (hi : gs[i]? = some g)
    (htasks : ∀ key, w'.tasks.get key = w.tasks.get key) (hspawned : w'.spawned = w.spawned)
    (huses : ∀ u, g'.Uses u → w.Has (u,"INBOX"))
    (henter : ∀ u, g'.entering = some u → g.entering = some u ∨
      ¬w.Has (u,"INBOX") ∧ ∀ a ∈ gs, a.entering ≠ some u)
    (hhandle : g'.handle = g.handle) (hpush : ∀ u, w'.PushOpen u → w.Has (u,"INBOX"))
    (hneed : ∀ u, w.Has (u,"INBOX") → w.PushOpen u ∨ g.Uses u ∨ g.Stops (u,"INBOX") →
      w'.PushOpen u ∨ ∃ a ∈ gs.set i g', a.Uses u ∨ a.Stops (u,"INBOX")) :
    IdleInv w' (gs.set i g') := by
  have hg : g ∈ gs := List.mem_of_getElem? hi
  have hhas := LiveWorld.has_congr htasks
  refine ⟨fun a ha u hu => ?_,fun a ha u hu => ?_,fun a ha u n hu => ?_,fun key n hn => ?_,
    fun n t ht hl => ?_,h.apart_set (fun j a ha hij => ?_),fun u hu => (hhas _).mpr (hpush u hu),
    fun u hu => ?_⟩
  · rw [hhas]
    rcases mem_of_mem_set ha with ha | rfl
    · exact h.uses a ha u hu
    · exact huses u hu
  · rw [hhas]
    rcases mem_of_mem_set ha with ha | rfl
    · exact h.enters a ha u hu
    · rcases henter u hu with hu | hu
      · exact h.enters g hg u hu
      · exact hu.1
  · simp only [hspawned,htasks]
    rcases mem_of_mem_set ha with ha | rfl
    · exact h.holds a ha u n hu
    · exact h.holds g hg u n (hhandle ▸ hu)
  · rw [hspawned]
    exact h.mapped key n ((htasks key).symm.trans hn)
  · rw [hspawned] at ht
    rw [htasks]
    exact (h.kept n t ht hl).imp id (exists_set hi (fun hn => hhandle.trans hn))
  · have hold := h.apart i j g a hi ha hij
    refine ⟨fun u hu hu' => ?_,fun u u' n hn hn' => hold.2 u u' n (hhandle ▸ hn) hn'⟩
    rcases henter u hu with hu | hu
    · exact hold.1 u hu hu'
    · exact hu.2 a (List.mem_of_getElem? ha) hu'
  · rw [hhas] at hu
    rcases h.needed u hu with hp | ⟨a,ha,hau⟩
    · exact hneed u hu (Or.inl hp)
    · obtain ⟨j,hj⟩ := List.mem_iff_getElem?.mp ha
      by_cases hij : i = j
      · subst hij
        obtain rfl : g = a := Option.some.inj (hi.symm.trans hj)
        exact hneed u hu (Or.inr hau)
      · exact Or.inr ⟨a,List.mem_of_getElem? (by rw [List.getElem?_set_ne hij]; exact hj),hau⟩

/-- The world changes without the map and the tasks. -/
theorem IdleInv.world (h : IdleInv w gs) (htasks : w'.tasks = w.tasks)
    (hspawned : w'.spawned = w.spawned) (hpush : ∀ u, w'.PushOpen u → w.Has (u,"INBOX"))
    (hneed : ∀ u, w.PushOpen u → w'.PushOpen u ∨ ∃ a ∈ gs, a.Uses u ∨ a.Stops (u,"INBOX")) :
    IdleInv w' gs := by
  have hhas := LiveWorld.has_congr (fun key => congrArg (DashMap.get · key) htasks)
  refine ⟨fun a ha u hu => (hhas _).mpr (h.uses a ha u hu),
    fun a ha u hu hw => h.enters a ha u hu ((hhas _).mp hw),fun a ha u n hu => ?_,?_,
    fun n t ht hl => ?_,h.apart,fun u hu => (hhas _).mpr (hpush u hu),fun u hu => ?_⟩
  · rw [hspawned,htasks]
    exact h.holds a ha u n hu
  · rw [hspawned,htasks]
    exact h.mapped
  · rw [hspawned] at ht
    rw [htasks]
    exact h.kept n t ht hl
  · exact (h.needed u ((hhas _).mp hu)).elim (hneed u) Or.inr

/-- Another socket or pass, with nothing done yet. -/
theorem IdleInv.start (h : IdleInv w gs) (huses : ∀ u, ¬g.Uses u) (henter : g.entering = none)
    (hhandle : g.handle = none) : IdleInv w (gs ++ [g]) := by
  have hmem : ∀ {a}, a ∈ gs ++ [g] → a ∈ gs ∨ a = g := by
    intro a ha
    simpa using ha
  have hnew : ∀ a : LiveStage, g.Apart a := by
    intro a
    refine ⟨fun u hu => ?_,fun u u' n hn => ?_⟩
    · rw [henter] at hu
      simp at hu
    · rw [hhandle] at hn
      simp at hn
  refine ⟨fun a ha u hu => ?_,fun a ha u hu => ?_,fun a ha u n hu => ?_,h.mapped,fun n t ht hl => ?_,
    fun j k a b ha hb hjk => ?_,h.push,fun u hu => ?_⟩
  · rcases hmem ha with ha | rfl
    · exact h.uses a ha u hu
    · exact absurd hu (huses u)
  · rcases hmem ha with ha | rfl
    · exact h.enters a ha u hu
    · rw [henter] at hu
      simp at hu
  · rcases hmem ha with ha | rfl
    · exact h.holds a ha u n hu
    · rw [hhandle] at hu
      simp at hu
  · refine (h.kept n t ht hl).imp id ?_
    rintro ⟨a,ha,hn⟩
    exact ⟨a,List.mem_append_left _ ha,hn⟩
  · rw [List.getElem?_append] at ha hb
    split at ha
    · split at hb
      · exact h.apart j k a b ha hb hjk
      · obtain rfl : b = g := List.mem_singleton.mp (List.mem_of_getElem? hb)
        exact (hnew a).symm
    · obtain rfl : a = g := List.mem_singleton.mp (List.mem_of_getElem? ha)
      exact hnew b
  · refine (h.needed u hu).imp id ?_
    rintro ⟨a,ha,hn⟩
    exact ⟨a,List.mem_append_left _ ha,hn⟩

/-- A task is spawned for a start that found none. -/
theorem IdleInv.spawn (h : IdleInv w gs) (hi : gs[i]? = some g) {u : String} (creds : ImapCredentials)
    (henter : g.entering = some u) (henter' : g'.entering = some u) (hhandle : g.handle = none)
    (hhandle' : g'.handle = some (u,w.spawned.length)) (huses : ∀ v, g'.Uses v ↔ g.Uses v)
    (hstops : ∀ key, g.Stops key → g'.Stops key) :
    IdleInv { w with spawned := w.spawned ++ [⟨u,"INBOX",creds,true⟩] } (gs.set i g') := by
  have hg : g ∈ gs := List.mem_of_getElem? hi
  have hgrow : ∀ {n : Nat} {t : IdleTask}, w.spawned[n]? = some t →
      (w.spawned ++ [⟨u,"INBOX",creds,true⟩])[n]? = some t := by
    intro n t ht
    rw [List.getElem?_append_left (List.getElem?_eq_some_iff.mp ht).1]
    exact ht
  have hfresh : ∀ {key n}, w.tasks.get key = some n → n < w.spawned.length := by
    intro key n hn
    obtain ⟨-,t,ht,-⟩ := h.mapped key n hn
    exact (List.getElem?_eq_some_iff.mp ht).1
  refine ⟨fun a ha v hv => ?_,fun a ha v hv => ?_,fun a ha v n hv => ?_,fun key n hn => ?_,
    fun n t ht hl => ?_,h.apart_set (fun j a ha hij => ?_),h.push,fun v hv => ?_⟩
  · rcases mem_of_mem_set ha with ha | rfl
    · exact h.uses a ha v hv
    · exact h.uses g hg v ((huses v).mp hv)
  · rcases mem_of_mem_set ha with ha | rfl
    · exact h.enters a ha v hv
    · exact h.enters g hg v (henter.trans (henter'.symm.trans hv))
  · rcases mem_of_mem_set ha with ha | rfl
    · obtain ⟨⟨t,ht,hrest⟩,hfree⟩ := h.holds a ha v n hv
      exact ⟨⟨t,hgrow ht,hrest⟩,hfree⟩
    · obtain ⟨rfl,rfl⟩ := Prod.mk.inj (Option.some.inj (hhandle'.symm.trans hv))
      refine ⟨⟨_,List.getElem?_concat_length,rfl,rfl⟩,fun key hkey => ?_⟩
      exact absurd (hfresh hkey) (Nat.lt_irrefl _)
  · obtain ⟨hinbox,t,ht,hrest⟩ := h.mapped key n hn
    exact ⟨hinbox,t,hgrow ht,hrest⟩
  · change (w.spawned ++ [⟨u,"INBOX",creds,true⟩])[n]? = some t at ht
    rw [List.getElem?_append] at ht
    split at ht
    · refine (h.kept n t ht hl).imp id (exists_set hi (fun hn => ?_))
      rw [hhandle] at hn
      simp at hn
    · next hlen =>
      have hn : n = w.spawned.length := by
        have := (List.getElem?_eq_some_iff.mp ht).1
        simp at this
        omega
      subst hn
      obtain rfl : t = ⟨u,"INBOX",creds,true⟩ := List.mem_singleton.mp (List.mem_of_getElem? ht)
      exact Or.inr ⟨g',mem_set_new hi,hhandle'⟩
  · have hold := h.apart i j g a hi ha hij
    refine ⟨fun v hv hv' => ?_,fun v v' n hn hn' => ?_⟩
    · exact hold.1 v (henter.trans (henter'.symm.trans hv)) hv'
    · obtain ⟨⟨t,ht,-⟩,-⟩ := h.holds a (List.mem_of_getElem? ha) v' n hn'
      obtain ⟨-,rfl⟩ := Prod.mk.inj (Option.some.inj (hhandle'.symm.trans hn))
      exact absurd (List.getElem?_eq_some_iff.mp ht).1 (Nat.lt_irrefl _)
  · refine (h.needed v hv).imp id (exists_set hi ?_)
    exact Or.imp (huses v).mpr (hstops _)

/-- A spawned task is entered in the map. -/
theorem IdleInv.insert (h : IdleInv w gs) (hi : gs[i]? = some g) {u : String} {n : Nat}
    (henter : g.entering = some u) (henter' : g'.entering = none) (hhandle : g.handle = some (u,n))
    (hhandle' : g'.handle = none) (huses : ∀ v, g'.Uses v ↔ g.Uses v ∨ v = u)
    (hstops : ∀ key, g.Stops key → g'.Stops key) :
    IdleInv { w with tasks := w.tasks.insert (u,"INBOX") n } (gs.set i g') := by
  have hg : g ∈ gs := List.mem_of_getElem? hi
  have hget : ∀ key, (w.tasks.insert (u,"INBOX") n).get key =
      if key = (u,"INBOX") then some n else w.tasks.get key := DashMap.get_insert _ _ _
  have hgrow : ∀ {key}, w.Has key → ∃ m, (w.tasks.insert (u,"INBOX") n).get key = some m := by
    rintro key ⟨m,hm⟩
    rw [hget]
    by_cases hkey : key = (u,"INBOX")
    · exact ⟨n,if_pos hkey⟩
    · exact ⟨m,(if_neg hkey).trans hm⟩
  obtain ⟨⟨t,ht,hkey,hl⟩,hfree⟩ := h.holds g hg u n hhandle
  refine ⟨fun a ha v hv => ?_,fun a ha v hv => ?_,fun a ha v m hv => ?_,fun key m hm => ?_,
    fun m t' ht' hl' => ?_,h.apart_set (fun j a ha hij => ?_),fun v hv => hgrow (h.push v hv),
    fun v hv => ?_⟩
  · rcases mem_of_mem_set ha with ha | rfl
    · exact hgrow (h.uses a ha v hv)
    · rcases (huses v).mp hv with hv | rfl
      · exact hgrow (h.uses g hg v hv)
      · exact ⟨n,(hget _).trans (if_pos rfl)⟩
  · rintro ⟨m,hm⟩
    rcases mem_set_cases ha with rfl | ⟨j,hij,hold⟩
    · rw [henter'] at hv
      simp at hv
    · change (w.tasks.insert (u,"INBOX") n).get _ = _ at hm
      rw [hget] at hm
      split at hm
      · next hkey' =>
        obtain ⟨rfl,-⟩ := Prod.mk.inj hkey'
        exact (h.apart i j g a hi hold hij).1 v henter hv
      · exact h.enters a (List.mem_of_getElem? hold) v hv ⟨m,hm⟩
  · rcases mem_set_cases ha with rfl | ⟨j,hij,hold⟩
    · rw [hhandle'] at hv
      simp at hv
    · obtain ⟨hlive,hfree'⟩ := h.holds a (List.mem_of_getElem? hold) v m hv
      refine ⟨hlive,fun key hkey' => ?_⟩
      change (w.tasks.insert (u,"INBOX") n).get key = _ at hkey'
      rw [hget] at hkey'
      split at hkey'
      · obtain rfl := Option.some.inj hkey'
        exact (h.apart i j g a hi hold hij).2 u v n hhandle hv
      · exact hfree' key hkey'
  · change (w.tasks.insert (u,"INBOX") n).get key = _ at hm
    rw [hget] at hm
    split at hm
    · next hkey' =>
      obtain rfl := Option.some.inj hm
      rw [hkey']
      exact ⟨rfl,t,ht,hkey,hl⟩
    · exact h.mapped key m hm
  · show (w.tasks.insert (u,"INBOX") n).get _ = _ ∨ _
    rw [hget]
    rcases h.kept m t' ht' hl' with hm | ⟨a,ha,hm⟩
    · refine Or.inl ?_
      split
      · next hkey' =>
        rw [hkey'] at hm
        exact absurd ⟨m,hm⟩ (h.enters g hg u henter)
      · exact hm
    · obtain ⟨j,hj⟩ := List.mem_iff_getElem?.mp ha
      by_cases hij : i = j
      · subst hij
        obtain rfl : g = a := Option.some.inj (hi.symm.trans hj)
        obtain ⟨-,rfl⟩ := Prod.mk.inj (Option.some.inj (hhandle.symm.trans hm))
        obtain rfl : t = t' := Option.some.inj (ht.symm.trans ht')
        exact Or.inl (if_pos hkey)
      · exact Or.inr ⟨a,List.mem_of_getElem? (by rw [List.getElem?_set_ne hij]; exact hj),hm⟩
  · refine ⟨fun v hv => ?_,fun v v' m hm => ?_⟩
    · rw [henter'] at hv
      simp at hv
    · rw [hhandle'] at hm
      simp at hm
  · obtain ⟨m,hm⟩ := hv
    change (w.tasks.insert (u,"INBOX") n).get _ = _ at hm
    rw [hget] at hm
    split at hm
    · next hkey' =>
      obtain ⟨rfl,-⟩ := Prod.mk.inj hkey'
      exact Or.inr ⟨g',mem_set_new hi,Or.inl ((huses v).mpr (Or.inr rfl))⟩
    · refine (h.needed v ⟨m,hm⟩).imp id (exists_set hi ?_)
      exact Or.imp (fun hu => (huses v).mpr (Or.inl hu)) (hstops _)

/-- A task that nobody needs is taken out of the map. -/
theorem IdleInv.remove (h : IdleInv w gs) (hi : gs[i]? = some g) {key : String × String} {n : Nat}
    (hget : w.tasks.get key = some n) (hpush : ¬w.PushOpen key.1) (hnone : ∀ a ∈ gs, ¬a.Uses key.1)
    (henter' : g'.entering = none) (hhandle : g.handle = none) (hhandle' : g'.handle = some (key.1,n))
    (huses : ∀ v, ¬g'.Uses v) (huses' : ∀ v, ¬g.Uses v)
    (hstops : ∀ k, g.Stops k → k = key ∨ g'.Stops k) :
    IdleInv { w with tasks := w.tasks.remove key } (gs.set i g') := by
  have hrem : ∀ k, (w.tasks.remove key).get k = if k = key then none else w.tasks.get k :=
    DashMap.get_remove _ _
  obtain ⟨hinbox,t,ht,hkey,hl⟩ := h.mapped key n hget
  have hother : ∀ {v}, v ≠ key.1 → w.Has (v,"INBOX") →
      ∃ m, (w.tasks.remove key).get (v,"INBOX") = some m := by
    rintro v hv ⟨m,hm⟩
    refine ⟨m,(hrem _).trans ((if_neg ?_).trans hm)⟩
    rintro rfl
    exact hv rfl
  have hless : ∀ {k m}, (w.tasks.remove key).get k = some m → k ≠ key ∧ w.tasks.get k = some m := by
    intro k m hm
    rw [hrem] at hm
    split at hm
    · simp at hm
    · next hk => exact ⟨hk,hm⟩
  refine ⟨fun a ha v hv => ?_,fun a ha v hv => ?_,fun a ha v m hv => ?_,fun k m hm => ?_,
    fun m t' ht' hl' => ?_,h.apart_set (fun j a ha hij => ?_),fun v hv => ?_,fun v hv => ?_⟩
  · rcases mem_of_mem_set ha with ha | rfl
    · refine hother ?_ (h.uses a ha v hv)
      rintro rfl
      exact hnone a ha hv
    · exact absurd hv (huses v)
  · rintro ⟨m,hm⟩
    rcases mem_of_mem_set ha with ha | rfl
    · exact h.enters a ha v hv ⟨m,(hless hm).2⟩
    · rw [henter'] at hv
      simp at hv
  · rcases mem_of_mem_set ha with ha | rfl
    · obtain ⟨hlive,hfree⟩ := h.holds a ha v m hv
      exact ⟨hlive,fun k hk => hfree k (hless hk).2⟩
    · obtain ⟨rfl,rfl⟩ := Prod.mk.inj (Option.some.inj (hhandle'.symm.trans hv))
      refine ⟨⟨t,ht,?_,hl⟩,fun k hk => ?_⟩
      · rw [hkey,← hinbox]
      · -- Another key of the same task would be this one.
        obtain ⟨-,t',ht',hkey',-⟩ := h.mapped k _ (hless hk).2
        obtain rfl : t = t' := Option.some.inj (ht.symm.trans ht')
        exact (hless hk).1 (hkey'.symm.trans hkey)
  · exact h.mapped k m (hless hm).2
  · show (w.tasks.remove key).get _ = _ ∨ _
    rw [hrem]
    rcases h.kept m t' ht' hl' with hm | hm
    · split
      · next hk =>
        rw [hk,hget] at hm
        obtain rfl := Option.some.inj hm
        refine Or.inr ⟨g',mem_set_new hi,hhandle'.trans ?_⟩
        rw [← hk]
      · exact Or.inl hm
    · refine Or.inr (exists_set hi (fun hn => ?_) hm)
      rw [hhandle] at hn
      simp at hn
  · refine ⟨fun v hv => ?_,fun v v' m hm hm' => ?_⟩
    · rw [henter'] at hv
      simp at hv
    · obtain ⟨-,rfl⟩ := Prod.mk.inj (Option.some.inj (hhandle'.symm.trans hm))
      exact (h.holds a (List.mem_of_getElem? ha) v' _ hm').2 key hget
  · refine hother ?_ (h.push v hv)
    rintro rfl
    exact hpush hv
  · obtain ⟨m,hm⟩ := hv
    obtain ⟨hk,hm⟩ := hless hm
    refine (h.needed v ⟨m,hm⟩).imp id (exists_set hi ?_)
    rintro (hu | hs)
    · exact absurd hu (huses' v)
    · exact Or.inr ((hstops _ hs).resolve_left hk)

/-- A task that is in nobody's hands but the caller's is aborted. -/
theorem IdleInv.abort (h : IdleInv w gs) (hi : gs[i]? = some g) {u : String} {n : Nat}
    (hhandle : g.handle = some (u,n)) (hhandle' : g'.handle = none) (henter' : g'.entering = none)
    (huses : ∀ v, g'.Uses v ↔ g.Uses v) (hstops : ∀ k, g.Stops k → g'.Stops k) :
    IdleInv (w.abort n) (gs.set i g') := by
  have hg : g ∈ gs := List.mem_of_getElem? hi
  have hget : ∀ m, (w.abort n).spawned[m]? =
      (w.spawned[m]?).map (fun t => if n = m then { t with live := false } else t) := by
    intro m
    unfold LiveWorld.abort
    rw [List.getElem?_modify]
    split
    · rfl
    · simp
  obtain ⟨-,hfree⟩ := h.holds g hg u n hhandle
  have hold : ∀ {m t}, n ≠ m → w.spawned[m]? = some t → (w.abort n).spawned[m]? = some t := by
    intro m t hnm ht
    rw [hget,ht]
    simp [hnm]
  refine ⟨fun a ha v hv => ?_,fun a ha v hv => ?_,fun a ha v m hv => ?_,fun k m hm => ?_,
    fun m t ht hl => ?_,h.apart_set (fun j a ha hij => ?_),h.push,fun v hv => ?_⟩
  · rcases mem_of_mem_set ha with ha | rfl
    · exact h.uses a ha v hv
    · exact h.uses g hg v ((huses v).mp hv)
  · rcases mem_of_mem_set ha with ha | rfl
    · exact h.enters a ha v hv
    · rw [henter'] at hv
      simp at hv
  · rcases mem_set_cases ha with rfl | ⟨j,hij,ha⟩
    · rw [hhandle'] at hv
      simp at hv
    · obtain ⟨⟨t,ht,hrest⟩,hfree'⟩ := h.holds a (List.mem_of_getElem? ha) v m hv
      refine ⟨⟨t,hold ?_ ht,hrest⟩,hfree'⟩
      rintro rfl
      exact (h.apart i j g a hi ha hij).2 u v n hhandle hv
  · obtain ⟨hinbox,t,ht,hrest⟩ := h.mapped k m hm
    refine ⟨hinbox,t,hold ?_ ht,hrest⟩
    rintro rfl
    exact hfree k hm
  · rw [hget] at ht
    obtain ⟨t',ht',rfl⟩ := Option.map_eq_some_iff.mp ht
    split at hl
    · simp at hl
    · next hnm =>
      rw [if_neg hnm]
      refine (h.kept m t' ht' hl).imp id (exists_set hi (fun hm => ?_))
      obtain ⟨-,rfl⟩ := Prod.mk.inj (Option.some.inj (hhandle.symm.trans hm))
      exact absurd rfl hnm
  · refine ⟨fun v hv => ?_,fun v v' m hm => ?_⟩
    · rw [henter'] at hv
      simp at hv
    · rw [hhandle'] at hm
      simp at hm
  · refine (h.needed v hv).imp id (exists_set hi ?_)
    exact Or.imp (huses v).mpr (hstops _)

/-- Between users nothing is in the stage's hands. -/
structure LiveStage.Rests (g : LiveStage) : Prop where
  uses : ∀ u, ¬g.Uses u
  stops : ∀ key, ¬g.Stops key
  entering : g.entering = none
  handle : g.handle = none

theorem LiveStage.rests_scanning : LiveStage.scanning.Rests := ⟨fun _ => id,fun _ => id,rfl,rfl⟩

theorem LiveStage.rests_checked (u : String) : (LiveStage.checked u).Rests :=
  ⟨fun _ => id,fun _ => id,rfl,rfl⟩

theorem LiveStage.rests_read (u : String) (row : StoredCredential) : (LiveStage.read u row).Rests :=
  ⟨fun _ => id,fun _ => id,rfl,rfl⟩

theorem LiveStage.rests_refusing (u : String) (row : StoredCredential) :
    (LiveStage.refusing u row).Rests := ⟨fun _ => id,fun _ => id,rfl,rfl⟩

theorem LiveStage.rests_accepted (u : String) (row : StoredCredential) :
    (LiveStage.accepted u row).Rests := ⟨fun _ => id,fun _ => id,rfl,rfl⟩

/-- A step of a pass that has nothing to do with IDLE. -/
theorem IdleInv.rest (h : IdleInv w gs) (hi : gs[i]? = some g) (hg : g.Rests) (hg' : g'.Rests)
    (htasks : w'.tasks = w.tasks) (hspawned : w'.spawned = w.spawned)
    (hpush : ∀ u, w'.PushOpen u ↔ w.PushOpen u) : IdleInv w' (gs.set i g') := by
  refine h.turn hi (fun key => congrArg (DashMap.get · key) htasks) hspawned
    (fun u hu => absurd hu (hg'.uses u)) (fun u hu => ?_) (hg'.handle.trans hg.handle.symm)
    (fun u hu => h.push u ((hpush u).mp hu)) (fun u _ hu => ?_)
  · rw [hg'.entering] at hu
    simp at hu
  · rcases hu with hu | hu | hu
    · exact Or.inl ((hpush u).mpr hu)
    · exact absurd hu (hg.uses u)
    · exact absurd hu (hg.stops _)

theorem LiveWorld.pushOpen_markInvalid (u v : String) :
    (w.markInvalid u).PushOpen v ↔ w.PushOpen v := by
  unfold PushOpen markInvalid
  by_cases hv : v = u
  · subst hv
    simp
  · simp [Function.update_of_ne hv]

/-- The start of a task finds one. -/
theorem IdleInv.found (h : IdleInv w gs) (hi : gs[i]? = some g) {u : String}
    (hhas : w.Has (u,"INBOX")) (henter' : g'.entering = none) (hhandle : g'.handle = g.handle)
    (huses : ∀ v, g'.Uses v ↔ g.Uses v ∨ v = u) (hstops : ∀ key, g.Stops key → g'.Stops key) :
    IdleInv w (gs.set i g') := by
  refine h.turn hi (fun _ => rfl) rfl (fun v hv => ?_) (fun v hv => ?_) hhandle h.push
    (fun v _ hv => ?_)
  · rcases (huses v).mp hv with hv | rfl
    · exact h.uses g (List.mem_of_getElem? hi) v hv
    · exact hhas
  · rw [henter'] at hv
    simp at hv
  · refine hv.imp id (fun hv => ⟨g',mem_set_new hi,?_⟩)
    exact hv.imp (fun hu => (huses v).mpr (Or.inl hu)) (hstops _)

/-- The start of a task finds none, and nobody else is entering one. -/
theorem IdleInv.missing (h : IdleInv w gs) (hi : gs[i]? = some g) {u : String}
    (hhas : ¬w.Has (u,"INBOX")) (halone : ∀ a ∈ gs, a.entering ≠ some u)
    (henter' : g'.entering = some u) (hhandle : g'.handle = g.handle)
    (huses : ∀ v, g'.Uses v ↔ g.Uses v) (hstops : ∀ key, g.Stops key → g'.Stops key) :
    IdleInv w (gs.set i g') := by
  refine h.turn hi (fun _ => rfl) rfl (fun v hv => ?_) (fun v hv => ?_) hhandle h.push
    (fun v _ hv => ?_)
  · exact h.uses g (List.mem_of_getElem? hi) v ((huses v).mp hv)
  · obtain rfl := Option.some.inj (henter'.symm.trans hv)
    exact Or.inr ⟨hhas,halone⟩
  · refine hv.imp id (fun hv => ⟨g',mem_set_new hi,?_⟩)
    exact hv.imp (huses v).mpr (hstops _)

end Steps

/-! ### One call -/

section Call

variable {decrypt : List UInt8 → List UInt8 → Option (List UInt8)} {s : LiveSystem} {i : Nat}
  {g : LiveStage}

abbrev LiveSystem.stages (s : LiveSystem) : List LiveStage := s.tasks.map Prod.fst

theorem LiveSystem.exists_stages {P : LiveStage → Prop} :
    (∃ a ∈ s.stages, P a) ↔ ∃ t ∈ s.tasks, P t.1 := by
  simp [LiveSystem.stages]

open LiveWorld LiveStage

/-- `contains_key`, for a socket or for a pass. -/
theorem IdleInv.containsKey (h : IdleInv s.world s.stages) (hi : s.stages[i]? = some g)
    {key : String × String} (hallow : g.Allows decrypt (.containsKey key))
    (hun : s.UnsharedCall (.containsKey key)) :
    IdleInv s.world (s.stages.set i (g.next (.containsKey key) (s.world.tasks.containsKey key))) := by
  obtain ⟨u,f⟩ := key
  obtain ⟨rfl,hbegin⟩ : f = "INBOX" ∧ g.Begins u .unsure := hallow
  cases hc : s.world.tasks.containsKey (u,"INBOX") with
  | true =>
    have hhas : s.world.Has (u,"INBOX") := containsKey_iff.mp hc
    rcases hbegin with ⟨os,rfl⟩ | ⟨row,rfl⟩
    · refine h.found (u := u) hi hhas rfl rfl (fun v => ?_) (fun _ => id)
      simp [next,Uses]
    · refine h.found (u := u) hi hhas rfl rfl (fun v => ?_) (fun _ => id)
      simp [next,Uses]
  | false =>
    have hhas : ¬s.world.Has (u,"INBOX") := fun hh => by
      rw [containsKey_iff.mpr hh] at hc
      simp at hc
    have halone : ∀ a ∈ s.stages, a.entering ≠ some u := by
      intro a ha
      obtain ⟨t,ht,rfl⟩ := List.mem_map.mp ha
      exact hun hc t ht
    rcases hbegin with ⟨os,rfl⟩ | ⟨row,rfl⟩
    · exact h.missing hi hhas halone rfl rfl (fun v => Iff.rfl) (fun _ => id)
    · exact h.missing hi hhas halone rfl rfl (fun v => Iff.rfl) (fun _ => id)

/-- Anything else `startIdle` does. -/
theorem IdleInv.spawnCall (h : IdleInv s.world s.stages) (hi : s.stages[i]? = some g)
    {u f : String} {creds : ImapCredentials} (hallow : g.Allows decrypt (.spawn u f creds)) :
    IdleInv (LiveWorld.serve (.spawn u f creds) s.world).2
      (s.stages.set i (g.next (.spawn u f creds) s.world.spawned.length)) := by
  obtain ⟨rfl,⟨os,rfl⟩ | ⟨row,rfl⟩⟩ : f = "INBOX" ∧ g.Begins u (.absent u) := hallow
  · exact h.spawn hi creds rfl rfl rfl rfl (fun _ => Iff.rfl) (fun _ => id)
  · exact h.spawn hi creds rfl rfl rfl rfl (fun _ => Iff.rfl) (fun _ => id)

theorem IdleInv.insertCall (h : IdleInv s.world s.stages) (hi : s.stages[i]? = some g)
    {key : String × String} {n : Nat} (hallow : g.Allows decrypt (.insert key n)) :
    IdleInv (LiveWorld.serve (.insert key n) s.world).2 (s.stages.set i (g.next (.insert key n) ())) := by
  obtain ⟨u,f⟩ := key
  obtain ⟨rfl,⟨os,rfl⟩ | ⟨row,rfl⟩⟩ : f = "INBOX" ∧ g.Begins u (.spawned u n) := hallow
  · refine h.insert hi rfl rfl rfl rfl (fun v => ?_) (fun _ => id)
    simp [next,Uses]
  · refine h.insert hi rfl rfl rfl rfl (fun v => ?_) (fun _ => id)
    simp [next,Uses]

/-- A socket collects what it will remove. -/
theorem IdleInv.keysOfCall (h : IdleInv s.world s.stages) (hi : s.stages[i]? = some g) {u : String}
    (hallow : g.Allows decrypt (.keysOf u)) :
    IdleInv s.world (s.stages.set i (g.next (.keysOf u) (LiveWorld.serve (.keysOf u) s.world).1)) := by
  obtain ⟨us,rfl⟩ := hallow
  refine h.turn hi (fun _ => rfl) rfl (fun _ hu => hu.elim) (fun v hv => ?_) rfl h.push
    (fun v hv hneed => hneed.imp id (fun hneed => ⟨_,mem_set_new hi,Or.inr ?_⟩))
  · simp [next,entering] at hv
  · rcases hneed with hu | hu | hu
    · exact hu.elim
    · rcases List.mem_cons.mp hu with rfl | hu
      · obtain ⟨n,hn⟩ := hv
        refine Or.inr (List.mem_filter.mpr ⟨List.mem_map.mpr ⟨_,DashMap.get_eq_some.mp hn,rfl⟩,?_⟩)
        simp
      · exact Or.inl hu
    · simp at hu

theorem IdleInv.removeCall (h : IdleInv s.world s.stages) (hi : s.stages[i]? = some g)
    {key : String × String} (hallow : g.Allows decrypt (.remove key))
    (hun : s.UnsharedCall (.remove key)) :
    IdleInv (LiveWorld.serve (.remove key) s.world).2
      (s.stages.set i (g.next (.remove key) (s.world.tasks.get key))) := by
  obtain ⟨us,ks,rfl⟩ := hallow
  cases hget : s.world.tasks.get key with
  | none =>
    have hsame : ∀ k, (s.world.tasks.remove key).get k = s.world.tasks.get k := by
      intro k
      rw [DashMap.get_remove]
      split
      · next hk => rw [hk,hget]
      · rfl
    refine h.turn hi hsame rfl (fun _ hu => hu.elim) (fun v hv => ?_) rfl h.push
      (fun v hv hneed => hneed.imp id (fun hneed => ⟨_,mem_set_new hi,Or.inr ?_⟩))
    · simp [next,entering] at hv
    · rcases hneed with hu | hu | hu
      · exact hu.elim
      · exact Or.inl hu
      · refine Or.inr ((List.mem_cons.mp hu).resolve_left ?_)
        rintro rfl
        obtain ⟨n,hn⟩ := hv
        rw [hget] at hn
        simp at hn
  | some n =>
    have hneeded := hun (containsKey_iff.mpr ⟨n,hget⟩)
    refine h.remove hi hget (fun hp => hneeded (Or.inl hp)) (fun a ha hu => ?_) rfl rfl rfl
      (fun _ => id) (fun _ => id) (fun k hk => ?_)
    · exact hneeded (Or.inr (LiveSystem.exists_stages.mp ⟨a,ha,hu⟩))
    · rcases hk with hk | hk
      · exact Or.inr (Or.inl hk)
      · exact (List.mem_cons.mp hk).imp id Or.inr

theorem IdleInv.closedCall (h : IdleInv s.world s.stages) (hi : s.stages[i]? = some g)
    (hallow : g.Allows decrypt .closed) : IdleInv s.world (s.stages.set i (g.next .closed ())) := by
  obtain ⟨os,rfl⟩ := hallow
  refine h.turn hi (fun _ => rfl) rfl (fun _ hu => hu.elim) (fun v hv => ?_) rfl h.push
    (fun v hv hneed => hneed.imp id (fun hneed => ⟨_,mem_set_new hi,Or.inr (Or.inl ?_)⟩))
  · simp [next,entering] at hv
  · exact hneed.elim id (fun hu => hu.elim)

/-- Push begins to listen. -/
theorem IdleInv.listenCall (h : IdleInv s.world s.stages) (hi : s.stages[i]? = some g)
    {u : String} {creds : ImapCredentials} (hallow : g.Allows decrypt (.listen u creds))
    (hun : s.UnsharedCall (.listen u creds)) :
    IdleInv (LiveWorld.serve (.listen u creds) s.world).2 (s.stages.set i (g.next (.listen u creds) ())) := by
  obtain ⟨row,rfl,-⟩ := hallow
  have hhas := h.uses _ (List.mem_of_getElem? hi) u rfl
  refine h.turn hi (fun _ => rfl) rfl (fun _ hu => hu.elim) (fun v hv => ?_) rfl (fun v hv => ?_)
    (fun v hv hneed => ?_)
  · simp [next,entering] at hv
  · obtain ⟨hv,hstored⟩ := hv
    simp only [LiveWorld.serve,List.map_append,List.mem_append,List.map_singleton,List.mem_singleton] at hv
    rcases hv with hv | rfl
    · exact h.push v ⟨hv,hstored⟩
    · exact hhas
  · rcases hneed with ⟨hl,hstored⟩ | hu | hu
    · refine Or.inl ⟨?_,hstored⟩
      simp only [LiveWorld.serve,List.map_append]
      exact List.mem_append_left _ hl
    · obtain rfl : v = u := hu
      rcases hun with hstored | ⟨t,ht,hcov⟩
      · refine Or.inl ⟨?_,hstored⟩
        simp [LiveWorld.serve]
      · -- The socket that covers the user is not this pass.
        have hmem : t.1 ∈ s.stages := List.mem_map.mpr ⟨t,ht,rfl⟩
        obtain ⟨j,hj⟩ := List.mem_iff_getElem?.mp hmem
        have hij : i ≠ j := by
          rintro rfl
          have hg := Option.some.inj (hj.symm.trans hi)
          rw [hg] at hcov
          rcases hcov with ⟨hscans,-⟩ | hs
          · simp [scans] at hscans
          · exact hs
        refine Or.inr ⟨t.1,List.mem_of_getElem? (by rw [List.getElem?_set_ne hij]; exact hj),?_⟩
        exact hcov.imp And.right id
    · exact hu.elim

/-- One call of a socket or of a pass. -/
theorem IdleInv.call (h : IdleInv s.world s.stages) (hi : s.stages[i]? = some g) {c : LiveCall}
    (hallow : g.Allows decrypt c) (hun : s.UnsharedCall c) :
    IdleInv (LiveWorld.serve c s.world).2 (s.stages.set i (g.next c (LiveWorld.serve c s.world).1)) := by
  cases c with
  | containsKey key => exact h.containsKey hi hallow hun
  | spawn u f creds => exact h.spawnCall hi hallow
  | insert key n => exact h.insertCall hi hallow
  | keysOf u => exact h.keysOfCall hi hallow
  | remove key => exact h.removeCall hi hallow hun
  | abort n =>
    obtain ⟨us,u,ks,rfl⟩ := hallow
    exact h.abort hi rfl rfl rfl (fun _ => Iff.rfl) (fun _ => id)
  | closed => exact h.closedCall hi hallow
  | readDir =>
    obtain rfl : g = .scanning := hallow
    exact h.rest hi rests_scanning rests_scanning rfl rfl (fun _ => Iff.rfl)
  | getCredential u =>
    have hrest : g.Rests ∧ ∀ r, (g.next (.getCredential u) r).Rests := by
      rcases hallow with rfl | rfl
      · exact ⟨rests_scanning,fun _ => rests_scanning⟩
      · refine ⟨rests_checked u,fun (r : Option (Option StoredCredential)) => ?_⟩
        rcases r with _ | _ | row
        · exact rests_scanning
        · exact rests_scanning
        · exact rests_read u row
    exact h.rest hi hrest.1 (hrest.2 _) rfl rfl (fun _ => Iff.rfl)
  | markInvalid u =>
    have hrest : g.Rests ∧ (g.next (.markInvalid u) ()).Rests := by
      obtain ⟨row,rfl | ⟨rfl,-⟩⟩ := hallow
      · exact ⟨rests_refusing u row,rests_scanning⟩
      · exact ⟨rests_read u row,rests_scanning⟩
    show IdleInv (if s.world.opens u = true then s.world.markInvalid u else s.world) _
    split
    · exact h.rest hi hrest.1 hrest.2 rfl rfl (fun v => pushOpen_markInvalid u v)
    · exact h.rest hi hrest.1 hrest.2 rfl rfl (fun _ => Iff.rfl)
  | listFolders creds =>
    obtain ⟨u,row,rfl,-⟩ := hallow
    have hrest : ∀ r, (next (.read u row) (.listFolders creds) r).Rests := by
      intro (r : Except ImapError Unit)
      rcases r with e | _
      · cases e with
        | authenticationFailed => exact rests_refusing u row
        | connectionFailed _ => exact rests_scanning
        | folderNotFound _ => exact rests_scanning
        | messageNotFound _ _ => exact rests_scanning
        | protocolError _ => exact rests_scanning
      · exact rests_accepted u row
    have hframe : (s.world.listFolders creds).2.tasks = s.world.tasks ∧
        (s.world.listFolders creds).2.spawned = s.world.spawned ∧
        (s.world.listFolders creds).2.credentials = s.world.credentials ∧
        (s.world.listFolders creds).2.listeners = s.world.listeners := by
      unfold LiveWorld.listFolders
      split
      · exact ⟨rfl,rfl,rfl,rfl⟩
      · exact ⟨rfl,rfl,rfl,rfl⟩
    obtain ⟨htasks,hspawned,hcreds,hlisten⟩ := hframe
    refine h.rest hi (rests_read u row) (hrest _) htasks hspawned (fun v => ?_)
    show PushOpen (s.world.listFolders creds).2 v ↔ _
    unfold PushOpen
    rw [hcreds,hlisten]
  | isRunning u =>
    obtain rfl : g = .scanning := hallow
    have hrest : ∀ b, (next .scanning (.isRunning u) b).Rests := by
      intro (b : Bool)
      cases b with
      | true => exact rests_scanning
      | false => exact rests_checked u
    exact h.rest hi rests_scanning (hrest _) rfl rfl (fun _ => Iff.rfl)
  | setRunning u =>
    obtain ⟨row,rfl⟩ := hallow
    exact h.rest hi (rests_accepted u row) ⟨fun _ => id,fun _ => id,rfl,rfl⟩ rfl rfl
      (fun _ => Iff.rfl)
  | listen u creds => exact h.listenCall hi hallow hun

end Call

/-! ### Runs -/

section Runs

variable {decrypt : List UInt8 → List UInt8 → Option (List UInt8)} {s s' : LiveSystem}

open LiveWorld LiveStage

/-- The invariant, with what everybody is still going to do. -/
structure LiveInv (decrypt : List UInt8 → List UInt8 → Option (List UInt8)) (s : LiveSystem) :
    Prop where
  keep : Threads.Keep (Allows decrypt) next Ended s
  idle : IdleInv s.world s.stages

theorem LiveInv.step {e : LiveEvent} (h : LiveInv decrypt s) (hun : s.Unshared e)
    (hs : s.step decrypt e = some s') : LiveInv decrypt s' := by
  cases e with
  | connect accounts =>
    obtain rfl := Option.some.inj hs
    refine ⟨h.keep.start ((keeps_handleSocketMultiAccount accounts).mono (fun _ _ => Or.inl)),?_⟩
    rw [LiveSystem.stages,List.map_append]
    exact h.idle.start (fun _ hu => by simp [Uses] at hu) rfl rfl
  | scan =>
    obtain ⟨-,rfl⟩ := LiveSystem.step_scan.mp hs
    refine ⟨h.keep.start (keeps_scan.mono (fun _ _ => Or.inr)),?_⟩
    rw [LiveSystem.stages,List.map_append]
    exact h.idle.start (fun _ => id) rfl rfl
  | call i =>
    obtain ⟨g,c,k,ht,rfl⟩ := Threads.call_eq_some.mp hs
    refine ⟨h.keep.call ht,?_⟩
    rw [LiveSystem.stages,List.map_set]
    refine h.idle.call ?_ (h.keep.allowed ht) (hun g c (Threads.upcoming_eq ht))
    rw [List.getElem?_map,ht]
    rfl
  | store u data =>
    obtain ⟨-,rfl⟩ := LiveSystem.step_store.mp hs
    refine ⟨h.keep,h.idle.world rfl rfl (fun v hv => ?_) (fun v hv => Or.inl ?_)⟩
    · obtain ⟨hl,hstored⟩ := hv
      by_cases hvu : v = u
      · subst hvu
        cases hc : (s.world.credentials v).isSome with
        | true => exact h.idle.push v ⟨hl,hc⟩
        | false => exact containsKey_iff.mp (hun hl hc)
      · refine h.idle.push v ⟨hl,?_⟩
        simpa [storeCredential,Function.update_of_ne hvu] using hstored
    · refine ⟨hv.1,?_⟩
      by_cases hvu : v = u
      · subst hvu
        simp [storeCredential]
      · simpa [storeCredential,Function.update_of_ne hvu] using hv.2
  | delete u =>
    obtain ⟨-,rfl⟩ := LiveSystem.step_delete.mp hs
    refine ⟨h.keep,h.idle.world rfl rfl (fun v hv => ?_) (fun v hv => ?_)⟩
    · obtain ⟨hl,hstored⟩ := hv
      by_cases hvu : v = u
      · subst hvu
        simp [deleteCredential] at hstored
      · refine h.idle.push v ⟨hl,?_⟩
        simpa [deleteCredential,Function.update_of_ne hvu] using hstored
    · by_cases hvu : v = u
      · subst hvu
        obtain ⟨t,ht,hcov⟩ := hun hv
        exact Or.inr ⟨t.1,List.mem_map.mpr ⟨t,ht,rfl⟩,hcov.imp And.right id⟩
      · refine Or.inl ⟨hv.1,?_⟩
        simpa [deleteCredential,Function.update_of_ne hvu] using hv.2
  | server answer =>
    obtain rfl := Option.some.inj hs
    exact ⟨h.keep,h.idle.world rfl rfl h.idle.push (fun _ => Or.inl)⟩
  | directory entries =>
    obtain rfl := Option.some.inj hs
    exact ⟨h.keep,h.idle.world rfl rfl h.idle.push (fun _ => Or.inl)⟩
  | database opens =>
    obtain rfl := Option.some.inj hs
    exact ⟨h.keep,h.idle.world rfl rfl h.idle.push (fun _ => Or.inl)⟩
  | tick seconds =>
    obtain rfl := Option.some.inj hs
    exact ⟨h.keep,h.idle.world rfl rfl h.idle.push (fun _ => Or.inl)⟩

theorem liveInv_opening (credentials : String → Option StoredCredential) (directory : List DirEntry)
    (server : ImapCredentials → Except ImapError Unit) :
    LiveInv decrypt (.opening credentials directory server) := by
  refine ⟨fun t ht => by simp [LiveSystem.opening] at ht,?_⟩
  refine ⟨?_,?_,?_,?_,?_,?_,?_,?_⟩
  all_goals simp [LiveSystem.opening,LiveSystem.stages,PushOpen,Has]

end Runs

/-! ### Open or busy -/

namespace LiveStage

variable {g : LiveStage} {user folder : String} {n : Nat}

theorem Stops.busy (h : g.Stops (user,folder)) : g.Busy user := by
  cases g with
  | closing us ks => exact h.imp id (fun hk => List.mem_map.mpr ⟨_,hk,rfl⟩)
  | aborting us u m ks =>
    exact h.elim Or.inl (fun hk => Or.inr (Or.inr (List.mem_map.mpr ⟨_,hk,rfl⟩)))
  | _ => exact h.elim

theorem busy_of_handle (h : g.handle = some (user,n)) : g.Busy user := by
  cases g with
  | opening os start =>
    cases start with
    | spawned u m => exact congrArg (Option.map Prod.fst) h
    | _ => simp [handle,Starting.handle] at h
  | aborting us u m ks => exact Or.inr (Or.inl (congrArg Prod.fst (Option.some.inj h)).symm)
  | starting u row start =>
    cases start with
    | spawned v m => exact Or.inr (congrArg (Option.map Prod.fst) h)
    | _ => simp [handle,Starting.handle] at h
  | _ => simp [handle] at h

end LiveStage

theorem open_or_busy_of_uses {s : LiveSystem} {user : String}
    {t : Thread LiveStage LiveCall LiveCall.Answer Unit} (ht : t ∈ s.tasks) (h : t.1.Uses user) :
    s.Open user ∨ s.Busy user := by
  cases hg : t.1 with
  | opening os start =>
    rw [hg] at h
    exact Or.inl (Or.inr ⟨t,ht,os,start,hg,h⟩)
  | started u row =>
    rw [hg] at h
    refine Or.inr ⟨t,ht,?_⟩
    rw [hg]
    exact h
  | _ =>
    rw [hg] at h
    exact h.elim

/-- In every run that starts and stops IDLE tasks without sharing them: the INBOX IDLE task of a user
runs in every state in which a socket or a push subscription of the user is open, and no IDLE task of
the user runs in a state in which none is and nobody is in the middle of starting or stopping one. -/
theorem idle_follows_owners {decrypt : List UInt8 → List UInt8 → Option (List UInt8)}
    {credentials : String → Option StoredCredential} {directory : List DirEntry}
    {server : ImapCredentials → Except ImapError Unit} {es : List LiveEvent} {s : LiveSystem}
    (h : Run (LiveSystem.step decrypt) LiveSystem.Unshared (.opening credentials directory server) es s)
    (user : String) :
    (s.Open user → s.world.Idles user "INBOX") ∧
      (¬s.Open user → ¬s.Busy user → ∀ folder, ¬s.world.Idles user folder) := by
  have hinv : LiveInv decrypt s :=
    h.invariant (liveInv_opening credentials directory server) (fun _ _ _ hi hok hs => hi.step hok hs)
  refine ⟨fun hopen => ?_,fun hopen hbusy folder => ?_⟩
  · have hhas : s.world.Has (user,"INBOX") := by
      rcases hopen with hp | ⟨t,ht,os,start,hos,hu⟩
      · exact hinv.idle.push user hp
      · refine hinv.idle.uses t.1 (List.mem_map.mpr ⟨t,ht,rfl⟩) user ?_
        rw [hos]
        exact hu
    obtain ⟨n,hn⟩ := hhas
    obtain ⟨-,t,ht,hkey,hl⟩ := hinv.idle.mapped _ n hn
    exact ⟨t,List.mem_of_getElem? ht,congrArg Prod.fst hkey,congrArg Prod.snd hkey,hl⟩
  · rintro ⟨t,ht,rfl,rfl,hl⟩
    obtain ⟨n,hn⟩ := List.mem_iff_getElem?.mp ht
    rcases hinv.idle.kept n t hn hl with hmap | ⟨g,hg,hhold⟩
    · obtain ⟨hinbox,-⟩ := hinv.idle.mapped _ n hmap
      rcases hinv.idle.needed t.user ⟨n,by rw [← hinbox]; exact hmap⟩ with hp | ⟨g,hg,hneed⟩
      · exact hopen (Or.inl hp)
      · obtain ⟨τ,hτ,rfl⟩ := List.mem_map.mp hg
        rcases hneed with hu | hs
        · exact (open_or_busy_of_uses hτ hu).elim hopen hbusy
        · exact hbusy ⟨τ,hτ,hs.busy⟩
    · obtain ⟨τ,hτ,rfl⟩ := List.mem_map.mp hg
      exact hbusy ⟨τ,hτ,LiveStage.busy_of_handle hhold⟩

/-- A signed-in account. -/
def sampleAccount : AccountSession :=
  ⟨"1","a@example.com","secret","u","mail.example.com",993,true,"mail.example.com",465,true,0,none,[]⟩

/-- Nobody has stored a credential, and the server takes everything. -/
def emptyOpening : LiveSystem := .opening (fun _ => none) [] (fun _ => .ok ())

/-- A socket opens and closes. -/
def oneTab : List LiveEvent :=
  [.connect [sampleAccount],.call 0,.call 0,.call 0,.call 0,.call 0,.call 0,.call 0]

theorem idle_follows_owners_oneTab :
    ∃ s, Run (LiveSystem.step (fun _ _ => none)) LiveSystem.Unshared emptyOpening oneTab s ∧
      s.world.spawned.map IdleTask.live = [false] ∧
      (¬s.Open "u" → ¬s.Busy "u" → ∀ folder, ¬s.world.Idles "u" folder) := by
  have hv : (execWhere (LiveSystem.step (fun _ _ => none)) LiveSystem.Unshared emptyOpening oneTab).map
      (fun s => s.world.spawned.map IdleTask.live) = some [false] := by
    decide
  obtain ⟨s,hrun,hl⟩ := run_of_map_execWhere hv
  exact ⟨s,hrun,hl,(idle_follows_owners hrun "u").2⟩

/-- Two tabs of one user; the first is closed. -/
def twoTabs : List LiveEvent :=
  [.connect [sampleAccount],.call 0,.call 0,.call 0,.connect [sampleAccount],.call 1,
    .call 0,.call 0,.call 0,.call 0]

/-- The second tab is open, and no IDLE task runs. -/
theorem closing_tab_stops_other : ∃ s,
    Run (LiveSystem.step (fun _ _ => none)) (fun _ _ => True) emptyOpening twoTabs s ∧
      s.Open "u" ∧ ¬s.world.Idles "u" "INBOX" := by
  have hv : (execWhere (LiveSystem.step (fun _ _ => none)) (fun _ _ => True) emptyOpening twoTabs).map
      (fun s => (s.world.spawned.map IdleTask.live,s.tasks.map Prod.fst)) =
        some ([false],[.closing [] [],.opening ["u"] .unsure]) := by
    decide
  obtain ⟨s,hrun,hl⟩ := run_of_map_execWhere hv
  obtain ⟨hlive,hstages⟩ := Prod.mk.inj hl
  refine ⟨s,hrun,Or.inr ?_,?_⟩
  · obtain ⟨t,ht,hg⟩ : ∃ t ∈ s.tasks, t.1 = .opening ["u"] .unsure := by
      refine List.mem_map.mp ?_
      rw [hstages]
      simp
    exact ⟨t,ht,["u"],.unsure,hg,by simp⟩
  · rintro ⟨t,ht,-,-,hl⟩
    have hmem : t.live ∈ s.world.spawned.map IdleTask.live := List.mem_map.mpr ⟨t,ht,rfl⟩
    rw [hlive,hl] at hmem
    simp at hmem

end Rav
