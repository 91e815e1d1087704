import Rav.Realtime.Worker

/-!
# One sync worker per user

`ensure_worker` looks for a running worker, spawns one and enters it in the map by three separate
acquisitions of the maps' locks. Two calls that overlap there each spawn a worker, and the one
entered first is orphaned. A worker that has decided to shut down still counts as running until its
task has ended, so a call may return a bell nobody listens to any more. Without either, there is one
worker at most and every ring wakes it.

## Main definitions

- `PokeSystem.OneWorker`, `PokeSystem.RingsHeard` — one running worker at most; every ring wakes one
- `PokeSystem.Undisturbed` — calls do not overlap while spawning, nor with a worker's end
- `Solo` — how the workers of one user and the calls for it stand
-/

namespace Rav

/-! ### Workers of one user -/

section Workers

variable (ws : List SyncWorker) (u : String)

/-- A worker of the user whose task has not ended. -/
def Unended (h : Nat) : Prop := ∃ w, ws[h]? = some w ∧ w.user = u ∧ w.phase ≠ .finished

/-- A worker of the user that listens to a bell. -/
def Listens (h b : Nat) : Prop :=
  ∃ w, ws[h]? = some w ∧ w.user = u ∧ w.bell = b ∧ w.phase.Works

end Workers

namespace PokeSystem

variable (s : PokeSystem)

/-- A user has one worker at most whose task has not ended. -/
def OneWorker : Prop :=
  ∀ u h h', Unended s.world.spawned u h → Unended s.world.spawned u h' → h = h'

/-- Every ring has woken a worker of its user. -/
def RingsHeard : Prop := ∀ r ∈ s.world.rings, r.2 = true

/-- The worker that the map has for the user has decided to shut down. -/
def leaving (u : String) : Bool :=
  match (s.world.tasks.get u).bind (fun h => s.world.spawned[h]?) with
  | some w => w.phase = .leaving
  | none => false

/-- No call for the worker's user has found or started a worker without having rung its bell. -/
def Released (h : Nat) : Prop :=
  match s.world.spawned[h]? with
  | some w => ∀ t ∈ s.tasks, t.1.1 = w.user → ¬t.1.2.Holds
  | none => True

/-- No call finds a worker that is shutting down, or finds none while another call for its user is
spawning one; and no worker shuts down or panics while a call has yet to ring its bell. -/
def Undisturbed : PokeEvent → Prop
  | .call i =>
    match s.upcoming i with
    | some (_,.running u) =>
      if s.world.running u then s.leaving u = false
      else ∀ t ∈ s.tasks, t.1.1 = u → ¬t.1.2.Spawning
    | _ => True
  | .timeout h => s.Released h
  | .panic h => s.Released h
  | _ => True

instance (h : Nat) : Decidable (s.Released h) := by
  unfold Released
  split <;> infer_instance

instance (e : PokeEvent) : Decidable (s.Undisturbed e) := by
  unfold Undisturbed
  split
  · split
    · split <;> infer_instance
    · infer_instance
  · infer_instance
  · infer_instance
  · infer_instance

/-- The stage of the `i`-th call, if it is for the user. -/
def stage (u : String) (i : Nat) : Option PokeStage :=
  match s.tasks[i]? with
  | some t => if t.1.1 = u then some t.1.2 else none
  | none => none

end PokeSystem

/-- What a stage says of the user's entries in the maps and of its workers. -/
def PokeStage.Fits (u : String) (task bell : Option Nat) (ws : List SyncWorker) : PokeStage → Prop
  | .fresh => True
  | .found => ∃ h b, task = some h ∧ Listens ws u h b
  | .missing => ∀ h, ¬Unended ws u h
  | .named _ => ∀ h, ¬Unended ws u h
  | .announced b => bell = some b ∧ ∀ h, ¬Unended ws u h
  | .spawned b h => Listens ws u h b ∧ bell = some b ∧ task ≠ some h ∧ ∀ k, Unended ws u k → k = h
  | .ready b => ∃ h, Listens ws u h b
  | .rung => True

/-- How the workers of one user and the calls for it stand. -/
structure Solo (u : String) (task bell : Option Nat) (ws : List SyncWorker)
    (f : Nat → Option PokeStage) : Prop where
  entered : ∀ h, task = some h → ∃ w, ws[h]? = some w ∧ w.user = u
  single : ∀ i j g g', f i = some g → f j = some g' → g.Spawning → g'.Spawning → i = j
  alone : ∀ i j g, f i = some .found → f j = some g → ¬g.Spawning
  quiet : (∀ i g, f i = some g → ¬g.Spawning) → ∀ h w, ws[h]? = some w → w.user = u →
    w.phase ≠ .finished → task = some h ∧ bell = some w.bell
  fits : ∀ i g, f i = some g → g.Fits u task bell ws

section Workers

variable {ws ws' : List SyncWorker} {u : String} {h b : Nat}

theorem WorkerPhase.works_of_ne (p : WorkerPhase) (hf : p ≠ .finished) (hl : p ≠ .leaving) :
    p.Works := by
  cases p with
  | waiting => exact Or.inl rfl
  | cycling => exact Or.inr rfl
  | leaving => exact (hl rfl).elim
  | finished => exact (hf rfl).elim

theorem Listens.unended (hl : Listens ws u h b) : Unended ws u h := by
  obtain ⟨w,hw,hu,-,hp⟩ := hl
  refine ⟨w,hw,hu,fun hf => ?_⟩
  rcases hp with hp | hp <;> simp [hp] at hf

end Workers

namespace Solo

variable {u : String} {task bell : Option Nat} {ws ws' : List SyncWorker}
  {f : Nat → Option PokeStage} {i : Nat}

/-- There is one worker at most whose task has not ended. -/
theorem one (hs : Solo u task bell ws f) {h h' : Nat} (hh : Unended ws u h)
    (hh' : Unended ws u h') : h = h' := by
  by_cases hsp : ∀ i g, f i = some g → ¬g.Spawning
  · obtain ⟨w,hw,hu,hp⟩ := hh
    obtain ⟨w',hw',hu',hp'⟩ := hh'
    have htask := (hs.quiet hsp h w hw hu hp).1
    exact Option.some.inj (htask.symm.trans (hs.quiet hsp h' w' hw' hu' hp').1)
  · push Not at hsp
    obtain ⟨i,g,hi,hg⟩ := hsp
    have hfits := hs.fits i g hi
    cases g with
    | missing => exact (hfits h hh).elim
    | named b => exact (hfits h hh).elim
    | announced b => exact (hfits.2 h hh).elim
    | spawned b k => exact (hfits.2.2.2 h hh).trans (hfits.2.2.2 h' hh').symm
    | fresh => exact hg.elim
    | found => exact hg.elim
    | ready b => exact hg.elim
    | rung => exact hg.elim

/-- Only the user's own workers matter. -/
theorem congr (hs : Solo u task bell ws f)
    (hws : ∀ (h : Nat) (w : SyncWorker), w.user = u → (ws'[h]? = some w ↔ ws[h]? = some w)) :
    Solo u task bell ws' f := by
  have hun : ∀ h, Unended ws' u h ↔ Unended ws u h := fun h =>
    exists_congr (fun w => ⟨fun ⟨hw,hu,hp⟩ => ⟨(hws h w hu).mp hw,hu,hp⟩,
      fun ⟨hw,hu,hp⟩ => ⟨(hws h w hu).mpr hw,hu,hp⟩⟩)
  have hli : ∀ h b, Listens ws' u h b ↔ Listens ws u h b := fun h b =>
    exists_congr (fun w => ⟨fun ⟨hw,hu,hp⟩ => ⟨(hws h w hu).mp hw,hu,hp⟩,
      fun ⟨hw,hu,hp⟩ => ⟨(hws h w hu).mpr hw,hu,hp⟩⟩)
  refine ⟨fun h ht => ?_,hs.single,hs.alone,
    fun hq h w hw hu => hs.quiet hq h w ((hws h w hu).mp hw) hu,fun i g hi => ?_⟩
  · obtain ⟨w,hw,hu⟩ := hs.entered h ht
    exact ⟨w,(hws h w hu).mpr hw,hu⟩
  · have hfits := hs.fits i g hi
    cases g <;> simp only [PokeStage.Fits,hun,hli] at hfits ⊢ <;> exact hfits

variable {task' bell' : Option Nat} {g g' : PokeStage}

/-- A call moves on; no call but it may start to spawn a worker, and none finds one meanwhile. -/
theorem update (hs : Solo u task bell ws f)
    (hentered : ∀ h, task' = some h → ∃ w, ws'[h]? = some w ∧ w.user = u)
    (hspawn : g'.Spawning → ∀ j k, j ≠ i → f j = some k → ¬k.Spawning)
    (hfound : g' = .found → ∀ j k, f j = some k → ¬k.Spawning)
    (hnone : g'.Spawning → ∀ j, f j ≠ some .found)
    (hquiet : ¬g'.Spawning → (∀ j k, j ≠ i → f j = some k → ¬k.Spawning) → ∀ h w,
      ws'[h]? = some w → w.user = u → w.phase ≠ .finished → task' = some h ∧ bell' = some w.bell)
    (hfits : ∀ j k, j ≠ i → f j = some k → k.Fits u task' bell' ws')
    (hnew : g'.Fits u task' bell' ws') :
    Solo u task' bell' ws' (Function.update f i (some g')) := by
  have hself : Function.update f i (some g') i = some g' := Function.update_self ..
  have hother : ∀ j, j ≠ i → Function.update f i (some g') j = f j :=
    fun j hj => Function.update_of_ne hj ..
  refine ⟨hentered,fun j j' k k' hk hk' hsp hsp' => ?_,fun j j' k hk hk' => ?_,fun hq => ?_,
    fun j k hk => ?_⟩
  · by_cases hj : j = i
    · by_cases hj' : j' = i
      · exact hj.trans hj'.symm
      · rw [hj,hself] at hk
        obtain rfl := Option.some.inj hk
        rw [hother j' hj'] at hk'
        exact (hspawn hsp j' k' hj' hk' hsp').elim
    · rw [hother j hj] at hk
      by_cases hj' : j' = i
      · rw [hj',hself] at hk'
        obtain rfl := Option.some.inj hk'
        exact (hspawn hsp' j k hj hk hsp).elim
      · rw [hother j' hj'] at hk'
        exact hs.single j j' k k' hk hk' hsp hsp'
  · by_cases hj' : j' = i
    · rw [hj',hself] at hk'
      obtain rfl := Option.some.inj hk'
      intro hsp
      by_cases hj : j = i
      · rw [hj,hself] at hk
        rw [Option.some.inj hk] at hsp
        exact hsp
      · rw [hother j hj] at hk
        exact hnone hsp j hk
    · rw [hother j' hj'] at hk'
      by_cases hj : j = i
      · rw [hj,hself] at hk
        exact hfound (Option.some.inj hk) j' k hk'
      · rw [hother j hj] at hk
        exact hs.alone j j' k hk hk'
  · refine hquiet (hq i g' hself) (fun j k hj hk => hq j k ?_)
    rwa [hother j hj]
  · by_cases hj : j = i
    · rw [hj,hself] at hk
      obtain rfl := Option.some.inj hk
      exact hnew
    · rw [hother j hj] at hk
      exact hfits j k hj hk

/-- A call for the user starts. -/
theorem start (hs : Solo u task bell ws f) (hi : f i = none) :
    Solo u task bell ws (Function.update f i (some .fresh)) := by
  refine hs.update hs.entered False.elim (fun h => by simp at h) False.elim
    (fun _ hq => hs.quiet (fun j k hk => hq j k ?_ hk)) (fun j k _ hk => hs.fits j k hk) trivial
  rintro rfl
  simp [hi] at hk

/-- While the worker in the map runs, nobody spawns another. -/
theorem not_spawning {h : Nat} (hs : Solo u task bell ws f) (ht : task = some h)
    (hh : Unended ws u h) : ∀ j k, f j = some k → ¬k.Spawning := by
  intro j k hk hsp
  have hfits := hs.fits j k hk
  cases k with
  | missing => exact hfits h hh
  | named b => exact hfits h hh
  | announced b => exact hfits.2 h hh
  | spawned b h' =>
    obtain ⟨-,-,hne,honly⟩ := hfits
    exact hne (honly h hh ▸ ht)
  | fresh => exact hsp
  | found => exact hsp
  | ready b => exact hsp
  | rung => exact hsp

theorem others_calm (hs : Solo u task bell ws f) (hi : f i = some g) (hg : g.Spawning) :
    ∀ j k, j ≠ i → f j = some k → ¬k.Spawning :=
  fun j k hj hk hsp => hj (hs.single j i k g hk hi hsp hg)

/-- While a call spawns a worker, the others of the user have not begun or have found theirs. -/
theorem others_fit {task' bell' : Option Nat} (hs : Solo u task bell ws f) (hi : f i = some g)
    (hg : g.Spawning) (hws : ∀ h b, Listens ws u h b → Listens ws' u h b) :
    ∀ j k, j ≠ i → f j = some k → k.Fits u task' bell' ws' := by
  intro j k hj hk
  have hfits := hs.fits j k hk
  have hcalm : ¬k.Spawning := hs.others_calm hi hg j k hj hk
  cases k with
  | fresh => exact trivial
  | rung => exact trivial
  | ready b =>
    obtain ⟨h,hl⟩ := hfits
    exact ⟨h,hws h b hl⟩
  | found => exact (hs.alone j i g hk hi hg).elim
  | missing => exact (hcalm trivial).elim
  | named b => exact (hcalm trivial).elim
  | announced b => exact (hcalm trivial).elim
  | spawned b h => exact (hcalm trivial).elim

theorem not_found (hs : Solo u task bell ws f) (hi : f i = some g) (hg : g.Spawning) :
    ∀ j, f j ≠ some .found := fun j hj => hs.alone j i g hj hi hg

/-! ### The moves of a call -/

theorem find {h b : Nat} (hs : Solo u task bell ws f) (ht : task = some h)
    (hl : Listens ws u h b) : Solo u task bell ws (Function.update f i (some .found)) := by
  have hcalm := hs.not_spawning ht hl.unended
  exact hs.update hs.entered False.elim (fun _ => hcalm) False.elim
    (fun _ _ => hs.quiet hcalm) (fun j k _ hk => hs.fits j k hk) ⟨h,b,ht,hl⟩

theorem miss (hs : Solo u task bell ws f) (hnone : ∀ h, task = some h → ¬Unended ws u h)
    (hcalm : ∀ j k, f j = some k → ¬k.Spawning) :
    Solo u task bell ws (Function.update f i (some .missing)) := by
  refine hs.update hs.entered (fun _ j k _ => hcalm j k) (fun h => by simp at h) (fun _ j hj => ?_)
    (fun h => (h trivial).elim) (fun j k _ hk => hs.fits j k hk) (fun h hh => ?_)
  · obtain ⟨h,b,ht,hl⟩ := hs.fits j _ hj
    exact hnone h ht hl.unended
  · obtain ⟨w,hw,hu,hp⟩ := hh
    exact hnone h (hs.quiet hcalm h w hw hu hp).1 ⟨w,hw,hu,hp⟩

/-- The bell in the map is the one of the worker that was found. -/
theorem bell_of_found (hs : Solo u task bell ws f) (hi : f i = some .found) :
    ∃ h b, bell = some b ∧ Listens ws u h b := by
  obtain ⟨h,b,ht,hl⟩ := hs.fits i _ hi
  have hcalm := hs.not_spawning ht hl.unended
  obtain ⟨w,hw,hu,rfl,hp⟩ := hl
  have hne : w.phase ≠ .finished := by rcases hp with hp | hp <;> simp [hp]
  exact ⟨h,w.bell,(hs.quiet hcalm h w hw hu hne).2,w,hw,hu,rfl,hp⟩

theorem obtain_bell {h b : Nat} (hs : Solo u task bell ws f) (hi : f i = some .found)
    (hl : Listens ws u h b) : Solo u task bell ws (Function.update f i (some (.ready b))) := by
  obtain ⟨k,_,ht,hk⟩ := hs.fits i _ hi
  have hcalm := hs.not_spawning ht hk.unended
  exact hs.update hs.entered False.elim (fun h => by simp at h) False.elim
    (fun _ _ => hs.quiet hcalm) (fun j k _ hk => hs.fits j k hk) ⟨h,hl⟩

theorem name (b : Nat) (hs : Solo u task bell ws f) (hi : f i = some .missing) :
    Solo u task bell ws (Function.update f i (some (.named b))) :=
  hs.update hs.entered (fun _ => hs.others_calm hi trivial) (fun h => by simp at h)
    (fun _ => hs.not_found hi trivial) (fun h => (h trivial).elim)
    (fun j k _ hk => hs.fits j k hk) (hs.fits i .missing hi)

theorem announce {b : Nat} (hs : Solo u task bell ws f) (hi : f i = some (.named b)) :
    Solo u task (some b) ws (Function.update f i (some (.announced b))) :=
  hs.update hs.entered (fun _ => hs.others_calm hi trivial) (fun h => by simp at h)
    (fun _ => hs.not_found hi trivial) (fun h => (h trivial).elim)
    (hs.others_fit hi trivial (fun _ _ h => h)) ⟨rfl,hs.fits i (.named b) hi⟩

theorem spawn {b : Nat} (hs : Solo u task bell ws f) (hi : f i = some (.announced b)) :
    Solo u task bell (ws ++ [⟨u,b,.waiting⟩])
      (Function.update f i (some (.spawned b ws.length))) := by
  obtain ⟨hbell,hnone⟩ := hs.fits i _ hi
  have hold : ∀ (h : Nat) (w : SyncWorker), ws[h]? = some w →
      (ws ++ [⟨u,b,.waiting⟩])[h]? = some w := by
    intro h w hw
    rw [List.getElem?_append_left (List.getElem?_eq_some_iff.mp hw).1]
    exact hw
  refine hs.update (fun h ht => ?_) (fun _ => hs.others_calm hi trivial) (fun h => by simp at h)
    (fun _ => hs.not_found hi trivial) (fun h => (h trivial).elim)
    (hs.others_fit hi trivial ?_) ⟨⟨_,List.getElem?_concat_length,rfl,rfl,Or.inl rfl⟩,hbell,?_,?_⟩
  · obtain ⟨w,hw,hu⟩ := hs.entered h ht
    exact ⟨w,hold h w hw,hu⟩
  · rintro h c ⟨w,hw,hl⟩
    exact ⟨w,hold h w hw,hl⟩
  · intro ht
    obtain ⟨w,hw,-⟩ := hs.entered _ ht
    simp at hw
  · -- there was no other worker of the user
    rintro k ⟨w,hw,hu,hp⟩
    rcases Nat.lt_or_ge k ws.length with hk | hk
    · rw [List.getElem?_append_left hk] at hw
      exact (hnone k ⟨w,hw,hu,hp⟩).elim
    · have hlt := (List.getElem?_eq_some_iff.mp hw).1
      rw [List.length_append,List.length_singleton] at hlt
      omega

theorem enter {b h : Nat} (hs : Solo u task bell ws f) (hi : f i = some (.spawned b h)) :
    Solo u (some h) bell ws (Function.update f i (some (.ready b))) := by
  obtain ⟨hl,hbell,-,honly⟩ := hs.fits i _ hi
  obtain ⟨w,hw,hu,rfl,hp⟩ := id hl
  refine hs.update (fun k hk => ?_) False.elim (fun h => by simp at h) False.elim
    (fun _ _ k w' hw' hu' hp' => ?_) (hs.others_fit hi trivial (fun _ _ h => h)) ⟨h,hl⟩
  · obtain rfl := Option.some.inj hk
    exact ⟨w,hw,hu⟩
  · obtain rfl := honly k ⟨w',hw',hu',hp'⟩
    obtain rfl := Option.some.inj (hw.symm.trans hw')
    exact ⟨rfl,hbell⟩

theorem ring {b : Nat} (hs : Solo u task bell ws f) (hi : f i = some (.ready b)) :
    Solo u task bell ws (Function.update f i (some .rung)) := by
  refine hs.update hs.entered False.elim (fun h => by simp at h) False.elim
    (fun _ hq => hs.quiet (fun j k hk => ?_)) (fun j k _ hk => hs.fits j k hk) trivial
  by_cases hj : j = i
  · subst hj
    obtain rfl := Option.some.inj (hi.symm.trans hk)
    exact id
  · exact hq j k hj hk

/-! ### The moves of a worker -/

/-- A worker changes phase; it stops listening only if no call has yet to ring a bell. -/
theorem phase {h : Nat} {q : WorkerPhase} {w : SyncWorker} (hs : Solo u task bell ws f)
    (hw : ws[h]? = some w) (hended : w.phase ≠ .finished)
    (hworks : w.user = u → w.phase.Works → q.Works ∨ ∀ j k, f j = some k → ¬k.Holds) :
    Solo u task bell (ws.modify h (fun w => { w with phase := q })) f := by
  have hget : ∀ k, (ws.modify h (fun w => { w with phase := q }))[k]? =
      if h = k then some { w with phase := q } else ws[k]? := by
    intro k
    rw [List.getElem?_modify]
    by_cases hk : h = k
    · subst hk
      simp [hw]
    · simp [hk]
  have hun : ∀ k, Unended (ws.modify h (fun w => { w with phase := q })) u k → Unended ws u k := by
    rintro k ⟨w',hw',hu,hp⟩
    rw [hget] at hw'
    split at hw'
    · next hk =>
      obtain rfl := Option.some.inj hw'
      exact hk ▸ ⟨w,hw,hu,hended⟩
    · exact ⟨w',hw',hu,hp⟩
  have hli : ∀ j g, f j = some g → g.Holds → ∀ k b, Listens ws u k b →
      Listens (ws.modify h (fun w => { w with phase := q })) u k b := by
    rintro j g hj hg k b ⟨w',hw',hu,rfl,hp⟩
    by_cases hk : h = k
    · subst hk
      obtain rfl := Option.some.inj (hw.symm.trans hw')
      rcases hworks hu hp with hq | hnone
      · exact ⟨_,(hget h).trans (if_pos rfl),hu,rfl,hq⟩
      · exact (hnone j g hj hg).elim
    · exact ⟨w',(hget k).trans ((if_neg hk).trans hw'),hu,rfl,hp⟩
  refine ⟨fun k hk => ?_,hs.single,hs.alone,fun hq k w' hw' hu hp => ?_,fun j g hj => ?_⟩
  · obtain ⟨w',hw',hu⟩ := hs.entered k hk
    rw [hget]
    split
    · next hk' =>
      subst hk'
      obtain rfl := Option.some.inj (hw.symm.trans hw')
      exact ⟨_,rfl,hu⟩
    · exact ⟨w',hw',hu⟩
  · rw [hget] at hw'
    split at hw'
    · next hk =>
      obtain rfl := Option.some.inj hw'
      exact hk ▸ hs.quiet hq h w hw hu hended
    · exact hs.quiet hq k w' hw' hu hp
  · have hfits := hs.fits j g hj
    cases g with
    | fresh => exact trivial
    | rung => exact trivial
    | missing => exact fun k hk => hfits k (hun k hk)
    | named b => exact fun k hk => hfits k (hun k hk)
    | announced b => exact ⟨hfits.1,fun k hk => hfits.2 k (hun k hk)⟩
    | found =>
      obtain ⟨k,b,ht,hl⟩ := hfits
      exact ⟨k,b,ht,hli j _ hj trivial k b hl⟩
    | ready b =>
      obtain ⟨k,hl⟩ := hfits
      exact ⟨k,hli j _ hj trivial k b hl⟩
    | spawned b k =>
      obtain ⟨hl,hbell,hne,honly⟩ := hfits
      exact ⟨hli j _ hj trivial k b hl,hbell,hne,fun k' hk' => honly k' (hun k' hk')⟩

end Solo

namespace PokeSystem

variable {s : PokeSystem}

/-- The calls keep to what they may do, each user's workers are as they should be, and every ring
has been heard. -/
structure SoloInv (s : PokeSystem) : Prop where
  keeps : Threads.Keep PokeStage.Allows PokeStage.next (fun _ _ => True) s
  solo : ∀ u, Solo u (s.world.tasks.get u) (s.world.bells.get u) s.world.spawned (s.stage u)
  heard : s.RingsHeard

theorem soloInv_opening : opening.SoloInv :=
  ⟨fun _ ht => (List.not_mem_nil ht).elim,
    fun u => ⟨fun h ht => by simp [opening] at ht,fun i j g g' hi => by simp [stage,opening] at hi,
      fun i j g hi => by simp [stage,opening] at hi,fun _ h w hw => by simp [opening] at hw,
      fun i g hi => by simp [stage,opening] at hi⟩,
    fun _ hr => (List.not_mem_nil hr).elim⟩

section Stage

variable {i : Nat} {u : String} {g : PokeStage} {p : WorkerTask Unit}

theorem stage_eq (ht : s.tasks[i]? = some ((u,g),p)) : s.stage u i = some g := by
  simp [stage,ht]

theorem stage_of_mem {j : Nat} (hj : s.stage u j = some g) :
    ∃ t ∈ s.tasks, t.1.1 = u ∧ t.1.2 = g := by
  unfold stage at hj
  split at hj
  · next t ht =>
    split at hj
    · next hu => exact ⟨t,List.mem_of_getElem? ht,hu,Option.some.inj hj⟩
    · simp at hj
  · simp at hj

variable {m : SyncWorkerManager} {g' : PokeStage} {p' : WorkerTask Unit}

theorem stage_set (ht : s.tasks[i]? = some ((u,g),p)) :
    stage ⟨m,s.tasks.set i ((u,g'),p')⟩ u = Function.update (s.stage u) i (some g') := by
  funext j
  have hlt := (List.getElem?_eq_some_iff.mp ht).1
  by_cases hj : j = i
  · subst hj
    simp [stage,List.getElem?_set_self hlt]
  · rw [Function.update_of_ne hj]
    simp [stage,List.getElem?_set_ne (Ne.symm hj)]

theorem stage_set_of_ne {v : String} (ht : s.tasks[i]? = some ((u,g),p)) (hv : v ≠ u) :
    stage ⟨m,s.tasks.set i ((u,g'),p')⟩ v = s.stage v := by
  funext j
  have hlt := (List.getElem?_eq_some_iff.mp ht).1
  by_cases hj : j = i
  · subst hj
    simp [stage,List.getElem?_set_self hlt,ht,hv.symm]
  · simp [stage,List.getElem?_set_ne (Ne.symm hj)]

theorem stage_append (v : String) : stage ⟨m,s.tasks ++ [((u,g),p)]⟩ v =
    if u = v then Function.update (s.stage v) s.tasks.length (some g) else s.stage v := by
  funext j
  rcases Nat.lt_trichotomy j s.tasks.length with hj | rfl | hj
  · have hne : j ≠ s.tasks.length := hj.ne
    by_cases hv : u = v
    · simp [stage,hv,List.getElem?_append_left hj,Function.update_of_ne hne]
    · simp [stage,hv,List.getElem?_append_left hj]
  · by_cases hv : u = v <;> simp [stage,hv]
  · have hne : j ≠ s.tasks.length := hj.ne'
    have hout : (s.tasks ++ [((u,g),p)])[j]? = none := by
      rw [List.getElem?_eq_none_iff,List.length_append,List.length_singleton]
      omega
    have hout' : s.tasks[j]? = none := List.getElem?_eq_none_iff.mpr hj.le
    by_cases hv : u = v
    · rw [if_pos hv,Function.update_of_ne hne]
      simp only [stage,hout,hout']
    · rw [if_neg hv]
      simp only [stage,hout,hout']

end Stage

/-- A new worker is none of the others. -/
theorem getElem?_concat_of_ne {ws : List SyncWorker} {w w' : SyncWorker} {k : Nat} (hne : w' ≠ w) :
    (ws ++ [w])[k]? = some w' ↔ ws[k]? = some w' := by
  rcases Nat.lt_or_ge k ws.length with hk | hk
  · rw [List.getElem?_append_left hk]
  · rw [List.getElem?_append_right hk,List.getElem?_eq_none_iff.mpr hk]
    constructor
    · intro hw
      exact (hne (List.mem_singleton.mp (List.mem_of_getElem? hw))).elim
    · intro hw
      simp at hw

/-- One call of a user's `ensure_worker` leaves the other users as they are. -/
theorem solo_set {i : Nat} {u : String} {g g' : PokeStage} {p p' : WorkerTask Unit}
    {m : SyncWorkerManager} (h : s.SoloInv) (ht : s.tasks[i]? = some ((u,g),p))
    (hself : Solo u (m.tasks.get u) (m.bells.get u) m.spawned
      (Function.update (s.stage u) i (some g')))
    (htasks : ∀ v, v ≠ u → m.tasks.get v = s.world.tasks.get v)
    (hbells : ∀ v, v ≠ u → m.bells.get v = s.world.bells.get v)
    (hws : ∀ (h : Nat) (w : SyncWorker), w.user ≠ u →
      (m.spawned[h]? = some w ↔ s.world.spawned[h]? = some w)) :
    ∀ v, Solo v (m.tasks.get v) (m.bells.get v) m.spawned
      (stage ⟨m,s.tasks.set i ((u,g'),p')⟩ v) := by
  intro v
  by_cases hv : v = u
  · subst hv
    rw [stage_set ht]
    exact hself
  · rw [stage_set_of_ne ht hv,htasks v hv,hbells v hv]
    exact (h.solo v).congr (fun k w hw => hws k w (hw ▸ hv))

/-- A worker in the map whose task has not ended. -/
theorem running_iff {m : SyncWorkerManager} {u : String} : m.running u = true ↔
    ∃ h w, m.tasks.get u = some h ∧ m.spawned[h]? = some w ∧ w.phase ≠ .finished := by
  unfold SyncWorkerManager.running
  cases ht : m.tasks.get u with
  | none => simp
  | some h => cases hw : m.spawned[h]? <;> simp [hw]

theorem wakes_of_listens {m : SyncWorkerManager} {u : String} {h b : Nat}
    (hl : Listens m.spawned u h b) : m.wakes u b = true := by
  obtain ⟨w,hw,hu,hb,hp⟩ := hl
  exact List.any_eq_true.mpr ⟨w,List.mem_of_getElem? hw,by simp [hu,hb,hp]⟩

theorem SoloInv.call {i : Nat} {s' : PokeSystem} (h : s.SoloInv) (hun : s.Undisturbed (.call i))
    (he : s.step (.call i) = some s') : s'.SoloInv := by
  obtain ⟨⟨u,g⟩,c,k,ht,rfl⟩ := Threads.call_eq_some.mp he
  have hok := h.keeps.allowed ht
  have hstage := stage_eq ht
  simp only [Undisturbed,Threads.upcoming_eq ht] at hun
  refine ⟨h.keeps.call ht,?_,?_⟩
  · cases c with
    | running user =>
      obtain ⟨rfl,rfl⟩ := hok
      cases hrun : s.world.running user with
      | true =>
        have hans : (SyncWorkerManager.serve (.running user) s.world).1 = true := hrun
        rw [hans]
        obtain ⟨k,w,htask,hw,hne⟩ := running_iff.mp hrun
        have hstay : w.phase ≠ .leaving := by
          intro hl
          simp [hrun,leaving,htask,hw,hl] at hun
        obtain ⟨w',hw',hu⟩ := (h.solo user).entered k htask
        obtain rfl := Option.some.inj (hw.symm.trans hw')
        exact solo_set h ht ((h.solo user).find htask ⟨w,hw,hu,rfl,w.phase.works_of_ne hne hstay⟩)
          (fun _ _ => rfl) (fun _ _ => rfl) (fun _ _ _ => Iff.rfl)
      | false =>
        have hans : (SyncWorkerManager.serve (.running user) s.world).1 = false := hrun
        rw [hans]
        have hcalm : ∀ j g, s.stage user j = some g → ¬g.Spawning := by
          intro j g hj
          obtain ⟨t,htm,hu,rfl⟩ := stage_of_mem hj
          simp only [hrun,Bool.false_eq_true,if_false] at hun
          exact hun t htm hu
        refine solo_set h ht ((h.solo user).miss (fun k htask hk => ?_) hcalm)
          (fun _ _ => rfl) (fun _ _ => rfl) (fun _ _ _ => Iff.rfl)
        obtain ⟨w,hw,-,hp⟩ := hk
        simp [running_iff.mpr ⟨k,w,htask,hw,hp⟩] at hrun
    | getBell user =>
      obtain ⟨rfl,rfl⟩ := hok
      obtain ⟨k,b,hb,hl⟩ := (h.solo user).bell_of_found hstage
      have hans : (SyncWorkerManager.serve (.getBell user) s.world).1 = some b := hb
      rw [hans]
      exact solo_set h ht ((h.solo user).obtain_bell hstage hl) (fun _ _ => rfl) (fun _ _ => rfl)
        (fun _ _ _ => Iff.rfl)
    | newNotify =>
      obtain rfl : g = .missing := hok
      exact solo_set h ht ((h.solo u).name _ hstage) (fun _ _ => rfl) (fun _ _ => rfl)
        (fun _ _ _ => Iff.rfl)
    | insertBell user bell =>
      obtain ⟨rfl,rfl⟩ := hok
      refine solo_set h ht ?_ (fun _ _ => rfl) (fun v hv => ?_) (fun _ _ _ => Iff.rfl)
      · have hget : (s.world.bells.insert user bell).get user = some bell := by simp
        exact hget ▸ (h.solo user).announce hstage
      · exact (DashMap.get_insert _ _ _ _).trans (if_neg hv)
    | spawn user bell =>
      obtain ⟨rfl,rfl⟩ := hok
      refine solo_set h ht ((h.solo user).spawn hstage) (fun _ _ => rfl) (fun _ _ => rfl)
        (fun k w hw => ?_)
      exact getElem?_concat_of_ne (fun heq => hw (heq ▸ rfl))
    | insertTask user handle =>
      obtain ⟨rfl,b,rfl⟩ := hok
      refine solo_set h ht ?_ (fun v hv => ?_) (fun _ _ => rfl) (fun _ _ _ => Iff.rfl)
      · have hget : (s.world.tasks.insert user handle).get user = some handle := by simp
        exact hget ▸ (h.solo user).enter hstage
      · exact (DashMap.get_insert _ _ _ _).trans (if_neg hv)
    | notifyOne user bell =>
      obtain ⟨rfl,rfl⟩ := hok
      exact solo_set h ht ((h.solo user).ring hstage) (fun _ _ => rfl) (fun _ _ => rfl)
        (fun _ _ _ => Iff.rfl)
  · cases c with
    | notifyOne user bell =>
      obtain ⟨rfl,rfl⟩ := hok
      obtain ⟨k,hl⟩ := (h.solo user).fits i _ hstage
      intro r hr
      rcases List.mem_append.mp hr with hr | hr
      · exact h.heard r hr
      · rw [List.mem_singleton.mp hr]
        exact wakes_of_listens hl
    | _ => exact h.heard

/-- A worker moves on. -/
theorem SoloInv.phase {k : Nat} {q : WorkerPhase} {w : SyncWorker} {m : SyncWorkerManager}
    (h : s.SoloInv) (hw : s.world.spawned[k]? = some w) (hended : w.phase ≠ .finished)
    (hworks : w.phase.Works → q.Works ∨ s.Released k) (htasks : m.tasks = s.world.tasks)
    (hbells : m.bells = s.world.bells) (hrings : m.rings = s.world.rings)
    (hspawned : m.spawned = (s.world.setPhase k q).spawned) : SoloInv ⟨m,s.tasks⟩ := by
  refine ⟨h.keeps,fun u => ?_,fun r hr => h.heard r (hrings ▸ hr)⟩
  rw [htasks,hbells,hspawned]
  refine (h.solo u).phase hw hended (fun hu hp => ?_)
  rcases hworks hp with hq | hrel
  · exact Or.inl hq
  · refine Or.inr (fun j g hj => ?_)
    obtain ⟨t,ht,htu,rfl⟩ := stage_of_mem hj
    simp only [Released,hw] at hrel
    exact hrel t ht (htu.trans hu.symm)

theorem shift_eq_some {h : Nat} {p q : WorkerPhase} {s' : PokeSystem}
    (he : PokeSystem.shift s h p q = some s') : ∃ w, s.world.spawned[h]? = some w ∧ w.phase = p ∧
      s' = ⟨s.world.setPhase h q,s.tasks⟩ := by
  unfold PokeSystem.shift at he
  split at he
  · next w hw =>
    split at he
    · next hp => exact ⟨w,hw,hp,(Option.some.inj he).symm⟩
    · simp at he
  · simp at he

theorem SoloInv.shift {k : Nat} {p q : WorkerPhase} {s' : PokeSystem} (h : s.SoloInv)
    (hp : p ≠ .finished) (hworks : p.Works → q.Works ∨ s.Released k)
    (he : PokeSystem.shift s k p q = some s') : s'.SoloInv := by
  obtain ⟨w,hw,rfl,rfl⟩ := shift_eq_some he
  exact h.phase hw hp hworks rfl rfl rfl rfl

theorem SoloInv.step {e : PokeEvent} {s' : PokeSystem} (h : s.SoloInv) (hun : s.Undisturbed e)
    (he : s.step e = some s') : s'.SoloInv := by
  cases e with
  | poke user =>
    obtain rfl := Option.some.inj he
    refine ⟨h.keeps.start (pokes_poke user),fun v => ?_,h.heard⟩
    rw [stage_append]
    split
    · exact (h.solo v).start (by simp [stage])
    · exact h.solo v
  | call i => exact h.call hun he
  | wake k =>
    simp only [PokeSystem.step,hear] at he
    split at he
    · next w hw =>
      split at he
      · next hp =>
        obtain rfl := Option.some.inj he
        exact h.phase hw (by simp [hp.1]) (fun _ => Or.inl (Or.inr rfl)) rfl rfl rfl rfl
      · simp at he
    · simp at he
  | cycled k => exact h.shift (by decide) (fun _ => Or.inl (Or.inl rfl)) he
  | timeout k => exact h.shift (by decide) (fun _ => Or.inr hun) he
  | finish k => exact h.shift (by decide) (fun hp => absurd hp (by decide)) he
  | panic k => exact h.shift (by decide) (fun _ => Or.inr hun) he

end PokeSystem

/-- In every run in which no call finds a worker that is shutting down, or finds none while another
call for its user is spawning one, and no worker shuts down or panics while a call has yet to ring
its bell, each user has one running worker at most and every ring wakes a worker of its user. -/
theorem one_worker_per_user {es : List PokeEvent} {s : PokeSystem}
    (h : Run PokeSystem.step PokeSystem.Undisturbed PokeSystem.opening es s) :
    s.OneWorker ∧ s.RingsHeard := by
  have hinv : s.SoloInv := h.invariant PokeSystem.soloInv_opening
    (fun _ _ _ hi hun he => PokeSystem.SoloInv.step hi hun he)
  exact ⟨fun u _ _ hh hh' => (hinv.solo u).one hh hh',hinv.heard⟩

/-! ### Samples -/

/-- A user's worker is found again, runs a cycle, shuts down, and is replaced. -/
def replacedWorker : List PokeEvent :=
  [PokeEvent.poke "alice"] ++ List.replicate 6 (PokeEvent.call 0) ++
    ([.wake 0,.poke "alice",.poke "bob",.call 2,.call 1,.call 2,.call 1,.call 1,.cycled 0] :
      List PokeEvent) ++
    List.replicate 4 (PokeEvent.call 2) ++
    ([.wake 0,.cycled 0,.timeout 0,.finish 0,.poke "alice"] : List PokeEvent) ++
    List.replicate 6 (PokeEvent.call 3)

theorem one_worker_per_user_replacedWorker :
    ∃ s, Run PokeSystem.step PokeSystem.Undisturbed PokeSystem.opening replacedWorker s ∧
      s.world.spawned.map (fun w => (w.user,w.phase)) =
        [("alice",.finished),("bob",.waiting),("alice",.waiting)] ∧
      s.OneWorker ∧ s.RingsHeard := by
  have hv : (execWhere PokeSystem.step PokeSystem.Undisturbed PokeSystem.opening
      replacedWorker).map (fun s => s.world.spawned.map (fun w => (w.user,w.phase))) =
        some [("alice",.finished),("bob",.waiting),("alice",.waiting)] := by
    decide +kernel
  obtain ⟨s,hrun,hl⟩ := run_of_map_execWhere hv
  exact ⟨s,hrun,hl,one_worker_per_user hrun⟩

/-- Two calls each find no worker. -/
def calledTwice : List PokeEvent :=
  ([.poke "alice",.poke "alice",.call 0,.call 1] : List PokeEvent) ++
    List.replicate 4 (PokeEvent.call 0) ++ List.replicate 4 (PokeEvent.call 1)

/-- Both spawn one. -/
theorem overlapping_calls_spawn_two :
    ¬∀ (es : List PokeEvent) (s : PokeSystem),
      Run PokeSystem.step (fun _ _ => True) PokeSystem.opening es s →
        s.OneWorker ∧ s.RingsHeard := by
  intro hall
  have hv : (execWhere PokeSystem.step (fun _ _ => True) PokeSystem.opening calledTwice).map
      (fun s => (s.world.spawned[0]?,s.world.spawned[1]?)) =
        some (some ⟨"alice",0,.waiting⟩,some ⟨"alice",1,.waiting⟩) := by
    decide +kernel
  obtain ⟨s,hrun,hl⟩ := run_of_map_execWhere hv
  obtain ⟨hfirst,hsecond⟩ := Prod.mk.inj hl
  have hone := (hall calledTwice s hrun).1 "alice" 0 1
    ⟨_,hfirst,rfl,by decide⟩ ⟨_,hsecond,rfl,by decide⟩
  simp at hone

end Rav
