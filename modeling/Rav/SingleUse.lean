import Rav.Mfa.Requests

/-!
# TOTP codes are used once

Between the check that a time step is unused and the statement that records it another request
may record the same step, and `INSERT OR IGNORE` does not tell. A used step is also forgotten
when TOTP is disabled or the step is pruned, while a request may still hold a code for it. Where
none of this happens, no step is accepted twice.

## Main definitions

- `acceptedSteps` — the time steps a log accepts
- `MfaSystem.Unraced` — recorded when still unused, in time, and not forgotten too early
-/

namespace Rav

def MfaRecord.acceptedStep : MfaRecord → Option Nat
  | .accepted step => some step
  | _ => none

def acceptedSteps (log : List MfaRecord) : List Nat := log.filterMap MfaRecord.acceptedStep

namespace MfaStance

/-- Whether the request may still accept a code. -/
def holds : MfaStance → Bool
  | .loaded => true
  | .timed _ => true
  | .matched _ _ => true
  | .checked _ _ => true
  | _ => false

/-- The step the request has recorded but not yet accepted. -/
def recordedSteps : MfaStance → List Nat
  | .recorded a => [a]
  | _ => []

/-- The time a request has read is past, and its code is one of that time. -/
def Timely (now : Nat) : MfaStance → Prop
  | .timed t => t ≤ now
  | .matched t a => t ≤ now ∧ t < 30 * a + 60 ∧ 30 * a ≤ t + 30
  | .checked t a => t ≤ now ∧ t < 30 * a + 60 ∧ 30 * a ≤ t + 30
  | _ => True

theorem Timely.mono {now now' : Nat} {g : MfaStance} (h : g.Timely now) (hn : now ≤ now') :
    g.Timely now' := by
  cases g with
  | timed t => exact Nat.le_trans h hn
  | matched t a => exact ⟨Nat.le_trans h.1 hn,h.2⟩
  | checked t a => exact ⟨Nat.le_trans h.1 hn,h.2⟩
  | _ => trivial

end MfaStance

namespace MfaSystem

/-- Some request in progress may still accept a code. -/
def anyHolds (s : MfaSystem) : Bool := s.tasks.any (fun t => Threads.unfinished t && t.1.holds)

/-- A step is recorded only while it is unused, at most 210 seconds after its request read the
clock, and the used steps are deleted only while no request may still accept a code. -/
def Unraced (s : MfaSystem) : MfaEvent → Prop
  | .call i weather =>
    match s.upcoming i with
    | some (.checked t a,.recordUsedStep _) =>
      weather.fails = none → s.world.db.isStepUsed a = false ∧ s.world.now ≤ t + 210
    | some (_,.deleteUsedSteps) => weather.fails = none → s.anyHolds = false
    | _ => True
  | _ => True

instance (s : MfaSystem) (e : MfaEvent) : Decidable (s.Unraced e) := by
  unfold Unraced
  split
  · split <;> infer_instance
  · infer_instance

/-- The step cannot be accepted again: it is marked as used, or it is too old, or there is
nothing left to accept a code for. -/
def Spent (s : MfaSystem) (a : Nat) : Prop :=
  (∃ r, s.world.db.usedSteps.find? a = some r ∧ 30 * a ≤ r.usedAt + 30) ∨
    30 * a + 270 < s.world.now ∨ (s.world.db.totp = none ∧ s.anyHolds = false)

/-- The steps accepted, or recorded and about to be. -/
def consumed (s : MfaSystem) : List Nat :=
  acceptedSteps s.world.log ++ s.tasks.flatMap (fun t => t.1.recordedSteps)

/-- No step is consumed twice, and what is consumed is spent. -/
structure StepsOnce (s : MfaSystem) : Prop where
  nodup : s.consumed.Nodup
  spent : ∀ a ∈ s.consumed, s.Spent a

structure StepsInv (s : MfaSystem) : Prop where
  orderly : s.Orderly
  timely : ∀ t ∈ s.tasks, t.1.Timely s.world.now
  unenrolled : ∀ t ∈ s.tasks, t.1 = .unenrolled → s.world.db.totp = none
  once : s.StepsOnce

end MfaSystem

/-! ### What one call does -/

/-- Calls that touch neither the credential, nor the used steps, nor the accepted ones. -/
def MfaCall.Quiet : MfaCall → Prop
  | .pruneUsedSteps _ => False
  | .recordUsedStep _ => False
  | .resetLockout _ => False
  | .upsertTotpSecret _ => False
  | .deleteTotpRow => False
  | .deleteUsedSteps => False
  | _ => True

section Serve

variable {env : MfaEnv} {weather : MfaWeather} {w : MfaWorld} {c : MfaCall} {g : MfaStance}

/-- A world with the same clock, credential, used and accepted steps. -/
structure SameSteps (w w' : MfaWorld) : Prop where
  now : w'.now = w.now
  totp : w'.db.totp = w.db.totp
  used : w'.db.usedSteps = w.db.usedSteps
  accepted : acceptedSteps w'.log = acceptedSteps w.log

theorem SameSteps.refl (w : MfaWorld) : SameSteps w w := ⟨rfl,rfl,rfl,rfl⟩

theorem SameSteps.run {α : Type} {f : α × MfaWorld} (h : SameSteps w f.2) :
    SameSteps w (weather.run w f).2 := by
  rcases MfaWeather.run_world weather w f with hr | ⟨-,hr⟩
  · rw [hr]
    exact .refl w
  · rw [hr]
    exact h

theorem serve_sameSteps (h : c.Quiet) : SameSteps w (env.serve weather c w).2 := by
  cases c with
  | compare secret code now =>
    simp only [MfaEnv.serve]
    split
    · exact .refl w
    · exact ⟨rfl,rfl,rfl,by simp [acceptedSteps,MfaRecord.acceptedStep]⟩
  | addAccountToBrowser b e p u i s =>
    exact ⟨rfl,rfl,rfl,by simp [MfaEnv.serve,acceptedSteps,MfaRecord.acceptedStep]⟩
  | pruneUsedSteps cutoff => exact h.elim
  | recordUsedStep a => exact h.elim
  | resetLockout a => exact h.elim
  | upsertTotpSecret s => exact h.elim
  | deleteTotpRow => exact h.elim
  | deleteUsedSteps => exact h.elim
  | userDirExists => exact .refl w
  | drawNonce => exact .refl w
  | validateImap h p t e pw => exact .refl w
  | getBrowserAccounts b => exact .refl w
  | ensureIdentity e => exact .refl w
  | createBrowser => exact ⟨rfl,rfl,rfl,rfl⟩
  | _ => exact SameSteps.run ⟨rfl,rfl,rfl,rfl⟩

theorem mfa_serve_now {d : Prop} (hok : MfaStance.Allows d g c) :
    (env.serve weather c w).2.now = w.now := by
  have hrun : ∀ {α : Type} (f : α × MfaWorld), f.2.now = w.now →
      (weather.run w f).2.now = w.now := by
    intro α f hf
    rcases MfaWeather.run_world weather w f with hr | ⟨-,hr⟩
    · rw [hr]
    · rwa [hr]
  by_cases hq : c.Quiet
  · exact (serve_sameSteps hq).now
  · cases c with
    | pruneUsedSteps cutoff => exact hrun _ rfl
    | recordUsedStep a => exact hrun _ rfl
    | resetLockout a => exact hrun _ rfl
    | deleteTotpRow => exact hrun _ rfl
    | deleteUsedSteps => exact hrun _ rfl
    | upsertTotpSecret s => exact hok.elim
    | _ => exact absurd trivial hq

/-- A code matches one of the three steps around the time it is held against. -/
theorem matchingStep_window {secret code : String} {now a : Nat}
    (h : env.matchingStep secret code now = some a) : now < 30 * a + 60 ∧ 30 * a ≤ now + 30 := by
  obtain ⟨offset,hmem,hf⟩ := List.exists_of_findSome?_eq_some h
  have ha : (((now / totpStep : Nat) : Int) + offset).toNat = a := by
    simp only at hf
    split at hf
    · exact Option.some.inj hf
    · simp at hf
  have hstep : totpStep = 30 := rfl
  rw [hstep] at ha
  simp only [List.mem_cons,List.not_mem_nil,or_false] at hmem
  omega

theorem timely_next (hok : MfaStance.Allows True g c) (h : g.Timely w.now) :
    (g.next c (env.serve weather c w).1).Timely w.now := by
  generalize hr : (env.serve weather c w).1 = r
  rcases MfaStance.next_cases hok r with hg | hg
  · rwa [hg]
  · generalize g.next c r = g' at hg ⊢
    cases hg with
    | read t => exact Nat.le_of_eq (MfaWeather.run_ok hr).2.1
    | hit t a secret code =>
      simp only [MfaEnv.serve] at hr
      split at hr
      · next b hb =>
        obtain rfl := Option.some.inj hr
        exact ⟨h,matchingStep_window hb⟩
      · simp at hr
    | check t a => exact h
    | _ => trivial

/-- Only loading the secret lets a request accept a code later on. -/
theorem holds_next (hok : MfaStance.Allows True g c)
    (h : (g.next c (env.serve weather c w).1).holds = true) :
    g.holds = true ∨ w.db.totp ≠ none := by
  generalize hr : (env.serve weather c w).1 = r at h
  rcases MfaStance.next_cases hok r with hg | hg
  · rw [hg] at h
    exact Or.inl h
  · generalize g.next c r = g' at hg h
    cases hg with
    | load s =>
      obtain ⟨-,hs,-⟩ := MfaWeather.run_ok hr
      exact Or.inr (fun hn => by simp [MfaDb.getTotpSecret,hn] at hs)
    | _ => first | exact Or.inl rfl | simp [MfaStance.holds] at h

theorem recordedSteps_next (hok : MfaStance.Allows True g c) (hr : ∀ a, c ≠ .recordUsedStep a)
    (ha : ∀ a, c ≠ .resetLockout a) (r : c.Answer) :
    (g.next c r).recordedSteps = g.recordedSteps := by
  rcases MfaStance.next_cases hok r with hg | hg
  · rw [hg]
  · generalize g.next c r = g' at hg
    cases hg with
    | record t a => exact absurd rfl (hr a)
    | accept a => exact absurd rfl (ha a)
    | _ => rfl

/-- A request that disables TOTP has deleted the credential first. -/
theorem unenrolled_next (hok : MfaStance.Allows True g c)
    (h : g.next c (env.serve weather c w).1 = .unenrolled) :
    g = .unenrolled ∨ (env.serve weather c w).2.db.totp = none := by
  generalize hr : (env.serve weather c w).1 = r at h
  rcases MfaStance.next_cases hok r with hg | hg
  · exact Or.inl (hg ▸ h)
  · generalize g.next c r = g' at hg h
    subst h
    cases hg with
    | unenrol =>
      have hw := (MfaWeather.run_ok hr).2.2
      exact Or.inr (congrArg (fun w => w.db.totp) hw)

/-- No call enrols a secret. -/
theorem serve_totp_none (hok : MfaStance.Allows True g c) (h : w.db.totp = none) :
    (env.serve weather c w).2.db.totp = none := by
  have hrun : ∀ {α : Type} (f : α × MfaWorld), f.2.db.totp = none →
      (weather.run w f).2.db.totp = none := by
    intro α f hf
    rcases MfaWeather.run_world weather w f with hr | ⟨-,hr⟩
    · rwa [hr]
    · rwa [hr]
  by_cases hq : c.Quiet
  · exact (serve_sameSteps hq).totp.trans h
  · cases c with
    | pruneUsedSteps cutoff => exact hrun _ h
    | recordUsedStep a => exact hrun _ h
    | resetLockout a => exact hrun _ h
    | deleteTotpRow => exact hrun _ rfl
    | deleteUsedSteps => exact hrun _ h
    | upsertTotpSecret s => exact hok.elim
    | _ => exact absurd trivial hq

end Serve

namespace MfaSystem

section Call

variable {env : MfaEnv} {weather : MfaWeather} {s : MfaSystem} {i : Nat} {g : MfaStance}
  {c : MfaCall} {k : c.Answer → MfaTask HttpResponse} {w : MfaWorld} {t : MfaStance × MfaTask HttpResponse}

/-- What the requests other than the `i`-th have recorded. -/
def othersRecorded (s : MfaSystem) (i : Nat) : List Nat :=
  (s.tasks.eraseIdx i).flatMap (fun t => t.1.recordedSteps)

theorem consumed_before (ht : s.tasks[i]? = some (g,.call c k)) :
    s.consumed.Perm (acceptedSteps s.world.log ++ (g.recordedSteps ++ s.othersRecorded i)) :=
  (perm_flatMap_getElem? (fun t : MfaStance × MfaTask HttpResponse => t.1.recordedSteps) ht).append_left _

theorem consumed_after (ht : s.tasks[i]? = some (g,.call c k)) :
    (consumed ⟨w,s.tasks.set i t⟩).Perm
      (acceptedSteps w.log ++ (t.1.recordedSteps ++ s.othersRecorded i)) :=
  (perm_flatMap_set (fun t : MfaStance × MfaTask HttpResponse => t.1.recordedSteps) ht).append_left _

/-- A request that has recorded nothing new and accepted nothing new. -/
theorem consumed_same (ht : s.tasks[i]? = some (g,.call c k))
    (hl : acceptedSteps w.log = acceptedSteps s.world.log)
    (hg : t.1.recordedSteps = g.recordedSteps) :
    (consumed ⟨w,s.tasks.set i t⟩).Perm s.consumed := by
  refine (consumed_after ht).trans ?_
  rw [hl,hg]
  exact (consumed_before ht).symm

/-- The system after the call. -/
def after (env : MfaEnv) (weather : MfaWeather) (s : MfaSystem) (i : Nat) (g : MfaStance)
    (c : MfaCall) (p : MfaTask HttpResponse) : MfaSystem :=
  ⟨(env.serve weather c s.world).2,
    s.tasks.set i (g.next c (env.serve weather c s.world).1,p)⟩

variable {p : MfaTask HttpResponse}

@[simp] theorem after_world : (after env weather s i g c p).world = (env.serve weather c s.world).2 := rfl

/-- While no secret is enrolled and nobody holds one, nobody comes to hold one. -/
theorem anyHolds_after (ht : s.tasks[i]? = some (g,.call c k)) (hok : MfaStance.Allows True g c)
    (htotp : s.world.db.totp = none) (h : s.anyHolds = false) :
    (after env weather s i g c p).anyHolds = false := by
  have hnone : ∀ t ∈ s.tasks, ¬(Threads.unfinished t && t.1.holds) = true := by
    simpa [anyHolds,List.any_eq_false] using h
  refine List.any_eq_false.mpr (fun t hmem => ?_)
  rcases List.mem_or_eq_of_mem_set hmem with hmem | rfl
  · exact hnone t hmem
  · intro hh
    rcases holds_next hok (Bool.and_eq_true_iff.mp hh).2 with hg | hne
    · exact hnone _ (List.mem_of_getElem? ht) (by simpa [Threads.unfinished] using hg)
    · exact hne htotp

/-- What is spent stays spent over a call that loses no used step too early. -/
theorem Spent.after (ht : s.tasks[i]? = some (g,.call c k)) (hok : MfaStance.Allows True g c) {a : Nat}
    (ha : s.Spent a)
    (hused : ∀ r, s.world.db.usedSteps.find? a = some r → 30 * a ≤ r.usedAt + 30 →
      (env.serve weather c s.world).2.db.usedSteps.find? a = some r ∨
        30 * a + 270 < s.world.now ∨ (s.world.db.totp = none ∧ s.anyHolds = false)) :
    (after env weather s i g c p).Spent a := by
  have hnow : (env.serve weather c s.world).2.now = s.world.now := mfa_serve_now hok
  have hgone : s.world.db.totp = none ∧ s.anyHolds = false →
      (env.serve weather c s.world).2.db.totp = none ∧
        (MfaSystem.after env weather s i g c p).anyHolds = false :=
    fun h => ⟨serve_totp_none hok h.1,anyHolds_after ht hok h.1 h.2⟩
  rcases ha with ⟨r,hr,hle⟩ | hold | hnone
  · rcases hused r hr hle with hr' | hold | hnone
    · exact Or.inl ⟨r,hr',hle⟩
    · exact Or.inr (Or.inl (hnow.symm ▸ hold))
    · exact Or.inr (Or.inr (hgone hnone))
  · exact Or.inr (Or.inl (hnow.symm ▸ hold))
  · exact Or.inr (Or.inr (hgone hnone))

/-- A call that records and accepts nothing new. -/
theorem StepsInv.once_same (h : s.StepsInv) (ht : s.tasks[i]? = some (g,.call c k))
    (hl : acceptedSteps (env.serve weather c s.world).2.log = acceptedSteps s.world.log)
    (hg : (g.next c (env.serve weather c s.world).1).recordedSteps = g.recordedSteps)
    (hused : ∀ a r, s.world.db.usedSteps.find? a = some r → 30 * a ≤ r.usedAt + 30 →
      (env.serve weather c s.world).2.db.usedSteps.find? a = some r ∨
        30 * a + 270 < s.world.now ∨ (s.world.db.totp = none ∧ s.anyHolds = false)) :
    (after env weather s i g c p).StepsOnce := by
  have hperm : (after env weather s i g c p).consumed.Perm s.consumed := consumed_same ht hl hg
  refine ⟨hperm.nodup_iff.mpr h.once.nodup,fun a ha => ?_⟩
  exact (h.once.spent a (hperm.mem_iff.mp ha)).after ht (h.orderly.allowed ht) (hused a)

/-- A call that fails. -/
theorem StepsInv.once_failed (h : s.StepsInv) (ht : s.tasks[i]? = some (g,.call c k))
    (hw : (env.serve weather c s.world).2 = s.world)
    (hg : (g.next c (env.serve weather c s.world).1).recordedSteps = g.recordedSteps) :
    (after env weather s i g c p).StepsOnce :=
  h.once_same ht (by rw [hw]) hg (fun a x hx _ => Or.inl (by rw [hw]; exact hx))

theorem StepsInv.once_record {t a : Nat} {k : Except String Unit → MfaTask HttpResponse}
    (h : s.StepsInv) (ht : s.tasks[i]? = some (.checked t a,.call (.recordUsedStep a) k))
    (hun : weather.fails = none → s.world.db.isStepUsed a = false ∧ s.world.now ≤ t + 210) :
    (after env weather s i (.checked t a) (.recordUsedStep a) p).StepsOnce := by
  rcases hf : weather.fails with _ | e
  · obtain ⟨hunused,hlate⟩ := hun hf
    obtain ⟨hle,hwin,hstep⟩ : MfaStance.Timely s.world.now (.checked t a) :=
      h.timely _ (List.mem_of_getElem? ht)
    have hr : env.serve weather (.recordUsedStep a) s.world =
        (.ok (),{ s.world with db := s.world.db.recordUsedStep a s.world.now }) :=
      MfaWeather.run_none hf
    have hnone : s.world.db.usedSteps.find? a = none := by
      simpa [MfaDb.isStepUsed] using hunused
    have hholds : s.anyHolds = true :=
      List.any_eq_true.mpr ⟨_,List.mem_of_getElem? ht,rfl⟩
    -- neither marked, nor too old, nor without a holder: the step is new
    have hnew : a ∉ s.consumed := by
      intro ha
      rcases h.once.spent a ha with ⟨r,hr,-⟩ | hold | ⟨-,hnh⟩
      · rw [hnone] at hr
        simp at hr
      · omega
      · rw [hholds] at hnh
        simp at hnh
    have hperm : (after env weather s i (.checked t a) (.recordUsedStep a) p).consumed.Perm
        (a :: s.consumed) := by
      refine (consumed_after ht).trans ?_
      rw [hr]
      refine List.Perm.trans ?_ ((consumed_before ht).symm.cons a)
      exact List.perm_middle
    have hfind : ∀ b, (env.serve weather (.recordUsedStep a) s.world).2.db.usedSteps.find? b =
        (s.world.db.usedSteps.find? b).or (if b = a then some ⟨a,s.world.now⟩ else none) := by
      intro b
      rw [hr]
      exact Table.find?_insertOrIgnore _ _ _
    refine ⟨hperm.nodup_iff.mpr (List.nodup_cons.mpr ⟨hnew,h.once.nodup⟩),fun b hb => ?_⟩
    rcases List.mem_cons.mp (hperm.mem_iff.mp hb) with rfl | hb
    · have hmark : (env.serve weather (.recordUsedStep b) s.world).2.db.usedSteps.find? b =
          some ⟨b,s.world.now⟩ := by
        rw [hfind,hnone]
        simp
      exact Or.inl ⟨⟨b,s.world.now⟩,hmark,by show 30 * b ≤ s.world.now + 30; omega⟩
    · refine (h.once.spent b hb).after ht (h.orderly.allowed ht) (fun x hx _ => Or.inl ?_)
      rw [hfind,hx]
      rfl
  · have hr : env.serve weather (.recordUsedStep a) s.world = (.error e,s.world) :=
      MfaWeather.run_some hf
    exact h.once_failed ht (congrArg Prod.snd hr) (by rw [hr]; rfl)

theorem StepsInv.once_accept {a : Nat} {k : Except String Unit → MfaTask HttpResponse}
    (h : s.StepsInv) (ht : s.tasks[i]? = some (.recorded a,.call (.resetLockout a) k)) :
    (after env weather s i (.recorded a) (.resetLockout a) p).StepsOnce := by
  rcases hf : weather.fails with _ | e
  · have hr : env.serve weather (.resetLockout a) s.world = (.ok (),{ s.world with
        db := s.world.db.resetLockout, log := s.world.log ++ [.accepted a] }) :=
      MfaWeather.run_none hf
    have hperm : (after env weather s i (.recorded a) (.resetLockout a) p).consumed.Perm
        s.consumed := by
      refine (consumed_after ht).trans (List.Perm.trans ?_ (consumed_before ht).symm)
      rw [hr]
      simp [acceptedSteps,MfaRecord.acceptedStep,MfaStance.next,MfaStance.recordedSteps]
    refine ⟨hperm.nodup_iff.mpr h.once.nodup,fun b hb => ?_⟩
    refine (h.once.spent b (hperm.mem_iff.mp hb)).after ht (h.orderly.allowed ht)
      (fun x hx _ => Or.inl ?_)
    rw [hr]
    exact hx
  · have hr : env.serve weather (.resetLockout a) s.world = (.error e,s.world) :=
      MfaWeather.run_some hf
    exact h.once_failed ht (congrArg Prod.snd hr) (by rw [hr]; rfl)

/-- A pruned step is too old to be matched again. -/
theorem find?_pruneUsedSteps {db : MfaDb} {a t now : Nat} {x : UsedStep} (ht : t ≤ now)
    (hx : db.usedSteps.find? a = some x) (hle : 30 * a ≤ x.usedAt + 30) :
    (db.pruneUsedSteps (t - 300)).usedSteps.find? a = some x ∨ 30 * a + 270 < now := by
  by_cases hold : x.usedAt < t - 300
  · exact Or.inr (by omega)
  · refine Or.inl ?_
    show (db.usedSteps.deleteWhere _).find? a = some x
    rw [Table.find?_deleteWhere,hx]
    simp [hold]

theorem StepsInv.once_prune {t cutoff : Nat} {k : Except String Unit → MfaTask HttpResponse}
    (h : s.StepsInv) (ht : s.tasks[i]? = some (.timed t,.call (.pruneUsedSteps cutoff) k))
    (hc : cutoff = t - 300) :
    (after env weather s i (.timed t) (.pruneUsedSteps cutoff) p).StepsOnce := by
  have hle : t ≤ s.world.now := h.timely _ (List.mem_of_getElem? ht)
  rcases hf : weather.fails with _ | e
  · have hr : env.serve weather (.pruneUsedSteps cutoff) s.world =
        (.ok (),{ s.world with db := s.world.db.pruneUsedSteps cutoff }) :=
      MfaWeather.run_none hf
    refine h.once_same ht (by rw [hr]) rfl (fun b x hx hb => ?_)
    rw [hr,hc]
    rcases find?_pruneUsedSteps hle hx hb with hx' | hold
    · exact Or.inl hx'
    · exact Or.inr (Or.inl hold)
  · have hr : env.serve weather (.pruneUsedSteps cutoff) s.world = (.error e,s.world) :=
      MfaWeather.run_some hf
    exact h.once_failed ht (congrArg Prod.snd hr) rfl

theorem StepsInv.once_deleteRow {k : Except String Unit → MfaTask HttpResponse} (h : s.StepsInv)
    (ht : s.tasks[i]? = some (g,.call .deleteTotpRow k)) :
    (after env weather s i g .deleteTotpRow p).StepsOnce := by
  have hg := recordedSteps_next (h.orderly.allowed ht) nofun nofun
    (env.serve weather .deleteTotpRow s.world).1
  rcases hf : weather.fails with _ | e
  · have hr : env.serve weather .deleteTotpRow s.world =
        (.ok (),{ s.world with db := s.world.db.deleteTotpRow }) := MfaWeather.run_none hf
    exact h.once_same ht (by rw [hr]) hg (fun b x hx _ => Or.inl (by rw [hr]; exact hx))
  · have hr : env.serve weather .deleteTotpRow s.world = (.error e,s.world) :=
      MfaWeather.run_some hf
    exact h.once_failed ht (congrArg Prod.snd hr) hg

/-- Once the credential is gone, the used steps may go with the last holder of a secret. -/
theorem StepsInv.once_deleteSteps {k : Except String Unit → MfaTask HttpResponse} (h : s.StepsInv)
    (ht : s.tasks[i]? = some (g,.call .deleteUsedSteps k))
    (hun : weather.fails = none → s.anyHolds = false) :
    (after env weather s i g .deleteUsedSteps p).StepsOnce := by
  have hok := h.orderly.allowed ht
  have hg := recordedSteps_next hok nofun nofun (env.serve weather .deleteUsedSteps s.world).1
  have htotp : s.world.db.totp = none := h.unenrolled _ (List.mem_of_getElem? ht) hok.2
  rcases hf : weather.fails with _ | e
  · have hr : env.serve weather .deleteUsedSteps s.world =
        (.ok (),{ s.world with db := s.world.db.deleteUsedSteps }) := MfaWeather.run_none hf
    exact h.once_same ht (by rw [hr]) hg (fun _ _ _ _ => Or.inr (Or.inr ⟨htotp,hun hf⟩))
  · have hr : env.serve weather .deleteUsedSteps s.world = (.error e,s.world) :=
      MfaWeather.run_some hf
    exact h.once_failed ht (congrArg Prod.snd hr) hg

/-- One call of a request in progress. -/
theorem StepsInv.call (h : s.StepsInv) (ht : s.tasks[i]? = some (g,.call c k))
    (hun : s.Unraced (.call i weather)) :
    (after env weather s i g c (k (env.serve weather c s.world).1)).StepsInv := by
  have hok := h.orderly.allowed ht
  have hmem := List.mem_of_getElem? ht
  have hnow : (env.serve weather c s.world).2.now = s.world.now := mfa_serve_now hok
  simp only [Unraced,Threads.upcoming_eq ht] at hun
  refine ⟨h.orderly.call ht,fun t htm => ?_,fun t htm hg => ?_,?_⟩
  · show t.1.Timely (env.serve weather c s.world).2.now
    rw [hnow]
    rcases List.mem_or_eq_of_mem_set htm with htm | rfl
    · exact h.timely t htm
    · exact timely_next hok (h.timely _ hmem)
  · rcases List.mem_or_eq_of_mem_set htm with htm | rfl
    · exact serve_totp_none hok (h.unenrolled t htm hg)
    · rcases unenrolled_next hok hg with rfl | hnone
      · exact serve_totp_none hok (h.unenrolled _ hmem rfl)
      · exact hnone
  · by_cases hq : c.Quiet
    · have hsame : SameSteps s.world (env.serve weather c s.world).2 := serve_sameSteps hq
      have hg := recordedSteps_next hok (fun a hc => by rw [hc] at hq; exact hq)
        (fun a hc => by rw [hc] at hq; exact hq) (env.serve weather c s.world).1
      exact h.once_same ht hsame.accepted hg (fun a r hr _ => Or.inl (by rw [hsame.used]; exact hr))
    · cases c with
      | pruneUsedSteps cutoff =>
        obtain ⟨t,rfl,hc⟩ := hok
        exact h.once_prune ht hc
      | recordUsedStep a =>
        obtain ⟨t,rfl⟩ := hok
        exact h.once_record ht hun
      | resetLockout a =>
        obtain rfl : g = .recorded a := hok
        exact h.once_accept ht
      | upsertTotpSecret s => exact hok.elim
      | deleteTotpRow => exact h.once_deleteRow ht
      | deleteUsedSteps =>
        obtain rfl : g = .unenrolled := hok.2
        exact h.once_deleteSteps ht hun
      | _ => exact absurd trivial hq

end Call

variable {env : MfaEnv} {config : AppConfig} {s s' : MfaSystem}

/-- A request arrives. -/
theorem StepsInv.start {p : MfaTask HttpResponse} (h : s.StepsInv)
    (hp : Observes True (fun _ _ => True) .fresh p) :
    StepsInv { s with tasks := s.tasks ++ [(.fresh,p)] } := by
  have hconsumed : consumed { s with tasks := s.tasks ++ [(.fresh,p)] } = s.consumed := by
    simp [consumed,MfaStance.recordedSteps]
  have hholds : anyHolds { s with tasks := s.tasks ++ [(.fresh,p)] } = s.anyHolds := by
    simp [anyHolds,MfaStance.holds]
  have hmem : ∀ t ∈ s.tasks ++ [(.fresh,p)], t ∈ s.tasks ∨ t = (.fresh,p) :=
    fun t ht => (List.mem_append.mp ht).imp id List.mem_singleton.mp
  refine ⟨h.orderly.start hp,fun t ht => ?_,fun t ht hg => ?_,⟨hconsumed ▸ h.once.nodup,fun a ha => ?_⟩⟩
  · rcases hmem t ht with ht | rfl
    · exact h.timely t ht
    · trivial
  · rcases hmem t ht with ht | rfl
    · exact h.unenrolled t ht hg
    · simp at hg
  · unfold Spent
    rw [hholds]
    exact h.once.spent a (hconsumed ▸ ha)

theorem StepsInv.tick (h : s.StepsInv) (secs : Nat) :
    StepsInv { s with world := s.world.tick secs } := by
  have hdb : (s.world.tick secs).db = s.world.db := by
    unfold MfaWorld.tick
    split <;> rfl
  have hnow : (s.world.tick secs).now = s.world.now + secs := by
    unfold MfaWorld.tick
    split <;> rfl
  have hlog : acceptedSteps (s.world.tick secs).log = acceptedSteps s.world.log := by
    unfold MfaWorld.tick
    split
    · simp [acceptedSteps,MfaRecord.acceptedStep]
    · rfl
  have hconsumed : consumed { s with world := s.world.tick secs } = s.consumed := by
    simp only [consumed,hlog]
  refine ⟨h.orderly,fun t ht => ?_,fun t ht hg => ?_,⟨hconsumed ▸ h.once.nodup,fun a ha => ?_⟩⟩
  · exact (h.timely t ht).mono (by simp only [hnow]; omega)
  · show (s.world.tick secs).db.totp = none
    rw [hdb]
    exact h.unenrolled t ht hg
  · rcases h.once.spent a (hconsumed ▸ ha) with ⟨r,hr,hle⟩ | hold | hnone
    · exact Or.inl ⟨r,by simpa only [hdb] using hr,hle⟩
    · exact Or.inr (Or.inl (by simp only [hnow]; omega))
    · exact Or.inr (Or.inr ⟨by simpa only [hdb] using hnone.1,hnone.2⟩)

theorem StepsInv.step {e : MfaEvent} (h : s.StepsInv) (hun : s.Unraced e)
    (he : MfaSystem.step env config s e = some s') : s'.StepsInv := by
  cases e with
  | login body =>
    obtain rfl := Option.some.inj he
    exact h.start (observes_login env config body)
  | disable code =>
    obtain rfl := Option.some.inj he
    exact h.start (observes_totpDelete env code)
  | tick secs =>
    obtain rfl := Option.some.inj he
    exact h.tick secs
  | call i weather =>
    obtain ⟨g,c,k,ht,rfl⟩ := Threads.call_eq_some.mp he
    exact h.call ht hun

theorem stepsInv_opening (w : MfaWorld) : (opening w).StepsInv where
  orderly := nofun
  timely := nofun
  unenrolled := nofun
  once := ⟨List.nodup_nil,nofun⟩

end MfaSystem

/-- In every run of logins and requests to disable TOTP in which a step is recorded only while it
is unused and at most 210 seconds after its request read the clock, and in which used steps are
deleted only while no request may still accept a code, no time step is accepted twice. -/
theorem codes_single_use {env : MfaEnv} {config : AppConfig} {w : MfaWorld}
    {es : List MfaEvent} {s : MfaSystem}
    (h : Run (MfaSystem.step env config) MfaSystem.Unraced (.opening w) es s) :
    (acceptedSteps s.world.log).Nodup := by
  have hinv := h.invariant (MfaSystem.stepsInv_opening w)
    (fun _ _ _ hi hun he => MfaSystem.StepsInv.step hi hun he)
  exact hinv.once.nodup.sublist (List.sublist_append_left _ _)


/-! ### Samples -/

/-- A code is accepted, and refused when it is sent again. -/
def codeReplayed : List MfaEvent :=
  [MfaEvent.login (sampleLogin (some "359152"))] ++ List.replicate 19 (MfaEvent.call 0 fair) ++
    [MfaEvent.tick 10,MfaEvent.login (sampleLogin (some "359152"))] ++ List.replicate 13 (MfaEvent.call 1 fair)

theorem codes_single_use_codeReplayed :
    ∃ s, Run (MfaSystem.step sampleEnv sampleConfig) MfaSystem.Unraced (.opening enrolledAccount)
      codeReplayed s ∧ s.world.log = [.accepted 2,.session "id"] ∧
        (acceptedSteps s.world.log).Nodup := by
  have hv : (execWhere (MfaSystem.step sampleEnv sampleConfig) MfaSystem.Unraced
      (.opening enrolledAccount) codeReplayed).map (fun s => s.world.log) =
        some [.accepted 2,.session "id"] := by
    decide +kernel
  obtain ⟨s,hrun,hl⟩ := run_of_map_execWhere hv
  exact ⟨s,hrun,hl,codes_single_use hrun⟩

/-- Two logins with one code, both past the check before either records the step. -/
def codeRaced : List MfaEvent :=
  [MfaEvent.login (sampleLogin (some "359152")),MfaEvent.login (sampleLogin (some "359152"))] ++
    List.replicate 13 (MfaEvent.call 0 fair) ++ List.replicate 15 (MfaEvent.call 1 fair) ++
    List.replicate 2 (MfaEvent.call 0 fair)

/-- Both are accepted. -/
theorem raced_code_accepted_twice :
    ¬∀ (env : MfaEnv) (config : AppConfig) (w : MfaWorld) (es : List MfaEvent) (s : MfaSystem),
      Run (MfaSystem.step env config) (fun _ _ => True) (.opening w) es s →
        (acceptedSteps s.world.log).Nodup := by
  intro hall
  have hv : (execWhere (MfaSystem.step sampleEnv sampleConfig) (fun _ _ => True)
      (.opening enrolledAccount) codeRaced).map (fun s => s.world.log) =
        some [.accepted 2,.accepted 2] := by
    decide +kernel
  obtain ⟨s,hrun,hl⟩ := run_of_map_execWhere hv
  have hsafe := hall _ _ _ codeRaced s hrun
  rw [hl] at hsafe
  exact absurd hsafe (by decide)

end Rav
