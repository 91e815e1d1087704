import Rav.SingleUse

/-!
# The lockout bounds wrong codes

The lockout is read before the IMAP login, a code is evaluated after it, and only then is a wrong
one counted: every login past the first read may evaluate a code, however many are wrong by then.
Where each wrong code is counted before the next is evaluated and none is evaluated while the
account is locked, no more than `maxFailures` are evaluated between two boundaries.

## Main definitions

- `MfaRecord.IsBoundary`, `Bounded` — wrong codes between lockouts that ran out and accepted codes
- `MfaSystem.Metered` — wrong codes are counted one at a time, and not while locked
-/

namespace Rav

/-- A lockout that has run out, or an accepted code. -/
def MfaRecord.IsBoundary : MfaRecord → Bool
  | .expired => true
  | .accepted _ => true
  | _ => false

/-- No stretch of a log without a boundary has more than `max` wrong codes. -/
def Bounded (max : Nat) (log : List MfaRecord) : Prop :=
  ∀ stretch, stretch <:+: log → (∀ r ∈ stretch, r.IsBoundary = false) →
    stretch.count .wrongCode ≤ max

/-- Count one record. -/
def MfaRecord.tally (n : Nat) (r : MfaRecord) : Nat :=
  if r.IsBoundary then 0 else if r = .wrongCode then n + 1 else n

/-- The wrong codes since the last boundary. -/
def wrongSince (log : List MfaRecord) : Nat := log.foldl MfaRecord.tally 0

theorem wrongSince_append (log : List MfaRecord) (r : MfaRecord) :
    wrongSince (log ++ [r]) = r.tally (wrongSince log) := by
  simp [wrongSince]

theorem foldl_tally {stretch : List MfaRecord} (h : ∀ r ∈ stretch, r.IsBoundary = false)
    (n : Nat) : stretch.foldl MfaRecord.tally n = n + stretch.count .wrongCode := by
  induction stretch generalizing n with
  | nil => rfl
  | cons r rest ih =>
    have hr : r.IsBoundary = false := h r List.mem_cons_self
    rw [List.foldl_cons,ih (fun r hr => h r (List.mem_cons_of_mem _ hr)),List.count_cons]
    unfold MfaRecord.tally
    by_cases hw : r = .wrongCode
    · simp [hw,MfaRecord.IsBoundary]
      omega
    · simp [hr,hw]

theorem count_le_wrongSince {log stretch : List MfaRecord} (h : stretch <:+ log)
    (hs : ∀ r ∈ stretch, r.IsBoundary = false) : stretch.count .wrongCode ≤ wrongSince log := by
  obtain ⟨before,rfl⟩ := h
  rw [wrongSince,List.foldl_append,foldl_tally hs]
  exact Nat.le_add_left _ _

/-- The records since the last boundary are a stretch without one. -/
theorem exists_stretch (log : List MfaRecord) : ∃ stretch, stretch <:+ log ∧
    (∀ r ∈ stretch, r.IsBoundary = false) ∧ stretch.count .wrongCode = wrongSince log := by
  induction log using List.reverseRecOn with
  | nil => exact ⟨[],List.suffix_refl _,nofun,rfl⟩
  | append_singleton log r ih =>
    obtain ⟨stretch,hsuffix,hs,hcount⟩ := ih
    rw [wrongSince_append,MfaRecord.tally]
    by_cases hr : r.IsBoundary = true
    · exact ⟨[],List.nil_suffix,nofun,by simp [hr]⟩
    · refine ⟨stretch ++ [r],?_,?_,?_⟩
      · obtain ⟨before,rfl⟩ := hsuffix
        exact ⟨before,by simp⟩
      · intro x hx
        rcases List.mem_append.mp hx with hx | hx
        · exact hs x hx
        · rw [List.mem_singleton.mp hx]
          exact Bool.eq_false_iff.mpr hr
      · rw [if_neg hr,List.count_append,hcount]
        by_cases hw : r = .wrongCode <;> simp [hw]

theorem Bounded.wrongSince_le {max : Nat} {log : List MfaRecord} (h : Bounded max log) :
    wrongSince log ≤ max := by
  obtain ⟨stretch,hsuffix,hs,hcount⟩ := exists_stretch log
  exact hcount ▸ h stretch hsuffix.isInfix hs

theorem bounded_nil (max : Nat) : Bounded max [] := by
  intro stretch h _
  rw [List.infix_nil.mp h]
  exact Nat.zero_le _

/-- A log stays bounded while the count since the last boundary is. -/
theorem Bounded.append {max : Nat} {log : List MfaRecord} {r : MfaRecord} (h : Bounded max log)
    (hr : wrongSince (log ++ [r]) ≤ max) : Bounded max (log ++ [r]) := by
  intro stretch hinfix hs
  rcases List.infix_concat_iff.mp hinfix with hsuffix | hinfix
  · exact Nat.le_trans (count_le_wrongSince hsuffix hs) hr
  · exact h stretch hinfix hs

/-! ### The condition -/

def MfaEvent.IsLogin : MfaEvent → Prop
  | .disable _ => False
  | _ => True

instance (e : MfaEvent) : Decidable e.IsLogin := by
  unfold MfaEvent.IsLogin
  split <;> infer_instance

/-- A wrong code of the request is not yet counted, or its count has not yet locked the
account. -/
def MfaStance.Pending : MfaStance → Bool
  | .failed => true
  | .counted => true
  | _ => false

namespace MfaWorld

def locked (w : MfaWorld) : Bool := w.db.checkLockout w.now

/-- A counter below the limit lags at most `n` behind the wrong codes. -/
def Lag (n : Nat) (w : MfaWorld) : Prop :=
  w.db.lockout.failedCount < maxFailures → wrongSince w.log ≤ w.db.lockout.failedCount + n

end MfaWorld

namespace MfaSystem

def anyPending (s : MfaSystem) : Bool := s.tasks.any (fun t => t.1.Pending)

/-- A wrong code is evaluated only while the account is not locked and every earlier one is
counted, and the statements that count it succeed. -/
def Metered (env : MfaEnv) (s : MfaSystem) : MfaEvent → Prop
  | .call i weather =>
    match s.upcoming i with
    | some (_,.compare secret code now) =>
      env.matchingStep secret code now = none → s.world.locked = false ∧ s.anyPending = false
    | some (.failed,.bumpFailures) => weather.fails = none
    | some (.counted,.lockFor _) => weather.fails = none
    | _ => True
  | _ => True

instance (env : MfaEnv) : ∀ (s : MfaSystem) (e : MfaEvent), Decidable (s.Metered env e)
  | ⟨world,tasks⟩, .call i weather => by
    dsimp only [Metered]
    cases Threads.upcoming ⟨world,tasks⟩ i with
    | none => exact inferInstanceAs (Decidable True)
    | some gc =>
      obtain ⟨g,c⟩ := gc
      cases c with
      | compare secret code now =>
        exact inferInstanceAs (Decidable (env.matchingStep secret code now = none → _))
      | bumpFailures => cases g <;> infer_instance
      | lockFor secs => cases g <;> infer_instance
      | _ => exact inferInstanceAs (Decidable True)
  | _, .login _ => inferInstanceAs (Decidable True)
  | _, .disable _ => inferInstanceAs (Decidable True)
  | _, .tick _ => inferInstanceAs (Decidable True)

/-- The account is locked or about to be, or the counter leaves room for another wrong code. -/
def Room (s : MfaSystem) : Prop :=
  s.world.locked = true ∨ s.anyPending = true ∨
    wrongSince s.world.log < maxFailures ∧ s.world.Lag 0

structure LockInv (s : MfaSystem) : Prop where
  attempts : Threads.Keep (MfaStance.Allows False) MfaStance.next (fun _ _ => True) s
  bounded : Bounded maxFailures s.world.log
  room : s.Room
  failing : ∀ t ∈ s.tasks, t.1 = .failed → s.world.Lag 1

end MfaSystem

/-! ### What one call does -/

/-- Calls of a login that neither evaluate a code nor touch the lockout. -/
def MfaCall.Unmetered : MfaCall → Prop
  | .compare _ _ _ => False
  | .resetLockout _ => False
  | .bumpFailures => False
  | .lockFor _ => False
  | .clearLockout => False
  | _ => True

/-- A world with the same lockout, clock and wrong codes. -/
structure SameLock (w w' : MfaWorld) : Prop where
  now : w'.now = w.now
  lockout : w'.db.lockout = w.db.lockout
  wrong : wrongSince w'.log = wrongSince w.log
  bounded : Bounded maxFailures w.log → Bounded maxFailures w'.log

theorem SameLock.of_log {w w' : MfaWorld} (hn : w'.now = w.now)
    (hl : w'.db.lockout = w.db.lockout) (hlog : w'.log = w.log) : SameLock w w' :=
  ⟨hn,hl,by rw [hlog],fun h => hlog ▸ h⟩

theorem SameLock.locked {w w' : MfaWorld} (h : SameLock w w') : w'.locked = w.locked := by
  rw [MfaWorld.locked,MfaDb.checkLockout,h.lockout,h.now]
  rfl

theorem SameLock.lag {w w' : MfaWorld} {n : Nat} (h : SameLock w w') (hw : w.Lag n) :
    w'.Lag n := by
  rw [MfaWorld.Lag,h.lockout,h.wrong]
  exact hw

section Serve

variable {env : MfaEnv} {weather : MfaWeather} {w : MfaWorld} {c : MfaCall} {g : MfaStance}

theorem SameLock.run {α : Type} {f : α × MfaWorld} (hn : f.2.now = w.now)
    (hl : f.2.db.lockout = w.db.lockout) (hlog : f.2.log = w.log) :
    SameLock w (weather.run w f).2 := by
  rcases MfaWeather.run_world weather w f with hr | ⟨-,hr⟩
  · rw [hr]
    exact .of_log rfl rfl rfl
  · rw [hr]
    exact .of_log hn hl hlog

theorem serve_sameLock (h : c.Unmetered) : SameLock w (env.serve weather c w).2 := by
  cases c with
  | addAccountToBrowser b e p u i s =>
    have hlog : wrongSince (w.log ++ [.session weather.id]) = wrongSince w.log :=
      wrongSince_append _ _
    exact ⟨rfl,rfl,hlog,fun h => h.append (hlog ▸ h.wrongSince_le)⟩
  | compare secret code now => exact h.elim
  | resetLockout a => exact h.elim
  | bumpFailures => exact h.elim
  | lockFor secs => exact h.elim
  | clearLockout => exact h.elim
  | userDirExists => exact .of_log rfl rfl rfl
  | drawNonce => exact .of_log rfl rfl rfl
  | validateImap h p t e pw => exact .of_log rfl rfl rfl
  | getBrowserAccounts b => exact .of_log rfl rfl rfl
  | ensureIdentity e => exact .of_log rfl rfl rfl
  | createBrowser => exact .of_log rfl rfl rfl
  | _ => exact SameLock.run rfl rfl rfl

/-- Only evaluating a code and counting a wrong one change who has a wrong code to count. -/
theorem unmetered_next {d : Prop} (hok : MfaStance.Allows d g c) (h : c.Unmetered) (r : c.Answer) :
    (g.next c r).Pending = g.Pending ∧ (g.next c r = .failed → g = .failed) := by
  rcases MfaStance.next_cases hok r with hg | hg
  · rw [hg]
    exact ⟨rfl,id⟩
  · generalize g.next c r = g' at hg
    cases hg <;> first | exact h.elim | exact ⟨rfl,nofun⟩

end Serve

namespace MfaSystem

section Call

variable {env : MfaEnv} {weather : MfaWeather} {s : MfaSystem} {i : Nat} {g : MfaStance}
  {c : MfaCall} {k : c.Answer → MfaTask HttpResponse} {p : MfaTask HttpResponse}

theorem anyPending_iff : s.anyPending = true ↔ ∃ t ∈ s.tasks, t.1.Pending = true := by
  simp [anyPending]

/-- Who has a wrong code to count keeps it, if the call leaves it to the caller. -/
theorem anyPending_after (ht : s.tasks[i]? = some (g,.call c k))
    (hg : g.Pending = true → (g.next c (env.serve weather c s.world).1).Pending = true)
    (h : s.anyPending = true) : (after env weather s i g c p).anyPending = true :=
  anyPending_iff.mpr (exists_mem_set (P := fun t : MfaStance × MfaTask HttpResponse =>
    t.1.Pending = true) ht hg (anyPending_iff.mp h))

/-- The caller comes to have a wrong code to count. -/
theorem anyPending_of_next (ht : s.tasks[i]? = some (g,.call c k))
    (hg : (g.next c (env.serve weather c s.world).1).Pending = true) :
    (after env weather s i g c p).anyPending = true :=
  anyPending_iff.mpr ⟨_,List.mem_of_getElem? (List.getElem?_set_self
    (List.getElem?_eq_some_iff.mp ht).1),hg⟩

/-- A call that changes nothing of the lockout. -/
theorem LockInv.call_same (h : s.LockInv) (ht : s.tasks[i]? = some (g,.call c k))
    (hsame : SameLock s.world (env.serve weather c s.world).2)
    (hp : (g.next c (env.serve weather c s.world).1).Pending = g.Pending)
    (hf : g.next c (env.serve weather c s.world).1 = .failed → g = .failed) :
    (after env weather s i g c (k (env.serve weather c s.world).1)).LockInv := by
  refine ⟨h.attempts.call ht,hsame.bounded h.bounded,?_,fun t htm hg => ?_⟩
  · rcases h.room with hl | hp' | ⟨hlt,hlag⟩
    · exact Or.inl (hsame.locked.trans hl)
    · exact Or.inr (Or.inl (anyPending_after ht (fun hg => hp.trans hg) hp'))
    · exact Or.inr (Or.inr ⟨lt_of_eq_of_lt hsame.wrong hlt,hsame.lag hlag⟩)
  · refine hsame.lag ?_
    rcases List.mem_or_eq_of_mem_set htm with htm | rfl
    · exact h.failing t htm hg
    · exact h.failing _ (List.mem_of_getElem? ht) (hf hg)

/-- A call that fails. -/
theorem LockInv.call_failed (h : s.LockInv) (ht : s.tasks[i]? = some (g,.call c k))
    (hw : (env.serve weather c s.world).2 = s.world)
    (hg : g.next c (env.serve weather c s.world).1 = g) :
    (after env weather s i g c (k (env.serve weather c s.world).1)).LockInv :=
  h.call_same ht (by rw [hw]; exact .of_log rfl rfl rfl) (by rw [hg]) (fun h => hg ▸ h)

/-- A wrong code is evaluated while the counter leaves room for it. -/
theorem LockInv.call_compare {secret code : String} {t : Nat} {k : Option Nat → MfaTask HttpResponse}
    (h : s.LockInv) (ht : s.tasks[i]? = some (.timed t,.call (.compare secret code t) k))
    (hun : env.matchingStep secret code t = none →
      s.world.locked = false ∧ s.anyPending = false) :
    (after env weather s i (.timed t) (.compare secret code t)
      (k (env.serve weather (.compare secret code t) s.world).1)).LockInv := by
  rcases hm : env.matchingStep secret code t with _ | a
  · obtain ⟨hl,hp⟩ := hun hm
    have hr : env.serve weather (.compare secret code t) s.world =
        (none,{ s.world with log := s.world.log ++ [.wrongCode] }) := by
      simp only [MfaEnv.serve,hm]
      rfl
    have hwrong : wrongSince (s.world.log ++ [.wrongCode]) = wrongSince s.world.log + 1 :=
      wrongSince_append _ _
    obtain ⟨hlt,hlag⟩ : wrongSince s.world.log < maxFailures ∧ s.world.Lag 0 := by
      rcases h.room with hl' | hp' | hr
      · simp [hl] at hl'
      · simp [hp] at hp'
      · exact hr
    refine ⟨h.attempts.call ht,?_,?_,fun u hum _ hc => ?_⟩
    · rw [after_world,hr]
      exact h.bounded.append (hwrong ▸ hlt)
    · exact Or.inr (Or.inl (anyPending_of_next ht (by rw [hr]; rfl)))
    · simp only [after,hr] at hc ⊢
      rw [hwrong]
      exact Nat.succ_le_succ (hlag hc)
  · have hr : env.serve weather (.compare secret code t) s.world = (some a,s.world) := by
      simp only [MfaEnv.serve,hm]
      rfl
    exact h.call_same ht (by rw [hr]; exact .of_log rfl rfl rfl) (by rw [hr]; rfl)
      (by rw [hr]; intro hf; cases hf)

/-- Counting a failure, be it of a code or of the IMAP login. -/
theorem LockInv.call_bump {k : Except String Nat → MfaTask HttpResponse} (h : s.LockInv)
    (ht : s.tasks[i]? = some (g,.call .bumpFailures k))
    (hun : g = .failed → weather.fails = none) :
    (after env weather s i g .bumpFailures
      (k (env.serve weather .bumpFailures s.world).1)).LockInv := by
  have hok := h.attempts.allowed ht
  rcases hf : weather.fails with _ | e
  · have hr : env.serve weather .bumpFailures s.world =
        (.ok (s.world.db.bumpFailures s.world.now).1,
          { s.world with db := (s.world.db.bumpFailures s.world.now).2 }) :=
      MfaWeather.run_none hf
    have hlag : ∀ {n m}, s.world.Lag n → n ≤ m + 1 →
        MfaWorld.Lag m (env.serve weather .bumpFailures s.world).2 := by
      intro n m hlag hnm hc
      rw [hr] at hc ⊢
      have hlt : s.world.db.lockout.failedCount < maxFailures := Nat.lt_of_succ_lt hc
      exact Nat.le_trans (hlag hlt) (by show _ ≤ s.world.db.lockout.failedCount + 1 + m; omega)
    have hnext : g.next .bumpFailures (env.serve weather .bumpFailures s.world).1 ≠ .failed := by
      rw [hr]
      rcases hok with rfl | rfl
      · exact nofun
      · show (if _ ≥ maxFailures then MfaStance.counted else .done) ≠ .failed
        split <;> exact nofun
    refine ⟨h.attempts.call ht,?_,?_,fun u hum hg => ?_⟩
    · rw [after_world,hr]
      exact h.bounded
    · rcases hok with rfl | rfl
      · rcases h.room with hl | hp | ⟨hlt,hl⟩
        · refine Or.inl ?_
          show MfaWorld.locked (env.serve weather .bumpFailures s.world).2 = true
          rw [hr]
          exact hl
        · exact Or.inr (Or.inl (anyPending_after ht id hp))
        · refine Or.inr (Or.inr ⟨?_,hlag hl (Nat.zero_le _)⟩)
          rw [after_world,hr]
          exact hlt
      · -- the wrong code is counted now: the counter has caught up, or locks the account
        have hl := h.failing _ (List.mem_of_getElem? ht) rfl
        by_cases hc : (s.world.db.bumpFailures s.world.now).1 ≥ maxFailures
        · refine Or.inr (Or.inl (anyPending_of_next ht ?_))
          rw [hr]
          show (if _ ≥ maxFailures then MfaStance.counted else .done).Pending = true
          rw [if_pos hc]
          rfl
        · refine Or.inr (Or.inr ⟨?_,hlag hl (Nat.le_refl _)⟩)
          rw [after_world,hr]
          have hlt : s.world.db.lockout.failedCount + 1 < maxFailures := Nat.lt_of_not_le hc
          exact Nat.lt_of_le_of_lt (hl (by omega)) hlt
    · rcases List.mem_or_eq_of_mem_set hum with hum | rfl
      · exact hlag (h.failing u hum hg) (by omega)
      · exact absurd hg hnext
  · have hr : env.serve weather .bumpFailures s.world = (.error e,s.world) :=
      MfaWeather.run_some hf
    have hg : g = .loaded :=
      hok.resolve_right fun hg => Option.some_ne_none e ((hun hg).symm.trans hf).symm
    exact h.call_failed ht (congrArg Prod.snd hr) (by rw [hr,hg]; rfl)

theorem LockInv.call_lock {secs : Nat} {k : Except String Unit → MfaTask HttpResponse}
    (h : s.LockInv) (ht : s.tasks[i]? = some (g,.call (.lockFor secs) k))
    (hun : g = .counted → weather.fails = none) :
    (after env weather s i g (.lockFor secs)
      (k (env.serve weather (.lockFor secs) s.world).1)).LockInv := by
  obtain ⟨hok,hsecs⟩ := h.attempts.allowed ht
  rcases hf : weather.fails with _ | e
  · have hr : env.serve weather (.lockFor secs) s.world =
        (.ok (),{ s.world with db := s.world.db.lockUntil (s.world.now + secs) }) :=
      MfaWeather.run_none hf
    refine ⟨h.attempts.call ht,?_,Or.inl ?_,fun u hum hg => ?_⟩
    · rw [after_world,hr]
      exact h.bounded
    · show MfaWorld.locked (env.serve weather (.lockFor secs) s.world).2 = true
      rw [hr]
      simp [MfaWorld.locked,MfaDb.checkLockout,MfaDb.lockUntil,hsecs]
    · have hlag : ∀ {n}, s.world.Lag n →
          MfaWorld.Lag n (env.serve weather (.lockFor secs) s.world).2 := by
        intro n hn
        rw [hr]
        exact hn
      rcases List.mem_or_eq_of_mem_set hum with hum | rfl
      · exact hlag (h.failing u hum hg)
      · rw [hr] at hg
        rcases hok with rfl | rfl <;> simp [MfaStance.next] at hg
  · have hr : env.serve weather (.lockFor secs) s.world = (.error e,s.world) :=
      MfaWeather.run_some hf
    have hg : g = .loaded :=
      hok.resolve_right fun hg => Option.some_ne_none e ((hun hg).symm.trans hf).symm
    exact h.call_failed ht (congrArg Prod.snd hr) (by rw [hr,hg]; rfl)

theorem LockInv.call_reset {a : Nat} {k : Except String Unit → MfaTask HttpResponse}
    (h : s.LockInv) (ht : s.tasks[i]? = some (g,.call (.resetLockout a) k)) :
    (after env weather s i g (.resetLockout a)
      (k (env.serve weather (.resetLockout a) s.world).1)).LockInv := by
  obtain rfl : g = .recorded a := h.attempts.allowed ht
  rcases hf : weather.fails with _ | e
  · have hr : env.serve weather (.resetLockout a) s.world = (.ok (),{ s.world with
        db := s.world.db.resetLockout, log := s.world.log ++ [.accepted a] }) :=
      MfaWeather.run_none hf
    have hwrong : wrongSince (s.world.log ++ [.accepted a]) = 0 := wrongSince_append _ _
    have hlag : ∀ n, MfaWorld.Lag n (env.serve weather (.resetLockout a) s.world).2 := by
      intro n _
      rw [hr,hwrong]
      exact Nat.zero_le _
    refine ⟨h.attempts.call ht,?_,Or.inr (Or.inr ⟨?_,hlag 0⟩),fun _ _ _ => hlag 1⟩
    · rw [after_world,hr]
      exact h.bounded.append (by rw [hwrong]; exact Nat.zero_le _)
    · rw [after_world,hr,hwrong]
      decide
  · have hr : env.serve weather (.resetLockout a) s.world = (.error e,s.world) :=
      MfaWeather.run_some hf
    exact h.call_failed ht (congrArg Prod.snd hr) (by rw [hr]; rfl)

/-- One call of a login in progress. -/
theorem LockInv.call (h : s.LockInv) (ht : s.tasks[i]? = some (g,.call c k))
    (hun : s.Metered env (.call i weather)) :
    (after env weather s i g c (k (env.serve weather c s.world).1)).LockInv := by
  have hok := h.attempts.allowed ht
  simp only [Metered,Threads.upcoming_eq ht] at hun
  by_cases hq : c.Unmetered
  · obtain ⟨hp,hf⟩ := unmetered_next hok hq (env.serve weather c s.world).1
    exact h.call_same ht (serve_sameLock hq) hp hf
  · cases c with
    | compare secret code t =>
      obtain rfl : g = .timed t := hok
      exact h.call_compare ht hun
    | bumpFailures => exact h.call_bump ht (fun hg => by subst hg; exact hun)
    | lockFor secs => exact h.call_lock ht (fun hg => by subst hg; exact hun)
    | resetLockout a => exact h.call_reset ht
    | clearLockout => exact hok.1.elim
    | _ => exact absurd trivial hq

end Call

variable {env : MfaEnv} {config : AppConfig} {s s' : MfaSystem}

theorem LockInv.start {p : MfaTask HttpResponse} (h : s.LockInv)
    (hp : Observes False (fun _ _ => True) .fresh p) :
    LockInv { s with tasks := s.tasks ++ [(.fresh,p)] } := by
  refine ⟨h.attempts.start hp,h.bounded,?_,fun t ht hg => ?_⟩
  · rcases h.room with hl | hpending | hr
    · exact Or.inl hl
    · obtain ⟨t,ht,hg⟩ := anyPending_iff.mp hpending
      exact Or.inr (Or.inl (anyPending_iff.mpr ⟨t,List.mem_append_left _ ht,hg⟩))
    · exact Or.inr (Or.inr hr)
  · rcases List.mem_append.mp ht with ht | ht
    · exact h.failing t ht hg
    · rw [List.mem_singleton.mp ht] at hg
      simp at hg

/-- A lockout that runs out while time passes is a boundary. -/
theorem LockInv.tick (h : s.LockInv) (secs : Nat) :
    LockInv { s with world := s.world.tick secs } := by
  unfold MfaWorld.tick
  split
  · have hwrong : wrongSince (s.world.log ++ [.expired]) = 0 := wrongSince_append _ _
    have hlag : ∀ n, MfaWorld.Lag n { s.world with
        now := s.world.now + secs, log := s.world.log ++ [.expired] } := by
      intro n _
      show wrongSince (s.world.log ++ [.expired]) ≤ _
      rw [hwrong]
      exact Nat.zero_le _
    refine ⟨h.attempts,h.bounded.append (by rw [hwrong]; exact Nat.zero_le _),
      Or.inr (Or.inr ⟨?_,hlag 0⟩),fun _ _ _ => hlag 1⟩
    show wrongSince (s.world.log ++ [.expired]) < maxFailures
    rw [hwrong]
    decide
  · next hstill =>
    refine ⟨h.attempts,h.bounded,?_,h.failing⟩
    rcases h.room with hl | hpending | hr
    · refine Or.inl ?_
      have hdb : s.world.db.checkLockout s.world.now = true := hl
      show s.world.db.checkLockout (s.world.now + secs) = true
      simpa [hdb] using hstill
    · exact Or.inr (Or.inl hpending)
    · exact Or.inr (Or.inr hr)

theorem LockInv.step {e : MfaEvent} (h : s.LockInv) (hlogin : e.IsLogin)
    (hun : s.Metered env e) (he : MfaSystem.step env config s e = some s') : s'.LockInv := by
  cases e with
  | login body =>
    obtain rfl := Option.some.inj he
    exact h.start (observes_login env config body)
  | disable code => exact hlogin.elim
  | tick secs =>
    obtain rfl := Option.some.inj he
    exact h.tick secs
  | call i weather =>
    obtain ⟨g,c,k,ht,rfl⟩ := Threads.call_eq_some.mp he
    exact h.call ht hun

theorem lockInv_opening (w : MfaWorld) : (opening w).LockInv where
  attempts := nofun
  bounded := bounded_nil _
  room := Or.inr (Or.inr ⟨Nat.zero_lt_succ _,fun _ => Nat.zero_le _⟩)
  failing := nofun

end MfaSystem

/-- In every run of logins in which a wrong code is evaluated only while the account is not locked
and every earlier wrong code is counted, and in which the statements that count it succeed, no
more than `maxFailures` wrong codes are evaluated between two boundaries. -/
theorem wrong_codes_bounded {env : MfaEnv} {config : AppConfig} {w : MfaWorld}
    {es : List MfaEvent} {s : MfaSystem}
    (h : Run (MfaSystem.step env config) (fun s e => e.IsLogin ∧ s.Metered env e) (.opening w)
      es s) : Bounded maxFailures s.world.log :=
  (h.invariant (MfaSystem.lockInv_opening w)
    (fun _ _ _ hi hok he => MfaSystem.LockInv.step hi hok.1 hok.2 he)).bounded

/-! ### Samples -/

/-- Five wrong codes one after the other; the sixth login finds the account locked. -/
def fiveWrongCodes : List MfaEvent :=
  (List.range 4).flatMap (fun i =>
    MfaEvent.login (sampleLogin (some "000000")) :: List.replicate 13 (MfaEvent.call i fair)) ++
  [MfaEvent.login (sampleLogin (some "000000"))] ++ List.replicate 14 (MfaEvent.call 4 fair) ++
  [MfaEvent.login (sampleLogin (some "000000"))] ++ List.replicate 6 (MfaEvent.call 5 fair) ++ [MfaEvent.tick 900]

theorem wrong_codes_bounded_fiveWrongCodes :
    ∃ s, Run (MfaSystem.step sampleEnv sampleConfig)
        (fun s e => e.IsLogin ∧ s.Metered sampleEnv e) (.opening enrolledAccount)
        fiveWrongCodes s ∧
      s.world.log = List.replicate 5 .wrongCode ++ [.expired] ∧
        Bounded maxFailures s.world.log := by
  have hv : (execWhere (MfaSystem.step sampleEnv sampleConfig)
      (fun s e => e.IsLogin ∧ s.Metered sampleEnv e) (.opening enrolledAccount)
      fiveWrongCodes).map (fun s => s.world.log) =
        some (List.replicate 5 .wrongCode ++ [.expired]) := by
    decide +kernel
  obtain ⟨s,hrun,hl⟩ := run_of_map_execWhere hv
  exact ⟨s,hrun,hl,wrong_codes_bounded hrun⟩

/-- Six logins with a wrong code, all past the gate before the first code is evaluated. -/
def sixInFlight : List MfaEvent :=
  List.replicate 6 (MfaEvent.login (sampleLogin (some "000000"))) ++
    (List.range 6).flatMap (fun i => List.replicate 9 (MfaEvent.call i fair)) ++
    (List.range 6).flatMap (fun i => List.replicate 4 (MfaEvent.call i fair))

/-- All six wrong codes are evaluated. -/
theorem sixth_wrong_code_evaluated :
    ¬∀ (env : MfaEnv) (config : AppConfig) (w : MfaWorld) (es : List MfaEvent) (s : MfaSystem),
      Run (MfaSystem.step env config) (fun _ e => e.IsLogin) (.opening w) es s →
        Bounded maxFailures s.world.log := by
  intro hall
  have hv : (execWhere (MfaSystem.step sampleEnv sampleConfig) (fun _ e => e.IsLogin)
      (.opening enrolledAccount) sixInFlight).map (fun s => s.world.log) =
        some (List.replicate 6 .wrongCode) := by
    decide +kernel
  obtain ⟨s,hrun,hl⟩ := run_of_map_execWhere hv
  have hsafe := hall _ _ _ sixInFlight s hrun
  rw [hl] at hsafe
  exact absurd (hsafe _ (List.infix_refl _) (by decide)) (by decide)

end Rav
