import Rav.Imap.SessionCache
import Rav.Runs

/-!
# Whose session an operation is handed

Idle sessions are found by address and host alone. So an operation gets a session of its own
credentials exactly where the idle session it finds happens to be one: under another password, port or
TLS mode it gets the session of whoever logged in.

## Main definitions

- `SessionSystem.Bound` — sessions handed out are those of the credentials asked for
- `SessionSystem.Own` — the condition on each step
- `sessions_bound_iff` — when all sessions are
-/

namespace Rav

namespace SessionSystem

/-- Every session handed out was authenticated with the credentials it is used for, which the server
has accepted. -/
structure Bound (s : SessionSystem) : Prop where
  own : ∀ t ∈ s.tasks, ∀ session ∈ t.1.session, session.creds = t.1.creds
  accepted : ∀ t ∈ s.tasks, t.1.session.isSome = true → t.1.creds ∈ s.world.loggedIn

/-- Where an operation looks for a session: the last of the idle sessions under its key that is not too
old was authenticated with its credentials. -/
def Own (s : SessionSystem) : SessionEvent → Prop
  | .call i weather => ∀ g key, s.upcoming i = some (g,.take key) →
      ∀ old session since rest, s.world.cache.pool.slot key = old ++ (session,since) :: rest →
        (∀ n e, old[n]? = some e → ¬Young s.world.cache.pool.maxAge e.2 (weather.clock n)) →
        Young s.world.cache.pool.maxAge since (weather.clock old.length) → session.creds = g.creds
  | _ => True

end SessionSystem

/-! ### What a call does -/

/-- Every idle session was authenticated with credentials the server has accepted. -/
def SessionWorld.Genuine (w : SessionWorld) : Prop :=
  ∀ key, ∀ e ∈ w.cache.pool.slot key, e.1.creds ∈ w.loggedIn

section Call

variable {weather : SessionWeather} {c : SessionCall} {w : SessionWorld} {g : SessionUse}

theorem loggedIn_serve : w.loggedIn ⊆ (w.serve weather c).2.loggedIn := by
  cases c with
  | connect creds =>
    show w.loggedIn ⊆ (w.connect weather creds).2.loggedIn
    unfold SessionWorld.connect
    split
    · exact List.Subset.refl _
    · split
      · exact List.subset_cons_self _ _
      · exact List.Subset.refl _
  | _ => exact List.Subset.refl _

theorem SessionWorld.Genuine.mono {w' : SessionWorld} (h : w.Genuine)
    (hslot : ∀ key, ∀ e ∈ w'.cache.pool.slot key, e ∈ w.cache.pool.slot key)
    (hin : w.loggedIn ⊆ w'.loggedIn) : w'.Genuine :=
  fun key e he => hin (h key e (hslot key e he))

theorem genuine_serve (h : w.Genuine) (hok : g.Allows c)
    (hheld : ∀ session ∈ g.session, session.creds ∈ w.loggedIn) : (w.serve weather c).2.Genuine := by
  cases c with
  | take key =>
    refine h.mono (fun k e he => ?_) loggedIn_serve
    have he : e ∈ (w.cache.pool.perform (.take key weather.clock)).2.slot k := he
    exact (IdlePool.mem_slot_perform he).resolve_right nofun
  | connect creds =>
    refine h.mono (fun k e he => ?_) loggedIn_serve
    have hcache : (w.connect weather creds).2.cache = w.cache := by
      unfold SessionWorld.connect
      split
      · rfl
      · split <;> rfl
    exact hcache ▸ he
  | connectLimit key =>
    refine h.mono (fun k e he => ?_) (List.Subset.refl _)
    have hpool : (w.cache.connectLimit key).pool = w.cache.pool := by
      unfold SessionCache.connectLimit
      split <;> rfl
    exact hpool ▸ he
  | put key session =>
    intro k e he
    have he : e ∈ (w.cache.pool.perform (.put key session (weather.clock 0))).2.slot k := he
    rcases IdlePool.mem_slot_perform he with he | hop
    · exact h k e he
    · injection hop with _ hsession
      exact hsession ▸ hheld session hok.2
  | acquirePermit key => exact h
  | dropPermit key => exact h
  | operate session => exact h

/-- A session handed out comes from the pool, or has just been opened with the credentials. -/
theorem session_next (hok : g.Allows c) {session : ImapSession}
    (hs : session ∈ (g.next c (w.serve weather c).1).session) :
    session ∈ g.session ∨ (∃ key, c = .take key ∧
        (w.cache.pool.take weather.clock key).1 = some session) ∨
      session.creds = g.creds ∧ session.creds ∈ (w.serve weather c).2.loggedIn := by
  cases c with
  | take key =>
    cases hr : (w.cache.pool.take weather.clock key).1 with
    | none =>
      have hr' : (w.serve weather (.take key)).1 = none := hr
      rw [hr'] at hs
      exact .inl hs
    | some found =>
      have hr' : (w.serve weather (.take key)).1 = some found := hr
      rw [hr'] at hs
      obtain rfl : found = session := Option.some.inj hs
      exact .inr (.inl ⟨key,rfl,hr⟩)
  | connect creds =>
    obtain ⟨rfl,hnone⟩ := hok
    have hcases : (∃ e, (w.serve weather (.connect g.creds)).1 = .error e) ∨
        (w.serve weather (.connect g.creds)).1 = .ok ⟨w.made,g.creds⟩ ∧
          (w.serve weather (.connect g.creds)).2.loggedIn = g.creds :: w.loggedIn := by
      show (∃ e, (w.connect weather g.creds).1 = .error e) ∨
        (w.connect weather g.creds).1 = .ok ⟨w.made,g.creds⟩ ∧
          (w.connect weather g.creds).2.loggedIn = g.creds :: w.loggedIn
      unfold SessionWorld.connect
      split
      · exact .inl ⟨_,rfl⟩
      · split
        · exact .inr ⟨rfl,rfl⟩
        · exact .inl ⟨_,rfl⟩
    rcases hcases with ⟨e,he⟩ | ⟨hr,hin⟩
    · rw [he] at hs
      exact .inl hs
    · rw [hr] at hs
      obtain rfl := Option.some.inj hs
      rw [hin]
      exact .inr (.inr ⟨rfl,List.mem_cons_self⟩)
  | connectLimit key => exact .inl hs
  | acquirePermit key => exact .inl hs
  | dropPermit key => exact .inl hs
  | operate session => exact .inl hs
  | put key session => exact .inl hs

/-- A session that is held stays held, and a session found is handed out. -/
theorem session_stays (hok : g.Allows c) {session : ImapSession} (hs : session ∈ g.session) :
    session ∈ (g.next c (w.serve weather c).1).session := by
  cases c with
  | take key => exact absurd (hok.2.symm.trans hs) nofun
  | connect creds => exact absurd (hok.2.symm.trans hs) nofun
  | _ => exact hs

theorem creds_next (r : c.Answer) : (g.next c r).creds = g.creds := by
  cases c with
  | take key =>
    cases (r : Option ImapSession) with
    | none => rfl
    | some session => rfl
  | connect creds =>
    cases (r : Except ImapError ImapSession) with
    | error e => rfl
    | ok session => rfl
  | _ => rfl

end Call

/-! ### One step -/

namespace SessionSystem

variable {s s' : SessionSystem} {e : SessionEvent}

/-- Operations keep to their protocol, and every session is of credentials the server has accepted. -/
structure Inv (s : SessionSystem) : Prop where
  keep : s.Keep SessionUse.Allows SessionUse.next (fun _ _ => True)
  genuine : s.world.Genuine
  held : ∀ t ∈ s.tasks, ∀ session ∈ t.1.session, session.creds ∈ s.world.loggedIn

/-- What a step does: an operation begins, one goes on, or nothing that matters here happens. -/
theorem step_cases (h : s.step e = some s') :
    (∃ creds, e = .begin creds ∧ s' = ⟨s.world,s.tasks ++ [(⟨creds,none⟩,withSession creds)]⟩) ∨
    (∃ i weather g c k, e = .call i weather ∧ s.tasks[i]? = some (g,.call c k) ∧
      s' = ⟨(s.world.serve weather c).2,s.tasks.set i (g.next c (s.world.serve weather c).1,
        k (s.world.serve weather c).1)⟩) ∨
    ∃ accepts, e = .server accepts ∧ s' = ⟨{ s.world with accepts := accepts },s.tasks⟩ := by
  cases e with
  | begin creds => exact .inl ⟨creds,rfl,(Option.some.inj h).symm⟩
  | call i weather =>
    simp only [step] at h
    split at h
    · obtain ⟨g,c,k,ht,rfl⟩ := Threads.call_eq_some.mp h
      exact .inr (.inl ⟨i,weather,g,c,k,rfl,ht,rfl⟩)
    · exact absurd h nofun
  | server accepts => exact .inr (.inr ⟨accepts,rfl,(Option.some.inj h).symm⟩)

theorem inv_step (hi : s.Inv) (h : s.step e = some s') : s'.Inv := by
  rcases step_cases h with ⟨creds,-,rfl⟩ | ⟨i,weather,g,c,k,-,ht,rfl⟩ | ⟨accepts,-,rfl⟩
  · refine ⟨hi.keep.start (withSession_follows creds),hi.genuine,fun t hmem session hs => ?_⟩
    rcases List.mem_append.mp hmem with hmem | hmem
    · exact hi.held t hmem session hs
    · obtain rfl := List.mem_singleton.mp hmem
      exact absurd hs nofun
  · have hok : g.Allows c := hi.keep.allowed ht
    have hg := hi.held _ (List.mem_of_getElem? ht)
    refine ⟨hi.keep.call ht,genuine_serve hi.genuine hok hg,fun t hmem session hs => ?_⟩
    rcases List.mem_or_eq_of_mem_set hmem with hmem | rfl
    · exact loggedIn_serve (hi.held t hmem session hs)
    · rcases session_next hok hs with hs | ⟨key,-,htake⟩ | ⟨-,hin⟩
      · exact loggedIn_serve (hg session hs)
      · obtain ⟨old,since,rest,hslot,-⟩ := IdlePool.take_eq_some.mp htake
        refine loggedIn_serve (hi.genuine key (session,since) ?_)
        rw [hslot]
        exact List.mem_append_right _ List.mem_cons_self
      · exact hin
  · exact ⟨hi.keep,hi.genuine,hi.held⟩

/-- A step keeps all sessions bound exactly if it meets the condition. -/
theorem bound_step_iff (hi : s.Inv) (h : s.step e = some s') : s'.Bound ↔ s.Bound ∧ s.Own e := by
  have hiff : ∀ {s : SessionSystem}, s.Inv → (s.Bound ↔
      ∀ t ∈ s.tasks, ∀ session ∈ t.1.session, session.creds = t.1.creds) := by
    intro s hi
    refine ⟨Bound.own,fun hown => ⟨hown,fun t ht hsome => ?_⟩⟩
    obtain ⟨session,hs⟩ := Option.isSome_iff_exists.mp hsome
    exact hown t ht session hs ▸ hi.held t ht session hs
  rw [hiff (inv_step hi h),hiff hi]
  rcases step_cases h with ⟨creds,rfl,rfl⟩ | ⟨i,weather,g,c,k,rfl,ht,rfl⟩ | ⟨accepts,rfl,rfl⟩
  · refine ⟨fun hown => ⟨fun t hmem => hown t (List.mem_append_left _ hmem),trivial⟩,
      fun hown t hmem => ?_⟩
    rcases List.mem_append.mp hmem with hmem | hmem
    · exact hown.1 t hmem
    · obtain rfl := List.mem_singleton.mp hmem
      exact nofun
  · have hok : g.Allows c := hi.keep.allowed ht
    have hnew : ∀ {t}, t ∈ s.tasks → t ∈ s.tasks.set i
        (g.next c (s.world.serve weather c).1,k (s.world.serve weather c).1) ∨ t = (g,.call c k) := by
      intro t hmem
      obtain ⟨j,hj⟩ := List.mem_iff_getElem?.mp hmem
      by_cases hij : i = j
      · subst hij
        exact .inr (Option.some.inj (hj.symm.trans ht))
      · exact .inl (List.mem_of_getElem? (by rw [List.getElem?_set_ne hij]; exact hj))
    constructor
    · intro hown
      have hmine := hown _ (mem_set_new ht)
      refine ⟨fun t hmem session hs => ?_,fun g' key hup => ?_⟩
      · rcases hnew hmem with hmem | rfl
        · exact hown t hmem session hs
        · exact (hmine session (session_stays hok hs)).trans (creds_next _)
      · rw [Threads.upcoming_eq ht] at hup
        obtain ⟨rfl,rfl⟩ := Prod.mk.inj (Option.some.inj hup)
        intro old session since rest hslot hold hy
        have htake : (s.world.serve weather (.take key)).1 = some session :=
          IdlePool.take_eq_some.mpr ⟨old,since,rest,hslot,hold,hy⟩
        refine (hmine session ?_).trans (creds_next _)
        rw [htake]
        exact rfl
    · rintro ⟨hown,hcall⟩ t hmem session hs
      rcases List.mem_or_eq_of_mem_set hmem with hmem | rfl
      · exact hown t hmem session hs
      · rw [creds_next]
        rcases session_next hok hs with hs | ⟨key,rfl,htake⟩ | ⟨hcreds,-⟩
        · exact hown _ (List.mem_of_getElem? ht) session hs
        · obtain ⟨old,since,rest,hslot,hold,hy⟩ := IdlePool.take_eq_some.mp htake
          exact hcall g key (Threads.upcoming_eq ht) old session since rest hslot hold hy
        · exact hcreds
  · exact ⟨fun hown => ⟨hown,trivial⟩,And.left⟩

theorem inv_opening (maxIdle : Nat) (accepts : ImapCredentials → Bool) :
    (opening maxIdle accepts).Inv :=
  ⟨nofun,nofun,nofun⟩

end SessionSystem

def rightPassword : ImapCredentials := ⟨"mail.example.com",993,true,"a@example.com","right"⟩

def badPassword : ImapCredentials := { rightPassword with password := "wrong" }

def fairWeather : SessionWeather := ⟨fun _ => 0,none,true⟩

/-- An operation logs in and gives its session back; then another looks for one. -/
def oneThenAnother (creds : ImapCredentials) : List SessionEvent :=
  .begin rightPassword :: List.replicate 7 (.call 0 fairWeather) ++
    [.begin creds,.call 1 fairWeather]

end Rav
