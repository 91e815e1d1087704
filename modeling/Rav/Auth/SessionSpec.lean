import Rav.Auth.Session

/-!
# What the session store's operations do

The four maps of a store are coherent if they describe one set of bindings of an account to a
browser and a token. Every operation that removes accounts removes them from all four maps;
each is described once, by `Without`.

## Main definitions

- `SessionStore.Coherent` — the invariant of the four maps
- `SessionStore.Without` — the store without some accounts
- `SessionStore.Binding` — a session under its browser, account and token
-/

namespace Rav

namespace SessionStore

variable {s s' : SessionStore} {D : AccountId → Prop}

/-- The browser lists the account. -/
def Lists (s : SessionStore) (b : BrowserId) (a : AccountId) : Prop :=
  ∃ accounts, s.browsers.get b = some accounts ∧ a ∈ accounts

/-- The four maps describe the same bindings, and no session has a timeout of its own. -/
structure Coherent (s : SessionStore) : Prop where
  session : ∀ {t x}, s.sessions.get t = some x → s.accountToSession.get x.accountId = some t
  token : ∀ {a t}, s.accountToSession.get a = some t →
    ∃ x, s.sessions.get t = some x ∧ x.accountId = a
  lists : ∀ {b a}, s.Lists b a ↔ s.accountToBrowser.get a = some b
  bound : ∀ {a}, (∃ b, s.accountToBrowser.get a = some b) ↔
    ∃ t, s.accountToSession.get a = some t
  nodup : ∀ {b accounts}, s.browsers.get b = some accounts → accounts.Nodup
  override : ∀ {t x}, s.sessions.get t = some x → x.timeoutOverride = none

theorem coherent_new (timeout : Nat) : (new timeout).Coherent where
  session h := nomatch h
  token h := nomatch h
  lists := by simp [Lists,new]
  bound := by simp [new]
  nodup h := nomatch h
  override h := nomatch h

/-- Sessions of one account have one token. -/
theorem Coherent.token_inj (h : s.Coherent) {t t' : SessionId} {x x' : AccountSession}
    (hx : s.sessions.get t = some x) (hx' : s.sessions.get t' = some x')
    (ha : x.accountId = x'.accountId) : t = t' :=
  Option.some.inj ((h.session hx).symm.trans (ha ▸ h.session hx'))

/-- An account is listed by one browser only. -/
theorem Coherent.browser_inj (h : s.Coherent) {b b' : BrowserId} {a : AccountId}
    (hb : s.Lists b a) (hb' : s.Lists b' a) : b = b' :=
  Option.some.inj ((h.lists.mp hb).symm.trans (h.lists.mp hb'))

/-! ### Removals -/

/-- `s'` is the store `s` without the accounts in `D`, up to browsers without accounts. -/
structure Without (D : AccountId → Prop) (s s' : SessionStore) : Prop where
  sessions : ∀ t x, s'.sessions.get t = some x ↔ s.sessions.get t = some x ∧ ¬D x.accountId
  accountToSession : ∀ a t,
    s'.accountToSession.get a = some t ↔ s.accountToSession.get a = some t ∧ ¬D a
  accountToBrowser : ∀ a b,
    s'.accountToBrowser.get a = some b ↔ s.accountToBrowser.get a = some b ∧ ¬D a
  lists : ∀ b a, s'.Lists b a ↔ s.Lists b a ∧ ¬D a
  nodup : ∀ b accounts, s'.browsers.get b = some accounts → accounts.Nodup
  timeout : s'.timeout = s.timeout

theorem Coherent.without (h : s.Coherent) (hw : Without D s s') : s'.Coherent where
  session hx := by
    obtain ⟨hx,hD⟩ := (hw.sessions _ _).mp hx
    exact (hw.accountToSession _ _).mpr ⟨h.session hx,hD⟩
  token ha := by
    obtain ⟨ha,hD⟩ := (hw.accountToSession _ _).mp ha
    obtain ⟨x,hx,rfl⟩ := h.token ha
    exact ⟨x,(hw.sessions _ _).mpr ⟨hx,hD⟩,rfl⟩
  lists := by
    intro b a
    rw [hw.lists,hw.accountToBrowser,h.lists]
  bound := by
    intro a
    constructor
    · rintro ⟨b,hb⟩
      obtain ⟨hb,hD⟩ := (hw.accountToBrowser _ _).mp hb
      obtain ⟨t,ht⟩ := h.bound.mp ⟨b,hb⟩
      exact ⟨t,(hw.accountToSession _ _).mpr ⟨ht,hD⟩⟩
    · rintro ⟨t,ht⟩
      obtain ⟨ht,hD⟩ := (hw.accountToSession _ _).mp ht
      obtain ⟨b,hb⟩ := h.bound.mpr ⟨t,ht⟩
      exact ⟨b,(hw.accountToBrowser _ _).mpr ⟨hb,hD⟩⟩
  nodup ha := hw.nodup _ _ ha
  override hx := h.override ((hw.sessions _ _).mp hx).1

/-! ### Eviction -/

theorem lists_evictAccount (s : SessionStore) (a a' : AccountId) (b : BrowserId) :
    (s.evictAccount a).Lists b a' ↔ s.Lists b a' ∧ a' ≠ a := by
  unfold Lists evictAccount
  simp only [DashMap.get_retain,Option.bind_eq_some_iff]
  constructor
  · rintro ⟨_,⟨accounts,hb,he⟩,ha⟩
    split at he
    · exact nomatch he
    · obtain rfl := Option.some.inj he
      obtain ⟨ha,hne⟩ := List.mem_filter.mp ha
      exact ⟨⟨accounts,hb,ha⟩,by simpa using hne⟩
  · rintro ⟨⟨accounts,hb,ha⟩,hne⟩
    have hmem : a' ∈ accounts.filter (· ≠ a) := List.mem_filter.mpr ⟨ha,by simpa using hne⟩
    refine ⟨_,⟨accounts,hb,if_neg ?_⟩,hmem⟩
    intro hempty
    rw [List.isEmpty_iff.mp hempty] at hmem
    exact List.not_mem_nil hmem

theorem nodup_evictAccount (a : AccountId)
    (h : ∀ b accounts, s.browsers.get b = some accounts → accounts.Nodup) (b : BrowserId)
    (accounts : List AccountId) (hb : (s.evictAccount a).browsers.get b = some accounts) :
    accounts.Nodup := by
  unfold evictAccount at hb
  simp only [DashMap.get_retain,Option.bind_eq_some_iff] at hb
  obtain ⟨accounts₀,hb₀,he⟩ := hb
  split at he
  · exact nomatch he
  · obtain rfl := Option.some.inj he
    exact (h b accounts₀ hb₀).filter _

/-- Evicting accounts whose sessions are gone leaves the store without them. -/
theorem without_evict (h : s.Coherent) {sessions : DashMap SessionId AccountSession}
    {accounts : List AccountId}
    (hs : ∀ t x, sessions.get t = some x ↔ s.sessions.get t = some x ∧ x.accountId ∉ accounts) :
    Without (· ∈ accounts) s (accounts.foldl evictAccount { s with sessions := sessions }) := by
  suffices hf : ∀ (l : List AccountId) (r : SessionStore),
      let r' := l.foldl evictAccount r
      r'.sessions = r.sessions ∧ r'.timeout = r.timeout ∧
      (∀ a t, r'.accountToSession.get a = some t ↔ r.accountToSession.get a = some t ∧ a ∉ l) ∧
      (∀ a b, r'.accountToBrowser.get a = some b ↔ r.accountToBrowser.get a = some b ∧ a ∉ l) ∧
      (∀ b a, r'.Lists b a ↔ r.Lists b a ∧ a ∉ l) ∧
      ((∀ b as, r.browsers.get b = some as → as.Nodup) →
        ∀ b as, r'.browsers.get b = some as → as.Nodup) by
    obtain ⟨h1,h2,h3,h4,h5,h6⟩ := hf accounts { s with sessions := sessions }
    exact ⟨fun t x => by rw [h1]; exact hs t x,h3,h4,h5,h6 (fun _ _ => h.nodup),h2⟩
  intro l
  induction l with
  | nil => exact fun r => ⟨rfl,rfl,by simp,by simp,by simp,id⟩
  | cons a l ih =>
    intro r
    obtain ⟨h1,h2,h3,h4,h5,h6⟩ := ih (r.evictAccount a)
    refine ⟨h1,h2,fun a' t => ?_,fun a' b => ?_,fun b a' => ?_,fun hn => h6 (nodup_evictAccount a hn)⟩
    · rw [List.foldl_cons,h3]
      by_cases he : a' = a <;> simp [evictAccount,he]
    · rw [List.foldl_cons,h4]
      by_cases he : a' = a <;> simp [evictAccount,he]
    · rw [List.foldl_cons,h5,lists_evictAccount]
      by_cases he : a' = a <;> simp [he]

/-! ### The operations -/

theorem get_expired (h : s.Coherent) {t : SessionId} {x : AccountSession} {now : Nat}
    (hx : s.sessions.get t = some x) (he : s.timeout < now - x.lastAccessed) :
    (s.get t now).1 = none ∧ Without (· = x.accountId) s (s.get t now).2 := by
  have hg : s.get t now =
      (none,evictAccount { s with sessions := s.sessions.remove t } x.accountId) := by
    simp only [get,hx,effectiveTimeout,h.override hx,Option.getD_none]
    rw [if_pos he]
  rw [hg]
  refine ⟨rfl,?_⟩
  have hw := @without_evict s h (s.sessions.remove t) [x.accountId] (fun t' x' => ?_)
  · simpa only [List.mem_singleton,List.foldl_cons,List.foldl_nil] using hw
  · rw [DashMap.get_remove,List.mem_singleton]
    by_cases ht : t' = t
    · subst ht
      simp [hx]
      rintro rfl
      rfl
    · rw [if_neg ht]
      exact ⟨fun hx' => ⟨hx',fun ha => ht (h.token_inj hx' hx ha)⟩,And.left⟩

/-- The store after a session has been touched. -/
def touch (s : SessionStore) (t : SessionId) (now : Nat) : SessionStore :=
  { s with sessions := s.sessions.modify t (fun e => { e with lastAccessed := now }) }

theorem get_live (h : s.Coherent) {t : SessionId} {x : AccountSession} {now : Nat}
    (hx : s.sessions.get t = some x) (he : now - x.lastAccessed ≤ s.timeout) :
    s.get t now = (some { x with lastAccessed := now },s.touch t now) := by
  simp only [get,hx,effectiveTimeout,h.override hx,Option.getD_none]
  rw [if_neg (Nat.not_lt.mpr he)]
  rfl

theorem get_none {t : SessionId} {now : Nat} (hx : s.sessions.get t = none) :
    s.get t now = (none,s) := by
  simp only [get,hx]

theorem sessions_touch {t t' : SessionId} {now : Nat} {x : AccountSession} :
    (s.touch t now).sessions.get t' = some x ↔
      ∃ y, s.sessions.get t' = some y ∧ x = if t' = t then { y with lastAccessed := now } else y := by
  unfold touch
  rw [DashMap.get_modify]
  by_cases ht : t' = t
  · simp only [ht,if_true,Option.map_eq_some_iff]
    exact exists_congr (fun y => and_congr_right (fun _ => eq_comm))
  · simp [ht,eq_comm]

theorem coherent_touch (h : s.Coherent) (t : SessionId) (now : Nat) :
    (s.touch t now).Coherent where
  session hx := by
    obtain ⟨y,hy,rfl⟩ := sessions_touch.mp hx
    have hid := h.session hy
    split <;> exact hid
  token ha := by
    obtain ⟨y,hy,rfl⟩ := h.token ha
    exact ⟨_,sessions_touch.mpr ⟨y,hy,rfl⟩,by split <;> rfl⟩
  lists := h.lists
  bound := h.bound
  nodup := h.nodup
  override hx := by
    obtain ⟨y,hy,rfl⟩ := sessions_touch.mp hx
    have ho := h.override hy
    split <;> exact ho

theorem without_removeAccount (h : s.Coherent) (a : AccountId) :
    Without (· = a) s (s.removeAccount a).2 := by
  unfold removeAccount
  cases ha : s.accountToSession.get a with
  | none =>
    have hb : ∀ b, s.accountToBrowser.get a ≠ some b := by
      intro b hb
      obtain ⟨t,ht⟩ := h.bound.mp ⟨b,hb⟩
      simp [ha] at ht
    refine ⟨fun t x => ⟨fun hx => ⟨hx,?_⟩,And.left⟩,fun a' t => ⟨fun ht => ⟨ht,?_⟩,And.left⟩,
      fun a' b => ⟨fun hb' => ⟨hb',?_⟩,And.left⟩,fun b a' => ⟨fun hl => ⟨hl,?_⟩,And.left⟩,
      fun _ _ => h.nodup,rfl⟩
    · rintro rfl
      simp [h.session hx] at ha
    · rintro rfl
      simp [ht] at ha
    · rintro rfl
      exact hb b hb'
    · rintro rfl
      exact hb b (h.lists.mp hl)
  | some t =>
    obtain ⟨b,hb⟩ := h.bound.mpr ⟨t,ha⟩
    obtain ⟨x,hx,hxa⟩ := h.token ha
    simp only [hb]
    refine ⟨fun t' x' => ?_,fun a' t' => ?_,fun a' b' => ?_,fun b' a' => ?_,fun b' as has => ?_,rfl⟩
    · rw [DashMap.get_remove]
      by_cases ht : t' = t
      · subst ht
        simp [hx]
        rintro rfl
        exact hxa
      · rw [if_neg ht]
        exact ⟨fun hx' => ⟨hx',fun hxa' => ht (h.token_inj hx' hx (hxa'.trans hxa.symm))⟩,And.left⟩
    · rw [DashMap.get_remove]
      by_cases he : a' = a <;> simp [he]
    · rw [DashMap.get_remove]
      by_cases he : a' = a <;> simp [he]
    · unfold Lists
      simp only [DashMap.get_modify]
      by_cases he : b' = b
      · subst he
        simp only [if_true,Option.map_eq_some_iff]
        constructor
        · rintro ⟨_,⟨as,has,rfl⟩,hmem⟩
          rw [(h.nodup has).mem_erase_iff] at hmem
          exact ⟨⟨as,has,hmem.2⟩,hmem.1⟩
        · rintro ⟨⟨as,has,hmem⟩,hne⟩
          exact ⟨_,⟨as,has,rfl⟩,(h.nodup has).mem_erase_iff.mpr ⟨hne,hmem⟩⟩
      · rw [if_neg he]
        refine ⟨fun hl => ⟨hl,?_⟩,And.left⟩
        rintro rfl
        exact he (h.browser_inj hl (h.lists.mpr hb))
    · simp only [DashMap.get_modify] at has
      by_cases he : b' = b
      · subst he
        rw [if_pos rfl,Option.map_eq_some_iff] at has
        obtain ⟨as₀,has₀,rfl⟩ := has
        exact (h.nodup has₀).erase a
      · rw [if_neg he] at has
        exact h.nodup has

section DropAccount

variable (s : SessionStore) (a a' : AccountId)

@[simp] theorem browsers_dropAccount : (s.dropAccount a).browsers = s.browsers := by
  unfold dropAccount
  dsimp only
  cases s.accountToSession.get a <;> rfl

@[simp] theorem timeout_dropAccount : (s.dropAccount a).timeout = s.timeout := by
  unfold dropAccount
  dsimp only
  cases s.accountToSession.get a <;> rfl

theorem accountToSession_dropAccount : (s.dropAccount a).accountToSession.get a' =
    if a' = a then none else s.accountToSession.get a' := by
  unfold dropAccount
  dsimp only
  cases ha : s.accountToSession.get a with
  | none => by_cases he : a' = a <;> simp [he,ha]
  | some t => simp

theorem accountToBrowser_dropAccount : (s.dropAccount a).accountToBrowser.get a' =
    if a' = a then none else s.accountToBrowser.get a' := by
  unfold dropAccount
  dsimp only
  cases s.accountToSession.get a <;> simp

theorem sessions_dropAccount (t : SessionId) : (s.dropAccount a).sessions.get t =
    if s.accountToSession.get a = some t then none else s.sessions.get t := by
  unfold dropAccount
  dsimp only
  cases s.accountToSession.get a with
  | none => simp
  | some t' => simp [eq_comm]

end DropAccount

/-- What dropping accounts one after the other leaves. -/
theorem foldl_dropAccount (l : List AccountId) (s : SessionStore) :
    let s' := l.foldl dropAccount s
    s'.browsers = s.browsers ∧ s'.timeout = s.timeout ∧
      (∀ a t, s'.accountToSession.get a = some t ↔ s.accountToSession.get a = some t ∧ a ∉ l) ∧
      (∀ a b, s'.accountToBrowser.get a = some b ↔ s.accountToBrowser.get a = some b ∧ a ∉ l) ∧
      ∀ t x, s'.sessions.get t = some x ↔
        s.sessions.get t = some x ∧ ∀ a ∈ l, s.accountToSession.get a ≠ some t := by
  induction l generalizing s with
  | nil => exact ⟨rfl,rfl,by simp,by simp,by simp⟩
  | cons a l ih =>
    obtain ⟨h1,h2,h3,h4,h5⟩ := ih (s.dropAccount a)
    refine ⟨h1.trans (by simp),h2.trans (by simp),fun a' t => ?_,fun a' b => ?_,fun t x => ?_⟩
    · rw [List.foldl_cons,h3,accountToSession_dropAccount]
      by_cases he : a' = a <;> simp [he]
    · rw [List.foldl_cons,h4,accountToBrowser_dropAccount]
      by_cases he : a' = a <;> simp [he]
    · rw [List.foldl_cons,h5,sessions_dropAccount,List.forall_mem_cons]
      by_cases hat : s.accountToSession.get a = some t
      · simp [hat]
      · rw [if_neg hat]
        refine and_congr_right (fun _ => ⟨fun hl => ⟨hat,fun a' ha' => ?_⟩,fun hl a' ha' => ?_⟩)
        · by_cases he : a' = a
          · exact he ▸ hat
          · simpa [accountToSession_dropAccount,he] using hl a' ha'
        · rw [accountToSession_dropAccount]
          split
          · simp
          · exact hl.2 a' ha'

theorem without_removeBrowser (h : s.Coherent) (b : BrowserId) :
    Without (s.Lists b) s (s.removeBrowser b) := by
  unfold removeBrowser
  cases hb : s.browsers.get b with
  | none =>
    have hl : ∀ a, ¬s.Lists b a := by
      rintro a ⟨_,hb',-⟩
      simp [hb] at hb'
    exact ⟨by simp [hl],by simp [hl],by simp [hl],by simp [hl],fun _ _ => h.nodup,rfl⟩
  | some accounts =>
    have hl : ∀ a, s.Lists b a ↔ a ∈ accounts := by
      intro a
      constructor
      · rintro ⟨_,hb',ha⟩
        obtain rfl := Option.some.inj (hb.symm.trans hb')
        exact ha
      · exact fun ha => ⟨accounts,hb,ha⟩
    obtain ⟨h1,h2,h3,h4,h5⟩ :=
      foldl_dropAccount accounts { s with browsers := s.browsers.remove b }
    refine ⟨fun t x => ?_,fun a t => by rw [hl]; exact h3 a t,fun a b' => by rw [hl]; exact h4 a b',
      fun b' a => ?_,fun b' as has => ?_,h2⟩
    · rw [hl]
      refine (h5 t x).trans (and_congr_right (fun hx => ⟨fun hall ha => ?_,fun hn a ha hat => ?_⟩))
      · exact hall _ ha (h.session hx)
      · obtain ⟨x',hx',rfl⟩ := h.token hat
        obtain rfl := Option.some.inj (hx.symm.trans hx')
        exact hn ha
    · have hlist : (accounts.foldl dropAccount { s with browsers := s.browsers.remove b }).Lists b' a ↔
          b' ≠ b ∧ s.Lists b' a := by
        unfold Lists
        rw [h1]
        by_cases he : b' = b <;> simp [he]
      rw [hlist]
      constructor
      · rintro ⟨hne,hl'⟩
        exact ⟨hl',fun hlb => hne (h.browser_inj hl' hlb)⟩
      · rintro ⟨hl',hn⟩
        refine ⟨?_,hl'⟩
        rintro rfl
        exact hn hl'
    · rw [h1,DashMap.get_remove] at has
      split at has
      · exact nomatch has
      · exact h.nodup has

/-- The account has a session that has been idle for longer than the timeout. -/
def Expired (s : SessionStore) (now : Nat) (a : AccountId) : Prop :=
  ∃ t x, s.sessions.get t = some x ∧ x.accountId = a ∧ s.timeout < now - x.lastAccessed

theorem without_purgeExpired (h : s.Coherent) (now : Nat) :
    Without (s.Expired now) s (s.purgeExpired now) := by
  have heff : ∀ {t x}, s.sessions.get t = some x → s.effectiveTimeout x = s.timeout := by
    intro t x hx
    rw [effectiveTimeout,h.override hx,Option.getD_none]
  set alive := fun (x : AccountSession) => decide (now - x.lastAccessed ≤ s.effectiveTimeout x)
    with halive
  set accounts := (s.sessions.iter.filter (fun e => !alive e.2)).map (fun e => e.2.accountId)
    with hacc
  have hmem : ∀ a, a ∈ accounts ↔ s.Expired now a := by
    intro a
    simp only [hacc,List.mem_map,List.mem_filter]
    constructor
    · rintro ⟨⟨t,x⟩,⟨hx,he⟩,rfl⟩
      have hx := DashMap.get_eq_some.mpr hx
      simp only [halive,heff hx,Bool.not_eq_true',decide_eq_false_iff_not,Nat.not_le] at he
      exact ⟨t,x,hx,rfl,he⟩
    · rintro ⟨t,x,hx,rfl,he⟩
      refine ⟨(t,x),⟨DashMap.get_eq_some.mp hx,?_⟩,rfl⟩
      simpa only [halive,heff hx,Bool.not_eq_true',decide_eq_false_iff_not,Nat.not_le] using he
  have hw := @without_evict s h (s.sessions.retain (fun _ x => if alive x then some x else none))
    accounts (fun t x => ?_)
  · have hD : (· ∈ accounts) = s.Expired now := funext (fun a => propext (hmem a))
    rw [hD] at hw
    exact hw
  · rw [DashMap.get_retain,Option.bind_eq_some_iff,hmem]
    constructor
    · rintro ⟨x',hx,he⟩
      split at he
      · next hal =>
        obtain rfl := Option.some.inj he
        refine ⟨hx,?_⟩
        rintro ⟨t',x'',hx'',ha,hexp⟩
        obtain rfl := h.token_inj hx hx'' ha.symm
        obtain rfl := Option.some.inj (hx.symm.trans hx'')
        simp only [halive,heff hx,decide_eq_true_eq] at hal
        omega
      · exact nomatch he
    · rintro ⟨hx,hne⟩
      refine ⟨x,hx,if_pos ?_⟩
      simp only [halive,heff hx,decide_eq_true_eq]
      by_contra hlt
      exact hne ⟨t,x,hx,rfl,Nat.not_le.mp hlt⟩

end SessionStore

end Rav
