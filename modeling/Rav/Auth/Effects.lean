import Rav.Sessions

/-!
# The session store, one browser at a time

What an operation does to the bindings of one browser depends on those bindings alone: the store is a
family of independent lists of accounts, one for each browser. Two stores that agree on a browser still
agree on it after any operation they both carry out.

## Main definitions

- `SessionStore.accountsOf` — the accounts of a browser in the order of their logins
- `SessionOp.effect` — what an operation does to the bindings of a browser
- `SessionStore.Alike` — two stores agree on a browser
-/

namespace Rav

/-- The session a login makes under a token. -/
def SessionOp.issued (hmacSha256 : String → String → List UInt8) (t : SessionId) :
    SessionOp → Option AccountSession
  | .addAccountToBrowser token accountId now _ email password userHash imap smtp =>
    if token = t then
      some { accountId, email, password, userHash
             imapHost := imap.host, imapPort := imap.port, imapTls := imap.tls
             smtpHost := smtp.host, smtpPort := smtp.port, smtpTls := smtp.tls
             lastAccessed := now, timeoutOverride := none
             folderKey := deriveFolderKey hmacSha256 token }
    else none
  | _ => none

/-- The bindings of one browser. -/
abbrev Bindings := AccountId → SessionId → AccountSession → Prop

/-- What an operation makes of the bindings of the browser `b`. -/
def SessionOp.effect (hmacSha256 : String → String → List UInt8) (timeout : Nat) (b : BrowserId)
    (B : Bindings) : SessionOp → Bindings
  | .addAccountToBrowser token accountId now browserId email password userHash imap smtp => fun a t x =>
    B a t x ∨ browserId = b ∧ accountId = a ∧
      (SessionOp.addAccountToBrowser token accountId now browserId email password userHash imap smtp).issued
        hmacSha256 t = some x
  | .getAccountSession browserId accountId token now => fun a t x =>
    ∃ y, B a t y ∧ if browserId = b ∧ accountId = a ∧ token = t then
      now - y.lastAccessed ≤ timeout ∧ x = { y with lastAccessed := now } else x = y
  | .get token now => fun a t x =>
    ∃ y, B a t y ∧ if token = t then
      now - y.lastAccessed ≤ timeout ∧ x = { y with lastAccessed := now } else x = y
  | .removeAccount accountId => fun a t x => B a t x ∧ a ≠ accountId
  | .removeBrowser browserId => fun a t x => B a t x ∧ b ≠ browserId
  | .purgeExpired now => fun a t x => B a t x ∧ now - x.lastAccessed ≤ timeout
  | .createBrowser _ => B
  | .evictAccount _ => B

/-- The account an operation adds to the list of a browser. -/
def SessionOp.adds (b : BrowserId) : SessionOp → List AccountId
  | .addAccountToBrowser _ accountId _ browserId .. => if browserId = b then [accountId] else []
  | _ => []

namespace SessionStore

variable {hmacSha256 : String → String → List UInt8} {s u : SessionStore} {b b' : BrowserId}
  {a a' : AccountId} {t t' : SessionId} {n : Nat} {x : AccountSession}

/-! ### Bindings -/

theorem binding_get_iff (h : s.Coherent) : (s.get t' n).2.Binding b a t x ↔
    ∃ y, s.Binding b a t y ∧ if t' = t then
      n - y.lastAccessed ≤ s.timeout ∧ x = { y with lastAccessed := n } else x = y := by
  cases hz : s.sessions.get t' with
  | none =>
    rw [get_none hz]
    constructor
    · intro hx
      refine ⟨x, hx, ?_⟩
      rw [if_neg]
      rintro rfl
      exact absurd (hz.symm.trans hx.2.2) (by simp)
    · rintro ⟨y, hy, hxy⟩
      rw [if_neg] at hxy
      · rw [hxy]
        exact hy
      · rintro rfl
        exact absurd (hz.symm.trans hy.2.2) (by simp)
  | some z =>
    by_cases hlive : n - z.lastAccessed ≤ s.timeout
    · rw [get_live h hz hlive, binding_touch]
      refine exists_congr (fun y => and_congr_right (fun hy => ?_))
      by_cases ht : t = t'
      · subst ht
        obtain rfl := Option.some.inj (hz.symm.trans hy.2.2)
        rw [if_pos rfl, if_pos rfl]
        exact ⟨fun hx => ⟨hlive, hx⟩, And.right⟩
      · rw [if_neg ht, if_neg (Ne.symm ht)]
    · rw [(get_expired h hz (Nat.not_le.mp hlive)).2.binding h]
      -- the account that goes is the one of the token
      have hkey : ∀ y, s.Binding b a t y → (a = z.accountId ↔ t' = t) := by
        intro y hy
        constructor
        · rintro rfl
          exact h.token_inj hz hy.2.2 (h.accountId hy).symm
        · rintro rfl
          obtain rfl := Option.some.inj (hz.symm.trans hy.2.2)
          exact (h.accountId hy).symm
      constructor
      · rintro ⟨hx, hne⟩
        exact ⟨x, hx, by rw [if_neg (fun ht => hne ((hkey x hx).mpr ht))]⟩
      · rintro ⟨y, hy, hxy⟩
        split at hxy
        · next ht =>
          subst ht
          obtain rfl := Option.some.inj (hz.symm.trans hy.2.2)
          exact absurd hxy.1 hlive
        · next ht =>
          rw [hxy]
          exact ⟨hy, fun ha => ht ((hkey y hy).mp ha)⟩

theorem binding_getAccountSession_iff (h : s.Coherent) : (s.getAccountSession b' a' t' n).2.Binding b a t x ↔
    ∃ y, s.Binding b a t y ∧ if b' = b ∧ a' = a ∧ t' = t then
      n - y.lastAccessed ≤ s.timeout ∧ x = { y with lastAccessed := n } else x = y := by
  by_cases hb : s.Lists b' a' ∧ s.accountToSession.get a' = some t'
  · rw [getAccountSession_of_bound hb.1 hb.2, binding_get_iff h]
    refine exists_congr (fun y => and_congr_right (fun hy => ?_))
    have hkey : t' = t ↔ b' = b ∧ a' = a ∧ t' = t := by
      constructor
      · rintro rfl
        obtain ⟨z, hz, rfl⟩ := h.token hb.2
        obtain rfl := Option.some.inj (hz.symm.trans hy.2.2)
        obtain rfl := h.accountId hy
        exact ⟨h.browser_inj hb.1 hy.1, rfl, rfl⟩
      · exact fun heq => heq.2.2
    by_cases ht : t' = t
    · rw [if_pos ht, if_pos (hkey.mp ht)]
    · rw [if_neg ht, if_neg (fun heq => ht (hkey.mpr heq))]
  · rw [getAccountSession_of_unbound hb]
    have hne : ∀ y, s.Binding b a t y → ¬(b' = b ∧ a' = a ∧ t' = t) := by
      rintro y hy ⟨rfl, rfl, rfl⟩
      exact hb ⟨hy.1, hy.2.1⟩
    constructor
    · intro hx
      exact ⟨x, hx, by rw [if_neg (hne x hx)]⟩
    · rintro ⟨y, hy, hxy⟩
      rw [if_neg (hne y hy)] at hxy
      rw [hxy]
      exact hy

theorem binding_addAccountToBrowser_iff (h : s.Coherent) {email password userHash : String}
    {imap smtp : ServerEndpoint} (ht : s.sessions.get t' = none) (ha : s.accountToSession.get a' = none) :
    (s.addAccountToBrowser hmacSha256 t' a' n b' email password userHash imap smtp).Binding b a t x ↔
      s.Binding b a t x ∨ b' = b ∧ a' = a ∧
        (SessionOp.addAccountToBrowser t' a' n b' email password userHash imap smtp).issued hmacSha256 t =
          some x := by
  by_cases hthis : b' = b ∧ a' = a ∧ t' = t
  · obtain ⟨rfl, rfl, rfl⟩ := hthis
    have hnew : ¬s.Binding b' a' t' x := fun hx => h.not_lists ha hx.1
    rw [Binding, lists_addAccountToBrowser, addAccountToBrowser, DashMap.get_insert, DashMap.get_insert,
      if_pos rfl, if_pos rfl, SessionOp.issued, if_pos rfl]
    constructor
    · rintro ⟨-, -, hx⟩
      exact Or.inr ⟨rfl, rfl, hx⟩
    · rintro (hx | ⟨-, -, hx⟩)
      · exact absurd hx hnew
      · exact ⟨Or.inr ⟨rfl, rfl⟩, rfl, hx⟩
  · rw [binding_addAccountToBrowser_of_ne h ht ha hthis]
    constructor
    · exact Or.inl
    · rintro (hx | ⟨hb, hacc, hx⟩)
      · exact hx
      · rw [SessionOp.issued] at hx
        split at hx
        · next htok => exact absurd ⟨hb, hacc, htok⟩ hthis
        · exact absurd hx.symm (Option.some_ne_none x)

/-- After an operation a browser's bindings are what the operation makes of its bindings before. -/
theorem binding_apply_iff (h : s.Coherent) {op : SessionOp} (hp : op.Proper s) :
    (op.apply hmacSha256 s).Binding b a t x ↔ op.effect hmacSha256 s.timeout b (s.Binding b) a t x := by
  cases op with
  | createBrowser b' =>
    rw [SessionOp.apply, SessionOp.effect, Binding, lists_createBrowser hp.1]
    rfl
  | addAccountToBrowser => exact binding_addAccountToBrowser_iff h hp.1.1 hp.1.2
  | getAccountSession => exact binding_getAccountSession_iff h
  | get => exact binding_get_iff h
  | removeAccount a' => exact (without_removeAccount h a').binding h
  | removeBrowser b' =>
    rw [SessionOp.apply, (without_removeBrowser h b').binding h]
    refine and_congr_right (fun hx => not_congr ⟨fun hl => h.browser_inj hx.1 hl, ?_⟩)
    rintro rfl
    exact hx.1
  | evictAccount a' =>
    rw [SessionOp.apply, (without_evictAccount h hp.2).binding h]
    refine ⟨And.left, fun hx => ⟨hx, ?_⟩⟩
    rintro rfl
    exact hp.2 _ (DashMap.get_eq_some.mp hx.2.2) (h.accountId hx)
  | purgeExpired n =>
    rw [SessionOp.apply, (without_purgeExpired h n).binding h]
    refine and_congr_right (fun hx => ?_)
    rw [← Nat.not_lt]
    refine not_congr ⟨?_, fun hexp => ⟨t, x, hx.2.2, h.accountId hx, hexp⟩⟩
    rintro ⟨t', y, hy, hya, hexp⟩
    obtain rfl := h.token_inj hx.2.2 hy ((h.accountId hx).trans hya.symm)
    obtain rfl := Option.some.inj (hx.2.2.symm.trans hy)
    exact hexp

/-! ### The order of a browser's accounts -/

/-- The accounts of a browser in the order of their logins. -/
def accountsOf (s : SessionStore) (b : BrowserId) : List AccountId := (s.browsers.get b).getD []

theorem mem_accountsOf : a ∈ s.accountsOf b ↔ s.Lists b a := by
  rw [accountsOf, Lists]
  cases s.browsers.get b with
  | none => simp
  | some accounts => simp

theorem accountsOf_evictAccount : (s.evictAccount a).accountsOf b = (s.accountsOf b).filter (· ≠ a) := by
  rw [accountsOf, accountsOf, evictAccount, DashMap.get_retain]
  cases s.browsers.get b with
  | none => rfl
  | some accounts =>
    rw [Option.bind_some, Option.getD_some]
    dsimp only
    split
    · next hempty => exact (List.isEmpty_iff.mp hempty).symm
    · rfl

theorem accountsOf_foldl_evictAccount (l : List AccountId) (s : SessionStore) :
    (l.foldl evictAccount s).accountsOf b = (s.accountsOf b).filter (· ∉ l) := by
  induction l generalizing s with
  | nil => simp
  | cons a l ih =>
    rw [List.foldl_cons, ih, accountsOf_evictAccount, List.filter_filter]
    congr 1
    funext a'
    by_cases ha : a' = a
    · simp [ha]
    · simp [ha]

theorem exists_filter_get : ∃ p, (s.get t n).2.accountsOf b = (s.accountsOf b).filter p := by
  have hall : s.accountsOf b = (s.accountsOf b).filter (fun _ => true) := (List.filter_true _).symm
  rw [get]
  cases s.sessions.get t with
  | none => exact ⟨_, hall⟩
  | some entry =>
    dsimp only
    split
    · exact ⟨_, accountsOf_evictAccount⟩
    · exact ⟨_, hall⟩

theorem exists_filter_removeAccount (h : s.Coherent) :
    ∃ p, (s.removeAccount a).2.accountsOf b = (s.accountsOf b).filter p := by
  have hall : s.accountsOf b = (s.accountsOf b).filter (fun _ => true) := (List.filter_true _).symm
  rw [removeAccount]
  cases s.accountToSession.get a with
  | none => exact ⟨_, hall⟩
  | some sessionId =>
    dsimp only
    cases s.accountToBrowser.get a with
    | none => exact ⟨_, hall⟩
    | some browserId =>
      rw [accountsOf, DashMap.get_modify]
      by_cases hb : b = browserId
      · rw [if_pos hb, accountsOf]
        cases haccounts : s.browsers.get b with
        | none => exact ⟨fun _ => true, rfl⟩
        | some accounts => exact ⟨_, (h.nodup haccounts).erase_eq_filter a⟩
      · rw [if_neg hb]
        exact ⟨_, hall⟩

theorem exists_filter_removeBrowser : ∃ p, (s.removeBrowser b').accountsOf b = (s.accountsOf b).filter p := by
  have hall : s.accountsOf b = (s.accountsOf b).filter (fun _ => true) := (List.filter_true _).symm
  rw [removeBrowser]
  cases hb' : s.browsers.get b' with
  | none => exact ⟨_, hall⟩
  | some accounts =>
    have hbrowsers := (foldl_dropAccount accounts { s with browsers := s.browsers.remove b' }).1
    by_cases hb : b = b'
    · refine ⟨fun _ => false, ?_⟩
      rw [accountsOf, hbrowsers, DashMap.get_remove, if_pos hb, List.filter_false]
      rfl
    · refine ⟨fun _ => true, ?_⟩
      rw [accountsOf, hbrowsers, DashMap.get_remove, if_neg hb]
      exact hall

/-- An operation takes accounts out of a browser's list and adds at the end. -/
theorem exists_filter_apply (h : s.Coherent) {op : SessionOp} (hp : op.Proper s) (b : BrowserId) :
    ∃ p, (op.apply hmacSha256 s).accountsOf b = (s.accountsOf b).filter p ++ op.adds b := by
  have hall : s.accountsOf b = (s.accountsOf b).filter (fun _ => true) := (List.filter_true _).symm
  have hnone : ∀ {l : List AccountId}, (∃ p, l = (s.accountsOf b).filter p) →
      ∃ p, l = (s.accountsOf b).filter p ++ [] := by
    rintro l ⟨p, hl⟩
    exact ⟨p, by rw [List.append_nil, hl]⟩
  cases op with
  | createBrowser b' =>
    refine hnone ⟨fun _ => true, ?_⟩
    rw [SessionOp.apply, accountsOf, createBrowser, DashMap.get_insert]
    by_cases hb : b = b'
    · rw [if_pos hb, ← hall, accountsOf, hb, hp.1]
      rfl
    · rw [if_neg hb]
      exact hall
  | addAccountToBrowser token accountId now b' =>
    refine ⟨fun _ => true, ?_⟩
    rw [SessionOp.apply, SessionOp.adds, ← hall, accountsOf, addAccountToBrowser, DashMap.get_insert]
    by_cases hb : b = b'
    · rw [if_pos hb, if_pos hb.symm, accountsOf, hb]
      rfl
    · rw [if_neg hb, if_neg (Ne.symm hb), List.append_nil]
      rfl
  | getAccountSession b' a' t' n =>
    apply hnone
    by_cases hb : s.Lists b' a' ∧ s.accountToSession.get a' = some t'
    · rw [SessionOp.apply, getAccountSession_of_bound hb.1 hb.2]
      exact exists_filter_get
    · rw [SessionOp.apply, getAccountSession_of_unbound hb]
      exact ⟨_, hall⟩
  | get => exact hnone exists_filter_get
  | removeAccount => exact hnone (exists_filter_removeAccount h)
  | removeBrowser => exact hnone exists_filter_removeBrowser
  | evictAccount => exact hnone ⟨_, accountsOf_evictAccount⟩
  | purgeExpired => exact hnone ⟨_, accountsOf_foldl_evictAccount _ _⟩

/-! ### Two stores that agree on a browser -/

/-- Two stores agree on a browser: its accounts in order, with their tokens and sessions. -/
structure Alike (b : BrowserId) (s u : SessionStore) : Prop where
  timeout : s.timeout = u.timeout
  accounts : s.accountsOf b = u.accountsOf b
  binding : ∀ a t x, s.Binding b a t x ↔ u.Binding b a t x

theorem Alike.refl (b : BrowserId) (s : SessionStore) : Alike b s s :=
  ⟨rfl, rfl, fun _ _ _ => Iff.rfl⟩

theorem Alike.symm (h : Alike b s u) : Alike b u s :=
  ⟨h.timeout.symm, h.accounts.symm, fun a t x => (h.binding a t x).symm⟩

theorem Alike.trans {v : SessionStore} (h : Alike b s u) (h' : Alike b u v) : Alike b s v :=
  ⟨h.timeout.trans h'.timeout, h.accounts.trans h'.accounts,
    fun a t x => (h.binding a t x).trans (h'.binding a t x)⟩

theorem lists_iff_binding (h : s.Coherent) : s.Lists b a ↔ ∃ t x, s.Binding b a t x := by
  constructor
  · intro hl
    obtain ⟨t, ht⟩ := h.bound.mp ⟨b, h.lists.mp hl⟩
    obtain ⟨x, hx, -⟩ := h.token ht
    exact ⟨t, x, hl, ht, hx⟩
  · rintro ⟨t, x, hx⟩
    exact hx.1

/-- Lists that are filtered from one list have its order. -/
theorem filter_eq_of_mem {α : Type} {l : List α} {p q : α → Bool}
    (h : ∀ c, c ∈ l.filter p ↔ c ∈ l.filter q) : l.filter p = l.filter q := by
  apply List.filter_congr
  intro c hc
  have hiff := h c
  rw [List.mem_filter, List.mem_filter] at hiff
  have hpq : p c = true ↔ q c = true := by
    constructor
    · exact fun hp => (hiff.mp ⟨hc, hp⟩).2
    · exact fun hq => (hiff.mpr ⟨hc, hq⟩).2
  exact Bool.eq_iff_iff.mpr hpq

/-- Both stores carry out the operation. -/
theorem Alike.apply (h : Alike b s u) (hs : s.Coherent) (hu : u.Coherent) {op : SessionOp}
    (hps : op.Proper s) (hpu : op.Proper u) :
    Alike b (op.apply hmacSha256 s) (op.apply hmacSha256 u) := by
  have hbinding : ∀ a t x, (op.apply hmacSha256 s).Binding b a t x ↔
      (op.apply hmacSha256 u).Binding b a t x := by
    intro a t x
    have hB : s.Binding b = u.Binding b := by
      funext a t x
      exact propext (h.binding a t x)
    rw [binding_apply_iff hs hps, binding_apply_iff hu hpu, hB, h.timeout]
  refine ⟨?_, ?_, hbinding⟩
  · rw [timeout_apply hs hps, timeout_apply hu hpu]
    exact h.timeout
  · obtain ⟨p, hp⟩ := @exists_filter_apply hmacSha256 s hs op hps b
    obtain ⟨q, hq⟩ := @exists_filter_apply hmacSha256 u hu op hpu b
    rw [← h.accounts] at hq
    have hmem : ∀ c, c ∈ (op.apply hmacSha256 s).accountsOf b ↔
        c ∈ (op.apply hmacSha256 u).accountsOf b := by
      intro c
      rw [mem_accountsOf, mem_accountsOf, lists_iff_binding (coherent_apply hs hps),
        lists_iff_binding (coherent_apply hu hpu)]
      simp only [hbinding]
    -- what a login adds is not in the list yet
    have hadds : ∀ c ∈ op.adds b, c ∉ s.accountsOf b := by
      intro c hc hold
      cases op with
      | addAccountToBrowser token accountId =>
        rw [SessionOp.adds] at hc
        split at hc
        · rw [List.mem_singleton.mp hc, mem_accountsOf] at hold
          exact hs.not_lists hps.1.2 hold
        · exact absurd hc List.not_mem_nil
      | _ => exact absurd hc List.not_mem_nil
    rw [hp, hq] at hmem ⊢
    congr 1
    apply filter_eq_of_mem
    intro c
    have hiff := hmem c
    rw [List.mem_append, List.mem_append] at hiff
    constructor
    · intro hc
      obtain hc' | hc' := hiff.mp (Or.inl hc)
      · exact hc'
      · exact absurd (List.mem_filter.mp hc).1 (hadds c hc')
    · intro hc
      obtain hc' | hc' := hiff.mpr (Or.inl hc)
      · exact hc'
      · exact absurd (List.mem_filter.mp hc).1 (hadds c hc')

/-- An operation that leaves the bindings of a browser alone leaves the order of its accounts alone. -/
theorem alike_apply (h : s.Coherent) {op : SessionOp} (hp : op.Proper s)
    (heffect : ∀ a t x, op.effect hmacSha256 s.timeout b (s.Binding b) a t x ↔ s.Binding b a t x)
    (hadds : op.adds b = []) : Alike b (op.apply hmacSha256 s) s := by
  have hbinding : ∀ a t x, (op.apply hmacSha256 s).Binding b a t x ↔ s.Binding b a t x := by
    intro a t x
    rw [binding_apply_iff h hp, heffect]
  refine ⟨timeout_apply h hp, ?_, hbinding⟩
  obtain ⟨p, hp'⟩ := @exists_filter_apply hmacSha256 s h op hp b
  rw [hadds, List.append_nil] at hp'
  rw [hp', List.filter_eq_self]
  intro c hc
  have hmem : c ∈ (op.apply hmacSha256 s).accountsOf b := by
    rw [mem_accountsOf, lists_iff_binding (coherent_apply h hp)]
    simp only [hbinding]
    exact (lists_iff_binding h).mp (mem_accountsOf.mp hc)
  rw [hp'] at hmem
  exact (List.mem_filter.mp hmem).2

/-- Stores that agree on a browser answer its lookups alike. -/
theorem Alike.getAccountSession (h : Alike b s u) (hs : s.Coherent) (hu : u.Coherent) :
    (s.getAccountSession b a t n).1 = (u.getAccountSession b a t n).1 := by
  apply Option.ext
  intro y
  rw [getAccountSession_eq_some hs, getAccountSession_eq_some hu, h.timeout]
  simp only [h.binding]

theorem Alike.getBrowserAccounts (h : Alike b s u) (hs : s.Coherent) :
    s.getBrowserAccounts b = u.getBrowserAccounts b := by
  have hlist : ∀ {s : SessionStore}, s.getBrowserAccounts b =
      (s.accountsOf b).filterMap (fun a => (s.accountToSession.get a).bind s.sessions.get) := rfl
  rw [hlist, hlist, ← h.accounts]
  apply List.filterMap_congr
  intro a ha
  obtain ⟨t, x, hx⟩ := (lists_iff_binding hs).mp (mem_accountsOf.mp ha)
  have hx' := (h.binding a t x).mp hx
  rw [hx.2.1, hx'.2.1, Option.bind_some, Option.bind_some, hx.2.2, hx'.2.2]

end SessionStore

end Rav
