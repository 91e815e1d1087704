import Rav.Runs
import Rav.Auth.SessionSpec

/-!
# Runs of the session store

The operations of the session store as the labels of a transition system, and for one binding
of an account and a token to a browser the time of its last access, as the operations alone
tell it. A run keeps the four maps coherent, and the store knows of each binding what its
history says.

## Main definitions

- `SessionOp`, `SessionOp.apply`, `SessionStore.step`
- `SessionOp.Fresh`, `SessionOp.Proper` — what is drawn at random is not in use
- `lastAccess` — the history of one binding
-/

namespace Rav

/-- One operation, with the clock it reads and the values it draws. -/
inductive SessionOp
  | createBrowser (browserId : BrowserId)
  | addAccountToBrowser (token : SessionId) (accountId : AccountId) (now : Nat)
      (browserId : BrowserId) (email password userHash : String) (imap smtp : ServerEndpoint)
  | getAccountSession (browserId : BrowserId) (accountId : AccountId) (token : SessionId) (now : Nat)
  | get (token : SessionId) (now : Nat)
  | removeAccount (accountId : AccountId)
  | removeBrowser (browserId : BrowserId)
  | evictAccount (accountId : AccountId)
  | purgeExpired (now : Nat)
  deriving DecidableEq, Repr

namespace SessionOp

/-- The clock the operation reads. -/
def time : SessionOp → Option Nat
  | .addAccountToBrowser _ _ now .. => some now
  | .getAccountSession _ _ _ now => some now
  | .get _ now => some now
  | .purgeExpired now => some now
  | _ => none

def apply (hmacSha256 : String → String → List UInt8) (s : SessionStore) :
    SessionOp → SessionStore
  | .createBrowser browserId => s.createBrowser browserId
  | .addAccountToBrowser token accountId now browserId email password userHash imap smtp =>
    s.addAccountToBrowser hmacSha256 token accountId now browserId email password userHash imap smtp
  | .getAccountSession browserId accountId token now =>
    (s.getAccountSession browserId accountId token now).2
  | .get token now => (s.get token now).2
  | .removeAccount accountId => (s.removeAccount accountId).2
  | .removeBrowser browserId => s.removeBrowser browserId
  | .evictAccount accountId => s.evictAccount accountId
  | .purgeExpired now => s.purgeExpired now

/-- Random tokens and ids are not in use. -/
def Fresh (s : SessionStore) : SessionOp → Prop
  | .createBrowser browserId => s.browsers.get browserId = none
  | .addAccountToBrowser token accountId .. =>
    s.sessions.get token = none ∧ s.accountToSession.get accountId = none
  | _ => True

/-- The private `evict_account` runs for an account whose session has been taken out. -/
def Settled (s : SessionStore) : SessionOp → Prop
  | .evictAccount accountId => ∀ e ∈ s.sessions.iter, e.2.accountId ≠ accountId
  | _ => True

def Proper (s : SessionStore) (op : SessionOp) : Prop := op.Fresh s ∧ op.Settled s

instance (s : SessionStore) (op : SessionOp) : Decidable (op.Fresh s) := by
  cases op <;> unfold Fresh <;> infer_instance

instance (s : SessionStore) (op : SessionOp) : Decidable (op.Settled s) := by
  cases op <;> unfold Settled <;> infer_instance

instance (s : SessionStore) (op : SessionOp) : Decidable (op.Proper s) :=
  inferInstanceAs (Decidable (_ ∧ _))

end SessionOp

def SessionStore.step (hmacSha256 : String → String → List UInt8) (s : SessionStore)
    (op : SessionOp) : Option SessionStore :=
  some (op.apply hmacSha256 s)

/-- What one operation makes of the last access of the binding of `a` and `t` to `b`: `none`
where it is not bound, is removed, or has been found idle for too long. -/
def lastAccess (timeout : Nat) (b : BrowserId) (a : AccountId) (t : SessionId) :
    Option Nat → SessionOp → Option Nat
  | l, .addAccountToBrowser token accountId now browserId .. =>
    if browserId = b ∧ accountId = a ∧ token = t then some now else l
  | l, .getAccountSession browserId accountId token now =>
    if browserId = b ∧ accountId = a ∧ token = t then
      if l.any (now - · ≤ timeout) then some now else none
    else l
  | l, .get token now =>
    if token = t then if l.any (now - · ≤ timeout) then some now else none else l
  | l, .removeAccount accountId => if accountId = a then none else l
  | l, .removeBrowser browserId => if browserId = b then none else l
  | l, .purgeExpired now => l.filter (now - · ≤ timeout)
  | l, .createBrowser _ => l
  | l, .evictAccount _ => l

namespace SessionStore

variable {hmacSha256 : String → String → List UInt8} {s s' : SessionStore}
  {b b' : BrowserId} {a a' : AccountId} {t t' : SessionId} {now : Nat}

/-! ### Operations that add -/

theorem lists_createBrowser (hb : s.browsers.get b' = none) :
    (s.createBrowser b').Lists b a ↔ s.Lists b a := by
  unfold Lists createBrowser
  by_cases he : b = b'
  · simp [he,hb]
  · simp [he]

theorem coherent_createBrowser (h : s.Coherent) (hb : s.browsers.get b' = none) :
    (s.createBrowser b').Coherent where
  session := h.session
  token := h.token
  lists := (lists_createBrowser hb).trans h.lists
  bound := h.bound
  nodup hl := by
    unfold createBrowser at hl
    rw [DashMap.get_insert] at hl
    split at hl
    · obtain rfl := Option.some.inj hl
      exact List.nodup_nil
    · exact h.nodup hl
  override := h.override

/-- An account without a session is not listed. -/
theorem Coherent.not_lists (h : s.Coherent) (ha : s.accountToSession.get a = none) :
    ¬s.Lists b a := by
  intro hl
  obtain ⟨t,ht⟩ := h.bound.mp ⟨b,h.lists.mp hl⟩
  simp [ha] at ht

section AddAccount

variable {email password userHash : String} {imap smtp : ServerEndpoint}

theorem lists_addAccountToBrowser :
    (s.addAccountToBrowser hmacSha256 t' a' now b' email password userHash imap smtp).Lists b a ↔
      s.Lists b a ∨ b = b' ∧ a = a' := by
  unfold Lists addAccountToBrowser
  simp only [DashMap.get_insert]
  by_cases he : b = b'
  · subst he
    cases s.browsers.get b <;> simp
  · simp [he]

theorem coherent_addAccountToBrowser (h : s.Coherent) (ht : s.sessions.get t' = none)
    (ha : s.accountToSession.get a' = none) :
    (s.addAccountToBrowser hmacSha256 t' a' now b' email password userHash imap smtp).Coherent where
  session hx := by
    unfold addAccountToBrowser at hx ⊢
    rw [DashMap.get_insert] at hx ⊢
    split at hx
    · next he =>
      obtain rfl := Option.some.inj hx
      simp [he]
    · have hid := h.session hx
      rw [if_neg]
      · exact hid
      · intro he
        simp [he,ha] at hid
  token hat := by
    unfold addAccountToBrowser at hat ⊢
    rw [DashMap.get_insert] at hat
    split at hat
    · next he =>
      obtain rfl := Option.some.inj hat
      exact ⟨_,by rw [DashMap.get_insert,if_pos rfl],he.symm⟩
    · obtain ⟨x,hx,rfl⟩ := h.token hat
      refine ⟨x,?_,rfl⟩
      rw [DashMap.get_insert,if_neg]
      · exact hx
      · rintro rfl
        simp [ht] at hx
  lists := by
    intro b a
    rw [lists_addAccountToBrowser]
    unfold addAccountToBrowser
    rw [DashMap.get_insert]
    by_cases he : a = a'
    · subst he
      simp [h.not_lists ha,eq_comm]
    · simp [he,h.lists]
  bound := by
    intro a
    unfold addAccountToBrowser
    simp only [DashMap.get_insert]
    by_cases he : a = a'
    · simp [he]
    · simp only [if_neg he]
      exact h.bound
  nodup hl := by
    unfold addAccountToBrowser at hl
    rw [DashMap.get_insert] at hl
    split at hl
    · next he =>
      obtain rfl := Option.some.inj hl
      cases hb : s.browsers.get b' with
      | none => simp
      | some accounts =>
        refine List.nodup_append.mpr ⟨h.nodup hb,List.nodup_singleton _,?_⟩
        rintro x hx y hy rfl
        rw [List.mem_singleton] at hy
        exact h.not_lists ha ⟨accounts,hb,hy ▸ hx⟩
    · exact h.nodup hl
  override hx := by
    unfold addAccountToBrowser at hx
    rw [DashMap.get_insert] at hx
    split at hx
    · obtain rfl := Option.some.inj hx
      rfl
    · exact h.override hx

end AddAccount

/-! ### Reading a session -/

/-- The session of `a` under the token `t` in the browser `b`. -/
def Binding (s : SessionStore) (b : BrowserId) (a : AccountId) (t : SessionId)
    (x : AccountSession) : Prop :=
  s.Lists b a ∧ s.accountToSession.get a = some t ∧ s.sessions.get t = some x

theorem Coherent.accountId (h : s.Coherent) {x : AccountSession} (hx : s.Binding b a t x) :
    x.accountId = a := by
  obtain ⟨y,hy,rfl⟩ := h.token hx.2.1
  obtain rfl := Option.some.inj (hy.symm.trans hx.2.2)
  rfl

/-- A token belongs to one binding. -/
theorem Coherent.binding_inj (h : s.Coherent) {x x' : AccountSession} (hx : s.Binding b a t x)
    (hx' : s.Binding b' a' t x') : b = b' ∧ a = a' ∧ x = x' := by
  obtain rfl := Option.some.inj (hx.2.2.symm.trans hx'.2.2)
  obtain rfl := (h.accountId hx).symm.trans (h.accountId hx')
  exact ⟨h.browser_inj hx.1 hx'.1,rfl,rfl⟩

theorem getAccountSession_of_bound (hl : s.Lists b a) (ha : s.accountToSession.get a = some t)
    (now : Nat) : s.getAccountSession b a t now = s.get t now := by
  obtain ⟨accounts,hb,hmem⟩ := hl
  simp [getAccountSession,hb,hmem,ha]

theorem getAccountSession_of_unbound (h : ¬(s.Lists b a ∧ s.accountToSession.get a = some t))
    (now : Nat) : s.getAccountSession b a t now = (none,s) := by
  unfold getAccountSession
  cases hb : s.browsers.get b with
  | none => rfl
  | some accounts =>
    dsimp only
    split
    · rfl
    · next hmem =>
      cases ha : s.accountToSession.get a with
      | none => rfl
      | some t' =>
        dsimp only
        refine if_pos ?_
        rintro rfl
        exact h ⟨⟨accounts,hb,not_not.mp hmem⟩,ha⟩

/-- The session handed out is the one bound, touched, and it is handed out while it is live. -/
theorem getAccountSession_eq_some (h : s.Coherent) {y : AccountSession} :
    (s.getAccountSession b a t now).1 = some y ↔
      ∃ x, s.Binding b a t x ∧ now - x.lastAccessed ≤ s.timeout ∧
        y = { x with lastAccessed := now } := by
  by_cases hb : s.Lists b a ∧ s.accountToSession.get a = some t
  · obtain ⟨x,hx,hxa⟩ := h.token hb.2
    rw [getAccountSession_of_bound hb.1 hb.2]
    by_cases hlive : now - x.lastAccessed ≤ s.timeout
    · rw [get_live h hx hlive]
      constructor
      · rintro hy
        exact ⟨x,⟨hb.1,hb.2,hx⟩,hlive,(Option.some.inj hy).symm⟩
      · rintro ⟨x',hx',-,rfl⟩
        rw [Option.some.inj (hx.symm.trans hx'.2.2)]
    · rw [(get_expired h hx (Nat.not_le.mp hlive)).1]
      refine ⟨fun hy => (nomatch hy),?_⟩
      rintro ⟨x',hx',hl,-⟩
      obtain rfl := Option.some.inj (hx.symm.trans hx'.2.2)
      exact absurd hl hlive
  · rw [getAccountSession_of_unbound hb]
    exact ⟨fun hy => (nomatch hy),fun ⟨_,hx,_⟩ => absurd ⟨hx.1,hx.2.1⟩ hb⟩

theorem Without.binding {D : AccountId → Prop} (hw : Without D s s') (h : s.Coherent)
    {x : AccountSession} : s'.Binding b a t x ↔ s.Binding b a t x ∧ ¬D a := by
  unfold Binding
  rw [hw.lists,hw.accountToSession,hw.sessions]
  constructor
  · rintro ⟨⟨hl,hD⟩,⟨ha,-⟩,hx,-⟩
    exact ⟨⟨hl,ha,hx⟩,hD⟩
  · rintro ⟨hx,hD⟩
    exact ⟨⟨hx.1,hD⟩,⟨hx.2.1,hD⟩,hx.2.2,by rwa [h.accountId hx]⟩

theorem binding_touch {y : AccountSession} : (s.touch t' now).Binding b a t y ↔
    ∃ x, s.Binding b a t x ∧ y = if t = t' then { x with lastAccessed := now } else x := by
  unfold Binding
  rw [sessions_touch]
  constructor
  · rintro ⟨hl,ha,x,hx,rfl⟩
    exact ⟨x,⟨hl,ha,hx⟩,rfl⟩
  · rintro ⟨x,⟨hl,ha,hx⟩,rfl⟩
    exact ⟨hl,ha,x,hx,rfl⟩

theorem binding_addAccountToBrowser (s : SessionStore) (t' : SessionId) (a' : AccountId) (now : Nat)
    (b' : BrowserId) (email password userHash : String) (imap smtp : ServerEndpoint) :
    ∃ x, (s.addAccountToBrowser hmacSha256 t' a' now b' email password userHash imap smtp).Binding
      b' a' t' x ∧ x.lastAccessed = now := by
  obtain ⟨x,hx,hn⟩ : ∃ x, (s.addAccountToBrowser hmacSha256 t' a' now b' email password userHash
      imap smtp).sessions.get t' = some x ∧ x.lastAccessed = now := by
    unfold addAccountToBrowser
    rw [DashMap.get_insert,if_pos rfl]
    exact ⟨_,rfl,rfl⟩
  refine ⟨x,⟨lists_addAccountToBrowser.mpr (Or.inr ⟨rfl,rfl⟩),?_,hx⟩,hn⟩
  simp [addAccountToBrowser]

/-- The other bindings stay as they are. -/
theorem binding_addAccountToBrowser_of_ne {email password userHash : String}
    {imap smtp : ServerEndpoint} (h : s.Coherent) (ht : s.sessions.get t' = none)
    (ha : s.accountToSession.get a' = none) (hne : ¬(b' = b ∧ a' = a ∧ t' = t))
    {x : AccountSession} :
    (s.addAccountToBrowser hmacSha256 t' a' now b' email password userHash imap smtp).Binding b a t x ↔
      s.Binding b a t x := by
  unfold Binding
  rw [lists_addAccountToBrowser]
  simp only [addAccountToBrowser,DashMap.get_insert]
  by_cases hea : a = a'
  · subst hea
    rw [if_pos rfl]
    constructor
    · rintro ⟨hl | hl,hat,-⟩
      · exact absurd hl (h.not_lists ha)
      · exact absurd ⟨hl.1.symm,rfl,Option.some.inj hat⟩ hne
    · rintro ⟨hl,-⟩
      exact absurd hl (h.not_lists ha)
  · rw [if_neg hea]
    have hfresh : s.accountToSession.get a = some t → t ≠ t' := by
      rintro hat rfl
      obtain ⟨y,hy,-⟩ := h.token hat
      simp [ht] at hy
    constructor
    · rintro ⟨hl | hl,hat,hx⟩
      · rw [if_neg (hfresh hat)] at hx
        exact ⟨hl,hat,hx⟩
      · exact absurd hl.2 hea
    · rintro ⟨hl,hat,hx⟩
      exact ⟨Or.inl hl,hat,by rwa [if_neg (hfresh hat)]⟩

theorem without_evictAccount (h : s.Coherent) (ha : ∀ e ∈ s.sessions.iter, e.2.accountId ≠ a) :
    Without (· = a) s (s.evictAccount a) := by
  have hw := @without_evict s h s.sessions [a] (fun t x => ?_)
  · simpa only [List.mem_singleton,List.foldl_cons,List.foldl_nil] using hw
  · rw [List.mem_singleton]
    exact ⟨fun hx => ⟨hx,ha _ (DashMap.get_eq_some.mp hx)⟩,And.left⟩

/-! ### Every operation keeps the maps coherent -/

theorem coherent_get (h : s.Coherent) (t : SessionId) (now : Nat) : (s.get t now).2.Coherent := by
  cases hx : s.sessions.get t with
  | none =>
    rw [get_none hx]
    exact h
  | some x =>
    by_cases hlive : now - x.lastAccessed ≤ s.timeout
    · rw [get_live h hx hlive]
      exact coherent_touch h t now
    · exact h.without (get_expired h hx (Nat.not_le.mp hlive)).2

theorem coherent_apply (h : s.Coherent) {op : SessionOp} (hp : op.Proper s) :
    (op.apply hmacSha256 s).Coherent := by
  cases op with
  | createBrowser b => exact coherent_createBrowser h hp.1
  | addAccountToBrowser => exact coherent_addAccountToBrowser h hp.1.1 hp.1.2
  | getAccountSession b a t now =>
    by_cases hb : s.Lists b a ∧ s.accountToSession.get a = some t
    · simp only [SessionOp.apply,getAccountSession_of_bound hb.1 hb.2]
      exact coherent_get h t now
    · simp only [SessionOp.apply,getAccountSession_of_unbound hb]
      exact h
  | get t now => exact coherent_get h t now
  | removeAccount a => exact h.without (without_removeAccount h a)
  | removeBrowser b => exact h.without (without_removeBrowser h b)
  | evictAccount a => exact h.without (without_evictAccount h hp.2)
  | purgeExpired now => exact h.without (without_purgeExpired h now)

theorem coherent_run {timeout : Nat} {ops : List SessionOp}
    (h : Run (step hmacSha256) (fun s op => op.Proper s) (new timeout) ops s) : s.Coherent := by
  refine h.invariant (P := Coherent) (coherent_new timeout) (fun s op s' hs hp he => ?_)
  obtain rfl := Option.some.inj he
  exact coherent_apply hs hp

/-! ### The store knows what the history says -/

theorem timeout_get (h : s.Coherent) : (s.get t now).2.timeout = s.timeout := by
  cases hx : s.sessions.get t with
  | none => rw [get_none hx]
  | some x =>
    by_cases hlive : now - x.lastAccessed ≤ s.timeout
    · rw [get_live h hx hlive]
      rfl
    · exact (get_expired h hx (Nat.not_le.mp hlive)).2.timeout

theorem timeout_apply (h : s.Coherent) {op : SessionOp} (hp : op.Proper s) :
    (op.apply hmacSha256 s).timeout = s.timeout := by
  cases op with
  | createBrowser b => rfl
  | addAccountToBrowser => rfl
  | getAccountSession b a t now =>
    by_cases hb : s.Lists b a ∧ s.accountToSession.get a = some t
    · simp only [SessionOp.apply,getAccountSession_of_bound hb.1 hb.2]
      exact timeout_get h
    · simp only [SessionOp.apply,getAccountSession_of_unbound hb]
  | get t now => exact timeout_get h
  | removeAccount a => exact (without_removeAccount h a).timeout
  | removeBrowser b => exact (without_removeBrowser h b).timeout
  | evictAccount a => exact (without_evictAccount h hp.2).timeout
  | purgeExpired now => exact (without_purgeExpired h now).timeout

/-- The history `l` of the binding of `a` and `t` to `b` is what the store says. -/
def Knows (s : SessionStore) (b : BrowserId) (a : AccountId) (t : SessionId) (l : Option Nat) : Prop :=
  ∀ n, l = some n ↔ ∃ x, s.Binding b a t x ∧ x.lastAccessed = n

section Knows

variable {l : Option Nat}

theorem Knows.of_binding (hk : s.Knows b a t l)
    (h : ∀ x, s'.Binding b a t x ↔ s.Binding b a t x) : s'.Knows b a t l := by
  intro n
  simp only [h]
  exact hk n

theorem Knows.of_some (hk : s.Knows b a t l) {x : AccountSession} (hx : s.Binding b a t x) :
    l = some x.lastAccessed :=
  (hk _).mpr ⟨x,hx,rfl⟩

theorem Knows.of_none (hk : s.Knows b a t l) (h : ∀ x, ¬s.Binding b a t x) : l = none := by
  cases l with
  | none => rfl
  | some n =>
    obtain ⟨x,hx,-⟩ := (hk n).mp rfl
    exact absurd hx (h x)

theorem knows_none (h : ∀ x, ¬s.Binding b a t x) : s.Knows b a t none :=
  fun _ => ⟨fun hn => (nomatch hn),fun ⟨x,hx,_⟩ => absurd hx (h x)⟩

/-- Removing the accounts in `D` removes the binding, or leaves it as it was. -/
theorem Without.knows {D : AccountId → Prop} (hw : Without D s s') (h : s.Coherent)
    (hk : s.Knows b a t l) {l' : Option Nat}
    (hl : ∀ x, s.Binding b a t x → D a ∧ l' = none ∨ ¬D a ∧ l' = l)
    (hnone : (∀ x, ¬s.Binding b a t x) → l' = none) : s'.Knows b a t l' := by
  by_cases hx : ∃ x, s.Binding b a t x
  · obtain ⟨x,hx⟩ := hx
    rcases hl x hx with ⟨hD,rfl⟩ | ⟨hD,rfl⟩
    · exact knows_none (fun y hy => ((hw.binding h).mp hy).2 hD)
    · refine hk.of_binding (fun y => (hw.binding h).trans ?_)
      simp [hD]
  · have hx := not_exists.mp hx
    rw [hnone hx]
    exact knows_none (fun y hy => hx y ((hw.binding h).mp hy).1)

theorem knows_get (h : s.Coherent) (hk : s.Knows b a t l) (t' : SessionId) (now : Nat) :
    (s.get t' now).2.Knows b a t (lastAccess s.timeout b a t l (.get t' now)) := by
  simp only [lastAccess]
  cases hx : s.sessions.get t' with
  | none =>
    rw [get_none hx]
    by_cases he : t' = t
    · have hno : ∀ y, ¬s.Binding b a t y := by
        rintro y ⟨-,-,hy⟩
        simp [← he,hx] at hy
      rw [if_pos he,hk.of_none hno]
      exact knows_none hno
    · rwa [if_neg he]
  | some x =>
    by_cases hlive : now - x.lastAccessed ≤ s.timeout
    · rw [get_live h hx hlive]
      by_cases he : t' = t
      · subst he
        intro n
        rw [if_pos rfl]
        by_cases hy : ∃ y, s.Binding b a t' y
        · obtain ⟨y,hy⟩ := hy
          obtain rfl := Option.some.inj (hx.symm.trans hy.2.2)
          simp only [hk.of_some hy,Option.any_some,hlive,decide_true,if_true,Option.some.injEq,
            binding_touch]
          constructor
          · rintro rfl
            exact ⟨_,⟨x,hy,rfl⟩,rfl⟩
          · rintro ⟨_,⟨x',-,rfl⟩,rfl⟩
            rfl
        · have hno := not_exists.mp hy
          rw [hk.of_none hno]
          refine ⟨fun hn => by simp at hn,?_⟩
          rintro ⟨y,hy,-⟩
          obtain ⟨x',hx',-⟩ := binding_touch.mp hy
          exact absurd hx' (hno x')
      · rw [if_neg he]
        refine hk.of_binding (fun y => binding_touch.trans ?_)
        simp [Ne.symm he]
    · have hexp := Nat.not_le.mp hlive
      refine (get_expired h hx hexp).2.knows h hk (fun y hy => ?_) (fun hno => ?_)
      · by_cases he : t' = t
        · subst he
          obtain rfl := Option.some.inj (hx.symm.trans hy.2.2)
          refine Or.inl ⟨(h.accountId hy).symm,?_⟩
          rw [if_pos rfl,hk.of_some hy,Option.any_some,if_neg (by simpa using hlive)]
        · refine Or.inr ⟨fun ha => he ?_,if_neg he⟩
          exact h.token_inj hx hy.2.2 (ha.symm.trans (h.accountId hy).symm)
      · rw [hk.of_none hno]
        simp

theorem knows_apply (h : s.Coherent) {op : SessionOp} (hp : op.Proper s)
    (hk : s.Knows b a t l) :
    (op.apply hmacSha256 s).Knows b a t (lastAccess s.timeout b a t l op) := by
  cases op with
  | createBrowser b' =>
    refine hk.of_binding (fun x => ?_)
    unfold Binding
    rw [SessionOp.apply,lists_createBrowser hp.1]
    rfl
  | addAccountToBrowser token accountId now browserId email password userHash imap smtp =>
    obtain ⟨ht,ha⟩ := hp.1
    simp only [SessionOp.apply,lastAccess]
    by_cases hthis : browserId = b ∧ accountId = a ∧ token = t
    · obtain ⟨rfl,rfl,rfl⟩ := hthis
      intro n
      rw [if_pos ⟨rfl,rfl,rfl⟩,Option.some.injEq]
      obtain ⟨y,hy,hn⟩ := @binding_addAccountToBrowser hmacSha256 s token accountId
        now browserId email password userHash imap smtp
      constructor
      · rintro rfl
        exact ⟨y,hy,hn⟩
      · rintro ⟨y',hy',rfl⟩
        obtain rfl := Option.some.inj (hy.2.2.symm.trans hy'.2.2)
        exact hn.symm
    · rw [if_neg hthis]
      exact hk.of_binding (fun y => binding_addAccountToBrowser_of_ne h ht ha hthis)
  | getAccountSession b' a' t' now =>
    by_cases hb : s.Lists b' a' ∧ s.accountToSession.get a' = some t'
    · simp only [SessionOp.apply,getAccountSession_of_bound hb.1 hb.2]
      have hget := knows_get h hk t' now
      obtain ⟨x,hx,-⟩ := h.token hb.2
      have hlast : lastAccess s.timeout b a t l (.getAccountSession b' a' t' now) =
          lastAccess s.timeout b a t l (.get t' now) := by
        simp only [lastAccess]
        by_cases he : t' = t
        · subst he
          by_cases hthis : b' = b ∧ a' = a
          · rw [if_pos ⟨hthis.1,hthis.2,rfl⟩,if_pos rfl]
          · rw [if_neg (fun hc => hthis ⟨hc.1,hc.2.1⟩),if_pos rfl]
            have hno : ∀ y, ¬s.Binding b a t' y := by
              intro y hy
              obtain ⟨hb',ha',-⟩ := h.binding_inj (⟨hb.1,hb.2,hx⟩ : s.Binding b' a' t' x) hy
              exact hthis ⟨hb',ha'⟩
            rw [hk.of_none hno]
            rfl
        · rw [if_neg (fun hc => he hc.2.2),if_neg he]
      rw [hlast]
      exact hget
    · simp only [SessionOp.apply,getAccountSession_of_unbound hb,lastAccess]
      by_cases hthis : b' = b ∧ a' = a ∧ t' = t
      · obtain ⟨rfl,rfl,rfl⟩ := hthis
        have hno : ∀ y, ¬s.Binding b' a' t' y := fun y hy => hb ⟨hy.1,hy.2.1⟩
        rw [if_pos ⟨rfl,rfl,rfl⟩,hk.of_none hno]
        exact knows_none hno
      · rwa [if_neg hthis]
  | get t' now => exact knows_get h hk t' now
  | removeAccount a' =>
    refine (without_removeAccount h a').knows h hk (fun x hx => ?_) (fun hno => ?_)
    · by_cases he : a' = a
      · exact Or.inl ⟨he.symm,by simp [lastAccess,he]⟩
      · exact Or.inr ⟨Ne.symm he,by simp [lastAccess,he]⟩
    · simp [lastAccess,hk.of_none hno]
  | removeBrowser b' =>
    refine (without_removeBrowser h b').knows h hk (fun x hx => ?_) (fun hno => ?_)
    · by_cases he : b' = b
      · exact Or.inl ⟨he ▸ hx.1,by simp [lastAccess,he]⟩
      · exact Or.inr ⟨fun hl => he (h.browser_inj hl hx.1),by simp [lastAccess,he]⟩
    · simp [lastAccess,hk.of_none hno]
  | evictAccount a' =>
    refine (without_evictAccount h hp.2).knows h hk (fun x hx => ?_) hk.of_none
    refine Or.inr ⟨?_,rfl⟩
    rintro rfl
    exact hp.2 _ (DashMap.get_eq_some.mp hx.2.2) (h.accountId hx)
  | purgeExpired now =>
    refine (without_purgeExpired h now).knows h hk (fun x hx => ?_) (fun hno => ?_)
    · have hexp : s.Expired now a ↔ s.timeout < now - x.lastAccessed := by
        constructor
        · rintro ⟨t',y,hy,rfl,hlt⟩
          obtain rfl := h.token_inj hx.2.2 hy (h.accountId hx)
          obtain rfl := Option.some.inj (hx.2.2.symm.trans hy)
          exact hlt
        · exact fun hlt => ⟨t,x,hx.2.2,h.accountId hx,hlt⟩
      rw [hexp,hk.of_some hx]
      simp only [lastAccess]
      by_cases hlt : s.timeout < now - x.lastAccessed
      · exact Or.inl ⟨hlt,by simp [Option.filter,Nat.not_le.mpr hlt]⟩
      · exact Or.inr ⟨hlt,by simp [Option.filter,Nat.not_lt.mp hlt]⟩
    · simp [lastAccess,hk.of_none hno]

end Knows

/-- After every run, the store knows of every binding what its history says. -/
theorem knows_run {timeout : Nat} {ops : List SessionOp}
    (h : Run (step hmacSha256) (fun s op => op.Proper s) (new timeout) ops s) :
    s.timeout = timeout ∧ ∀ b a t, s.Knows b a t (ops.foldl (lastAccess timeout b a t) none) := by
  induction h with
  | nil => exact ⟨rfl,fun b a t => knows_none (fun x ⟨_,ha,_⟩ => nomatch ha)⟩
  | snoc hrun hp he ih =>
    obtain rfl := Option.some.inj he
    have hc := coherent_run hrun
    refine ⟨(timeout_apply hc hp).trans ih.1,fun b a t => ?_⟩
    rw [List.foldl_append]
    have hk := @knows_apply hmacSha256 _ b a t _ hc _ hp (ih.2 b a t)
    rwa [ih.1] at hk

end SessionStore

end Rav
