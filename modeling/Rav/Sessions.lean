import Rav.Auth.SessionRuns
import Mathlib.Data.List.Chain

/-!
# Sessions

The four maps of the session store describe one set of bindings in every reachable state; a
session is handed out exactly to the browser, account and token its history binds it to, while
it has not idled out; and the account list of a browser agrees with what can be accessed exactly
while none of its accounts has idled out unnoticed.

## Main definitions

- `SessionStore.SameBindings`
- `Standing` — what a history says of one binding
- `SessionOp.On` — the browsers an operation is about
-/

namespace Rav

/-! ### The indexes agree -/

namespace SessionStore

variable {hmacSha256 : String → String → List UInt8} {s : SessionStore} {timeout : Nat}
  {ops : List SessionOp} {b : BrowserId} {a : AccountId} {t : SessionId} {now : Nat}

/-- The bindings as the browsers' lists tell them. -/
def ListedBinding (s : SessionStore) (b : BrowserId) (a : AccountId) (t : SessionId) : Prop :=
  s.Lists b a ∧ s.accountToSession.get a = some t

/-- The bindings as the account maps tell them. -/
def MappedBinding (s : SessionStore) (b : BrowserId) (a : AccountId) (t : SessionId) : Prop :=
  s.accountToBrowser.get a = some b ∧ s.accountToSession.get a = some t

/-- The bindings as the sessions tell them. -/
def SessionBinding (s : SessionStore) (b : BrowserId) (a : AccountId) (t : SessionId) : Prop :=
  s.accountToBrowser.get a = some b ∧ ∃ x, s.sessions.get t = some x ∧ x.accountId = a

/-- The lists, the account maps and the sessions describe the same bindings, and whatever one of
them mentions is bound. -/
structure SameBindings (s : SessionStore) : Prop where
  mapped : ∀ b a t, s.ListedBinding b a t ↔ s.MappedBinding b a t
  session : ∀ b a t, s.MappedBinding b a t ↔ s.SessionBinding b a t
  ofListed : ∀ b a, s.Lists b a → ∃ t, s.ListedBinding b a t
  ofAccountToSession : ∀ a t, s.accountToSession.get a = some t → ∃ b, s.MappedBinding b a t
  ofAccountToBrowser : ∀ a b, s.accountToBrowser.get a = some b → ∃ t, s.MappedBinding b a t
  ofSession : ∀ t x, s.sessions.get t = some x → ∃ b, s.SessionBinding b x.accountId t
  nodup : ∀ b accounts, s.browsers.get b = some accounts → accounts.Nodup

theorem Coherent.sameBindings (h : s.Coherent) : s.SameBindings where
  mapped b a t := by
    unfold ListedBinding MappedBinding
    rw [h.lists]
  session b a t := by
    refine and_congr_right (fun _ => ⟨h.token,?_⟩)
    rintro ⟨x,hx,rfl⟩
    exact h.session hx
  ofListed b a hl := by
    obtain ⟨t,ht⟩ := h.bound.mp ⟨b,h.lists.mp hl⟩
    exact ⟨t,hl,ht⟩
  ofAccountToSession a t ht := by
    obtain ⟨b,hb⟩ := h.bound.mpr ⟨t,ht⟩
    exact ⟨b,hb,ht⟩
  ofAccountToBrowser a b hb := by
    obtain ⟨t,ht⟩ := h.bound.mp ⟨b,hb⟩
    exact ⟨t,hb,ht⟩
  ofSession t x hx := by
    obtain ⟨b,hb⟩ := h.bound.mpr ⟨t,h.session hx⟩
    exact ⟨b,hb,x,hx,rfl⟩
  nodup _ _ := h.nodup

theorem isSome_of_eq {κ ν : Type} [DecidableEq κ] {m : DashMap κ ν} {k : κ} {v : ν}
    (h : m.get k = some v) : m.containsKey k = true := by
  simp [DashMap.containsKey,h]

theorem Coherent.checkConsistency (h : s.Coherent) : s.checkConsistency = [] := by
  unfold SessionStore.checkConsistency
  simp only [List.append_eq_nil_iff]
  refine ⟨⟨⟨?_,?_⟩,?_⟩,?_⟩
  · refine List.filterMap_eq_nil_iff.mpr ?_
    rintro ⟨t,x⟩ hx
    have hx := DashMap.get_eq_some.mpr hx
    simp [h.session hx]
  · refine List.filterMap_eq_nil_iff.mpr ?_
    rintro ⟨a,t⟩ ha
    obtain ⟨x,hx,-⟩ := h.token (DashMap.get_eq_some.mpr ha)
    exact if_pos (isSome_of_eq hx)
  · refine List.flatMap_eq_nil_iff.mpr ?_
    rintro ⟨b,accounts⟩ hb
    refine List.filterMap_eq_nil_iff.mpr (fun a ha => ?_)
    obtain ⟨t,ht⟩ := h.bound.mp ⟨b,h.lists.mp ⟨accounts,DashMap.get_eq_some.mpr hb,ha⟩⟩
    exact if_pos (isSome_of_eq ht)
  · refine List.flatMap_eq_nil_iff.mpr ?_
    rintro ⟨a,b⟩ hab
    have hab := DashMap.get_eq_some.mpr hab
    obtain ⟨t,ht⟩ := h.bound.mp ⟨b,hab⟩
    obtain ⟨accounts,hb,-⟩ := h.lists.mpr hab
    dsimp only
    rw [if_pos (isSome_of_eq ht),if_pos (isSome_of_eq hb)]
    rfl

end SessionStore

/-- In every reachable state the maps describe the same bindings and the store finds no issue. -/
theorem store_consistent {hmacSha256 : String → String → List UInt8} {timeout : Nat}
    {ops : List SessionOp} {s : SessionStore}
    (h : Run (SessionStore.step hmacSha256) (fun s op => op.Proper s) (.new timeout) ops s) :
    s.checkConsistency = [] ∧ s.SameBindings :=
  have hc := SessionStore.coherent_run h
  ⟨hc.checkConsistency,hc.sameBindings⟩

/-! ### The history of a binding -/

namespace SessionOp

/-- The time at which the operation binds `a` and `t` to `b`. -/
def boundAt (b : BrowserId) (a : AccountId) (t : SessionId) : SessionOp → Option Nat
  | .addAccountToBrowser token accountId now browserId .. =>
    if browserId = b ∧ accountId = a ∧ token = t then some now else none
  | _ => none

/-- The time at which the operation asks for the session of `a` and `t`. -/
def accessAt (b : BrowserId) (a : AccountId) (t : SessionId) : SessionOp → Option Nat
  | .getAccountSession browserId accountId token now =>
    if browserId = b ∧ accountId = a ∧ token = t then some now else none
  | .get token now => if token = t then some now else none
  | _ => none

/-- The operation removes the account or its browser. -/
def Removes (b : BrowserId) (a : AccountId) : SessionOp → Prop
  | .removeAccount accountId => accountId = a
  | .removeBrowser browserId => browserId = b
  | _ => False

/-- The operation is about the browser. Purging is about none. -/
def On (s : SessionStore) (b : BrowserId) : SessionOp → Prop
  | .createBrowser browserId => browserId = b
  | .addAccountToBrowser _ _ _ browserId .. => browserId = b
  | .getAccountSession browserId .. => browserId = b
  | .get token _ => ∃ x, s.sessions.get token = some x ∧ s.Lists b x.accountId
  | .removeAccount accountId => s.Lists b accountId
  | .removeBrowser browserId => browserId = b
  | .evictAccount accountId => s.Lists b accountId
  | .purgeExpired _ => False

end SessionOp

/-- Someone who was active at `n` and then at these times has never been idle for longer. -/
def NeverIdle (timeout n : Nat) (times : List Nat) : Prop :=
  (n :: times).IsChain (fun l m => m - l ≤ timeout)

/-- At the time `now`, `a` and `t` have been bound to `b`, have not been removed since, and have
never been idle for longer than the timeout from one access to the next. -/
def Standing (timeout : Nat) (ops : List SessionOp) (b : BrowserId) (a : AccountId)
    (t : SessionId) (now : Nat) : Prop :=
  ∃ before bind after n, ops = before ++ bind :: after ∧ bind.boundAt b a t = some n ∧
    (∀ op ∈ after, ¬op.Removes b a) ∧
    NeverIdle timeout n (after.filterMap (SessionOp.accessAt b a t) ++ [now])

section History

variable {timeout n now : Nat} {b : BrowserId} {a : AccountId} {t : SessionId}

theorem NeverIdle.of_le {times : List Nat} {m : Nat} (h : NeverIdle timeout n times) (hn : n ≤ m) :
    NeverIdle timeout m times :=
  List.IsChain.imp_head (fun {z} (hz : z - n ≤ timeout) => show z - m ≤ timeout by omega) h

/-- Binding and access times are among the operations' clocks. -/
theorem SessionOp.time_of_boundAt {op : SessionOp} (h : op.boundAt b a t = some n) :
    op.time = some n := by
  cases op <;> simp_all [SessionOp.boundAt,SessionOp.time]

theorem SessionOp.time_of_accessAt {op : SessionOp} (h : op.accessAt b a t = some n) :
    op.time = some n := by
  cases op <;> simp_all [SessionOp.accessAt,SessionOp.time]

/-- The cases of an operation, as one binding sees it. -/
theorem lastAccess_cases (l : Option Nat) (op : SessionOp) :
    (∃ n, op.boundAt b a t = some n ∧ lastAccess timeout b a t l op = some n) ∨
    (∃ n, op.accessAt b a t = some n ∧ lastAccess timeout b a t l op =
      if l.any (n - · ≤ timeout) then some n else none) ∨
    (op.Removes b a ∧ lastAccess timeout b a t l op = none) ∨
    (op.accessAt b a t = none ∧ ¬op.Removes b a ∧ ((∃ n, op.time = some n ∧
      lastAccess timeout b a t l op = l.filter (n - · ≤ timeout)) ∨
        lastAccess timeout b a t l op = l)) := by
  cases op with
  | createBrowser _ => exact Or.inr (Or.inr (Or.inr ⟨rfl,id,Or.inr rfl⟩))
  | addAccountToBrowser token accountId now browserId =>
    by_cases h : browserId = b ∧ accountId = a ∧ token = t
    · exact Or.inl ⟨now,if_pos h,if_pos h⟩
    · exact Or.inr (Or.inr (Or.inr ⟨rfl,id,Or.inr (if_neg h)⟩))
  | getAccountSession browserId accountId token now =>
    by_cases h : browserId = b ∧ accountId = a ∧ token = t
    · exact Or.inr (Or.inl ⟨now,if_pos h,if_pos h⟩)
    · exact Or.inr (Or.inr (Or.inr ⟨if_neg h,id,Or.inr (if_neg h)⟩))
  | get token now =>
    by_cases h : token = t
    · exact Or.inr (Or.inl ⟨now,if_pos h,if_pos h⟩)
    · exact Or.inr (Or.inr (Or.inr ⟨if_neg h,id,Or.inr (if_neg h)⟩))
  | removeAccount accountId =>
    by_cases h : accountId = a
    · exact Or.inr (Or.inr (Or.inl ⟨h,if_pos h⟩))
    · exact Or.inr (Or.inr (Or.inr ⟨rfl,h,Or.inr (if_neg h)⟩))
  | removeBrowser browserId =>
    by_cases h : browserId = b
    · exact Or.inr (Or.inr (Or.inl ⟨h,if_pos h⟩))
    · exact Or.inr (Or.inr (Or.inr ⟨rfl,h,Or.inr (if_neg h)⟩))
  | evictAccount _ => exact Or.inr (Or.inr (Or.inr ⟨rfl,id,Or.inr rfl⟩))
  | purgeExpired now => exact Or.inr (Or.inr (Or.inr ⟨rfl,id,Or.inl ⟨now,rfl,rfl⟩⟩))

theorem NeverIdle.snoc {times : List Nat} {k : Nat} (h : NeverIdle timeout n (times ++ [now]))
    (hk : k - now ≤ timeout) : NeverIdle timeout n (times ++ [now] ++ [k]) := by
  unfold NeverIdle at h ⊢
  have hsplit := (@List.isChain_append_cons_cons _ (fun l m => m - l ≤ timeout) now k (n :: times)
    []).mpr ⟨by simpa using h,hk,List.isChain_singleton k⟩
  simpa using hsplit

/-- The next access is not too late. -/
theorem NeverIdle.exists_next {times : List Nat} (h : NeverIdle timeout n (times ++ [now])) :
    ∃ k, k - n ≤ timeout ∧ k ∈ times ++ [now] := by
  unfold NeverIdle at h
  cases hl : times ++ [now] with
  | nil => exact absurd hl (by simp)
  | cons k rest =>
    rw [hl] at h
    exact ⟨k,(List.isChain_cons_cons.mp h).1,List.mem_cons_self⟩

/-- A binding stands for as long after its last access as the timeout says. -/
theorem standing_of_lastAccess {ops : List SessionOp}
    (h : ops.foldl (lastAccess timeout b a t) none = some n) (hn : now - n ≤ timeout) :
    Standing timeout ops b a t now := by
  induction ops using List.reverseRecOn generalizing n now with
  | nil => exact nomatch h
  | append_singleton ops op ih =>
    rw [List.foldl_append,List.foldl_cons,List.foldl_nil] at h
    rcases lastAccess_cases (ops.foldl (lastAccess timeout b a t) none) op with
      ⟨m,hb,hl⟩ | ⟨m,ha,hl⟩ | ⟨-,hl⟩ | ⟨ha,hr,hl⟩
    · obtain rfl := Option.some.inj (h.symm.trans hl)
      refine ⟨ops,op,[],n,rfl,hb,by simp,?_⟩
      unfold NeverIdle
      simpa using hn
    · rw [h] at hl
      rcases hlast : ops.foldl (lastAccess timeout b a t) none with _ | l
      · rw [hlast] at hl
        exact nomatch hl
      · rw [hlast,Option.any_some] at hl
        split at hl
        · next hle =>
          obtain rfl := Option.some.inj hl
          obtain ⟨before,bind,after,k,rfl,hb,hrem,hidle⟩ := ih hlast (of_decide_eq_true hle)
          have hrem' : ¬op.Removes b a := by
            cases op <;> simp_all [SessionOp.accessAt,SessionOp.Removes]
          refine ⟨before,bind,after ++ [op],k,by simp,hb,?_,?_⟩
          · rintro x hx
            rcases List.mem_append.mp hx with hx | hx
            · exact hrem x hx
            · rwa [List.mem_singleton.mp hx]
          · simp only [List.filterMap_append,List.filterMap_cons,ha,List.filterMap_nil]
            exact hidle.snoc hn
        · exact nomatch hl
    · exact nomatch h.symm.trans hl
    · have hlast : ops.foldl (lastAccess timeout b a t) none = some n := by
        rcases hl with ⟨m,-,hl⟩ | hl
        · exact (Option.filter_eq_some_iff.mp (hl.symm.trans h)).1
        · exact hl.symm.trans h
      obtain ⟨before,bind,after,k,rfl,hb,hrem,hidle⟩ := ih hlast hn
      refine ⟨before,bind,after ++ [op],k,by simp,hb,?_,?_⟩
      · rintro x hx
        rcases List.mem_append.mp hx with hx | hx
        · exact hrem x hx
        · rwa [List.mem_singleton.mp hx]
      · simpa [List.filterMap_append,List.filterMap_cons,ha] using hidle

/-- With a clock that does not run backwards, accesses that are never too far apart keep the
binding. -/
theorem lastAccess_of_neverIdle {after : List SessionOp}
    (hrem : ∀ op ∈ after, ¬op.Removes b a)
    (hclock : (n :: (after.filterMap SessionOp.time ++ [now])).Pairwise (· ≤ ·))
    (hidle : NeverIdle timeout n (after.filterMap (SessionOp.accessAt b a t) ++ [now])) :
    ∃ l, after.foldl (lastAccess timeout b a t) (some n) = some l ∧ now - l ≤ timeout := by
  induction after generalizing n with
  | nil => exact ⟨n,rfl,by simpa [NeverIdle] using hidle⟩
  | cons op after ih =>
    obtain ⟨hop,hrem⟩ := List.forall_mem_cons.mp hrem
    obtain ⟨hle,hclock'⟩ := List.pairwise_cons.mp hclock
    have hsub : ∀ m, op.time = some m →
        (m :: (after.filterMap SessionOp.time ++ [now])).Pairwise (· ≤ ·) ∧ n ≤ m := by
      intro m hm
      simp only [List.filterMap_cons,hm] at hclock' hle
      exact ⟨hclock',hle m (by simp)⟩
    have hclock₀ : (n :: (after.filterMap SessionOp.time ++ [now])).Pairwise (· ≤ ·) := by
      refine hclock.sublist (List.Sublist.cons_cons n ?_)
      exact ((List.sublist_cons_self op after).filterMap _).append (List.Sublist.refl [now])
    rw [List.foldl_cons]
    rcases lastAccess_cases (some n) op with ⟨m,hb,hl⟩ | ⟨m,ha,hl⟩ | ⟨hr,-⟩ | ⟨ha,-,hl⟩
    · -- bound again: the time is no earlier than the last access
      have hacc : op.accessAt b a t = none := by
        cases op <;> first | rfl | exact nomatch hb
      obtain ⟨hclockm,hnm⟩ := hsub m (SessionOp.time_of_boundAt hb)
      rw [List.filterMap_cons,hacc] at hidle
      rw [hl]
      exact ih hrem hclockm (hidle.of_le hnm)
    · obtain ⟨hclockm,hnm⟩ := hsub m (SessionOp.time_of_accessAt ha)
      rw [List.filterMap_cons,ha] at hidle
      obtain ⟨hgap,hidle⟩ := List.isChain_cons_cons.mp hidle
      rw [hl,Option.any_some,if_pos (decide_eq_true hgap)]
      exact ih hrem hclockm hidle
    · exact absurd hr hop
    · rw [List.filterMap_cons,ha] at hidle
      have hkeep : lastAccess timeout b a t (some n) op = some n := by
        rcases hl with ⟨m,hm,hl⟩ | hl
        · rw [hl,Option.filter_some_pos]
          -- the purge comes before the next access, which is not too late
          obtain ⟨hclockm,-⟩ := hsub m hm
          obtain ⟨k,hk,hmk⟩ := hidle.exists_next
          have hmk : m ≤ k := by
            refine (List.pairwise_cons.mp hclockm).1 k ?_
            rcases List.mem_append.mp hmk with hmk | hmk
            · obtain ⟨x,hx,hxk⟩ := List.mem_filterMap.mp hmk
              exact List.mem_append_left _
                (List.mem_filterMap.mpr ⟨x,hx,SessionOp.time_of_accessAt hxk⟩)
            · exact List.mem_append_right _ hmk
          exact decide_eq_true (by omega)
        · exact hl
      rw [hkeep]
      exact ih hrem hclock₀ hidle

theorem lastAccess_of_boundAt {op : SessionOp} (h : op.boundAt b a t = some n) (l : Option Nat) :
    lastAccess timeout b a t l op = some n := by
  cases op with
  | addAccountToBrowser token accountId now browserId =>
    simp only [SessionOp.boundAt] at h
    split at h
    · next hthis =>
      rw [← h]
      exact if_pos hthis
    · exact nomatch h
  | _ => exact nomatch h

theorem standing_iff {ops : List SessionOp}
    (hclock : (ops.filterMap SessionOp.time ++ [now]).Pairwise (· ≤ ·)) :
    Standing timeout ops b a t now ↔
      ∃ l, ops.foldl (lastAccess timeout b a t) none = some l ∧ now - l ≤ timeout := by
  constructor
  · rintro ⟨before,bind,after,n,rfl,hb,hrem,hidle⟩
    rw [List.filterMap_append,List.filterMap_cons,SessionOp.time_of_boundAt hb,
      List.append_assoc] at hclock
    rw [List.foldl_append,List.foldl_cons,lastAccess_of_boundAt hb]
    exact lastAccess_of_neverIdle hrem (List.pairwise_append.mp hclock).2.1 hidle
  · rintro ⟨l,hl,hle⟩
    exact standing_of_lastAccess hl hle

end History

namespace SessionStore

variable {hmacSha256 : String → String → List UInt8} {s s' : SessionStore} {b : BrowserId}
  {a : AccountId} {t : SessionId} {now : Nat}

theorem Without.binding_of_not {D : AccountId → Prop} (hw : Without D s s') (h : s.Coherent)
    {x : AccountSession} (hD : s.Binding b a t x → ¬D a) :
    s'.Binding b a t x ↔ s.Binding b a t x :=
  (hw.binding h).trans ⟨And.left,fun hx => ⟨hx,hD hx⟩⟩

/-- Looking up a token of another browser leaves this one alone. -/
theorem binding_get (h : s.Coherent) {t' : SessionId} {n : Nat}
    (hon : ¬SessionOp.On s b (.get t' n)) {x : AccountSession} :
    (s.get t' n).2.Binding b a t x ↔ s.Binding b a t x := by
  cases hx' : s.sessions.get t' with
  | none => rw [get_none hx']
  | some x' =>
    have hother : ∀ y, s.Binding b a t y → a ≠ x'.accountId := by
      rintro y hy rfl
      exact hon ⟨x',hx',hy.1⟩
    by_cases hlive : n - x'.lastAccessed ≤ s.timeout
    · rw [get_live h hx' hlive,binding_touch]
      have ht : ∀ y, s.Binding b a t y → t ≠ t' := by
        rintro y hy rfl
        obtain rfl := Option.some.inj (hx'.symm.trans hy.2.2)
        exact hother x' hy (h.accountId hy).symm
      constructor
      · rintro ⟨y,hy,rfl⟩
        rwa [if_neg (ht y hy)]
      · intro hx
        exact ⟨x,hx,(if_neg (ht x hx)).symm⟩
    · exact (get_expired h hx' (Nat.not_le.mp hlive)).2.binding_of_not h (hother x)

theorem binding_apply (h : s.Coherent) {op : SessionOp} (hp : op.Proper s) (hon : ¬op.On s b)
    (htime : ∀ n, op.time = some n → n ≤ now) {x : AccountSession}
    (hlive : now - x.lastAccessed ≤ s.timeout) :
    (op.apply hmacSha256 s).Binding b a t x ↔ s.Binding b a t x := by
  cases op with
  | createBrowser b' =>
    unfold Binding
    rw [SessionOp.apply,lists_createBrowser hp.1]
    rfl
  | addAccountToBrowser =>
    exact binding_addAccountToBrowser_of_ne h hp.1.1 hp.1.2 (fun hc => hon hc.1)
  | getAccountSession b' a' t' n =>
    by_cases hb : s.Lists b' a' ∧ s.accountToSession.get a' = some t'
    · simp only [SessionOp.apply,getAccountSession_of_bound hb.1 hb.2]
      refine binding_get h ?_
      rintro ⟨y,hy,hl⟩
      obtain ⟨z,hz,rfl⟩ := h.token hb.2
      obtain rfl := Option.some.inj (hy.symm.trans hz)
      exact hon (h.browser_inj hb.1 hl)
    · simp only [SessionOp.apply,getAccountSession_of_unbound hb]
  | get t' n => exact binding_get h hon
  | removeAccount a' =>
    refine (without_removeAccount h a').binding_of_not h (fun hx => ?_)
    rintro rfl
    exact hon hx.1
  | removeBrowser b' =>
    exact (without_removeBrowser h b').binding_of_not h
      (fun hx hl => hon (h.browser_inj hl hx.1))
  | evictAccount a' =>
    refine (without_evictAccount h hp.2).binding_of_not h (fun hx => ?_)
    rintro rfl
    exact hon hx.1
  | purgeExpired n =>
    refine (without_purgeExpired h n).binding_of_not h (fun hx => ?_)
    rintro ⟨t',y,hy,ha,hexp⟩
    obtain rfl := h.token_inj hx.2.2 hy ((h.accountId hx).trans ha.symm)
    obtain rfl := Option.some.inj (hx.2.2.symm.trans hy)
    have := htime n rfl
    omega

/-- An operation on another browser does not change what is handed out. -/
theorem getAccountSession_apply (h : s.Coherent) {op : SessionOp} (hp : op.Proper s)
    (hon : ¬op.On s b) (htime : ∀ n, op.time = some n → n ≤ now) :
    ((op.apply hmacSha256 s).getAccountSession b a t now).1 =
      (s.getAccountSession b a t now).1 := by
  refine Option.ext (fun y => ?_)
  rw [getAccountSession_eq_some (coherent_apply h hp),getAccountSession_eq_some h,
    timeout_apply h hp]
  refine exists_congr (fun x => ?_)
  constructor
  · rintro ⟨hx,hlive,rfl⟩
    exact ⟨(binding_apply h hp hon htime hlive).mp hx,hlive,rfl⟩
  · rintro ⟨hx,hlive,rfl⟩
    exact ⟨(binding_apply h hp hon htime hlive).mpr hx,hlive,rfl⟩

/-- A session is handed out while the last access is recent. -/
theorem getAccountSession_isSome (h : s.Coherent) :
    (s.getAccountSession b a t now).1.isSome ↔
      ∃ x, s.Binding b a t x ∧ now - x.lastAccessed ≤ s.timeout := by
  rw [Option.isSome_iff_exists]
  simp only [getAccountSession_eq_some h]
  constructor
  · rintro ⟨_,x,hx,hlive,-⟩
    exact ⟨x,hx,hlive⟩
  · rintro ⟨x,hx,hlive⟩
    exact ⟨_,x,hx,hlive,rfl⟩

end SessionStore

/-- With a clock that does not run backwards, a session is handed out exactly if its binding
stands, and no operation on another browser changes what is handed out. -/
theorem session_isolated {hmacSha256 : String → String → List UInt8} {timeout : Nat}
    {ops : List SessionOp} {s : SessionStore} {now : Nat}
    (h : Run (SessionStore.step hmacSha256) (fun s op => op.Proper s) (.new timeout) ops s)
    (hclock : (ops.filterMap SessionOp.time ++ [now]).Pairwise (· ≤ ·)) (b : BrowserId)
    (a : AccountId) (t : SessionId) :
    ((s.getAccountSession b a t now).1.isSome ↔ Standing timeout ops b a t now) ∧
      ∀ op : SessionOp, op.Proper s → ¬op.On s b → (∀ n, op.time = some n → n ≤ now) →
        ((op.apply hmacSha256 s).getAccountSession b a t now).1 =
          (s.getAccountSession b a t now).1 := by
  have hc := SessionStore.coherent_run h
  obtain ⟨htimeout,hknows⟩ := SessionStore.knows_run h
  refine ⟨?_,fun op => SessionStore.getAccountSession_apply hc⟩
  rw [SessionStore.getAccountSession_isSome hc,standing_iff hclock,htimeout]
  constructor
  · rintro ⟨x,hx,hlive⟩
    exact ⟨_,(hknows b a t _).mpr ⟨x,hx,rfl⟩,hlive⟩
  · rintro ⟨l,hl,hlive⟩
    obtain ⟨x,hx,rfl⟩ := (hknows b a t l).mp hl
    exact ⟨x,hx,hlive⟩

/-! ### The listing of a browser -/

namespace SessionStore

variable {s : SessionStore} {b : BrowserId} {a : AccountId} {now : Nat}

/-- Every listed account appears with its session, idle or not. -/
theorem mem_getBrowserAccounts (h : s.Coherent) :
    (∃ x ∈ s.getBrowserAccounts b, x.accountId = a) ↔ s.Lists b a := by
  unfold getBrowserAccounts
  simp only [List.mem_filterMap,Option.bind_eq_some_iff]
  constructor
  · rintro ⟨x,⟨a',hmem,t,ht,hx⟩,rfl⟩
    obtain ⟨y,hy,rfl⟩ := h.token ht
    obtain rfl := Option.some.inj (hx.symm.trans hy)
    cases hb : s.browsers.get b with
    | none => simp [hb] at hmem
    | some accounts =>
      rw [hb,Option.getD_some] at hmem
      exact ⟨accounts,hb,hmem⟩
  · rintro ⟨accounts,hb,hmem⟩
    obtain ⟨t,ht⟩ := h.bound.mp ⟨b,h.lists.mp ⟨accounts,hb,hmem⟩⟩
    obtain ⟨x,hx,rfl⟩ := h.token ht
    exact ⟨x,⟨x.accountId,by rwa [hb,Option.getD_some],t,ht,hx⟩,rfl⟩

/-- An account can be accessed exactly if it is listed and has not idled out. -/
theorem accessible_iff (h : s.Coherent) :
    (∃ t, (s.getAccountSession b a t now).1.isSome) ↔ s.Lists b a ∧ ¬s.Expired now a := by
  simp only [getAccountSession_isSome h]
  constructor
  · rintro ⟨t,x,hx,hlive⟩
    refine ⟨hx.1,?_⟩
    rintro ⟨t',y,hy,ha,hexp⟩
    obtain rfl := h.token_inj hx.2.2 hy ((h.accountId hx).trans ha.symm)
    obtain rfl := Option.some.inj (hx.2.2.symm.trans hy)
    omega
  · rintro ⟨hl,hexp⟩
    obtain ⟨t,ht⟩ := h.bound.mp ⟨b,h.lists.mp hl⟩
    obtain ⟨x,hx,hxa⟩ := h.token ht
    exact ⟨t,x,⟨hl,ht,hx⟩,Nat.not_lt.mp (fun hlt => hexp ⟨t,x,hx,hxa,hlt⟩)⟩

end SessionStore

/-- The listing of a browser holds exactly the accounts that can be accessed, exactly if none of
its accounts has idled out unnoticed. -/
theorem listing_agrees_iff {hmacSha256 : String → String → List UInt8} {timeout : Nat}
    {ops : List SessionOp} {s : SessionStore}
    (h : Run (SessionStore.step hmacSha256) (fun s op => op.Proper s) (.new timeout) ops s)
    (b : BrowserId) (now : Nat) :
    (∀ a, (∃ x ∈ s.getBrowserAccounts b, x.accountId = a) ↔
      ∃ t, (s.getAccountSession b a t now).1.isSome) ↔
    ∀ a, s.Lists b a → ¬s.Expired now a := by
  have hc := SessionStore.coherent_run h
  simp only [SessionStore.mem_getBrowserAccounts hc,SessionStore.accessible_iff hc]
  exact forall_congr' (fun a => ⟨fun hiff hl => (hiff.mp hl).2,
    fun himp => ⟨fun hl => ⟨hl,himp hl⟩,And.left⟩⟩)

/-! ### Samples -/

/-- HMAC-SHA256 of `folder-ids` under the token of zero bytes. -/
def zeroFolderKey : List UInt8 :=
  [119,227,186,74,126,225,72,16,75,166,31,165,122,45,93,140,85,219,130,44,185,245,136,129,57,151,
    57,11,107,144,94,93]

def zeroToken : SessionId := "AAAAAAAAAAAAAAAAAAAAAAAAAAAAAAAAAAAAAAAAAAA"

def zeroBrowser : BrowserId := "AAAAAAAAAAAAAAAAAAAAAA"

def oneAccount : AccountId := "AQEBAQEBAQEBAQEBAQEBAQ"

/-- Someone logs in at the time 5 with a new browser. -/
def logIn : List SessionOp :=
  [.createBrowser zeroBrowser,.addAccountToBrowser zeroToken oneAccount 5 zeroBrowser
    "alice@example.com" "secret" "hash" ⟨"imap.example.com",993,true⟩ ⟨"smtp.example.com",587,true⟩]

/-- The session is used, idles out and is evicted. -/
def idleOut : List SessionOp :=
  logIn ++ [.getAccountSession zeroBrowser oneAccount zeroToken 60,.get zeroToken 200,
    .evictAccount oneAccount,.createBrowser zeroBrowser]

theorem store_consistent_idleOut :
    ∃ s, Run (SessionStore.step fun _ _ => zeroFolderKey) (fun s op => op.Proper s) (.new 100)
      idleOut s ∧ s.checkConsistency = [] ∧ s.SameBindings := by
  have hv : (execWhere (SessionStore.step fun _ _ => zeroFolderKey) (fun s op => op.Proper s)
      (.new 100) idleOut).isSome := by decide
  obtain ⟨s,hs⟩ := Option.isSome_iff_exists.mp hv
  exact ⟨s,run_of_execWhere hs,store_consistent (run_of_execWhere hs)⟩

/-- Evicting an account that still has a session leaves the session without its account. -/
theorem eviction_leaves_session :
    ¬∀ (ops : List SessionOp) (s : SessionStore),
      Run (SessionStore.step fun _ _ => zeroFolderKey) (fun s op => op.Fresh s) (.new 100) ops s →
        s.checkConsistency = [] := by
  intro hall
  have hv : (execWhere (SessionStore.step fun _ _ => zeroFolderKey) (fun s op => op.Fresh s)
      (.new 100) (logIn ++ [.evictAccount oneAccount])).map
        (fun s => s.checkConsistency.length) = some 1 := by decide
  obtain ⟨s,hrun,hl⟩ := run_of_map_execWhere hv
  rw [hall _ s hrun] at hl
  exact nomatch hl

/-- The session is found at its last access, and another browser's is not. -/
theorem session_isolated_logIn :
    ∃ s, Run (SessionStore.step fun _ _ => zeroFolderKey) (fun s op => op.Proper s) (.new 100)
      logIn s ∧ ((s.getAccountSession zeroBrowser oneAccount zeroToken 60).1.isSome ↔
        Standing 100 logIn zeroBrowser oneAccount zeroToken 60) ∧
      (s.getAccountSession zeroBrowser oneAccount zeroToken 60).1.isSome := by
  have hv : (execWhere (SessionStore.step fun _ _ => zeroFolderKey) (fun s op => op.Proper s)
      (.new 100) logIn).map (fun s =>
        (s.getAccountSession zeroBrowser oneAccount zeroToken 60).1.isSome) = some true := by
    decide
  obtain ⟨s,hrun,hl⟩ := run_of_map_execWhere hv
  exact ⟨s,hrun,(session_isolated hrun (by decide) zeroBrowser oneAccount zeroToken).1,hl⟩

theorem listing_agrees_logIn :
    ∃ s, Run (SessionStore.step fun _ _ => zeroFolderKey) (fun s op => op.Proper s) (.new 100)
      logIn s ∧ ∀ a, (∃ x ∈ s.getBrowserAccounts zeroBrowser, x.accountId = a) ↔
        ∃ t, (s.getAccountSession zeroBrowser a t 60).1.isSome := by
  have hv : (execWhere (SessionStore.step fun _ _ => zeroFolderKey) (fun s op => op.Proper s)
      (.new 100) logIn).map (fun s => s.sessions.iter.map (fun e => (e.1,e.2.lastAccessed))) =
        some [(zeroToken,5)] := by decide
  obtain ⟨s,hrun,hl⟩ := run_of_map_execWhere hv
  refine ⟨s,hrun,(listing_agrees_iff hrun zeroBrowser 60).mpr ?_⟩
  rintro a - ⟨t,x,hx,-,hexp⟩
  have hmem : (t,x.lastAccessed) ∈ [(zeroToken,5)] :=
    hl ▸ List.mem_map_of_mem (DashMap.get_eq_some.mp hx)
  have htimeout := (SessionStore.knows_run hrun).1
  have := (Prod.mk.inj (List.mem_singleton.mp hmem)).2
  omega

/-- After the timeout the account is listed and cannot be accessed. -/
theorem idle_account_is_listed :
    ¬∀ (ops : List SessionOp) (s : SessionStore),
      Run (SessionStore.step fun _ _ => zeroFolderKey) (fun s op => op.Proper s) (.new 100) ops s →
        ∀ a, (∃ x ∈ s.getBrowserAccounts zeroBrowser, x.accountId = a) ↔
          ∃ t, (s.getAccountSession zeroBrowser a t 106).1.isSome := by
  intro hall
  have hv : (execWhere (SessionStore.step fun _ _ => zeroFolderKey) (fun s op => op.Proper s)
      (.new 100) logIn).map (fun s => ((s.getBrowserAccounts zeroBrowser).map (·.accountId),
        (s.sessions.get zeroToken).map (fun x => (x.accountId,x.lastAccessed)))) =
        some ([oneAccount],some (oneAccount,5)) := by decide
  obtain ⟨s,hrun,hl⟩ := run_of_map_execWhere hv
  obtain ⟨hlist,hsess⟩ := Prod.mk.inj hl
  obtain ⟨x,hx,hx5⟩ := Option.map_eq_some_iff.mp hsess
  obtain ⟨hxa,hx5⟩ := Prod.mk.inj hx5
  have hmem : ∃ y ∈ s.getBrowserAccounts zeroBrowser, y.accountId = oneAccount :=
    List.mem_map.mp (hlist ▸ List.mem_singleton_self oneAccount)
  have hc := SessionStore.coherent_run hrun
  have hlive := (SessionStore.accessible_iff hc).mp ((hall logIn s hrun oneAccount).mp hmem)
  have htimeout : s.timeout = 100 := (SessionStore.knows_run hrun).1
  exact hlive.2 ⟨zeroToken,x,hx,hxa,by omega⟩

end Rav
