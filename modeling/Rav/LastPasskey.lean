import Rav.Runs
import Rav.Threads
import Rav.Routes.Mfa

/-!
# The last passkey

In passkey-only mode the last passkey is the only way in. Deleting a passkey and switching the
mode on each check the other's table and then write to their own, in two statements. Where every
write finds true what its request has checked, passkey-only mode always leaves a passkey.

## Main definitions

- `PasskeyStance`, with `next` and `Allows` — what a request has checked, and may do next
- `PasskeySystem`, `PasskeyEvent`, `PasskeySystem.step` — requests in progress over an account
- `PasskeySystem.Current` — a write finds true what its request has checked
-/

namespace Rav

/-- What a request has checked: the mode is `off` or `on`, there are `several` passkeys, or there
is `one`. -/
inductive PasskeyStance
  | fresh
  | off
  | on
  | several
  | one
  | done
  deriving DecidableEq

namespace PasskeyStance

def next : PasskeyStance → (c : PasskeyCall) → c.Answer → PasskeyStance
  | .fresh, .getMfaSettings, .ok true => .on
  | .fresh, .getMfaSettings, _ => .off
  | .on, .listPasskeysInfo, .ok (infos : List PasskeyInfo) =>
    if infos.length ≤ 1 then .done else .several
  | .on, .listPasskeysInfo, .error _ => .done
  | .fresh, .hasPasskeys, .ok true => .one
  | g, _, _ => g

/-- A request writes only what its stance lets it. -/
def Allows : PasskeyStance → PasskeyCall → Prop
  | g, .getMfaSettings => g = .fresh
  | g, .listPasskeysInfo => g = .on
  | g, .hasPasskeys => g = .fresh
  | g, .deletePasskey _ => g = .off ∨ g = .several
  | g, .setPasskeyOnly true => g = .one
  | _, _ => True

/-- What a request has checked, read off the tables. -/
def Holds (db : PasskeyDb) : PasskeyStance → Prop
  | .off => db.passkeyOnly = false
  | .several => 2 ≤ db.passkeys.rows.length
  | .one => 1 ≤ db.passkeys.rows.length
  | _ => True

instance (db : PasskeyDb) (g : PasskeyStance) : Decidable (g.Holds db) := by
  unfold Holds
  split <;> infer_instance

end PasskeyStance

/-- A request keeps to what its stance allows. -/
abbrev Heeds {α : Type} (Q : PasskeyStance → α → Prop) (g : PasskeyStance) (t : PasskeyTask α) :
    Prop :=
  t.Follows PasskeyStance.Allows PasskeyStance.next Q g

/-! ### What each handler may do -/

/-- Past its guard a deletion has seen the mode off, or several passkeys. -/
theorem heeds_deletesLast :
    Heeds (fun g last => last = false → g = .off ∨ g = .several) .fresh deletesLast := by
  refine Prog.Follows.perform_bind rfl (fun r => ?_)
  rcases r with e | enabled
  · exact fun _ => Or.inl rfl
  · cases enabled with
    | false => exact fun _ => Or.inl rfl
    | true =>
      refine Prog.Follows.perform_bind rfl (fun r => ?_)
      rcases r with e | infos
      · exact nofun
      · intro hlast
        have hlen : ¬infos.length ≤ 1 := of_decide_eq_false hlast
        exact Or.inr (if_neg hlen)

theorem heeds_passkeyDelete (id : String) : Heeds (fun _ _ => True) .fresh (passkeyDelete id) := by
  refine Prog.Follows.perform_bind trivial (fun r => ?_)
  rcases r with e | _
  · trivial
  · refine heeds_deletesLast.bind (fun g last hlast => ?_)
    cases last with
    | true => trivial
    | false =>
      refine Prog.Follows.perform_bind (hlast rfl) (fun r => ?_)
      rcases r with e | deleted
      · trivial
      · cases deleted <;> trivial

theorem heeds_storePasskeyOnly {g : PasskeyStance} {enabled : Bool}
    (hg : enabled = true → g = .one) : Heeds (fun _ _ => True) g (storePasskeyOnly enabled) := by
  have hok : g.Allows (.setPasskeyOnly enabled) := by
    cases enabled with
    | false => trivial
    | true => exact hg rfl
  refine Prog.Follows.perform_bind hok (fun r => ?_)
  rcases r with e | _ <;> trivial

theorem heeds_passkeyOnlySet (enabled : Bool) :
    Heeds (fun _ _ => True) .fresh (passkeyOnlySet enabled) := by
  refine Prog.Follows.perform_bind trivial (fun r => ?_)
  rcases r with e | _
  · trivial
  · cases enabled with
    | false => exact heeds_storePasskeyOnly nofun
    | true =>
      refine Prog.Follows.perform_bind rfl (fun r => ?_)
      rcases r with e | any
      · trivial
      · cases any with
        | false => trivial
        | true => exact heeds_storePasskeyOnly (fun _ => rfl)

theorem heeds_passkeyRegisterComplete
    (ceremony : Except HttpResponse (NewPasskey × ServerEndpoint × ServerEndpoint)) :
    Heeds (fun _ _ => True) .fresh (passkeyRegisterComplete ceremony) := by
  rcases ceremony with response | ⟨p,imap,smtp⟩
  · trivial
  · refine Prog.Follows.perform_bind trivial (fun r => ?_)
    rcases r with e | _
    · trivial
    · refine Prog.Follows.perform_bind trivial (fun r => ?_)
      rcases r with e | _
      · exact Prog.Follows.ite (fun _ => trivial) (fun _ => trivial)
      · trivial

/-! ### Requests in progress -/

abbrev PasskeySystem :=
  Threads PasskeyStance PasskeyWorld PasskeyCall PasskeyCall.Answer HttpResponse

inductive PasskeyEvent
  | delete (credentialId : String)
  | passkeyOnly (enabled : Bool)
  | register (ceremony : Except HttpResponse (NewPasskey × ServerEndpoint × ServerEndpoint))
  | tick (secs : Nat)
  /-- The `i`-th request makes its next call, which may fail. -/
  | call (i : Nat) (fails : Option String)

namespace PasskeySystem

/-- An account without passkeys, with passkey-only mode off and no request in progress. -/
def opening (now : Nat) : PasskeySystem := ⟨⟨⟨.empty,false⟩,now⟩,[]⟩

def begin (s : PasskeySystem) (t : PasskeyTask HttpResponse) : PasskeySystem :=
  { s with tasks := s.tasks ++ [(.fresh,t)] }

def step (s : PasskeySystem) : PasskeyEvent → Option PasskeySystem
  | .delete id => some (begin s (passkeyDelete id))
  | .passkeyOnly enabled => some (begin s (passkeyOnlySet enabled))
  | .register ceremony => some (begin s (passkeyRegisterComplete ceremony))
  | .tick secs => some { s with world := { s.world with now := s.world.now + secs } }
  | .call i fails => Threads.call (PasskeyCall.serve fails) PasskeyStance.next s i

/-- A deletion, or the statement that switches the mode on, runs only while what its request has
checked is still so, or else it fails. -/
def Current (s : PasskeySystem) : PasskeyEvent → Prop
  | .call i fails =>
    match s.upcoming i with
    | some (g,.deletePasskey _) => fails = none → g.Holds s.world.db
    | some (g,.setPasskeyOnly true) => fails = none → g.Holds s.world.db
    | _ => True
  | _ => True

instance (s : PasskeySystem) (e : PasskeyEvent) : Decidable (s.Current e) := by
  unfold Current
  split
  · split <;> infer_instance
  · infer_instance

end PasskeySystem

/-! ### What one call does -/

namespace PasskeyDb

variable {db : PasskeyDb}

/-- Passkey-only mode leaves a passkey. -/
def Reachable (db : PasskeyDb) : Prop := db.passkeyOnly = true → db.passkeys.rows ≠ []

instance (db : PasskeyDb) : Decidable db.Reachable := by
  unfold Reachable
  infer_instance

/-- A credential id deletes at most one row. -/
theorem length_deletePasskey (id : String) :
    db.passkeys.rows.length ≤ (db.deletePasskey id).2.passkeys.rows.length + 1 := by
  show db.passkeys.rows.length ≤
    (db.passkeys.rows.filter (fun r => !decide (r.credentialId = id))).length + 1
  have hnodup := db.passkeys.nodup
  generalize db.passkeys.rows = rows at hnodup
  induction rows with
  | nil => simp
  | cons r rows ih =>
    rw [List.map_cons,List.nodup_cons] at hnodup
    by_cases hr : r.credentialId = id
    · -- the id is this row's, so no later row goes
      have hrest : rows.filter (fun r => !decide (r.credentialId = id)) = rows := by
        refine List.filter_eq_self.mpr (fun s hs => ?_)
        have hne : s.credentialId ≠ id := by
          intro he
          exact hnodup.1 (List.mem_map.mpr ⟨s,hs,he.trans hr.symm⟩)
        simpa using hne
      simp [hr,hrest]
    · have hlen := ih hnodup.2
      rw [List.filter_cons_of_pos (by simpa using hr)]
      simpa using hlen

theorem reachable_deletePasskey {g : PasskeyStance} {id : String}
    (hok : g.Allows (.deletePasskey id)) (hg : g.Holds db) :
    (db.deletePasskey id).2.Reachable := by
  intro honly
  change db.passkeyOnly = true at honly
  rcases hok with rfl | rfl
  · have hoff : db.passkeyOnly = false := hg
    rw [hoff] at honly
    simp at honly
  · have hseveral : 2 ≤ db.passkeys.rows.length := hg
    have hlen : db.passkeys.rows.length ≤ (db.deletePasskey id).2.passkeys.rows.length + 1 :=
      length_deletePasskey id
    intro hnil
    rw [hnil] at hlen
    simp at hlen
    omega

theorem reachable_setPasskeyOnly {g : PasskeyStance} {enabled : Bool}
    (hok : g.Allows (.setPasskeyOnly enabled)) (hg : enabled = true → g.Holds db) :
    (db.setPasskeyOnly enabled).Reachable := by
  cases enabled with
  | false => exact nofun
  | true =>
    obtain rfl : g = .one := hok
    have hone : 1 ≤ db.passkeys.rows.length := hg rfl
    intro _ hnil
    change db.passkeys.rows = [] at hnil
    rw [hnil] at hone
    simp at hone

theorem reachable_insertPasskey {db' : PasskeyDb} {p : NewPasskey} {imap smtp : ServerEndpoint}
    {now : Nat} (hi : db.insertPasskey p imap smtp now = some db') :
    db'.Reachable := by
  unfold PasskeyDb.insertPasskey at hi
  split at hi
  · simp at hi
  · obtain rfl := Option.some.inj hi
    intro _ hnil
    have hfind := Table.find?_insertOrIgnore db.passkeys (p.row imap smtp now) p.credentialId
    have hnone : (db.passkeys.insertOrIgnore (p.row imap smtp now)).find? p.credentialId = none :=
      Table.find?_eq_none.mpr (fun r hr => by
        rw [show (db.passkeys.insertOrIgnore (p.row imap smtp now)).rows = [] from hnil] at hr
        simp at hr)
    rw [hnone] at hfind
    cases hold : db.passkeys.find? p.credentialId with
    | none => simp [hold,NewPasskey.row] at hfind
    | some r => simp [hold] at hfind

end PasskeyDb

theorem PasskeyWorld.run_reachable {α : Type} {fails : Option String} {w : PasskeyWorld}
    {f : α × PasskeyDb} (h : w.db.Reachable) (hf : fails = none → f.2.Reachable) :
    (w.run fails f).2.db.Reachable := by
  cases fails with
  | none => exact hf rfl
  | some e => exact h

namespace PasskeySystem

/-- One call keeps a passkey. -/
theorem serve_reachable {fails : Option String} {w : PasskeyWorld} {g : PasskeyStance}
    {c : PasskeyCall} (h : w.db.Reachable) (hok : g.Allows c)
    (hdelete : ∀ id, c = .deletePasskey id → fails = none → g.Holds w.db)
    (hset : c = .setPasskeyOnly true → fails = none → g.Holds w.db) :
    (c.serve fails w).2.db.Reachable := by
  cases c with
  | deletePasskey id =>
    exact PasskeyWorld.run_reachable h
      (fun hf => PasskeyDb.reachable_deletePasskey hok (hdelete id rfl hf))
  | setPasskeyOnly enabled =>
    refine PasskeyWorld.run_reachable h
      (fun hf => PasskeyDb.reachable_setPasskeyOnly hok (fun he => ?_))
    exact hset (by rw [he]) hf
  | insertPasskey p imap smtp =>
    simp only [PasskeyCall.serve]
    split
    · exact h
    · next db hi =>
      exact PasskeyWorld.run_reachable h (fun _ => PasskeyDb.reachable_insertPasskey hi)
  | _ => exact PasskeyWorld.run_reachable h (fun _ => h)

/-- A passkey is left, and every request keeps to its stance. -/
structure PasskeyInv (s : PasskeySystem) : Prop where
  reachable : s.world.db.Reachable
  keep : Threads.Keep PasskeyStance.Allows PasskeyStance.next (fun _ _ => True) s

variable {s s' : PasskeySystem}

theorem PasskeyInv.begin {t : PasskeyTask HttpResponse} (h : PasskeyInv s)
    (ht : Heeds (fun _ _ => True) .fresh t) : PasskeyInv (s.begin t) :=
  ⟨h.reachable,h.keep.start ht⟩

theorem PasskeyInv.call {i : Nat} {fails : Option String} (h : PasskeyInv s)
    (hc : s.Current (.call i fails))
    (he : Threads.call (PasskeyCall.serve fails) PasskeyStance.next s i = some s') :
    PasskeyInv s' := by
  obtain ⟨g,c,k,ht,rfl⟩ := Threads.call_eq_some.mp he
  simp only [Current,Threads.upcoming_eq ht] at hc
  refine ⟨serve_reachable h.reachable (h.keep.allowed ht) (fun id hd => ?_) (fun hs => ?_),
    h.keep.call ht⟩
  · subst hd
    exact hc
  · subst hs
    exact hc

theorem PasskeyInv.step {e : PasskeyEvent} (h : PasskeyInv s) (hc : s.Current e)
    (he : s.step e = some s') : PasskeyInv s' := by
  cases e with
  | delete id =>
    obtain rfl := Option.some.inj he
    exact h.begin (heeds_passkeyDelete id)
  | passkeyOnly enabled =>
    obtain rfl := Option.some.inj he
    exact h.begin (heeds_passkeyOnlySet enabled)
  | register ceremony =>
    obtain rfl := Option.some.inj he
    exact h.begin (heeds_passkeyRegisterComplete ceremony)
  | tick secs =>
    obtain rfl := Option.some.inj he
    exact ⟨h.reachable,h.keep⟩
  | call i fails => exact h.call hc he

theorem passkeyInv_opening (now : Nat) : PasskeyInv (opening now) := ⟨nofun,nofun⟩

end PasskeySystem

/-- In every run of deletions, registrations and switches of passkey-only mode in which every
deletion and every statement that switches the mode on finds true what its request has checked,
passkey-only mode leaves a passkey in every state. -/
theorem passkeyOnly_leaves_passkey {now : Nat} {es : List PasskeyEvent} {s : PasskeySystem}
    (h : Run PasskeySystem.step PasskeySystem.Current (.opening now) es s) :
    s.world.db.passkeyOnly = true → s.world.db.passkeys.rows ≠ [] := by
  have hinv := h.invariant (PasskeySystem.passkeyInv_opening now)
    (fun _ _ _ hi hc he => PasskeySystem.PasskeyInv.step hi hc he)
  exact hinv.reachable

/-! ### Samples -/

def samplePasskey (id : String) : NewPasskey where
  credentialId := id
  passkeyJson := "{}"
  prfSalt := []
  encryptedImap := []
  imapNonce := []
  name := "laptop"

def sampleRegister (id : String) : PasskeyEvent :=
  .register (.ok (samplePasskey id,⟨"imap.example.org",993,true⟩,⟨"smtp.example.org",465,true⟩))

/-- The `i`-th request makes `n` calls, none of which fails. -/
def passkeyCalls (i n : Nat) : List PasskeyEvent := List.replicate n (.call i none)

/-- Two passkeys; the mode goes on, one is deleted, and the other is refused. -/
def passkeysGuarded : List PasskeyEvent :=
  [sampleRegister "a",sampleRegister "b",.passkeyOnly true,.delete "a",.delete "b"] ++
    passkeyCalls 0 2 ++ passkeyCalls 1 2 ++ passkeyCalls 2 3 ++ passkeyCalls 3 4 ++
    passkeyCalls 4 3

theorem passkeyOnly_leaves_passkey_guarded :
    ∃ s, Run PasskeySystem.step PasskeySystem.Current (.opening 0) passkeysGuarded s ∧
      s.world.db.passkeyOnly = true ∧ s.world.db.passkeys.rows ≠ [] := by
  have hv : (execWhere PasskeySystem.step PasskeySystem.Current (.opening 0)
      passkeysGuarded).map (fun s => s.world.db.passkeyOnly) = some true := by
    decide
  obtain ⟨s,hrun,hon⟩ := run_of_map_execWhere hv
  exact ⟨s,hrun,hon,passkeyOnly_leaves_passkey hrun hon⟩

/-- A deletion reads the mode as off and stops; the mode goes on; the deletion goes on. -/
def passkeyRaced : List PasskeyEvent :=
  [sampleRegister "a"] ++ passkeyCalls 0 2 ++ [.delete "a"] ++ passkeyCalls 1 2 ++
    [.passkeyOnly true] ++ passkeyCalls 2 3 ++ passkeyCalls 1 1

/-- The mode is on and no passkey is left. -/
theorem raced_deletion_leaves_none :
    ¬∀ (now : Nat) (es : List PasskeyEvent) (s : PasskeySystem),
      Run PasskeySystem.step (fun _ _ => True) (.opening now) es s →
        s.world.db.passkeyOnly = true → s.world.db.passkeys.rows ≠ [] := by
  intro hall
  have hv : (execWhere PasskeySystem.step (fun _ _ => True) (.opening 0) passkeyRaced).map
      (fun s => (s.world.db.passkeyOnly,s.world.db.passkeys.rows)) = some (true,[]) := by
    decide
  obtain ⟨s,hrun,hl⟩ := run_of_map_execWhere hv
  have hsafe := hall 0 passkeyRaced s hrun
  exact hsafe (congrArg Prod.fst hl) (congrArg Prod.snd hl)

end Rav
