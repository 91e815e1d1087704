import Rav.Mfa.Passkey
import Rav.Runs

/-!
# Passkey ceremonies

A pending ceremony is taken out of its map by the finish that names its nonce, so no nonce is
finished twice, and a fake ceremony has no state to finish. Its age is not looked at: only a purge
in time keeps a finish from accepting a ceremony past its time.

## Main definitions

- `CeremonySystem`, `CeremonyEvent`, `CeremonySystem.step` — methods in progress on one service
- `CeremoniesSound` — no ceremony is accepted late, twice, or though it is a fake
- `CeremonySystem.Timely` — a finish comes in time for the ceremony it would accept
-/

namespace Rav

variable {W : Webauthn}

/-! ### Methods in progress -/

/-- How far a method is: a finish knows the ceremony it has taken out. -/
inductive CeremonyStance (W : Webauthn)
  | request (r : PasskeyRequest W)
  | tookReg (credential : Json.Value) (p : PendingRegistration W)
  | tookAuth (credential : Json.Value) (p : PendingAuthentication W)
  | missed

namespace CeremonyStance

def next : CeremonyStance W → (c : PasskeyServiceCall W) → c.Answer → CeremonyStance W
  | .request (.finishRegistration _ credential), .removeReg _,
      some (p : PendingRegistration W) => .tookReg credential p
  | .request (.finishAuthentication _ credential), .removeAuth _,
      some (p : PendingAuthentication W) => .tookAuth credential p
  | .request (.finishRegistration _ _), _, _ => .missed
  | .request (.finishAuthentication _ _), _, _ => .missed
  | g, _, _ => g

/-- A finish takes out the nonce it was given; a fake ceremony is stored without a state. -/
def Allows : CeremonyStance W → PasskeyServiceCall W → Prop
  | .request (.finishRegistration nonce _), c => c = .removeReg nonce
  | .request (.finishAuthentication nonce _), c => c = .removeAuth nonce
  | .request (.beginAuthenticationFake _), .insertAuth p => p.state = none
  | .request _, .removeReg _ => False
  | .request _, .removeAuth _ => False
  | .request _, _ => True
  | _, _ => False

/-- What a finish returns. -/
def Returned : CeremonyStance W → Except String (PasskeyOutcome W) → Prop
  | .tookReg credential p, r => r = completeRegistration credential p
  | .tookAuth credential p, r => r = completeAuthentication credential p
  | .missed, r => r = .error "Ceremony expired or nonce invalid"
  | _, _ => True

end CeremonyStance

/-- A ceremony that was finished successfully. -/
structure Acceptance where
  nonce : String
  createdAt : Int
  acceptedAt : Int
  deriving DecidableEq

/-- The methods in progress on a service, the ceremonies accepted so far, and the nonces that
`begin_authentication_fake` has given out. -/
structure CeremonySystem (W : Webauthn) where
  threads : Threads (CeremonyStance W) (PasskeyService W) (PasskeyServiceCall W)
    PasskeyServiceCall.Answer (Except String (PasskeyOutcome W))
  accepted : List Acceptance
  fakes : List String

/-- A finish that has taken its ceremony out and returns a success. -/
def acceptedBy : (c : PasskeyServiceCall W) → c.Answer → PasskeyServiceTask W → Int →
    List Acceptance
  | .removeReg nonce, some (p : PendingRegistration W), .pure (.ok _), now =>
    [⟨nonce,p.createdAt,now⟩]
  | .removeAuth nonce, some (p : PendingAuthentication W), .pure (.ok _), now =>
    [⟨nonce,p.createdAt,now⟩]
  | _, _, _, _ => []

def fakedBy : CeremonyStance W → (c : PasskeyServiceCall W) → c.Answer → List String
  | .request (.beginAuthenticationFake _), .insertAuth _, (nonce : String) => [nonce]
  | _, _, _ => []

inductive CeremonyEvent (W : Webauthn)
  | start (r : PasskeyRequest W)
  | tick (nanos : Nat)
  /-- The `i`-th method makes its next call. -/
  | call (i : Nat)

namespace CeremonySystem

/-- A service without pending ceremonies, and no method in progress. -/
def opening (W : Webauthn) (now : Int) (nonces : Nat → String) : CeremonySystem W :=
  ⟨⟨⟨.new,.new,now,nonces,0⟩,[]⟩,[],[]⟩

def step (s : CeremonySystem W) : CeremonyEvent W → Option (CeremonySystem W)
  | .start r =>
    some { s with threads := { s.threads with tasks := s.threads.tasks ++ [(.request r,r.task)] } }
  | .tick nanos =>
    let world := { s.threads.world with now := s.threads.world.now + nanos }
    some { s with threads := { s.threads with world := world } }
  | .call i =>
    match s.threads.tasks[i]? with
    | some (g,.call c k) =>
      let r := c.serve s.threads.world
      some ⟨⟨r.2,s.threads.tasks.set i (g.next c r.1,k r.1)⟩,
        s.accepted ++ acceptedBy c r.1 (k r.1) s.threads.world.now,s.fakes ++ fakedBy g c r.1⟩
    | _ => none

/-- The crate accepts a credential for a registration. -/
def registers (credential : Json.Value) (p : PendingRegistration W) : Bool :=
  W.configured &&
    match W.registerCredential credential with
    | .error _ => false
    | .ok c => (W.finishPasskeyRegistration c p.state).isOk

/-- The crate accepts a credential for an authentication, and its salt is known. -/
def authenticates (credential : Json.Value) (p : PendingAuthentication W) : Bool :=
  W.configured &&
    match p.state, W.publicKeyCredential credential with
    | some state, .ok c =>
      match W.finishPasskeyAuthentication c state with
      | .error _ => false
      | .ok result => (p.credSalts.lookup (W.credId result)).isSome
    | _, _ => false

/-- A finish that takes out a ceremony the crate accepts its credential for comes in time. -/
def Timely (s : CeremonySystem W) : CeremonyEvent W → Prop
  | .call i =>
    match s.threads.upcoming i with
    | some (.request (.finishRegistration _ credential),.removeReg nonce) =>
      ∀ p ∈ s.threads.world.pendingReg.get nonce, registers credential p = true →
        s.threads.world.now ≤ p.createdAt + ceremonyTtl
    | some (.request (.finishAuthentication _ credential),.removeAuth nonce) =>
      ∀ p ∈ s.threads.world.pendingAuth.get nonce, authenticates credential p = true →
        s.threads.world.now ≤ p.createdAt + ceremonyTtl
    | _ => True
  | _ => True

instance (s : CeremonySystem W) (e : CeremonyEvent W) : Decidable (s.Timely e) := by
  unfold Timely
  split
  · split <;> infer_instance
  · infer_instance

end CeremonySystem

/-- No ceremony is accepted when older than `ceremonyTtl`, no nonce is finished successfully
twice, and none of a fake ceremony ever is. -/
structure CeremoniesSound (s : CeremonySystem W) : Prop where
  inTime : ∀ a ∈ s.accepted, a.acceptedAt ≤ a.createdAt + ceremonyTtl
  once : (s.accepted.map Acceptance.nonce).Nodup
  real : ∀ a ∈ s.accepted, a.nonce ∉ s.fakes

/-! ### What each method may do -/

/-- A method keeps to what its stance allows. -/
abbrev Attends (g : CeremonyStance W) (t : PasskeyServiceTask W) : Prop :=
  t.Follows CeremonyStance.Allows CeremonyStance.next CeremonyStance.Returned g

theorem attends_purgeStale : Attends (W := W) (.request .purgeStale) purgeStale :=
  ⟨trivial,fun _ => ⟨trivial,fun _ => ⟨trivial,fun _ => trivial⟩⟩⟩

theorem attends_beginRegistration (userId email keyName : String) (exclude : List String)
    (salt : List UInt8) (challenge : Nat) :
    Attends (W := W) (.request (.beginRegistration userId email keyName exclude salt challenge))
      (beginRegistration userId email keyName exclude salt challenge) := by
  unfold beginRegistration
  refine Prog.Follows.ite (fun _ => ?_) (fun _ => trivial)
  dsimp only
  split
  · trivial
  · exact ⟨trivial,fun _ => ⟨trivial,fun _ => trivial⟩⟩

theorem attends_beginAuthentication (email : String) (passkeys : List W.Passkey)
    (salts : List (String × List UInt8)) (challenge : Nat) :
    Attends (.request (.beginAuthentication email passkeys salts challenge))
      (beginAuthentication email passkeys salts challenge) := by
  unfold beginAuthentication
  refine Prog.Follows.ite (fun _ => ?_) (fun _ => trivial)
  split
  · trivial
  · exact ⟨trivial,fun _ => ⟨trivial,fun _ => trivial⟩⟩

theorem attends_beginAuthenticationFake (email : String) :
    Attends (W := W) (.request (.beginAuthenticationFake email)) (beginAuthenticationFake email) :=
  ⟨trivial,fun _ => ⟨rfl,fun _ => trivial⟩⟩

theorem attends_finishRegistration (nonce : String) (credential : Json.Value) :
    Attends (W := W) (.request (.finishRegistration nonce credential))
      (finishRegistration nonce credential) := by
  refine Prog.Follows.perform_bind rfl (fun pending => ?_)
  rcases pending with _ | p
  · exact rfl
  · exact rfl

theorem attends_finishAuthentication (nonce : String) (credential : Json.Value) :
    Attends (W := W) (.request (.finishAuthentication nonce credential))
      (finishAuthentication nonce credential) := by
  refine Prog.Follows.perform_bind rfl (fun pending => ?_)
  rcases pending with _ | p
  · exact rfl
  · exact rfl

theorem attends_task (r : PasskeyRequest W) : Attends (.request r) r.task := by
  cases r with
  | purgeStale => exact attends_purgeStale
  | beginRegistration userId email keyName exclude salt challenge =>
    exact attends_beginRegistration userId email keyName exclude salt challenge
  | finishRegistration nonce credential => exact attends_finishRegistration nonce credential
  | beginAuthentication email passkeys salts challenge =>
    exact attends_beginAuthentication email passkeys salts challenge
  | beginAuthenticationFake email => exact attends_beginAuthenticationFake email
  | finishAuthentication nonce credential => exact attends_finishAuthentication nonce credential

/-! ### What is accepted -/

namespace CeremonySystem

theorem isOk_completeRegistration (credential : Json.Value) (p : PendingRegistration W) :
    (completeRegistration credential p).isOk = registers credential p := by
  unfold completeRegistration registers
  cases hc : W.configured with
  | false => rfl
  | true =>
    cases hr : W.registerCredential credential with
    | error e => rfl
    | ok c => cases hf : W.finishPasskeyRegistration c p.state <;> simp [hf,Except.isOk,Except.toBool]

theorem isOk_completeAuthentication (credential : Json.Value) (p : PendingAuthentication W) :
    (completeAuthentication credential p).isOk = authenticates credential p := by
  unfold completeAuthentication authenticates
  cases hs : p.state with
  | none => simp [Except.isOk,Except.toBool]
  | some state =>
    cases hc : W.configured with
    | false => rfl
    | true =>
      cases hr : W.publicKeyCredential credential with
      | error e => rfl
      | ok c =>
        cases hf : W.finishPasskeyAuthentication c state with
        | error e => simp [hf,Except.isOk,Except.toBool]
        | ok result =>
          cases hl : p.credSalts.lookup (W.credId result) <;>
            simp [hf,hl,Except.isOk,Except.toBool]

/-- The ceremony that a call accepts, if it is a finish that succeeds. -/
def acceptance : CeremonyStance W → PasskeyServiceCall W → PasskeyService W → Option Acceptance
  | .request (.finishRegistration _ credential), .removeReg nonce, w =>
    ((w.pendingReg.get nonce).filter (registers credential)).map
      (fun p => ⟨nonce,p.createdAt,w.now⟩)
  | .request (.finishAuthentication _ credential), .removeAuth nonce, w =>
    ((w.pendingAuth.get nonce).filter (authenticates credential)).map
      (fun p => ⟨nonce,p.createdAt,w.now⟩)
  | _, _, _ => none

theorem acceptance_eq_none {g : CeremonyStance W} {c : PasskeyServiceCall W}
    {w : PasskeyService W} (hreg : ∀ nonce, c ≠ .removeReg nonce)
    (hauth : ∀ nonce, c ≠ .removeAuth nonce) : acceptance g c w = none := by
  unfold acceptance
  split
  · exact absurd rfl (hreg _)
  · exact absurd rfl (hauth _)
  · rfl

/-- What a finish returns decides what it accepts. -/
theorem acceptedBy_removeReg {nonce : String} {p : PendingRegistration W}
    {r : Except String (PasskeyOutcome W)} {now : Int} :
    acceptedBy (.removeReg nonce) (some p) (.pure r) now =
      if r.isOk then [⟨nonce,p.createdAt,now⟩] else [] := by
  cases r <;> rfl

theorem acceptedBy_removeAuth {nonce : String} {p : PendingAuthentication W}
    {r : Except String (PasskeyOutcome W)} {now : Int} :
    acceptedBy (.removeAuth nonce) (some p) (.pure r) now =
      if r.isOk then [⟨nonce,p.createdAt,now⟩] else [] := by
  cases r <;> rfl

theorem toList_map_filter {α β : Type} (q : α → Bool) (f : α → β) (a : α) :
    (((some a).filter q).map f).toList = if q a = true then [f a] else [] := by
  cases hq : q a <;> simp [Option.filter,hq]

theorem acceptedBy_eq {g : CeremonyStance W} {c : PasskeyServiceCall W}
    {k : c.Answer → PasskeyServiceTask W} (h : Attends g (.call c k)) (w : PasskeyService W) :
    acceptedBy c (c.serve w).1 (k (c.serve w).1) w.now = (acceptance g c w).toList := by
  obtain ⟨hok,hk⟩ := h
  cases c with
  | removeReg nonce =>
    cases g with
    | request r =>
      cases r with
      | finishRegistration nonce' credential =>
        obtain rfl : nonce = nonce' := PasskeyServiceCall.removeReg.inj hok
        show acceptedBy (.removeReg nonce) (w.pendingReg.get nonce) (k (w.pendingReg.get nonce))
            w.now = (((w.pendingReg.get nonce).filter (registers credential)).map _).toList
        cases hp : w.pendingReg.get nonce with
        | none => rfl
        | some p =>
          have hrest := hk (some p)
          cases hr : k (some p) with
          | call c' k' =>
            rw [hr] at hrest
            exact absurd hrest.1 id
          | pure r =>
            rw [hr] at hrest
            have hres : r = completeRegistration credential p := hrest
            rw [acceptedBy_removeReg,hres,isOk_completeRegistration,toList_map_filter]
      | finishAuthentication nonce' credential => exact absurd hok (by simp [CeremonyStance.Allows])
      | _ => exact absurd hok id
    | _ => exact absurd hok id
  | removeAuth nonce =>
    cases g with
    | request r =>
      cases r with
      | finishAuthentication nonce' credential =>
        obtain rfl : nonce = nonce' := PasskeyServiceCall.removeAuth.inj hok
        show acceptedBy (.removeAuth nonce) (w.pendingAuth.get nonce)
            (k (w.pendingAuth.get nonce)) w.now =
          (((w.pendingAuth.get nonce).filter (authenticates credential)).map _).toList
        cases hp : w.pendingAuth.get nonce with
        | none => rfl
        | some p =>
          have hrest := hk (some p)
          cases hr : k (some p) with
          | call c' k' =>
            rw [hr] at hrest
            exact absurd hrest.1 id
          | pure r =>
            rw [hr] at hrest
            have hres : r = completeAuthentication credential p := hrest
            rw [acceptedBy_removeAuth,hres,isOk_completeAuthentication,toList_map_filter]
      | finishRegistration nonce' credential => exact absurd hok (by simp [CeremonyStance.Allows])
      | _ => exact absurd hok id
    | _ => exact absurd hok id
  | _ =>
    rw [acceptance_eq_none (by simp) (by simp)]
    rfl

theorem forall_mem_map_filter {α β : Type} {o : Option α} {P : β → Prop} (q : α → Bool)
    (f : α → β) : (∀ b ∈ (o.filter q).map f, P b) ↔ ∀ a ∈ o, q a = true → P (f a) := by
  cases o with
  | none => simp
  | some a => cases hq : q a <;> simp [Option.filter,hq]

/-- A finish that comes in time accepts nothing late, and one that comes late does. -/
theorem timely_call {s : CeremonySystem W} {i : Nat} {g : CeremonyStance W}
    {c : PasskeyServiceCall W} {k : c.Answer → PasskeyServiceTask W}
    (ht : s.threads.tasks[i]? = some (g,.call c k)) :
    s.Timely (.call i) ↔
      ∀ a ∈ acceptance g c s.threads.world, a.acceptedAt ≤ a.createdAt + ceremonyTtl := by
  simp only [Timely,Threads.upcoming_eq ht]
  cases g with
  | request r =>
    cases r with
    | finishRegistration _ credential =>
      cases c with
      | removeReg nonce =>
        exact (forall_mem_map_filter (o := s.threads.world.pendingReg.get nonce)
          (P := fun a : Acceptance => a.acceptedAt ≤ a.createdAt + ceremonyTtl)
          (registers credential) (fun p => ⟨nonce,p.createdAt,s.threads.world.now⟩)).symm
      | _ => simp [acceptance]
    | finishAuthentication _ credential =>
      cases c with
      | removeAuth nonce =>
        exact (forall_mem_map_filter (o := s.threads.world.pendingAuth.get nonce)
          (P := fun a : Acceptance => a.acceptedAt ≤ a.createdAt + ceremonyTtl)
          (authenticates credential) (fun p => ⟨nonce,p.createdAt,s.threads.world.now⟩)).symm
      | _ => simp [acceptance]
    | _ => simp [acceptance]
  | _ => simp [acceptance]

end CeremonySystem

/-! ### What the service, the acceptances and the fakes have to do with each other -/

/-- Accepted and pending ceremonies are apart, and their nonces are among those drawn. -/
structure CeremonyLedger (nonces : Nat → String) (w : PasskeyService W)
    (accepted : List Acceptance) (fakes : List String) : Prop where
  stream : w.nonces = nonces
  apart : ∀ n, w.pendingReg.get n = none ∨ w.pendingAuth.get n = none
  spent : ∀ a ∈ accepted, w.pendingReg.get a.nonce = none ∧ w.pendingAuth.get a.nonce = none
  once : (accepted.map Acceptance.nonce).Nodup
  real : ∀ a ∈ accepted, a.nonce ∉ fakes
  fake : ∀ n ∈ fakes,
    w.pendingReg.get n = none ∧ ∀ p ∈ w.pendingAuth.get n, p.state = none
  ahead : ∀ k, w.drawn ≤ k → w.pendingReg.get (nonces k) = none ∧
    w.pendingAuth.get (nonces k) = none ∧ nonces k ∉ accepted.map Acceptance.nonce ∧
    nonces k ∉ fakes

/-- A service with no more pending ceremonies than before. -/
structure FewerPending (w w' : PasskeyService W) : Prop where
  nonces : w'.nonces = w.nonces
  drawn : w'.drawn = w.drawn
  reg : ∀ n p, w'.pendingReg.get n = some p → w.pendingReg.get n = some p
  auth : ∀ n p, w'.pendingAuth.get n = some p → w.pendingAuth.get n = some p

namespace FewerPending

variable {w w' : PasskeyService W} {n : String}

theorem reg_none (h : FewerPending w w') (hn : w.pendingReg.get n = none) :
    w'.pendingReg.get n = none := by
  cases hp : w'.pendingReg.get n with
  | none => rfl
  | some p => simp [h.reg n p hp] at hn

theorem auth_none (h : FewerPending w w') (hn : w.pendingAuth.get n = none) :
    w'.pendingAuth.get n = none := by
  cases hp : w'.pendingAuth.get n with
  | none => rfl
  | some p => simp [h.auth n p hp] at hn

theorem of_now (w : PasskeyService W) (now : Int) : FewerPending w { w with now := now } :=
  ⟨rfl,rfl,fun _ _ h => h,fun _ _ h => h⟩

/-- Every call but those that store a ceremony leaves no more than before. -/
theorem serve (w : PasskeyService W) {c : PasskeyServiceCall W} (hreg : ∀ p, c ≠ .insertReg p)
    (hauth : ∀ p, c ≠ .insertAuth p) : FewerPending w (c.serve w).2 := by
  cases c with
  | insertReg p => exact absurd rfl (hreg p)
  | insertAuth p => exact absurd rfl (hauth p)
  | instantNow => exact ⟨rfl,rfl,fun _ _ h => h,fun _ _ h => h⟩
  | removeReg nonce =>
    refine ⟨rfl,rfl,fun n p hp => ?_,fun _ _ h => h⟩
    simp only [PasskeyServiceCall.serve,DashMap.get_remove] at hp
    split at hp
    · simp at hp
    · exact hp
  | removeAuth nonce =>
    refine ⟨rfl,rfl,fun _ _ h => h,fun n p hp => ?_⟩
    simp only [PasskeyServiceCall.serve,DashMap.get_remove] at hp
    split at hp
    · simp at hp
    · exact hp
  | retainReg cutoff =>
    refine ⟨rfl,rfl,fun n p hp => ?_,fun _ _ h => h⟩
    simp only [PasskeyServiceCall.serve,DashMap.get_retain] at hp
    obtain ⟨q,hq,hkeep⟩ := Option.bind_eq_some_iff.mp hp
    split at hkeep
    · exact hkeep ▸ hq
    · simp at hkeep
  | retainAuth cutoff =>
    refine ⟨rfl,rfl,fun _ _ h => h,fun n p hp => ?_⟩
    simp only [PasskeyServiceCall.serve,DashMap.get_retain] at hp
    obtain ⟨q,hq,hkeep⟩ := Option.bind_eq_some_iff.mp hp
    split at hkeep
    · exact hkeep ▸ hq
    · simp at hkeep

end FewerPending

namespace CeremonyLedger

variable {nonces : Nat → String} {w w' : PasskeyService W} {accepted : List Acceptance}
  {fakes : List String}

theorem fewer (h : CeremonyLedger nonces w accepted fakes) (hw : FewerPending w w') :
    CeremonyLedger nonces w' accepted fakes where
  stream := hw.nonces.trans h.stream
  apart n := (h.apart n).imp hw.reg_none hw.auth_none
  spent a ha := ⟨hw.reg_none (h.spent a ha).1,hw.auth_none (h.spent a ha).2⟩
  once := h.once
  real := h.real
  fake n hn := ⟨hw.reg_none (h.fake n hn).1,fun p hp => (h.fake n hn).2 p (hw.auth n p hp)⟩
  ahead k hk := by
    obtain ⟨hreg,hauth,hrest⟩ := h.ahead k (hw.drawn ▸ hk)
    exact ⟨hw.reg_none hreg,hw.auth_none hauth,hrest⟩

/-- A ceremony that is pending no more is accepted. -/
theorem accept (h : CeremonyLedger nonces w accepted fakes) {a : Acceptance}
    (hreg : w.pendingReg.get a.nonce = none) (hauth : w.pendingAuth.get a.nonce = none)
    (hnew : a.nonce ∉ accepted.map Acceptance.nonce) (hreal : a.nonce ∉ fakes)
    (hdrawn : ∀ k, w.drawn ≤ k → nonces k ≠ a.nonce) :
    CeremonyLedger nonces w (accepted ++ [a]) fakes where
  stream := h.stream
  apart := h.apart
  spent b hb := by
    rcases List.mem_append.mp hb with hb | hb
    · exact h.spent b hb
    · rw [List.mem_singleton.mp hb]
      exact ⟨hreg,hauth⟩
  once := by
    rw [List.map_append,List.nodup_append]
    refine ⟨h.once,List.nodup_singleton _,?_⟩
    rintro n hn m hm rfl
    exact hnew (List.mem_singleton.mp hm ▸ hn)
  real b hb := by
    rcases List.mem_append.mp hb with hb | hb
    · exact h.real b hb
    · rw [List.mem_singleton.mp hb]
      exact hreal
  fake := h.fake
  ahead k hk := by
    obtain ⟨hr,ha,hacc,hf⟩ := h.ahead k hk
    refine ⟨hr,ha,fun hmem => ?_,hf⟩
    rw [List.map_append] at hmem
    rcases List.mem_append.mp hmem with hmem | hmem
    · exact hacc hmem
    · exact hdrawn k hk (List.mem_singleton.mp hmem)

/-- A registration is stored under a new nonce. -/
theorem insertReg (hn : Function.Injective nonces) (h : CeremonyLedger nonces w accepted fakes)
    (p : PendingRegistration W) :
    CeremonyLedger nonces ((PasskeyServiceCall.insertReg p).serve w).2 accepted fakes := by
  obtain ⟨hreg,hauth,hacc,hfake⟩ := h.ahead w.drawn le_rfl
  have hget : ∀ n, (w.pendingReg.insert (w.nonces w.drawn) p).get n =
      if n = nonces w.drawn then some p else w.pendingReg.get n := by
    intro n
    rw [DashMap.get_insert,h.stream]
  have hother : ∀ n, n ≠ nonces w.drawn →
      (w.pendingReg.insert (w.nonces w.drawn) p).get n = w.pendingReg.get n :=
    fun n hne => by rw [hget,if_neg hne]
  constructor
  · exact h.stream
  · intro n
    show (w.pendingReg.insert _ p).get n = none ∨ w.pendingAuth.get n = none
    by_cases he : n = nonces w.drawn
    · exact Or.inr (he ▸ hauth)
    · rw [hother n he]
      exact h.apart n
  · intro a ha
    have hne : a.nonce ≠ nonces w.drawn := fun he => hacc (he ▸ List.mem_map_of_mem ha)
    refine ⟨?_,(h.spent a ha).2⟩
    show (w.pendingReg.insert _ p).get a.nonce = none
    rw [hother _ hne]
    exact (h.spent a ha).1
  · exact h.once
  · exact h.real
  · intro n hmem
    have hne : n ≠ nonces w.drawn := fun he => hfake (he ▸ hmem)
    refine ⟨?_,(h.fake n hmem).2⟩
    show (w.pendingReg.insert _ p).get n = none
    rw [hother _ hne]
    exact (h.fake n hmem).1
  · intro k hk
    have hk : w.drawn + 1 ≤ k := hk
    have hne : nonces k ≠ nonces w.drawn := fun he => by
      have := hn he
      omega
    obtain ⟨hr,hrest⟩ := h.ahead k (by omega)
    refine ⟨?_,hrest⟩
    show (w.pendingReg.insert _ p).get (nonces k) = none
    rw [hother _ hne]
    exact hr

/-- An authentication is stored under a new nonce, which may be given out as a fake if it has no
state. -/
theorem insertAuth (hn : Function.Injective nonces) (h : CeremonyLedger nonces w accepted fakes)
    {p : PendingAuthentication W} {new : List String}
    (hnew : ∀ n ∈ new, n = nonces w.drawn ∧ p.state = none) :
    CeremonyLedger nonces ((PasskeyServiceCall.insertAuth p).serve w).2 accepted
      (fakes ++ new) := by
  obtain ⟨hreg,hauth,hacc,hfake⟩ := h.ahead w.drawn le_rfl
  have hget : ∀ n, (w.pendingAuth.insert (w.nonces w.drawn) p).get n =
      if n = nonces w.drawn then some p else w.pendingAuth.get n := by
    intro n
    rw [DashMap.get_insert,h.stream]
  have hother : ∀ n, n ≠ nonces w.drawn →
      (w.pendingAuth.insert (w.nonces w.drawn) p).get n = w.pendingAuth.get n :=
    fun n hne => by rw [hget,if_neg hne]
  constructor
  · exact h.stream
  · intro n
    show w.pendingReg.get n = none ∨ (w.pendingAuth.insert _ p).get n = none
    by_cases he : n = nonces w.drawn
    · exact Or.inl (he ▸ hreg)
    · rw [hother n he]
      exact h.apart n
  · intro a ha
    have hne : a.nonce ≠ nonces w.drawn := fun he => hacc (he ▸ List.mem_map_of_mem ha)
    refine ⟨(h.spent a ha).1,?_⟩
    show (w.pendingAuth.insert _ p).get a.nonce = none
    rw [hother _ hne]
    exact (h.spent a ha).2
  · exact h.once
  · intro a ha hmem
    rcases List.mem_append.mp hmem with hmem | hmem
    · exact h.real a ha hmem
    · exact hacc ((hnew _ hmem).1 ▸ List.mem_map_of_mem ha)
  · intro n hmem
    show w.pendingReg.get n = none ∧ ∀ q ∈ (w.pendingAuth.insert _ p).get n, q.state = none
    rcases List.mem_append.mp hmem with hmem | hmem
    · have hne : n ≠ nonces w.drawn := fun he => hfake (he ▸ hmem)
      rw [hother _ hne]
      exact h.fake n hmem
    · obtain ⟨rfl,hstate⟩ := hnew n hmem
      rw [hget,if_pos rfl]
      exact ⟨hreg,fun q hq => Option.some.inj hq ▸ hstate⟩
  · intro k hk
    have hk : w.drawn + 1 ≤ k := hk
    have hne : nonces k ≠ nonces w.drawn := fun he => by
      have := hn he
      omega
    obtain ⟨hr,ha,hac,hf⟩ := h.ahead k (by omega)
    refine ⟨hr,?_,hac,fun hmem => ?_⟩
    · show (w.pendingAuth.insert _ p).get (nonces k) = none
      rw [hother _ hne]
      exact ha
    · rcases List.mem_append.mp hmem with hmem | hmem
      · exact hf hmem
      · exact hne (hnew _ hmem).1

end CeremonyLedger

/-! ### Runs -/

namespace CeremonySystem

/-- The ledger of a system, whose methods keep to their stances. -/
structure CeremonyInv (nonces : Nat → String) (s : CeremonySystem W) : Prop where
  ledger : CeremonyLedger nonces s.threads.world s.accepted s.fakes
  keep : Threads.Keep CeremonyStance.Allows CeremonyStance.next CeremonyStance.Returned s.threads

variable {nonces : Nat → String} {s s' : CeremonySystem W}

theorem ceremonyInv_opening (W : Webauthn) (now : Int) (nonces : Nat → String) :
    CeremonyInv nonces (opening W now nonces) where
  ledger := {
    stream := rfl
    apart := fun _ => Or.inl rfl
    spent := by simp [opening]
    once := List.nodup_nil
    real := by simp [opening]
    fake := by simp [opening]
    ahead := fun k _ => by simp [opening] }
  keep := fun t ht => absurd ht List.not_mem_nil

/-- What a call gives out as a fake is its new nonce, stored without a state. -/
theorem mem_fakedBy {g : CeremonyStance W} {c : PasskeyServiceCall W} {w : PasskeyService W}
    (hok : g.Allows c) {n : String} (hn : n ∈ fakedBy g c (c.serve w).1) :
    ∃ p, c = .insertAuth p ∧ n = w.nonces w.drawn ∧ p.state = none := by
  unfold fakedBy at hn
  split at hn
  · exact ⟨_,rfl,List.mem_singleton.mp hn,hok⟩
  · simp at hn

/-- What a call accepts was pending until then, and is not of a fake ceremony. -/
theorem acceptance_eq_some {g : CeremonyStance W} {c : PasskeyServiceCall W}
    {w : PasskeyService W} {a : Acceptance} (ha : acceptance g c w = some a) :
    (c = .removeReg a.nonce ∧ ∃ p, w.pendingReg.get a.nonce = some p) ∨
      c = .removeAuth a.nonce ∧ ∃ p, w.pendingAuth.get a.nonce = some p ∧ p.state ≠ none := by
  unfold acceptance at ha
  split at ha
  · obtain ⟨p,hp,rfl⟩ := Option.map_eq_some_iff.mp ha
    exact Or.inl ⟨rfl,p,(Option.filter_eq_some_iff.mp hp).1⟩
  · obtain ⟨p,hp,rfl⟩ := Option.map_eq_some_iff.mp ha
    obtain ⟨hp,hr⟩ := Option.filter_eq_some_iff.mp hp
    refine Or.inr ⟨rfl,p,hp,fun hstate => ?_⟩
    simp [authenticates,hstate] at hr
  · simp at ha

theorem CeremonyInv.start (h : CeremonyInv nonces s) (r : PasskeyRequest W)
    (he : s.step (.start r) = some s') : CeremonyInv nonces s' := by
  obtain rfl := Option.some.inj he
  exact ⟨h.ledger,h.keep.start (attends_task r)⟩

/-- The ledger after one call of a method. -/
theorem ledger_call (hn : Function.Injective nonces) {w : PasskeyService W}
    {accepted : List Acceptance} {fakes : List String} {g : CeremonyStance W}
    {c : PasskeyServiceCall W} (h : CeremonyLedger nonces w accepted fakes) (hok : g.Allows c) :
    CeremonyLedger nonces (c.serve w).2 (accepted ++ (acceptance g c w).toList)
      (fakes ++ fakedBy g c (c.serve w).1) := by
  have hnofake (hc : ∀ p, c ≠ .insertAuth p) : fakedBy g c (c.serve w).1 = [] := by
    refine List.eq_nil_iff_forall_not_mem.mpr (fun n hmem => ?_)
    obtain ⟨p,rfl,-⟩ := mem_fakedBy hok hmem
    exact hc p rfl
  cases ha : acceptance g c w with
  | some a =>
    -- a finish takes its ceremony out of the map, so that its nonce is pending no more
    rcases acceptance_eq_some ha with ⟨hc,p,hp⟩ | ⟨hc,p,hp,hstate⟩
    · rw [hnofake (by simp [hc]),List.append_nil,hc]
      have hfewer := h.fewer (FewerPending.serve w (c := .removeReg a.nonce) (by simp) (by simp))
      have hother : w.pendingAuth.get a.nonce = none :=
        (h.apart a.nonce).resolve_left (by simp [hp])
      refine hfewer.accept ?_ hother (fun hmem => ?_) (fun hmem => ?_) (fun k hk he => ?_)
      · simp [PasskeyServiceCall.serve]
      · obtain ⟨b,hb,hbn⟩ := List.mem_map.mp hmem
        simp [← hbn,(h.spent b hb).1] at hp
      · simp [(h.fake _ hmem).1] at hp
      · simp [← he,(h.ahead k hk).1] at hp
    · rw [hnofake (by simp [hc]),List.append_nil,hc]
      have hfewer := h.fewer (FewerPending.serve w (c := .removeAuth a.nonce) (by simp) (by simp))
      have hother : w.pendingReg.get a.nonce = none :=
        (h.apart a.nonce).resolve_right (by simp [hp])
      refine hfewer.accept hother ?_ (fun hmem => ?_) (fun hmem => ?_) (fun k hk he => ?_)
      · simp [PasskeyServiceCall.serve]
      · obtain ⟨b,hb,hbn⟩ := List.mem_map.mp hmem
        simp [← hbn,(h.spent b hb).2] at hp
      · exact hstate ((h.fake _ hmem).2 p hp)
      · simp [← he,(h.ahead k hk).2.1] at hp
  | none =>
    rw [Option.toList_none,List.append_nil]
    by_cases hreg : ∃ p, c = .insertReg p
    · obtain ⟨p,rfl⟩ := hreg
      rw [hnofake (by simp),List.append_nil]
      exact h.insertReg hn p
    by_cases hauth : ∃ p, c = .insertAuth p
    · obtain ⟨p,rfl⟩ := hauth
      refine h.insertAuth hn (fun n hmem => ?_)
      obtain ⟨q,hq,hnonce,hstate⟩ := mem_fakedBy hok hmem
      obtain rfl := PasskeyServiceCall.insertAuth.inj hq
      exact ⟨hnonce.trans (by rw [h.stream]),hstate⟩
    · rw [hnofake (fun p hc => hauth ⟨p,hc⟩),List.append_nil]
      exact h.fewer (FewerPending.serve w (fun p hc => hreg ⟨p,hc⟩) (fun p hc => hauth ⟨p,hc⟩))

theorem CeremonyInv.step (hn : Function.Injective nonces) (h : CeremonyInv nonces s)
    {e : CeremonyEvent W} (he : s.step e = some s') : CeremonyInv nonces s' := by
  cases e with
  | start r => exact h.start r he
  | tick nanos =>
    obtain rfl := Option.some.inj he
    exact ⟨h.ledger.fewer (FewerPending.of_now _ _),h.keep⟩
  | call i =>
    simp only [CeremonySystem.step] at he
    split at he
    · next g c k ht =>
      obtain rfl := Option.some.inj he
      refine ⟨?_,h.keep.call ht⟩
      show CeremonyLedger nonces _ (s.accepted ++ _) _
      rw [acceptedBy_eq (h.keep _ (List.mem_of_getElem? ht))]
      exact ledger_call hn h.ledger (h.keep.allowed ht)
    · simp at he

/-- Nothing accepted so far was accepted late. -/
def InTime (s : CeremonySystem W) : Prop :=
  ∀ a ∈ s.accepted, a.acceptedAt ≤ a.createdAt + ceremonyTtl

/-- A step leaves everything accepted in time if and only if it was so before and the step is
timely. -/
theorem inTime_step (h : CeremonyInv nonces s) {e : CeremonyEvent W} (he : s.step e = some s') :
    s'.InTime ↔ s.InTime ∧ s.Timely e := by
  cases e with
  | start r =>
    obtain rfl := Option.some.inj he
    exact ⟨fun h => ⟨h,trivial⟩,And.left⟩
  | tick nanos =>
    obtain rfl := Option.some.inj he
    exact ⟨fun h => ⟨h,trivial⟩,And.left⟩
  | call i =>
    simp only [CeremonySystem.step] at he
    split at he
    · next g c k ht =>
      obtain rfl := Option.some.inj he
      rw [timely_call ht]
      simp only [InTime,acceptedBy_eq (h.keep _ (List.mem_of_getElem? ht)),List.forall_mem_append,
        Option.mem_toList,Option.mem_def]
    · simp at he

end CeremonySystem

/-- A crate that accepts every credential. -/
def lenientWebauthn : Webauthn where
  PasskeyRegistration := Unit
  PasskeyAuthentication := Unit
  RegisterPublicKeyCredential := Unit
  PublicKeyCredential := Unit
  Passkey := Unit
  AuthenticationResult := Unit
  configured := true
  decodeCredentialId _ := none
  startPasskeyRegistration _ _ _ _ _ := .ok ()
  startPasskeyAuthentication _ _ := .ok ()
  registerCredential _ := .ok ()
  publicKeyCredential _ := .ok ()
  finishPasskeyRegistration _ _ := .ok ()
  finishPasskeyAuthentication _ _ := .ok ()
  credId _ := "key"

/-- Nonces of growing length. -/
def sampleNonces (k : Nat) : String := String.ofList (List.replicate k 'n')

theorem sampleNonces_injective : Function.Injective sampleNonces := by
  intro j k h
  have hlen := congrArg List.length (String.ofList_injective h)
  simpa using hlen

/-- A registration is begun, and finished 300 seconds later. -/
def registeredInTime : List (CeremonyEvent lenientWebauthn) :=
  [.start (.beginRegistration "1" "ann@example.com" "laptop" [] [] 0),.call 0,.call 0,
    .tick 300000000000,.start (.finishRegistration (sampleNonces 0) .null),.call 1]

/-- The service is purged every 300 seconds; a registration begun a second after a purge outlives
the next one, and is finished 301 seconds old. -/
def registeredBetweenPurges : List (CeremonyEvent lenientWebauthn) :=
  [.start .purgeStale,.call 0,.call 0,.call 0,.tick 1000000000,
    .start (.beginRegistration "1" "ann@example.com" "laptop" [] [] 0),.call 1,.call 1,
    .tick 299000000000,.start .purgeStale,.call 2,.call 2,.call 2,.tick 2000000000,
    .start (.finishRegistration (sampleNonces 0) .null),.call 3]

end Rav
