import Rav.Db.Identities
import Rav.Error
import Rav.Str
import Rav.Runs
import Rav.Threads

/-!
# The default identity

The handlers of `routes::identities`, which write identities, and what a login does to them: in the
background it adds an identity for every alias the mail server lists, and by itself it creates the account's
own as the default if there is none yet. `lower` is `str::to_lowercase`.

Clearing the old default and setting the new one are two statements, a login looks for identities
before it creates one, and the aliases of an account are added in the background from a list read
beforehand. Where each such check is still true when its statement runs, one identity at most is
the default, every login leaves the account's own address and a default, and seeding doubles no
address.

## Main definitions

- `createIdentityHandler`, `updateIdentityHandler`, `deleteIdentityHandler`
- `aliasesFor`, `seedIdentities` — the identities of the mail server's alias list
- `ensureIdentity` — the account's own
- `IdentityStance`, with `next`, `Allows` and `Returned` — how far a login is
- `IdentitySystem`, `IdentityEvent`, `IdentitySystem.step` — requests and logins in progress
- `IdentitiesSound` — one default, complete logins, no address seeded twice
- `IdentitySystem.Undisturbed` — a statement finds true what its request has checked
-/

namespace Rav

/-- What comes of a request, a seeding or a login. -/
inductive IdentityReply
  | identity (status : Nat) (r : Identity)
  | deleted
  | refused (e : AppError)
  | seeded (r : Except String Nat)
  | loggedIn

/-! ### Handlers -/

/-- `POST /api/identities`. -/
def createIdentityHandler (data : CreateIdentity) : IdentityTask IdentityReply :=
  if strTrim data.email = "" then pure (.refused (.badRequest "Email is required"))
  else do
    match ← identityCall .withUserDb with
    | .error (e : String) => pure (.refused (.internalError e))
    | .ok () =>
      match ← createIdentity data with
      | .error e => pure (.refused (.internalError e))
      | .ok r => pure (.identity 201 r)

/-- `PUT /api/identities/{id}`. -/
def updateIdentityHandler (id : Int) (data : UpdateIdentity) : IdentityTask IdentityReply := do
  match ← identityCall .withUserDb with
  | .error (e : String) => pure (.refused (.internalError e))
  | .ok () =>
    match ← updateIdentity id data with
    | .error e => pure (.refused (.internalError e))
    | .ok none => pure (.refused (.notFound "Identity not found"))
    | .ok (some r) => pure (.identity 200 r)

/-- `DELETE /api/identities/{id}`. -/
def deleteIdentityHandler (id : Int) : IdentityTask IdentityReply := do
  match ← identityCall .withUserDb with
  | .error (e : String) => pure (.refused (.internalError e))
  | .ok () =>
    match ← identityCall (.deleteIdentity id) with
    | .error (e : String) => pure (.refused (.internalError e))
    | .ok false => pure (.refused (.notFound "Identity not found"))
    | .ok true => pure .deleted

/-! ### Aliases -/

/-- One row of the mail server's alias list. -/
structure Alias where
  address : String
  /-- Delivery targets, comma-separated when an alias fans out. -/
  goto : String
  active : Int
  deriving DecidableEq, Repr

/-- The active aliases that deliver to `mailbox`, sorted; none if there is no answer. -/
def aliasesFor (lower : String → String) (answer : Option (List Alias)) (mailbox : String) :
    List String :=
  let targets (a : Alias) := (splitAll [','] a.goto.toList).map (fun t => strTrim (String.ofList t))
  (((answer.getD []).filter (fun a => a.active ≠ 0)).filter
    (fun a => (targets a).any (fun t => eqIgnoreAsciiCase t (lower mailbox)))).map
      Alias.address |>.insertionSort (· ≤ ·)

/-- The identity seeded for an alias, named after what stands before its `@`. -/
def aliasIdentity (address : String) : CreateIdentity where
  displayName := String.ofList ((splitAll ['@'] address.toList).headD [])
  email := address

/-- The loop of `seed_identities`: the addresses known are those before it. -/
def seedAliases (lower : String → String) (known : List String) :
    List String → Nat → IdentityTask Nat
  | [], added => pure added
  | address :: rest, added =>
    if known.contains (lower address) then seedAliases lower known rest added
    else do
      match ← createIdentity (aliasIdentity address) with
      | .ok _ => seedAliases lower known rest (added + 1)
      | .error _ => seedAliases lower known rest added

/-- Create an identity for every alias that does not have one yet. -/
def seedIdentities (lower : String → String) (aliases : List String) :
    IdentityTask (Except String Nat) :=
  if aliases = [] then pure (.ok 0)
  else do
    match ← identityCall .withUserDb with
    | .error (e : String) => pure (.error e)
    | .ok () =>
      match ← identityCall .listIdentities with
      | .error (e : String) => pure (.error e)
      | .ok (existing : List Identity) =>
        let added ← seedAliases lower (existing.map (fun r => lower r.email)) aliases 0
        pure (.ok added)

/-- The background task of a login. -/
def seedTask (lower : String → String) (answer : Option (List Alias)) (email : String) :
    IdentityTask IdentityReply := do
  let r ← seedIdentities lower (aliasesFor lower answer email)
  pure (.seeded r)

/-! ### Login -/

/-- The account's own identity, the default. -/
def ownIdentity (email : String) : CreateIdentity := { email := email, isDefault := true }

/-- What a login does to the identities before it creates its session; errors are only logged. -/
def ensureIdentity (email : String) : IdentityTask IdentityReply := do
  match ← identityCall .withUserDb with
  | .error (_ : String) => pure .loggedIn
  | .ok () =>
    match ← identityCall .hasIdentities with
    | .error (_ : String) => pure .loggedIn
    | .ok true => pure .loggedIn
    | .ok false =>
      let _ ← createIdentity (ownIdentity email)
      pure .loggedIn

end Rav

namespace Rav

/-! ### Requests and logins in progress -/

/-- How far a login is: it has found identities, or none; it has inserted the account's own; or a
statement has failed. -/
inductive LoginPhase
  | opening
  | empty
  | inserted
  | found
  | failed
  deriving DecidableEq

/-- A request of the user, a background seeding, or a login. -/
inductive IdentityStance
  | user
  | seed
  | login (email : String) (phase : LoginPhase)
  deriving DecidableEq

namespace IdentityStance

def next : IdentityStance → (c : IdentityCall) → c.Answer → IdentityStance
  | .login email .opening, .withUserDb, .error _ => .login email .failed
  | .login email .opening, .hasIdentities, .ok true => .login email .found
  | .login email .opening, .hasIdentities, .ok false => .login email .empty
  | .login email .opening, .hasIdentities, .error _ => .login email .failed
  | .login email .empty, .clearDefault, .error _ => .login email .failed
  | .login email .empty, .insertIdentity _, .ok _ => .login email .inserted
  | .login email .empty, .insertIdentity _, .error _ => .login email .failed
  | g, _, _ => g

/-- The statements a login makes at each phase. -/
def Allows : IdentityStance → IdentityCall → Prop
  | .login _ .opening, c => c = .withUserDb ∨ c = .hasIdentities
  | .login email .empty, c => c = .clearDefault ∨ c = .insertIdentity (ownIdentity email)
  | .login _ .inserted, c => ∃ id, c = .getIdentity id
  | .login _ _, _ => False
  | _, _ => True

/-- A login ends with identities found, or its own inserted, or a failure. -/
def Returned : IdentityStance → IdentityReply → Prop
  | .login _ phase, _ => phase ≠ .opening ∧ phase ≠ .empty
  | _, _ => True

end IdentityStance

/-- A login that has seen to the identities, and the table at that moment. -/
structure CompletedLogin where
  email : String
  db : IdentityDb

/-- An address that a login or a seeding has added, and those there were. -/
structure Seeding where
  address : String
  present : List String

/-- The requests and logins in progress on the table, the logins completed and the addresses
seeded so far, and whether a user has put in an address. -/
structure IdentitySystem where
  threads : Threads IdentityStance IdentityDb IdentityCall IdentityCall.Answer IdentityReply
  logins : List CompletedLogin
  seedings : List Seeding
  typed : Bool

inductive IdentityEvent
  | create (data : CreateIdentity)
  | update (id : Int) (data : UpdateIdentity)
  | delete (id : Int)
  /-- A login, which goes no further if the account is a duplicate; `mailcow` is the answer of the
  mail server, if one is configured. -/
  | login (email : String) (duplicate : Bool) (mailcow : Option (Option (List Alias)))
  /-- The `i`-th task makes its next statement, which may fail. -/
  | call (i : Nat) (fails : Option String)

def completedBy : IdentityStance → IdentityTask IdentityReply → IdentityDb → List CompletedLogin
  | .login email _, .pure _, db => [⟨email,db⟩]
  | _, _, _ => []

/-- What a statement that succeeds seeds. -/
def seededBy (g : IdentityStance) (fails : Option String) (c : IdentityCall) (db : IdentityDb) :
    List Seeding :=
  match g, fails, c with
  | .user, _, _ => []
  | _, none, .insertIdentity data => [⟨data.email,db.identities.map Identity.email⟩]
  | _, _, _ => []

/-- Whether a statement puts in an address of the user's. -/
def types (g : IdentityStance) (c : IdentityCall) : Bool :=
  match g, c with
  | .user, .insertIdentity _ => true
  | _, .updateIdentity _ data => data.email.isSome
  | _, _ => false

/-- The account of a login past its insertion, until it ends. -/
def waitingFor (t : Thread IdentityStance IdentityCall IdentityCall.Answer IdentityReply) :
    Option String :=
  match t with
  | (.login email .inserted,.call _ _) => some email
  | _ => none

namespace IdentitySystem

/-- An account without identities, and no request in progress. -/
def opening : IdentitySystem := ⟨⟨.empty,[]⟩,[],[],false⟩

def start (s : IdentitySystem) (g : IdentityStance) (t : IdentityTask IdentityReply) :
    IdentitySystem :=
  { s with threads := { s.threads with tasks := s.threads.tasks ++ [(g,t)] } }

variable (lower : String → String)

def step (s : IdentitySystem) : IdentityEvent → Option IdentitySystem
  | .create data => some (s.start .user (createIdentityHandler data))
  | .update id data => some (s.start .user (updateIdentityHandler id data))
  | .delete id => some (s.start .user (deleteIdentityHandler id))
  | .login email duplicate mailcow =>
    let s := mailcow.elim s (fun answer => s.start .seed (seedTask lower answer email))
    some (if duplicate then s else s.start (.login email .opening) (ensureIdentity email))
  | .call i fails =>
    match s.threads.tasks[i]? with
    | some (g,.call c k) =>
      let r := c.serve fails s.threads.world
      some ⟨⟨r.2,s.threads.tasks.set i (g.next c r.1,k r.1)⟩,
        s.logins ++ completedBy g (k r.1) r.2,
        s.seedings ++ seededBy g fails c s.threads.world,s.typed || types g c⟩
    | _ => none

def waiting (s : IdentitySystem) : List String := s.threads.tasks.filterMap waitingFor

end IdentitySystem

namespace IdentityDb

variable (db : IdentityDb) (lower : String → String)

/-- At most one identity is the default. -/
def OneDefault : Prop :=
  ∀ a ∈ db.identities, ∀ b ∈ db.identities, a.isDefault = true → b.isDefault = true → a.id = b.id

/-- The address is there, and some identity is the default. -/
def Has (email : String) : Prop :=
  (∃ r ∈ db.identities, r.email = email) ∧ ∃ r ∈ db.identities, r.isDefault = true

/-- No two addresses are equal ignoring case. -/
def Apart : Prop := (db.identities.map (fun r => lower r.email)).Nodup

instance (email : String) : Decidable (db.Has email) := by
  unfold Has
  infer_instance

instance : Decidable db.OneDefault := by
  unfold OneDefault
  infer_instance

end IdentityDb

/-- At most one identity is the default; every login completed left the account's own address and
a default; no address was seeded that was there already, ignoring case; and where only seedings
and logins have put in addresses, no two are equal ignoring case. -/
structure IdentitiesSound (lower : String → String) (s : IdentitySystem) : Prop where
  oneDefault : s.threads.world.OneDefault
  logins : ∀ l ∈ s.logins, l.db.Has l.email
  seedings : ∀ x ∈ s.seedings, lower x.address ∉ x.present.map lower
  apart : s.typed = false → s.threads.world.Apart lower

/-! ### What a statement has to find -/

/-- A statement that makes an identity the default finds no other. -/
def Unrivalled (db : IdentityDb) : IdentityCall → Prop
  | .insertIdentity data => data.isDefault = true → ∀ r ∈ db.identities, r.isDefault = false
  | .updateIdentity id data =>
    data.isDefault = some true → ∀ r ∈ db.identities, r.isDefault = true → r.id = id
  | _ => True

/-- A seeding, or a login, adds an address that no identity has, ignoring case. -/
def Unseen (lower : String → String) (db : IdentityDb) : IdentityStance → IdentityCall → Prop
  | .user, _ => True
  | _, .insertIdentity data => lower data.email ∉ db.identities.map (fun r => lower r.email)
  | _, _ => True

/-- A login finds no identities and its statements succeed, or the account's own address and a
default are there. -/
def Provided (fails : Option String) (db : IdentityDb) : IdentityStance → IdentityCall → Prop
  | .login _ .inserted, _ => True
  | .login email _, .hasIdentities => db.Has email ∨ fails = none ∧ db.identities = []
  | .login email _, _ => db.Has email ∨ fails = none
  | _, _ => True

/-- What a login past its insertion has to find at its end stays: the default flag is not
cleared, and its own identity and the default are neither changed nor deleted. -/
def Spares (waiting : List String) (db : IdentityDb) : IdentityCall → Prop
  | .clearDefault => waiting = []
  | .updateIdentity id _ => ∀ email ∈ waiting, ∀ r ∈ db.identities, r.id = id →
    r.isDefault = false ∧ r.email ≠ email
  | .deleteIdentity id => ∀ email ∈ waiting, ∀ r ∈ db.identities, r.id = id →
    r.isDefault = false ∧ r.email ≠ email
  | _ => True

namespace IdentitySystem

/-- Every statement finds true what its request has checked. -/
def Undisturbed (lower : String → String) (s : IdentitySystem) : IdentityEvent → Prop
  | .call i fails =>
    match s.threads.upcoming i with
    | some (g,c) =>
      Provided fails s.threads.world g c ∧ (fails = none → Unrivalled s.threads.world c ∧
        Unseen lower s.threads.world g c ∧ Spares s.waiting s.threads.world c)
    | none => True
  | _ => True

instance (db : IdentityDb) (c : IdentityCall) : Decidable (Unrivalled db c) := by
  unfold Unrivalled
  split <;> infer_instance

instance (lower : String → String) (db : IdentityDb) (g : IdentityStance) (c : IdentityCall) :
    Decidable (Unseen lower db g c) := by
  unfold Unseen
  split <;> infer_instance

instance (fails : Option String) (db : IdentityDb) (g : IdentityStance) (c : IdentityCall) :
    Decidable (Provided fails db g c) := by
  unfold Provided
  split <;> infer_instance

instance (waiting : List String) (db : IdentityDb) (c : IdentityCall) :
    Decidable (Spares waiting db c) := by
  unfold Spares
  split <;> infer_instance

instance (lower : String → String) (s : IdentitySystem) (e : IdentityEvent) :
    Decidable (s.Undisturbed lower e) := by
  unfold Undisturbed
  split
  · split <;> infer_instance
  · infer_instance

end IdentitySystem

/-! ### What each task may do -/

/-- A task keeps to what its stance allows. -/
abbrev Conforms (g : IdentityStance) (t : IdentityTask IdentityReply) : Prop :=
  t.Follows IdentityStance.Allows IdentityStance.next IdentityStance.Returned g

theorem conforms_user (t : IdentityTask IdentityReply) : Conforms .user t := by
  induction t with
  | pure a => trivial
  | call c k ih => exact ⟨trivial,fun r => ih r⟩

theorem conforms_seed (t : IdentityTask IdentityReply) : Conforms .seed t := by
  induction t with
  | pure a => trivial
  | call c k ih => exact ⟨trivial,fun r => ih r⟩

/-- Creating the account's own identity ends with it inserted, or with a failure. -/
theorem follows_createOwn (email : String) :
    (createIdentity (ownIdentity email)).Follows IdentityStance.Allows IdentityStance.next
      (fun g _ => g = .login email .inserted ∨ g = .login email .failed) (.login email .empty) := by
  refine Prog.Follows.perform_bind (Or.inl rfl) (fun r => ?_)
  rcases r with e | _
  · exact Or.inr rfl
  · refine Prog.Follows.perform_bind (Or.inr rfl) (fun r => ?_)
    rcases r with e | id
    · exact Or.inr rfl
    · refine Prog.Follows.perform_bind ⟨id,rfl⟩ (fun r => ?_)
      rcases r with e | r | r
      · exact Or.inl rfl
      · exact Or.inl rfl
      · exact Or.inl rfl

theorem conforms_ensureIdentity (email : String) :
    Conforms (.login email .opening) (ensureIdentity email) := by
  refine Prog.Follows.perform_bind (Or.inl rfl) (fun r => ?_)
  rcases r with e | _
  · exact ⟨nofun,nofun⟩
  · refine Prog.Follows.perform_bind (Or.inr rfl) (fun r => ?_)
    rcases r with e | any
    · exact ⟨nofun,nofun⟩
    · cases any with
      | true => exact ⟨nofun,nofun⟩
      | false =>
        refine (follows_createOwn email).bind (fun g r hg => ?_)
        rcases hg with rfl | rfl <;> exact ⟨nofun,nofun⟩

/-! ### What a statement does to the table -/

namespace IdentityDb

variable {db : IdentityDb} {lower : String → String} {email : String} {id : Int}

theorem oneDefault_clearDefault : db.clearDefault.OneDefault := by
  intro a ha b _ hda _
  obtain ⟨r,-,rfl⟩ := List.mem_map.mp ha
  simp at hda

theorem oneDefault_insertRow {data : CreateIdentity} (h : db.OneDefault)
    (hdata : Unrivalled db (.insertIdentity data)) : (db.insertRow data).OneDefault := by
  have hnew : ∀ r ∈ db.identities, r.isDefault = true → data.isDefault = false := by
    intro r hr hd
    cases hdef : data.isDefault with
    | false => rfl
    | true => simp [hdata hdef r hr] at hd
  intro a ha b hb hda hdb
  rcases List.mem_append.mp ha with ha | ha <;> rcases List.mem_append.mp hb with hb | hb
  · exact h a ha b hb hda hdb
  · obtain rfl := List.mem_singleton.mp hb
    simp [CreateIdentity.row,hnew a ha hda] at hdb
  · obtain rfl := List.mem_singleton.mp ha
    simp [CreateIdentity.row,hnew b hb hdb] at hda
  · rw [List.mem_singleton.mp ha,List.mem_singleton.mp hb]

/-- A default row after an update was one before, or is the row made the default. -/
theorem default_updateRow {data : UpdateIdentity} {a : Identity}
    (ha : a ∈ (db.updateRow id data).identities) (hd : a.isDefault = true) :
    ∃ r ∈ db.identities, r.id = a.id ∧
      (r.isDefault = true ∨ data.isDefault = some true ∧ r.id = id) := by
  obtain ⟨r,hr,rfl⟩ := List.mem_map.mp ha
  by_cases hid : r.id = id
  · rw [if_pos hid] at hd ⊢
    refine ⟨r,hr,rfl,?_⟩
    cases hdef : data.isDefault with
    | none => exact Or.inl (by simpa [UpdateIdentity.apply,hdef] using hd)
    | some b =>
      have hb : b = true := by simpa [UpdateIdentity.apply,hdef] using hd
      exact Or.inr ⟨by rw [hb],hid⟩
  · rw [if_neg hid] at hd ⊢
    exact ⟨r,hr,rfl,Or.inl hd⟩

theorem oneDefault_updateRow {data : UpdateIdentity} (h : db.OneDefault)
    (hdata : Unrivalled db (.updateIdentity id data)) : (db.updateRow id data).OneDefault := by
  intro a ha b hb hda hdb
  obtain ⟨r,hr,hra,hrd⟩ := default_updateRow ha hda
  obtain ⟨q,hq,hqb,hqd⟩ := default_updateRow hb hdb
  rw [← hra,← hqb]
  rcases hrd with hrd | ⟨hset,hrid⟩ <;> rcases hqd with hqd | ⟨hset',hqid⟩
  · exact h r hr q hq hrd hqd
  · exact (hdata hset' r hr hrd).trans hqid.symm
  · exact hrid.trans (hdata hset q hq hqd).symm
  · exact hrid.trans hqid.symm

theorem oneDefault_deleteIdentity (h : db.OneDefault) : (db.deleteIdentity id).2.OneDefault :=
  fun a ha b hb => h a (List.mem_filter.mp ha).1 b (List.mem_filter.mp hb).1

theorem apart_mapRows {f : Identity → Identity} (hf : ∀ r, (f r).id = r.id)
    (he : ∀ r, (f r).email = r.email) (h : db.Apart lower) : (db.mapRows f hf).Apart lower := by
  have hcomp : (fun r => lower r.email) ∘ f = fun r => lower r.email := by
    funext r
    exact congrArg lower (he r)
  unfold Apart mapRows
  rw [List.map_map,hcomp]
  exact h

theorem apart_insertRow {data : CreateIdentity} (h : db.Apart lower)
    (hnew : lower data.email ∉ db.identities.map (fun r => lower r.email)) :
    (db.insertRow data).Apart lower := by
  unfold Apart insertRow
  rw [List.map_append,List.nodup_append]
  refine ⟨h,List.nodup_singleton _,?_⟩
  rintro a ha b hb rfl
  have heq : a = lower data.email := List.mem_singleton.mp hb
  exact hnew (heq ▸ ha)

theorem apart_deleteIdentity (h : db.Apart lower) : (db.deleteIdentity id).2.Apart lower :=
  h.sublist (List.filter_sublist.map _)

/-- The account's own identity, once inserted, is there as the default. -/
theorem has_insertOwn : (db.insertRow (ownIdentity email)).Has email :=
  ⟨⟨_,List.mem_append_right _ (List.mem_singleton_self _),rfl⟩,
    ⟨_,List.mem_append_right _ (List.mem_singleton_self _),rfl⟩⟩

theorem Has.insertRow {data : CreateIdentity} (h : db.Has email) :
    (db.insertRow data).Has email := by
  obtain ⟨⟨r,hr,hre⟩,q,hq,hqd⟩ := h
  exact ⟨⟨r,List.mem_append_left _ hr,hre⟩,q,List.mem_append_left _ hq,hqd⟩

/-- Changing another row leaves the own address and the default. -/
theorem Has.updateRow {data : UpdateIdentity} (h : db.Has email)
    (hother : ∀ r ∈ db.identities, r.id = id → r.isDefault = false ∧ r.email ≠ email) :
    (db.updateRow id data).Has email := by
  obtain ⟨⟨r,hr,hre⟩,q,hq,hqd⟩ := h
  have hrid : r.id ≠ id := fun he => (hother r hr he).2 hre
  have hqid : q.id ≠ id := fun he => by simp [(hother q hq he).1] at hqd
  exact ⟨⟨r,List.mem_map.mpr ⟨r,hr,if_neg hrid⟩,hre⟩,q,List.mem_map.mpr ⟨q,hq,if_neg hqid⟩,hqd⟩

theorem Has.deleteIdentity (h : db.Has email)
    (hother : ∀ r ∈ db.identities, r.id = id → r.isDefault = false ∧ r.email ≠ email) :
    (db.deleteIdentity id).2.Has email := by
  obtain ⟨⟨r,hr,hre⟩,q,hq,hqd⟩ := h
  have hrid : r.id ≠ id := fun he => (hother r hr he).2 hre
  have hqid : q.id ≠ id := fun he => by simp [(hother q hq he).1] at hqd
  exact ⟨⟨r,List.mem_filter.mpr ⟨hr,by simp [hrid]⟩,hre⟩,q,
    List.mem_filter.mpr ⟨hq,by simp [hqid]⟩,hqd⟩

end IdentityDb

/-- What a statement that succeeds leaves. -/
def IdentityCall.effect (db : IdentityDb) : IdentityCall → IdentityDb
  | .clearDefault => db.clearDefault
  | .insertIdentity data => db.insertRow data
  | .updateIdentity id data => db.updateRow id data
  | .deleteIdentity id => (db.deleteIdentity id).2
  | _ => db

theorem serve_snd (fails : Option String) (c : IdentityCall) (db : IdentityDb) :
    (c.serve fails db).2 = if fails = none then c.effect db else db := by
  cases c <;> cases fails <;> rfl

section Effect

variable {lower : String → String} {db : IdentityDb} {g : IdentityStance} {c : IdentityCall}

theorem oneDefault_effect (h : db.OneDefault) (hc : Unrivalled db c) :
    (c.effect db).OneDefault := by
  cases c with
  | clearDefault => exact IdentityDb.oneDefault_clearDefault
  | insertIdentity data => exact IdentityDb.oneDefault_insertRow h hc
  | updateIdentity id data => exact IdentityDb.oneDefault_updateRow h hc
  | deleteIdentity id => exact IdentityDb.oneDefault_deleteIdentity h
  | _ => exact h

theorem apart_effect (h : db.Apart lower) (hc : Unseen lower db g c) (ht : types g c = false) :
    (c.effect db).Apart lower := by
  cases c with
  | clearDefault =>
    exact IdentityDb.apart_mapRows (f := fun r => { r with isDefault := false }) (fun _ => rfl)
      (fun _ => rfl) h
  | insertIdentity data =>
    cases g with
    | user => simp [types] at ht
    | seed => exact IdentityDb.apart_insertRow h hc
    | login email phase => exact IdentityDb.apart_insertRow h hc
  | updateIdentity id data =>
    have hnone : data.email = none := by simpa [types] using ht
    refine IdentityDb.apart_mapRows (f := fun r => if r.id = id then data.apply r else r)
      (fun r => by split <;> rfl) (fun r => ?_) h
    split
    · simp [UpdateIdentity.apply,hnone]
    · rfl
  | deleteIdentity id => exact IdentityDb.apart_deleteIdentity h
  | _ => exact h

theorem has_effect {waiting : List String} {email : String} (hmem : email ∈ waiting)
    (h : db.Has email) (hc : Spares waiting db c) : (c.effect db).Has email := by
  cases c with
  | clearDefault =>
    have hnone : waiting = [] := hc
    exact absurd (hnone ▸ hmem) List.not_mem_nil
  | insertIdentity data => exact h.insertRow
  | updateIdentity id data => exact h.updateRow (hc email hmem)
  | deleteIdentity id => exact h.deleteIdentity (hc email hmem)
  | _ => exact h

end Effect

/-- Once a login has found identities, or inserted its own, or failed, its address and a default
are there. -/
theorem login_serve {email : String} {phase : LoginPhase} {c : IdentityCall} {db : IdentityDb}
    {fails : Option String} (hok : (IdentityStance.login email phase).Allows c)
    (hp : Provided fails db (.login email phase) c) (hins : phase = .inserted → db.Has email) :
    ∃ phase', (IdentityStance.login email phase).next c (c.serve fails db).1 = .login email phase' ∧
      (phase' ≠ .opening → phase' ≠ .empty → (c.serve fails db).2.Has email) := by
  cases phase with
  | opening =>
    rcases hok with rfl | rfl
    · cases fails with
      | none => exact ⟨.opening,rfl,fun h => absurd rfl h⟩
      | some e => exact ⟨.failed,rfl,fun _ _ => hp.resolve_right nofun⟩
    · cases fails with
      | some e => exact ⟨.failed,rfl,fun _ _ => hp.resolve_right (fun h => nomatch h.1)⟩
      | none =>
        cases hany : db.hasIdentities with
        | false =>
          refine ⟨.empty,?_,fun _ h => absurd rfl h⟩
          show IdentityStance.next _ .hasIdentities (.ok db.hasIdentities) = _
          rw [hany]
          rfl
        | true =>
          have hne : db.identities ≠ [] := List.ne_nil_of_length_pos (of_decide_eq_true hany)
          refine ⟨.found,?_,fun _ _ => hp.resolve_right (fun h => hne h.2)⟩
          show IdentityStance.next _ .hasIdentities (.ok db.hasIdentities) = _
          rw [hany]
          rfl
  | empty =>
    rcases hok with rfl | rfl
    · cases fails with
      | none => exact ⟨.empty,rfl,fun _ h => absurd rfl h⟩
      | some e => exact ⟨.failed,rfl,fun _ _ => hp.resolve_right nofun⟩
    · cases fails with
      | none => exact ⟨.inserted,rfl,fun _ _ => IdentityDb.has_insertOwn⟩
      | some e => exact ⟨.failed,rfl,fun _ _ => hp.resolve_right nofun⟩
  | inserted =>
    obtain ⟨id,rfl⟩ := hok
    refine ⟨.inserted,rfl,fun _ _ => ?_⟩
    rw [serve_snd]
    simpa [IdentityCall.effect] using hins rfl
  | found => exact hok.elim
  | failed => exact hok.elim

/-! ### Runs -/

namespace IdentitySystem

/-- The system is sound, its tasks keep to their stances, and what a login past its insertion has
to find is there. -/
structure IdentityInv (lower : String → String) (s : IdentitySystem) : Prop where
  keep : Threads.Keep IdentityStance.Allows IdentityStance.next IdentityStance.Returned s.threads
  sound : IdentitiesSound lower s
  has : ∀ email ∈ s.waiting, s.threads.world.Has email

variable {lower : String → String} {s s' : IdentitySystem}

theorem identityInv_opening (lower : String → String) : IdentityInv lower opening where
  keep := fun _ ht => absurd ht List.not_mem_nil
  sound := {
    oneDefault := fun _ ha => absurd ha List.not_mem_nil
    logins := fun _ hl => absurd hl List.not_mem_nil
    seedings := fun _ hx => absurd hx List.not_mem_nil
    apart := fun _ => List.nodup_nil }
  has := fun _ he => absurd he List.not_mem_nil

theorem IdentityInv.start {g : IdentityStance} {t : IdentityTask IdentityReply}
    (h : IdentityInv lower s) (ht : Conforms g t) (hg : waitingFor (g,t) = none) :
    IdentityInv lower (s.start g t) where
  keep := h.keep.start ht
  sound := ⟨h.sound.oneDefault,h.sound.logins,h.sound.seedings,h.sound.apart⟩
  has := by
    have hwait : (s.start g t).waiting = s.waiting := by
      simp [IdentitySystem.waiting,IdentitySystem.start,List.filterMap_append,hg]
    rw [hwait]
    exact h.has

/-- A login that waits after a statement has just made it, or waited before it. -/
theorem waiting_set {tasks : List (Thread IdentityStance IdentityCall IdentityCall.Answer
      IdentityReply)} {i : Nat}
    {t : Thread IdentityStance IdentityCall IdentityCall.Answer IdentityReply} {email : String}
    (he : email ∈ (tasks.set i t).filterMap waitingFor) :
    waitingFor t = some email ∨ email ∈ tasks.filterMap waitingFor := by
  obtain ⟨u,hu,hue⟩ := List.mem_filterMap.mp he
  rcases List.mem_or_eq_of_mem_set hu with hu | rfl
  · exact Or.inr (List.mem_filterMap.mpr ⟨u,hu,hue⟩)
  · exact Or.inl hue

theorem waitingFor_eq_some
    {t : Thread IdentityStance IdentityCall IdentityCall.Answer IdentityReply} {email : String}
    (h : waitingFor t = some email) : t.1 = .login email .inserted := by
  unfold waitingFor at h
  split at h
  · rw [Option.some.inj h]
  · simp at h

theorem mem_completedBy {g : IdentityStance} {t : IdentityTask IdentityReply} {db : IdentityDb}
    {l : CompletedLogin} (h : l ∈ completedBy g t db) :
    ∃ email phase a, g = .login email phase ∧ t = .pure a ∧ l = ⟨email,db⟩ := by
  unfold completedBy at h
  split at h
  · exact ⟨_,_,_,rfl,rfl,List.mem_singleton.mp h⟩
  · exact absurd h List.not_mem_nil

theorem mem_seededBy {g : IdentityStance} {fails : Option String} {c : IdentityCall}
    {db : IdentityDb} {x : Seeding} (h : x ∈ seededBy g fails c db) :
    g ≠ .user ∧ fails = none ∧ ∃ data, c = .insertIdentity data ∧
      x = ⟨data.email,db.identities.map Identity.email⟩ := by
  unfold seededBy at h
  split at h
  · exact absurd h List.not_mem_nil
  · next hg => exact ⟨hg,rfl,_,rfl,List.mem_singleton.mp h⟩
  · exact absurd h List.not_mem_nil

/-- The stance after a call is a login's only if it was one before. -/
theorem next_login {g : IdentityStance} {c : IdentityCall} {r : c.Answer} {email : String}
    {phase : LoginPhase} (h : g.next c r = .login email phase) :
    ∃ phase', g = .login email phase' := by
  cases g with
  | user => exact nomatch (show IdentityStance.user = _ from h)
  | seed => exact nomatch (show IdentityStance.seed = _ from h)
  | login email' phase' =>
    unfold IdentityStance.next at h
    split at h <;> simp_all

theorem IdentityInv.call {i : Nat} {fails : Option String} (h : IdentityInv lower s)
    (hok : s.Undisturbed lower (.call i fails)) (he : s.step lower (.call i fails) = some s') :
    IdentityInv lower s' := by
  simp only [step] at he
  split at he
  swap
  · simp at he
  next g c k ht =>
  obtain rfl := Option.some.inj he
  simp only [Undisturbed,Threads.upcoming_eq ht] at hok
  obtain ⟨hprovided,hfree⟩ := hok
  have hallowed := h.keep.allowed ht
  have hkeep := h.keep.call (w := (c.serve fails s.threads.world).2)
    (r := (c.serve fails s.threads.world).1) ht
  -- what a login has to find, once it has seen to the identities
  have hlogin {email : String} {phase : LoginPhase} (hg : g = .login email phase) :
      ∃ phase', g.next c (c.serve fails s.threads.world).1 = .login email phase' ∧
        (phase' ≠ .opening → phase' ≠ .empty → (c.serve fails s.threads.world).2.Has email) := by
    subst hg
    refine login_serve hallowed hprovided (fun hins => h.has email ?_)
    subst hins
    exact List.mem_filterMap.mpr ⟨_,List.mem_of_getElem? ht,rfl⟩
  refine ⟨hkeep,⟨?_,?_,?_,?_⟩,?_⟩
  · show (c.serve fails s.threads.world).2.OneDefault
    rw [serve_snd]
    split
    · next hf => exact oneDefault_effect h.sound.oneDefault (hfree hf).1
    · exact h.sound.oneDefault
  · intro l hl
    rcases List.mem_append.mp hl with hl | hl
    · exact h.sound.logins l hl
    · obtain ⟨email,phase,a,hg,hk,rfl⟩ := mem_completedBy hl
      obtain ⟨phase',hnext,hhas⟩ := hlogin hg
      have hret := hkeep _ (mem_set_new ht)
      rw [hnext,hk] at hret
      obtain ⟨hopening,hempty⟩ : phase' ≠ .opening ∧ phase' ≠ .empty := hret
      exact hhas hopening hempty
  · intro x hx
    rcases List.mem_append.mp hx with hx | hx
    · exact h.sound.seedings x hx
    · obtain ⟨hg,hf,data,rfl,rfl⟩ := mem_seededBy hx
      have hunseen := (hfree hf).2.1
      show lower data.email ∉ (s.threads.world.identities.map Identity.email).map lower
      rw [List.map_map]
      cases g with
      | user => exact absurd rfl hg
      | seed => exact hunseen
      | login email phase => exact hunseen
  · intro htyped
    obtain ⟨htyped,htypes⟩ := Bool.or_eq_false_iff.mp htyped
    show (c.serve fails s.threads.world).2.Apart lower
    rw [serve_snd]
    split
    · next hf => exact apart_effect (h.sound.apart htyped) (hfree hf).2.1 htypes
    · exact h.sound.apart htyped
  · intro email hwait
    show (c.serve fails s.threads.world).2.Has email
    rcases waiting_set hwait with hnew | hold
    · have hstance := waitingFor_eq_some hnew
      obtain ⟨phase,hg⟩ := next_login hstance
      obtain ⟨phase',hnext,hhas⟩ := hlogin hg
      obtain rfl : LoginPhase.inserted = phase' := by
        have := hstance.symm.trans hnext
        simpa using this
      exact hhas nofun nofun
    · rw [serve_snd]
      split
      · next hf => exact has_effect hold (h.has email hold) (hfree hf).2.2
      · exact h.has email hold

theorem IdentityInv.step {e : IdentityEvent} (h : IdentityInv lower s)
    (hok : s.Undisturbed lower e) (he : s.step lower e = some s') : IdentityInv lower s' := by
  cases e with
  | create data =>
    obtain rfl := Option.some.inj he
    exact h.start (conforms_user _) rfl
  | update id data =>
    obtain rfl := Option.some.inj he
    exact h.start (conforms_user _) rfl
  | delete id =>
    obtain rfl := Option.some.inj he
    exact h.start (conforms_user _) rfl
  | login email duplicate mailcow =>
    obtain rfl := Option.some.inj he
    have hseeded : IdentityInv lower
        (mailcow.elim s (fun answer => s.start .seed (seedTask lower answer email))) := by
      cases mailcow with
      | none => exact h
      | some answer => exact h.start (conforms_seed _) rfl
    split
    · exact hseeded
    · exact hseeded.start (conforms_ensureIdentity email) rfl
  | call i fails => exact h.call hok he

end IdentitySystem

def asciiLower (s : String) : String := s.map Char.toLower

/-- The `i`-th task makes `n` statements, none of which fails. -/
def identityCalls (i n : Nat) : List IdentityEvent := List.replicate n (.call i none)

def salesAlias : Alias := ⟨"sales@example.com","ann@example.com",1⟩

/-- A first login adds the account's own identity, and then the alias; another identity becomes
the default. -/
def firstLogin : List IdentityEvent :=
  [.login "ann@example.com" false (some (some [salesAlias]))] ++ identityCalls 1 5 ++
    identityCalls 0 4 ++ [.update 2 { isDefault := some true }] ++ identityCalls 2 5

/-- The alias is added before the login looks for identities: it finds one, and creates no
other. -/
def aliasFirst : List IdentityEvent :=
  [.login "ann@example.com" false (some (some [salesAlias]))] ++ identityCalls 0 4 ++
    identityCalls 1 2

end Rav
