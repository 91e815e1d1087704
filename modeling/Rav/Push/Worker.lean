import Mathlib.Data.List.Sort
import Rav.Realtime.Idle
import Rav.Runs

/-!
# `push::worker`

The worker keeps IDLE alive for users who stored a push credential: again and again it goes through
the data directory, tries what it has not yet started, and starts what works. Sockets, the worker's
passes and the requests that store and delete credentials are interleaved call by call. What is
decrypted under the configured key is a parameter. A push task listens for ever, since its receiver
keeps its channel (`receivers_attached`), so `running` never loses an entry.

## Main definitions

- `StoredCredential.unseal`, `DirEntry.isMailbox`
- `usersWithPush`, `decryptCredentials`, `credentialStillWorks`, `startForUser`, `scan`
- `LiveStage` — how far a socket's handler or a pass has come, with `next` and `Allows`
- `LiveSystem`, `LiveEvent`, `LiveSystem.step` — all of it, interleaved
-/

namespace Rav

variable (decrypt : List UInt8 → List UInt8 → Option (List UInt8))

/-- Fails closed: a wrong key, a truncated nonce or a tampered ciphertext all return an error. -/
def credentialOpen (nonce ciphertext : List UInt8) : Except String String :=
  if nonce.length ≠ 12 then .error "push credential nonce is not 12 bytes"
  else match decrypt nonce ciphertext with
    | none => .error "push credential did not decrypt - wrong key or tampered data"
    | some plaintext => match String.fromUTF8? ⟨plaintext.toArray⟩ with
      | none => .error "push credential is not valid UTF-8"
      | some password => .ok password

/-- The IMAP credentials a stored credential stands for. -/
def StoredCredential.unseal (row : StoredCredential) : Except String ImapCredentials :=
  match credentialOpen decrypt row.nonce row.ciphertext with
  | .ok password => .ok ⟨row.imapHost,row.imapPort,true,row.email,password⟩
  | .error e => .error e

/-- The entry may be tried: there is a credential, and it has not been marked invalid. -/
def hasCredential : Option (Option StoredCredential) → Bool
  | some (some row) => row.invalidSince.isNone
  | _ => false

def isAsciiHexdigit (c : Char) : Bool :=
  c.isDigit || ('a' ≤ c && c ≤ 'f') || ('A' ≤ c && c ≤ 'F')

/-- A user directory: the hex SHA-256 of an address, with a database in it. -/
def DirEntry.isMailbox (entry : DirEntry) : Bool :=
  entry.isDir && (entry.name.utf8ByteSize == 64 && entry.name.toList.all isAsciiHexdigit) && entry.hasDb

/-! ### The functions -/

/-- The names of the mailboxes among the entries that have a usable credential. -/
def withCredential : List DirEntry → LiveTask (List String)
  | [] => pure []
  | entry :: entries => do
    let stored : Option (Option StoredCredential) ← liveCall (.getCredential entry.name)
    let found ← withCredential entries
    pure (if hasCredential stored then entry.name :: found else found)

/-- The user hashes whose mailbox has a usable stored credential. -/
def usersWithPush : LiveTask (List String) := do
  let entries : List DirEntry ← liveCall .readDir
  let found ← withCredential (entries.filter DirEntry.isMailbox)
  pure (found.insertionSort (· ≤ ·))

/-- Read a user's stored credential and unseal it into IMAP credentials. -/
def decryptCredentials (user : String) : LiveTask (Option ImapCredentials) := do
  match ← liveCall (.getCredential user) with
  | some (some (row : StoredCredential)) =>
    match row.unseal decrypt with
    | .ok creds => pure (some creds)
    | .error _ => do
      liveCall (.markInvalid user)
      pure none
  | _ => pure none

/-- Probe the stored credential once before putting it to work. -/
def credentialStillWorks (user : String) (creds : ImapCredentials) : LiveTask Bool := do
  match ← liveCall (.listFolders creds) with
  | .ok _ => pure true
  | .error .authenticationFailed => do
    liveCall (.markInvalid user)
    pure false
  | .error _ => pure false

/-- Keep one user's INBOX under IDLE and turn `NewMail` into a push. -/
def startForUser (user : String) (creds : ImapCredentials) : LiveTask Unit := do
  startIdle user "INBOX" creds
  liveCall (.listen user creds)

def scanUser (user : String) : LiveTask Unit := do
  let running : Bool ← liveCall (.isRunning user)
  if running then pure ()
  else do
    match ← decryptCredentials decrypt user with
    | none => pure ()
    | some creds => do
      let works ← credentialStillWorks user creds
      if works then do
        liveCall (.setRunning user)
        startForUser user creds
      else pure ()

def scanUsers : List String → LiveTask Unit
  | [] => pure ()
  | user :: users => do
    scanUser decrypt user
    scanUsers users

/-- One pass of the worker. -/
def scan : LiveTask Unit := do
  let users ← usersWithPush
  scanUsers decrypt users

/-! ### How far a socket or a pass has come -/

/-- How far `startIdle` has come. -/
inductive Starting
  | unsure
  | absent (user : String)
  | spawned (user : String) (handle : Nat)
  deriving DecidableEq, Repr

/-- A socket has started the IDLE tasks of `opened` and not ended, or has ended with `pending` and
`keys` to be stopped; a pass is between users, or at one of them with the row it has read. -/
inductive LiveStage
  | opening (opened : List String) (start : Starting)
  | closing (pending : List String) (keys : List (String × String))
  | aborting (pending : List String) (user : String) (handle : Nat) (keys : List (String × String))
  | scanning
  | checked (user : String)
  | read (user : String) (row : StoredCredential)
  | refusing (user : String) (row : StoredCredential)
  | accepted (user : String) (row : StoredCredential)
  | starting (user : String) (row : StoredCredential) (start : Starting)
  | started (user : String) (row : StoredCredential)
  deriving DecidableEq, Repr

namespace LiveStage

/-- A pass of the worker, not a socket. -/
def scans : LiveStage → Bool
  | .opening _ _ => false
  | .closing _ _ => false
  | .aborting _ _ _ _ => false
  | _ => true

/-- What an answer moves a socket or a pass to. -/
def next : LiveStage → (c : LiveCall) → c.Answer → LiveStage
  | .opening os _, .containsKey key, (present : Bool) =>
    if present then .opening (os ++ [key.1]) .unsure else .opening os (.absent key.1)
  | .opening os _, .spawn user _ _, (handle : Nat) => .opening os (.spawned user handle)
  | .opening os _, .insert key _, _ => .opening (os ++ [key.1]) .unsure
  | .opening os _, .closed, _ => .closing os []
  | .closing us _, .keysOf _, (keys : List (String × String)) => .closing us.tail keys
  | .closing us ks, .remove key, some (handle : Nat) => .aborting us key.1 handle ks.tail
  | .closing us ks, .remove _, none => .closing us ks.tail
  | .aborting us _ _ ks, .abort _, _ => .closing us ks
  | .scanning, .isRunning user, (running : Bool) => if running then .scanning else .checked user
  | .checked user, .getCredential _, some (some (row : StoredCredential)) => .read user row
  | .checked _, .getCredential _, _ => .scanning
  | .read user row, .listFolders _, .ok _ => .accepted user row
  | .read user row, .listFolders _, .error .authenticationFailed => .refusing user row
  | .read _ _, .listFolders _, .error _ => .scanning
  | .read _ _, .markInvalid _, _ => .scanning
  | .refusing _ _, .markInvalid _, _ => .scanning
  | .accepted user row, .setRunning _, _ => .starting user row .unsure
  | .starting user row _, .containsKey _, (present : Bool) =>
    if present then .started user row else .starting user row (.absent user)
  | .starting user row _, .spawn _ _ _, (handle : Nat) => .starting user row (.spawned user handle)
  | .starting user row _, .insert _ _, _ => .started user row
  | .started _ _, .listen _ _, _ => .scanning
  | g, _, _ => g

/-- The stage is that of `startIdle` for the user, in a socket or in a pass. -/
def Begins (g : LiveStage) (user : String) (start : Starting) : Prop :=
  (∃ os, g = .opening os start) ∨ ∃ row, g = .starting user row start

def Allows : LiveStage → LiveCall → Prop
  | g, .containsKey key => key.2 = "INBOX" ∧ g.Begins key.1 .unsure
  | g, .spawn user folder _ => folder = "INBOX" ∧ g.Begins user (.absent user)
  | g, .insert key handle => key.2 = "INBOX" ∧ g.Begins key.1 (.spawned key.1 handle)
  | g, .keysOf user => ∃ us, g = .closing (user :: us) []
  | g, .remove key => ∃ us ks, g = .closing us (key :: ks)
  | g, .abort handle => ∃ us user ks, g = .aborting us user handle ks
  | g, .closed => ∃ os, g = .opening os .unsure
  | g, .readDir => g = .scanning
  | g, .getCredential user => g = .scanning ∨ g = .checked user
  | g, .markInvalid user =>
    ∃ row : StoredCredential, g = .refusing user row ∨
      g = .read user row ∧ ∃ e, row.unseal decrypt = .error e
  | g, .listFolders creds => ∃ user row, g = .read user row ∧ row.unseal decrypt = .ok creds
  | g, .isRunning _ => g = .scanning
  | g, .setRunning user => ∃ row, g = .accepted user row
  | g, .listen user creds => ∃ row, g = .started user row ∧ row.unseal decrypt = .ok creds

/-- Where a socket's handler and a pass end. -/
def Ended (g : LiveStage) (_ : Unit) : Prop := g = .closing [] [] ∨ g = .scanning

/-- Keeps to the stages, and ends at one with a property. -/
abbrev Keeps {α : Type} (Q : LiveStage → α → Prop) (g : LiveStage) (p : LiveTask α) : Prop :=
  p.Follows (Allows decrypt) next Q g

end LiveStage

section Keeps

variable {decrypt} {user : String} {os : List String} {row : StoredCredential}
  {creds : ImapCredentials}

open LiveStage

theorem keeps_startIdle_socket : (LiveStage.opening os .unsure).Keeps decrypt
    (fun g _ => g = .opening (os ++ [user]) .unsure) (startIdle user "INBOX" creds) := by
  refine Prog.Follows.perform_bind ⟨rfl,Or.inl ⟨os,rfl⟩⟩ (fun (present : Bool) => ?_)
  cases present with
  | true => exact rfl
  | false =>
    refine Prog.Follows.perform_bind ⟨rfl,Or.inl ⟨os,rfl⟩⟩ (fun (handle : Nat) => ?_)
    exact ⟨⟨rfl,Or.inl ⟨os,rfl⟩⟩,fun _ => rfl⟩

theorem keeps_startIdle_push : (LiveStage.starting user row .unsure).Keeps decrypt
    (fun g _ => g = .started user row) (startIdle user "INBOX" creds) := by
  refine Prog.Follows.perform_bind ⟨rfl,Or.inr ⟨row,rfl⟩⟩ (fun (present : Bool) => ?_)
  cases present with
  | true => exact rfl
  | false =>
    refine Prog.Follows.perform_bind ⟨rfl,Or.inr ⟨row,rfl⟩⟩ (fun (handle : Nat) => ?_)
    exact ⟨⟨rfl,Or.inr ⟨row,rfl⟩⟩,fun _ => rfl⟩

theorem keeps_startAll (accounts : List AccountSession) : (LiveStage.opening os .unsure).Keeps decrypt
    (fun g _ => g = .opening (os ++ accounts.map AccountSession.userHash) .unsure)
    (startAll accounts) := by
  induction accounts generalizing os with
  | nil =>
    rw [List.map_nil,List.append_nil]
    exact rfl
  | cons session accounts ih =>
    refine keeps_startIdle_socket.bind (fun g _ hg => ?_)
    subst hg
    have hnext := @ih (os ++ [session.userHash])
    simpa using hnext

theorem keeps_abortAll {us : List String} (keys : List (String × String)) :
    (LiveStage.closing us keys).Keeps decrypt (fun g _ => g = .closing us []) (abortAll keys) := by
  induction keys with
  | nil => exact rfl
  | cons key keys ih =>
    refine Prog.Follows.perform_bind ⟨us,keys,rfl⟩ (fun (handle : Option Nat) => ?_)
    cases handle with
    | some handle => exact Prog.Follows.perform_bind ⟨us,key.1,keys,rfl⟩ (fun _ => ih)
    | none => exact ih

theorem keeps_stopAccounts (accounts : List AccountSession) :
    (LiveStage.closing (accounts.map AccountSession.userHash) []).Keeps decrypt
      (fun g _ => g = .closing [] []) (stopAccounts accounts) := by
  induction accounts with
  | nil => exact rfl
  | cons session accounts ih =>
    have hstop : (LiveStage.closing (session.userHash :: accounts.map AccountSession.userHash) []).Keeps
        decrypt (fun g _ => g = .closing (accounts.map AccountSession.userHash) [])
        (stopAll session.userHash) :=
      Prog.Follows.perform_bind ⟨_,rfl⟩ (fun keys => keeps_abortAll keys)
    refine hstop.bind (fun g _ hg => ?_)
    subst hg
    exact ih

theorem keeps_handleSocketMultiAccount (accounts : List AccountSession) :
    (LiveStage.opening [] .unsure).Keeps decrypt (fun g _ => g = .closing [] [])
      (handleSocketMultiAccount accounts) := by
  refine (keeps_startAll accounts).bind (fun g _ hg => ?_)
  subst hg
  exact Prog.Follows.perform_bind ⟨_,rfl⟩ (fun _ => keeps_stopAccounts accounts)

theorem keeps_withCredential (entries : List DirEntry) : LiveStage.scanning.Keeps decrypt
    (fun g _ => g = .scanning) (withCredential entries) := by
  induction entries with
  | nil => exact rfl
  | cons entry entries ih =>
    refine Prog.Follows.perform_bind (Or.inl rfl) (fun _ => ?_)
    exact ih.bind (fun _ _ hg => hg)

theorem keeps_usersWithPush : LiveStage.scanning.Keeps decrypt (fun g _ => g = .scanning)
    usersWithPush :=
  Prog.Follows.perform_bind rfl (fun _ => (keeps_withCredential _).bind (fun _ _ hg => hg))

theorem keeps_decryptCredentials : (LiveStage.checked user).Keeps decrypt
    (fun g r => (∀ creds, r = some creds → ∃ row, g = .read user row ∧ row.unseal decrypt = .ok creds) ∧
      (r = none → g = .scanning))
    (decryptCredentials decrypt user) := by
  refine Prog.Follows.perform_bind (Or.inr rfl) (fun (r : Option (Option StoredCredential)) => ?_)
  rcases r with _ | _ | row
  · exact ⟨fun _ h => by simp at h,fun _ => rfl⟩
  · exact ⟨fun _ h => by simp at h,fun _ => rfl⟩
  · cases hrow : row.unseal decrypt with
    | ok creds =>
      show Prog.Follows _ _ _ (LiveStage.read user row) _
      simp only [hrow]
      exact ⟨fun _ h => ⟨row,rfl,hrow.trans (congrArg Except.ok (Option.some.inj h))⟩,
        fun h => by simp at h⟩
    | error e =>
      show Prog.Follows _ _ _ (LiveStage.read user row) _
      simp only [hrow]
      exact ⟨⟨row,Or.inr ⟨rfl,e,hrow⟩⟩,fun _ => ⟨fun _ h => by simp at h,fun _ => rfl⟩⟩

theorem keeps_credentialStillWorks (hrow : row.unseal decrypt = .ok creds) :
    (LiveStage.read user row).Keeps decrypt
      (fun g works => if works then g = .accepted user row else g = .scanning)
      (credentialStillWorks user creds) := by
  refine Prog.Follows.perform_bind ⟨user,row,rfl,hrow⟩ (fun (r : Except ImapError Unit) => ?_)
  rcases r with e | _
  · cases e with
    | authenticationFailed => exact ⟨⟨row,Or.inl rfl⟩,fun _ => rfl⟩
    | connectionFailed _ => exact rfl
    | folderNotFound _ => exact rfl
    | messageNotFound _ _ => exact rfl
    | protocolError _ => exact rfl
  · exact rfl

theorem keeps_startForUser (hrow : row.unseal decrypt = .ok creds) :
    (LiveStage.starting user row .unsure).Keeps decrypt (fun g _ => g = .scanning)
      (startForUser user creds) := by
  refine keeps_startIdle_push.bind (fun g _ hg => ?_)
  subst hg
  exact ⟨⟨row,rfl,hrow⟩,fun _ => rfl⟩

theorem keeps_scanUser (user : String) : LiveStage.scanning.Keeps decrypt (fun g _ => g = .scanning)
    (scanUser decrypt user) := by
  refine Prog.Follows.perform_bind rfl (fun (running : Bool) => ?_)
  cases running with
  | true => exact rfl
  | false =>
    refine keeps_decryptCredentials.bind (fun g creds hg => ?_)
    cases creds with
    | none => exact hg.2 rfl
    | some creds =>
      obtain ⟨row,rfl,hrow⟩ := hg.1 creds rfl
      refine (keeps_credentialStillWorks hrow).bind (fun g works hg => ?_)
      cases works with
      | false => exact hg
      | true =>
        obtain rfl : g = .accepted user row := hg
        exact Prog.Follows.perform_bind ⟨row,rfl⟩ (fun _ => keeps_startForUser hrow)

theorem keeps_scanUsers (users : List String) : LiveStage.scanning.Keeps decrypt
    (fun g _ => g = .scanning) (scanUsers decrypt users) := by
  induction users with
  | nil => exact rfl
  | cons user users ih =>
    refine (keeps_scanUser user).bind (fun g _ hg => ?_)
    subst hg
    exact ih

theorem keeps_scan : LiveStage.scanning.Keeps decrypt (fun g _ => g = .scanning) (scan decrypt) := by
  refine keeps_usersWithPush.bind (fun g users hg => ?_)
  subst hg
  exact keeps_scanUsers users

end Keeps

/-! ### Sockets, passes and requests, interleaved -/

abbrev LiveSystem := Threads LiveStage LiveWorld LiveCall LiveCall.Answer Unit

/-- A socket opens, a pass begins, one of them goes on, a request stores or deletes a credential, or
something changes outside: the server, the data directory, whether a database opens, the time. -/
inductive LiveEvent
  | connect (accounts : List AccountSession)
  | scan
  | call (i : Nat)
  | store (user : String) (data : StoreCredential)
  | delete (user : String)
  | server (answer : ImapCredentials → Except ImapError Unit)
  | directory (entries : List DirEntry)
  | database (opens : String → Bool)
  | tick (seconds : Nat)

namespace LiveSystem

variable (s : LiveSystem)

/-- A pass is going on. -/
def scanning : Bool := s.tasks.any (fun t => t.1.scans && Threads.unfinished t)

def step : LiveEvent → Option LiveSystem
  | .connect accounts =>
    some ⟨s.world,s.tasks ++ [(.opening [] .unsure,handleSocketMultiAccount accounts)]⟩
  | .scan => if s.scanning then none else some ⟨s.world,s.tasks ++ [(.scanning,Rav.scan decrypt)]⟩
  | .call i => s.call LiveWorld.serve LiveStage.next i
  | .store user data =>
    if s.world.opens user then some ⟨s.world.storeCredential user data,s.tasks⟩ else none
  | .delete user => if s.world.opens user then some ⟨s.world.deleteCredential user,s.tasks⟩ else none
  | .server answer => some ⟨{ s.world with server := answer },s.tasks⟩
  | .directory entries => some ⟨{ s.world with directory := entries },s.tasks⟩
  | .database opens => some ⟨{ s.world with opens := opens },s.tasks⟩
  | .tick seconds => some ⟨{ s.world with now := s.world.now + seconds },s.tasks⟩

section Steps

variable {decrypt} {s} {s' : LiveSystem} {user : String} {data : StoreCredential}

theorem step_scan : s.step decrypt .scan = some s' ↔ s.scanning = false ∧
    s' = ⟨s.world,s.tasks ++ [(.scanning,Rav.scan decrypt)]⟩ := by
  show (if s.scanning = true then none else some _) = some s' ↔ _
  cases s.scanning <;> simp [eq_comm]

theorem step_store : s.step decrypt (.store user data) = some s' ↔ s.world.opens user = true ∧
    s' = ⟨s.world.storeCredential user data,s.tasks⟩ := by
  show (if s.world.opens user = true then some _ else none) = some s' ↔ _
  cases s.world.opens user <;> simp [eq_comm]

theorem step_delete : s.step decrypt (.delete user) = some s' ↔ s.world.opens user = true ∧
    s' = ⟨s.world.deleteCredential user,s.tasks⟩ := by
  show (if s.world.opens user = true then some _ else none) = some s' ↔ _
  cases s.world.opens user <;> simp [eq_comm]

end Steps

/-- The process has just started, with what is in the databases and the directory. -/
def opening (credentials : String → Option StoredCredential) (directory : List DirEntry)
    (server : ImapCredentials → Except ImapError Unit) : LiveSystem :=
  ⟨⟨.new,[],credentials,.new,[],directory,fun _ => true,server,[],0⟩,[]⟩

end LiveSystem

end Rav
