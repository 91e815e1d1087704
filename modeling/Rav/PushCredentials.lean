import Rav.Push.Worker

/-!
# What becomes of a push credential

As long as a credential is not replaced between the worker reading it and marking it, and none is
stored anew for a user for whom the worker already runs or is just trying the one before: a credential
is marked invalid only if it was rejected or did not decrypt, and one stored after an earlier one was
marked or deleted is put to work.

## Main definitions

- `LiveWorld.Rejected` — the server has refused the credential, or it does not decrypt
- `LiveSystem.Settled` — the condition on each step
- `LiveSystem.Fair` — passes begin again and again, and go on
- `push_credentials_followed` — what holds along every such run
-/

namespace Rav

variable {decrypt : List UInt8 → List UInt8 → Option (List UInt8)}

/-- The row as the worker has read it, before it has finished with the user. -/
def LiveStage.held : LiveStage → Option (String × StoredCredential)
  | .read user row => some (user,row)
  | .refusing user row => some (user,row)
  | .accepted user row => some (user,row)
  | .starting user row _ => some (user,row)
  | .started user row => some (user,row)
  | _ => none

/-- The server has refused what the row decrypts to, or it does not decrypt. -/
def LiveWorld.Rejected (decrypt : List UInt8 → List UInt8 → Option (List UInt8)) (w : LiveWorld)
    (row : StoredCredential) : Prop :=
  (∃ e, row.unseal decrypt = .error e) ∨ ∃ creds, row.unseal decrypt = .ok creds ∧ creds ∈ w.refused

namespace LiveSystem

variable (s : LiveSystem)

/-- A row that is marked is the one that was read. -/
def SettledCall (g : LiveStage) : LiveCall → Prop
  | .markInvalid user => ∀ held ∈ g.held, held.1 = user → ∀ row ∈ s.world.credentials user,
      row.toStoreCredential = held.2.toStoreCredential
  | _ => True

/-- The worker marks the row it has read, and a credential that takes the place of none or of one
marked invalid is stored while the worker neither runs for the user nor tries the one before. -/
def Settled : LiveEvent → Prop
  | .call i => ∀ p ∈ s.upcoming i, s.SettledCall p.1 p.2
  | .store user _ => hasCredential (some (s.world.credentials user)) = false →
      s.world.running.containsKey user = false ∧ ∀ t ∈ s.tasks, ∀ held ∈ t.1.held, held.1 ≠ user
  | _ => True

instance (g : LiveStage) : (c : LiveCall) → Decidable (s.SettledCall g c)
  | .markInvalid user => inferInstanceAs (Decidable (∀ held ∈ g.held, held.1 = user →
      ∀ row ∈ s.world.credentials user, row.toStoreCredential = held.2.toStoreCredential))
  | .containsKey _ | .spawn _ _ _ | .insert _ _ | .keysOf _ | .remove _ | .abort _ | .closed
  | .readDir | .getCredential _ | .listFolders _ | .isRunning _ | .setRunning _ | .listen _ _ =>
    instDecidableTrue

instance : (e : LiveEvent) → Decidable (s.Settled e)
  | .call i => inferInstanceAs (Decidable (∀ p ∈ s.upcoming i, s.SettledCall p.1 p.2))
  | .store user _ =>
    inferInstanceAs (Decidable (hasCredential (some (s.world.credentials user)) = false →
      s.world.running.containsKey user = false ∧
        ∀ t ∈ s.tasks, ∀ held ∈ t.1.held, held.1 ≠ user))
  | .connect _ | .scan | .delete _ | .server _ | .directory _ | .database _ | .tick _ =>
    instDecidableTrue

/-- Passes begin again and again, and one that has begun goes on. -/
structure Fair (s : Nat → LiveSystem) (e : Nat → LiveEvent) : Prop where
  scan : ∀ n, ∃ m, n ≤ m ∧ e m = .scan
  call : ∀ n i g c, (s n).upcoming i = some (g,c) → g.scans = true → ∃ m, n ≤ m ∧ e m = .call i

end LiveSystem

/-- The user's database opens, the directory lists it, and the server takes the credentials. -/
structure LiveWorld.Healthy (w : LiveWorld) (user : String) (creds : ImapCredentials) : Prop where
  opens : w.opens user = true
  listed : ∃ entry ∈ w.directory, entry.isMailbox = true ∧ entry.name = user
  accepts : w.server creds = .ok ()

/-! ### What one call moves -/

/-- The calls on the map of tasks, and the wait for a socket's end. -/
def LiveCall.Idles : LiveCall → Prop
  | .containsKey _ => True
  | .spawn _ _ _ => True
  | .insert _ _ => True
  | .keysOf _ => True
  | .remove _ => True
  | .abort _ => True
  | .closed => True
  | _ => False

/-- What one call can move a stage to. -/
inductive Turn (decrypt : List UInt8 → List UInt8 → Option (List UInt8)) (w : LiveWorld) :
    LiveStage → LiveCall → LiveStage → Prop
  | socket {g g' : LiveStage} {c : LiveCall} (hg : g.scans = false) (hg' : g'.scans = false)
      (hc : c.Idles) : Turn decrypt w g c g'
  | readDir : Turn decrypt w .scanning .readDir .scanning
  | list (user : String) : Turn decrypt w .scanning (.getCredential user) .scanning
  | runs (user : String) : Turn decrypt w .scanning (.isRunning user) .scanning
  | check (user : String) : Turn decrypt w .scanning (.isRunning user) (.checked user)
  | skip (user : String) : Turn decrypt w (.checked user) (.getCredential user) .scanning
  | read {user : String} {row : StoredCredential} (hrow : w.credentials user = some row) :
      Turn decrypt w (.checked user) (.getCredential user) (.read user row)
  | undecrypted {user : String} {row : StoredCredential} {e : String}
      (hrow : row.unseal decrypt = .error e) :
      Turn decrypt w (.read user row) (.markInvalid user) .scanning
  | refused {user : String} {row : StoredCredential} {creds : ImapCredentials}
      (hrow : row.unseal decrypt = .ok creds) (hs : w.server creds = .error .authenticationFailed) :
      Turn decrypt w (.read user row) (.listFolders creds) (.refusing user row)
  | failed {user : String} {row : StoredCredential} (creds : ImapCredentials) :
      Turn decrypt w (.read user row) (.listFolders creds) .scanning
  | accepted {user : String} {row : StoredCredential} (creds : ImapCredentials) :
      Turn decrypt w (.read user row) (.listFolders creds) (.accepted user row)
  | marked (user : String) (row : StoredCredential) :
      Turn decrypt w (.refusing user row) (.markInvalid user) .scanning
  | claim (user : String) (row : StoredCredential) :
      Turn decrypt w (.accepted user row) (.setRunning user) (.starting user row .unsure)
  | start {user : String} {row : StoredCredential} {c : LiveCall} (start start' : Starting)
      (hc : c.Idles) : Turn decrypt w (.starting user row start) c (.starting user row start')
  | started {user : String} {row : StoredCredential} {c : LiveCall} (start : Starting)
      (hc : c.Idles) : Turn decrypt w (.starting user row start) c (.started user row)
  | listen {user : String} {row : StoredCredential} {creds : ImapCredentials}
      (hrow : row.unseal decrypt = .ok creds) :
      Turn decrypt w (.started user row) (.listen user creds) .scanning

section Turns

variable {w : LiveWorld} {g : LiveStage} {c : LiveCall} {creds : ImapCredentials} {user : String}
  {row : StoredCredential}

open LiveStage

theorem turn_listFolders (hrow : row.unseal decrypt = .ok creds) :
    Turn decrypt w (.read user row) (.listFolders creds)
      (next (.read user row) (.listFolders creds) (w.listFolders creds).1) := by
  have hans : (w.listFolders creds).1 = w.server creds := by
    unfold LiveWorld.listFolders
    split
    · next hs => exact hs.symm
    · rfl
  rw [hans]
  cases hs : w.server creds with
  | ok _ => exact .accepted creds
  | error e =>
    cases e with
    | authenticationFailed => exact .refused hrow hs
    | connectionFailed _ => exact .failed creds
    | folderNotFound _ => exact .failed creds
    | messageNotFound _ _ => exact .failed creds
    | protocolError _ => exact .failed creds

theorem turn_getCredential : Turn decrypt w (.checked user) (.getCredential user)
    (next (.checked user) (.getCredential user) (LiveWorld.serve (.getCredential user) w).1) := by
  have hans : (LiveWorld.serve (.getCredential user) w).1 =
      if w.opens user then some (w.credentials user) else none := rfl
  rw [hans]
  cases w.opens user with
  | false => exact .skip user
  | true =>
    cases hc : w.credentials user with
    | none => exact .skip user
    | some row => exact .read hc

/-- Every call a stage allows moves it in one of these ways. -/
theorem turn_of_allows (hallow : g.Allows decrypt c) :
    Turn decrypt w g c (g.next c (LiveWorld.serve c w).1) := by
  cases c with
  | containsKey key =>
    show Turn decrypt w g _ (g.next (.containsKey key) (w.tasks.containsKey key))
    obtain ⟨-,⟨os,rfl⟩ | ⟨row,rfl⟩⟩ := hallow
    · cases w.tasks.containsKey key with
      | true => exact .socket rfl rfl trivial
      | false => exact .socket rfl rfl trivial
    · cases w.tasks.containsKey key with
      | true => exact .started _ trivial
      | false => exact .start _ _ trivial
  | spawn u f creds =>
    obtain ⟨-,⟨os,rfl⟩ | ⟨row,rfl⟩⟩ := hallow
    · exact .socket rfl rfl trivial
    · exact .start _ _ trivial
  | insert key n =>
    obtain ⟨-,⟨os,rfl⟩ | ⟨row,rfl⟩⟩ := hallow
    · exact .socket rfl rfl trivial
    · exact .started _ trivial
  | keysOf u =>
    obtain ⟨us,rfl⟩ := hallow
    exact .socket rfl rfl trivial
  | remove key =>
    obtain ⟨us,ks,rfl⟩ := hallow
    refine .socket rfl ?_ trivial
    show (next _ (.remove key) (w.tasks.get key)).scans = false
    cases w.tasks.get key with
    | none => rfl
    | some n => rfl
  | abort n =>
    obtain ⟨us,u,ks,rfl⟩ := hallow
    exact .socket rfl rfl trivial
  | closed =>
    obtain ⟨os,rfl⟩ := hallow
    exact .socket rfl rfl trivial
  | readDir =>
    obtain rfl : g = .scanning := hallow
    exact .readDir
  | getCredential u =>
    rcases hallow with rfl | rfl
    · exact .list u
    · exact turn_getCredential
  | markInvalid u =>
    obtain ⟨row,rfl | ⟨rfl,e,he⟩⟩ := hallow
    · exact .marked u row
    · exact .undecrypted he
  | listFolders creds =>
    obtain ⟨u,row,rfl,hrow⟩ := hallow
    exact turn_listFolders hrow
  | isRunning u =>
    obtain rfl : g = .scanning := hallow
    show Turn decrypt w _ _ (next .scanning (.isRunning u) (w.running.containsKey u))
    cases w.running.containsKey u with
    | true => exact .runs u
    | false => exact .check u
  | setRunning u =>
    obtain ⟨row,rfl⟩ := hallow
    exact .claim u row
  | listen u creds =>
    obtain ⟨row,rfl,hrow⟩ := hallow
    exact .listen hrow

end Turns

/-! ### What is marked -/

section Marked

variable {w w' : LiveWorld} {row row' : StoredCredential} {s s' : LiveSystem}
  {credentials : String → Option StoredCredential}

theorem unseal_congr (h : row'.toStoreCredential = row.toStoreCredential) :
    row'.unseal decrypt = row.unseal decrypt := by
  unfold StoredCredential.unseal
  rw [h]

theorem LiveWorld.Rejected.mono (h : w.Rejected decrypt row) (hw : ∀ c ∈ w.refused, c ∈ w'.refused)
    (hrow : row'.toStoreCredential = row.toStoreCredential) : w'.Rejected decrypt row' := by
  unfold Rejected
  rw [unseal_congr hrow]
  exact h.imp id (fun ⟨creds,hc,hr⟩ => ⟨creds,hc,hw creds hr⟩)

/-- What the server has refused is remembered. -/
theorem refused_serve (c : LiveCall) (w : LiveWorld) :
    ∀ creds ∈ w.refused, creds ∈ (LiveWorld.serve c w).2.refused := by
  intro creds hc
  cases c with
  | listFolders asked =>
    show creds ∈ (w.listFolders asked).2.refused
    unfold LiveWorld.listFolders
    split
    · exact List.mem_append_left _ hc
    · exact hc
  | markInvalid user =>
    show creds ∈ (if w.opens user = true then w.markInvalid user else w).refused
    split
    · exact hc
    · exact hc
  | _ => exact hc

/-- The rows marked since the start are rejected, and so are those about to be marked. -/
structure MarkInv (decrypt : List UInt8 → List UInt8 → Option (List UInt8))
    (credentials : String → Option StoredCredential) (s : LiveSystem) : Prop where
  keep : Threads.Keep (LiveStage.Allows decrypt) LiveStage.next LiveStage.Ended s
  rows : ∀ user row, s.world.credentials user = some row → row.invalidSince.isSome = true →
    credentials user = some row ∨ s.world.Rejected decrypt row
  refusing : ∀ t ∈ s.tasks, ∀ user row, t.1 = .refusing user row → s.world.Rejected decrypt row

/-- Only a listing that the server refuses leads to a row being marked as refused. -/
theorem Turn.refusing {g g' : LiveStage} {c : LiveCall} {user : String} (h : Turn decrypt w g c g')
    (hg' : g' = .refusing user row) : (LiveWorld.serve c w).2.Rejected decrypt row := by
  cases h with
  | refused hrow hs =>
    injection hg' with _ hr
    subst hr
    refine Or.inr ⟨_,hrow,?_⟩
    show _ ∈ (w.listFolders _).2.refused
    unfold LiveWorld.listFolders
    rw [hs]
    simp
  | socket _ hscans _ =>
    rw [hg'] at hscans
    simp [LiveStage.scans] at hscans
  | _ => simp at hg'

theorem credentials_listFolders (creds : ImapCredentials) :
    (w.listFolders creds).2.credentials = w.credentials := by
  unfold LiveWorld.listFolders
  split
  · rfl
  · rfl

/-- A row after a call was there before, or has just been marked. -/
theorem credentials_serve {c : LiveCall} {user : String}
    (h : (LiveWorld.serve c w).2.credentials user = some row) :
    w.credentials user = some row ∨ c = .markInvalid user ∧
      ∃ row', w.credentials user = some row' ∧ row'.toStoreCredential = row.toStoreCredential := by
  cases c with
  | listFolders creds =>
    change (w.listFolders creds).2.credentials user = some row at h
    rw [credentials_listFolders] at h
    exact Or.inl h
  | markInvalid u =>
    change (if w.opens u = true then w.markInvalid u else w).credentials user = some row at h
    split at h
    · by_cases hu : user = u
      · subst hu
        unfold LiveWorld.markInvalid at h
        simp only [Function.update_self] at h
        obtain ⟨row',hrow',rfl⟩ := Option.map_eq_some_iff.mp h
        exact Or.inr ⟨rfl,row',hrow',rfl⟩
      · refine Or.inl ?_
        unfold LiveWorld.markInvalid at h
        simpa only [Function.update_of_ne hu] using h
    · exact Or.inl h
  | _ => exact Or.inl h

/-- What a call marks is rejected, if it is what the worker has read. -/
theorem Turn.marks {g g' : LiveStage} {user : String} (h : Turn decrypt w g (.markInvalid user) g')
    (hrefusing : ∀ row, g = .refusing user row → w.Rejected decrypt row) :
    ∃ row, g.held = some (user,row) ∧ w.Rejected decrypt row := by
  cases h with
  | undecrypted hrow => exact ⟨_,rfl,Or.inl ⟨_,hrow⟩⟩
  | marked _ row => exact ⟨row,rfl,hrefusing row rfl⟩
  | socket _ _ hc => exact hc.elim
  | start _ _ hc => exact hc.elim
  | started _ hc => exact hc.elim

theorem MarkInv.call {i : Nat} (h : MarkInv decrypt credentials s) (hset : s.Settled (.call i))
    (hs : s.step decrypt (.call i) = some s') : MarkInv decrypt credentials s' := by
  obtain ⟨g,c,k,ht,rfl⟩ := Threads.call_eq_some.mp hs
  have hturn : Turn decrypt s.world g c (g.next c (LiveWorld.serve c s.world).1) :=
    turn_of_allows (h.keep.allowed ht)
  have hmono := refused_serve c s.world
  refine ⟨h.keep.call ht,fun user row hrow hinv => ?_,fun t hmem user row hg => ?_⟩
  · rcases credentials_serve hrow with hold | ⟨rfl,row',hrow',hdata⟩
    · exact (h.rows user row hold hinv).imp id (fun hr => hr.mono hmono rfl)
    · obtain ⟨held,hheld,hrej⟩ := hturn.marks
        (fun r hr => h.refusing _ (List.mem_of_getElem? ht) user r hr)
      have hsame := hset _ (Threads.upcoming_eq ht) _ hheld rfl row' hrow'
      exact Or.inr (hrej.mono hmono (hdata.symm.trans hsame))
  · rcases List.mem_or_eq_of_mem_set hmem with hmem | rfl
    · exact (h.refusing t hmem user row hg).mono hmono rfl
    · exact hturn.refusing hg

theorem MarkInv.step {e : LiveEvent} (h : MarkInv decrypt credentials s) (hset : s.Settled e)
    (hs : s.step decrypt e = some s') : MarkInv decrypt credentials s' := by
  have hnew : ∀ {g : LiveStage} {p : LiveTask Unit}, (∀ user row, g ≠ .refusing user row) →
      ∀ t ∈ s.tasks ++ [(g,p)], ∀ user row, t.1 = .refusing user row → s.world.Rejected decrypt row := by
    intro g p hg t ht user row hrow
    rcases List.mem_append.mp ht with ht | ht
    · exact h.refusing t ht user row hrow
    · rw [List.mem_singleton.mp ht] at hrow
      exact absurd hrow (hg user row)
  cases e with
  | connect accounts =>
    obtain rfl := Option.some.inj hs
    refine ⟨h.keep.start ?_,h.rows,hnew (fun _ _ hg => by simp at hg)⟩
    exact (keeps_handleSocketMultiAccount accounts).mono (fun _ _ => Or.inl)
  | scan =>
    obtain ⟨-,rfl⟩ := LiveSystem.step_scan.mp hs
    exact ⟨h.keep.start (keeps_scan.mono (fun _ _ => Or.inr)),h.rows,
      hnew (fun _ _ hg => by simp at hg)⟩
  | call i => exact h.call hset hs
  | store u data =>
    obtain ⟨-,rfl⟩ := LiveSystem.step_store.mp hs
    refine ⟨h.keep,fun user row hrow hinv => ?_,h.refusing⟩
    by_cases hu : user = u
    · subst hu
      simp only [LiveWorld.storeCredential,Function.update_self,Option.some.injEq] at hrow
      rw [← hrow] at hinv
      simp at hinv
    · refine h.rows user row ?_ hinv
      simpa [LiveWorld.storeCredential,Function.update_of_ne hu] using hrow
  | delete u =>
    obtain ⟨-,rfl⟩ := LiveSystem.step_delete.mp hs
    refine ⟨h.keep,fun user row hrow hinv => ?_,h.refusing⟩
    by_cases hu : user = u
    · subst hu
      simp [LiveWorld.deleteCredential] at hrow
    · refine h.rows user row ?_ hinv
      simpa [LiveWorld.deleteCredential,Function.update_of_ne hu] using hrow
  | server answer =>
    obtain rfl := Option.some.inj hs
    exact ⟨h.keep,h.rows,h.refusing⟩
  | directory entries =>
    obtain rfl := Option.some.inj hs
    exact ⟨h.keep,h.rows,h.refusing⟩
  | database opens =>
    obtain rfl := Option.some.inj hs
    exact ⟨h.keep,h.rows,h.refusing⟩
  | tick seconds =>
    obtain rfl := Option.some.inj hs
    exact ⟨h.keep,h.rows,h.refusing⟩

end Marked

/-! ### What a pass must do -/

section Pass

variable {user : String} {row : StoredCredential} {creds : ImapCredentials}

/-- Answers that let a pass put the user's credential to work. -/
def Favours (user : String) (row : StoredCredential) (creds : ImapCredentials) :
    (c : LiveCall) → c.Answer → Prop
  | .readDir, (entries : List DirEntry) => ∃ e ∈ entries, e.isMailbox = true ∧ e.name = user
  | .getCredential u, (r : Option (Option StoredCredential)) => u = user → r = some (some row)
  | .listFolders asked, (r : Except ImapError Unit) => asked = creds → r = .ok ()
  | .isRunning u, (running : Bool) => u = user → running = false
  | _, _ => True

theorem withCredential_finds (hvalid : row.invalidSince = none) (entries : List DirEntry)
    (hmem : ∃ e ∈ entries, e.name = user) :
    (withCredential entries).Returns (Favours user row creds) (fun found => user ∈ found) := by
  induction entries with
  | nil => simp at hmem
  | cons entry entries ih =>
    refine Prog.Returns.perform_bind (fun (r : Option (Option StoredCredential)) hr => ?_)
    by_cases he : entry.name = user
    · obtain rfl : r = some (some row) := hr he
      refine (Prog.returns_true _).bind (fun found _ => ?_)
      show user ∈ if hasCredential (some (some row)) then entry.name :: found else found
      simp [hasCredential,hvalid,he]
    · refine (ih ?_).bind (fun found hfound => ?_)
      · obtain ⟨e,hem,hname⟩ := hmem
        rcases List.mem_cons.mp hem with rfl | hem
        · exact absurd hname he
        · exact ⟨e,hem,hname⟩
      · show user ∈ if hasCredential r then entry.name :: found else found
        split
        · exact List.mem_cons_of_mem _ hfound
        · exact hfound

theorem usersWithPush_finds (hvalid : row.invalidSince = none) :
    usersWithPush.Returns (Favours user row creds) (fun found => user ∈ found) := by
  refine Prog.Returns.perform_bind (fun (entries : List DirEntry) hr => ?_)
  obtain ⟨e,he,hbox,hname⟩ := hr
  refine (withCredential_finds hvalid _ ⟨e,List.mem_filter.mpr ⟨he,hbox⟩,hname⟩).bind
    (fun found hfound => ?_)
  exact (List.mem_insertionSort _).mpr hfound

theorem scanUser_listens (hrow : row.unseal decrypt = .ok creds) :
    (scanUser decrypt user).Must (Favours user row creds) (fun c => c = .listen user creds) := by
  refine Prog.Must.perform_bind (fun (running : Bool) hrun => ?_)
  obtain rfl : running = false := hrun rfl
  have hread : (decryptCredentials decrypt user).Returns (Favours user row creds)
      (fun r => r = some creds) := by
    refine Prog.Returns.perform_bind (fun (r : Option (Option StoredCredential)) hr => ?_)
    obtain rfl : r = some (some row) := hr rfl
    simp only [hrow]
    exact rfl
  refine hread.must (fun r hr => ?_)
  subst hr
  have hworks : (credentialStillWorks user creds).Returns (Favours user row creds)
      (fun works => works = true) := by
    refine Prog.Returns.perform_bind (fun (r : Except ImapError Unit) hr => ?_)
    obtain rfl : r = .ok () := hr rfl
    exact rfl
  refine hworks.must (fun works hworks => ?_)
  subst hworks
  refine Prog.Must.perform_bind (fun _ _ => ?_)
  exact (Prog.returns_true (startIdle user "INBOX" creds)).must (fun _ _ => Or.inl rfl)

theorem scanUsers_listens (hrow : row.unseal decrypt = .ok creds) (users : List String)
    (hmem : user ∈ users) : (scanUsers decrypt users).Must (Favours user row creds)
      (fun c => c = .listen user creds) := by
  induction users with
  | nil => simp at hmem
  | cons u users ih =>
    by_cases hu : u = user
    · subst hu
      exact (scanUser_listens hrow).bind
    · refine (Prog.returns_true (scanUser decrypt u)).must (fun _ _ => ih ?_)
      exact (List.mem_cons.mp hmem).resolve_left (Ne.symm hu)

/-- A pass that gets such answers begins to listen with the user's credential. -/
theorem scan_listens (hvalid : row.invalidSince = none) (hrow : row.unseal decrypt = .ok creds) :
    (scan decrypt).Must (Favours user row creds) (fun c => c = .listen user creds) :=
  (usersWithPush_finds hvalid).must (fun users hmem => scanUsers_listens hrow users hmem)

end Pass

/-! ### One pass at a time -/

section Passes

variable {s s' : LiveSystem} {i j : Nat} {t t' : Thread LiveStage LiveCall LiveCall.Answer Unit}

/-- Everybody keeps to the stages, and at most one pass has not ended. -/
structure PassInv (decrypt : List UInt8 → List UInt8 → Option (List UInt8)) (s : LiveSystem) :
    Prop where
  keep : Threads.Keep (LiveStage.Allows decrypt) LiveStage.next LiveStage.Ended s
  one : ∀ (i j : Nat) t t', s.tasks[i]? = some t → s.tasks[j]? = some t' → t.1.scans = true →
    Threads.unfinished t = true → t'.1.scans = true → Threads.unfinished t' = true → i = j

theorem Turn.scans {w : LiveWorld} {g g' : LiveStage} {c : LiveCall} (h : Turn decrypt w g c g') :
    g'.scans = g.scans := by
  cases h with
  | socket hg hg' _ => rw [hg,hg']
  | _ => rfl

theorem getElem?_append_one {g : LiveStage} {p : LiveTask Unit}
    (h : (s.tasks ++ [(g,p)])[i]? = some t) :
    s.tasks[i]? = some t ∨ i = s.tasks.length ∧ t = (g,p) := by
  rw [List.getElem?_append] at h
  split at h
  · exact Or.inl h
  · next hlen =>
    have hi := (List.getElem?_eq_some_iff.mp h).1
    rw [List.length_singleton] at hi
    exact Or.inr ⟨by omega,List.mem_singleton.mp (List.mem_of_getElem? h)⟩

theorem PassInv.connect (h : PassInv decrypt s) (accounts : List AccountSession) :
    PassInv decrypt ⟨s.world,s.tasks ++ [(.opening [] .unsure,handleSocketMultiAccount accounts)]⟩ := by
  refine ⟨h.keep.start ((keeps_handleSocketMultiAccount accounts).mono (fun _ _ => Or.inl)),?_⟩
  intro i j t t' hi hj hs hu hs' hu'
  rcases getElem?_append_one hi with hi | ⟨-,rfl⟩
  · rcases getElem?_append_one hj with hj | ⟨-,rfl⟩
    · exact h.one i j t t' hi hj hs hu hs' hu'
    · simp [LiveStage.scans] at hs'
  · simp [LiveStage.scans] at hs

theorem PassInv.scan (h : PassInv decrypt s) (hnone : s.scanning = false) :
    PassInv decrypt ⟨s.world,s.tasks ++ [(.scanning,Rav.scan decrypt)]⟩ := by
  have hended : ∀ {i : Nat} {t : Thread LiveStage LiveCall LiveCall.Answer Unit},
      s.tasks[i]? = some t → t.1.scans = true → Threads.unfinished t = true → False := by
    intro i t hi hs hu
    have hno := List.any_eq_false.mp hnone t (List.mem_of_getElem? hi)
    simp [hs,hu] at hno
  refine ⟨h.keep.start (keeps_scan.mono (fun _ _ => Or.inr)),?_⟩
  intro i j t t' hi hj hs hu hs' hu'
  rcases getElem?_append_one hi with hi | ⟨hi,-⟩
  · exact (hended hi hs hu).elim
  · rcases getElem?_append_one hj with hj | ⟨hj,-⟩
    · exact (hended hj hs' hu').elim
    · exact hi.trans hj.symm

theorem PassInv.call (h : PassInv decrypt s) (hs : s.step decrypt (.call i) = some s') :
    PassInv decrypt s' := by
  obtain ⟨g,c,k,ht,rfl⟩ := Threads.call_eq_some.mp hs
  have hturn : Turn decrypt s.world g c (g.next c (LiveWorld.serve c s.world).1) :=
    turn_of_allows (h.keep.allowed ht)
  refine ⟨h.keep.call ht,?_⟩
  -- Whatever is a pass that goes on was one before the call.
  have hbefore : ∀ {j : Nat} {t : Thread LiveStage LiveCall LiveCall.Answer Unit},
      (s.tasks.set i (g.next c (LiveWorld.serve c s.world).1,
        k (LiveWorld.serve c s.world).1))[j]? = some t → t.1.scans = true →
      Threads.unfinished t = true →
        ∃ t', s.tasks[j]? = some t' ∧ t'.1.scans = true ∧ Threads.unfinished t' = true := by
    intro j t hj hscans hu
    rcases getElem?_of_set hj with ⟨rfl,rfl⟩ | ⟨-,hj⟩
    · exact ⟨_,ht,hturn.scans.symm.trans hscans,rfl⟩
    · exact ⟨t,hj,hscans,hu⟩
  intro a b t t' ha hb hsa hua hsb hub
  obtain ⟨ta,hta,hsa,hua⟩ := hbefore ha hsa hua
  obtain ⟨tb,htb,hsb,hub⟩ := hbefore hb hsb hub
  exact h.one a b ta tb hta htb hsa hua hsb hub

theorem PassInv.step {e : LiveEvent} (h : PassInv decrypt s) (hs : s.step decrypt e = some s') :
    PassInv decrypt s' := by
  cases e with
  | connect accounts =>
    obtain rfl := Option.some.inj hs
    exact h.connect accounts
  | scan =>
    obtain ⟨hnone,rfl⟩ := LiveSystem.step_scan.mp hs
    exact h.scan hnone
  | call i => exact h.call hs
  | store u data =>
    obtain ⟨-,rfl⟩ := LiveSystem.step_store.mp hs
    exact ⟨h.keep,h.one⟩
  | delete u =>
    obtain ⟨-,rfl⟩ := LiveSystem.step_delete.mp hs
    exact ⟨h.keep,h.one⟩
  | server answer =>
    obtain rfl := Option.some.inj hs
    exact ⟨h.keep,h.one⟩
  | directory entries =>
    obtain rfl := Option.some.inj hs
    exact ⟨h.keep,h.one⟩
  | database opens =>
    obtain rfl := Option.some.inj hs
    exact ⟨h.keep,h.one⟩
  | tick seconds =>
    obtain rfl := Option.some.inj hs
    exact ⟨h.keep,h.one⟩

end Passes

/-! ### After a credential has been stored -/

/-- The worker is past trying the user's credential, and does not listen yet. -/
def LiveStage.Past (user : String) (g : LiveStage) : Prop :=
  (∃ row start, g = .starting user row start) ∨ ∃ row, g = .started user row

section Stored

variable {s s' : LiveSystem} {w : LiveWorld} {g g' : LiveStage} {c : LiveCall} {i : Nat}
  {user : String} {row row' : StoredCredential} {creds : ImapCredentials}

theorem Turn.held (h : Turn decrypt w g c g') (hg : g'.held = some (user,row)) :
    g.held = some (user,row) ∨ w.credentials user = some row := by
  cases h with
  | socket _ hs _ =>
    cases g' <;> simp [LiveStage.scans,LiveStage.held] at hs hg
  | read hrow =>
    obtain ⟨rfl,rfl⟩ := Prod.mk.inj (Option.some.inj hg)
    exact Or.inr hrow
  | refused _ _ => exact Or.inl hg
  | accepted _ => exact Or.inl hg
  | claim _ _ => exact Or.inl hg
  | start _ _ _ => exact Or.inl hg
  | started _ _ => exact Or.inl hg
  | _ => simp [LiveStage.held] at hg

theorem Turn.past (h : Turn decrypt w g c g') (hg : g.Past user) : g'.Past user ∨
    ∃ row creds, g.held = some (user,row) ∧ row.unseal decrypt = .ok creds ∧ c = .listen user creds := by
  cases h with
  | socket hs _ _ =>
    obtain ⟨r,st,rfl⟩ | ⟨r,rfl⟩ := hg <;> simp [LiveStage.scans] at hs
  | start st st' _ =>
    obtain ⟨r,st,hr⟩ | ⟨r,hr⟩ := hg
    · obtain ⟨rfl,-,-⟩ : _ ∧ _ ∧ _ := by simpa using hr
      exact Or.inl (Or.inl ⟨_,_,rfl⟩)
    · simp at hr
  | started st _ =>
    obtain ⟨r,st,hr⟩ | ⟨r,hr⟩ := hg
    · obtain ⟨rfl,-,-⟩ : _ ∧ _ ∧ _ := by simpa using hr
      exact Or.inl (Or.inr ⟨_,rfl⟩)
    · simp at hr
  | listen hrow =>
    obtain ⟨r,st,hr⟩ | ⟨r,hr⟩ := hg
    · simp at hr
    · obtain ⟨rfl,rfl⟩ : _ ∧ _ := by simpa using hr
      exact Or.inr ⟨_,_,rfl,hrow,rfl⟩
  | _ => obtain ⟨r,st,hr⟩ | ⟨r,hr⟩ := hg <;> simp at hr

theorem Turn.claims (h : Turn decrypt w g (.setRunning user) g') : g'.Past user := by
  cases h with
  | claim _ row => exact Or.inl ⟨row,.unsure,rfl⟩
  | socket _ _ hc => exact hc.elim
  | start _ _ hc => exact hc.elim
  | started _ hc => exact hc.elim

theorem running_serve (h : (LiveWorld.serve c w).2.running.containsKey user = true) :
    w.running.containsKey user = true ∨ c = .setRunning user := by
  cases c with
  | setRunning u =>
    change ((w.running.insert u ()).get user).isSome = true at h
    rw [DashMap.get_insert] at h
    by_cases hu : user = u
    · exact Or.inr (congrArg _ hu.symm)
    · rw [if_neg hu] at h
      exact Or.inl h
  | listFolders asked =>
    refine Or.inl ?_
    change (w.listFolders asked).2.running.containsKey user = true at h
    unfold LiveWorld.listFolders at h
    split at h
    · exact h
    · exact h
  | markInvalid u =>
    refine Or.inl ?_
    change (if w.opens u = true then w.markInvalid u else w).running.containsKey user = true at h
    split at h
    · exact h
    · exact h
  | _ => exact Or.inl h

theorem listeners_serve {l : String × ImapCredentials} (h : l ∈ w.listeners) :
    l ∈ (LiveWorld.serve c w).2.listeners := by
  cases c with
  | listen u asked => exact List.mem_append_left _ h
  | listFolders asked =>
    show l ∈ (w.listFolders asked).2.listeners
    unfold LiveWorld.listFolders
    split
    · exact h
    · exact h
  | markInvalid u =>
    show l ∈ (if w.opens u = true then w.markInvalid u else w).listeners
    split
    · exact h
    · exact h
  | _ => exact h

/-- If the worker counts as running for the user, it does with this row's credentials or is about to,
and no other row of the user is in its hands. -/
structure Awaits (user : String) (row : StoredCredential) (creds : ImapCredentials) (s : LiveSystem) :
    Prop where
  running : s.world.running.containsKey user = true →
    (user,creds) ∈ s.world.listeners ∨ ∃ t ∈ s.tasks, t.1.Past user
  held : ∀ t ∈ s.tasks, ∀ row', t.1.held = some (user,row') → row' = row

theorem Awaits.start (h : Awaits user row creds s) {p : LiveTask Unit} (hg : g.held = none) :
    Awaits user row creds ⟨s.world,s.tasks ++ [(g,p)]⟩ := by
  refine ⟨fun hr => (h.running hr).imp id ?_,fun t ht row' hheld => ?_⟩
  · rintro ⟨t,ht,hp⟩
    exact ⟨t,List.mem_append_left _ ht,hp⟩
  · rcases List.mem_append.mp ht with ht | ht
    · exact h.held t ht row' hheld
    · rw [List.mem_singleton.mp ht,hg] at hheld
      simp at hheld

theorem Awaits.call (h : Awaits user row creds s) (hpass : PassInv decrypt s)
    (hrow : row.unseal decrypt = .ok creds) (hstored : s.world.credentials user = some row)
    (hs : s.step decrypt (.call i) = some s') : Awaits user row creds s' := by
  obtain ⟨g,c,k,ht,rfl⟩ := Threads.call_eq_some.mp hs
  have hturn : Turn decrypt s.world g c (g.next c (LiveWorld.serve c s.world).1) :=
    turn_of_allows (hpass.keep.allowed ht)
  refine ⟨fun hr => ?_,fun t hmem row' hheld => ?_⟩
  · rcases running_serve hr with hr | rfl
    · rcases h.running hr with hl | ⟨t,hmem,hp⟩
      · exact Or.inl (listeners_serve hl)
      · obtain ⟨j,hj⟩ := List.mem_iff_getElem?.mp hmem
        by_cases hij : i = j
        · subst hij
          obtain rfl := Option.some.inj (ht.symm.trans hj)
          rcases hturn.past hp with hp | ⟨r,asked,hheld,hasked,rfl⟩
          · exact Or.inr ⟨_,mem_set_new ht,hp⟩
          · obtain rfl := h.held _ hmem r hheld
            obtain rfl := Except.ok.inj (hrow.symm.trans hasked)
            exact Or.inl (List.mem_append_right _ (List.mem_singleton_self _))
        · refine Or.inr ⟨t,List.mem_of_getElem? (i := j) ?_,hp⟩
          exact (List.getElem?_set_ne hij).trans hj
    · exact Or.inr ⟨_,mem_set_new ht,hturn.claims⟩
  · rcases List.mem_or_eq_of_mem_set hmem with hmem | rfl
    · exact h.held t hmem row' hheld
    · rcases hturn.held hheld with hold | hnew
      · exact h.held _ (List.mem_of_getElem? ht) row' hold
      · exact Option.some.inj (hnew.symm.trans hstored)

/-- While the row stays, so does what the worker makes of it. -/
theorem Awaits.step {e : LiveEvent} (h : Awaits user row creds s) (hpass : PassInv decrypt s)
    (hrow : row.unseal decrypt = .ok creds) (hstored : s.world.credentials user = some row)
    (hs : s.step decrypt e = some s') : Awaits user row creds s' := by
  cases e with
  | connect accounts =>
    obtain rfl := Option.some.inj hs
    exact h.start rfl
  | scan =>
    obtain ⟨-,rfl⟩ := LiveSystem.step_scan.mp hs
    exact h.start rfl
  | call i => exact h.call hpass hrow hstored hs
  | store u data =>
    obtain ⟨-,rfl⟩ := LiveSystem.step_store.mp hs
    exact ⟨h.running,h.held⟩
  | delete u =>
    obtain ⟨-,rfl⟩ := LiveSystem.step_delete.mp hs
    exact ⟨h.running,h.held⟩
  | server answer =>
    obtain rfl := Option.some.inj hs
    exact ⟨h.running,h.held⟩
  | directory entries =>
    obtain rfl := Option.some.inj hs
    exact ⟨h.running,h.held⟩
  | database opens =>
    obtain rfl := Option.some.inj hs
    exact ⟨h.running,h.held⟩
  | tick seconds =>
    obtain rfl := Option.some.inj hs
    exact ⟨h.running,h.held⟩

/-- A credential that is stored while the worker has nothing of the user in its hands. -/
theorem awaits_store {data : StoreCredential} (hset : s.Settled (.store user data))
    (hnew : hasCredential (some (s.world.credentials user)) = false)
    (hs : s.step decrypt (.store user data) = some s') : Awaits user ⟨data,none⟩ creds s' := by
  obtain ⟨-,rfl⟩ := LiveSystem.step_store.mp hs
  obtain ⟨hrun,hheld⟩ := hset hnew
  refine ⟨fun hr => ?_,fun t ht row' h => absurd rfl (hheld t ht _ h)⟩
  exact absurd (hr.symm.trans hrun) (by simp)

/-- Somebody who is past trying the credential has not ended. -/
theorem PassInv.unfinished_of_past (hpass : PassInv decrypt s)
    {t : Thread LiveStage LiveCall LiveCall.Answer Unit} (ht : t ∈ s.tasks) (hp : t.1.Past user) :
    t.1.scans = true ∧ Threads.unfinished t = true := by
  have hscans : t.1.scans = true := by
    obtain ⟨r,st,hr⟩ | ⟨r,hr⟩ := hp
    · rw [hr]
      rfl
    · rw [hr]
      rfl
  refine ⟨hscans,?_⟩
  have hkeep := hpass.keep t ht
  obtain ⟨g,p⟩ := t
  cases p with
  | call c k => rfl
  | pure a =>
    obtain hend | hend : g = .closing [] [] ∨ g = .scanning := hkeep
    · obtain ⟨r,st,hr⟩ | ⟨r,hr⟩ := hp
      · exact absurd (hend.symm.trans hr) (by simp)
      · exact absurd (hend.symm.trans hr) (by simp)
    · obtain ⟨r,st,hr⟩ | ⟨r,hr⟩ := hp
      · exact absurd (hend.symm.trans hr) (by simp)
      · exact absurd (hend.symm.trans hr) (by simp)

/-- Until the worker listens, the answers a pass gets let it put the credential to work. -/
theorem Awaits.favours (h : Awaits user row creds s) (hpass : PassInv decrypt s)
    (hstored : s.world.credentials user = some row) (hw : s.world.Healthy user creds)
    (hnot : (user,creds) ∉ s.world.listeners) {k : c.Answer → LiveTask Unit}
    (ht : s.tasks[i]? = some (g,.call c k)) (hscans : g.scans = true) :
    Favours user row creds c (LiveWorld.serve c s.world).1 := by
  cases c with
  | readDir => exact hw.listed
  | getCredential u =>
    rintro rfl
    show (if s.world.opens u = true then some (s.world.credentials u) else none) = _
    rw [if_pos hw.opens,hstored]
  | listFolders asked =>
    rintro rfl
    show (s.world.listFolders asked).1 = _
    unfold LiveWorld.listFolders
    rw [hw.accepts]
  | isRunning u =>
    rintro rfl
    show s.world.running.containsKey u = false
    cases hr : s.world.running.containsKey u with
    | false => rfl
    | true =>
      obtain ⟨t,hmem,hp⟩ := (h.running hr).resolve_left hnot
      obtain ⟨j,hj⟩ := List.mem_iff_getElem?.mp hmem
      obtain ⟨hs,hu⟩ := hpass.unfinished_of_past hmem hp
      obtain rfl := hpass.one i j _ t ht hj hscans rfl hs hu
      obtain rfl := Option.some.inj (ht.symm.trans hj)
      obtain rfl : g = .scanning := hpass.keep.allowed ht
      obtain ⟨r,st,hr⟩ | ⟨r,hr⟩ := hp
      · simp at hr
      · simp at hr
  | _ => trivial

end Stored

/-! ### Passes go on -/

section Progress

variable {s : Nat → LiveSystem} {e : Nat → LiveEvent} {ok : LiveSystem → LiveEvent → Prop}

/-- Steps that are not its own leave a socket or a pass where it is. -/
theorem tasks_step {s s' : LiveSystem} {e : LiveEvent} {i : Nat}
    {t : Thread LiveStage LiveCall LiveCall.Answer Unit} (hs : s.step decrypt e = some s')
    (he : e ≠ .call i) (ht : s.tasks[i]? = some t) : s'.tasks[i]? = some t := by
  have happend : ∀ t', (s.tasks ++ [t'])[i]? = some t := by
    intro t'
    rw [List.getElem?_append_left (List.getElem?_eq_some_iff.mp ht).1]
    exact ht
  cases e with
  | connect accounts =>
    obtain rfl := Option.some.inj hs
    exact happend _
  | scan =>
    obtain ⟨-,rfl⟩ := LiveSystem.step_scan.mp hs
    exact happend _
  | call j =>
    obtain ⟨g,c,k,-,rfl⟩ := Threads.call_eq_some.mp hs
    refine (List.getElem?_set_ne ?_).trans ht
    rintro rfl
    exact he rfl
  | store u data =>
    obtain ⟨-,rfl⟩ := LiveSystem.step_store.mp hs
    exact ht
  | delete u =>
    obtain ⟨-,rfl⟩ := LiveSystem.step_delete.mp hs
    exact ht
  | server answer =>
    obtain rfl := Option.some.inj hs
    exact ht
  | directory entries =>
    obtain rfl := Option.some.inj hs
    exact ht
  | database opens =>
    obtain rfl := Option.some.inj hs
    exact ht
  | tick seconds =>
    obtain rfl := Option.some.inj hs
    exact ht

/-- A pass that has not ended makes its next call, from where it is. -/
theorem next_call (hend : Endless (LiveSystem.step decrypt) ok s e) (hfair : LiveSystem.Fair s e)
    {n i : Nat} {g : LiveStage} {c : LiveCall} {k : c.Answer → LiveTask Unit}
    (ht : (s n).tasks[i]? = some (g,.call c k)) (hg : g.scans = true) :
    ∃ m, n ≤ m ∧ e m = .call i ∧ (s m).tasks[i]? = some (g,.call c k) := by
  classical
  have hex : ∃ d, e (n+d) = .call i := by
    obtain ⟨m,hnm,hm⟩ := hfair.call n i g c (Threads.upcoming_eq ht) hg
    exact ⟨m-n,by rw [Nat.add_sub_cancel' hnm]; exact hm⟩
  -- The first of its calls from here on.
  refine ⟨n+Nat.find hex,Nat.le_add_right _ _,Nat.find_spec hex,?_⟩
  have hstay : ∀ d, d ≤ Nat.find hex → (s (n+d)).tasks[i]? = some (g,.call c k) := by
    intro d
    induction d with
    | zero => exact fun _ => ht
    | succ d ih =>
      exact fun hd => tasks_step (hend.step (n+d)) (Nat.find_min hex hd) (ih (Nat.le_of_succ_le hd))
  exact hstay _ (Nat.le_refl _)

/-- A pass makes the call it must make while the answers are as assumed. -/
theorem reaches (hend : Endless (LiveSystem.step decrypt) ok s e) (hfair : LiveSystem.Fair s e)
    {A : (c : LiveCall) → c.Answer → Prop} {P : LiveCall → Prop} {i n : Nat}
    (hpass : ∀ m, n ≤ m → PassInv decrypt (s m))
    (hA : ∀ m, n ≤ m → ∀ g c k, (s m).tasks[i]? = some (g,.call c k) → g.scans = true →
      A c (LiveWorld.serve c (s m).world).1)
    (p : LiveTask Unit) (hmust : p.Must A P) {g : LiveStage} (hg : g.scans = true) (m : Nat)
    (hnm : n ≤ m) (ht : (s m).tasks[i]? = some (g,p)) :
    ∃ m g c, n ≤ m ∧ e m = .call i ∧ (s m).upcoming i = some (g,c) ∧ P c := by
  induction p generalizing g m with
  | pure a => exact hmust.elim
  | call c k ih =>
    obtain ⟨m',hmm,hem,ht'⟩ := next_call hend hfair ht hg
    have hnm' := Nat.le_trans hnm hmm
    rcases hmust with hP | hmust
    · exact ⟨m',g,c,hnm',hem,Threads.upcoming_eq ht',hP⟩
    · have hstep := hend.step m'
      rw [hem] at hstep
      obtain ⟨g',c',k',hg',hnext⟩ := Threads.call_eq_some.mp hstep
      obtain ⟨rfl,hck⟩ := Prod.mk.inj (Option.some.inj (ht'.symm.trans hg'))
      obtain ⟨rfl,hk⟩ := Prog.call.inj hck
      obtain rfl := eq_of_heq hk
      have hturn : Turn decrypt (s m').world g c (g.next c (LiveWorld.serve c (s m').world).1) :=
        turn_of_allows ((hpass m' hnm').keep.allowed ht')
      refine ih _ (hmust _ (hA m' hnm' g c k ht' hg)) (hturn.scans.trans hg) (m'+1) (by omega) ?_
      rw [hnext]
      exact List.getElem?_set_self (List.getElem?_eq_some_iff.mp ht').1

end Progress

/-- In every run in which the worker marks what it has read, and a credential that takes the place of
none or of a marked one is stored while the worker has nothing of that user in its hands: a credential
that is marked invalid, and was not so at the start, has been refused by the server or does not
decrypt; and one that takes the place of none or of a marked one, decrypts and stays is put to work in
every fair continuation in which, from some point on, its database opens and is listed and the server
takes it. -/
theorem push_credentials_followed {credentials : String → Option StoredCredential}
    {directory : List DirEntry} {server : ImapCredentials → Except ImapError Unit}
    {es : List LiveEvent} {s : LiveSystem}
    (h : Run (LiveSystem.step decrypt) LiveSystem.Settled (.opening credentials directory server) es s) :
    (∀ user row, s.world.credentials user = some row → row.invalidSince.isSome = true →
      credentials user = some row ∨ s.world.Rejected decrypt row) ∧
    ∀ (user : String) (data : StoreCredential) (creds : ImapCredentials) (t : Nat → LiveSystem)
      (e : Nat → LiveEvent) (k : Nat), t 0 = s → e 0 = .store user data →
      hasCredential (some (s.world.credentials user)) = false →
      Endless (LiveSystem.step decrypt) LiveSystem.Settled t e → LiveSystem.Fair t e →
      (∀ n, 0 < n → (t n).world.credentials user = some ⟨data,none⟩) →
      (StoredCredential.unseal decrypt ⟨data,none⟩ = .ok creds) →
      (∀ n, k ≤ n → (t n).world.Healthy user creds) →
      ∃ n, (user,creds) ∈ (t n).world.listeners := by
  constructor
  · have hopen : MarkInv decrypt credentials (.opening credentials directory server) := by
      refine ⟨fun t ht => by simp [LiveSystem.opening] at ht,fun user row hrow _ => Or.inl hrow,
        fun t ht => by simp [LiveSystem.opening] at ht⟩
    exact (h.invariant hopen (fun _ _ _ hi hok hs => hi.step hok hs)).rows
  · intro user data creds t e k ht0 he0 hnew hend hfair hstay hrow hhealthy
    have hopen : PassInv decrypt (.opening credentials directory server) :=
      ⟨fun t ht => by simp [LiveSystem.opening] at ht,fun i j t t' hi => by simp [LiveSystem.opening] at hi⟩
    have hpass0 : PassInv decrypt (t 0) := by
      rw [ht0]
      exact h.invariant hopen (fun _ _ _ hi _ hs => hi.step hs)
    have hpass : ∀ n, PassInv decrypt (t n) := fun n =>
      hend.invariant hpass0 (fun _ _ hi _ hs => hi.step hs) (Nat.zero_le n)
    have hwait1 : Awaits user ⟨data,none⟩ creds (t 1) := by
      have hset := hend.ok 0
      have hstep := hend.step 0
      rw [he0] at hset hstep
      exact awaits_store hset (by rw [ht0]; exact hnew) hstep
    have hwait : ∀ n, 1 ≤ n → Awaits user ⟨data,none⟩ creds (t n) := fun n hn =>
      hend.invariant hwait1 (fun m hm hi _ hs => hi.step (hpass m) hrow (hstay m hm) hs) hn
    by_contra hnever
    have hnot : ∀ n, (user,creds) ∉ (t n).world.listeners := fun n hn => hnever ⟨n,hn⟩
    -- A pass that begins once everything is in place.
    obtain ⟨m,hkm,hscan⟩ := hfair.scan (max k 1)
    have hk : k ≤ m := le_trans (le_max_left _ _) hkm
    have h1 : 1 ≤ m := le_trans (le_max_right _ _) hkm
    have hstep := hend.step m
    rw [hscan] at hstep
    obtain ⟨-,hbegun⟩ := LiveSystem.step_scan.mp hstep
    have htask : (t (m+1)).tasks[(t m).tasks.length]? = some (.scanning,scan decrypt) := by
      rw [hbegun]
      exact List.getElem?_concat_length
    obtain ⟨m',g,c,-,hcall,hup,rfl⟩ := reaches hend hfair (n := m+1) (fun n _ => hpass n)
      (fun n hn g c k' hc hg => (hwait n (by omega)).favours (hpass n) (hstay n (by omega))
        (hhealthy n (by omega)) (hnot n) hc hg)
      (scan decrypt) (scan_listens rfl hrow) rfl (m+1) (Nat.le_refl _) htask
    have hlisten := hend.step m'
    rw [hcall] at hlisten
    obtain ⟨g',c',k',hc',hnext⟩ := Threads.call_eq_some.mp hlisten
    obtain ⟨rfl,rfl⟩ := Prod.mk.inj (Option.some.inj ((Threads.upcoming_eq hc').symm.trans hup))
    refine hnot (m'+1) ?_
    rw [hnext]
    exact List.mem_append_right _ (List.mem_singleton_self _)

/-! ### A credential that is replaced while it is tried -/

/-- The hash of the sample user's address. -/
def sampleHash : String := "08168cd80dfd534ab0f10af10f1303fe00af2d43ab5c1432360d137f8197e17a"

def oldCredential : StoreCredential :=
  ⟨"a@example.com","mail.example.com",993,List.replicate 12 0,
    [14,180,192,63,50,102,216,224,85,136,77,216,58,97,255,151,48,36,235]⟩

def newCredential : StoreCredential :=
  ⟨"a@example.com","mail.example.com",993,List.replicate 11 0 ++ [1],
    [94,45,206,76,214,213,47,103,92,73,18,248,15,95,254,116,109,75,111]⟩

/-- AES-256-GCM under the key of 32 bytes 7, on the two ciphertexts. -/
def sampleDecrypt (nonce ciphertext : List UInt8) : Option (List UInt8) :=
  if nonce = oldCredential.nonce ∧ ciphertext = oldCredential.ciphertext then some [111,108,100]
  else if nonce = newCredential.nonce ∧ ciphertext = newCredential.ciphertext then some [110,101,119]
  else none

/-- The server no longer takes the old password. -/
def sampleServer (creds : ImapCredentials) : Except ImapError Unit :=
  if creds.password = "old" then .error .authenticationFailed else .ok ()

def pushOpening : LiveSystem :=
  .opening (fun _ => none) [⟨sampleHash,true,true⟩] sampleServer

/-- The worker tries the old password, and marks it. -/
def oldTried : List LiveEvent :=
  [.store sampleHash oldCredential,.scan,.call 0,.call 0,.call 0,.call 0,.call 0,.call 0]

/-- The old password is replaced while the server is asked about it. -/
def replacedWhileTried : List LiveEvent :=
  [.store sampleHash oldCredential,.scan,.call 0,.call 0,.call 0,.call 0,
    .store sampleHash newCredential,.call 0,.call 0]

theorem push_credentials_followed_oldTried : ∃ s row,
    Run (LiveSystem.step sampleDecrypt) LiveSystem.Settled pushOpening oldTried s ∧
      s.world.credentials sampleHash = some row ∧ row.invalidSince.isSome = true ∧
      s.world.Rejected sampleDecrypt row := by
  have hv : (execWhere (LiveSystem.step sampleDecrypt) LiveSystem.Settled pushOpening oldTried).map
      (fun s => s.world.credentials sampleHash) = some (some ⟨oldCredential,some 0⟩) := by
    decide
  obtain ⟨s,hrun,hrow⟩ := run_of_map_execWhere hv
  refine ⟨s,⟨oldCredential,some 0⟩,hrun,hrow,rfl,?_⟩
  exact ((push_credentials_followed hrun).1 _ _ hrow rfl).resolve_left (by simp)

/-- The new password is marked invalid, though it decrypts and the server has only refused the old one. -/
theorem replaced_credential_marked : ∃ s,
    Run (LiveSystem.step sampleDecrypt) (fun _ _ => True) pushOpening replacedWhileTried s ∧
      s.world.credentials sampleHash = some ⟨newCredential,some 0⟩ ∧
      ¬s.world.Rejected sampleDecrypt ⟨newCredential,some 0⟩ := by
  have hv : (execWhere (LiveSystem.step sampleDecrypt) (fun _ _ => True) pushOpening
      replacedWhileTried).map
      (fun s => (s.world.credentials sampleHash,s.world.refused.map ImapCredentials.password)) =
        some (some ⟨newCredential,some 0⟩,["old"]) := by
    decide
  obtain ⟨s,hrun,hl⟩ := run_of_map_execWhere hv
  obtain ⟨hrow,hrefused⟩ := Prod.mk.inj hl
  have hopen : StoredCredential.unseal sampleDecrypt ⟨newCredential,some 0⟩ =
      .ok ⟨"mail.example.com",993,true,"a@example.com","new"⟩ := by
    decide
  refine ⟨s,hrun,hrow,?_⟩
  rintro (⟨e,he⟩ | ⟨creds,hc,hmem⟩)
  · exact absurd (hopen.symm.trans he) (by simp)
  · obtain rfl := Except.ok.inj (hopen.symm.trans hc)
    have hpass := List.mem_map_of_mem (f := ImapCredentials.password) hmem
    rw [hrefused] at hpass
    simp at hpass

end Rav
