import Rav.Runs
import Rav.Realtime.Provenance

/-!
# The life of an account

The system the cache is part of: one user's database beside the server's mailboxes. Requests,
background fetches and sync cycles each run as a whole task, under any weather; between them
the server changes as it likes, so a run of `account` is any history of a cache.

## Main definitions

- `AccountEvent` — what can happen
- `account` — the step function
- `World.Blank`, `World.Reachable` — where an account starts, where it can get
- `Mailbox.deliverPlain` — sample mailboxes
-/

namespace Rav

/-- What can happen to an account. -/
inductive AccountEvent
  | server (f : String) (c : Change)
  | tick (secs : Nat)
  | listFolders (f : String) (delimiter : Option String) (csv : String)
  | setDeepIndex (on : Bool)
  | cycle (weather : Weather)
  | listMessages (f : String) (weather : Weather)
  | background (i : Nat) (weather : Weather)
  | getMessage (f : String) (uid : Nat) (weather : Weather)

variable (stored : ImapMessageBody → CachedBody)

/-- One event; `stored` is what a fetched body is stored as. A folder list adds the folders it
names; a background fetch is taken off the list of those not yet run. -/
def account (w : World) : AccountEvent → Option World
  | .server f c => ((w.server f).apply c).map (fun b => { w with server := Function.update w.server f b })
  | .tick secs => some { w with db := { w.db with now := w.db.now + secs } }
  | .listFolders f delimiter csv => some { w with db := w.db.insertFolderIfNew f delimiter csv }
  | .setDeepIndex on => some { w with db := { w.db with deepIndex := on } }
  | .cycle weather => some (Task.exec weather runSync w).2
  | .listMessages f weather => some (Task.exec weather (Rav.listMessages f) w).2
  | .background i weather =>
    (w.background[i]?).map (fun p =>
      (Task.exec weather (syncRemainingHeaders p) { w with background := w.background.eraseIdx i }).2)
  | .getMessage f uid weather => some (Task.exec weather (Rav.getMessage stored f uid) w).2

/-- An account nobody has opened yet. -/
def World.Blank (w : World) : Prop := w.db.folders.rows = [] ∧ w.background = []

/-- The worlds some history of an account leads to. -/
def World.Reachable (w : World) : Prop :=
  ∃ w₀ es, w₀.Blank ∧ Run (account stored) (fun _ _ => True) w₀ es w

/-- A world with an empty cache and nothing under way. -/
def World.opening (server : String → Mailbox) : World := ⟨server,Db.empty,[],[],[],false⟩

theorem World.blank_opening (server : String → Mailbox) : (World.opening server).Blank := ⟨rfl,rfl⟩

variable {stored : ImapMessageBody → CachedBody} {w w' : World}

theorem World.Blank.reachable (h : w.Blank) : w.Reachable stored := ⟨w,[],h,.nil w⟩

theorem World.Reachable.step {e : AccountEvent} (h : w.Reachable stored)
    (he : account stored w e = some w') : w'.Reachable stored := by
  obtain ⟨w₀,es,h0,hrun⟩ := h
  exact ⟨w₀,es ++ [e],h0,.snoc hrun trivial he⟩

/-- The server may change between events. -/
theorem World.Reachable.drift (h : w.Reachable stored) (cs : List (String × Change)) :
    (w.drift cs).Reachable stored := by
  induction cs generalizing w with
  | nil => exact h
  | cons c cs ih =>
    refine ih (w := w.change c) ?_
    unfold World.change
    split
    · next b hb => exact h.step (e := .server c.1 c.2) (by simp [account,hb])
    · exact h

/-- What holds of every header any mailbox can answer with, an event keeps of every cached
row. -/
theorem account_rowsSatisfy {P : String → Nat → Origin → Prop}
    (hP : ∀ (b : Mailbox) f set, ∀ h ∈ b.headers set, P f h.uid h.origin) {e : AccountEvent}
    (h : account stored w e = some w') (hw : w.db.RowsSatisfy P) : w'.db.RowsSatisfy P := by
  cases e with
  | server f c =>
    obtain ⟨b,-,rfl⟩ := Option.map_eq_some_iff.mp h
    exact hw
  | background i weather =>
    obtain ⟨p,-,rfl⟩ := Option.map_eq_some_iff.mp h
    exact exec_rowsSatisfy hP (provenant_syncRemainingHeaders p) hw
  | tick secs =>
    obtain rfl := Option.some.inj h
    exact hw
  | listFolders f delimiter csv =>
    obtain rfl := Option.some.inj h
    exact hw
  | setDeepIndex on =>
    obtain rfl := Option.some.inj h
    exact hw
  | cycle weather =>
    obtain rfl := Option.some.inj h
    exact exec_rowsSatisfy hP provenant_runSync hw
  | listMessages f weather =>
    obtain rfl := Option.some.inj h
    exact exec_rowsSatisfy hP (provenant_listMessages f) hw
  | getMessage f uid weather =>
    obtain rfl := Option.some.inj h
    exact exec_rowsSatisfy hP (provenant_getMessage stored f uid) hw

theorem World.Blank.rowsSatisfy (h : w.Blank) (P : String → Nat → Origin → Prop) :
    w.db.RowsSatisfy P := by
  intro f u r hr
  obtain ⟨hm,-,-⟩ := Db.message?_eq_some.mp hr
  obtain ⟨row,hrow,-⟩ := w.db.fk r hm
  rw [h.1] at hrow
  simp at hrow

theorem World.Reachable.rowsSatisfy {P : String → Nat → Origin → Prop}
    (hP : ∀ (b : Mailbox) f set, ∀ h ∈ b.headers set, P f h.uid h.origin)
    (h : w.Reachable stored) : w.db.RowsSatisfy P := by
  obtain ⟨w₀,es,h0,hrun⟩ := h
  exact hrun.invariant (P := fun s => s.db.RowsSatisfy P) (h0.rowsSatisfy P)
    (fun s e t hs _ hst => account_rowsSatisfy hP hst hs)

/-- A cached UID was once below some `UIDNEXT`, so it has a successor among the UIDs. -/
theorem World.Reachable.succ_lt {f : String} (h : w.Reachable stored) :
    ∀ u ∈ w.db.uids f, u + 1 < 2 ^ 32 := by
  have hb := h.rowsSatisfy (P := fun _ u _ => u + 1 < 2 ^ 32) (fun b g set k hk => by
    obtain ⟨m,hm,rfl⟩ := List.mem_map.mp hk
    have := (b.uid_bounds m (List.mem_filter.mp hm).1).2
    have hlt := b.uidNext_lt
    have hu : (b.stamp m).uid = m.uid := rfl
    omega)
  intro u hu
  obtain ⟨r,hr⟩ := Db.mem_uids.mp hu
  exact hb f u r hr

/-! ### Samples -/

def plainHeader : ImapMessageHeader :=
  ⟨0,none,[],[],none,0,[],false,0,none,none,none,[],none,⟨0,0⟩⟩

def plainBody : ImapMessageBody := ⟨0,none,none,[],"",⟨0,0⟩⟩

/-- Deliver `n` empty messages. -/
def Mailbox.deliverPlain (b : Mailbox) : Nat → Mailbox
  | 0 => b
  | n + 1 => ((b.deliverPlain n).apply (.deliver 0 plainHeader plainBody)).getD (b.deliverPlain n)

/-- No call goes through. -/
def offline : Weather := ⟨fun _ => [],fun _ => some (.connectionFailed "timed out"),false⟩

end Rav
