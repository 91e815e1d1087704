import Rav.Routes.Contacts

/-!
# Replaced contacts

Writing a contact replaces every row that has its id or its email: the contact leaves its groups,
and another contact with the email is gone. A run of creations, updates and imports loses nothing
exactly when each contact it writes is in no group and shares its email with no other.

## Main definitions

- `ContactRequest`, `serveContacts` — the requests, one after the other
- `Upsert`, `upserts` — the contacts a run writes, with the tables before and after
- `Upsert.Alone` — the contact written is in no group, and no other has its email
- `ContactsKept` — nothing is lost
-/

namespace Rav

/-! ### Runs of requests -/

inductive ContactRequest
  | create (body : CreateContactBody)
  | importFile (upload : MultipartField)

def ContactRequest.task : ContactRequest → ContactTask Unit
  | .create body => do
    let _ ← createContactHandler body
    pure ()
  | .importFile upload => do
    let _ ← importContactsHandler upload
    pure ()

/-- The requests, one after the other. -/
def serveContacts : List ContactRequest → ContactTask Unit
  | [] => pure ()
  | r :: rs => do
    r.task
    serveContacts rs

/-- A contact that was written, and the tables before and after. -/
structure Upsert where
  before : ContactsDb
  contact : Contact
  after : ContactsDb

/-- What a call writes: nothing, if its statement fails. -/
def writes : ContactCall → ContactsWorld → List Upsert
  | .upsertContact c, w =>
    match w.fault with
    | some _ => []
    | none => [⟨w.db,c,((ContactCall.upsertContact c).serve w).2.db⟩]
  | _, _ => []

/-- The contacts that requests write, in order. -/
def upserts (rs : List ContactRequest) (w : ContactsWorld) : List Upsert :=
  (serveContacts rs).log ContactCall.serve writes w

/-- The tables after the requests. -/
def contactsAfter (rs : List ContactRequest) (w : ContactsWorld) : ContactsDb :=
  ((serveContacts rs).run ContactCall.serve w).2.db

namespace Upsert

variable (u : Upsert)

/-- The contact keeps every group membership. -/
def KeepsGroups : Prop :=
  ∀ m ∈ u.before.members.rows, m.contactId = u.contact.id → m ∈ u.after.members.rows

/-- Every other contact stays as it is. -/
def KeepsOthers : Prop :=
  ∀ d ∈ u.before.contacts.rows, d.id ≠ u.contact.id → d ∈ u.after.contacts.rows

/-- The contact is in no group, and no other contact has its email. -/
def Alone : Prop :=
  (∀ m ∈ u.before.members.rows, m.contactId ≠ u.contact.id) ∧
    ∀ d ∈ u.before.contacts.rows, d.email = u.contact.email → d.id = u.contact.id

instance : Decidable u.KeepsGroups := by
  unfold KeepsGroups
  infer_instance

instance : Decidable u.Alone := by
  unfold Alone
  infer_instance

end Upsert

/-- Every contact written keeps its groups and every other contact, so that the memberships and
the contacts there were are there at the end; and no two contacts share an email. -/
structure ContactsKept (rs : List ContactRequest) (w : ContactsWorld) : Prop where
  groups : ∀ u ∈ upserts rs w, u.KeepsGroups
  others : ∀ u ∈ upserts rs w, u.KeepsOthers
  members : ∀ m ∈ w.db.members.rows, m ∈ (contactsAfter rs w).members.rows
  contacts : ∀ d ∈ w.db.contacts.rows, ∃ d' ∈ (contactsAfter rs w).contacts.rows, d'.id = d.id
  emails : ((contactsAfter rs w).contacts.rows.map Contact.email).Nodup

/-! ### One upsert -/

namespace ContactsDb

variable {db : ContactsDb} {c : Contact}

/-- A membership of the contact written never survives. -/
theorem keepsGroups_upsertContact {m : GroupMember} (hm : m ∈ db.members.rows)
    (hid : m.contactId = c.id) : m ∉ (db.upsertContact c).members.rows := by
  intro hafter
  obtain ⟨r,hr,hrid⟩ := List.mem_map.mp (db.contactOf m hm)
  exact ((member_upsertContact.mp hafter).2 r hr hrid).1 (hrid.trans hid)

theorem keepsOthers_upsertContact {d : Contact} (hd : d ∈ db.contacts.rows) (hid : d.id ≠ c.id) :
    d ∈ (db.upsertContact c).contacts.rows ↔ d.email ≠ c.email := by
  rw [mem_upsertContact]
  refine ⟨?_,fun hemail => Or.inl ⟨hd,hid,hemail⟩⟩
  rintro (⟨-,-,hemail⟩ | rfl)
  · exact hemail
  · exact absurd rfl hid

/-- Writing a contact keeps its groups and every other contact if and only if it is in no group
and no other contact has its email. -/
theorem upsertContact_keeps_iff :
    (Upsert.mk db c (db.upsertContact c)).KeepsGroups ∧
      (Upsert.mk db c (db.upsertContact c)).KeepsOthers ↔
    (Upsert.mk db c (db.upsertContact c)).Alone := by
  constructor
  · rintro ⟨hgroups,hothers⟩
    refine ⟨fun m hm hid => keepsGroups_upsertContact hm hid (hgroups m hm hid),?_⟩
    intro d hd hemail
    by_contra hid
    exact (keepsOthers_upsertContact hd hid).mp (hothers d hd hid) hemail
  · rintro ⟨hgroups,hothers⟩
    refine ⟨fun m hm hid => absurd hid (hgroups m hm),fun d hd hid => ?_⟩
    exact (keepsOthers_upsertContact hd hid).mpr (fun hemail => hid (hothers d hd hemail))

/-- Writing a contact that is alone keeps every membership. -/
theorem member_upsertContact_of_alone {m : GroupMember}
    (h : (Upsert.mk db c (db.upsertContact c)).Alone) (hm : m ∈ db.members.rows) :
    m ∈ (db.upsertContact c).members.rows := by
  refine member_upsertContact.mpr ⟨hm,fun r hr hid => ?_⟩
  have hrc : r.id ≠ c.id := fun hrc => h.1 m hm (hid.symm.trans hrc)
  exact ⟨hrc,fun hemail => hrc (h.2 r hr hemail)⟩

/-- Writing a contact that is alone keeps every contact, by its id. -/
theorem contact_upsertContact_of_alone {d : Contact}
    (h : (Upsert.mk db c (db.upsertContact c)).Alone) (hd : d ∈ db.contacts.rows) :
    ∃ d' ∈ (db.upsertContact c).contacts.rows, d'.id = d.id := by
  by_cases hid : d.id = c.id
  · exact ⟨c,mem_upsertContact.mpr (Or.inr rfl),hid.symm⟩
  · exact ⟨d,(keepsOthers_upsertContact hd hid).mpr (fun he => hid (h.2 d hd he)),rfl⟩

end ContactsDb

/-! ### Runs -/

theorem statement_db {α : Type} {w : ContactsWorld} {failed : String} {a : α} {db : ContactsDb} :
    (w.statement failed (a,db)).2.db = if w.fault = none then db else w.db := by
  unfold ContactsWorld.statement
  cases w.fault <;> simp

/-- What is written is the contact of an upsert that succeeds. -/
theorem mem_writes {e : ContactCall} {w : ContactsWorld} {u : Upsert} (hu : u ∈ writes e w) :
    u = ⟨w.db,u.contact,w.db.upsertContact u.contact⟩ := by
  cases e with
  | upsertContact c =>
    simp only [writes] at hu
    cases hf : w.fault with
    | some err => simp [hf] at hu
    | none =>
      have hafter : ((ContactCall.upsertContact c).serve w).2.db = w.db.upsertContact c := by
        show (w.statement _ _).2.db = _
        rw [statement_db,if_pos hf]
      rw [hf] at hu
      obtain rfl := List.mem_singleton.mp hu
      rw [hafter]
  | _ => simp [writes] at hu

/-- The tables after one call: those after what it writes, or the same. -/
theorem serve_db (e : ContactCall) (w : ContactsWorld) :
    (∃ u ∈ writes e w, (e.serve w).2.db = u.after) ∨ (e.serve w).2.db = w.db := by
  cases e with
  | upsertContact c =>
    cases hf : w.fault with
    | some err =>
      refine Or.inr ?_
      show (w.statement _ _).2.db = _
      simp [statement_db,hf]
    | none => exact Or.inl ⟨_,by simp only [writes,hf]; exact List.mem_singleton_self _,rfl⟩
  | newV4 => exact Or.inr rfl
  | withUserDb | datetimeNow | getContactByEmail _ =>
    refine Or.inr ?_
    show (w.statement _ _).2.db = _
    rw [statement_db]
    exact ite_self _

section Runs

variable {α : Type} {p : ContactTask α} {w : ContactsWorld}

theorem mem_log {u : Upsert} (hu : u ∈ p.log ContactCall.serve writes w) :
    u = ⟨u.before,u.contact,u.before.upsertContact u.contact⟩ := by
  induction p generalizing w with
  | pure a => exact absurd hu List.not_mem_nil
  | call e k ih =>
    rcases List.mem_append.mp hu with hu | hu
    · have he := mem_writes hu
      have hb : u.before = w.db := congrArg Upsert.before he
      rw [hb]
      exact he
    · exact ih _ hu

/-- What every write of a contact that is alone preserves, a program that writes only such
contacts preserves. -/
theorem kept_of_alone {P : ContactsDb → Prop}
    (hP : ∀ db c, (Upsert.mk db c (db.upsertContact c)).Alone → P db → P (db.upsertContact c))
    (h : ∀ u ∈ p.log ContactCall.serve writes w, u.Alone) (hw : P w.db) :
    P (p.run ContactCall.serve w).2.db := by
  induction p generalizing w with
  | pure a => exact hw
  | call e k ih =>
    refine ih _ (fun u hu => h u (List.mem_append_right _ hu)) ?_
    rcases serve_db e w with ⟨u,hu,hdb⟩ | hdb
    · have halone := h u (List.mem_append_left _ hu)
      rw [mem_writes hu] at halone hdb
      rw [hdb]
      exact hP _ _ halone hw
    · rwa [hdb]

end Runs

/-- A run of creations, updates and imports keeps the groups of every contact it writes and every
other contact if and only if each contact it writes is in no group and shares its email with no
other. -/
theorem contactsKept_iff (rs : List ContactRequest) (w : ContactsWorld) :
    ContactsKept rs w ↔ ∀ u ∈ upserts rs w, u.Alone := by
  constructor
  · intro h u hu
    have hgroups := h.groups u hu
    have hothers := h.others u hu
    rw [mem_log hu] at hgroups hothers ⊢
    exact ContactsDb.upsertContact_keeps_iff.mp ⟨hgroups,hothers⟩
  · intro h
    have hkeeps : ∀ u ∈ upserts rs w, u.KeepsGroups ∧ u.KeepsOthers := by
      intro u hu
      have halone := h u hu
      rw [mem_log hu] at halone ⊢
      exact ContactsDb.upsertContact_keeps_iff.mpr halone
    refine ⟨fun u hu => (hkeeps u hu).1,fun u hu => (hkeeps u hu).2,fun m hm => ?_,fun d hd => ?_,
      (contactsAfter rs w).emails⟩
    · exact kept_of_alone (P := fun db => m ∈ db.members.rows)
        (fun _ _ ha hm => ContactsDb.member_upsertContact_of_alone ha hm) h hm
    · refine kept_of_alone (P := fun db => ∃ d' ∈ db.contacts.rows, d'.id = d.id) ?_ h ⟨d,hd,rfl⟩
      rintro db c ha ⟨d',hd',hid⟩
      obtain ⟨d'',hd'',hid'⟩ := ContactsDb.contact_upsertContact_of_alone ha hd'
      exact ⟨d'',hd'',hid'.trans hid⟩

/-- Ann, in the group of friends. -/
def annAmongFriends : ContactsWorld where
  db := {
    contacts := ⟨[⟨"c1","ann@example.com","Ann","","",false,none,0,"manual","",""⟩],by decide⟩
    groups := ⟨[⟨"g1","Friends","",""⟩],by decide⟩
    members := ⟨[⟨"g1","c1"⟩],by decide⟩
    emails := by decide
    groupNames := by decide
    contactOf := by decide
    groupOf := by decide }
  now := "2026-01-01 00:00:00"
  uuids := fun _ => "c2"
  issued := 0
  faults := []

/-- Giving Ann a company. -/
def annAtWork : ContactRequest :=
  .create { id := some "c1", email := "ann@example.com", name := "Ann", company := "Acme" }

/-- An edited contact leaves its group. -/
theorem left_group : ¬ContactsKept [annAtWork] annAmongFriends := by
  intro h
  have hmember := h.members ⟨"g1","c1"⟩ (by decide)
  revert hmember
  decide +kernel

end Rav
