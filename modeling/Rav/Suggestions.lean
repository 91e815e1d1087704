import Rav.Db.Messages
import Rav.Routes.Contacts
import Rav.Runs
import Rav.Worklist

/-!
# Suggestions over whole runs

Contacts are written and deleted, and every header that is stored leaves the addresses of its sender and its
recipients. What is suggested for a query are the contacts, and after them the addresses seen that are no
contact's, in which the query occurs: each as it was last written or named, no two alike but for their case,
and all of them as long as there are not more than were asked for.

## Main definitions

- `AddressEvent` — what changes the address book
- `WritesContact`, `OverwritesContact`, `LastSeen` — which contacts and addresses there are
- `Offered` — what may be suggested
- `Ahead` — the order of suggestions
-/

namespace Rav

def AddressBook.empty : AddressBook where
  db :=
    { contacts := .empty
      groups := .empty
      members := .empty
      emails := List.nodup_nil
      groupNames := List.nodup_nil
      contactOf := fun _ hm => absurd hm List.not_mem_nil
      groupOf := fun _ hm => absurd hm List.not_mem_nil }
  known := .empty

inductive AddressEvent
  | upsertContact (c : Contact)
  | deleteContact (id : String)
  /-- A header is stored; a statement on the known addresses may fail. -/
  | header (h : ImapMessageHeader) (fault : Option (Nat × String))

def AddressEvent.step (b : AddressBook) : AddressEvent → Option AddressBook
  | .upsertContact c => some { b with db := b.db.upsertContact c }
  | .deleteContact id => some { b with db := (b.db.deleteContact id).2 }
  | .header h fault =>
    let p := h.upsertParams
    some { b with known := (populateKnownAddresses p.fromAddress p.fromName p.toJson p.ccJson fault b.known).2 }

/-! ### Which contacts and addresses there are -/

def WritesContact (c : Contact) (e : AddressEvent) : Prop := e = .upsertContact c

/-- A contact with the id or the email of `c` is written, or the id is deleted. -/
inductive OverwritesContact (c : Contact) : AddressEvent → Prop
  | upsert {d : Contact} (h : d.id = c.id ∨ d.email = c.email) : OverwritesContact c (.upsertContact d)
  | delete : OverwritesContact c (.deleteContact c.id)

/-- The sender and the recipients of a message, as far as they have an address. -/
def ImapMessageHeader.correspondents (h : ImapMessageHeader) : List KnownAddress :=
  ((h.from_.head?.toList ++ h.to_ ++ h.cc).map fun a => (⟨a.address,a.name.getD ""⟩ : KnownAddress)).filter
    (fun k => k.email ≠ "")

/-- The addresses an event leaves, before a statement fails. -/
def AddressEvent.saw : AddressEvent → List KnownAddress
  | .header h (some f) => h.correspondents.take f.1
  | .header h none => h.correspondents
  | _ => []

/-- The address was seen, and its name is the last it was seen with that is not empty, if there is one. -/
def LastSeen (ks : List KnownAddress) (k : KnownAddress) : Prop :=
  (k.name ≠ "" ∧ Since (· = k) (fun l => l.email = k.email ∧ l.name ≠ "") ks) ∨
    (k.name = "" ∧ k ∈ ks ∧ ∀ l ∈ ks, l.email = k.email → l.name = "")

/-- The query occurs in a name or an address, whatever the case of its letters. -/
def Occurs (query name email : String) : Prop := likeInfix query name = true ∨ likeInfix query email = true

/-- What may be suggested for a query. -/
inductive Offered (es : List AddressEvent) (query : String) : AutocompleteSuggestion → Prop
  | contact {c : Contact} (hc : Since (WritesContact c) (OverwritesContact c) es)
    (h : Occurs query c.name c.email) : Offered es query c.suggestion
  | known {k : KnownAddress} (hk : LastSeen (es.flatMap AddressEvent.saw) k)
    (hno : ∀ c : Contact, c.email = k.email → ¬Since (WritesContact c) (OverwritesContact c) es)
    (h : Occurs query k.name k.email) : Offered es query k.suggestion

/-- Contacts come first, by their names, and then known addresses, by their emails. -/
inductive Ahead : AutocompleteSuggestion → AutocompleteSuggestion → Prop
  | contacts {c d : Contact} (h : c.name ≤ d.name) : Ahead c.suggestion d.suggestion
  | mixed (c : Contact) (k : KnownAddress) : Ahead c.suggestion k.suggestion
  | known {k l : KnownAddress} (h : k.email < l.email) : Ahead k.suggestion l.suggestion

/-! ### Known addresses -/

section Known

variable {t : KnownAddresses} {k l : KnownAddress} {ks : List KnownAddress}

theorem find?_insert (email : String) : (t.insert k).find? email =
    if email = k.email then
      some ⟨email,if k.name = "" then ((t.find? email).map KnownAddress.name).getD "" else k.name⟩
    else t.find? email := by
  rw [KnownAddresses.insert, Table.find?_insertOrIgnore, Table.find?_updateWhere]
  by_cases he : email = k.email
  · rw [if_pos he, if_pos he]
    cases hf : t.find? email with
    | none =>
      obtain ⟨kemail, kname⟩ := k
      by_cases hname : kname = ""
      · subst he hname
        rfl
      · subst he
        rw [if_neg hname]
        rfl
    | some r =>
      obtain ⟨-, hr⟩ := Table.find?_eq_some.mp hf
      subst hr
      by_cases hname : k.name = ""
      · simp [hname]
      · simp [hname, he]
  · rw [if_neg he, if_neg he, Option.or_none]
    cases hf : t.find? email with
    | none => rfl
    | some r =>
      obtain ⟨-, hr⟩ := Table.find?_eq_some.mp hf
      have hne : r.email ≠ k.email := by rwa [hr]
      simp [hne]

theorem lastSeen_snoc_ne (hne : l.email ≠ k.email) : LastSeen (ks ++ [l]) k ↔ LastSeen ks k := by
  have hkl : l ≠ k := fun h => hne (congrArg KnownAddress.email h)
  refine or_congr (and_congr_right fun _ => ?_) (and_congr_right fun _ => ?_)
  · rw [since_snoc, or_iff_right hkl]
    exact and_iff_left fun h => hne h.1
  · rw [List.mem_append, List.mem_singleton, or_iff_left hkl.symm, List.forall_mem_append,
      List.forall_mem_singleton]
    exact and_congr_right fun _ => and_iff_left fun h => absurd h hne

theorem lastSeen_snoc_named (hemail : l.email = k.email) (hname : l.name ≠ "") :
    LastSeen (ks ++ [l]) k ↔ l = k := by
  rw [LastSeen, since_snoc]
  constructor
  · rintro (⟨-, heq | ⟨-, hend⟩⟩ | ⟨-, -, hempty⟩)
    · exact heq
    · exact absurd ⟨hemail, hname⟩ hend
    · exact absurd (hempty l (List.mem_append_right _ List.mem_cons_self) hemail) hname
  · rintro rfl
    exact Or.inl ⟨hname, Or.inl rfl⟩

theorem lastSeen_snoc_unnamed (hemail : l.email = k.email) (hname : l.name = "") :
    LastSeen (ks ++ [l]) k ↔ LastSeen ks k ∨ (k.name = "" ∧ ∀ m ∈ ks, m.email ≠ k.email) := by
  have hkl : k.name = "" → k = l := by
    intro hk
    cases k
    cases l
    simp_all
  constructor
  · rintro (⟨hk, hsince⟩ | ⟨hk, -, hempty⟩)
    · obtain heq | ⟨hsince, -⟩ := since_snoc.mp hsince
      · exact absurd (heq ▸ hname) hk
      · exact Or.inl (Or.inl ⟨hk, hsince⟩)
    · rw [List.forall_mem_append] at hempty
      by_cases hseen : k ∈ ks
      · exact Or.inl (Or.inr ⟨hk, hseen, hempty.1⟩)
      · -- an entry of this email without a name would be `k` itself
        refine Or.inr ⟨hk, fun m hm hmk => hseen ?_⟩
        have hmname := hempty.1 m hm hmk
        rw [hkl hk] at hmk ⊢
        cases m
        cases l
        simp_all
  · rintro ((⟨hk, hsince⟩ | ⟨hk, hseen, hempty⟩) | ⟨hk, hunseen⟩)
    · exact Or.inl ⟨hk, since_snoc.mpr (Or.inr ⟨hsince, fun h => h.2 hname⟩)⟩
    · refine Or.inr ⟨hk, List.mem_append_left _ hseen, List.forall_mem_append.mpr ⟨hempty, ?_⟩⟩
      exact List.forall_mem_singleton.mpr fun _ => hname
    · refine Or.inr ⟨hk, ?_, List.forall_mem_append.mpr ⟨fun m hm h => absurd h (hunseen m hm), ?_⟩⟩
      · rw [hkl hk]
        exact List.mem_append_right _ List.mem_cons_self
      · exact List.forall_mem_singleton.mpr fun _ => hname

theorem known_foldl (ks : List KnownAddress) (email : String) :
    ((ks.foldl KnownAddresses.insert .empty).find? email = none ↔ ∀ k ∈ ks, k.email ≠ email) ∧
      ∀ name, (ks.foldl KnownAddresses.insert .empty).find? email = some ⟨email,name⟩ ↔
        LastSeen ks ⟨email,name⟩ := by
  induction ks using List.reverseRecOn with
  | nil =>
    refine ⟨iff_of_true rfl (fun k hk => absurd hk List.not_mem_nil), fun name => iff_of_false nofun ?_⟩
    rintro (⟨-, h⟩ | ⟨-, h, -⟩)
    · exact since_nil h
    · exact List.not_mem_nil h
  | append_singleton ks l ih =>
    obtain ⟨hnone, hsome⟩ := ih
    rw [List.foldl_append, List.foldl_cons, List.foldl_nil, find?_insert, List.forall_mem_append,
      List.forall_mem_singleton]
    by_cases he : email = l.email
    · rw [if_pos he]
      refine ⟨iff_of_false nofun (fun h => h.2 he.symm), fun name => ?_⟩
      by_cases hname : l.name = ""
      · rw [if_pos hname, lastSeen_snoc_unnamed (k := ⟨email,name⟩) he.symm hname, ← hsome, ← hnone]
        cases hf : (ks.foldl KnownAddresses.insert .empty).find? email with
        | none => simp [eq_comm]
        | some r =>
          obtain ⟨-, hr⟩ := Table.find?_eq_some.mp hf
          subst hr
          cases r
          simp
      · rw [if_neg hname, lastSeen_snoc_named (k := ⟨email,name⟩) he.symm hname, Option.some.injEq]
        subst he
        exact Iff.rfl
    · rw [if_neg he]
      exact ⟨hnone.trans (and_iff_left (Ne.symm he)).symm, fun name =>
        (hsome name).trans (lastSeen_snoc_ne (k := ⟨email,name⟩) (Ne.symm he)).symm⟩

theorem mem_known_foldl : k ∈ (ks.foldl KnownAddresses.insert .empty).rows ↔ LastSeen ks k := by
  rw [← (known_foldl ks k.email).2 k.name]
  exact ⟨Table.find?_self, fun h => (Table.find?_eq_some.mp h).1⟩

end Known

/-! ### What headers leave -/

/-- What an address is read as. -/
def EmailAddress.value (a : EmailAddress) : Json.Value :=
  .object [("name",a.name.elim .null .string),("address",.string a.address)]

theorem EmailAddress.reads_json (a : EmailAddress) : Json.Reads a.json a.value := by
  have h := Json.reads_object [("name",Json.option Json.string a.name,a.name.elim .null .string),
    ("address",Json.string a.address,.string a.address)] (by
      simp only [List.forall_mem_cons]
      exact ⟨Json.reads_option Json.reads_string _, Json.reads_string _, by simp⟩)
  exact h

/-- The addresses of a list are found again in its JSON text. -/
theorem addressEntries_array (as : List EmailAddress) : addressEntries (Json.array EmailAddress.json as) =
    (as.map fun a => (⟨a.address,a.name.getD ""⟩ : KnownAddress)).filter (fun k => k.email ≠ "") := by
  rw [addressEntries, Json.parse_of_reads (Json.reads_array (fun a _ => a.reads_json))]
  dsimp only
  rw [List.map_map]
  congr 1
  refine List.map_congr_left fun a _ => ?_
  obtain ⟨name, address⟩ := a
  cases name <;> rfl

theorem entries_header (h : ImapMessageHeader) :
    senderEntry h.upsertParams.fromAddress h.upsertParams.fromName ++ addressEntries h.upsertParams.toJson ++
      addressEntries h.upsertParams.ccJson = h.correspondents := by
  have hsender : senderEntry h.upsertParams.fromAddress h.upsertParams.fromName =
      (h.from_.head?.toList.map fun a => (⟨a.address,a.name.getD ""⟩ : KnownAddress)).filter
        (fun k => k.email ≠ "") := by
    show senderEntry ((h.from_.head?.map EmailAddress.address).getD "") _ = _
    cases hfrom : h.from_ with
    | nil => rfl
    | cons a as =>
      by_cases hempty : a.address = ""
      · simp [senderEntry, hempty]
      · simp [senderEntry, hempty, ImapMessageHeader.upsertParams, hfrom]
  show senderEntry _ _ ++ addressEntries (Json.array EmailAddress.json h.to_) ++
    addressEntries (Json.array EmailAddress.json h.cc) = _
  rw [hsender, addressEntries_array, addressEntries_array, ImapMessageHeader.correspondents, List.map_append,
    List.map_append, List.filter_append, List.filter_append]

theorem known_header (h : ImapMessageHeader) (fault : Option (Nat × String)) (t : KnownAddresses) :
    (populateKnownAddresses h.upsertParams.fromAddress h.upsertParams.fromName h.upsertParams.toJson
      h.upsertParams.ccJson fault t).2 = (AddressEvent.header h fault).saw.foldl KnownAddresses.insert t := by
  rw [populateKnownAddresses, entries_header]
  cases fault with
  | none => rfl
  | some f =>
    by_cases hfew : f.1 < h.correspondents.length
    · rw [Option.filter_some_pos (by simpa using hfew)]
      rfl
    · rw [Option.filter_some_neg (by simpa using hfew), AddressEvent.saw, List.take_of_length_le (by omega)]

/-! ### Runs -/

section Runs

variable {es : List AddressEvent} {b : AddressBook} {query : String}

theorem contact_run (h : Run AddressEvent.step (fun _ _ => True) .empty es b) (c : Contact) :
    c ∈ b.db.contacts.rows ↔ Since (WritesContact c) (OverwritesContact c) es := by
  refine Run.since (I := fun _ => True) (P := fun b => c ∈ b.db.contacts.rows) h trivial List.not_mem_nil
    (fun _ _ _ _ _ _ => trivial) ?_
  rintro b e b' - - hstep
  cases e with
  | upsertContact d =>
    obtain rfl := Option.some.inj hstep
    show c ∈ (b.db.upsertContact d).contacts.rows ↔ _
    rw [ContactsDb.mem_upsertContact, WritesContact, AddressEvent.upsertContact.injEq, or_comm, eq_comm]
    refine or_congr_right (and_congr_right fun _ => ?_)
    constructor
    · rintro ⟨hid, hemail⟩ ⟨hd | hd⟩
      · exact hid hd.symm
      · exact hemail hd.symm
    · intro hno
      exact ⟨fun hid => hno (.upsert (Or.inl hid.symm)), fun hemail => hno (.upsert (Or.inr hemail.symm))⟩
  | deleteContact id =>
    obtain rfl := Option.some.inj hstep
    show c ∈ b.db.contacts.rows.filter _ ↔ _
    rw [List.mem_filter, or_iff_right (nofun : ¬WritesContact c (.deleteContact id))]
    refine and_congr_right fun _ => ?_
    constructor
    · rintro hkept ⟨⟩
      simp at hkept
    · intro hno
      by_cases hid : c.id = id
      · exact absurd (hid ▸ OverwritesContact.delete) hno
      · simp [hid]
  | header m fault =>
    obtain rfl := Option.some.inj hstep
    rw [or_iff_right (nofun : ¬WritesContact c (.header m fault))]
    exact (and_iff_left (nofun : ¬OverwritesContact c (.header m fault))).symm

theorem known_run (h : Run AddressEvent.step (fun _ _ => True) .empty es b) :
    b.known = (es.flatMap AddressEvent.saw).foldl KnownAddresses.insert .empty := by
  refine h.foldl_writes (f := AddressBook.known) ?_
  intro b e b' hstep
  cases e with
  | upsertContact c =>
    obtain rfl := Option.some.inj hstep
    rfl
  | deleteContact id =>
    obtain rfl := Option.some.inj hstep
    rfl
  | header m fault =>
    obtain rfl := Option.some.inj hstep
    exact known_header m fault b.known

end Runs

/-! ### What is found -/

/-- A character as it stands in the pattern. -/
def escapedLike (c : Char) : List Char := if c = '\\' ∨ c = '%' ∨ c = '_' then ['\\',c] else [c]

theorem toList_escapeLike (term : String) : (escapeLike term).toList = term.toList.flatMap escapedLike := by
  have hall : ∀ c : Char, ((if c = '\\' then ['\\','\\'] else [c]).flatMap
      (fun d => if d = '%' then ['\\','%'] else [d])).flatMap
      (fun d => if d = '_' then ['\\','_'] else [d]) = escapedLike c := by
    intro c
    unfold escapedLike
    by_cases hback : c = '\\'
    · subst hback
      rfl
    by_cases hpercent : c = '%'
    · subst hpercent
      rfl
    by_cases hline : c = '_'
    · subst hline
      rfl
    simp [hback, hpercent, hline]
  unfold escapeLike replaceChar
  simp only [String.toList_ofList, List.flatMap_assoc]
  refine List.flatMap_congr fun c _ => ?_
  rw [← hall, List.flatMap_assoc]
  rfl

theorem likeEither_iff {query name email : String} :
    likeEither query name email = true ↔ Occurs query name email := by
  have hesc : ∀ c, escapedLike c = ['\\',c] ∨
      (escapedLike c = [c] ∧ c ≠ '\\' ∧ ¬(c = '%' ∨ c = '_')) := by
    intro c
    by_cases hc : c = '\\' ∨ c = '%' ∨ c = '_'
    · exact Or.inl (if_pos hc)
    · obtain ⟨hback, hwild⟩ := not_or.mp hc
      exact Or.inr ⟨if_neg hc, hback, hwild⟩
  have h := fun s => sqlLikeEscape_anywhere (toList_escapeLike query) hesc s
  rw [likeEither, h, h, Bool.or_eq_true, Occurs]

namespace AddressBook

variable (b : AddressBook) (lower : String → String) (query : String) (limit : Nat)

def contactsFound : List Contact := b.db.contacts.rows.filter (fun c => likeEither query c.name c.email)

def knownFound : List KnownAddress := b.known.rows.filter (fun k => likeEither query k.email k.name &&
  decide (∀ c ∈ b.db.contacts.rows, c.email ≠ k.email))

/-- All that may be suggested. -/
def offers : List AutocompleteSuggestion :=
  (b.contactsFound query).map Contact.suggestion ++ (b.knownFound query).map KnownAddress.suggestion

/-- What the two loops go over. -/
def candidates : List AutocompleteSuggestion :=
  let contacts := (b.db.searchContacts query limit).map Contact.suggestion
  let room := limit - (retainFirst (fun x => lower x.email) [] contacts).length
  contacts ++ (b.searchKnownAddresses query room).map KnownAddress.suggestion

variable {b lower query limit}

theorem foldl_push (lower : String → String) (xs : List AutocompleteSuggestion) (s : Suggestions) :
    (xs.foldl (Suggestions.push lower) s).suggestions =
      s.suggestions ++ retainFirst (fun x => lower x.email) s.seenEmails xs := by
  induction xs generalizing s with
  | nil => exact (List.append_nil _).symm
  | cons x xs ih =>
    rw [List.foldl_cons, ih, retainFirst, Suggestions.push]
    by_cases hseen : lower x.email ∈ s.seenEmails
    · rw [if_pos hseen, if_pos hseen]
    · rw [if_neg hseen, if_neg hseen]
      exact List.append_assoc _ _ _

theorem suggest_eq : b.suggest lower query limit =
    (retainFirst (fun x => lower x.email) [] (b.candidates lower query limit)).take limit := by
  have hcontacts := foldl_push lower
    ((b.db.searchContacts query limit).map Contact.suggestion) ⟨[],[]⟩
  rw [suggest]
  dsimp only
  split
  · rw [← List.foldl_append, foldl_push, hcontacts]
    rfl
  · next hfull =>
    -- no more is asked for, and the statement with `LIMIT 0` would find nothing
    rw [hcontacts] at hfull ⊢
    dsimp only [List.nil_append] at hfull ⊢
    have hroom : limit - (retainFirst (fun x => lower x.email) []
        ((b.db.searchContacts query limit).map Contact.suggestion)).length = 0 := by omega
    rw [candidates, hroom, searchKnownAddresses, List.take_zero, List.map_nil, List.append_nil]

theorem candidates_perm (b : AddressBook) (lower : String → String) (query : String) (limit : Nat) :
    ∃ room, b.candidates lower query limit =
        ((ContactsDb.byName (b.contactsFound query)).take limit).map Contact.suggestion ++
          (((b.knownFound query).insertionSort (fun k l => k.email ≤ l.email)).take room).map
            KnownAddress.suggestion ∧
      limit - (b.contactsFound query).length ≤ room := by
  refine ⟨_, rfl, Nat.sub_le_sub_left ?_ limit⟩
  refine (retainFirst_sublist.length_le).trans ?_
  rw [List.length_map, ContactsDb.searchContacts, List.length_take, ContactsDb.byName, List.length_insertionSort]
  exact Nat.min_le_right _ _

theorem candidates_subset : b.candidates lower query limit ⊆ b.offers query := by
  obtain ⟨room, heq, -⟩ := candidates_perm b lower query limit
  intro s hs
  rw [heq, List.mem_append] at hs
  obtain hs | hs := hs
  · obtain ⟨c, hc, rfl⟩ := List.mem_map.mp hs
    exact List.mem_append_left _ (List.mem_map_of_mem (List.mem_insertionSort _ |>.mp (List.mem_of_mem_take hc)))
  · obtain ⟨k, hk, rfl⟩ := List.mem_map.mp hs
    exact List.mem_append_right _ (List.mem_map_of_mem (List.mem_insertionSort _ |>.mp (List.mem_of_mem_take hk)))

/-- If there are not too many, all that may be suggested is gone over. -/
theorem perm_candidates (lower : String → String) (hfew : (b.offers query).length ≤ limit) :
    (b.candidates lower query limit).Perm (b.offers query) := by
  obtain ⟨room, heq, hroom⟩ := candidates_perm b lower query limit
  rw [offers, List.length_append, List.length_map, List.length_map] at hfew
  rw [heq, List.take_of_length_le, List.take_of_length_le]
  · exact ((List.perm_insertionSort _ _).map _).append ((List.perm_insertionSort _ _).map _)
  · rw [List.length_insertionSort]
    omega
  · rw [ContactsDb.byName, List.length_insertionSort]
    omega

theorem pairwise_candidates : (b.candidates lower query limit).Pairwise Ahead := by
  obtain ⟨room, heq, -⟩ := candidates_perm b lower query limit
  rw [heq, List.pairwise_append, List.pairwise_map, List.pairwise_map]
  refine ⟨?_, ?_, ?_⟩
  · refine (List.Pairwise.imp ?_ (List.pairwise_insertionSort _ _)).sublist (List.take_sublist _ _)
    intro c d hcd
    exact Ahead.contacts hcd
  · -- emails are the key, so that they are in strict order
    have hnodup : ((b.knownFound query).insertionSort (fun k l => k.email ≤ l.email)).Pairwise
        (fun k l => k.email ≠ l.email) := by
      refine List.pairwise_map.mp (((List.perm_insertionSort _ _).map KnownAddress.email).nodup_iff.mpr ?_)
      exact b.known.nodup.sublist (List.filter_sublist.map _)
    refine (List.Pairwise.imp ?_ (hnodup.and (List.pairwise_insertionSort _ _))).sublist (List.take_sublist _ _)
    rintro k l ⟨hne, hle⟩
    exact Ahead.known (lt_of_le_of_ne hle hne)
  · intro s hs t ht
    obtain ⟨c, -, rfl⟩ := List.mem_map.mp hs
    obtain ⟨k, -, rfl⟩ := List.mem_map.mp ht
    exact Ahead.mixed c k

theorem nodup_offers : (b.offers query).Nodup := by
  refine List.nodup_append.mpr ⟨?_, ?_, ?_⟩
  · have hemails : (((b.contactsFound query).map Contact.suggestion).map AutocompleteSuggestion.email).Nodup := by
      rw [List.map_map]
      exact b.db.emails.sublist (List.filter_sublist.map Contact.email)
    exact hemails.of_map
  · have hemails :
        (((b.knownFound query).map KnownAddress.suggestion).map AutocompleteSuggestion.email).Nodup := by
      rw [List.map_map]
      exact b.known.nodup.sublist (List.filter_sublist.map KnownAddress.email)
    exact hemails.of_map
  · intro s hs t ht
    obtain ⟨c, -, rfl⟩ := List.mem_map.mp hs
    obtain ⟨k, -, rfl⟩ := List.mem_map.mp ht
    intro heq
    have hsource : some "contact" = some "known" := congrArg AutocompleteSuggestion.source heq
    exact absurd hsource (by decide)

end AddressBook

variable {es : List AddressEvent} {b : AddressBook} {query : String}

theorem mem_offers (h : Run AddressEvent.step (fun _ _ => True) .empty es b) {s : AutocompleteSuggestion} :
    s ∈ b.offers query ↔ Offered es query s := by
  have hcontact := contact_run h
  have hknown : ∀ k, k ∈ b.known.rows ↔ LastSeen (es.flatMap AddressEvent.saw) k := fun k => by
    rw [known_run h, mem_known_foldl]
  rw [AddressBook.offers, List.mem_append, List.mem_map, List.mem_map]
  constructor
  · rintro (⟨c, hc, rfl⟩ | ⟨k, hk, rfl⟩)
    · obtain ⟨hc, hlike⟩ := List.mem_filter.mp hc
      exact Offered.contact ((hcontact c).mp hc) (likeEither_iff.mp hlike)
    · obtain ⟨hk, hlike⟩ := List.mem_filter.mp hk
      rw [Bool.and_eq_true, decide_eq_true_iff] at hlike
      refine Offered.known ((hknown k).mp hk) (fun c hemail hc => ?_) (likeEither_iff.mp hlike.1).symm
      exact hlike.2 c ((hcontact c).mpr hc) hemail
  · intro hs
    cases hs with
    | contact hc hlike =>
      exact Or.inl ⟨_, List.mem_filter.mpr ⟨(hcontact _).mpr hc, likeEither_iff.mpr hlike⟩, rfl⟩
    | known hk hno hlike =>
      refine Or.inr ⟨_, List.mem_filter.mpr ⟨(hknown _).mpr hk, ?_⟩, rfl⟩
      rw [Bool.and_eq_true, decide_eq_true_iff]
      exact ⟨likeEither_iff.mpr hlike.symm, fun c hc hemail => hno c hemail ((hcontact c).mp hc)⟩

/-- In every run: for a query, suggestions are no more than asked for, no two alike but for their case, in
order, and all of them may be suggested; and if there is room for all that may be, each is suggested, or one
alike. -/
theorem suggestions_run (h : Run AddressEvent.step (fun _ _ => True) .empty es b) {lower : String → String}
    {q : Option String} {limit : UInt32} (hq : searchQuery q = some query) :
    ∃ suggestions, autocompleteHandler lower q limit none b = .ok suggestions ∧
      suggestions.length ≤ limit.toNat ∧ (suggestions.map fun s => lower s.email).Nodup ∧
      suggestions.Pairwise Ahead ∧ (∀ s ∈ suggestions, Offered es query s) ∧
      ∃ offers : Finset AutocompleteSuggestion, (∀ s, s ∈ offers ↔ Offered es query s) ∧
        (offers.card ≤ limit.toNat → ∀ s ∈ offers, ∃ s' ∈ suggestions, lower s'.email = lower s.email) := by
  refine ⟨b.suggest lower query limit.toNat, by rw [autocompleteHandler, hq], ?_⟩
  rw [AddressBook.suggest_eq]
  generalize hlist : retainFirst (fun x => lower x.email) [] (b.candidates lower query limit.toNat) = suggestions
  have hsub : suggestions.Sublist (b.candidates lower query limit.toNat) := hlist ▸ retainFirst_sublist
  have htake := List.take_sublist limit.toNat suggestions
  refine ⟨List.length_take_le _ _, ?_, ?_, ?_, ?_⟩
  · refine List.Nodup.sublist (htake.map _) ?_
    rw [← hlist]
    exact nodup_retainFirst
  · exact AddressBook.pairwise_candidates.sublist (htake.trans hsub)
  · intro s hs
    exact (mem_offers h).mp (AddressBook.candidates_subset ((htake.trans hsub).subset hs))
  · refine ⟨(b.offers query).toFinset, fun s => List.mem_toFinset.trans (mem_offers h), fun hfew s hs => ?_⟩
    rw [List.toFinset_card_of_nodup AddressBook.nodup_offers] at hfew
    have hperm := AddressBook.perm_candidates lower hfew
    have hlength : suggestions.length ≤ limit.toNat := hsub.length_le.trans (hperm.length_eq.trans_le hfew)
    have hkey : lower s.email ∈ suggestions.map fun x => lower x.email := by
      rw [← hlist, mem_map_retainFirst]
      exact ⟨List.mem_map_of_mem (hperm.mem_iff.mpr (List.mem_toFinset.mp hs)), List.not_mem_nil⟩
    rw [List.take_of_length_le hlength]
    exact List.mem_map.mp hkey

/-- A contact is written; the header of a message to them and to someone else is stored, and then one with a
name for its sender. -/
def annAndBob : List AddressEvent :=
  [.upsertContact ⟨"c","ann@example.com","Ann","","",false,none,0,"manual","",""⟩,
    .header ⟨1,none,[⟨none,"bob@example.com"⟩],
      [⟨some "A","ann@example.com"⟩,⟨some "100%","eve@example.com"⟩],none,0,[],false,0,none,none,none,[],none,⟨0,0⟩⟩ none,
    .header ⟨2,none,[⟨some "Bob","bob@example.com"⟩],[],none,0,[],false,0,none,none,none,[],none,⟨0,0⟩⟩ none]

theorem suggestions_run_annAndBob : ∃ b, Run AddressEvent.step (fun _ _ => True) .empty annAndBob b ∧
    Offered annAndBob "EXAMPLE" ⟨"ann@example.com","Ann",some "contact"⟩ ∧
    Offered annAndBob "EXAMPLE" ⟨"bob@example.com","Bob",some "known"⟩ := by
  have hv : (execWhere AddressEvent.step (fun _ _ => True) .empty annAndBob).map
      (fun b => b.suggest id "EXAMPLE" 2) =
        some [⟨"ann@example.com","Ann",some "contact"⟩,⟨"bob@example.com","Bob",some "known"⟩] := by
    decide +kernel
  obtain ⟨b, hrun, hb⟩ := run_of_map_execWhere hv
  have hq : searchQuery (some " EXAMPLE") = some "EXAMPLE" := by
    decide +kernel
  obtain ⟨suggestions, hs, -, -, -, hoffered, -⟩ := @suggestions_run _ _ _ hrun id _ 2 hq
  rw [autocompleteHandler, hq] at hs
  obtain rfl := Except.ok.inj hs
  have hsuggest : b.suggest id "EXAMPLE" (2 : UInt32).toNat = _ := hb
  rw [hsuggest] at hoffered
  exact ⟨b, hrun, hoffered _ List.mem_cons_self, hoffered _ (List.mem_cons_of_mem _ List.mem_cons_self)⟩

end Rav
