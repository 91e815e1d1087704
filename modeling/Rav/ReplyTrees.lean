import Rav.Db.Messages

/-!
# Reply trees

The messages of a reply tree get the id of its root as their thread id, in whatever order they are
stored: each of them has it in its own headers.

## Main definitions

- `MessageId` — an id as it stands in a header
- `InReplyTree` — a message of the tree with a given root
- `storeAll` — a run of `upsert_message`
- `threadId_eq_iff` — one thread id for each tree
-/

namespace Rav

/-- A message id: it is not empty, and there is no white space in it. -/
structure MessageId where
  chars : List Char
  ne_nil : chars ≠ []
  solid : ∀ c ∈ chars, isWhitespace c = false

def MessageId.text (id : MessageId) : String := String.ofList id.chars

theorem MessageId.text_inj {a b : MessageId} : a.text = b.text ↔ a = b := by
  cases a
  cases b
  unfold text
  rw [String.ofList_inj, MessageId.mk.injEq]

/-- A References header is that of the parent followed by an id: there is white space between them,
and may be on either side. -/
def Extends (parent : Option String) (id : MessageId) (references : Option String) : Prop :=
  ∃ gap trail : List Char, (∀ c ∈ gap, isWhitespace c = true) ∧ (∀ c ∈ trail, isWhitespace c = true) ∧
    (gap = [] → parent.bind firstWord = none) ∧
      references = some (String.ofList ((parent.getD "").toList ++ gap ++ id.chars ++ trail))

/-- The messages of the reply trees with a root of the given id. A root has no In-Reply-To and no
References, or empty ones. -/
inductive InReplyTree (root : MessageId) : UpsertMessageParams → Prop
  | root {p : UpsertMessageParams} (id_eq : p.messageId = some root.text)
      (inReplyTo : p.inReplyTo = none ∨ p.inReplyTo = some "")
      (references : p.referencesHeader.bind firstWord = none) : InReplyTree root p
  | reply {p q : UpsertMessageParams} {id : MessageId} (parent : InReplyTree root p)
      (id_eq : p.messageId = some id.text) (inReplyTo : q.inReplyTo = some id.text)
      (references : Extends p.referencesHeader id q.referencesHeader) : InReplyTree root q

/-! ### The first word -/

/-- The first word of a text, as characters. -/
def leadingWord (s : List Char) : List Char :=
  (s.dropWhile isWhitespace).takeWhile (fun c => !isWhitespace c)

theorem firstWord_eq (s : String) : firstWord s =
    if leadingWord s.toList = [] then none else some (String.ofList (leadingWord s.toList)) := by
  unfold firstWord leadingWord
  split
  · next h => rw [if_pos h]
  · next h => rw [h, if_neg (List.cons_ne_nil _ _)]

theorem leadingWord_eq_nil {s : List Char} :
    leadingWord s = [] ↔ ∀ c ∈ s, isWhitespace c = true := by
  unfold leadingWord
  constructor
  · intro h
    by_contra hblank
    have hne : s.dropWhile isWhitespace ≠ [] := mt List.dropWhile_eq_nil_iff.mp hblank
    obtain ⟨c,cs,hc⟩ := List.exists_cons_of_ne_nil hne
    have hhead : isWhitespace c = false := by
      have hnot := List.head_dropWhile_not isWhitespace hne
      simpa [hc] using hnot
    rw [hc, List.takeWhile_cons_of_pos (by rw [hhead]; rfl)] at h
    exact absurd h (List.cons_ne_nil _ _)
  · intro h
    rw [List.dropWhile_eq_nil_iff.mpr h]
    rfl

/-- A text that begins with a blank text. -/
theorem leadingWord_blank {s : List Char} (hs : ∀ c ∈ s, isWhitespace c = true) (t : List Char) :
    leadingWord (s ++ t) = leadingWord t := by
  unfold leadingWord
  rw [List.dropWhile_append_of_pos hs]

theorem takeWhile_blank {t : List Char} (ht : ∀ c ∈ t, isWhitespace c = true) :
    t.takeWhile (fun c => !isWhitespace c) = [] := by
  cases t with
  | nil => rfl
  | cons c t => exact List.takeWhile_cons_of_neg (by simp [ht c List.mem_cons_self])

theorem leadingWord_id (id : MessageId) {t : List Char} (ht : ∀ c ∈ t, isWhitespace c = true) :
    leadingWord (id.chars ++ t) = id.chars := by
  have hdrop : (id.chars ++ t).dropWhile isWhitespace = id.chars ++ t := by
    obtain ⟨c,cs,hc⟩ := List.exists_cons_of_ne_nil id.ne_nil
    have hsolid := id.solid c (hc ▸ List.mem_cons_self)
    rw [hc, List.cons_append, List.dropWhile_cons_of_neg (by rw [hsolid]; exact Bool.false_ne_true)]
  unfold leadingWord
  rw [hdrop, List.takeWhile_append_of_pos (fun c hc => by rw [id.solid c hc]; rfl), takeWhile_blank ht,
    List.append_nil]

/-- The first word of a text stays the first one if something follows after white space. -/
theorem leadingWord_append {s gap : List Char} (hs : leadingWord s ≠ []) (hgap : gap ≠ [])
    (hblank : ∀ c ∈ gap, isWhitespace c = true) (t : List Char) :
    leadingWord (s ++ (gap ++ t)) = leadingWord s := by
  have hnonempty : ¬(s.dropWhile isWhitespace).isEmpty = true := by
    rw [List.isEmpty_iff]
    intro hnil
    refine hs ?_
    rw [leadingWord, hnil]
    rfl
  have hrest : (gap ++ t).takeWhile (fun c => !isWhitespace c) = [] := by
    obtain ⟨c,cs,hc⟩ := List.exists_cons_of_ne_nil hgap
    have hspace := hblank c (hc ▸ List.mem_cons_self)
    rw [hc, List.cons_append, List.takeWhile_cons_of_neg (by rw [hspace]; exact Bool.false_ne_true)]
  unfold leadingWord
  rw [List.dropWhile_append, if_neg hnonempty, List.takeWhile_append, hrest, List.append_nil]
  split
  · next hall => exact (List.takeWhile_prefix _).eq_of_length hall |>.symm
  · rfl

/-! ### The root -/

theorem firstWord_eq_some {s : String} {id : MessageId} :
    firstWord s = some id.text ↔ leadingWord s.toList = id.chars := by
  rw [firstWord_eq]
  split
  · next h =>
    rw [h]
    exact iff_of_false nofun fun heq => id.ne_nil heq.symm
  · rw [Option.some.injEq, MessageId.text, String.ofList_inj]

theorem blank_of_firstWord {parent : Option String} (h : parent.bind firstWord = none) :
    ∀ c ∈ (parent.getD "").toList, isWhitespace c = true := by
  cases parent with
  | none => exact fun c hc => absurd hc List.not_mem_nil
  | some s =>
    rw [Option.bind_some, firstWord_eq] at h
    refine leadingWord_eq_nil.mp ?_
    by_contra hne
    rw [Option.getD_some] at hne
    rw [if_neg hne] at h
    exact absurd h nofun

/-- The root is the first word of what a reply is given as its References. -/
theorem firstWord_of_extends {root id : MessageId} {parent references : Option String}
    (h : Extends parent id references)
    (hroot : parent.bind firstWord = some root.text ∨ parent.bind firstWord = none ∧ id = root) :
    references.bind firstWord = some root.text := by
  obtain ⟨gap,trail,hgap,htrail,hsep,rfl⟩ := h
  rw [Option.bind_some, firstWord_eq_some, String.toList_ofList, List.append_assoc, List.append_assoc]
  rcases hroot with hroot | ⟨hnone,rfl⟩
  · obtain ⟨s,rfl,hs⟩ := Option.bind_eq_some_iff.mp hroot
    have hword := firstWord_eq_some.mp hs
    have hne : gap ≠ [] := by
      intro hnil
      rw [hsep hnil] at hroot
      exact absurd hroot nofun
    rw [Option.getD_some, leadingWord_append (hword ▸ root.ne_nil) hne hgap, hword]
  · rw [leadingWord_blank (blank_of_firstWord hnone), leadingWord_blank hgap, leadingWord_id _ htrail]

/-- What the headers of a message of a tree say of its root. -/
theorem InReplyTree.headers {root : MessageId} {p : UpsertMessageParams} (h : InReplyTree root p) :
    p.referencesHeader.bind firstWord = some root.text ∨
      p.referencesHeader.bind firstWord = none ∧ (p.inReplyTo = none ∨ p.inReplyTo = some "") ∧
        p.messageId = some root.text := by
  induction h with
  | root id_eq inReplyTo references => exact Or.inr ⟨references,inReplyTo,id_eq⟩
  | reply parent id_eq inReplyTo references ih =>
    left
    refine firstWord_of_extends references ?_
    rcases ih with hroot | ⟨hnone,-,hid⟩
    · exact Or.inl hroot
    · exact Or.inr ⟨hnone,MessageId.text_inj.mp (Option.some.inj (id_eq.symm.trans hid))⟩

theorem InReplyTree.computeThreadId_eq {root : MessageId} {p : UpsertMessageParams}
    (h : InReplyTree root p) :
    computeThreadId p.messageId p.inReplyTo p.referencesHeader = some root.text := by
  unfold computeThreadId
  rcases h.headers with hroot | ⟨hnone,hreply,hid⟩
  · rw [hroot]
  · have hempty : p.inReplyTo.filter (fun s => s ≠ "") = none := by
      rcases hreply with h | h <;> rw [h] <;> rfl
    have hne : root.text ≠ "" := by
      intro h
      exact root.ne_nil (String.ofList_inj.mp (h.trans String.ofList_nil.symm))
    rw [hnone, hempty, hid]
    exact Option.filter_some_pos (decide_eq_true hne)

/-! ### Runs -/

/-- A header and where it is stored. -/
structure Store where
  folder : String
  uid : Nat
  params : UpsertMessageParams

/-- A run of `upsert_message`. -/
def storeAll (stores : List Store) (db : Db) : Option Db :=
  stores.foldlM (fun db s => db.upsertMessage s.folder s.uid s.params) db

/-- A header that is not stored over later in the run. -/
def Kept (stores : List Store) (s : Store) : Prop :=
  ∃ before after, stores = before ++ s :: after ∧ ∀ t ∈ after, ¬(t.folder = s.folder ∧ t.uid = s.uid)

theorem message?_of_untouched {stores : List Store} {db db' : Db} (hrun : storeAll stores db = some db')
    {folder : String} {uid : Nat} (h : ∀ t ∈ stores, ¬(t.folder = folder ∧ t.uid = uid)) :
    db'.message? folder uid = db.message? folder uid := by
  induction stores generalizing db with
  | nil => 
    obtain rfl := Option.some.inj hrun
    rfl
  | cons t stores ih =>
    obtain ⟨ht,hrest⟩ := List.forall_mem_cons.mp h
    unfold storeAll at hrun
    rw [List.foldlM_cons] at hrun
    obtain ⟨db₁,hstep,hrun⟩ := Option.bind_eq_some_iff.mp hrun
    obtain ⟨-,hmessage,-⟩ := Db.upsertMessage_spec hstep
    rw [ih hrun hrest, hmessage]
    exact if_neg fun heq => ht ⟨heq.1.symm,heq.2.symm⟩

/-- The row of a header that is kept. -/
theorem message?_of_kept {stores : List Store} {db db' : Db} (hrun : storeAll stores db = some db')
    {s : Store} (hs : Kept stores s) :
    db'.message? s.folder s.uid = some (s.params.row s.folder s.uid) := by
  obtain ⟨before,after,rfl,hafter⟩ := hs
  unfold storeAll at hrun
  rw [List.foldlM_append] at hrun
  obtain ⟨db₁,-,hrun⟩ := Option.bind_eq_some_iff.mp hrun
  rw [List.foldlM_cons] at hrun
  obtain ⟨db₂,hstep,hrun⟩ := Option.bind_eq_some_iff.mp hrun
  obtain ⟨-,hmessage,-⟩ := Db.upsertMessage_spec hstep
  rw [message?_of_untouched hrun hafter, hmessage]
  exact if_pos ⟨rfl,rfl⟩

/-- After any run the messages of a tree have one thread id, and those of another tree another one. -/
theorem threadId_eq_iff {stores : List Store} {db db' : Db} (hrun : storeAll stores db = some db')
    {s t : Store} (hs : Kept stores s) (ht : Kept stores t) {root root' : MessageId}
    (hroot : InReplyTree root s.params) (hroot' : InReplyTree root' t.params) :
    ∃ r r', db'.message? s.folder s.uid = some r ∧ db'.message? t.folder t.uid = some r' ∧
      r.threadId = some root.text ∧ (r.threadId = r'.threadId ↔ root = root') := by
  refine ⟨_,_,message?_of_kept hrun hs,message?_of_kept hrun ht,hroot.computeThreadId_eq,?_⟩
  show computeThreadId _ _ _ = computeThreadId _ _ _ ↔ _
  rw [hroot.computeThreadId_eq, hroot'.computeThreadId_eq, Option.some.injEq, MessageId.text_inj]

/-- A message and a reply to it, of which the reply is stored first. -/
def helloId : MessageId := ⟨"<hello@a>".toList,by decide,forall_mem_of_all (by decide)⟩

def helloParams : UpsertMessageParams :=
  ⟨some "<hello@a>",none,none,"Hello","","","[]","[]","",0,"",0,false,"",none,⟨1,0⟩⟩

def answerParams : UpsertMessageParams :=
  ⟨some "<answer@b>",some "<hello@a>",some "<hello@a>","Re: Hello","","","[]","[]","",0,"",0,false,"",none,⟨1,1⟩⟩

def inboxDb : Db :=
  ⟨0,false,[],defaultVacation,[],[],⟨[⟨"INBOX",some ".",none,"",true,0,0,0,0,none⟩],by decide⟩,.empty,
    by simp [Table.empty]⟩

def answerFirst : List Store := [⟨"INBOX",2,answerParams⟩,⟨"INBOX",1,helloParams⟩]

theorem threadId_answerFirst : ∃ db', storeAll answerFirst inboxDb = some db' ∧
    ∃ r r', db'.message? "INBOX" 1 = some r ∧ db'.message? "INBOX" 2 = some r' ∧
      r.threadId = some helloId.text ∧ r.threadId = r'.threadId := by
  have hroot : InReplyTree helloId helloParams := .root rfl (Or.inl rfl) rfl
  have hextends : Extends helloParams.referencesHeader helloId answerParams.referencesHeader :=
    ⟨[],[],by simp,by simp,fun _ => rfl,rfl⟩
  have hreply : InReplyTree helloId answerParams := .reply hroot rfl rfl hextends
  obtain ⟨db',hrun⟩ := Option.isSome_iff_exists.mp
    (show (storeAll answerFirst inboxDb).isSome = true by decide)
  obtain ⟨r,r',hr,hr',hthread,hsame⟩ := threadId_eq_iff hrun
    (s := ⟨"INBOX",1,helloParams⟩) (t := ⟨"INBOX",2,answerParams⟩)
    ⟨[⟨"INBOX",2,answerParams⟩],[],rfl,by simp⟩
    ⟨[],[⟨"INBOX",1,helloParams⟩],rfl,by simp⟩ hroot hreply
  exact ⟨db',hrun,r,r',hr,hr',hthread,hsame.mpr rfl⟩

end Rav
