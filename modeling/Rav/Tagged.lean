import Rav.Checked
import Rav.Routes.Tags
import Rav.Runs

/-!
# Tags over whole runs

The tables are changed by the requests of `routes::tags`, by whatever stores and deletes messages, and by
what becomes of folders. What is answered to all of these determines which tags there are and which message
has which tag: a tag is as it was last named until it is deleted, and is on a message since it was last put
on it, unless it was taken off, the tag deleted, or the message stored anew or deleted.

## Main definitions

- `TagEvent`, `TagAnswer`, `TagEvent.serve` — requests and statements, and what comes of them
- `Names`, `Renames`, `Tags`, `Untags` — what an event and its answer say
- `TagEvent.Changes` — what one event does
-/

namespace Rav

open TagRoutes

inductive TagEvent
  | create (newV4 : String) (body : CreateTagBody) (fault : Option String)
  | update (id : String) (body : UpdateTagBody) (fault : Option String)
  | delete (id : String) (fault : Option String)
  | tag (cipher : FolderCipher) (id : String) (body : TagMessageRef) (now : String) (fault : Option String)
  | untag (cipher : FolderCipher) (id : String) (folderId : FolderId) (uid : Nat) (fault : Option String)
  | bulk (cipher : FolderCipher) (id : String) (messages : List TagMessageRef) (now : String)
      (fault : Option String)
  | insertFolder (name : String) (delimiter : Option String) (csv : String)
  | upsertMessage (folder : String) (uid : Nat) (params : UpsertMessageParams)
  | deleteMessage (folder : String) (uid : Nat)
  | deleteFolderMessages (folder : String)
  | removeStaleFolders (currentNames : List String)
  | deleteFolder (name : String)
  | renameMessages (new old : String)
  | renameFolder (new old : String)

/-- What a handler replies, or what a statement comes to. -/
inductive TagAnswer
  | reply (r : Except AppError Reply)
  | statement (r : Except String Unit)
  deriving DecidableEq

/-- A statement takes effect or fails. -/
def statementAnswer (c : Cache) : Except String Cache → TagAnswer × Cache
  | .error e => (.statement (.error e),c)
  | .ok c' => (.statement (.ok ()),c')

def replyAnswer (r : Except AppError Reply × Cache) : TagAnswer × Cache := (.reply r.1,r.2)

def TagEvent.serve (c : Cache) : TagEvent → TagAnswer × Cache
  | .create newV4 body fault => replyAnswer (createTagHandler newV4 body fault c)
  | .update id body fault => replyAnswer (updateTagHandler id body fault c)
  | .delete id fault => replyAnswer (deleteTagHandler id fault c)
  | .tag cipher id body now fault => replyAnswer (tagMessageHandler cipher id body now fault c)
  | .untag cipher id folderId uid fault => replyAnswer (untagMessageHandler cipher id folderId uid fault c)
  | .bulk cipher id messages now fault => replyAnswer (bulkTagHandler cipher id messages now fault c)
  | .insertFolder name delimiter csv => statementAnswer c (.ok (c.insertFolderIfNew name delimiter csv))
  | .upsertMessage folder uid params => statementAnswer c (c.upsertMessage folder uid params)
  | .deleteMessage folder uid => statementAnswer c (c.deleteMessage folder uid)
  | .deleteFolderMessages folder => statementAnswer c (c.deleteFolderMessages folder)
  | .removeStaleFolders currentNames => statementAnswer c (.ok (c.removeStaleFolders currentNames).2)
  | .deleteFolder name => statementAnswer c (.ok (c.deleteFoldersWhere (fun n => n = name)))
  | .renameMessages new old => statementAnswer c (c.updateMessagesFolder new old)
  | .renameFolder new old => statementAnswer c (c.updateFoldersName new old)

/-- An event and its answer. -/
abbrev TagExchange := TagEvent × TagAnswer

def TagExchange.step (c : Cache) (x : TagExchange) : Option Cache := some (x.1.serve c).2

def TagExchange.Possible (c : Cache) (x : TagExchange) : Prop := (x.1.serve c).1 = x.2

instance (c : Cache) (x : TagExchange) : Decidable (x.Possible c) := inferInstanceAs (Decidable (_ = _))

/-! ### What an exchange says -/

/-- The tag was created or updated to be this. -/
def Names (t : MessageTag) (x : TagExchange) : Prop := x.2 = .reply (.ok (.tag t.id t.name t.color))

/-- The tag was deleted or updated to be something else. -/
inductive Renames (t : MessageTag) : TagExchange → Prop
  | update {e : TagEvent} {name color : String} (h : ⟨t.id,name,color⟩ ≠ t) :
      Renames t (e,.reply (.ok (.tag t.id name color)))
  | delete {fault : Option String} : Renames t (.delete t.id fault,.reply (.ok .deleted))

/-- The tag was put on the message. -/
inductive Tags (tagId : String) (k : Nat × String) : TagExchange → Prop
  | tag {cipher : FolderCipher} {folderId : FolderId} {now : String} {fault : Option String}
      (h : cipher.decrypt folderId = .ok k.2) :
      Tags tagId k (.tag cipher tagId ⟨k.1,folderId⟩ now fault,.reply (.ok .ok))
  | bulk {cipher : FolderCipher} {messages : List TagMessageRef} {m : TagMessageRef} {now : String}
      {fault : Option String} {n : Nat} (hm : m ∈ messages) (huid : m.uid = k.1)
      (h : cipher.decrypt m.folder = .ok k.2) :
      Tags tagId k (.bulk cipher tagId messages now fault,.reply (.ok (.tagged n)))

/-- The tag was taken off the message, or one of them is gone. -/
inductive Untags (tagId : String) (k : Nat × String) : TagExchange → Prop
  | untag {cipher : FolderCipher} {folderId : FolderId} {fault : Option String}
      (h : cipher.decrypt folderId = .ok k.2) :
      Untags tagId k (.untag cipher tagId folderId k.1 fault,.reply (.ok .ok))
  | delete {fault : Option String} : Untags tagId k (.delete tagId fault,.reply (.ok .deleted))
  | upsertMessage {params : UpsertMessageParams} :
      Untags tagId k (.upsertMessage k.2 k.1 params,.statement (.ok ()))
  | deleteMessage : Untags tagId k (.deleteMessage k.2 k.1,.statement (.ok ()))
  | deleteFolderMessages : Untags tagId k (.deleteFolderMessages k.2,.statement (.ok ()))
  | removeStaleFolders {currentNames : List String} (h : k.2 ∉ currentNames) :
      Untags tagId k (.removeStaleFolders currentNames,.statement (.ok ()))
  | deleteFolder : Untags tagId k (.deleteFolder k.2,.statement (.ok ()))

/-! ### The tables -/

namespace Cache

variable {c c' : Cache} {t : MessageTag} {tagId : String} {k : Nat × String}

/-- There is a tag like this. -/
def HasTag (c : Cache) (t : MessageTag) : Prop := ⟨t.id,t.name,t.color⟩ ∈ c.rows.tags

/-- The message has the tag. -/
def Tagged (c : Cache) (tagId : String) (k : Nat × String) : Prop :=
  (tagId,k) ∈ c.rows.messageTags.map MessageTagRow.key

/-- No two tags have one name. -/
def NamesUnique (c : Cache) : Prop := ∀ s ∈ c.rows.tags, ∀ t ∈ c.rows.tags, s.name = t.name → s = t

/-- What a change of the tables comes to for the tags. -/
structure Changes (c c' : Cache) (x : TagExchange) : Prop where
  named : ∀ t, c'.HasTag t ↔ Names t x ∨ (c.HasTag t ∧ ¬Renames t x)
  tagged : ∀ tagId k, c'.Tagged tagId k ↔ Tags tagId k x ∨ (c.Tagged tagId k ∧ ¬Untags tagId k x)
  unique : c.NamesUnique → c'.NamesUnique

/-- Nothing happens, and nothing is said to. -/
theorem changes_same {x : TagExchange} (htags : c'.rows.tags = c.rows.tags)
    (hmessageTags : c'.rows.messageTags = c.rows.messageTags) (hnames : ∀ t, ¬Names t x)
    (hrenames : ∀ t, ¬Renames t x) (hputs : ∀ tagId k, ¬Tags tagId k x)
    (htakes : ∀ tagId k, ¬Untags tagId k x) : Changes c c' x where
  named t := by
    rw [HasTag, HasTag, htags]
    simp only [hnames, hrenames, not_false_eq_true, and_true, false_or]
  tagged tagId k := by
    rw [Tagged, Tagged, hmessageTags]
    simp only [hputs, htakes, not_false_eq_true, and_true, false_or]
  unique h := by
    rw [NamesUnique, htags]
    exact h

/-- A request is answered with an error, with the tables as they were. -/
theorem changes_error {e : TagEvent} {err : AppError} (htags : c'.rows.tags = c.rows.tags)
    (hmessageTags : c'.rows.messageTags = c.rows.messageTags) : Changes c c' (e,.reply (.error err)) := by
  apply changes_same htags hmessageTags
  · intro t h
    cases TagAnswer.reply.inj h
  all_goals
    intros
    rintro ⟨⟩

theorem changes_refused {e : TagEvent} {err : AppError} : Changes c c (e,.reply (.error err)) :=
  changes_error rfl rfl

theorem changes_failed {e : TagEvent} {err : String} : Changes c c (e,.statement (.error err)) := by
  apply changes_same rfl rfl
  · intro t h
    exact TagAnswer.noConfusion h
  all_goals
    intros
    rintro ⟨⟩

/-- A tag was created or updated. -/
theorem changes_named {e : TagEvent} {id name color : String}
    (htags : ∀ t, c'.HasTag t ↔ t = ⟨id,name,color⟩ ∨ (c.HasTag t ∧ t.id ≠ id))
    (hmessageTags : c'.rows.messageTags = c.rows.messageTags) (hunique : c.NamesUnique → c'.NamesUnique) :
    Changes c c' (e,.reply (.ok (.tag id name color))) where
  named t := by
    have hnames : Names t (e,.reply (.ok (.tag id name color))) ↔ t = ⟨id,name,color⟩ := by
      constructor
      · intro h
        obtain ⟨hid, hname, hcolor⟩ := Reply.tag.inj (Except.ok.inj (TagAnswer.reply.inj h))
        rw [hid, hname, hcolor]
      · rintro rfl
        rfl
    have hrenames : Renames t (e,.reply (.ok (.tag id name color))) ↔ t.id = id ∧ ⟨id,name,color⟩ ≠ t := by
      constructor
      · rintro ⟨h⟩
        exact ⟨rfl, h⟩
      · rintro ⟨rfl, h⟩
        exact .update h
    rw [htags, hnames, hrenames]
    by_cases ht : t = ⟨id,name,color⟩
    · exact iff_of_true (Or.inl ht) (Or.inl ht)
    · rw [or_iff_right ht, or_iff_right ht, and_iff_left (Ne.symm ht)]
  tagged tagId k := by
    rw [Tagged, Tagged, hmessageTags]
    constructor
    · intro h
      exact Or.inr ⟨h, by rintro ⟨⟩⟩
    · rintro (⟨⟨⟩⟩ | ⟨h, -⟩)
      exact h
  unique := hunique

/-- The tags themselves are as they were. -/
theorem changes_tagged {x : TagExchange} (htags : c'.rows.tags = c.rows.tags) (hnames : ∀ t, ¬Names t x)
    (hrenames : ∀ t, ¬Renames t x)
    (htagged : ∀ tagId k, c'.Tagged tagId k ↔ Tags tagId k x ∨ (c.Tagged tagId k ∧ ¬Untags tagId k x)) :
    Changes c c' x where
  named t := by
    rw [HasTag, HasTag, htags]
    simp only [hnames, hrenames, not_false_eq_true, and_true, false_or]
  tagged := htagged
  unique h := by
    rw [NamesUnique, htags]
    exact h

end Cache

/-! ### What each statement does -/

theorem except_mapError_eq_ok {ε ε' α : Type} {f : ε → ε'} {x : Except ε α} {a : α} :
    x.mapError f = .ok a ↔ x = .ok a := by
  cases x with
  | error e => exact iff_of_false nofun nofun
  | ok b => exact ⟨fun h => congrArg Except.ok (Except.ok.inj h), fun h => congrArg Except.ok (Except.ok.inj h)⟩

namespace Cache

variable {c c' : Cache} {id name color now folder : String} {uid : Nat} {b : Bool}

theorem rows_createTag (h : c.createTag id name color = .ok c') :
    name ∉ c.rows.tags.map TagRow.name ∧ c'.rows = { c.rows with tags := c.rows.tags ++ [⟨id,name,color⟩] } := by
  rw [createTag] at h
  split at h
  · cases h
  · next hname => exact ⟨hname, (CacheRows.commit_eq_ok.mp (except_mapError_eq_ok.mp h)).symm⟩

theorem rows_updateTag (h : c.updateTag id name color = .ok (b,c')) :
    (b = false ∧ c' = c ∧ id ∉ c.rows.tags.map TagRow.id) ∨
      (b = true ∧ id ∈ c.rows.tags.map TagRow.id ∧
        name ∉ (c.rows.tags.filter (fun t => t.id ≠ id)).map TagRow.name ∧
        c'.rows = { c.rows with
          tags := c.rows.tags.map (fun t => if t.id = id then ⟨id,name,color⟩ else t) }) := by
  rw [updateTag] at h
  split at h
  · next hid =>
    split at h
    · cases h
    next hname =>
    obtain ⟨c'', hc, hpair⟩ := except_map_eq_ok.mp (except_mapError_eq_ok.mp h)
    obtain ⟨rfl, rfl⟩ := Prod.mk.inj hpair
    exact Or.inr ⟨rfl, hid, hname, (CacheRows.commit_eq_ok.mp hc).symm⟩
  · next hid =>
    obtain ⟨rfl, rfl⟩ := Prod.mk.inj (Except.ok.inj h)
    exact Or.inl ⟨rfl, rfl, hid⟩

theorem rows_deleteTag (h : c.deleteTag id = .ok (b,c')) :
    (b = true ↔ id ∈ c.rows.tags.map TagRow.id) ∧
      c'.rows = { c.rows with
        tags := c.rows.tags.filter (fun t => t.id ≠ id)
        messageTags := c.rows.messageTags.filter (fun mt => mt.tagId ≠ id) } := by
  obtain ⟨c'', hc, hpair⟩ := except_map_eq_ok.mp (except_mapError_eq_ok.mp h)
  obtain ⟨rfl, rfl⟩ := Prod.mk.inj hpair
  exact ⟨decide_eq_true_iff, (CacheRows.commit_eq_ok.mp hc).symm⟩

theorem rows_addTagToMessage (h : c.addTagToMessage id uid folder now = .ok c') :
    c'.rows.tags = c.rows.tags ∧
      ∀ tagId k, c'.Tagged tagId k ↔ c.Tagged tagId k ∨ (tagId = id ∧ k = (uid,folder)) := by
  rw [addTagToMessage] at h
  split at h
  · next hhas =>
    obtain rfl := Except.ok.inj h
    refine ⟨rfl, fun tagId k => (or_iff_left_of_imp ?_).symm⟩
    rintro ⟨rfl, rfl⟩
    exact List.mem_map.mpr hhas
  · have hrows := CacheRows.commit_eq_ok.mp (except_mapError_eq_ok.mp h)
    refine ⟨by rw [← hrows], fun tagId k => ?_⟩
    rw [Tagged, Tagged, ← hrows]
    dsimp only
    rw [List.map_append, List.mem_append, List.map_singleton, List.mem_singleton]
    exact or_congr_right Prod.mk_inj

theorem rows_removeTagFromMessage (h : c.removeTagFromMessage id uid folder = .ok (b,c')) :
    (b = true ↔ c.Tagged id (uid,folder)) ∧ c'.rows.tags = c.rows.tags ∧
      c'.rows.messageTags = c.rows.messageTags.filter (fun mt => mt.key ≠ (id,uid,folder)) := by
  obtain ⟨c'', hc, hpair⟩ := except_map_eq_ok.mp (except_mapError_eq_ok.mp h)
  obtain ⟨rfl, rfl⟩ := Prod.mk.inj hpair
  have hrows := CacheRows.commit_eq_ok.mp hc
  exact ⟨decide_eq_true_iff.trans List.mem_map.symm, by rw [← hrows], by rw [← hrows]⟩

theorem rows_tagAll {messages : List (Nat × String)} (h : tagAll id now messages c = .ok c') :
    c'.rows.tags = c.rows.tags ∧
      ∀ tagId k, c'.Tagged tagId k ↔ c.Tagged tagId k ∨ (tagId = id ∧ k ∈ messages) := by
  induction messages generalizing c with
  | nil =>
    obtain rfl := Except.ok.inj h
    exact ⟨rfl, fun tagId k => (or_iff_left fun hk => List.not_mem_nil hk.2).symm⟩
  | cons m messages ih =>
    rw [tagAll, List.foldlM_cons] at h
    obtain ⟨c₁, hadd, hrest⟩ := except_bind_eq_ok.mp h
    obtain ⟨htags, htagged⟩ := rows_addTagToMessage hadd
    obtain ⟨htags', htagged'⟩ := ih hrest
    refine ⟨htags'.trans htags, fun tagId k => ?_⟩
    rw [htagged', htagged, List.mem_cons, or_assoc, and_or_left]

/-! ### What each change comes to -/

theorem changes_createTag {e : TagEvent} (h : c.createTag id name color = .ok c') :
    Changes c c' (e,.reply (.ok (.tag id name color))) := by
  obtain ⟨hname, hrows⟩ := rows_createTag h
  -- the id is new, or the statement would have failed
  have hid : ∀ t ∈ c.rows.tags, t.id ≠ id := by
    intro t ht heq
    have hnodup := c'.unique.tags
    rw [hrows] at hnodup
    dsimp only at hnodup
    rw [List.map_append] at hnodup
    exact List.disjoint_of_nodup_append hnodup (List.mem_map_of_mem ht) (List.mem_singleton.mpr heq)
  apply changes_named
  · intro t
    rw [HasTag, hrows, HasTag]
    dsimp only
    rw [List.mem_append, List.mem_singleton, or_comm]
    apply or_congr
    · constructor
      · intro h
        obtain ⟨hid', hname', hcolor'⟩ := TagRow.mk.inj h
        rw [← hid', ← hname', ← hcolor']
      · rintro rfl
        rfl
    · exact (and_iff_left_of_imp fun h => hid _ h).symm
  · rw [hrows]
  · intro h
    rw [NamesUnique, hrows]
    have hnew : ∀ s ∈ c.rows.tags, s.name ≠ name :=
      fun s hs heq => hname (heq ▸ List.mem_map_of_mem hs)
    intro s hs t ht heq
    obtain hs | hs := List.mem_append.mp hs
    · obtain ht | ht := List.mem_append.mp ht
      · exact h s hs t ht heq
      · rw [List.mem_singleton.mp ht] at heq
        exact absurd heq (hnew s hs)
    · obtain ht | ht := List.mem_append.mp ht
      · rw [List.mem_singleton.mp hs] at heq
        exact absurd heq.symm (hnew t ht)
      · rw [List.mem_singleton.mp hs, List.mem_singleton.mp ht]

theorem changes_updateTag {e : TagEvent} (h : c.updateTag id name color = .ok (true,c')) :
    Changes c c' (e,.reply (.ok (.tag id name color))) := by
  obtain ⟨hfalse, -⟩ | ⟨-, hid, hname, hrows⟩ := rows_updateTag h
  · exact absurd hfalse.symm Bool.false_ne_true
  obtain ⟨old, hold, holdId⟩ := List.mem_map.mp hid
  apply changes_named
  · intro t
    rw [HasTag, hrows, HasTag]
    dsimp only
    rw [List.mem_map]
    constructor
    · rintro ⟨s, hs, heq⟩
      split at heq
      · left
        obtain ⟨hid', hname', hcolor'⟩ := TagRow.mk.inj heq
        rw [hid', hname', hcolor']
      · next hne =>
        rw [heq] at hs hne
        exact Or.inr ⟨hs, hne⟩
    · rintro (rfl | ⟨ht, hne⟩)
      · exact ⟨old, hold, if_pos holdId⟩
      · exact ⟨_, ht, if_neg hne⟩
  · rw [hrows]
  · intro h
    rw [NamesUnique, hrows]
    have hother : ∀ s ∈ c.rows.tags, s.id ≠ id → s.name ≠ name := by
      intro s hs hne heq
      apply hname
      rw [← heq]
      exact List.mem_map_of_mem (List.mem_filter.mpr ⟨hs, decide_eq_true hne⟩)
    intro s hs t ht heq
    obtain ⟨s, hsmem, rfl⟩ := List.mem_map.mp hs
    obtain ⟨t, htmem, rfl⟩ := List.mem_map.mp ht
    by_cases hs' : s.id = id
    · by_cases ht' : t.id = id
      · rw [if_pos hs', if_pos ht']
      · rw [if_pos hs', if_neg ht'] at heq
        exact absurd heq.symm (hother t htmem ht')
    · by_cases ht' : t.id = id
      · rw [if_neg hs', if_pos ht'] at heq
        exact absurd heq (hother s hsmem hs')
      · rw [if_neg hs', if_neg ht'] at heq ⊢
        exact h s hsmem t htmem heq

/-- Where there is no such tag nothing is deleted. -/
theorem changes_deleteTag_none {err : AppError} (h : c.deleteTag id = .ok (false,c')) {e : TagEvent} :
    Changes c c' (e,.reply (.error err)) := by
  obtain ⟨hb, hrows⟩ := rows_deleteTag h
  have hid : ∀ t ∈ c.rows.tags, t.id ≠ id := by
    intro t ht heq
    exact Bool.false_ne_true (hb.mpr (heq ▸ List.mem_map_of_mem ht))
  apply changes_error
  · rw [hrows]
    exact List.filter_eq_self.mpr fun t ht => decide_eq_true (hid t ht)
  · rw [hrows]
    refine List.filter_eq_self.mpr fun mt hmt => decide_eq_true ?_
    -- a row of the tag would refer to the tag
    obtain ⟨t, ht, htid⟩ := c.fk.tag mt hmt
    exact htid ▸ hid t ht

theorem changes_deleteTag {fault : Option String} (h : c.deleteTag id = .ok (true,c')) :
    Changes c c' (.delete id fault,.reply (.ok .deleted)) := by
  obtain ⟨-, hrows⟩ := rows_deleteTag h
  have hnames : ∀ t, ¬Names t (.delete id fault,.reply (.ok .deleted)) := by
    intro t h
    cases Except.ok.inj (TagAnswer.reply.inj h)
  have hrenames : ∀ t : MessageTag, Renames t (.delete id fault,.reply (.ok .deleted)) ↔ t.id = id := by
    intro t
    constructor
    · rintro ⟨⟩
      rfl
    · rintro rfl
      exact .delete
  have huntags : ∀ tagId k, Untags tagId k (.delete id fault,.reply (.ok .deleted)) ↔ tagId = id := by
    intro tagId k
    constructor
    · rintro ⟨⟩
      rfl
    · rintro rfl
      exact .delete
  constructor
  · intro t
    rw [HasTag, hrows, or_iff_right (hnames t), hrenames]
    dsimp only
    rw [List.mem_filter]
    exact and_congr_right fun _ => decide_eq_true_iff
  · intro tagId k
    have hputs : ¬Tags tagId k (.delete id fault,.reply (.ok .deleted)) := by rintro ⟨⟩
    rw [or_iff_right hputs, huntags, Tagged, hrows]
    dsimp only
    rw [List.mem_map]
    constructor
    · rintro ⟨mt, hmt, hkey⟩
      obtain ⟨hmt, hne⟩ := List.mem_filter.mp hmt
      refine ⟨List.mem_map.mpr ⟨mt, hmt, hkey⟩, ?_⟩
      rintro rfl
      exact of_decide_eq_true hne (Prod.mk.inj hkey).1
    · rintro ⟨h, hne⟩
      obtain ⟨mt, hmt, hkey⟩ := List.mem_map.mp h
      refine ⟨mt, List.mem_filter.mpr ⟨hmt, decide_eq_true ?_⟩, hkey⟩
      rwa [(Prod.mk.inj hkey).1]
  · intro h s hs t ht heq
    rw [hrows] at hs ht
    exact h s (List.mem_filter.mp hs).1 t (List.mem_filter.mp ht).1 heq

theorem changes_addTagToMessage {cipher : FolderCipher} {folderId : FolderId} {fault : Option String}
    (hfolder : cipher.decrypt folderId = .ok folder) (h : c.addTagToMessage id uid folder now = .ok c') :
    Changes c c' (.tag cipher id ⟨uid,folderId⟩ now fault,.reply (.ok .ok)) := by
  obtain ⟨htags, htagged⟩ := rows_addTagToMessage h
  apply changes_tagged htags
  · intro t h
    cases Except.ok.inj (TagAnswer.reply.inj h)
  · rintro t ⟨⟩
  · intro tagId k
    have hputs : Tags tagId k (.tag cipher id ⟨uid,folderId⟩ now fault,.reply (.ok .ok)) ↔
        tagId = id ∧ k = (uid,folder) := by
      constructor
      · intro h
        cases h with
        | tag hk => exact ⟨rfl, Prod.ext rfl (Except.ok.inj (hk.symm.trans hfolder))⟩
      · rintro ⟨rfl, rfl⟩
        exact .tag hfolder
    have htakes : ¬Untags tagId k (.tag cipher id ⟨uid,folderId⟩ now fault,.reply (.ok .ok)) := by rintro ⟨⟩
    rw [htagged, hputs, and_iff_left htakes, or_comm]

theorem changes_tagAll {cipher : FolderCipher} {messages : List TagMessageRef} {decrypted : List (Nat × String)}
    {fault : Option String} {n : Nat} (hfolders : decryptAll cipher messages = .ok decrypted)
    (h : tagAll id now decrypted c = .ok c') :
    Changes c c' (.bulk cipher id messages now fault,.reply (.ok (.tagged n))) := by
  obtain ⟨htags, htagged⟩ := rows_tagAll h
  have hmem : ∀ k, k ∈ decrypted ↔ ∃ m ∈ messages, m.uid = k.1 ∧ cipher.decrypt m.folder = .ok k.2 := by
    intro k
    rw [mem_of_mapM_ok hfolders]
    refine exists_congr fun m => and_congr_right fun _ => ?_
    rw [except_map_eq_ok]
    constructor
    · rintro ⟨folder, hfolder, rfl⟩
      exact ⟨rfl, hfolder⟩
    · rintro ⟨huid, hfolder⟩
      exact ⟨k.2, hfolder, Prod.ext huid rfl⟩
  apply changes_tagged htags
  · intro t h
    cases Except.ok.inj (TagAnswer.reply.inj h)
  · rintro t ⟨⟩
  · intro tagId k
    have hputs : Tags tagId k (.bulk cipher id messages now fault,.reply (.ok (.tagged n))) ↔
        tagId = id ∧ k ∈ decrypted := by
      rw [hmem]
      constructor
      · intro h
        cases h with
        | bulk hm huid hk => exact ⟨rfl, _, hm, huid, hk⟩
      · rintro ⟨rfl, m, hm, huid, hk⟩
        exact .bulk hm huid hk
    have htakes : ¬Untags tagId k (.bulk cipher id messages now fault,.reply (.ok (.tagged n))) := by rintro ⟨⟩
    rw [htagged, hputs, and_iff_left htakes, or_comm]

/-- Tags are taken off messages. -/
theorem changes_untagged {x : TagExchange} {p : MessageTagRow → Bool} (htags : c'.rows.tags = c.rows.tags)
    (hmessageTags : c'.rows.messageTags = c.rows.messageTags.filter p) (hnames : ∀ t, ¬Names t x)
    (hrenames : ∀ t, ¬Renames t x) (hputs : ∀ tagId k, ¬Tags tagId k x)
    (htakes : ∀ mt ∈ c.rows.messageTags, p mt = true ↔ ¬Untags mt.tagId mt.message x) : Changes c c' x := by
  apply changes_tagged htags hnames hrenames
  intro tagId k
  rw [or_iff_right (hputs tagId k), Tagged, Tagged, hmessageTags, List.mem_map, List.mem_map]
  constructor
  · rintro ⟨mt, hmt, hkey⟩
    obtain ⟨hmt, hp⟩ := List.mem_filter.mp hmt
    obtain ⟨rfl, rfl⟩ := Prod.mk.inj hkey
    exact ⟨⟨mt, hmt, rfl⟩, (htakes mt hmt).mp hp⟩
  · rintro ⟨⟨mt, hmt, hkey⟩, hstays⟩
    obtain ⟨rfl, rfl⟩ := Prod.mk.inj hkey
    exact ⟨mt, List.mem_filter.mpr ⟨hmt, (htakes mt hmt).mpr hstays⟩, rfl⟩

theorem changes_removeTagFromMessage_none {err : AppError} {e : TagEvent}
    (h : c.removeTagFromMessage id uid folder = .ok (false,c')) : Changes c c' (e,.reply (.error err)) := by
  obtain ⟨hb, htags, hmessageTags⟩ := rows_removeTagFromMessage h
  apply changes_error htags
  rw [hmessageTags]
  refine List.filter_eq_self.mpr fun mt hmt => decide_eq_true fun heq => Bool.false_ne_true (hb.mpr ?_)
  rw [Tagged, ← heq]
  exact List.mem_map_of_mem hmt

theorem changes_removeTagFromMessage {cipher : FolderCipher} {folderId : FolderId} {fault : Option String}
    (hfolder : cipher.decrypt folderId = .ok folder) (h : c.removeTagFromMessage id uid folder = .ok (true,c')) :
    Changes c c' (.untag cipher id folderId uid fault,.reply (.ok .ok)) := by
  obtain ⟨-, htags, hmessageTags⟩ := rows_removeTagFromMessage h
  apply changes_untagged htags hmessageTags
  · intro t h
    cases Except.ok.inj (TagAnswer.reply.inj h)
  · rintro t ⟨⟩
  · rintro tagId k ⟨⟩
  · intro mt _
    rw [decide_eq_true_iff, not_iff_not]
    constructor
    · intro heq
      obtain ⟨htagId, hmessage⟩ := Prod.mk.inj heq
      obtain ⟨huid, hmfolder⟩ := Prod.mk.inj hmessage
      rw [htagId, ← huid]
      apply Untags.untag
      rw [hfolder]
      exact congrArg Except.ok hmfolder.symm
    · intro h
      cases h with
      | untag hk =>
        have hk' := Except.ok.inj (hk.symm.trans hfolder)
        exact Prod.ext rfl (Prod.ext rfl hk')

/-- A statement on messages or folders takes tags off messages, at most. -/
theorem changes_statement {e : TagEvent} {p : MessageTagRow → Bool} (htags : c'.rows.tags = c.rows.tags)
    (hmessageTags : c'.rows.messageTags = c.rows.messageTags.filter p)
    (htakes : ∀ mt ∈ c.rows.messageTags, p mt = true ↔ ¬Untags mt.tagId mt.message (e,.statement (.ok ()))) :
    Changes c c' (e,.statement (.ok ())) := by
  apply changes_untagged htags hmessageTags
  · intro t h
    cases h
  · rintro t ⟨⟩
  · rintro tagId k ⟨⟩
  · exact htakes

theorem changes_upsertMessage {params : UpsertMessageParams} (h : c.upsertMessage folder uid params = .ok c') :
    Changes c c' (.upsertMessage folder uid params,.statement (.ok ())) := by
  have hrows := CacheRows.commit_eq_ok.mp h
  apply changes_statement
  · rw [← hrows]
    rfl
  · rw [← hrows]
    rfl
  · intro mt _
    rw [decide_eq_true_iff, not_iff_not]
    constructor
    · intro hk
      obtain rfl : mt.messageUid = uid := congrArg Prod.fst hk
      obtain rfl : mt.messageFolder = folder := congrArg Prod.snd hk
      exact .upsertMessage
    · intro h
      cases h with
      | upsertMessage => rfl

theorem changes_deleteMessage (h : c.deleteMessage folder uid = .ok c') :
    Changes c c' (.deleteMessage folder uid,.statement (.ok ())) := by
  have hrows := CacheRows.commit_eq_ok.mp h
  apply changes_statement
  · rw [← hrows]
  · rw [← hrows]
  · intro mt _
    rw [Bool.not_eq_true', decide_eq_false_iff_not, not_iff_not]
    constructor
    · intro hk
      obtain rfl : mt.messageUid = uid := congrArg Prod.fst hk
      obtain rfl : mt.messageFolder = folder := congrArg Prod.snd hk
      exact .deleteMessage
    · intro h
      cases h with
      | deleteMessage => rfl

theorem changes_deleteFolderMessages (h : c.deleteFolderMessages folder = .ok c') :
    Changes c c' (.deleteFolderMessages folder,.statement (.ok ())) := by
  have hrows := CacheRows.commit_eq_ok.mp h
  apply changes_statement
  · rw [← hrows]
  · rw [← hrows]
  · intro mt _
    rw [Bool.not_eq_true', decide_eq_false_iff_not, not_iff_not]
    constructor
    · rintro rfl
      exact .deleteFolderMessages
    · intro h
      cases h with
      | deleteFolderMessages => rfl

/-- Folders are deleted with their messages. -/
theorem changes_deleteFoldersWhere {e : TagEvent} {q : String → Bool}
    (h : ∀ mt ∈ c.rows.messageTags,
      q mt.messageFolder = true ↔ Untags mt.tagId mt.message (e,.statement (.ok ()))) :
    Changes c (c.deleteFoldersWhere q) (e,.statement (.ok ())) := by
  apply @changes_statement c (c.deleteFoldersWhere q) e (fun mt => !q mt.messageFolder) rfl rfl
  intro mt hmt
  rw [Bool.not_eq_true', ← Bool.not_eq_true, h mt hmt]

theorem changes_deleteFolder :
    Changes c (c.deleteFoldersWhere (fun n => n = name)) (.deleteFolder name,.statement (.ok ())) := by
  apply changes_deleteFoldersWhere
  intro mt _
  rw [decide_eq_true_iff]
  constructor
  · rintro rfl
    exact .deleteFolder
  · intro h
    cases h with
    | deleteFolder => rfl

theorem changes_removeStaleFolders {currentNames : List String} :
    Changes c (c.removeStaleFolders currentNames).2 (.removeStaleFolders currentNames,.statement (.ok ())) := by
  have huntags : ∀ mt : MessageTagRow, mt.messageFolder ∉ currentNames ↔ Untags mt.tagId mt.message
      (.removeStaleFolders currentNames,.statement (.ok ())) := by
    intro mt
    constructor
    · intro h
      exact .removeStaleFolders h
    · intro h
      cases h with
      | removeStaleFolders h => exact h
  rw [removeStaleFolders]
  dsimp only
  split
  · next hempty =>
    apply changes_deleteFoldersWhere
    intro mt _
    rw [← huntags, List.isEmpty_iff.mp hempty]
    exact iff_of_true rfl List.not_mem_nil
  · apply changes_deleteFoldersWhere
    intro mt _
    rw [← huntags, decide_eq_true_iff]

/-- What does not delete messages leaves their tags. -/
theorem changes_moved {e : TagEvent} (htags : c'.rows.tags = c.rows.tags)
    (hmessageTags : c'.rows.messageTags = c.rows.messageTags)
    (htakes : ∀ tagId k, ¬Untags tagId k (e,.statement (.ok ()))) : Changes c c' (e,.statement (.ok ())) := by
  apply changes_same htags hmessageTags
  · intro t h
    cases h
  · rintro t ⟨⟩
  · rintro tagId k ⟨⟩
  · exact htakes

theorem rows_insertFolderIfNew {delimiter : Option String} {csv : String} :
    (c.insertFolderIfNew name delimiter csv).rows.tags = c.rows.tags ∧
      (c.insertFolderIfNew name delimiter csv).rows.messageTags = c.rows.messageTags := by
  rw [insertFolderIfNew]
  split
  · exact ⟨rfl, rfl⟩
  · exact ⟨rfl, rfl⟩

end Cache

/-! ### What each event does -/

section Serve

variable {c : Cache}

theorem withUserDb_cases {α : Type} (fault : Option String) (f : Cache → Except String (α × Cache)) (c : Cache) :
    (∃ e, withUserDb fault f c = (.error e,c)) ∨
      ∃ a c', f c = .ok (a,c') ∧ withUserDb fault f c = (.ok a,c') := by
  unfold withUserDb
  cases fault with
  | some e => exact Or.inl ⟨e, rfl⟩
  | none =>
    dsimp only
    cases f c with
    | error e => exact Or.inl ⟨e, rfl⟩
    | ok r => exact Or.inr ⟨r.1, r.2, rfl, rfl⟩

/-- One insertion, as `with_user_db` runs it. -/
theorem ok_of_map_unit {x : Except String Cache} {a : Unit} {c' : Cache}
    (h : x.map (Prod.mk ()) = .ok (a,c')) : x = .ok c' := by
  obtain ⟨c'', hx, hpair⟩ := except_map_eq_ok.mp h
  rw [hx, (Prod.mk.inj hpair).2]

open Cache

theorem changes_create (newV4 : String) (body : CreateTagBody) (fault : Option String) :
    Changes c (createTagHandler newV4 body fault c).2
      (.create newV4 body fault,.reply (createTagHandler newV4 body fault c).1) := by
  unfold createTagHandler
  dsimp only
  split
  · exact changes_refused
  obtain ⟨e, hdb⟩ | ⟨a, c', hc, hdb⟩ := withUserDb_cases fault
    (fun c => (c.createTag newV4 (strTrim body.name) (body.color.getD "#6b7280")).map (Prod.mk ())) c
  · rw [hdb]
    exact changes_refused
  · rw [hdb]
    exact changes_createTag (ok_of_map_unit hc)

theorem changes_update (id : String) (body : UpdateTagBody) (fault : Option String) :
    Changes c (updateTagHandler id body fault c).2
      (.update id body fault,.reply (updateTagHandler id body fault c).1) := by
  unfold updateTagHandler
  dsimp only
  split
  · exact changes_refused
  obtain ⟨e, hdb⟩ | ⟨b, c', hc, hdb⟩ := withUserDb_cases fault
    (fun c => c.updateTag id (strTrim body.name) body.color) c
  · rw [hdb]
    exact changes_refused
  rw [hdb]
  cases b with
  | true => exact changes_updateTag hc
  | false =>
    obtain ⟨-, rfl, -⟩ | ⟨htrue, -⟩ := rows_updateTag hc
    · exact changes_refused
    · exact absurd htrue Bool.false_ne_true

theorem changes_delete (id : String) (fault : Option String) :
    Changes c (deleteTagHandler id fault c).2 (.delete id fault,.reply (deleteTagHandler id fault c).1) := by
  unfold deleteTagHandler
  obtain ⟨e, hdb⟩ | ⟨b, c', hc, hdb⟩ := withUserDb_cases fault (fun c => c.deleteTag id) c
  · rw [hdb]
    exact changes_refused
  rw [hdb]
  cases b with
  | true => exact changes_deleteTag hc
  | false => exact changes_deleteTag_none hc

theorem changes_tag (cipher : FolderCipher) (id : String) (body : TagMessageRef) (now : String)
    (fault : Option String) :
    Changes c (tagMessageHandler cipher id body now fault c).2
      (.tag cipher id body now fault,.reply (tagMessageHandler cipher id body now fault c).1) := by
  unfold tagMessageHandler
  cases hfolder : cipher.decrypt body.folder with
  | error e => exact changes_refused
  | ok folder =>
    dsimp only
    obtain ⟨e, hdb⟩ | ⟨a, c', hc, hdb⟩ := withUserDb_cases fault
      (fun c => (c.addTagToMessage id body.uid folder now).map (Prod.mk ())) c
    · rw [hdb]
      exact changes_refused
    · rw [hdb]
      exact changes_addTagToMessage hfolder (ok_of_map_unit hc)

theorem changes_untag (cipher : FolderCipher) (id : String) (folderId : FolderId) (uid : Nat)
    (fault : Option String) :
    Changes c (untagMessageHandler cipher id folderId uid fault c).2
      (.untag cipher id folderId uid fault,.reply (untagMessageHandler cipher id folderId uid fault c).1) := by
  unfold untagMessageHandler
  cases hfolder : cipher.decrypt folderId with
  | error e => exact changes_refused
  | ok folder =>
    dsimp only
    obtain ⟨e, hdb⟩ | ⟨b, c', hc, hdb⟩ := withUserDb_cases fault
      (fun c => c.removeTagFromMessage id uid folder) c
    · rw [hdb]
      exact changes_refused
    rw [hdb]
    cases b with
    | true => exact changes_removeTagFromMessage hfolder hc
    | false => exact changes_removeTagFromMessage_none hc

theorem changes_bulk (cipher : FolderCipher) (id : String) (messages : List TagMessageRef) (now : String)
    (fault : Option String) :
    Changes c (bulkTagHandler cipher id messages now fault c).2
      (.bulk cipher id messages now fault,.reply (bulkTagHandler cipher id messages now fault c).1) := by
  unfold bulkTagHandler
  cases hfolders : decryptAll cipher messages with
  | error e => exact changes_refused
  | ok decrypted =>
    dsimp only
    obtain ⟨e, hdb⟩ | ⟨a, c', hc, hdb⟩ := withUserDb_cases fault
      (fun c => (tagAll id now decrypted c).map (Prod.mk ())) c
    · rw [hdb]
      exact changes_refused
    · rw [hdb]
      exact changes_tagAll hfolders (ok_of_map_unit hc)

/-- A statement that fails changes nothing. -/
theorem changes_answer {e : TagEvent} {r : Except String Cache}
    (h : ∀ c', r = .ok c' → Changes c c' (e,.statement (.ok ()))) :
    Changes c (statementAnswer c r).2 (e,(statementAnswer c r).1) := by
  cases r with
  | error err => exact changes_failed
  | ok c' => exact h c' rfl

theorem changes_reply {e : TagEvent} {r : Except AppError Reply × Cache} (h : Changes c r.2 (e,.reply r.1)) :
    Changes c (replyAnswer r).2 (e,(replyAnswer r).1) := h

/-- One event does what it and its answer say. -/
theorem changes_serve (c : Cache) (e : TagEvent) : Changes c (e.serve c).2 (e,(e.serve c).1) := by
  cases e with
  | create newV4 body fault => exact changes_reply (changes_create newV4 body fault)
  | update id body fault => exact changes_reply (changes_update id body fault)
  | delete id fault => exact changes_reply (changes_delete id fault)
  | tag cipher id body now fault => exact changes_reply (changes_tag cipher id body now fault)
  | untag cipher id folderId uid fault => exact changes_reply (changes_untag cipher id folderId uid fault)
  | bulk cipher id messages now fault => exact changes_reply (changes_bulk cipher id messages now fault)
  | insertFolder name delimiter csv =>
    apply changes_moved rows_insertFolderIfNew.1 rows_insertFolderIfNew.2
    rintro tagId k ⟨⟩
  | upsertMessage folder uid params => exact changes_answer fun c' h => changes_upsertMessage h
  | deleteMessage folder uid => exact changes_answer fun c' h => changes_deleteMessage h
  | deleteFolderMessages folder => exact changes_answer fun c' h => changes_deleteFolderMessages h
  | removeStaleFolders currentNames =>
    exact changes_answer fun c' h => Except.ok.inj h ▸ changes_removeStaleFolders
  | deleteFolder name => exact changes_answer fun c' h => Except.ok.inj h ▸ changes_deleteFolder
  | renameMessages new old =>
    apply changes_answer
    intro c' h
    have hrows := CacheRows.commit_eq_ok.mp h
    apply changes_moved
    · rw [← hrows]
    · rw [← hrows]
    · rintro tagId k ⟨⟩
  | renameFolder new old =>
    apply changes_answer
    intro c' h
    have hrows := CacheRows.commit_eq_ok.mp h
    apply changes_moved
    · rw [← hrows]
    · rw [← hrows]
    · rintro tagId k ⟨⟩

end Serve

/-! ### What is listed -/

namespace Cache

variable {c : Cache} {t : MessageTag} {k : Nat × String} {uid : Nat} {folder : String}

theorem tagOf_eq_some {mt : MessageTagRow} : c.tagOf mt = some t ↔ c.HasTag t ∧ t.id = mt.tagId := by
  let table : Table TagRow.id := ⟨c.rows.tags, c.unique.tags⟩
  rw [tagOf, Option.map_eq_some_iff]
  constructor
  · rintro ⟨row, hfind, rfl⟩
    obtain ⟨hrow, hid⟩ := (Table.find?_eq_some (t := table)).mp hfind
    exact ⟨hrow, hid⟩
  · rintro ⟨hrow, hid⟩
    exact ⟨_, (Table.find?_eq_some (t := table)).mpr ⟨hrow, hid⟩, rfl⟩

theorem mem_getMessageTags : t ∈ c.getMessageTags uid folder ↔ c.HasTag t ∧ c.Tagged t.id (uid,folder) := by
  rw [getMessageTags, List.mem_insertionSort, List.mem_filterMap, Tagged, List.mem_map]
  constructor
  · rintro ⟨mt, hmt, htag⟩
    obtain ⟨hmt, hmessage⟩ := List.mem_filter.mp hmt
    obtain ⟨ht, hid⟩ := tagOf_eq_some.mp htag
    exact ⟨ht, mt, hmt, Prod.ext hid.symm (of_decide_eq_true hmessage)⟩
  · rintro ⟨ht, mt, hmt, hkey⟩
    obtain ⟨hid, hmessage⟩ := Prod.mk.inj hkey
    exact ⟨mt, List.mem_filter.mpr ⟨hmt, decide_eq_true hmessage⟩, tagOf_eq_some.mpr ⟨ht, hid.symm⟩⟩

theorem mem_tagsOfMessages {messages : List (Nat × String)} {e : (Nat × String) × MessageTag} :
    e ∈ c.tagsOfMessages messages ↔ e.1 ∈ messages ∧ c.HasTag e.2 ∧ c.Tagged e.2.id e.1 := by
  rw [tagsOfMessages, List.mem_insertionSort, List.mem_filterMap, Tagged, List.mem_map]
  constructor
  · rintro ⟨mt, hmt, htag⟩
    obtain ⟨hmt, hmessage⟩ := List.mem_filter.mp hmt
    obtain ⟨t, hof, rfl⟩ := Option.map_eq_some_iff.mp htag
    obtain ⟨ht, hid⟩ := tagOf_eq_some.mp hof
    exact ⟨of_decide_eq_true hmessage, ht, mt, hmt, Prod.ext hid.symm rfl⟩
  · rintro ⟨hmessage, ht, mt, hmt, hkey⟩
    obtain ⟨hid, hk⟩ := Prod.mk.inj hkey
    refine ⟨mt, List.mem_filter.mpr ⟨hmt, decide_eq_true (hk ▸ hmessage)⟩, ?_⟩
    rw [tagOf_eq_some.mpr ⟨ht, hid.symm⟩, hk]
    rfl

/-- Sorted by name, and of different ids: no two have one name. -/
theorem strict_of_sorted {α : Type} (tag : α → MessageTag) (hunique : c.NamesUnique) {ts : List α}
    (hmem : ∀ t ∈ ts, c.HasTag (tag t)) (hsorted : ts.Pairwise (fun s t => (tag s).name ≤ (tag t).name))
    (hids : ts.Pairwise (fun s t => (tag s).id ≠ (tag t).id)) :
    ts.Pairwise (fun s t => (tag s).name < (tag t).name) := by
  refine (hsorted.and hids).imp_of_mem ?_
  rintro s t hs ht ⟨hle, hne⟩
  refine lt_of_le_of_ne hle fun heq => hne ?_
  exact congrArg TagRow.id (hunique _ (hmem s hs) _ (hmem t ht) heq)

/-- A message has a tag at most once. -/
theorem pairwise_key : c.rows.messageTags.Pairwise (fun a b => a.key ≠ b.key) :=
  List.pairwise_map.mp c.unique.messageTags

theorem strict_getMessageTags (hunique : c.NamesUnique) :
    (c.getMessageTags uid folder).Pairwise (fun s t => s.name < t.name) := by
  apply strict_of_sorted id hunique (fun t ht => (mem_getMessageTags.mp ht).1) (List.pairwise_insertionSort _ _)
  dsimp only [id_eq]
  rw [getMessageTags, List.Perm.pairwise_iff Ne.symm (List.perm_insertionSort _ _)]
  have hrows : (c.rows.messageTags.filter (fun mt => mt.message = (uid,folder))).Pairwise
      (fun a b => a.tagId ≠ b.tagId) := by
    refine (pairwise_key.filter _).imp_of_mem ?_
    intro a b ha hb hne heq
    have hm := of_decide_eq_true (List.mem_filter.mp ha).2
    have hm' := of_decide_eq_true (List.mem_filter.mp hb).2
    exact hne (Prod.ext heq (hm.trans hm'.symm))
  refine hrows.filterMap _ ?_
  intro a b hne s hs t ht heq
  rw [(tagOf_eq_some.mp hs).2, (tagOf_eq_some.mp ht).2] at heq
  exact hne heq

/-- Of the rows of many messages those of one. -/
theorem filter_tagsOfMessages (hunique : c.NamesUnique) {messages : List (Nat × String)} (hk : k ∈ messages) :
    ((c.tagsOfMessages messages).filter (fun e => e.1 = k)).map Prod.snd = c.getMessageTags k.1 k.2 := by
  have hmem : ∀ t, t ∈ ((c.tagsOfMessages messages).filter (fun e => e.1 = k)).map Prod.snd ↔
      t ∈ c.getMessageTags k.1 k.2 := by
    intro t
    rw [mem_getMessageTags, List.mem_map]
    constructor
    · rintro ⟨e, he, rfl⟩
      obtain ⟨hrow, hek⟩ := List.mem_filter.mp he
      obtain rfl := of_decide_eq_true hek
      exact (mem_tagsOfMessages.mp hrow).2
    · intro h
      exact ⟨(k,t), List.mem_filter.mpr ⟨mem_tagsOfMessages.mpr ⟨hk, h⟩, decide_eq_true rfl⟩, rfl⟩
  have hsorted : (c.tagsOfMessages messages).Pairwise (fun s t => s.2.name ≤ t.2.name) :=
    List.pairwise_insertionSort _ _
  have hids : (c.tagsOfMessages messages).Pairwise (fun s t => (s.2.id,s.1) ≠ (t.2.id,t.1)) := by
    rw [tagsOfMessages, List.Perm.pairwise_iff Ne.symm (List.perm_insertionSort _ _)]
    refine (pairwise_key.filter _).filterMap _ ?_
    intro a b hne s hs t ht heq
    obtain ⟨s', hs', rfl⟩ := Option.map_eq_some_iff.mp hs
    obtain ⟨t', ht', rfl⟩ := Option.map_eq_some_iff.mp ht
    rw [(tagOf_eq_some.mp hs').2, (tagOf_eq_some.mp ht').2] at heq
    exact hne heq
  have hstrict : (((c.tagsOfMessages messages).filter (fun e => e.1 = k)).map Prod.snd).Pairwise
      (fun s t => s.name < t.name) := by
    refine List.pairwise_map.mpr (strict_of_sorted Prod.snd hunique ?_ (hsorted.filter _) ?_)
    · exact fun e he => (mem_tagsOfMessages.mp (List.mem_filter.mp he).1).2.1
    · refine (hids.filter _).imp_of_mem ?_
      intro s t hs ht hne heq
      have hsk := of_decide_eq_true (List.mem_filter.mp hs).2
      have htk := of_decide_eq_true (List.mem_filter.mp ht).2
      exact hne (Prod.ext heq (hsk.trans htk.symm))
  exact hstrict.eq_of_mem_iff (strict_getMessageTags hunique) hmem

theorem mem_listTags {t : Tag} : t ∈ c.listTags ↔ c.HasTag ⟨t.id,t.name,t.color⟩ ∧
    t.messageCount = (c.rows.messageTags.filter (fun mt => mt.tagId = t.id)).length := by
  rw [listTags, List.mem_insertionSort, List.mem_map]
  constructor
  · rintro ⟨row, hrow, rfl⟩
    exact ⟨hrow, rfl⟩
  · rintro ⟨hrow, hcount⟩
    refine ⟨_, hrow, ?_⟩
    dsimp only
    rw [← hcount]

theorem strict_listTags (hunique : c.NamesUnique) : c.listTags.Pairwise (fun s t => s.name < t.name) := by
  have hsorted : c.listTags.Pairwise (fun s t => s.name ≤ t.name) := List.pairwise_insertionSort _ _
  have hids : c.listTags.Pairwise (fun s t => s.id ≠ t.id) := by
    rw [listTags, List.Perm.pairwise_iff Ne.symm (List.perm_insertionSort _ _)]
    exact List.pairwise_map.mpr (List.pairwise_map.mp c.unique.tags)
  exact strict_of_sorted (fun t => ⟨t.id,t.name,t.color⟩) hunique (fun t ht => (mem_listTags.mp ht).1) hsorted hids

/-- The messages of a tag, as often as they are counted. -/
theorem exists_tagged (c : Cache) (tagId : String) : ∃ S : Finset (Nat × String),
    (∀ k, k ∈ S ↔ c.Tagged tagId k) ∧
      (c.rows.messageTags.filter (fun mt => mt.tagId = tagId)).length = S.card := by
  let messages := (c.rows.messageTags.filter (fun mt => mt.tagId = tagId)).map MessageTagRow.message
  have hnodup : messages.Nodup := by
    refine List.pairwise_map.mpr ((pairwise_key.filter _).imp_of_mem ?_)
    intro a b ha hb hne heq
    have hta := of_decide_eq_true (List.mem_filter.mp ha).2
    have htb := of_decide_eq_true (List.mem_filter.mp hb).2
    exact hne (Prod.ext (hta.trans htb.symm) heq)
  refine ⟨messages.toFinset, fun k => ?_, ?_⟩
  · rw [List.mem_toFinset, List.mem_map, Tagged, List.mem_map]
    constructor
    · rintro ⟨mt, hmt, rfl⟩
      obtain ⟨hmt, htag⟩ := List.mem_filter.mp hmt
      exact ⟨mt, hmt, Prod.ext (of_decide_eq_true htag) rfl⟩
    · rintro ⟨mt, hmt, hkey⟩
      obtain ⟨htag, hmessage⟩ := Prod.mk.inj hkey
      exact ⟨mt, List.mem_filter.mpr ⟨hmt, decide_eq_true htag⟩, hmessage⟩
  · rw [List.toFinset_card_of_nodup hnodup, List.length_map]

end Cache

/-- Entries are pushed to the list of their key, in order. -/
theorem get_foldl_push {κ ν : Type} [DecidableEq κ] (es : List (κ × ν)) (m : DashMap κ (List ν)) (k : κ) :
    ((es.foldl (fun m e => m.insert e.1 ((m.get e.1).getD [] ++ [e.2])) m).get k).getD [] =
      (m.get k).getD [] ++ (es.filter (fun e => e.1 = k)).map Prod.snd := by
  induction es generalizing m with
  | nil => rw [List.foldl_nil, List.filter_nil, List.map_nil, List.append_nil]
  | cons e es ih =>
    rw [List.foldl_cons, ih, DashMap.get_insert, List.filter_cons]
    by_cases he : e.1 = k
    · rw [if_pos he.symm, if_pos (decide_eq_true he), List.map_cons, Option.getD_some, List.append_assoc, he,
        List.singleton_append]
    · rw [if_neg (Ne.symm he), if_neg (by rwa [decide_eq_true_iff])]

/-- What is fetched for many messages is what is fetched for each. -/
theorem Cache.getTagsForMessages_get {c : Cache} (hunique : c.NamesUnique) {maxConditions : Nat}
    {messages : List (Nat × String)} (hfew : messages.length ≤ maxConditions) :
    ∃ m, c.getTagsForMessages maxConditions messages = .ok m ∧
      ∀ k ∈ messages, (m.get k).getD [] = c.getMessageTags k.1 k.2 := by
  rw [getTagsForMessages]
  split
  · next hnil =>
    refine ⟨_, rfl, fun k hk => ?_⟩
    rw [hnil] at hk
    exact absurd hk List.not_mem_nil
  · rw [if_neg (Nat.not_lt.mpr hfew)]
    refine ⟨_, rfl, fun k hk => ?_⟩
    rw [get_foldl_push, DashMap.get_new, Option.getD_none, List.nil_append, filter_tagsOfMessages hunique hk]

/-! ### Whole runs -/

/-- The tables of a new user. -/
def Cache.empty : Cache where
  rows := ⟨[],[],[],[],[]⟩
  unique := ⟨List.nodup_nil,List.nodup_nil,List.nodup_nil,List.nodup_nil⟩
  fk := ⟨fun _ h => absurd h List.not_mem_nil,fun _ h => absurd h List.not_mem_nil,
    fun _ h => absurd h List.not_mem_nil⟩

namespace TagExchange

variable {c c' : Cache} {x : TagExchange} {es : List TagExchange}

theorem changes (hx : Possible c x) (h : step c x = some c') : c.Changes c' x := by
  have hserve := changes_serve c x.1
  rw [show (x.1.serve c).1 = x.2 from hx] at hserve
  rw [← Option.some.inj h]
  exact hserve

theorem namesUnique_run (h : Run step Possible .empty es c) : c.NamesUnique := by
  apply h.invariant
  · intro s hs
    exact absurd hs List.not_mem_nil
  · intro c x c' hc hx hstep
    exact (changes hx hstep).unique hc

theorem hasTag_run (h : Run step Possible .empty es c) (t : MessageTag) :
    c.HasTag t ↔ Since (Names t) (Renames t) es :=
  Run.since (I := fun _ => True) (P := fun c => c.HasTag t) h trivial List.not_mem_nil
    (fun _ _ _ _ _ _ => trivial) (fun _ _ _ _ hx hstep => (changes hx hstep).named t)

theorem tagged_run (h : Run step Possible .empty es c) (tagId : String) (k : Nat × String) :
    c.Tagged tagId k ↔ Since (Tags tagId k) (Untags tagId k) es :=
  Run.since (I := fun _ => True) (P := fun c => c.Tagged tagId k) h trivial List.not_mem_nil
    (fun _ _ _ _ _ _ => trivial) (fun _ _ _ _ hx hstep => (changes hx hstep).tagged tagId k)

end TagExchange

/-- In every run from empty tables: the tags are listed by name, no two of one name, each as it was last
named and not deleted since, with the number of messages that have it; the tags of a message are those put on
it and not taken off since, the same whether they are fetched for it or for many messages. -/
theorem tags_run {es : List TagExchange} {c : Cache}
    (h : Run TagExchange.step TagExchange.Possible .empty es c) :
    (c.listTags.Pairwise (fun s t => s.name < t.name) ∧
      ∀ t, t ∈ c.listTags ↔ Since (Names ⟨t.id,t.name,t.color⟩) (Renames ⟨t.id,t.name,t.color⟩) es ∧
        ∃ S : Finset (Nat × String), (∀ k, k ∈ S ↔ Since (Tags t.id k) (Untags t.id k) es) ∧
          t.messageCount = S.card) ∧
    (∀ k, (c.getMessageTags k.1 k.2).Pairwise (fun s t => s.name < t.name) ∧
      ∀ t, t ∈ c.getMessageTags k.1 k.2 ↔
        Since (Names t) (Renames t) es ∧ Since (Tags t.id k) (Untags t.id k) es) ∧
    ∀ maxConditions messages, messages.length ≤ maxConditions →
      ∃ m, c.getTagsForMessages maxConditions messages = .ok m ∧
        ∀ k ∈ messages, (m.get k).getD [] = c.getMessageTags k.1 k.2 := by
  have hunique := TagExchange.namesUnique_run h
  have hnamed := TagExchange.hasTag_run h
  have htagged := TagExchange.tagged_run h
  refine ⟨⟨Cache.strict_listTags hunique, fun t => ?_⟩,
    fun k => ⟨Cache.strict_getMessageTags hunique, fun t => ?_⟩,
    fun maxConditions messages hfew => Cache.getTagsForMessages_get hunique hfew⟩
  · obtain ⟨S, hS, hcard⟩ := c.exists_tagged t.id
    rw [Cache.mem_listTags, hnamed, hcard]
    refine and_congr_right fun _ => ?_
    constructor
    · intro hcount
      exact ⟨S, fun k => (hS k).trans (htagged t.id k), hcount⟩
    · rintro ⟨S', hS', hcount⟩
      have hsame : S' = S := by
        ext k
        rw [hS', hS, htagged]
      rw [hcount, hsame]
  · rw [Cache.mem_getMessageTags, hnamed, htagged]

/-- The cipher as far as the sample uses it: its key stream for a key and a nonce of zeros, and one tag. -/
def zeroGcm : Aes256Gcm where
  keystream key nonce i :=
    if key = List.replicate 32 0 ∧ nonce = List.replicate 12 0 then [206,167,64,61,77].getD i 0 else 0
  tag key nonce ciphertext :=
    if key = List.replicate 32 0 ∧ nonce = List.replicate 12 0 ∧ ciphertext = [135,233,2,114,21] then
      [93,10,39,236,32,108,241,155,187,95,17,215,253,218,223,74]
    else List.replicate 16 0
  length_tag key nonce ciphertext := by
    split
    · rfl
    · exact List.length_replicate

def zeroCipher : FolderCipher := ⟨zeroGcm,List.replicate 32 0⟩

/-- One message is given a tag; a second one is not cached, and to tag both is refused. -/
def inboxTags : List TagExchange :=
  [(.insertFolder "INBOX" none "",.statement (.ok ())),
    (.upsertMessage "INBOX" 7
      ⟨none,none,none,"Plans","ann@example.com","","[]","[]","",0,"",100,false,"",none,⟨0,0⟩⟩,.statement (.ok ())),
    (.create "t" ⟨" Work ",none⟩ none,.reply (.ok (.tag "t" "Work" "#6b7280"))),
    (.tag zeroCipher "t" ⟨7,"AAAAAAAAAAAAAAAAh-kCchVdCifsIGzxm7tfEdf92t9K"⟩ "2026-01-01 00:00:00" none,
      .reply (.ok .ok)),
    (.bulk zeroCipher "t" [⟨7,"AAAAAAAAAAAAAAAAh-kCchVdCifsIGzxm7tfEdf92t9K"⟩,
        ⟨8,"AAAAAAAAAAAAAAAAh-kCchVdCifsIGzxm7tfEdf92t9K"⟩] "2026-01-01 00:00:01" none,
      .reply (.error (.internalError "Failed to add tag to message: FOREIGN KEY constraint failed")))]

theorem tags_run_inbox : ∃ c, Run TagExchange.step TagExchange.Possible .empty inboxTags c ∧
    Since (Names ⟨"t","Work","#6b7280"⟩) (Renames ⟨"t","Work","#6b7280"⟩) inboxTags ∧
    Since (Tags "t" (7,"INBOX")) (Untags "t" (7,"INBOX")) inboxTags := by
  have hv : (execWhere TagExchange.step (fun c x => x.Possible c) .empty inboxTags).map
      (fun c => decide (⟨"t","Work","#6b7280"⟩ ∈ c.getMessageTags 7 "INBOX")) = some true := by
    decide +kernel
  obtain ⟨c, hrun, hl⟩ := run_of_map_execWhere hv
  exact ⟨c, hrun, (((tags_run hrun).2.1 (7,"INBOX")).2 _).mp (of_decide_eq_true hl)⟩

/-- The messages of a tag are listed each with its own tags, if they are not too many. -/
theorem listTagMessages_tags {es : List TagExchange} {c : Cache}
    (h : Run TagExchange.step TagExchange.Possible .empty es c) {maxConditions : Nat} {cipher : FolderCipher}
    {nonces : Nat → List UInt8} {id : String} {page perPage : UInt32} {r : TagMessagesResponse}
    (hr : listTagMessagesHandler maxConditions cipher nonces id page perPage c = .ok r)
    (hfew : perPage.toNat ≤ maxConditions) :
    ∀ m ∈ r.messages, m.tags = c.getMessageTags m.message.uid m.message.folder := by
  have hlength : ((c.getMessagesByTag id page perPage).map fun m => (m.uid,m.folder)).length ≤ maxConditions := by
    rw [List.length_map, Cache.getMessagesByTag, List.length_take]
    omega
  obtain ⟨tagsMap, htags, hget⟩ := Cache.getTagsForMessages_get (TagExchange.namesUnique_run h) hlength
  unfold listTagMessagesHandler at hr
  dsimp only at hr
  split at hr
  · cases hr
  rw [htags] at hr
  obtain rfl := Except.ok.inj hr
  intro m hm
  obtain ⟨i, hi, rfl⟩ := List.mem_mapIdx.mp hm
  exact hget _ (List.mem_map_of_mem (List.getElem_mem hi))

end Rav
