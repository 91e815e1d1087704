import Rav.Routes.FolderMgmt

/-!
# A folder renamed

The server renames a folder together with the folders beneath it; the cache follows with two
statements that touch the folder's own rows only. The first leaves messages that refer to a folder
not yet there, which the foreign key refuses, so the cache follows exactly if it holds nothing of
the folder but its own row.

## Main definitions

- `CacheRows.renamed` — what the cache should become
- `Agrees` — the cached folders are those of the server
- `FollowsRename` — the cache has followed, or has not changed and still agrees
- `OnlyItself` — nothing else refers to the folder, or to one beneath it
-/

namespace Rav

/-- Every reference to a folder under its new name. -/
def CacheRows.renamed (rows : CacheRows) (ρ : String → String) : CacheRows where
  folders := rows.folders.map (fun f => { f with name := ρ f.name, parent := f.parent.map ρ })
  messages := rows.messages.map
    (fun m => { m with header := { m.header with folder := ρ m.header.folder } })
  tags := rows.tags
  messageTags := rows.messageTags.map (fun t => { t with messageFolder := ρ t.messageFolder })
  events := rows.events.map (fun e => { e with messageFolder := e.messageFolder.map ρ })

/-- No row refers to a folder. -/
structure NoReference (rows : CacheRows) (name : String) : Prop where
  folders : ∀ f ∈ rows.folders, f.name ≠ name
  parents : ∀ f ∈ rows.folders, f.parent ≠ some name
  messages : ∀ m ∈ rows.messages, m.folder ≠ name
  messageTags : ∀ t ∈ rows.messageTags, t.messageFolder ≠ name
  events : ∀ e ∈ rows.events, e.messageFolder ≠ some name

/-- The cached folders are mailboxes of the server under the same names; `source` is the mailbox a
folder was cached from. -/
def Agrees (source : String → Nat) (rows : CacheRows) (server : Mailboxes) : Prop :=
  ∀ f ∈ rows.folders, (f.name,source f.name) ∈ server.list

instance (source : String → Nat) (rows : CacheRows) (server : Mailboxes) :
    Decidable (Agrees source rows server) := by
  unfold Agrees
  infer_instance

/-- Where the two statements succeed every reference has moved, and where one fails nothing has
changed and the cache still agrees with the server. -/
structure FollowsRename (d : Char) (old new : String) (source : String → Nat) (server : Mailboxes)
    (c : Cache) (r : Except String Unit × Cache) : Prop where
  moved : r.1 = .ok () → r.2.rows = c.rows.renamed (movedName d old new) ∧
    NoReference r.2.rows old
  failed : ∀ e, r.1 = .error e → r.2.rows = c.rows ∧ Agrees source r.2.rows server

/-- Nothing refers to the folder, or to one beneath it, but the folder's own row. -/
structure OnlyItself (d : Char) (old : String) (rows : CacheRows) : Prop where
  folders : ∀ f ∈ rows.folders, f.name ≠ old → ¬Within d old f.name
  parents : ∀ f ∈ rows.folders, ∀ p ∈ f.parent, ¬Within d old p
  messages : ∀ m ∈ rows.messages, ¬Within d old m.folder
  events : ∀ e ∈ rows.events, ∀ n ∈ e.messageFolder, ¬Within d old n

/-! ### What the statements do -/

section Statements

variable {c c' : Cache} {old new : String} {fails : Nat → Option String}

/-- The rows the second statement leaves. -/
def ownRowRenamed (rows : CacheRows) (old new : String) : CacheRows :=
  { rows with
    folders := rows.folders.map (fun f => if f.name = old then { f with name := new } else f) }

theorem updateMessagesFolder_of_empty (h : ∀ m ∈ c.rows.messages, m.folder ≠ old) :
    c.updateMessagesFolder new old = .ok c := by
  refine CacheRows.commit_eq_ok.mpr ?_
  have hsame : c.rows.messages.map (fun m =>
      if m.folder = old then { m with header := { m.header with folder := new } } else m) =
      c.rows.messages := by
    conv_rhs => rw [← List.map_id c.rows.messages]
    exact List.map_congr_left (fun m hm => if_neg (h m hm))
  rw [hsame]

/-- Messages that move to a folder without a row are refused. -/
theorem updateMessagesFolder_error (hnew : ∀ f ∈ c.rows.folders, f.name ≠ new)
    (h : ∃ m ∈ c.rows.messages, m.folder = old) :
    ∃ e, c.updateMessagesFolder new old = .error e := by
  refine CacheRows.commit_error (fun hfk => ?_)
  obtain ⟨m,hm,hold⟩ := h
  obtain ⟨f,hf,hname⟩ := hfk.folder _ (List.mem_map.mpr ⟨m,hm,if_pos hold⟩)
  exact hnew f hf hname

theorem updateFoldersName_of_empty (hnew : ∀ f ∈ c.rows.folders, f.name ≠ new)
    (h : ∀ m ∈ c.rows.messages, m.folder ≠ old) :
    ∃ c', c.updateFoldersName new old = .ok c' ∧ c'.rows = ownRowRenamed c.rows old new := by
  have hu : (ownRowRenamed c.rows old new).UniqueKeys := by
    refine ⟨?_,c.unique.messages,c.unique.tags,c.unique.messageTags⟩
    show ((c.rows.folders.map _).map CachedFolder.name).Nodup
    have hnames : (c.rows.folders.map
        (fun f => if f.name = old then { f with name := new } else f)).map CachedFolder.name =
        (c.rows.folders.map CachedFolder.name).map (fun n => if n = old then new else n) := by
      rw [List.map_map,List.map_map]
      refine List.map_congr_left (fun f _ => ?_)
      by_cases hf : f.name = old <;> simp [hf]
    rw [hnames]
    refine List.Nodup.map_on (fun a ha b hb hab => ?_) c.unique.folders
    obtain ⟨f,hf,rfl⟩ := List.mem_map.mp ha
    obtain ⟨g,hg,rfl⟩ := List.mem_map.mp hb
    have hfn := hnew f hf
    have hgn := hnew g hg
    by_cases hfo : f.name = old <;> by_cases hgo : g.name = old <;> simp_all
  have hf : (ownRowRenamed c.rows old new).ForeignKeys := by
    refine ⟨fun m hm => ?_,c.fk.tag,c.fk.message⟩
    obtain ⟨f,hf,hname⟩ := c.fk.folder m hm
    have hne : f.name ≠ old := hname ▸ h m hm
    exact ⟨f,List.mem_map.mpr ⟨f,hf,if_neg hne⟩,hname⟩
  exact ⟨_,CacheRows.commit_of_valid hu hf,rfl⟩

/-- Without messages of the folder, and unless a statement fails, its row is renamed. -/
theorem renameFolderInCache_ok (hnew : ∀ f ∈ c.rows.folders, f.name ≠ new)
    (hfails : fails 0 = none ∧ fails 1 = none) (h : ∀ m ∈ c.rows.messages, m.folder ≠ old) :
    ∃ c', renameFolderInCache fails c old new = (.ok (),c') ∧
      c'.rows = ownRowRenamed c.rows old new := by
  obtain ⟨c',hc',hrows⟩ := updateFoldersName_of_empty hnew h
  refine ⟨c',?_,hrows⟩
  simp only [renameFolderInCache,hfails.1,hfails.2,updateMessagesFolder_of_empty h,hc']

/-- Else the cache stays as it is. -/
theorem renameFolderInCache_error (hnew : ∀ f ∈ c.rows.folders, f.name ≠ new)
    (h : ¬(fails 0 = none ∧ fails 1 = none) ∨ ∃ m ∈ c.rows.messages, m.folder = old) :
    ∃ e, renameFolderInCache fails c old new = (.error e,c) := by
  unfold renameFolderInCache
  cases h0 : fails 0 with
  | some e => exact ⟨_,rfl⟩
  | none =>
    by_cases hmsg : ∃ m ∈ c.rows.messages, m.folder = old
    · obtain ⟨e,he⟩ := updateMessagesFolder_error hnew hmsg
      simp only [he]
      exact ⟨_,rfl⟩
    · have hnone : ∀ m ∈ c.rows.messages, m.folder ≠ old := fun m hm hold => hmsg ⟨m,hm,hold⟩
      simp only [updateMessagesFolder_of_empty hnone]
      cases h1 : fails 1 with
      | some e => exact ⟨_,rfl⟩
      | none => exact (h.elim (fun hf => hf ⟨h0,h1⟩) hmsg).elim

end Statements

/-! ### What should become of the cache -/

section Spec

variable {d : Char} {old new : String} {source : String → Nat} {server server' : Mailboxes}
  {c : Cache} {rows : CacheRows}

theorem eq_map_self {α : Type} {l : List α} {g : α → α} : l = l.map g ↔ ∀ a ∈ l, a = g a := by
  conv_lhs => rw [← List.map_id l,List.map_map,List.map_inj_left]
  rfl

theorem movedName_parent (hne : new ≠ old) {p : Option String} :
    p = p.map (movedName d old new) ↔ ∀ n ∈ p, ¬Within d old n := by
  cases p with
  | none => simp
  | some n =>
    simp only [Option.map_some,Option.some.injEq,Option.mem_some_iff,forall_eq']
    rw [eq_comm,movedName_eq_self hne]

/-- Renaming the own row of a folder is all of the rename exactly if nothing else refers to it. -/
theorem folders_renamed_iff (hne : new ≠ old) :
    (ownRowRenamed rows old new).folders = (rows.renamed (movedName d old new)).folders ↔
      (∀ f ∈ rows.folders, f.name ≠ old → ¬Within d old f.name) ∧
        ∀ f ∈ rows.folders, ∀ p ∈ f.parent, ¬Within d old p := by
  simp only [ownRowRenamed,CacheRows.renamed,List.map_inj_left,← forall_and]
  refine forall₂_congr (fun f _ => ?_)
  rw [← movedName_parent hne]
  by_cases hf : f.name = old
  · rw [if_pos hf,hf,movedName_self,CachedFolder.mk.injEq]
    simp
  · rw [if_neg hf,← movedName_eq_self hne]
    constructor
    · intro heq
      exact ⟨fun _ => (congrArg CachedFolder.name heq).symm,congrArg CachedFolder.parent heq⟩
    · rintro ⟨hname,hparent⟩
      rw [hname hf,← hparent]

theorem messages_renamed_iff (hne : new ≠ old) :
    rows.messages = (rows.renamed (movedName d old new)).messages ↔
      ∀ m ∈ rows.messages, ¬Within d old m.folder := by
  rw [CacheRows.renamed,eq_map_self]
  refine forall₂_congr (fun m _ => ?_)
  rw [← movedName_eq_self hne]
  constructor
  · intro heq
    exact (congrArg StoredMessage.folder heq).symm
  · intro heq
    change movedName d old new m.header.folder = m.header.folder at heq
    rw [heq]

theorem events_renamed_iff (hne : new ≠ old) :
    rows.events = (rows.renamed (movedName d old new)).events ↔
      ∀ e ∈ rows.events, ∀ n ∈ e.messageFolder, ¬Within d old n := by
  rw [CacheRows.renamed,eq_map_self]
  refine forall₂_congr (fun e _ => ?_)
  rw [← movedName_parent hne]
  constructor
  · intro heq
    exact congrArg EventSource.messageFolder heq
  · intro heq
    rw [← heq]

/-- The tags of messages outside the folder stay where they are. -/
theorem messageTags_renamed (c : Cache) (h : ∀ m ∈ c.rows.messages, ¬Within d old m.folder) :
    c.rows.messageTags = (c.rows.renamed (movedName d old new)).messageTags := by
  rw [CacheRows.renamed,eq_map_self]
  intro t ht
  obtain ⟨m,hm,hk⟩ := c.fk.message t ht
  have hfolder : t.messageFolder = m.folder := (congrArg Prod.snd hk).symm
  rw [movedName_of_not_within (hfolder ▸ h m hm)]

theorem renamed_iff_onlyItself (hne : new ≠ old) :
    ownRowRenamed c.rows old new = c.rows.renamed (movedName d old new) ↔
      OnlyItself d old c.rows := by
  constructor
  · intro h
    obtain ⟨hfolders,hparents⟩ := (folders_renamed_iff hne).mp (congrArg CacheRows.folders h)
    have hmessages : (ownRowRenamed c.rows old new).messages = _ := congrArg CacheRows.messages h
    have hevents : (ownRowRenamed c.rows old new).events = _ := congrArg CacheRows.events h
    exact ⟨hfolders,hparents,(messages_renamed_iff hne).mp hmessages,
      (events_renamed_iff hne).mp hevents⟩
  · intro h
    exact CacheRows.ext ((folders_renamed_iff hne).mpr ⟨h.folders,h.parents⟩)
      ((messages_renamed_iff hne).mpr h.messages) rfl (messageTags_renamed c h.messages)
      ((events_renamed_iff hne).mpr h.events)

/-- The old name is gone with the folder's own row. -/
theorem noReference_renamed (hne : new ≠ old) (h : OnlyItself d old c.rows) :
    NoReference (ownRowRenamed c.rows old new) old := by
  have hmessages : ∀ m ∈ c.rows.messages, m.folder ≠ old :=
    fun m hm hold => h.messages m hm (Or.inl hold)
  refine ⟨fun f hf => ?_,fun f hf => ?_,hmessages,fun t ht => ?_,fun e he hold => ?_⟩
  · obtain ⟨g,-,rfl⟩ := List.mem_map.mp hf
    split
    · exact hne
    · next hg => exact hg
  · obtain ⟨g,hg,rfl⟩ := List.mem_map.mp hf
    have hparent : g.parent ≠ some old := fun hold => h.parents g hg old hold (Or.inl rfl)
    split
    · exact hparent
    · exact hparent
  · obtain ⟨m,hm,hk⟩ := c.fk.message t ht
    have hfolder : m.folder = t.messageFolder := congrArg Prod.snd hk
    exact hfolder ▸ hmessages m hm
  · exact h.events e he old hold (Or.inl rfl)

/-- The cache still agrees with the server exactly if it holds no folder that was renamed. -/
theorem agrees_renamed (hren : server.rename d old new = some server')
    (hagree : Agrees source rows server) :
    Agrees source rows server' ↔ ∀ f ∈ rows.folders, ¬Within d old f.name := by
  constructor
  · intro h f hf
    exact (Mailboxes.mem_rename hren (hagree f hf)).mp (h f hf)
  · intro h f hf
    exact (Mailboxes.mem_rename hren (hagree f hf)).mpr (h f hf)

end Spec

/-- The cache follows a rename the server has made exactly if it holds nothing of the folder but its
own row; where a statement fails, exactly if it holds no folder that was renamed. -/
theorem rename_followed_iff {d : Char} {old new : String} {source : String → Nat}
    {server server' : Mailboxes} {c : Cache} {fails : Nat → Option String}
    (hren : server.rename d old new = some server') (hagree : Agrees source c.rows server)
    (hnew : ∀ f ∈ c.rows.folders, f.name ≠ new) :
    FollowsRename d old new source server' c (renameFolderInCache fails c old new) ↔
      (fails 0 = none ∧ fails 1 = none → OnlyItself d old c.rows) ∧
        (¬(fails 0 = none ∧ fails 1 = none) → ∀ f ∈ c.rows.folders, ¬Within d old f.name) := by
  have hne : new ≠ old := Mailboxes.rename_ne hren
  by_cases hmsg : ∃ m ∈ c.rows.messages, m.folder = old
  · obtain ⟨m,hm,hold⟩ := hmsg
    obtain ⟨f,hf,hname⟩ := c.fk.folder m hm
    have hwithin : Within d old f.name := Or.inl (hname.trans hold)
    obtain ⟨e,he⟩ : ∃ e, renameFolderInCache fails c old new = (.error e,c) :=
      renameFolderInCache_error hnew (Or.inr ⟨m,hm,hold⟩)
    rw [he]
    refine iff_of_false (fun h => ?_) (fun h => ?_)
    · exact (agrees_renamed hren hagree).mp (h.failed e rfl).2 f hf hwithin
    · by_cases hfails : fails 0 = none ∧ fails 1 = none
      · exact (h.1 hfails).messages m hm (Or.inl hold)
      · exact h.2 hfails f hf hwithin
  · have hnone : ∀ m ∈ c.rows.messages, m.folder ≠ old := fun m hm hold => hmsg ⟨m,hm,hold⟩
    by_cases hfails : fails 0 = none ∧ fails 1 = none
    · obtain ⟨c',hc',hrows⟩ := renameFolderInCache_ok hnew hfails hnone
      rw [hc']
      constructor
      · intro h
        have hmoved := (h.moved rfl).1
        rw [hrows] at hmoved
        exact ⟨fun _ => (renamed_iff_onlyItself hne).mp hmoved,fun hn => absurd hfails hn⟩
      · intro h
        have honly := h.1 hfails
        refine ⟨fun _ => ?_,nofun⟩
        rw [hrows]
        exact ⟨(renamed_iff_onlyItself hne).mpr honly,noReference_renamed hne honly⟩
    · obtain ⟨e,he⟩ : ∃ e, renameFolderInCache fails c old new = (.error e,c) :=
        renameFolderInCache_error hnew (Or.inl hfails)
      rw [he]
      constructor
      · intro h
        exact ⟨fun hf => absurd hf hfails,
          fun _ => (agrees_renamed hren hagree).mp (h.failed e rfl).2⟩
      · intro h
        exact ⟨nofun,fun _ _ => ⟨rfl,(agrees_renamed hren hagree).mpr (h.2 hfails)⟩⟩

/-! ### Samples -/

def projectsFolder : CachedFolder := ⟨"Projects",some "/",none,"",true,1,0,1,1,none⟩

/-- A folder without messages. -/
def emptyFolder : Cache := ⟨⟨[projectsFolder],[],[],[],[]⟩,by decide,by decide⟩

def projectsServer : Mailboxes := ⟨[("INBOX",0),("Projects",1)],by decide⟩

def renamedServer : Mailboxes := ⟨[("INBOX",0),("Work",1)],by decide⟩

theorem rename_projects :
    projectsServer.rename '/' "Projects" "Work" = some renamedServer := by decide

theorem emptyFolder_onlyItself : OnlyItself '/' "Projects" emptyFolder.rows where
  folders := by decide
  parents f hf p hp := by
    rw [List.mem_singleton.mp hf] at hp
    simp [projectsFolder] at hp
  messages _ hm := absurd hm List.not_mem_nil
  events _ he := absurd he List.not_mem_nil

/-- An empty folder follows. -/
theorem rename_followed_iff_empty :
    FollowsRename '/' "Projects" "Work" (fun _ => 1) renamedServer emptyFolder
      (renameFolderInCache (fun _ => none) emptyFolder "Projects" "Work") := by
  refine (rename_followed_iff rename_projects (by decide) (by decide)).mpr ⟨?_,?_⟩
  · exact fun _ => emptyFolder_onlyItself
  · exact fun h => (h ⟨rfl,rfl⟩).elim

def sampleMessage : CachedMessage where
  uid := 7
  folder := "Projects"
  messageId := none
  inReplyTo := none
  referencesHeader := none
  subject := "minutes"
  fromAddress := "a@example.com"
  fromName := ""
  toAddresses := "[]"
  ccAddresses := "[]"
  date := ""
  flags := ""
  size := 120
  hasAttachments := false
  snippet := ""
  reaction := none
  dateEpoch := 0
  threadId := none
  body := none
  origin := ⟨1,7⟩

/-- The folder with one message. -/
def oneMailCache : Cache :=
  ⟨⟨[projectsFolder],[⟨sampleMessage,none⟩],[],[],[]⟩,by decide,by decide⟩

/-- The server has renamed the folder; the cache refuses to and keeps the old name. -/
theorem rename_refused :
    ¬∀ (d : Char) (old new : String) (source : String → Nat) (server server' : Mailboxes)
      (c : Cache), server.rename d old new = some server' → Agrees source c.rows server →
        (∀ f ∈ c.rows.folders, f.name ≠ new) →
        FollowsRename d old new source server' c
          (renameFolderInCache (fun _ => none) c old new) := by
  intro hall
  have h := hall '/' "Projects" "Work" (fun _ => 1) projectsServer renamedServer oneMailCache
    rename_projects (by decide) (by decide)
  have hfailed := h.failed
    "Failed to rename messages folder: FOREIGN KEY constraint failed" (by decide)
  exact absurd hfailed.2 (by decide)

end Rav
