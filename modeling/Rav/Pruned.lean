import Rav.Routes.Folders

/-!
# What a cut listing prunes

The refresh of the folder list deletes every cached folder that the listing does not name. An empty
listing is refused, but one that the connection cut short is taken for all of it.

## Main definitions

- `selectableNames` — the folders a listing names
- `Cache.Keeps` — a folder keeps its row, messages and tags
- `cut_listing_prunes_iff` — when a cut listing costs no folder that exists
-/

namespace Rav

/-! ### The listing -/

/-- The folders a listing names. -/
def selectableNames (listing : List ListedName) : List String :=
  (listing.filter ListedName.selectable).map ListedName.name

theorem collectNames_ok (names : List ListedName) : collectNames (names.map .ok) = .ok names := by
  induction names with
  | nil => rfl
  | cons n names ih => simp [collectNames,ih]

/-- A cut listing is an error only if it is empty. -/
theorem listFolders_cut (server : List ListedName) (k : Nat) :
    (ListExchange.cut server k).listFolders =
      if (server.take k).isEmpty then
        .error (.protocolError "LIST returned no mailboxes; connection likely closed")
      else .ok (((server.take k).filter ListedName.selectable).map ListedName.folder) := by
  unfold ListExchange.listFolders ListExchange.cut
  simp only [collectNames_ok]

/-! ### The cache -/

/-- The folder's row, its messages and their tags are the same in both caches. -/
structure Cache.Keeps (name : String) (c c' : Cache) : Prop where
  folder : c'.rows.folders.filter (fun f => f.name = name) = c.rows.folders.filter (fun f => f.name = name)
  messages : c'.rows.messages.filter (fun m => m.folder = name) =
    c.rows.messages.filter (fun m => m.folder = name)
  tags : c'.rows.messageTags.filter (fun t => t.messageFolder = name) =
    c.rows.messageTags.filter (fun t => t.messageFolder = name)

/-- The folder has a row. -/
def Cache.HasFolder (c : Cache) (name : String) : Prop := name ∈ c.rows.folders.map CachedFolder.name

instance (c : Cache) (name : String) : Decidable (c.HasFolder name) := by
  unfold Cache.HasFolder
  infer_instance

namespace Cache

variable {c c' c'' : Cache} {name : String}

theorem Keeps.refl : c.Keeps name c := ⟨rfl,rfl,rfl⟩

theorem Keeps.trans (h : Keeps name c c') (h' : Keeps name c' c'') : Keeps name c c'' :=
  ⟨h'.folder.trans h.folder,h'.messages.trans h.messages,h'.tags.trans h.tags⟩

/-- A folder that keeps its row is still there. -/
theorem Keeps.hasFolder (h : Keeps name c c') (hc : c.HasFolder name) : c'.HasFolder name := by
  obtain ⟨f,hf,hname⟩ := List.mem_map.mp hc
  have hmem : f ∈ c'.rows.folders.filter (fun f => f.name = name) := by
    rw [h.folder]
    exact List.mem_filter.mpr ⟨hf,decide_eq_true hname⟩
  exact List.mem_map.mpr ⟨f,(List.mem_filter.mp hmem).1,hname⟩

/-- Inserting folders leaves those that have a row alone. -/
theorem keeps_insertFolderIfNew (hc : c.HasFolder name) (n : String) (delimiter : Option String)
    (csv : String) : c.Keeps name (c.insertFolderIfNew n delimiter csv) := by
  unfold insertFolderIfNew
  split
  · exact Keeps.refl
  · next hnew =>
    refine ⟨?_,rfl,rfl⟩
    have hne : n ≠ name := by
      rintro rfl
      exact hnew hc
    show (c.rows.folders ++ [_]).filter _ = _
    rw [List.filter_append,List.filter_singleton,decide_eq_false hne]
    exact List.append_nil _

theorem keeps_insertFolders (folders : List ImapFolder) :
    ∀ {c : Cache}, c.HasFolder name → c.Keeps name (FolderList.insertFolders folders c) := by
  induction folders with
  | nil => exact fun _ => Keeps.refl
  | cons f folders ih =>
    intro c hc
    have hstep := keeps_insertFolderIfNew hc f.name f.delimiter (",".intercalate f.attributes)
    exact hstep.trans (ih (hstep.hasFolder hc))

/-- Deleting folders leaves those that are not meant alone. -/
theorem keeps_deleteFoldersWhere {p : String → Bool} (hp : p name = false) :
    c.Keeps name (c.deleteFoldersWhere p) := by
  have hfilter : ∀ {α : Type} (key : α → String) (l : List α),
      (l.filter (fun a => !p (key a))).filter (fun a => key a = name) =
        l.filter (fun a => key a = name) := by
    intro α key l
    rw [List.filter_filter]
    refine List.filter_congr fun a _ => ?_
    by_cases ha : key a = name
    · rw [ha,hp]
      exact Bool.and_true _
    · rw [decide_eq_false ha]
      rfl
  exact ⟨hfilter CachedFolder.name _,hfilter StoredMessage.folder _,
    hfilter MessageTagRow.messageFolder _⟩

theorem not_hasFolder_deleteFoldersWhere {p : String → Bool} (hp : p name = true) :
    ¬(c.deleteFoldersWhere p).HasFolder name := by
  intro h
  obtain ⟨f,hf,rfl⟩ := List.mem_map.mp h
  have hkept := (List.mem_filter.mp hf).2
  rw [hp] at hkept
  exact absurd hkept nofun

/-- Of the cached folders, the removal keeps exactly those that are named. -/
theorem keeps_removeStaleFolders {names : List String} (hne : names ≠ []) (hc : c.HasFolder name) :
    c.Keeps name (c.removeStaleFolders names).2 ↔ name ∈ names := by
  have hremove : (c.removeStaleFolders names).2 = c.deleteFoldersWhere (fun n => n ∉ names) :=
    if_neg fun h => hne (List.isEmpty_iff.mp h)
  rw [hremove]
  constructor
  · intro h
    by_contra hstale
    exact not_hasFolder_deleteFoldersWhere (decide_eq_true hstale) (h.hasFolder hc)
  · exact fun h => keeps_deleteFoldersWhere (decide_eq_false (not_not_intro h))

end Cache

/-! ### The refresh -/

namespace FolderList

variable {s : FolderList}

/-- A cached folder survives the refresh exactly if the listing names it. -/
theorem keeps_store {folders : List ImapFolder} {name : String} (hne : folders ≠ [])
    (hc : s.cache.HasFolder name) :
    s.cache.Keeps name (s.store folders).cache ↔ name ∈ folders.map ImapFolder.name := by
  have hinsert := Cache.keeps_insertFolders folders hc
  have hnames : folders.map ImapFolder.name ≠ [] := mt List.map_eq_nil_iff.mp hne
  rw [← Cache.keeps_removeStaleFolders hnames (hinsert.hasFolder hc)]
  constructor
  · intro h
    exact ⟨h.folder.trans hinsert.folder.symm,h.messages.trans hinsert.messages.symm,
      h.tags.trans hinsert.tags.symm⟩
  · exact hinsert.trans

/-- What the refresh makes of a cut listing. -/
theorem refresh_cut (hfresh : s.isFolderCacheFresh folderListTtlSecs = false) (host : String)
    (server : List ListedName) (k : Nat) :
    (selectableNames (server.take k) = [] ∧ ∃ e, s.refresh (some host) (.cut server k) = .error e) ∨
      ∃ folders, folders.map ImapFolder.name = selectableNames (server.take k) ∧ folders ≠ [] ∧
        s.refresh (some host) (.cut server k) = .ok (s.store folders) := by
  have hnames : (((server.take k).filter ListedName.selectable).map ListedName.folder).map
      ImapFolder.name = selectableNames (server.take k) := by
    rw [List.map_map]
    rfl
  unfold refresh
  rw [hfresh,if_neg nofun,listFolders_cut]
  by_cases hempty : (server.take k).isEmpty = true
  · rw [if_pos hempty]
    refine Or.inl ⟨?_,_,rfl⟩
    rw [List.isEmpty_iff.mp hempty]
    rfl
  · rw [if_neg hempty]
    by_cases hnone : (((server.take k).filter ListedName.selectable).map ListedName.folder).isEmpty = true
    · refine Or.inl ⟨?_,_,if_pos hnone⟩
      rw [← hnames,List.isEmpty_iff.mp hnone]
      rfl
    · exact Or.inr ⟨_,hnames,fun h => hnone (List.isEmpty_iff.mpr h),if_neg hnone⟩

end FolderList

/-- A cut listing ends in an error or costs no cached folder that exists, exactly if the server is not
asked, or the part that arrived names no folder, or all that are cached and exist. -/
theorem cut_listing_prunes_iff (s : FolderList) (imapHost : Option String) (server : List ListedName)
    (k : Nat) :
    ((∃ e, s.refresh imapHost (.cut server k) = .error e) ∨
        ∃ s', s.refresh imapHost (.cut server k) = .ok s' ∧
          ∀ name ∈ selectableNames server, s.cache.HasFolder name → s.cache.Keeps name s'.cache) ↔
      s.isFolderCacheFresh folderListTtlSecs = true ∨ imapHost = none ∨
        selectableNames (server.take k) = [] ∨
        ∀ name ∈ selectableNames server, s.cache.HasFolder name →
          name ∈ selectableNames (server.take k) := by
  cases hfresh : s.isFolderCacheFresh folderListTtlSecs with
  | true =>
    have hskip : s.refresh imapHost (.cut server k) = .ok s := if_pos hfresh
    exact iff_of_true (Or.inr ⟨s,hskip,fun _ _ _ => Cache.Keeps.refl⟩) (Or.inl rfl)
  | false =>
    cases imapHost with
    | none =>
      have herror : ∃ e, s.refresh none (.cut server k) = .error e := ⟨_,if_neg (by rw [hfresh]; nofun)⟩
      exact iff_of_true (Or.inl herror) (Or.inr (Or.inl rfl))
    | some host =>
      rcases FolderList.refresh_cut hfresh host server k with ⟨hnone,herror⟩ | ⟨folders,hnames,hne,hok⟩
      · exact iff_of_true (Or.inl herror) (Or.inr (Or.inr (Or.inl hnone)))
      · have hsome : selectableNames (server.take k) ≠ [] := by
          rw [← hnames]
          exact mt List.map_eq_nil_iff.mp hne
        rw [hok,← hnames]
        rw [← hnames] at hsome
        simp only [reduceCtorEq,exists_false,Except.ok.injEq,exists_eq_left',false_or,hsome]
        refine forall₃_congr fun name _ hc => FolderList.keeps_store hne hc

/-! ### A listing cut after INBOX -/

/-- A message that is filed in the archive. -/
def filedMessage : StoredMessage :=
  ⟨⟨7,"Archive",none,none,none,"","","","","","","",0,false,"",none,0,none,none,⟨1,0⟩⟩,none⟩

/-- A mailbox with an archive, all of it cached, looked at long after. -/
def archived : FolderList where
  cache :=
    { rows := ⟨[⟨"Archive",none,none,"",true,1,0,1,0,some 0⟩,⟨"INBOX",none,none,"",true,0,0,1,0,some 0⟩],
        [filedMessage],[⟨"t","Tax",""⟩],[⟨"t",7,"Archive",""⟩],[]⟩
      unique := by decide
      fk := by decide }
  updatedAt := fun _ => 0
  now := 1000

/-- The connection ends after INBOX, and the archive is gone with all that is in it. -/
theorem cut_listing_drops_archive :
    ¬∀ s imapHost server k, (∃ e, FolderList.refresh s imapHost (.cut server k) = .error e) ∨
      ∃ s', s.refresh imapHost (.cut server k) = .ok s' ∧
        ∀ name ∈ selectableNames server, s.cache.HasFolder name → s.cache.Keeps name s'.cache := by
  intro h
  have hok : archived.refresh (some "imap.example.com") (.cut [⟨"INBOX",none,[]⟩,⟨"Archive",none,[]⟩] 1) =
      .ok (archived.store [⟨"INBOX",none,[]⟩]) := rfl
  rcases h archived (some "imap.example.com") [⟨"INBOX",none,[]⟩,⟨"Archive",none,[]⟩] 1 with
    ⟨e,he⟩ | ⟨s',hs',hkeeps⟩
  · exact absurd (hok.symm.trans he) nofun
  · obtain rfl := Except.ok.inj (hok.symm.trans hs')
    have hgone := (hkeeps "Archive" (by decide) (by decide)).hasFolder (by decide)
    exact absurd hgone (by decide)

end Rav
