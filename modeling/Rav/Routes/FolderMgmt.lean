import Rav.Error
import Rav.Db.Cache

/-!
# `routes::folder_mgmt`

Renaming a folder: on the IMAP server first, which moves the folders beneath it along, and then in
the cache. The mailboxes of the server have an identity that a rename keeps.

## Main definitions

- `Within`, `movedName` — the folders a rename moves, and where to
- `Mailboxes`, `Mailboxes.rename` — the server
- `renameFolderInCache` — the two statements
- `renameFolder` — the handler
-/

namespace Rav

/-! ### The server -/

section Names

variable (d : Char) (old new n : String)

/-- A folder, or one beneath it, under the hierarchy delimiter `d`. -/
def Within : Prop := n = old ∨ (old.push d).toList.isPrefixOf n.toList = true

instance : Decidable (Within d old n) := by
  unfold Within
  infer_instance

/-- The name a mailbox has after `RENAME old new`. -/
def movedName : String :=
  if Within d old n then String.ofList (new.toList ++ n.toList.drop old.toList.length) else n

end Names

/-- The mailboxes of the server by name; each has an identity of its own. -/
structure Mailboxes where
  list : List (String × Nat)
  nodup : (list.map Prod.snd).Nodup
  deriving DecidableEq

namespace Mailboxes

/-- `RENAME`: the mailbox must exist and the name must be free; mailboxes beneath it are renamed
as well. -/
def rename (s : Mailboxes) (d : Char) (old new : String) : Option Mailboxes :=
  if old ∈ s.list.map Prod.fst ∧ new ∉ s.list.map Prod.fst then
    some ⟨s.list.map (fun b => (movedName d old new b.1,b.2)),by
      rw [List.map_map]
      exact s.nodup⟩
  else none

end Mailboxes

/-! ### The cache -/

/-- `rename_folder_in_cache`; the `i`-th statement may fail with an error of its own. A statement
that has gone through is not undone. -/
def renameFolderInCache (fails : Nat → Option String) (c : Cache) (old new : String) :
    Except String Unit × Cache :=
  match fails 0 with
  | some e => (.error ("Failed to rename messages folder: " ++ e),c)
  | none =>
    match c.updateMessagesFolder new old with
    | .error e => (.error ("Failed to rename messages folder: " ++ e),c)
    | .ok c' =>
      match fails 1 with
      | some e => (.error ("Failed to rename folder: " ++ e),c')
      | none =>
        match c'.updateFoldersName new old with
        | .error e => (.error ("Failed to rename folder: " ++ e),c')
        | .ok c'' => (.ok (),c'')

/-! ### The handler -/

/-- Folder names that must not be renamed or deleted. -/
def systemFolders : List String := ["INBOX","Sent","Drafts","Trash","Junk","Spam"]

/-- Whether the folder is a system folder (case-insensitive). -/
def isSystemFolder (name : String) : Bool :=
  systemFolders.any (eqIgnoreAsciiCase name)

/-- `char::is_control`. -/
def isControl (c : Char) : Bool := c.toNat ≤ 31 || (127 ≤ c.toNat && c.toNat ≤ 159)

/-- Validates a folder name. -/
def validateFolderName (name : String) : Except AppError Unit :=
  if strTrim name = "" then .error (.badRequest "Folder name cannot be empty")
  else if name.utf8ByteSize > 255 then
    .error (.badRequest "Folder name must be 255 characters or fewer")
  else if name.toList.any (fun c => c = '\x7b' || c = '\x7d' || c = '*' || c = '%') then
    .error (.badRequest "Folder name contains invalid characters")
  else if name.toList.any isControl then
    .error (.badRequest "Folder name contains invalid characters")
  else .ok ()

/-- The mailboxes of the server and the cache. -/
structure FolderWorld where
  server : Mailboxes
  cache : Cache

/-- What a request meets: whether the IMAP server, the connection pool and each statement fail. -/
structure FolderWeather where
  imap : Option String
  pool : Option String
  statements : Nat → Option String

/-- `PATCH /api/folders/:folder_id`, for a decrypted folder name. -/
def renameFolder (d : Char) (weather : FolderWeather) (w : FolderWorld) (name newName : String) :
    Except AppError String × FolderWorld :=
  if isSystemFolder name then
    (.error (.badRequest ("Cannot rename system folder '" ++ name ++ "'")),w)
  else
    match validateFolderName newName with
    | .error e => (.error e,w)
    | .ok () =>
      match weather.imap, w.server.rename d name newName with
      | some e, _ => (.error (.internalError ("IMAP rename_folder failed: " ++ e)),w)
      | none, none => (.error (.internalError "IMAP rename_folder failed: NO"),w)
      | none, some server =>
        match weather.pool with
        | some e => (.error (.internalError ("Database error: " ++ e)),{ w with server })
        | none =>
          match renameFolderInCache weather.statements w.cache name newName with
          | (.error e,cache) => (.error (.internalError ("Database error: " ++ e)),⟨server,cache⟩)
          | (.ok (),cache) => (.ok "renamed",⟨server,cache⟩)

/-! ### Names -/

section Names

variable {d : Char} {old new n : String}

theorem movedName_of_not_within (h : ¬Within d old n) : movedName d old new n = n := if_neg h

theorem movedName_self : movedName d old new old = new := by
  have hself : Within d old old := Or.inl rfl
  rw [movedName,if_pos hself,List.drop_length,List.append_nil,String.ofList_toList]

/-- A rename moves every name within the folder. -/
theorem movedName_ne (hnew : new ≠ old) (h : Within d old n) : movedName d old new n ≠ n := by
  intro heq
  rw [movedName,if_pos h] at heq
  have hlist : new.toList ++ n.toList.drop old.toList.length = n.toList := by
    conv_rhs => rw [← heq]
    rw [String.toList_ofList]
  have htake : n.toList.take old.toList.length = old.toList := by
    rcases h with rfl | h
    · exact List.take_length
    · obtain ⟨rest,hrest⟩ := List.isPrefixOf_iff_prefix.mp h
      rw [← hrest,String.toList_push,List.append_assoc,List.take_left]
  have hsplit := List.take_append_drop old.toList.length n.toList
  rw [htake] at hsplit
  exact hnew (String.toList_inj.mp (List.append_cancel_right (hlist.trans hsplit.symm)))

theorem movedName_eq_self (hnew : new ≠ old) : movedName d old new n = n ↔ ¬Within d old n :=
  ⟨fun h hw => movedName_ne hnew hw h,movedName_of_not_within⟩

end Names

/-- A mailbox is not renamed to its own name. -/
theorem Mailboxes.rename_ne {s s' : Mailboxes} {d : Char} {old new : String}
    (h : s.rename d old new = some s') : new ≠ old := by
  unfold rename at h
  split at h
  · next hnames =>
    rintro rfl
    exact hnames.2 hnames.1
  · simp at h

/-- A rename leaves every mailbox what it was, under its new name. -/
theorem Mailboxes.mem_rename {s s' : Mailboxes} {d : Char} {old new n : String} {id : Nat}
    (h : s.rename d old new = some s') (hn : (n,id) ∈ s.list) :
    (n,id) ∈ s'.list ↔ ¬Within d old n := by
  have hnew := rename_ne h
  unfold rename at h
  split at h
  · obtain rfl := Option.some.inj h
    constructor
    · intro hmem
      obtain ⟨⟨m,j⟩,hm,heq⟩ := List.mem_map.mp hmem
      obtain ⟨hname,rfl⟩ := Prod.mk.inj heq
      -- the identity tells which mailbox the name was of
      obtain rfl : m = n := congrArg Prod.fst (List.inj_on_of_nodup_map s.nodup hm hn rfl)
      exact (movedName_eq_self hnew).mp hname
    · intro hnot
      exact List.mem_map.mpr ⟨(n,id),hn,by rw [movedName_of_not_within hnot]⟩
  · simp at h

/-- The handler changes nothing, or has the server rename the folder and follows in the cache. -/
theorem renameFolder_cases (d : Char) (weather : FolderWeather) (w : FolderWorld)
    (name newName : String) :
    (renameFolder d weather w name newName).2 = w ∨
      ∃ server, w.server.rename d name newName = some server ∧
        ((renameFolder d weather w name newName).2 = ⟨server,w.cache⟩ ∨
          (renameFolder d weather w name newName).2 =
            ⟨server,(renameFolderInCache weather.statements w.cache name newName).2⟩) := by
  unfold renameFolder
  split
  · exact Or.inl rfl
  · split
    · exact Or.inl rfl
    · split
      · exact Or.inl rfl
      · exact Or.inl rfl
      · next server _ hs =>
        refine Or.inr ⟨server,hs,?_⟩
        split
        · exact Or.inl rfl
        · split
          · next heq => exact Or.inr (by rw [heq])
          · next heq => exact Or.inr (by rw [heq])

end Rav
