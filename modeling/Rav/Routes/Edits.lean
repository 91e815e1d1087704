import Rav.Routes.MessageFlags

/-!
# Statements in loops

What is left of a loop of statements on the messages of a folder: which UIDs it ran over matters, their
order and repetitions do not. Statements on different columns or rows are independent.

## Main definitions

- `editFlags_editFlags` — an edit that is made twice
- `Db.deleteAll`, `Db.editAll` — what a loop leaves
- `Db.Retouched`, `Db.updateFolder_comm` — updates of folder rows
-/

namespace Rav

/-! ### The flags column -/

/-- The names a flags column lists. -/
def listedFlags (csv : String) : List String :=
  if csv = "" then [] else (splitAll [','] csv.toList).map String.ofList

/-- Names added or removed. -/
def editList (flags : List String) (add : Bool) (current : List String) : List String :=
  if add then flags.foldl (fun fs f => if fs.contains f then fs else fs ++ [f]) current
  else current.filter (fun f => !flags.contains f)

theorem editFlags_eq (flags : List String) (add : Bool) (csv : String) :
    editFlags flags add csv = ",".intercalate (editList flags add (listedFlags csv)) := rfl

theorem comma_notMem_listedFlags (csv : String) : ∀ f ∈ listedFlags csv, ',' ∉ f.toList := by
  unfold listedFlags
  split
  · exact nofun
  · intro f hf
    obtain ⟨p,hp,rfl⟩ := List.mem_map.mp hf
    rw [String.toList_ofList]
    exact (splitFuel_spec _ _ _ (Nat.lt_succ_self _)).1 p hp

theorem intercalate_listedFlags (csv : String) : ",".intercalate (listedFlags csv) = csv := by
  unfold listedFlags
  split
  · next h => exact h.symm
  · refine String.toList_injective ?_
    rw [String.toList_intercalate,List.map_map]
    have hid : String.toList ∘ String.ofList = id := funext fun p => String.toList_ofList
    rw [hid,List.map_id]
    exact (splitFuel_spec _ _ _ (Nat.lt_succ_self _)).2

/-- A text that is not empty is read back as the names it was made of. -/
theorem listedFlags_intercalate {l : List String} (hne : ",".intercalate l ≠ "")
    (hcomma : ∀ f ∈ l, ',' ∉ f.toList) : listedFlags (",".intercalate l) = l := by
  have hl : l ≠ [] := by
    rintro rfl
    exact hne rfl
  have hlist : (",".intercalate l).toList = List.intercalate [','] (l.map String.toList) :=
    String.toList_intercalate
  rw [listedFlags,if_neg hne,hlist,
    splitAll_intercalate (mt List.map_eq_nil_iff.mp hl) (List.forall_mem_map.mpr hcomma),List.map_map]
  have hid : String.ofList ∘ String.toList = id := funext fun f => String.ofList_toList
  rw [hid,List.map_id]

/-- Names put together to nothing are empty. -/
theorem eq_empty_of_intercalate {l : List String} (h : ",".intercalate l = "") : ∀ f ∈ l, f = "" := by
  have hlist : List.intercalate [','] (l.map String.toList) = [] := by
    have h' := congrArg String.toList h
    rwa [String.toList_intercalate] at h'
  intro f hf
  cases l with
  | nil => exact absurd hf List.not_mem_nil
  | cons g l =>
    by_cases hl : l = []
    · subst hl
      rw [List.mem_singleton] at hf
      subst hf
      exact String.toList_eq_nil_iff.mp (by simpa using hlist)
    · rw [List.map_cons,intercalate_cons (mt List.map_eq_nil_iff.mp hl)] at hlist
      simp at hlist

theorem isValidFlag_spec {flag : String} (h : isValidFlag flag = true) :
    flag ≠ "" ∧ ',' ∉ flag.toList := by
  unfold isValidFlag at h
  simp only [Bool.and_eq_true] at h
  obtain ⟨⟨⟨hne,-⟩,-⟩,hall⟩ := h
  refine ⟨?_,fun hmem => ?_⟩
  · rintro rfl
    simp at hne
  · rw [List.all_eq_true] at hall
    have hcomma : ¬((','.isAlphanum || ['$','_','-','+','.'].contains ',') = true) := by decide
    split at hall
    · next hhead =>
      cases hlist : flag.toList with
      | nil => simp [hlist] at hmem
      | cons c cs =>
        rw [hlist] at hall hmem hhead
        rcases List.mem_cons.mp hmem with hc | hc
        · rw [← hc] at hhead
          exact absurd (Option.some.inj hhead) (by decide)
        · exact hcomma (hall ',' hc)
    · exact hcomma (hall ',' hmem)

/-- All names are there after they are added. -/
theorem mem_addFlags {flags current : List String} {f : String} :
    f ∈ flags.foldl (fun fs f => if fs.contains f then fs else fs ++ [f]) current ↔
      f ∈ current ∨ f ∈ flags := by
  induction flags generalizing current with
  | nil => simp
  | cons g flags ih =>
    rw [List.foldl_cons,ih,List.mem_cons]
    by_cases hg : g ∈ current
    · rw [if_pos (List.contains_iff_mem.mpr hg)]
      constructor
      · exact Or.imp id Or.inr
      · rintro (h | rfl | h)
        exacts [Or.inl h,Or.inl hg,Or.inr h]
    · rw [if_neg (mt List.contains_iff_mem.mp hg),List.mem_append,List.mem_singleton,or_assoc]

theorem addFlags_of_mem {flags current : List String} (h : ∀ f ∈ flags, f ∈ current) :
    flags.foldl (fun fs f => if fs.contains f then fs else fs ++ [f]) current = current := by
  induction flags with
  | nil => rfl
  | cons g flags ih =>
    obtain ⟨hg,h⟩ := List.forall_mem_cons.mp h
    rw [List.foldl_cons,if_pos (List.contains_iff_mem.mpr hg),ih h]

theorem editList_editList (flags : List String) (add : Bool) (current : List String) :
    editList flags add (editList flags add current) = editList flags add current := by
  cases add with
  | true => exact addFlags_of_mem fun f hf => mem_addFlags.mpr (Or.inr hf)
  | false => exact List.filter_filter.trans (List.filter_congr fun f _ => Bool.and_self _)

theorem comma_notMem_editList {flags : List String} (hflags : ∀ f ∈ flags, isValidFlag f = true) (add : Bool)
    {current : List String} (h : ∀ f ∈ current, ',' ∉ f.toList) :
    ∀ f ∈ editList flags add current, ',' ∉ f.toList := by
  intro f hf
  cases add with
  | true =>
    rcases mem_addFlags.mp hf with hf | hf
    · exact h f hf
    · exact (isValidFlag_spec (hflags f hf)).2
  | false => exact h f (List.mem_filter.mp hf).1

/-- An edit that is made twice. -/
theorem editFlags_editFlags {flags : List String} (hflags : ∀ f ∈ flags, isValidFlag f = true) (add : Bool)
    (csv : String) : editFlags flags add (editFlags flags add csv) = editFlags flags add csv := by
  rw [editFlags_eq flags add csv,editFlags_eq]
  have hcomma := comma_notMem_editList hflags add (comma_notMem_listedFlags csv)
  by_cases hne : ",".intercalate (editList flags add (listedFlags csv)) = ""
  · rw [hne]
    cases add with
    | false => rfl
    | true =>
      have hnone : flags = [] := by
        refine List.eq_nil_iff_forall_not_mem.mpr fun f hf => ?_
        exact (isValidFlag_spec (hflags f hf)).1
          (eq_empty_of_intercalate hne f (mem_addFlags.mpr (Or.inr hf)))
      rw [hnone]
      rfl
  · rw [listedFlags_intercalate hne hcomma,editList_editList]

namespace Db

/-! ### Loops on messages -/

theorem ext_tables {db db' : Db} (hnow : db.now = db'.now) (hdeep : db.deepIndex = db'.deepIndex)
    (hrules : db.filterRules = db'.filterRules) (hvacation : db.vacation = db'.vacation)
    (hreplies : db.vacationReplies = db'.vacationReplies) (htags : db.messageTags = db'.messageTags)
    (hfolders : db.folders.rows = db'.folders.rows) (hmessages : db.messages.rows = db'.messages.rows) :
    db = db' := by
  obtain ⟨now,deepIndex,rules,vacation,replies,tags,⟨folders,hf⟩,⟨messages,hm⟩,fk⟩ := db
  obtain ⟨now',deepIndex',rules',vacation',replies',tags',⟨folders',hf'⟩,⟨messages',hm'⟩,fk'⟩ := db'
  dsimp only at *
  subst hnow hdeep hrules hvacation hreplies htags hfolders hmessages
  rfl

/-- Delete the messages of these UIDs. -/
def deleteAll (db : Db) (folder : String) (uids : List Nat) : Db :=
  db.deleteMessagesWhere (fun r => r.folder = folder && uids.contains r.uid)

/-- Edit the flags of the messages of these UIDs. -/
def editAll (db : Db) (folder : String) (uids : List Nat) (flags : List String) (add : Bool) : Db :=
  db.updateMessagesWhere (fun r => r.folder = folder && uids.contains r.uid)
    (fun r => r.setFlags (editFlags flags add r.flags)) (fun r => r.setFlags_key _)

theorem foldl_deleteMessage (folder : String) (uids : List Nat) (db : Db) :
    deleteUids folder uids db = db.deleteAll folder uids := by
  induction uids generalizing db with
  | nil =>
    show db = db.deleteAll folder []
    refine ext_tables rfl rfl rfl rfl rfl rfl rfl (List.filter_eq_self.mpr fun r _ => ?_).symm
    simp
  | cons u uids ih =>
    have hstep : deleteUids folder (u :: uids) db = deleteUids folder uids (db.deleteMessage folder u) := rfl
    rw [hstep,ih]
    refine ext_tables rfl rfl rfl rfl rfl rfl rfl ?_
    show List.filter _ (List.filter _ db.messages.rows) = List.filter _ db.messages.rows
    rw [List.filter_filter]
    refine List.filter_congr fun r _ => ?_
    by_cases hf : r.folder = folder <;> by_cases hu : r.uid = u <;> simp [hf,hu]

/-- The edit of one message reads the flags it writes. -/
theorem editMessageFlags_eq (db : Db) (folder : String) (uid : Nat) (flags : List String) (add : Bool) :
    db.editMessageFlags folder uid flags add = db.editAll folder [uid] flags add := by
  refine ext_tables rfl rfl rfl rfl rfl rfl rfl ?_
  refine List.map_congr_left fun r hr => ?_
  by_cases hkey : r.folder = folder ∧ r.uid = uid
  · obtain ⟨rfl,rfl⟩ := hkey
    have hrow : db.message? r.folder r.uid = some r := message?_eq_some.mpr ⟨hr,rfl,rfl⟩
    simp [hrow]
  · have hcond : (decide (r.folder = folder) && decide (r.uid = uid)) = false := by
      rw [Bool.eq_false_iff,ne_eq,Bool.and_eq_true,decide_eq_true_iff,decide_eq_true_iff]
      exact hkey
    have hcond' : (decide (r.folder = folder) && [uid].contains r.uid) = false := by
      simpa [List.contains_eq_mem] using hcond
    rw [if_neg (Bool.eq_false_iff.mp hcond),if_neg (Bool.eq_false_iff.mp hcond')]

theorem foldl_editMessageFlags {flags : List String} (hflags : ∀ f ∈ flags, isValidFlag f = true)
    (add : Bool) (folder : String) (uids : List Nat) (db : Db) :
    uids.foldl (fun db uid => db.editMessageFlags folder uid flags add) db =
      db.editAll folder uids flags add := by
  induction uids generalizing db with
  | nil =>
    show db = db.editAll folder [] flags add
    refine ext_tables rfl rfl rfl rfl rfl rfl rfl ?_
    refine ((List.map_congr_left fun r _ => ?_).trans (List.map_id _)).symm
    simp
  | cons u uids ih =>
    rw [List.foldl_cons,ih,editMessageFlags_eq]
    refine ext_tables rfl rfl rfl rfl rfl rfl rfl ?_
    show List.map _ (List.map _ db.messages.rows) = List.map _ db.messages.rows
    rw [List.map_map]
    refine List.map_congr_left fun r _ => ?_
    have hidem := editFlags_editFlags hflags add r.flags
    by_cases hf : r.folder = folder
    · by_cases hu : r.uid = u
      · subst hf hu
        by_cases hm : r.uid ∈ uids
        · simp [hm,hidem,CachedMessage.setFlags]
        · simp [hm,CachedMessage.setFlags]
      · simp [hf,hu]
    · simp [hf]

/-! ### Folder rows -/

section Folders

variable {db : Db} {f g : String} {k k' : CachedFolder → CachedFolder}
  (hk : ∀ r, (k r).name = r.name) (hk' : ∀ r, (k' r).name = r.name)

theorem updateFolder_congr (h : ∀ r, k r = k' r) : db.updateFolder f k hk = db.updateFolder f k' hk' := by
  obtain rfl : k = k' := funext h
  rfl

theorem updateFolder_updateFolder :
    (db.updateFolder f k hk).updateFolder f k' hk' =
      db.updateFolder f (fun r => k' (k r)) (fun r => (hk' _).trans (hk r)) := by
  refine ext_tables rfl rfl rfl rfl rfl rfl ?_ rfl
  show List.map _ (List.map _ db.folders.rows) = List.map _ db.folders.rows
  rw [List.map_map]
  refine List.map_congr_left fun r _ => ?_
  by_cases hr : r.name = f <;> simp [hr,hk]

/-- Updates of different rows. -/
theorem updateFolder_comm (hfg : f ≠ g) :
    (db.updateFolder f k hk).updateFolder g k' hk' = (db.updateFolder g k' hk').updateFolder f k hk := by
  refine ext_tables rfl rfl rfl rfl rfl rfl ?_ rfl
  show List.map _ (List.map _ db.folders.rows) = List.map _ (List.map _ db.folders.rows)
  rw [List.map_map,List.map_map]
  refine List.map_congr_left fun r _ => ?_
  by_cases hr : r.name = f
  · have hrg : ¬r.name = g := fun h => hfg (hr.symm.trans h)
    simp [hr,hfg,hk]
  · by_cases hrg : r.name = g
    · simp [hrg,hk',Ne.symm hfg]
    · simp [hr,hrg]

/-- The unread count of a folder row is set. -/
def setUnread (db : Db) (f : String) (n : Nat) : Db :=
  db.updateFolder f (fun r => { r with unreadCount := n }) (fun _ => rfl)

/-- The row of a folder that unread messages arrive in: they are counted, and it is invalidated. -/
def arrive (db : Db) (f : String) (n : Nat) : Db :=
  db.updateFolder f (fun r => { r with unreadCount := r.unreadCount + n, messagesUpdatedAt := none })
    (fun _ => rfl)

theorem refreshUnreadCount_eq : db.refreshUnreadCount f = db.setUnread f (db.unreadCount f) := rfl

theorem setUnread_setUnread (m n : Nat) : (db.setUnread f m).setUnread f n = db.setUnread f n :=
  updateFolder_updateFolder _ _

theorem refresh_setUnread (n : Nat) :
    (db.setUnread f n).refreshUnreadCount f = db.refreshUnreadCount f :=
  setUnread_setUnread n (db.unreadCount f)

theorem refresh_arrive (hfg : f ≠ g) (n : Nat) :
    (db.arrive g n).refreshUnreadCount f = (db.refreshUnreadCount f).arrive g n :=
  (updateFolder_comm _ _ hfg.symm)

/-- A folder that is recounted and invalidated forgets what has arrived before. -/
theorem refresh_arrive_self (m n : Nat) :
    ((db.arrive f m).refreshUnreadCount f).arrive f n = (db.refreshUnreadCount f).arrive f n := by
  have hrow : ((db.arrive f m).setUnread f (db.unreadCount f)).arrive f n =
      db.updateFolder f (fun r => { r with
        unreadCount := db.unreadCount f + n, messagesUpdatedAt := none }) (fun _ => rfl) := by
    rw [arrive,setUnread,updateFolder_updateFolder,arrive,updateFolder_updateFolder]
  refine hrow.trans ?_
  rw [refreshUnreadCount_eq,setUnread,arrive,updateFolder_updateFolder]

theorem arrive_arrive (m n : Nat) : (db.arrive f m).arrive f n = db.arrive f (m + n) := by
  refine (updateFolder_updateFolder _ _).trans (updateFolder_congr _ _ fun r => ?_)
  simp only [Nat.add_assoc]

theorem adjustUnreadCount_arrive (m n : Nat) :
    (db.arrive f m).adjustUnreadCount f n = db.arrive f (m + n) := by
  refine (updateFolder_updateFolder _ _).trans (updateFolder_congr _ _ fun r => ?_)
  have hn : (((r.unreadCount + m : Nat) : Int) + n).toNat = r.unreadCount + (m + n) := by omega
  simp only [hn]

/-- A handler adjusts the count only where there is something to adjust by. -/
theorem arrive_eq (n : Nat) :
    (if 0 < n then db.adjustUnreadCount f n else db).invalidateFolderFreshness f = db.arrive f n := by
  split
  · refine (updateFolder_updateFolder _ _).trans (updateFolder_congr _ _ fun r => ?_)
    have hn : ((r.unreadCount : Int) + n).toNat = r.unreadCount + n := by omega
    simp only [hn]
  · next h =>
    obtain rfl : n = 0 := Nat.eq_zero_of_not_pos h
    rfl

end Folders

end Db

end Rav
