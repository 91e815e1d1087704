import Rav.Account
import Rav.Routes.Edits
import Mathlib.Data.List.Sort

/-!
# Bulk requests and single ones

A bulk request does what the single ones do, for all messages that are cached, and brings the counters
up to date once. That is the same but where it is asked for messages none of which is cached, and where
messages are moved within a folder.

## Main definitions

- `BulkRequest`, `BulkRequest.perform` — the bulk handlers, with SQLite's limit
- `BulkRequest.single`, `BulkRequest.each` — the single requests they stand for
- `bulk_as_singles` — what they have in common
-/

namespace Rav

inductive BulkRequest
  | updateFlags (folder : String) (uids : List Nat) (flags : List String) (add : Bool)
  | move (source : String) (uids : List Nat) (target : String)
  | delete (folder : String) (uids : List Nat)
  deriving DecidableEq, Repr

namespace BulkRequest

def folder : BulkRequest → String
  | .updateFlags f _ _ _ => f
  | .move f _ _ => f
  | .delete f _ => f

def uids : BulkRequest → List Nat
  | .updateFlags _ us _ _ => us
  | .move _ us _ => us
  | .delete _ us => us

/-- The flags are accepted. -/
def accepted : BulkRequest → Bool
  | .updateFlags _ _ flags _ => flags.all isValidFlag
  | _ => true

/-- The handler, where the server agrees. -/
def handle (db : Db) : BulkRequest → Except AppError (List Nat) × Db
  | .updateFlags f us flags add => bulkUpdateFlags none f us flags add db
  | .move f us g => bulkMoveMessages none f us g db
  | .delete f us => bulkDeleteMessages none f us db

/-- `filter_existing_uids` takes a parameter for each UID and one for the folder; SQLite takes at most
`limit` in one statement, and says `refusal` where there are more; the transaction is rolled back. -/
def perform (limit : Nat) (refusal : String) (db : Db) (req : BulkRequest) :
    Except AppError (List Nat) × Db :=
  if req.accepted && !req.uids.isEmpty && decide (limit < req.uids.length + 1) then
    (.error (.internalError ("Database error: prepare error: " ++ refusal)),db)
  else req.handle db

/-- The request for one of the messages. -/
def single (uid : Nat) : BulkRequest → MessageRequest
  | .updateFlags f _ flags add => .updateFlags f uid flags add
  | .move f _ g => .moveMessage f uid g
  | .delete f _ => .deleteMessage f uid

/-- Single requests one after the other, the server agreeing to each. -/
def each (req : BulkRequest) (us : List Nat) (db : Db) : Db :=
  us.foldl (fun db uid => (req.single uid).cache none db) db

/-- The UIDs that are asked for and cached, each once, in some order. -/
def Enumerates (req : BulkRequest) (db : Db) (us : List Nat) : Prop :=
  us.Nodup ∧ ∀ u, u ∈ us ↔ u ∈ req.uids ∧ (db.message? req.folder u).isSome = true

/-- What is left to do where no message is cached. -/
def closing (db : Db) : BulkRequest → Db
  | .updateFlags f _ _ _ => db.refreshUnreadCount f
  | .move f _ g => (db.refreshUnreadCount f).invalidateFolderFreshness g
  | .delete f _ => db.refreshUnreadCount f

/-- A move within a folder. -/
def within : BulkRequest → Bool
  | .move f _ g => f = g
  | _ => false

/-- How many of these messages are unread. -/
def unreadAmong (req : BulkRequest) (db : Db) (us : List Nat) : Nat :=
  (us.filter (db.wasUnread req.folder)).length

end BulkRequest

/-! ### Loops of single requests -/

section Loops

variable {db : Db} {f g : String} {us : List Nat}

theorem foldl_refresh (act single : Db → Nat → Db)
    (hsingle : ∀ db u, single db u = (act db u).refreshUnreadCount f)
    (hact : ∀ (db : Db) n u, act (db.setUnread f n) u = (act db u).setUnread f n) (us : List Nat)
    (db : Db) : us.foldl single db =
      if us = [] then db else (us.foldl act db).refreshUnreadCount f := by
  induction us using List.reverseRecOn with
  | nil => rfl
  | append_singleton us u ih =>
    rw [List.foldl_append,List.foldl_append,ih,if_neg (List.concat_ne_nil u us)]
    simp only [List.foldl_cons,List.foldl_nil,hsingle]
    split
    · next h =>
      rw [h]
      rfl
    · have h := hact (us.foldl act db) ((us.foldl act db).unreadCount f) u
      rw [← Db.refreshUnreadCount_eq] at h
      rw [h,Db.refresh_setUnread]

theorem wasUnread_deleteAll (u : Nat) : (db.deleteAll f us).wasUnread f u =
    (db.wasUnread f u && !us.contains u) := by
  unfold Db.wasUnread Db.getSingleMessage Db.deleteAll
  rw [Db.message?_deleteMessagesWhere]
  cases h : db.message? f u with
  | none => rfl
  | some r =>
    obtain ⟨-,rfl,rfl⟩ := Db.message?_eq_some.mp h
    by_cases hu : r.uid ∈ us <;> simp [Option.filter,hu]

/-- A single move: the message is deleted, the folder recounted, and the message arrives. -/
theorem cache_moveMessage (u : Nat) : (MessageRequest.moveMessage f u g).cache none db =
    ((db.deleteMessage f u).refreshUnreadCount f).arrive g (if db.wasUnread f u then 1 else 0) := by
  show Db.invalidateFolderFreshness (if db.wasUnread f u then _ else _) g = _
  rw [← Db.arrive_eq]
  cases db.wasUnread f u <;> rfl

theorem deleteMessage_deleteAll (us : List Nat) (u : Nat) :
    (db.deleteAll f us).deleteMessage f u = db.deleteAll f (us ++ [u]) := by
  rw [← Db.foldl_deleteMessage,← Db.foldl_deleteMessage,deleteUids,deleteUids,List.foldl_append]
  rfl

/-- One more single move after a loop of them. -/
theorem cache_moveMessage_after (n : Nat) {u : Nat} (hu : u ∉ us) (h : String) :
    (MessageRequest.moveMessage f u g).cache none (((db.deleteAll f us).refreshUnreadCount f).arrive h n) =
      ((((db.deleteAll f (us ++ [u])).setUnread f ((db.deleteAll f us).unreadCount f)).arrive h
        n).refreshUnreadCount f).arrive g (if db.wasUnread f u then 1 else 0) := by
  have hunread : (((db.deleteAll f us).refreshUnreadCount f).arrive h n).wasUnread f u =
      db.wasUnread f u := by
    have hkept : (db.deleteAll f us).wasUnread f u = db.wasUnread f u := by
      rw [wasUnread_deleteAll]
      simp [hu]
    exact hkept
  rw [cache_moveMessage,hunread,← deleteMessage_deleteAll]
  rfl

/-- What single moves leave of the folder and of another one they lead to. -/
theorem foldl_move (hfg : f ≠ g) (hnd : us.Nodup) (hne : us ≠ []) :
    us.foldl (fun db u => (MessageRequest.moveMessage f u g).cache none db) db =
      ((db.deleteAll f us).refreshUnreadCount f).arrive g (us.filter (db.wasUnread f)).length := by
  induction us using List.reverseRecOn with
  | nil => exact absurd rfl hne
  | append_singleton us u ih =>
    obtain ⟨hnd,-,hu⟩ := List.nodup_append.mp hnd
    have hu : u ∉ us := fun h => hu u h u List.mem_cons_self rfl
    have hcount : ([u].filter (db.wasUnread f)).length = if db.wasUnread f u then 1 else 0 := by
      cases h : db.wasUnread f u <;> simp [h]
    rw [List.foldl_append,List.foldl_cons,List.foldl_nil,List.filter_append,List.length_append,hcount]
    by_cases hnil : us = []
    · subst hnil
      rw [List.foldl_nil,cache_moveMessage,← Db.foldl_deleteMessage]
      simp [deleteUids]
    · rw [ih hnd hnil,cache_moveMessage_after _ hu,Db.refresh_arrive hfg,Db.refresh_setUnread,
        Db.arrive_arrive]

/-- Within a folder each single move counts it anew, and adds no more than its own message. -/
theorem foldl_moveWithin {u : Nat} (hnd : (us ++ [u]).Nodup) :
    (us ++ [u]).foldl (fun db u => (MessageRequest.moveMessage f u f).cache none db) db =
      ((db.deleteAll f (us ++ [u])).refreshUnreadCount f).arrive f (if db.wasUnread f u then 1 else 0) := by
  induction us using List.reverseRecOn generalizing u with
  | nil =>
    rw [List.nil_append,List.foldl_cons,List.foldl_nil,cache_moveMessage,← Db.foldl_deleteMessage]
    rfl
  | append_singleton us v ih =>
    obtain ⟨hnd,-,hu⟩ := List.nodup_append.mp hnd
    have hu : u ∉ us ++ [v] := fun h => hu u h u List.mem_cons_self rfl
    rw [List.foldl_append,List.foldl_cons,List.foldl_nil,ih hnd,cache_moveMessage_after _ hu,
      Db.refresh_arrive_self,Db.refresh_setUnread]

/-! ### Bulk requests -/

theorem deleteAll_congr {xs : List Nat} (h : ∀ u, u ∈ xs ↔ u ∈ us) :
    db.deleteAll f xs = db.deleteAll f us := by
  refine Db.ext_tables rfl rfl rfl rfl rfl rfl rfl (List.filter_congr fun r _ => ?_)
  simp only [List.contains_eq_mem,h]

theorem editAll_congr {xs : List Nat} (flags : List String) (add : Bool) (h : ∀ u, u ∈ xs ↔ u ∈ us) :
    db.editAll f xs flags add = db.editAll f us flags add := by
  refine Db.ext_tables rfl rfl rfl rfl rfl rfl rfl (List.map_congr_left fun r _ => ?_)
  simp only [List.contains_eq_mem,h]

/-- The messages of a bulk move are deleted, and each is counted once if it is unread. -/
theorem foldl_moveOne (xs : List Nat) : xs.foldl (moveOne f) (0,db) =
    ((xs.toFinset.filter (fun u => db.wasUnread f u = true)).card,db.deleteAll f xs) := by
  induction xs using List.reverseRecOn with
  | nil =>
    rw [← Db.foldl_deleteMessage]
    rfl
  | append_singleton xs u ih =>
    rw [List.foldl_append,ih,List.foldl_cons,List.foldl_nil,moveOne,deleteMessage_deleteAll,
      wasUnread_deleteAll]
    refine Prod.ext ?_ rfl
    have hset : (xs ++ [u]).toFinset = insert u xs.toFinset := by
      ext v
      simp
    rw [hset,Finset.filter_insert]
    by_cases hu : u ∈ xs
    · cases h : db.wasUnread f u <;> simp [hu,h]
    · cases h : db.wasUnread f u <;> simp [hu]

theorem mem_foundUids {u : Nat} {xs : List Nat} :
    u ∈ db.foundUids f xs ↔ u ∈ xs ∧ (db.message? f u).isSome = true := by
  simp only [Db.foundUids,Db.filterExistingUids,List.mem_filter,List.contains_iff_mem]
  tauto

theorem failedUids_spec (xs : List Nat) : (db.failedUids f xs).Pairwise (· ≤ ·) ∧
    (db.failedUids f xs).Perm (xs.filter (fun u => (db.message? f u).isNone)) := by
  refine ⟨List.pairwise_insertionSort _ _,(List.perm_insertionSort _ _).trans (List.Perm.of_eq ?_)⟩
  refine List.filter_congr fun u hu => ?_
  rw [Db.filterExistingUids,List.contains_eq_mem]
  cases h : db.message? f u <;> simp [hu,h]

end Loops

namespace BulkRequest

variable {req : BulkRequest} {db : Db} {us : List Nat}

/-- The messages of these UIDs are changed, and the counters brought up to date, `n` messages having
arrived. -/
def effect (db : Db) (us : List Nat) (n : Nat) : BulkRequest → Db
  | .updateFlags f _ flags add => (db.editAll f us flags add).refreshUnreadCount f
  | .move f _ g => ((db.deleteAll f us).refreshUnreadCount f).arrive g n
  | .delete f _ => (db.deleteAll f us).refreshUnreadCount f

theorem Enumerates.mem_foundUids (h : req.Enumerates db us) (u : Nat) :
    u ∈ db.foundUids req.folder req.uids ↔ u ∈ us := by
  rw [Rav.mem_foundUids,h.2]

theorem Enumerates.card_unread (h : req.Enumerates db us) :
    ((db.foundUids req.folder req.uids).toFinset.filter
      (fun u => db.wasUnread req.folder u = true)).card = req.unreadAmong db us := by
  have hset : (db.foundUids req.folder req.uids).toFinset = us.toFinset := by
    ext u
    rw [List.mem_toFinset,List.mem_toFinset,h.mem_foundUids]
  rw [hset,unreadAmong,← List.toFinset_filter,
    List.toFinset_card_of_nodup (h.1.sublist List.filter_sublist)]

theorem handle_eq (hus : req.Enumerates db us) (hok : req.accepted = true) (hne : req.uids ≠ []) :
    req.handle db = (.ok (db.failedUids req.folder req.uids),req.effect db us (req.unreadAmong db us)) := by
  have hempty : ¬req.uids.isEmpty = true := fun h => hne (List.isEmpty_iff.mp h)
  cases req with
  | updateFlags f xs flags add =>
    have hvalid : validateFlags flags = .ok () := if_pos hok
    simp only [handle,bulkUpdateFlags,hvalid]
    refine (if_neg hempty).trans (Prod.ext rfl ?_)
    show (List.foldl _ db (db.foundUids f xs)).refreshUnreadCount f = _
    have hmem : ∀ u, u ∈ db.foundUids f xs ↔ u ∈ us := hus.mem_foundUids
    rw [Db.foldl_editMessageFlags (List.all_eq_true.mp hok),editAll_congr flags add hmem]
    rfl
  | move f xs g =>
    simp only [handle,bulkMoveMessages,afterServer]
    refine (if_neg hempty).trans (Prod.ext rfl ?_)
    have hmem : ∀ u, u ∈ db.foundUids f xs ↔ u ∈ us := hus.mem_foundUids
    have hcard : ((db.foundUids f xs).toFinset.filter (fun u => db.wasUnread f u = true)).card =
        (move f xs g).unreadAmong db us := hus.card_unread
    rw [foldl_moveOne,hcard,deleteAll_congr hmem,Db.arrive_eq]
    rfl
  | delete f xs =>
    simp only [handle,bulkDeleteMessages]
    refine (if_neg hempty).trans (Prod.ext rfl ?_)
    show (deleteUids f (db.foundUids f xs) db).refreshUnreadCount f = _
    have hmem : ∀ u, u ∈ db.foundUids f xs ↔ u ∈ us := hus.mem_foundUids
    rw [Db.foldl_deleteMessage,deleteAll_congr hmem]
    rfl

theorem each_eq (hnd : us.Nodup) (hok : req.accepted = true) (hne : us ≠ [])
    (hwithin : req.within = false) : req.each us db = req.effect db us (req.unreadAmong db us) := by
  cases req with
  | updateFlags f xs flags add =>
    have hvalid : validateFlags flags = .ok () := if_pos hok
    have h := foldl_refresh (f := f) (fun db uid => db.editMessageFlags f uid flags add)
      (fun db uid => (MessageRequest.updateFlags f uid flags add).cache none db)
      (fun db u => by
        show (Rav.updateFlags none f u flags add db).2 = _
        rw [Rav.updateFlags,hvalid]
        rfl) (fun db n u => rfl) us db
    rw [if_neg hne,Db.foldl_editMessageFlags (List.all_eq_true.mp hok)] at h
    exact h
  | move f xs g => exact foldl_move (of_decide_eq_false hwithin) hnd hne
  | delete f xs =>
    have h := foldl_refresh (f := f) (fun db uid => db.deleteMessage f uid)
      (fun db uid => (MessageRequest.deleteMessage f uid).cache none db)
      (fun db u => rfl) (fun db n u => rfl) us db
    rw [if_neg hne] at h
    exact h.trans (congrArg (fun d => d.refreshUnreadCount f) (Db.foldl_deleteMessage f us db))

theorem each_within {before : List Nat} {last : Nat} (hnd : (before ++ [last]).Nodup)
    (hwithin : req.within = true) : req.each (before ++ [last]) db =
      req.effect db (before ++ [last]) (req.unreadAmong db [last]) := by
  cases req with
  | updateFlags f xs flags add => exact absurd hwithin Bool.false_ne_true
  | move f xs g =>
    obtain rfl : f = g := of_decide_eq_true hwithin
    have hcount : (move f xs f).unreadAmong db [last] = if db.wasUnread f last then 1 else 0 := by
      unfold unreadAmong folder
      cases h : db.wasUnread f last <;> simp [h]
    rw [hcount]
    exact foldl_moveWithin hnd
  | delete f xs => exact absurd hwithin Bool.false_ne_true

/-- Nothing is asked for, or the flags are not accepted. -/
theorem handle_of_refused (h : req.uids = [] ∨ req.accepted = false) : (req.handle db).2 = db := by
  cases req with
  | updateFlags f xs flags add =>
    simp only [handle,bulkUpdateFlags]
    cases hv : validateFlags flags with
    | error e => rfl
    | ok a =>
      have hok : flags.all isValidFlag = true := by
        by_contra hno
        rw [validateFlags,if_neg hno] at hv
        simp at hv
      have hxs : xs = [] := h.resolve_right (fun hno => Bool.false_ne_true (hno.symm.trans hok))
      rw [hxs]
      rfl
  | move f xs g =>
    obtain rfl : xs = [] := h.resolve_right (fun hno => Bool.false_ne_true hno.symm)
    rfl
  | delete f xs =>
    obtain rfl : xs = [] := h.resolve_right (fun hno => Bool.false_ne_true hno.symm)
    rfl

theorem handle_of_nil (hok : req.accepted = true) (h : req.uids = []) :
    (req.handle db).1 = .ok [] := by
  cases req with
  | updateFlags f xs flags add =>
    obtain rfl : xs = [] := h
    have hvalid : validateFlags flags = .ok () := if_pos hok
    simp only [handle,bulkUpdateFlags,hvalid]
    rfl
  | move f xs g =>
    obtain rfl : xs = [] := h
    rfl
  | delete f xs =>
    obtain rfl : xs = [] := h
    rfl

theorem effect_nil (req : BulkRequest) (db : Db) : req.effect db [] 0 = req.closing db := by
  have hdelete : ∀ f, db.deleteAll f [] = db := fun f => (Db.foldl_deleteMessage f [] db).symm
  cases req with
  | updateFlags f xs flags add =>
    have hedit : db.editAll f [] flags add = db := by
      refine Db.ext_tables rfl rfl rfl rfl rfl rfl rfl ?_
      refine (List.map_congr_left fun r _ => ?_).trans (List.map_id _)
      simp
    simp only [effect,closing,hedit]
  | move f xs g =>
    simp only [effect,closing,hdelete]
    rfl
  | delete f xs => simp only [effect,closing,hdelete]

theorem accepted_of_within (h : req.within = true) : req.accepted = true := by
  cases req with
  | updateFlags f xs flags add => exact absurd h Bool.false_ne_true
  | move f xs g => rfl
  | delete f xs => rfl

theorem adjustUnreadCount_effect (hwithin : req.within = true) (us : List Nat) (m n : Nat) :
    (req.effect db us m).adjustUnreadCount req.folder n = req.effect db us (m + n) := by
  cases req with
  | updateFlags f xs flags add => exact absurd hwithin Bool.false_ne_true
  | move f xs g =>
    obtain rfl : f = g := of_decide_eq_true hwithin
    exact Db.adjustUnreadCount_arrive m n
  | delete f xs => exact absurd hwithin Bool.false_ne_true

theorem each_of_refused (h : req.accepted = false) : req.each us db = db := by
  cases req with
  | updateFlags f xs flags add =>
    have hinvalid : validateFlags flags = .error (.badRequest "invalid flag") :=
      if_neg (Bool.eq_false_iff.mp h)
    induction us with
    | nil => rfl
    | cons u us ih =>
      have hstep : (MessageRequest.updateFlags f u flags add).cache none db = db := by
        show (Rav.updateFlags none f u flags add db).2 = db
        rw [Rav.updateFlags,hinvalid]
      exact (congrArg (fun d => List.foldl _ d us) hstep).trans ih
  | move f xs g => exact absurd h.symm Bool.false_ne_true
  | delete f xs => exact absurd h.symm Bool.false_ne_true

end BulkRequest

open BulkRequest in
/-- A bulk request that SQLite takes lists the UIDs that are not cached. Unless it moves messages within a
folder it leaves what the single requests for the cached ones leave, in whatever order. Within a folder the
count is higher by the unread messages before the last, each of which the recount after it has forgotten.
Where none of the messages is cached, the folder is recounted and the target of a move invalidated. -/
theorem bulk_as_singles {limit : Nat} {refusal : String} {req : BulkRequest} {db : Db} {us : List Nat}
    (hus : req.Enumerates db us) (hlimit : req.uids.length < limit) :
    (req.accepted = true → ∃ failed, (req.perform limit refusal db).1 = .ok failed ∧
        failed.Pairwise (· ≤ ·) ∧
        failed.Perm (req.uids.filter (fun u => (db.message? req.folder u).isNone))) ∧
      (req.within = false ∨ us = [] → us ≠ [] ∨ req.uids = [] ∨ req.accepted = false →
        (req.perform limit refusal db).2 = req.each us db) ∧
      (req.within = true → ∀ before last, us = before ++ [last] →
        (req.perform limit refusal db).2 =
          (req.each us db).adjustUnreadCount req.folder (req.unreadAmong db before)) ∧
      (us = [] → req.uids ≠ [] → req.accepted = true →
        (req.perform limit refusal db).2 = req.closing db) := by
  have hperform : req.perform limit refusal db = req.handle db := by
    have hfits : decide (limit < req.uids.length + 1) = false := decide_eq_false (by omega)
    rw [perform,hfits,Bool.and_false,if_neg Bool.false_ne_true]
  have hsome : us ≠ [] → req.uids ≠ [] := by
    rintro hne hnil
    obtain ⟨u,us,rfl⟩ := List.exists_cons_of_ne_nil hne
    exact absurd ((hus.2 u).mp List.mem_cons_self).1 (hnil ▸ List.not_mem_nil)
  rw [hperform]
  refine ⟨fun hok => ?_,fun hwithin hcase => ?_,fun hwithin before last hlast => ?_,fun hnil hne hok => ?_⟩
  · by_cases hne : req.uids = []
    · refine ⟨[],handle_of_nil hok hne,List.Pairwise.nil,?_⟩
      rw [hne]
      exact List.Perm.refl _
    · rw [handle_eq hus hok hne]
      exact ⟨_,rfl,failedUids_spec _⟩
  · by_cases hok : req.accepted = true
    · by_cases hne : us = []
      · have hnil : req.uids = [] := by
          rcases hcase with h | h | h
          exacts [absurd hne h,h,absurd (h.symm.trans hok) Bool.false_ne_true]
        rw [hne,handle_of_refused (Or.inl hnil)]
        rfl
      · rw [handle_eq hus hok (hsome hne),each_eq hus.1 hok hne (hwithin.resolve_right hne)]
    · have hrefused : req.accepted = false := Bool.eq_false_iff.mpr hok
      rw [handle_of_refused (Or.inr hrefused),each_of_refused hrefused]
  · subst hlast
    have hne : before ++ [last] ≠ [] := List.concat_ne_nil last before
    have hcount : req.unreadAmong db (before ++ [last]) =
        req.unreadAmong db [last] + req.unreadAmong db before := by
      simp only [unreadAmong,List.filter_append,List.length_append,Nat.add_comm]
    rw [handle_eq hus (accepted_of_within hwithin) (hsome hne),each_within hus.1 hwithin,
      adjustUnreadCount_effect hwithin,hcount]
  · rw [handle_eq hus hok hne,hnil]
    exact effect_nil req db

/-- A folder of two unread messages. -/
def twoUnread : Db :=
  let db := Db.empty.insertFolderIfNew "INBOX" none ""
  ((db.upsertHeader "INBOX" { plainHeader with uid := 1 }).bind
    (fun db => db.upsertHeader "INBOX" { plainHeader with uid := 2 })).getD db

theorem enumerates_twoUnread (target : String) :
    (BulkRequest.move "INBOX" [2,1,2,7] target).Enumerates twoUnread [1,2] := by
  refine ⟨by decide,fun u => ⟨fun hu => ?_,fun hu => ?_⟩⟩
  · have hall : ∀ u ∈ [1,2], u ∈ [2,1,2,7] ∧ (twoUnread.message? "INBOX" u).isSome = true := by decide
    exact hall u hu
  · have hall : ∀ u ∈ [2,1,2,7], (twoUnread.message? "INBOX" u).isSome = true → u ∈ [1,2] := by decide
    exact hall u hu.1 hu.2

/-- Both are moved, one asked for twice, with a message that is not cached. -/
theorem bulk_as_singles_twoUnread :
    ((BulkRequest.move "INBOX" [2,1,2,7] "Archive").perform 32766 "" twoUnread).2 =
      (BulkRequest.move "INBOX" [2,1,2,7] "Archive").each [1,2] twoUnread :=
  (bulk_as_singles (enumerates_twoUnread "Archive") (by decide)).2.1 (Or.inl (by decide))
    (Or.inl (List.cons_ne_nil _ _))

/-- Within the folder the single moves forget the first. -/
theorem single_moves_forget :
    (BulkRequest.move "INBOX" [2,1,2,7] "INBOX").Enumerates twoUnread [1,2] ∧
      ((BulkRequest.move "INBOX" [2,1,2,7] "INBOX").perform 32766 "" twoUnread).2 ≠
        (BulkRequest.move "INBOX" [2,1,2,7] "INBOX").each [1,2] twoUnread := by
  refine ⟨enumerates_twoUnread "INBOX",fun h => ?_⟩
  have hcount := congrArg (fun db : Db => (db.folder? "INBOX").map CachedFolder.unreadCount) h
  exact absurd hcount (by decide)

end Rav
