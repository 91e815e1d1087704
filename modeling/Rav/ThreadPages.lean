import Rav.Db.ThreadList

/-!
# Pages of threads

The pages of a folder's threads, and of a tag's messages. They are what they should be while the offset
of a page does not wrap around into the list, and no thread id is the number of a message without one.

## Main definitions

- `ThreadName`, `CachedMessage.thread` — the threads of a folder
- `Listing`, `PagesThreads`, `PagesTag` — lists of all threads, and pages of such a list
- `OffsetsFit`, `Pageable` — when the pages are right
- `pages_iff` — they are right just then
-/

namespace Rav

/-- A thread: the messages with one thread id, or a single message without one. -/
inductive ThreadName
  | id (threadId : String)
  | single (uid : Nat)
  deriving DecidableEq

def CachedMessage.thread (m : CachedMessage) : ThreadName :=
  match m.threadId with
  | some t => .id t
  | none => .single m.uid

def ThreadName.key : ThreadName → String
  | .id t => t
  | .single uid => toString uid

/-- A thread is listed once, by its latest message, with the numbers of its messages and of the unread
ones; the threads are in the order of their latest messages. -/
structure Listing (rows : List CachedMessage) (threads : List ThreadedMessage) : Prop where
  nodup : (threads.map (fun t => t.msg.thread)).Nodup
  complete : ∀ k, k ∈ threads.map (fun t => t.msg.thread) ↔ k ∈ rows.map CachedMessage.thread
  latest : ∀ t ∈ threads, t.msg ∈ rows ∧ ∀ r ∈ rows, r.thread = t.msg.thread → r.rank ≤ t.msg.rank
  counted : ∀ t ∈ threads,
    t.threadCount = (rows.filter (fun r => r.thread = t.msg.thread)).length ∧
      t.unreadCount = ((rows.filter (fun r => r.thread = t.msg.thread)).filter CachedMessage.unread).length
  sorted : threads.Pairwise (fun s t => t.msg.rank < s.msg.rank)

/-- The pages of a folder part the list of its threads, and the number of threads is theirs. -/
def PagesThreads (c : Cache) (folder : String) (perPage : UInt32) : Prop :=
  ∃ threads, Listing (c.folderRows folder) threads ∧
    (∀ page : UInt32,
      c.getThreadedMessages folder page perPage = some (slice page.toNat perPage.toNat threads)) ∧
    (∀ t ∈ threads, ∃ page l, c.getThreadedMessages folder page perPage = some l ∧ t ∈ l) ∧
    c.countThreads folder = some threads.length

/-- The pages of a tag part the list of the messages with the tag, and the number of them is theirs. -/
def PagesTag (c : Cache) (tagId : String) (perPage : UInt32) : Prop :=
  (c.tagList tagId).Nodup ∧
    (∀ m, m ∈ c.tagList tagId ↔ m ∈ c.rows.messages.map StoredMessage.header ∧
      ∃ t ∈ c.rows.messageTags, t.tagId = tagId ∧ t.message = m.key) ∧
    (c.tagList tagId).Pairwise (fun r s => s.dateEpoch ≤ r.dateEpoch) ∧
    (∀ page : UInt32,
      c.getMessagesByTag tagId page perPage = slice page.toNat perPage.toNat (c.tagList tagId)) ∧
    (∀ m ∈ c.tagList tagId, ∃ page, m ∈ c.getMessagesByTag tagId page perPage) ∧
    c.countMessagesByTag tagId = some (c.tagList tagId).length

/-- A list of `n` is within what pages of this size can be numbered: no offset wraps around into the
list, and the pages are not empty unless the list is. -/
structure OffsetsFit (perPage : UInt32) (n : Nat) : Prop where
  few : n < 4294967296
  size : 0 < perPage.toNat ∨ n = 0
  wraps : ∀ page : UInt32, 4294967296 ≤ page.toNat * perPage.toNat →
    n ≤ page.toNat * perPage.toNat % 4294967296

/-- No thread id is the number of a message without one, and the threads can be counted. -/
structure Pageable (rows : List CachedMessage) (perPage : UInt32) : Prop where
  fit : OffsetsFit perPage (rows.map CachedMessage.thread).dedup.length
  distinct : ∀ m ∈ rows, ∀ n ∈ rows, m.threadId = none → n.threadId ≠ some (toString m.uid)
  small : ∀ m ∈ rows, (rows.filter (fun r => r.thread = m.thread)).length < 4294967296

/-! ### Offsets -/

section Offsets

variable {α : Type} {l : List α} {perPage : UInt32}

/-- The page of a query with its offset in 32 bits. -/
theorem drop_offset (l : List α) (page perPage : UInt32) :
    (l.drop (page * perPage).toNat).take perPage.toNat =
      wrappedSlice 4294967296 page.toNat perPage.toNat l := by
  rw [wrappedSlice, UInt32.toNat_mul]

theorem forall_page_iff {p : Nat → Prop} :
    (∀ page : UInt32, p page.toNat) ↔ ∀ page < 4294967296, p page := by
  constructor
  · intro h page hpage
    have hp := h (UInt32.ofNat page)
    rwa [UInt32.toNat_ofNat_of_lt' hpage] at hp
  · exact fun h page => h page.toNat page.toNat_lt

theorem wraps_iff (hl : l.length < 4294967296) :
    (∀ page : UInt32, wrappedSlice 4294967296 page.toNat perPage.toNat l =
      slice page.toNat perPage.toNat l) ↔
    ∀ page : UInt32, 4294967296 ≤ page.toNat * perPage.toNat →
      l.length ≤ page.toNat * perPage.toNat % 4294967296 := by
  have hpages : (∀ page < 4294967296, wrappedSlice 4294967296 page perPage.toNat l =
      slice page perPage.toNat l) ↔ _ := forall_wrappedSlice_iff hl.le
  have hslice := forall_page_iff (p := fun page => wrappedSlice 4294967296 page perPage.toNat l =
    slice page perPage.toNat l)
  have hwraps := forall_page_iff (p := fun page => 4294967296 ≤ page * perPage.toNat →
    l.length ≤ page * perPage.toNat % 4294967296)
  exact hslice.trans (hpages.trans hwraps.symm)

theorem page_size_iff (hl : l.length < 4294967296) :
    (∀ x ∈ l, ∃ page : UInt32, x ∈ slice page.toNat perPage.toNat l) ↔
      0 < perPage.toNat ∨ l.length = 0 := by
  constructor
  · intro h
    rcases Nat.eq_zero_or_pos perPage.toNat with hzero | hpos
    · right
      rw [List.length_eq_zero_iff, List.eq_nil_iff_forall_not_mem]
      intro x hx
      obtain ⟨page,hmem⟩ := h x hx
      rw [hzero, slice_zero] at hmem
      exact List.not_mem_nil hmem
    · exact Or.inl hpos
  · intro h x hx
    have hpos : 0 < perPage.toNat := by
      refine h.resolve_right fun hzero => ?_
      rw [List.length_eq_zero_iff.mp hzero] at hx
      exact List.not_mem_nil hx
    obtain ⟨page,hpage,hmem⟩ := exists_mem_slice hl.le hpos hx
    refine ⟨UInt32.ofNat page,?_⟩
    rwa [UInt32.toNat_ofNat_of_lt' hpage]

/-- The pages are those of the list, and every element is on one, if and only if the list fits. -/
theorem offsetsFit_iff (hl : l.length < 4294967296) : OffsetsFit perPage l.length ↔
    (∀ page : UInt32, wrappedSlice 4294967296 page.toNat perPage.toNat l =
      slice page.toNat perPage.toNat l) ∧
    ∀ x ∈ l, ∃ page : UInt32, x ∈ slice page.toNat perPage.toNat l := by
  rw [wraps_iff hl, page_size_iff hl]
  exact ⟨fun h => ⟨h.wraps,h.size⟩,fun h => ⟨hl,h.2,h.1⟩⟩

theorem asU32_eq_some {n k : Nat} : asU32 n = some k ↔ n < 4294967296 ∧ k = n := by
  unfold asU32
  split
  · next h => exact ⟨fun heq => ⟨h,(Option.some.inj heq).symm⟩,fun heq => congrArg some heq.2.symm⟩
  · next h => exact iff_of_false nofun fun heq => h heq.1

end Offsets

/-! ### Tags -/

section Tags

variable {c : Cache} {tagId : String}

theorem key_of_taggedMessage {t : MessageTagRow} {m : CachedMessage} (h : c.taggedMessage t = some m) :
    m.key = t.message := by
  have hfound := List.find?_some h
  exact of_decide_eq_true hfound

/-- Every tag is on a message. -/
theorem exists_taggedMessage {t : MessageTagRow} (ht : t ∈ c.rows.messageTags) :
    ∃ m, c.taggedMessage t = some m := by
  obtain ⟨m,hm,hkey⟩ := c.fk.message t ht
  refine Option.isSome_iff_exists.mp (List.find?_isSome.mpr ?_)
  exact ⟨m.header,List.mem_map_of_mem hm,decide_eq_true hkey⟩

/-- The messages of some tags, one for each tag. -/
theorem map_key_messages {ts : List MessageTagRow} (hts : ∀ t ∈ ts, t ∈ c.rows.messageTags) :
    (ts.filterMap c.taggedMessage).map CachedMessage.key = ts.map MessageTagRow.message := by
  induction ts with
  | nil => rfl
  | cons t ts ih =>
    obtain ⟨ht,hts⟩ := List.forall_mem_cons.mp hts
    obtain ⟨m,hm⟩ := exists_taggedMessage ht
    rw [List.filterMap_cons_some hm, List.map_cons, List.map_cons, key_of_taggedMessage hm, ih hts]

theorem perm_map_key_tagList : ((c.tagList tagId).map CachedMessage.key).Perm
    ((c.rows.messageTags.filter (fun t => t.tagId = tagId)).map MessageTagRow.message) := by
  have hkeys : ((c.rows.messageTags.filter (fun t => t.tagId = tagId)).filterMap c.taggedMessage).map
      CachedMessage.key = _ := map_key_messages fun t ht => (List.mem_filter.mp ht).1
  rw [← hkeys]
  exact (List.perm_insertionSort _ _).map _

theorem length_tagList :
    (c.tagList tagId).length = (c.rows.messageTags.filter (fun t => t.tagId = tagId)).length := by
  have hlength : ((c.tagList tagId).map CachedMessage.key).length = _ := perm_map_key_tagList.length_eq
  rwa [List.length_map, List.length_map] at hlength

theorem nodup_tagList : (c.tagList tagId).Nodup := by
  refine List.Nodup.of_map CachedMessage.key (perm_map_key_tagList.nodup_iff.mpr ?_)
  refine List.Nodup.of_map (Prod.mk tagId) ?_
  have hkeys : ((c.rows.messageTags.filter (fun t => t.tagId = tagId)).map MessageTagRow.message).map
      (Prod.mk tagId) = (c.rows.messageTags.filter (fun t => t.tagId = tagId)).map MessageTagRow.key := by
    rw [List.map_map]
    refine List.map_congr_left fun t ht => ?_
    have htag : t.tagId = tagId := of_decide_eq_true (List.mem_filter.mp ht).2
    exact Prod.ext htag.symm rfl
  rw [hkeys]
  exact c.unique.messageTags.sublist (List.filter_sublist.map _)

theorem mem_tagList {m : CachedMessage} :
    m ∈ c.tagList tagId ↔ m ∈ c.rows.messages.map StoredMessage.header ∧
      ∃ t ∈ c.rows.messageTags, t.tagId = tagId ∧ t.message = m.key := by
  rw [Cache.tagList, List.mem_insertionSort, List.mem_filterMap]
  constructor
  · rintro ⟨t,ht,hm⟩
    obtain ⟨ht,htag⟩ := List.mem_filter.mp ht
    exact ⟨List.mem_of_find?_eq_some hm,t,ht,of_decide_eq_true htag,(key_of_taggedMessage hm).symm⟩
  · rintro ⟨hm,t,ht,htag,hkey⟩
    obtain ⟨n,hn⟩ := exists_taggedMessage ht
    have heq : n = m := List.inj_on_of_nodup_map c.nodup_headerKeys (List.mem_of_find?_eq_some hn) hm
      ((key_of_taggedMessage hn).trans hkey)
    exact ⟨t,List.mem_filter.mpr ⟨ht,decide_eq_true htag⟩,heq ▸ hn⟩

/-- The pages of a tag are right if and only if the tags fit. -/
theorem pagesTag_iff (perPage : UInt32) : PagesTag c tagId perPage ↔
    OffsetsFit perPage (c.rows.messageTags.filter (fun t => t.tagId = tagId)).length := by
  have hpage : ∀ page : UInt32, c.getMessagesByTag tagId page perPage =
      wrappedSlice 4294967296 page.toNat perPage.toNat (c.tagList tagId) :=
    fun page => drop_offset _ page perPage
  have hcount : c.countMessagesByTag tagId = asU32 (c.tagList tagId).length := by
    rw [length_tagList]
    rfl
  unfold PagesTag
  simp only [hpage, hcount]
  rw [← length_tagList]
  constructor
  · rintro ⟨-,-,-,hslice,hcover,hlen⟩
    refine (offsetsFit_iff (asU32_eq_some.mp hlen).1).mpr ⟨hslice,fun m hm => ?_⟩
    obtain ⟨page,hmem⟩ := hcover m hm
    exact ⟨page,hslice page ▸ hmem⟩
  · intro hfit
    obtain ⟨hslice,hcover⟩ := (offsetsFit_iff hfit.few).mp hfit
    refine ⟨nodup_tagList,fun _ => mem_tagList,List.pairwise_insertionSort _ _,hslice,fun m hm => ?_,
      asU32_eq_some.mpr ⟨hfit.few,rfl⟩⟩
    obtain ⟨page,hmem⟩ := hcover m hm
    exact ⟨page,hslice page ▸ hmem⟩

end Tags

/-! ### Threads -/

section Threads

variable {c : Cache} {folder : String} {rows : List CachedMessage} {r : CachedMessage}

theorem threadKey_eq (m : CachedMessage) : m.threadKey = m.thread.key := by
  unfold CachedMessage.threadKey CachedMessage.thread
  cases m.threadId with
  | none => rfl
  | some t => rfl

theorem nodup_folderRows : (c.folderRows folder).Nodup :=
  (List.Nodup.of_map _ c.nodup_headerKeys).filter _

/-- In a folder no two messages are of one rank: they have different UIDs. -/
theorem rank_inj : ∀ r ∈ c.folderRows folder, ∀ s ∈ c.folderRows folder, r.rank = s.rank → r = s := by
  intro r hr s hs heq
  obtain ⟨hr,hrf⟩ := List.mem_filter.mp hr
  obtain ⟨hs,hsf⟩ := List.mem_filter.mp hs
  have huid : r.uid = s.uid := (Prod.mk.inj (toLex.injective heq)).2
  refine List.inj_on_of_nodup_map c.nodup_headerKeys hr hs (Prod.ext huid ?_)
  exact (of_decide_eq_true hrf).trans (of_decide_eq_true hsf).symm

/-- The first row of a partition is its latest message. -/
theorem rowNumber_eq_one : rowNumber rows r = 1 ↔
    ∀ s ∈ rows, s.threadKey = r.threadKey → s.rank ≤ r.rank := by
  unfold rowNumber threadPartition
  rw [Nat.add_eq_right, List.length_eq_zero_iff, List.filter_eq_nil_iff]
  simp only [List.mem_filter, decide_eq_true_eq, not_lt, and_imp]

theorem filter_rowNumber (rows : List CachedMessage) :
    rows.filter (fun s => rowNumber rows s = 1) =
      heads CachedMessage.threadKey CachedMessage.rank rows :=
  List.filter_congr fun _ _ => decide_eq_decide.mpr rowNumber_eq_one

/-- A first row has the latest date of its thread. -/
theorem threadRank_eq (h : r ∈ heads CachedMessage.threadKey CachedMessage.rank rows) :
    threadRank rows r = r.rank := by
  have hlatest : ∀ s ∈ threadPartition rows r, s.dateEpoch ≤ r.dateEpoch := by
    intro s hs
    obtain ⟨hs,hkey⟩ := List.mem_filter.mp hs
    have hle := Prod.Lex.toLex_le_toLex.mp ((mem_heads.mp h).2 s hs (of_decide_eq_true hkey))
    exact hle.elim le_of_lt fun heq => heq.1.le
  have hmax : threadLatestEpoch rows r = r.dateEpoch := by
    unfold threadLatestEpoch
    generalize threadPartition rows r = l at hlatest
    induction l with
    | nil => rfl
    | cons s l ih =>
      obtain ⟨hs,hl⟩ := List.forall_mem_cons.mp hlatest
      rw [List.foldr_cons, ih hl, max_eq_right hs]
  rw [threadRank, hmax]
  rfl

/-- The messages that stand for the threads, in order. -/
def threadHeads (rows : List CachedMessage) : List CachedMessage :=
  (heads CachedMessage.threadKey CachedMessage.rank rows).insertionSort (fun r s => s.rank ≤ r.rank)

theorem threadList_eq : c.threadList folder =
    (threadHeads (c.folderRows folder)).map (threadedMessage (c.folderRows folder)) := by
  unfold Cache.threadList threadHeads
  dsimp only
  rw [filter_rowNumber]
  congr 1
  have hsort := List.map_insertionSort
    (fun r s => threadRank (c.folderRows folder) s ≤ threadRank (c.folderRows folder) r)
    (fun r s => CachedMessage.rank s ≤ CachedMessage.rank r) id
    (heads CachedMessage.threadKey CachedMessage.rank (c.folderRows folder)) fun r hr s hs => by
      rw [threadRank_eq hr, threadRank_eq hs]
      rfl
  rwa [List.map_id, List.map_id] at hsort

theorem mem_threadHeads : r ∈ threadHeads rows ↔
    r ∈ rows ∧ ∀ s ∈ rows, s.threadKey = r.threadKey → s.rank ≤ r.rank := by
  rw [threadHeads, List.mem_insertionSort, mem_heads]

theorem length_threadList :
    (c.threadList folder).length = ((c.folderRows folder).map CachedMessage.threadKey).dedup.length := by
  rw [threadList_eq, List.length_map, threadHeads, List.length_insertionSort,
    ← List.length_map CachedMessage.threadKey]
  exact length_eq_dedup (nodup_map_heads nodup_folderRows rank_inj) fun k => mem_map_heads

/-- The first rows are in order, and no two of them are alike. -/
theorem pairwise_threadHeads :
    (threadHeads (c.folderRows folder)).Pairwise (fun r s => s.rank < r.rank) := by
  have hsorted : (threadHeads (c.folderRows folder)).Pairwise (fun r s => s.rank ≤ r.rank) :=
    List.pairwise_insertionSort _ _
  have hnodup : (threadHeads (c.folderRows folder)).Nodup :=
    (List.perm_insertionSort _ _).nodup_iff.mpr (nodup_folderRows.filter _)
  refine (hsorted.and hnodup).imp_of_mem fun {r s} hr hs h => lt_of_le_of_ne h.1 fun heq => ?_
  exact h.2 (rank_inj r (mem_threadHeads.mp hr).1 s (mem_threadHeads.mp hs).1 heq.symm)

theorem toString_injective {m n : Nat} (h : toString m = toString n) : m = n := by
  have hchars : Nat.toDigits 10 m = Nat.toDigits 10 n := String.ofList_inj.mp h
  have hvalue := congrArg (fun l => Nat.ofDigitChars 10 l 0) hchars
  rwa [Nat.ofDigitChars_toDigits (by decide) (by decide),
    Nat.ofDigitChars_toDigits (by decide) (by decide)] at hvalue

/-- Messages of one column value are of one thread unless a thread id is the number of a message. -/
theorem distinct_iff :
    (∀ m ∈ rows, ∀ n ∈ rows, m.threadId = none → n.threadId ≠ some (toString m.uid)) ↔
      ∀ r ∈ rows, ∀ s ∈ rows, r.threadKey = s.threadKey → r.thread = s.thread := by
  constructor
  · intro h r hr s hs heq
    unfold CachedMessage.threadKey at heq
    unfold CachedMessage.thread
    cases hrt : r.threadId with
    | none =>
      cases hst : s.threadId with
      | none =>
        rw [hrt, hst] at heq
        exact congrArg ThreadName.single (toString_injective heq)
      | some t =>
        rw [hrt, hst] at heq
        exact absurd (hst.trans (congrArg some heq.symm)) (h r hr s hs hrt)
    | some u =>
      cases hst : s.threadId with
      | none =>
        rw [hrt, hst] at heq
        exact absurd (hrt.trans (congrArg some heq)) (h s hs r hr hst)
      | some t =>
        rw [hrt, hst] at heq
        exact congrArg ThreadName.id heq
  · intro h m hm n hn hnone hsome
    have hkey : m.threadKey = n.threadKey := by
      unfold CachedMessage.threadKey
      rw [hnone, hsome]
      rfl
    have heq := h m hm n hn hkey
    unfold CachedMessage.thread at heq
    rw [hnone, hsome] at heq
    exact ThreadName.noConfusion heq

/-- So many threads are counted, unless some of them are taken for one. -/
theorem length_dedup_threadKey :
    (rows.map CachedMessage.threadKey).dedup.length = (rows.map CachedMessage.thread).dedup.length ↔
      ∀ m ∈ rows, ∀ n ∈ rows, m.threadId = none → n.threadId ≠ some (toString m.uid) := by
  have hkey : CachedMessage.threadKey = ThreadName.key ∘ CachedMessage.thread := funext threadKey_eq
  rw [distinct_iff, hkey]
  exact length_dedup_eq_iff

/-- A list of as many threads as there are. -/
theorem Listing.length_eq {threads : List ThreadedMessage} (h : Listing rows threads) :
    threads.length = (rows.map CachedMessage.thread).dedup.length := by
  rw [← List.length_map (fun t : ThreadedMessage => t.msg.thread)]
  exact length_eq_dedup h.nodup h.complete

theorem listing_threadList
    (h : ∀ r ∈ c.folderRows folder, ∀ s ∈ c.folderRows folder, r.threadKey = s.threadKey →
      r.thread = s.thread) :
    Listing (c.folderRows folder) (c.threadList folder) := by
  have hsame : ∀ r ∈ c.folderRows folder, ∀ s ∈ c.folderRows folder,
      (r.threadKey = s.threadKey ↔ r.thread = s.thread) := by
    refine fun r hr s hs => ⟨h r hr s hs,fun heq => ?_⟩
    rw [threadKey_eq, threadKey_eq, heq]
  have hpartition : ∀ r ∈ c.folderRows folder, threadPartition (c.folderRows folder) r =
      (c.folderRows folder).filter (fun s => s.thread = r.thread) :=
    fun r hr => List.filter_congr fun s hs => decide_eq_decide.mpr (hsame s hs r hr)
  rw [threadList_eq]
  refine ⟨?_,?_,?_,?_,?_⟩
  · rw [List.map_map]
    refine (List.nodup_map_iff_inj_on ?_).mpr ?_
    · exact (List.perm_insertionSort _ _).nodup_iff.mpr (nodup_folderRows.filter _)
    · intro r hr s hs heq
      obtain ⟨hr,hrmax⟩ := mem_threadHeads.mp hr
      obtain ⟨hs,hsmax⟩ := mem_threadHeads.mp hs
      have hkey := (hsame r hr s hs).mpr heq
      exact rank_inj r hr s hs (le_antisymm (hsmax r hr hkey) (hrmax s hs hkey.symm))
  · intro k
    rw [List.map_map, List.mem_map, List.mem_map]
    constructor
    · rintro ⟨r,hr,hk⟩
      exact ⟨r,(mem_threadHeads.mp hr).1,hk⟩
    · rintro ⟨r,hr,rfl⟩
      have hhead : ∃ s ∈ heads CachedMessage.threadKey CachedMessage.rank (c.folderRows folder),
        s.threadKey = r.threadKey := exists_head hr
      obtain ⟨s,hs,hkey⟩ := hhead
      exact ⟨s,(List.mem_insertionSort _).mpr hs,h s (mem_heads.mp hs).1 r hr hkey⟩
  · intro t ht
    obtain ⟨r,hr,rfl⟩ := List.mem_map.mp ht
    obtain ⟨hr,hrmax⟩ := mem_threadHeads.mp hr
    exact ⟨hr,fun s hs heq => hrmax s hs ((hsame s hs r hr).mpr heq)⟩
  · intro t ht
    obtain ⟨r,hr,rfl⟩ := List.mem_map.mp ht
    have heq := hpartition r (mem_threadHeads.mp hr).1
    exact ⟨congrArg List.length heq,congrArg (fun l => (l.filter CachedMessage.unread).length) heq⟩
  · exact List.pairwise_map.mpr pairwise_threadHeads

end Threads

/-! ### Pages of threads -/

section Reading

variable {threads : List ThreadedMessage} {t : ThreadedMessage}

theorem read_eq_some {s : ThreadedMessage} : t.read = some s ↔
    (t.threadCount < 4294967296 ∧ t.unreadCount < 4294967296) ∧ s = t := by
  unfold ThreadedMessage.read
  simp only [Option.bind_eq_bind, Option.bind_eq_some_iff, asU32_eq_some, Option.pure_def,
    Option.some.injEq]
  constructor
  · rintro ⟨-,⟨htc,rfl⟩,-,⟨huc,rfl⟩,rfl⟩
    exact ⟨⟨htc,huc⟩,rfl⟩
  · rintro ⟨⟨htc,huc⟩,rfl⟩
    exact ⟨s.threadCount,⟨htc,rfl⟩,s.unreadCount,⟨huc,rfl⟩,rfl⟩

/-- A page is read as it is, or not at all. -/
theorem mapM_read_eq_some {l : List ThreadedMessage} : threads.mapM ThreadedMessage.read = some l ↔
    (∀ t ∈ threads, t.threadCount < 4294967296 ∧ t.unreadCount < 4294967296) ∧ l = threads := by
  induction threads generalizing l with
  | nil => simp [eq_comm]
  | cons t threads ih =>
    simp only [List.mapM_cons, Option.bind_eq_bind, Option.bind_eq_some_iff, read_eq_some, ih,
      Option.pure_def, Option.some.injEq, List.forall_mem_cons]
    constructor
    · rintro ⟨s,⟨h,rfl⟩,k,⟨hl,rfl⟩,rfl⟩
      exact ⟨⟨h,hl⟩,rfl⟩
    · rintro ⟨⟨h,hl⟩,rfl⟩
      exact ⟨t,⟨h,rfl⟩,threads,⟨hl,rfl⟩,rfl⟩

end Reading

section Folder

variable {c : Cache} {folder : String} {perPage : UInt32}

theorem getThreadedMessages_eq (page : UInt32) : c.getThreadedMessages folder page perPage =
    (wrappedSlice 4294967296 page.toNat perPage.toNat (c.threadList folder)).mapM
      ThreadedMessage.read := by
  rw [← drop_offset]
  rfl

theorem mem_of_mem_wrappedSlice {α : Type} {m page size : Nat} {l : List α} {x : α}
    (h : x ∈ wrappedSlice m page size l) : x ∈ l :=
  List.mem_of_mem_drop (List.mem_of_mem_take h)

/-- Right pages are those of the list of threads. -/
theorem pageable_of_pages (h : PagesThreads c folder perPage) :
    Pageable (c.folderRows folder) perPage := by
  obtain ⟨threads,hlisting,hpage,hcover,hcount⟩ := h
  obtain ⟨hfew,hlength⟩ := asU32_eq_some.mp hcount
  rw [← hlength] at hfew
  have hn := hlisting.length_eq
  have hdistinct := length_dedup_threadKey.mp (hlength.symm.trans hn)
  refine ⟨hn ▸ ⟨hfew,?_,?_⟩,hdistinct,?_⟩
  · refine (page_size_iff hfew).mp fun t ht => ?_
    obtain ⟨page,l,hl,hmem⟩ := hcover t ht
    rw [hpage page] at hl
    exact ⟨page,Option.some.inj hl ▸ hmem⟩
  · intro page hwrap
    have hempty : slice page.toNat perPage.toNat threads = [] :=
      slice_of_length_le (hfew.le.trans hwrap)
    have hread := hpage page
    rw [hempty, getThreadedMessages_eq, mapM_read_eq_some] at hread
    have hsize : perPage.toNat ≠ 0 := by
      intro hzero
      rw [hzero, Nat.mul_zero] at hwrap
      omega
    have hshown := hread.2.symm
    rw [wrappedSlice, List.take_eq_nil_iff, or_iff_right hsize, List.drop_eq_nil_iff] at hshown
    rwa [length_threadList, ← hlength] at hshown
  · intro m hm
    obtain ⟨t,ht,hthread⟩ := List.mem_map.mp ((hlisting.complete m.thread).mpr (List.mem_map_of_mem hm))
    obtain ⟨page,l,hl,hmem⟩ := hcover t ht
    rw [getThreadedMessages_eq, mapM_read_eq_some] at hl
    have hsmall := (hl.1 t (hl.2 ▸ hmem)).1
    rwa [(hlisting.counted t ht).1, hthread] at hsmall

theorem pages_of_pageable (h : Pageable (c.folderRows folder) perPage) :
    PagesThreads c folder perPage := by
  have hlisting := listing_threadList (distinct_iff.mp h.distinct)
  have hn := hlisting.length_eq
  have hfit : OffsetsFit perPage (c.threadList folder).length := hn ▸ h.fit
  obtain ⟨hslice,hcover⟩ := (offsetsFit_iff hfit.few).mp hfit
  have hsmall : ∀ t ∈ c.threadList folder, t.threadCount < 4294967296 ∧ t.unreadCount < 4294967296 := by
    intro t ht
    obtain ⟨htc,huc⟩ := hlisting.counted t ht
    have hcount := h.small t.msg (hlisting.latest t ht).1
    exact ⟨htc ▸ hcount,huc ▸ lt_of_le_of_lt (List.length_filter_le _ _) hcount⟩
  have hpage : ∀ page : UInt32, c.getThreadedMessages folder page perPage =
      some (slice page.toNat perPage.toNat (c.threadList folder)) := by
    intro page
    rw [getThreadedMessages_eq, ← hslice page, mapM_read_eq_some]
    exact ⟨fun t ht => hsmall t (mem_of_mem_wrappedSlice ht),rfl⟩
  have hcount : c.countThreads folder = asU32 (c.threadList folder).length := by
    rw [length_threadList]
    rfl
  refine ⟨c.threadList folder,hlisting,hpage,fun t ht => ?_,?_⟩
  · obtain ⟨page,hmem⟩ := hcover t ht
    exact ⟨page,_,hpage page,hmem⟩
  · rw [hcount]
    exact asU32_eq_some.mpr ⟨hfit.few,rfl⟩

end Folder

/-- The pages of folders and of tags are right exactly while the offsets fit, and no message without a
thread id has a number that is one. -/
theorem pages_iff (c : Cache) (perPage : UInt32) :
    (∀ folder, PagesThreads c folder perPage ↔ Pageable (c.folderRows folder) perPage) ∧
      ∀ tagId, PagesTag c tagId perPage ↔
        OffsetsFit perPage (c.rows.messageTags.filter (fun t => t.tagId = tagId)).length :=
  ⟨fun _ => ⟨pageable_of_pages,pages_of_pageable⟩,fun _ => pagesTag_iff perPage⟩

/-- A folder with one message. -/
def oneThreadCache : Cache where
  rows := {
    folders := [⟨"INBOX",none,none,"",true,1,0,1,1,none⟩]
    messages := [⟨⟨7,"INBOX",some "a@x",none,none,"","a@x","","[]","[]","","",120,false,"",none,0,
      some "a@x",none,⟨1,7⟩⟩,none⟩]
    tags := []
    messageTags := []
    events := [] }
  unique := by decide
  fk := by decide

/-- Page 67108864 of 64 threads is the first page again. -/
theorem first_page_again : ¬∀ (c : Cache) (folder tagId : String) (perPage : UInt32),
    PagesThreads c folder perPage ∧ PagesTag c tagId perPage := by
  intro hall
  have hpageable := pageable_of_pages (hall oneThreadCache "INBOX" "work" 64).1
  have hwrap := hpageable.fit.wraps 67108864 (by decide)
  exact absurd hwrap (by decide)

end Rav
