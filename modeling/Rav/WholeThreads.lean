import Rav.Db.ThreadList

/-!
# Whole threads

The thread of a message is what its identifiers, and theirs in turn, lead to. The walk finds it while
`LIKE` finds the identifiers of the thread in no other References, and in enough of its own.

## Main definitions

- `InThread` — messages connected by equal identifiers
- `FullThread` — the walks from the messages of a thread return it
- `Finds`, `FoundBy` — what identifiers find, in one step and in any number
- `Traceable` — when the walk finds the thread
- `fullThread_iff` — they do so just then
-/

namespace Rav

/-- Two messages of a cache with an identifier in common. -/
def Neighbours (c : Cache) (a b : CachedMessage) : Prop :=
  a ∈ c.headers ∧ b ∈ c.headers ∧ ∃ id ∈ a.identifiers, id ∈ b.identifiers

/-- Two messages of one thread. -/
def InThread (c : Cache) : CachedMessage → CachedMessage → Prop := Relation.ReflTransGen (Neighbours c)

/-- The walk from a message ends, with these messages. -/
def Walks (order : IterOrder String) (c : Cache) (m : CachedMessage) (messageId : String)
    (thread : List CachedMessage) : Prop :=
  ∃ enough, ∀ fuel, enough < fuel →
    c.getFullThread order fuel messageId m.referencesHeader = some thread

/-- From each message of a thread, the walk ends with the messages of this thread, each once and in the
order of dates. -/
def FullThread (order : IterOrder String) (c : Cache) (start : CachedMessage) : Prop :=
  ∀ m messageId, InThread c start m → m.messageId = some messageId →
    ∃ thread, Walks order c m messageId thread ∧ (thread.map CachedMessage.key).Nodup ∧
      thread.Pairwise (fun r s => r.dateEpoch ≤ s.dateEpoch) ∧ ∀ r, r ∈ thread ↔ InThread c start r

/-- A message that the identifiers of another find. -/
def Finds (c : Cache) (a b : CachedMessage) : Prop :=
  b ∈ c.headers ∧ ∃ id ∈ a.identifiers, b.relatesTo id

/-- What is found, step by step, from a message that the Message-ID finds. -/
def FoundBy (c : Cache) (messageId : String) (r : CachedMessage) : Prop :=
  ∃ a ∈ c.headers, a.relatesTo messageId ∧ Relation.ReflTransGen (Finds c) a r

/-- No identifier finds a message of another thread, and each message of the thread is found. -/
structure Traceable (c : Cache) (m : CachedMessage) (messageId : String) : Prop where
  direct : ∀ r ∈ c.headers, r.relatesTo messageId → InThread c m r
  further : ∀ a b, InThread c m a → Finds c a b → InThread c m b
  whole : ∀ r, InThread c m r → FoundBy c messageId r

/-! ### `LIKE` with an escape character -/

section Like

/-- A character as it stands in the pattern. -/
def escapedChar (c : Char) : List Char := if c = '%' ∨ c = '_' then ['\\',c] else [c]

theorem toList_threadPattern (id : String) :
    (threadPattern id).toList = '%' :: (id.toList.flatMap escapedChar ++ ['%']) := by
  have hboth : ∀ c : Char, (if c = '%' then ['\\','%'] else [c]).flatMap
      (fun d => if d = '_' then ['\\','_'] else [d]) = escapedChar c := by
    intro c
    unfold escapedChar
    by_cases hpercent : c = '%'
    · subst hpercent
      rfl
    · by_cases hline : c = '_'
      · subst hline
        rfl
      · simp [hpercent, hline]
  have hlist : (replaceChar '_' "\\_" (replaceChar '%' "\\%" id)).toList =
      id.toList.flatMap escapedChar := by
    unfold replaceChar
    simp only [String.toList_ofList, List.flatMap_assoc]
    exact List.flatMap_congr fun c _ => hboth c
  simp [threadPattern, anywhere, hlist]

/-- Without the escape character, the parts of an escaped text are its characters. -/
theorem likeTokens_escaped {p : List Char} (hp : '\\' ∉ p) :
    likeTokens (p.flatMap escapedChar ++ ['%']) = some (p.map LikeToken.char ++ [.anyText]) := by
  induction p with
  | nil => rfl
  | cons c p ih =>
    rw [List.mem_cons, not_or] at hp
    rw [List.flatMap_cons, List.append_assoc, escapedChar]
    split
    · rw [List.cons_append, List.cons_append, List.nil_append, likeTokens_escape, ih hp.2]
      rfl
    · next hwild =>
      rw [List.cons_append, List.nil_append, likeTokens_char (Ne.symm hp.1) hwild, ih hp.2]
      rfl

/-- Without the escape character, an identifier is looked for literally, but for the case of letters. -/
theorem sqlLikeEscape_threadPattern {id : String} (h : '\\' ∉ id.toList) (s : String) :
    sqlLikeEscape (threadPattern id) s = likeInfix id s := by
  unfold sqlLikeEscape likeInfix
  rw [toList_threadPattern, likeTokens_percent, likeTokens_escaped h,
    Option.map_some, Option.any_some, List.map_tails, List.any_map]
  exact congrArg s.toList.tails.any (funext (likeMatches_front id.toList))

end Like

/-! ### The walk -/

section Walk

variable {c : Cache} {order : IterOrder String} {m a r : CachedMessage} {messageId id : String}

theorem mem_getThreadMessages : r ∈ c.getThreadMessages id ↔ r ∈ c.headers ∧ r.relatesTo id := by
  rw [Cache.getThreadMessages, List.mem_insertionSort, List.mem_filter]

theorem mem_headers_of_found (h : FoundBy c messageId r) : r ∈ c.headers := by
  obtain ⟨a,ha,-,hchain⟩ := h
  rcases Relation.ReflTransGen.cases_tail hchain with heq | ⟨b,-,hlast⟩
  · exact heq ▸ ha
  · exact hlast.1

instance neighbours_symm (c : Cache) : Std.Symm (Neighbours c) where
  symm := by
    rintro a b ⟨ha,hb,id,hid,hother⟩
    exact ⟨hb,ha,id,hother,hid⟩

theorem mem_headers_of_inThread (hm : m ∈ c.headers) (h : InThread c m r) : r ∈ c.headers := by
  rcases Relation.ReflTransGen.cases_tail h with heq | ⟨b,-,hlast⟩
  · exact heq ▸ hm
  · exact hlast.2.1

/-- Two messages of one thread have the same thread. -/
theorem inThread_iff (h : InThread c m a) : InThread c m r ↔ InThread c a r :=
  ⟨fun hr => (Relation.ReflTransGen.stdSymm.symm _ _ h).trans hr,h.trans⟩

theorem relatesTo_messageId (hid : m.messageId = some id) : m.relatesTo id := by
  simp [CachedMessage.relatesTo, hid]

/-- The identifiers the walk starts with. -/
def seeds (m : CachedMessage) (messageId : String) : List String :=
  messageId :: m.referencesHeader.toList.flatMap splitWhitespace

/-- A message is found by an identifier that turns up if it is found step by step. -/
theorem reached_iff_found (hm : m ∈ c.headers) (hid : m.messageId = some messageId) :
    (∃ id, TurnsUp c.getThreadMessages CachedMessage.identifiers (seeds m messageId) id ∧
      r ∈ c.getThreadMessages id) ↔ FoundBy c messageId r := by
  constructor
  · rintro ⟨id,hreached,hr⟩
    induction hreached generalizing r with
    | seed hseed =>
      obtain ⟨hmem,hrel⟩ := mem_getThreadMessages.mp hr
      rcases List.mem_cons.mp hseed with rfl | href
      · exact ⟨r,hmem,hrel,.refl⟩
      · have hown := List.mem_append_right (m.messageId.toList.filter (· ≠ "") ++
          m.inReplyTo.toList.filter (· ≠ "")) href
        exact ⟨m,hm,relatesTo_messageId hid,.single ⟨hmem,_,hown,hrel⟩⟩
    | next _ hb hname ih =>
      obtain ⟨hmem,hrel⟩ := mem_getThreadMessages.mp hr
      obtain ⟨a,ha,hrela,hchain⟩ := ih hb
      exact ⟨a,ha,hrela,hchain.tail ⟨hmem,_,hname,hrel⟩⟩
  · rintro ⟨a,ha,hrel,hchain⟩
    induction hchain with
    | refl => exact ⟨messageId,.seed List.mem_cons_self,mem_getThreadMessages.mpr ⟨ha,hrel⟩⟩
    | tail _ hfinds ih =>
      obtain ⟨id,hreached,hmem⟩ := ih
      obtain ⟨hr,name,hname,hrelname⟩ := hfinds
      exact ⟨name,.next hreached hmem hname,mem_getThreadMessages.mpr ⟨hr,hrelname⟩⟩

/-- There are only the identifiers of the cache to look up. -/
theorem mem_of_reached
    (h : TurnsUp c.getThreadMessages CachedMessage.identifiers (seeds m messageId) id) :
    id ∈ seeds m messageId ++ c.headers.flatMap CachedMessage.identifiers := by
  cases h with
  | seed hseed => exact List.mem_append_left _ hseed
  | next _ hb hname =>
    exact List.mem_append_right _ (List.mem_flatMap.mpr ⟨_,(mem_getThreadMessages.mp hb).1,hname⟩)

theorem key_inj (c : Cache) : ∀ a ∈ c.headers, ∀ b ∈ c.headers, a.key = b.key → a = b :=
  fun _ ha _ hb heq => List.inj_on_of_nodup_map c.nodup_headerKeys ha hb heq

/-- The walk ends, with the messages found, each once and in the order of dates. -/
theorem walks_found (order : IterOrder String) (hm : m ∈ c.headers)
    (hid : m.messageId = some messageId) :
    ∃ thread, Walks order c m messageId thread ∧ (thread.map CachedMessage.key).Nodup ∧
      thread.Pairwise (fun r s => r.dateEpoch ≤ s.dateEpoch) ∧ ∀ r, r ∈ thread ↔ FoundBy c messageId r := by
  have hcache : ∀ id, TurnsUp c.getThreadMessages CachedMessage.identifiers (seeds m messageId) id →
    id ∈ seeds m messageId ++ c.headers.flatMap CachedMessage.identifiers := fun _ => mem_of_reached
  obtain ⟨w,hrun,hitems⟩ := Worklist.run_spec order hcache
  have hfound : ∀ r, r ∈ w.items ↔ FoundBy c messageId r :=
    fun r => (hitems r).trans (reached_iff_found hm hid)
  have hkeys : ∀ a ∈ w.items, ∀ b ∈ w.items, a.key = b.key → a = b := fun a ha b hb =>
    key_inj c a (mem_headers_of_found ((hfound a).mp ha)) b (mem_headers_of_found ((hfound b).mp hb))
  refine ⟨_,⟨_,fun fuel hfuel => congrArg (Option.map _) (hrun fuel hfuel)⟩,?_,
    List.pairwise_insertionSort _ _,fun r => ?_⟩
  · exact ((List.perm_insertionSort _ _).map _).nodup_iff.mpr nodup_retainFirst
  · rw [List.mem_insertionSort, mem_retainFirst hkeys, hfound]

theorem Walks.unique {thread thread' : List CachedMessage} (h : Walks order c m messageId thread)
    (h' : Walks order c m messageId thread') : thread = thread' := by
  obtain ⟨enough,hrun⟩ := h
  obtain ⟨enough',hrun'⟩ := h'
  have hboth := (hrun (enough + enough' + 1) (by omega)).symm.trans
    (hrun' (enough + enough' + 1) (by omega))
  exact Option.some.inj hboth

/-- The walk ends with certain messages if and only if these are found. -/
theorem walks_iff_found {p : CachedMessage → Prop} (hm : m ∈ c.headers)
    (hid : m.messageId = some messageId) :
    (∃ thread, Walks order c m messageId thread ∧ (thread.map CachedMessage.key).Nodup ∧
      thread.Pairwise (fun r s => r.dateEpoch ≤ s.dateEpoch) ∧ ∀ r, r ∈ thread ↔ p r) ↔
      ∀ r, FoundBy c messageId r ↔ p r := by
  obtain ⟨thread,hwalks,hnodup,hsorted,hmem⟩ := walks_found order hm hid
  constructor
  · rintro ⟨thread',hwalks',-,-,hmem'⟩ r
    rw [← hmem, hwalks.unique hwalks', hmem']
  · exact fun h => ⟨thread,hwalks,hnodup,hsorted,fun r => (hmem r).trans (h r)⟩

/-- What is found is the thread if and only if identifiers of the thread find all of it and no more. -/
theorem foundBy_iff_traceable :
    (∀ r, FoundBy c messageId r ↔ InThread c m r) ↔ Traceable c m messageId := by
  constructor
  · intro h
    refine ⟨fun r hr hrel => (h r).mp ⟨r,hr,hrel,.refl⟩,fun a b ha hfinds => ?_,fun r hr => (h r).mpr hr⟩
    obtain ⟨a',ha',hrel,hchain⟩ := (h a).mpr ha
    exact (h b).mp ⟨a',ha',hrel,hchain.tail hfinds⟩
  · refine fun h r => ⟨?_,h.whole r⟩
    rintro ⟨a,ha,hrel,hchain⟩
    induction hchain with
    | refl => exact h.direct a ha hrel
    | tail _ hfinds ih => exact h.further _ _ ih hfinds

end Walk

/-! ### Identifiers without the escape character -/

section Plain

variable {c : Cache} {m a b r : CachedMessage} {messageId id : String}

theorem splitOnP_infix {α : Type} (p : α → Bool) (s : List α) :
    ∃ first rest, s.splitOnP p = first :: rest ∧ first <+: s ∧ ∀ l ∈ rest, l <:+: s := by
  induction s with
  | nil => exact ⟨[],[],List.splitOnP_nil,List.nil_prefix,fun _ h => absurd h List.not_mem_nil⟩
  | cons x s ih =>
    obtain ⟨first,rest,hsplit,hfirst,hrest⟩ := ih
    have htail : s <:+: x :: s := (List.suffix_cons x s).isInfix
    rw [List.splitOnP_cons_eq_if_modifyHead]
    split
    · refine ⟨[],_,rfl,List.nil_prefix,?_⟩
      rw [hsplit]
      exact List.forall_mem_cons.mpr ⟨hfirst.isInfix.trans htail,fun l hl => (hrest l hl).trans htail⟩
    · rw [hsplit, List.modifyHead_cons]
      exact ⟨_,_,rfl,(List.prefix_cons_inj x).mpr hfirst,fun l hl => (hrest l hl).trans htail⟩

/-- A word of a text is in it. -/
theorem infix_of_mem_splitWhitespace {s : String} (h : id ∈ splitWhitespace s) :
    id.toList <:+: s.toList := by
  obtain ⟨l,hl,rfl⟩ := List.mem_map.mp h
  obtain ⟨first,rest,hsplit,hfirst,hrest⟩ := splitOnP_infix isWhitespace s.toList
  rw [hsplit, List.mem_filter] at hl
  rw [String.toList_ofList]
  rcases List.mem_cons.mp hl.1 with rfl | hmem
  · exact hfirst.isInfix
  · exact hrest l hmem

theorem likeInfix_of_infix {s : String} (h : id.toList <:+: s.toList) : likeInfix id s = true := by
  obtain ⟨before,after,heq⟩ := h
  refine List.any_eq_true.mpr ⟨(id.toList ++ after).map Char.toLower,?_,?_⟩
  · rw [List.mem_tails, ← heq, List.append_assoc]
    exact (List.suffix_append before _).map _
  · rw [List.isPrefixOf_iff_prefix, List.map_append]
    exact List.prefix_append _ _

theorem mem_identifiers : id ∈ m.identifiers ↔
    (m.messageId = some id ∨ m.inReplyTo = some id) ∧ id ≠ "" ∨
      ∃ refs, m.referencesHeader = some refs ∧ id ∈ splitWhitespace refs := by
  simp only [CachedMessage.identifiers, List.mem_append, List.mem_filter, Option.mem_toList,
    List.mem_flatMap, decide_eq_true_eq, or_and_right]

theorem empty_not_mem_identifiers (m : CachedMessage) : "" ∉ m.identifiers := by
  intro h
  rcases mem_identifiers.mp h with ⟨-,hne⟩ | ⟨refs,-,hword⟩
  · exact hne rfl
  · obtain ⟨l,hl,hempty⟩ := List.mem_map.mp hword
    rw [String.ofList_eq_empty_iff.mp hempty] at hl
    exact absurd (List.mem_filter.mp hl).2 (by decide)

/-- An identifier finds the messages that have it. -/
theorem relatesTo_of_mem (hplain : '\\' ∉ id.toList) (h : id ∈ m.identifiers) : m.relatesTo id := by
  rw [CachedMessage.relatesTo, Bool.or_eq_true, Bool.or_eq_true, decide_eq_true_eq, decide_eq_true_eq]
  rcases mem_identifiers.mp h with ⟨hown,-⟩ | ⟨refs,hrefs,hword⟩
  · exact Or.inl hown
  · right
    rw [hrefs, Option.any_some, sqlLikeEscape_threadPattern hplain]
    exact likeInfix_of_infix (infix_of_mem_splitWhitespace hword)

theorem whole_of_plain (hm : m ∈ c.headers) (hid : m.messageId = some messageId)
    (hplain : ∀ a, InThread c m a → ∀ id ∈ a.identifiers, '\\' ∉ id.toList) (hr : InThread c m r) :
    FoundBy c messageId r := by
  induction hr with
  | refl => exact ⟨m,hm,relatesTo_messageId hid,.refl⟩
  | tail hchain hlast ih =>
    obtain ⟨a,ha,hrel,hfound⟩ := ih
    obtain ⟨-,hb,id,hone,hother⟩ := hlast
    exact ⟨a,ha,hrel,hfound.tail ⟨hb,id,hone,relatesTo_of_mem (hplain _ hchain id hone) hother⟩⟩

/-- Without the escape character, the walk is right if no identifier of the thread is in the References
of another one. -/
theorem traceable_of_plain (hm : m ∈ c.headers) (hid : m.messageId = some messageId)
    (hne : messageId ≠ "") (hplain : ∀ a, InThread c m a → ∀ id ∈ a.identifiers, '\\' ∉ id.toList)
    (hapart : ∀ a, InThread c m a → ∀ id ∈ a.identifiers, ∀ r ∈ c.headers, ¬InThread c m r →
      ∀ refs, r.referencesHeader = some refs → likeInfix id refs = false) :
    Traceable c m messageId := by
  have hstays : ∀ a, InThread c m a → a ∈ c.headers → ∀ id ∈ a.identifiers, ∀ r ∈ c.headers,
      r.relatesTo id → InThread c m r := by
    intro a ha hmem id hown r hr hrel
    by_contra hnot
    have hother : id ∉ r.identifiers := fun h => hnot (ha.tail ⟨hmem,hr,id,hown,h⟩)
    have hidne : id ≠ "" := by
      rintro rfl
      exact hother (absurd hown (empty_not_mem_identifiers a))
    rw [CachedMessage.relatesTo, Bool.or_eq_true, Bool.or_eq_true, decide_eq_true_eq,
      decide_eq_true_eq] at hrel
    rcases hrel with hsame | hlike
    · exact hother (mem_identifiers.mpr (Or.inl ⟨hsame,hidne⟩))
    · obtain ⟨refs,hrefs,hlike⟩ := (Option.any_eq_true _ _).mp hlike
      rw [sqlLikeEscape_threadPattern (hplain a ha id hown), hapart a ha id hown r hr hnot refs hrefs]
        at hlike
      exact Bool.false_ne_true hlike
  have hown : messageId ∈ m.identifiers := mem_identifiers.mpr (Or.inl ⟨Or.inl hid,hne⟩)
  refine ⟨hstays m .refl hm messageId hown,?_,fun r hr => whole_of_plain hm hid hplain hr⟩
  rintro a b ha ⟨hb,id,hid,hrel⟩
  exact hstays a ha (mem_headers_of_inThread hm ha) id hid b hb hrel

end Plain

/-! ### Threads found whole -/

/-- From every message of a thread the walk returns the thread if and only if the thread is traceable
from each. -/
theorem fullThread_iff (order : IterOrder String) (c : Cache) {start : CachedMessage}
    (hstart : start ∈ c.headers) :
    FullThread order c start ↔ ∀ m messageId, InThread c start m → m.messageId = some messageId →
      Traceable c m messageId := by
  unfold FullThread
  refine forall₂_congr fun m messageId => forall₂_congr fun hm hid => ?_
  rw [walks_iff_found (mem_headers_of_inThread hstart hm) hid, ← foundBy_iff_traceable]
  exact forall_congr' fun r => iff_congr Iff.rfl (inThread_iff hm)

/-- A message with certain headers. -/
def headerOf (uid : Nat) (messageId : String) (inReplyTo references : Option String) : CachedMessage :=
  ⟨uid,"INBOX",some messageId,inReplyTo,references,"","a@x","","[]","[]","","",120,false,"",none,
    uid,none,none,⟨1,uid⟩⟩

/-- A folder with two messages. -/
def pairRows (m r : CachedMessage) : CacheRows where
  folders := [⟨"INBOX",none,none,"",true,1,0,1,1,none⟩]
  messages := [⟨m,none⟩,⟨r,none⟩]
  tags := []
  messageTags := []
  events := []

def original : CachedMessage := headerOf 1 "<a@ex>" none none

def answer : CachedMessage := headerOf 2 "<b@ex>" (some "<a@ex>") (some "<a@ex>")

def answeredCache : Cache := ⟨pairRows original answer,by decide,by decide⟩

theorem neighbours_answer : Neighbours answeredCache original answer :=
  ⟨by decide,by decide,"<a@ex>",by decide,by decide⟩

/-- A message and its answer. -/
theorem fullThread_answer : FullThread (.asBuilt String) answeredCache original := by
  have hall : ∀ r ∈ answeredCache.headers, InThread answeredCache original r := by
    intro r hr
    rcases List.mem_cons.mp hr with rfl | hr
    · exact .refl
    · rw [List.mem_singleton.mp hr]
      exact .single neighbours_answer
  have hplain : ∀ a ∈ answeredCache.headers, ∀ id ∈ a.identifiers, '\\' ∉ id.toList := by decide
  have hnamed : ∀ a ∈ answeredCache.headers, a.messageId ≠ some "" := by decide
  have hmem : original ∈ answeredCache.headers := by decide
  refine (fullThread_iff (.asBuilt String) answeredCache hmem).mpr fun m messageId hm hid => ?_
  refine traceable_of_plain (mem_headers_of_inThread hmem hm) hid ?_ ?_ ?_
  · exact fun hempty => hnamed m (mem_headers_of_inThread hmem hm) (hempty ▸ hid)
  · exact fun a ha => hplain a (mem_headers_of_inThread hmem (hm.trans ha))
  · exact fun a ha id hid r hr hnot => absurd ((inThread_iff hm).mp (hall r hr)) hnot

/-- A message of another thread, with an identifier that differs in one letter. -/
def stranger : CachedMessage := headerOf 2 "<b@ex>" none (some "<A@ex>")

def strangersCache : Cache := ⟨pairRows original stranger,by decide,by decide⟩

/-- `LIKE` takes the two for one. -/
theorem stranger_in_thread :
    ¬∀ (order : IterOrder String) (c : Cache) (start : CachedMessage), start ∈ c.headers →
      FullThread order c start := by
  intro hall
  have hmem : original ∈ strangersCache.headers := by decide
  have hfull := hall (.asBuilt String) strangersCache original hmem original "<a@ex>" .refl rfl
  have htrace := foundBy_iff_traceable.mp ((walks_iff_found hmem rfl).mp hfull)
  have hrefs : stranger.referencesHeader = some "<A@ex>" := rfl
  have hrel : stranger.relatesTo "<a@ex>" := by
    rw [CachedMessage.relatesTo, hrefs, Option.any_some, sqlLikeEscape_threadPattern (by decide)]
    decide
  have hthread := htrace.direct stranger (by decide) hrel
  have hdisjoint : ∀ id ∈ original.identifiers, id ∉ stranger.identifiers := by decide
  have hapart : ∀ r, InThread strangersCache original r → r = original := by
    intro r hr
    induction hr with
    | refl => rfl
    | tail _ hlast ih =>
      obtain ⟨-,hb,id,hone,hother⟩ := hlast
      rcases List.mem_cons.mp hb with heq | hb
      · exact heq
      · rw [ih] at hone
        rw [List.mem_singleton.mp hb] at hother
        exact absurd hother (hdisjoint id hone)
  exact absurd (hapart stranger hthread) (by decide)

end Rav
