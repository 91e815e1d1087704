import Rav.Search.Query

/-!
# `search::engine`

A user's full-text index: documents, and queries that all of several clauses must match. How the
text of a query is read, how the documents found are ranked and what is shown of them is up to the
library. A write is done by a writer of its own; nothing it does counts before its commit.

## Main definitions

- `IndexableMessage`, `SearchQuery` — documents and queries
- `SearchEngine` — the library
- `SearchEngine.search` — the search
- `indexMessage`, `indexMessagesBatch`, `deleteDocument` — the writes
-/

namespace Rav

/-- A message ready to be indexed into the search engine. -/
structure IndexableMessage where
  uid : Nat
  folder : String
  subject : String
  fromAddress : String
  fromName : String
  toAddresses : String
  bodyText : String
  dateEpoch : Int
  hasAttachments : Bool
  deriving DecidableEq, Repr

/-- The fields a text is looked for in. -/
inductive IndexField
  | subject
  | bodyText
  | fromName
  | toAddresses
  deriving DecidableEq, Repr

/-- Parameters for a search query, with optional filters. -/
structure SearchQuery where
  text : String
  subjectOnly : Option String
  folder : Option String
  from_ : Option String
  to_ : Option String
  dateFrom : Option Int
  dateTo : Option Int
  hasAttachment : Option Bool
  limit : Nat
  offset : Nat
  deriving DecidableEq, Repr

def SearchQuery.filters (q : SearchQuery) : List Filter :=
  (q.subjectOnly.map .subject).toList ++ (q.folder.map .folder).toList ++
    (q.from_.map .from_).toList ++ (q.to_.map .to_).toList ++ (q.dateFrom.map .dateFrom).toList ++
    (q.dateTo.map .dateTo).toList ++ (q.hasAttachment.map .hasAttachment).toList

/-- A single search result returned from a query. -/
structure SearchResult where
  uid : Nat
  folder : String
  snippet : String
  deriving DecidableEq, Repr

/-- Each element of a mapped list was mapped. -/
theorem mem_of_mapM {α β : Type} {f : α → Option β} {xs : List α} {ys : List β}
    (h : xs.mapM f = some ys) : ∀ x ∈ xs, ∃ y ∈ ys, f x = some y := by
  induction xs generalizing ys with
  | nil => exact fun _ hx => absurd hx List.not_mem_nil
  | cons x xs ih =>
    rw [List.mapM_cons] at h
    obtain ⟨y,hy,h⟩ := Option.bind_eq_some_iff.mp h
    obtain ⟨zs,hzs,h⟩ := Option.bind_eq_some_iff.mp h
    obtain rfl := Option.some.inj h
    intro z hz
    rcases List.mem_cons.mp hz with rfl | hz
    · exact ⟨y,List.mem_cons_self,hy⟩
    · obtain ⟨w,hw,hzw⟩ := ih hzs z hz
      exact ⟨w,List.mem_cons_of_mem _ hw,hzw⟩

/-- The library: it reads a text as a condition on documents or refuses it, ranks what is found, and
makes snippets. -/
structure SearchEngine where
  parseQuery : List IndexField → String → Option (IndexableMessage → Bool)
  rank : SearchQuery → List IndexableMessage → List IndexableMessage
  rank_perm : ∀ q docs, (rank q docs).Perm docs
  snippet : SearchQuery → IndexableMessage → String

namespace SearchEngine

variable (e : SearchEngine)

/-- The clause of a filter; whether a message is read or flagged is not indexed. -/
def clause : Filter → Option (IndexableMessage → Bool)
  | .folder f => some (fun d => d.folder = f)
  | .from_ f =>
    if f.toList.contains '@' then some (fun d => d.fromAddress = f)
    else e.parseQuery [.fromName] f
  | .to_ t => e.parseQuery [.toAddresses] t
  | .subject s => e.parseQuery [.subject] s
  | .dateFrom ts => some (fun d => ts ≤ d.dateEpoch)
  | .dateTo ts => some (fun d => d.dateEpoch ≤ ts)
  | .hasAttachment on => some (fun d => d.hasAttachments = on)
  | .isRead _ => some (fun _ => true)
  | .isFlagged _ => some (fun _ => true)

/-- The clause of the free text. -/
def textClause (text : String) : Option (IndexableMessage → Bool) :=
  if text = "" then some (fun _ => true)
  else e.parseQuery [.subject,.bodyText,.fromName,.toAddresses] text

/-- All clauses of a query, unless a text cannot be read. -/
def clauses (q : SearchQuery) : Option (List (IndexableMessage → Bool)) := do
  let text ← e.textClause q.text
  let filters ← q.filters.mapM e.clause
  some (text :: filters)

/-- Search the index: the results of a page, and how many documents there are in all. -/
def search (docs : List IndexableMessage) (q : SearchQuery) : Option (List SearchResult × Nat) := do
  let clauses ← e.clauses q
  let found := docs.filter (fun d => clauses.all (fun c => c d))
  let page := ((e.rank q found).take (q.offset + q.limit)).drop q.offset
  some (page.map (fun d => ⟨d.uid,d.folder,e.snippet q d⟩),found.length)

variable {e} {q : SearchQuery} {d : IndexableMessage} {docs : List IndexableMessage}

/-- A document meets all clauses of a query. -/
def Finds (e : SearchEngine) (q : SearchQuery) (d : IndexableMessage) : Prop :=
  ∃ cs, e.clauses q = some cs ∧ ∀ c ∈ cs, c d = true

/-- A document found meets the clause of the text, and of each filter. -/
theorem Finds.clause (h : e.Finds q d) : (∃ c, e.textClause q.text = some c ∧ c d = true) ∧
    ∀ f ∈ q.filters, ∃ c, e.clause f = some c ∧ c d = true := by
  obtain ⟨cs,hcs,hall⟩ := h
  unfold clauses at hcs
  obtain ⟨text,htext,hcs⟩ := Option.bind_eq_some_iff.mp hcs
  obtain ⟨filters,hfilters,hcs⟩ := Option.bind_eq_some_iff.mp hcs
  obtain rfl := Option.some.inj hcs
  refine ⟨⟨text,htext,hall text List.mem_cons_self⟩,?_⟩
  intro f hf
  obtain ⟨c,hc,hclause⟩ := mem_of_mapM hfilters f hf
  exact ⟨c,hclause,hall c (List.mem_cons_of_mem _ hc)⟩

theorem mem_search {p : List SearchResult × Nat} (h : e.search docs q = some p) {r : SearchResult}
    (hr : r ∈ p.1) : ∃ d ∈ docs, e.Finds q d ∧ r = ⟨d.uid,d.folder,e.snippet q d⟩ := by
  unfold search at h
  obtain ⟨cs,hcs,h⟩ := Option.bind_eq_some_iff.mp h
  obtain rfl := Option.some.inj h
  obtain ⟨d,hd,rfl⟩ := List.mem_map.mp hr
  have hfound := (e.rank_perm _ _).mem_iff.mp (List.mem_of_mem_take (List.mem_of_mem_drop hd))
  obtain ⟨hdocs,hall⟩ := List.mem_filter.mp hfound
  exact ⟨d,hdocs,⟨cs,hcs,List.all_eq_true.mp hall⟩,rfl⟩

/-- With room for all documents, all that meet the clauses are on the first page. -/
theorem search_of_finds (hd : d ∈ docs) (h : e.Finds q d) (hoffset : q.offset = 0)
    (hlimit : docs.length ≤ q.limit) :
    ∃ p, e.search docs q = some p ∧ p.1.length ≤ docs.length ∧
      ⟨d.uid,d.folder,e.snippet q d⟩ ∈ p.1 := by
  obtain ⟨cs,hcs,hall⟩ := h
  have hlen : (e.rank q (docs.filter (fun d => cs.all (fun c => c d)))).length ≤ docs.length := by
    rw [(e.rank_perm _ _).length_eq]
    exact List.length_filter_le _ _
  have hpage : ((e.rank q (docs.filter (fun d => cs.all (fun c => c d)))).take
      (q.offset + q.limit)).drop q.offset =
        e.rank q (docs.filter (fun d => cs.all (fun c => c d))) := by
    rw [hoffset,List.drop_zero,Nat.zero_add]
    exact List.take_of_length_le (hlen.trans hlimit)
  refine ⟨_,by rw [search,hcs]; rfl,?_,?_⟩
  · rw [List.length_map,hpage]
    exact hlen
  · refine List.mem_map.mpr ⟨d,?_,rfl⟩
    rw [hpage]
    exact (e.rank_perm _ _).mem_iff.mpr
      (List.mem_filter.mpr ⟨hd,List.all_eq_true.mpr hall⟩)

end SearchEngine

/-! ### Writing -/

/-- The step of a write that fails. -/
inductive IndexFault
  | writer (e : String)
  | addDocument (e : String)
  | commit (e : String)
  | reload (e : String)
  deriving DecidableEq, Repr

/-- Delete existing documents that match the uid+folder combination. -/
def deleteExisting (docs : List IndexableMessage) (uid : Nat) (folder : String) : List IndexableMessage :=
  docs.filter (fun d => !(decide (d.uid = uid) && decide (d.folder = folder)))

/-- Delete-before-insert. -/
def replaceDocument (docs : List IndexableMessage) (msg : IndexableMessage) : List IndexableMessage :=
  deleteExisting docs msg.uid msg.folder ++ [msg]

/-- A writer that has documents to add comes to a commit, or is dropped with what it did; a reader that cannot
be reloaded is an error after the commit. -/
def writeIndex (failedCommit : String) (adds : Bool) (docs docs' : List IndexableMessage) :
    Option IndexFault → Except String Unit × List IndexableMessage
  | some (.writer e) => (.error ("Failed to create index writer: " ++ e),docs)
  | some (.addDocument e) =>
    if adds then (.error ("Failed to add document: " ++ e),docs) else (.ok (),docs')
  | some (.commit e) => (.error (failedCommit ++ e),docs)
  | some (.reload e) => (.error ("Failed to reload reader: " ++ e),docs')
  | none => (.ok (),docs')

/-- Index a single message. -/
def indexMessage (msg : IndexableMessage) (fault : Option IndexFault) (docs : List IndexableMessage) :
    Except String Unit × List IndexableMessage :=
  writeIndex "Failed to commit: " true docs (replaceDocument docs msg) fault

/-- Index multiple messages in a single batch. -/
def indexMessagesBatch (messages : List IndexableMessage) (fault : Option IndexFault)
    (docs : List IndexableMessage) : Except String Unit × List IndexableMessage :=
  writeIndex "Failed to commit batch: " (!messages.isEmpty) docs (messages.foldl replaceDocument docs) fault

/-- Delete a message from the index by uid and folder. -/
def deleteDocument (uid : Nat) (folder : String) (fault : Option IndexFault) (docs : List IndexableMessage) :
    Except String Unit × List IndexableMessage :=
  writeIndex "Failed to commit delete: " false docs (deleteExisting docs uid folder) fault

end Rav
