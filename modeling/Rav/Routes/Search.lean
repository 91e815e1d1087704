import Rav.Db.Search
import Rav.Error
import Rav.Search.Engine

/-!
# `routes::search`

The search handler: operators of the query and parameters of the request become filters, with the
parameters first; the rows of the cache that meet them are answered, and after those, while there is
room, the messages the full-text index finds.

## Main definitions

- `SearchParams`, `SearchPlan` — the request, and what it comes to
- `searchMessages` — the handler
-/

namespace Rav

/-- Request body for `POST /api/search`; the folder is an encrypted folder ID. -/
structure SearchParams where
  q : Option String
  folder : Option String
  from_ : Option String
  to_ : Option String
  dateFrom : Option Int
  dateTo : Option Int
  hasAttachment : Option Bool
  limit : Nat
  offset : Nat
  sort : String
  isRead : Option Bool
  isFlagged : Option Bool
  deriving DecidableEq, Repr

/-- A single search result item enriched with message metadata. -/
structure SearchResultItem where
  uid : Nat
  folderName : String
  subject : String
  fromAddress : String
  fromName : String
  toAddresses : String
  date : String
  dateEpoch : Int
  flags : String
  hasAttachments : Bool
  snippet : String
  deriving DecidableEq, Repr

def CachedMessage.item (m : CachedMessage) (snippet : String) : SearchResultItem :=
  ⟨m.uid,m.folder,m.subject,m.fromAddress,m.fromName,m.toAddresses,m.date,m.dateEpoch,m.flags,
    m.hasAttachments,snippet⟩

structure SearchResponse where
  results : List SearchResultItem
  totalCount : Nat
  query : String
  deriving DecidableEq, Repr

/-! ### What is searched for -/

def SearchParams.queryText (p : SearchParams) : String := strTrim (p.q.getD "")

/-- The free text, the text for the subject, and the filters. -/
structure SearchPlan where
  text : String
  subjectOnly : Option String
  filters : SearchFilters
  deriving DecidableEq, Repr

/-- Parameters stand before operators. -/
def SearchParams.combine (p : SearchParams) (uiFolder : Option String) (parsed : ParsedQuery) :
    SearchPlan where
  text := parsed.text
  subjectOnly := parsed.subjectOnly
  filters :=
    { folder := uiFolder.or parsed.folder
      from_ := p.from_.or parsed.from_
      to_ := p.to_.or parsed.to_
      dateFrom := p.dateFrom.or parsed.dateFrom
      dateTo := p.dateTo.or parsed.dateTo
      hasAttachment := p.hasAttachment.or parsed.hasAttachment
      isRead := p.isRead.or parsed.isRead
      isFlagged := p.isFlagged.or parsed.isFlagged }

/-- The folder of the parameters, decrypted. -/
def SearchParams.uiFolder (p : SearchParams) (decrypt : String → Except AppError String) :
    Except AppError (Option String) :=
  match p.folder with
  | none => .ok none
  | some id => (decrypt id).map some

def SearchParams.plan (p : SearchParams) (now : Int) (decrypt : String → Except AppError String) :
    Except AppError SearchPlan :=
  if p.queryText = "" then
    .error (.badRequest "Query parameter 'q' is required and must not be empty")
  else (p.uiFolder decrypt).map (fun f => p.combine f (parseSearchQuery now p.queryText))

/-- The same request for another page, in another order. -/
def SearchParams.paged (p : SearchParams) (limit offset : Nat) (sort : String) : SearchParams :=
  { p with limit := limit, offset := offset, sort := sort }

/-- The query for the index. -/
def SearchPlan.query (plan : SearchPlan) (limit offset : Nat) : SearchQuery where
  text := plan.text
  subjectOnly := plan.subjectOnly
  folder := plan.filters.folder
  from_ := plan.filters.from_
  to_ := plan.filters.to_
  dateFrom := plan.filters.dateFrom
  dateTo := plan.filters.dateTo
  hasAttachment := plan.filters.hasAttachment
  limit := limit
  offset := offset

/-! ### The answer -/

/-- The messages of the results of the index, as far as they are cached. -/
def Db.resolve (db : Db) (results : List SearchResult) : List (CachedMessage × String) :=
  results.filterMap (fun sr => (db.getSingleMessage sr.folder sr.uid).map (fun m => (m,sr.snippet)))

/-- Add the messages that are not yet among the results. -/
def addUnseen : List (String × Nat) → List (CachedMessage × String) → List SearchResultItem
  | _, [] => []
  | seen, p :: rest =>
    if (p.1.folder,p.1.uid) ∈ seen then addUnseen seen rest
    else
      p.1.item (if p.2 = "" then p.1.snippet else p.2) ::
        addUnseen ((p.1.folder,p.1.uid) :: seen) rest

/-- The order of the answer. -/
def sortItems (sort : String) (items : List SearchResultItem) : List SearchResultItem :=
  if sort = "date_asc" then items.insertionSort (fun a b => a.dateEpoch ≤ b.dateEpoch)
  else items.insertionSort (fun a b => b.dateEpoch ≤ a.dateEpoch)

/-- The results of the index; there are none where it cannot be opened or the query not be read. -/
def SearchEngine.results (e : SearchEngine) (index : Option (List IndexableMessage))
    (q : SearchQuery) : List SearchResult :=
  ((index.bind (fun docs => e.search docs q)).map Prod.fst).getD []

def SearchPlan.items (plan : SearchPlan) (e : SearchEngine)
    (index : Option (List IndexableMessage)) (db : Db) (limit offset : Nat) :
    List SearchResultItem :=
  let rows := db.searchMessagesSqlite plan.text plan.filters limit
  let results := rows.map (fun m => m.item m.snippet)
  if plan.text ≠ "" ∧ rows.length < limit then
    let found := db.resolve (e.results index (plan.query limit offset))
    results ++
      addUnseen (rows.map (fun m => (m.folder,m.uid))) (found.take (limit - rows.length))
  else results

/-- `POST /api/search`. -/
def searchMessages (e : SearchEngine) (now : Int) (decrypt : String → Except AppError String)
    (index : Option (List IndexableMessage)) (db : Db) (p : SearchParams) :
    Except AppError SearchResponse :=
  (p.plan now decrypt).map (fun plan =>
    let results := (sortItems p.sort (plan.items e index db p.limit p.offset)).take p.limit
    ⟨results,results.length,p.queryText⟩)

/-! ### What is answered -/

variable {e : SearchEngine} {index : Option (List IndexableMessage)} {db : Db} {plan : SearchPlan}
  {limit offset : Nat} {item : SearchResultItem}

@[simp] theorem mem_sortItems {sort : String} {items : List SearchResultItem} :
    item ∈ sortItems sort items ↔ item ∈ items := by
  unfold sortItems
  split <;> exact List.mem_insertionSort _

@[simp] theorem length_sortItems (sort : String) (items : List SearchResultItem) :
    (sortItems sort items).length = items.length := by
  unfold sortItems
  split <;> exact List.length_insertionSort _ _

theorem addUnseen_cons (seen : List (String × Nat)) (p : CachedMessage × String)
    (rest : List (CachedMessage × String)) : addUnseen seen (p :: rest) =
      if (p.1.folder,p.1.uid) ∈ seen then addUnseen seen rest
      else
        p.1.item (if p.2 = "" then p.1.snippet else p.2) ::
          addUnseen ((p.1.folder,p.1.uid) :: seen) rest := rfl

theorem mem_addUnseen {seen : List (String × Nat)} {found : List (CachedMessage × String)}
    (h : item ∈ addUnseen seen found) : ∃ p ∈ found, ∃ snippet, item = p.1.item snippet := by
  induction found generalizing seen with
  | nil => exact absurd h List.not_mem_nil
  | cons p found ih =>
    have hrest : ∀ seen', item ∈ addUnseen seen' found →
        ∃ p' ∈ p :: found, ∃ snippet, item = p'.1.item snippet := by
      intro seen' h'
      obtain ⟨p',hp',hitem⟩ := ih h'
      exact ⟨p',List.mem_cons_of_mem _ hp',hitem⟩
    rw [addUnseen_cons] at h
    split at h
    · exact hrest _ h
    · rcases List.mem_cons.mp h with rfl | h
      · exact ⟨p,List.mem_cons_self,_,rfl⟩
      · exact hrest _ h

/-- A message found is added, unless it was there. -/
theorem exists_mem_addUnseen (seen : List (String × Nat)) {found : List (CachedMessage × String)}
    {p : CachedMessage × String} (hp : p ∈ found) :
    (p.1.folder,p.1.uid) ∈ seen ∨
      ∃ item ∈ addUnseen seen found, item.folderName = p.1.folder ∧ item.uid = p.1.uid := by
  induction found generalizing seen with
  | nil => cases hp
  | cons p' found ih =>
    rw [addUnseen_cons]
    split
    · next hseen =>
      rcases List.mem_cons.mp hp with rfl | hp
      · exact Or.inl hseen
      · exact ih seen hp
    · rcases List.mem_cons.mp hp with rfl | hp
      · exact Or.inr ⟨_,List.mem_cons_self,rfl,rfl⟩
      · rcases ih ((p'.1.folder,p'.1.uid) :: seen) hp with hmem | ⟨item,hmem,hkey⟩
        · rcases List.mem_cons.mp hmem with heq | hseen
          · obtain ⟨hfolder,huid⟩ := Prod.mk.inj heq
            exact Or.inr ⟨_,List.mem_cons_self,hfolder.symm,huid.symm⟩
          · exact Or.inl hseen
        · exact Or.inr ⟨item,List.mem_cons_of_mem _ hmem,hkey⟩

theorem mem_resolve {results : List SearchResult} {p : CachedMessage × String}
    (h : p ∈ db.resolve results) :
    ∃ sr ∈ results, db.message? sr.folder sr.uid = some p.1 := by
  obtain ⟨sr,hsr,hp⟩ := List.mem_filterMap.mp h
  obtain ⟨m,hm,rfl⟩ := Option.map_eq_some_iff.mp hp
  exact ⟨sr,hsr,hm⟩

theorem length_addUnseen_le (seen : List (String × Nat)) (found : List (CachedMessage × String)) :
    (addUnseen seen found).length ≤ found.length := by
  induction found generalizing seen with
  | nil => exact Nat.le_refl 0
  | cons p found ih =>
    rw [addUnseen_cons]
    split
    · exact (ih seen).trans (Nat.le_succ _)
    · exact Nat.succ_le_succ (ih _)

end Rav
