import Rav.Account
import Rav.Realtime.Sync
import Rav.Routes.Search

/-!
# What a search answers

A message answered meets every operator that reaches the route it was found by. A row of the cache
may miss the text of `subject:`, which that route never sees; a text with `%` or `_`, which stand for
other characters there; an operator that a parameter or a later operator stands in for, or a date
that cannot be read; and it may be of a trash folder below another one. A message of the index may
miss `is:read` and `is:flagged`, which are not indexed.

## Main definitions

- `Filter.Holds`, `SearchParams.Satisfies` — what is asked for
- `SearchPlan.SqlLeaves`, `SearchPlan.IndexLeaves` — what the routes leave unchecked
- `search_sound_iff` — when all messages answered are as asked for
-/

namespace Rav

/-! ### What is asked for -/

/-- The document says of its message what the cache says. -/
def IndexableMessage.Mirrors (d : IndexableMessage) (m : CachedMessage) : Prop :=
  d.uid = m.uid ∧ d.folder = m.folder ∧ d.subject = m.subject ∧ d.fromAddress = m.fromAddress ∧
    d.fromName = m.fromName ∧ d.toAddresses = m.toAddresses ∧ d.dateEpoch = m.dateEpoch ∧
    d.hasAttachments = m.hasAttachments

/-- A text is found in a message: as it stands, in one of some columns, or in some fields of a
document of the message, as the library reads it. -/
def FoundIn (e : SearchEngine) (docs : List IndexableMessage) (fields : List IndexField)
    (columns : List String) (text : String) (m : CachedMessage) : Prop :=
  (∃ column ∈ columns, likeInfix text column = true) ∨
    ∃ d ∈ docs, d.Mirrors m ∧ ∃ c, e.parseQuery fields text = some c ∧ c d = true

/-- A message is as a filter asks. -/
def Filter.Holds (e : SearchEngine) (docs : List IndexableMessage) (m : CachedMessage) :
    Filter → Prop
  | .folder f => m.folder = f
  | .from_ f =>
    if f.toList.contains '@' then m.fromAddress = f else FoundIn e docs [.fromName] [m.fromName] f m
  | .to_ t => FoundIn e docs [.toAddresses] [m.toAddresses] t m
  | .subject s => FoundIn e docs [.subject] [m.subject] s m
  | .dateFrom ts => ts ≤ m.dateEpoch
  | .dateTo ts => m.dateEpoch ≤ ts
  | .hasAttachment on => m.hasAttachments = on
  | .isRead on => likeInfix "\\Seen" m.flags = on
  | .isFlagged on => on = true → likeInfix "\\Flagged" m.flags = true

/-- The free text is in the message. -/
def TextHolds (e : SearchEngine) (docs : List IndexableMessage) (text : String)
    (m : CachedMessage) : Prop :=
  text = "" ∨ FoundIn e docs [.subject,.bodyText,.fromName,.toAddresses]
    [m.subject,m.fromName,m.fromAddress,m.toAddresses] text m

/-- The filters of the parameters, and all that the operators ask for. -/
def SearchParams.asked (p : SearchParams) (now : Int) (decrypt : String → Except AppError String) :
    List Filter :=
  ((p.folder.bind (fun id => (decrypt id).toOption)).map .folder).toList ++
    (p.from_.map .from_).toList ++ (p.to_.map .to_).toList ++ (p.dateFrom.map .dateFrom).toList ++
    (p.dateTo.map .dateTo).toList ++ (p.hasAttachment.map .hasAttachment).toList ++
    (p.isRead.map .isRead).toList ++ (p.isFlagged.map .isFlagged).toList ++
    queryFilters now p.queryText

/-- A message may be answered: it is of no excluded folder, and as everything given asks. -/
def SearchParams.Satisfies (p : SearchParams) (e : SearchEngine) (docs : List IndexableMessage)
    (now : Int) (decrypt : String → Except AppError String) (m : CachedMessage) : Prop :=
  isExcludedFolder m.folder = false ∧
    TextHolds e docs (parseSearchQuery now p.queryText).text m ∧
    ∀ f ∈ p.asked now decrypt, f.Holds e docs m

/-! ### What the routes leave unchecked -/

/-- A filter whose condition on a row is what it asks for. -/
def Filter.literal : Filter → Bool
  | .from_ f => f.toList.contains '@' || !hasWildcard f
  | .to_ t => !hasWildcard t
  | .subject _ => false
  | _ => true

/-- What the `WHERE` clause leaves open of a row it selects. -/
def SearchPlan.SqlLeaves (plan : SearchPlan) (e : SearchEngine) (docs : List IndexableMessage)
    (asked : List Filter) (m : CachedMessage) : Prop :=
  isExcludedFolder m.folder = false ∧
    (hasWildcard plan.text = false ∨ TextHolds e docs plan.text m) ∧
    ∀ f ∈ asked, (f ∈ plan.filters.filters ∧ f.literal = true) ∨ f.Holds e docs m

/-- What the index leaves open of the message of a document it finds. -/
def SearchPlan.IndexLeaves (plan : SearchPlan) (e : SearchEngine) (docs : List IndexableMessage)
    (asked : List Filter) (d : IndexableMessage) (m : CachedMessage) : Prop :=
  isExcludedFolder m.folder = false ∧ (d.Mirrors m ∨ TextHolds e docs plan.text m) ∧
    ∀ f ∈ asked, (f ∈ (plan.query 0 0).filters ∧ d.Mirrors m) ∨ f.Holds e docs m

section

variable {e : SearchEngine} {docs : List IndexableMessage} {m : CachedMessage} {f : Filter}

theorem foundIn_of_like {fields : List IndexField} {columns : List String} {text column : String}
    (hmem : column ∈ columns) (hwild : hasWildcard text = false)
    (h : sqlLike (anywhere text) column = true) : FoundIn e docs fields columns text m :=
  Or.inl ⟨column,hmem,(sqlLike_anywhere hwild column).symm.trans h⟩

/-- A condition without wildcards says what the filter asks. -/
theorem Filter.holds_of_condition (hl : f.literal = true) (h : f.condition m = true) :
    f.Holds e docs m := by
  cases f with
  | folder name => exact (of_decide_eq_true h : m.folder = name)
  | from_ value =>
    by_cases hat : value.toList.contains '@' = true
    · simp only [Filter.condition,Filter.Holds,if_pos hat] at h ⊢
      exact of_decide_eq_true h
    · simp only [Filter.condition,Filter.Holds,if_neg hat] at h ⊢
      have hwild : hasWildcard value = false :=
        (Bool.not_eq_true' _).mp (((Bool.or_eq_true _ _).mp hl).resolve_left hat)
      exact foundIn_of_like (List.mem_singleton_self _) hwild h
  | to_ value =>
    have hwild : hasWildcard value = false := by
      simpa [Filter.literal] using hl
    exact foundIn_of_like (List.mem_singleton_self _) hwild h
  | subject value => exact absurd hl Bool.false_ne_true
  | dateFrom ts => exact (of_decide_eq_true h : ts ≤ m.dateEpoch)
  | dateTo ts => exact (of_decide_eq_true h : m.dateEpoch ≤ ts)
  | hasAttachment on => exact (of_decide_eq_true h : m.hasAttachments = on)
  | isRead on =>
    have hseen : sqlLike (anywhere "\\Seen") m.flags = likeInfix "\\Seen" m.flags :=
      sqlLike_anywhere (by decide) _
    cases on with
    | false => exact hseen.symm.trans (Bool.not_eq_true' _ ▸ h)
    | true => exact hseen.symm.trans h
  | isFlagged on =>
    intro hon
    subst hon
    exact (sqlLike_anywhere (by decide) m.flags).symm.trans h

/-- A text clause that a document of the message meets. -/
theorem foundIn_of_clause {fields : List IndexField} {columns : List String} {text : String}
    {d : IndexableMessage} (hd : d ∈ docs) (hm : d.Mirrors m)
    (h : ∃ c, e.parseQuery fields text = some c ∧ c d = true) :
    FoundIn e docs fields columns text m :=
  Or.inr ⟨d,hd,hm,h⟩

/-- Whether a filter is one the index knows of. -/
def Filter.indexed : Filter → Bool
  | .isRead _ => false
  | .isFlagged _ => false
  | _ => true

theorem SearchQuery.indexed_of_mem {q : SearchQuery} (h : f ∈ q.filters) : f.indexed = true := by
  simp only [SearchQuery.filters,List.mem_append,Option.mem_toList,
    Option.map_eq_some_iff] at h
  cases f with
  | isRead on => simp at h
  | isFlagged on => simp at h
  | _ => rfl

/-- A clause that a faithful document meets says what the filter asks. -/
theorem Filter.holds_of_clause {d : IndexableMessage} (hd : d ∈ docs) (hm : d.Mirrors m)
    (hi : f.indexed = true) (h : ∃ c, e.clause f = some c ∧ c d = true) : f.Holds e docs m := by
  obtain ⟨_,hfolder,_,haddress,_,_,hdate,hatt⟩ := id hm
  obtain ⟨c,hc,hcd⟩ := h
  cases f with
  | folder name =>
    obtain rfl := Option.some.inj hc
    exact hfolder.symm.trans (of_decide_eq_true hcd)
  | from_ value =>
    by_cases hat : value.toList.contains '@' = true
    · simp only [SearchEngine.clause,Filter.Holds,if_pos hat] at hc ⊢
      obtain rfl := Option.some.inj hc
      exact haddress.symm.trans (of_decide_eq_true hcd)
    · simp only [SearchEngine.clause,Filter.Holds,if_neg hat] at hc ⊢
      exact foundIn_of_clause hd hm ⟨c,hc,hcd⟩
  | to_ value => exact foundIn_of_clause hd hm ⟨c,hc,hcd⟩
  | subject value => exact foundIn_of_clause hd hm ⟨c,hc,hcd⟩
  | dateFrom ts =>
    obtain rfl := Option.some.inj hc
    exact (of_decide_eq_true hcd : ts ≤ d.dateEpoch).trans_eq hdate
  | dateTo ts =>
    obtain rfl := Option.some.inj hc
    exact hdate.symm.trans_le (of_decide_eq_true hcd)
  | hasAttachment on =>
    obtain rfl := Option.some.inj hc
    exact hatt.symm.trans (of_decide_eq_true hcd)
  | isRead on => exact absurd hi Bool.false_ne_true
  | isFlagged on => exact absurd hi Bool.false_ne_true

end

/-! ### What is answered -/

section

variable {e : SearchEngine} {index : Option (List IndexableMessage)} {db : Db} {plan : SearchPlan}
  {limit offset : Nat} {item : SearchResultItem}

/-- A document found, and its cached message. -/
def SearchPlan.Hits (plan : SearchPlan) (e : SearchEngine)
    (index : Option (List IndexableMessage)) (db : Db) (d : IndexableMessage) (m : CachedMessage) :
    Prop :=
  plan.text ≠ "" ∧ d ∈ index.getD [] ∧ e.Finds (plan.query 0 0) d ∧
    db.message? d.folder d.uid = some m

/-- What is answered was selected or found. -/
theorem SearchPlan.of_mem_items (h : item ∈ plan.items e index db limit offset) :
    ∃ m, db.message? item.folderName item.uid = some m ∧
      ((m ∈ db.messages.rows ∧ sqlSelects plan.text plan.filters m = true) ∨
        ∃ d, plan.Hits e index db d m) := by
  have hrow : ∀ i ∈ (db.searchMessagesSqlite plan.text plan.filters limit).map
      (fun m => m.item m.snippet), ∃ m, db.message? i.folderName i.uid = some m ∧
        m ∈ db.messages.rows ∧ sqlSelects plan.text plan.filters m = true := by
    intro i hi
    obtain ⟨m,hm,rfl⟩ := List.mem_map.mp hi
    obtain ⟨hmem,hsel⟩ := Db.mem_searchMessagesSqlite hm
    exact ⟨m,Db.message?_eq_some.mpr ⟨hmem,rfl,rfl⟩,hmem,hsel⟩
  unfold SearchPlan.items at h
  dsimp only at h
  split at h
  · next htext =>
    rcases List.mem_append.mp h with h | h
    · obtain ⟨m,hm,hsel⟩ := hrow item h
      exact ⟨m,hm,Or.inl hsel⟩
    · obtain ⟨p,hp,snippet,rfl⟩ := mem_addUnseen h
      obtain ⟨sr,hsr,hm⟩ := mem_resolve (List.mem_of_mem_take hp)
      obtain ⟨_,huid,hfolder⟩ := Db.message?_eq_some.mp hm
      refine ⟨p.1,?_,Or.inr ?_⟩
      · rw [← huid,← hfolder] at hm
        exact hm
      · cases index with
        | none => exact absurd hsr List.not_mem_nil
        | some docs =>
          unfold SearchEngine.results at hsr
          rw [Option.bind_some] at hsr
          cases hpage : e.search docs (plan.query limit offset) with
          | none =>
            rw [hpage] at hsr
            exact absurd hsr List.not_mem_nil
          | some page =>
            rw [hpage] at hsr
            obtain ⟨d,hd,hfinds,rfl⟩ := SearchEngine.mem_search hpage hsr
            exact ⟨d,htext.1,hd,hfinds,hm⟩
  · obtain ⟨m,hm,hsel⟩ := hrow item h
    exact ⟨m,hm,Or.inl hsel⟩

/-- Never more is collected than is answered. -/
theorem SearchPlan.length_items_le : (plan.items e index db limit offset).length ≤ limit := by
  have hrows : (db.searchMessagesSqlite plan.text plan.filters limit).length ≤ limit :=
    List.length_take_le _ _
  unfold SearchPlan.items
  dsimp only
  split
  · rw [List.length_append,List.length_map]
    refine (Nat.add_le_add_left ((length_addUnseen_le _ _).trans (List.length_take_le _ _)) _).trans ?_
    exact (Nat.add_sub_of_le hrows).le
  · rw [List.length_map]
    exact hrows

/-- As many results as there could be. -/
def ample (index : Option (List IndexableMessage)) (db : Db) : Nat :=
  db.messages.rows.length + (index.getD []).length + 1

theorem SearchPlan.mem_items_of_selects {m : CachedMessage} (hm : m ∈ db.messages.rows)
    (hsel : sqlSelects plan.text plan.filters m = true) :
    m.item m.snippet ∈ plan.items e index db (ample index db) 0 := by
  have hmem : m.item m.snippet ∈ (db.searchMessagesSqlite plan.text plan.filters
      (ample index db)).map (fun m => m.item m.snippet) := by
    refine List.mem_map.mpr ⟨m,Db.mem_searchMessagesSqlite_of_length_le hm hsel ?_,rfl⟩
    exact (Nat.le_add_right _ _).trans (Nat.le_succ _)
  unfold SearchPlan.items
  dsimp only
  split
  · exact List.mem_append_left _ hmem
  · exact hmem

theorem SearchPlan.exists_item_of_hits {d : IndexableMessage} {m : CachedMessage}
    (h : plan.Hits e index db d m) : ∃ item ∈ plan.items e index db (ample index db) 0,
      item.folderName = m.folder ∧ item.uid = m.uid := by
  obtain ⟨htext,hd,hfinds,hm⟩ := h
  let rows := db.searchMessagesSqlite plan.text plan.filters (ample index db)
  have hrows : rows.length ≤ db.messages.rows.length := Db.length_searchMessagesSqlite_le _
  have hroom : rows.length < ample index db :=
    Nat.lt_succ_of_le (hrows.trans (Nat.le_add_right _ _))
  obtain ⟨docs,rfl⟩ : ∃ docs, index = some docs := by
    cases index with
    | none => exact absurd hd List.not_mem_nil
    | some docs => exact ⟨docs,rfl⟩
  rw [Option.getD_some] at hd
  obtain ⟨page,hpage,hlen,hmem⟩ := SearchEngine.search_of_finds
    (q := plan.query (ample (some docs) db) 0) hd hfinds rfl
    (Nat.le_succ_of_le (Nat.le_add_left _ _))
  have hresults : e.results (some docs) (plan.query (ample (some docs) db) 0) = page.1 := by
    unfold SearchEngine.results
    rw [Option.bind_some,hpage]
    rfl
  have hfound : (m,e.snippet (plan.query (ample (some docs) db) 0) d) ∈ db.resolve page.1 :=
    List.mem_filterMap.mpr ⟨_,hmem,Option.map_eq_some_iff.mpr ⟨m,hm,rfl⟩⟩
  have hall : (db.resolve page.1).take (ample (some docs) db - rows.length) = db.resolve page.1 := by
    refine List.take_of_length_le ((List.length_filterMap_le _ _).trans (hlen.trans ?_))
    have hample : ample (some docs) db = db.messages.rows.length + docs.length + 1 := rfl
    omega
  have hitems : plan.items e (some docs) db (ample (some docs) db) 0 =
      rows.map (fun m => m.item m.snippet) ++
        addUnseen (rows.map (fun m => (m.folder,m.uid))) (db.resolve page.1) := by
    unfold SearchPlan.items
    dsimp only
    rw [if_pos ⟨htext,hroom⟩,hresults,hall]
  rw [hitems]
  rcases exists_mem_addUnseen (rows.map (fun m => (m.folder,m.uid))) hfound with
    hseen | ⟨item,hitem,hkey⟩
  · -- the message has been found in the cache
    obtain ⟨r,hr,hkey⟩ := List.mem_map.mp hseen
    obtain ⟨hfolder,huid⟩ := Prod.mk.inj hkey
    exact ⟨r.item r.snippet,List.mem_append_left _ (List.mem_map.mpr ⟨r,hr,rfl⟩),hfolder,huid⟩
  · exact ⟨item,List.mem_append_right _ hitem,hkey⟩

end

section

variable {e : SearchEngine} {now : Int} {decrypt : String → Except AppError String}
  {index : Option (List IndexableMessage)} {docs : List IndexableMessage} {db : Db}
  {p : SearchParams} {plan : SearchPlan} {m : CachedMessage} {d : IndexableMessage}

theorem SearchParams.plan_text (h : p.plan now decrypt = .ok plan) :
    plan.text = (parseSearchQuery now p.queryText).text := by
  unfold SearchParams.plan at h
  generalize parseSearchQuery now p.queryText = parsed at h ⊢
  split at h
  · cases h
  · cases hf : p.uiFolder decrypt with
    | error err =>
      rw [hf] at h
      cases h
    | ok f =>
      rw [hf] at h
      obtain rfl := Except.ok.inj h
      rfl

/-- A row that is selected is as asked for exactly if nothing is left open of it. -/
theorem SearchPlan.sqlLeaves_iff (hplan : p.plan now decrypt = .ok plan)
    (hsel : sqlSelects plan.text plan.filters m = true) :
    plan.SqlLeaves e docs (p.asked now decrypt) m ↔ p.Satisfies e docs now decrypt m := by
  obtain ⟨_,htext,hconditions⟩ := sqlSelects_iff.mp hsel
  unfold SearchParams.Satisfies SearchPlan.SqlLeaves
  rw [← SearchParams.plan_text hplan]
  refine and_congr_right (fun _ => and_congr ?_ (forall_congr' (fun f => imp_congr_right ?_)))
  · refine ⟨fun h => h.elim (fun hwild => ?_) id,Or.inr⟩
    exact htext.imp id (fun ⟨column,hcolumn,hlike⟩ => foundIn_of_like hcolumn hwild hlike)
  · refine fun _ => ⟨fun h => h.elim (fun hf => ?_) id,Or.inr⟩
    exact Filter.holds_of_condition hf.2 (hconditions f hf.1)

/-- The message of a document that is found is as asked for exactly if nothing is left open of it. -/
theorem SearchPlan.indexLeaves_iff (hplan : p.plan now decrypt = .ok plan)
    (hhit : plan.Hits e index db d m) :
    plan.IndexLeaves e (index.getD []) (p.asked now decrypt) d m ↔
      p.Satisfies e (index.getD []) now decrypt m := by
  obtain ⟨htext,hd,hfinds,_⟩ := hhit
  obtain ⟨⟨c,hc,hcd⟩,hclauses⟩ := hfinds.clause
  have hparse : e.parseQuery [.subject,.bodyText,.fromName,.toAddresses] plan.text = some c := by
    unfold SearchEngine.textClause at hc
    exact (if_neg htext).symm.trans hc
  unfold SearchParams.Satisfies SearchPlan.IndexLeaves
  rw [← SearchParams.plan_text hplan]
  refine and_congr_right (fun _ => and_congr ?_ (forall_congr' (fun f => imp_congr_right ?_)))
  · refine ⟨fun h => h.elim (fun hm => ?_) id,Or.inr⟩
    exact Or.inr (foundIn_of_clause hd hm ⟨c,hparse,hcd⟩)
  · refine fun _ => ⟨fun h => h.elim (fun hf => ?_) id,Or.inr⟩
    exact Filter.holds_of_clause hd hf.2 (SearchQuery.indexed_of_mem hf.1) (hclauses f hf.1)

/-- A request that can be planned is answered with the items of the plan. -/
theorem mem_searchMessages (e : SearchEngine) (index : Option (List IndexableMessage)) (db : Db)
    (hplan : p.plan now decrypt = .ok plan) :
    ∃ resp, searchMessages e now decrypt index db p = .ok resp ∧
      ∀ item, item ∈ resp.results ↔ item ∈ plan.items e index db p.limit p.offset := by
  refine ⟨_,by rw [searchMessages,hplan]; rfl,fun item => ?_⟩
  dsimp only
  rw [List.take_of_length_le (by
    rw [length_sortItems]
    exact SearchPlan.length_items_le),mem_sortItems]

end

/-- A message about lunch. -/
def lunch : CachedMessage :=
  ImapMessageHeader.row { plainHeader with uid := 1, subject := some "Lunch" } "INBOX"

/-- A cache of that message. -/
def lunchDb : Db :=
  ((Db.empty.insertFolderIfNew "INBOX" (some "/") "").upsertHeader "INBOX"
    { plainHeader with uid := 1, subject := some "Lunch" }).getD .empty

/-- A library that reads every text, and finds the documents with that subject. -/
def subjectEngine : SearchEngine where
  parseQuery := fun _ text => some (fun d => d.subject = text)
  rank := fun _ docs => docs
  rank_perm := fun _ _ => List.Perm.refl _
  snippet := fun _ d => d.subject

/-- A search for a subject, and nothing else. -/
def invoiceSearch : SearchParams :=
  ⟨some "subject:invoice",none,none,none,none,none,none,200,0,"date_desc",none,none⟩

end Rav
