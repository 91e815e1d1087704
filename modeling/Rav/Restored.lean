import Rav.Db.Cache

/-!
# Headers stored again

Storing the header of a cached message replaces its row: the columns of the cached body fall back
to their defaults, and deleting the old row takes its tags along. So a sequence of stores, from
however many fetchers, changes header columns only, exactly if none of them hits a message with a
cached body, a theme or tags.

## Main definitions

- `HeaderUpsert`, `upsertAll` — one store, and a sequence of them
- `HeadersOnly` — nothing but header columns has changed
- `Cache.Bare` — a message, if cached, has no body, no theme and no tags
-/

namespace Rav

/-- One call of `upsert_message`, which may fail for reasons of its own. -/
structure HeaderUpsert where
  folder : String
  uid : Nat
  params : UpsertMessageParams
  fails : Option String

namespace HeaderUpsert

def key (u : HeaderUpsert) : Nat × String := (u.uid,u.folder)

def run (u : HeaderUpsert) (c : Cache) : Except String Cache :=
  match u.fails with
  | some e => .error e
  | none => c.upsertMessage u.folder u.uid u.params

/-- What the call leaves: a call that fails changes nothing. -/
def after (u : HeaderUpsert) (c : Cache) : Cache :=
  match u.run c with
  | .ok c' => c'
  | .error _ => c

end HeaderUpsert

def upsertAll (c : Cache) (us : List HeaderUpsert) : Cache := us.foldl (fun c u => u.after c) c

/-- A message of the first cache is still there with its body and theme, others have none, and the
tags are the same; folders, tag names and events are not touched, and no message is there twice. -/
structure HeadersOnly (c c' : Cache) : Prop where
  folders : c'.rows.folders = c.rows.folders
  tags : c'.rows.tags = c.rows.tags
  events : c'.rows.events = c.rows.events
  messageTags : c'.rows.messageTags = c.rows.messageTags
  content : ∀ m ∈ c.rows.messages, ∃ m' ∈ c'.rows.messages, m'.key = m.key ∧ m'.content = m.content
  fresh : ∀ m' ∈ c'.rows.messages,
    (∃ m ∈ c.rows.messages, m.key = m'.key) ∨ m'.content = (none,none)
  once : (c'.rows.messages.map StoredMessage.key).Nodup

/-- A message, if it is cached, has neither body nor theme nor tags. -/
def Cache.Bare (c : Cache) (k : Nat × String) : Prop :=
  (∀ m ∈ c.rows.messages, m.key = k → m.content = (none,none)) ∧
    ∀ t ∈ c.rows.messageTags, t.message ≠ k

instance (c : Cache) (k : Nat × String) : Decidable (c.Bare k) := by
  unfold Cache.Bare
  infer_instance

/-! ### What one store does -/

namespace HeaderUpsert

variable {u : HeaderUpsert} {c c' : Cache} {m : StoredMessage} {t : MessageTagRow}
  {k : Nat × String}

theorem after_cases (u : HeaderUpsert) (c : Cache) :
    (u.after c = c ∧ (u.fails = none → ∀ m ∈ c.rows.messages, m.folder ≠ u.folder)) ∨
      (u.fails = none ∧ (u.after c).rows = c.upsertRows u.folder u.uid u.params) := by
  unfold after run
  cases hf : u.fails with
  | some e => exact Or.inl ⟨rfl,nofun⟩
  | none =>
    cases hu : c.upsertMessage u.folder u.uid u.params with
    | ok c' => exact Or.inr ⟨rfl,Cache.upsertMessage_rows hu⟩
    | error e =>
      refine Or.inl ⟨rfl,fun _ m hm hfolder => ?_⟩
      obtain ⟨f,hmem,hname⟩ := c.fk.folder m hm
      obtain ⟨c',hc⟩ : ∃ c', c.upsertMessage u.folder u.uid u.params = .ok c' :=
        Cache.upsertMessage_of_folder ⟨f,hmem,hname.trans hfolder⟩
      rw [hu] at hc
      simp at hc

theorem mem_upsertRows : m ∈ (c.upsertRows u.folder u.uid u.params).messages ↔
    (m ∈ c.rows.messages ∧ m.key ≠ u.key) ∨ m = ⟨u.params.row u.folder u.uid,none⟩ := by
  simp [Cache.upsertRows,key]

theorem mem_upsertRows_tags : t ∈ (c.upsertRows u.folder u.uid u.params).messageTags ↔
    t ∈ c.rows.messageTags ∧ t.message ≠ u.key := by
  simp [Cache.upsertRows,key]

/-- A message that is bare stays bare. -/
theorem bare_after (h : c.Bare k) : (u.after c).Bare k := by
  rcases after_cases u c with ⟨hsame,-⟩ | ⟨-,hrows⟩
  · rwa [hsame]
  · refine ⟨fun m hm hk => ?_,fun t ht => ?_⟩
    · rw [hrows,mem_upsertRows] at hm
      rcases hm with ⟨hm,-⟩ | rfl
      · exact h.1 m hm hk
      · rfl
    · rw [hrows,mem_upsertRows_tags] at ht
      exact h.2 t ht.1

/-- A message whose header has been stored is bare. -/
theorem bare_self (hf : u.fails = none) (hm : m ∈ c.rows.messages) (hk : m.key = u.key) :
    (u.after c).Bare u.key := by
  rcases after_cases u c with ⟨-,hnone⟩ | ⟨-,hrows⟩
  · exact absurd (congrArg Prod.snd hk) (hnone hf m hm)
  · refine ⟨fun m' hm' hk' => ?_,fun t ht => ?_⟩
    · rw [hrows,mem_upsertRows] at hm'
      rcases hm' with ⟨-,hne⟩ | rfl
      · exact absurd hk' hne
      · rfl
    · rw [hrows,mem_upsertRows_tags] at ht
      exact ht.2

end HeaderUpsert

namespace HeadersOnly

variable {c c' : Cache} {u : HeaderUpsert}

theorem refl (c : Cache) : HeadersOnly c c :=
  ⟨rfl,rfl,rfl,rfl,fun m hm => ⟨m,hm,rfl,rfl⟩,fun m hm => Or.inl ⟨m,hm,rfl⟩,c.unique.messages⟩

/-- A store that hits no body, theme or tags of the first cache changes headers only. -/
theorem after (h : HeadersOnly c c') (hbare : u.fails = none → c.Bare u.key) :
    HeadersOnly c (u.after c') := by
  rcases HeaderUpsert.after_cases u c' with ⟨hsame,-⟩ | ⟨hf,hrows⟩
  · rwa [hsame]
  · have hnot := hbare hf
    refine ⟨?_,?_,?_,?_,fun m hm => ?_,fun m hm => ?_,(u.after c').unique.messages⟩
    · rw [hrows]
      exact h.folders
    · rw [hrows]
      exact h.tags
    · rw [hrows]
      exact h.events
    · rw [hrows,← h.messageTags]
      refine List.filter_eq_self.mpr (fun t ht => ?_)
      rw [h.messageTags] at ht
      exact decide_eq_true (hnot.2 t ht)
    · by_cases hk : m.key = u.key
      · refine ⟨⟨u.params.row u.folder u.uid,none⟩,?_,hk.symm,(hnot.1 m hm hk).symm⟩
        rw [hrows,HeaderUpsert.mem_upsertRows]
        exact Or.inr rfl
      · obtain ⟨m',hm',hk',hcontent⟩ := h.content m hm
        refine ⟨m',?_,hk',hcontent⟩
        rw [hrows,HeaderUpsert.mem_upsertRows]
        exact Or.inl ⟨hm',by rwa [hk']⟩
    · rw [hrows,HeaderUpsert.mem_upsertRows] at hm
      rcases hm with ⟨hm,-⟩ | rfl
      · exact h.fresh m hm
      · exact Or.inr rfl

/-- What is bare in the end was bare before. -/
theorem bare_of_bare {k : Nat × String} (h : HeadersOnly c c') (hbare : c'.Bare k) : c.Bare k := by
  refine ⟨fun m hm hk => ?_,?_⟩
  · obtain ⟨m',hm',hk',hcontent⟩ := h.content m hm
    rw [← hcontent]
    exact hbare.1 m' hm' (hk'.trans hk)
  · rw [← h.messageTags]
    exact hbare.2

end HeadersOnly

/-! ### A sequence of stores -/

section Sequence

variable {c : Cache} {us : List HeaderUpsert} {k : Nat × String}

theorem bare_upsertAll (h : c.Bare k) : (upsertAll c us).Bare k := by
  induction us generalizing c with
  | nil => exact h
  | cons u us ih => exact ih (HeaderUpsert.bare_after h)

/-- A cached message stays cached. -/
theorem cached_after {u : HeaderUpsert} (h : ∃ m ∈ c.rows.messages, m.key = k) :
    ∃ m ∈ (u.after c).rows.messages, m.key = k := by
  obtain ⟨m,hm,hk⟩ := h
  rcases HeaderUpsert.after_cases u c with ⟨hsame,-⟩ | ⟨-,hrows⟩
  · rw [hsame]
    exact ⟨m,hm,hk⟩
  · rw [hrows]
    by_cases hu : m.key = u.key
    · exact ⟨_,HeaderUpsert.mem_upsertRows.mpr (Or.inr rfl),hu.symm.trans hk⟩
    · exact ⟨m,HeaderUpsert.mem_upsertRows.mpr (Or.inl ⟨hm,hu⟩),hk⟩

theorem bare_upsertAll_of_mem {u : HeaderUpsert} (hu : u ∈ us) (hf : u.fails = none)
    (hcached : ∃ m ∈ c.rows.messages, m.key = u.key) : (upsertAll c us).Bare u.key := by
  induction us generalizing c with
  | nil => simp at hu
  | cons v us ih =>
    rcases List.mem_cons.mp hu with rfl | hu
    · obtain ⟨m,hm,hk⟩ := hcached
      have hself : (u.after c).Bare u.key := HeaderUpsert.bare_self hf hm hk
      show (upsertAll (u.after c) us).Bare u.key
      exact bare_upsertAll hself
    · exact ih hu (cached_after hcached)

theorem headersOnly_upsertAll {c₀ : Cache} (h : HeadersOnly c₀ c)
    (hbare : ∀ u ∈ us, u.fails = none → c₀.Bare u.key) : HeadersOnly c₀ (upsertAll c us) := by
  induction us generalizing c with
  | nil => exact h
  | cons u us ih =>
    exact ih (h.after (hbare u List.mem_cons_self)) (fun v hv => hbare v (List.mem_cons_of_mem _ hv))

end Sequence

/-- A sequence of stores changes header columns only, exactly if every one that goes through is of
a message that is not cached, or cached without body, theme and tags. -/
theorem upserts_headers_only (c : Cache) (us : List HeaderUpsert) :
    HeadersOnly c (upsertAll c us) ↔ ∀ u ∈ us, u.fails = none → c.Bare u.key := by
  constructor
  · intro h u hu hf
    by_cases hcached : ∃ m ∈ c.rows.messages, m.key = u.key
    · exact h.bare_of_bare (bare_upsertAll_of_mem hu hf hcached)
    · -- what is not cached has no tags either
      refine ⟨fun m hm hk => absurd ⟨m,hm,hk⟩ hcached,fun t ht hk => ?_⟩
      obtain ⟨m,hm,hkey⟩ := c.fk.message t ht
      exact hcached ⟨m,hm,hkey.trans hk⟩
  · exact headersOnly_upsertAll (HeadersOnly.refl c)

/-! ### Samples -/

def sampleHeader : UpsertMessageParams where
  messageId := none
  inReplyTo := none
  referencesHeader := none
  subject := "minutes"
  fromAddress := "a@example.com"
  fromName := ""
  toJson := "[]"
  ccJson := "[]"
  date := ""
  dateEpoch := 0
  flagsCsv := ""
  size := 120
  hasAttachments := false
  snippet := ""
  reaction := none
  origin := ⟨1,7⟩

/-- One message with a cached body and a tag. -/
def taggedRows : CacheRows where
  folders := [⟨"INBOX",none,none,"",true,1,0,1,1,none⟩]
  messages := [⟨{ sampleHeader.row "INBOX" 7 with body := some ⟨none,some "text",none,none,⟨1,7⟩⟩ },
    some 0⟩]
  tags := [⟨"t","work","#6b7280"⟩]
  messageTags := [⟨"t",7,"INBOX","2026-01-01 00:00:00"⟩]
  events := []

def taggedCache : Cache := ⟨taggedRows,by decide,by decide⟩

/-- Its header, fetched once more. -/
def overlap : List HeaderUpsert := [⟨"INBOX",7,sampleHeader,none⟩]

/-- The tag and the body are gone. -/
theorem overlap_drops_tag :
    ¬∀ (c : Cache) (us : List HeaderUpsert), HeadersOnly c (upsertAll c us) := by
  intro hall
  have htags := (hall taggedCache overlap).messageTags
  exact absurd htags (by decide)

end Rav
