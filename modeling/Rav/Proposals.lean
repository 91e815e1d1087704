import Mathlib.Data.Set.Function
import Mathlib.Order.Interval.Set.Basic
import Rav.Checked
import Rav.Conversation

/-!
# What a turn may propose

Over a whole turn, the refs `m1` to `mn` stand one to one for the messages that the model has been
shown; proposed actions name such messages only, each once and not too many, and only folders the
user has; and an answer comes with the source of each ref.

## Main definitions

- `shownLocs` — the messages that the model has been shown
- `RefTable.Bijective`, `ActionProposal.Sound`, `RefsCited` — the parts of the property
- `ToolContext.Known` — what the context of a turn knows of its exchanges
-/

namespace Rav

def ActionMessage.loc (m : ActionMessage) : MessageLoc := ⟨m.folder,m.uid⟩

def SourceRef.loc (s : SourceRef) : MessageLoc := ⟨s.folder,s.uid⟩

def DraftProposal.loc (d : DraftProposal) : MessageLoc := ⟨d.folder,d.uid⟩

/-- The messages an exchange shows to the model. -/
def Exchange.shown : Exchange → List MessageLoc
  | ⟨.search _,Except.ok found⟩ => (found.take 10).map MessageSummary.loc
  | ⟨.read _,Except.ok m⟩ => [m.loc]
  | ⟨.thread _,Except.ok found⟩ => found.map MessageContent.loc
  | _ => []

def shownLocs (t : List Exchange) : List MessageLoc := t.flatMap Exchange.shown

/-- The refs `m1` to `mn` stand one to one for the messages shown, and nothing else is a ref. -/
structure RefTable.Bijective (refs : RefTable) (shown : List MessageLoc) : Prop where
  bijOn : ∃ n, Set.BijOn refs.resolve (RefTable.refName '' Set.Icc 1 n)
    (some '' {loc | loc ∈ shown}) ∧ ∀ r, r ∉ RefTable.refName '' Set.Icc 1 n → refs.resolve r = none
  byLoc : ∀ loc r, refs.byLoc.get loc = some r ↔ refs.resolve r = some loc

/-- An action names messages under refs, each once and not too many, and folders of the user. -/
structure ActionProposal.Sound (refs : RefTable) (t : List Exchange) (p : ActionProposal) :
    Prop where
  messages : ∀ m ∈ p.messages, ∃ r, refs.resolve r = some m.loc
  nodup : (p.messages.map ActionMessage.loc).Nodup
  size : p.messages.length ≤ maxActionMessages
  folder : ∀ f, p.folder = some f ∨ (∃ s, p.filter = some ⟨s,f⟩) →
    ∃ folders, Exchange.listed folders ∈ t ∧ f ∈ folders

/-- Each ref of the table is in the sources that the user is sent. -/
def RefsCited (refs : RefTable) (t : List Exchange) : Prop :=
  ∀ r loc, refs.resolve r = some loc →
    ∃ sources, Exchange.emitted (.sources sources) ∈ t ∧ ∃ s ∈ sources, s.msgRef = r ∧ s.loc = loc

/-- The table and the actions of a turn are sound. -/
structure ProposalsSound (refs : RefTable) (t : List Exchange) : Prop where
  table : refs.Bijective (shownLocs t)
  actions : ∀ p, Exchange.emitted (.action p) ∈ t → p.Sound refs t
  drafts : ∀ d, Exchange.emitted (.draft d) ∈ t → refs.resolve d.msgRef = some d.loc

namespace RefTable

/-- A table that lists its messages is a bijection. -/
theorem Lists.bijective {refs : RefTable} {locs shown : List MessageLoc} (h : refs.Lists locs)
    (hs : ∀ loc, loc ∈ shown ↔ ∃ r, refs.resolve r = some loc) : refs.Bijective shown := by
  refine ⟨⟨locs.length,⟨?_,?_,?_⟩,?_⟩,h.byLoc⟩
  · rintro _ ⟨n,⟨hn,hlen⟩,rfl⟩
    obtain ⟨i,rfl⟩ : ∃ i, n = i+1 := ⟨n-1,by omega⟩
    have hr : refs.resolve (refName (i+1)) = some locs[i] :=
      h.resolve.mpr ⟨i,List.getElem?_eq_getElem hlen,rfl⟩
    exact ⟨locs[i],(hs _).mpr ⟨_,hr⟩,hr.symm⟩
  · rintro _ ⟨n,⟨hn,hlen⟩,rfl⟩ _ ⟨n',⟨hn',hlen'⟩,rfl⟩ he
    obtain ⟨i,rfl⟩ : ∃ i, n = i+1 := ⟨n-1,by omega⟩
    have hr : refs.resolve (refName (i+1)) = some locs[i] :=
      h.resolve.mpr ⟨i,List.getElem?_eq_getElem hlen,rfl⟩
    obtain ⟨j,hj,hname⟩ := h.resolve.mp (he.symm.trans hr)
    rw [hname]
    congr 1
    have hij : locs[i]? = locs[j]? := by rw [hj]; exact List.getElem?_eq_getElem hlen
    rw [(List.getElem?_inj hlen h.nodup).mp hij]
  · rintro _ ⟨loc,hloc,rfl⟩
    obtain ⟨r,hr⟩ := (hs loc).mp hloc
    obtain ⟨i,hi,rfl⟩ := h.resolve.mp hr
    have hlen := (List.getElem?_eq_some_iff.mp hi).1
    exact ⟨_,⟨i+1,⟨by omega,by omega⟩,rfl⟩,hr⟩
  · intro r hr
    refine Option.eq_none_iff_forall_ne_some.mpr (fun loc hl => ?_)
    obtain ⟨i,hi,rfl⟩ := h.resolve.mp hl
    have hlen := (List.getElem?_eq_some_iff.mp hi).1
    exact hr ⟨i+1,⟨by omega,by omega⟩,rfl⟩

end RefTable

theorem shownLocs_append (t t' : List Exchange) :
    shownLocs (t ++ t') = shownLocs t ++ shownLocs t' := List.flatMap_append

theorem shownLocs_eq_nil {t : List Exchange} (h : ∀ x ∈ t, x.shown = []) : shownLocs t = [] :=
  List.flatMap_eq_nil_iff.mpr h

theorem Exchange.Barren.shown {x : Exchange} (h : x.Barren) : x.shown = [] := by
  obtain ⟨c,r⟩ := x
  cases c with
  | complete _ _ => exact h.elim
  | info _ _ => exact h.elim
  | emit _ => exact h.elim
  | search _ => obtain ⟨e,rfl⟩ := h; rfl
  | read _ => obtain ⟨e,rfl⟩ := h; rfl
  | thread _ => obtain ⟨e,rfl⟩ := h; rfl
  | folders => rfl
  | newV4 => rfl

/-! ### The context of a turn -/

/-- Refs are never taken back. -/
def RefTable.Grows (refs refs' : RefTable) : Prop :=
  ∀ r loc, refs.resolve r = some loc → refs'.resolve r = some loc

theorem RefTable.Grows.refl (refs : RefTable) : refs.Grows refs := fun _ _ h => h

theorem RefTable.Grows.trans {a b c : RefTable} (h : a.Grows b) (h' : b.Grows c) : a.Grows c :=
  fun r loc hr => h' r loc (h r loc hr)

/-- The refs and the sources of a context are those of the messages shown. -/
structure ToolContext.Cited (ctx : ToolContext) (shown : List MessageLoc) : Prop where
  table : ∃ locs, ctx.refs.Lists locs
  shown : ∀ loc, loc ∈ shown ↔ ∃ r, ctx.refs.resolve r = some loc
  sources : ∀ r loc, ctx.refs.resolve r = some loc ↔ ∃ s ∈ ctx.sources, s.msgRef = r ∧ s.loc = loc

theorem cited_empty : ToolContext.empty.Cited [] where
  table := ⟨[],RefTable.lists_empty⟩
  shown _ := ⟨fun h => absurd h List.not_mem_nil,nofun⟩
  sources _ _ := ⟨nofun,fun ⟨_,hs,_⟩ => absurd hs List.not_mem_nil⟩

section Cite

variable {ctx : ToolContext} {shown : List MessageLoc} {loc : MessageLoc}
  {subject sender date : String}

theorem ToolContext.Cited.minted (h : ctx.Cited shown) :
    ctx.refs.Minted loc (ctx.cite loc subject sender date).1
      (ctx.cite loc subject sender date).2.refs := by
  obtain ⟨locs,hl⟩ := h.table
  obtain ⟨_,_,hm⟩ := hl.mint loc
  exact hm

theorem ToolContext.Cited.grows (h : ctx.Cited shown) :
    ctx.refs.Grows (ctx.cite loc subject sender date).2.refs :=
  fun _ _ hr => (h.minted.resolve _ _).mpr (.inl hr)

/-- A source is added unless there is one under the ref. -/
theorem mem_sources_cite {s : SourceRef} :
    s ∈ (ctx.cite loc subject sender date).2.sources ↔ s ∈ ctx.sources ∨
      (∀ s' ∈ ctx.sources, s'.msgRef ≠ (ctx.cite loc subject sender date).1) ∧
        s = ⟨(ctx.cite loc subject sender date).1,loc.folder,loc.uid,subject,sender,date⟩ := by
  unfold ToolContext.cite
  generalize ctx.refs.mint loc = m
  obtain ⟨r,refs⟩ := m
  by_cases hany : ctx.sources.any (fun s => s.msgRef = r)
  · obtain ⟨s',hs',hr⟩ := List.any_eq_true.mp hany
    simp only [if_pos hany]
    exact ⟨.inl,fun hs => hs.resolve_right (fun hc => hc.1 s' hs' (of_decide_eq_true hr))⟩
  · simp only [if_neg hany,List.mem_append,List.mem_singleton]
    have hnone : ∀ s' ∈ ctx.sources, s'.msgRef ≠ r :=
      fun s' hs' hr => hany (List.any_eq_true.mpr ⟨s',hs',decide_eq_true hr⟩)
    exact or_congr_right ⟨fun hs => ⟨hnone,hs⟩,And.right⟩

/-- Citing a message keeps refs and sources to the messages shown. -/
theorem ToolContext.Cited.cite (h : ctx.Cited shown) :
    (ctx.cite loc subject sender date).2.Cited (shown ++ [loc]) := by
  have hm : ctx.refs.Minted loc (ctx.cite loc subject sender date).1
    (ctx.cite loc subject sender date).2.refs := h.minted
  refine ⟨?_,fun loc' => ?_,fun r loc' => ?_⟩
  · obtain ⟨locs,hl⟩ := h.table
    obtain ⟨locs',hl',_⟩ := hl.mint loc
    exact ⟨locs',hl'⟩
  · rw [List.mem_append,List.mem_singleton,h.shown]
    constructor
    · rintro (⟨r,hr⟩ | rfl)
      · exact ⟨r,(hm.resolve _ _).mpr (.inl hr)⟩
      · exact ⟨_,(hm.resolve _ _).mpr (.inr ⟨rfl,rfl⟩)⟩
    · rintro ⟨r,hr⟩
      rcases (hm.resolve _ _).mp hr with hr | ⟨_,hl⟩
      · exact .inl ⟨r,hr⟩
      · exact .inr hl
  · rw [hm.resolve]
    constructor
    · rintro (hr | ⟨rfl,rfl⟩)
      · obtain ⟨s,hs,hsr⟩ := (h.sources r loc').mp hr
        exact ⟨s,mem_sources_cite.mpr (.inl hs),hsr⟩
      · by_cases hex : ∃ s ∈ ctx.sources, s.msgRef = (ctx.cite loc' subject sender date).1
        · obtain ⟨s,hs,hr⟩ := hex
          -- The ref is in use, so it stands for this very message.
          have hold : ctx.refs.resolve s.msgRef = some s.loc := (h.sources _ _).mpr ⟨s,hs,rfl,rfl⟩
          have hnew := (hm.resolve s.msgRef s.loc).mpr (.inl hold)
          have hself := (hm.resolve s.msgRef loc').mpr (.inr ⟨hr,rfl⟩)
          exact ⟨s,mem_sources_cite.mpr (.inl hs),hr,Option.some.inj (hnew.symm.trans hself)⟩
        · exact ⟨_,mem_sources_cite.mpr (.inr ⟨fun s hs hr => hex ⟨s,hs,hr⟩,rfl⟩),rfl,rfl⟩
    · rintro ⟨s,hs,rfl,rfl⟩
      rcases mem_sources_cite.mp hs with hs | ⟨_,rfl⟩
      · exact .inl ((h.sources _ _).mpr ⟨s,hs,rfl,rfl⟩)
      · exact .inr ⟨rfl,rfl⟩

/-- Citing several messages, one after the other. -/
theorem ToolContext.Cited.citeEach {μ : Type} (cite : ToolContext → μ → String × ToolContext)
    (json : μ → String → Text) (at_ : μ → MessageLoc) (ms : List μ)
    (hcite : ∀ ctx m, ∃ subject sender date, cite ctx m = ctx.cite (at_ m) subject sender date)
    (h : ctx.Cited shown) :
    (Rav.citeEach cite json ctx ms).2.Cited (shown ++ ms.map at_) ∧
      ctx.refs.Grows (Rav.citeEach cite json ctx ms).2.refs := by
  induction ms generalizing ctx shown with
  | nil => exact ⟨(List.append_nil shown).symm ▸ h,.refl _⟩
  | cons m ms ih =>
    obtain ⟨subject,sender,date,hc⟩ := hcite ctx m
    have hnext : (cite ctx m).2.Cited (shown ++ [at_ m]) := hc ▸ h.cite
    have hgrows : ctx.refs.Grows (cite ctx m).2.refs := hc ▸ h.grows
    obtain ⟨hlast,hrest⟩ := ih hnext
    rw [List.append_assoc] at hlast
    exact ⟨hlast,hgrows.trans hrest⟩

end Cite

/-! ### Proposals -/

theorem actionMessages_spec {ctx : ToolContext} {seen : List MessageLoc} {rs : List String}
    {ms : List ActionMessage} (h : ctx.actionMessages seen rs = .ok ms) :
    (∀ m ∈ ms, (∃ r, ctx.refs.resolve r = some m.loc) ∧ m.loc ∉ seen) ∧
      (ms.map ActionMessage.loc).Nodup := by
  induction rs generalizing seen ms with
  | nil =>
    obtain rfl := Except.ok.inj h
    exact ⟨fun _ hm => absurd hm List.not_mem_nil,List.nodup_nil⟩
  | cons r rs ih =>
    unfold ToolContext.actionMessages ToolContext.resolve at h
    cases hr : ctx.refs.resolve r with
    | none =>
      simp only [hr] at h
      cases h
    | some loc =>
      simp only [hr] at h
      by_cases hs : loc ∈ seen
      · rw [if_pos hs] at h
        exact ih h
      · rw [if_neg hs] at h
        cases hrest : ctx.actionMessages (loc :: seen) rs with
        | error e =>
          rw [hrest] at h
          cases h
        | ok rest =>
          rw [hrest] at h
          obtain rfl := Except.ok.inj h
          obtain ⟨hmem,hnodup⟩ := ih hrest
          constructor
          · intro m hm
            rcases List.mem_cons.mp hm with rfl | hm
            · exact ⟨⟨r,hr⟩,hs⟩
            · exact ⟨(hmem m hm).1,fun hc => (hmem m hm).2 (List.mem_cons_of_mem _ hc)⟩
          · refine List.nodup_cons.mpr ⟨fun hc => ?_,hnodup⟩
            obtain ⟨m,hm,hl⟩ := List.mem_map.mp hc
            exact (hmem m hm).2 (hl ▸ List.mem_cons_self)

theorem existingFolder_mem {folders : List String} {name f : String}
    (h : existingFolder folders name = .ok f) : f ∈ folders := by
  unfold existingFolder at h
  cases hf : folders.find? (fun f => f = name) with
  | none =>
    rw [hf] at h
    cases h
  | some g =>
    rw [hf] at h
    obtain rfl := Except.ok.inj h
    exact List.mem_of_find?_eq_some hf

/-- Where an action sends mail to is one of the folders. -/
theorem actionTarget_folder {lower : String → String} {args : ProposeActionArgs} {n : Nat}
    {folders : List String} {kind : ActionKind} {folder : Option String}
    {filter : Option FilterSpec} {summary : String}
    (h : actionTarget lower args n folders kind = .ok (folder,filter,summary)) {f : String}
    (hf : folder = some f ∨ ∃ s, filter = some ⟨s,f⟩) : f ∈ folders := by
  cases kind with
  | move =>
    obtain ⟨g,hg,h⟩ := except_bind_eq_ok.mp h
    obtain ⟨rfl,rfl,_⟩ := Prod.mk.inj (Except.ok.inj h) |>.imp id Prod.mk.inj
    rcases hf with hf | ⟨s,hf⟩
    · exact Option.some.inj hf ▸ existingFolder_mem hg
    · cases hf
  | archive =>
    unfold actionTarget at h
    cases hg : folders.find? (fun f => eqIgnoreAsciiCase f "archive") with
    | none =>
      rw [hg] at h
      cases h
    | some g =>
      rw [hg] at h
      obtain ⟨rfl,rfl,_⟩ := Prod.mk.inj (Except.ok.inj h) |>.imp id Prod.mk.inj
      rcases hf with hf | ⟨s,hf⟩
      · exact Option.some.inj hf ▸ List.mem_of_find?_eq_some hg
      · cases hf
  | markRead =>
    obtain ⟨rfl,rfl,_⟩ := Prod.mk.inj (Except.ok.inj h) |>.imp id Prod.mk.inj
    rcases hf with hf | ⟨s,hf⟩ <;> cases hf
  | createFilter =>
    obtain ⟨a,_,h⟩ := except_bind_eq_ok.mp h
    obtain ⟨g,hg,h⟩ := except_bind_eq_ok.mp h
    obtain ⟨rfl,rfl,_⟩ := Prod.mk.inj (Except.ok.inj h) |>.imp id Prod.mk.inj
    rcases hf with hf | ⟨s,hf⟩
    · cases hf
    · obtain ⟨-,rfl⟩ := FilterSpec.mk.inj (Option.some.inj hf)
      exact existingFolder_mem hg

/-- What an accepted action consists of. -/
theorem validateAction_spec {lower : String → String} {id : String} {args : ProposeActionArgs}
    {messages : List ActionMessage} {folders : List String} {p : ActionProposal}
    (h : Assistant.validateAction lower id args messages folders = .ok p) :
    p.messages = messages ∧ messages.length ≤ maxActionMessages ∧
      ∀ f, p.folder = some f ∨ (∃ s, p.filter = some ⟨s,f⟩) → f ∈ folders := by
  obtain ⟨kind,_,h⟩ := except_bind_eq_ok.mp h
  by_cases hlen : messages.length > maxActionMessages
  · rw [if_pos hlen] at h
    cases h
  by_cases hempty : kind ≠ .createFilter ∧ messages = []
  · rw [if_neg hlen,if_pos hempty] at h
    cases h
  · rw [if_neg hlen,if_neg hempty] at h
    obtain ⟨⟨folder,filter,summary⟩,ht,h⟩ := except_bind_eq_ok.mp h
    obtain rfl := Except.ok.inj h
    exact ⟨rfl,Nat.le_of_not_lt hlen,fun f hf => actionTarget_folder ht hf⟩

/-- A proposal names messages under refs and folders of the user. -/
structure AssistantEvent.Sound (refs : RefTable) (t : List Exchange) (e : AssistantEvent) :
    Prop where
  action : ∀ p, e = .action p → p.Sound refs t
  draft : ∀ d, e = .draft d → refs.resolve d.msgRef = some d.loc

theorem ActionProposal.Sound.mono {refs refs' : RefTable} {t t' : List Exchange}
    {p : ActionProposal} (h : p.Sound refs t) (hr : refs.Grows refs') : p.Sound refs' (t ++ t') where
  messages m hm := (h.messages m hm).imp (fun r => hr r _)
  nodup := h.nodup
  size := h.size
  folder f hf :=
    (h.folder f hf).imp (fun _ hl => ⟨List.mem_append_left _ hl.1,hl.2⟩)

theorem AssistantEvent.Sound.mono {refs refs' : RefTable} {t t' : List Exchange}
    {e : AssistantEvent} (h : e.Sound refs t) (hr : refs.Grows refs') : e.Sound refs' (t ++ t') where
  action p hp := (h.action p hp).mono hr
  draft d hd := hr _ _ (h.draft d hd)

/-- What the context of a turn knows of its exchanges. -/
structure ToolContext.Known (ctx : ToolContext) (t : List Exchange) : Prop where
  cited : ctx.Cited (shownLocs t)
  proposals : ∀ e ∈ ctx.proposals, e.Sound ctx.refs t

section Known

variable {env : AssistantEnv} {ctx : ToolContext} {t₀ t : List Exchange}

theorem ToolContext.Known.append (h : ctx.Known t₀) (ht : ∀ x ∈ t, x.shown = []) :
    ctx.Known (t₀ ++ t) where
  cited := by
    rw [shownLocs_append,shownLocs_eq_nil ht,List.append_nil]
    exact h.cited
  proposals e he := (h.proposals e he).mono (.refl _)

/-- New refs and no new proposals. -/
theorem ToolContext.Known.cited_append {ctx' : ToolContext} (h : ctx.Known t₀)
    (hc : ctx'.Cited (shownLocs t₀ ++ shownLocs t)) (hr : ctx.refs.Grows ctx'.refs)
    (hp : ctx'.proposals = ctx.proposals) : ctx'.Known (t₀ ++ t) where
  cited := by rwa [shownLocs_append]
  proposals e he := (h.proposals e (hp ▸ he)).mono hr

/-- A new proposal. -/
theorem ToolContext.Known.propose {e : AssistantEvent} (h : ctx.Known t₀)
    (ht : ∀ x ∈ t, x.shown = []) (he : e.Sound ctx.refs (t₀ ++ t)) :
    ({ ctx with proposals := ctx.proposals ++ [e] } : ToolContext).Known (t₀ ++ t) where
  cited := by
    obtain ⟨htable,hshown,hsources⟩ := (h.append ht).cited
    exact ⟨htable,hshown,hsources⟩
  proposals e' he' := by
    rcases List.mem_append.mp he' with he' | he'
    · exact (h.append ht).proposals e' he'
    · rwa [List.mem_singleton.mp he']

theorem resolve_eq_ok {r : String} {loc : MessageLoc} (h : ctx.resolve r = .ok loc) :
    ctx.refs.resolve r = some loc := by
  unfold ToolContext.resolve at h
  cases hr : ctx.refs.resolve r with
  | none =>
    rw [hr] at h
    cases h
  | some l =>
    rw [hr] at h
    exact congrArg some (Except.ok.inj h)

theorem proposedMessages_spec {a : ProposeActionArgs} {ms : List ActionMessage}
    (h : proposedMessages ctx a = .ok ms) :
    (∀ m ∈ ms, ∃ r, ctx.refs.resolve r = some m.loc) ∧ (ms.map ActionMessage.loc).Nodup := by
  unfold proposedMessages at h
  by_cases hk : a.kind = "create_filter"
  · rw [if_pos hk] at h
    obtain rfl := Except.ok.inj h
    exact ⟨fun _ hm => absurd hm List.not_mem_nil,List.nodup_nil⟩
  · rw [if_neg hk] at h
    obtain ⟨hmem,hnodup⟩ := actionMessages_spec h
    exact ⟨fun m hm => (hmem m hm).1,hnodup⟩

/-- One tool call. -/
theorem ToolRun.known {r : ToolResult} (h : ToolRun env ctx t r) (hctx : ctx.Known t₀) :
    r.2.Known (t₀ ++ t) := by
  cases h with
  | refused e ht => exact hctx.append (fun x hx => (ht x hx).shown)
  | searched args found =>
    obtain ⟨hc,hr⟩ := hctx.cited.citeEach citeSummary MessageSummary.json MessageSummary.loc
      (found.take 10) (fun _ _ => ⟨_,_,_,rfl⟩)
    refine hctx.cited_append ?_ hr (citeEach_keeps (P := (·.proposals = ctx.proposals))
      (fun _ _ hp => hp) rfl)
    rwa [show shownLocs [Exchange.searched args found] = (found.take 10).map MessageSummary.loc from
      List.append_nil _]
  | readMessage loc m =>
    exact hctx.cited_append hctx.cited.cite hctx.cited.grows rfl
  | readThread loc found =>
    obtain ⟨hc,hr⟩ := hctx.cited.citeEach citeContent MessageContent.threadJson MessageContent.loc
      found (fun _ _ => ⟨_,_,_,rfl⟩)
    refine hctx.cited_append ?_ hr (citeEach_keeps (P := (·.proposals = ctx.proposals))
      (fun _ _ hp => hp) rfl)
    rwa [show shownLocs [Exchange.thread loc found] = found.map MessageContent.loc from
      List.append_nil _]
  | drafted note a loc hl =>
    refine hctx.propose (fun _ hx => absurd hx List.not_mem_nil) ⟨nofun,?_⟩
    rintro d ⟨⟩
    exact resolve_eq_ok hl
  | proposed note a messages folders id p hm hp =>
    obtain ⟨hmem,hnodup⟩ := proposedMessages_spec hm
    obtain ⟨rfl,hsize,hfolder⟩ := validateAction_spec hp
    refine hctx.propose (fun x hx => ?_) ⟨?_,nofun⟩
    · rcases List.mem_cons.mp hx with rfl | hx
      · rfl
      · rw [List.mem_singleton.mp hx]
        rfl
    · rintro q ⟨⟩
      exact ⟨hmem,hnodup,hsize,fun f hf =>
        ⟨folders,List.mem_append_right _ List.mem_cons_self,hfolder f hf⟩⟩

/-- The tool calls of one reply. -/
theorem CallsRun.known {step i : Nat} {calls : List ToolCall} {r : List ChatMessage × ToolContext}
    (h : CallsRun env step i ctx calls t r) (hctx : ctx.Known t₀) : r.2.Known (t₀ ++ t) := by
  induction h generalizing t₀ with
  | nil => exact hctx.append (fun _ hx => absurd hx List.not_mem_nil)
  | refused _ _ ih => exact ih hctx
  | @ran _ _ c _ t t' _ _ _ ht _ ih =>
    have hnotes : ∀ x ∈ [Exchange.emitted (.status (statusLabel c.name)),
        Exchange.logged step (knownToolName c.name)], x.shown = [] := by
      intro x hx
      rcases List.mem_cons.mp hx with rfl | hx
      · rfl
      · rw [List.mem_singleton.mp hx]
        rfl
    have hlast := ih (ht.known (hctx.append hnotes))
    rw [List.append_assoc,List.append_assoc] at hlast
    exact hlast

theorem shown_asking {st : TurnState} {last : Bool} {pieces : List String}
    {reply : Except ModelError ModelReply} : ∀ x ∈ asking st last pieces reply, x.shown = [] := by
  intro x hx
  rcases mem_asking hx with rfl | ⟨e,rfl⟩
  · rfl
  · rfl

/-- A whole turn. -/
theorem Reached.known {req : TurnRequest} {stage : Stage} (h : Reached env req t stage) :
    stage.ctx.Known t := by
  induction h with
  | opened ht =>
    have h₀ : ToolContext.empty.Known [] := ⟨cited_empty,fun _ he => absurd he List.not_mem_nil⟩
    exact h₀.append (fun x hx => (ht x hx).shown)
  | openedMail loc m => exact ⟨cited_empty.cite,fun _ he => absurd he List.not_mem_nil⟩
  | failed pieces e _ ih =>
    refine (ih.append shown_asking).append (fun x hx => ?_)
    rw [List.mem_singleton.mp hx]
    rfl
  | replied pieces r _ _ ih => exact ih.append shown_asking
  | called pieces r _ _ hc ih => exact hc.known (ih.append shown_asking)

end Known

/-- The refs at the end of a turn. -/
def turnRefs {σ : Type} (env : AssistantEnv) (req : TurnRequest)
    (h : (c : TurnCall) → σ → c.Answer × σ) (s : σ) : RefTable :=
  ((turnLoop env req).run h s).1.2.ctx.refs

theorem eq_emitted {x : Exchange} {e : AssistantEvent} (h : x.event? = some e) :
    x = .emitted e := by
  obtain ⟨c,r⟩ := x
  cases c with
  | emit e' =>
    obtain rfl := Option.some.inj h
    rfl
  | _ => cases h

theorem emitted_mem_iff {t : List Exchange} {e : AssistantEvent} :
    Exchange.emitted e ∈ t ↔ e ∈ t.filterMap Exchange.event? := by
  rw [List.mem_filterMap]
  constructor
  · exact fun h => ⟨_,h,rfl⟩
  · rintro ⟨x,hx,he⟩
    exact eq_emitted he ▸ hx

section Turn

variable {env : AssistantEnv} {req : TurnRequest} {t : List Exchange} {ok : Bool} {st : TurnState}

/-- Up to its last reply a turn emits no proposal. -/
theorem Reached.no_proposal (h : Reached env req t (.ended ok st)) {e : AssistantEvent}
    (he : e.Proposal) : Exchange.emitted e ∉ t := by
  rw [emitted_mem_iff]
  intro hmem
  have htalk : e.Talk ∨ ∃ m r, e = .error m r := by
    cases ok with
    | true => exact .inl (h.talk e hmem)
    | false =>
      obtain ⟨talk,m,r,heq,htalk⟩ := h.talk
      rw [heq] at hmem
      rcases List.mem_append.mp hmem with hmem | hmem
      · exact .inl (htalk e hmem)
      · exact .inr ⟨m,r,List.mem_singleton.mp hmem⟩
  rcases he with ⟨d,rfl⟩ | ⟨p,rfl⟩
  · rcases htalk with (⟨_,hc⟩ | ⟨_,hc⟩) | ⟨_,_,hc⟩ <;> cases hc
  · rcases htalk with (⟨_,hc⟩ | ⟨_,hc⟩) | ⟨_,_,hc⟩ <;> cases hc

/-- The proposals a turn emits are those of its context. -/
theorem Reached.mem_proposals (h : Reached env req t (.ended ok st)) {e : AssistantEvent}
    (he : e.Proposal) (hmem : Exchange.emitted e ∈
      t ++ (if ok then closingEvents st else []).map Exchange.emitted) :
    e ∈ st.ctx.proposals := by
  rcases List.mem_append.mp hmem with hmem | hmem
  · exact absurd hmem (h.no_proposal he)
  · rw [emitted_mem_iff,events_emitted] at hmem
    cases ok with
    | false => exact absurd hmem List.not_mem_nil
    | true =>
      rw [if_pos rfl,closingEvents,List.mem_append,List.mem_append,List.mem_singleton] at hmem
      rcases hmem with (hmem | hmem) | rfl
      · by_cases hs : st.ctx.sources = []
        · rw [if_pos hs] at hmem
          exact absurd hmem List.not_mem_nil
        · rw [if_neg hs] at hmem
          obtain rfl := List.mem_singleton.mp hmem
          rcases he with ⟨_,hc⟩ | ⟨_,hc⟩ <;> cases hc
      · exact hmem
      · rcases he with ⟨_,hc⟩ | ⟨_,hc⟩ <;> cases hc

/-- A turn that has told no error ends with an answer. -/
theorem Reached.ok_of_no_error (h : Reached env req t (.ended ok st))
    (hno : ∀ m r, Exchange.emitted (.error m r) ∉ t) : ok = true := by
  cases ok with
  | true => rfl
  | false =>
    obtain ⟨talk,m,r,heq,_⟩ := h.talk
    refine absurd ?_ (hno m r)
    rw [emitted_mem_iff,heq]
    exact List.mem_append_right _ List.mem_cons_self

end Turn

/-- In every turn the refs are one to one with the messages shown and the proposals are sound;
and unless an error ends the turn, each ref comes with its source. -/
theorem proposals_sound {σ : Type} (env : AssistantEnv) (req : TurnRequest)
    (h : (c : TurnCall) → σ → c.Answer × σ) (s : σ) :
    ProposalsSound (turnRefs env req h s) ((runTurn env req).trace h s) ∧
      ((∀ m r, Exchange.emitted (.error m r) ∉ (runTurn env req).trace h s) →
        RefsCited (turnRefs env req h s) ((runTurn env req).trace h s)) := by
  have hr : Reached env req _ _ := reached_turnLoop (Prog.performs_run h (turnLoop env req) s)
  rw [trace_runTurn,turnRefs]
  generalize (turnLoop env req).trace h s = t at hr ⊢
  generalize ((turnLoop env req).run h s).1 = r at hr ⊢
  obtain ⟨ok,st⟩ := r
  have hknown : st.ctx.Known (t ++ (if ok then closingEvents st else []).map Exchange.emitted) := by
    refine hr.known.append (fun x hx => ?_)
    obtain ⟨e,_,rfl⟩ := List.mem_map.mp hx
    rfl
  obtain ⟨locs,hlists⟩ := hknown.cited.table
  refine ⟨⟨hlists.bijective hknown.cited.shown,fun p hp => ?_,fun d hd => ?_⟩,fun hno => ?_⟩
  · exact (hknown.proposals _ (hr.mem_proposals (.inr ⟨p,rfl⟩) hp)).action p rfl
  · exact (hknown.proposals _ (hr.mem_proposals (.inl ⟨d,rfl⟩) hd)).draft d rfl
  · obtain rfl := hr.ok_of_no_error (fun m r hm => hno m r (List.mem_append_left _ hm))
    intro r loc hl
    obtain ⟨src,hsrc,hsr⟩ := (hknown.cited.sources r loc).mp hl
    have hne : st.ctx.sources ≠ [] := List.ne_nil_of_mem hsrc
    refine ⟨st.ctx.sources,List.mem_append_right _ (List.mem_map_of_mem ?_),src,hsrc,hsr⟩
    rw [if_pos rfl,closingEvents,if_neg hne]
    exact List.mem_cons_self

/-! ### An answer that breaks off -/

def rainQuery : String := "\x7b\"query\":\"rain\"\x7d"

/-- Replies to model calls: first a search, then a text that breaks off. -/
def brokenOff : (c : TurnCall) → Bool → c.Answer × Bool
  | .complete _ _, false =>
    (([],.ok ⟨"",[⟨"call1","search_mail",rainQuery⟩],0,0⟩),true)
  | .complete _ _, true => ((["It rains [m1]"],.error (.retryable "reset")),true)
  | .search _, b => (.ok [⟨⟨"INBOX",7⟩,"Rain","weather@sky","today","It rains"⟩],b)
  | .read _, b => (.error "gone",b)
  | .thread _, b => (.error "gone",b)
  | .folders, b => (.ok ["INBOX"],b)
  | .newV4, b => ("id",b)
  | .info _ _, b => ((),b)
  | .emit _, b => ((),b)

/-- Arguments of the one search are read as they are meant, others not at all. -/
def rainEnv : AssistantEnv where
  searchArgs s := if s = rainQuery then .ok ⟨"rain",none,none,none,none⟩ else .error "expected value"
  refArg _ := .error "expected value"
  draftArgs _ := .error "expected value"
  proposeActionArgs _ := .error "expected value"
  lower s := s

def rainRequest : TurnRequest where
  history := [.user (Text.own "Does it rain?")]
  open_ := none
  owner := "me@sky"
  today := "today"
  fromChat _ hm := ⟨_,.inl (List.mem_singleton.mp hm)⟩

/-- The model has told the user about `m1`, and the source of `m1` is never sent. -/
theorem source_not_sent :
    ¬ (ProposalsSound (turnRefs rainEnv rainRequest brokenOff false)
        ((runTurn rainEnv rainRequest).trace brokenOff false) ∧
      RefsCited (turnRefs rainEnv rainRequest brokenOff false)
        ((runTurn rainEnv rainRequest).trace brokenOff false)) := by
  rintro ⟨-,h⟩
  obtain ⟨sources,hmem,_⟩ := h "m1" ⟨"INBOX",7⟩ (by decide)
  rw [emitted_mem_iff] at hmem
  have hevents : ((runTurn rainEnv rainRequest).trace brokenOff false).filterMap Exchange.event? =
      [.status (statusLabel "search_mail"),.text "It rains [m1]",
        errorEvent (.retryable "reset")] := rfl
  rw [hevents] at hmem
  simp [errorEvent] at hmem

end Rav
