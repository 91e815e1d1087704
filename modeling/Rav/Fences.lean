import Rav.Assistant.Fence
import Rav.Proposals

/-!
# What stands outside the fences

The body or snippet of a mail always stays inside its fence, and so does everything of the mail
that is open. The headers that tools show next to a body do not.

## Main definitions

- `AllContained` — messages that expose no mail's text
- `BareTools` — mails shown by tools come without headers
-/

namespace Rav

/-- No mail's text in the message stands outside a fence or closes one. -/
def ChatMessage.Contained (m : ChatMessage) : Prop :=
  ∀ c, m.content = some c → Text.exposed false c = false

def AllContained (ms : List ChatMessage) : Prop := ∀ m ∈ ms, m.Contained

/-- The mails an exchange brings have nothing but snippets and bodies to show. -/
def Exchange.Bare : Exchange → Prop
  | ⟨.search _,Except.ok found⟩ => ∀ m ∈ found.take 10, m.Bare
  | ⟨.read _,Except.ok m⟩ => m.Bare ∧ m.recipients = ""
  | ⟨.thread _,Except.ok found⟩ => ∀ m ∈ found, m.Bare
  | _ => True

/-- What the tools have done: all from the first model call on. -/
def toolExchanges (t : List Exchange) : List Exchange := t.dropWhile (fun x => !x.asks)

def BareTools (t : List Exchange) : Prop := ∀ x ∈ toolExchanges t, x.Bare

/-! ### What a tool call adds -/

theorem lt_not_mem_refName (n : Nat) : '<' ∉ (RefTable.refName n).toList := by
  unfold RefTable.refName
  rw [String.toList_append,List.mem_append]
  rintro (h | h)
  · simp at h
  · have hd : '<' ∈ n.repr.toList := h
    rw [Nat.toList_repr] at hd
    exact absurd (Nat.isDigit_of_mem_toDigits (by decide) (by decide) hd) (by decide)

section Tools

variable {env : AssistantEnv} {ctx : ToolContext} {shown : List MessageLoc}

theorem lt_not_mem_cite (h : ctx.Cited shown) (loc : MessageLoc) (subject sender date : String) :
    '<' ∉ (ctx.cite loc subject sender date).1.toList := by
  have hm : ctx.refs.Minted loc (ctx.cite loc subject sender date).1
    (ctx.cite loc subject sender date).2.refs := h.minted
  have hc : (ctx.cite loc subject sender date).2.Cited (shown ++ [loc]) := h.cite
  obtain ⟨locs,hl⟩ := hc.table
  obtain ⟨i,_,hi⟩ := hl.resolve.mp ((hm.resolve _ _).mpr (.inr ⟨rfl,rfl⟩))
  rw [hi]
  exact lt_not_mem_refName _

/-- The texts of mails that are cited one after the other. -/
theorem leaks_citeEach {μ : Type} (cite : ToolContext → μ → String × ToolContext)
    (json : μ → String → Text) (e : μ → Bool) (at_ : μ → MessageLoc)
    (hcite : ∀ ctx m, ∃ subject sender date, cite ctx m = ctx.cite (at_ m) subject sender date)
    (hjson : ∀ m r, '<' ∉ r.toList → Text.Leaks (json m r) (e m)) (ms : List μ)
    (h : ctx.Cited shown) : List.Forall₂ Text.Leaks (citeEach cite json ctx ms).1 (ms.map e) := by
  induction ms generalizing ctx shown with
  | nil => exact .nil
  | cons m ms ih =>
    obtain ⟨subject,sender,date,hc⟩ := hcite ctx m
    have hr : '<' ∉ (cite ctx m).1.toList := hc ▸ lt_not_mem_cite h _ _ _ _
    have hnext : (cite ctx m).2.Cited (shown ++ [at_ m]) := hc ▸ h.cite
    exact .cons (hjson m _ hr) (ih hnext)

/-- An object with one list in it. -/
theorem exposed_listed {key : String} {ts : List Text} {es : List Bool} (hk : '<' ∉ key.toList)
    (h : List.Forall₂ Text.Leaks ts es) :
    Text.exposed false (Text.jsonObject [(key,Text.jsonArray ts)]) = es.any id := by
  have hobj : Text.Leaks (Text.jsonObject [(key,Text.jsonArray ts)]) ([es.any id].any id) :=
    Text.leaks_jsonObject (.cons (Text.leaks_jsonMember hk (Text.leaks_jsonArray h)) .nil)
  rw [List.any_cons,List.any_nil,Bool.or_false] at hobj
  exact hobj.exposed

theorem any_map_eq_false {μ : Type} {P : μ → Prop} [DecidablePred P] {ms : List μ} :
    (ms.map (fun m => decide (¬ P m))).any id = false ↔ ∀ m ∈ ms, P m := by
  rw [List.any_eq_false]
  simp

theorem Exchange.Barren.bare {x : Exchange} (h : x.Barren) : x.Bare := by
  obtain ⟨c,r⟩ := x
  cases c with
  | search _ => obtain ⟨e,rfl⟩ := h; trivial
  | read _ => obtain ⟨e,rfl⟩ := h; trivial
  | thread _ => obtain ⟨e,rfl⟩ := h; trivial
  | _ => trivial

/-- The answer of a tool exposes a mail exactly if a mail it brings has headers. -/
theorem ToolRun.contained {t : List Exchange} {r : ToolResult} (h : ToolRun env ctx t r)
    (hctx : ctx.Cited shown) :
    Text.exposed false (toolAnswer r.1) = false ↔ ∀ x ∈ t, x.Bare := by
  cases h with
  | refused e ht =>
    refine ⟨fun _ x hx => (ht x hx).bare,fun _ => Text.exposed_unmarked ?_⟩
    refine Text.unmarked_jsonObject (fun m hm => ?_)
    rw [List.mem_singleton.mp hm]
    exact Text.unmarked_jsonString (Text.unmarked_own _)
  | searched args found =>
    have hleaks := leaks_citeEach citeSummary MessageSummary.json (fun m => decide (¬ m.Bare))
      MessageSummary.loc (fun _ _ => ⟨_,_,_,rfl⟩) (fun m _ hr => m.leaks_json hr) (found.take 10) hctx
    rw [List.forall_mem_singleton,toolAnswer,exposed_listed (by decide) hleaks]
    exact any_map_eq_false
  | readMessage loc m =>
    have hleaks := m.leaks_json (lt_not_mem_cite hctx m.loc m.subject m.sender m.date)
    rw [List.forall_mem_singleton]
    show Text.exposed false (m.json (citeContent ctx m).1) = false ↔ m.Bare ∧ m.recipients = ""
    rw [citeContent,hleaks.exposed,decide_eq_false_iff_not,not_not]
  | readThread loc found =>
    have hleaks := leaks_citeEach citeContent MessageContent.threadJson
      (fun m => decide (¬ m.Bare)) MessageContent.loc (fun _ _ => ⟨_,_,_,rfl⟩)
      (fun m _ hr => m.leaks_threadJson hr) found hctx
    rw [List.forall_mem_singleton,toolAnswer,exposed_listed (by decide) hleaks]
    exact any_map_eq_false
  | drafted note a loc hl =>
    refine ⟨fun _ x hx => absurd hx List.not_mem_nil,fun _ => Text.exposed_unmarked ?_⟩
    refine Text.unmarked_jsonObject (fun m hm => ?_)
    rcases List.mem_cons.mp hm with rfl | hm
    · exact Text.unmarked_jsonString (Text.unmarked_own _)
    · rw [List.mem_singleton.mp hm]
      exact Text.unmarked_own _
  | proposed note a messages folders id p hm hp =>
    refine ⟨fun _ x hx => ?_,fun _ => Text.exposed_unmarked ?_⟩
    · rcases List.mem_cons.mp hx with rfl | hx
      · trivial
      · rw [List.mem_singleton.mp hx]
        trivial
    · refine Text.unmarked_jsonObject (fun m hm => ?_)
      rcases List.mem_cons.mp hm with rfl | hm
      · exact Text.unmarked_jsonString (Text.unmarked_own _)
      · rcases List.mem_cons.mp hm with rfl | hm
        · exact Text.unmarked_own _
        · rw [List.mem_singleton.mp hm]
          exact Text.unmarked_jsonString (Text.unmarked_own _)

end Tools

theorem contained_own {role : String} {c : Text} {calls : Option (List ToolCall)}
    {id : Option String} (h : Text.Unmarked c) :
    (⟨role,some c,calls,id⟩ : ChatMessage).Contained := by
  rintro _ ⟨⟩
  exact Text.exposed_unmarked h

theorem allContained_append {ms ms' : List ChatMessage} :
    AllContained (ms ++ ms') ↔ AllContained ms ∧ AllContained ms' := List.forall_mem_append

theorem allContained_cons {m : ChatMessage} {ms : List ChatMessage} :
    AllContained (m :: ms) ↔ m.Contained ∧ AllContained ms := List.forall_mem_cons

theorem unmarked_tooManyCalls : Text.Unmarked tooManyCalls := by
  refine Text.unmarked_jsonObject (fun m hm => ?_)
  rw [List.mem_singleton.mp hm]
  exact Text.unmarked_jsonString (Text.unmarked_own _)

theorem contained_tool {id : String} {c : Text} :
    (ChatMessage.tool id c).Contained ↔ Text.exposed false c = false := by
  constructor
  · exact fun h => h c rfl
  · rintro h _ ⟨⟩
    exact h

/-- The answers to the tool calls of one reply. -/
theorem CallsRun.contained {env : AssistantEnv} {step i : Nat} {ctx : ToolContext}
    {calls : List ToolCall} {t₀ t : List Exchange} {r : List ChatMessage × ToolContext}
    (h : CallsRun env step i ctx calls t r) (hctx : ctx.Known t₀) :
    AllContained r.1 ↔ ∀ x ∈ t, x.Bare := by
  induction h generalizing t₀ with
  | nil => exact ⟨fun _ _ hx => absurd hx List.not_mem_nil,fun _ _ hm => absurd hm List.not_mem_nil⟩
  | refused _ _ ih =>
    rw [allContained_cons,ih hctx,contained_tool]
    exact and_iff_right (Text.exposed_unmarked unmarked_tooManyCalls)
  | ran _ ht _ ih =>
    rw [allContained_cons,ih (ht.known hctx),contained_tool,ht.contained hctx.cited,
      List.forall_mem_cons,List.forall_mem_cons,List.forall_mem_append]
    exact ⟨fun hb => ⟨trivial,trivial,hb⟩,fun hb => hb.2.2⟩

/-! ### Stages -/

section Stages

variable {t t' : List Exchange} {st : TurnState} {last : Bool} {pieces : List String}
  {reply : Except ModelError ModelReply}

theorem allContained_asked : AllContained (st.asked last) ↔ AllContained st.messages := by
  cases last with
  | false => exact Iff.rfl
  | true =>
    refine allContained_append.trans (and_iff_left ?_)
    intro m hm
    rw [List.mem_singleton.mp hm]
    exact contained_own (Text.unmarked_own _)

theorem bare_asking : ∀ x ∈ asking st last pieces reply, x.Bare := by
  intro x hx
  rcases mem_asking hx with rfl | ⟨e,rfl⟩
  · trivial
  · trivial

/-- From a model call on everything is the tools'. -/
theorem bareTools_append_asking :
    BareTools (t ++ asking st last pieces reply ++ t') ↔ BareTools t ∧ ∀ x ∈ t', x.Bare := by
  unfold BareTools toolExchanges
  have hstop : (asking st last pieces reply ++ t').dropWhile (fun x => !x.asks) =
      asking st last pieces reply ++ t' := rfl
  rw [List.append_assoc,List.dropWhile_append,hstop]
  by_cases hnone : (t.dropWhile (fun x => !x.asks)).isEmpty
  · rw [if_pos hnone,List.isEmpty_iff.mp hnone,List.forall_mem_append]
    exact and_congr_left' ⟨fun _ _ hx => absurd hx List.not_mem_nil,fun _ => bare_asking⟩
  · rw [if_neg hnone,List.forall_mem_append,List.forall_mem_append]
    exact and_congr_right' (and_iff_right bare_asking)

theorem bareTools_append (ht : ∀ x ∈ t', x.Bare) : BareTools (t ++ t') ↔ BareTools t := by
  unfold BareTools toolExchanges
  rw [List.dropWhile_append]
  by_cases hnone : (t.dropWhile (fun x => !x.asks)).isEmpty
  · rw [if_pos hnone,List.isEmpty_iff.mp hnone]
    refine ⟨fun _ _ hx => absurd hx List.not_mem_nil,fun _ x hx => ht x ?_⟩
    exact (List.dropWhile_sublist _).subset hx
  · rw [if_neg hnone,List.forall_mem_append]
    exact and_iff_left ht

theorem bareTools_of_offers (h : ∀ x ∈ t, x.offer? = none) : BareTools t := by
  unfold BareTools toolExchanges
  rw [List.dropWhile_eq_nil_iff.mpr (fun x hx => by rw [Exchange.asks,h x hx]; rfl)]
  exact fun _ hx => absurd hx List.not_mem_nil

theorem sentAll_append_iff {P : List ChatMessage → Prop} :
    SentAll P (t ++ t') ↔ SentAll P t ∧ SentAll P t' := List.forall_mem_append

theorem sentAll_asking_iff {P : List ChatMessage → Prop} :
    SentAll P (asking st last pieces reply) ↔ P (st.asked last) :=
  ⟨fun h => h _ List.mem_cons_self _ _ rfl,sentAll_asking⟩

/-- Everything sent so far, and all that is to be sent, is contained exactly if the tools have
shown no headers. -/
def Stage.ContainedIn (t : List Exchange) : Stage → Prop
  | .ready _ st => (AllContained st.messages ↔ BareTools t) ∧ (BareTools t → SentAll AllContained t)
  | .ended _ _ => SentAll AllContained t ↔ BareTools t

/-- A model call is sent everything there is. -/
theorem Stage.ContainedIn.asking {n : Nat} (h : (Stage.ready n st).ContainedIn t)
    (hoffer : ∀ x ∈ t', x.offer? = none) (hbare : ∀ x ∈ t', x.Bare) :
    SentAll AllContained (t ++ Rav.asking st last pieces reply ++ t') ↔
      BareTools (t ++ Rav.asking st last pieces reply ++ t') := by
  rw [sentAll_append_iff,sentAll_append_iff,sentAll_asking_iff,allContained_asked,h.1,
    bareTools_append_asking]
  constructor
  · exact fun hs => ⟨hs.1.2,hbare⟩
  · exact fun hb => ⟨⟨h.2 hb.1,hb.1⟩,sentAll_of_offers hoffer⟩

end Stages

theorem contained_prompt (owner today ref : String) (body : Text) :
    (ChatMessage.system (systemPrompt owner today (some ⟨ref,fenced body⟩))).Contained := by
  obtain ⟨s,s',hs⟩ := systemPrompt_some owner today ⟨ref,fenced body⟩
  intro c hc
  obtain rfl := Option.some.inj hc
  rw [hs]
  exact Text.exposed_between s s' body

theorem allContained_history (req : TurnRequest) : AllContained req.history := by
  intro m hm
  obtain ⟨s,rfl | rfl⟩ := req.fromChat m hm
  · exact contained_own (Text.unmarked_own s)
  · exact contained_own (Text.unmarked_own s)

theorem Reached.contained {env : AssistantEnv} {req : TurnRequest} {t : List Exchange}
    {stage : Stage} (h : Reached env req t stage) : stage.ContainedIn t := by
  induction h with
  | @opened t ht =>
    have hoffer : ∀ x ∈ t, x.offer? = none := fun x hx => (ht x hx).quiet.offer
    refine ⟨⟨fun _ => bareTools_of_offers hoffer,fun _ => allContained_cons.mpr ⟨?_,?_⟩⟩,
      fun _ => sentAll_of_offers hoffer⟩
    · exact contained_own (Text.unmarked_own _)
    · exact allContained_history req
  | openedMail loc m =>
    have hoffer : ∀ x ∈ [Exchange.read loc m], x.offer? = none := by
      intro x hx
      rw [List.mem_singleton.mp hx]
      rfl
    exact ⟨⟨fun _ => bareTools_of_offers hoffer,fun _ => allContained_cons.mpr
      ⟨contained_prompt _ _ _ _,allContained_history req⟩⟩,fun _ => sentAll_of_offers hoffer⟩
  | failed pieces e _ ih =>
    refine ih.asking (fun x hx => ?_) (fun x hx => ?_)
    · rw [List.mem_singleton.mp hx]
      rfl
    · rw [List.mem_singleton.mp hx]
      trivial
  | @replied t n st pieces r _ _ ih =>
    have hlast : SentAll AllContained (t ++ asking st (decide (n = 0)) pieces (.ok r) ++ []) ↔
        BareTools (t ++ asking st (decide (n = 0)) pieces (.ok r) ++ []) :=
      ih.asking (fun _ hx => absurd hx List.not_mem_nil) (fun _ hx => absurd hx List.not_mem_nil)
    rwa [List.append_nil] at hlast
  | called pieces r hready _ hc ih =>
    have hresults := hc.contained hready.known
    constructor
    · rw [allContained_append,allContained_append,hresults,ih.1,bareTools_append_asking]
      refine and_congr_left' (and_iff_left ?_)
      intro m hm
      rw [List.mem_singleton.mp hm]
      exact contained_own (Text.unmarked_own _)
    · intro hb
      obtain ⟨hbefore,_⟩ := bareTools_append_asking.mp hb
      refine ((ih.2 hbefore).append (sentAll_asking ?_)).append (sentAll_of_offers hc.offers)
      exact allContained_asked.mpr (ih.1.mpr hbefore)

/-- Everything a turn sends to the model keeps mails inside their fences exactly if no mail that
its tools bring has a header to show. -/
theorem contained_iff {σ : Type} (env : AssistantEnv) (req : TurnRequest)
    (h : (c : TurnCall) → σ → c.Answer × σ) (s : σ) :
    SentAll AllContained ((runTurn env req).trace h s) ↔
      BareTools ((runTurn env req).trace h s) := by
  have hr : Reached env req _ _ := reached_turnLoop (Prog.performs_run h (turnLoop env req) s)
  rw [trace_runTurn]
  have hclose : ∀ es : List AssistantEvent, ∀ x ∈ es.map Exchange.emitted,
      x.offer? = none ∧ x.Bare := by
    intro es x hx
    obtain ⟨e,_,rfl⟩ := List.mem_map.mp hx
    exact ⟨rfl,trivial⟩
  have hlast : SentAll AllContained _ ↔ BareTools _ := hr.contained
  rw [sentAll_append_iff,bareTools_append (fun x hx => (hclose _ x hx).2),← hlast]
  exact and_iff_left (sentAll_of_offers (fun x hx => (hclose _ x hx).1))

/-- A search brings a mail with a subject, and the next model call is sent it unfenced. -/
theorem subject_outside :
    ¬ SentAll AllContained ((runTurn rainEnv rainRequest).trace brokenOff false) := by
  intro h
  have hmem : ∃ ms, Exchange.asked (ms ++ [.tool "call1" (Text.jsonObject [("results",
      Text.jsonArray [MessageSummary.json
        ⟨⟨"INBOX",7⟩,"Rain","weather@sky","today","It rains"⟩ "m1"])])]) true ["It rains [m1]"]
      (.error (.retryable "reset")) ∈ (runTurn rainEnv rainRequest).trace brokenOff false :=
    ⟨_,List.mem_of_getElem? (i := 4) rfl⟩
  obtain ⟨ms,hmem⟩ := hmem
  have hc := h _ hmem _ _ rfl _ (List.mem_append_right _ List.mem_cons_self) _ rfl
  revert hc
  decide

end Rav
