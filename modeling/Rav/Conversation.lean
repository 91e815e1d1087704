import Rav.Assistant.Turn

/-!
# The protocol of a turn

Whatever the model replies, each tool call it makes is answered once, in order, before the
conversation goes on; model calls and tools are bounded; and the events of the turn end either in
one error or in one `done`.

## Main definitions

- `CallsAnswered` — conversations whose tool calls are answered in order
- `TurnProtocol` — the protocol, over the exchanges of a turn
-/

namespace Rav

/-- Whether a model call offers tools. -/
def Exchange.offer? : Exchange → Option Bool
  | ⟨.complete _ tools,_⟩ => some tools
  | _ => none

def Exchange.event? : Exchange → Option AssistantEvent
  | ⟨.emit e,_⟩ => some e
  | _ => none

@[simp] theorem Exchange.offer?_asked (ms : List ChatMessage) (tools : Bool) (pieces : List String)
    (reply : Except ModelError ModelReply) : (asked ms tools pieces reply).offer? = some tools := rfl

@[simp] theorem Exchange.event?_emitted (e : AssistantEvent) : (emitted e).event? = some e := rfl

@[simp] theorem Exchange.event?_logged (step : Nat) (tool : String) :
    (logged step tool).event? = none := rfl

@[simp] theorem Exchange.event?_asked (ms : List ChatMessage) (tools : Bool) (pieces : List String)
    (reply : Except ModelError ModelReply) : (asked ms tools pieces reply).event? = none := rfl

def Exchange.asks (x : Exchange) : Bool := x.offer?.isSome

/-- A tool is run right after its log entry. -/
def Exchange.runsTool : Exchange → Bool
  | ⟨.info _ _,_⟩ => true
  | _ => false

theorem Exchange.runsTool_logged (step : Nat) (tool : String) :
    (logged step tool).runsTool = true := rfl

def AssistantEvent.Talk (e : AssistantEvent) : Prop := (∃ s, e = .text s) ∨ ∃ s, e = .status s

def AssistantEvent.Proposal (e : AssistantEvent) : Prop := (∃ d, e = .draft d) ∨ ∃ p, e = .action p

/-- Each conversation the model is sent. -/
def SentAll (P : List ChatMessage → Prop) (t : List Exchange) : Prop :=
  ∀ x ∈ t, ∀ ms tools, x.1 = .complete ms tools → P ms

/-- A message that neither makes nor answers tool calls. -/
def ChatMessage.Plain (m : ChatMessage) : Prop :=
  ∃ c, m = .system c ∨ m = .user c ∨ m = .assistant c

/-- Results that answer tool calls one by one. -/
def Answers (calls : List ToolCall) (results : List ChatMessage) : Prop :=
  List.Forall₂ (fun c m => ∃ text, m = ChatMessage.tool c.id text) calls results

/-- Conversations in which each tool call is answered once, by its id and in order, before any
other message. -/
inductive CallsAnswered : List ChatMessage → Prop
  | nil : CallsAnswered []
  | plain {m : ChatMessage} {ms : List ChatMessage} (hm : m.Plain) (h : CallsAnswered ms) :
      CallsAnswered (m :: ms)
  | tools {content : String} {calls : List ToolCall} {results ms : List ChatMessage}
      (hr : Answers calls results) (h : CallsAnswered ms) :
      CallsAnswered (.assistantTools content calls :: (results ++ ms))

/-- Talk, and then one error, or at most one list of sources, proposals and one `done`. -/
def EndsProperly (es : List AssistantEvent) : Prop :=
  ∃ talk closing, es = talk ++ closing ∧ (∀ e ∈ talk, e.Talk) ∧
    ((∃ m r, closing = [.error m r]) ∨
      ∃ sources proposals i o, closing = sources ++ proposals ++ [.done i o] ∧
        (sources = [] ∨ ∃ refs, sources = [.sources refs]) ∧ ∀ e ∈ proposals, e.Proposal)

/-- The protocol of a turn, in the exchanges it consists of. -/
structure TurnProtocol (t : List Exchange) : Prop where
  answered : SentAll CallsAnswered t
  /-- At most `maxSteps + 1` model calls, with tools but for that last one. -/
  asks : t.filterMap Exchange.offer? <+: List.replicate maxSteps true ++ [false]
  /-- Between two model calls. -/
  runs : ∀ l ∈ t.splitOnP Exchange.asks, l.countP Exchange.runsTool ≤ maxToolCallsPerStep
  events : EndsProperly (t.filterMap Exchange.event?)

theorem CallsAnswered.append {ms ms' : List ChatMessage} (h : CallsAnswered ms) (h' : CallsAnswered ms') :
    CallsAnswered (ms ++ ms') := by
  induction h with
  | nil => exact h'
  | plain hm _ ih => exact .plain hm ih
  | tools hr _ ih =>
    rw [List.cons_append,List.append_assoc]
    exact .tools hr ih

theorem callsAnswered_of_plain {ms : List ChatMessage} (h : ∀ m ∈ ms, m.Plain) : CallsAnswered ms := by
  induction ms with
  | nil => exact .nil
  | cons m ms ih =>
    exact .plain (h m List.mem_cons_self) (ih (fun m' hm => h m' (List.mem_cons_of_mem _ hm)))

theorem ChatMessage.FromChat.plain {m : ChatMessage} (h : m.FromChat) : m.Plain := by
  obtain ⟨s,h | h⟩ := h
  · exact ⟨_,.inr (.inl h)⟩
  · exact ⟨_,.inr (.inr h)⟩

theorem callsAnswered_asked {st : TurnState} {last : Bool} (h : CallsAnswered st.messages) :
    CallsAnswered (st.asked last) := by
  cases last with
  | false => exact h
  | true => exact h.append (.plain ⟨_,.inl rfl⟩ .nil)

/-! ### Tools -/

/-- An exchange that neither asks the model nor tells the user anything. -/
structure Exchange.Quiet (x : Exchange) : Prop where
  offer : x.offer? = none
  event : x.event? = none
  runs : x.runsTool = false

theorem Exchange.Barren.quiet {x : Exchange} (h : x.Barren) : x.Quiet := by
  obtain ⟨c,r⟩ := x
  cases c with
  | complete _ _ => exact h.elim
  | info _ _ => exact h.elim
  | emit _ => exact h.elim
  | search _ => exact ⟨rfl,rfl,rfl⟩
  | read _ => exact ⟨rfl,rfl,rfl⟩
  | thread _ => exact ⟨rfl,rfl,rfl⟩
  | folders => exact ⟨rfl,rfl,rfl⟩
  | newV4 => exact ⟨rfl,rfl,rfl⟩

section Tools

variable {env : AssistantEnv} {ctx : ToolContext} {t : List Exchange}

theorem ToolRun.quiet {r : ToolResult} (h : ToolRun env ctx t r) : ∀ x ∈ t, x.Quiet := by
  intro x hx
  cases h with
  | refused e ht => exact (ht x hx).quiet
  | searched args found => rw [List.mem_singleton.mp hx]; exact ⟨rfl,rfl,rfl⟩
  | readMessage loc m => rw [List.mem_singleton.mp hx]; exact ⟨rfl,rfl,rfl⟩
  | readThread loc found => rw [List.mem_singleton.mp hx]; exact ⟨rfl,rfl,rfl⟩
  | drafted => exact absurd hx List.not_mem_nil
  | proposed =>
    rcases List.mem_cons.mp hx with rfl | hx
    · exact ⟨rfl,rfl,rfl⟩
    · rw [List.mem_singleton.mp hx]
      exact ⟨rfl,rfl,rfl⟩

def ToolContext.OnlyProposals (ctx : ToolContext) : Prop := ∀ e ∈ ctx.proposals, e.Proposal

theorem ToolContext.OnlyProposals.snoc {e : AssistantEvent} (h : ctx.OnlyProposals)
    (he : e.Proposal) : ∀ e' ∈ ctx.proposals ++ [e], e'.Proposal := by
  intro e' he'
  rcases List.mem_append.mp he' with he' | he'
  · exact h e' he'
  · rwa [List.mem_singleton.mp he']

theorem ToolRun.onlyProposals {r : ToolResult} (h : ToolRun env ctx t r)
    (hctx : ctx.OnlyProposals) : r.2.OnlyProposals := by
  cases h with
  | refused => exact hctx
  | searched => exact citeEach_keeps (fun _ _ h => h) hctx
  | readMessage => exact hctx
  | readThread => exact citeEach_keeps (fun _ _ h => h) hctx
  | drafted => exact hctx.snoc (.inl ⟨_,rfl⟩)
  | proposed => exact hctx.snoc (.inr ⟨_,rfl⟩)

end Tools

section Calls

variable {env : AssistantEnv} {step i : Nat} {ctx : ToolContext} {calls : List ToolCall}
  {t : List Exchange} {r : List ChatMessage × ToolContext}

theorem CallsRun.answers (h : CallsRun env step i ctx calls t r) : Answers calls r.1 := by
  induction h with
  | nil => exact .nil
  | refused _ _ ih => exact .cons ⟨_,rfl⟩ ih
  | ran _ _ _ ih => exact .cons ⟨_,rfl⟩ ih

theorem CallsRun.offers (h : CallsRun env step i ctx calls t r) : ∀ x ∈ t, x.offer? = none := by
  induction h with
  | nil => exact fun _ hx => absurd hx List.not_mem_nil
  | refused _ _ ih => exact ih
  | ran _ ht _ ih =>
    intro x hx
    simp only [List.mem_cons,List.mem_append] at hx
    rcases hx with rfl | rfl | hx | hx
    · rfl
    · rfl
    · exact (ht.quiet x hx).offer
    · exact ih x hx

theorem CallsRun.talk (h : CallsRun env step i ctx calls t r) :
    ∀ e ∈ t.filterMap Exchange.event?, e.Talk := by
  induction h with
  | nil => exact fun _ he => absurd he List.not_mem_nil
  | refused _ _ ih => exact ih
  | @ran _ _ c _ t t' _ _ _ ht _ ih =>
    have hquiet : t.filterMap Exchange.event? = [] :=
      List.filterMap_eq_nil_iff.mpr (fun x hx => (ht.quiet x hx).event)
    intro e he
    rw [List.filterMap_cons_some (Exchange.event?_emitted _),
      List.filterMap_cons_none (Exchange.event?_logged _ _),List.filterMap_append,hquiet,
      List.nil_append] at he
    rcases List.mem_cons.mp he with rfl | he
    · exact .inr ⟨_,rfl⟩
    · exact ih e he

/-- The calls from the `i`-th on run at most as many tools as are left. -/
theorem CallsRun.runs (h : CallsRun env step i ctx calls t r) :
    t.countP Exchange.runsTool ≤ maxToolCallsPerStep - i := by
  induction h with
  | nil => exact Nat.zero_le _
  | refused _ _ ih => omega
  | @ran i _ _ _ t t' _ _ hi ht _ ih =>
    have hquiet : t.countP Exchange.runsTool = 0 :=
      List.countP_eq_zero.mpr (fun x hx => by rw [(ht.quiet x hx).runs]; exact Bool.false_ne_true)
    rw [List.countP_cons_of_neg Bool.false_ne_true,
      List.countP_cons_of_pos (Exchange.runsTool_logged _ _),List.countP_append,hquiet]
    omega

theorem CallsRun.onlyProposals (h : CallsRun env step i ctx calls t r)
    (hctx : ctx.OnlyProposals) : r.2.OnlyProposals := by
  induction h with
  | nil => exact hctx
  | refused _ _ ih => exact ih hctx
  | ran _ ht _ ih => exact ih (ht.onlyProposals hctx)

end Calls

/-! ### Stages -/

section Stages

variable {env : AssistantEnv} {req : TurnRequest} {t : List Exchange} {stage : Stage}

def Stage.ctx : Stage → ToolContext
  | .ready _ st => st.ctx
  | .ended _ st => st.ctx

/-- What a stage knows of its state, if the turn goes on. -/
def Stage.OnGoing (P : Nat → TurnState → Prop) : Stage → Prop
  | .ready n st => P n st
  | .ended _ _ => True

theorem callsAnswered_opened (req : TurnRequest) (c : Text) : CallsAnswered (.system c :: req.history) :=
  .plain ⟨c,.inl rfl⟩ (callsAnswered_of_plain (fun m hm => (req.fromChat m hm).plain))

/-- The calls of the model among the exchanges of a reply. -/
theorem mem_asking {st : TurnState} {last : Bool} {pieces : List String}
    {reply : Except ModelError ModelReply} {x : Exchange} (hx : x ∈ asking st last pieces reply) :
    x = .asked (st.asked last) (!last) pieces reply ∨ ∃ e, x = .emitted e := by
  rcases List.mem_cons.mp hx with rfl | hx
  · exact .inl rfl
  · obtain ⟨e,_,rfl⟩ := List.mem_map.mp hx
    exact .inr ⟨e,rfl⟩

theorem SentAll.append {P : List ChatMessage → Prop} {t t' : List Exchange} (h : SentAll P t)
    (h' : SentAll P t') : SentAll P (t ++ t') := by
  intro x hx
  rcases List.mem_append.mp hx with hx | hx
  · exact h x hx
  · exact h' x hx

theorem sentAll_of_offers {P : List ChatMessage → Prop} {t : List Exchange}
    (h : ∀ x ∈ t, x.offer? = none) : SentAll P t := by
  rintro ⟨c,r⟩ hx ms tools rfl
  exact absurd (h _ hx) (Option.some_ne_none tools)

theorem sentAll_asking {P : List ChatMessage → Prop} {st : TurnState} {last : Bool}
    {pieces : List String} {reply : Except ModelError ModelReply} (h : P (st.asked last)) :
    SentAll P (asking st last pieces reply) := by
  intro x hx ms tools hc
  rcases mem_asking hx with rfl | ⟨e,rfl⟩
  · injection hc with hms _
    exact hms ▸ h
  · injection hc

theorem Reached.answered (h : Reached env req t stage) :
    SentAll CallsAnswered t ∧ stage.OnGoing (fun _ st => CallsAnswered st.messages) := by
  induction h with
  | opened ht =>
    exact ⟨sentAll_of_offers (fun x hx => (ht x hx).quiet.offer),callsAnswered_opened req _⟩
  | openedMail loc m =>
    refine ⟨sentAll_of_offers (fun x hx => ?_),callsAnswered_opened req _⟩
    rw [List.mem_singleton.mp hx]
    rfl
  | failed pieces e _ ih =>
    refine ⟨(ih.1.append (sentAll_asking (callsAnswered_asked ih.2))).append
      (sentAll_of_offers (fun x hx => ?_)),trivial⟩
    rw [List.mem_singleton.mp hx]
    rfl
  | replied pieces r _ _ ih => exact ⟨ih.1.append (sentAll_asking (callsAnswered_asked ih.2)),trivial⟩
  | called pieces r _ _ hc ih =>
    refine ⟨(ih.1.append (sentAll_asking (callsAnswered_asked ih.2))).append
      (sentAll_of_offers hc.offers),?_⟩
    have hcalls : CallsAnswered (.assistantTools r.content r.toolCalls :: (_ ++ [])) :=
      .tools hc.answers .nil
    rw [List.append_nil] at hcalls
    rw [Stage.OnGoing,List.append_assoc]
    exact ih.2.append hcalls

/-! #### How often the model is asked -/

theorem offers_emitted (es : List AssistantEvent) :
    (es.map Exchange.emitted).filterMap Exchange.offer? = [] := by
  refine List.filterMap_eq_nil_iff.mpr (fun x hx => ?_)
  obtain ⟨e,_,rfl⟩ := List.mem_map.mp hx
  rfl

theorem offers_asking (st : TurnState) (last : Bool) (pieces : List String)
    (reply : Except ModelError ModelReply) :
    (asking st last pieces reply).filterMap Exchange.offer? = [!last] := by
  rw [asking,List.filterMap_cons_some (Exchange.offer?_asked _ _ _ _),offers_emitted]

/-- While the turn goes on the model has been asked once for each step, always with tools. -/
def Stage.OffersIn (t : List Exchange) : Stage → Prop
  | .ready n _ => n ≤ maxSteps ∧ t.filterMap Exchange.offer? = List.replicate (maxSteps - n) true
  | .ended _ _ => t.filterMap Exchange.offer? <+: List.replicate maxSteps true ++ [false]

theorem offers_last {n : Nat} (hn : n ≤ maxSteps) :
    List.replicate (maxSteps - n) true ++ [!decide (n = 0)] <+:
      List.replicate maxSteps true ++ [false] := by
  cases n with
  | zero => exact List.prefix_refl _
  | succ n =>
    refine ⟨List.replicate n true ++ [false],?_⟩
    rw [← List.append_assoc]
    congr 1
    rw [show [!decide (n+1 = 0)] = List.replicate 1 true from rfl,List.replicate_append_replicate,
      List.replicate_append_replicate]
    congr 1
    omega

theorem Reached.offers (h : Reached env req t stage) : stage.OffersIn t := by
  induction h with
  | opened ht =>
    exact ⟨Nat.le_refl _,List.filterMap_eq_nil_iff.mpr (fun x hx => (ht x hx).quiet.offer)⟩
  | openedMail loc m => exact ⟨Nat.le_refl _,rfl⟩
  | failed pieces e _ ih =>
    rw [Stage.OffersIn,List.filterMap_append,List.filterMap_append,ih.2,offers_asking]
    exact (List.append_nil _).symm ▸ offers_last ih.1
  | replied pieces r _ _ ih =>
    rw [Stage.OffersIn,List.filterMap_append,ih.2,offers_asking]
    exact offers_last ih.1
  | @called t t' n st pieces r results _ _ hc ih =>
    have hn : n + 1 ≤ maxSteps := ih.1
    refine ⟨by omega,?_⟩
    rw [List.filterMap_append,List.filterMap_append,ih.2,offers_asking,
      List.filterMap_eq_nil_iff.mpr hc.offers,List.append_nil,
      show [!false] = List.replicate 1 true from rfl,List.replicate_append_replicate]
    congr 1
    omega

/-! #### How many tools are run -/

def RunsBounded (t : List Exchange) : Prop :=
  ∀ l ∈ t.splitOnP Exchange.asks, l.countP Exchange.runsTool ≤ maxToolCallsPerStep

theorem RunsBounded.of_offers {t : List Exchange} (h : ∀ x ∈ t, x.offer? = none)
    (hr : t.countP Exchange.runsTool ≤ maxToolCallsPerStep) : RunsBounded t := by
  intro l hl
  rw [List.splitOnP_eq_singleton (fun x hx => by rw [Exchange.asks,h x hx]; rfl)] at hl
  rwa [List.mem_singleton.mp hl]

/-- A model call starts the count again. -/
theorem RunsBounded.append_asking {t t' : List Exchange} {st : TurnState} {last : Bool}
    {pieces : List String} {reply : Except ModelError ModelReply} (h : RunsBounded t)
    (ht : ∀ x ∈ t', x.offer? = none) (hr : t'.countP Exchange.runsTool ≤ maxToolCallsPerStep) :
    RunsBounded (t ++ asking st last pieces reply ++ t') := by
  have hrest : RunsBounded ((pieces.map .text).map Exchange.emitted ++ t') := by
    refine .of_offers (fun x hx => ?_) ?_
    · rcases List.mem_append.mp hx with hx | hx
      · obtain ⟨e,_,rfl⟩ := List.mem_map.mp hx
        rfl
      · exact ht x hx
    · rw [List.countP_append,List.countP_eq_zero.mpr (fun x hx => ?_),Nat.zero_add]
      · exact hr
      · obtain ⟨e,_,rfl⟩ := List.mem_map.mp hx
        exact Bool.false_ne_true
  intro l hl
  rw [asking,List.append_assoc,List.cons_append,List.splitOnP_append_cons _ _ rfl] at hl
  rcases List.mem_append.mp hl with hl | hl
  · exact h l hl
  · exact hrest l hl

/-- What follows without a further model call goes to the last stretch. -/
theorem splitOnP_append_of_forall {α : Type*} {p : α → Bool} (xs : List α) {ys : List α}
    (h : ∀ y ∈ ys, p y = false) :
    ∃ init last, xs.splitOnP p = init ++ [last] ∧ (xs ++ ys).splitOnP p = init ++ [last ++ ys] := by
  induction xs with
  | nil => exact ⟨[],[],List.splitOnP_nil,List.splitOnP_eq_singleton h⟩
  | cons x xs ih =>
    obtain ⟨init,last,hx,hxy⟩ := ih
    rw [List.cons_append,List.splitOnP_cons_eq_if_modifyHead,
      List.splitOnP_cons_eq_if_modifyHead,hx,hxy]
    by_cases hp : p x
    · rw [if_pos hp,if_pos hp]
      exact ⟨[] :: init,last,rfl,rfl⟩
    · rw [if_neg hp,if_neg hp]
      cases init with
      | nil => exact ⟨[],x :: last,rfl,rfl⟩
      | cons l init => exact ⟨(x :: l) :: init,last,rfl,rfl⟩

theorem RunsBounded.append_quiet {t t' : List Exchange} (h : RunsBounded t)
    (ht : ∀ x ∈ t', x.offer? = none) (hr : ∀ x ∈ t', x.runsTool = false) : RunsBounded (t ++ t') := by
  obtain ⟨init,last,hi,hl⟩ := splitOnP_append_of_forall (p := Exchange.asks) t
    (fun x (hx : x ∈ t') => by rw [Exchange.asks,ht x hx]; rfl)
  unfold RunsBounded at h ⊢
  rw [hi] at h
  rw [hl]
  intro l hmem
  rcases List.mem_append.mp hmem with hmem | hmem
  · exact h l (List.mem_append_left _ hmem)
  · rw [List.mem_singleton.mp hmem,List.countP_append,List.countP_eq_zero (l := t').mpr
      (fun x hx => by rw [hr x hx]; exact Bool.false_ne_true)]
    exact h last (List.mem_append_right _ List.mem_cons_self)

theorem Reached.runs (h : Reached env req t stage) : RunsBounded t := by
  induction h with
  | opened ht =>
    refine .of_offers (fun x hx => (ht x hx).quiet.offer) ?_
    rw [List.countP_eq_zero.mpr (fun x hx => by rw [(ht x hx).quiet.runs]; exact Bool.false_ne_true)]
    exact Nat.zero_le _
  | openedMail loc m =>
    refine .of_offers (fun x hx => ?_) (Nat.zero_le _)
    rw [List.mem_singleton.mp hx]
    rfl
  | failed pieces e _ ih =>
    refine ih.append_asking (fun x hx => ?_) (Nat.zero_le _)
    rw [List.mem_singleton.mp hx]
    rfl
  | @replied t n st pieces r _ _ ih =>
    have hb : RunsBounded (t ++ asking st (decide (n = 0)) pieces (.ok r) ++ []) :=
      ih.append_asking (fun _ hx => absurd hx List.not_mem_nil) (Nat.zero_le _)
    rwa [List.append_nil] at hb
  | called pieces r _ _ hc ih => exact ih.append_asking hc.offers hc.runs

/-! #### What the user is told -/

theorem events_emitted (es : List AssistantEvent) :
    (es.map Exchange.emitted).filterMap Exchange.event? = es := by
  rw [List.filterMap_map]
  exact List.filterMap_some

theorem events_asking (st : TurnState) (last : Bool) (pieces : List String)
    (reply : Except ModelError ModelReply) :
    (asking st last pieces reply).filterMap Exchange.event? = pieces.map .text := by
  rw [asking,List.filterMap_cons_none (Exchange.event?_asked _ _ _ _),events_emitted]

theorem talk_text (pieces : List String) :
    ∀ e ∈ pieces.map AssistantEvent.text, e.Talk := by
  intro e he
  obtain ⟨s,_,rfl⟩ := List.mem_map.mp he
  exact .inl ⟨s,rfl⟩

/-- Talk only, until an error ends the turn. -/
def Stage.TalkIn (t : List Exchange) : Stage → Prop
  | .ended false _ => ∃ talk m r, t.filterMap Exchange.event? = talk ++ [.error m r] ∧
      ∀ e ∈ talk, e.Talk
  | _ => ∀ e ∈ t.filterMap Exchange.event?, e.Talk

theorem talk_append {es es' : List AssistantEvent} (h : ∀ e ∈ es, e.Talk) (h' : ∀ e ∈ es', e.Talk) :
    ∀ e ∈ es ++ es', e.Talk := by
  intro e he
  rcases List.mem_append.mp he with he | he
  · exact h e he
  · exact h' e he

theorem errorEvent_eq (e : ModelError) : ∃ m r, errorEvent e = .error m r := by
  cases e with
  | retryable e => exact ⟨_,_,rfl⟩
  | fatal e => exact ⟨_,_,rfl⟩

theorem Reached.talk (h : Reached env req t stage) : stage.TalkIn t := by
  induction h with
  | opened ht =>
    intro e he
    rw [List.filterMap_eq_nil_iff.mpr (fun x hx => (ht x hx).quiet.event)] at he
    exact absurd he List.not_mem_nil
  | openedMail loc m => exact fun _ he => absurd he List.not_mem_nil
  | failed pieces e _ ih =>
    obtain ⟨m,r,he⟩ := errorEvent_eq e
    refine ⟨_,m,r,?_,talk_append ih (talk_text pieces)⟩
    rw [List.filterMap_append,List.filterMap_append,events_asking,
      List.filterMap_cons_some (Exchange.event?_emitted _),he]
    rfl
  | replied pieces r _ _ ih =>
    rw [Stage.TalkIn,List.filterMap_append,events_asking]
    · exact talk_append ih (talk_text pieces)
    · exact nofun
  | called pieces r _ _ hc ih =>
    rw [Stage.TalkIn,List.filterMap_append,List.filterMap_append,events_asking]
    · exact talk_append (talk_append ih (talk_text pieces)) hc.talk
    · exact nofun

theorem Reached.onlyProposals (h : Reached env req t stage) : stage.ctx.OnlyProposals := by
  induction h with
  | opened ht => exact fun _ he => absurd he List.not_mem_nil
  | openedMail loc m => exact fun _ he => absurd he List.not_mem_nil
  | failed pieces e _ ih => exact ih
  | replied pieces r _ _ ih => exact ih
  | called pieces r _ _ hc ih => exact hc.onlyProposals ih

theorem endsProperly_closing {es : List AssistantEvent} {st : TurnState} (h : ∀ e ∈ es, e.Talk)
    (hp : st.ctx.OnlyProposals) : EndsProperly (es ++ closingEvents st) := by
  refine ⟨es,closingEvents st,rfl,h,.inr ⟨_,_,_,_,rfl,?_,hp⟩⟩
  by_cases hs : st.ctx.sources = []
  · rw [if_pos hs]
    exact .inl rfl
  · rw [if_neg hs]
    exact .inr ⟨_,rfl⟩

end Stages

end Rav
