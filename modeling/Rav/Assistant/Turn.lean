import Rav.Prog
import Rav.Assistant.Session

/-!
# What a turn can do

The traces of a turn, said once: what one tool call does, what the tool calls of one reply do, and
which stages a turn goes through. Every property of turns is derived from these.

## Main definitions

- `Exchange` — a call of a turn with its answer
- `ToolRun`, `CallsRun` — what one tool call does, and what those of one reply do
- `Stage`, `Reached` — the stages of a turn and the exchanges that lead there
- `reached_turnLoop`, `trace_runTurn` — every turn ends at a last stage, and then closes
-/

namespace Rav

/-- A call with its answer. -/
abbrev Exchange := (c : TurnCall) × c.Answer

namespace Exchange

def asked (messages : List ChatMessage) (tools : Bool) (pieces : List String)
    (reply : Except ModelError ModelReply) : Exchange := ⟨.complete messages tools,(pieces,reply)⟩

def searched (args : SearchArgs) (found : List MessageSummary) : Exchange :=
  ⟨.search args,Except.ok found⟩

def read (loc : MessageLoc) (m : MessageContent) : Exchange := ⟨.read loc,Except.ok m⟩

def thread (loc : MessageLoc) (found : List MessageContent) : Exchange :=
  ⟨.thread loc,Except.ok found⟩

def listed (folders : List String) : Exchange := ⟨.folders,Except.ok folders⟩

def drawn (id : String) : Exchange := ⟨.newV4,id⟩

def logged (step : Nat) (tool : String) : Exchange := ⟨.info step tool,()⟩

def emitted (e : AssistantEvent) : Exchange := ⟨.emit e,()⟩

/-- A call other than of the model or for the user, that brings no mail. -/
def Barren : Exchange → Prop
  | ⟨.search _,r⟩ => ∃ e, r = Except.error e
  | ⟨.read _,r⟩ => ∃ e, r = Except.error e
  | ⟨.thread _,r⟩ => ∃ e, r = Except.error e
  | ⟨.folders,_⟩ => True
  | ⟨.newV4,_⟩ => True
  | _ => False

end Exchange

/-- What one tool call does: its exchanges, its answer and the context after it. -/
inductive ToolRun (env : AssistantEnv) (ctx : ToolContext) : List Exchange → ToolResult → Prop
  | refused {t : List Exchange} (e : String) (ht : ∀ x ∈ t, x.Barren) :
      ToolRun env ctx t (.error e,ctx)
  | searched (args : SearchArgs) (found : List MessageSummary) :
      ToolRun env ctx [.searched args found]
        (.ok (Text.jsonObject [("results",Text.jsonArray
          (citeEach citeSummary MessageSummary.json ctx (found.take 10)).1)]),
          (citeEach citeSummary MessageSummary.json ctx (found.take 10)).2)
  | readMessage (loc : MessageLoc) (m : MessageContent) :
      ToolRun env ctx [.read loc m]
        (.ok (m.json (citeContent ctx m).1),(citeContent ctx m).2)
  | readThread (loc : MessageLoc) (found : List MessageContent) :
      ToolRun env ctx [.thread loc found]
        (.ok (Text.jsonObject [("messages",Text.jsonArray
          (citeEach citeContent MessageContent.threadJson ctx found).1)]),
          (citeEach citeContent MessageContent.threadJson ctx found).2)
  | drafted (note : String) (a : DraftArgs) (loc : MessageLoc) (h : ctx.resolve a.ref = .ok loc) :
      ToolRun env ctx []
        (.ok (Text.jsonObject [("note",Text.jsonString (Text.own note)),("ok",Text.own "true")]),
          { ctx with proposals := ctx.proposals ++ [.draft ⟨a.ref,loc.folder,loc.uid,a.body⟩] })
  | proposed (note : String) (a : ProposeActionArgs) (messages : List ActionMessage)
      (folders : List String) (id : String) (p : ActionProposal)
      (hm : proposedMessages ctx a = .ok messages)
      (hp : Assistant.validateAction env.lower id a messages folders = .ok p) :
      ToolRun env ctx [.listed folders,.drawn id]
        (.ok (Text.jsonObject [("note",Text.jsonString (Text.own note)),("ok",Text.own "true"),
          ("shown_to_user",Text.jsonString (Text.own p.summary))]),
          { ctx with proposals := ctx.proposals ++ [.action p] })

/-- What every citation keeps. -/
theorem citeEach_keeps {μ : Type} {cite : ToolContext → μ → String × ToolContext}
    {json : μ → String → Text} {P : ToolContext → Prop} {ctx : ToolContext} {ms : List μ}
    (hcite : ∀ ctx m, P ctx → P (cite ctx m).2) (h : P ctx) : P (citeEach cite json ctx ms).2 := by
  induction ms generalizing ctx with
  | nil => exact h
  | cons m ms ih => exact ih (hcite ctx m h)

section Tools

variable {env : AssistantEnv} {ctx : ToolContext} {name arguments : String} {t : List Exchange}
  {r : ToolResult}

theorem ToolRun.bare (e : String) : ToolRun env ctx [] (.error e,ctx) :=
  .refused e (fun _ hx => absurd hx List.not_mem_nil)

theorem ToolRun.barren {x : Exchange} (e : String) (hx : x.Barren) :
    ToolRun env ctx [x] (.error e,ctx) :=
  .refused e (fun y hy => by rwa [List.mem_singleton.mp hy])

theorem toolRun_searchMail (h : (searchMail env ctx arguments).Performs t r) :
    ToolRun env ctx t r := by
  unfold searchMail at h
  cases ha : env.searchArgs arguments with
  | error e =>
    rw [ha] at h
    obtain ⟨rfl,rfl⟩ := Prog.performs_pure.mp h
    exact .bare _
  | ok args =>
    rw [ha] at h
    obtain ⟨a,t,rfl,h'⟩ := Prog.performs_perform_bind.mp h
    cases a with
    | error e =>
      obtain ⟨rfl,rfl⟩ := Prog.performs_pure.mp h'
      exact .barren e ⟨e,rfl⟩
    | ok found =>
      obtain ⟨rfl,rfl⟩ := Prog.performs_pure.mp h'
      exact .searched args found

theorem toolRun_readMessage (h : (readMessage env ctx arguments).Performs t r) :
    ToolRun env ctx t r := by
  unfold readMessage at h
  cases ha : env.refArg arguments with
  | error e =>
    rw [ha] at h
    obtain ⟨rfl,rfl⟩ := Prog.performs_pure.mp h
    exact .bare _
  | ok a =>
    cases hl : ctx.resolve a with
    | error e =>
      simp only [ha,hl] at h
      obtain ⟨rfl,rfl⟩ := Prog.performs_pure.mp h
      exact .bare _
    | ok loc =>
      simp only [ha,hl] at h
      obtain ⟨b,t,rfl,h'⟩ := Prog.performs_perform_bind.mp h
      cases b with
      | error e =>
        obtain ⟨rfl,rfl⟩ := Prog.performs_pure.mp h'
        exact .barren e ⟨e,rfl⟩
      | ok m =>
        obtain ⟨rfl,rfl⟩ := Prog.performs_pure.mp h'
        exact .readMessage loc m

theorem toolRun_readThread (h : (readThread env ctx arguments).Performs t r) :
    ToolRun env ctx t r := by
  unfold readThread at h
  cases ha : env.refArg arguments with
  | error e =>
    rw [ha] at h
    obtain ⟨rfl,rfl⟩ := Prog.performs_pure.mp h
    exact .bare _
  | ok a =>
    cases hl : ctx.resolve a with
    | error e =>
      simp only [ha,hl] at h
      obtain ⟨rfl,rfl⟩ := Prog.performs_pure.mp h
      exact .bare _
    | ok loc =>
      simp only [ha,hl] at h
      obtain ⟨b,t,rfl,h'⟩ := Prog.performs_perform_bind.mp h
      cases b with
      | error e =>
        obtain ⟨rfl,rfl⟩ := Prog.performs_pure.mp h'
        exact .barren e ⟨e,rfl⟩
      | ok found =>
        obtain ⟨rfl,rfl⟩ := Prog.performs_pure.mp h'
        exact .readThread loc found

theorem toolRun_proposeDraft : ToolRun env ctx [] (proposeDraft env ctx arguments) := by
  unfold proposeDraft
  cases ha : env.draftArgs arguments with
  | error e => exact .bare _
  | ok a =>
    cases hl : ctx.resolve a.ref with
    | error e =>
      simp only [hl]
      exact .bare _
    | ok loc =>
      simp only [hl]
      by_cases hb : strTrim a.body = ""
      · rw [if_pos hb]
        exact .bare _
      · rw [if_neg hb]
        exact .drafted _ a loc hl

theorem toolRun_proposeAction (h : (proposeAction env ctx arguments).Performs t r) :
    ToolRun env ctx t r := by
  unfold proposeAction at h
  cases ha : env.proposeActionArgs arguments with
  | error e =>
    rw [ha] at h
    obtain ⟨rfl,rfl⟩ := Prog.performs_pure.mp h
    exact .bare _
  | ok a =>
    cases hm : proposedMessages ctx a with
    | error e =>
      simp only [ha,hm] at h
      obtain ⟨rfl,rfl⟩ := Prog.performs_pure.mp h
      exact .bare _
    | ok messages =>
      simp only [ha,hm] at h
      obtain ⟨b,t,rfl,h'⟩ := Prog.performs_perform_bind.mp h
      cases b with
      | error e =>
        obtain ⟨rfl,rfl⟩ := Prog.performs_pure.mp h'
        exact .barren e trivial
      | ok folders =>
        obtain ⟨id,t,rfl,h''⟩ := Prog.performs_perform_bind.mp h'
        cases hp : Assistant.validateAction env.lower id a messages folders with
        | error e =>
          rw [hp] at h''
          obtain ⟨rfl,rfl⟩ := Prog.performs_pure.mp h''
          refine .refused e (fun x hx => ?_)
          rcases List.mem_cons.mp hx with rfl | hx
          · trivial
          · rw [List.mem_singleton.mp hx]
            trivial
        | ok p =>
          rw [hp] at h''
          obtain ⟨rfl,rfl⟩ := Prog.performs_pure.mp h''
          exact .proposed _ a messages folders id p hm hp

theorem toolRun_runToolInner (h : (runToolInner env ctx name arguments).Performs t r) :
    ToolRun env ctx t r := by
  unfold runToolInner at h
  by_cases hs : name = "search_mail"
  · rw [if_pos hs] at h
    exact toolRun_searchMail h
  rw [if_neg hs] at h
  by_cases hm : name = "read_message"
  · rw [if_pos hm] at h
    exact toolRun_readMessage h
  rw [if_neg hm] at h
  by_cases ht : name = "read_thread"
  · rw [if_pos ht] at h
    exact toolRun_readThread h
  rw [if_neg ht] at h
  by_cases hd : name = "propose_draft"
  · rw [if_pos hd] at h
    obtain ⟨rfl,rfl⟩ := Prog.performs_pure.mp h
    exact toolRun_proposeDraft
  rw [if_neg hd] at h
  by_cases ha : name = "propose_action"
  · rw [if_pos ha] at h
    exact toolRun_proposeAction h
  · rw [if_neg ha] at h
    obtain ⟨rfl,rfl⟩ := Prog.performs_pure.mp h
    exact .bare _

end Tools

/-- What the tool calls of one reply do, from the `i`-th on. -/
inductive CallsRun (env : AssistantEnv) (step : Nat) :
    Nat → ToolContext → List ToolCall → List Exchange → List ChatMessage × ToolContext → Prop
  | nil (i : Nat) (ctx : ToolContext) : CallsRun env step i ctx [] [] ([],ctx)
  | refused {i : Nat} {ctx : ToolContext} {c : ToolCall} {cs : List ToolCall} {t : List Exchange}
      {r : List ChatMessage × ToolContext} (hi : maxToolCallsPerStep ≤ i)
      (h : CallsRun env step (i+1) ctx cs t r) :
      CallsRun env step i ctx (c :: cs) t (.tool c.id tooManyCalls :: r.1,r.2)
  | ran {i : Nat} {ctx : ToolContext} {c : ToolCall} {cs : List ToolCall} {t t' : List Exchange}
      {r : ToolResult} {r' : List ChatMessage × ToolContext} (hi : i < maxToolCallsPerStep)
      (h : ToolRun env ctx t r) (h' : CallsRun env step (i+1) r.2 cs t' r') :
      CallsRun env step i ctx (c :: cs)
        (.emitted (.status (statusLabel c.name)) :: .logged step (knownToolName c.name) ::
          (t ++ t'))
        (.tool c.id (toolAnswer r.1) :: r'.1,r'.2)

theorem callsRun_runToolCalls {env : AssistantEnv} {step i : Nat} {ctx : ToolContext}
    {calls : List ToolCall} {t : List Exchange} {r : List ChatMessage × ToolContext}
    (h : (runToolCalls env step i ctx calls).Performs t r) : CallsRun env step i ctx calls t r := by
  induction calls generalizing i ctx t r with
  | nil =>
    obtain ⟨rfl,rfl⟩ := Prog.performs_pure.mp h
    exact .nil i ctx
  | cons c cs ih =>
    unfold runToolCalls at h
    by_cases hi : i ≥ maxToolCallsPerStep
    · rw [if_pos hi] at h
      obtain ⟨t,r',t',rfl,hr,h'⟩ := Prog.performs_bind.mp h
      obtain ⟨rfl,rfl⟩ := Prog.performs_pure.mp h'
      rw [List.append_nil]
      exact .refused hi (ih hr)
    · rw [if_neg hi] at h
      obtain ⟨_,t,rfl,h'⟩ := Prog.performs_perform_bind.mp h
      obtain ⟨_,t,rfl,h''⟩ := Prog.performs_perform_bind.mp h'
      obtain ⟨t,r',t',rfl,htool,hrest⟩ := Prog.performs_bind.mp h''
      obtain ⟨ti,ri,tn,rfl,hinner,hret⟩ := Prog.performs_bind.mp htool
      obtain ⟨rfl,rfl⟩ := Prog.performs_pure.mp hret
      obtain ⟨tr,rr,te,rfl,hr,hend⟩ := Prog.performs_bind.mp hrest
      obtain ⟨rfl,rfl⟩ := Prog.performs_pure.mp hend
      rw [List.append_nil,List.append_nil]
      exact .ran (Nat.lt_of_not_le hi) (toolRun_runToolInner hinner) (ih hr)

theorem performs_emitEach {es : List AssistantEvent} {t : List Exchange} {u : Unit}
    (h : (emitEach es).Performs t u) : t = es.map Exchange.emitted := by
  induction es generalizing t with
  | nil => exact (Prog.performs_pure.mp h).1
  | cons e es ih =>
    obtain ⟨_,t,rfl,h'⟩ := Prog.performs_perform_bind.mp h
    rw [ih h']
    rfl

/-! ### The stages of a turn -/

/-- Before a model call that `n` more may follow, or after the last. -/
inductive Stage
  | ready (n : Nat) (st : TurnState)
  | ended (ok : Bool) (st : TurnState)

/-- A model call and what it has streamed. -/
def asking (st : TurnState) (last : Bool) (pieces : List String)
    (reply : Except ModelError ModelReply) : List Exchange :=
  .asked (st.asked last) (!last) pieces reply :: (pieces.map .text).map Exchange.emitted

/-- The exchanges that lead a turn to a stage. -/
inductive Reached (env : AssistantEnv) (req : TurnRequest) : List Exchange → Stage → Prop
  | opened {t : List Exchange} (ht : ∀ x ∈ t, x.Barren) :
      Reached env req t (.ready maxSteps
        ⟨.empty,.system (systemPrompt req.owner req.today none) :: req.history,0,0⟩)
  | openedMail (loc : MessageLoc) (m : MessageContent) :
      Reached env req [.read loc m] (.ready maxSteps
        ⟨(citeContent .empty m).2,
          .system (systemPrompt req.owner req.today
            (some ⟨(citeContent .empty m).1,openBlock m⟩)) :: req.history,0,0⟩)
  | failed {t : List Exchange} {n : Nat} {st : TurnState} (pieces : List String) (e : ModelError)
      (h : Reached env req t (.ready n st)) :
      Reached env req (t ++ asking st (decide (n = 0)) pieces (.error e) ++
        [.emitted (errorEvent e)]) (.ended false st)
  | replied {t : List Exchange} {n : Nat} {st : TurnState} (pieces : List String) (r : ModelReply)
      (h : Reached env req t (.ready n st)) (hr : n = 0 ∨ r.toolCalls = []) :
      Reached env req (t ++ asking st (decide (n = 0)) pieces (.ok r))
        (.ended true (st.counted (decide (n = 0)) r))
  | called {t t' : List Exchange} {n : Nat} {st : TurnState} (pieces : List String) (r : ModelReply)
      {results : List ChatMessage × ToolContext}
      (h : Reached env req t (.ready (n+1) st)) (hr : r.toolCalls ≠ [])
      (hc : CallsRun env (maxSteps - (n+1)) 0 st.ctx r.toolCalls t' results) :
      Reached env req (t ++ asking st false pieces (.ok r) ++ t')
        (.ready n ⟨results.2,
          st.messages ++ [.assistantTools r.content r.toolCalls] ++ results.1,
          st.inputTokens + r.inputTokens,st.outputTokens + r.outputTokens⟩)

section Turn

variable {env : AssistantEnv} {req : TurnRequest} {t : List Exchange}

theorem reached_openTurn {st : TurnState} (h : (openTurn req).Performs t st) :
    Reached env req t (.ready maxSteps st) := by
  unfold openTurn at h
  cases ho : req.open_ with
  | none =>
    simp only [ho] at h
    obtain ⟨rfl,rfl⟩ := Prog.performs_pure.mp h
    exact .opened (fun _ hx => absurd hx List.not_mem_nil)
  | some loc =>
    rw [ho] at h
    obtain ⟨a,t,rfl,h'⟩ := Prog.performs_perform_bind.mp h
    cases a with
    | error e =>
      obtain ⟨rfl,rfl⟩ := Prog.performs_pure.mp h'
      refine .opened (fun x hx => ?_)
      rw [List.mem_singleton.mp hx]
      exact ⟨e,rfl⟩
    | ok m =>
      obtain ⟨rfl,rfl⟩ := Prog.performs_pure.mp h'
      exact .openedMail loc m

/-- From a stage the steps of the loop lead to a last stage. -/
theorem reached_turnSteps {n : Nat} {st : TurnState} {t' : List Exchange} {r : Bool × TurnState}
    (h : Reached env req t (.ready n st)) (hp : (turnSteps env n st).Performs t' r) :
    Reached env req (t ++ t') (.ended r.1 r.2) := by
  induction n generalizing st t t' with
  | zero =>
    unfold turnSteps at hp
    obtain ⟨⟨pieces,a⟩,t₁,rfl,hp'⟩ := Prog.performs_perform_bind.mp hp
    obtain ⟨t₁,_,t₂,rfl,he,hp''⟩ := Prog.performs_bind.mp hp'
    obtain rfl := performs_emitEach he
    cases a with
    | error e =>
      obtain ⟨_,t₃,rfl,h₃⟩ := Prog.performs_perform_bind.mp hp''
      obtain ⟨rfl,rfl⟩ := Prog.performs_pure.mp h₃
      have hf := h.failed pieces e
      rw [List.append_assoc] at hf
      exact hf
    | ok r =>
      obtain ⟨rfl,rfl⟩ := Prog.performs_pure.mp hp''
      rw [List.append_nil]
      exact h.replied pieces r (.inl rfl)
  | succ n ih =>
    unfold turnSteps at hp
    obtain ⟨⟨pieces,a⟩,t₁,rfl,hp'⟩ := Prog.performs_perform_bind.mp hp
    obtain ⟨t₁,_,t₂,rfl,he,hp''⟩ := Prog.performs_bind.mp hp'
    obtain rfl := performs_emitEach he
    cases a with
    | error e =>
      obtain ⟨_,t₃,rfl,h₃⟩ := Prog.performs_perform_bind.mp hp''
      obtain ⟨rfl,rfl⟩ := Prog.performs_pure.mp h₃
      have hf := h.failed pieces e
      rw [List.append_assoc] at hf
      exact hf
    | ok r =>
      by_cases hr : r.toolCalls = []
      · simp only [if_pos hr] at hp''
        obtain ⟨rfl,rfl⟩ := Prog.performs_pure.mp hp''
        rw [List.append_nil]
        exact h.replied pieces r (.inr hr)
      · simp only [if_neg hr] at hp''
        obtain ⟨t₃,results,t₄,rfl,hc,hrest⟩ := Prog.performs_bind.mp hp''
        have hnext := h.called pieces r hr (callsRun_runToolCalls hc)
        have hlast := ih hnext hrest
        rw [List.append_assoc,List.append_assoc] at hlast
        exact hlast

/-- A turn reaches a last stage. -/
theorem reached_turnLoop {r : Bool × TurnState} (h : (turnLoop env req).Performs t r) :
    Reached env req t (.ended r.1 r.2) := by
  obtain ⟨t₀,st₀,t₁,rfl,ho,hs⟩ := Prog.performs_bind.mp h
  exact reached_turnSteps (reached_openTurn ho) hs

/-- Unless an error has ended it, a turn closes with the events of an answer. -/
theorem trace_runTurn {σ : Type} (h : (c : TurnCall) → σ → c.Answer × σ) (s : σ) :
    (runTurn env req).trace h s = (turnLoop env req).trace h s ++
      (if ((turnLoop env req).run h s).1.1 then closingEvents ((turnLoop env req).run h s).1.2
        else []).map Exchange.emitted := by
  unfold runTurn
  rw [Prog.trace_bind]
  congr 1
  by_cases hok : ((turnLoop env req).run h s).1.1
  · rw [if_pos hok,if_pos hok]
    exact performs_emitEach (Prog.performs_run h _ _)
  · rw [if_neg hok,if_neg hok]
    rfl

end Turn

end Rav
