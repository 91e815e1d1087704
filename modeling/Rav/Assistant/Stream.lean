import Rav.Assistant.Tools
import Rav.Chunks
import Rav.Json
import Rav.Utf8

/-!
# `assistant::model`: the reply of a stream

The response of a model as server-sent events, read piece by piece and folded line by line into one
reply. The parser of JSON is a parameter. The kind of a tool call is always `function`, and left out.

## Main definitions

- `StreamM` — computations that change the accumulator and emit text, and may fail
- `pushLine`, `completeStream` — one line, and a whole response
- `completeStream_chunks` — it makes no difference how the response is cut
-/

namespace Rav

/-! ### JSON values -/

namespace Json.Value

def asU64 : Value → Option UInt64
  | .number text => (parseUnsigned 18446744073709551616 (String.ofList text)).map UInt64.ofNat
  | _ => none

end Json.Value

/-! ### The accumulator -/

/-- The reply so far, and the pieces of text that were emitted. -/
structure StreamState where
  reply : ModelReply
  seen : List String

/-- `StreamAccumulator::default`. -/
def StreamState.empty : StreamState := ⟨⟨"", [], 0, 0⟩, []⟩

abbrev StreamM := ExceptT ModelError (StateM StreamState)

/-- `on_text`, and the same text for the reply. -/
def emitText (t : String) : StreamM Unit :=
  modify fun s =>
    { reply := { s.reply with content := s.reply.content ++ t }, seen := s.seen ++ [t] }

def setUsage (u : Json.Value) : StreamM Unit :=
  modify fun s =>
    { s with
      reply :=
        { s.reply with
          inputTokens := (u.field "prompt_tokens").asU64.getD 0
          outputTokens := (u.field "completion_tokens").asU64.getD 0 } }

def maxToolCallIndex : Nat := 16

/-- A fragment of a tool call, added to the call with its index. -/
def addToolCall (i : Nat) (tc : Json.Value) (calls : List ToolCall) : List ToolCall :=
  (calls ++ List.replicate (i + 1 - calls.length) (⟨"", "", ""⟩ : ToolCall)).modify i fun call =>
    { id := (tc.field "id").asStr.getD call.id
      name := call.name ++ ((tc.field "function").field "name").asStr.getD ""
      arguments := call.arguments ++ ((tc.field "function").field "arguments").asStr.getD "" }

def pushToolCall (tc : Json.Value) : StreamM Unit :=
  let i := ((tc.field "index").asU64.getD 0).toNat
  if maxToolCallIndex < i then throw (.fatal "too many tool calls in one model response")
  else modify fun s =>
    { s with reply := { s.reply with toolCalls := addToolCall i tc s.reply.toolCalls } }

/-- Text that is not empty is emitted. -/
def pushContent (content : Json.Value) : StreamM Unit :=
  match content.asStr.filter (· ≠ "") with
  | some t => emitText t
  | none => pure ()

def pushDelta (delta : Json.Value) : StreamM Unit := do
  pushContent (delta.field "content")
  ((delta.field "tool_calls").asArray.getD []).forM pushToolCall

def pushUsage (usage : Option Json.Value) : StreamM Unit :=
  match usage.filter (fun u => !u.isNull) with
  | some u => setUsage u
  | none => pure ()

/-- The first choice is all that counts. -/
def pushChoices (choices : Json.Value) : StreamM Unit :=
  match (choices.asArray.getD []).head? with
  | some c => pushDelta (c.field "delta")
  | none => pure ()

def pushChunk (chunk : Json.Value) : StreamM Unit :=
  if (chunk.get "error").isSome then throw (.fatal "OpenAI returned an error mid-stream")
  else do
    pushUsage (chunk.get "usage")
    pushChoices (chunk.field "choices")

/-- What stands behind `data:`, trimmed. -/
def lineData (line : String) : Option String :=
  if "data:".toList.isPrefixOf line.toList then
    some (strTrim (String.ofList (line.toList.drop 5)))
  else none

/-- `str::trim_end_matches`, of characters. -/
def trimEnd (p : Char → Bool) (s : String) : String :=
  String.ofList (s.toList.reverse.dropWhile p).reverse

section Stream

variable (fromStr : String → Except String Json.Value)

/-- Fold one line into the reply; blank lines, comments and other fields are passed over. -/
def pushLine (line : String) : StreamM Unit :=
  match lineData line with
  | none => pure ()
  | some data =>
    if data = "" ∨ data = "[DONE]" then pure ()
    else
      match fromStr data with
      | .error e => throw (.fatal ("unreadable stream chunk: " ++ e))
      | .ok chunk => pushChunk chunk

def pushBytes (line : List UInt8) : StreamM Unit :=
  pushLine fromStr (trimEnd (fun c => c = '\r' || c = '\n') (fromUtf8Lossy line))

/-- Read a response that comes in these pieces, and perhaps breaks off behind them. -/
def readResponse (chunks : List (List UInt8)) (interrupted : Option String) : StreamM ModelReply := do
  let pending ← readChunks (· = 10) (pushBytes fromStr) chunks []
  match interrupted with
  | some e => throw (.retryable ("stream interrupted: " ++ e))
  | none =>
    if !pending.isEmpty then pushLine fromStr (trimEnd isWhitespace (fromUtf8Lossy pending))
    return (← get).reply

/-- The pieces of text that are emitted, and the reply. -/
def completeStream (chunks : List (List UInt8)) (interrupted : Option String) :
    List String × Except ModelError ModelReply :=
  let (r, s) := (readResponse fromStr chunks interrupted).run.run .empty
  (s.seen, r)

end Stream

/-! ### What is emitted is what is replied -/

/-- The text of the reply is what was emitted. -/
def StreamState.Told (s : StreamState) : Prop := String.join s.seen = s.reply.content

/-- A computation that keeps the emitted text and the reply alike. -/
def Truthful {α : Type} (x : StreamM α) : Prop := ∀ s, s.Told → (x.run.run s).2.Told

section Truthful

variable {α β : Type} {x : StreamM α} {f : α → StreamM β} {g : StreamState → StreamState}

theorem truthful_pure (a : α) : Truthful (pure a : StreamM α) := fun _ h => h

theorem truthful_throw (e : ModelError) : Truthful (throw e : StreamM α) := fun _ h => h

theorem Truthful.bind (hx : Truthful x) (hf : ∀ a, Truthful (f a)) : Truthful (x >>= f) := by
  intro s hs
  have hx := hx s hs
  rw [ExceptT.run_bind, StateT.run_bind]
  generalize x.run.run s = r at hx
  obtain ⟨a | a, s'⟩ := r
  · exact hx
  · exact hf a s' hx

theorem truthful_modify (hg : ∀ s, s.Told → (g s).Told) : Truthful (modify g) := hg

theorem truthful_forM {l : List β} {f : β → StreamM Unit} (hf : ∀ b, Truthful (f b)) :
    Truthful (l.forM f) := by
  induction l with
  | nil => exact truthful_pure ()
  | cons b l ih => exact Truthful.bind (hf b) fun _ => ih

theorem truthful_emitText (t : String) : Truthful (emitText t) := by
  apply truthful_modify
  intro s hs
  rw [StreamState.Told] at hs ⊢
  simp [hs]

theorem truthful_pushToolCall (tc : Json.Value) : Truthful (pushToolCall tc) := by
  unfold pushToolCall
  dsimp only
  split
  · exact truthful_throw _
  · exact truthful_modify fun _ hs => hs

theorem truthful_pushContent (content : Json.Value) : Truthful (pushContent content) := by
  unfold pushContent
  split
  · exact truthful_emitText _
  · exact truthful_pure ()

theorem truthful_pushDelta (delta : Json.Value) : Truthful (pushDelta delta) :=
  (truthful_pushContent _).bind fun _ => truthful_forM truthful_pushToolCall

theorem truthful_pushUsage (usage : Option Json.Value) : Truthful (pushUsage usage) := by
  unfold pushUsage
  split
  · exact truthful_modify fun _ hs => hs
  · exact truthful_pure ()

theorem truthful_pushChoices (choices : Json.Value) : Truthful (pushChoices choices) := by
  unfold pushChoices
  split
  · exact truthful_pushDelta _
  · exact truthful_pure ()

theorem truthful_pushChunk (chunk : Json.Value) : Truthful (pushChunk chunk) := by
  unfold pushChunk
  split
  · exact truthful_throw _
  · exact (truthful_pushUsage _).bind fun _ => truthful_pushChoices _

variable (fromStr : String → Except String Json.Value)

theorem truthful_pushLine (line : String) : Truthful (pushLine fromStr line) := by
  unfold pushLine
  split
  · exact truthful_pure ()
  · split
    · exact truthful_pure ()
    · split
      · exact truthful_throw _
      · exact truthful_pushChunk _

theorem truthful_drain (n : Nat) (pending : List UInt8) :
    Truthful (drain (· = 10) (pushBytes fromStr) n pending) := by
  induction n generalizing pending with
  | zero => exact truthful_pure _
  | succ n ih =>
    rw [drain]
    split
    · exact truthful_pure _
    · exact Truthful.bind (truthful_pushLine fromStr _) fun _ => ih _

theorem truthful_readResponse (chunks : List (List UInt8)) (interrupted : Option String) :
    Truthful (readResponse fromStr chunks interrupted) := by
  unfold readResponse
  rw [readChunks_nil]
  apply Truthful.bind (truthful_drain fromStr _ _)
  intro pending
  split
  · exact truthful_throw _
  · split
    · exact Truthful.bind (truthful_pushLine fromStr _) fun _ _ hs => hs
    · exact fun _ hs => hs

end Truthful

/-! ### The reply of a response -/

/-- A computation that returns the reply that was accumulated, if it returns one. -/
def Replies (x : StreamM ModelReply) : Prop :=
  ∀ s reply, (x.run.run s).1 = .ok reply → (x.run.run s).2.reply = reply

theorem replies_throw (e : ModelError) : Replies (throw e) := fun _ _ h => absurd h nofun

theorem replies_get : Replies (do return (← get).reply) := fun _ _ h => Except.ok.inj h

theorem replies_bind {α : Type} {x : StreamM α} {f : α → StreamM ModelReply}
    (hf : ∀ a, Replies (f a)) : Replies (x >>= f) := by
  intro s reply h
  rw [ExceptT.run_bind, StateT.run_bind] at h ⊢
  generalize x.run.run s = r at h ⊢
  obtain ⟨a | a, s'⟩ := r
  · exact absurd h nofun
  · exact hf a s' reply h

section Response

variable (fromStr : String → Except String Json.Value)

theorem replies_readResponse (chunks : List (List UInt8)) (interrupted : Option String) :
    Replies (readResponse fromStr chunks interrupted) := by
  apply replies_bind
  intro pending
  split
  · exact replies_throw _
  · split
    · exact replies_bind fun _ => replies_get
    · exact replies_get

/-- A response that comes in pieces yields what it yields as a whole, be that a reply or an error, and
emits the same text on the way; and a reply has the text that was emitted. -/
theorem completeStream_chunks (chunks : List (List UInt8)) (interrupted : Option String) :
    completeStream fromStr chunks interrupted =
        completeStream fromStr [chunks.flatten] interrupted ∧
      ∀ reply, (completeStream fromStr chunks interrupted).2 = .ok reply →
        String.join (completeStream fromStr chunks interrupted).1 = reply.content := by
  constructor
  · have hwhole : readResponse fromStr chunks interrupted =
        readResponse fromStr [chunks.flatten] interrupted := by
      unfold readResponse
      rw [readChunks_nil, readChunks_nil, List.flatten_singleton]
    unfold completeStream
    rw [hwhole]
  · intro reply hreply
    have htold := truthful_readResponse fromStr chunks interrupted .empty rfl
    rw [← replies_readResponse fromStr chunks interrupted .empty reply hreply]
    exact htold

end Response

def readJson (text : String) : Except String Json.Value :=
  match Json.parse text with
  | some v => .ok v
  | none => .error "expected value at line 1 column 1"

/-- A delta of text that is cut within its only character. -/
def cutCharacter : List (List UInt8) :=
  [utf8 "data: \x7b\"choices\":[\x7b\"delta\":\x7b\"content\":\"".toList ++ [0xC3],
    0xA9 :: utf8 "\"\x7d\x7d]\x7d\n".toList]

theorem completeStream_cutCharacter :
    completeStream readJson cutCharacter none =
        completeStream readJson [cutCharacter.flatten] none ∧
      String.join (completeStream readJson cutCharacter none).1 = "é" := by
  obtain ⟨hwhole, hreply⟩ := completeStream_chunks readJson cutCharacter none
  exact ⟨hwhole, hreply ⟨"é", [], 0, 0⟩ (by decide +kernel)⟩

end Rav
