import Rav.DashMap
import Rav.Str

/-!
# `assistant::refs`, `assistant::events` and `assistant::actions`

Short refs, `m1`, `m2` and so on, minted for the messages of one turn: the model only ever sees refs, and
names a message by one. The events of a turn, and the check of an action the model proposes. `lower` is
`str::to_lowercase`.

## Main definitions

- `MessageLoc` — where a message lives
- `RefTable`, `RefTable.mint`, `RefTable.resolve`
- `SourceRef`, `DraftProposal`, `ActionProposal`, `AssistantEvent`
- `Assistant.validateAction`
-/

namespace Rav

/-- Where a message lives. Never shown to the model. -/
structure MessageLoc where
  folder : String
  uid : Nat
  deriving DecidableEq, Repr

/-- The two maps of a turn's refs. -/
structure RefTable where
  byRef : DashMap String MessageLoc
  byLoc : DashMap MessageLoc String

namespace RefTable

def empty : RefTable := ⟨.new,.new⟩

/-- The `n`-th ref. -/
def refName (n : Nat) : String := "m" ++ toString n

/-- The ref of a message, minted if it has none. -/
def mint (t : RefTable) (loc : MessageLoc) : String × RefTable :=
  match t.byLoc.get loc with
  | some r => (r,t)
  | none =>
    let r := refName (t.byRef.iter.length + 1)
    (r,⟨t.byRef.insert r loc,t.byLoc.insert loc r⟩)

def resolve (t : RefTable) (r : String) : Option MessageLoc := t.byRef.get r

theorem refName_injective {m n : Nat} (h : refName m = refName n) : m = n := by
  have hs : Nat.repr m = Nat.repr n := String.append_right_inj "m" |>.mp h
  have hd : Nat.toDigits 10 m = Nat.toDigits 10 n := String.ofList_injective hs
  calc m = Nat.ofDigitChars 10 (Nat.toDigits 10 m) 0 :=
        (Nat.ofDigitChars_toDigits (by decide) (by decide)).symm
    _ = Nat.ofDigitChars 10 (Nat.toDigits 10 n) 0 := by rw [hd]
    _ = n := Nat.ofDigitChars_toDigits (by decide) (by decide)

/-- The messages of a table, in the order their refs were minted in. -/
structure Lists (t : RefTable) (locs : List MessageLoc) : Prop where
  nodup : locs.Nodup
  byRef : t.byRef.iter = locs.mapIdx (fun i loc => (refName (i+1),loc))
  byLoc : ∀ loc r, t.byLoc.get loc = some r ↔ t.resolve r = some loc

variable {t : RefTable} {locs : List MessageLoc}

theorem lists_empty : empty.Lists [] := ⟨List.nodup_nil,rfl,fun _ _ => ⟨nofun,nofun⟩⟩

theorem Lists.resolve (h : t.Lists locs) {r : String} {loc : MessageLoc} :
    t.resolve r = some loc ↔ ∃ i, locs[i]? = some loc ∧ r = refName (i+1) := by
  unfold RefTable.resolve
  rw [DashMap.get_eq_some,h.byRef,List.mem_mapIdx]
  constructor
  · rintro ⟨i,hi,he⟩
    obtain ⟨rfl,rfl⟩ := Prod.mk.inj he
    exact ⟨i,List.getElem?_eq_getElem hi,rfl⟩
  · rintro ⟨i,hi,rfl⟩
    obtain ⟨hlt,rfl⟩ := List.getElem?_eq_some_iff.mp hi
    exact ⟨i,hlt,rfl⟩

theorem Lists.mem_iff (h : t.Lists locs) {loc : MessageLoc} :
    loc ∈ locs ↔ ∃ r, t.resolve r = some loc := by
  constructor
  · intro hl
    obtain ⟨i,hi⟩ := List.mem_iff_getElem?.mp hl
    exact ⟨refName (i+1),h.resolve.mpr ⟨i,hi,rfl⟩⟩
  · rintro ⟨r,hr⟩
    obtain ⟨i,hi,_⟩ := h.resolve.mp hr
    exact List.mem_of_getElem? hi

/-- The ref that is minted next is not in use. -/
theorem Lists.resolve_next (h : t.Lists locs) :
    t.resolve (refName (t.byRef.iter.length + 1)) = none := by
  refine Option.eq_none_iff_forall_ne_some.mpr (fun loc hl => ?_)
  obtain ⟨i,hi,hr⟩ := h.resolve.mp hl
  have hlen : t.byRef.iter.length = locs.length := by rw [h.byRef,List.length_mapIdx]
  have heq := refName_injective hr
  have hlt := (List.getElem?_eq_some_iff.mp hi).1
  omega

/-- What minting a ref changes. -/
structure Minted (t : RefTable) (loc : MessageLoc) (r : String) (t' : RefTable) : Prop where
  resolve : ∀ r' loc', t'.resolve r' = some loc' ↔
    t.resolve r' = some loc' ∨ r' = r ∧ loc' = loc

theorem Lists.mint (h : t.Lists locs) (loc : MessageLoc) :
    ∃ locs', (t.mint loc).2.Lists locs' ∧ t.Minted loc (t.mint loc).1 (t.mint loc).2 := by
  unfold RefTable.mint
  cases hg : t.byLoc.get loc with
  | some r =>
    refine ⟨locs,h,⟨fun r' loc' => ⟨.inl,?_⟩⟩⟩
    rintro (hr | ⟨rfl,rfl⟩)
    · exact hr
    · exact (h.byLoc _ _).mp hg
  | none =>
    have hnext := h.resolve_next
    have hlen : t.byRef.iter.length = locs.length := by rw [h.byRef,List.length_mapIdx]
    have hnew : loc ∉ locs := by
      intro hl
      obtain ⟨r,hr⟩ := h.mem_iff.mp hl
      exact Option.some_ne_none r (((h.byLoc loc r).mpr hr).symm.trans hg)
    generalize hr : refName (t.byRef.iter.length + 1) = r at hnext ⊢
    have hm : t.Minted loc r ⟨t.byRef.insert r loc,t.byLoc.insert loc r⟩ := by
      constructor
      intro r' loc'
      show (t.byRef.insert r loc).get r' = some loc' ↔ t.byRef.get r' = some loc' ∨ _
      rw [DashMap.get_insert]
      by_cases hr' : r' = r
      · subst hr'
        rw [if_pos rfl,Option.some.injEq]
        constructor
        · exact fun hl => .inr ⟨rfl,hl.symm⟩
        · rintro (hl | ⟨_,hl⟩)
          · exact absurd (hl.symm.trans hnext) (Option.some_ne_none _)
          · exact hl.symm
      · rw [if_neg hr']
        exact ⟨.inl,fun hl => hl.resolve_right (fun hc => hr' hc.1)⟩
    refine ⟨locs ++ [loc],⟨?_,?_,?_⟩,hm⟩
    · rw [List.nodup_append]
      refine ⟨h.nodup,List.nodup_singleton _,?_⟩
      rintro a ha b hb rfl
      rw [List.mem_singleton.mp hb] at ha
      exact hnew ha
    · rw [DashMap.iter_insert hnext,h.byRef,List.mapIdx_concat,← hr,hlen]
    · intro loc' r'
      rw [hm.resolve,← h.byLoc,DashMap.get_insert]
      by_cases hl : loc' = loc
      · subst hl
        rw [if_pos rfl,Option.some.injEq,hg]
        constructor
        · exact fun hr' => .inr ⟨hr'.symm,rfl⟩
        · rintro (hc | ⟨hr',_⟩)
          · exact absurd hc (Option.some_ne_none _).symm
          · exact hr'.symm
      · rw [if_neg hl]
        exact ⟨.inl,fun hc => hc.resolve_right (fun hc' => hl hc'.2)⟩

end RefTable

end Rav

namespace Rav

/-! ### Events -/

structure SourceRef where
  msgRef : String
  folder : String
  uid : Nat
  subject : String
  sender : String
  date : String
  deriving DecidableEq, Repr

structure DraftProposal where
  msgRef : String
  folder : String
  uid : Nat
  body : String
  deriving DecidableEq, Repr

structure ActionMessage where
  folder : String
  uid : Nat
  subject : String
  deriving DecidableEq, Repr

structure FilterSpec where
  sender : String
  folder : String
  deriving DecidableEq, Repr

inductive ActionKind
  | move
  | archive
  | markRead
  | createFilter
  deriving DecidableEq, Repr

structure ActionProposal where
  id : String
  kind : ActionKind
  summary : String
  messages : List ActionMessage
  folder : Option String
  filter : Option FilterSpec
  deriving DecidableEq, Repr

/-- One event of a turn. -/
inductive AssistantEvent
  | status (text : String)
  | text (delta : String)
  | sources (refs : List SourceRef)
  | draft (d : DraftProposal)
  | action (p : ActionProposal)
  | error (message : String) (retryable : Bool)
  | done (inputTokens outputTokens : UInt64)
  deriving DecidableEq, Repr

/-! ### Actions -/

def maxActionMessages : Nat := 50

/-- Arguments of the `propose_action` tool, as the model sends them. -/
structure ProposeActionArgs where
  kind : String
  refs : List String := []
  folder : Option String := none
  sender : Option String := none
  deriving DecidableEq, Repr

def emailCount (n : Nat) : String := if n = 1 then "1 email" else toString n ++ " emails"

def existingFolder (folders : List String) (name : String) : Except String String :=
  match folders.find? (fun f => f = name) with
  | some f => .ok f
  | none => .error ("folder \"" ++ name ++ "\" does not exist; use one of the user's folders")

/-- One exact address: no wildcards, no spaces, exactly one `@` with text on both sides. -/
def exactAddress (lower : String → String) (raw : String) : Except String String :=
  let a := lower (strTrim raw)
  let parts := splitAll ['@'] a.toList
  let shape :=
    match parts with
    | [l,d] => !l.isEmpty && d.contains '.'
    | _ => false
  let wild := a.toList.any (fun c => isWhitespace c || c = '*' || c = '?' || c = '%')
  if shape && !wild then .ok a
  else .error ("\"" ++ raw ++ "\" is not one exact sender address")

def actionKind (kind : String) : Except String ActionKind :=
  if kind = "move" then .ok .move
  else if kind = "archive" then .ok .archive
  else if kind = "mark_read" then .ok .markRead
  else if kind = "create_filter" then .ok .createFilter
  else .error ("\"" ++ kind ++
    "\" is not an action; use move, archive, mark_read or create_filter")

/-- Folder, filter and summary of an action. -/
def actionTarget (lower : String → String) (args : ProposeActionArgs) (n : Nat)
    (folders : List String) :
    ActionKind → Except String (Option String × Option FilterSpec × String)
  | .move => do
    let f ← existingFolder folders (args.folder.getD "")
    pure (some f,none,"Move " ++ emailCount n ++ " to " ++ f)
  | .archive =>
    match folders.find? (fun f => eqIgnoreAsciiCase f "archive") with
    | some f => pure (some f,none,"Archive " ++ emailCount n)
    | none => .error "this mailbox has no Archive folder"
  | .markRead => pure (none,none,"Mark " ++ emailCount n ++ " as read")
  | .createFilter => do
    let sender ← exactAddress lower (args.sender.getD "")
    let f ← existingFolder folders (args.folder.getD "")
    pure (none,some ⟨sender,f⟩,"File future mail from " ++ sender ++ " into " ++ f)

/-- Turn a model's proposal into something the UI may show, under an id drawn for it. -/
def Assistant.validateAction (lower : String → String) (id : String) (args : ProposeActionArgs)
    (messages : List ActionMessage) (folders : List String) : Except String ActionProposal := do
  let kind ← actionKind args.kind
  if messages.length > maxActionMessages then
    .error ("at most " ++ toString maxActionMessages ++ " emails per action")
  else if kind ≠ .createFilter ∧ messages = [] then .error "name at least one email by its ref"
  else
    let (folder,filter,summary) ← actionTarget lower args messages.length folders kind
    pure ⟨id,kind,summary,messages,folder,filter⟩

end Rav
