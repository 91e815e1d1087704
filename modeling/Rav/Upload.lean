import Rav.Sieve.Protocol

/-!
# What a push writes

Nothing but the request for TLS is written in the clear unless that is allowed; no line read under TLS has
a byte that came before; and a script is only activated after a good answer was read once it was sent. The
line read may have come earlier: answers carry no names.

## Main definitions

- `SieveStance` — how far the upload of a script has come
- `Stored` — the log of an upload with its answer
- `push_safe` — what holds of every push
-/

namespace Rav

/-! ### Programs -/

namespace Prog

/-- What every allowed call keeps of stance and state, a program that follows the stance keeps. -/
theorem Follows.run_invariant {E σ γ α : Type} {R : E → Type} {ok : γ → E → Prop}
    {next : γ → (e : E) → R e → γ} {Q : γ → α → Prop} {p : Prog E R α} {g : γ}
    {h : (e : E) → σ → R e × σ} {P : γ → σ → Prop} {s : σ}
    (hstep : ∀ g e s, ok g e → P g s → P (next g e (h e s).1) (h e s).2)
    (hp : p.Follows ok next Q g) (hs : P g s) : ∃ g', P g' (p.run h s).2 := by
  induction p generalizing g s with
  | pure a => exact ⟨g,hs⟩
  | call e k ih => exact ih _ (hp.2 _) (hstep g e s hp.1 hs)

end Prog

/-! ### How far an upload has come -/

/-- A script's header is written, its text, all of it, and a good answer is read. -/
inductive PutStage
  | idle
  | header (name : String)
  | body (name : String)
  | waiting (name : String)
  | stored (name : String)
  deriving DecidableEq, Repr

structure SieveStance where
  tls : Bool
  put : PutStage
  deriving DecidableEq, Repr

namespace SieveStance

def wrote : PutStage → SieveWrite → PutStage
  | _, .putScript name _ => .header name
  | .header name, .script _ => .body name
  | .body name, .crlf => .waiting name
  | _, _ => .idle

def read (line : String) : PutStage → PutStage
  | .waiting name =>
    if isOkLine line then .stored name else if isErrorLine line then .idle else .waiting name
  | _ => .idle

def next (g : SieveStance) : (c : SieveIoCall) → c.Answer → SieveStance
  | .write x, .ok () => { g with put := wrote g.put x }
  | .write _, .error _ => { g with put := .idle }
  | .readLine, .ok (line : String) => { g with put := read line g.put }
  | .readLine, .error _ => { g with put := .idle }
  | .tlsConnect, .ok () => ⟨true,.idle⟩
  | .tlsConnect, .error _ => { g with put := .idle }
  | .tcpConnect, _ => g

/-- In the clear only the request for TLS is written, unless more is allowed; and a script is activated
only once it is stored. -/
def ok (allowPlaintext : Bool) (g : SieveStance) : SieveIoCall → Prop
  | .write x => (g.tls = true ∨ allowPlaintext = true ∨ x = .starttls) ∧
      ∀ name, x = .setActive name → g.put = .stored name
  | _ => True

end SieveStance

section Follow

variable {allowPlaintext : Bool} {g : SieveStance} {n : Nat}

/-- Reading an answer. -/
theorem expectOk_follows : (expectOk n).Follows (SieveStance.ok allowPlaintext) SieveStance.next
    (fun g' r => g'.tls = g.tls ∧ (r = .ok () → ∀ name, g.put = .waiting name → g'.put = .stored name))
    g := by
  induction n generalizing g with
  | zero => exact ⟨rfl,nofun⟩
  | succ n ih =>
    refine Prog.Follows.perform_bind trivial (fun r => ?_)
    rcases r with e | (line : String)
    · exact ⟨rfl,nofun⟩
    · dsimp only
      cases hok : isOkLine line with
      | true =>
        refine ⟨rfl,fun _ name hput => ?_⟩
        show SieveStance.read line g.put = _
        rw [hput,SieveStance.read,if_pos hok]
      | false =>
        cases herr : isErrorLine line with
        | true => exact ⟨rfl,nofun⟩
        | false =>
          refine (ih (g := { g with put := SieveStance.read line g.put })).mono (fun g' r h => ?_)
          refine ⟨h.1,fun hr name hput => h.2 hr name ?_⟩
          show SieveStance.read line g.put = _
          rw [hput,SieveStance.read,hok,herr]
          rfl

theorem readCapabilities_follows (caps : Capabilities) :
    (readCapabilities n caps).Follows (SieveStance.ok allowPlaintext) SieveStance.next
      (fun g' _ => g'.tls = g.tls) g := by
  induction n generalizing g caps with
  | zero => exact rfl
  | succ n ih =>
    refine Prog.Follows.perform_bind trivial (fun r => ?_)
    rcases r with e | (line : String)
    · exact rfl
    · dsimp only
      cases isOkLine line with
      | true => exact rfl
      | false =>
        cases isErrorLine line with
        | true => exact rfl
        | false => exact ih (g := { g with put := SieveStance.read line g.put }) (caps.take line)

/-- Writing what may be written, none of it activating a script. -/
theorem writeAll_follows {xs : List SieveWrite}
    (hclear : ∀ x ∈ xs, g.tls = true ∨ allowPlaintext = true ∨ x = .starttls)
    (hnone : ∀ name, .setActive name ∉ xs) :
    (writeAll xs).Follows (SieveStance.ok allowPlaintext) SieveStance.next
      (fun g' r => g'.tls = g.tls ∧ (r = .ok () → g'.put = xs.foldl SieveStance.wrote g.put)) g := by
  induction xs generalizing g with
  | nil => exact ⟨rfl,fun _ => rfl⟩
  | cons x xs ih =>
    refine Prog.Follows.perform_bind ⟨hclear x List.mem_cons_self,?_⟩ (fun r => ?_)
    · rintro name rfl
      exact absurd List.mem_cons_self (hnone name)
    · rcases r with e | _
      · exact ⟨rfl,nofun⟩
      · exact ih (g := { g with put := SieveStance.wrote g.put x })
          (fun y hy => hclear y (List.mem_cons_of_mem _ hy))
          (fun name hm => hnone name (List.mem_cons_of_mem _ hm))

/-- A command that does not activate a script, and its answer. -/
theorem command_follows {xs : List SieveWrite}
    (hclear : ∀ x ∈ xs, g.tls = true ∨ allowPlaintext = true ∨ x = .starttls)
    (hnone : ∀ name, .setActive name ∉ xs) :
    (command n xs).Follows (SieveStance.ok allowPlaintext) SieveStance.next
      (fun g' r => g'.tls = g.tls ∧ (r = .ok () → ∀ name,
        xs.foldl SieveStance.wrote g.put = .waiting name → g'.put = .stored name)) g := by
  refine (writeAll_follows hclear hnone).bind (fun g' r h => ?_)
  rcases r with e | _
  · exact ⟨h.1,nofun⟩
  · refine expectOk_follows.mono (fun g'' r h' => ?_)
    refine ⟨h'.1.trans h.1,fun hr name hput => h'.2 hr name ((h.2 rfl).trans hput)⟩

/-- Activating a script once it is stored. -/
theorem setActive_follows {name : String} (hclear : g.tls = true ∨ allowPlaintext = true)
    (hput : g.put = .stored name) :
    (setActive n name).Follows (SieveStance.ok allowPlaintext) SieveStance.next
      (fun g' _ => g'.tls = g.tls) g := by
  refine Prog.Follows.bind (Q := fun g' _ => g'.tls = g.tls) ?_ (fun g' r h => ?_)
  · refine Prog.Follows.perform_bind ⟨hclear.imp_right Or.inl,?_⟩ (fun r => ?_)
    · rintro name' he
      obtain rfl : name = name' := by simpa using he
      exact hput
    · rcases r with e | _
      · exact rfl
      · exact rfl
  · rcases r with e | _
    · exact h
    · exact expectOk_follows.mono (fun g'' _ h' => h'.1.trans h)

theorem runSession_follows {email password name script : String}
    (hclear : g.tls = true ∨ allowPlaintext = true) :
    (runSession n email password name script).Follows (SieveStance.ok allowPlaintext) SieveStance.next
      (fun _ _ => True) g := by
  have hany : ∀ {g' : SieveStance} (x : SieveWrite), g'.tls = g.tls →
      g'.tls = true ∨ allowPlaintext = true ∨ x = .starttls := by
    intro g' x hg
    rw [hg]
    exact hclear.imp_right Or.inl
  refine (command_follows (fun x _ => hany x rfl) (by simp)).bind (fun g₁ r h₁ => ?_)
  rcases r with e | _
  · trivial
  refine (command_follows (fun x _ => hany x h₁.1) (by simp)).bind (fun g₂ r h₂ => ?_)
  rcases r with e | _
  · trivial
  have htls : g₂.tls = g.tls := h₂.1.trans h₁.1
  refine (setActive_follows (by rw [htls]; exact hclear) (h₂.2 rfl name ?_)).bind (fun g₃ r h₃ => ?_)
  · cases g₁.put <;> rfl
  rcases r with e | _
  · trivial
  · refine Prog.Follows.perform_bind ⟨hany .logout (h₃.trans htls),nofun⟩ (fun _ => trivial)

/-- A push keeps to it, whatever the server answers. -/
theorem doPush_follows {email password name script : String} :
    (doPush n allowPlaintext email password name script).Follows (SieveStance.ok allowPlaintext)
      SieveStance.next (fun _ _ => True) ⟨false,.idle⟩ := by
  refine Prog.Follows.perform_bind trivial (fun r => ?_)
  rcases r with e | _
  · trivial
  refine (readCapabilities_follows _).bind (fun g₁ r h₁ => ?_)
  rcases r with e | caps
  · trivial
  refine Prog.Follows.ite (fun _ => ?_) (fun _ => Prog.Follows.ite (fun _ => trivial) (fun hallow => ?_))
  · refine (command_follows (fun x hx => Or.inr (Or.inr (List.mem_singleton.mp hx))) (by simp)).bind
      (fun g₂ r _ => ?_)
    rcases r with e | _
    · trivial
    refine Prog.Follows.perform_bind trivial (fun r => ?_)
    rcases r with e | _
    · trivial
    refine (readCapabilities_follows _).bind (fun g₃ r h₃ => ?_)
    rcases r with e | _
    · trivial
    exact runSession_follows (Or.inl h₃)
  · refine runSession_follows (Or.inr ?_)
    simpa using hallow

end Follow

/-! ### The log of a connection -/

/-- The text of a line that was read. -/
def lineText (line : List SieveByte) : Option String := fromUtf8 (line.map SieveByte.value)

/-- The upload of a script, written in full. -/
def uploaded (tls : Bool) (name : String) (length : Nat) (text : String) : List SieveLog :=
  [.wrote tls (.putScript name length),.wrote tls (.script text),.wrote tls .crlf]

/-- Lines are read that leave an answer open. -/
def Open (tls : Bool) (log : List SieveLog) : Prop :=
  ∀ e ∈ log, ∃ line s, e = .read tls line ∧ lineText line = some s ∧
    isOkLine s = false ∧ isErrorLine s = false

/-- A script is uploaded, and the line read after it that ends an answer ends it well. -/
def Stored (tls : Bool) (name : String) (log : List SieveLog) : Prop :=
  ∃ a length text mid line s, log = a ++ uploaded tls name length text ++ mid ++ [.read tls line] ∧
    Open tls mid ∧ lineText line = some s ∧ isOkLine s = true

/-- Scripts are activated only where they are stored. -/
def ActivatesStored (log : List SieveLog) : Prop :=
  ∀ pre tls name post, log = pre ++ .wrote tls (.setActive name) :: post → Stored tls name pre

/-- The log bears out how far an upload has come. -/
def PutStage.Logged (tls : Bool) (log : List SieveLog) : PutStage → Prop
  | .idle => True
  | .header name => ∃ a length, log = a ++ [.wrote tls (.putScript name length)]
  | .body name => ∃ a length text,
      log = a ++ [.wrote tls (.putScript name length),.wrote tls (.script text)]
  | .waiting name => ∃ a length text mid, log = a ++ uploaded tls name length text ++ mid ∧ Open tls mid
  | .stored name => Stored tls name log

/-- What holds of a connection where a push stands. -/
structure SieveConn.Safe (allowPlaintext : Bool) (g : SieveStance) (w : SieveConn) : Prop where
  tls : w.tls = g.tls
  logged : g.put.Logged w.tls w.log
  clear : ∀ x, .wrote false x ∈ w.log → allowPlaintext = true ∨ x = .starttls
  activates : ActivatesStored w.log
  buffered : ∀ b ∈ w.buffer, b.tls = w.tls
  lines : ∀ tls line, .read tls line ∈ w.log → ∀ b ∈ line, b.tls = tls

section Conn

variable {allowPlaintext : Bool} {g : SieveStance} {w : SieveConn} {tls : Bool} {name : String}
  {log : List SieveLog} {e : SieveLog}

/-- One more entry: it is the one sought, or that was there before. -/
theorem append_singleton_eq {α : Type} {l pre post : List α} {x y : α}
    (h : l ++ [y] = pre ++ x :: post) : l = pre ∧ y = x ∨ ∃ post', l = pre ++ x :: post' := by
  rcases List.eq_nil_or_concat post with rfl | ⟨post',z,rfl⟩
  · obtain ⟨rfl,hyx⟩ := List.append_inj' h rfl
    exact Or.inl ⟨rfl,by simpa using hyx⟩
  · rw [List.concat_eq_append,← List.cons_append,← List.append_assoc] at h
    obtain ⟨rfl,-⟩ := List.append_inj' h rfl
    exact Or.inr ⟨post',rfl⟩

theorem ActivatesStored.append (h : ActivatesStored log)
    (he : ∀ tls name, e = .wrote tls (.setActive name) → Stored tls name log) :
    ActivatesStored (log ++ [e]) := by
  intro pre tls name post heq
  rcases append_singleton_eq heq with ⟨rfl,hex⟩ | ⟨post',hpre⟩
  · exact he tls name hex
  · exact h pre tls name post' hpre

theorem Open.append {line : List SieveByte} {s : String} (h : Open tls log)
    (hs : lineText line = some s) (hok : isOkLine s = false) (herr : isErrorLine s = false) :
    Open tls (log ++ [.read tls line]) := by
  intro e he
  rcases List.mem_append.mp he with he | he
  · exact h e he
  · exact ⟨line,s,List.mem_singleton.mp he,hs,hok,herr⟩

/-- Writing on: the log bears out the next stage. -/
theorem PutStage.Logged.wrote {p : PutStage} (h : p.Logged tls log) (x : SieveWrite) :
    (SieveStance.wrote p x).Logged tls (log ++ [.wrote tls x]) := by
  cases x with
  | putScript name length => exact ⟨log,length,rfl⟩
  | script text =>
    cases p with
    | header name =>
      obtain ⟨a,length,rfl⟩ := h
      exact ⟨a,length,text,by simp⟩
    | _ => trivial
  | crlf =>
    cases p with
    | body name =>
      obtain ⟨a,length,text,rfl⟩ := h
      exact ⟨a,length,text,[],by simp [uploaded],nofun⟩
    | _ => trivial
  | _ => cases p <;> trivial

/-- Reading on. -/
theorem PutStage.Logged.read {p : PutStage} (h : p.Logged tls log) {line : List SieveByte} {s : String}
    (hs : lineText line = some s) :
    (SieveStance.read s p).Logged tls (log ++ [.read tls line]) := by
  cases p with
  | waiting name =>
    unfold SieveStance.read
    cases hok : isOkLine s with
    | true =>
      obtain ⟨a,length,text,mid,hlog,hmid⟩ := h
      exact ⟨a,length,text,mid,line,s,congrArg (· ++ _) hlog,hmid,hs,hok⟩
    | false =>
      cases herr : isErrorLine s with
      | true => trivial
      | false =>
        obtain ⟨a,length,text,mid,hlog,hmid⟩ := h
        refine ⟨a,length,text,mid ++ [.read tls line],?_,hmid.append hs hok herr⟩
        rw [hlog,List.append_assoc _ mid]
  | _ => trivial

theorem splitLine_eq {bs l r : List SieveByte} (h : splitLine bs = some (l,r)) : l ++ r = bs := by
  induction bs generalizing l with
  | nil => simp [splitLine] at h
  | cons b bs ih =>
    rw [splitLine] at h
    split at h
    · obtain ⟨rfl,rfl⟩ := Prod.mk.inj (Option.some.inj h)
      rfl
    · obtain ⟨⟨l',r'⟩,hsplit,he⟩ := Option.map_eq_some_iff.mp h
      obtain ⟨rfl,rfl⟩ := Prod.mk.inj he
      rw [List.cons_append,ih hsplit]

/-- All bytes came under TLS, or none did. -/
def Came (tls : Bool) (bs : List SieveByte) : Prop := ∀ b ∈ bs, b.tls = tls

theorem Came.of_split {bs l r : List SieveByte} (h : Came tls bs) (hsplit : splitLine bs = some (l,r)) :
    Came tls l ∧ Came tls r := by
  rw [← splitLine_eq hsplit] at h
  exact ⟨fun b hb => h b (List.mem_append_left _ hb),fun b hb => h b (List.mem_append_right _ hb)⟩

theorem Came.append {bs cs : List SieveByte} (h : Came tls bs) (h' : Came tls cs) :
    Came tls (bs ++ cs) := fun b hb => (List.mem_append.mp hb).elim (h b) (h' b)

/-- What is read of a line and what is left came as the stream is. -/
theorem came_takeLine {sent : Nat} {line : List SieveByte} (arriving : List Arrival)
    (h : Came tls line) : (∀ l, (takeLine tls sent line arriving).1 = .ok l → Came tls l) ∧
      Came tls (takeLine tls sent line arriving).2.1 := by
  induction arriving generalizing line with
  | nil =>
    refine ⟨fun l hl => ?_,fun b hb => absurd hb List.not_mem_nil⟩
    obtain rfl := Except.ok.inj hl
    exact h
  | cons x rest ih =>
    cases x with
    | fail e => exact ⟨nofun,fun b hb => absurd hb List.not_mem_nil⟩
    | chunk bytes =>
      have hnew : Came tls (bytes.map (fun b => (⟨b,tls,sent⟩ : SieveByte))) := by
        intro b hb
        obtain ⟨c,-,rfl⟩ := List.mem_map.mp hb
        rfl
      rw [takeLine]
      split
      · refine ⟨fun l hl => ?_,fun b hb => absurd hb List.not_mem_nil⟩
        obtain rfl := Except.ok.inj hl
        exact h
      · split
        · next r hsplit =>
          obtain ⟨hl,hr⟩ := hnew.of_split hsplit
          refine ⟨fun l he => ?_,hr⟩
          obtain rfl := Except.ok.inj he
          exact h.append hl
        · exact ih (h.append hnew)

theorem came_nextLine (h : Came w.tls w.buffer) :
    (∀ l, w.nextLine.1 = .ok l → Came w.tls l) ∧ Came w.tls w.nextLine.2.1 := by
  unfold SieveConn.nextLine
  split
  · next r hsplit =>
    obtain ⟨hl,hr⟩ := h.of_split hsplit
    refine ⟨fun l he => ?_,hr⟩
    obtain rfl := Except.ok.inj he
    exact hl
  · exact came_takeLine _ h

theorem SieveConn.withArriving_fields (w : SieveConn) (rest : List Arrival) :
    (w.withArriving rest).tls = w.tls ∧ (w.withArriving rest).log = w.log := by
  unfold withArriving
  split
  · exact ⟨rfl,rfl⟩
  · exact ⟨rfl,rfl⟩

/-- Something is written that may be written where the push stands. -/
theorem SieveConn.Safe.write {x : SieveWrite} (h : w.Safe allowPlaintext g)
    (hok : SieveStance.ok allowPlaintext g (.write x)) {p : PutStage}
    (hp : p.Logged w.tls (w.log ++ [.wrote w.tls x])) :
    SieveConn.Safe allowPlaintext { g with put := p }
      { w with sent := w.sent + 1, log := w.log ++ [.wrote w.tls x] } := by
  refine ⟨h.tls,hp,fun y hy => ?_,h.activates.append ?_,h.buffered,fun tls line hl => ?_⟩
  · rcases List.mem_append.mp hy with hy | hy
    · exact h.clear y hy
    · obtain ⟨htls,rfl⟩ : false = w.tls ∧ y = x := by simpa using List.mem_singleton.mp hy
      exact hok.1.resolve_left (by rw [← h.tls,← htls]; simp)
  · intro tls name he
    obtain ⟨rfl,rfl⟩ : w.tls = tls ∧ x = .setActive name := by simpa using he
    have hstored := h.logged
    rw [hok.2 name rfl] at hstored
    exact hstored
  · rcases List.mem_append.mp hl with hl | hl
    · exact h.lines tls line hl
    · simp at hl

/-- A line that came as the stream is, is read. -/
theorem SieveConn.Safe.read (h : w.Safe allowPlaintext g) {line buffer : List SieveByte}
    {rest : List Arrival} (hline : Came w.tls line) (hbuffer : Came w.tls buffer) {p : PutStage}
    (hp : p.Logged w.tls (w.log ++ [.read w.tls line])) :
    SieveConn.Safe allowPlaintext { g with put := p }
      { w.withArriving rest with
        buffer := buffer
        log := (w.withArriving rest).log ++ [.read w.tls line] } := by
  obtain ⟨htls,hlog⟩ := w.withArriving_fields rest
  refine ⟨htls.trans h.tls,?_,?_,?_,?_,?_⟩
  · dsimp only
    rw [htls,hlog]
    exact hp
  · dsimp only
    rw [hlog]
    intro x hx
    rcases List.mem_append.mp hx with hx | hx
    · exact h.clear x hx
    · simp at hx
  · dsimp only
    rw [hlog]
    exact h.activates.append nofun
  · dsimp only
    rw [htls]
    exact hbuffer
  · dsimp only
    rw [hlog]
    intro tls l hl
    rcases List.mem_append.mp hl with hl | hl
    · exact h.lines tls l hl
    · obtain ⟨rfl,rfl⟩ : tls = w.tls ∧ l = line := by simpa using hl
      exact hline

/-- Nothing can be read. -/
theorem SieveConn.Safe.unread (h : w.Safe allowPlaintext g) {buffer : List SieveByte}
    {rest : List Arrival} (hbuffer : Came w.tls buffer) :
    SieveConn.Safe allowPlaintext { g with put := .idle } { w.withArriving rest with buffer := buffer } := by
  obtain ⟨htls,hlog⟩ := w.withArriving_fields rest
  refine ⟨htls.trans h.tls,trivial,?_,?_,?_,?_⟩
  · dsimp only
    rw [hlog]
    exact h.clear
  · dsimp only
    rw [hlog]
    exact h.activates
  · dsimp only
    rw [htls]
    exact hbuffer
  · dsimp only
    rw [hlog]
    exact h.lines

/-- Every call that may be made. -/
theorem SieveConn.Safe.serve (h : w.Safe allowPlaintext g) {c : SieveIoCall}
    (hok : SieveStance.ok allowPlaintext g c) :
    (SieveConn.serve c w).2.Safe allowPlaintext (SieveStance.next g c (SieveConn.serve c w).1) := by
  cases c with
  | tcpConnect =>
    simp only [SieveConn.serve]
    split
    · exact h
    · exact h
  | write x =>
    simp only [SieveConn.serve,SieveConn.write]
    split
    · exact h.write hok trivial
    · exact h.write hok (h.tls ▸ h.logged.wrote x)
  | readLine =>
    obtain ⟨hline,hbuffer⟩ := came_nextLine h.buffered
    simp only [SieveConn.serve,SieveConn.readLine]
    generalize w.nextLine = r at hline hbuffer
    obtain ⟨line,buffer,rest⟩ := r
    cases line with
    | error e => exact h.unread hbuffer
    | ok line =>
      dsimp only
      cases hs : fromUtf8 (line.map SieveByte.value) with
      | none => exact h.read (hline line rfl) hbuffer trivial
      | some s =>
        dsimp only
        split
        · exact h.read (hline line rfl) hbuffer trivial
        · exact h.read (hline line rfl) hbuffer (h.logged.read hs)
  | tlsConnect =>
    simp only [SieveConn.serve,SieveConn.tlsConnect]
    split
    · exact ⟨h.tls,trivial,h.clear,h.activates,fun b hb => absurd hb List.not_mem_nil,h.lines⟩
    · exact ⟨rfl,trivial,h.clear,h.activates,fun b hb => absurd hb List.not_mem_nil,h.lines⟩

end Conn

/-- A connection to be opened: what will arrive, and what will fail. -/
def SieveConn.opening (plain secure : List Arrival) (connects handshakes : Option String)
    (refuses : Nat → Option String) : SieveConn :=
  ⟨plain,secure,connects,handshakes,refuses,false,0,[],[]⟩

/-- What a push leaves in the log of its connection. -/
def pushLog (n : Nat) (allowPlaintext : Bool) (email password name script : String) (w : SieveConn) :
    List SieveLog :=
  ((doPush n allowPlaintext email password name script).run SieveConn.serve w).2.log

/-- Whatever arrives and whatever fails, however long it takes: nothing but the request for TLS is written
in the clear unless that is allowed; what is read under TLS came under TLS; and a script is activated only
after it was written in full and a line that ends an answer well was the first to end one. -/
theorem push_safe (n : Nat) (allowPlaintext : Bool) (email password name script : String)
    (plain secure : List Arrival) (connects handshakes : Option String) (refuses : Nat → Option String) :
    let log := pushLog n allowPlaintext email password name script
      (SieveConn.opening plain secure connects handshakes refuses)
    (∀ x, .wrote false x ∈ log → allowPlaintext = true ∨ x = .starttls) ∧
      (∀ tls line, .read tls line ∈ log → ∀ b ∈ line, b.tls = tls) ∧ ActivatesStored log := by
  have hopen : (SieveConn.opening plain secure connects handshakes refuses).Safe allowPlaintext
      ⟨false,.idle⟩ := by
    refine ⟨rfl,trivial,nofun,?_,nofun,nofun⟩
    intro pre tls name post h
    simp [SieveConn.opening] at h
  obtain ⟨g,hsafe⟩ := Prog.Follows.run_invariant (h := SieveConn.serve)
    (P := fun g w => SieveConn.Safe allowPlaintext g w) (fun g c w hok h => h.serve hok)
    (doPush_follows (n := n)) hopen
  exact ⟨hsafe.clear,hsafe.lines,hsafe.activates⟩

/-! ### An answer that comes early -/

def SieveLog.isWrite : SieveLog → Bool
  | .wrote _ _ => true
  | .read _ _ => false

/-- A script is stored, and the line that says so came once it was written. -/
def AnsweredAfter (tls : Bool) (name : String) (log : List SieveLog) : Prop :=
  ∃ a length text mid line s, log = a ++ uploaded tls name length text ++ mid ++ [.read tls line] ∧
    Open tls mid ∧ lineText line = some s ∧ isOkLine s = true ∧
      ∀ b ∈ line, a.countP SieveLog.isWrite + 3 ≤ b.sent

/-- A server that offers TLS, and greets again under it; it answers the login with `OK` twice in one go,
and the script with `NO`. -/
def earlyOk : List Arrival × List Arrival :=
  ([.chunk [34,83,84,65,82,84,84,76,83,34,13,10,79,75,13,10],.chunk [79,75,13,10]],
    [.chunk [79,75,13,10],.chunk [79,75,13,10,79,75,13,10],.chunk [78,79,13,10]])

def earlyOkLog : List SieveLog :=
  pushLog 9 false "u" "p" "rav-filters" "keep;"
    (SieveConn.opening earlyOk.1 earlyOk.2 none none (fun _ => none))

/-- The second `OK` is taken for the answer to the script, which is activated. -/
theorem activated_before_answer :
    ¬∀ (n : Nat) (allowPlaintext : Bool) (email password name script : String)
      (plain secure : List Arrival) (connects handshakes : Option String)
      (refuses : Nat → Option String) (pre : List SieveLog) (tls : Bool) (active : String)
      (post : List SieveLog),
      pushLog n allowPlaintext email password name script
          (SieveConn.opening plain secure connects handshakes refuses) =
        pre ++ .wrote tls (.setActive active) :: post → AnsweredAfter tls active pre := by
  intro h
  have hsplit : earlyOkLog =
      earlyOkLog.take 11 ++ .wrote true (.setActive "rav-filters") :: earlyOkLog.drop 12 := by
    decide
  have hlast : (earlyOkLog.take 11).getLast? =
      some (.read true [⟨79,true,2⟩,⟨75,true,2⟩,⟨13,true,2⟩,⟨10,true,2⟩]) := by
    decide
  obtain ⟨a,length,text,mid,line,s,heq,-,-,-,hsent⟩ := h _ _ _ _ _ _ _ _ _ _ _ _ _ _ _ hsplit
  rw [heq,List.getLast?_concat] at hlast
  obtain rfl : line = _ := (SieveLog.read.inj (Option.some.inj hlast)).2
  have hearly := hsent ⟨79,true,2⟩ List.mem_cons_self
  exact absurd (Nat.le_trans (Nat.le_add_left 3 _) hearly) (by decide)

end Rav
