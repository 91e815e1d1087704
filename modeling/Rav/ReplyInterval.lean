import Rav.Runs
import Rav.Threads
import Rav.Realtime.Vacation

/-!
# Auto-replies are an interval apart

Between the look at the last reply to a sender and the statement that records a new one other tasks
run; the record is kept under the sender as spelled, it is made before the mail is handed over, and
a purge forgets it after twice the interval its task has read, whatever is in force. Where none of
this does harm, two replies to a sender are never less than the interval apart, and nobody is passed
over but for a reply that is younger.

## Main definitions

- `VacationStance` — what a task has learnt of the sender it deals with
- `VacationSystem` — tasks in progress over one account's database
- `VacationSystem.Spaced` — replies are apart, and none is withheld
- `VacationSystem.Kept` — the condition on a step
-/

namespace Rav

/-! ### Tasks in progress -/

/-- Where a task is: it has yet to read the settings; it has read an interval, and is about to look
a sender up, has found the time of the last reply, is to record a new one, or has recorded it. -/
inductive VacationStance
  | fresh
  | ready (interval : Int)
  | looking (interval : Int) (sender : String)
  | found (interval : Int) (sender : String) (time : Option Nat)
  | due (interval : Int) (sender : String) (time : Nat)
  | recorded (interval : Int) (sender : String)
  deriving DecidableEq, Repr

namespace VacationStance

def Allows : VacationStance → VacationCall → Prop
  | .fresh, .getVacation => True
  | .ready _, .today => True
  | .ready _, .withUserDb _ => True
  | .ready n, .purgeReplies hours => hours = wrap64 (n * 2)
  | .looking _ a, .findReply b => b = a
  | .found n a (some t), .elapsedHours b t' n' => b = a ∧ t' = t ∧ n' = n
  | .found _ a none, .insertReply b => b = a
  | .due _ a _, .updateReply b => b = a
  | .recorded _ a, .sendMessage m => m.to_ = [a]
  | _, _ => False

def next : VacationStance → (c : VacationCall) → c.Answer → VacationStance
  | .fresh, .getVacation, .ok v => .ready v.replyIntervalHours
  | .fresh, .getVacation, .error _ => .ready unreadVacation.replyIntervalHours
  | .ready n, .withUserDb (some a), .ok _ => .looking n a
  | .looking n a, .findReply _, .ok t => .found n a t
  | .looking n _, .findReply _, .error _ => .ready n
  | .found n a (some t), .elapsedHours _ _ _, .ok h => if h < n then .ready n else .due n a t
  | .found n _ _, .elapsedHours _ _ _, .error _ => .ready n
  | .found n a _, .insertReply _, .ok _ => .recorded n a
  | .found n _ _, .insertReply _, .error _ => .ready n
  | .due n a _, .updateReply _, .ok _ => .recorded n a
  | .due n _ _, .updateReply _, .error _ => .ready n
  | .recorded n _, .sendMessage _, _ => .ready n
  | g, _, _ => g

/-- The sender a reply is under way to. -/
def replyTo : VacationStance → List String
  | .recorded _ a => [a]
  | _ => []

end VacationStance

/-! ### What a task does -/

section Follows

variable {config : ResponderConfig} {n : Int} {a : String}

/-- A task that follows its stances. -/
abbrev VacationTask.Keeps {α : Type} (Q : VacationStance → α → Prop) (g : VacationStance)
    (p : VacationTask α) : Prop := p.Follows VacationStance.Allows VacationStance.next Q g

theorem keeps_shouldReplyAndRecord : (shouldReplyAndRecord a n).Keeps
    (fun g r => g = if r = .ok true then .recorded n a else .ready n) (.looking n a) := by
  refine Prog.Follows.perform_bind rfl fun r => ?_
  cases r with
  | error e => rfl
  | ok t =>
    cases t with
    | none =>
      refine Prog.Follows.perform_bind rfl fun r => ?_
      cases r with
      | error e => rfl
      | ok _ => rfl
    | some t =>
      refine Prog.Follows.perform_bind ⟨rfl,rfl,rfl⟩ fun r => ?_
      cases r with
      | error e => rfl
      | ok h =>
        show Prog.Follows _ _ _ (if h < n then VacationStance.ready n else .due n a t)
          (if h < n then _ else _)
        by_cases hlt : h < n
        · rw [if_pos hlt,if_pos hlt]
          rfl
        · rw [if_neg hlt,if_neg hlt]
          refine Prog.Follows.perform_bind rfl fun r => ?_
          cases r with
          | error e => rfl
          | ok _ => rfl

theorem keeps_answerMessage {vacation : VacationResponder} (hn : vacation.replyIntervalHours = n) :
    (answerMessage config vacation a).Keeps (fun g _ => g = .ready n) (.ready n) := by
  subst hn
  unfold answerMessage
  refine Prog.Follows.ite (fun _ => rfl) fun _ => ?_
  refine Prog.Follows.perform_bind trivial fun r => ?_
  cases r with
  | error e => rfl
  | ok _ =>
    refine Prog.Follows.bind keeps_shouldReplyAndRecord fun g r hg => ?_
    subst hg
    cases r with
    | error e => rfl
    | ok reply =>
      cases reply with
      | false => rfl
      | true => exact ⟨rfl,fun _ => rfl⟩

theorem keeps_answerMessages {vacation : VacationResponder} (hn : vacation.replyIntervalHours = n)
    (msgs : List CachedMessage) :
    (answerMessages config vacation msgs).Keeps (fun g _ => g = .ready n) (.ready n) := by
  induction msgs with
  | nil => rfl
  | cons msg rest ih =>
    refine Prog.Follows.bind (keeps_answerMessage hn) fun g _ hg => ?_
    subst hg
    exact ih

theorem keeps_answerNewMessages (newMessages : List CachedMessage) :
    (answerNewMessages config newMessages).Keeps (fun _ _ => True) .fresh := by
  refine Prog.Follows.perform_bind trivial fun settings => ?_
  cases settings with
  | error e => exact trivial
  | ok vacation =>
    refine Prog.Follows.ite (fun _ => ?_) fun _ => trivial
    refine Prog.Follows.perform_bind trivial fun today => ?_
    refine Prog.Follows.ite (fun _ => ?_) fun _ => trivial
    refine Prog.Follows.bind (keeps_answerMessages rfl newMessages) fun g _ hg => ?_
    subst hg
    refine Prog.Follows.perform_bind trivial fun r => ?_
    cases r with
    | error e => trivial
    | ok _ =>
      refine Prog.Follows.perform_bind rfl fun r => ?_
      cases r with
      | error e => trivial
      | ok _ => trivial

end Follows

/-! ### The system -/

abbrev VacationSystem :=
  Threads VacationStance VacationWorld VacationCall VacationCall.Answer Unit

/-- New messages of which a task begins to take care; a change of the settings; time; and one call
of a task. -/
inductive VacationEvent
  | arrive (newMessages : List CachedMessage)
  | configure (data : UpdateVacationResponder)
  | tick (secs : Nat)
  | call (i : Nat) (weather : VacationWeather)

/-- The senders replies are under way to. -/
def underWay (gs : List VacationStance) : List String := gs.flatMap VacationStance.replyTo

namespace VacationSystem

def step (config : ResponderConfig) (s : VacationSystem) : VacationEvent → Option VacationSystem
  | .arrive newMessages => some { s with tasks := s.tasks ++ [(.fresh,answerNewMessages config newMessages)] }
  | .configure data => some { s with world := s.world.updateVacation data }
  | .tick secs => some { s with world := s.world.tick secs }
  | .call i weather => s.call (vacationServe weather) VacationStance.next i

/-- An account whose responder has never been set up, and never answered. -/
def opening (now : Nat) : VacationSystem := ⟨⟨defaultVacation,.empty,now,[]⟩,[]⟩

def stances (s : VacationSystem) : List VacationStance := s.tasks.map Prod.fst

end VacationSystem

/-! ### Replies are apart, and none is withheld -/

/-- Of two replies to one sender the later comes an interval after the earlier. -/
def VacationRecord.Apart : VacationRecord → VacationRecord → Prop
  | .sent a t _, .sent b t' n' => eqIgnoreAsciiCase a b = true → (t : Int) + n' * 3600 ≤ t'
  | _, _ => True

/-- The sender has a reply that is younger than the interval, or one is under way. -/
def VacationWorld.Served (w : VacationWorld) (under : List String) (a : String) (t : Nat) (n : Int) :
    Prop :=
  (∃ (b : String) (t' : Nat) (n' : Int), .sent b t' n' ∈ w.log ∧ eqIgnoreAsciiCase b a = true ∧
    (t : Int) < t' + n * 3600) ∨
    ∃ b ∈ under, eqIgnoreAsciiCase b a = true

structure VacationSystem.Spaced (s : VacationSystem) : Prop where
  apart : s.world.log.Pairwise VacationRecord.Apart
  served : ∀ a t n, .passed a t n ∈ s.world.log → s.world.Served (underWay s.stances) a t n

/-! ### The condition -/

/-- A sender that was looked up is spelled like this one, if it is the same in any case. -/
def VacationRecord.SpelledLike (a : String) : VacationRecord → Prop
  | .asked b => eqIgnoreAsciiCase b a = true → b = a
  | _ => True

/-- A reply younger than an interval still has its record. -/
def VacationRecord.Remembered (w : VacationWorld) (n : Int) : VacationRecord → Prop
  | .sent a t _ => (w.repliedAt a).any (fun stamp => t ≤ stamp) = true ∨ (t : Int) + n * 3600 ≤ w.now
  | _ => True

/-- No statement of a check fails and every sender is spelled in one way; the interval in force is
the one the task has read; what was found is what is there when the new reply is recorded, and no
other is under way; the mail is sent in the second its record is made; and what is purged is as old
as the interval in force. -/
def CallKept (w : VacationWorld) (under : List String) (weather : VacationWeather) :
    VacationStance → VacationCall → Prop
  | _, .withUserDb (some _) => weather.fails = none
  | _, .findReply a => weather.fails = none ∧ ∀ r ∈ w.log, r.SpelledLike a
  | .found n _ _, .elapsedHours _ _ _ => weather.fails = none ∧ n = w.interval
  | .found n a _, .insertReply _ =>
    weather.fails = none ∧ n = w.interval ∧ w.repliedAt a = none ∧ a ∉ under
  | .due n a t, .updateReply _ =>
    weather.fails = none ∧ n = w.interval ∧ w.repliedAt a = some t ∧ a ∉ under
  | .recorded n a, .sendMessage _ =>
    weather.smtpDown = false ∧ n = w.interval ∧ w.repliedAt a = some w.now
  | _, .purgeReplies hours => weather.fails = none → w.interval ≤ hours + 1
  | _, _ => True

def VacationSystem.Kept (s : VacationSystem) : VacationEvent → Prop
  | .configure data => ∀ r ∈ s.world.log, r.Remembered s.world (s.world.updateVacation data).interval
  | .call i weather =>
    match s.upcoming i with
    | some (g,c) => CallKept s.world (underWay s.stances) weather g c
    | none => True
  | _ => True

instance VacationRecord.decidableSpelledLike (a : String) (r : VacationRecord) :
    Decidable (r.SpelledLike a) := by
  unfold SpelledLike
  split <;> infer_instance

instance VacationRecord.decidableRemembered (w : VacationWorld) (n : Int) (r : VacationRecord) :
    Decidable (r.Remembered w n) := by
  unfold Remembered
  split <;> infer_instance

instance decidableCallKept (w : VacationWorld) (under : List String) (weather : VacationWeather)
    (g : VacationStance) (c : VacationCall) : Decidable (CallKept w under weather g c) := by
  unfold CallKept
  split <;> infer_instance

instance VacationSystem.decidableKept (s : VacationSystem) (e : VacationEvent) :
    Decidable (s.Kept e) := by
  unfold Kept
  split
  · infer_instance
  · split <;> infer_instance
  · infer_instance

/-! ### What a run keeps -/

/-- A reply to the sender, at that time or later, has been sent or is under way. -/
def VacationWorld.Answered (w : VacationWorld) (under : List String) (a : String) (t : Nat) : Prop :=
  (∃ (t' : Nat) (n : Int), .sent a t' n ∈ w.log ∧ t ≤ t') ∨ a ∈ under

/-- What a task has learnt holds, and its reply comes an interval after the others. -/
def VacationWorld.Holds (w : VacationWorld) (under : List String) : VacationStance → Prop
  | .found _ a (some t) => .asked a ∈ w.log ∧ t ≤ w.now ∧ w.Answered under a t
  | .found _ a none => .asked a ∈ w.log
  | .due n a t => .asked a ∈ w.log ∧ (t : Int) + n * 3600 ≤ w.now
  | .recorded n a => .asked a ∈ w.log ∧ ∀ stamp, w.repliedAt a = some stamp →
      ∀ (t : Nat) (n' : Int), .sent a t n' ∈ w.log → (t : Int) + n * 3600 ≤ stamp
  | _ => True

/-- The records, and the tasks in their stances. -/
structure Paced (w : VacationWorld) (gs : List VacationStance) : Prop where
  positive : 1 ≤ w.interval
  apart : w.log.Pairwise VacationRecord.Apart
  served : ∀ a t n, .passed a t n ∈ w.log → t ≤ w.now ∧ 1 ≤ n ∧ w.Served (underWay gs) a t n
  spelled : ∀ a b, .asked a ∈ w.log → .asked b ∈ w.log → eqIgnoreAsciiCase a b = true → a = b
  sent : ∀ a t n, .sent a t n ∈ w.log → .asked a ∈ w.log ∧ t ≤ w.now ∧
    VacationRecord.Remembered w w.interval (.sent a t n)
  known : ∀ a stamp, w.repliedAt a = some stamp → stamp ≤ w.now ∧ w.Answered (underWay gs) a stamp
  stances : ∀ g ∈ gs, w.Holds (underWay gs) g
  once : (underWay gs).Nodup

section Paced

variable {w w' : VacationWorld} {g g' : VacationStance} {gs gs' rest : List VacationStance}
  {under under' : List String} {a b : String} {n : Int}

theorem VacationWorld.Answered.mono {t : Nat} (h : w.Answered under a t)
    (hlog : ∀ t n, .sent a t n ∈ w.log → .sent a t n ∈ w'.log)
    (hunder : a ∈ under → w'.Answered under' a t) : w'.Answered under' a t := by
  rcases h with ⟨t',n,hsent,ht⟩ | h
  · exact Or.inl ⟨t',n,hlog t' n hsent,ht⟩
  · exact hunder h

theorem mem_underWay : a ∈ underWay gs ↔ ∃ n, .recorded n a ∈ gs := by
  unfold underWay
  rw [List.mem_flatMap]
  constructor
  · rintro ⟨g,hg,ha⟩
    cases g with
    | recorded n b =>
      obtain rfl : a = b := List.mem_singleton.mp ha
      exact ⟨n,hg⟩
    | _ => exact absurd ha List.not_mem_nil
  · rintro ⟨n,hg⟩
    exact ⟨_,hg,List.mem_singleton.mpr rfl⟩

/-- The order of the tasks is of no matter. -/
theorem Paced.perm (h : Paced w gs) (hp : gs.Perm gs') : Paced w gs' := by
  have hunder : (underWay gs).Perm (underWay gs') := hp.flatMap_right _
  have hmem : ∀ a, a ∈ underWay gs ↔ a ∈ underWay gs' := fun a => hunder.mem_iff
  have hanswered : ∀ {a t}, w.Answered (underWay gs) a t → w.Answered (underWay gs') a t :=
    fun h => h.imp_right (hmem _).mp
  refine ⟨h.positive,h.apart,fun a t n hr => ?_,h.spelled,h.sent,fun a t ht => ?_,fun g hg => ?_,
    hunder.nodup_iff.mp h.once⟩
  · obtain ⟨ht,hn,hserved⟩ := h.served a t n hr
    exact ⟨ht,hn,hserved.imp_right (fun ⟨b,hb,hab⟩ => ⟨b,(hmem b).mp hb,hab⟩)⟩
  · exact ⟨(h.known a t ht).1,hanswered (h.known a t ht).2⟩
  · have hg := h.stances g (hp.mem_iff.mpr hg)
    cases g with
    | found n a t =>
      cases t with
      | none => exact hg
      | some t => exact ⟨hg.1,hg.2.1,hanswered hg.2.2⟩
    | _ => exact hg

/-- A task begins. -/
theorem Paced.begin (h : Paced w gs) : Paced w (.fresh :: gs) := by
  refine ⟨h.positive,h.apart,h.served,h.spelled,h.sent,h.known,fun g hg => ?_,h.once⟩
  rcases List.mem_cons.mp hg with rfl | hg
  · trivial
  · exact h.stances g hg

/-- A task goes on, and no reply is begun or sent. -/
theorem Paced.still (h : Paced w (g :: rest)) (hg : g.replyTo = []) (hg' : g'.replyTo = [])
    (hh : w.Holds (underWay rest) g') : Paced w (g' :: rest) := by
  have hunder : underWay (g :: rest) = underWay rest := by simp [underWay,hg]
  have hunder' : underWay (g' :: rest) = underWay rest := by simp [underWay,hg']
  obtain ⟨hpositive,hapart,hserved,hspelled,hsent,hknown,hstances,honce⟩ := h
  rw [hunder] at hserved hknown hstances honce
  refine ⟨hpositive,hapart,?_,hspelled,hsent,?_,?_,?_⟩
  · rw [hunder']
    exact hserved
  · rw [hunder']
    exact hknown
  · rw [hunder']
    intro u hu
    rcases List.mem_cons.mp hu with rfl | hu
    · exact hh
    · exact hstances u (List.mem_cons_of_mem _ hu)
  · rw [hunder']
    exact honce

/-- What is on record besides the replies sent. -/
def VacationRecord.IsSent : VacationRecord → Bool
  | .sent _ _ _ => true
  | _ => false

theorem mem_record {r r' : VacationRecord} : r ∈ (w.record [r']).log ↔ r ∈ w.log ∨ r = r' := by
  simp [VacationWorld.record]

theorem sent_mem_record {r : VacationRecord} (hr : r.IsSent = false) {t : Nat} :
    .sent a t n ∈ (w.record [r]).log ↔ .sent a t n ∈ w.log := by
  rw [mem_record]
  constructor
  · rintro (h | rfl)
    · exact h
    · simp [VacationRecord.IsSent] at hr
  · exact Or.inl

/-- A record that is not of a reply bears on what the tasks know only by what it says. -/
theorem VacationWorld.Holds.record {r : VacationRecord} (hr : r.IsSent = false)
    (h : w.Holds under g) : (w.record [r]).Holds under g := by
  have hlog : ∀ {r'}, r' ∈ w.log → r' ∈ (w.record [r]).log := fun h => mem_record.mpr (Or.inl h)
  cases g with
  | found n a t =>
    cases t with
    | none => exact hlog h
    | some t => exact ⟨hlog h.1,h.2.1,h.2.2.mono (fun _ _ => hlog) Or.inr⟩
  | due n a t => exact ⟨hlog h.1,h.2⟩
  | recorded n a => exact ⟨hlog h.1,fun stamp hs t n' ht => h.2 stamp hs t n' ((sent_mem_record hr).mp ht)⟩
  | _ => trivial

theorem pairwise_record {r : VacationRecord} (h : w.log.Pairwise VacationRecord.Apart)
    (hr : ∀ r' ∈ w.log, r'.Apart r) : (w.record [r]).log.Pairwise VacationRecord.Apart := by
  refine List.pairwise_append.mpr ⟨h,List.pairwise_singleton _ _,fun r' hr' x hx => ?_⟩
  rw [List.mem_singleton.mp hx]
  exact hr r' hr'

theorem eqIgnoreAsciiCase_symm (h : eqIgnoreAsciiCase a b = true) : eqIgnoreAsciiCase b a = true := by
  unfold eqIgnoreAsciiCase at *
  rw [decide_eq_true_iff] at *
  exact h.symm

theorem eqIgnoreAsciiCase_refl (a : String) : eqIgnoreAsciiCase a a = true := decide_eq_true rfl

theorem apart_of_not_sent {r r' : VacationRecord} (hr : r.IsSent = false) : r'.Apart r := by
  cases r' with
  | sent a t n =>
    cases r with
    | sent b t' n' => simp [VacationRecord.IsSent] at hr
    | _ => trivial
  | _ => trivial

theorem Paced.record {r : VacationRecord} (h : Paced w gs) (hr : r.IsSent = false)
    (hserved : ∀ a t n, r = .passed a t n → t ≤ w.now ∧ 1 ≤ n ∧ w.Served (underWay gs) a t n)
    (hspelled : ∀ a, r = .asked a → ∀ r' ∈ w.log, r'.SpelledLike a) : Paced (w.record [r]) gs := by
  have hlog : ∀ {r'}, r' ∈ w.log → r' ∈ (w.record [r]).log := fun h => mem_record.mpr (Or.inl h)
  have hserve : ∀ {a t n}, w.Served (underWay gs) a t n → (w.record [r]).Served (underWay gs) a t n :=
    fun h => h.imp_left (fun ⟨b,t',n',hb,hab,ht⟩ => ⟨b,t',n',hlog hb,hab,ht⟩)
  refine ⟨h.positive,pairwise_record h.apart fun _ _ => apart_of_not_sent hr,fun a t n hp => ?_,
    fun a b ha hb hab => ?_,fun a t n hs => ?_,fun a t ht => ?_,
    fun g hg => (h.stances g hg).record hr,h.once⟩
  · rcases mem_record.mp hp with hp | hp
    · exact ⟨(h.served a t n hp).1,(h.served a t n hp).2.1,hserve (h.served a t n hp).2.2⟩
    · exact ⟨(hserved a t n hp.symm).1,(hserved a t n hp.symm).2.1,hserve (hserved a t n hp.symm).2.2⟩
  · rcases mem_record.mp ha with ha | ha
    · rcases mem_record.mp hb with hb | hb
      · exact h.spelled a b ha hb hab
      · exact hspelled b hb.symm _ ha hab
    · rcases mem_record.mp hb with hb | hb
      · exact (hspelled a ha.symm _ hb (eqIgnoreAsciiCase_symm hab)).symm
      · exact VacationRecord.asked.inj (ha.trans hb.symm)
  · obtain ⟨hasked,ht,hrem⟩ := h.sent a t n ((sent_mem_record hr).mp hs)
    exact ⟨hlog hasked,ht,hrem⟩
  · exact ⟨(h.known a t ht).1,(h.known a t ht).2.mono (fun _ _ => hlog) Or.inr⟩

/-- A reply that still has its record is not younger than it. -/
theorem remembered_iff {t : Nat} {m : Int} : VacationRecord.Remembered w m (.sent a t n) ↔
    (∃ stamp, w.repliedAt a = some stamp ∧ t ≤ stamp) ∨ (t : Int) + m * 3600 ≤ w.now := by
  unfold VacationRecord.Remembered
  refine or_congr_left ?_
  cases w.repliedAt a with
  | none => simp
  | some stamp => simp

/-- A new time takes the place of the one on record, or of none. -/
theorem Paced.recorded (h : Paced w (g :: rest)) (hg : g.replyTo = []) (hn : n = w.interval)
    (ha : a ∉ underWay rest) (hasked : .asked a ∈ w.log)
    (hdue : ∀ t, w.repliedAt a = some t → (t : Int) + n * 3600 ≤ w.now)
    (hlog : w'.log = w.log) (hnow : w'.now = w.now) (hvacation : w'.vacation = w.vacation)
    (hreplied : ∀ b, w'.repliedAt b = if b = a then some w.now else w.repliedAt b) :
    Paced w' (.recorded n a :: rest) := by
  have hunder : underWay (g :: rest) = underWay rest := by simp [underWay,hg]
  have hunder' : underWay (.recorded n a :: rest) = a :: underWay rest := rfl
  have hinterval : w'.interval = w.interval := congrArg VacationResponder.replyIntervalHours hvacation
  have hself : w'.repliedAt a = some w.now := by rw [hreplied,if_pos rfl]
  have hother : ∀ b, b ≠ a → w'.repliedAt b = w.repliedAt b := fun b hb => by rw [hreplied,if_neg hb]
  have hanswered : ∀ {b t}, w.Answered (underWay rest) b t → w'.Answered (a :: underWay rest) b t :=
    fun h => h.mono (fun t n hs => hlog ▸ hs) (fun hb => Or.inr (List.mem_cons_of_mem _ hb))
  obtain ⟨hpositive,hapart,hserved,hspelled,hsent,hknown,hstances,honce⟩ := h
  rw [hunder] at hserved hknown hstances honce
  refine ⟨hinterval ▸ hpositive,hlog ▸ hapart,fun b t m hp => ?_,hlog ▸ hspelled,fun b t m hs => ?_,
    fun b stamp hb => ?_,fun u hu => ?_,?_⟩
  · obtain ⟨ht,hm,hserve⟩ := hserved b t m (hlog ▸ hp)
    refine ⟨hnow ▸ ht,hm,?_⟩
    rcases hserve with ⟨c,t',n',hc,hcb,hlt⟩ | ⟨c,hc,hcb⟩
    · exact Or.inl ⟨c,t',n',hlog ▸ hc,hcb,hlt⟩
    · exact Or.inr ⟨c,hunder' ▸ List.mem_cons_of_mem _ hc,hcb⟩
  · obtain ⟨hb,ht,hrem⟩ := hsent b t m (hlog ▸ hs)
    refine ⟨hlog ▸ hb,hnow ▸ ht,?_⟩
    rw [hinterval]
    rw [remembered_iff] at hrem ⊢
    rw [hnow]
    by_cases hba : b = a
    · exact Or.inl ⟨w.now,hba ▸ hself,ht⟩
    · rw [hother b hba]
      exact hrem
  · rw [hunder',hnow]
    by_cases hba : b = a
    · subst hba
      obtain rfl : w.now = stamp := Option.some.inj (hself.symm.trans hb)
      exact ⟨Nat.le_refl _,Or.inr List.mem_cons_self⟩
    · rw [hother b hba] at hb
      exact ⟨(hknown b stamp hb).1,hanswered (hknown b stamp hb).2⟩
  · rw [hunder']
    rcases List.mem_cons.mp hu with rfl | hu
    · refine ⟨hlog ▸ hasked,fun stamp hs t n' ht => ?_⟩
      obtain rfl : w.now = stamp := Option.some.inj (hself.symm.trans hs)
      rcases remembered_iff.mp (hsent a t n' (hlog ▸ ht)).2.2 with ⟨stamp,hstamp,hle⟩ | hold
      · have := hdue stamp hstamp
        omega
      · rwa [hn]
    · have hknows := hstances u (List.mem_cons_of_mem _ hu)
      cases u with
      | found n' b t =>
        cases t with
        | none =>
          show _ ∈ w'.log
          exact hlog.symm ▸ hknows
        | some t => exact ⟨hlog ▸ hknows.1,hnow ▸ hknows.2.1,hanswered hknows.2.2⟩
      | due n' b t => exact ⟨hlog ▸ hknows.1,hnow ▸ hknows.2⟩
      | recorded n' b =>
        have hba : b ≠ a := fun hba => ha (mem_underWay.mpr ⟨n',hba ▸ hu⟩)
        refine ⟨hlog ▸ hknows.1,fun stamp hs t m ht => ?_⟩
        rw [hother b hba] at hs
        exact hknows.2 stamp hs t m (hlog ▸ ht)
      | _ => trivial
  · rw [hunder']
    exact List.nodup_cons.mpr ⟨ha,honce⟩

/-- A reply under way that is sent is sent by now. -/
theorem VacationWorld.Answered.sent {t : Nat} (h : w.Answered (a :: under) b t) (ht : t ≤ w.now) :
    (w.record [.sent a w.now w.interval]).Answered under b t := by
  rcases h with ⟨t',n,hs,hle⟩ | hb
  · exact Or.inl ⟨t',n,mem_record.mpr (Or.inl hs),hle⟩
  · rcases List.mem_cons.mp hb with rfl | hb
    · exact Or.inl ⟨w.now,w.interval,mem_record.mpr (Or.inr rfl),ht⟩
    · exact Or.inr hb

/-- The reply is sent. -/
theorem Paced.sent_reply (h : Paced w (.recorded n a :: rest)) (hn : n = w.interval)
    (hnow : w.repliedAt a = some w.now) :
    Paced (w.record [.sent a w.now w.interval]) (.ready n :: rest) := by
  have hunder : underWay (.recorded n a :: rest) = a :: underWay rest := rfl
  have hunder' : underWay (.ready n :: rest) = underWay rest := rfl
  have hlog : ∀ {r}, r ∈ w.log → r ∈ (w.record [.sent a w.now w.interval]).log :=
    fun h => mem_record.mpr (Or.inl h)
  obtain ⟨hpositive,hapart,hserved,hspelled,hsent,hknown,hstances,honce⟩ := h
  obtain ⟨hasked,hspace⟩ := hstances _ List.mem_cons_self
  rw [hunder] at hserved hknown hstances honce
  obtain ⟨hnotin,honce⟩ := List.nodup_cons.mp honce
  have hold : ∀ {b}, .asked b ∈ (w.record [.sent a w.now w.interval]).log → .asked b ∈ w.log :=
    fun h => (mem_record.mp h).resolve_right nofun
  refine ⟨hpositive,pairwise_record hapart fun r hr => ?_,fun b t m hp => ?_,
    fun b c hb hc => hspelled b c (hold hb) (hold hc),fun b t m hs => ?_,fun b stamp hb => ?_,
    fun u hu => ?_,honce⟩
  · cases r with
    | sent b t m =>
      intro hab
      obtain rfl := hspelled b a (hsent b t m hr).1 hasked hab
      have := hspace w.now hnow t m hr
      rwa [hn] at this
    | _ => trivial
  · obtain ⟨ht,hm,hserve⟩ := hserved b t m ((mem_record.mp hp).resolve_right nofun)
    refine ⟨ht,hm,?_⟩
    rcases hserve with ⟨c,t',n',hc,hcb,hlt⟩ | ⟨c,hc,hcb⟩
    · exact Or.inl ⟨c,t',n',hlog hc,hcb,hlt⟩
    · rcases List.mem_cons.mp hc with rfl | hc
      · exact Or.inl ⟨c,w.now,w.interval,mem_record.mpr (Or.inr rfl),hcb,by omega⟩
      · exact Or.inr ⟨c,hc,hcb⟩
  · rcases mem_record.mp hs with hs | hs
    · exact ⟨hlog (hsent b t m hs).1,(hsent b t m hs).2⟩
    · obtain ⟨rfl,rfl,rfl⟩ := VacationRecord.sent.inj hs
      exact ⟨hlog hasked,Nat.le_refl _,remembered_iff.mpr (Or.inl ⟨w.now,hnow,Nat.le_refl _⟩)⟩
  · exact ⟨(hknown b stamp hb).1,(hknown b stamp hb).2.sent (hknown b stamp hb).1⟩
  · rw [hunder']
    rcases List.mem_cons.mp hu with rfl | hu
    · trivial
    · have hknows := hstances u (List.mem_cons_of_mem _ hu)
      cases u with
      | found n' b t =>
        cases t with
        | none => exact hlog hknows
        | some t => exact ⟨hlog hknows.1,hknows.2.1,hknows.2.2.sent hknows.2.1⟩
      | due n' b t => exact ⟨hlog hknows.1,hknows.2⟩
      | recorded n' b =>
        have hba : b ≠ a := fun hba => hnotin (mem_underWay.mpr ⟨n',hba ▸ hu⟩)
        refine ⟨hlog hknows.1,fun stamp hs t m ht => ?_⟩
        rcases mem_record.mp ht with ht | ht
        · exact hknows.2 stamp hs t m ht
        · exact absurd (VacationRecord.sent.inj ht).1 hba
      | _ => trivial

/-- Time passes, records go or the interval changes, and what is forgotten is old enough. -/
theorem Paced.world (h : Paced w gs) (hlog : w'.log = w.log) (hnow : w.now ≤ w'.now)
    (hpositive : 1 ≤ w'.interval)
    (hreplied : ∀ b stamp, w'.repliedAt b = some stamp → w.repliedAt b = some stamp)
    (hrem : ∀ b t m, .sent b t m ∈ w.log →
      VacationRecord.Remembered w' w'.interval (.sent b t m)) : Paced w' gs := by
  have hanswered : ∀ {b t}, w.Answered (underWay gs) b t → w'.Answered (underWay gs) b t :=
    fun h => h.mono (fun t n hs => hlog ▸ hs) Or.inr
  refine ⟨hpositive,hlog ▸ h.apart,fun b t m hp => ?_,hlog ▸ h.spelled,fun b t m hs => ?_,
    fun b stamp hb => ?_,fun g hg => ?_,h.once⟩
  · obtain ⟨ht,hm,hserve⟩ := h.served b t m (hlog ▸ hp)
    refine ⟨ht.trans hnow,hm,hserve.imp_left ?_⟩
    rintro ⟨c,t',n',hc,hcb,hlt⟩
    exact ⟨c,t',n',hlog ▸ hc,hcb,hlt⟩
  · obtain ⟨hb,ht,-⟩ := h.sent b t m (hlog ▸ hs)
    exact ⟨hlog ▸ hb,ht.trans hnow,hrem b t m (hlog ▸ hs)⟩
  · obtain ⟨ht,ha⟩ := h.known b stamp (hreplied b stamp hb)
    exact ⟨ht.trans hnow,hanswered ha⟩
  · have hknows := h.stances g hg
    cases g with
    | found n b t =>
      cases t with
      | none =>
        show _ ∈ w'.log
        exact hlog.symm ▸ hknows
      | some t => exact ⟨hlog ▸ hknows.1,hknows.2.1.trans hnow,hanswered hknows.2.2⟩
    | due n b t =>
      have := hknows.2
      exact ⟨hlog ▸ hknows.1,by omega⟩
    | recorded n b =>
      exact ⟨hlog ▸ hknows.1,fun stamp hs t m ht => hknows.2 stamp (hreplied b stamp hs) t m (hlog ▸ ht)⟩
    | _ => trivial

theorem Paced.tick (h : Paced w gs) (secs : Nat) : Paced (w.tick secs) gs := by
  refine h.world rfl (Nat.le_add_right _ _) h.positive (fun _ _ hb => hb) fun b t m hs => ?_
  refine remembered_iff.mpr ((remembered_iff.mp (h.sent b t m hs).2.2).imp_right fun hold => ?_)
  show _ ≤ ((w.now + secs : Nat) : Int)
  push_cast
  exact hold.trans (by omega)

theorem Paced.configure (h : Paced w gs) (data : UpdateVacationResponder)
    (hrem : ∀ r ∈ w.log, r.Remembered w (w.updateVacation data).interval) :
    Paced (w.updateVacation data) gs := by
  unfold VacationWorld.updateVacation at *
  by_cases hbad : data.replyIntervalHours.any (fun h => h < 1) = true
  · rw [if_pos hbad]
    exact h
  · rw [if_neg hbad] at hrem ⊢
    refine h.world rfl (Nat.le_refl _) ?_ (fun _ _ hb => hb) (fun b t m hs => hrem _ hs)
    show 1 ≤ (data.apply w.vacation).replyIntervalHours
    unfold UpdateVacationResponder.apply
    cases hnew : data.replyIntervalHours with
    | none => exact h.positive
    | some n => simpa [hnew] using hbad

theorem elapsed_lt_iff {t : Nat} (ht : t ≤ w.now) :
    w.elapsed t < n ↔ (w.now : Int) < t + n * 3600 := by
  unfold VacationWorld.elapsed
  rw [Int.tdiv_eq_ediv_of_nonneg (by omega)]
  omega

theorem repliedAt_purgeReplies (hours : Int) : (w.purgeReplies hours).repliedAt b =
    (w.repliedAt b).filter (fun t => !decide (hours < w.elapsed t)) := by
  unfold VacationWorld.repliedAt VacationWorld.purgeReplies
  dsimp only
  rw [Table.find?_deleteWhere]
  cases w.replies.find? b with
  | none => rfl
  | some r =>
    by_cases hr : hours < w.elapsed r.2
    · simp [Option.filter,hr]
    · simp [Option.filter,hr]

/-- What is purged is as old as the interval in force. -/
theorem Paced.purge (h : Paced w gs) {hours : Int} (hhours : w.interval ≤ hours + 1) :
    Paced (w.purgeReplies hours) gs := by
  refine h.world rfl (Nat.le_refl _) h.positive (fun b stamp hb => ?_) fun b t m hs => ?_
  · rw [repliedAt_purgeReplies,Option.filter_eq_some_iff] at hb
    exact hb.1
  · rw [remembered_iff,repliedAt_purgeReplies]
    rcases remembered_iff.mp (h.sent b t m hs).2.2 with ⟨stamp,hstamp,hle⟩ | hold
    · by_cases hkeep : hours < w.elapsed stamp
      · have hage := (elapsed_lt_iff (n := w.interval) (h.known b stamp hstamp).1).not.mp (by omega)
        refine Or.inr ?_
        show (t : Int) + w.interval * 3600 ≤ w.now
        omega
      · exact Or.inl ⟨stamp,by rw [hstamp]; simp [hkeep],hle⟩
    · exact Or.inr hold

theorem repliedAt_updateReply {t : Nat} (ha : w.repliedAt a = some t) :
    (w.updateReply a).repliedAt b = if b = a then some w.now else w.repliedAt b := by
  unfold VacationWorld.repliedAt VacationWorld.updateReply at *
  dsimp only
  rw [Table.find?_updateWhere]
  by_cases hb : b = a
  · subst hb
    cases hf : w.replies.find? b with
    | none => simp [hf] at ha
    | some r =>
      have hr : r.1 = b := (Table.find?_eq_some.mp hf).2
      simp [hr]
  · cases hf : w.replies.find? b with
    | none => simp [hb]
    | some r =>
      have hr : r.1 = b := (Table.find?_eq_some.mp hf).2
      simp [hr,hb]

theorem repliedAt_insertReply (ha : w.repliedAt a = none) :
    (w.insertReply a).repliedAt b = if b = a then some w.now else w.repliedAt b := by
  unfold VacationWorld.repliedAt VacationWorld.insertReply at *
  dsimp only
  rw [Table.find?_insertOrIgnore]
  by_cases hb : b = a
  · subst hb
    rw [Option.map_eq_none_iff] at ha
    simp [ha]
  · simp [hb]

theorem Paced.pass (h : Paced w gs) (hserved : w.Served (underWay gs) a w.now w.interval) :
    Paced (w.pass a) gs := by
  refine h.record rfl (fun b t n hr => ?_) nofun
  obtain ⟨rfl,rfl,rfl⟩ := VacationRecord.passed.inj hr
  exact ⟨Nat.le_refl _,h.positive,hserved⟩

/-- One call of a task under the condition. -/
theorem Paced.call (h : Paced w (g :: rest)) {c : VacationCall} {weather : VacationWeather}
    (hok : g.Allows c) (hkept : CallKept w under weather g c)
    (hunder : ∀ a ∈ underWay (g :: rest), a ∈ under) :
    Paced (vacationServe weather c w).2 (g.next c (vacationServe weather c w).1 :: rest) := by
  cases g with
  | fresh =>
    cases c with
    | getVacation =>
      cases hf : weather.fails with
      | none =>
        have hr : vacationServe weather .getVacation w = (.ok w.vacation,w) := by
          simp [vacationServe,hf]
        rw [hr]
        exact h.still rfl rfl trivial
      | some e =>
        have hr : vacationServe weather .getVacation w = (.error e,w) := by
          simp [vacationServe,hf]
        rw [hr]
        exact h.still rfl rfl trivial
    | _ => exact hok.elim
  | ready n =>
    cases c with
    | today => exact h
    | withUserDb sender =>
      cases sender with
      | none =>
        cases hf : weather.fails with
        | none =>
          have hr : vacationServe weather (.withUserDb none) w = (.ok (),w) := by
            simp only [vacationServe,hf]
          rw [hr]
          exact h
        | some e =>
          have hr : vacationServe weather (.withUserDb none) w = (.error e,w) := by
            simp only [vacationServe,hf]
          rw [hr]
          exact h
      | some a =>
        have hf : weather.fails = none := hkept
        have hr : vacationServe weather (.withUserDb (some a)) w = (.ok (),w) := by
          simp only [vacationServe,hf]
        rw [hr]
        exact h.still rfl rfl trivial
    | purgeReplies hours =>
      cases hf : weather.fails with
      | none =>
        have hr : vacationServe weather (.purgeReplies hours) w = (.ok (),w.purgeReplies hours) := by
          simp only [vacationServe,hf]
        rw [hr]
        exact h.purge (hkept hf)
      | some e =>
        have hr : vacationServe weather (.purgeReplies hours) w = (.error e,w) := by
          simp only [vacationServe,hf]
        rw [hr]
        exact h
    | _ => exact hok.elim
  | looking n a =>
    cases c with
    | findReply b =>
      obtain rfl : b = a := hok
      obtain ⟨hf,hspelled⟩ := hkept
      have hr : vacationServe weather (.findReply b) w = (.ok (w.repliedAt b),w.record [.asked b]) := by
        simp only [vacationServe,hf]
      have hasked : Paced (w.record [.asked b]) (.looking n b :: rest) := by
        refine h.record rfl nofun fun a ha => ?_
        obtain rfl := VacationRecord.asked.inj ha
        exact hspelled
      rw [hr]
      refine hasked.still rfl rfl ?_
      cases hfound : w.repliedAt b with
      | none => exact mem_record.mpr (Or.inr rfl)
      | some t =>
        obtain ⟨hle,hans⟩ := hasked.known b t hfound
        exact ⟨mem_record.mpr (Or.inr rfl),hle,hans⟩
    | _ => exact hok.elim
  | found n a t =>
    cases t with
    | none =>
      cases c with
      | insertReply b =>
        obtain rfl : b = a := hok
        obtain ⟨hf,hn,hfound,hnot⟩ := hkept
        have hr : vacationServe weather (.insertReply b) w = (.ok (),w.insertReply b) := by
          simp only [vacationServe,hf,hfound]
          rfl
        rw [hr]
        refine h.recorded rfl hn (fun ha => hnot (hunder _ ha)) (h.stances _ List.mem_cons_self) (fun t ht => ?_) rfl rfl rfl
          (fun b => repliedAt_insertReply hfound)
        rw [hfound] at ht
        simp at ht
      | _ => exact hok.elim
    | some t =>
      cases c with
      | elapsedHours b t' n' =>
        obtain ⟨rfl,rfl,rfl⟩ := hok
        obtain ⟨hf,hn⟩ := hkept
        obtain ⟨hasked,hle,hans⟩ := h.stances _ List.mem_cons_self
        by_cases hearly : w.elapsed t' < n'
        · have hr : vacationServe weather (.elapsedHours b t' n') w =
              (.ok (w.elapsed t'),w.pass b) := by
            simp only [vacationServe,hf,if_pos hearly]
          have hnext : VacationStance.next (.found n' b (some t')) (.elapsedHours b t' n')
              (.ok (w.elapsed t')) = .ready n' := if_pos hearly
          rw [hr,hnext]
          refine (h.pass ?_).still rfl rfl trivial
          rw [elapsed_lt_iff hle,hn] at hearly
          rcases hans with ⟨t,m,hsent,ht⟩ | hunder
          · exact Or.inl ⟨b,t,m,hsent,eqIgnoreAsciiCase_refl b,by omega⟩
          · exact Or.inr ⟨b,hunder,eqIgnoreAsciiCase_refl b⟩
        · have hr : vacationServe weather (.elapsedHours b t' n') w = (.ok (w.elapsed t'),w) := by
            simp only [vacationServe,hf,if_neg hearly]
          have hnext : VacationStance.next (.found n' b (some t')) (.elapsedHours b t' n')
              (.ok (w.elapsed t')) = .due n' b t' := if_neg hearly
          rw [hr,hnext]
          rw [elapsed_lt_iff hle] at hearly
          exact h.still rfl rfl ⟨hasked,by omega⟩
      | _ => exact hok.elim
  | due n a t =>
    cases c with
    | updateReply b =>
      obtain rfl : b = a := hok
      obtain ⟨hf,hn,hfound,hnot⟩ := hkept
      have hr : vacationServe weather (.updateReply b) w = (.ok (),w.updateReply b) := by
        simp [vacationServe,hf]
      rw [hr]
      obtain ⟨hasked,hdue⟩ := h.stances _ List.mem_cons_self
      refine h.recorded rfl hn (fun ha => hnot (hunder _ ha)) hasked (fun t' ht => ?_) rfl rfl rfl
        (fun b => repliedAt_updateReply hfound)
      obtain rfl : t = t' := Option.some.inj (hfound.symm.trans ht)
      exact hdue
    | _ => exact hok.elim
  | recorded n a =>
    cases c with
    | sendMessage m =>
      have hto : m.to_ = [a] := hok
      obtain ⟨hdown,hn,hnow⟩ := hkept
      have hr : vacationServe weather (.sendMessage m) w =
          (true,w.record [.sent a w.now w.interval]) := by
        simp only [vacationServe,hdown,hto]
        rfl
      rw [hr]
      exact h.sent_reply hn hnow
    | _ => exact hok.elim

end Paced

/-! ### Runs -/

namespace VacationSystem

variable {config : ResponderConfig} {s s' : VacationSystem}

/-- Every task keeps to what its stance allows, and the records are paced. -/
structure Inv (s : VacationSystem) : Prop where
  orderly : Threads.Keep VacationStance.Allows VacationStance.next (fun _ _ => True) s
  paced : Paced s.world s.stances

theorem inv_opening (now : Nat) : (opening now).Inv := by
  refine ⟨fun t ht => absurd ht List.not_mem_nil,?_⟩
  exact {
    positive := by
      show (1 : Int) ≤ 24
      decide
    apart := List.Pairwise.nil
    served := fun _ _ _ h => absurd h List.not_mem_nil
    spelled := fun _ _ h => absurd h List.not_mem_nil
    sent := fun _ _ _ h => absurd h List.not_mem_nil
    known := fun _ _ h => absurd h nofun
    stances := fun _ h => absurd h List.not_mem_nil
    once := List.nodup_nil }

theorem Inv.arrive (h : s.Inv) (newMessages : List CachedMessage) :
    Inv (⟨s.world,s.tasks ++ [(.fresh,answerNewMessages config newMessages)]⟩ : VacationSystem) := by
  refine ⟨h.orderly.start (keeps_answerNewMessages newMessages),h.paced.begin.perm ?_⟩
  unfold stances
  rw [List.map_append]
  exact (List.perm_append_singleton _ _).symm

theorem Inv.call {i : Nat} {weather : VacationWeather} (h : s.Inv)
    (hkept : s.Kept (.call i weather)) (hstep : s.step config (.call i weather) = some s') :
    s'.Inv := by
  obtain ⟨g,c,k,ht,rfl⟩ := Threads.call_eq_some.mp hstep
  have hbefore : s.stances.Perm (g :: (s.tasks.eraseIdx i).map Prod.fst) := by
    unfold stances
    rw [List.map_eq_flatMap,List.map_eq_flatMap]
    exact perm_flatMap_getElem? (fun t => [t.1]) ht
  have hafter : ∀ t', ((s.tasks.set i t').map Prod.fst).Perm
      (t'.1 :: (s.tasks.eraseIdx i).map Prod.fst) := by
    intro t'
    rw [List.map_eq_flatMap,List.map_eq_flatMap]
    exact perm_flatMap_set (fun t => [t.1]) ht
  dsimp only [Kept] at hkept
  rw [Threads.upcoming_eq ht] at hkept
  have hcall := (h.paced.perm hbefore).call (h.orderly.allowed ht) hkept
    (fun a ha => (hbefore.flatMap_right _).mem_iff.mpr ha)
  exact ⟨h.orderly.call ht,hcall.perm (hafter (g.next c (vacationServe weather c s.world).1,
    k (vacationServe weather c s.world).1)).symm⟩

theorem Inv.step {e : VacationEvent} (h : s.Inv) (hkept : s.Kept e)
    (hstep : s.step config e = some s') : s'.Inv := by
  cases e with
  | arrive newMessages =>
    obtain rfl := Option.some.inj hstep
    exact h.arrive newMessages
  | configure data =>
    obtain rfl := Option.some.inj hstep
    exact ⟨h.orderly,h.paced.configure data hkept⟩
  | tick secs =>
    obtain rfl := Option.some.inj hstep
    exact ⟨h.orderly,h.paced.tick secs⟩
  | call i weather => exact h.call hkept hstep

def sampleResponder : ResponderConfig :=
  ⟨fun s => String.ofList (s.toList.map Char.toLower),"smtp.example.com","me@example.com"⟩

/-- A new message of the sender. -/
def messageFrom (sender : String) : CachedMessage :=
  ⟨7,"INBOX",none,none,none,"",sender,"","[]","[]","","",0,false,"",none,0,none,none,⟨1,0⟩⟩

/-- The responder is switched on. -/
def switchOn : UpdateVacationResponder := ⟨some true,none,none,none,none,none⟩

def goodDay : VacationWeather := ⟨none,false,"2026-01-01"⟩

open VacationEvent in
/-- A sender writes twice, and once more a day later. -/
def annWrites : List VacationEvent :=
  [configure switchOn,arrive [messageFrom "ann@x",messageFrom "ann@x"]] ++
    List.replicate 11 (call 0 goodDay) ++ [tick 86400,arrive [messageFrom "ann@x"]] ++
    List.replicate 9 (call 1 goodDay)

open VacationEvent in
/-- A sender writes under two spellings of its address. -/
def annSpelledTwice : List VacationEvent :=
  [configure switchOn,arrive [messageFrom "Ann@x",messageFrom "ann@x"]] ++
    List.replicate 10 (call 0 goodDay)

end VacationSystem

end Rav
