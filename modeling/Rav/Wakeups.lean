import Rav.Attempts
import Rav.Realtime.OutboxWakes

/-!
# No lost wake-up

A worker that rests knows the earliest deadline among the entries, and whatever is stored later
rings its bell. So each entry has a worker that comes to look at it, with two gaps: a worker that
has decided to shut down still counts as running until its task has ended, and a worker may decide
to shut down at the very moment its bell is rung. In both the ring is lost, and the entry has no
worker.

## Main definitions

- `WakeSystem.WillList` — whatever its calls answer, a worker comes to run `list_due` in time
- `WakeSystem.Watched` — every entry that waits has such a worker
- `WakeSystem.Undisturbed` — no call of `ensure_worker` and no ring meets a worker shutting down
-/

namespace Rav

namespace WakeSystem

/-- Worker `h` runs `list_due` at `due` or later: it is about to, or gets there whatever its next
call answers, by its own next turn, or by waiting. -/
inductive WillList (h due : Nat) : WakeSystem → Prop
  | lists {s : WakeSystem} {g : RoundStance} {k : OutboxCall.listDue.Answer → OutboxTask Rest}
      {b : Bool} : s.loops[h]? = some ⟨.running g (.call .listDue k),b⟩ → due ≤ s.world.now →
      WillList h due s
  | call {s : WakeSystem} {g : RoundStance} {c : OutboxCall} {k : c.Answer → OutboxTask Rest}
      {b : Bool} : s.loops[h]? = some ⟨.running g (.call c k),b⟩ →
      (∀ weather t, s.step (.work h weather) = some t → WillList h due t) → WillList h due s
  | turn {s t : WakeSystem} {e : WakeEvent} : e = .rest h ∨ e = .hear h ∨ e = .expire h →
      s.step e = some t → WillList h due t → WillList h due s
  | wait {s t : WakeSystem} {secs : Nat} : s.step (.tick secs) = some t → WillList h due t →
      WillList h due s

variable (s : WakeSystem)

/-- In its current round worker `h` has been given the entry by `list_due`, and is yet to take
it. -/
def Listed (h : Nat) (id : String) : Prop :=
  ∃ g t b, s.loops[h]? = some ⟨.running g t,b⟩ ∧ ∃ e ∈ g.1.queue, e.id = id

/-- Every handler that has scheduled the entry has rung. -/
def Posted (id : String) : Prop := ∀ p ∈ s.posters, p.about = some id → p.stage = .rung

/-- Every entry that is scheduled and rung for has a worker that has listed it or will run
`list_due` at its `send_after` or later. -/
def Watched : Prop :=
  ∀ id r, s.world.rows.get id = some r → r.state = .scheduled → s.Posted id →
    ∃ h, s.Listed h id ∨ WillList h r.sendAfter s

/-- No `ensure_worker` finds a worker that is shutting down, and no worker decides to shut down
with a ring unheard, or while a handler has its bell and has not rung. -/
def Undisturbed : WakeEvent → Prop
  | .ensure _ => ∀ l ∈ s.loops.getLast?, l.leaving = false
  | .timeout h => (∀ l ∈ s.loops[h]?, l.rung = false) ∧ ∀ p ∈ s.posters, p.stage ≠ .holding h
  | _ => True

instance (e : WakeEvent) : Decidable (s.Undisturbed e) := by
  unfold Undisturbed
  split <;> infer_instance

end WakeSystem

/-! ### Who attends to an entry -/

/-- A worker that rests so is back in time for the entry. -/
def Rest.Covers (r : OutboxEntry) : Rest → Prop
  | .retry => True
  | .due deadline => deadline ≤ r.sendAfter
  | .idle => False

/-- The worker comes to look at the entry. -/
def OutboxLoop.Attends (l : OutboxLoop) (r : OutboxEntry) : Prop :=
  match l.phase with
  | .running g _ => ∀ rest, g.2 = some rest → l.rung = true ∨ rest.Covers r
  | .resting rest _ => l.rung = true ∨ rest.Covers r
  | .leaving => False
  | .finished => False

/-- The worker has not decided to shut down. -/
def OutboxLoop.Live (l : OutboxLoop) : Prop := l.finished = false ∧ l.leaving = false

theorem OutboxLoop.Attends.live {l : OutboxLoop} {r : OutboxEntry} (h : l.Attends r) : l.Live := by
  obtain ⟨phase,b⟩ := l
  cases phase with
  | running g t => exact ⟨rfl,rfl⟩
  | resting rest since => exact ⟨rfl,rfl⟩
  | leaving => exact h.elim
  | finished => exact h.elim

/-- All workers but the last have ended, and what the last does accounts for every entry. -/
structure WakeSystem.WatchInv (s : WakeSystem) : Prop where
  ended : ∀ (h : Nat) (l : OutboxLoop), s.loops[h]? = some l → l.finished = false →
    h + 1 = s.loops.length
  rounds : ∀ (h : Nat) g t b, s.loops[h]? = some ⟨.running g t,b⟩ → Rounds g t
  counts : ∃ history, Counts .idle s.world history ∧
    ∀ (h : Nat) g t b, s.loops[h]? = some ⟨.running g t,b⟩ → Counts g.1 s.world history
  attended : ∀ id r, s.world.rows.get id = some r → r.state = .scheduled → s.Posted id →
    ∃ (h : Nat) (l : OutboxLoop), s.loops[h]? = some l ∧ l.Attends r
  held : ∀ p ∈ s.posters, ∀ b : Nat, p.stage = .holding b →
    ∃ l : OutboxLoop, s.loops[b]? = some l ∧ l.Live

namespace WakeSystem

variable {s : WakeSystem} {h : Nat} {l l' : OutboxLoop}

theorem watchInv_opening : opening.WatchInv := by
  have hnone : ∀ (h : Nat) (l : OutboxLoop), opening.loops[h]? ≠ some l :=
    fun h l hl => by simp [opening] at hl
  refine ⟨fun h l hl => (hnone h l hl).elim,fun h g t b hl => (hnone h _ hl).elim,?_,
    fun id r hr => ?_,fun p hp => (List.not_mem_nil hp).elim⟩
  · exact ⟨[],QueueSystem.countInv_opening.counts,fun h g t b hl => (hnone h _ hl).elim⟩
  · simp [opening,Outbox.get_eq_some,Table.empty] at hr

/-- There is one worker that has not ended. -/
theorem WatchInv.unique (hs : s.WatchInv) {h' : Nat} (hl : s.loops[h]? = some l)
    (hl' : s.loops[h']? = some l') (hlive : l.finished = false) (hlive' : l'.finished = false) :
    h' = h ∧ l' = l := by
  have heq : h' = h := by
    have := hs.ended h l hl hlive
    have := hs.ended h' l' hl' hlive'
    omega
  subst heq
  exact ⟨rfl,Option.some.inj (hl'.symm.trans hl)⟩

theorem getElem?_setLoop (hl : s.loops[h]? = some l) (k : Nat) :
    (s.setLoop h l').loops[k]? = if k = h then some l' else s.loops[k]? := by
  have hlt := (List.getElem?_eq_some_iff.mp hl).1
  unfold setLoop
  dsimp only
  by_cases hk : k = h
  · subst hk
    rw [if_pos rfl,List.getElem?_set_self hlt]
  · rw [if_neg hk,List.getElem?_set_ne (Ne.symm hk)]

/-- A worker moves on without a call. -/
theorem WatchInv.turn (hs : s.WatchInv) (hl : s.loops[h]? = some l) (hlive : l.finished = false)
    (hround : ∀ g t, l'.phase = .running g t → Rounds g t ∧ g.1 = .idle)
    (hatt : ∀ r, l.Attends r → l'.Attends r)
    (hheld : l'.Live ∨ ∀ p ∈ s.posters, p.stage ≠ .holding h) : (s.setLoop h l').WatchInv := by
  have hget : ∀ k, (s.setLoop h l').loops[k]? = if k = h then some l' else s.loops[k]? :=
    getElem?_setLoop hl
  have hlen : (s.setLoop h l').loops.length = s.loops.length := List.length_set
  refine ⟨fun k m hm hlm => ?_,fun k g t b hm => ?_,?_,fun id r hr hst hp => ?_,fun p hp b hb => ?_⟩
  · rw [hlen]
    rw [hget] at hm
    split at hm
    · next hk => exact hk ▸ hs.ended h l hl hlive
    · exact hs.ended k m hm hlm
  · rw [hget] at hm
    split at hm
    · obtain rfl := Option.some.inj hm
      exact (hround g t rfl).1
    · exact hs.rounds k g t b hm
  · obtain ⟨history,hidle,hcounts⟩ := hs.counts
    refine ⟨history,hidle,fun k g t b hm => ?_⟩
    rw [hget] at hm
    split at hm
    · obtain rfl := Option.some.inj hm
      rw [(hround g t rfl).2]
      exact hidle
    · exact hcounts k g t b hm
  · obtain ⟨k,m,hm,ha⟩ := hs.attended id r hr hst hp
    obtain ⟨rfl,rfl⟩ := hs.unique hl hm hlive ha.live.1
    exact ⟨k,l',(hget k).trans (if_pos rfl),hatt r ha⟩
  · obtain ⟨m,hm,hml⟩ := hs.held p hp b hb
    by_cases hbh : b = h
    · subst hbh
      rcases hheld with hlive' | hnone
      · exact ⟨l',(hget b).trans (if_pos rfl),hlive'⟩
      · exact (hnone p hp hb).elim
    · exact ⟨m,(hget b).trans ((if_neg hbh).trans hm),hml⟩

/-- Entries come and go, handlers start and time passes. -/
theorem WatchInv.around {w : OutboxWorld} {posters : List Poster} (hs : s.WatchInv)
    (hcounts : ∀ history, ∃ history', ∀ g, Counts g s.world history → Counts g w history')
    (hrows : ∀ id r, w.rows.get id = some r → r.state = .scheduled → Posted ⟨w,s.loops,posters⟩ id →
      s.world.rows.get id = some r ∧ s.Posted id)
    (hposters : ∀ p ∈ posters, ∀ b, p.stage = .holding b → p ∈ s.posters) :
    WatchInv ⟨w,s.loops,posters⟩ := by
  refine ⟨hs.ended,hs.rounds,?_,fun id r hr hst hp => ?_,
    fun p hp b hb => hs.held p (hposters p hp b hb) b hb⟩
  · obtain ⟨history,hidle,hrun⟩ := hs.counts
    obtain ⟨history',hc⟩ := hcounts history
    exact ⟨history',hc _ hidle,fun h g t b hl => hc _ (hrun h g t b hl)⟩
  · obtain ⟨hr',hp'⟩ := hrows id r hr hst hp
    exact hs.attended id r hr' hst hp'

/-- The handler that starts has not rung for its entry. -/
theorem posted_append {w : OutboxWorld} {loops : List OutboxLoop} {about : Option String}
    {id : String} (hp : Posted ⟨w,loops,s.posters ++ [⟨about,.stored⟩]⟩ id) :
    s.Posted id ∧ about ≠ some id := by
  refine ⟨fun p hm => hp p (List.mem_append_left _ hm),fun heq => ?_⟩
  have hnew := hp ⟨about,.stored⟩ (List.mem_append_right _ (List.mem_singleton.mpr rfl)) heq
  simp at hnew

theorem mem_of_holding {about : Option String} {p : Poster} {b : Nat}
    (hp : p ∈ s.posters ++ [⟨about,.stored⟩]) (hb : p.stage = .holding b) : p ∈ s.posters := by
  rcases List.mem_append.mp hp with hp | hp
  · exact hp
  · rw [List.mem_singleton.mp hp] at hb
    simp at hb

theorem WatchInv.enqueue {n : NewOutboxEntry} {t : Outbox} (hs : s.WatchInv)
    (hnew : n.id ∉ s.world.issued) (ht : s.world.rows.enqueue n s.world.now = some t) :
    WatchInv ⟨{ s.world with rows := t, issued := n.id :: s.world.issued },s.loops,
      s.posters ++ [⟨some n.id,.stored⟩]⟩ := by
  refine hs.around (fun history => ⟨_,fun g hc => hc.enqueue hnew ht⟩) (fun id r hr hst hp => ?_)
    (fun p hp b hb => mem_of_holding hp hb)
  obtain ⟨hp,hne⟩ := posted_append hp
  have hid : id ≠ n.id := fun heq => hne (congrArg some heq.symm)
  rw [Outbox.get_enqueue ht,if_neg hid] at hr
  exact ⟨hr,hp⟩

theorem WatchInv.requeue {id : String} (hs : s.WatchInv)
    (hdone : (s.world.rows.requeue id s.world.now).1 = true) :
    WatchInv ⟨{ s.world with rows := (s.world.rows.requeue id s.world.now).2 },s.loops,
      s.posters ++ [⟨some id,.stored⟩]⟩ := by
  obtain ⟨r,hr,hst⟩ := Outbox.requeue_fst.mp hdone
  refine hs.around (fun history => ⟨_,fun g hc => hc.requeue hr hst⟩) (fun k r' hr' hst' hp => ?_)
    (fun p hp b hb => mem_of_holding hp hb)
  obtain ⟨hp,hne⟩ := posted_append hp
  have hk : k ≠ id := fun heq => hne (congrArg some heq.symm)
  rw [Outbox.get_requeue] at hr'
  exact ⟨by simpa [hk] using hr',hp⟩

theorem WatchInv.visit (hs : s.WatchInv) :
    WatchInv ⟨s.world,s.loops,s.posters ++ [⟨none,.stored⟩]⟩ :=
  hs.around (fun history => ⟨history,fun _ hc => hc⟩)
    (fun _ _ hr _ hp => ⟨hr,(posted_append hp).1⟩) (fun _ hp _ hb => mem_of_holding hp hb)

theorem WatchInv.remove (id : String) (hs : s.WatchInv) :
    WatchInv ⟨{ s.world with rows := (s.world.rows.delete id).2 },s.loops,s.posters⟩ := by
  have hgone : ∀ k r, Outbox.get (s.world.rows.delete id).2 k = some r →
      s.world.rows.get k = some r := by
    intro k r hr
    rw [Outbox.get_delete] at hr
    split at hr
    · simp at hr
    · exact hr
  exact hs.around (fun history => ⟨history,fun _ hc => hc.frame le_rfl (fun _ h => h) hgone⟩)
    (fun k r hr _ hp => ⟨hgone k r hr,hp⟩) (fun _ hp _ _ => hp)

theorem WatchInv.tick (secs : Nat) (hs : s.WatchInv) :
    WatchInv ⟨{ s.world with now := s.world.now + secs },s.loops,s.posters⟩ :=
  hs.around (fun history => ⟨history,fun _ hc => hc.frame (Nat.le_add_right _ _) (fun _ h => h)
    (fun _ _ h => h)⟩) (fun _ _ hr _ hp => ⟨hr,hp⟩) (fun _ hp _ _ => hp)

/-- A worker that starts a round comes to look at every entry. -/
theorem WatchInv.newRound {b : Bool} (hs : s.WatchInv) (hl : s.loops[h]? = some l)
    (hlive : l.finished = false) : (s.setLoop h ⟨.round,b⟩).WatchInv := by
  refine hs.turn hl hlive (fun g t ht => ?_) (fun r _ rest hrest => by simp at hrest)
    (Or.inl ⟨rfl,rfl⟩)
  obtain ⟨rfl,rfl⟩ := LoopPhase.running.inj ht
  exact ⟨rounds_workerRound,rfl⟩

/-! ### Handlers -/

section Posters

variable {i : Nat} {about : Option String} {st st' : PosterStage}

/-- A handler that moves on without having rung still has its entry waiting. -/
theorem posted_set {w : OutboxWorld} {loops : List OutboxLoop} {id : String}
    (hi : s.posters[i]? = some ⟨about,st⟩) (hst : st' ≠ .rung)
    (hp : Posted ⟨w,loops,s.posters.set i ⟨about,st'⟩⟩ id) : s.Posted id := by
  have hlt := (List.getElem?_eq_some_iff.mp hi).1
  intro p hm ha
  obtain ⟨j,hj⟩ := List.mem_iff_getElem?.mp hm
  by_cases hij : i = j
  · subst hij
    obtain rfl := Option.some.inj (hi.symm.trans hj)
    have hnew := hp ⟨about,st'⟩ (List.mem_of_getElem? (List.getElem?_set_self hlt)) ha
    exact (hst hnew).elim
  · exact hp p (List.mem_of_getElem? ((List.getElem?_set_ne hij).trans hj)) ha

/-- A new worker comes to look at every entry. -/
theorem WatchInv.spawn (hs : s.WatchInv)
    (hall : ∀ (h : Nat) (l : OutboxLoop), s.loops[h]? = some l → l.finished = true) :
    WatchInv ⟨s.world,s.loops ++ [⟨.round,false⟩],
      s.posters.set i ⟨about,.holding s.loops.length⟩⟩ := by
  have hold : ∀ (k : Nat) (m : OutboxLoop), (s.loops ++ [⟨.round,false⟩])[k]? = some m →
      s.loops[k]? = some m ∨ k = s.loops.length ∧ m = ⟨.round,false⟩ := by
    intro k m hm
    rcases Nat.lt_or_ge k s.loops.length with hk | hk
    · rw [List.getElem?_append_left hk] at hm
      exact Or.inl hm
    · have hlt := (List.getElem?_eq_some_iff.mp hm).1
      rw [List.length_append,List.length_singleton] at hlt
      obtain rfl : k = s.loops.length := by omega
      rw [List.getElem?_concat_length] at hm
      exact Or.inr ⟨rfl,(Option.some.inj hm).symm⟩
  have hnew : (s.loops ++ [⟨.round,false⟩])[s.loops.length]? = some ⟨.round,false⟩ :=
    List.getElem?_concat_length
  refine ⟨fun k m hm hlm => ?_,fun k g t b hm => ?_,?_,fun id r hr hst hp => ?_,fun p hp b hb => ?_⟩
  · rcases hold k m hm with hm | ⟨rfl,-⟩
    · rw [hall k m hm] at hlm
      simp at hlm
    · simp
  · rcases hold k _ hm with hm | ⟨-,hm⟩
    · exact hs.rounds k g t b hm
    · obtain ⟨rfl,rfl⟩ := LoopPhase.running.inj (congrArg OutboxLoop.phase hm)
      exact rounds_workerRound
  · obtain ⟨history,hidle,hcounts⟩ := hs.counts
    refine ⟨history,hidle,fun k g t b hm => ?_⟩
    rcases hold k _ hm with hm | ⟨-,hm⟩
    · exact hcounts k g t b hm
    · obtain ⟨rfl,-⟩ := LoopPhase.running.inj (congrArg OutboxLoop.phase hm)
      exact hidle
  · exact ⟨_,_,hnew,fun rest hrest => by simp at hrest⟩
  · rcases List.mem_or_eq_of_mem_set hp with hp | rfl
    · obtain ⟨l,hl,hlive⟩ := hs.held p hp b hb
      have hfin := hall b l hl
      rw [hlive.1] at hfin
      simp at hfin
    · obtain rfl := PosterStage.holding.inj hb
      exact ⟨_,hnew,rfl,rfl⟩

theorem WatchInv.ensure (hs : s.WatchInv) (hi : s.posters[i]? = some ⟨about,.stored⟩)
    (hun : ∀ l ∈ s.loops.getLast?, l.leaving = false) :
    WatchInv ⟨s.world,s.ensureWorker.2,
      s.posters.set i ⟨about,.holding s.ensureWorker.1⟩⟩ := by
  unfold ensureWorker
  split
  · next l hl =>
    rw [List.getLast?_eq_getElem?] at hl
    split
    · next hfin =>
      refine hs.spawn (fun h m hm => ?_)
      -- only the last worker could be running
      by_contra hne
      have hlast := hs.ended h m hm (by simpa using hne)
      obtain rfl : h = s.loops.length - 1 := by omega
      obtain rfl := Option.some.inj (hm.symm.trans hl)
      exact hne hfin
    · next hfin =>
      rw [List.getLast?_eq_getElem?] at hun
      refine ⟨hs.ended,hs.rounds,hs.counts,
        fun id r hr hst hp => hs.attended id r hr hst (posted_set hi (by simp) hp),
        fun p hp b hb => ?_⟩
      rcases List.mem_or_eq_of_mem_set hp with hp | rfl
      · exact hs.held p hp b hb
      · obtain rfl := PosterStage.holding.inj hb
        exact ⟨l,hl,by simpa using hfin,hun l hl⟩
  · next hnone =>
    refine hs.spawn (fun h m hm => ?_)
    rw [List.getLast?_eq_none_iff.mp hnone] at hm
    simp at hm

theorem WatchInv.ring {b : Nat} (hs : s.WatchInv) (hi : s.posters[i]? = some ⟨about,.holding b⟩) :
    WatchInv ⟨s.world,s.loops.modify b (fun l => { l with rung := true }),
      s.posters.set i ⟨about,.rung⟩⟩ := by
  obtain ⟨l,hl,hlive⟩ := hs.held _ (List.mem_of_getElem? hi) b rfl
  have hget : ∀ k, (s.loops.modify b (fun l => { l with rung := true }))[k]? =
      if b = k then some ⟨l.phase,true⟩ else s.loops[k]? := by
    intro k
    rw [List.getElem?_modify]
    by_cases hk : b = k
    · subst hk
      simp [hl]
    · simp [hk]
  refine ⟨fun k m hm hlm => ?_,fun k g t c hm => ?_,?_,fun id r _ _ _ => ?_,fun p hp c hc => ?_⟩
  · dsimp only at hm ⊢
    rw [List.length_modify]
    rw [hget] at hm
    split at hm
    · next hk => exact hk ▸ hs.ended b l hl hlive.1
    · exact hs.ended k m hm hlm
  · dsimp only at hm
    rw [hget] at hm
    split at hm
    · obtain ⟨phase,d⟩ := l
      obtain rfl := congrArg OutboxLoop.phase (Option.some.inj hm)
      exact hs.rounds b g t d hl
    · exact hs.rounds k g t c hm
  · obtain ⟨history,hidle,hcounts⟩ := hs.counts
    refine ⟨history,hidle,fun k g t c hm => ?_⟩
    dsimp only at hm
    rw [hget] at hm
    split at hm
    · obtain ⟨phase,d⟩ := l
      obtain rfl := congrArg OutboxLoop.phase (Option.some.inj hm)
      exact hcounts b g t d hl
    · exact hcounts k g t c hm
  · -- whoever has heard a ring comes to look at every entry
    refine ⟨b,⟨l.phase,true⟩,(hget b).trans (if_pos rfl),?_⟩
    obtain ⟨phase,d⟩ := l
    cases phase with
    | running g t => exact fun _ _ => Or.inl rfl
    | resting rest since => exact Or.inl rfl
    | leaving => simp [OutboxLoop.Live,OutboxLoop.leaving] at hlive
    | finished => simp [OutboxLoop.Live,OutboxLoop.finished] at hlive
  · have hold : p ∈ s.posters := by
      rcases List.mem_or_eq_of_mem_set hp with hp | rfl
      · exact hp
      · simp at hc
    obtain ⟨m,hm,hml⟩ := hs.held p hold c hc
    by_cases hbc : b = c
    · subst hbc
      exact ⟨⟨l.phase,true⟩,(hget b).trans (if_pos rfl),hlive⟩
    · exact ⟨m,(hget c).trans ((if_neg hbc).trans hm),hml⟩

end Posters

/-! ### Calls of a worker -/

/-- A round that is over has taken account of every entry that is scheduled. -/
theorem covers_of_decided {weather : OutboxWeather} {c : OutboxCall} {w : OutboxWorld} {id : String}
    {r : OutboxEntry} {rest : Rest} (hr : w.rows.get id = some r)
    (hst : r.state = .scheduled)
    (hd : RoundStance.decided c (serve weather c w).1 = some rest) : rest.Covers r := by
  cases c with
  | listDue =>
    rcases hw : weather.statement with _ | m
    · rw [serve_listDue hw] at hd
      simp [RoundStance.decided] at hd
    · rw [serve_listDue_fails hw] at hd
      obtain rfl := Option.some.inj hd
      trivial
  | nextSendAfter =>
    obtain ⟨hget,rfl⟩ := Outbox.get_eq_some.mp hr
    obtain ⟨d,hmin,hle⟩ := Outbox.nextSendAfter_le hr hst
    rcases hw : weather.statement with _ | m
    · have hans : (serve weather .nextSendAfter w).1 = .ok (some d) := by
        simp only [serve,OutboxWeather.run,hw,hmin]
        rfl
      rw [hans] at hd
      obtain rfl := Option.some.inj hd
      exact hle
    · have hans : (serve weather .nextSendAfter w).1 = .error m := by
        simp only [serve,OutboxWeather.run,hw]
        rfl
      rw [hans] at hd
      obtain rfl := Option.some.inj hd
      trivial
  | _ => simp [RoundStance.decided] at hd

theorem world_of_decided {weather : OutboxWeather} {c : OutboxCall} {w : OutboxWorld} {rest : Rest}
    (hd : RoundStance.decided c (serve weather c w).1 = some rest) : (serve weather c w).2 = w := by
  cases c with
  | listDue => exact serve_listDue_world
  | nextSendAfter => exact serve_nextSendAfter_world
  | _ => simp [RoundStance.decided] at hd

theorem WatchInv.work {weather : OutboxWeather} {g : RoundStance} {c : OutboxCall}
    {k : c.Answer → OutboxTask Rest} {b : Bool} (hs : s.WatchInv)
    (hl : s.loops[h]? = some ⟨.running g (.call c k),b⟩) :
    WatchInv { s.setLoop h ⟨.running (g.next c (serve weather c s.world).1)
      (k (serve weather c s.world).1),b⟩ with world := (serve weather c s.world).2 } := by
  have hget : ∀ j : Nat, (s.setLoop h ⟨.running (g.next c (serve weather c s.world).1)
      (k (serve weather c s.world).1),b⟩).loops[j]? = if j = h then some ⟨.running
        (g.next c (serve weather c s.world).1) (k (serve weather c s.world).1),b⟩
      else s.loops[j]? := getElem?_setLoop hl
  have hround := hs.rounds h g _ b hl
  refine ⟨fun j m hm hlm => ?_,fun j g' t c' hm => ?_,?_,fun id r hr hst hp => ?_,fun p hp c' hc => ?_⟩
  · dsimp only at hm ⊢
    rw [hget] at hm
    have hlen := hs.ended h _ hl rfl
    unfold setLoop
    rw [List.length_set]
    split at hm
    · next hj => exact hj ▸ hlen
    · exact hs.ended j m hm hlm
  · dsimp only at hm
    rw [hget] at hm
    split at hm
    · obtain ⟨rfl,rfl⟩ := LoopPhase.running.inj (congrArg OutboxLoop.phase (Option.some.inj hm))
      exact hround.2 _
    · exact hs.rounds j g' t c' hm
  · obtain ⟨history,-,hcounts⟩ := hs.counts
    have hwork := @Counts.work weather g.1 c s.world history (hcounts h g _ b hl) hround.1.2
    refine ⟨_,hwork.idle,fun j g' t c' hm => ?_⟩
    dsimp only at hm
    rw [hget] at hm
    split at hm
    · obtain ⟨rfl,-⟩ := LoopPhase.running.inj (congrArg OutboxLoop.phase (Option.some.inj hm))
      exact hwork
    · next hj => exact (hj (hs.unique hl hm rfl rfl).1).elim
  · refine ⟨h,_,(hget h).trans (if_pos rfl),fun rest hrest => Or.inr ?_⟩
    dsimp only at hr
    rw [world_of_decided hrest] at hr
    exact covers_of_decided hr hst hrest
  · obtain ⟨m,hm,hml⟩ := hs.held p hp c' hc
    dsimp only
    by_cases hch : c' = h
    · subst hch
      exact ⟨_,(hget c').trans (if_pos rfl),rfl,rfl⟩
    · exact ⟨m,(hget c').trans ((if_neg hch).trans hm),hml⟩

theorem WatchInv.step {e : WakeEvent} {s' : WakeSystem} (hs : s.WatchInv) (hun : s.Undisturbed e)
    (he : s.step e = some s') : s'.WatchInv := by
  cases e with
  | enqueue n =>
    simp only [WakeSystem.step] at he
    split at he
    · simp at he
    · next hnew =>
      obtain ⟨t,ht,rfl⟩ := Option.map_eq_some_iff.mp he
      exact hs.enqueue hnew ht
  | requeue id =>
    simp only [WakeSystem.step] at he
    split at he
    · next hdone =>
      obtain rfl := Option.some.inj he
      exact hs.requeue hdone
    · simp at he
  | visit =>
    obtain rfl := Option.some.inj he
    exact hs.visit
  | remove id =>
    obtain rfl := Option.some.inj he
    exact hs.remove id
  | ensure i =>
    simp only [WakeSystem.step] at he
    split at he
    · next about hi =>
      obtain rfl := Option.some.inj he
      exact hs.ensure hi hun
    · simp at he
  | ring i =>
    simp only [WakeSystem.step] at he
    split at he
    · next about b hi =>
      obtain rfl := Option.some.inj he
      exact hs.ring hi
    · simp at he
  | tick secs =>
    obtain rfl := Option.some.inj he
    exact hs.tick secs
  | work h weather =>
    simp only [WakeSystem.step] at he
    split at he
    · next g c k b hl =>
      obtain rfl := Option.some.inj he
      exact hs.work hl
    · simp at he
  | rest h =>
    simp only [WakeSystem.step] at he
    split at he
    · next g rest b hl =>
      obtain rfl := Option.some.inj he
      have hdecided : g.2 = some rest := hs.rounds h g _ b hl
      exact hs.turn hl rfl (fun g' t ht => by simp at ht) (fun r ha => ha rest hdecided)
        (Or.inl ⟨rfl,rfl⟩)
    · simp at he
  | hear h =>
    simp only [WakeSystem.step] at he
    split at he
    · next rest since hl =>
      split at he
      · obtain rfl := Option.some.inj he
        exact hs.newRound hl rfl
      · simp at he
    · simp at he
  | expire h =>
    simp only [WakeSystem.step] at he
    split at he
    · next rest since b hl =>
      split at he
      · obtain rfl := Option.some.inj he
        exact hs.newRound hl rfl
      · simp at he
    · simp at he
  | timeout h =>
    simp only [WakeSystem.step] at he
    split at he
    · next since b hl =>
      split at he
      · obtain rfl := Option.some.inj he
        have hrung : b = false := hun.1 _ hl
        refine hs.turn hl rfl (fun g t ht => by simp at ht) (fun r ha => ?_) (Or.inr hun.2)
        -- it attends to nothing: it has no deadline, and nobody has rung
        rcases ha with ha | ha
        · simp [hrung] at ha
        · exact ha
      · simp at he
    · simp at he
  | finish h =>
    simp only [WakeSystem.step] at he
    split at he
    · next b hl =>
      obtain rfl := Option.some.inj he
      refine hs.turn hl rfl (fun g t ht => by simp at ht) (fun r ha => ha.elim)
        (Or.inr (fun p hp hst => ?_))
      obtain ⟨l,hl',hlive⟩ := hs.held p hp h hst
      obtain rfl := Option.some.inj (hl.symm.trans hl')
      simp [OutboxLoop.Live,OutboxLoop.leaving] at hlive
    · simp at he

end WakeSystem

/-! ### The worker gets there -/

/-- In the middle of a round a worker takes up no further entries. -/
theorem SendStance.entries_next {g : SendStance} {c : OutboxCall} (hok : g.Allows c)
    (hc : c ≠ .listDue) (r : c.Answer) : ∀ e ∈ (g.next c r).entries, e ∈ g.entries := by
  rcases SendStance.next_cases hok r with heq | hm
  · rw [heq]
    exact fun _ he => he
  · generalize hg' : g.next c r = g' at hm ⊢
    cases hm with
    | list due => exact (hc rfl).elim
    | skip e rest m => exact fun _ he => List.mem_cons_of_mem _ he
    | take e rest => exact fun _ he => he
    | refuse e rest job err => exact fun _ he => he
    | send e rest job m => exact fun _ he => he
    | bounce e rest job m => exact fun _ he => he
    | clear e m rest r => exact fun _ he => List.mem_cons_of_mem _ he
    | retry e err rest reason r h => exact fun _ he => List.mem_cons_of_mem _ he
    | fail e err rest reason r h => exact fun _ he => List.mem_cons_of_mem _ he

/-- A worker leaves the rows it does not hold. -/
theorem get_serve_of_not_held {weather : OutboxWeather} {g : SendStance} {c : OutboxCall}
    {w : OutboxWorld} {id : String} (hok : g.Allows c) (hheld : ∀ e ∈ g.entries, e.id ≠ id) :
    (serve weather c w).2.rows.get id = w.rows.get id := by
  cases c with
  | listDue => rw [serve_listDue_world]
  | nextSendAfter => rw [serve_nextSendAfter_world]
  | markSending k =>
    obtain ⟨e,rest,rfl,rfl⟩ := hok
    have hne : id ≠ e.id := (hheld e List.mem_cons_self).symm
    rcases hst : weather.statement with _ | m
    · rw [serve_markSending hst,Outbox.get_markSending]
      simp [hne]
    · rw [serve_markSending_fails hst]
  | prepare k job => rfl
  | submit k job => rfl
  | delete k =>
    obtain ⟨e,m,rest,rfl,rfl⟩ := hok
    have hne : id ≠ e.id := (hheld e List.mem_cons_self).symm
    rcases hst : weather.statement with _ | m
    · rw [serve_delete_row hst]
      exact Outbox.get_delete.trans (if_neg hne)
    · rw [serve_delete_fails hst]
  | markRetry k delay reason =>
    obtain ⟨e,err,rest,rfl,rfl,-,-⟩ := hok
    have hne : id ≠ e.id := (hheld e List.mem_cons_self).symm
    rcases hst : weather.statement with _ | m
    · rw [serve_markRetry hst,Outbox.get_markRetry]
      simp [hne]
    · rw [serve_markRetry_fails hst]
  | markFailed k reason =>
    obtain ⟨e,err,rest,rfl,rfl,-⟩ := hok
    have hne : id ≠ e.id := (hheld e List.mem_cons_self).symm
    rcases hst : weather.statement with _ | m
    · rw [serve_markFailed hst,Outbox.get_markFailed]
      simp [hne]
    · rw [serve_markFailed_fails hst]
  | publish e => rfl
  | get k => exact hok.elim
  | respond k r => exact hok.elim

namespace WakeSystem

variable {s : WakeSystem} {h : Nat} {b : Bool} {r : OutboxEntry} {rest : Rest}

theorem willList_of_round {due : Nat} (hl : s.loops[h]? = some ⟨.round,b⟩) (hdue : due ≤ s.world.now) :
    WillList h due s :=
  .lists (g := (.idle,none)) hl hdue

/-- A worker back from its rest starts a round. -/
theorem willList_of_turn {e : WakeEvent} {c : Bool} {l : OutboxLoop}
    (he : e = .rest h ∨ e = .hear h ∨ e = .expire h) (hl : s.loops[h]? = some l)
    (hstep : s.step e = some (s.setLoop h ⟨.round,c⟩)) (hdue : r.sendAfter ≤ s.world.now) :
    WillList h r.sendAfter s :=
  .turn he hstep (willList_of_round ((getElem?_setLoop hl h).trans (if_pos rfl)) hdue)

theorem willList_of_resting {since : Nat} (hl : s.loops[h]? = some ⟨.resting rest since,b⟩)
    (hatt : b = true ∨ rest.Covers r) (hdue : r.sendAfter ≤ s.world.now) :
    WillList h r.sendAfter s := by
  cases rest with
  | retry =>
    -- the pause is over at last
    let t : WakeSystem := { s with
      world := { s.world with now := s.world.now + (since + workerIdleTimeoutSecs) } }
    have hexp : Rest.Expired since t.world.now .retry := Nat.le_add_left _ _
    have hstep : t.step (.expire h) = some (t.setLoop h ⟨.round,b⟩) := by
      simp only [WakeSystem.step,t,hl]
      exact if_pos hexp
    exact .wait (s := s) (t := t) rfl (willList_of_turn (Or.inr (Or.inr rfl)) hl hstep
      (hdue.trans (Nat.le_add_right _ _)))
  | due d =>
    rcases hatt with rfl | hd
    · refine willList_of_turn (e := .hear h) (c := false) (Or.inr (Or.inl rfl)) hl ?_ hdue
      simp [WakeSystem.step,hl]
    · have hexp : Rest.Expired since s.world.now (.due d) := hd.trans hdue
      refine willList_of_turn (e := .expire h) (c := b) (Or.inr (Or.inr rfl)) hl ?_ hdue
      simp only [WakeSystem.step,hl]
      exact if_pos hexp
  | idle =>
    rcases hatt with rfl | hd
    · refine willList_of_turn (e := .hear h) (c := false) (Or.inr (Or.inl rfl)) hl ?_ hdue
      simp [WakeSystem.step,hl]
    · exact hd.elim

/-- A worker in a round comes to its end and rests, and looks at the entry after that. -/
theorem willList_of_running {g : RoundStance} {t : OutboxTask Rest} {id : String}
    (hl : s.loops[h]? = some ⟨.running g t,b⟩) (hround : Rounds g t)
    (hheld : ∀ e ∈ g.1.entries, e.id ≠ id) (hr : s.world.rows.get id = some r)
    (hst : r.state = .scheduled) (hdue : r.sendAfter ≤ s.world.now)
    (hatt : ∀ rest, g.2 = some rest → b = true ∨ rest.Covers r) : WillList h r.sendAfter s := by
  -- by induction on what is left of the round, whatever each call answers
  induction t generalizing s g with
  | pure rest =>
    have hdecided : g.2 = some rest := hround
    have hstep : s.step (.rest h) = some (s.setLoop h ⟨.resting rest s.world.now,b⟩) := by
      simp only [WakeSystem.step,hl]
    exact .turn (Or.inl rfl) hstep (willList_of_resting
      ((getElem?_setLoop hl h).trans (if_pos rfl)) (hatt rest hdecided) hdue)
  | call c k ih =>
    by_cases hc : c = .listDue
    · subst hc
      exact .lists hl hdue
    · refine .call hl (fun weather t ht => ?_)
      simp only [WakeSystem.step,hl] at ht
      obtain rfl := Option.some.inj ht
      have hrow : (serve weather c s.world).2.rows.get id = some r :=
        (get_serve_of_not_held hround.1.2 hheld).trans hr
      refine ih (serve weather c s.world).1 ((getElem?_setLoop hl h).trans (if_pos rfl))
        (hround.2 _) (fun e he => hheld e (SendStance.entries_next hround.1.2 hc _ e he)) hrow
        (hdue.trans serve_now.ge) (fun rest hrest => Or.inr (covers_of_decided hr hst hrest))

/-- A worker that attends to an entry has listed it or will run `list_due` in time. -/
theorem WatchInv.willList {id : String} {l : OutboxLoop} (hs : s.WatchInv)
    (hr : s.world.rows.get id = some r) (hst : r.state = .scheduled) (hl : s.loops[h]? = some l)
    (ha : l.Attends r) : s.Listed h id ∨ WillList h r.sendAfter s := by
  obtain ⟨phase,b⟩ := l
  cases phase with
  | running g t =>
    by_cases hq : ∃ e ∈ g.1.queue, e.id = id
    · exact Or.inl ⟨g,t,b,hl,hq⟩
    · obtain ⟨history,-,hcounts⟩ := hs.counts
      have hcounts := hcounts h g t b hl
      have hheld : ∀ e ∈ g.1.entries, e.id ≠ id := by
        rintro e he rfl
        rcases hcounts.rowIn_of_mem he with ⟨hmem,-⟩ | hrow
        · exact hq ⟨e,hmem,rfl⟩
        · exact absurd (hrow r hr).1 (by simp [hst])
      have hwait : s.step (.tick r.sendAfter) = some { s with
          world := { s.world with now := s.world.now + r.sendAfter } } := rfl
      exact Or.inr (.wait hwait
        (willList_of_running hl (hs.rounds h g t b hl) hheld hr hst (Nat.le_add_left _ _) ha))
  | resting rest since =>
    have hwait : s.step (.tick r.sendAfter) = some { s with
        world := { s.world with now := s.world.now + r.sendAfter } } := rfl
    exact Or.inr (.wait hwait
      (willList_of_resting hl ha (Nat.le_add_left _ _)))
  | leaving => exact ha.elim
  | finished => exact ha.elim

end WakeSystem

/-- In every run in which no call of `ensure_worker` finds a worker that is shutting down, and no
worker decides to shut down with a ring unheard or about to come, every entry that is scheduled and
rung for has a worker that has listed it or will run `list_due` at its `send_after` or later. -/
theorem entries_watched {es : List WakeEvent} {s : WakeSystem}
    (h : Run WakeSystem.step WakeSystem.Undisturbed WakeSystem.opening es s) : s.Watched := by
  have hs : s.WatchInv := h.invariant WakeSystem.watchInv_opening
    (fun _ _ _ hi hun he => WakeSystem.WatchInv.step hi hun he)
  intro id r hr hst hp
  obtain ⟨k,l,hl,ha⟩ := hs.attended id r hr hst hp
  exact ⟨k,hs.willList hr hst hl ha⟩

/-! ### Samples -/

/-- A worker shuts down in peace, and a mail is stored for the next. -/
def peacefulShutdown : List WakeEvent :=
  [.visit,.ensure 0,.work 0 smooth,.work 0 smooth,.rest 0,.ring 0,.hear 0,.work 0 smooth,
    .work 0 smooth,.rest 0,.tick 600,.timeout 0,.finish 0,.enqueue (plainEntry "a"),.ensure 1,
    .work 1 smooth,.ring 1]

theorem entries_watched_peacefulShutdown :
    ∃ s, Run WakeSystem.step WakeSystem.Undisturbed WakeSystem.opening peacefulShutdown s ∧
      (s.loops.map OutboxLoop.finished,s.world.rows.rows.map (fun r => (r.id,r.state))) =
        ([true,false],[("a",.scheduled)]) ∧ s.Watched := by
  have hv : (execWhere WakeSystem.step WakeSystem.Undisturbed WakeSystem.opening
      peacefulShutdown).map (fun s =>
        (s.loops.map OutboxLoop.finished,s.world.rows.rows.map (fun r => (r.id,r.state)))) =
          some ([true,false],[("a",.scheduled)]) := by
    decide
  obtain ⟨s,hrun,hl⟩ := run_of_map_execWhere hv
  exact ⟨s,hrun,hl,entries_watched hrun⟩

/-- A mail is stored and rung for while the worker is on its way out. -/
def lateRing : List WakeEvent :=
  [.visit,.ensure 0,.work 0 smooth,.work 0 smooth,.rest 0,.ring 0,.hear 0,.work 0 smooth,
    .work 0 smooth,.rest 0,.tick 600,.timeout 0,.enqueue (plainEntry "a"),.ensure 1,.ring 1,
    .finish 0]

namespace WakeSystem

variable {s : WakeSystem}

/-- Workers whose tasks have ended run nothing any more. -/
theorem not_willList_of_finished {h due : Nat}
    (hall : ∀ (k : Nat) (l : OutboxLoop), s.loops[k]? = some l → l.finished = true) :
    ¬WillList h due s := by
  have hnot : ∀ (s : WakeSystem), (∀ (k : Nat) (l : OutboxLoop), s.loops[k]? = some l →
      l.finished = true) → ∀ g t b, s.loops[h]? ≠ some ⟨.running g t,b⟩ := by
    intro s hall g t b hl
    have hfin := hall h _ hl
    simp [OutboxLoop.finished] at hfin
  intro hw
  induction hw with
  | lists hl _ => exact hnot _ hall _ _ _ hl
  | call hl _ _ => exact hnot _ hall _ _ _ hl
  | wait hstep _ ih =>
    obtain rfl := Option.some.inj hstep
    exact ih hall
  | @turn s t e he hstep _ ih =>
    have hnone : s.step e = none := by
      rcases hl : s.loops[h]? with _ | ⟨phase,b⟩
      · rcases he with rfl | rfl | rfl <;> simp [WakeSystem.step,hl]
      · have hfin := hall h _ hl
        cases phase with
        | finished => rcases he with rfl | rfl | rfl <;> simp [WakeSystem.step,hl]
        | _ => simp [OutboxLoop.finished] at hfin
    rw [hnone] at hstep
    simp at hstep

end WakeSystem

/-- Nobody looks at it. -/
theorem late_ring_lost :
    ¬∀ (es : List WakeEvent) (s : WakeSystem),
      Run WakeSystem.step (fun _ _ => True) WakeSystem.opening es s → s.Watched := by
  intro hall
  have hv : (execWhere WakeSystem.step (fun _ _ => True) WakeSystem.opening lateRing).map
      (fun s => (s.loops.map OutboxLoop.finished,s.posters.map Poster.stage,
        (s.world.rows.get "a").map OutboxEntry.state)) =
          some ([true],[.rung,.rung],some .scheduled) := by
    decide
  obtain ⟨s,hrun,hl⟩ := run_of_map_execWhere hv
  obtain ⟨hloops,hrest⟩ := Prod.mk.inj hl
  obtain ⟨hposters,hrow⟩ := Prod.mk.inj hrest
  obtain ⟨r,hr,hst⟩ := Option.map_eq_some_iff.mp hrow
  have hfin : ∀ (k : Nat) (l : OutboxLoop), s.loops[k]? = some l → l.finished = true := by
    intro k l hkl
    have hmem : l.finished ∈ s.loops.map OutboxLoop.finished :=
      List.mem_map_of_mem (List.mem_of_getElem? hkl)
    rw [hloops] at hmem
    exact List.mem_singleton.mp hmem
  have hposted : s.Posted "a" := by
    intro p hp _
    have hmem : p.stage ∈ s.posters.map Poster.stage := List.mem_map_of_mem hp
    rw [hposters] at hmem
    simpa using hmem
  obtain ⟨h,⟨g,t,b,hl,-⟩ | hw⟩ := hall lateRing s hrun "a" r hr hst hposted
  · have hrun := hfin h _ hl
    simp [OutboxLoop.finished] at hrun
  · exact WakeSystem.not_willList_of_finished hfin hw

end Rav
