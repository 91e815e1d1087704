import Rav.Realtime.OutboxRuns

/-!
# No stuck entry

The worker marks an entry as being sent before it submits it, and settles it afterwards by one
statement: deleted, rescheduled or failed. An entry marked as being sent is not listed as due, not
requeued and not deleted for the user. So a crash in between, or a settling statement that fails,
leaves it where nothing picks it up again; without either, only entries in hand are marked.

## Main definitions

- `QueueSystem.Unstuck` — with no entry in hand, every entry is scheduled or failed
- `QueueSystem.Undisturbed` — no crash with an entry in hand, and no settling statement fails
-/

namespace Rav

namespace SendStance

/-- Whether the worker is submitting an entry. -/
def submitting : SendStance → Bool
  | .taken _ _ => true
  | .settled _ _ _ => true
  | _ => false

theorem submitting_of_submits {g : SendStance} {id : String} (h : g.Submits id) :
    g.submitting = true := by
  cases g with
  | taken e rest => rfl
  | settled e sent rest => rfl
  | idle => exact h.elim
  | pending due => exact h.elim

end SendStance

namespace QueueSystem

/-- While the worker is not submitting an entry, every entry is scheduled or failed. -/
def Unstuck (s : QueueSystem) : Prop :=
  s.stance.submitting = false → ∀ r ∈ s.world.rows.rows, r.state = .scheduled ∨ r.state = .failed

/-- There is no crash while an entry is being submitted, and the statement that settles it does
not fail. -/
def Undisturbed (s : QueueSystem) : QueueEvent → Prop
  | .crash => s.stance.submitting = false
  | .work weather =>
    match s.stance with
    | .settled _ _ _ => weather.statement = none
    | _ => True
  | _ => True

instance (s : QueueSystem) (e : QueueEvent) : Decidable (s.Undisturbed e) := by
  unfold Undisturbed
  split
  · infer_instance
  · split <;> infer_instance
  · infer_instance

/-- Only an entry in hand is marked as being sent. -/
structure MarkedInv (s : QueueSystem) : Prop where
  orderly : s.Orderly
  marked : ∀ id r, s.world.rows.get id = some r → r.state = .sending → s.stance.Submits id

end QueueSystem

namespace QueueSystem

variable {s s' : QueueSystem}

/-- Nothing is marked while nothing is in hand. -/
theorem MarkedInv.none_marked (h : s.MarkedInv) (hg : ∀ id, ¬s.stance.Submits id) :
    ∀ id r, s.world.rows.get id = some r → r.state ≠ .sending :=
  fun id r hr hs => hg id (h.marked id r hr hs)

/-- A statement that settles the entry in hand leaves no other marked. -/
theorem settled_unmarked {t t' : Outbox} {k id : String} {r : OutboxEntry}
    {g : OutboxEntry → OutboxEntry}
    (hm : ∀ id r, t.get id = some r → r.state = .sending → k = id)
    (hget : t'.get id = (t.get id).map (fun r => if id = k then g r else r))
    (hs : ∀ r, (g r).state ≠ .sending) (hr : t'.get id = some r) : r.state ≠ .sending := by
  intro hst
  rw [hget] at hr
  obtain ⟨q,hq,rfl⟩ := Option.map_eq_some_iff.mp hr
  by_cases hid : id = k
  · rw [if_pos hid] at hst
    exact hs q hst
  · rw [if_neg hid] at hst
    exact hid (hm id q hq hst).symm

theorem marked_opening : opening.MarkedInv :=
  ⟨orderly_opening,fun _ r hr => (Option.not_mem_none r hr).elim⟩

/-- One call of the worker. -/
theorem MarkedInv.work {weather : OutboxWeather} {g : SendStance} {c : OutboxCall}
    {k : c.Answer → OutboxTask Unit} (h : s.MarkedInv) (hw : s.worker = some (g,.call c k))
    (hun : ∀ e sent rest, g = .settled e sent rest → weather.statement = none) :
    ∀ id r, (serve weather c s.world).2.rows.get id = some r → r.state = .sending →
      (g.next c (serve weather c s.world).1).Submits id := by
  have hstance : s.stance = g := by rw [stance,hw]
  have hmarked : ∀ id r, s.world.rows.get id = some r → r.state = .sending → g.Submits id :=
    hstance ▸ h.marked
  have hok := h.orderly.allowed hw
  intro id r hr hs
  cases c with
  | listDue =>
    obtain rfl : g = .idle := hok
    rw [serve_listDue_world] at hr
    exact (hmarked id r hr hs).elim
  | nextSendAfter =>
    obtain rfl : g = .pending [] := hok
    rw [serve_nextSendAfter_world] at hr
    exact hmarked id r hr hs
  | markSending id' =>
    obtain ⟨e,rest,rfl,rfl⟩ := hok
    rcases hst : weather.statement with _ | m
    · rw [serve_markSending hst] at hr ⊢
      rw [Outbox.get_markSending] at hr
      obtain ⟨q,hq,rfl⟩ := Option.map_eq_some_iff.mp hr
      by_cases hid : id = e.id
      · exact hid.symm
      · rw [if_neg hid] at hs
        exact (hmarked id q hq hs).elim
    · rw [serve_markSending_fails hst] at hr ⊢
      exact (hmarked id r hr hs).elim
  | prepare id' job =>
    obtain ⟨e,rest,rfl,rfl⟩ := hok
    have hid : e.id = id := hmarked id r hr hs
    rcases (serve weather (.prepare e.id job) s.world).1 with err | _ <;> exact hid
  | submit id' job =>
    obtain ⟨e,rest,rfl,rfl⟩ := hok
    have hid : e.id = id := hmarked id r hr hs
    rcases (serve weather (.submit e.id job) s.world).1 with m | m <;> exact hid
  | delete id' =>
    obtain ⟨e,m,rest,rfl,rfl⟩ := hok
    rw [serve_delete_row (hun e _ rest rfl),Outbox.get_delete] at hr
    split at hr
    · simp at hr
    · next hid => exact absurd (hmarked id r hr hs).symm hid
  | markRetry id' delay reason =>
    obtain ⟨e,err,rest,rfl,rfl,-,-⟩ := hok
    rw [serve_markRetry (hun e _ rest rfl)] at hr
    exact absurd hs (settled_unmarked hmarked (Outbox.get_markRetry _ _) (fun _ => nofun) hr)
  | markFailed id' reason =>
    obtain ⟨e,err,rest,rfl,rfl,-⟩ := hok
    rw [serve_markFailed (hun e _ rest rfl)] at hr
    exact absurd hs (settled_unmarked hmarked (Outbox.get_markFailed _) (fun _ => nofun) hr)
  | publish e =>
    rw [SendStance.next_publish]
    exact hmarked id r hr hs
  | get id' => exact hok.elim
  | respond id' r => exact hok.elim

theorem MarkedInv.step {e : QueueEvent} (h : s.MarkedInv) (hun : s.Undisturbed e)
    (he : s.step e = some s') : s'.MarkedInv := by
  refine ⟨h.orderly.step he,?_⟩
  cases e with
  | enqueue e =>
    simp only [QueueSystem.step] at he
    split at he
    · simp at he
    · obtain ⟨t,ht,rfl⟩ := Option.map_eq_some_iff.mp he
      intro id r hr hs
      rw [Outbox.get_enqueue ht] at hr
      split at hr
      · obtain rfl := Option.some.inj hr
        simp [NewOutboxEntry.row] at hs
      · exact h.marked id r hr hs
  | requeue id =>
    obtain rfl := Option.some.inj he
    unfold requeue
    dsimp only
    split
    · intro k r hr hs
      rw [Outbox.get_requeue] at hr
      obtain ⟨q,hq,rfl⟩ := Option.map_eq_some_iff.mp hr
      split at hs
      · simp at hs
      · exact h.marked k q hq hs
    · exact h.marked
  | tick secs =>
    obtain rfl := Option.some.inj he
    exact h.marked
  | wake =>
    simp only [QueueSystem.step] at he
    split at he
    · simp at he
    · next hidle =>
      obtain rfl := Option.some.inj he
      -- the last round is over: it has left nothing in hand
      have hnone : ∀ id, ¬s.stance.Submits id := by
        intro id
        unfold stance
        rcases hw : s.worker with _ | ⟨g,p⟩
        · exact fun h => h
        · cases p with
          | pure a => exact h.orderly.worker _ hw id
          | call c k => exact absurd hw (hidle g c k)
      exact fun id r hr hs => absurd hs (h.none_marked hnone id r hr)
  | work weather =>
    simp only [QueueSystem.step] at he
    split at he
    · next g c k hw =>
      obtain rfl := Option.some.inj he
      refine h.work hw (fun e sent rest hg => ?_)
      subst hg
      simpa only [Undisturbed,stance,hw] using hun
    · simp at he
  | cancel id =>
    obtain rfl := Option.some.inj he
    exact h.marked
  | handle i weather =>
    simp only [QueueSystem.step] at he
    split at he
    · next c k ht =>
      obtain rfl := Option.some.inj he
      exact fun id r hr hs => h.marked id r (get_serve_of_handles (h.orderly.handles ht) hr) hs
    · simp at he
  | crash =>
    obtain rfl := Option.some.inj he
    have hnone : ∀ id, ¬s.stance.Submits id := by
      intro id hid
      have hbusy := SendStance.submitting_of_submits hid
      rw [hun] at hbusy
      simp at hbusy
    exact fun id r hr hs => absurd hs (h.none_marked hnone id r hr)

end QueueSystem

/-- In every run without a crash while an entry is being submitted, and in which no statement that
settles an entry fails, every entry is scheduled or failed whenever none is being submitted. -/
theorem entries_unstuck {es : List QueueEvent} {s : QueueSystem}
    (h : Run QueueSystem.step QueueSystem.Undisturbed QueueSystem.opening es s) : s.Unstuck := by
  have hinv : s.MarkedInv := h.invariant QueueSystem.marked_opening
    (fun _ _ _ hi hun he => QueueSystem.MarkedInv.step hi hun he)
  intro hnone r hr
  have hns : r.state ≠ .sending := by
    intro hs
    have hbusy := SendStance.submitting_of_submits (hinv.marked r.id r (Outbox.get_self hr) hs)
    rw [hnone] at hbusy
    simp at hbusy
  cases hst : r.state with
  | scheduled => exact Or.inl rfl
  | failed => exact Or.inr rfl
  | sending => exact absurd hst hns

/-! ### Samples -/

open QueueEvent in
/-- A mail is sent, and the process crashes between two rounds. -/
def sentAndCrashed : List QueueEvent :=
  [enqueue (plainEntry "a"),enqueue (plainEntry "b"),tick 5,cancel "b"] ++
    List.replicate 4 (.handle 0 smooth) ++ [wake] ++ List.replicate 8 (work smooth) ++
    [enqueue (plainEntry "c"),crash]

theorem entries_unstuck_sentAndCrashed :
    ∃ s, Run QueueSystem.step QueueSystem.Undisturbed QueueSystem.opening sentAndCrashed s ∧
      s.world.rows.rows.map (fun r => (r.id,r.state)) = [("c",.scheduled)] ∧ s.Unstuck := by
  have hv : (execWhere QueueSystem.step QueueSystem.Undisturbed QueueSystem.opening
      sentAndCrashed).map (fun s => s.world.rows.rows.map (fun r => (r.id,r.state))) =
        some [("c",.scheduled)] := by
    decide +kernel
  obtain ⟨s,hrun,hl⟩ := run_of_map_execWhere hv
  exact ⟨s,hrun,hl,entries_unstuck hrun⟩

open QueueEvent in
/-- The process crashes right after the worker has marked a mail as being sent. -/
def crashedMidway : List QueueEvent :=
  [enqueue (plainEntry "a"),tick 5,wake] ++ List.replicate 2 (work smooth) ++ [crash]

/-- The mail stays marked. -/
theorem crash_leaves_entry_sending :
    ¬∀ (es : List QueueEvent) (s : QueueSystem),
      Run QueueSystem.step (fun _ _ => True) QueueSystem.opening es s → s.Unstuck := by
  intro hall
  have hv : (execWhere QueueSystem.step (fun _ _ => True) QueueSystem.opening crashedMidway).map
      (fun s => (s.stance.submitting,s.world.rows.rows.map OutboxEntry.state)) =
        some (false,[.sending]) := by
    decide +kernel
  obtain ⟨s,hrun,hl⟩ := run_of_map_execWhere hv
  obtain ⟨hidle,hrows⟩ := Prod.mk.inj hl
  have hmem : OutboxState.sending ∈ s.world.rows.rows.map OutboxEntry.state := by
    rw [hrows]
    exact List.mem_cons_self
  obtain ⟨r,hr,hst⟩ := List.mem_map.mp hmem
  rcases hall crashedMidway s hrun hidle r hr with h | h <;> simp [hst] at h

end Rav
