import Rav.Imap.Mailbox

/-!
# How a mailbox moves on

Within one UIDVALIDITY every change takes a new modification sequence and touches nothing
stamped with an older one. `Later` is what any number of changes preserves.

## Main definitions

- `Mailbox.Later` — what holds between a mailbox and itself some changes later
- `Mailbox.applyAll` — a batch of changes
-/

namespace Rav

namespace Mailbox

/-- `b'` is `b` some changes later, under the same UIDVALIDITY. -/
structure Later (b b' : Mailbox) : Prop where
  uidValidity : b'.uidValidity = b.uidValidity
  condstore : b'.condstore = b.condstore
  qresync : b'.qresync = b.qresync
  modseq_le : b.highestModseq ≤ b'.highestModseq
  uidNext_le : b.uidNext ≤ b'.uidNext
  uids : ∀ u ∈ b'.uids, u ∈ b.uids ∨ b.uidNext ≤ u
  messages : ∀ msg ∈ b'.messages, msg.modseq ≤ b.highestModseq → msg ∈ b.messages
  delivered : ∀ msg ∈ b'.messages, msg.born ≤ b.highestModseq →
    ∃ n ∈ b.messages, n.uid = msg.uid ∧ n.born = msg.born
  expunged : ∀ e ∈ b'.expunged, e.2 ≤ b.highestModseq → e ∈ b.expunged

variable {b b' b'' : Mailbox}

theorem Later.refl (b : Mailbox) : b.Later b :=
  ⟨rfl,rfl,rfl,Nat.le_refl _,Nat.le_refl _,fun _ => Or.inl,fun _ h _ => h,
    fun msg h _ => ⟨msg,h,rfl,rfl⟩,fun _ h _ => h⟩

theorem Later.trans (h : b.Later b') (h' : b'.Later b'') : b.Later b'' where
  uidValidity := h'.uidValidity.trans h.uidValidity
  condstore := h'.condstore.trans h.condstore
  qresync := h'.qresync.trans h.qresync
  modseq_le := Nat.le_trans h.modseq_le h'.modseq_le
  uidNext_le := Nat.le_trans h.uidNext_le h'.uidNext_le
  uids := by
    intro u hu
    rcases h'.uids u hu with hu | hu
    · exact h.uids u hu
    · exact Or.inr (Nat.le_trans h.uidNext_le hu)
  messages := fun msg hmsg hk =>
    h.messages msg (h'.messages msg hmsg (Nat.le_trans hk h.modseq_le)) hk
  delivered := by
    intro msg hmsg hk
    obtain ⟨n,hn,hu,hb⟩ := h'.delivered msg hmsg (Nat.le_trans hk h.modseq_le)
    obtain ⟨n',hn',hu',hb'⟩ := h.delivered n hn (hb ▸ hk)
    exact ⟨n',hn',hu'.trans hu,hb'.trans hb⟩
  expunged := fun e he hk =>
    h.expunged e (h'.expunged e he (Nat.le_trans hk h.modseq_le)) hk

theorem later_deliver {gap : Nat} {h : ImapMessageHeader} {bd : ImapMessageBody} {s : Nat}
    (hu : b.uidNext + gap + 1 < 2 ^ 32) : b.Later (b.deliver gap h bd s hu) := by
  have hmem : ∀ msg ∈ (b.deliver gap h bd s hu).messages, msg ∈ b.messages ∨
      msg = b.delivered gap h bd s := by
    intro msg hmsg
    exact (List.mem_append.mp hmsg).imp id List.mem_singleton.mp
  refine ⟨rfl,rfl,rfl,Nat.le_succ _,by simp only [deliver]; omega,?_,?_,?_,fun _ he _ => he⟩
  · intro u hu'
    obtain ⟨msg,hmsg,rfl⟩ := mem_uids.mp hu'
    rcases hmem msg hmsg with hmsg | rfl
    · exact Or.inl (mem_uids.mpr ⟨msg,hmsg,rfl⟩)
    · exact Or.inr (Nat.le_add_right _ gap)
  · intro msg hmsg hk
    rcases hmem msg hmsg with hmsg | rfl
    · exact hmsg
    · exact absurd hk (Nat.not_succ_le_self _)
  · intro msg hmsg hk
    rcases hmem msg hmsg with hmsg | rfl
    · exact ⟨msg,hmsg,rfl,rfl⟩
    · exact absurd hk (Nat.not_succ_le_self _)

theorem later_expunge {uid : Nat} (hu : uid < b.uidNext) : b.Later (b.expunge uid hu) := by
  have hmem : ∀ msg ∈ (b.expunge uid hu).messages, msg ∈ b.messages :=
    fun msg hmsg => (List.mem_filter.mp hmsg).1
  refine ⟨rfl,rfl,rfl,Nat.le_succ _,Nat.le_refl _,?_,fun msg hmsg _ => hmem msg hmsg,
    fun msg hmsg _ => ⟨msg,hmem msg hmsg,rfl,rfl⟩,?_⟩
  · intro u hu'
    obtain ⟨msg,hmsg,rfl⟩ := mem_uids.mp hu'
    exact Or.inl (mem_uids.mpr ⟨msg,hmem msg hmsg,rfl⟩)
  · intro e he hk
    rcases List.mem_cons.mp he with rfl | he
    · exact absurd hk (Nat.not_succ_le_self _)
    · exact he

theorem later_storeFlags (uid : Nat) (flags : List String) : b.Later (b.storeFlags uid flags) := by
  have hmem : ∀ msg ∈ (b.storeFlags uid flags).messages, ∃ n ∈ b.messages,
      n.uid = msg.uid ∧ n.born = msg.born ∧ (msg = n ∨ msg.modseq = b.highestModseq + 1) := by
    intro msg hmsg
    obtain ⟨n,hn,rfl⟩ := List.mem_map.mp hmsg
    refine ⟨n,hn,?_⟩
    split
    · exact ⟨rfl,rfl,Or.inr rfl⟩
    · exact ⟨rfl,rfl,Or.inl rfl⟩
  refine ⟨rfl,rfl,rfl,Nat.le_succ _,Nat.le_refl _,?_,?_,?_,fun _ he _ => he⟩
  · intro u hu
    obtain ⟨msg,hmsg,rfl⟩ := mem_uids.mp hu
    obtain ⟨n,hn,hnu,-⟩ := hmem msg hmsg
    exact Or.inl (mem_uids.mpr ⟨n,hn,hnu⟩)
  · intro msg hmsg hk
    obtain ⟨n,hn,-,-,rfl | hlt⟩ := hmem msg hmsg
    · exact hn
    · omega
  · intro msg hmsg _
    obtain ⟨n,hn,hu,hb,-⟩ := hmem msg hmsg
    exact ⟨n,hn,hu,hb⟩

/-- A change takes a new modification sequence, or the mailbox is rebuilt under a greater
UIDVALIDITY. -/
theorem apply_later {c : Change} (h : b.apply c = some b') :
    b.Later b' ∧ b.highestModseq < b'.highestModseq ∨ b.uidValidity < b'.uidValidity := by
  cases c with
  | deliver gap header body =>
    simp only [apply] at h
    split at h
    · next hu =>
      obtain rfl := Option.some.inj h
      exact Or.inl ⟨later_deliver hu,Nat.lt_succ_self _⟩
    · simp at h
  | expunge uid =>
    simp only [apply] at h
    split at h
    · next hu =>
      obtain rfl := Option.some.inj h
      exact Or.inl ⟨later_expunge hu.1,Nat.lt_succ_self _⟩
    · simp at h
  | storeFlags uid flags =>
    simp only [apply] at h
    split at h
    · obtain rfl := Option.some.inj h
      exact Or.inl ⟨later_storeFlags uid flags,Nat.lt_succ_self _⟩
    · simp at h
  | rebuild b₁ =>
    simp only [apply] at h
    split at h
    · next hv =>
      obtain rfl := Option.some.inj h
      exact Or.inr hv.1
    · simp at h

/-- A batch of changes, all of which the server can make. -/
def applyAll (b : Mailbox) : List Change → Option Mailbox
  | [] => some b
  | c :: cs => (b.apply c).bind (fun b' => b'.applyAll cs)

theorem applyAll_uidValidity_le {cs : List Change} (h : b.applyAll cs = some b') :
    b.uidValidity ≤ b'.uidValidity := by
  induction cs generalizing b with
  | nil => exact (Option.some.inj h) ▸ Nat.le_refl _
  | cons c cs ih =>
    obtain ⟨b₁,h₁,h₂⟩ := Option.bind_eq_some_iff.mp h
    refine Nat.le_trans ?_ (ih h₂)
    rcases apply_later h₁ with ⟨hl,-⟩ | hlt
    · exact hl.uidValidity.ge
    · exact hlt.le

/-- Under one UIDVALIDITY a batch moves the mailbox on, and forward unless it is empty. -/
theorem applyAll_later {cs : List Change} (h : b.applyAll cs = some b')
    (hv : b'.uidValidity = b.uidValidity) :
    b.Later b' ∧ (cs ≠ [] → b.highestModseq < b'.highestModseq) := by
  induction cs generalizing b with
  | nil =>
    obtain rfl := Option.some.inj h
    exact ⟨Later.refl b,fun hn => absurd rfl hn⟩
  | cons c cs ih =>
    obtain ⟨b₁,h₁,h₂⟩ := Option.bind_eq_some_iff.mp h
    have hle := applyAll_uidValidity_le h₂
    rcases apply_later h₁ with ⟨hl,hlt⟩ | hlt
    · obtain ⟨hl',-⟩ := ih h₂ (hv.trans hl.uidValidity.symm)
      exact ⟨hl.trans hl',fun _ => Nat.lt_of_lt_of_le hlt hl'.modseq_le⟩
    · omega

end Mailbox

end Rav
