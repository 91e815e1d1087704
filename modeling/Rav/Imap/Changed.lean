import Rav.Imap.Mailbox

/-!
# What a mailbox reports as changed

The answer of `Mailbox.changedFlags` in closed form, with and without QRESYNC, and what a
mailbox reports as removed.

## Main definitions

- `Mailbox.reported` — the UIDs a QRESYNC round trip reports as vanished
- `Mailbox.topModseq` — the highest modification sequence among changed messages
-/

namespace Rav

namespace Mailbox

variable (b : Mailbox)

/-- The highest modification sequence of the messages changed since `m`, or 0. -/
def topModseq (m : Nat) : Nat := (b.changedSince m).foldl (fun k msg => max k msg.modseq) 0

/-- The UIDs reported as vanished since `m`, as the client expands them. -/
def vanishedUids (m : Nat) : List Nat := (b.names (b.expungedSince m)).flatMap expandRanges

/-- What a client hears of removals since `m`: nothing without QRESYNC. -/
def reported (m : Nat) : Finset Nat := if b.qresync then (b.vanishedUids m).toFinset else ∅

variable {b : Mailbox} {m : Nat}

private theorem readResponses_fetches (s : QresyncState) (ms : List Message) :
    readResponses s (ms.map (fun m =>
        .fetch [.uid m.uid,.flags m.header.flags,.modSeq m.modseq]) ++ [.done true true]) =
      some { s with
        changed := s.changed ++ ms.map (fun m => (m.uid,m.header.flags))
        highestModseq := ms.foldl (fun k m => max k m.modseq) s.highestModseq } := by
  induction ms generalizing s with
  | nil => simp [readResponses]
  | cons m ms ih =>
    rw [List.map_cons,List.cons_append,readResponses,ih]
    simp [readFetch,readAttr]

private theorem readResponses_vanisheds (s : QresyncState) (vs : List (List UidRange))
    (rest : List Response) :
    readResponses s (vs.map .vanished ++ rest) =
      readResponses { s with vanished := s.vanished ++ vs.flatMap expandRanges } rest := by
  induction vs generalizing s with
  | nil => simp
  | cons v vs ih =>
    rw [List.map_cons,List.cons_append,readResponses,ih]
    simp

/-- With QRESYNC the answer lists the changed messages and expands what vanished. -/
theorem changedFlags_of_qresync (hq : b.qresync = true) (hm : 0 < m) :
    b.changedFlags m b.uidValidity =
      ⟨(b.changedSince m).map (fun msg => (msg.uid,msg.header.flags)),some (b.vanishedUids m),
        b.topModseq m⟩ := by
  have hx : tryQresync (b.qresyncExchange m b.uidValidity) =
      some ⟨(b.changedSince m).map (fun msg => (msg.uid,msg.header.flags)),
        some (b.vanishedUids m),b.topModseq m⟩ := by
    simp only [tryQresync,qresyncExchange,hq,Bool.and_self,if_true]
    rw [List.append_assoc,readResponses_vanisheds,readResponses_fetches]
    simp [vanishedUids,topModseq]
  simp only [changedFlags,b.uidValidity_pos,hm,and_self,if_true,hx]

/-- Without QRESYNC the answer lists the changed messages and says nothing about removals. -/
theorem changedFlags_of_condstore (hq : b.qresync = false) (v : Nat) :
    b.changedFlags m v =
      ⟨(b.changedSince m).map (fun msg => (msg.uid,msg.header.flags)),none,b.reportedModseq⟩ := by
  have hx : tryQresync (b.qresyncExchange m v) = none := by
    simp [tryQresync,qresyncExchange,hq]
  simp only [changedFlags,hx,ite_self]

theorem mem_changed {p : Nat × List String} (hm : 0 < m) :
    p ∈ (b.changedFlags m b.uidValidity).changed ↔
      ∃ msg ∈ b.messages, m < msg.modseq ∧ p = (msg.uid,msg.header.flags) := by
  have hc : (b.changedFlags m b.uidValidity).changed =
      (b.changedSince m).map (fun msg => (msg.uid,msg.header.flags)) := by
    cases hq : b.qresync with
    | true => rw [changedFlags_of_qresync hq hm]
    | false => rw [changedFlags_of_condstore hq]
  rw [hc]
  simp only [changedSince,List.mem_map,List.mem_filter,decide_eq_true_eq]
  constructor
  · rintro ⟨msg,⟨hmem,hlt⟩,rfl⟩
    exact ⟨msg,hmem,hlt,rfl⟩
  · rintro ⟨msg,hmem,hlt,rfl⟩
    exact ⟨msg,⟨hmem,hlt⟩,rfl⟩

theorem mem_expungedSince {u : Nat} : u ∈ b.expungedSince m ↔ ∃ k, (u,k) ∈ b.expunged ∧ m < k := by
  simp only [expungedSince,List.mem_map,List.mem_filter,decide_eq_true_eq]
  constructor
  · rintro ⟨⟨v,k⟩,⟨h,hk⟩,rfl⟩
    exact ⟨k,h,hk⟩
  · rintro ⟨k,h,hk⟩
    exact ⟨(u,k),⟨h,hk⟩,rfl⟩

/-- Whatever is reported as vanished has been expunged. -/
theorem mem_expungedSince_of_vanished {u : Nat} (h : u ∈ b.vanishedUids m) : u ∈ b.expungedSince m := by
  obtain ⟨rs,hrs,hu⟩ := List.mem_flatMap.mp h
  obtain ⟨-,r,hr,hle⟩ := mem_expandRanges.mp hu
  exact (b.names_exact _ _).mp ⟨rs,hrs,r,hr,Or.inl hle⟩

theorem reported_disjoint : ∀ u ∈ b.uids, u ∉ b.reported m := by
  intro u hu hr
  unfold reported at hr
  split at hr
  · obtain ⟨k,hk,-⟩ := mem_expungedSince.mp (mem_expungedSince_of_vanished (List.mem_toFinset.mp hr))
    obtain ⟨msg,hmsg,rfl⟩ := mem_uids.mp hu
    exact b.expunged_gone _ hk msg hmsg rfl
  · simp at hr

/-- Nothing has vanished since the present. -/
theorem reported_of_le (h : b.highestModseq ≤ m) : b.reported m = ∅ := by
  refine Finset.eq_empty_of_forall_notMem (fun u hu => ?_)
  unfold reported at hu
  split at hu
  · obtain ⟨k,hk,hlt⟩ := mem_expungedSince.mp (mem_expungedSince_of_vanished (List.mem_toFinset.mp hu))
    have := (b.expunged_le _ hk).2
    omega
  · simp at hu

private theorem le_foldl_modseq (ms : List Message) (k : Nat) :
    k ≤ ms.foldl (fun k m => max k m.modseq) k ∧
      (∀ m ∈ ms, m.modseq ≤ ms.foldl (fun k m => max k m.modseq) k) ∧
      (ms.foldl (fun k m => max k m.modseq) k = k ∨
        ∃ m ∈ ms, ms.foldl (fun k m => max k m.modseq) k = m.modseq) := by
  induction ms generalizing k with
  | nil => simp
  | cons m ms ih =>
    obtain ⟨h1,h2,h3⟩ := ih (max k m.modseq)
    rw [List.foldl_cons]
    refine ⟨Nat.le_trans (Nat.le_max_left _ _) h1,?_,?_⟩
    · intro n hn
      rcases List.mem_cons.mp hn with rfl | hn
      · exact Nat.le_trans (Nat.le_max_right _ _) h1
      · exact h2 n hn
    · rcases h3 with h3 | ⟨n,hn,h3⟩
      · rcases Nat.le_total k m.modseq with hk | hk
        · exact Or.inr ⟨m,List.mem_cons_self,h3.trans (Nat.max_eq_right hk)⟩
        · exact Or.inl (h3.trans (Nat.max_eq_left hk))
      · exact Or.inr ⟨n,List.mem_cons_of_mem _ hn,h3⟩

/-- The top of the changed messages bounds all messages, unless nothing changed. -/
theorem topModseq_spec : b.topModseq m = 0 ∧ b.changedSince m = [] ∨
    m < b.topModseq m ∧ b.topModseq m ≤ b.highestModseq ∧
      ∀ msg ∈ b.messages, msg.modseq ≤ b.topModseq m := by
  obtain ⟨-,hle,heq⟩ := le_foldl_modseq (b.changedSince m) 0
  have hin : ∀ msg ∈ b.changedSince m, msg ∈ b.messages ∧ m < msg.modseq := by
    intro msg hmsg
    simpa [changedSince] using hmsg
  rcases List.eq_nil_or_concat (b.changedSince m) with hnil | ⟨_,x,hx⟩
  · exact Or.inl ⟨by simp [topModseq,hnil],hnil⟩
  · have hxm : x ∈ b.changedSince m := by simp [hx]
    have hlt : m < b.topModseq m := Nat.lt_of_lt_of_le (hin x hxm).2 (hle x hxm)
    refine Or.inr ⟨hlt,?_,fun msg hmsg => ?_⟩
    · rcases heq with h0 | ⟨n,hn,h⟩
      · have : b.topModseq m = 0 := h0
        omega
      · have : b.topModseq m = n.modseq := h
        rw [this]
        exact (b.modseq_le n (hin n hn).1).2
    · by_cases hc : m < msg.modseq
      · exact hle msg (by simpa [changedSince] using ⟨hmsg,hc⟩)
      · omega

theorem reportedModseq_le : b.reportedModseq ≤ b.highestModseq := by
  unfold reportedModseq
  split <;> omega

theorem reportedModseq_of_pos (h : 0 < b.reportedModseq) : b.reportedModseq = b.highestModseq := by
  unfold reportedModseq at h ⊢
  split
  · rfl
  · next hc => simp [hc] at h

/-- Asked again from the present, the server has nothing to tell. -/
theorem topModseq_of_le (h : b.highestModseq ≤ m) : b.topModseq m = 0 := by
  rcases topModseq_spec (b := b) (m := m) with ⟨h0,-⟩ | ⟨hlt,hle,-⟩
  · exact h0
  · omega

theorem topModseq_of_all_le (h : ∀ msg ∈ b.messages, msg.modseq ≤ m) : b.topModseq m = 0 := by
  have hnil : b.changedSince m = [] := by
    refine List.filter_eq_nil_iff.mpr (fun msg hmsg => ?_)
    simpa using h msg hmsg
  rw [topModseq,hnil]
  rfl

end Mailbox

end Rav
