import Mathlib.Data.List.Basic

/-!
# Lines that come in pieces

A stream is read in pieces, and handed over line by line: what is not yet a complete line waits for
the next piece. In a lawful monad it makes no difference how the stream was cut.

## Main definitions

- `cutLine` — the first complete line
- `drain` — handing over all complete lines
- `readChunks` — reading the pieces of a stream
- `readChunks_eq` — the pieces are as good as the whole
-/

namespace Rav

section Lines

variable {α : Type} (isEnd : α → Bool)

/-- The first complete line, with its end, and what follows it. -/
def cutLine : List α → Option (List α × List α)
  | [] => none
  | b :: bs => if isEnd b then some ([b], bs) else (cutLine bs).map fun r => (b :: r.1, r.2)

variable {isEnd} {p q line rest : List α}

/-- A complete line is not changed by what comes later. -/
theorem cutLine_append (h : cutLine isEnd p = some (line, rest)) (q : List α) :
    cutLine isEnd (p ++ q) = some (line, rest ++ q) := by
  induction p generalizing line with
  | nil => exact absurd h nofun
  | cons b bs ih =>
    rw [cutLine] at h
    rw [List.cons_append, cutLine]
    split at h
    · next hb =>
      obtain ⟨rfl, rfl⟩ := Prod.mk.inj (Option.some.inj h)
      rw [if_pos hb]
    · next hb =>
      obtain ⟨⟨line', rest'⟩, hcut, heq⟩ := Option.map_eq_some_iff.mp h
      obtain ⟨rfl, rfl⟩ := Prod.mk.inj heq
      rw [if_neg hb, ih hcut]
      rfl

theorem length_lt_of_cutLine (h : cutLine isEnd p = some (line, rest)) : rest.length < p.length := by
  induction p generalizing line with
  | nil => exact absurd h nofun
  | cons b bs ih =>
    rw [cutLine] at h
    split at h
    · obtain ⟨-, rfl⟩ := Prod.mk.inj (Option.some.inj h)
      exact Nat.lt_succ_self _
    · obtain ⟨⟨line', rest'⟩, hcut, heq⟩ := Option.map_eq_some_iff.mp h
      obtain ⟨-, rfl⟩ := Prod.mk.inj heq
      exact Nat.lt_succ_of_lt (ih hcut)

end Lines

section Draining

variable {α : Type} (isEnd : α → Bool) {m : Type → Type} [Monad m] (push : List α → m Unit)

/-- Hand over the complete lines, so many at most; what is left is returned. -/
def drain : Nat → List α → m (List α)
  | 0, pending => pure pending
  | n + 1, pending =>
    match cutLine isEnd pending with
    | none => pure pending
    | some (line, rest) => do
      push line
      drain n rest

/-- Read the pieces of a stream after a line that has begun. -/
def readChunks : List (List α) → List α → m (List α)
  | [], pending => pure pending
  | chunk :: chunks, pending => do
    let rest ← drain isEnd push (pending ++ chunk).length (pending ++ chunk)
    readChunks chunks rest

/-- There are no more lines than symbols. -/
theorem drain_of_le {n : Nat} {p : List α} (hn : p.length ≤ n) :
    drain isEnd push n p = drain isEnd push p.length p := by
  induction n using Nat.strongRecOn generalizing p with
  | ind n ih =>
    cases h : cutLine isEnd p with
    | none => cases n <;> cases p <;> simp [drain, h]
    | some r =>
      have hlength := length_lt_of_cutLine h
      obtain ⟨n, rfl⟩ := Nat.exists_eq_add_of_lt (Nat.lt_of_lt_of_le hlength hn)
      obtain ⟨k, hk⟩ := Nat.exists_eq_add_of_lt hlength
      rw [hk, drain, drain, h]
      dsimp only
      rw [ih (r.2.length + n) (by omega) (by omega), ih (r.2.length + k) (by omega) (by omega)]

variable [LawfulMonad m]

/-- Lines may be handed over before the rest has come in. -/
theorem drain_append (p q : List α) : drain isEnd push (p ++ q).length (p ++ q) =
    (drain isEnd push p.length p >>= fun rest =>
      drain isEnd push (rest ++ q).length (rest ++ q)) := by
  induction hp : p.length using Nat.strongRecOn generalizing p with
  | ind n ih =>
    subst hp
    cases h : cutLine isEnd p with
    | none =>
      have hdrain : drain isEnd push p.length p = pure p := by
        cases p <;> simp [drain, h]
      rw [hdrain, pure_bind]
    | some r =>
      have hlength := length_lt_of_cutLine h
      have hcut := cutLine_append h q
      obtain ⟨k, hk⟩ := Nat.exists_eq_add_of_lt hlength
      have hall : (p ++ q).length = (r.2 ++ q).length + k + 1 := by
        rw [List.length_append, List.length_append, hk]
        omega
      have hrest : drain isEnd push (r.2.length + k) r.2 = drain isEnd push r.2.length r.2 :=
        drain_of_le isEnd push (by omega)
      rw [hall, hk, drain, drain, h, hcut]
      dsimp only
      rw [bind_assoc, drain_of_le isEnd push (by omega), hrest, ih r.2.length hlength r.2 rfl]

/-- The pieces are as good as the whole. -/
theorem readChunks_eq (chunks : List (List α)) (p : List α) :
    (drain isEnd push p.length p >>= readChunks isEnd push chunks) =
      drain isEnd push (p ++ chunks.flatten).length (p ++ chunks.flatten) := by
  induction chunks generalizing p with
  | nil =>
    rw [List.flatten_nil, List.append_nil]
    exact bind_pure _
  | cons chunk chunks ih =>
    rw [List.flatten_cons, ← List.append_assoc, ← ih (p ++ chunk), drain_append, bind_assoc]
    rfl

/-- From the start of a stream. -/
theorem readChunks_nil (chunks : List (List α)) : readChunks isEnd push chunks [] =
    drain isEnd push chunks.flatten.length chunks.flatten := by
  have h := readChunks_eq isEnd push chunks []
  rwa [List.length_nil, drain, pure_bind, List.nil_append] at h

end Draining

end Rav
