import Mathlib.Algebra.Order.BigOperators.Group.List
import Mathlib.Algebra.Order.Ring.Int
import Mathlib.Data.List.Basic

/-!
# Computations that may panic

Integer arithmetic of a fixed width, with overflow as a failure, and cuts of a text at byte offsets,
which fail within a character.

## Main definitions

- `Panic` — why a computation stops without a result
- `i64` — a number, if it is of 64 bits with a sign
- `foldlM_i64` — a sum that is taken step by step overflows if and only if the whole sum does
- `returns_bind`, `foldlM_returns_iff`, `mapM_returns_iff` — when steps and loops come to an end
- `byteSlice`, `IsCharBoundary` — cutting a text by bytes
- `byteSlice_eq_ok`, `exists_byteSlice_iff` — when a cut succeeds
-/

namespace Rav

inductive Panic
  | overflow
  | slice
  deriving DecidableEq, Repr

/-! ### Integers of 64 bits -/

/-- The integers of 64 bits with a sign. -/
def InI64 (n : Int) : Prop := -9223372036854775808 ≤ n ∧ n ≤ 9223372036854775807

instance decidableInI64 (n : Int) : Decidable (InI64 n) := inferInstanceAs (Decidable (_ ∧ _))

/-- The result of an operation on `i64`. -/
def i64 (n : Int) : Except Panic Int := if InI64 n then .ok n else .error .overflow

theorem i64_of {n : Int} (h : -9223372036854775808 ≤ n) (h' : n ≤ 9223372036854775807) :
    i64 n = .ok n := if_pos ⟨h,h'⟩

theorem i64_of_not {n : Int} (h : ¬InI64 n) : i64 n = .error .overflow := if_neg h

theorem i64_eq_ok {n m : Int} : i64 n = .ok m ↔ InI64 n ∧ m = n := by
  unfold i64
  split
  · next h => exact ⟨fun heq => ⟨h,(Except.ok.inj heq).symm⟩,fun heq => congrArg Except.ok heq.2.symm⟩
  · next h => exact iff_of_false nofun fun heq => h heq.1

theorem Except.bind_ok {ε α β : Type} (a : α) (f : α → Except ε β) : (.ok a >>= f) = f a := rfl

theorem Except.bind_error {ε α β : Type} (e : ε) (f : α → Except ε β) :
    ((.error e : Except ε α) >>= f) = .error e := rfl

theorem except_bind_eq_ok {ε α β : Type} {x : Except ε α} {f : α → Except ε β} {b : β} :
    x >>= f = .ok b ↔ ∃ a, x = .ok a ∧ f a = .ok b := by
  cases x with
  | error e => exact ⟨nofun,fun ⟨_,ha,_⟩ => nomatch ha⟩
  | ok a =>
    constructor
    · exact fun h => ⟨a,rfl,h⟩
    · rintro ⟨_,⟨⟩,h⟩
      exact h

theorem except_map_eq_ok {ε α β : Type} {x : Except ε α} {f : α → β} {b : β} :
    x.map f = .ok b ↔ ∃ a, x = .ok a ∧ f a = b := by
  cases x with
  | error e => exact iff_of_false nofun fun ⟨_, ha, _⟩ => absurd ha nofun
  | ok a =>
    constructor
    · rintro ⟨⟩
      exact ⟨a, rfl, rfl⟩
    · rintro ⟨_, ⟨⟩, rfl⟩
      rfl

/-- An overflow makes no difference where what follows would overflow too. -/
theorem i64_bind {α : Type} {n : Int} {f : Int → Except Panic α}
    (h : ¬InI64 n → f n = .error .overflow) : (i64 n >>= f) = f n := by
  by_cases hn : InI64 n
  · rw [i64, if_pos hn, Except.bind_ok]
  · rw [i64_of_not hn, Except.bind_error, h hn]

/-- Two operations that go the same way are as good as one. -/
theorem i64_add_add {n a b : Int} (hn : InI64 n) (hab : 0 ≤ a ∧ 0 ≤ b ∨ a ≤ 0 ∧ b ≤ 0) :
    (i64 (n + a) >>= fun m => i64 (m + b)) = i64 (n + (a + b)) := by
  rw [← Int.add_assoc]
  refine i64_bind fun ha => i64_of_not ?_
  unfold InI64 at hn ha ⊢
  omega

/-- Terms of one sign are added up without overflow if and only if their sum is in range. -/
theorem foldlM_i64 {α : Type} {step : Int → α → Except Panic Int} {l : List α} {f : α → Int} {n : Int}
    (hn : InI64 n) (hstep : ∀ m a, a ∈ l → InI64 m → step m a = i64 (m + f a))
    (hf : (∀ a ∈ l, 0 ≤ f a) ∨ ∀ a ∈ l, f a ≤ 0) :
    l.foldlM step n = i64 (n + (l.map f).sum) := by
  induction l generalizing n with
  | nil => simp [i64, hn, pure, Except.pure]
  | cons a l ih =>
    have htail : (∀ b ∈ l, 0 ≤ f b) ∨ ∀ b ∈ l, f b ≤ 0 :=
      hf.imp (fun h b hb => h b (List.mem_cons_of_mem _ hb)) (fun h b hb => h b (List.mem_cons_of_mem _ hb))
    have hsign : 0 ≤ f a ∧ 0 ≤ (l.map f).sum ∨ f a ≤ 0 ∧ (l.map f).sum ≤ 0 := by
      rcases hf with h | h
      · refine Or.inl ⟨h a List.mem_cons_self,List.sum_nonneg fun x hx => ?_⟩
        obtain ⟨b,hb,rfl⟩ := List.mem_map.mp hx
        exact h b (List.mem_cons_of_mem _ hb)
      · refine Or.inr ⟨h a List.mem_cons_self,?_⟩
        have hsum : (l.map f).sum ≤ (l.map f).length • 0 := List.sum_le_card_nsmul _ _ fun x hx => by
          obtain ⟨b,hb,rfl⟩ := List.mem_map.mp hx
          exact h b (List.mem_cons_of_mem _ hb)
        rwa [nsmul_zero] at hsum
    rw [List.foldlM_cons, List.map_cons, List.sum_cons, hstep n a List.mem_cons_self hn,
      ← i64_add_add hn hsign]
    by_cases ha : InI64 (n + f a)
    · rw [i64, if_pos ha, Except.bind_ok, Except.bind_ok]
      exact ih ha (fun m b hb => hstep m b (List.mem_cons_of_mem _ hb)) htail
    · rw [i64_of_not ha, Except.bind_error, Except.bind_error]

/-! ### Loops that may stop -/

section Loops

variable {α β : Type} {x : Except Panic α} {p : Prop}

theorem returns_bind {f : α → Except Panic β} (h : ∀ a, x = .ok a → ((∃ b, f a = .ok b) ↔ p)) :
    (∃ b, (x >>= f) = .ok b) ↔ (∃ a, x = .ok a) ∧ p := by
  cases x with
  | error e =>
    rw [Except.bind_error]
    exact iff_of_false (fun ⟨b, hb⟩ => absurd hb nofun) fun ⟨⟨a, ha⟩, _⟩ => absurd ha nofun
  | ok a =>
    rw [Except.bind_ok, h a rfl]
    exact (and_iff_right ⟨a, rfl⟩).symm

theorem returns_pure (a : α) : (∃ b, (pure a : Except Panic α) = .ok b) ↔ True := iff_of_true ⟨a, rfl⟩ trivial

theorem foldlM_returns_iff {f : β → α → Except Panic β} {q : α → Prop}
    (hf : ∀ b a, (∃ c, f b a = .ok c) ↔ q a) (l : List α) (b : β) :
    (∃ c, l.foldlM f b = .ok c) ↔ ∀ a ∈ l, q a := by
  induction l generalizing b with
  | nil => exact iff_of_true ⟨b, rfl⟩ (List.forall_mem_nil _)
  | cons a l ih => rw [List.foldlM_cons, List.forall_mem_cons, returns_bind fun c _ => ih c, hf]

theorem mapM_returns_iff {f : α → Except Panic β} (l : List α) :
    (∃ bs, l.mapM f = .ok bs) ↔ ∀ a ∈ l, ∃ b, f a = .ok b := by
  induction l with
  | nil => exact iff_of_true ⟨[], rfl⟩ (List.forall_mem_nil _)
  | cons a l ih =>
    rw [List.mapM_cons, List.forall_mem_cons, ← ih]
    refine returns_bind fun b _ => ?_
    rw [returns_bind fun bs _ => returns_pure (b :: bs), and_true]

theorem mem_of_mapM_ok {ε : Type} {f : α → Except ε β} {l : List α} {bs : List β} (h : l.mapM f = .ok bs)
    (b : β) :
    b ∈ bs ↔ ∃ a ∈ l, f a = .ok b := by
  induction l generalizing bs with
  | nil =>
    obtain rfl := Except.ok.inj h
    exact iff_of_false List.not_mem_nil fun ⟨a, ha, _⟩ => absurd ha List.not_mem_nil
  | cons a l ih =>
    rw [List.mapM_cons] at h
    cases ha : f a with
    | error e =>
      rw [ha, Except.bind_error] at h
      cases h
    | ok c =>
      rw [ha, Except.bind_ok] at h
      cases hl : l.mapM f with
      | error e =>
        rw [hl, Except.bind_error] at h
        cases h
      | ok cs =>
        rw [hl, Except.bind_ok] at h
        obtain rfl := Except.ok.inj h
        rw [List.mem_cons, ih hl, List.exists_mem_cons_iff, ha, Except.ok.injEq, eq_comm]

end Loops

/-! ### Cutting a text by bytes -/

/-- The length of a text in bytes. -/
def byteLength (s : List Char) : Nat := (s.map Char.utf8Size).sum

theorem byteLength_append (s t : List Char) : byteLength (s ++ t) = byteLength s + byteLength t := by
  simp [byteLength]

theorem byteLength_cons (c : Char) (s : List Char) :
    byteLength (c :: s) = c.utf8Size + byteLength s := rfl

/-- A text after so many bytes. -/
def dropBytes : Nat → List Char → Except Panic (List Char)
  | 0, s => .ok s
  | _ + 1, [] => .error .slice
  | n + 1, c :: s => if c.utf8Size ≤ n + 1 then dropBytes (n + 1 - c.utf8Size) s else .error .slice

/-- The first so many bytes of a text. -/
def firstBytes : Nat → List Char → Except Panic (List Char)
  | 0, _ => .ok []
  | _ + 1, [] => .error .slice
  | n + 1, c :: s =>
    if c.utf8Size ≤ n + 1 then (firstBytes (n + 1 - c.utf8Size) s).map (c :: ·) else .error .slice

/-- `&s[i..j]`. -/
def byteSlice (i j : Nat) (s : List Char) : Except Panic (List Char) :=
  dropBytes i s >>= firstBytes (j - i)

/-- A byte offset that is not within a character. -/
def IsCharBoundary (i : Nat) (s : List Char) : Prop := ∃ p t, s = p ++ t ∧ byteLength p = i

theorem utf8Size_pos (c : Char) : 0 < c.utf8Size := Char.utf8Size_pos c

theorem byteLength_eq_zero {s : List Char} : byteLength s = 0 ↔ s = [] := by
  cases s with
  | nil => exact iff_of_true rfl rfl
  | cons c s =>
    have hc := utf8Size_pos c
    rw [byteLength_cons]
    exact iff_of_false (by omega) (List.cons_ne_nil c s)

theorem dropBytes_zero_iff {s t : List Char} :
    dropBytes 0 s = .ok t ↔ ∃ p, s = p ++ t ∧ byteLength p = 0 := by
  rw [dropBytes, Except.ok.injEq]
  refine ⟨fun h => ⟨[],h,rfl⟩,?_⟩
  rintro ⟨p,h,hp⟩
  rw [h, byteLength_eq_zero.mp hp]
  rfl

theorem dropBytes_eq_ok {n : Nat} {s t : List Char} :
    dropBytes n s = .ok t ↔ ∃ p, s = p ++ t ∧ byteLength p = n := by
  induction s generalizing n with
  | nil =>
    cases n with
    | zero => exact dropBytes_zero_iff
    | succ n => simp [dropBytes, byteLength]
  | cons c s ih =>
    cases n with
    | zero => exact dropBytes_zero_iff
    | succ n =>
      have hc := utf8Size_pos c
      rw [dropBytes]
      constructor
      · intro h
        split at h
        · next hle =>
          obtain ⟨p,rfl,hp⟩ := ih.mp h
          exact ⟨c :: p,rfl,by rw [byteLength_cons, hp]; omega⟩
        · exact absurd h nofun
      · rintro ⟨p,hs,hp⟩
        cases p with
        | nil => exact absurd hp nofun
        | cons d p =>
          obtain ⟨rfl,rfl⟩ := List.cons.inj hs
          rw [byteLength_cons] at hp
          rw [if_pos (by omega)]
          exact ih.mpr ⟨p,rfl,by omega⟩

theorem firstBytes_zero_iff {s f : List Char} :
    firstBytes 0 s = .ok f ↔ f <+: s ∧ byteLength f = 0 := by
  rw [firstBytes, byteLength_eq_zero, Except.ok.injEq, eq_comm]
  exact ⟨fun h => ⟨h ▸ List.nil_prefix,h⟩,fun h => h.2⟩

theorem firstBytes_eq_ok {n : Nat} {s f : List Char} :
    firstBytes n s = .ok f ↔ f <+: s ∧ byteLength f = n := by
  induction s generalizing n f with
  | nil =>
    cases n with
    | zero => exact firstBytes_zero_iff
    | succ n =>
      refine iff_of_false nofun ?_
      rintro ⟨hf,hn⟩
      rw [List.prefix_nil.mp hf] at hn
      exact absurd hn nofun
  | cons c s ih =>
    cases n with
    | zero => exact firstBytes_zero_iff
    | succ n =>
      have hc := utf8Size_pos c
      rw [firstBytes]
      constructor
      · intro h
        split at h
        · next hle =>
          cases htake : firstBytes (n + 1 - c.utf8Size) s with
          | error e => rw [htake] at h; exact absurd h nofun
          | ok g =>
            rw [htake] at h
            obtain rfl := Except.ok.inj h
            obtain ⟨hg,hlen⟩ := ih.mp htake
            exact ⟨List.cons_prefix_cons.mpr ⟨rfl,hg⟩,by rw [byteLength_cons, hlen]; omega⟩
        · exact absurd h nofun
      · rintro ⟨hf,hn⟩
        cases f with
        | nil => exact absurd hn nofun
        | cons d g =>
          obtain ⟨rfl,hg⟩ := List.cons_prefix_cons.mp hf
          rw [byteLength_cons] at hn
          rw [if_pos (by omega), ih.mpr ⟨hg,by omega⟩]
          rfl

/-- A cut gives the text between two offsets. -/
theorem byteSlice_eq_ok {i j : Nat} (hij : i ≤ j) {s f : List Char} :
    byteSlice i j s = .ok f ↔ ∃ p t, s = p ++ f ++ t ∧ byteLength p = i ∧ byteLength (p ++ f) = j := by
  unfold byteSlice
  constructor
  · intro h
    cases hdrop : dropBytes i s with
    | error e => rw [hdrop] at h; exact absurd h nofun
    | ok t =>
      rw [hdrop, Except.bind_ok] at h
      obtain ⟨p,rfl,hp⟩ := dropBytes_eq_ok.mp hdrop
      obtain ⟨⟨u,rfl⟩,hf⟩ := firstBytes_eq_ok.mp h
      exact ⟨p,u,(List.append_assoc _ _ _).symm,hp,by rw [byteLength_append]; omega⟩
  · rintro ⟨p,t,rfl,hp,hpf⟩
    rw [byteLength_append] at hpf
    rw [dropBytes_eq_ok.mpr ⟨p,List.append_assoc _ _ _,hp⟩, Except.bind_ok]
    exact firstBytes_eq_ok.mpr ⟨List.prefix_append f t,by omega⟩

/-- A text is cut exactly between two boundaries. -/
theorem exists_byteSlice_iff {i j : Nat} (hij : i ≤ j) {s : List Char} :
    (∃ f, byteSlice i j s = .ok f) ↔ IsCharBoundary i s ∧ IsCharBoundary j s := by
  constructor
  · rintro ⟨f,hf⟩
    obtain ⟨p,t,rfl,hp,hpf⟩ := (byteSlice_eq_ok hij).mp hf
    exact ⟨⟨p,f ++ t,List.append_assoc _ _ _,hp⟩,p ++ f,t,rfl,hpf⟩
  · rintro ⟨⟨p,t,hs,hp⟩,q,u,hs',hq⟩
    -- of two beginnings of one text the shorter one begins the longer one
    have hprefix : p <+: q := by
      rcases List.prefix_or_prefix_of_prefix (hs ▸ List.prefix_append p t)
        (hs' ▸ List.prefix_append q u) with h | ⟨w,rfl⟩
      · exact h
      · rw [byteLength_append] at hp
        have hw : w = [] := byteLength_eq_zero.mp (by omega)
        exact ⟨[],by rw [hw, List.append_nil, List.append_nil]⟩
    obtain ⟨f,rfl⟩ := hprefix
    exact ⟨f,(byteSlice_eq_ok hij).mpr ⟨p,u,hs',hp,hq⟩⟩

theorem dropBytes_append (p t : List Char) : dropBytes (byteLength p) (p ++ t) = .ok t :=
  dropBytes_eq_ok.mpr ⟨p, rfl, rfl⟩

/-- What was put together is cut apart again. -/
theorem byteSlice_append (p f t : List Char) :
    byteSlice (byteLength p) (byteLength (p ++ f)) (p ++ (f ++ t)) = .ok f := by
  have hle : byteLength p ≤ byteLength (p ++ f) := by
    rw [byteLength_append]
    exact Nat.le_add_right _ _
  exact (byteSlice_eq_ok hle).mpr ⟨p, t, (List.append_assoc p f t).symm, rfl, rfl⟩

theorem byteSlice_front (f t : List Char) : byteSlice 0 (byteLength f) (f ++ t) = .ok f :=
  byteSlice_append [] f t

theorem byteLength_of_ascii {s : List Char} (hs : ∀ c ∈ s, c.utf8Size = 1) :
    byteLength s = s.length := by
  simp [byteLength, List.map_congr_left hs]

theorem isCharBoundary_zero (s : List Char) : IsCharBoundary 0 s := ⟨[], s, rfl, rfl⟩

theorem isCharBoundary_byteLength (s : List Char) : IsCharBoundary (byteLength s) s :=
  ⟨s, [], (List.append_nil s).symm, rfl⟩

theorem isCharBoundary_append_left {i : Nat} {s t : List Char} (hi : i ≤ byteLength s) :
    IsCharBoundary i (s ++ t) ↔ IsCharBoundary i s := by
  constructor
  · rintro ⟨p, u, heq, hp⟩
    obtain ⟨a, rfl, -⟩ | ⟨c, rfl, -⟩ := List.append_eq_append_iff.mp heq
    · have hnil : a = [] := byteLength_eq_zero.mp (by rw [byteLength_append] at hp; omega)
      rw [hnil, List.append_nil] at hp
      exact ⟨s, [], (List.append_nil s).symm, hp⟩
    · exact ⟨p, c, rfl, hp⟩
  · rintro ⟨p, u, rfl, hp⟩
    exact ⟨p, u ++ t, List.append_assoc p u t, hp⟩

theorem isCharBoundary_append_right {i : Nat} {s t : List Char} :
    IsCharBoundary (byteLength s + i) (s ++ t) ↔ IsCharBoundary i t := by
  constructor
  · rintro ⟨p, u, heq, hp⟩
    obtain ⟨a, rfl, ht⟩ | ⟨c, rfl, rfl⟩ := List.append_eq_append_iff.mp heq
    · rw [byteLength_append] at hp
      exact ⟨a, u, ht, by omega⟩
    · have hnil : c = [] := byteLength_eq_zero.mp (by rw [byteLength_append] at hp; omega)
      subst hnil
      rw [List.append_nil] at hp
      exact ⟨[], t, rfl, by rw [byteLength_eq_zero.mpr rfl]; omega⟩
  · rintro ⟨p, u, rfl, hp⟩
    exact ⟨s ++ p, u, (List.append_assoc s p u).symm, by rw [byteLength_append, hp]⟩

theorem isCharBoundary_of_ascii {s : List Char} (hs : ∀ c ∈ s, c.utf8Size = 1) {i : Nat} (hi : i ≤ s.length) :
    IsCharBoundary i s := by
  refine ⟨s.take i, s.drop i, (List.take_append_drop i s).symm, ?_⟩
  rw [byteLength_of_ascii fun c hc => hs c (List.mem_of_mem_take hc), List.length_take, Nat.min_eq_left hi]

/-- In a text that begins in ASCII the offsets are indices. -/
theorem byteSlice_of_ascii {s t : List Char} (hs : ∀ c ∈ s, c.utf8Size = 1) {i j : Nat} (hij : i ≤ j)
    (hj : j ≤ s.length) : byteSlice i j (s ++ t) = .ok ((s.take j).drop i) := by
  have htake : ∀ k ≤ s.length, byteLength (s.take k) = k := by
    intro k hk
    rw [byteLength_of_ascii fun c hc => hs c (List.mem_of_mem_take hc), List.length_take, Nat.min_eq_left hk]
  have hsplit : s.take i ++ (s.take j).drop i = s.take j := by
    have h := List.take_append_drop i (s.take j)
    rwa [List.take_take, Nat.min_eq_left hij] at h
  refine (byteSlice_eq_ok hij).mpr ⟨s.take i,s.drop j ++ t,?_,htake i (hij.trans hj),?_⟩
  · rw [hsplit, ← List.append_assoc, List.take_append_drop]
  · rw [hsplit, htake j hj]

end Rav
