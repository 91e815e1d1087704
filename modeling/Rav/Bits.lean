import Mathlib.Data.Nat.Bitwise
import Mathlib.Data.List.Basic

/-!
# Numbers as bits

The low bits of a number as a list, highest first, and words of one width written one behind the other.
Only the low bits of a number are read, so a register that loses its high bits does no harm.

## Main definitions

- `bits` — the low bits of a number
- `bits_add`, `bits_congr`, `bits_inj` — cut, what is read, and read back
- `flatMap_inj_of_length` — words of one width are told apart behind each other
-/

namespace Rav

/-- The low `n` bits of a number, the highest first. -/
def bits : Nat → Nat → List Bool
  | 0, _ => []
  | n + 1, v => v.testBit n :: bits n v

theorem length_bits (n v : Nat) : (bits n v).length = n := by
  induction n with
  | zero => rfl
  | succ n ih => rw [bits, List.length_cons, ih]

/-- Nothing above the low bits is read. -/
theorem bits_congr {n u v : Nat} (h : ∀ i < n, u.testBit i = v.testBit i) : bits n u = bits n v := by
  induction n with
  | zero => rfl
  | succ n ih =>
    rw [bits, bits, h n (Nat.lt_succ_self n), ih (fun i hi => h i (Nat.lt_succ_of_lt hi))]

/-- The high part of the low bits, and the low part. -/
theorem bits_add (m n v : Nat) : bits (m + n) v = bits m (v >>> n) ++ bits n v := by
  induction m with
  | zero => rw [Nat.zero_add]; rfl
  | succ m ih =>
    rw [Nat.succ_add, bits, bits, ih, Nat.testBit_shiftRight, Nat.add_comm n m]
    rfl

/-- The bits say what a number is that has no others. -/
theorem bits_inj {n u v : Nat} (hu : u < 2 ^ n) (hv : v < 2 ^ n) (h : bits n u = bits n v) : u = v := by
  have hbit : ∀ k ≤ n, bits k u = bits k v → ∀ i < k, u.testBit i = v.testBit i := by
    intro k
    induction k with
    | zero => intro _ _ i hi; exact absurd hi (Nat.not_lt_zero i)
    | succ k ih =>
      intro hk hbits i hi
      obtain ⟨hhead, htail⟩ := List.cons.inj hbits
      obtain hlt | rfl := Nat.lt_succ_iff_lt_or_eq.mp hi
      · exact ih (Nat.le_of_succ_le hk) htail i hlt
      · exact hhead
  apply Nat.eq_of_testBit_eq
  intro i
  by_cases hi : i < n
  · exact hbit n (Nat.le_refl n) h i hi
  · have hpow : 2 ^ n ≤ 2 ^ i := Nat.pow_le_pow_right (by omega) (by omega)
    rw [Nat.testBit_lt_two_pow (by omega), Nat.testBit_lt_two_pow (by omega)]

theorem bits_zero (n : Nat) : bits n 0 = List.replicate n false := by
  induction n with
  | zero => rfl
  | succ n ih => rw [bits, ih, Nat.zero_testBit, List.replicate_succ]

theorem length_flatMap_of_length {α β : Type*} {f : α → List β} {w : Nat} (hf : ∀ a, (f a).length = w)
    (l : List α) : (l.flatMap f).length = w * l.length := by
  induction l with
  | nil => rfl
  | cons a l ih => rw [List.flatMap_cons, List.length_append, hf, ih, List.length_cons, Nat.mul_succ, Nat.add_comm]

/-- Words of one width that are told apart are told apart behind each other. -/
theorem flatMap_inj_of_length {α β : Type*} {f : α → List β} {w : Nat} (hf : ∀ a, (f a).length = w)
    (hinj : ∀ a b, f a = f b → a = b) {l l' : List α} (hlen : l.length = l'.length)
    (h : l.flatMap f = l'.flatMap f) : l = l' := by
  induction l generalizing l' with
  | nil => exact (List.eq_nil_of_length_eq_zero hlen.symm).symm
  | cons a l ih =>
    obtain ⟨a', l', rfl⟩ := List.exists_cons_of_length_eq_add_one hlen.symm
    rw [List.flatMap_cons, List.flatMap_cons] at h
    obtain ⟨ha, hl⟩ := List.append_inj h (by rw [hf, hf])
    rw [hinj a a' ha, ih (Nat.succ.inj hlen) hl]

end Rav
