import Rav.Checked
import Rav.Search.Query

/-!
# Numerals

Texts of digits, and what the parsers of numbers make of them.

## Main definitions

- `Numeral` — a text of digits, with its value
- `parseI64_numeral`, `parseUnsigned_numeral` — its value is read if it is in range
- `twoDigits`, `fourDigits` — numbers with leading zeros
-/

namespace Rav

structure Numeral where
  chars : List Char
  ne_nil : chars ≠ []
  digits : ∀ c ∈ chars, c.isDigit = true

/-! ### Digits -/

section Digits

variable {c : Char} (hc : c.isDigit = true)

include hc

theorem toNat_of_isDigit : 48 ≤ c.toNat ∧ c.toNat ≤ 57 := by
  simp only [Char.isDigit, Bool.and_eq_true, decide_eq_true_eq, UInt32.le_iff_toNat_le, ge_iff_le] at hc
  exact hc

theorem ne_of_isDigit_of_not {d : Char} (hd : d.isDigit = false) : c ≠ d := by
  rintro rfl
  rw [hc] at hd
  exact absurd hd Bool.noConfusion

theorem isWhitespace_of_isDigit : isWhitespace c = false := by
  have h := toNat_of_isDigit hc
  unfold isWhitespace
  simp only [Bool.or_eq_false_iff, Bool.and_eq_false_iff, decide_eq_false_iff_not]
  omega

theorem utf8Size_of_isDigit : c.utf8Size = 1 := by
  have h := toNat_of_isDigit hc
  exact Char.utf8Size_eq_one_iff.mpr (UInt32.le_iff_toNat_le.mpr (by simpa using by omega))

end Digits

namespace Numeral

variable (n : Numeral)

def value : Nat := Nat.ofDigitChars 10 n.chars 0

theorem head_isDigit {d : Char} (hd : d.isDigit = false) : n.chars.head? ≠ some d := by
  intro h
  exact ne_of_isDigit_of_not (n.digits d (List.mem_of_mem_head? h)) hd rfl

end Numeral

theorem foldl_digits {cs : List Char} (hcs : ∀ c ∈ cs, c.isDigit = true) (k : Nat) :
    cs.foldl (fun (n : Int) c => 10 * n + (c.toNat - '0'.toNat)) k = Nat.ofDigitChars 10 cs k := by
  induction cs generalizing k with
  | nil => rfl
  | cons c cs ih =>
    obtain ⟨hc,hcs⟩ := List.forall_mem_cons.mp hcs
    have hrange := toNat_of_isDigit hc
    have hzero : '0'.toNat = 48 := rfl
    have hstep : 10 * (k : Int) + (c.toNat - '0'.toNat) = ((10 * k + (c.toNat - '0'.toNat) : Nat) : Int) := by
      omega
    rw [List.foldl_cons, hstep, ih hcs]
    rfl

theorem parseI64_numeral (n : Numeral) :
    parseI64 n.chars = if n.value ≤ 9223372036854775807 then some (n.value : Int) else none := by
  unfold parseI64
  have hminus := n.head_isDigit (d := '-') rfl
  have hplus := n.head_isDigit (d := '+') rfl
  have hvalue : n.chars.foldl (fun (n : Int) c => 10 * n + (c.toNat - '0'.toNat)) 0 = n.value :=
    foldl_digits n.digits 0
  simp only [hminus, hplus, or_self, if_false, hvalue]
  refine if_congr ⟨fun h => Int.ofNat_le.mp h.2.2.2,fun h => ?_⟩ rfl rfl
  exact ⟨n.ne_nil,List.all_eq_true.mpr n.digits,by omega,by omega⟩

/-- What is written is read, if it is in range. -/
theorem parseI64_toString {n : Int} (h : InI64 n) : parseI64 (toString n).toList = some n := by
  obtain ⟨hmin, hmax⟩ := h
  have hdigits : ∀ n : Nat, ∀ c ∈ Nat.toDigits 10 n, c.isDigit = true :=
    fun n c hc => Nat.isDigit_of_mem_toDigits (by decide) (by decide) hc
  have hvalue : ∀ n : Nat, Nat.ofDigitChars 10 (Nat.toDigits 10 n) 0 = n :=
    fun n => Nat.ofDigitChars_toDigits (by decide) (by decide)
  cases n with
  | ofNat n =>
    have htext : (toString (Int.ofNat n)).toList = Nat.toDigits 10 n := String.toList_ofList
    have hnumeral := parseI64_numeral ⟨Nat.toDigits 10 n, Nat.toDigits_ne_nil, hdigits n⟩
    have hnat : n ≤ 9223372036854775807 := Int.ofNat_le.mp hmax
    rw [Numeral.value, hvalue, if_pos hnat] at hnumeral
    rw [htext, hnumeral]
    rfl
  | negSucc n =>
    have htext : (toString (Int.negSucc n)).toList = '-' :: Nat.toDigits 10 (n + 1) :=
      String.toList_append.trans (congrArg (List.cons '-') String.toList_ofList)
    have hfold : (Nat.toDigits 10 (n + 1)).foldl (fun (n : Int) c => 10 * n + (c.toNat - '0'.toNat)) 0 =
        (n + 1 : Nat) := by
      have hfold := foldl_digits (hdigits (n + 1)) 0
      rwa [hvalue] at hfold
    have hneg : -((n + 1 : Nat) : Int) = Int.negSucc n := rfl
    rw [htext, parseI64]
    simp only [List.head?_cons, List.tail_cons, true_or, if_true, hfold, hneg]
    exact if_pos ⟨Nat.toDigits_ne_nil, List.all_eq_true.mpr (hdigits (n + 1)), hmin, hmax⟩

theorem parseUnsigned_numeral (bound : Nat) (n : Numeral) :
    parseUnsigned bound (String.ofList n.chars) = if n.value < bound then some n.value else none := by
  unfold parseUnsigned
  rw [String.toList_ofList, if_neg (n.head_isDigit rfl)]
  exact if_congr ⟨fun h => h.2.2,fun h => ⟨n.ne_nil,List.all_eq_true.mpr n.digits,h⟩⟩ rfl rfl

/-! ### Leading zeros -/

/-- Two and four digits. -/
def twoDigits (n : Nat) : List Char := [Nat.digitChar (n / 10),Nat.digitChar (n % 10)]

def fourDigits (n : Nat) : List Char := twoDigits (n / 100) ++ twoDigits (n % 100)

theorem digitChar_spec {d : Nat} (hd : d < 10) :
    (Nat.digitChar d).isDigit = true ∧ (Nat.digitChar d).toNat - '0'.toNat = d := by
  have hall : ∀ d < 10, (Nat.digitChar d).isDigit = true ∧ (Nat.digitChar d).toNat - '0'.toNat = d := by
    decide
  exact hall d hd

theorem twoDigits_isDigit {n : Nat} (hn : n < 100) : ∀ c ∈ twoDigits n, c.isDigit = true := by
  have hten := (digitChar_spec (show n / 10 < 10 by omega)).1
  have hone := (digitChar_spec (show n % 10 < 10 by omega)).1
  simp [twoDigits, hten, hone]

theorem ofDigitChars_twoDigits {n : Nat} (hn : n < 100) (k : Nat) :
    Nat.ofDigitChars 10 (twoDigits n) k = 100 * k + n := by
  have hten := (digitChar_spec (show n / 10 < 10 by omega)).2
  have hone := (digitChar_spec (show n % 10 < 10 by omega)).2
  simp only [twoDigits, Nat.ofDigitChars_cons, Nat.ofDigitChars_nil, hten, hone]
  omega

theorem parseU32_twoDigits {n : Nat} (hn : n < 100) :
    parseUnsigned 4294967296 (String.ofList (twoDigits n)) = some n := by
  have hparse := parseUnsigned_numeral 4294967296
    ⟨twoDigits n,List.cons_ne_nil _ _,twoDigits_isDigit hn⟩
  unfold Numeral.value at hparse
  rw [hparse, ofDigitChars_twoDigits hn, if_pos (by omega)]
  congr 1
  omega

theorem fourDigits_isDigit {n : Nat} (hn : n < 10000) : ∀ c ∈ fourDigits n, c.isDigit = true := by
  intro c hc
  rcases List.mem_append.mp hc with h | h
  · exact twoDigits_isDigit (by omega) c h
  · exact twoDigits_isDigit (by omega) c h

theorem parseI64_fourDigits {n : Nat} (hn : n < 10000) : parseI64 (fourDigits n) = some (n : Int) := by
  have hparse := parseI64_numeral ⟨fourDigits n,List.cons_ne_nil _ _,fourDigits_isDigit hn⟩
  unfold Numeral.value fourDigits at hparse
  rw [Nat.ofDigitChars_append, ofDigitChars_twoDigits (by omega), ofDigitChars_twoDigits (by omega),
    if_pos (by omega)] at hparse
  unfold fourDigits
  rw [hparse]
  congr 1
  omega

end Rav
