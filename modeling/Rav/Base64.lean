import Mathlib.Data.List.Basic

/-!
# Base64

The encoding of RFC 4648, with the two alphabets, with padding or without. Decoding is strict: the
padding has to be there, or must not be, and no bits may be left over.

## Main definitions

- `Base64`, `Base64.standard`, `Base64.urlSafeNoPad` — alphabet and padding
- `Base64.encode`, `Base64.decode`
- `Base64.decode_encode`, `Base64.encode_decode` — what is encoded is decoded, and nothing else
-/

namespace Rav

/-- The last two characters of an alphabet, and whether there is padding. -/
structure Base64 where
  char62 : Char
  char63 : Char
  pad : Bool

namespace Base64

/-- `general_purpose::STANDARD`. -/
def standard : Base64 := ⟨'+', '/', true⟩

/-- `general_purpose::URL_SAFE_NO_PAD`. -/
def urlSafeNoPad : Base64 := ⟨'-', '_', false⟩

variable (b : Base64)

/-- The character of six bits. -/
def char (n : Nat) : Char :=
  if n < 26 then Char.ofNat (65 + n)
  else if n < 52 then Char.ofNat (71 + n)
  else if n < 62 then Char.ofNat (n - 4)
  else if n = 62 then b.char62
  else b.char63

/-- The six bits of a character. -/
def value (c : Char) : Option Nat :=
  if 65 ≤ c.toNat ∧ c.toNat ≤ 90 then some (c.toNat - 65)
  else if 97 ≤ c.toNat ∧ c.toNat ≤ 122 then some (c.toNat - 71)
  else if 48 ≤ c.toNat ∧ c.toNat ≤ 57 then some (c.toNat + 4)
  else if c = b.char62 then some 62
  else if c = b.char63 then some 63
  else none

def padding (n : Nat) : List Char := if b.pad then List.replicate n '=' else []

/-- Three bytes are four characters; one or two bytes are left. -/
def encode : List UInt8 → List Char
  | x :: y :: z :: rest =>
    b.char (x.toNat / 4) :: b.char (x.toNat % 4 * 16 + y.toNat / 16) ::
      b.char (y.toNat % 16 * 4 + z.toNat / 64) :: b.char (z.toNat % 64) :: encode rest
  | [x, y] =>
    b.char (x.toNat / 4) :: b.char (x.toNat % 4 * 16 + y.toNat / 16) ::
      b.char (y.toNat % 16 * 4) :: b.padding 1
  | [x] => b.char (x.toNat / 4) :: b.char (x.toNat % 4 * 16) :: b.padding 2
  | [] => []

/-- Two characters for one byte. -/
def decodeOne (c d : Char) : Option (List UInt8) := do
  let m ← b.value c
  let n ← b.value d
  if n % 16 = 0 then some [UInt8.ofNat (m * 4 + n / 16)] else none

/-- Three characters for two bytes. -/
def decodeTwo (c d e : Char) : Option (List UInt8) := do
  let m ← b.value c
  let n ← b.value d
  let o ← b.value e
  if o % 4 = 0 then
    some [UInt8.ofNat (m * 4 + n / 16), UInt8.ofNat (n % 16 * 16 + o / 4)]
  else none

/-- Four characters for three bytes. -/
def decodeThree (c d e f : Char) : Option (List UInt8) := do
  let m ← b.value c
  let n ← b.value d
  let o ← b.value e
  let p ← b.value f
  some [UInt8.ofNat (m * 4 + n / 16), UInt8.ofNat (n % 16 * 16 + o / 4),
    UInt8.ofNat (o % 4 * 64 + p)]

def decode : List Char → Option (List UInt8)
  | c :: d :: e :: f :: rest =>
    if b.pad ∧ f = '=' then
      if rest ≠ [] then none
      else if e = '=' then b.decodeOne c d
      else b.decodeTwo c d e
    else do
      let bytes ← b.decodeThree c d e f
      let more ← decode rest
      some (bytes ++ more)
  | [c, d, e] => if b.pad then none else b.decodeTwo c d e
  | [c, d] => if b.pad then none else b.decodeOne c d
  | [_] => none
  | [] => some []

/-- The characters of an alphabet are told apart, and none of them pads. -/
structure Proper : Prop where
  value_char : ∀ n < 64, b.value (b.char n) = some n
  value_pad : b.value '=' = none

theorem proper_standard : standard.Proper := ⟨by decide, by decide⟩

theorem proper_urlSafeNoPad : urlSafeNoPad.Proper := ⟨by decide, by decide⟩

variable {b} (h : b.Proper)

include h

theorem char_ne_pad {n : Nat} (hn : n < 64) : b.char n ≠ '=' := by
  intro hpad
  have hvalue := h.value_char n hn
  rw [hpad, h.value_pad] at hvalue
  exact Option.some_ne_none n hvalue.symm

theorem decodeOne_char (x : UInt8) :
    b.decodeOne (b.char (x.toNat / 4)) (b.char (x.toNat % 4 * 16)) = some [x] := by
  have hx := x.toNat_lt
  have hbyte : x.toNat / 4 * 4 + x.toNat % 4 * 16 / 16 = x.toNat := by omega
  rw [decodeOne, h.value_char _ (by omega), h.value_char _ (by omega)]
  simp only [Option.bind_eq_bind, Option.bind_some, Nat.mul_mod_left, if_true, hbyte, UInt8.ofNat_toNat]

theorem decodeTwo_char (x y : UInt8) :
    b.decodeTwo (b.char (x.toNat / 4)) (b.char (x.toNat % 4 * 16 + y.toNat / 16))
      (b.char (y.toNat % 16 * 4)) = some [x, y] := by
  have hx := x.toNat_lt
  have hy := y.toNat_lt
  have hfirst : x.toNat / 4 * 4 + (x.toNat % 4 * 16 + y.toNat / 16) / 16 = x.toNat := by omega
  have hsecond : (x.toNat % 4 * 16 + y.toNat / 16) % 16 * 16 + y.toNat % 16 * 4 / 4 = y.toNat := by
    omega
  rw [decodeTwo, h.value_char _ (by omega), h.value_char _ (by omega), h.value_char _ (by omega)]
  simp only [Option.bind_eq_bind, Option.bind_some, Nat.mul_mod_left, if_true, hfirst, hsecond,
    UInt8.ofNat_toNat]

theorem decodeThree_char (x y z : UInt8) :
    b.decodeThree (b.char (x.toNat / 4)) (b.char (x.toNat % 4 * 16 + y.toNat / 16))
      (b.char (y.toNat % 16 * 4 + z.toNat / 64)) (b.char (z.toNat % 64)) = some [x, y, z] := by
  have hx := x.toNat_lt
  have hy := y.toNat_lt
  have hz := z.toNat_lt
  have hfirst : x.toNat / 4 * 4 + (x.toNat % 4 * 16 + y.toNat / 16) / 16 = x.toNat := by omega
  have hsecond : (x.toNat % 4 * 16 + y.toNat / 16) % 16 * 16 +
      (y.toNat % 16 * 4 + z.toNat / 64) / 4 = y.toNat := by omega
  have hthird : (y.toNat % 16 * 4 + z.toNat / 64) % 4 * 64 + z.toNat % 64 = z.toNat := by omega
  rw [decodeThree, h.value_char _ (by omega), h.value_char _ (by omega), h.value_char _ (by omega),
    h.value_char _ (by omega)]
  simp only [Option.bind_eq_bind, Option.bind_some, hfirst, hsecond, hthird, UInt8.ofNat_toNat]

/-- What is encoded is decoded. -/
theorem decode_encode (bytes : List UInt8) : b.decode (b.encode bytes) = some bytes := by
  induction bytes using encode.induct with
  | case1 x y z rest ih =>
    have hlast := char_ne_pad h (Nat.mod_lt z.toNat (show 64 > 0 by decide))
    rw [encode, decode, if_neg (fun hpad => hlast hpad.2), decodeThree_char h, ih]
    rfl
  | case2 x y =>
    have hy := y.toNat_lt
    have hthird : b.char (y.toNat % 16 * 4) ≠ '=' := char_ne_pad h (by omega)
    cases hpad : b.pad with
    | false =>
      rw [encode, padding, if_neg (by simp [hpad]), decode, if_neg (by simp [hpad])]
      exact decodeTwo_char h x y
    | true =>
      rw [encode, padding, if_pos hpad]
      simp only [List.replicate, decode, hpad, ne_eq, not_true_eq_false, if_false, if_true, and_self,
        hthird]
      exact decodeTwo_char h x y
  | case3 x =>
    cases hpad : b.pad with
    | false =>
      rw [encode, padding, if_neg (by simp [hpad]), decode, if_neg (by simp [hpad])]
      exact decodeOne_char h x
    | true =>
      rw [encode, padding, if_pos hpad]
      simp only [List.replicate, decode, hpad, ne_eq, not_true_eq_false, if_false, if_true, and_self]
      exact decodeOne_char h x
  | case4 => rfl

omit h

/-- What is encoded is written in the alphabet, and with padding. -/
theorem mem_encode {c : Char} {bytes : List UInt8} (hc : c ∈ b.encode bytes) :
    c = '=' ∧ b.pad = true ∨ ∃ n < 64, c = b.char n := by
  have hpadding : ∀ n, c ∈ b.padding n → c = '=' ∧ b.pad = true := by
    intro n hn
    rw [padding] at hn
    split at hn
    · next hpad => exact ⟨List.eq_of_mem_replicate hn, hpad⟩
    · exact absurd hn List.not_mem_nil
  induction bytes using encode.induct with
  | case1 x y z rest ih =>
    have hx := x.toNat_lt
    have hy := y.toNat_lt
    have hz := z.toNat_lt
    rw [encode, List.mem_cons, List.mem_cons, List.mem_cons, List.mem_cons] at hc
    obtain rfl | rfl | rfl | rfl | hc := hc
    · exact Or.inr ⟨_, by omega, rfl⟩
    · exact Or.inr ⟨_, by omega, rfl⟩
    · exact Or.inr ⟨_, by omega, rfl⟩
    · exact Or.inr ⟨_, by omega, rfl⟩
    · exact ih hc
  | case2 x y =>
    have hx := x.toNat_lt
    have hy := y.toNat_lt
    rw [encode, List.mem_cons, List.mem_cons, List.mem_cons] at hc
    obtain rfl | rfl | rfl | hc := hc
    · exact Or.inr ⟨_, by omega, rfl⟩
    · exact Or.inr ⟨_, by omega, rfl⟩
    · exact Or.inr ⟨_, by omega, rfl⟩
    · exact Or.inl (hpadding 1 hc)
  | case3 x =>
    have hx := x.toNat_lt
    rw [encode, List.mem_cons, List.mem_cons] at hc
    obtain rfl | rfl | hc := hc
    · exact Or.inr ⟨_, by omega, rfl⟩
    · exact Or.inr ⟨_, by omega, rfl⟩
    · exact Or.inl (hpadding 2 hc)
  | case4 => exact absurd hc List.not_mem_nil

/-- An encoding is longer than what it stands for. -/
theorem length_lt_encode {bytes : List UInt8} (hne : bytes ≠ []) : bytes.length < (b.encode bytes).length := by
  induction bytes using encode.induct with
  | case1 x y z rest ih =>
    rw [encode]
    by_cases hrest : rest = []
    · rw [hrest]
      exact Nat.lt_add_one 3
    · have hlt := ih hrest
      simp only [List.length_cons]
      omega
  | case2 x y =>
    rw [encode]
    simp only [List.length_cons, List.length_nil]
    omega
  | case3 x =>
    rw [encode]
    simp only [List.length_cons, List.length_nil]
    omega
  | case4 => exact absurd rfl hne

/-! ### One encoding only -/

theorem char_value {c : Char} {n : Nat} (h : b.value c = some n) : n < 64 ∧ b.char n = c := by
  have hofNat : ∀ k, k = c.toNat → Char.ofNat k = c := by
    rintro k rfl
    exact Char.ofNat_toNat c
  rw [value] at h
  split at h
  · next hc =>
    obtain rfl := Option.some.inj h
    refine ⟨by omega, ?_⟩
    rw [char, if_pos (by omega)]
    exact hofNat _ (by omega)
  split at h
  · next hc =>
    obtain rfl := Option.some.inj h
    refine ⟨by omega, ?_⟩
    rw [char, if_neg (by omega), if_pos (by omega)]
    exact hofNat _ (by omega)
  split at h
  · next hc =>
    obtain rfl := Option.some.inj h
    refine ⟨by omega, ?_⟩
    rw [char, if_neg (by omega), if_neg (by omega), if_pos (by omega)]
    exact hofNat _ (by omega)
  split at h
  · next hc =>
    obtain rfl := Option.some.inj h
    exact ⟨by omega, hc.symm⟩
  split at h
  · next hc =>
    obtain rfl := Option.some.inj h
    exact ⟨by omega, hc.symm⟩
  · exact absurd h.symm (Option.some_ne_none n)

theorem toNat_ofNat_of_lt {n : Nat} (hn : n < 256) : (UInt8.ofNat n).toNat = n :=
  UInt8.toNat_ofNat_of_lt hn

theorem decodeOne_eq_some {c d : Char} {bytes : List UInt8} (h : b.decodeOne c d = some bytes) :
    ∃ x : UInt8, bytes = [x] ∧ b.char (x.toNat / 4) = c ∧ b.char (x.toNat % 4 * 16) = d := by
  obtain ⟨m, hm, h⟩ := Option.bind_eq_some_iff.mp h
  obtain ⟨n, hn, h⟩ := Option.bind_eq_some_iff.mp h
  obtain ⟨hm64, hcm⟩ := char_value hm
  obtain ⟨hn64, hcn⟩ := char_value hn
  split at h
  · next hzero =>
    refine ⟨_, (Option.some.inj h).symm, ?_⟩
    rw [toNat_ofNat_of_lt (show m * 4 + n / 16 < 256 by omega),
      show (m * 4 + n / 16) / 4 = m by omega, show (m * 4 + n / 16) % 4 * 16 = n by omega]
    exact ⟨hcm, hcn⟩
  · exact absurd h.symm (Option.some_ne_none bytes)

theorem decodeTwo_eq_some {c d e : Char} {bytes : List UInt8} (h : b.decodeTwo c d e = some bytes) :
    ∃ x y : UInt8, bytes = [x,y] ∧ b.char (x.toNat / 4) = c ∧
      b.char (x.toNat % 4 * 16 + y.toNat / 16) = d ∧ b.char (y.toNat % 16 * 4) = e := by
  obtain ⟨m, hm, h⟩ := Option.bind_eq_some_iff.mp h
  obtain ⟨n, hn, h⟩ := Option.bind_eq_some_iff.mp h
  obtain ⟨o, ho, h⟩ := Option.bind_eq_some_iff.mp h
  obtain ⟨hm64, hcm⟩ := char_value hm
  obtain ⟨hn64, hcn⟩ := char_value hn
  obtain ⟨ho64, hco⟩ := char_value ho
  split at h
  · next hzero =>
    refine ⟨_, _, (Option.some.inj h).symm, ?_⟩
    rw [toNat_ofNat_of_lt (show m * 4 + n / 16 < 256 by omega),
      toNat_ofNat_of_lt (show n % 16 * 16 + o / 4 < 256 by omega),
      show (m * 4 + n / 16) / 4 = m by omega,
      show (m * 4 + n / 16) % 4 * 16 + (n % 16 * 16 + o / 4) / 16 = n by omega,
      show (n % 16 * 16 + o / 4) % 16 * 4 = o by omega]
    exact ⟨hcm, hcn, hco⟩
  · exact absurd h.symm (Option.some_ne_none bytes)

theorem decodeThree_eq_some {c d e f : Char} {bytes : List UInt8}
    (h : b.decodeThree c d e f = some bytes) :
    ∃ x y z : UInt8, bytes = [x,y,z] ∧ b.char (x.toNat / 4) = c ∧
      b.char (x.toNat % 4 * 16 + y.toNat / 16) = d ∧ b.char (y.toNat % 16 * 4 + z.toNat / 64) = e ∧
      b.char (z.toNat % 64) = f := by
  obtain ⟨m, hm, h⟩ := Option.bind_eq_some_iff.mp h
  obtain ⟨n, hn, h⟩ := Option.bind_eq_some_iff.mp h
  obtain ⟨o, ho, h⟩ := Option.bind_eq_some_iff.mp h
  obtain ⟨q, hq, h⟩ := Option.bind_eq_some_iff.mp h
  obtain ⟨hm64, hcm⟩ := char_value hm
  obtain ⟨hn64, hcn⟩ := char_value hn
  obtain ⟨ho64, hco⟩ := char_value ho
  obtain ⟨hq64, hcq⟩ := char_value hq
  refine ⟨_, _, _, (Option.some.inj h).symm, ?_⟩
  rw [toNat_ofNat_of_lt (show m * 4 + n / 16 < 256 by omega),
    toNat_ofNat_of_lt (show n % 16 * 16 + o / 4 < 256 by omega),
    toNat_ofNat_of_lt (show o % 4 * 64 + q < 256 by omega),
    show (m * 4 + n / 16) / 4 = m by omega,
    show (m * 4 + n / 16) % 4 * 16 + (n % 16 * 16 + o / 4) / 16 = n by omega,
    show (n % 16 * 16 + o / 4) % 16 * 4 + (o % 4 * 64 + q) / 64 = o by omega,
    show (o % 4 * 64 + q) % 64 = q by omega]
  exact ⟨hcm, hcn, hco, hcq⟩

/-- What is decoded is what would be encoded. -/
theorem encode_decode {s : List Char} {bytes : List UInt8} (h : b.decode s = some bytes) :
    b.encode bytes = s := by
  fun_induction decode b s generalizing bytes with
  | case1 => exact absurd h.symm (Option.some_ne_none bytes)
  | case2 c d f rest hpad hrest =>
    obtain rfl := not_not.mp hrest
    obtain ⟨x, rfl, hc, hd⟩ := decodeOne_eq_some h
    rw [encode, hc, hd, padding, if_pos hpad.1, hpad.2]
    rfl
  | case3 c d e f rest hpad hrest he =>
    obtain rfl := not_not.mp hrest
    obtain ⟨x, y, rfl, hc, hd, he⟩ := decodeTwo_eq_some h
    rw [encode, hc, hd, he, padding, if_pos hpad.1, hpad.2]
    rfl
  | case4 c d e f rest hpad ih =>
    obtain ⟨three, hthree, h⟩ := Option.bind_eq_some_iff.mp h
    obtain ⟨more, hmore, h⟩ := Option.bind_eq_some_iff.mp h
    obtain rfl := Option.some.inj h
    obtain ⟨x, y, z, rfl, hc, hd, he, hf⟩ := decodeThree_eq_some hthree
    rw [List.cons_append, List.cons_append, List.cons_append, List.nil_append, encode, hc, hd, he, hf,
      ih hmore]
  | case5 => exact absurd h.symm (Option.some_ne_none bytes)
  | case6 c d e hpad =>
    obtain ⟨x, y, rfl, hc, hd, he⟩ := decodeTwo_eq_some h
    rw [encode, hc, hd, he, padding, if_neg hpad]
  | case7 => exact absurd h.symm (Option.some_ne_none bytes)
  | case8 c d hpad =>
    obtain ⟨x, rfl, hc, hd⟩ := decodeOne_eq_some h
    rw [encode, hc, hd, padding, if_neg hpad]
  | case9 => exact absurd h.symm (Option.some_ne_none bytes)
  | case10 =>
    obtain rfl := Option.some.inj h
    rfl

end Base64

end Rav
