import Rav.Bits
import Rav.Utf8

/-!
# `routes::pgp`: keys by address

The name under which a mail domain publishes the OpenPGP key of a local part: the SHA-1 hash of the
local part in lower case, written in z-base-32. The bytes are shifted through a register of 32 bits,
from which five at a time are taken; what is left over is filled up with zeros. SHA-1 and
`str::to_lowercase` are parameters.

## Main definitions

- `zbase32Encode` — z-base-32
- `wkdHash` — the name of a local part
- `symbolBits`, `byteBits` — the bits a character and a byte stand for
- `zbase32Encode_spec` — the bits of the text are those of the data
- `wkdHash_eq_iff` — names are equal where the hashes are
-/

namespace Rav

def zbase32Alphabet : List Char := "ybndrfg8ejkmcpqxot1uwisza345h769".toList

/-- `ZBASE32_ALPHABET[idx] as char`; an index has five bits. -/
def zbase32Symbol (idx : UInt32) : Char := zbase32Alphabet.getD idx.toNat 'y'

/-- The local variables of the encoder. -/
structure ZBase32 where
  result : List Char
  buffer : UInt32
  bitsLeft : Nat

namespace ZBase32

/-- `while bits_left >= 5`: the characters that are pushed, and the bits that are left. -/
def groups (buffer : UInt32) : Nat → List Char × Nat
  | bitsLeft + 5 =>
    let idx := (buffer >>> UInt32.ofNat bitsLeft) &&& 0x1f
    let more := groups buffer bitsLeft
    (zbase32Symbol idx :: more.1,more.2)
  | bitsLeft => ([],bitsLeft)

def push (z : ZBase32) (byte : UInt8) : ZBase32 :=
  let buffer := (z.buffer <<< 8) ||| byte.toUInt32
  let more := groups buffer (z.bitsLeft + 8)
  ⟨z.result ++ more.1,buffer,more.2⟩

end ZBase32

def zbase32Encode (data : List UInt8) : String :=
  let z := data.foldl ZBase32.push ⟨[],0,0⟩
  if z.bitsLeft > 0 then
    let idx := (z.buffer <<< UInt32.ofNat (5 - z.bitsLeft)) &&& 0x1f
    String.ofList (z.result ++ [zbase32Symbol idx])
  else String.ofList z.result

/-- Compute the WKD SHA-1 + Z-base-32 hash of a local-part string. -/
def wkdHash (sha1 : List UInt8 → List UInt8) (toLowercase : String → String) (localPart : String) : String :=
  zbase32Encode (sha1 (utf8 (toLowercase localPart).toList))

/-! ### What a text stands for -/

/-- The five bits of a character of the alphabet. -/
def symbolBits (c : Char) : List Bool := bits 5 (zbase32Alphabet.idxOf c)

def byteBits (byte : UInt8) : List Bool := bits 8 byte.toNat

theorem length_symbolBits (c : Char) : (symbolBits c).length = 5 := length_bits 5 _

theorem length_byteBits (byte : UInt8) : (byteBits byte).length = 8 := length_bits 8 _

theorem byteBits_inj (a b : UInt8) (h : byteBits a = byteBits b) : a = b :=
  UInt8.toNat_inj.mp (bits_inj a.toNat_lt b.toNat_lt h)

theorem idxOf_zbase32Symbol : ∀ n < 32, zbase32Alphabet.idxOf (zbase32Alphabet.getD n 'y') = n := by
  decide

theorem zbase32Symbol_mem : ∀ n < 32, zbase32Alphabet.getD n 'y' ∈ zbase32Alphabet := by
  decide

/-- What is taken from the register is below 32. -/
theorem toNat_and_mask (x : UInt32) : (x &&& 0x1f).toNat = x.toNat % 32 := by
  rw [UInt32.toNat_and]
  exact Nat.and_two_pow_sub_one_eq_mod x.toNat 5

theorem zbase32Symbol_mask_mem (x : UInt32) : zbase32Symbol (x &&& 0x1f) ∈ zbase32Alphabet := by
  apply zbase32Symbol_mem
  rw [toNat_and_mask]
  exact Nat.mod_lt _ (by decide)

/-- A character that is pushed stands for the low bits of what it is taken from. -/
theorem symbolBits_mask (x : UInt32) : symbolBits (zbase32Symbol (x &&& 0x1f)) = bits 5 x.toNat := by
  have hlt : x.toNat % 32 < 32 := Nat.mod_lt _ (by decide)
  rw [symbolBits, zbase32Symbol, toNat_and_mask, idxOf_zbase32Symbol _ hlt]
  apply bits_congr
  intro i hi
  exact (Nat.testBit_mod_two_pow x.toNat 5 i).trans (by simp [hi])

theorem toNat_shiftRight_ofNat (x : UInt32) {n : Nat} (hn : n < 32) :
    (x >>> UInt32.ofNat n).toNat = x.toNat >>> n := by
  have htoNat : (UInt32.ofNat n).toNat = n := UInt32.toNat_ofNat_of_lt (Nat.lt_trans hn (by decide))
  rw [UInt32.toNat_shiftRight, htoNat, Nat.mod_eq_of_lt hn]

namespace ZBase32

/-- The characters that are pushed stand for the bits that are taken, and fewer than five are left. -/
theorem groups_spec (buffer : UInt32) {n : Nat} (hn : n < 32) :
    (groups buffer n).1.flatMap symbolBits ++ bits (groups buffer n).2 buffer.toNat =
        bits n buffer.toNat ∧
      (groups buffer n).2 < 5 ∧ ∀ c ∈ (groups buffer n).1, c ∈ zbase32Alphabet := by
  fun_induction groups buffer n with
  | case1 n idx more ih =>
    obtain ⟨hbits, hleft, hmem⟩ := ih (by omega)
    refine ⟨?_, hleft, ?_⟩
    · have hhead := symbolBits_mask (buffer >>> UInt32.ofNat n)
      rw [toNat_shiftRight_ofNat buffer (show n < 32 by omega)] at hhead
      rw [List.flatMap_cons, List.append_assoc, hbits, hhead, ← bits_add, Nat.add_comm 5 n]
    · intro c hc
      obtain rfl | hc := List.mem_cons.mp hc
      · exact zbase32Symbol_mask_mem _
      · exact hmem c hc
  | case2 n h =>
    refine ⟨rfl, ?_, fun c hc => absurd hc List.not_mem_nil⟩
    by_contra hlt
    exact h (n - 5) (by omega)

/-- The register holds the bits it held and those of the byte. -/
theorem bits_shift_or (buffer : UInt32) (byte : UInt8) {n : Nat} (hn : n < 5) :
    bits (n + 8) ((buffer <<< 8) ||| byte.toUInt32).toNat = bits n buffer.toNat ++ byteBits byte := by
  have hbyte := byte.toNat_lt
  have hvalue : ((buffer <<< 8) ||| byte.toUInt32).toNat =
      (buffer.toNat <<< 8) % 2 ^ 32 ||| byte.toNat := by
    rw [UInt32.toNat_or, UInt32.toNat_shiftLeft, UInt8.toNat_toUInt32]
    rfl
  have hhigh : ∀ i, 8 ≤ i → byte.toNat.testBit i = false := by
    intro i hi
    have hpow : 2 ^ 8 ≤ 2 ^ i := Nat.pow_le_pow_right (by omega) hi
    exact Nat.testBit_lt_two_pow (by omega)
  rw [hvalue, bits_add, byteBits]
  congr 1
  · apply bits_congr
    intro i hi
    rw [Nat.testBit_shiftRight, Nat.testBit_or, Nat.testBit_mod_two_pow, Nat.testBit_shiftLeft,
      hhigh (8 + i) (by omega), Bool.or_false]
    simp only [show 8 + i < 32 by omega, show 8 + i ≥ 8 by omega, decide_true, Bool.true_and,
      Nat.add_sub_cancel_left]
  · apply bits_congr
    intro i hi
    rw [Nat.testBit_or, Nat.testBit_mod_two_pow, Nat.testBit_shiftLeft]
    simp only [show ¬i ≥ 8 by omega, decide_false, Bool.false_and, Bool.and_false, Bool.false_or]

/-- The characters so far and the bits that are left stand for these bytes. -/
structure Denotes (z : ZBase32) (data : List UInt8) : Prop where
  bits : z.result.flatMap symbolBits ++ Rav.bits z.bitsLeft z.buffer.toNat = data.flatMap byteBits
  left : z.bitsLeft < 5
  mem : ∀ c ∈ z.result, c ∈ zbase32Alphabet

theorem denotes_push {z : ZBase32} {data : List UInt8} (h : z.Denotes data) (byte : UInt8) :
    (z.push byte).Denotes (data ++ [byte]) := by
  have hleft := h.left
  obtain ⟨hbits, hmore, hmem⟩ :=
    groups_spec ((z.buffer <<< 8) ||| byte.toUInt32) (n := z.bitsLeft + 8) (by omega)
  constructor
  · rw [push, List.flatMap_append, List.append_assoc, hbits, bits_shift_or _ _ hleft,
      ← List.append_assoc, h.bits, List.flatMap_append, List.flatMap_singleton]
  · exact hmore
  · intro c hc
    obtain hc | hc := List.mem_append.mp hc
    · exact h.mem c hc
    · exact hmem c hc

theorem denotes_foldl {z : ZBase32} {before : List UInt8} (h : z.Denotes before) (data : List UInt8) :
    (data.foldl push z).Denotes (before ++ data) := by
  induction data generalizing z before with
  | nil => rwa [List.append_nil]
  | cons byte data ih =>
    have hnext := ih (denotes_push h byte)
    rwa [List.append_assoc] at hnext

end ZBase32

/-- The last bits, with zeros behind them. -/
theorem symbolBits_last (buffer : UInt32) {n : Nat} (hn : n < 5) :
    symbolBits (zbase32Symbol ((buffer <<< UInt32.ofNat (5 - n)) &&& 0x1f)) =
      bits n buffer.toNat ++ List.replicate (5 - n) false := by
  have htoNat : (UInt32.ofNat (5 - n)).toNat = 5 - n :=
    UInt32.toNat_ofNat_of_lt (Nat.lt_of_le_of_lt (Nat.sub_le 5 n) (by decide))
  have hshift : (buffer <<< UInt32.ofNat (5 - n)).toNat = buffer.toNat <<< (5 - n) % 2 ^ 32 := by
    rw [UInt32.toNat_shiftLeft, htoNat, Nat.mod_eq_of_lt (show 5 - n < 32 by omega)]
  have hcut := bits_add n (5 - n) (buffer.toNat <<< (5 - n) % 2 ^ 32)
  rw [show n + (5 - n) = 5 by omega] at hcut
  rw [symbolBits_mask, hshift, hcut, ← bits_zero]
  congr 1
  · apply bits_congr
    intro i hi
    rw [Nat.testBit_shiftRight, Nat.testBit_mod_two_pow, Nat.testBit_shiftLeft]
    simp only [show 5 - n + i < 32 by omega, show 5 - n + i ≥ 5 - n by omega, decide_true,
      Bool.true_and, Nat.add_sub_cancel_left]
  · apply bits_congr
    intro i hi
    rw [Nat.testBit_mod_two_pow, Nat.testBit_shiftLeft, Nat.zero_testBit]
    simp only [show ¬i ≥ 5 - n by omega, decide_false, Bool.false_and, Bool.and_false]

/-- The bits of the text are those of the data, with fewer than five zeros behind them. -/
theorem zbase32Encode_bits (data : List UInt8) :
    (∀ c ∈ (zbase32Encode data).toList, c ∈ zbase32Alphabet) ∧
      ∃ pad < 5, (zbase32Encode data).toList.flatMap symbolBits =
        data.flatMap byteBits ++ List.replicate pad false := by
  have hstart : ZBase32.Denotes ⟨[],0,0⟩ [] := ⟨rfl, by decide, fun c hc => absurd hc List.not_mem_nil⟩
  have h := ZBase32.denotes_foldl hstart data
  rw [List.nil_append] at h
  generalize hz : data.foldl ZBase32.push ⟨[],0,0⟩ = z at h
  have hleft := h.left
  rw [zbase32Encode, hz]
  dsimp only
  split
  · next hpos =>
    rw [String.toList_ofList]
    refine ⟨?_, 5 - z.bitsLeft, by omega, ?_⟩
    · intro c hc
      obtain hc | hc := List.mem_append.mp hc
      · exact h.mem c hc
      · rw [List.mem_singleton.mp hc]
        exact zbase32Symbol_mask_mem _
    · rw [List.flatMap_append, List.flatMap_singleton, symbolBits_last _ hleft, ← List.append_assoc,
        h.bits]
  · next hzero =>
    rw [String.toList_ofList]
    refine ⟨h.mem, 0, by decide, ?_⟩
    have hbits := h.bits
    rw [show z.bitsLeft = 0 by omega, bits, List.append_nil] at hbits
    exact hbits.trans (List.append_nil _).symm

/-- A text has as many characters as its bits take. -/
theorem length_zbase32Encode (data : List UInt8) :
    (zbase32Encode data).toList.length = (8 * data.length + 4) / 5 := by
  obtain ⟨-, pad, hpad, h⟩ := zbase32Encode_bits data
  have hlen := congrArg List.length h
  rw [length_flatMap_of_length length_symbolBits, List.length_append,
    length_flatMap_of_length length_byteBits, List.length_replicate] at hlen
  omega

/-- Different data have different texts. -/
theorem zbase32Encode_inj {data data' : List UInt8} (h : zbase32Encode data = zbase32Encode data') :
    data = data' := by
  obtain ⟨-, pad, hpad, hbits⟩ := zbase32Encode_bits data
  obtain ⟨-, pad', hpad', hbits'⟩ := zbase32Encode_bits data'
  have hlen := length_zbase32Encode data
  have hlen' := length_zbase32Encode data'
  rw [h] at hlen hbits
  have hsame : data.length = data'.length := by omega
  have hcut := (hbits.symm.trans hbits')
  have hwords := List.append_inj_left hcut (by
    rw [length_flatMap_of_length length_byteBits, length_flatMap_of_length length_byteBits, hsame])
  exact flatMap_inj_of_length length_byteBits byteBits_inj hsame hwords

/-- The text of any data is over the alphabet and stands for their bits, filled up with fewer than five
zeros; it has no more characters than these take, and no other data have it. -/
theorem zbase32Encode_spec (data : List UInt8) :
    (∀ c ∈ (zbase32Encode data).toList, c ∈ zbase32Alphabet) ∧
      (∃ pad < 5, (zbase32Encode data).toList.flatMap symbolBits =
        data.flatMap byteBits ++ List.replicate pad false) ∧
      (zbase32Encode data).toList.length = (8 * data.length + 4) / 5 ∧
      ∀ data', zbase32Encode data' = zbase32Encode data ↔ data' = data := by
  obtain ⟨hmem, hbits⟩ := zbase32Encode_bits data
  refine ⟨hmem, hbits, length_zbase32Encode data, fun data' => ⟨zbase32Encode_inj, ?_⟩⟩
  rintro rfl
  rfl

/-- Two local parts are looked up under one name exactly if their hashes agree. -/
theorem wkdHash_eq_iff {sha1 : List UInt8 → List UInt8} {toLowercase : String → String} {a b : String} :
    wkdHash sha1 toLowercase a = wkdHash sha1 toLowercase b ↔
      sha1 (utf8 (toLowercase a).toList) = sha1 (utf8 (toLowercase b).toList) := by
  constructor
  · exact zbase32Encode_inj
  · intro h
    rw [wkdHash, wkdHash, h]

example : zbase32Encode [0x08,0x42,0x10,0x84,0x21] = "bbbbbbbb" := by decide

end Rav
