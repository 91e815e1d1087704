import Rav.SelfSync
import Rav.Sieve.Glob

/-!
# Sieve: the default comparator

`i;ascii-casemap` compares octets after it has mapped the ASCII letters to one case. Strings are in
UTF-8.

## Main definitions

- `octets` — the octets of a string
- `casemap`, `wildcards` — the comparator, and its characters with a meaning in patterns
- `octets_contains_iff`, `octets_is_iff` — octets are compared as the ASCII letters are
-/

namespace Rav.Sieve

def octets (s : String) : List UInt8 := s.toList.flatMap String.utf8EncodeChar

/-- Small letters are mapped to capitals. -/
def casemap (b : UInt8) : UInt8 := if 97 ≤ b ∧ b ≤ 122 then b - 32 else b

/-- `*`, `?` and the backslash. -/
def wildcards : Wildcards UInt8 := ⟨42,63,92⟩

/-- The octets of a character: an ASCII character is one, and no others are below 128. -/
theorem mem_utf8EncodeChar {b : UInt8} (hb : b < 128) {c : Char} :
    b ∈ String.utf8EncodeChar c ↔ c.val.toNat = b.toNat := by
  have hb' : b.toNat < 128 := hb
  have hc : c.val.toNat < 0x110000 := by
    have := c.valid
    simp only [UInt32.isValidChar,Nat.isValidChar] at this
    omega
  simp only [String.utf8EncodeChar]
  generalize c.val.toNat = n at hc
  split
  · simp [← UInt8.toNat_inj]
    omega
  · split
    · simp [← UInt8.toNat_inj]
      omega
    · split
      · simp [← UInt8.toNat_inj]
        omega
      · simp [← UInt8.toNat_inj]
        omega

theorem mem_octets {b : UInt8} (hb : b < 128) (s : String) :
    b ∈ octets s ↔ ∃ c ∈ s.toList, c.val.toNat = b.toNat := by
  simp only [octets,List.mem_flatMap,mem_utf8EncodeChar hb]

/-- The special characters of patterns are those of the string. -/
theorem plain_octets (s : String) : (∀ b ∈ octets s, wildcards.Plain b) ↔
    '*' ∉ s.toList ∧ '?' ∉ s.toList ∧ '\\' ∉ s.toList := by
  have hmem : ∀ (b : UInt8) (d : Char), b < 128 → d.val.toNat = b.toNat →
      (b ∈ octets s ↔ d ∈ s.toList) := by
    intro b d hb hd
    rw [mem_octets hb]
    constructor
    · rintro ⟨c,hc,h⟩
      obtain rfl : c = d := Char.ext (UInt32.toNat_inj.mp (h.trans hd.symm))
      exact hc
    · exact fun h => ⟨d,h,hd⟩
  rw [← hmem 42 '*' (by decide) rfl,← hmem 63 '?' (by decide) rfl,← hmem 92 '\\' (by decide) rfl]
  constructor
  · exact fun h => ⟨fun hm => (h 42 hm).1 rfl,fun hm => (h 63 hm).2.1 rfl,fun hm => (h 92 hm).2.2 rfl⟩
  · rintro ⟨hs,hq,hb⟩ b hmem
    refine ⟨?_,?_,?_⟩
    · rintro rfl
      exact hs hmem
    · rintro rfl
      exact hq hmem
    · rintro rfl
      exact hb hmem

/-! ### Comparing -/

/-- The first octet of a character. -/
def Leads (b : UInt8) : Prop := b < 128 ∨ 192 ≤ b

theorem selfSync_utf8 : SelfSync String.utf8EncodeChar Leads where
  led c := by
    have hc : c.val.toNat < 0x110000 := by
      have := c.valid
      simp only [UInt32.isValidChar,Nat.isValidChar] at this
      omega
    simp only [String.utf8EncodeChar,Leads,UInt8.lt_iff_toNat_lt,UInt8.le_iff_toNat_le]
    generalize c.val.toNat = n at hc
    split
    · refine ⟨_,_,rfl,?_,nofun⟩
      simp
      omega
    · split
      · refine ⟨_,_,rfl,?_,?_⟩
        · simp
          omega
        · simp
          omega
      · split
        · refine ⟨_,_,rfl,?_,?_⟩
          · simp
            omega
          · simp
            omega
        · refine ⟨_,_,rfl,?_,?_⟩
          · simp
            omega
          · simp
            omega
  eq_of_begins := by
    rintro a b ⟨t,ht⟩
    have ha := ByteArray.utf8DecodeChar?_utf8EncodeChar_append (b := t.toByteArray) (c := a)
    have hb := ByteArray.utf8DecodeChar?_utf8EncodeChar_append (b := ByteArray.empty) (c := b)
    rw [← List.toByteArray_append,ht] at ha
    rw [ByteArray.append_empty] at hb
    exact Option.some.inj (ha.symm.trans hb)

theorem casemap_of_le {b : UInt8} (hb : 128 ≤ b) : casemap b = b := by
  unfold casemap
  rw [if_neg]
  rintro ⟨-,hle⟩
  exact absurd (UInt8.le_trans hb hle) (by decide)

theorem toNat_toLower (c : Char) :
    c.toLower.toNat = if 65 ≤ c.toNat ∧ c.toNat ≤ 90 then c.toNat + 32 else c.toNat := by
  unfold Char.toLower
  simp only [Char.reduceVal, ge_iff_le, UInt32.le_iff_toNat_le, UInt32.reduceToNat, Char.toNat_val]
  split
  · next h =>
    show (c.val + 32).toNat = _
    simp only [UInt32.toNat_add, Char.toNat_val, UInt32.reduceToNat]
    omega
  · rfl

theorem toNat_toUpper (c : Char) :
    c.toUpper.toNat = if 97 ≤ c.toNat ∧ c.toNat ≤ 122 then c.toNat - 32 else c.toNat := by
  unfold Char.toUpper
  simp only [Char.reduceVal, UInt32.le_iff_toNat_le, UInt32.reduceToNat, Char.toNat_val]
  split
  · next h =>
    show (c.val + 4294967264).toNat = _
    simp only [UInt32.toNat_add, Char.toNat_val, UInt32.reduceToNat]
    omega
  · rfl

/-- Lower-casing and upper-casing the ASCII letters make the same characters one. -/
theorem toLower_eq_toLower_iff {c d : Char} : c.toLower = d.toLower ↔ c.toUpper = d.toUpper := by
  rw [← Char.toNat_inj, ← Char.toNat_inj, toNat_toLower, toNat_toLower, toNat_toUpper, toNat_toUpper]
  split_ifs <;> omega

/-- On the octets of a character the ASCII letters are mapped. -/
theorem utf8EncodeChar_toUpper (c : Char) :
    String.utf8EncodeChar c.toUpper = (String.utf8EncodeChar c).map casemap := by
  by_cases hc : c.toNat < 128
  · have hall : ∀ n < 128, String.utf8EncodeChar (Char.ofNat n).toUpper =
        (String.utf8EncodeChar (Char.ofNat n)).map casemap := by decide
    have hn := hall c.toNat hc
    rwa [Char.ofNat_toNat] at hn
  · have hupper : c.toUpper = c := by
      rw [← Char.toNat_inj, toNat_toUpper, if_neg (by omega)]
    have hfixed : ∀ b ∈ String.utf8EncodeChar c, casemap b = b := by
      intro b hb
      refine casemap_of_le (UInt8.not_lt.mp fun hlt => hc ?_)
      have hval : c.toNat = b.toNat := (mem_utf8EncodeChar hlt).mp hb
      exact hval ▸ UInt8.lt_iff_toNat_lt.mp hlt
    rw [hupper,List.map_congr_left hfixed,List.map_id']

theorem map_casemap_octets (s : String) :
    (octets s).map casemap = (s.toList.map Char.toUpper).flatMap String.utf8EncodeChar := by
  rw [octets,List.map_flatMap,List.flatMap_map]
  exact congrArg (fun f => s.toList.flatMap f) (funext fun c => (utf8EncodeChar_toUpper c).symm)

/-- A string is found in another by its octets if and only if it is by its characters. -/
theorem octets_contains_iff {a b : String} :
    (octets a).map casemap <:+: (octets b).map casemap ↔
      a.toList.map Char.toUpper <:+: b.toList.map Char.toUpper := by
  rw [map_casemap_octets,map_casemap_octets]
  exact selfSync_utf8.flatMap_infix_iff

theorem octets_is_iff {a b : String} :
    (octets a).map casemap = (octets b).map casemap ↔
      a.toList.map Char.toUpper = b.toList.map Char.toUpper := by
  rw [map_casemap_octets,map_casemap_octets]
  exact selfSync_utf8.flatMap_inj

end Rav.Sieve
