import Rav.Str

/-!
# Decoding UTF-8 with replacements

`String::from_utf8_lossy`: what begins no character is replaced, the bytes that may begin one
together, and decoding goes on behind them.

## Main definitions

- `fromUtf8Lossy` — the text of any bytes
- `utf8` — the bytes of a text
- `fromUtf8Lossy_utf8`, `fromUtf8_utf8` — they stand for the text
-/

namespace Rav

/-- The bytes that may follow the first one of a character of three or four bytes. -/
def secondBytes (lead : UInt8) : UInt8 × UInt8 :=
  if lead = 0xE0 then (0xA0, 0xBF)
  else if lead = 0xED then (0x80, 0x9F)
  else if lead = 0xF0 then (0x90, 0xBF)
  else if lead = 0xF4 then (0x80, 0x8F)
  else (0x80, 0xBF)

/-- How many bytes are replaced together where no character begins. -/
def brokenLength : List UInt8 → Nat
  | lead :: second :: rest =>
    if 0xE0 ≤ lead ∧ lead ≤ 0xF4 ∧ (secondBytes lead).1 ≤ second ∧ second ≤ (secondBytes lead).2 then
      match rest with
      | third :: _ => if 0xF0 ≤ lead ∧ 0x80 ≤ third ∧ third ≤ 0xBF then 3 else 2
      | [] => 2
    else 1
  | _ => 1

/-- The characters of so many bytes at most. -/
def lossyChars : Nat → List UInt8 → List Char
  | 0, _ => []
  | _ + 1, [] => []
  | n + 1, b :: bs =>
    match ByteArray.utf8DecodeChar? ⟨(b :: bs).toArray⟩ 0 with
    | some c => c :: lossyChars n ((b :: bs).drop c.utf8Size)
    | none => '\uFFFD' :: lossyChars n ((b :: bs).drop (brokenLength (b :: bs)))

/-- `String::from_utf8_lossy`. -/
def fromUtf8Lossy (bytes : List UInt8) : String := String.ofList (lossyChars bytes.length bytes)

/-- The bytes of a text. -/
def utf8 (s : List Char) : List UInt8 := s.flatMap String.utf8EncodeChar

theorem utf8_cons (c : Char) (s : List Char) : utf8 (c :: s) = String.utf8EncodeChar c ++ utf8 s := rfl

theorem utf8_append (s t : List Char) : utf8 (s ++ t) = utf8 s ++ utf8 t := List.flatMap_append

theorem length_le_utf8 (s : List Char) : s.length ≤ (utf8 s).length := by
  induction s with
  | nil => exact Nat.le_refl _
  | cons c s ih =>
    have hc := c.utf8Size_pos
    rw [utf8_cons, List.length_append, List.length_cons, String.length_utf8EncodeChar]
    omega

/-- The first character is decoded, whatever follows it. -/
theorem utf8DecodeChar?_cons (c : Char) (rest : List UInt8) :
    ByteArray.utf8DecodeChar? ⟨(String.utf8EncodeChar c ++ rest).toArray⟩ 0 = some c := by
  have h := ByteArray.utf8DecodeChar?_utf8EncodeChar_append (b := rest.toByteArray) (c := c)
  rw [← List.toByteArray_append] at h
  convert h using 2
  ext1
  exact List.data_toByteArray.symm

theorem lossyChars_utf8 (s : List Char) {n : Nat} (hn : s.length ≤ n) : lossyChars n (utf8 s) = s := by
  induction s generalizing n with
  | nil => cases n <;> rfl
  | cons c s ih =>
    obtain ⟨n, rfl⟩ := Nat.exists_eq_add_of_le' (Nat.le_trans (Nat.le_add_left 1 _) hn)
    have hlength := String.length_utf8EncodeChar c
    have hdrop : (String.utf8EncodeChar c ++ utf8 s).drop c.utf8Size = utf8 s := by
      rw [← hlength, List.drop_left]
    have hdecode := utf8DecodeChar?_cons c (utf8 s)
    rw [utf8_cons]
    cases hbytes : String.utf8EncodeChar c ++ utf8 s with
    | nil =>
      have hpos := c.utf8Size_pos
      have hzero := congrArg List.length hbytes
      rw [List.length_append, List.length_nil] at hzero
      omega
    | cons b bs =>
      rw [hbytes] at hdrop hdecode
      rw [lossyChars, hdecode]
      dsimp only
      rw [hdrop, ih (Nat.le_of_succ_le_succ hn)]

/-- The bytes of a text stand for it. -/
theorem fromUtf8Lossy_utf8 (s : List Char) : fromUtf8Lossy (utf8 s) = String.ofList s := by
  rw [fromUtf8Lossy, lossyChars_utf8 s (length_le_utf8 s)]

theorem toByteArray_utf8 (s : List Char) : (⟨(utf8 s).toArray⟩ : ByteArray) = (String.ofList s).toByteArray := by
  rw [String.toByteArray_ofList,List.utf8Encode]
  ext1
  exact List.data_toByteArray.symm

/-- The bytes of a text are valid. -/
theorem fromUtf8_utf8 (s : List Char) : fromUtf8 (utf8 s) = some (String.ofList s) := by
  rw [fromUtf8, toByteArray_utf8, String.fromUTF8?, dif_pos (String.ofList s).isValidUTF8]
  rfl

/-- Bytes that are valid are those of the text. -/
theorem utf8_of_fromUtf8 {bytes : List UInt8} {s : String} (h : fromUtf8 bytes = some s) :
    utf8 s.toList = bytes := by
  rw [fromUtf8,String.fromUTF8?] at h
  split at h
  · next hvalid =>
    obtain rfl := Option.some.inj h
    have hbytes := toByteArray_utf8 (String.fromUTF8 ⟨bytes.toArray⟩ hvalid).toList
    rw [String.ofList_toList] at hbytes
    exact List.toArray_inj (congrArg ByteArray.data hbytes)
  · exact absurd h.symm (Option.some_ne_none s)

/-- Texts are told apart by their bytes. -/
theorem utf8_injective {s t : List Char} (h : utf8 s = utf8 t) : s = t := by
  have hs := fromUtf8_utf8 s
  rw [h, fromUtf8_utf8] at hs
  exact (String.ofList_injective (Option.some.inj hs)).symm

/-- A character of ASCII is one byte. -/
theorem utf8EncodeChar_ascii {c : Char} (h : c.toNat < 128) :
    String.utf8EncodeChar c = [UInt8.ofNat c.toNat] := by
  have hval : c.val ≤ 127 := UInt32.le_iff_toNat_le.mpr (Nat.le_of_lt_succ h)
  rw [String.utf8EncodeChar_eq_singleton (Char.utf8Size_eq_one_iff.mpr hval)]
  rfl

end Rav
