import Rav.Base64
import Rav.Error
import Rav.Utf8

/-!
# `folder_cipher`

Folder names are sent to the browser under a key derived from the session: a nonce, the AES-256-GCM
ciphertext of the name and its tag, as base64. The key stream and the tag of the cipher are parameters;
the nonce that `encrypt` draws is an argument.

## Main definitions

- `Aes256Gcm`, with `encrypt` and `decrypt` — counter mode with a tag
- `FolderCipher.encrypt`, `FolderCipher.decrypt`
- `FolderCipher.decrypt_eq_ok_iff` — the ids that are accepted are the ids of nonempty names
-/

namespace Rav

/-- AES-256-GCM: the key stream of a key and a nonce, and the tag of a ciphertext, of 16 bytes. -/
structure Aes256Gcm where
  keystream : (key nonce : List UInt8) → Nat → UInt8
  tag : (key nonce ciphertext : List UInt8) → List UInt8
  length_tag : ∀ key nonce ciphertext, (tag key nonce ciphertext).length = 16

namespace Aes256Gcm

/-- Counter mode, either way. -/
def applyKeystream (stream : Nat → UInt8) (text : List UInt8) : List UInt8 :=
  text.mapIdx (fun i b => b ^^^ stream i)

variable (aes : Aes256Gcm) (key nonce : List UInt8)

def encrypt (plaintext : List UInt8) : List UInt8 :=
  let ciphertext := applyKeystream (aes.keystream key nonce) plaintext
  ciphertext ++ aes.tag key nonce ciphertext

/-- The tag, which stands at the end, is checked first. -/
def decrypt (text : List UInt8) : Option (List UInt8) :=
  if text.length < 16 then none
  else
    let ciphertext := text.take (text.length - 16)
    if text.drop (text.length - 16) = aes.tag key nonce ciphertext then
      some (applyKeystream (aes.keystream key nonce) ciphertext)
    else none

theorem applyKeystream_twice (stream : Nat → UInt8) (text : List UInt8) :
    applyKeystream stream (applyKeystream stream text) = text := by
  rw [applyKeystream, applyKeystream, List.mapIdx_mapIdx]
  apply List.ext_getElem
  · rw [List.length_mapIdx]
  · intro i hi hi'
    rw [List.getElem_mapIdx, Function.comp_apply, UInt8.xor_assoc, UInt8.xor_self, UInt8.xor_zero]

theorem length_encrypt (plaintext : List UInt8) :
    (aes.encrypt key nonce plaintext).length = plaintext.length + 16 := by
  rw [encrypt, List.length_append, aes.length_tag, applyKeystream, List.length_mapIdx]

theorem decrypt_encrypt (plaintext : List UInt8) :
    aes.decrypt key nonce (aes.encrypt key nonce plaintext) = some plaintext := by
  have hlength := aes.length_encrypt key nonce plaintext
  have hcipher : (applyKeystream (aes.keystream key nonce) plaintext).length = plaintext.length :=
    List.length_mapIdx
  rw [decrypt, if_neg (by omega), hlength, Nat.add_sub_cancel, encrypt, ← hcipher, List.take_left,
    List.drop_left, if_pos rfl, applyKeystream_twice]

/-- The tag is computed anew, so what is decrypted is what would be encrypted. -/
theorem encrypt_of_decrypt {text plaintext : List UInt8} (h : aes.decrypt key nonce text = some plaintext) :
    aes.encrypt key nonce plaintext = text := by
  rw [decrypt] at h
  split at h
  · exact absurd h.symm (Option.some_ne_none plaintext)
  dsimp only at h
  split at h
  · next htag =>
    obtain rfl := Option.some.inj h
    rw [encrypt, applyKeystream_twice, ← htag, List.take_append_drop]
  · exact absurd h.symm (Option.some_ne_none plaintext)

end Aes256Gcm

abbrev FolderId := String

structure FolderCipher where
  aes : Aes256Gcm
  key : List UInt8

namespace FolderCipher

variable (c : FolderCipher)

/-- Encrypts a folder name under a fresh nonce. -/
def encrypt (nonceBytes : List UInt8) (folderName : String) : FolderId :=
  let ciphertext := c.aes.encrypt c.key nonceBytes (utf8 folderName.toList)
  String.ofList (Base64.urlSafeNoPad.encode (nonceBytes ++ ciphertext))

def invalidFolderId : AppError := .badRequest "Invalid folder ID"

/-- Decrypts a folder ID back to the IMAP folder name. -/
def decrypt (folderId : FolderId) : Except AppError String :=
  match Base64.urlSafeNoPad.decode folderId.toList with
  | none => .error invalidFolderId
  | some bytes =>
    -- nonce, one byte of ciphertext and tag
    if bytes.length < 29 then .error invalidFolderId
    else
      match c.aes.decrypt c.key (bytes.take 12) (bytes.drop 12) with
      | none => .error invalidFolderId
      | some plaintext =>
        match fromUtf8 plaintext with
        | none => .error invalidFolderId
        | some folderName => .ok folderName

variable {c} {id : FolderId} {name : String}

theorem decrypt_encrypt {nonce : List UInt8} (hnonce : nonce.length = 12)
    (hname : name ≠ "") : c.decrypt (c.encrypt nonce name) = .ok name := by
  have hbytes : 0 < (utf8 name.toList).length := by
    have hpos : 0 < name.toList.length := by
      apply List.length_pos_of_ne_nil
      intro hnil
      exact hname (String.toList_inj.mp hnil)
    exact Nat.lt_of_lt_of_le hpos (length_le_utf8 name.toList)
  rw [decrypt, encrypt, String.toList_ofList, Base64.decode_encode Base64.proper_urlSafeNoPad]
  dsimp only
  have hlength := c.aes.length_encrypt c.key nonce (utf8 name.toList)
  rw [if_neg (by rw [List.length_append, hnonce, hlength]; omega), ← hnonce, List.take_left, List.drop_left,
    c.aes.decrypt_encrypt]
  dsimp only
  rw [fromUtf8_utf8, String.ofList_toList]

theorem encrypt_of_decrypt (hok : c.decrypt id = .ok name) :
    name ≠ "" ∧ ∃ nonce, nonce.length = 12 ∧ id = c.encrypt nonce name := by
  rw [decrypt] at hok
  split at hok
  · exact absurd hok (by simp)
  next bytes hbytes =>
  split at hok
  · exact absurd hok (by simp)
  next hlong =>
  split at hok
  · exact absurd hok (by simp)
  next plaintext hplain =>
  split at hok
  · exact absurd hok (by simp)
  next folderName hutf8 =>
  obtain rfl := Except.ok.inj hok
  have hplaintext := utf8_of_fromUtf8 hutf8
  have hcipher := c.aes.encrypt_of_decrypt c.key (bytes.take 12) hplain
  have hlength := c.aes.length_encrypt c.key (bytes.take 12) plaintext
  rw [hcipher, List.length_drop] at hlength
  refine ⟨?_, bytes.take 12, ?_, ?_⟩
  · rintro rfl
    rw [← hplaintext] at hlength
    have hzero : (utf8 "".toList).length = 0 := rfl
    omega
  · rw [List.length_take]
    omega
  · rw [encrypt, hplaintext, hcipher, List.take_append_drop, Base64.encode_decode hbytes,
      String.ofList_toList]

/-- An id opens as a name exactly if the name is nonempty and the id is its encryption under some nonce. -/
theorem decrypt_eq_ok_iff : c.decrypt id = .ok name ↔
    name ≠ "" ∧ ∃ nonce : List UInt8, nonce.length = 12 ∧ id = c.encrypt nonce name := by
  constructor
  · exact encrypt_of_decrypt
  · rintro ⟨hname, nonce, hnonce, rfl⟩
    exact decrypt_encrypt hnonce hname

/-- Every failure is the same. -/
theorem decrypt_eq_error {e : AppError} (he : c.decrypt id = .error e) : e = invalidFolderId := by
  rw [decrypt] at he
  split at he
  · exact (Except.error.inj he).symm
  split at he
  · exact (Except.error.inj he).symm
  split at he
  · exact (Except.error.inj he).symm
  split at he
  · exact (Except.error.inj he).symm
  · exact absurd he (by simp)

end FolderCipher

end Rav
