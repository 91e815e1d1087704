import Mathlib.Logic.Basic
import Rav.Str
import Rav.Mfa.Requests

/-!
# One mailbox, two spellings

The name of a user's data directory is the SHA-256 hash of the email address, in hexadecimal; the hash
itself is a parameter. The database of a user is found by the hash of the address as it was typed. Two
spellings of an address that differ in the case of a letter are one mailbox to the IMAP server and two
users here, each with a second factor of its own.

## Main definitions

- `hashEmail`
- `MailServer` — the stored users by the name of their directory
- `gateMet` — the second-factor gate a login meets
- `SameDatabase`, `SameGate` — two addresses are one user
-/

namespace Rav

/-- Two lowercase hex digits of a byte. -/
def hexByte (b : UInt8) : List Char :=
  [Nat.digitChar (b.toNat / 16),Nat.digitChar (b.toNat % 16)]

/-- `hash_email`, under the hash function `sha256`. -/
def hashEmail (sha256 : List UInt8 → List UInt8) (email : String) : String :=
  String.ofList ((sha256 email.toUTF8.data.toList).flatMap hexByte)

/-! ### Hexadecimal loses nothing -/

theorem digitChar_inj {m n : Nat} (hm : m < 16) (hn : n < 16)
    (h : Nat.digitChar m = Nat.digitChar n) : m = n := by
  have hall : ∀ i j : Fin 16, Nat.digitChar i = Nat.digitChar j → i = j := by decide
  exact congrArg Fin.val (hall ⟨m,hm⟩ ⟨n,hn⟩ h)

theorem hexByte_inj {a b : UInt8} (h : hexByte a = hexByte b) : a = b := by
  have ha : a.toNat < 256 := a.toNat_lt
  have hb : b.toNat < 256 := b.toNat_lt
  obtain ⟨hhigh,hlow⟩ := List.cons.inj h
  have hdiv : a.toNat / 16 = b.toNat / 16 := digitChar_inj (by omega) (by omega) hhigh
  have hmod : a.toNat % 16 = b.toNat % 16 :=
    digitChar_inj (by omega) (by omega) (List.cons.inj hlow).1
  exact UInt8.toNat_inj.mp (by omega)

theorem flatMap_hexByte_inj {as bs : List UInt8} (h : as.flatMap hexByte = bs.flatMap hexByte) :
    as = bs := by
  induction as generalizing bs with
  | nil =>
    cases bs with
    | nil => rfl
    | cons b bs => simp [hexByte] at h
  | cons a as ih =>
    cases bs with
    | nil => simp [hexByte] at h
    | cons b bs =>
      rw [List.flatMap_cons,List.flatMap_cons] at h
      obtain ⟨hbyte,hrest⟩ := List.append_inj h rfl
      rw [hexByte_inj hbyte,ih hrest]

theorem utf8_inj {a b : String} (h : a.toUTF8.data.toList = b.toUTF8.data.toList) : a = b :=
  String.toByteArray_inj.mp (ByteArray.ext (Array.toList_inj.mp h))

/-- Two addresses share a directory exactly if they share a hash. -/
theorem hashEmail_eq_iff {sha256 : List UInt8 → List UInt8} {a b : String} :
    hashEmail sha256 a = hashEmail sha256 b ↔
      sha256 a.toUTF8.data.toList = sha256 b.toUTF8.data.toList := by
  constructor
  · intro h
    exact flatMap_hexByte_inj (String.ofList_injective h)
  · intro h
    rw [hashEmail,hashEmail,h]

/-! ### Spellings -/

/-- No letter is white space, in either case. -/
theorem toLower_of_isWhitespace {c : Char}
    (h : isWhitespace c = true ∨ isWhitespace c.toLower = true) : c.toLower = c := by
  by_cases hc : 65 ≤ c.toNat ∧ c.toNat ≤ 90
  · have hall : ∀ i : Fin 26, isWhitespace (Char.ofNat (65 + i)) = false ∧
        isWhitespace (Char.ofNat (65 + i)).toLower = false := by
      decide
    have hi := hall ⟨c.toNat - 65,by omega⟩
    rw [show 65 + (c.toNat - 65) = c.toNat by omega,Char.ofNat_toNat] at hi
    rw [hi.1,hi.2] at h
    simp at h
  · unfold Char.toLower
    exact dif_neg hc

/-- White space is spelled in one way. -/
theorem eq_of_blank {a b : String} (hcase : eqIgnoreAsciiCase a b = true)
    (ha : strTrim a = "") : a = b := by
  have hmap : a.toList.map Char.toLower = b.toList.map Char.toLower := of_decide_eq_true hcase
  have hblank := isWhitespace_of_strTrim ha
  refine String.toList_inj.mp ?_
  generalize a.toList = as at hmap hblank
  generalize b.toList = bs at hmap
  induction as generalizing bs with
  | nil => exact (List.map_eq_nil_iff.mp hmap.symm).symm
  | cons c as ih =>
    cases bs with
    | nil => simp at hmap
    | cons d bs =>
      obtain ⟨hcd,hrest⟩ := List.cons.inj hmap
      have hc : isWhitespace c = true := hblank c List.mem_cons_self
      have hclow : c.toLower = c := toLower_of_isWhitespace (Or.inl hc)
      have hd : d.toLower = d := toLower_of_isWhitespace (Or.inr (by rw [← hcd,hclow]; exact hc))
      rw [← hclow,hcd,hd,ih (fun x hx => hblank x (List.mem_cons_of_mem _ hx)) bs hrest]

end Rav

namespace Rav

/-- A user's directory, if it is there, and the database in it. -/
structure UserDir where
  exists? : Bool
  db : MfaDb

/-- The stored users by the name of their directory, the clock and the session store. -/
structure MailServer where
  users : String → UserDir
  now : Nat
  store : SessionStore

/-- The user with a hash, as a request of theirs finds it. -/
def MailServer.world (s : MailServer) (userHash : String) : MfaWorld :=
  ⟨(s.users userHash).exists?,(s.users userHash).db,s.now,s.store,[]⟩

/-- The libraries, with addresses hashed by `hashEmail`. -/
def MfaEnv.hashing (env : MfaEnv) (sha256 : List UInt8 → List UInt8) : MfaEnv :=
  { env with hashEmail := Rav.hashEmail sha256 }

section Defs

variable (env : MfaEnv)

/-- The user a login finds. -/
def userOf (s : MailServer) (body : LoginRequest) : MfaWorld := s.world (env.hashEmail body.email)

/-- The gate a login meets, unless it is refused for lack of an address or a password. -/
def gateMet (s : MailServer) (weathers : Nat → MfaWeather) (body : LoginRequest) :
    Option MfaGate :=
  if strTrim body.email = "" ∨ strTrim body.password = "" then none
  else some ((mfaGate env body.totpCode).exec env weathers (userOf env s body)).1

/-- The request under another address. -/
def LoginRequest.under (body : LoginRequest) (email : String) : LoginRequest :=
  { body with email }

/-- Logins under the two addresses read one database, whatever is stored. -/
def SameDatabase (a b : String) : Prop :=
  ∀ (s : MailServer) (body : LoginRequest),
    userOf env s (body.under a) = userOf env s (body.under b)

/-- Logins under the two addresses meet one gate, whatever is stored and whatever fails. -/
def SameGate (a b : String) : Prop :=
  ∀ (s : MailServer) (weathers : Nat → MfaWeather) (body : LoginRequest),
    gateMet env s weathers (body.under a) = gateMet env s weathers (body.under b)

end Defs

/-! ### Two spellings are two users -/

/-- The user with the hash logs in with a passkey only; nobody else is stored. -/
def onlyUser (userHash : String) : MailServer where
  users h := ⟨decide (h = userHash),⟨none,.empty,⟨0,none,none⟩,decide (h = userHash)⟩⟩
  now := 0
  store := .new 0

section Spellings

variable {env : MfaEnv} {userHash h : String}

theorem world_onlyUser : (onlyUser userHash).world h =
    ⟨decide (h = userHash),⟨none,.empty,⟨0,none,none⟩,decide (h = userHash)⟩,0,.new 0,[]⟩ := rfl

theorem gate_onlyUser (code : Option String) :
    ((mfaGate env code).exec env (fun _ => fair) ((onlyUser userHash).world userHash)).1 =
      .passkeyOnly := by
  rw [world_onlyUser,decide_eq_true rfl]
  rfl

theorem gate_nobody (code : Option String) (hne : h ≠ userHash) :
    ((mfaGate env code).exec env (fun _ => fair) ((onlyUser userHash).world h)).1 = .skip := by
  rw [world_onlyUser,decide_eq_false hne]
  rfl

/-- A request with a password. -/
def anyLogin : LoginRequest := ⟨"","p",false,none,none,none,none,none,none,none,none⟩

theorem gateMet_anyLogin {s : MailServer} {weathers : Nat → MfaWeather} {email : String}
    (hblank : strTrim email ≠ "") : gateMet env s weathers (anyLogin.under email) =
      some ((mfaGate env none).exec env weathers (s.world (env.hashEmail email))).1 := by
  refine if_neg ?_
  rintro (hemail | hpassword)
  · exact hblank hemail
  · exact absurd hpassword (show strTrim "p" ≠ "" by decide)

variable {a b : String}

theorem sameDatabase_iff : SameDatabase env a b ↔ env.hashEmail a = env.hashEmail b := by
  constructor
  · intro hsame
    by_contra hne
    have hw := congrArg MfaWorld.userDir (hsame (onlyUser (env.hashEmail a)) anyLogin)
    change decide (env.hashEmail a = env.hashEmail a) =
      decide (env.hashEmail b = env.hashEmail a) at hw
    rw [decide_eq_true rfl,decide_eq_false (Ne.symm hne)] at hw
    simp at hw
  · intro heq s body
    show s.world (env.hashEmail a) = s.world (env.hashEmail b)
    rw [heq]

theorem sameGate_iff (ha : strTrim a ≠ "") (hb : strTrim b ≠ "") :
    SameGate env a b ↔ env.hashEmail a = env.hashEmail b := by
  constructor
  · intro hsame
    by_contra hne
    -- the first user logs in with a passkey only, the second is not stored
    have hgate := hsame (onlyUser (env.hashEmail a)) (fun _ => fair) anyLogin
    rw [gateMet_anyLogin ha,gateMet_anyLogin hb,gate_onlyUser,gate_nobody _ (Ne.symm hne)] at hgate
    simp at hgate
  · intro heq s weathers body
    have huser : userOf env s (body.under a) = userOf env s (body.under b) :=
      congrArg s.world heq
    unfold gateMet
    rw [huser]
    simp only [LoginRequest.under,ha,hb,false_or]

end Spellings

/-- Two addresses that are equal up to ASCII case and whose hashes do not collide read one
database, and meet one gate, exactly if they are the same string. -/
theorem spellings_share_user {env : MfaEnv} {sha256 : List UInt8 → List UInt8} {a b : String}
    (hcase : eqIgnoreAsciiCase a b = true)
    (hcollision : sha256 a.toUTF8.data.toList = sha256 b.toUTF8.data.toList →
      a.toUTF8.data.toList = b.toUTF8.data.toList) :
    (SameDatabase (env.hashing sha256) a b ↔ a = b) ∧
      (SameGate (env.hashing sha256) a b ↔ a = b) := by
  have hhash : (env.hashing sha256).hashEmail a = (env.hashing sha256).hashEmail b ↔ a = b := by
    constructor
    · intro h
      exact utf8_inj (hcollision (hashEmail_eq_iff.mp h))
    · intro h
      rw [h]
  refine ⟨sameDatabase_iff.trans hhash,?_⟩
  by_cases hab : a = b
  · subst hab
    exact iff_of_true (fun _ _ _ => rfl) rfl
  · -- spellings that differ contain a letter
    have ha : strTrim a ≠ "" := fun hblank => hab (eq_of_blank hcase hblank)
    have hsymm : eqIgnoreAsciiCase b a = true :=
      decide_eq_true (of_decide_eq_true hcase : a.toList.map Char.toLower = _).symm
    have hb : strTrim b ≠ "" := fun hblank => hab (eq_of_blank hsymm hblank).symm
    exact (sameGate_iff ha hb).trans hhash

/-! ### Samples -/

/-- SHA-256 of two spellings of an address. -/
def sampleSha256 (bytes : List UInt8) : List UInt8 :=
  if bytes = "bob@example.org".toUTF8.data.toList then
    [104,107,94,76,244,249,99,173,248,245,20,104,164,128,40,239,
     141,21,189,2,250,51,95,130,18,121,163,209,103,140,150,21]
  else if bytes = "Bob@example.org".toUTF8.data.toList then
    [72,150,239,50,105,221,170,253,18,240,215,76,182,234,178,102,
     146,111,249,138,249,207,136,217,93,87,106,63,97,180,137,149]
  else []

theorem spellings_share_user_bob :
    (SameDatabase (sampleEnv.hashing sampleSha256) "bob@example.org" "Bob@example.org" ↔
        "bob@example.org" = "Bob@example.org") ∧
      (SameGate (sampleEnv.hashing sampleSha256) "bob@example.org" "Bob@example.org" ↔
        "bob@example.org" = "Bob@example.org") :=
  spellings_share_user (by decide) (by decide)

/-- Bob has enrolled a secret under the first spelling. -/
def bobEnrolled : MailServer where
  users h :=
    if h = "686b5e4cf4f963adf8f51468a48028ef8d15bd02fa335f821279a3d1678c9615" then
      ⟨true,enrolledAccount.db⟩
    else ⟨false,⟨none,.empty,⟨0,none,none⟩,false⟩⟩
  now := 75
  store := .new 0

/-- A login under the second spelling is asked for no code. -/
theorem second_spelling_skips_code :
    ¬∀ (env : MfaEnv) (sha256 : List UInt8 → List UInt8) (a b : String),
      eqIgnoreAsciiCase a b = true →
        SameDatabase (env.hashing sha256) a b ∧ SameGate (env.hashing sha256) a b := by
  intro hall
  obtain ⟨-,hsame⟩ :=
    hall sampleEnv sampleSha256 "bob@example.org" "Bob@example.org" (by decide)
  have hgate := hsame bobEnrolled (fun _ => fair) anyLogin
  have hfirst : gateMet (sampleEnv.hashing sampleSha256) bobEnrolled (fun _ => fair)
      (anyLogin.under "bob@example.org") = some .needsCode := by
    rw [gateMet_anyLogin (by decide)]
    rfl
  have hsecond : gateMet (sampleEnv.hashing sampleSha256) bobEnrolled (fun _ => fair)
      (anyLogin.under "Bob@example.org") = some .skip := by
    rw [gateMet_anyLogin (by decide)]
    rfl
  rw [hfirst,hsecond] at hgate
  simp at hgate

end Rav
