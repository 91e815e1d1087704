import Rav.Base64
import Rav.Imap.Envelope
import Rav.Replace
import Rav.Utf8

/-!
# `link_proxy`: signed links

Links of a mail are replaced by links to the server, which are signed for one user and expire. The
signature is over the URL, the user and the time, one behind the other.

## Main definitions

- `LinkEnv.signUrl`, `LinkEnv.verify` — signing, and the check
- `decodeHex` — which cuts a text into pairs of bytes
- `macInput_inj` — what is signed is told apart
- `LinkEnv.verify_spec` — what is accepted was signed, and when the check does not panic
-/

namespace Rav

/-- Thirty days. -/
def expirySecs : Int := 30 * 24 * 3600

def tagBytes : Nat := 16

/-- HMAC-SHA256, and base64 for URLs without padding. -/
structure LinkEnv where
  mac : List UInt8 → List UInt8 → List UInt8
  base64 : List UInt8 → List Char
  unbase64 : List Char → Option (List UInt8)

/-! ### Hexadecimal digits -/

/-- The digit of a half byte. -/
def hexDigit (n : Nat) : Char := if n < 10 then Char.ofNat (n + 48) else Char.ofNat (n + 87)

/-- `encode_hex`. -/
def encodeHex (bytes : List UInt8) : List Char :=
  bytes.flatMap fun b => [hexDigit (b.toNat / 16), hexDigit (b.toNat % 16)]

/-- `u8::from_str_radix` of a text of two bytes. -/
def parseHexByte : List Char → Option UInt8
  | [c, d] =>
    if c.toNat < 128 ∧ d.toNat < 128 then hexPair (UInt8.ofNat c.toNat) (UInt8.ofNat d.toNat) else none
  | _ => none

/-- The pairs from an offset on, up to the first one that is wrong. -/
def hexPairsFrom (s : List Char) : Nat → Nat → Except Panic (Except String (List UInt8))
  | _, 0 => .ok (.ok [])
  | i, n + 1 => do
    let pair ← byteSlice (i * 2) (i * 2 + 2) s
    match parseHexByte pair with
    | none => return .error "invalid digit found in string"
    | some byte => return (← hexPairsFrom s (i + 1) n).map (byte :: ·)

/-- `decode_hex`. -/
def decodeHex (s : List Char) : Except Panic (Except String (List UInt8)) :=
  if byteLength s % 2 ≠ 0 then .ok (.error "odd hex length")
  else hexPairsFrom s 0 (byteLength s / 2)

/-- Constant-time equality. -/
def constEq (a b : List UInt8) : Bool :=
  if a.length ≠ b.length then false
  else (a.zip b).foldl (fun diff p => diff ||| (p.1 ^^^ p.2)) 0 == 0

/-! ### Signing and verifying -/

/-- `i64::to_be_bytes`. -/
def toBeBytes (n : Int) : List UInt8 :=
  let bits := (n % 18446744073709551616).toNat
  [7, 6, 5, 4, 3, 2, 1, 0].map fun k => UInt8.ofNat (bits / 256 ^ k)

/-- What the MAC is taken of. -/
def macInput (url userHash : List Char) (exp : Int) : List UInt8 :=
  utf8 url ++ [10] ++ utf8 userHash ++ [10] ++ toBeBytes exp

namespace LinkEnv

variable (env : LinkEnv)

def computeMac (secret : List UInt8) (url userHash : List Char) (exp : Int) : List UInt8 :=
  (env.mac secret (macInput url userHash exp)).take tagBytes

/-- The query of the link to the server. -/
def signUrl (secret : List UInt8) (url userHash : List Char) (exp : Int) : List Char :=
  "u=".toList ++ env.base64 (utf8 url) ++ "&exp=".toList ++ (toString exp).toList ++ "&s=".toList ++
    encodeHex (env.computeMac secret url userHash exp)

/-- The URL a query names. -/
def linkUrl (u : List Char) : Except String (List Char) :=
  match env.unbase64 u with
  | none => .error "invalid url encoding"
  | some bytes =>
    match fromUtf8 bytes with
    | none => .error "url is not utf-8"
    | some url => .ok url.toList

/-- The checks behind the signature's decoding. -/
def checkLink (secret : List UInt8) (url userHash : List Char) (exp : Int) :
    Except String (List UInt8) → Except String (List Char)
  | .error _ => .error "invalid signature encoding"
  | .ok provided =>
    if provided.length ≠ tagBytes || !constEq (env.computeMac secret url userHash exp) provided then
      .error "invalid signature"
    else if !"http://".toList.isPrefixOf url && !"https://".toList.isPrefixOf url then
      .error "non-http destination"
    else .ok url

/-- Verify the parameters of a link; the URL, or why it is rejected. -/
def verify (now : Int) (secret : List UInt8) (u : List Char) (exp : Int) (s userHash : List Char) :
    Except Panic (Except String (List Char)) :=
  if exp < now then .ok (.error "link expired")
  else
    match env.linkUrl u with
    | .error reason => .ok (.error reason)
    | .ok url => (decodeHex s).map (env.checkLink secret url userHash exp)

end LinkEnv

/-- The answer of the server to a link. -/
inductive LinkResponse
  | notFound
  | found (location : Option (List Char))
  | badRequest (body : String)
  deriving DecidableEq, Repr

/-- The parameters of a link. -/
structure LinkParams where
  u : List Char
  exp : Int
  s : List Char
  deriving DecidableEq, Repr

/-- `GET /api/v1/link`, with what may stand in a header. -/
def LinkEnv.redirect (env : LinkEnv) (headerValue : List Char → Bool) (now : Int)
    (secret : Option (List UInt8)) (userHash : List Char) (params : LinkParams) :
    Except Panic LinkResponse :=
  match secret with
  | none => .ok .notFound
  | some secret =>
    (env.verify now secret params.u params.exp params.s userHash).map fun
      | .ok url => .found (if headerValue url then some url else none)
      | .error reason => .badRequest ("Link invalid or expired: " ++ reason)

/-! ### Pairs of digits -/

/-- A text whose bytes, in pairs, reach a cut within a character before a pair that is wrong. -/
inductive SplitsPair : List Char → Prop
  | wide (c : Char) (rest : List Char) (hc : 2 < c.utf8Size) : SplitsPair (c :: rest)
  | second (c d : Char) (rest : List Char) (hc : c.utf8Size = 1) (hd : 1 < d.utf8Size) :
    SplitsPair (c :: d :: rest)
  | later (c d : Char) (rest : List Char) (hpair : (parseHexByte [c, d]).isSome) (h : SplitsPair rest) :
    SplitsPair (c :: d :: rest)

theorem utf8Size_of_parseHexByte {c d : Char} (h : (parseHexByte [c, d]).isSome) :
    c.utf8Size = 1 ∧ d.utf8Size = 1 := by
  have hascii : c.toNat < 128 ∧ d.toNat < 128 := by
    by_contra hnot
    rw [parseHexByte, if_neg hnot] at h
    exact Bool.false_ne_true h
  exact ⟨Char.utf8Size_eq_one_iff.mpr (UInt32.le_iff_toNat_le.mpr (Nat.le_of_lt_succ hascii.1)),
    Char.utf8Size_eq_one_iff.mpr (UInt32.le_iff_toNat_le.mpr (Nat.le_of_lt_succ hascii.2))⟩

/-- The cut at a pair depends on what stands there. -/
theorem byteSlice_pair {p : List Char} {i : Nat} (hp : byteLength p = i * 2) (t : List Char) :
    byteSlice (i * 2) (i * 2 + 2) (p ++ t) = firstBytes 2 t := by
  rw [byteSlice, ← hp, dropBytes_append, Except.bind_ok, Nat.add_sub_cancel_left]

section FirstPair

variable {c d : Char} (rest : List Char)

theorem firstBytes_zero : firstBytes 0 rest = .ok [] := by
  cases rest <;> rfl

theorem firstBytes_wide (hc : 2 < c.utf8Size) : firstBytes 2 (c :: rest) = .error .slice := by
  rw [firstBytes, if_neg (by omega)]

theorem firstBytes_two (hc : c.utf8Size = 2) : firstBytes 2 (c :: rest) = .ok [c] := by
  rw [firstBytes, if_pos (by omega), hc, firstBytes_zero]
  rfl

theorem firstBytes_second (hc : c.utf8Size = 1) (hd : 1 < d.utf8Size) :
    firstBytes 2 (c :: d :: rest) = .error .slice := by
  rw [firstBytes, if_pos (by omega), hc, firstBytes, if_neg (by omega)]
  rfl

theorem firstBytes_pair (hc : c.utf8Size = 1) (hd : d.utf8Size = 1) :
    firstBytes 2 (c :: d :: rest) = .ok [c, d] := by
  rw [firstBytes, if_pos (by omega), hc, firstBytes, if_pos (by omega), hd, firstBytes_zero]
  rfl

end FirstPair

/-- Behind whole pairs, every cut is between characters up to the first pair that is wrong. -/
theorem hexPairsFrom_ok {p t : List Char} {i n : Nat} (hp : byteLength p = i * 2)
    (ht : byteLength t = n * 2) :
    (∃ r, hexPairsFrom (p ++ t) i n = .ok r) ↔ ¬SplitsPair t := by
  induction n generalizing p t i with
  | zero =>
    obtain rfl := byteLength_eq_zero.mp ht
    refine iff_of_true ⟨.ok [], rfl⟩ fun h => ?_
    cases h
  | succ n ih =>
    rw [hexPairsFrom, byteSlice_pair hp]
    cases t with
    | nil => exact absurd ht.symm (Nat.succ_ne_zero _)
    | cons c t =>
      have hpos := utf8Size_pos c
      rw [byteLength_cons] at ht
      obtain hc | hc | hc : c.utf8Size = 1 ∨ c.utf8Size = 2 ∨ 2 < c.utf8Size := by omega
      · cases t with
        | nil =>
          have hnil : byteLength [] = 0 := rfl
          omega
        | cons d t =>
          have hposd := utf8Size_pos d
          rw [byteLength_cons] at ht
          by_cases hd : 1 < d.utf8Size
          · rw [firstBytes_second t hc hd]
            refine iff_of_false ?_ (not_not_intro (.second c d t hc hd))
            rintro ⟨r, h⟩
            rw [Except.bind_error] at h
            cases h
          · replace hd : d.utf8Size = 1 := by omega
            rw [firstBytes_pair t hc hd, Except.bind_ok]
            cases hbyte : parseHexByte [c, d] with
            | none =>
              refine iff_of_true ⟨_, rfl⟩ fun h => ?_
              cases h with
              | wide _ _ hc' => omega
              | second _ _ _ _ hd' => omega
              | later _ _ _ hpair _ =>
                rw [hbyte] at hpair
                exact Bool.false_ne_true hpair
            | some byte =>
              have hp' : byteLength (p ++ [c, d]) = (i + 1) * 2 := by
                have htwo : byteLength [c, d] = c.utf8Size + (d.utf8Size + 0) := rfl
                rw [byteLength_append]
                omega
              have hrest := ih hp' (show byteLength t = n * 2 by omega)
              rw [List.append_assoc] at hrest
              have hiff : SplitsPair (c :: d :: t) ↔ SplitsPair t := by
                refine ⟨fun h => ?_, fun h => .later c d t (by rw [hbyte]; rfl) h⟩
                cases h with
                | wide _ _ hc' => omega
                | second _ _ _ _ hd' => omega
                | later _ _ _ _ h => exact h
              rw [hiff, ← hrest]
              dsimp only
              constructor
              · rintro ⟨r, h⟩
                cases hmore : hexPairsFrom (p ++ ([c, d] ++ t)) (i + 1) n with
                | ok more => exact ⟨more, rfl⟩
                | error e =>
                  rw [show p ++ c :: d :: t = p ++ ([c, d] ++ t) from rfl, hmore, Except.bind_error] at h
                  cases h
              · rintro ⟨r, h⟩
                rw [show p ++ c :: d :: t = p ++ ([c, d] ++ t) from rfl, h]
                exact ⟨_, rfl⟩
      · rw [firstBytes_two t hc]
        refine iff_of_true ⟨_, rfl⟩ fun h => ?_
        cases h with
        | wide _ _ hc' => omega
        | second _ _ _ hc' _ => omega
        | later _ _ _ hpair _ =>
          have hone := (utf8Size_of_parseHexByte hpair).1
          omega
      · rw [firstBytes_wide t hc]
        refine iff_of_false ?_ (not_not_intro (.wide c t hc))
        rintro ⟨r, h⟩
        rw [Except.bind_error] at h
        cases h

theorem decodeHex_ok (s : List Char) :
    (∃ r, decodeHex s = .ok r) ↔ ¬(byteLength s % 2 = 0 ∧ SplitsPair s) := by
  unfold decodeHex
  split
  · next hodd => exact iff_of_true ⟨_, rfl⟩ fun h => hodd h.1
  · next heven =>
    rw [ne_eq, not_not] at heven
    rw [not_and, imp_iff_right heven]
    exact hexPairsFrom_ok (p := []) rfl (show byteLength s = byteLength s / 2 * 2 by omega)

/-! ### What is signed -/

theorem mod_pow_eq {x y n : Nat} (h : ∀ k < n, x / 256 ^ k % 256 = y / 256 ^ k % 256) :
    x % 256 ^ n = y % 256 ^ n := by
  induction n with
  | zero => rw [Nat.pow_zero, Nat.mod_one, Nat.mod_one]
  | succ n ih =>
    rw [Nat.mod_pow_succ, Nat.mod_pow_succ, ih (fun k hk => h k (Nat.lt_succ_of_lt hk)), h n (Nat.lt_succ_self n)]

theorem toBeBytes_inj {m n : Int} (hm : InI64 m) (hn : InI64 n) (h : toBeBytes m = toBeBytes n) : m = n := by
  obtain ⟨hm, hm'⟩ := hm
  obtain ⟨hn, hn'⟩ := hn
  have hbits : (m % 18446744073709551616).toNat % 256 ^ 8 = (n % 18446744073709551616).toNat % 256 ^ 8 := by
    refine mod_pow_eq fun k hk => ?_
    have hmem : k ∈ [7, 6, 5, 4, 3, 2, 1, 0] := by
      revert k
      decide
    unfold toBeBytes at h
    have hnat := congrArg UInt8.toNat (List.map_inj_left.mp h k hmem)
    rwa [UInt8.toNat_ofNat', UInt8.toNat_ofNat'] at hnat
  omega

/-- What is signed is told apart, whatever the URL, if no user has the end of a line. -/
theorem macInput_inj {url url' user user' : List Char} {exp exp' : Int} (huser : '\n' ∉ user)
    (huser' : '\n' ∉ user') (hexp : InI64 exp) (hexp' : InI64 exp')
    (h : macInput url user exp = macInput url' user' exp') : url = url' ∧ user = user' ∧ exp = exp' := by
  have hsplit : ∀ {user : List Char} (url : List Char), '\n' ∉ user →
      splitOnce ['\n'] (url ++ '\n' :: user).reverse = some (user.reverse, url.reverse) := by
    intro user url huser
    rw [List.reverse_append, List.reverse_cons, List.append_assoc]
    exact splitOnce_char (mt List.mem_reverse.mp huser) url.reverse
  have htext : ∀ (url user : List Char) (exp : Int), macInput url user exp =
      utf8 (url ++ '\n' :: user) ++ [10] ++ toBeBytes exp := by
    intro url user exp
    rw [macInput, utf8_append, utf8_cons, utf8EncodeChar_ascii (by decide)]
    simp only [List.append_assoc]
    rfl
  rw [htext, htext] at h
  obtain ⟨h, hbytes⟩ := List.append_inj' h rfl
  have hchars := utf8_injective (List.append_cancel_right h)
  have hparts := hsplit url huser
  rw [hchars, hsplit url' huser'] at hparts
  obtain ⟨hfirst, hsecond⟩ := Prod.mk.inj (Option.some.inj hparts)
  exact ⟨(List.reverse_inj.mp hsecond).symm, (List.reverse_inj.mp hfirst).symm,
    toBeBytes_inj hexp hexp' hbytes⟩

/-! ### What is accepted -/

theorem foldl_xor_eq_zero {l : List (UInt8 × UInt8)} {diff : UInt8} :
    l.foldl (fun diff p => diff ||| (p.1 ^^^ p.2)) diff = 0 ↔ diff = 0 ∧ ∀ p ∈ l, p.1 = p.2 := by
  induction l generalizing diff with
  | nil => simp
  | cons p l ih =>
    rw [List.foldl_cons, ih, UInt8.or_eq_zero_iff, UInt8.xor_eq_zero_iff, List.forall_mem_cons, and_assoc]

theorem forall_mem_zip {a b : List UInt8} (hlength : a.length = b.length) :
    (∀ p ∈ a.zip b, p.1 = p.2) ↔ a = b := by
  induction a generalizing b with
  | nil =>
    obtain rfl := List.length_eq_zero_iff.mp hlength.symm
    exact iff_of_true (fun _ h => absurd h List.not_mem_nil) rfl
  | cons x a ih =>
    cases b with
    | nil => exact absurd hlength (Nat.succ_ne_zero _)
    | cons y b =>
      rw [List.zip_cons_cons, List.forall_mem_cons, ih (Nat.succ.inj hlength), List.cons.injEq]

theorem constEq_iff {a b : List UInt8} : constEq a b = true ↔ a = b := by
  unfold constEq
  split
  · next hlength => exact iff_of_false Bool.false_ne_true fun h => hlength (congrArg List.length h)
  · next hlength =>
    rw [ne_eq, not_not] at hlength
    rw [beq_iff_eq, foldl_xor_eq_zero, forall_mem_zip hlength]
    exact and_iff_right rfl

namespace LinkEnv

variable {env : LinkEnv} {now exp : Int} {secret : List UInt8} {u s user : List Char}

/-- The check ends unless a live link that names a URL has a signature that is cut within a character. -/
theorem verify_ok : (∃ r, env.verify now secret u exp s user = .ok r) ↔
    ¬(now ≤ exp ∧ (∃ url, env.linkUrl u = .ok url) ∧ byteLength s % 2 = 0 ∧ SplitsPair s) := by
  unfold verify
  split
  · next hlate => exact iff_of_true ⟨_, rfl⟩ fun h => absurd h.1 (Int.not_le.mpr hlate)
  · next hlive =>
    cases hurl : env.linkUrl u with
    | error reason =>
      refine iff_of_true ⟨_, rfl⟩ ?_
      rintro ⟨-, ⟨url, h⟩, -⟩
      cases h
    | ok url =>
      have hok : (∃ r, (decodeHex s).map (env.checkLink secret url user exp) = .ok r) ↔
          ∃ r, decodeHex s = .ok r := by
        cases decodeHex s with
        | ok r => exact iff_of_true ⟨_, rfl⟩ ⟨r, rfl⟩
        | error e =>
          constructor
          · rintro ⟨r, h⟩
            cases h
          · rintro ⟨r, h⟩
            cases h
      rw [hok, decodeHex_ok]
      exact not_congr ⟨fun h => ⟨Int.not_lt.mp hlive, ⟨url, rfl⟩, h⟩, fun h => h.2.2⟩

/-- A URL is accepted for its MAC only, while the link lives. -/
theorem of_verify {url : List Char} (h : env.verify now secret u exp s user = .ok (.ok url)) :
    now ≤ exp ∧ env.linkUrl u = .ok url ∧
      decodeHex s = .ok (.ok (env.computeMac secret url user exp)) := by
  unfold verify at h
  split at h
  · cases h
  · next hlive =>
    cases hurl : env.linkUrl u with
    | error reason =>
      rw [hurl] at h
      cases h
    | ok url' =>
      rw [hurl] at h
      cases hdecode : decodeHex s with
      | error e =>
        rw [hdecode] at h
        cases h
      | ok r =>
        rw [hdecode] at h
        replace h : env.checkLink secret url' user exp r = .ok url := Except.ok.inj h
        cases r with
        | error e => cases h
        | ok provided =>
          dsimp only [checkLink] at h
          split at h
          · cases h
          · next htag =>
            rw [Bool.or_eq_true, not_or, Bool.not_eq_true', Bool.not_eq_false] at htag
            have htag := constEq_iff.mp htag.2
            split at h
            · cases h
            · obtain rfl := Except.ok.inj h
              exact ⟨Int.not_lt.mp hlive, rfl, htag ▸ rfl⟩

end LinkEnv

/-- One call of `sign_url`, for a user without the end of a line. -/
structure SignCall where
  url : List Char
  user : List Char
  exp : Int
  oneLine : '\n' ∉ user
  inRange : InI64 exp

def SignCall.input (c : SignCall) : List UInt8 := macInput c.url c.user c.exp

/-- Links are accepted only where they were signed for the same URL, user and time, which are told apart,
and while they live; and the check ends under the condition only. The second hypothesis is that the tag of
what the query names, if it is right, was made by signing. -/
theorem LinkEnv.verify_spec (env : LinkEnv) (secret : List UInt8) (calls : List SignCall)
    {user : List Char} (huser : '\n' ∉ user) {exp : Int} (hexp : InI64 exp) (now : Int) (u s : List Char)
    (hunforged : ∀ url, env.linkUrl u = .ok url →
      decodeHex s = .ok (.ok (env.computeMac secret url user exp)) →
        ∃ call ∈ calls, call.input = macInput url user exp) :
    ((∃ r, env.verify now secret u exp s user = .ok r) ∧
      (∀ url, env.verify now secret u exp s user = .ok (.ok url) → now ≤ exp ∧
        ∃ call ∈ calls, call.url = url ∧ call.user = user ∧ call.exp = exp) ∧
      ∀ call call' : SignCall, call.input = call'.input →
        call.url = call'.url ∧ call.user = call'.user ∧ call.exp = call'.exp) ↔
    ¬(now ≤ exp ∧ (∃ url, env.linkUrl u = .ok url) ∧ byteLength s % 2 = 0 ∧ SplitsPair s) := by
  rw [← @verify_ok env now exp secret u s user]
  refine and_iff_left ⟨fun url h => ?_, fun call call' h => ?_⟩
  · obtain ⟨hlive, hurl, htag⟩ := of_verify h
    obtain ⟨call, hcall, hinput⟩ := hunforged url hurl htag
    exact ⟨hlive, call, hcall, macInput_inj call.oneLine huser call.inRange hexp hinput⟩
  · exact macInput_inj call.oneLine call'.oneLine call.inRange call'.inRange h

/-! ### A link -/

def sampleSecret : List UInt8 := List.replicate 32 7

def sampleCall : SignCall where
  url := "http://a.b/".toList
  user := "0f".toList
  exp := 2000000000
  oneLine := by decide
  inRange := by decide

/-- HMAC-SHA256 where it is used here, and base64. -/
def sampleLinkEnv : LinkEnv where
  mac secret message :=
    if secret = sampleSecret ∧ message = sampleCall.input then
      [174, 197, 45, 120, 118, 138, 191, 172, 225, 129, 117, 81, 142, 212, 32, 121,
        75, 121, 86, 42, 70, 235, 32, 161, 1, 140, 194, 187, 56, 223, 174, 27]
    else List.replicate 32 0
  base64 := Base64.urlSafeNoPad.encode
  unbase64 := Base64.urlSafeNoPad.decode

theorem verify_sampleCall :
    let u := "aHR0cDovL2EuYi8".toList
    let s := "aec52d78768abface18175518ed42079".toList
    ((∃ r, sampleLinkEnv.verify 1999999999 sampleSecret u 2000000000 s "0f".toList = .ok r) ∧
      (∀ url, sampleLinkEnv.verify 1999999999 sampleSecret u 2000000000 s "0f".toList = .ok (.ok url) →
        (1999999999 : Int) ≤ 2000000000 ∧
          ∃ call ∈ [sampleCall], call.url = url ∧ call.user = "0f".toList ∧ call.exp = 2000000000) ∧
      ∀ call call' : SignCall, call.input = call'.input →
        call.url = call'.url ∧ call.user = call'.user ∧ call.exp = call'.exp) ↔
    ¬((1999999999 : Int) ≤ 2000000000 ∧ (∃ url, sampleLinkEnv.linkUrl u = .ok url) ∧
      byteLength s % 2 = 0 ∧ SplitsPair s) := by
  intro u s
  have hurl : sampleLinkEnv.linkUrl u = .ok "http://a.b/".toList := by decide +kernel
  refine sampleLinkEnv.verify_spec sampleSecret [sampleCall] (by decide) (by decide) 1999999999 u s ?_
  intro url h _
  obtain rfl := Except.ok.inj (hurl.symm.trans h)
  exact ⟨sampleCall, List.mem_singleton.mpr rfl, rfl⟩

/-- A signature that is cut within a character. -/
theorem verify_cutSignature :
    ¬∃ r, sampleLinkEnv.verify 1999999999 sampleSecret "aHR0cDovL2EuYi8".toList 2000000000 "aéb".toList
      "0f".toList = .ok r := by
  have hurl : sampleLinkEnv.linkUrl "aHR0cDovL2EuYi8".toList = .ok "http://a.b/".toList := by decide +kernel
  rw [LinkEnv.verify_ok, not_not]
  exact ⟨by decide, ⟨_, hurl⟩, by decide, .second 'a' 'é' ['b'] (by decide) (by decide)⟩

end Rav
