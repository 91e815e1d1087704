import Rav.Base64
import Rav.Imap.Envelope
import Rav.Replace
import Rav.Utf8

/-!
# Encoded words

The scanner of `decode_rfc2047` with the byte offsets it finds and cuts at, and what it makes of a
header value that alternates between plain text and encoded words.

## Main definitions

- `HeaderEnv.scanRfc2047` — the scanner with its offsets
- `HeaderEnv.scanRfc2047_eq` — it never cuts within a character, and decodes as `decodeRfc2047` does
- `EncodedWord`, `HeaderValue` — encoded words, and values with plain text between them
- `HeaderEnv.scanRfc2047_value` — such a value is decoded to what it stands for
-/

namespace Rav

open Sieve (octets)

/-! ### The scanner with its offsets -/

/-- The parts of an encoded word after its `=?`, and the offsets of the delimiters, each counted from
the one before. -/
structure FoundWord where
  charset : List Char
  encoding : List Char
  encodedText : List Char
  q1 : Nat
  q2 : Nat
  last : Nat

/-- The pattern `charset?encoding?text?=`. -/
def findWord (afterStart : List Char) : Except Panic (Option FoundWord) := do
  let some q1 := strFind ['?'] afterStart | return none
  let charset ← byteSlice 0 q1 afterStart
  let afterCharset ← dropBytes (q1 + 1) afterStart
  let some q2 := strFind ['?'] afterCharset | return none
  let encoding ← byteSlice 0 q2 afterCharset
  let afterEncoding ← dropBytes (q2 + 1) afterCharset
  let some last := strFind ['?', '='] afterEncoding | return none
  let encodedText ← byteSlice 0 last afterEncoding
  return some ⟨charset, encoding, encodedText, q1, q2, last⟩

/-- White space between consecutive encoded words is dropped. -/
def skipBetween (remaining : List Char) : List Char :=
  let trimmed := remaining.dropWhile isWhitespace
  if ['=', '?'].isPrefixOf remaining || ['=', '?'].isPrefixOf trimmed then trimmed else remaining

namespace HeaderEnv

variable (env : HeaderEnv)

def decodedBytes (encoding encodedText : List Char) : Option (List UInt8) :=
  match String.ofList (encoding.map Char.toUpper) with
  | "B" => env.base64 encodedText
  | "Q" => decodeQuotedPrintableHeader (octets (String.ofList encodedText))
  | _ => none

/-- What a word at an offset stands for; it is kept as it is where it cannot be decoded. -/
def wordText (start : Nat) (remaining : List Char) (w : FoundWord) : Except Panic (List Char) :=
  match env.decodedBytes w.encoding w.encodedText with
  | some bytes => .ok (env.decodeCharset w.charset bytes).toList
  | none => byteSlice start (start + (2 + w.q1 + 1 + w.q2 + 1 + w.last + 2)) remaining

/-- The loop; if it goes on for too long, that counts as a failure. -/
def scanWords : Nat → List Char → List Char → Except Panic (List Char)
  | 0, _, _ => .error .overflow
  | fuel + 1, result, remaining => do
    let some start := strFind ['=', '?'] remaining | return result ++ remaining
    let before ← byteSlice 0 start remaining
    let afterStart ← dropBytes (start + 2) remaining
    match ← findWord afterStart with
    | some w =>
      let text ← env.wordText start remaining w
      let rest ← dropBytes (w.q1 + 1 + w.q2 + 1 + w.last + 2) afterStart
      scanWords fuel (result ++ before ++ text) (skipBetween rest)
    | none => scanWords fuel (result ++ before ++ ['=', '?']) afterStart

/-- `decode_rfc2047`. -/
def scanRfc2047 (input : String) : Except Panic String :=
  if !strContains input "=?" then .ok input
  else (env.scanWords (input.toList.length + 1) [] input.toList).map String.ofList

end HeaderEnv

/-! ### Delimiters are found where they are -/

section Delimiters

variable {s before after : List Char}

/-- After a delimiter that was found, both cuts succeed. -/
theorem cut_at_delimiter {p : List Char} (hp : p ≠ []) (hascii : byteLength p = p.length)
    (h : splitOnce p s = some (before, after)) :
    byteSlice 0 (byteLength before) s = .ok before ∧
      dropBytes (byteLength before + p.length) s = .ok after := by
  obtain ⟨rfl, -⟩ := splitOnce_eq_some hp h
  constructor
  · rw [List.append_assoc]
    exact byteSlice_front before (p ++ after)
  · rw [← hascii, ← byteLength_append]
    exact dropBytes_append (before ++ p) after

/-- The parts of an encoded word, by its delimiters. -/
def splitWord (afterStart : List Char) : Option (List Char × List Char × List Char × List Char) :=
  (splitOnce ['?'] afterStart).bind fun r =>
    (splitOnce ['?'] r.2).bind fun r' =>
      (splitOnce ['?', '='] r'.2).map fun r'' => (r.1, r'.1, r''.1, r''.2)

theorem findWord_eq (afterStart : List Char) : findWord afterStart = .ok ((splitWord afterStart).map
    fun r => ⟨r.1, r.2.1, r.2.2.1, byteLength r.1, byteLength r.2.1, byteLength r.2.2.1⟩) := by
  unfold findWord splitWord
  cases h : splitOnce ['?'] afterStart with
  | none =>
    rw [strFind_none h]
    rfl
  | some r =>
    obtain ⟨hcharset, hafter⟩ := cut_at_delimiter (List.cons_ne_nil _ _) rfl h
    rw [List.length_singleton] at hafter
    rw [strFind_some h]
    dsimp only
    rw [hcharset, Except.bind_ok, hafter, Except.bind_ok, Option.bind_some]
    cases h' : splitOnce ['?'] r.2 with
    | none =>
      rw [strFind_none h']
      rfl
    | some r' =>
      obtain ⟨hencoding, hafter'⟩ := cut_at_delimiter (List.cons_ne_nil _ _) rfl h'
      rw [List.length_singleton] at hafter'
      rw [strFind_some h']
      dsimp only
      rw [hencoding, Except.bind_ok, hafter', Except.bind_ok, Option.bind_some]
      cases h'' : splitOnce ['?', '='] r'.2 with
      | none =>
        rw [strFind_none h'']
        rfl
      | some r'' =>
        obtain ⟨htext, -⟩ := cut_at_delimiter (List.cons_ne_nil _ _) rfl h''
        rw [strFind_some h'']
        dsimp only
        rw [htext, Except.bind_ok]
        rfl

theorem splitWord_eq_some {charset encoding text rest : List Char}
    (h : splitWord s = some (charset, encoding, text, rest)) :
    s = charset ++ ['?'] ++ encoding ++ ['?'] ++ text ++ ['?', '='] ++ rest := by
  obtain ⟨r, hr, h⟩ := Option.bind_eq_some_iff.mp h
  obtain ⟨r', hr', h⟩ := Option.bind_eq_some_iff.mp h
  obtain ⟨r'', hr'', h⟩ := Option.map_eq_some_iff.mp h
  obtain ⟨rfl, rfl, rfl, rfl⟩ : r.1 = charset ∧ r'.1 = encoding ∧ r''.1 = text ∧ r''.2 = rest := by
    simpa [Prod.ext_iff] using h
  have hfirst := (splitOnce_eq_some (List.cons_ne_nil _ _) hr).1
  have hsecond := (splitOnce_eq_some (List.cons_ne_nil _ _) hr').1
  have hthird := (splitOnce_eq_some (List.cons_ne_nil _ _) hr'').1
  rw [hfirst, hsecond, hthird]
  simp only [List.append_assoc]

end Delimiters

theorem length_skipBetween_le (remaining : List Char) :
    (skipBetween remaining).length ≤ remaining.length := by
  unfold skipBetween
  dsimp only
  split
  · exact (List.dropWhile_suffix _).length_le
  · exact Nat.le_refl _

namespace HeaderEnv

variable (env : HeaderEnv)

theorem decodeWords_none {remaining : List Char} (h : splitOnce ['=', '?'] remaining = none) (n : Nat) :
    env.decodeWords n remaining = remaining := by
  cases n with
  | zero => rfl
  | succ n => rw [decodeWords, h]

theorem decodeWords_word {remaining before afterStart charset encoding text rest : List Char}
    (h : splitOnce ['=', '?'] remaining = some (before, afterStart))
    (hword : splitWord afterStart = some (charset, encoding, text, rest)) (n : Nat) :
    env.decodeWords (n + 1) remaining =
      before ++ env.decodeWord charset encoding text ++ env.decodeWords n (skipBetween rest) := by
  unfold splitWord at hword
  rw [decodeWords, h]
  dsimp only
  rw [hword]
  rfl

theorem decodeWords_malformed {remaining before afterStart : List Char}
    (h : splitOnce ['=', '?'] remaining = some (before, afterStart))
    (hword : splitWord afterStart = none) (n : Nat) :
    env.decodeWords (n + 1) remaining = before ++ ['=', '?'] ++ env.decodeWords n afterStart := by
  unfold splitWord at hword
  rw [decodeWords, h]
  dsimp only
  rw [hword]

theorem decodeWord_eq (charset encoding text : List Char) : env.decodeWord charset encoding text =
    match env.decodedBytes encoding text with
    | some bytes => (env.decodeCharset charset bytes).toList
    | none => ['=', '?'] ++ charset ++ ['?'] ++ encoding ++ ['?'] ++ text ++ ['?', '='] := rfl

/-- A word is decoded, or cut out as it is. -/
theorem wordText_eq (before charset encoding text rest : List Char) :
    env.wordText (byteLength before) (before ++ (['=', '?'] ++
        (charset ++ ['?'] ++ encoding ++ ['?'] ++ text ++ ['?', '='] ++ rest)))
      ⟨charset, encoding, text, byteLength charset, byteLength encoding, byteLength text⟩ =
        .ok (env.decodeWord charset encoding text) := by
  let word := ['=', '?'] ++ charset ++ ['?'] ++ encoding ++ ['?'] ++ text ++ ['?', '=']
  have hall : before ++ (['=', '?'] ++ (charset ++ ['?'] ++ encoding ++ ['?'] ++ text ++ ['?', '='] ++ rest)) =
      before ++ (word ++ rest) := by simp only [word, List.append_assoc]
  have hend : byteLength before + (2 + byteLength charset + 1 + byteLength encoding + 1 +
      byteLength text + 2) = byteLength (before ++ word) := by
    have htwo : byteLength ['=', '?'] = 2 := rfl
    have htwo' : byteLength ['?', '='] = 2 := rfl
    have hone : byteLength ['?'] = 1 := rfl
    simp only [word, byteLength_append]
    omega
  rw [decodeWord_eq, wordText, hall]
  dsimp only
  cases env.decodedBytes encoding text with
  | some bytes => rfl
  | none =>
    dsimp only
    rw [hend]
    exact byteSlice_append before word rest

/-- The loop ends, having cut at characters only. -/
theorem scanWords_eq {n : Nat} (result : List Char) {remaining : List Char} (hn : remaining.length < n) :
    env.scanWords n result remaining = .ok (result ++ env.decodeWords n remaining) := by
  induction n generalizing result remaining with
  | zero => omega
  | succ n ih =>
    rw [scanWords]
    cases h : splitOnce ['=', '?'] remaining with
    | none =>
      rw [strFind_none h, env.decodeWords_none h]
      rfl
    | some r =>
      obtain ⟨before, afterStart⟩ := r
      have hremaining := (splitOnce_eq_some (List.cons_ne_nil _ _) h).1
      obtain ⟨hbefore, hafter⟩ := cut_at_delimiter (List.cons_ne_nil _ _) rfl h
      replace hafter : dropBytes (byteLength before + 2) remaining = .ok afterStart := hafter
      have hlength := congrArg List.length hremaining
      simp only [List.length_append, List.length_cons, List.length_nil] at hlength
      rw [strFind_some h]
      dsimp only
      rw [hbefore, Except.bind_ok, hafter, Except.bind_ok, findWord_eq, Except.bind_ok]
      cases hword : splitWord afterStart with
      | none =>
        rw [env.decodeWords_malformed h hword]
        dsimp only [Option.map_none]
        rw [ih _ (by omega)]
        simp only [List.append_assoc]
      | some w =>
        obtain ⟨charset, encoding, text, rest⟩ := w
        have hafterStart := splitWord_eq_some hword
        have hskip := length_skipBetween_le rest
        have hrest : byteLength charset + 1 + byteLength encoding + 1 + byteLength text + 2 =
            byteLength (charset ++ ['?'] ++ encoding ++ ['?'] ++ text ++ ['?', '=']) := by
          have htwo : byteLength ['?', '='] = 2 := rfl
          have hone : byteLength ['?'] = 1 := rfl
          simp only [byteLength_append]
          omega
        have hlength' := congrArg List.length hafterStart
        simp only [List.length_append, List.length_cons, List.length_nil] at hlength'
        rw [env.decodeWords_word h hword, hremaining, List.append_assoc, hafterStart]
        dsimp only [Option.map_some]
        rw [env.wordText_eq, Except.bind_ok, hrest, dropBytes_append, Except.bind_ok, ih _ (by omega)]
        simp only [List.append_assoc]

/-- Every value is decoded, and no cut is within a character. -/
theorem scanRfc2047_eq (input : String) : env.scanRfc2047 input = .ok (env.decodeRfc2047 input) := by
  unfold scanRfc2047 decodeRfc2047
  split
  · rfl
  · rw [env.scanWords_eq [] (Nat.lt_succ_self _)]
    rfl

end HeaderEnv

/-! ### Values of encoded words -/

/-- A hexadecimal digit, in either case. -/
def IsHexDigit (c : Char) (n : Nat) : Prop :=
  n < 10 ∧ c.toNat = n + 48 ∨ 10 ≤ n ∧ n < 16 ∧ (c.toNat = n + 55 ∨ c.toNat = n + 87)

/-- A text in the `Q` encoding, and the bytes it stands for. -/
inductive QEncodes : List Char → List UInt8 → Prop
  | nil : QEncodes [] []
  | space {e : List Char} {bytes : List UInt8} (h : QEncodes e bytes) :
    QEncodes ('_' :: e) (32 :: bytes)
  | literal {e : List Char} {bytes : List UInt8} (c : Char) (hprint : 33 ≤ c.toNat ∧ c.toNat ≤ 126)
    (hplain : c ≠ '=' ∧ c ≠ '?' ∧ c ≠ '_') (h : QEncodes e bytes) :
    QEncodes (c :: e) (UInt8.ofNat c.toNat :: bytes)
  | byte {e : List Char} {bytes : List UInt8} (c d : Char) (m n : Nat) (hc : IsHexDigit c m)
    (hd : IsHexDigit d n) (h : QEncodes e bytes) :
    QEncodes ('=' :: c :: d :: e) (UInt8.ofNat (16 * m + n) :: bytes)

/-- A valid encoded word of a Unicode text. The label names UTF-8, or at least not Latin-1. -/
structure EncodedWord where
  charset : List Char
  encoding : Char
  encodedText : List Char
  text : List Char
  label : '?' ∉ charset ∧
    String.ofList (charset.map Char.toLower) ∉ ["iso-8859-1", "latin1", "latin-1"]
  encodes : (encoding = 'B' ∨ encoding = 'b') ∧ encodedText = Base64.standard.encode (utf8 text) ∨
    (encoding = 'Q' ∨ encoding = 'q') ∧ QEncodes encodedText (utf8 text)

/-- The word as it is written. -/
def EncodedWord.chars (w : EncodedWord) : List Char :=
  ['=', '?'] ++ (w.charset ++ ['?'] ++ [w.encoding] ++ ['?'] ++ w.encodedText ++ ['?', '='])

/-- Plain text, and encoded words with plain text behind each of them. -/
structure HeaderValue where
  first : List Char
  rest : List (EncodedWord × List Char)
  plain : ∀ p ∈ first :: rest.map Prod.snd, ¬['=', '?'] <:+: p

/-- The words as they are written, each with the plain text behind it. -/
def wordsChars (rest : List (EncodedWord × List Char)) : List Char :=
  rest.flatMap fun r => r.1.chars ++ r.2

/-- What the words stand for; white space between two of them does not count. -/
def wordsMeaning : List (EncodedWord × List Char) → List Char
  | [] => []
  | [(w, p)] => w.text ++ p
  | (w, p) :: r :: rest =>
    w.text ++ (if p.all isWhitespace then [] else p) ++ wordsMeaning (r :: rest)

def HeaderValue.chars (v : HeaderValue) : List Char := v.first ++ wordsChars v.rest

def HeaderValue.meaning (v : HeaderValue) : List Char := v.first ++ wordsMeaning v.rest

/-! ### Encodings are decoded -/

theorem hexValue_of_isHexDigit {c : Char} {n : Nat} (h : IsHexDigit c n) :
    c.toNat < 128 ∧ hexValue (UInt8.ofNat c.toNat) = some n ∧ UInt8.ofNat c.toNat ≠ 43 := by
  have hcode : ∀ n < 16, ∀ m, (n < 10 ∧ m = n + 48 ∨ 10 ≤ n ∧ n < 16 ∧ (m = n + 55 ∨ m = n + 87)) →
      m < 128 ∧ hexValue (UInt8.ofNat m) = some n ∧ UInt8.ofNat m ≠ 43 := by
    intro n hn m hm
    obtain ⟨hlt, rfl⟩ | ⟨hle, -, rfl | rfl⟩ := hm
    · exact ⟨by omega, by revert n; decide, by revert n; decide⟩
    · exact ⟨by omega, by revert n; decide, by revert n; decide⟩
    · exact ⟨by omega, by revert n; decide, by revert n; decide⟩
  refine hcode n ?_ c.toNat h
  obtain ⟨hlt, -⟩ | ⟨-, hlt, -⟩ := h
  · omega
  · exact hlt

theorem decodeQuotedPrintableHeader_cons {b : UInt8} (hb : b ≠ 61) (bs : List UInt8) :
    decodeQuotedPrintableHeader (b :: bs) =
      (decodeQuotedPrintableHeader bs).map ((if b = 95 then 32 else b) :: ·) := by
  rw [decodeQuotedPrintableHeader.eq_def]
  dsimp only
  rw [if_neg hb]
  split <;> rfl

theorem decodeQuotedPrintableHeader_byte (hi lo : UInt8) (bs : List UInt8) :
    decodeQuotedPrintableHeader (61 :: hi :: lo :: bs) =
      (hexPair hi lo).bind fun byte => (decodeQuotedPrintableHeader bs).map (byte :: ·) := by
  rw [decodeQuotedPrintableHeader.eq_def]
  rfl

theorem decodeQuotedPrintableHeader_of {e : List Char} {bytes : List UInt8} (h : QEncodes e bytes) :
    decodeQuotedPrintableHeader (utf8 e) = some bytes := by
  induction h with
  | nil => rfl
  | space h ih =>
    rw [utf8_cons, utf8EncodeChar_ascii (by decide), List.singleton_append,
      decodeQuotedPrintableHeader_cons (by decide), ih]
    rfl
  | literal c hprint hplain h ih =>
    have hbyte : ∀ d : Char, d.toNat < 128 → c ≠ d → UInt8.ofNat c.toNat ≠ UInt8.ofNat d.toNat := by
      intro d hd hne heq
      have hcode := congrArg UInt8.toNat heq
      rw [UInt8.toNat_ofNat', UInt8.toNat_ofNat', Nat.mod_eq_of_lt (by omega),
        Nat.mod_eq_of_lt (by omega)] at hcode
      exact hne (Char.toNat_inj.mp hcode)
    rw [utf8_cons, utf8EncodeChar_ascii (by omega), List.singleton_append,
      decodeQuotedPrintableHeader_cons (hbyte '=' (by decide) hplain.1), ih, Option.map_some,
      if_neg (show UInt8.ofNat c.toNat ≠ 95 from hbyte '_' (by decide) hplain.2.2)]
  | byte c d m n hc hd h ih =>
    obtain ⟨hascii, hm, hplus⟩ := hexValue_of_isHexDigit hc
    obtain ⟨hascii', hn, -⟩ := hexValue_of_isHexDigit hd
    rw [utf8_cons, utf8_cons, utf8_cons, utf8EncodeChar_ascii (by decide), utf8EncodeChar_ascii hascii,
      utf8EncodeChar_ascii hascii', List.singleton_append, List.singleton_append, List.singleton_append,
      show UInt8.ofNat '='.toNat = 61 from rfl, decodeQuotedPrintableHeader_byte, hexPair, if_neg hplus,
      hm, hn, ih]
    rfl

/-- No question mark is within the text of an encoded word. -/
theorem EncodedWord.free (w : EncodedWord) : '?' ∉ [w.encoding] ∧ '?' ∉ w.encodedText := by
  obtain ⟨hencoding, htext⟩ | ⟨hencoding, htext⟩ := w.encodes
  · constructor
    · rw [List.mem_singleton]
      intro hmark
      rw [← hmark] at hencoding
      exact absurd hencoding (by decide)
    · intro hmem
      rw [htext] at hmem
      obtain ⟨hpad, -⟩ | ⟨n, hn, hchar⟩ := Base64.mem_encode hmem
      · exact absurd hpad (by decide)
      · revert n
        decide
  · constructor
    · rw [List.mem_singleton]
      intro hmark
      rw [← hmark] at hencoding
      exact absurd hencoding (by decide)
    · have hdigit : ∀ {c : Char} {n : Nat}, IsHexDigit c n → '?' ≠ c := by
        rintro c n hc rfl
        have hcode : '?'.toNat = 63 := rfl
        rw [IsHexDigit, hcode] at hc
        omega
      generalize utf8 w.text = bytes at htext
      generalize w.encodedText = e at htext
      induction htext with
      | nil => exact List.not_mem_nil
      | space h ih => exact List.not_mem_cons_of_ne_of_not_mem (by decide) ih
      | literal c _ hplain h ih => exact List.not_mem_cons_of_ne_of_not_mem hplain.2.1.symm ih
      | byte c d m n hc hd h ih =>
        exact List.not_mem_cons_of_ne_of_not_mem (by decide) (List.not_mem_cons_of_ne_of_not_mem (hdigit hc)
          (List.not_mem_cons_of_ne_of_not_mem (hdigit hd) ih))

theorem splitWord_chars (w : EncodedWord) (rest : List Char) :
    splitWord (w.charset ++ ['?'] ++ [w.encoding] ++ ['?'] ++ w.encodedText ++ ['?', '='] ++ rest) =
      some (w.charset, [w.encoding], w.encodedText, rest) := by
  have hmark : ¬['?', '='] <:+: w.encodedText :=
    fun h => w.free.2 (h.subset List.mem_cons_self)
  have hall : w.charset ++ ['?'] ++ [w.encoding] ++ ['?'] ++ w.encodedText ++ ['?', '='] ++ rest =
      w.charset ++ '?' :: ([w.encoding] ++ '?' :: (w.encodedText ++ '?' :: '=' :: rest)) := by
    simp only [List.append_assoc, List.cons_append, List.nil_append]
  rw [hall, splitWord, splitOnce_char w.label.1, Option.bind_some, splitOnce_char w.free.1,
    Option.bind_some]
  exact congrArg (Option.map _) (splitOnce_delimiter (p := ['=']) (by decide) hmark rest)

/-! ### Values are decoded -/

theorem skipBetween_plain {p : List Char} (hp : ¬['=', '?'] <:+: p) : skipBetween p = p := by
  have hfront : ∀ {q : List Char}, q <:+ p → ['=', '?'].isPrefixOf q = false := by
    intro q hq
    rw [Bool.eq_false_iff, ne_eq, List.isPrefixOf_iff_prefix]
    exact fun h => hp (h.isInfix.trans hq.isInfix)
  unfold skipBetween
  dsimp only
  rw [hfront (List.suffix_refl p), hfront (List.dropWhile_suffix _)]
  rfl

/-- White space before an encoded word is dropped, and other text is not. -/
theorem skipBetween_word {p : List Char} (hp : ¬['=', '?'] <:+: p) (rest : List Char) :
    skipBetween (p ++ '=' :: '?' :: rest) =
      (if p.all isWhitespace then [] else p) ++ '=' :: '?' :: rest := by
  have hword : ('=' :: '?' :: rest).dropWhile isWhitespace = '=' :: '?' :: rest := rfl
  unfold skipBetween
  dsimp only
  rw [List.dropWhile_append]
  split
  · next hspace =>
    have hall : p.all isWhitespace = true := by
      rw [List.isEmpty_iff, List.dropWhile_eq_nil_iff] at hspace
      exact List.all_eq_true.mpr hspace
    rw [hword, if_pos hall]
    exact if_pos (by simp [List.isPrefixOf])
  · next hspace =>
    have hall : ¬p.all isWhitespace = true := by
      rw [List.isEmpty_iff, List.dropWhile_eq_nil_iff] at hspace
      exact fun h => hspace (List.all_eq_true.mp h)
    have hfront : ∀ {q : List Char}, q ≠ [] → q <:+ p →
        ['=', '?'].isPrefixOf (q ++ '=' :: '?' :: rest) = false := by
      intro q hne hq
      rw [Bool.eq_false_iff, ne_eq, List.isPrefixOf_iff_prefix]
      exact not_prefix_delimiter (p := ['?']) (by decide) hne (fun h => hp (h.trans hq.isInfix)) rest
    have hne : p ≠ [] := by
      rintro rfl
      exact hall rfl
    rw [hfront hne (List.suffix_refl p), hfront (fun h => hspace (List.isEmpty_iff.mpr h))
      (List.dropWhile_suffix _), if_neg hall]
    rfl

theorem length_le_wordsChars (rest : List (EncodedWord × List Char)) :
    rest.length ≤ (wordsChars rest).length := by
  induction rest with
  | nil => exact Nat.zero_le _
  | cons r rest ih =>
    have hword : 0 < r.1.chars.length := Nat.zero_lt_succ _
    rw [wordsChars] at ih ⊢
    rw [List.flatMap_cons, List.length_append, List.length_append, List.length_cons]
    omega

/-- Without a mark, a value is plain text. -/
theorem rest_eq_nil {v : HeaderValue} (h : ¬['=', '?'] <:+: v.chars) : v.rest = [] := by
  cases hrest : v.rest with
  | nil => rfl
  | cons r rest =>
    refine absurd ?_ h
    rw [HeaderValue.chars, hrest]
    exact ⟨v.first, _, List.append_assoc ..⟩

namespace HeaderEnv

variable {env : HeaderEnv} (hbase : ∀ bytes, env.base64 (Base64.standard.encode bytes) = some bytes)
  (hlossy : ∀ s, env.utf8Lossy (utf8 s) = String.ofList s)

include hbase

theorem decodedBytes_valid (w : EncodedWord) :
    env.decodedBytes [w.encoding] w.encodedText = some (utf8 w.text) := by
  have hoctets : octets (String.ofList w.encodedText) = utf8 w.encodedText := by
    rw [octets, String.toList_ofList, utf8]
  obtain ⟨hencoding, htext⟩ | ⟨hencoding, htext⟩ := w.encodes
  · have hletter : String.ofList ([w.encoding].map Char.toUpper) = "B" := by
      obtain h | h := hencoding <;> rw [h] <;> decide
    rw [decodedBytes, hletter, htext]
    exact hbase _
  · have hletter : String.ofList ([w.encoding].map Char.toUpper) = "Q" := by
      obtain h | h := hencoding <;> rw [h] <;> decide
    rw [decodedBytes, hletter, hoctets]
    exact decodeQuotedPrintableHeader_of htext

include hlossy

/-- A valid encoded word is decoded to its text. -/
theorem decodeWord_valid (w : EncodedWord) :
    env.decodeWord w.charset [w.encoding] w.encodedText = w.text := by
  have hcharset : env.decodeCharset w.charset (utf8 w.text) = String.ofList w.text := by
    have hlabel := w.label.2
    unfold decodeCharset
    split
    · exact hlossy _
    · exact hlossy _
    · next heq => exact absurd (by rw [heq]; decide) hlabel
    · next heq => exact absurd (by rw [heq]; decide) hlabel
    · next heq => exact absurd (by rw [heq]; decide) hlabel
    · rw [fromUtf8_utf8]
      rfl
  rw [decodeWord_eq, decodedBytes_valid hbase]
  dsimp only
  rw [hcharset, String.toList_ofList]

/-- Words with plain text between them are decoded one after the other; the induction is on the words,
with the plain text before the next one generalized. -/
theorem decodeWords_wordsChars (rest : List (EncodedWord × List Char)) {p : List Char} {n : Nat}
    (hp : ¬['=', '?'] <:+: p) (hrest : ∀ r ∈ rest, ¬['=', '?'] <:+: r.2) (hn : rest.length < n) :
    env.decodeWords n (p ++ wordsChars rest) = p ++ wordsMeaning rest := by
  induction rest generalizing p n with
  | nil =>
    rw [wordsChars, List.flatMap_nil, List.append_nil, env.decodeWords_none (splitOnce_eq_none.mpr hp)]
    exact (List.append_nil p).symm
  | cons r rest ih =>
    obtain ⟨w, q⟩ := r
    obtain ⟨hq, hrest⟩ := List.forall_mem_cons.mp hrest
    obtain ⟨n, rfl⟩ := Nat.exists_eq_add_of_lt (Nat.lt_of_le_of_lt (Nat.zero_le _) hn)
    have hfirst : splitOnce ['=', '?'] (p ++ wordsChars ((w, q) :: rest)) = some (p, w.charset ++ ['?'] ++
        [w.encoding] ++ ['?'] ++ w.encodedText ++ ['?', '='] ++ (q ++ wordsChars rest)) := by
      have hsplit := splitOnce_delimiter (p := ['?']) (by decide) hp (w.charset ++ ['?'] ++ [w.encoding] ++ ['?'] ++
        w.encodedText ++ ['?', '='] ++ (q ++ wordsChars rest))
      rw [← hsplit, wordsChars, List.flatMap_cons, EncodedWord.chars]
      simp only [wordsChars, List.append_assoc, List.cons_append, List.nil_append]
    rw [Nat.zero_add, env.decodeWords_word hfirst (splitWord_chars w _), decodeWord_valid hbase hlossy]
    rw [List.length_cons] at hn
    cases rest with
    | nil =>
      rw [wordsChars, List.flatMap_nil, List.append_nil, skipBetween_plain hq,
        env.decodeWords_none (splitOnce_eq_none.mpr hq), List.append_assoc]
      rfl
    | cons r' rest =>
      have hword : ∀ q', q' ++ wordsChars (r' :: rest) = q' ++ '=' :: '?' :: (wordsChars (r' :: rest)).drop 2 :=
        fun _ => rfl
      have hkept : ¬['=', '?'] <:+: if q.all isWhitespace then [] else q := by
        split
        · exact fun h => absurd (List.infix_nil.mp h) (List.cons_ne_nil _ _)
        · exact hq
      rw [hword, skipBetween_word hq, ← hword, ih hkept hrest (by omega), List.append_assoc, wordsMeaning]
      simp only [List.append_assoc]

/-- A value of encoded words and plain text is decoded to what it stands for, and every text is
decoded to something, without a cut within a character. -/
theorem scanRfc2047_value : (∀ v : HeaderValue,
      env.scanRfc2047 (String.ofList v.chars) = .ok (String.ofList v.meaning)) ∧
    ∀ input, ∃ output, env.scanRfc2047 input = .ok output := by
  constructor
  · intro v
    obtain ⟨hfirst, hrest⟩ := List.forall_mem_cons.mp v.plain
    have hlength : v.rest.length < v.chars.length + 1 := by
      have hwords := length_le_wordsChars v.rest
      rw [HeaderValue.chars, List.length_append]
      omega
    have hwords := decodeWords_wordsChars hbase hlossy v.rest hfirst
      (fun r hr => hrest r.2 (List.mem_map_of_mem hr)) hlength
    rw [scanRfc2047_eq, decodeRfc2047]
    split
    · next hplain =>
      have hmark : ¬['=', '?'] <:+: v.chars := by
        rw [Bool.not_eq_true', ← Bool.not_eq_true, strContains_iff] at hplain
        intro hinfix
        apply hplain
        rw [String.toList_ofList (l := v.chars)]
        exact hinfix
      rw [HeaderValue.meaning, HeaderValue.chars, rest_eq_nil hmark]
      rfl
    · rw [String.toList_ofList]
      exact congrArg (Except.ok ∘ String.ofList) hwords
  · exact fun input => ⟨_, env.scanRfc2047_eq input⟩

end HeaderEnv

/-- A subject with a word of either encoding, and white space between the two. -/
def accentedSubject : HeaderValue where
  first := "Re: ".toList
  rest := [
    ({ charset := "utf-8".toList, encoding := 'B', encodedText := "w6k=".toList, text := ['é'],
       label := by decide, encodes := .inl ⟨by decide, by decide⟩ }, [' ']),
    ({ charset := "utf-8".toList, encoding := 'q', encodedText := "_x=C3=A9".toList, text := " xé".toList,
       label := by decide
       encodes := .inr ⟨by decide, .space (.literal 'x' (by decide) (by decide)
         (.byte 'C' '3' 12 3 (.inr (by decide)) (.inl (by decide))
           (.byte 'A' '9' 10 9 (.inr (by decide)) (.inl (by decide)) .nil)))⟩ }, " y".toList)]
  plain := by decide

theorem scanRfc2047_accentedSubject :
    let env : HeaderEnv := ⟨Base64.standard.decode, fromUtf8Lossy, id, fun _ => 0, fun _ => none⟩
    env.scanRfc2047 "Re: =?utf-8?B?w6k=?= =?utf-8?q?_x=C3=A9?= y" = .ok "Re: é xé y" := by
  intro env
  have hbase := Base64.decode_encode Base64.proper_standard
  exact (@HeaderEnv.scanRfc2047_value env hbase fromUtf8Lossy_utf8).1 accentedSubject

end Rav
