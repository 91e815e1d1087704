import Mathlib.Data.List.Chain
import Rav.EncodedWords
import Rav.Smtp.PgpMime

/-!
# Signed texts

The text of a message and what the first part of its signed envelope holds. The text was written by the
mail library, in a transfer encoding, and is found again between lines of the message.

## Main definitions

- `QuotedPrintable`, `Transfers` — transfer encodings
- `TextMessage` — a message with a text
- `firstPart` — the first part of an envelope
- `wrapPgpMime_sign` — when that is the text
-/

namespace Rav

/-! ### Line ends -/

def inLine (c : Char) : Bool := c ≠ '\r' && c ≠ '\n'

/-- What is within the lines stays. -/
theorem filter_crlfChars (s : List Char) : (crlfChars s).filter inLine = s.filter inLine := by
  fun_induction crlfChars s with
  | case1 cs ih => exact ih
  | case2 cs _ ih => exact ih
  | case3 cs ih => exact ih
  | case4 c cs _ _ _ ih => rw [List.filter_cons, List.filter_cons, ih]
  | case5 => rfl

theorem crlfChars_cons {c : Char} (hc : inLine c = true) (s : List Char) :
    crlfChars (c :: s) = c :: crlfChars s := by
  have hc : c ≠ '\r' ∧ c ≠ '\n' := by simpa [inLine] using hc
  rw [crlfChars.eq_4]
  · exact fun _ h => absurd h hc.1
  · exact hc.1
  · exact hc.2

theorem count_crlfChars {d : Char} (hd : inLine d = true) (s : List Char) :
    (crlfChars s).count d = s.count d := by
  rw [← List.count_filter hd, filter_crlfChars, List.count_filter hd]

theorem prefix_of_prefix_crlfChars {p s : List Char} (hp : OneLine p) (h : p <+: crlfChars s) : p <+: s := by
  induction p generalizing s with
  | nil => exact List.nil_prefix
  | cons d p ih =>
    obtain ⟨hd, hp⟩ := List.forall_mem_cons.mp hp
    unfold crlfChars at h
    split at h
    · exact absurd (List.cons_prefix_cons.mp h).1 hd.1
    · exact absurd (List.cons_prefix_cons.mp h).1 hd.1
    · exact absurd (List.cons_prefix_cons.mp h).1 hd.1
    · obtain ⟨rfl, hrest⟩ := List.cons_prefix_cons.mp h
      exact (List.prefix_cons_inj d).mpr (ih hp hrest)
    · exact absurd (List.prefix_nil.mp h) (List.cons_ne_nil d p)

/-- What stands in a line of the text with other line ends stands in the text. -/
theorem infix_of_infix_crlfChars {p s : List Char} (hp : OneLine p) (hne : p ≠ [])
    (h : p <:+: crlfChars s) : p <:+: s := by
  have hskip : ∀ {c : Char} {t : List Char}, c = '\r' ∨ c = '\n' → p <:+: c :: t → p <:+: t := by
    intro c t hc hinfix
    obtain hprefix | hinfix := List.infix_cons_iff.mp hinfix
    · obtain ⟨d, p, rfl⟩ := List.exists_cons_of_ne_nil hne
      obtain ⟨rfl, -⟩ := List.cons_prefix_cons.mp hprefix
      obtain ⟨hreturn, hfeed⟩ := hp d List.mem_cons_self
      exact absurd hc (not_or.mpr ⟨hreturn, hfeed⟩)
    · exact hinfix
  fun_induction crlfChars s with
  | case1 cs ih =>
    exact (ih (hskip (.inr rfl) (hskip (.inl rfl) h))).trans (List.suffix_append crlf cs).isInfix
  | case2 cs _ ih => exact List.infix_cons (ih (hskip (.inr rfl) (hskip (.inl rfl) h)))
  | case3 cs ih => exact List.infix_cons (ih (hskip (.inr rfl) (hskip (.inl rfl) h)))
  | case4 c cs _ _ _ ih =>
    obtain hprefix | hinfix := List.infix_cons_iff.mp h
    · obtain ⟨d, p, rfl⟩ := List.exists_cons_of_ne_nil hne
      obtain ⟨rfl, hrest⟩ := List.cons_prefix_cons.mp hprefix
      replace hrest := prefix_of_prefix_crlfChars (List.forall_mem_cons.mp hp).2 hrest
      exact ((List.prefix_cons_inj d).mpr hrest).isInfix
    · exact List.infix_cons (ih hinfix)
  | case5 => exact h

/-! ### Transfer encodings -/

/-- A text in quoted-printable, and the bytes it stands for. -/
inductive QuotedPrintable : List Char → List UInt8 → Prop
  | nil : QuotedPrintable [] []
  | literal {e : List Char} {bytes : List UInt8} (c : Char)
    (hprint : c = '\t' ∨ 32 ≤ c.toNat ∧ c.toNat ≤ 126) (hplain : c ≠ '=')
    (h : QuotedPrintable e bytes) : QuotedPrintable (c :: e) (UInt8.ofNat c.toNat :: bytes)
  | byte {e : List Char} {bytes : List UInt8} (c d : Char) (m n : Nat) (hc : IsHexDigit c m)
    (hd : IsHexDigit d n) (h : QuotedPrintable e bytes) :
    QuotedPrintable ('=' :: c :: d :: e) (UInt8.ofNat (16 * m + n) :: bytes)
  | softBreak {e : List Char} {bytes : List UInt8} (h : QuotedPrintable e bytes) :
    QuotedPrintable ('=' :: '\r' :: '\n' :: e) bytes
  | lineBreak {e : List Char} {bytes : List UInt8} (h : QuotedPrintable e bytes) :
    QuotedPrintable ('\r' :: '\n' :: e) (13 :: 10 :: bytes)

/-- How a text is sent: as it is, in quoted-printable, or in lines of base64. -/
inductive Transfers (content : List Char) : List Char → Prop
  | unchanged : Transfers content content
  | quotedPrintable {encoded : List Char} (h : QuotedPrintable encoded (utf8 content)) :
    Transfers content encoded
  | base64 {lines : List (List Char)} (hfull : ∀ line ∈ lines, line ≠ [])
    (h : lines.flatten = Base64.standard.encode (utf8 content)) :
    Transfers content (crlf.intercalate lines)

theorem hexDigit_inLine {c : Char} {n : Nat} (h : IsHexDigit c n) : inLine c = true ∧ c ≠ '-' := by
  have hcode : ∀ d : Char, d.toNat < 48 → c ≠ d := by
    rintro d hd rfl
    obtain ⟨-, hc⟩ | ⟨-, -, hc | hc⟩ := h
    · omega
    · omega
    · omega
  refine ⟨?_, hcode '-' (by decide)⟩
  rw [inLine, Bool.and_eq_true, decide_eq_true_eq, decide_eq_true_eq]
  exact ⟨hcode '\r' (by decide), hcode '\n' (by decide)⟩

/-- Dashes are only written for dashes. -/
theorem QuotedPrintable.count_le {e : List Char} {bytes : List UInt8} (h : QuotedPrintable e bytes) :
    e.count '-' ≤ bytes.count 45 := by
  induction h with
  | nil => exact Nat.le_refl 0
  | literal c _ _ h ih =>
    by_cases hc : c = '-'
    · rw [hc, List.count_cons_self]
      exact (Nat.succ_le_succ ih).trans (Nat.le_of_eq List.count_cons_self.symm)
    · rw [List.count_cons_of_ne hc]
      exact ih.trans List.count_le_count_cons
  | byte c d m n hc hd h ih =>
    rw [List.count_cons_of_ne (by decide), List.count_cons_of_ne (hexDigit_inLine hc).2,
      List.count_cons_of_ne (hexDigit_inLine hd).2]
    exact ih.trans List.count_le_count_cons
  | softBreak h ih => exact ih
  | lineBreak h ih => exact ih

theorem count_utf8 (s : List Char) : (utf8 s).count 45 = s.count '-' := by
  induction s with
  | nil => rfl
  | cons c s ih =>
    rw [utf8_cons, List.count_append, ih]
    by_cases hc : c = '-'
    · rw [hc, List.count_cons_self, Nat.add_comm]
      rfl
    · have hmem : (45 : UInt8) ∉ String.utf8EncodeChar c := by
        rw [Sieve.mem_utf8EncodeChar (by decide)]
        exact fun hcode => hc (Char.toNat_inj.mp hcode)
      rw [List.count_eq_zero_of_not_mem hmem, List.count_cons_of_ne hc, Nat.zero_add]

/-- A byte within a line. -/
def inLineByte (b : UInt8) : Bool := b ≠ 13 && b ≠ 10

theorem filter_utf8 (s : List Char) : (utf8 s).filter inLineByte = utf8 (s.filter inLine) := by
  induction s with
  | nil => rfl
  | cons c s ih =>
    rw [utf8_cons, List.filter_append, ih]
    by_cases hc : inLine c = true
    · have hall : (String.utf8EncodeChar c).filter inLineByte = String.utf8EncodeChar c := by
        rw [List.filter_eq_self]
        intro b hb
        rw [inLine, Bool.and_eq_true, decide_eq_true_eq, decide_eq_true_eq] at hc
        rw [inLineByte, Bool.and_eq_true, decide_eq_true_eq, decide_eq_true_eq]
        constructor
        · rintro rfl
          exact hc.1 (Char.toNat_inj.mp ((Sieve.mem_utf8EncodeChar (by decide)).mp hb))
        · rintro rfl
          exact hc.2 (Char.toNat_inj.mp ((Sieve.mem_utf8EncodeChar (by decide)).mp hb))
      rw [List.filter_cons_of_pos hc, utf8_cons, hall]
    · have hend : c = '\r' ∨ c = '\n' := by
        rw [inLine, Bool.and_eq_true, decide_eq_true_eq, decide_eq_true_eq] at hc
        exact or_iff_not_and_not.mpr hc
      rw [List.filter_cons_of_neg hc]
      obtain rfl | rfl := hend <;> rfl

/-- An encoding is no shorter than what it stands for, and is the same where it is not longer. -/
theorem QuotedPrintable.length_le {e : List Char} {bytes : List UInt8} (h : QuotedPrintable e bytes) :
    (bytes.filter inLineByte).length ≤ (e.filter inLine).length ∧
      ((bytes.filter inLineByte).length = (e.filter inLine).length → utf8 e = bytes) := by
  have hmark : inLine '=' = true := by decide
  induction h with
  | nil => exact ⟨Nat.le_refl 0, fun _ => rfl⟩
  | literal c hprint _ h ih =>
    have hascii : c.toNat < 128 := by
      obtain rfl | hprint := hprint
      · decide
      · omega
    have hcode : c.toNat ≠ 13 ∧ c.toNat ≠ 10 := by
      obtain rfl | hprint := hprint
      · decide
      · omega
    have hline : inLine c = true ∧ inLineByte (UInt8.ofNat c.toNat) = true := by
      have hbyte : ∀ n < 256, UInt8.ofNat c.toNat = UInt8.ofNat n → c.toNat = n := by
        intro n hn heq
        have hnat := congrArg UInt8.toNat heq
        rw [UInt8.toNat_ofNat', UInt8.toNat_ofNat'] at hnat
        omega
      rw [inLine, inLineByte, Bool.and_eq_true, Bool.and_eq_true]
      simp only [decide_eq_true_eq]
      refine ⟨⟨?_, ?_⟩, fun heq => hcode.1 (hbyte 13 (by decide) heq),
        fun heq => hcode.2 (hbyte 10 (by decide) heq)⟩
      · rintro rfl
        exact hcode.1 rfl
      · rintro rfl
        exact hcode.2 rfl
    rw [List.filter_cons_of_pos hline.1, List.filter_cons_of_pos hline.2, List.length_cons,
      List.length_cons, utf8_cons, utf8EncodeChar_ascii hascii]
    refine ⟨Nat.succ_le_succ ih.1, fun heq => ?_⟩
    exact congrArg _ (ih.2 (Nat.succ.inj heq))
  | byte c d m n hc hd h ih =>
    rw [List.filter_cons_of_pos hmark, List.filter_cons_of_pos (hexDigit_inLine hc).1,
      List.filter_cons_of_pos (hexDigit_inLine hd).1, List.filter_cons]
    have hle := ih.1
    split
    · constructor
      · simp only [List.length_cons]
        omega
      · intro heq
        simp only [List.length_cons] at heq
        omega
    · constructor
      · simp only [List.length_cons]
        omega
      · intro heq
        simp only [List.length_cons] at heq
        omega
  | softBreak h ih =>
    have hend : ∀ e : List Char, ('\r' :: '\n' :: e).filter inLine = e.filter inLine := fun _ => rfl
    have hle := ih.1
    rw [List.filter_cons_of_pos hmark, hend, List.length_cons]
    exact ⟨by omega, fun heq => by omega⟩
  | lineBreak h ih => exact ⟨ih.1, fun heq => congrArg (fun bytes => 13 :: 10 :: bytes) (ih.2 heq)⟩

/-! ### What is sent of a text -/

theorem mem_base64 {c : Char} {bytes : List UInt8} (hc : c ∈ Base64.standard.encode bytes) :
    inLine c = true ∧ c ≠ '-' := by
  obtain ⟨rfl, -⟩ | ⟨n, hn, rfl⟩ := Base64.mem_encode hc
  · decide
  · have hchars : ∀ n < 64, inLine (Base64.standard.char n) = true ∧ Base64.standard.char n ≠ '-' := by
      decide
    exact hchars n hn

theorem filter_lines {lines : List (List Char)} (h : ∀ c ∈ lines.flatten, inLine c = true) :
    (crlf.intercalate lines).filter inLine = lines.flatten := by
  induction lines with
  | nil => rfl
  | cons line lines ih =>
    rw [List.flatten_cons, List.forall_mem_append] at h
    by_cases hnil : lines = []
    · rw [hnil, List.intercalate_singleton, List.flatten_singleton, List.filter_eq_self]
      exact h.1
    · rw [intercalate_cons hnil, List.filter_append, List.filter_append, ih h.2, List.filter_eq_self.mpr h.1]
      rfl

namespace Transfers

variable {content encoded : List Char}

/-- Lines of base64 do not begin with the end of a line. -/
theorem head?_base64 {lines : List (List Char)} (hfull : ∀ line ∈ lines, line ≠ [])
    (h : lines.flatten = Base64.standard.encode (utf8 content)) {c : Char}
    (hc : (crlf.intercalate lines).head? = some c) : inLine c = true := by
  cases lines with
  | nil => exact absurd hc (Option.some_ne_none c).symm
  | cons line lines =>
    obtain ⟨d, line, rfl⟩ := List.exists_cons_of_ne_nil (hfull line List.mem_cons_self)
    rw [List.intercalate_cons_cons_left, List.head?_cons] at hc
    obtain rfl := Option.some.inj hc
    have hmem : d ∈ ((d :: line) :: lines).flatten := List.mem_append_left _ List.mem_cons_self
    exact (mem_base64 (h ▸ hmem)).1

theorem count_le (h : Transfers content encoded) : encoded.count '-' ≤ content.count '-' := by
  cases h with
  | unchanged => exact Nat.le_refl _
  | quotedPrintable h => exact h.count_le.trans (Nat.le_of_eq (count_utf8 content))
  | base64 hfull h =>
    rw [List.count_eq_zero_of_not_mem]
    · exact Nat.zero_le _
    · intro hmem
      obtain hmem | ⟨line, hline, hmem⟩ := of_mem_intercalate hmem
      · exact absurd hmem (by decide)
      · exact (mem_base64 (h ▸ List.mem_flatten_of_mem hline hmem)).2 rfl

theorem eq_nil_of_utf8 (h : utf8 content = []) : content = [] := by
  have hle := length_le_utf8 content
  rw [h] at hle
  exact List.length_eq_zero_iff.mp (Nat.le_zero.mp hle)

theorem content_eq_nil (h : Transfers content encoded) (hnil : encoded = []) : content = [] := by
  cases h with
  | unchanged => exact hnil
  | quotedPrintable h =>
    have hbytes : ∀ {bytes : List UInt8}, QuotedPrintable [] bytes → bytes = [] := by
      intro bytes h
      cases h
      rfl
    exact eq_nil_of_utf8 (hbytes (hnil ▸ h))
  | @base64 lines hfull h =>
    cases lines with
    | nil =>
      refine eq_nil_of_utf8 (by_contra fun hne => ?_)
      have hlength := Base64.length_lt_encode (b := .standard) hne
      rw [← h] at hlength
      exact absurd hlength (Nat.not_lt_zero _)
    | cons line lines =>
      obtain ⟨d, line, rfl⟩ := List.exists_cons_of_ne_nil (hfull line List.mem_cons_self)
      rw [List.intercalate_cons_cons_left] at hnil
      exact absurd hnil (List.cons_ne_nil _ _)

/-- The end of a line is sent as it is. -/
theorem of_crlf {full : List Char} (h : Transfers content full) (hfull : full = crlf ++ encoded) :
    ∃ rest, content = crlf ++ rest ∧ Transfers rest encoded := by
  cases h with
  | unchanged => exact ⟨encoded, hfull, .unchanged⟩
  | quotedPrintable h =>
    have hbytes : ∀ {bytes : List UInt8}, QuotedPrintable (crlf ++ encoded) bytes →
        ∃ rest, bytes = utf8 crlf ++ rest ∧ QuotedPrintable encoded rest := by
      intro bytes h
      cases h with
      | literal c hprint _ _ => exact absurd hprint (by decide)
      | lineBreak h => exact ⟨_, rfl, h⟩
    obtain ⟨bytes, hcontent, hencoded⟩ := hbytes (hfull ▸ h)
    have hprefix : utf8 crlf <+: utf8 content := hcontent ▸ List.prefix_append (utf8 crlf) bytes
    obtain ⟨rest, rfl⟩ := Sieve.selfSync_utf8.prefix_of_flatMap hprefix
    rw [utf8_append] at hcontent
    exact ⟨rest, rfl, .quotedPrintable (List.append_cancel_left hcontent ▸ hencoded)⟩
  | base64 hne h =>
    have hhead := head?_base64 hne h (c := '\r')
    rw [hfull] at hhead
    exact absurd (hhead rfl) (by decide)

/-- Behind the ends of lines at the front there is no line feed, and a carriage return only in a text
that is sent as it is. -/
theorem head?_cases (h : Transfers content encoded) (hfeed : content.head? ≠ some '\n')
    (hfirst : ¬crlf <+: encoded) : encoded.head? ≠ some '\n' ∧
      (encoded.head? = some '\r' → encoded = content) := by
  cases h with
  | unchanged => exact ⟨hfeed, fun _ => rfl⟩
  | quotedPrintable h =>
    have hline : ∀ {bytes : List UInt8} {c : Char}, QuotedPrintable encoded bytes →
        encoded.head? = some c → inLine c = true := by
      intro bytes c h hc
      cases h with
      | nil => exact absurd hc (Option.some_ne_none c).symm
      | literal d hprint _ _ =>
        obtain rfl := Option.some.inj hc
        rw [inLine, Bool.and_eq_true, decide_eq_true_eq, decide_eq_true_eq]
        constructor
        · rintro rfl
          exact absurd hprint (by decide)
        · rintro rfl
          exact absurd hprint (by decide)
      | byte _ _ _ _ _ _ _ => exact Option.some.inj hc ▸ (by decide)
      | softBreak _ => exact Option.some.inj hc ▸ (by decide)
      | lineBreak _ => exact absurd (List.prefix_append crlf _) hfirst
    exact ⟨fun hc => absurd (hline h hc) (by decide), fun hc => absurd (hline h hc) (by decide)⟩
  | base64 hfull h =>
    exact ⟨fun hc => absurd (head?_base64 hfull h hc) (by decide),
      fun hc => absurd (head?_base64 hfull h hc) (by decide)⟩

/-- What has the lines of the text is the text. -/
theorem eq_content (h : Transfers content encoded) (hlines : crlfChars encoded = crlfChars content) :
    encoded = content := by
  have hfilter : encoded.filter inLine = content.filter inLine := by
    rw [← filter_crlfChars, hlines, filter_crlfChars]
  have hwide := length_le_utf8 (content.filter inLine)
  cases h with
  | unchanged => rfl
  | quotedPrintable h =>
    obtain ⟨hle, heq⟩ := h.length_le
    rw [filter_utf8, hfilter] at hle heq
    exact Sieve.selfSync_utf8.flatMap_inj.mp (heq (Nat.le_antisymm hle hwide))
  | @base64 lines hfull h =>
    have hchars : ∀ c ∈ lines.flatten, inLine c = true := fun c hc => (mem_base64 (h ▸ hc)).1
    rw [filter_lines hchars, h] at hfilter
    have hnil : utf8 content = [] := by
      by_contra hne
      have hlength := Base64.length_lt_encode (b := .standard) hne
      have hcontent := List.length_filter_le inLine content
      rw [hfilter] at hlength
      have hutf8 := length_le_utf8 content
      omega
    rw [hnil] at h
    cases lines with
    | nil => exact (eq_nil_of_utf8 hnil).symm
    | cons line lines =>
      have hline := (List.append_eq_nil_iff.mp (show line ++ lines.flatten = [] from h)).1
      exact absurd hline (hfull line List.mem_cons_self)

end Transfers

/-! ### The text of a message -/

/-- A message whose first part is a text, and how that is laid out: what stands before the part, its header
from its type on, and what was sent of the text before the next boundary. The content is the text with its
line feeds as ends of lines. -/
structure TextMessage (text : List Char) extends FormattedMessage where
  preamble : List Char
  header : List (List Char)
  content : List Char
  encoded : List Char
  rest : List Char
  layout : body = preamble ++ ("Content-Type: text/plain".toList ++ (crlf.intercalate header ++
    (crlf ++ crlf ++ (encoded ++ (crlf ++ ['-', '-'] ++ rest)))))
  first : ¬"Content-Type: text/plain".toList <:+: preamble
  full : header ≠ [] ∧ FullLines header
  feeds : (' ' :: content).IsChain (fun c d => d = '\n' → c = '\r')
  lines : crlfChars content = crlfChars text
  transfers : Transfers content encoded

/-- What is taken of a part behind the blank line. -/
def cutPart (part : List Char) : List Char :=
  let text := (dropPrefixes crlf part).dropWhile (· = '\n')
  let boundary := (splitOnce (crlf ++ ['-', '-']) text).or (splitOnce ['\n', '-', '-'] text)
  (boundary.map Prod.fst).getD text

theorem crlf_ne_nil : crlf ≠ [] := List.cons_ne_nil _ _

/-- Ends of lines at the front are dropped. -/
theorem cutPart_leading (k : Nat) (part : List Char) :
    cutPart ((List.replicate k crlf).flatten ++ part) = cutPart part := by
  induction k with
  | zero => rfl
  | succ k ih =>
    rw [← ih, List.replicate_succ, List.flatten_cons, List.append_assoc, cutPart,
      dropPrefixes_append crlf_ne_nil]
    rfl

section Cut

variable {t : List Char} (hne : t ≠ []) (hfeed : t.head? ≠ some '\n') (hfirst : ¬crlf <+: t)

include hne hfeed hfirst

/-- Other text is not. -/
theorem dropped_eq (rest : List Char) :
    (dropPrefixes crlf (t ++ (crlf ++ ['-', '-'] ++ rest))).dropWhile (· = '\n') =
      t ++ (crlf ++ ['-', '-'] ++ rest) := by
  obtain ⟨c, t, rfl⟩ := List.exists_cons_of_ne_nil hne
  have hfirst' : ¬crlf <+: c :: t ++ (crlf ++ ['-', '-'] ++ rest) := by
    intro h
    rw [List.cons_append] at h
    obtain ⟨rfl, hnext⟩ := List.cons_prefix_cons.mp h
    cases t with
    | nil => exact absurd (List.cons_prefix_cons.mp hnext).1 (by decide)
    | cons d t =>
      obtain ⟨rfl, -⟩ := List.cons_prefix_cons.mp hnext
      exact hfirst (List.prefix_append crlf t)
  have hc : ¬decide (c = '\n') = true := fun h => hfeed (congrArg some (of_decide_eq_true h))
  rw [dropPrefixes_of_not hfirst', List.cons_append,
    List.dropWhile_cons_of_neg (p := fun x => decide (x = '\n')) hc]

/-- A text without a line that begins with dashes is found. -/
theorem cutPart_text (hdash : ¬(crlf ++ ['-', '-']) <:+: t) (rest : List Char) :
    cutPart (t ++ (crlf ++ ['-', '-'] ++ rest)) = t := by
  have hcut : splitOnce (crlf ++ ['-', '-']) (t ++ (crlf ++ ['-', '-'] ++ rest)) = some (t, rest) :=
    splitOnce_delimiter (p := ['\n', '-', '-']) (by decide) hdash rest
  rw [cutPart, dropped_eq hne hfeed hfirst, hcut]
  rfl

/-- A text is cut at such a line. -/
theorem cutPart_dashes (hdash : (crlf ++ ['-', '-']) <:+: t) (rest : List Char) :
    ∃ after, t = cutPart (t ++ (crlf ++ ['-', '-'] ++ rest)) ++ (crlf ++ ['-', '-'] ++ after) := by
  cases hsplit : splitOnce (crlf ++ ['-', '-']) t with
  | none => exact absurd hdash (splitOnce_eq_none.mp hsplit)
  | some r =>
    obtain ⟨before, after⟩ := r
    obtain ⟨ht, hbefore⟩ := splitOnce_eq_some (List.cons_ne_nil _ _) hsplit
    have hcut : splitOnce (crlf ++ ['-', '-']) (t ++ (crlf ++ ['-', '-'] ++ rest)) =
        some (before, after ++ (crlf ++ ['-', '-'] ++ rest)) := by
      have hfound := splitOnce_delimiter (c := '\r') (p := ['\n', '-', '-']) (by decide) hbefore
        (after ++ (crlf ++ ['-', '-'] ++ rest))
      rw [← hfound, ht]
      simp only [List.append_assoc]
      rfl
    refine ⟨after, ?_⟩
    rw [cutPart, dropped_eq hne hfeed hfirst, hcut, ← List.append_assoc]
    exact ht

end Cut

/-- Without a text, the boundary is taken for one. -/
theorem cutPart_boundary (rest : List Char) :
    ∃ t, cutPart (crlf ++ ['-', '-'] ++ rest) = '-' :: t := by
  have hdash : ∀ {p : List Char} {r : List Char × List Char}, p ≠ [] → p.head? ≠ some '-' →
      splitOnce p ('-' :: '-' :: rest) = some r → ∃ t, r.1 = '-' :: t := by
    intro p r hp hhead h
    obtain ⟨-, heq, -⟩ | ⟨c, b, s, hb, heq, -⟩ := splitOnce_cases (b := r.1) (a := r.2) hp h
    · obtain ⟨d, p, rfl⟩ := List.exists_cons_of_ne_nil hp
      exact absurd (congrArg some (List.cons.inj heq).1) hhead
    · exact ⟨b, hb.trans (congrArg (· :: b) (List.cons.inj heq).1.symm)⟩
  have hdropped : (dropPrefixes crlf (crlf ++ ['-', '-'] ++ rest)).dropWhile (· = '\n') =
      '-' :: '-' :: rest := by
    have hfirst : ¬crlf <+: '-' :: '-' :: rest :=
      fun h => absurd (List.cons_prefix_cons.mp h).1 (by decide)
    rw [List.append_assoc, dropPrefixes_append crlf_ne_nil]
    change (dropPrefixes crlf ('-' :: '-' :: rest)).dropWhile _ = _
    rw [dropPrefixes_of_not hfirst]
    rfl
  unfold cutPart
  rw [hdropped]
  dsimp only
  cases hboundary : splitOnce (crlf ++ ['-', '-']) ('-' :: '-' :: rest) with
  | some r => exact hdash (List.cons_ne_nil _ _) (by decide) hboundary
  | none =>
    rw [Option.none_or]
    cases hlate : splitOnce ['\n', '-', '-'] ('-' :: '-' :: rest) with
    | some r => exact hdash (List.cons_ne_nil _ _) (by decide) hlate
    | none => exact ⟨_, rfl⟩

namespace TextMessage

variable {text : List Char} (m : TextMessage text)

/-- What the code takes for the text. -/
theorem extractTextBody_chars :
    extractTextBody m.chars = cutPart (m.encoded ++ (crlf ++ ['-', '-'] ++ m.rest)) := by
  have hbody : (splitBlank m.chars).map Prod.snd = some m.body := by
    rw [FormattedMessage.chars, splitBlank_headerBlock m.fields_ne_nil]
    rfl
  let part := m.encoded ++ (crlf ++ ['-', '-'] ++ m.rest)
  have htype : splitOnce "Content-Type: text/plain".toList (m.preamble ++ ("Content-Type: text/plain".toList ++
      (crlf.intercalate m.header ++ (crlf ++ crlf ++ part)))) =
        some (m.preamble, crlf.intercalate m.header ++ (crlf ++ crlf ++ part)) :=
    splitOnce_delimiter (c := 'C') (p := "ontent-Type: text/plain".toList) (by decide) m.first _
  have hblank : fromBlank (crlf.intercalate m.header ++ (crlf ++ crlf ++ part)) =
      some (crlf ++ (crlf ++ part)) := by
    rw [fromBlank, splitOnce_blank_lines m.full.1 m.full.2, Option.map_some, Option.some_or,
      List.append_assoc]
  have hpart : textPart m.body = some (cutPart (crlf ++ (crlf ++ part))) := by
    unfold textPart
    rw [m.layout, htype]
    dsimp only [Option.bind_eq_bind, Option.bind_some]
    rw [hblank]
    rfl
  rw [extractTextBody, hbody, Option.getD_some, hpart, Option.getD_some, cutPart,
    dropPrefixes_append crlf_ne_nil, dropPrefixes_append crlf_ne_nil]
  rfl

/-- The condition: the text is sent as it is, has something in it, does not begin with an empty line, and
no later line of it begins with two dashes. -/
def Recoverable : Prop :=
  m.encoded = m.content ∧ m.content ≠ [] ∧ ¬crlf <+: m.content ∧ ¬(crlf ++ ['-', '-']) <:+: m.content

end TextMessage

/-- Ends of lines at the front are sent as they are. -/
theorem Transfers.exists_leading {content encoded : List Char} (h : Transfers content encoded) :
    ∃ k rest t, content = (List.replicate k crlf).flatten ++ rest ∧
      encoded = (List.replicate k crlf).flatten ++ t ∧ Transfers rest t ∧ ¬crlf <+: t := by
  induction hn : encoded.length using Nat.strongRecOn generalizing content encoded with
  | ind n ih =>
    by_cases hfirst : crlf <+: encoded
    · obtain ⟨t, rfl⟩ := hfirst
      obtain ⟨rest, rfl, hrest⟩ := h.of_crlf rfl
      have hlt : t.length < n := by
        rw [← hn, List.length_append]
        exact Nat.lt_add_of_pos_left (by decide)
      obtain ⟨k, rest, t, rfl, rfl, hrest, hfirst⟩ := ih t.length hlt hrest rfl
      refine ⟨k + 1, rest, t, ?_, ?_, hrest, hfirst⟩
      · rw [List.replicate_succ, List.flatten_cons, List.append_assoc]
      · rw [List.replicate_succ, List.flatten_cons, List.append_assoc]
    · exact ⟨0, content, encoded, rfl, rfl, h, hfirst⟩

theorem crlfChars_leading (k : Nat) (s : List Char) :
    crlfChars ((List.replicate k crlf).flatten ++ s) = (List.replicate k crlf).flatten ++ crlfChars s := by
  induction k with
  | zero => rfl
  | succ k ih =>
    rw [List.replicate_succ, List.flatten_cons, List.append_assoc, List.append_assoc, ← ih]
    rfl

namespace TextMessage

variable {text : List Char} (m : TextMessage text)

theorem head?_content_ne {k : Nat} {rest : List Char}
    (h : m.content = (List.replicate k crlf).flatten ++ rest) : rest.head? ≠ some '\n' := by
  intro hhead
  obtain ⟨after, rfl⟩ := List.head?_eq_some_iff.mp hhead
  have hfeeds := m.feeds
  rw [h] at hfeeds
  cases k with
  | zero => exact absurd ((List.isChain_cons_cons.mp hfeeds).1 rfl) (by decide)
  | succ k =>
    rw [List.replicate_succ', List.flatten_append, List.flatten_singleton] at hfeeds
    have hlast : ['\n', '\n'] <:+: ' ' :: ((List.replicate k crlf).flatten ++ crlf ++ '\n' :: after) :=
      ⟨' ' :: ((List.replicate k crlf).flatten ++ ['\r']), after, by simp [crlf]⟩
    have hpair := List.IsChain.infix hfeeds hlast
    have hreturn : '\n' = '\r' := (List.isChain_cons_cons.mp hpair).1 rfl
    exact absurd hreturn (by decide)

/-- What is taken for the text is the text under the condition only. -/
theorem cutPart_iff :
    crlfChars (cutPart (m.encoded ++ (crlf ++ ['-', '-'] ++ m.rest))) = crlfChars text ↔
      m.Recoverable := by
  rw [← m.lines]
  constructor
  · intro h
    obtain ⟨k, rest, t, hcontent, hencoded, hrest, hfirst⟩ := m.transfers.exists_leading
    obtain ⟨hfeed, hreturn⟩ := hrest.head?_cases (m.head?_content_ne hcontent) hfirst
    rw [hencoded, List.append_assoc, cutPart_leading] at h
    have hcount : (cutPart (t ++ (crlf ++ ['-', '-'] ++ m.rest))).count '-' = m.content.count '-' := by
      rw [← count_crlfChars (by decide), h, count_crlfChars (by decide)]
    by_cases hne : t = []
    · -- the boundary has dashes, and ends of lines have none
      obtain ⟨x, hx⟩ := cutPart_boundary m.rest
      have hnone : '-' ∉ (List.replicate k crlf).flatten := by
        intro hmem
        obtain ⟨line, hline, hmem⟩ := List.mem_flatten.mp hmem
        rw [List.eq_of_mem_replicate hline] at hmem
        exact absurd hmem (by decide)
      rw [hne, List.nil_append, hx, hcontent, hrest.content_eq_nil hne, List.append_nil,
        List.count_cons_self, List.count_eq_zero_of_not_mem hnone] at hcount
      exact absurd hcount (Nat.succ_ne_zero _)
    by_cases hdash : (crlf ++ ['-', '-']) <:+: t
    · -- the dashes of the line it is cut at would be missing
      obtain ⟨after, ht⟩ := cutPart_dashes hne hfeed hfirst hdash m.rest
      have hle := m.transfers.count_le
      have htwo : (crlf ++ ['-', '-']).count '-' = 2 := rfl
      have ht := congrArg (List.count '-') ht
      rw [List.count_append, List.count_append, htwo] at ht
      rw [hencoded, List.count_append] at hle
      omega
    rw [cutPart_text hne hfeed hfirst hdash] at h
    cases k with
    | zero =>
      have hcontent : m.content = rest := hcontent
      have hencoded : m.encoded = t := hencoded
      rw [← hencoded] at h hne hfirst hdash
      have heq := m.transfers.eq_content h
      rw [heq] at hne hfirst hdash
      exact ⟨heq, hne, hfirst, hdash⟩
    | succ k =>
      -- the first end of a line would be missing
      rw [hcontent, crlfChars_leading] at h
      have hhead : t.head? = some '\r' := by
        obtain ⟨c, t, rfl⟩ := List.exists_cons_of_ne_nil hne
        by_cases hc : inLine c = true
        · rw [crlfChars_cons hc] at h
          exact congrArg some (List.cons.inj h).1
        · rw [inLine, Bool.and_eq_true, decide_eq_true_eq, decide_eq_true_eq, not_and_or, not_not,
            not_not] at hc
          obtain rfl | rfl := hc
          · rfl
          · exact absurd rfl hfeed
      rw [hreturn hhead] at h
      have hlength := congrArg List.length h
      rw [List.length_append, List.replicate_succ, List.flatten_cons, List.length_append] at hlength
      have htwo : crlf.length = 2 := rfl
      omega
  · rintro ⟨hencoded, hne, hfirst, hdash⟩
    have hfeed : m.content.head? ≠ some '\n' := m.head?_content_ne (k := 0) rfl
    rw [hencoded, cutPart_text hne hfeed hfirst hdash]

end TextMessage

/-! ### The first part of an envelope -/

/-- The first part of a multipart message, behind the headers of the part and before the next boundary. -/
def firstPart (boundary output : List Char) : Option (List Char) := do
  let (_, body) ← splitBlank output
  let (_, part) ← splitOnce (['-', '-'] ++ boundary ++ crlf) body
  let (_, text) ← splitOnce (crlf ++ crlf) part
  let (text, _) ← splitOnce (crlf ++ ['-', '-'] ++ boundary) text
  pure text

/-- The type of a signed message. -/
def Boundary.signedType (b : Boundary) (micalg : List Char) (h : OneLine micalg) : HeaderField :=
  .ofLine "Content-Type".toList
    (" multipart/signed; protocol=\"application/pgp-signature\"; micalg=".toList ++ micalg ++
      "; boundary=\"".toList ++ b.text.toList ++ ['"'])
    contentType_named (((((show OneLine _ by decide).append h).append (by decide)).append b.oneLine_text).append
      (by decide))

/-- The parts of a signed message: its text, and behind it the signature. -/
def signedParts (boundary canonical tail : List Char) : List Char :=
  ['-', '-'] ++ boundary ++ crlf ++ ("Content-Type: text/plain; charset=utf-8".toList ++ (crlf ++ crlf ++
    (canonical ++ (crlf ++ ['-', '-'] ++ boundary ++ tail))))

/-- Before a boundary that is new, the first part is the whole text. -/
theorem firstPart_signedParts {output headers boundary canonical tail : List Char}
    (hboundary : OneLine boundary) (hfresh : ¬boundary <:+: canonical)
    (h : splitBlank output = some (headers, signedParts boundary canonical tail)) :
    firstPart boundary output = some canonical := by
  have hopen : splitOnce (['-', '-'] ++ boundary ++ crlf) (signedParts boundary canonical tail) =
      some ([], "Content-Type: text/plain; charset=utf-8".toList ++ (crlf ++ crlf ++
        (canonical ++ (crlf ++ ['-', '-'] ++ boundary ++ tail)))) := by
    have hfront : (['-', '-'] ++ boundary ++ crlf) <+: signedParts boundary canonical tail :=
      List.prefix_append _ _
    refine (splitOnce_front (c := '-') hfront).trans (congrArg some (congrArg (Prod.mk []) ?_))
    exact @List.drop_left _ (['-', '-'] ++ boundary ++ crlf) _
  have hheader := @splitOnce_blank_lines ["Content-Type: text/plain; charset=utf-8".toList]
    (List.cons_ne_nil _ _) (by unfold FullLines; decide)
    (canonical ++ (crlf ++ ['-', '-'] ++ boundary ++ tail))
  rw [List.intercalate_singleton] at hheader
  have hclose : splitOnce (crlf ++ ['-', '-'] ++ boundary) (canonical ++
      (crlf ++ ['-', '-'] ++ boundary ++ tail)) = some (canonical, tail) := by
    have hreturn : '\r' ∉ '\n' :: '-' :: '-' :: boundary := by
      simp only [List.mem_cons, Char.reduceEq, false_or]
      exact fun hmem => (hboundary _ hmem).1 rfl
    refine splitOnce_delimiter hreturn (fun hinfix => hfresh ?_) tail
    exact (List.suffix_append (crlf ++ ['-', '-']) boundary).isInfix.trans hinfix
  unfold firstPart
  rw [h]
  dsimp only [Option.bind_eq_bind, Option.bind_some]
  rw [hopen]
  dsimp only [Option.bind_some]
  rw [hheader]
  dsimp only [Option.bind_some]
  rw [hclose]
  rfl

theorem firstPart_wrapPgpMime (b : Boundary) (m : FormattedMessage) {pgp : PgpSendParams}
    (hmode : pgp.mode = .sign) (hmicalg : pgp.micalg ∈ allowedMicalg) {signature : String}
    (hsignature : pgp.signature = some signature)
    (hfresh : ¬b.text.toList <:+: crlfChars (extractTextBody m.chars)) :
    ∃ output, wrapPgpMime b.text (utf8 m.chars) pgp = .ok output ∧
      firstPart b.text.toList output.toList = some (crlfChars (extractTextBody m.chars)) := by
  have hline : ∀ micalg ∈ allowedMicalg, OneLine micalg.toList := by decide
  have hraw : String.fromUTF8? (ByteArray.mk (utf8 m.chars).toArray) = some (String.ofList m.chars) :=
    fromUtf8_utf8 m.chars
  unfold wrapPgpMime
  rw [hraw]
  dsimp only
  rw [hmode, hsignature, String.toList_ofList, m.filterEnvelopeHeaders_chars]
  refine ⟨_, rfl, @firstPart_signedParts _ ?_ _ _ ?_ b.oneLine_text hfresh ?_⟩
  · exact headerBlock (m.others ++ [mimeVersion, b.signedType pgp.micalg.toList (hline _ hmicalg)])
  · exact "\r\nContent-Type: application/pgp-signature\r\n".toList ++
      ("Content-Description: OpenPGP digital signature\r\n\r\n".toList ++ (signature.toList ++
        ("\r\n--".toList ++ (b.text.toList ++ "--\r\n".toList))))
  · have hvalue : (b.signedType pgp.micalg.toList (hline _ hmicalg)).name ++
        ':' :: (b.signedType pgp.micalg.toList (hline _ hmicalg)).value =
        "Content-Type: multipart/signed; protocol=\"application/pgp-signature\"; micalg=".toList ++
          (pgp.micalg.toList ++ ("; boundary=\"".toList ++ (b.text.toList ++ ['"']))) := by
      simp only [Boundary.signedType, HeaderField.ofLine, List.append_assoc, ← List.cons_append]
      rfl
    have htype : "\"\r\n\r\n--".toList = ['"'] ++ (crlf ++ (crlf ++ ['-', '-'])) := rfl
    have hpart : "\r\nContent-Type: text/plain; charset=utf-8\r\n\r\n".toList =
        crlf ++ ("Content-Type: text/plain; charset=utf-8".toList ++ (crlf ++ crlf)) := rfl
    have hclose : "\r\n--".toList = crlf ++ ['-', '-'] := rfl
    rw [← @splitBlank_envelope _ m.others_ne_nil (b.signedType pgp.micalg.toList (hline _ hmicalg)) rfl,
      hvalue]
    simp only [String.toList_append, String.toList_ofList, List.append_assoc, htype, hpart, hclose, signedParts,
      toCrlf]

/-! ### Signed texts -/

theorem infix_cutPart (part : List Char) : cutPart part <:+: part := by
  have hdropped : (dropPrefixes crlf part).dropWhile (· = '\n') <:+ part :=
    (List.dropWhile_suffix _).trans (dropPrefixes_suffix part)
  refine List.IsInfix.trans ?_ hdropped.isInfix
  unfold cutPart
  dsimp only
  cases h : (splitOnce (crlf ++ ['-', '-']) ((dropPrefixes crlf part).dropWhile (· = '\n'))).or
      (splitOnce ['\n', '-', '-'] ((dropPrefixes crlf part).dropWhile (· = '\n'))) with
  | none => exact List.infix_refl _
  | some r =>
    have hfound : ∃ p, p ≠ [] ∧
        splitOnce p ((dropPrefixes crlf part).dropWhile (· = '\n')) = some (r.1, r.2) := by
      obtain h | ⟨-, h⟩ := Option.or_eq_some_iff.mp h
      · exact ⟨_, List.cons_ne_nil _ _, h⟩
      · exact ⟨_, List.cons_ne_nil _ _, h⟩
    obtain ⟨p, hp, h⟩ := hfound
    rw [(splitOnce_eq_some hp h).1, List.append_assoc]
    exact (List.prefix_append r.1 _).isInfix

/-- The first part of a signed envelope is the text in its canonical form under the condition only, if the
boundary is new. -/
theorem wrapPgpMime_sign {text : List Char} (m : TextMessage text) (b : Boundary)
    (hfresh : ¬b.text.toList <:+: m.chars) {pgp : PgpSendParams} (hmode : pgp.mode = .sign)
    (hmicalg : pgp.micalg ∈ allowedMicalg) {signature : String}
    (hsignature : pgp.signature = some signature) :
    (∃ output, wrapPgpMime b.text (utf8 m.chars) pgp = .ok output ∧
      firstPart b.text.toList output.toList = some (crlfChars text)) ↔ m.Recoverable := by
  have hwithin : extractTextBody m.chars <:+: m.chars := by
    rw [m.extractTextBody_chars]
    refine (infix_cutPart _).trans ?_
    rw [FormattedMessage.chars, m.layout]
    exact ((List.suffix_append _ _).trans ((List.suffix_append _ _).trans ((List.suffix_append _ _).trans
      ((List.suffix_append _ _).trans ((List.suffix_append _ _).trans
        (List.suffix_append _ _)))))).isInfix
  have hne : b.text.toList ≠ [] := by
    intro hnil
    exact hfresh (hnil ▸ List.nil_infix)
  have hnew : ¬b.text.toList <:+: crlfChars (extractTextBody m.chars) :=
    fun h => hfresh ((infix_of_infix_crlfChars b.oneLine_text hne h).trans hwithin)
  obtain ⟨output, houtput, hfirst⟩ :=
    firstPart_wrapPgpMime b m.toFormattedMessage hmode hmicalg hsignature hnew
  rw [← m.cutPart_iff, ← m.extractTextBody_chars]
  constructor
  · rintro ⟨output', houtput', hfirst'⟩
    obtain rfl := Except.ok.inj (houtput.symm.trans houtput')
    exact Option.some.inj (hfirst.symm.trans hfirst')
  · exact fun h => ⟨output, houtput, h ▸ hfirst⟩

theorem crlfChars_crlfChars (s : List Char) : crlfChars (crlfChars s) = crlfChars s := by
  fun_induction crlfChars s with
  | case1 cs ih => exact congrArg (fun s => '\r' :: '\n' :: s) ih
  | case2 cs _ ih => exact congrArg (fun s => '\r' :: '\n' :: s) ih
  | case3 cs ih => exact congrArg (fun s => '\r' :: '\n' :: s) ih
  | case4 c cs _ hreturn hfeed ih =>
    have hc : inLine c = true := by
      rw [inLine, Bool.and_eq_true, decide_eq_true_eq, decide_eq_true_eq]
      exact ⟨hreturn, hfeed⟩
    rw [crlfChars_cons hc, ih]
  | case5 => rfl

/-- Every line feed of the canonical form ends a line. -/
theorem feeds_crlfChars (c : Char) (s : List Char) :
    (c :: crlfChars s).IsChain (fun c d => d = '\n' → c = '\r') := by
  fun_induction crlfChars s generalizing c with
  | case1 cs ih =>
    exact List.isChain_cons_cons.mpr ⟨fun h => absurd h (by decide),
      List.isChain_cons_cons.mpr ⟨fun _ => rfl, ih '\n'⟩⟩
  | case2 cs _ ih =>
    exact List.isChain_cons_cons.mpr ⟨fun h => absurd h (by decide),
      List.isChain_cons_cons.mpr ⟨fun _ => rfl, ih '\n'⟩⟩
  | case3 cs ih =>
    exact List.isChain_cons_cons.mpr ⟨fun h => absurd h (by decide),
      List.isChain_cons_cons.mpr ⟨fun _ => rfl, ih '\n'⟩⟩
  | case4 d cs _ _ hfeed ih => exact List.isChain_cons_cons.mpr ⟨fun h => absurd h hfeed, ih d⟩
  | case5 => exact .singleton c

/-- How any text is sent in a small message. -/
def TextMessage.ofText (text encoded : List Char) (h : Transfers (crlfChars text) encoded) :
    TextMessage text where
  fields := [.ofLine "From".toList " a@b.c".toList from_named oneLine_sender, mimeVersion,
    .ofLine "Content-Type".toList " multipart/alternative; boundary=\"x\"".toList contentType_named (by decide)]
  body := "--x\r\n".toList ++ ("Content-Type: text/plain".toList ++
    (crlf.intercalate ["; charset=utf-8".toList, "Content-Transfer-Encoding: 7bit".toList] ++
      (crlf ++ crlf ++ (encoded ++ (crlf ++ ['-', '-'] ++ "x--\r\n".toList)))))
  sender := ⟨_, List.mem_cons_self, rfl⟩
  preamble := "--x\r\n".toList
  header := ["; charset=utf-8".toList, "Content-Transfer-Encoding: 7bit".toList]
  content := crlfChars text
  encoded := encoded
  rest := "x--\r\n".toList
  layout := rfl
  first := by decide
  full := by
    unfold FullLines
    decide
  feeds := feeds_crlfChars ' ' text
  lines := crlfChars_crlfChars text
  transfers := h

/-- A text of one line. -/
def shortText : TextMessage "yes".toList := .ofText _ _ .unchanged

/-- A text and the name of who wrote it, behind a line of dashes. -/
def signedOff : TextMessage "yes\n-- \nme".toList := .ofText _ _ .unchanged

theorem wrapPgpMime_shortText :
    let b : Boundary := ⟨['9'], by decide⟩
    (∃ output, wrapPgpMime b.text (utf8 shortText.chars) ⟨.sign, some "s", none, "pgp-sha256"⟩ = .ok output ∧
      firstPart b.text.toList output.toList = some (crlfChars "yes".toList)) ↔ shortText.Recoverable := by
  intro b
  have hfresh : ¬b.text.toList <:+: shortText.chars := by
    have hmem : '9' ∈ b.text.toList := by decide
    have hnone : '9' ∉ shortText.chars := by
      rw [FormattedMessage.chars, List.mem_append, List.mem_append, not_or, not_or]
      exact ⟨by decide +kernel, by decide, by decide +kernel⟩
    exact fun h => hnone (h.subset hmem)
  exact @wrapPgpMime_sign _ shortText b hfresh ⟨.sign, some "s", none, "pgp-sha256"⟩ rfl (by decide) _ rfl

theorem wrapPgpMime_signedOff :
    let b : Boundary := ⟨"0f".toList, by decide⟩
    ¬∃ output, wrapPgpMime b.text (utf8 signedOff.chars) ⟨.sign, some "s", none, "pgp-sha256"⟩ = .ok output ∧
      firstPart b.text.toList output.toList = some (crlfChars "yes\n-- \nme".toList) := by
  intro b
  have hcut : crlfChars (extractTextBody signedOff.chars) = "yes".toList := by
    rw [signedOff.extractTextBody_chars]
    decide
  have hfresh : ¬b.text.toList <:+: crlfChars (extractTextBody signedOff.chars) := by
    rw [hcut]
    decide
  obtain ⟨output, houtput, hfirst⟩ := @firstPart_wrapPgpMime b signedOff.toFormattedMessage
    ⟨.sign, some "s", none, "pgp-sha256"⟩ rfl (by decide) _ rfl hfresh
  rintro ⟨output', houtput', hfirst'⟩
  obtain rfl := Except.ok.inj (houtput.symm.trans houtput')
  rw [hfirst, hcut] at hfirst'
  exact absurd hfirst' (by decide)

end Rav
