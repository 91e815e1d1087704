import Rav.Replace
import Rav.Sieve.Casemap
import Rav.Smtp.Pgp
import Rav.Utf8

/-!
# PGP/MIME

What becomes of a formatted message in its PGP/MIME envelope: which of its headers are kept, and what
an encrypted envelope tells of the message.

## Main definitions

- `HeaderField`, `FormattedMessage` — messages as they are formatted
- `filterEnvelopeHeaders_chars` — the headers that are kept
- `wrapPgpMime_encrypt` — an encrypted envelope does not depend on the rest
-/

namespace Rav

/-! ### Formatted messages -/

/-- Text within a line. -/
def OneLine (s : List Char) : Prop := ∀ c ∈ s, c ≠ '\r' ∧ c ≠ '\n'

instance : DecidablePred OneLine := fun s => List.decidableBAll (fun c => c ≠ '\r' ∧ c ≠ '\n') s

/-- A header field: its name, what follows the colon, and the lines that it goes on for. -/
structure HeaderField where
  name : List Char
  value : List Char
  folded : List (List Char)
  named : name ≠ [] ∧ ∀ c ∈ name, 33 ≤ c.toNat ∧ c.toNat ≤ 126 ∧ c ≠ ':'
  oneLine : ∀ line ∈ value :: folded, OneLine line
  continues : ∀ line ∈ folded, line.head? = some ' ' ∨ line.head? = some '\t'

namespace HeaderField

/-- A field of one line. -/
def ofLine (name value : List Char) (hname : name ≠ [] ∧ ∀ c ∈ name, 33 ≤ c.toNat ∧ c.toNat ≤ 126 ∧ c ≠ ':')
    (hvalue : OneLine value) : HeaderField where
  name := name
  value := value
  folded := []
  named := hname
  oneLine := List.forall_mem_singleton.mpr hvalue
  continues := fun _ h => absurd h List.not_mem_nil

variable (f : HeaderField)

def lines : List (List Char) := (f.name ++ ':' :: f.value) :: f.folded

/-- The fields that PGP/MIME has of its own. -/
def IsMime : Prop := f.name.map Char.toLower ∈ ["content-type".toList, "mime-version".toList]

theorem isMime_iff : f.IsMime ↔ f.name.map Char.toLower = "content-type".toList ∨
    f.name.map Char.toLower = "mime-version".toList := List.mem_pair

instance : DecidablePred IsMime := fun f => decidable_of_iff _ f.isMime_iff.symm

end HeaderField

def headerBlock (fields : List HeaderField) : List Char :=
  crlf.intercalate (fields.flatMap HeaderField.lines)

/-- A message as the mail library formats it; there is no message without a sender. -/
structure FormattedMessage where
  fields : List HeaderField
  body : List Char
  sender : ∃ f ∈ fields, f.name = "From".toList

namespace FormattedMessage

variable (m : FormattedMessage)

def chars : List Char := headerBlock m.fields ++ (crlf ++ crlf ++ m.body)

/-- The fields that are not replaced. -/
def others : List HeaderField := m.fields.filter (fun f => ¬f.IsMime)

end FormattedMessage

/-! ### Lines -/

/-- Lines that have something in them. -/
def FullLines (lines : List (List Char)) : Prop := ∀ line ∈ lines, line ≠ [] ∧ '\r' ∉ line

theorem splitOnce_blank_crlf {s : List Char} (hs : s.head? ≠ some '\r') :
    splitOnce (crlf ++ crlf) (crlf ++ s) =
      (splitOnce (crlf ++ crlf) s).map (fun r => (crlf ++ r.1, r.2)) := by
  have hfirst : ¬(crlf ++ crlf) <+: '\r' :: '\n' :: s := by
    intro h
    obtain ⟨t, rfl⟩ := (List.prefix_append_right_inj crlf).mp h
    exact hs rfl
  have hsecond : ¬(crlf ++ crlf) <+: '\n' :: s :=
    fun h => absurd (List.cons_prefix_cons.mp h).1 (by decide)
  change splitOnce (crlf ++ crlf) ('\r' :: '\n' :: s) = _
  rw [splitOnce_cons hfirst, splitOnce_cons hsecond, Option.map_map]
  rfl

/-- The first blank line is the one after them. -/
theorem splitOnce_blank_lines {lines : List (List Char)} (hne : lines ≠ []) (h : FullLines lines)
    (body : List Char) : splitOnce (crlf ++ crlf) (crlf.intercalate lines ++ (crlf ++ crlf ++ body)) =
      some (crlf.intercalate lines, body) := by
  induction lines with
  | nil => exact absurd rfl hne
  | cons line lines ih =>
    obtain ⟨⟨-, hline⟩, hlines⟩ := List.forall_mem_cons.mp h
    have hskip := splitOnce_skip (p := '\n' :: crlf) hline
    cases lines with
    | nil =>
      have hblank : splitOnce (crlf ++ crlf) (crlf ++ crlf ++ body) = some ([], body) :=
        splitOnce_front (List.prefix_append (crlf ++ crlf) body)
      rw [List.intercalate_singleton]
      refine (hskip _).trans ((congrArg (Option.map _) hblank).trans ?_)
      rw [Option.map_some, List.append_nil]
    | cons next lines =>
      obtain ⟨⟨hfull, hnext⟩, -⟩ := List.forall_mem_cons.mp hlines
      have hhead : (crlf.intercalate (next :: lines) ++ (crlf ++ crlf ++ body)).head? ≠ some '\r' := by
        obtain ⟨c, next, rfl⟩ := List.exists_cons_of_ne_nil hfull
        rw [List.intercalate_cons_cons_left]
        intro hc
        exact hnext (Option.some.inj hc ▸ List.mem_cons_self)
      rw [intercalate_cons (List.cons_ne_nil next lines), List.append_assoc, List.append_assoc]
      refine (hskip _).trans ((congrArg (Option.map _) ((splitOnce_blank_crlf hhead).trans
        (congrArg (Option.map _) (ih (List.cons_ne_nil next lines) hlines)))).trans ?_)
      rfl

theorem splitAll_lines {lines : List (List Char)} (hne : lines ≠ []) (h : FullLines lines) :
    splitAll crlf (crlf.intercalate lines) = lines := by
  induction lines with
  | nil => exact absurd rfl hne
  | cons line lines ih =>
    obtain ⟨⟨-, hline⟩, hlines⟩ := List.forall_mem_cons.mp h
    have hfree : ¬crlf <:+: line := fun hwithin => hline (hwithin.subset List.mem_cons_self)
    by_cases hnil : lines = []
    · rw [hnil, List.intercalate_singleton, splitAll_none hfree]
    · have hsplit : splitOnce crlf (line ++ (crlf ++ crlf.intercalate lines)) =
          some (line, crlf.intercalate lines) := splitOnce_delimiter (p := ['\n']) (by decide) hfree _
      rw [intercalate_cons hnil, splitAll_some (p := crlf) (List.cons_ne_nil _ _) hsplit, ih hnil hlines]

/-! ### Fields -/

theorem fullLines_fields (fields : List HeaderField) : FullLines (fields.flatMap HeaderField.lines) := by
  intro line hline
  obtain ⟨f, -, hline⟩ := List.mem_flatMap.mp hline
  obtain rfl | hline := List.mem_cons.mp hline
  · constructor
    · exact fun h => absurd (List.append_eq_nil_iff.mp h).2 (List.cons_ne_nil _ _)
    · intro hmem
      rw [List.mem_append, List.mem_cons] at hmem
      obtain hmem | hmem | hmem := hmem
      · exact absurd (f.named.2 _ hmem).1 (by decide)
      · exact absurd hmem (by decide)
      · exact (f.oneLine f.value List.mem_cons_self _ hmem).1 rfl
  · constructor
    · rintro rfl
      exact (f.continues [] hline).elim (fun h => absurd h (by decide)) (fun h => absurd h (by decide))
    · exact fun hmem => (f.oneLine line (List.mem_cons_of_mem _ hline) _ hmem).1 rfl

theorem splitBlank_headerBlock {fields : List HeaderField} (hne : fields ≠ []) (body : List Char) :
    splitBlank (headerBlock fields ++ (crlf ++ crlf ++ body)) = some (headerBlock fields, body) := by
  obtain ⟨f, fields, rfl⟩ := List.exists_cons_of_ne_nil hne
  have hlines : (f :: fields).flatMap HeaderField.lines ≠ [] := List.cons_ne_nil _ _
  unfold splitBlank headerBlock
  rw [splitOnce_blank_lines hlines (fullLines_fields _) body]
  rfl

/-- Before a colon there is a name, and the same one in another case. -/
theorem isPrefixOf_name {name p : List Char} (hname : ':' ∉ name) (hp : ':' ∉ p) (value : List Char) :
    (p ++ [':']).isPrefixOf ((name ++ ':' :: value).map Char.toLower) =
      decide (name.map Char.toLower = p) := by
  have hlower : ':' ∉ name.map Char.toLower := by
    intro hmem
    obtain ⟨c, hc, heq⟩ := List.mem_map.mp hmem
    have hcode := congrArg Char.toNat heq
    rw [Sieve.toNat_toLower, show ':'.toNat = 58 from rfl] at hcode
    split at hcode
    · omega
    · exact hname ((Char.toNat_inj (d := ':')).mp hcode ▸ hc)
  rw [Bool.eq_iff_iff, List.isPrefixOf_iff_prefix, decide_eq_true_eq, List.map_append, List.map_cons]
  constructor
  · rintro ⟨t, ht⟩
    have hcut := splitOnce_char hp t
    rw [List.append_cons, ht] at hcut
    exact (Prod.mk.inj (Option.some.inj ((splitOnce_char hlower _).symm.trans hcut))).1
  · rintro rfl
    exact (List.prefix_append_right_inj _).mpr (List.cons_prefix_cons.mpr ⟨rfl, List.nil_prefix⟩)

theorem envelopeLines_folded {folded : List (List Char)}
    (h : ∀ line ∈ folded, line.head? = some ' ' ∨ line.head? = some '\t') (skip : Bool)
    (rest : List (List Char)) : envelopeLines skip (folded ++ rest) =
      (if skip then [] else folded) ++ envelopeLines skip rest := by
  induction folded with
  | nil => cases skip <;> rfl
  | cons line folded ih =>
    obtain ⟨hline, hfolded⟩ := List.forall_mem_cons.mp h
    cases line with
    | nil => exact hline.elim (fun h => absurd h (by decide)) (fun h => absurd h (by decide))
    | cons c line =>
      have hc : (c = ' ' || c = '\t') = true := by
        simpa using hline
      rw [List.cons_append, envelopeLines, if_pos hc, ih hfolded]
      cases skip <;> rfl

/-- A field is dropped with its continuation lines, or kept with them. -/
theorem envelopeLines_field (f : HeaderField) (skip : Bool) (rest : List (List Char)) :
    envelopeLines skip (f.lines ++ rest) =
      if f.IsMime then envelopeLines true rest else f.lines ++ envelopeLines false rest := by
  obtain ⟨hne, hchars⟩ := f.named
  have hcolon : ':' ∉ f.name := fun hmem => (hchars ':' hmem).2.2 rfl
  have hcontent := isPrefixOf_name (p := "content-type".toList) hcolon (by decide) f.value
  have hversion := isPrefixOf_name (p := "mime-version".toList) hcolon (by decide) f.value
  have hmime : (decide (f.name.map Char.toLower = "content-type".toList) ||
      decide (f.name.map Char.toLower = "mime-version".toList)) = decide f.IsMime := by
    rw [← Bool.decide_or, decide_eq_decide, HeaderField.IsMime, List.mem_pair]
  rw [← hcontent, ← hversion] at hmime
  unfold HeaderField.lines
  cases hname : f.name with
  | nil => exact absurd hname hne
  | cons c name =>
    have hc : ¬(c = ' ' || c = '\t') = true := by
      have hprint := (hchars c (hname ▸ List.mem_cons_self)).1
      rw [Bool.or_eq_true, decide_eq_true_eq, decide_eq_true_eq]
      rintro (rfl | rfl)
      · exact absurd hprint (by decide)
      · exact absurd hprint (by decide)
    rw [hname] at hmime
    rw [List.cons_append, List.cons_append, envelopeLines, if_neg hc]
    dsimp only
    split
    · next hskip =>
      have hf : f.IsMime := of_decide_eq_true (hmime.symm.trans hskip)
      rw [if_pos hf, hskip, envelopeLines_folded f.continues]
      rfl
    · next hskip =>
      rw [Bool.not_eq_true] at hskip
      have hf : ¬f.IsMime := of_decide_eq_false (hmime.symm.trans hskip)
      rw [if_neg hf, hskip, envelopeLines_folded f.continues]
      rfl

theorem envelopeLines_fields (fields : List HeaderField) (skip : Bool) :
    envelopeLines skip (fields.flatMap HeaderField.lines) =
      (fields.filter (fun f => ¬f.IsMime)).flatMap HeaderField.lines := by
  induction fields generalizing skip with
  | nil => rfl
  | cons f fields ih =>
    rw [List.flatMap_cons, envelopeLines_field, List.filter_cons]
    by_cases hf : f.IsMime
    · rw [if_pos hf, if_neg (by simpa using hf), ih]
    · rw [if_neg hf, if_pos (by simpa using hf), ih, List.flatMap_cons]

namespace FormattedMessage

variable (m : FormattedMessage)

theorem others_ne_nil : m.others ≠ [] := by
  obtain ⟨f, hf, hname⟩ := m.sender
  have hkept : ¬f.IsMime := by
    rw [HeaderField.IsMime, hname]
    decide
  exact List.ne_nil_of_mem (List.mem_filter.mpr ⟨hf, decide_eq_true hkept⟩)

theorem fields_ne_nil : m.fields ≠ [] := by
  obtain ⟨f, hf, -⟩ := m.sender
  exact List.ne_nil_of_mem hf

/-- All other fields are kept, in their order and with their continuation lines. -/
theorem filterEnvelopeHeaders_chars : filterEnvelopeHeaders m.chars = headerBlock m.others := by
  obtain ⟨f, fields, hfields⟩ := List.exists_cons_of_ne_nil m.fields_ne_nil
  have hlines : m.fields.flatMap HeaderField.lines ≠ [] := by
    rw [hfields]
    exact List.cons_ne_nil _ _
  have hblock : (splitBlank m.chars).map Prod.fst = some (headerBlock m.fields) := by
    rw [chars, splitBlank_headerBlock m.fields_ne_nil]
    rfl
  unfold filterEnvelopeHeaders
  dsimp only
  rw [hblock, Option.getD_some, headerBlock, splitAll_lines hlines (fullLines_fields _),
    envelopeLines_fields]
  rfl

end FormattedMessage

/-! ### Encrypted messages -/

/-- A boundary: a new identifier behind a text of its own. -/
structure Boundary where
  uuid : List Char
  hex : ∀ c ∈ uuid, c ∈ "0123456789abcdef".toList

namespace Boundary

variable (b : Boundary)

def text : String := "----pgpboundary" ++ String.ofList b.uuid

theorem oneLine_text : OneLine b.text.toList := by
  have hdigits : OneLine "0123456789abcdef".toList := by decide
  have htext : b.text.toList = "----pgpboundary".toList ++ b.uuid :=
    String.toList_append.trans (congrArg _ String.toList_ofList)
  intro c hc
  rw [htext, List.mem_append] at hc
  obtain hc | hc := hc
  · revert c
    decide
  · exact hdigits c (b.hex c hc)

end Boundary

theorem OneLine.append {s t : List Char} (hs : OneLine s) (ht : OneLine t) : OneLine (s ++ t) :=
  fun c hc => (List.mem_append.mp hc).elim (hs c) (ht c)

/-- `MIME-Version: 1.0`. -/
def mimeVersion : HeaderField := .ofLine "MIME-Version".toList " 1.0".toList (by decide) (by decide)

theorem contentType_named : "Content-Type".toList ≠ [] ∧
    ∀ c ∈ "Content-Type".toList, 33 ≤ c.toNat ∧ c.toNat ≤ 126 ∧ c ≠ ':' := by
  decide

theorem from_named : "From".toList ≠ [] ∧ ∀ c ∈ "From".toList, 33 ≤ c.toNat ∧ c.toNat ≤ 126 ∧ c ≠ ':' := by
  decide

/-- The type of an encrypted message. -/
def Boundary.encryptedType (b : Boundary) : HeaderField :=
  .ofLine "Content-Type".toList
    (" multipart/encrypted; protocol=\"application/pgp-encrypted\"; boundary=\"".toList ++
      b.text.toList ++ ['"'])
    contentType_named (((show OneLine _ by decide).append b.oneLine_text).append (by decide))

theorem intercalate_append {sep : List Char} {l l' : List (List Char)} (hl : l ≠ []) (hl' : l' ≠ []) :
    sep.intercalate (l ++ l') = sep.intercalate l ++ (sep ++ sep.intercalate l') := by
  induction l with
  | nil => exact absurd rfl hl
  | cons a l ih =>
    by_cases hnil : l = []
    · rw [hnil, List.singleton_append, intercalate_cons hl', List.intercalate_singleton]
    · rw [List.cons_append, intercalate_cons (by simp [hnil]), ih hnil, intercalate_cons hnil]
      simp only [List.append_assoc]

theorem headerBlock_append {fields fields' : List HeaderField} (h : fields ≠ []) (h' : fields' ≠ []) :
    headerBlock (fields ++ fields') = headerBlock fields ++ (crlf ++ headerBlock fields') := by
  have hlines : ∀ {fields : List HeaderField}, fields ≠ [] → fields.flatMap HeaderField.lines ≠ [] := by
    intro fields h
    obtain ⟨f, fields, rfl⟩ := List.exists_cons_of_ne_nil h
    exact List.cons_ne_nil _ _
  rw [headerBlock, List.flatMap_append, intercalate_append (hlines h) (hlines h')]
  rfl

/-- What stands behind the headers of an envelope begins after its type. -/
theorem splitBlank_envelope {fields : List HeaderField} (hne : fields ≠ []) {type : HeaderField}
    (htype : type.folded = []) (body : List Char) :
    splitBlank (headerBlock fields ++ ("\r\nMIME-Version: 1.0\r\n".toList ++
        (type.name ++ ':' :: type.value ++ (crlf ++ crlf ++ body)))) =
      some (headerBlock (fields ++ [mimeVersion, type]), body) := by
  have hnew : headerBlock [mimeVersion, type] =
      "MIME-Version: 1.0\r\n".toList ++ (type.name ++ ':' :: type.value) := by
    rw [headerBlock, List.flatMap_cons, List.flatMap_singleton, HeaderField.lines, HeaderField.lines, htype]
    refine List.intercalate_cons_cons.trans ?_
    rw [List.intercalate_singleton]
    rfl
  have hall := @splitBlank_headerBlock (fields ++ [mimeVersion, type])
    (List.append_ne_nil_of_left_ne_nil hne _) body
  rw [headerBlock_append hne (List.cons_ne_nil _ _), hnew] at hall ⊢
  rw [← hall]
  simp only [List.append_assoc]
  rfl

/-- The parts of an encrypted message. -/
def encryptedParts (boundary ciphertext : String) : String :=
  "--" ++ boundary ++ "\r\nContent-Type: application/pgp-encrypted\r\n" ++
    "Content-Description: PGP/MIME version identification\r\n\r\nVersion: 1\r\n\r\n--" ++ boundary ++
    "\r\nContent-Type: application/octet-stream; name=\"encrypted.asc\"\r\n" ++
    "Content-Description: OpenPGP encrypted message\r\n" ++
    "Content-Disposition: inline; filename=\"encrypted.asc\"\r\n\r\n" ++ ciphertext ++
    "\r\n--" ++ boundary ++ "--\r\n"

/-- An encrypted envelope depends on the other fields of a message only, and they are its own, with new
fields for the version and the type behind them. -/
theorem wrapPgpMime_encrypt (b : Boundary) {m m' : FormattedMessage} (h : m.others = m'.others)
    {pgp : PgpSendParams} (hmode : pgp.mode = .encrypt) :
    wrapPgpMime b.text (utf8 m.chars) pgp = wrapPgpMime b.text (utf8 m'.chars) pgp ∧
      ∀ ciphertext, pgp.ciphertext = some ciphertext → ∃ output body,
        wrapPgpMime b.text (utf8 m.chars) pgp = .ok output ∧
          splitBlank output.toList =
            some (headerBlock (m.others ++ [mimeVersion, b.encryptedType]), body) := by
  have hraw : ∀ m : FormattedMessage, String.fromUTF8? (ByteArray.mk (utf8 m.chars).toArray) =
      some (String.ofList m.chars) := fun m => fromUtf8_utf8 m.chars
  have hheaders : ∀ m : FormattedMessage, filterEnvelopeHeaders (String.ofList m.chars).toList =
      headerBlock m.others := by
    intro m
    rw [String.toList_ofList, m.filterEnvelopeHeaders_chars]
  unfold wrapPgpMime
  rw [hraw, hraw]
  dsimp only
  rw [hmode, hheaders, hheaders, h]
  refine ⟨rfl, fun ciphertext hciphertext => ?_⟩
  rw [hciphertext]
  refine ⟨_, (encryptedParts b.text ciphertext).toList, rfl, ?_⟩
  rw [← @splitBlank_envelope _ m'.others_ne_nil b.encryptedType rfl]
  have htype : "\"\r\n\r\n--".toList = ['"'] ++ (crlf ++ crlf ++ "--".toList) := rfl
  have hvalue : b.encryptedType.name ++ ':' :: b.encryptedType.value =
      "Content-Type: multipart/encrypted; protocol=\"application/pgp-encrypted\"; ".toList ++
        ("boundary=\"".toList ++ (b.text.toList ++ ['"'])) := rfl
  delta encryptedParts
  rw [hvalue]
  simp only [String.toList_append, List.append_assoc, htype]
  rw [String.toList_ofList]

theorem oneLine_sender : OneLine " a@b.c".toList := by decide

/-- A short message, and a longer one of another type. -/
def shortMessage : FormattedMessage where
  fields := [.ofLine "From".toList " a@b.c".toList from_named oneLine_sender, mimeVersion]
  body := "yes".toList
  sender := ⟨_, List.mem_cons_self, rfl⟩

def longMessage : FormattedMessage where
  fields := [
    .ofLine "content-type".toList " text/html".toList (by decide) (by decide),
    .ofLine "From".toList " a@b.c".toList from_named oneLine_sender]
  body := "yes\r\n\r\nno".toList
  sender := ⟨_, List.mem_cons_of_mem _ List.mem_cons_self, rfl⟩

theorem wrapPgpMime_shortMessage :
    let b : Boundary := ⟨"0f".toList, by decide⟩
    wrapPgpMime b.text (utf8 shortMessage.chars) ⟨.encrypt, none, some "x", ""⟩ =
        wrapPgpMime b.text (utf8 longMessage.chars) ⟨.encrypt, none, some "x", ""⟩ ∧
      ∀ ciphertext, some "x" = some ciphertext → ∃ output body,
        wrapPgpMime b.text (utf8 shortMessage.chars) ⟨.encrypt, none, some "x", ""⟩ = .ok output ∧
          splitBlank output.toList =
            some (headerBlock (shortMessage.others ++ [mimeVersion, b.encryptedType]), body) := by
  intro b
  have hothers : shortMessage.others = longMessage.others := rfl
  exact @wrapPgpMime_encrypt b _ _ hothers ⟨.encrypt, none, some "x", ""⟩ rfl

end Rav
