import Rav.Routes.MessageDetail

/-!
# A page from the cache

A page built from the cache is the page a fresh fetch would give, but for the PGP status, which is not
cached, and for what the deep index step caches: its list of attachments lacks their ids, so that none
of it is read back, and its HTML has no inline images.

## Main definitions

- `AttachmentMeta.value`, `ImapAttachment.value` — what the cached lists are read as
- `hit_eq_miss_iff` — when the pages are the same
-/

namespace Rav

open Json (Value Reads)

def jsonNumber (n : Nat) : Value := .number (Nat.toDigits 10 n)

def jsonOptional (o : Option String) : Value := o.elim .null .string

/-- What the metadata are read as. -/
def AttachmentMeta.value (m : AttachmentMeta) : Value :=
  .object [("id",.string m.id),("filename",jsonOptional m.filename),
    ("content_type",.string m.contentType),("size",jsonNumber m.size),
    ("content_id",jsonOptional m.contentId)]

/-- What an attachment is read as. -/
def ImapAttachment.value (a : ImapAttachment) : Value :=
  .object [("filename",jsonOptional a.filename),("content_type",.string a.contentType),
    ("size",jsonNumber a.size),("data",.array (a.data.map jsonNumber)),
    ("content_id",jsonOptional a.contentId)]

/-! ### Reading the cached lists -/

theorem AttachmentMeta.reads_json (m : AttachmentMeta) : Reads m.json m.value := by
  have h := Json.reads_object [("id",Json.string m.id,.string m.id),
    ("filename",Json.option Json.string m.filename,jsonOptional m.filename),
    ("content_type",Json.string m.contentType,.string m.contentType),
    ("size",toString m.size,jsonNumber m.size),
    ("content_id",Json.option Json.string m.contentId,jsonOptional m.contentId)] (by
      simp only [List.forall_mem_cons]
      exact ⟨Json.reads_string _,Json.reads_option Json.reads_string _,Json.reads_string _,
        Json.reads_nat _,Json.reads_option Json.reads_string _,by simp⟩)
  exact h

theorem ImapAttachment.reads_json (a : ImapAttachment) : Reads a.json a.value := by
  have h := Json.reads_object [
    ("filename",Json.option Json.string a.filename,jsonOptional a.filename),
    ("content_type",Json.string a.contentType,.string a.contentType),
    ("size",toString a.size,jsonNumber a.size),
    ("data",Json.array toString a.data,.array (a.data.map jsonNumber)),
    ("content_id",Json.option Json.string a.contentId,jsonOptional a.contentId)] (by
      simp only [List.forall_mem_cons]
      exact ⟨Json.reads_option Json.reads_string _,Json.reads_string _,Json.reads_nat _,
        Json.reads_array (fun n _ => Json.reads_nat n),Json.reads_option Json.reads_string _,by simp⟩)
  exact h

theorem jsonUsize_number {n : Nat} (hn : n < 18446744073709551616) : jsonUsize (jsonNumber n) = some n := by
  have hdigits : (Nat.toDigits 10 n).all Char.isDigit = true :=
    List.all_eq_true.mpr (fun c hc => Nat.isDigit_of_mem_toDigits (by decide) (by decide) hc)
  have hvalue := Nat.ofDigitChars_toDigits (n := n) (b := 10) (by decide) (by decide)
  simp only [jsonNumber,jsonUsize,hvalue]
  rw [if_pos ⟨hdigits,hn⟩]

theorem jsonOptionString_optional (o : Option String) : jsonOptionString (jsonOptional o) = some o := by
  cases o <;> rfl

/-- Metadata are read back. -/
theorem AttachmentMeta.fromValue_value {m : AttachmentMeta} (hm : m.size < 18446744073709551616) :
    fromValue m.value = some m := by
  obtain ⟨id,filename,contentType,size,contentId⟩ := m
  show ((jsonOptionString (jsonOptional filename)).bind fun f =>
    (jsonUsize (jsonNumber size)).bind fun n =>
      (jsonOptionString (jsonOptional contentId)).bind fun c =>
        some (⟨id,f,contentType,n,c⟩ : AttachmentMeta)) = _
  rw [jsonOptionString_optional,jsonUsize_number hm,jsonOptionString_optional]
  rfl

/-- An attachment is not: it has no id. -/
theorem AttachmentMeta.fromValue_attachment (a : ImapAttachment) : fromValue a.value = none := rfl

theorem attachmentsFromJson_array {α : Type} {f : α → String} {v : α → Value} (h : ∀ a, Reads (f a) (v a))
    (as : List α) : attachmentsFromJson (Json.array f as) =
      ((as.map v).mapM AttachmentMeta.fromValue).getD [] := by
  unfold attachmentsFromJson
  rw [Json.parse_of_reads (Json.reads_array (fun a _ => h a))]

/-- The list that `get_message` caches is read back. -/
theorem attachmentsFromJson_meta {ms : List AttachmentMeta}
    (hms : ∀ m ∈ ms, m.size < 18446744073709551616) :
    attachmentsFromJson (Json.array AttachmentMeta.json ms) = ms := by
  rw [attachmentsFromJson_array AttachmentMeta.reads_json]
  have hall : (ms.map AttachmentMeta.value).mapM AttachmentMeta.fromValue = some ms := by
    induction ms with
    | nil => rfl
    | cons m ms ih =>
      rw [List.map_cons,List.mapM_cons,AttachmentMeta.fromValue_value (hms m List.mem_cons_self),
        ih (fun m' hm' => hms m' (List.mem_cons_of_mem _ hm'))]
      rfl
  rw [hall]
  rfl

/-- Of the list that the deep index step caches nothing is. -/
theorem attachmentsFromJson_attachments (as : List ImapAttachment) :
    attachmentsFromJson (Json.array ImapAttachment.json as) = [] := by
  rw [attachmentsFromJson_array ImapAttachment.reads_json]
  cases as with
  | nil => rfl
  | cons a as =>
    rw [List.map_cons,List.mapM_cons,AttachmentMeta.fromValue_attachment]
    rfl

/-! ### The pages -/

variable {detect : String → Option EmailTheme} {b : FetchedBody}

theorem size_of_mem_attachmentMeta {m : AttachmentMeta} (hm : m ∈ attachmentMeta b.attachments) :
    m.size < 18446744073709551616 := by
  obtain ⟨i,hi,rfl⟩ := List.mem_mapIdx.mp hm
  exact b.size_lt _ (List.getElem_mem hi)

theorem lateTheme_eq_none (how : BodyWriter) : lateTheme detect (how.columns detect b) = none := by
  unfold lateTheme
  split
  · next h =>
    have hnone := Option.isNone_iff_eq_none.mp h
    cases how with
    | getMessage => exact hnone
    | deepIndex => exact hnone
  · rfl

/-- What `get_message` has cached it shows again, but for the PGP status. -/
theorem hitData_getMessage : hitData detect (BodyWriter.columns detect b .getMessage) =
    some { missData detect b with pgpStatus := none } := by
  have hlate : lateTheme detect (BodyWriter.columns detect b .getMessage) = none :=
    lateTheme_eq_none _
  simp only [hitData,hlate,Option.or_none]
  simp only [BodyWriter.columns,Option.map_some,Option.getD_some,
    attachmentsFromJson_meta (fun _ hm => size_of_mem_attachmentMeta (b := b) hm)]
  rfl

/-- What the deep index step has cached is shown as it was fetched, without attachments. -/
theorem hitData_deepIndex : hitData detect (BodyWriter.columns detect b .deepIndex) =
    some ⟨b.textHtml,b.textPlain,[],b.rawHeaders,(b.textHtml.bind detect).map EmailTheme.asI32,none⟩ := by
  have hlate : lateTheme detect (BodyWriter.columns detect b .deepIndex) = none :=
    lateTheme_eq_none _
  simp only [hitData,hlate,Option.or_none]
  simp only [BodyWriter.columns,Option.map_some,Option.getD_some,attachmentsFromJson_attachments]

theorem attachmentMeta_eq_nil {as : List ImapAttachment} : attachmentMeta as = [] ↔ as = [] := by
  rw [attachmentMeta,List.mapIdx_eq_nil_iff]

/-- Without attachments there is nothing to put into the HTML. -/
theorem resolvedHtml_of_nil (h : b.attachments = []) : resolvedHtml b = b.textHtml := by
  rw [resolvedHtml,h]
  cases b.textHtml <;> rfl

/-- The page built from the cache is the page that fetching the same message again would give exactly
if the message has no PGP status, and either `get_message` has cached its body or it has no
attachments. -/
theorem hit_eq_miss_iff (env : PageEnv) (detect : String → Option EmailTheme) (how : BodyWriter)
    (b : FetchedBody) : (hitData detect (how.columns detect b)).map (respond env) =
        some (respond env (missData detect b)) ↔
      b.pgpStatus = none ∧ (how = .getMessage ∨ b.attachments = []) := by
  cases how with
  | getMessage =>
    rw [hitData_getMessage,Option.map_some]
    constructor
    · intro h
      have hpgp := congrArg MessageDetailResponse.pgpStatus (Option.some.inj h)
      exact ⟨hpgp.symm,Or.inl rfl⟩
    · rintro ⟨hpgp,-⟩
      have hdata : { missData detect b with pgpStatus := none } = missData detect b := by
        simp only [missData,hpgp]
      rw [hdata]
  | deepIndex =>
    rw [hitData_deepIndex,Option.map_some]
    constructor
    · intro h
      have hpgp := congrArg MessageDetailResponse.pgpStatus (Option.some.inj h)
      have hatt := congrArg MessageDetailResponse.attachments (Option.some.inj h)
      exact ⟨hpgp.symm,Or.inr (attachmentMeta_eq_nil.mp hatt.symm)⟩
    · rintro ⟨hpgp,hor⟩
      have hnil : b.attachments = [] := hor.resolve_left (fun h => BodyWriter.noConfusion h)
      have hmeta : attachmentMeta b.attachments = [] := attachmentMeta_eq_nil.mpr hnil
      simp only [missData,resolvedHtml_of_nil hnil,hmeta,hpgp]

/-- A signed message without attachments. -/
def signedBody : FetchedBody where
  uid := 1
  textPlain := some "hello"
  textHtml := none
  attachments := []
  rawHeaders := ""
  origin := ⟨1,0⟩
  pgpStatus := some ⟨.signed,none,some "-----BEGIN PGP SIGNATURE-----",some "pgp-sha256",none⟩
  size_lt := by simp

def signedRow : CachedMessage :=
  ⟨1,"INBOX",none,none,none,"","","","[]","[]","","",0,false,"",none,0,none,none,⟨1,0⟩⟩

/-- The rest of its page. -/
def signedPage : PageEnv := ⟨some signedRow,fun _ _ => signedRow,fun _ => [],none⟩

/-- Opened a second time the message no longer counts as signed. -/
theorem signed_only_once :
    (hitData (fun _ => none) (BodyWriter.columns (fun _ => none) signedBody .getMessage)).map
        (respond signedPage) ≠
      some (respond signedPage (missData (fun _ => none) signedBody)) := by
  rw [hitData_getMessage,Option.map_some]
  intro h
  have hpgp := congrArg MessageDetailResponse.pgpStatus (Option.some.inj h)
  simp [respond,missData,signedBody] at hpgp

end Rav
