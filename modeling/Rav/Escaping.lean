import Rav.ScriptOrder
import Rav.Sieve.Tests

/-!
# Escaping in generated scripts

What is escaped is read back as it was, whatever stands around it. But in a pattern the escapes of the
wildcards are already undone when the string is read, so that they are wildcards again.

## Main definitions

- `ExactGlob`, `exactGlob_iff` — the tests of `starts_with` and `ends_with`
- `Embeds`, `texts_embed` — strings and texts that cannot add to a script
-/

namespace Rav

open Sieve

theorem WrittenTest.readTest {exts : List String} {text : String} {ok : Bool} {t : Clause}
    (h : WrittenTest exts text ok t) : readTest text = if ok then some t else none := by
  have hlex := h.reads ')' [] (Or.inr rfl)
  cases ok with
  | false => exact readTest_none hlex
  | true => exact readTest_tokens hlex

/-! ### Wildcards -/

/-- The value begins or ends with the text of the condition, but for the case of ASCII letters. -/
def FilterCondition.Affixes (cond : FilterCondition) (value : List UInt8) : Prop :=
  if cond.op = "starts_with" then (octets cond.value).map casemap <+: value.map casemap
  else (octets cond.value).map casemap <:+ value.map casemap

instance FilterCondition.decidableAffixes (cond : FilterCondition) (value : List UInt8) :
    Decidable (cond.Affixes value) :=
  inferInstanceAs (Decidable (if cond.op = "starts_with" then _ else _))

/-- What is written for the condition is a test on its header that matches exactly these values. -/
def FilterCondition.ExactGlob (cond : FilterCondition) : Prop :=
  ∃ header text pattern, fieldToHeader cond.field = some header ∧ conditionToSieve cond = some text ∧
    readTest text = some (.plain "header" [.tag "matches",.str header,.str pattern]) ∧
    ∀ value, keyMatches "matches" (octets pattern) value = true ↔ cond.Affixes value

/-- The text has no wildcard and no backslash. -/
def Unglobbed (s : String) : Prop := '*' ∉ s.toList ∧ '?' ∉ s.toList ∧ '\\' ∉ s.toList

theorem octets_append (a b : String) : octets (a ++ b) = octets a ++ octets b := by
  rw [octets,String.toList_append,List.flatMap_append]
  rfl

/-- The pattern a condition is written with. -/
def FilterCondition.pattern (cond : FilterCondition) : String :=
  if cond.op = "starts_with" then cond.value ++ "*" else "*" ++ cond.value

theorem pattern_exact_iff (cond : FilterCondition) :
    (∀ value, keyMatches "matches" (octets cond.pattern) value = true ↔ cond.Affixes value) ↔
      Unglobbed cond.value := by
  rw [Unglobbed,← plain_octets]
  simp only [keyMatches,FilterCondition.pattern,FilterCondition.Affixes]
  split
  · rw [octets_append]
    exact wildcards.prefix_exact_iff casemap (x := 97) (by decide) (by decide) _
  · rw [octets_append]
    exact wildcards.suffix_exact_iff casemap (x := 97) (by decide) (by decide) _

theorem conditionToSieve_of_header {cond : FilterCondition} {header : String}
    (h : fieldToHeader cond.field = some header) : conditionToSieve cond = headerToSieve cond header := by
  have hne : ∀ field, fieldToHeader field = none → cond.field ≠ field := by
    rintro field hnone rfl
    exact Option.some_ne_none header (h.symm.trans hnone)
  rw [conditionToSieve_header (hne _ rfl) (hne _ rfl) (hne _ rfl),h]
  rfl

theorem written_glob {cond : FilterCondition} {header : String}
    (hf : fieldToHeader cond.field = some header)
    (hop : cond.op = "starts_with" ∨ cond.op = "ends_with") :
    ∃ text, conditionToSieve cond = some text ∧ WrittenTest [] text (strOk cond.value)
      (.plain "header" [.tag "matches",.str header,.str cond.pattern]) := by
  rw [conditionToSieve_of_header hf]
  have hheader := fieldToHeader_mem hf
  unfold headerToSieve FilterCondition.pattern
  rcases hop with hop | hop
  · rw [hop,if_pos rfl]
    exact ⟨_,rfl,written_headerTest false "header" "matches" rfl hheader
      (piece_startsWith cond.value) (by decide) (by decide)⟩
  · rw [hop,if_neg (by decide)]
    exact ⟨_,rfl,written_headerTest false "header" "matches" rfl hheader
      (piece_endsWith cond.value) (by decide) (by decide)⟩

theorem exactGlob_iff_pattern {cond : FilterCondition} (hf : (fieldToHeader cond.field).isSome = true)
    (hop : cond.op = "starts_with" ∨ cond.op = "ends_with") :
    cond.ExactGlob ↔ strOk cond.value = true ∧
      ∀ value, keyMatches "matches" (octets cond.pattern) value = true ↔ cond.Affixes value := by
  obtain ⟨header,hheader⟩ := Option.isSome_iff_exists.mp hf
  obtain ⟨text,htext,hwritten⟩ := written_glob hheader hop
  have hread := hwritten.readTest
  constructor
  · rintro ⟨_,text',pattern,-,htext',hread',hexact⟩
    obtain rfl : text = text' := Option.some.inj (htext.symm.trans htext')
    rw [hread'] at hread
    split at hread
    · next hok =>
      obtain rfl : pattern = cond.pattern := by
        injection Option.some.inj hread with _ hargs
        injection hargs with _ hargs
        injection hargs with _ hargs
        injection hargs with hstr
        injection hstr
      exact ⟨hok,hexact⟩
    · simp at hread
  · rintro ⟨hok,hexact⟩
    rw [hok] at hread
    exact ⟨header,text,cond.pattern,hheader,htext,hread,hexact⟩

/-- The test of a `starts_with` or an `ends_with` is exact if and only if the value can be written as a
string and has no wildcard and no backslash. -/
theorem exactGlob_iff {cond : FilterCondition} (hf : (fieldToHeader cond.field).isSome = true)
    (hop : cond.op = "starts_with" ∨ cond.op = "ends_with") :
    cond.ExactGlob ↔ strOk cond.value = true ∧ Unglobbed cond.value := by
  rw [exactGlob_iff_pattern hf hop,pattern_exact_iff]

/-- Plain text. -/
theorem exactGlob_invoice :
    (⟨"subject","starts_with","Invoice"⟩ : FilterCondition).ExactGlob ↔
      strOk "Invoice" = true ∧ Unglobbed "Invoice" :=
  exactGlob_iff rfl (Or.inl rfl)

/-- `50 items` does not begin with `50*`. -/
theorem star_matches_more : ¬(⟨"subject","starts_with","50*"⟩ : FilterCondition).ExactGlob := by
  rw [exactGlob_iff_pattern rfl (Or.inl rfl)]
  rintro ⟨-,h⟩
  exact absurd ((h (octets "50 items")).mp (by decide)) (by decide)

/-! ### Strings and texts -/

/-- Wherever a token may begin, the text is one string, which stands for `t`; what follows is read as if it
stood alone. -/
def Embeds (text t : String) : Prop :=
  ∀ (before rest : List Char) (ts : List Token), feed .start before = some (.start,ts) →
    lex .start (before ++ text.toList ++ rest) = (lex .start rest).map (fun us => ts ++ .str t :: us)

def quoted (s : String) : String := "\"" ++ escapeSieve s ++ "\""

/-- A multi-line text. -/
def textBlock (body : String) : String := "text:\n" ++ stuffDots body ++ "\n.\n"

theorem Embeds.of_piece {text t : String} (h : Piece text.toList true [.str t]) : Embeds text t := by
  intro before rest ts hfeed
  rw [List.append_assoc,lex_of_feed hfeed,h rest,if_pos rfl,Option.map_map]
  rfl

theorem piece_textBlock (body : String) :
    Piece (textBlock body).toList (bodyOk body) [.str (replyText body)] := by
  intro rest
  have hhead : feed .start "text:\n".toList = some (.lineStart [],[]) := rfl
  have htext : (textBlock body).toList ++ rest =
      "text:\n".toList ++ (((stuffDots body).toList ++ ['\n']) ++ '.' :: '\n' :: rest) := by
    simp [textBlock]
  rw [htext,lex_of_feed hhead,toList_stuffDots,lex_lines rest _ [] (lf_notMem_bodyLines body),
    all_bodyLines]
  cases bodyOk body <;> simp [replyText,Function.comp_def]

theorem quotable_cons {c : Char} {cs : List Char}
    (hcr : ∀ cs', c = '\r' → cs = '\n' :: cs' → False) (h : quotable false (c :: cs) = true) :
    c ≠ '\r' ∧ c ≠ '\x00' ∧ quotable false cs = true := by
  have hnul : c ≠ '\x00' := by
    rintro rfl
    simp [quotable] at h
  have hne : c ≠ '\r' := by
    rintro rfl
    cases cs with
    | nil => simp [quotable] at h
    | cons d cs =>
      have hd : d = '\n' := by
        by_contra hd
        simp [quotable,hd] at h
      exact hcr cs rfl (by rw [hd])
  exact ⟨hne,hnul,by simpa [quotable,hnul,hne] using h⟩

/-- Where every carriage return stands before a line feed, the lines have none. -/
theorem lineChars_of_quotable (cs : List Char) :
    quotable false cs = true → ∀ l ∈ linesOf cs, '\r' ∉ l ∧ '\x00' ∉ l := by
  induction cs using linesOf.induct with
  | case1 => exact fun _ _ hl => absurd hl List.not_mem_nil
  | case2 cs ih =>
    intro h
    rw [linesOf]
    exact List.forall_mem_cons.mpr ⟨⟨List.not_mem_nil,List.not_mem_nil⟩,ih h⟩
  | case3 cs ih =>
    intro h
    rw [linesOf]
    exact List.forall_mem_cons.mpr ⟨⟨List.not_mem_nil,List.not_mem_nil⟩,ih h⟩
  | case4 c cs hcr hlf hnil ih =>
    intro h
    obtain ⟨hne,hnul,-⟩ := quotable_cons hcr h
    rw [linesOf,hnil]
    · simpa using ⟨Ne.symm hne,Ne.symm hnul⟩
    · exact hcr
    · exact hlf
  | case5 c cs hcr hlf line rest hlines ih =>
    intro h
    obtain ⟨hne,hnul,hcs⟩ := quotable_cons hcr h
    have hall := ih hcs
    rw [linesOf,hlines]
    · rw [hlines] at hall
      obtain ⟨⟨hline,hline'⟩,hrest⟩ := List.forall_mem_cons.mp hall
      refine List.forall_mem_cons.mpr ⟨⟨?_,?_⟩,hrest⟩
      · exact List.not_mem_cons_of_ne_of_not_mem (Ne.symm hne) hline
      · exact List.not_mem_cons_of_ne_of_not_mem (Ne.symm hnul) hline'
    · exact hcr
    · exact hlf

theorem lineOk_of_chars {l : List Char} (hcr : '\r' ∉ l) (hnul : '\x00' ∉ l) : lineOk l = true := by
  induction l with
  | nil => rfl
  | cons c l ih =>
    obtain ⟨hc,hl⟩ := List.ne_and_not_mem_of_not_mem_cons hcr
    obtain ⟨hc',hl'⟩ := List.ne_and_not_mem_of_not_mem_cons hnul
    simp [lineOk,Ne.symm hc,Ne.symm hc',ih hl hl']

/-- A text that can be quoted can be written line by line. -/
theorem bodyOk_of_strOk {body : String} (h : strOk body = true) : bodyOk body = true :=
  List.all_eq_true.mpr fun l hl =>
    lineOk_of_chars (lineChars_of_quotable body.toList h l hl).1 (lineChars_of_quotable body.toList h l hl).2

/-- A line that is written with its end is read back. -/
theorem linesOf_line {l : List Char} (hlf : '\n' ∉ l) (hcr : '\r' ∉ l) (rest : List Char) :
    linesOf (l ++ '\n' :: rest) = l :: linesOf rest := by
  induction l with
  | nil => rw [List.nil_append,linesOf]
  | cons c l ih =>
    obtain ⟨hc,hl⟩ := List.ne_and_not_mem_of_not_mem_cons hlf
    obtain ⟨hc',hl'⟩ := List.ne_and_not_mem_of_not_mem_cons hcr
    rw [List.cons_append,linesOf,ih hl hl']
    · exact fun _ h => absurd h.symm hc'
    · exact fun h => hc h.symm

theorem linesOf_lines {ls : List (List Char)} (h : ∀ l ∈ ls, '\n' ∉ l ∧ '\r' ∉ l) :
    linesOf (ls.flatMap (fun l => l ++ ['\n'])) = ls := by
  induction ls with
  | nil => rfl
  | cons l ls ih =>
    obtain ⟨⟨hlf,hcr⟩,hls⟩ := List.forall_mem_cons.mp h
    rw [List.flatMap_cons,List.append_assoc,List.singleton_append,linesOf_line hlf hcr,ih hls]

theorem linesOf_ne_nil {cs : List Char} (h : cs ≠ []) : linesOf cs ≠ [] := by
  induction cs using linesOf.induct with
  | case1 => exact absurd rfl h
  | case2 cs ih => simp [linesOf]
  | case3 cs ih => simp [linesOf]
  | case4 c cs hcr hlf hnil ih =>
    rw [linesOf,hnil]
    · exact List.cons_ne_nil _ _
    · exact hcr
    · exact hlf
  | case5 c cs hcr hlf line rest hlines ih =>
    rw [linesOf,hlines]
    · exact List.cons_ne_nil _ _
    · exact hcr
    · exact hlf

/-- The reply says the lines of its text. -/
theorem strLines_replyText {body : String} (h : strOk body = true) :
    strLines (replyText body) = if body = "" then [""] else strLines body := by
  have hchars : ∀ l ∈ bodyLines body, '\n' ∉ l ∧ '\r' ∉ l := by
    intro l hl
    refine ⟨lf_notMem_bodyLines body l hl,?_⟩
    unfold bodyLines at hl
    split at hl
    · rw [List.mem_singleton.mp hl]
      exact List.not_mem_nil
    · exact (lineChars_of_quotable body.toList h l hl).1
  unfold strLines replyText textOf
  rw [List.reverse_reverse,String.toList_ofList,linesOf_lines hchars]
  split
  · next hempty =>
    subst hempty
    rfl
  · next hne =>
    unfold bodyLines
    rw [if_neg (linesOf_ne_nil fun hnil => hne (String.toList_eq_nil_iff.mp hnil))]

/-- Every string without NUL and bare carriage returns is embedded as it is, every such text with its
lines; an empty text as one empty line. -/
theorem texts_embed :
    (∀ s, strOk s = true → Embeds (quoted s) s) ∧
      ∀ body, strOk body = true → ∃ t, Embeds (textBlock body) t ∧
        strLines t = if body = "" then [""] else strLines body := by
  constructor
  · intro s hs
    have h := piece_escaped s
    rw [hs] at h
    exact .of_piece h
  · intro body hbody
    have h := piece_textBlock body
    rw [bodyOk_of_strOk hbody] at h
    exact ⟨_,.of_piece h,strLines_replyText hbody⟩

/-- A quote within a string, and a line that is a single dot. -/
theorem texts_embed_dot : Embeds (quoted "say \"hi\"") "say \"hi\"" ∧
    ∃ t, Embeds (textBlock "first\n.\nlast") t ∧ strLines t = strLines "first\n.\nlast" :=
  ⟨texts_embed.1 "say \"hi\"" (by decide),texts_embed.2 "first\n.\nlast" (by decide)⟩

/-- A bare carriage return cannot be quoted, and an empty text is not empty. -/
theorem texts_changed :
    ¬Embeds (quoted "\r") "\r" ∧ ¬∃ t, Embeds (textBlock "") t ∧ strLines t = strLines "" := by
  constructor
  · intro h
    exact absurd (h [] [] [] rfl) (by decide)
  · rintro ⟨t,h,hlines⟩
    have hblock : lex .start (textBlock "").toList = some [.str "\n"] := rfl
    have hread := h [] [] [] rfl
    rw [List.nil_append,List.append_nil,hblock] at hread
    injection Option.some.inj hread with hstr
    injection hstr with ht
    rw [← ht] at hlines
    exact absurd hlines (by decide)

end Rav
