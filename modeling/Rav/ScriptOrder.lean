import Rav.ScriptForm

/-!
# The order of generated scripts

The responder is a text that is read as commands too, as long as its strings can be written. But it
brings declarations of its own, and they stand after the commands of the rules.

## Main definitions

- `bodyLines` — the lines of a reply
- `written_responder` — declarations and commands of the responder
- `script_wellFormed_iff` — when a generated script is well formed
-/

namespace Rav

open Sieve

/-! ### The text of a reply -/

/-- The lines of a reply; without a text there is one empty line. -/
def bodyLines (body : String) : List (List Char) :=
  if linesOf body.toList = [] then [[]] else linesOf body.toList

theorem lf_notMem_linesOf (cs : List Char) : ∀ l ∈ linesOf cs, '\n' ∉ l := by
  induction cs using linesOf.induct with
  | case1 => exact nofun
  | case2 cs ih =>
    rw [linesOf]
    exact List.forall_mem_cons.mpr ⟨List.not_mem_nil,ih⟩
  | case3 cs ih =>
    rw [linesOf]
    exact List.forall_mem_cons.mpr ⟨List.not_mem_nil,ih⟩
  | case4 c cs hcr hlf hnil ih =>
    rw [linesOf,hnil]
    · simpa using fun h => hlf h.symm
    · exact hcr
    · exact hlf
  | case5 c cs hcr hlf line rest hlines ih =>
    rw [linesOf,hlines]
    · rw [hlines] at ih
      obtain ⟨hline,hrest⟩ := List.forall_mem_cons.mp ih
      refine List.forall_mem_cons.mpr ⟨fun h => ?_,hrest⟩
      rcases List.mem_cons.mp h with h | h
      · exact hlf h.symm
      · exact hline h
    · exact hcr
    · exact hlf

theorem lf_notMem_bodyLines (body : String) : ∀ l ∈ bodyLines body, '\n' ∉ l := by
  unfold bodyLines
  split
  · simp
  · exact lf_notMem_linesOf body.toList

theorem all_bodyLines (body : String) : (bodyLines body).all lineOk = bodyOk body := by
  unfold bodyLines bodyOk
  split
  · next h =>
    rw [h]
    rfl
  · rfl

/-- Lines with separators between them, and one more after the last. -/
theorem intercalate_append_sep (sep : List Char) :
    ∀ {ls : List (List Char)}, ls ≠ [] →
      List.intercalate sep ls ++ sep = ls.flatMap (fun l => l ++ sep) := by
  intro ls
  induction ls with
  | nil => exact fun h => absurd rfl h
  | cons l ls ih =>
    intro _
    cases ls with
    | nil => simp
    | cons l' ls =>
      have hrest := ih nofun
      rw [List.intercalate_cons_cons,List.append_assoc,hrest]
      rfl

theorem toList_stuffLine (l : List Char) :
    (if (String.ofList l).toList.head? = some '.' then "." ++ String.ofList l
      else String.ofList l).toList = stuff l := by
  unfold stuff
  rw [String.toList_ofList]
  split
  · exact String.toList_append.trans (congrArg (['.'] ++ ·) String.toList_ofList)
  · exact String.toList_ofList

/-- The lines are written one after the other, each with its end. -/
theorem toList_stuffDots (body : String) :
    (stuffDots body).toList ++ ['\n'] = (bodyLines body).flatMap (fun l => stuff l ++ ['\n']) := by
  have htext : (stuffDots body).toList =
      List.intercalate ['\n'] ((linesOf body.toList).map stuff) := by
    unfold stuffDots strLines
    rw [String.toList_intercalate,List.map_map,List.map_map]
    refine congrArg (List.intercalate ['\n']) (List.map_congr_left fun l _ => ?_)
    exact toList_stuffLine l
  rw [htext]
  unfold bodyLines
  split
  · next h =>
    rw [h]
    rfl
  · next h =>
    rw [intercalate_append_sep ['\n'] (mt List.map_eq_nil_iff.mp h),List.flatMap_map]

/-! ### The responder -/

/-- A number and the space after it. -/
theorem piece_number (n : Nat) :
    Piece ((toString n).toList ++ [' ']) true [.number (digitsValue 0 (Nat.toDigits 10 n))] := by
  intro rest
  have hdigits : ∀ c ∈ Nat.toDigits 10 n, c.isDigit = true :=
    fun c hc => Nat.isDigit_of_mem_toDigits (by decide) (by decide) hc
  have htext : (toString n).toList = Nat.toDigits 10 n := String.toList_ofList
  have hspace : Mode.start.step ' ' = some (.start,[]) := rfl
  rw [htext,List.append_assoc,List.singleton_append,
    lex_number (d := ' ') rfl rfl rest Nat.toDigits_ne_nil hdigits,lex_move hspace]
  rfl

/-- What a reply says. -/
def replyText (body : String) : String :=
  textOf ((bodyLines body).flatMap (fun l => l ++ ['\n'])).reverse

/-- A multi-line text and the end of the command. -/
theorem piece_reply (body : String) :
    Piece (" text:\n".toList ++ ((stuffDots body).toList ++ "\n.\n;".toList)) (bodyOk body)
      [.str (replyText body),.semi] := by
  intro rest
  have hhead : feed .start " text:\n".toList = some (.lineStart [],[]) := rfl
  have hsemi : Mode.start.step ';' = some (.start,[.semi]) := rfl
  have htext : " text:\n".toList ++ ((stuffDots body).toList ++ "\n.\n;".toList) ++ rest =
      " text:\n".toList ++ (((stuffDots body).toList ++ ['\n']) ++ '.' :: '\n' :: ';' :: rest) := by
    simp
  rw [htext,lex_of_feed hhead,toList_stuffDots,
    lex_lines (';' :: rest) _ [] (lf_notMem_bodyLines body),all_bodyLines,lex_cons hsemi]
  cases bodyOk body <;> simp [replyText,Function.comp_def]

/-- The command that answers. -/
theorem piece_vacationAction (v : VacationResponder) :
    ∃ head : Clause, head.extensions = ["vacation"] ∧ head.name = "vacation" ∧
      Piece (vacationAction v).toList (strOk v.subject && bodyOk v.body) (head.tokens ++ [.semi]) := by
  have hnumber := piece_number (vacationDays v.replyIntervalHours)
  have hsubject := piece_escaped v.subject
  have hreply := piece_reply v.body
  unfold vacationAction
  generalize toString (vacationDays v.replyIntervalHours) = days at hnumber
  generalize digitsValue 0 _ = n at hnumber
  generalize escapeSieve v.subject = subject at hsubject
  generalize stuffDots v.body = body at hreply
  have hdays : Piece "vacation :days ".toList true [.ident "vacation",.tag "days"] := Piece.of_feed rfl
  have htag : Piece ":subject ".toList true [.tag "subject"] := Piece.of_feed rfl
  have hwhole := (((hdays.append hnumber).append htag).append hsubject).append hreply
  refine ⟨.plain "vacation" [.tag "days",.number n,.tag "subject",.str v.subject,
    .str (replyText v.body)],rfl,rfl,?_⟩
  simpa [Clause.tokens,Argument.tokens] using hwhole

/-! ### Dates -/

/-- A comparison of the current date. -/
def dateTest (relation date : String) : String :=
  "currentdate :value \"" ++ relation ++ "\" \"date\" \"" ++ escapeSieve date ++ "\""

/-- The tests of the dates, and whether they can be written. -/
def writtenGuards (v : VacationResponder) : List (String × Bool) :=
  (v.startDate.map (fun start => (dateTest "ge" start,strOk start))).toList ++
    (v.endDate.map (fun stop => (dateTest "le" stop,strOk stop))).toList

theorem map_writtenGuards (v : VacationResponder) :
    (writtenGuards v).map Prod.fst = vacationGuards v := by
  unfold writtenGuards vacationGuards
  cases v.startDate <;> cases v.endDate <;> rfl

theorem all_writtenGuards (v : VacationResponder) :
    (writtenGuards v).all Prod.snd = (dateOk v.startDate && dateOk v.endDate) := by
  unfold writtenGuards dateOk
  cases v.startDate <;> cases v.endDate <;> simp

theorem written_dateTest (date : String) {relation : String} (h : relation ∈ ["ge","le"]) :
    ∃ t, WrittenTest ["date","relational"] (dateTest relation date) (strOk date) t := by
  refine ⟨.plain "currentdate" [.tag "value",.str relation,.str "date",.str date],
    .of_piece ?_ fun e he => he⟩
  have hhead : Piece ("currentdate :value \"" ++ relation ++ "\" \"date\" ").toList true
      [.ident "currentdate",.tag "value",.str relation,.str "date"] := by
    simp only [List.mem_cons,List.not_mem_nil,or_false] at h
    rcases h with rfl | rfl <;> exact Piece.of_feed rfl
  have hwhole := hhead.append (piece_escaped date)
  unfold dateTest
  generalize escapeSieve date = value at hwhole
  simpa [Clause.tokens,Argument.tokens] using hwhole

theorem written_guard {v : VacationResponder} {p : String × Bool} (h : p ∈ writtenGuards v) :
    ∃ t, WrittenTest ["date","relational"] p.1 p.2 t := by
  rcases List.mem_append.mp h with h | h
  · obtain ⟨date,-,rfl⟩ := Option.map_eq_some_iff.mp (Option.mem_toList.mp h)
    exact written_dateTest date (by decide)
  · obtain ⟨date,-,rfl⟩ := Option.map_eq_some_iff.mp (Option.mem_toList.mp h)
    exact written_dateTest date (by decide)

/-- The answer is a command, or stands in the block of the dates. -/
theorem written_vacationBlock (v : VacationResponder) :
    ∃ t, Written (vacationExtensions v) (vacationBlock v) (vacationOk v) t := by
  obtain ⟨action,hext,hname,haction⟩ := piece_vacationAction v
  have hplain : action.name ≠ "require" := by
    rw [hname]
    decide
  unfold vacationBlock vacationExtensions vacationOk
  rw [← all_writtenGuards,← map_writtenGuards,List.isEmpty_map]
  split
  · next hempty =>
    refine ⟨.simple action .nil,?_,?_,?_⟩
    · rw [List.isEmpty_iff.mp hempty]
      exact haction
    · exact (Bool.and_true _).trans (decide_eq_true hplain)
    · intro e he
      simpa [Script.extensions,hext] using he
  · next hnonempty =>
    have hne : writtenGuards v ≠ [] := fun h => hnonempty (List.isEmpty_iff.mpr h)
    obtain ⟨ts,-,hts,hguards⟩ := written_tests ",\n          " "\n          ".toList rfl rfl
      (writtenGuards v) hne fun p hp => written_guard hp
    have hopen : Piece "if allof (".toList true [.ident "if",.ident "allof",.lparen] := Piece.of_feed rfl
    have hbrace : Piece " \x7b\n  ".toList true [.lbrace] := Piece.of_feed rfl
    have hclose : Piece "\n\x7d".toList true [.rbrace] := Piece.of_feed rfl
    have hwhole := (((hopen.append hguards).append hbrace).append haction).append hclose
    refine ⟨.block (.nested "if" [] (.group "allof" [] ts)) (.simple action .nil) .nil,?_,?_,?_⟩
    · generalize vacationAction v = text at hwhole
      simpa [Script.tokens,Clause.tokens] using hwhole
    · exact (Bool.and_true _).trans ((Bool.and_true _).trans (decide_eq_true hplain))
    · intro e he
      have hmem : e ∈ ts.extensions ∨ e = "vacation" := by
        simpa [Script.extensions,Clause.extensions,hext,extensionOf] using he
      rcases hmem with he | rfl
      · exact List.mem_cons_of_mem _ (hts e he)
      · exact List.mem_cons_self

/-- The responder: declarations, and commands that use what is declared. -/
theorem written_responder (v : VacationResponder) :
    ∃ t, Piece ("\n# --- out of office (generated by Altacee Mail) ---\nrequire [" ++
          quoteAll (vacationExtensions v) ++ "];\n" ++ vacationBlock v ++ "\n").toList (vacationOk v)
        ((declares (vacationExtensions v)).append t).tokens ∧
      t.noRequire = true ∧ ∀ e ∈ t.extensions, e ∈ vacationExtensions v := by
  obtain ⟨t,ht⟩ := written_vacationBlock v
  refine ⟨t,?_,ht.plain,ht.uses⟩
  have hcomment : Piece "\n# --- out of office (generated by Altacee Mail) ---\nrequire [".toList true
      [.ident "require",.lbracket] := Piece.of_feed rfl
  have hexts : ∃ ts, Piece (quoteAll (vacationExtensions v) ++ "];\n").toList true ts ∧
      (declares (vacationExtensions v)).tokens = [.ident "require",.lbracket] ++ ts := by
    unfold vacationExtensions
    split
    · exact ⟨_,Piece.of_feed rfl,rfl⟩
    · exact ⟨_,Piece.of_feed rfl,rfl⟩
  obtain ⟨ts,hexts,htokens⟩ := hexts
  have hend : Piece "\n".toList true [] := Piece.of_feed rfl
  have hwhole := ((hcomment.append hexts).append ht.piece).append hend
  rw [Bool.true_and,Bool.true_and,Bool.and_true,List.append_nil,← htokens] at hwhole
  rw [Script.tokens_append]
  simpa only [String.toList_append,List.append_assoc] using hwhole

/-! ### Scripts -/

/-- A text that is read as commands is a script, unless it cannot be read. -/
theorem wellFormed_piece {text : String} {ok : Bool} {s : Script} (h : Piece text.toList ok s.tokens) :
    WellFormed text ↔ ok = true ∧ s.requiresFirst = true ∧ ∀ e ∈ s.extensions, e ∈ s.required := by
  have hlex := h.lex
  cases ok with
  | false => exact iff_of_false (not_wellFormed (parse_none hlex)) fun h => absurd h.1 nofun
  | true =>
    rw [wellFormed_iff (parse_tokens hlex)]
    exact (and_iff_right rfl).symm

/-- Without a responder every script is well formed whose strings can be written. -/
theorem wellFormed_rules (rules : List FilterRule) :
    WellFormed (generateSieveScript rules) ↔ (capableRules rules).all ruleOk = true := by
  obtain ⟨body,hpiece,hplain,huses,-⟩ := written_rulesPart rules
  rw [wellFormed_piece hpiece,requiresFirst_declares,Script.extensions_append,declares_extensions,
    Script.required_append,declares_required,requiresFirst_of_noRequire hplain]
  refine and_iff_left ⟨rfl,fun e he => ?_⟩
  exact List.mem_append_left _ (huses e he)

/-- With a responder, none of the rules may be a command. -/
theorem wellFormed_responder (rules : List FilterRule) {vacation : Option VacationResponder}
    {v : VacationResponder} (hv : activeResponder vacation = some v) :
    WellFormed (generateScript rules vacation) ↔ (capableRules rules).all ruleOk = true ∧
      vacationOk v = true ∧ (capableRules rules).any emitted = false := by
  obtain ⟨body,hpiece,hplain,huses,hnil⟩ := written_rulesPart rules
  obtain ⟨answer,hpiece',hplain',huses'⟩ := written_responder v
  have hwhole := hpiece.append hpiece'
  have hexts : ∃ e es, vacationExtensions v = e :: es := by
    unfold vacationExtensions
    split
    · exact ⟨_,_,rfl⟩
    · exact ⟨_,_,rfl⟩
  obtain ⟨e,es,hexts⟩ := hexts
  have htext : generateScript rules vacation = generateSieveScript rules ++
      ("\n# --- out of office (generated by Altacee Mail) ---\nrequire [" ++
        quoteAll (vacationExtensions v) ++ "];\n" ++ vacationBlock v ++ "\n") := by
    unfold generateScript
    rw [hv]
    simp only [String.append_assoc]
  rw [← String.toList_append,← htext,← Script.tokens_append] at hwhole
  rw [wellFormed_piece hwhole,Bool.and_eq_true,and_assoc]
  refine and_congr_right fun _ => and_congr_right fun _ => ?_
  generalize ruleExtensions (capableRules rules) = exts at huses
  have hfirst : (((declares exts).append body).append
      ((declares (vacationExtensions v)).append answer)).requiresFirst =
        (body.append ((declares (vacationExtensions v)).append answer)).requiresFirst := by
    cases exts <;> rfl
  rw [hfirst,hexts,requiresFirst_late hplain hplain',hnil,← hexts]
  refine and_iff_left fun x hx => ?_
  simp only [Script.extensions_append,declares_extensions,List.nil_append,List.mem_append] at hx
  simp only [Script.required_append,declares_required,List.mem_append]
  rcases hx with hx | hx
  · exact Or.inl (Or.inl (huses x hx))
  · exact Or.inr (Or.inl (huses' x hx))

/-- A generated script is well formed exactly if the strings of its rules can be written and, with a
responder, those of the responder, and no rule stands before the declarations of the responder. -/
theorem script_wellFormed_iff (rules : List FilterRule) (vacation : Option VacationResponder) :
    WellFormed (generateScript rules vacation) ↔ (capableRules rules).all ruleOk = true ∧
      ∀ v, activeResponder vacation = some v →
        vacationOk v = true ∧ (capableRules rules).any emitted = false := by
  cases hv : activeResponder vacation with
  | none =>
    have htext : generateScript rules vacation = generateSieveScript rules := by
      unfold generateScript
      rw [hv]
    rw [htext,wellFormed_rules]
    exact (and_iff_left nofun).symm
  | some v =>
    rw [wellFormed_responder rules hv]
    refine and_congr_right fun _ => ⟨fun h w hw => ?_,fun h => h v rfl⟩
    obtain rfl := Option.some.inj hw
    exact h

/-- Mail with a word in its subject goes to a folder. -/
def spamRule : FilterRule :=
  ⟨"r","Spam",true,0,[⟨"subject","contains","lottery"⟩],"all",[⟨"move",some "Junk"⟩],true,""⟩

/-- Some responder is turned on. -/
def awayResponder : VacationResponder := ⟨true,"Away","Back on Monday.",none,none,24⟩

/-- One rule and the responder are enough. -/
theorem script_requires_late :
    ¬∀ rules vacation, WellFormed (generateScript rules vacation) := by
  intro h
  have hactive : activeResponder (some awayResponder) = some awayResponder := rfl
  obtain ⟨-,-,hnone⟩ := (wellFormed_responder [spamRule] hactive).mp (h _ _)
  exact absurd hnone (by decide)

end Rav
