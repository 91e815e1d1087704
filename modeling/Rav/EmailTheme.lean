import Rav.LinkProxy
import Rav.Routes.MessageDetail

/-!
# `email_theme`: whether a mail is light or dark

The backgrounds of an HTML mail, from its style attributes, its style sheets and its `bgcolor` attributes,
and the luminance that outweighs the other one. Colours are cut by bytes, and the detection panics if a cut
is within a character. A colour of a style is found as a colour; a `bgcolor` may be any text.

## Main definitions

- `ThemeEnv` — regular expressions, lower case, and numbers
- `ThemeEnv.normalizeColor`, `ThemeEnv.parseColor` — where a colour is cut
- `ThemeEnv.detectEmailTheme` — the whole detection
- `ThemeEnv.CutsCleanly` — a colour that is cut between characters
- `ThemeEnv.detectEmailTheme_returns_iff` — when a mail is read without a panic
-/

namespace Rav

/-- `char::is_ascii_hexdigit`, the digits of a colour. -/
def isColorDigit (c : Char) : Bool :=
  let n := c.toNat
  (48 ≤ n && n ≤ 57) || (65 ≤ n && n ≤ 70) || (97 ≤ n && n ≤ 102)

/-- `str::to_lowercase`, `str::parse` and `format!` of an `f32`, and what the regular expressions find: the
matches, or the groups of each match, and those groups take part in every match. -/
structure ThemeEnv where
  lower : List Char → List Char
  parseF32 : List Char → Option Float32
  tenths : Float32 → List Char
  darkMediaQuery : List Char → List (List Char)
  bodyTag : List Char → List (List Char)
  tableTag : List Char → List (List Char)
  tdTag : List Char → List (List Char)
  divTag : List Char → List (List Char)
  styleTag : List Char → List (List Char)
  /-- A value in double or in single quotes. -/
  styleAttr : List Char → Option (Option (List Char) × Option (List Char))
  bgcolorAttr : List Char → Option (List Char)
  bodyCss : List Char → Option (List Char)
  classCss : List Char → List (List Char)
  elemCss : List Char → List (List Char × List Char)
  bgProp : List Char → List (List Char)
  hexColor : List Char → List (List Char)
  rgbColor : List Char → List (List Char × List Char × List Char)
  rgbaColor : List Char → List (List Char × List Char × List Char × List Char)
  rgbaModern : List Char → List (List Char × List Char × List Char × List Char)
  namedColor : String → List Char → Bool
  lower_ascii : ∀ s, (∀ c ∈ s, c.utf8Size = 1) → lower s = s.map Char.toLower
  /-- Every character has something in lower case, and it is white space only if the character is. -/
  lower_front : ∀ c s, ∃ d t, lower (c :: s) = d :: t ∧ (c.utf8Size = 1 → d = c.toLower) ∧
    (isWhitespace d = true → isWhitespace c = true)
  /-- What is in lower case, or is a number sign or a zero, stays. -/
  lower_lowered : ∀ s t, (∀ c ∈ t, c ∈ lower s ∨ c = '#' ∨ c = '0') → lower t = t
  hexColor_match : ∀ s m, m ∈ hexColor s → ∃ digits, m = '#' :: digits ∧ ∀ d ∈ digits, isColorDigit d = true
  tenths_colon : ∀ w, ':' ∉ tenths w

/-- A step that adds items, for one item after the other. -/
def collect {α β : Type} (f : α → Except Panic (List β)) (l : List α) : Except Panic (List β) := do
  return (← l.mapM f).flatten

/-- `u8::from_str_radix` of at most two bytes. -/
def hexNumber : List Char → Option UInt8
  | [c] => if c.toNat < 128 then (hexValue (UInt8.ofNat c.toNat)).map UInt8.ofNat else none
  | s => parseHexByte s

/-- The product of two bytes. -/
def u8Mul (a b : UInt8) : Except Panic UInt8 :=
  if a.toNat * b.toNat < 256 then .ok (a * b) else .error .overflow

/-- Named CSS colors mapped to RGB values. -/
def namedColors : List (String × UInt8 × UInt8 × UInt8) :=
  [("black", 0, 0, 0), ("white", 255, 255, 255), ("red", 255, 0, 0), ("green", 0, 128, 0), ("blue", 0, 0, 255),
    ("yellow", 255, 255, 0), ("navy", 0, 0, 128), ("gray", 128, 128, 128), ("grey", 128, 128, 128),
    ("silver", 192, 192, 192), ("maroon", 128, 0, 0), ("purple", 128, 0, 128), ("teal", 0, 128, 128),
    ("olive", 128, 128, 0), ("aqua", 0, 255, 255), ("fuchsia", 255, 0, 255), ("lime", 0, 255, 0),
    ("darkgray", 169, 169, 169), ("darkgrey", 169, 169, 169), ("lightgray", 211, 211, 211),
    ("lightgrey", 211, 211, 211), ("whitesmoke", 245, 245, 245), ("ghostwhite", 248, 248, 255),
    ("floralwhite", 255, 250, 240), ("linen", 250, 240, 230), ("cornsilk", 255, 248, 220),
    ("gainsboro", 220, 220, 220)]

structure BackgroundColor where
  color : List Char
  elementWeight : Float32

/-- A color extracted from an inline style, with its alpha value. -/
structure ExtractedColor where
  color : List Char
  alpha : Float32

/-- `decode_quoted_printable`. -/
def decodeQuotedPrintable (html : List Char) : List Char :=
  let result := replaceText "=3D".toList "=".toList html
  let result := replaceText "=3d".toList "=".toList result
  let result := replaceText "=20".toList " ".toList result
  let result := replaceText "=\r\n".toList [] result
  replaceText "=\n".toList [] result

/-- `rgb(r, g, b)`. -/
def rgbText (r g b : List Char) : List Char :=
  "rgb(".toList ++ r ++ ", ".toList ++ g ++ ", ".toList ++ b ++ ")".toList

/-- What a color of three bytes is written as; a character that is missing is a zero. -/
def doubled (hex : List Char) : List Char :=
  let r := hex.getD 0 '0'
  let g := hex.getD 1 '0'
  let b := hex.getD 2 '0'
  [r, r, g, g, b, b]

namespace ThemeEnv

variable (env : ThemeEnv)

/-! ### Colours -/

/-- `is_transparent`. -/
def isTransparent (color : List Char) : Bool :=
  let c := env.lower color
  decide ("transparent".toList <:+: c) || decide ("rgba(0, 0, 0, 0)".toList <:+: c) ||
    decide ("rgba(0,0,0,0)".toList <:+: c) || c = "initial".toList || c = "inherit".toList || c = "none".toList

/-- `normalize_color`. -/
def normalizeColor (color : List Char) : Except Panic (List Char) :=
  match env.lower (trimText color) with
  | '#' :: hex =>
    if byteLength hex = 3 then .ok ('#' :: doubled hex)
    else if byteLength hex = 8 then (byteSlice 0 6 hex).map ('#' :: ·)
    else .ok ('#' :: hex)
  | c => .ok c

/-- Parse the alpha channel from an 8-digit hex color (e.g. `#rrggbbaa`).
Returns 1.0 for 3/6-digit hex or if parsing fails. -/
def parseHexAlpha (color : List Char) : Except Panic Float32 :=
  match env.lower (trimText color) with
  | '#' :: hex =>
    if byteLength hex = 8 then do
      let pair ← byteSlice 6 8 hex
      return ((hexNumber pair).getD 255).toFloat32 / 255.0
    else if byteLength hex = 4 then do
      let last ← byteSlice 3 4 hex
      return (← u8Mul ((hexNumber last).getD 15) 17).toFloat32 / 255.0
    else .ok 1.0
  | _ => .ok 1.0

/-- Parse an alpha string that may be a decimal (`0.5`) or percentage (`50%`). -/
def parseAlphaStr (s : List Char) : Float32 :=
  if s.getLast? = some '%' then (env.parseF32 s.dropLast).getD 100.0 / 100.0 else (env.parseF32 s).getD 1.0

/-- A part of `rgb(r, g, b)`. -/
def colorPart (s : List Char) : UInt8 := UInt8.ofNat ((parseUnsigned 256 (String.ofList s)).getD 255)

/-- What is read of a color that has neither a name nor six digits. Unknown color - default to white (high
luminance = light, safe fallback). -/
def parseRgb (c : List Char) : UInt8 × UInt8 × UInt8 :=
  match (env.rgbColor c).head? with
  | some (r, g, b) => (colorPart r, colorPart g, colorPart b)
  | none =>
    match (env.rgbaColor c).head? with
    | some (r, g, b, _) => (colorPart r, colorPart g, colorPart b)
    | none => (255, 255, 255)

/-- `parse_color`. -/
def parseColor (color : List Char) : Except Panic (UInt8 × UInt8 × UInt8) :=
  let c := env.lower (trimText color)
  match namedColors.find? fun p => c = p.1.toList with
  | some p => .ok p.2
  | none =>
    match c with
    | '#' :: hex =>
      let hex := trimText hex
      if 6 ≤ byteLength hex then do
        let r ← byteSlice 0 2 hex
        let g ← byteSlice 2 4 hex
        let b ← byteSlice 4 6 hex
        return ((hexNumber r).getD 255, (hexNumber g).getD 255, (hexNumber b).getD 255)
      else .ok (env.parseRgb c)
    | _ => .ok (env.parseRgb c)

/-- `calculate_luminance`. -/
def calculateLuminance (color : List Char) : Except Panic Float := do
  let (r, g, b) ← env.parseColor color
  return (0.299 * r.toFloat + 0.587 * g.toFloat + 0.114 * b.toFloat) / 255.0

/-! ### Extraction -/

/-- The first named color, found by word-boundary matching to avoid false positives (e.g. "white" matching
inside "whitesmoke"). -/
def firstNamed (bgValue : List Char) : List (List Char) :=
  ((namedColors.find? fun p => env.namedColor p.1 bgValue).map fun p => p.1.toList).toList

/-- The colors of one value of `background` in an inline style. -/
def inlineColors (bg : List Char) : Except Panic (List ExtractedColor) := do
  let bgValue := trimText bg
  let hex ← (env.hexColor bgValue).mapM fun raw => do return ⟨raw, ← env.parseHexAlpha raw⟩
  return hex ++ ((env.rgbColor bgValue).map (fun (r, g, b) => ⟨rgbText r g b, 1.0⟩) ++
    (env.rgbaColor bgValue).map (fun (r, g, b, a) => ⟨rgbText r g b, env.parseAlphaStr a⟩) ++
    (env.rgbaModern bgValue).map (fun (r, g, b, a) => ⟨rgbText r g b, env.parseAlphaStr a⟩) ++
    (env.firstNamed bgValue).map (fun name => ⟨name, 1.0⟩))

/-- `extract_colors_from_style`. -/
def extractColorsFromStyle (tagContent : List Char) : Except Panic (List ExtractedColor) :=
  match env.styleAttr tagContent with
  | some cap => collect env.inlineColors (env.bgProp (((cap.1 <|> cap.2).map env.lower).getD []))
  | none => .ok []

/-- What an extracted color adds to the backgrounds. -/
def addExtracted (weight : Float32) (ec : ExtractedColor) : Except Panic (List BackgroundColor) :=
  if ec.alpha < 0.1 ∨ env.isTransparent ec.color then .ok []
  else do
    let normalized ← env.normalizeColor ec.color
    return if normalized.isEmpty then [] else [⟨normalized, weight * ec.alpha⟩]

/-- `extract_inline_style_colors`. -/
def extractInlineStyleColors (html : List Char) : Except Panic (List BackgroundColor) :=
  collect (fun (tag, weight) =>
    collect (fun tagContent => do
      collect (env.addExtracted weight) (← env.extractColorsFromStyle tagContent)) (tag html))
    [(env.bodyTag, 1.0), (env.tableTag, 0.8), (env.tdTag, 0.6), (env.divTag, 0.4)]

/-- What a color of digits adds. -/
def addHex (weight : Float32) (raw : List Char) : Except Panic (List BackgroundColor) := do
  let color ← env.normalizeColor raw
  return if env.isTransparent color ∨ color.isEmpty then [] else [⟨color, weight⟩]

/-- What a color adds. -/
def addRgb (weight : Float32) : List Char × List Char × List Char → List BackgroundColor
  | (r, g, b) => if env.isTransparent (rgbText r g b) then [] else [⟨rgbText r g b, weight⟩]

/-- What a color with an alpha value adds. -/
def addRgba (weight : Float32) : List Char × List Char × List Char × List Char → List BackgroundColor
  | (r, g, b, a) =>
    let alpha := env.parseAlphaStr a
    if alpha < 0.1 ∨ env.isTransparent (rgbText r g b) then [] else [⟨rgbText r g b, weight * alpha⟩]

/-- The colors of one value of `background` in a rule. -/
def ruleColors (weight : Float32) (bg : List Char) : Except Panic (List BackgroundColor) := do
  let bgValue := trimText bg
  let hex ← collect (env.addHex weight) (env.hexColor bgValue)
  return hex ++ ((env.rgbColor bgValue).flatMap (env.addRgb weight) ++
    (env.rgbaColor bgValue).flatMap (env.addRgba weight) ++
    (env.rgbaModern bgValue).flatMap (env.addRgba weight) ++
    (env.firstNamed bgValue).map (fun name => ⟨name, weight⟩))

/-- Extract color values only from background/background-color properties in a CSS rule body. -/
def extractAllColorsFromCss (css : List Char) (weight : Float32) : Except Panic (List BackgroundColor) :=
  collect (env.ruleColors weight) (env.bgProp (env.lower css))

/-- The colors of a rule, if it mentions a background. -/
def mentioned (weight : Float32) (styles : List Char) : Except Panic (List BackgroundColor) :=
  if "background".toList <:+: env.lower styles then env.extractAllColorsFromCss styles weight else .ok []

/-- The weight of an element in a style sheet. -/
def elementWeight (tag : List Char) : Float32 :=
  if tag = "body".toList then 1.0
  else if tag = "table".toList then 0.8
  else if tag = "td".toList then 0.6
  else if tag = "div".toList then 0.4
  else 0.3

/-- `extract_style_tag_colors`. -/
def extractStyleTagColors (html : List Char) : Except Panic (List BackgroundColor) :=
  collect (fun styleContent =>
    if "background".toList <:+: env.lower styleContent then do
      let body ← collect (env.mentioned 1.0) (env.bodyCss styleContent).toList
      let classes ← collect (env.mentioned 0.3) (env.classCss styleContent)
      let elements ← collect (fun (tag, styles) => env.mentioned (elementWeight (env.lower tag)) styles)
        (env.elemCss styleContent)
      return body ++ classes ++ elements
    else .ok []) (env.styleTag html)

/-- What a `bgcolor` attribute adds. -/
def addBgcolor (weight : Float32) (color : List Char) : Except Panic (List BackgroundColor) :=
  if env.isTransparent color then .ok []
  else do
    let normalized ← env.normalizeColor color
    return if normalized.isEmpty then [] else [⟨normalized, weight⟩]

/-- `extract_bgcolor_attrs`. -/
def extractBgcolorAttrs (html : List Char) : Except Panic (List BackgroundColor) :=
  collect (fun (tag, weight) =>
    collect (fun tagContent => collect (env.addBgcolor weight) (env.bgcolorAttr tagContent).toList) (tag html))
    [(env.bodyTag, 1.0), (env.tableTag, 0.8), (env.tdTag, 0.6)]

/-- The color and the weight. -/
def colorKey (bg : BackgroundColor) : List Char := bg.color ++ ':' :: env.tenths bg.elementWeight

/-- The backgrounds whose key was not seen. -/
def retainNew (seen : List (List Char)) : List BackgroundColor → List BackgroundColor
  | [] => []
  | bg :: colors =>
    if env.colorKey bg ∈ seen then retainNew seen colors
    else bg :: retainNew (env.colorKey bg :: seen) colors

/-- Remove duplicate color entries that likely come from the same element
having both bgcolor="X" and style="background-color:X". -/
def deduplicateColors (colors : List BackgroundColor) : List BackgroundColor :=
  if colors.length ≤ 1 then colors else env.retainNew [] colors

/-- `extract_background_colors`. -/
def extractBackgroundColors (html : List Char) : Except Panic (List BackgroundColor) := do
  let inline ← env.extractInlineStyleColors html
  let style ← env.extractStyleTagColors html
  let attrs ← env.extractBgcolorAttrs html
  return env.deduplicateColors (inline ++ style ++ attrs)

/-! ### Detection -/

/-- Whether the HTML has rules for a dark color scheme that set backgrounds. -/
def hasDarkModeMediaQuery (html : List Char) : Bool :=
  (env.darkMediaQuery (env.lower html)).any fun block => decide ("background".toList <:+: block)

/-- The weights of the groups. -/
structure Weights where
  light : Float32 := 0.0
  dark : Float32 := 0.0
  total : Float32 := 0.0
  hasBodyBackground : Bool := false

/-- A color, in its group. -/
def addColor (w : Weights) (bg : BackgroundColor) : Except Panic Weights := do
  let luminance ← env.calculateLuminance bg.color
  let w := { w with
    total := w.total + bg.elementWeight
    hasBodyBackground := w.hasBodyBackground || decide (1.0 ≤ bg.elementWeight) }
  return if luminance < 0.5 then { w with dark := w.dark + bg.elementWeight }
    else { w with light := w.light + bg.elementWeight }

/-- Check if all color signals are just white (#ffffff or named "white") on
wrapper elements (table or td) without any body-level background. -/
def isOnlyWhiteWrapper (colors : List BackgroundColor) : Bool :=
  !colors.isEmpty && colors.all fun bg =>
    !decide (1.0 ≤ bg.elementWeight) &&
      (env.lower (trimText bg.color) = "#ffffff".toList || env.lower (trimText bg.color) = "white".toList)

/-- What the weights come to. -/
def verdict (w : Weights) (colors : List BackgroundColor) : EmailTheme :=
  if w.total == 0.0 then .transparent
  else if 0.5 ≤ w.light / w.total then
    if !w.hasBodyBackground && env.isOnlyWhiteWrapper colors then .transparent else .light
  else if 0.5 ≤ w.dark / w.total then
    if w.total ≤ 1.0 ∧ colors.length ≤ 2 ∧ !w.hasBodyBackground then .transparent else .dark
  else .transparent

/-- `classify_by_luminance_groups`. -/
def classifyByLuminanceGroups (colors : List BackgroundColor) : Except Panic (Option EmailTheme) := do
  return some (env.verdict (← colors.foldlM env.addColor {}) colors)

/-- `detect_email_theme`. -/
def detectEmailTheme (html : List Char) : Except Panic (Option EmailTheme) :=
  if (trimText html).isEmpty then .ok none
  else
    let decoded := decodeQuotedPrintable html
    if env.hasDarkModeMediaQuery decoded then .ok (some .adaptive)
    else do
      let backgrounds ← env.extractBackgroundColors decoded
      if backgrounds.isEmpty then .ok (some .transparent) else env.classifyByLuminanceGroups backgrounds

end ThemeEnv

/-! ### Steps that add items -/

section Yields

variable {α β : Type} {P Q : β → Prop} {f : α → Except Panic (List β)}

/-- A step comes to an end, and adds items of one kind. -/
def Yields (P : β → Prop) (x : Except Panic (List β)) : Prop := ∃ bs, x = .ok bs ∧ ∀ b ∈ bs, P b

theorem exists_eq_ok {a : α} {p : α → Prop} :
    (∃ b, (.ok a : Except Panic α) = .ok b ∧ p b) ↔ p a := by
  constructor
  · rintro ⟨_, ⟨⟩, h⟩
    exact h
  · exact fun h => ⟨a, rfl, h⟩

theorem yields_ok {bs : List β} : Yields P (.ok bs) ↔ ∀ b ∈ bs, P b := exists_eq_ok

theorem Yields.bind {γ : Type} {R : γ → Prop} {x : Except Panic (List γ)} {g : List γ → Except Panic (List β)}
    (hx : Yields R x) (hg : ∀ cs, (∀ c ∈ cs, R c) → Yields P (g cs)) : Yields P (x >>= g) := by
  obtain ⟨cs, rfl, hcs⟩ := hx
  exact hg cs hcs

theorem yields_append {x : Except Panic (List β)} {l : List β} :
    Yields P (x >>= fun bs => .ok (bs ++ l)) ↔ Yields P x ∧ ∀ b ∈ l, P b := by
  cases x with
  | error e => exact iff_of_false nofun fun h => absurd h.1 nofun
  | ok bs => rw [Except.bind_ok, yields_ok, yields_ok, List.forall_mem_append]

theorem yields_mapM {g : α → Except Panic β} {l : List α} (hg : ∀ a ∈ l, ∃ b, g a = .ok b ∧ P b) :
    Yields P (l.mapM g) := by
  obtain ⟨bs, hbs⟩ := (mapM_returns_iff l).mpr fun a ha => (hg a ha).imp fun b hb => hb.1
  refine ⟨bs, hbs, fun b hb => ?_⟩
  obtain ⟨a, ha, hab⟩ := (mem_of_mapM_ok hbs b).mp hb
  obtain ⟨c, hac, hc⟩ := hg a ha
  obtain rfl := Except.ok.inj (hab.symm.trans hac)
  exact hc

/-- A loop adds items of one kind exactly if every round does. -/
theorem yields_collect {l : List α} : Yields P (collect f l) ↔ ∀ a ∈ l, Yields P (f a) := by
  induction l with
  | nil => exact iff_of_true ⟨[], rfl, List.forall_mem_nil _⟩ (List.forall_mem_nil _)
  | cons a l ih =>
    rw [List.forall_mem_cons, ← ih]
    unfold collect
    rw [List.mapM_cons]
    cases f a with
    | error e => exact iff_of_false nofun fun h => absurd h.1 nofun
    | ok bs =>
      rw [Except.bind_ok]
      cases l.mapM f with
      | error e => exact iff_of_false nofun fun h => absurd h.2 nofun
      | ok more =>
        show Yields P (.ok (bs ++ more.flatten)) ↔ Yields P (.ok bs) ∧ Yields P (.ok more.flatten)
        rw [yields_ok, yields_ok, yields_ok, List.forall_mem_append]

end Yields

/-! ### Colours that are cut -/

/-- What six digits are read of is cut between characters, if it is long enough. -/
def CutsInPairs (t : List Char) : Prop :=
  6 ≤ byteLength (trimText t) → ∀ i ∈ [2, 4, 6], IsCharBoundary i (trimText t)

/-- What follows the number sign of a colour is cut between characters: as it is written out from three
bytes, or without its alpha value, or as it is. -/
structure CleanHex (hex : List Char) : Prop where
  short : byteLength hex = 3 → CutsInPairs (doubled hex)
  long : byteLength hex = 8 → ∃ shown alpha, hex = shown ++ alpha ∧ byteLength shown = 6 ∧ CutsInPairs shown
  other : byteLength hex ≠ 3 → byteLength hex ≠ 8 → CutsInPairs hex

theorem cutsInPairs_of_ascii {t : List Char} (ht : ∀ c ∈ t, c.utf8Size = 1) : CutsInPairs t := by
  intro hlength i hi
  have htrim : ∀ c ∈ trimText t, c.utf8Size = 1 := fun c hc => ht c (mem_of_mem_trimText hc)
  rw [byteLength_of_ascii htrim] at hlength
  have hle : ∀ i ∈ [2, 4, 6], i ≤ 6 := by decide
  exact isCharBoundary_of_ascii htrim ((hle i hi).trans hlength)

theorem cutsInPairs_rdropWhile {t : List Char} : CutsInPairs (t.rdropWhile isWhitespace) ↔ CutsInPairs t := by
  unfold CutsInPairs
  rw [trimText_rdropWhile]

/-- Every character of what three bytes are written out as is one of them, or a zero. -/
theorem mem_doubled {c : Char} {hex : List Char} (h : c ∈ doubled hex) : c ∈ hex ∨ c = '0' := by
  have hget : ∀ i, hex.getD i '0' ∈ hex ∨ hex.getD i '0' = '0' := by
    intro i
    rw [List.getD_eq_getElem?_getD]
    cases h : hex[i]? with
    | none => exact Or.inr rfl
    | some c => exact Or.inl (List.mem_of_getElem? h)
  unfold doubled at h
  simp only [List.mem_cons, List.not_mem_nil, or_false] at h
  obtain rfl | rfl | rfl | rfl | rfl | rfl := h <;> exact hget _

namespace ThemeEnv

variable {env : ThemeEnv} {v : List Char}

theorem ne_sign_of_named : ∀ p ∈ namedColors, p.1.toList.head? ≠ some '#' := by decide

/-- Three cuts, one behind the other. -/
theorem returns_pairs {hex : List Char} {β : Type} {f : List Char → List Char → List Char → β} :
    (∃ rgb, (do
      let r ← byteSlice 0 2 hex
      let g ← byteSlice 2 4 hex
      let b ← byteSlice 4 6 hex
      return f r g b) = .ok rgb) ↔ ∀ i ∈ [2, 4, 6], IsCharBoundary i hex := by
  rw [returns_bind fun r _ => returns_bind fun g _ => returns_bind fun b _ => returns_pure _,
    exists_byteSlice_iff (by decide), exists_byteSlice_iff (by decide), exists_byteSlice_iff (by decide)]
  simp only [List.forall_mem_cons, List.not_mem_nil, false_implies, implies_true, and_true]
  constructor
  · rintro ⟨⟨-, htwo⟩, ⟨-, hfour⟩, -, hsix⟩
    exact ⟨htwo, hfour, hsix⟩
  · rintro ⟨htwo, hfour, hsix⟩
    exact ⟨⟨isCharBoundary_zero hex, htwo⟩, ⟨htwo, hfour⟩, hfour, hsix⟩

/-- A colour is read without a panic if what follows its number sign is cut between characters. -/
theorem parseColor_returns_iff (color : List Char) :
    (∃ rgb, env.parseColor color = .ok rgb) ↔
      ∀ hex, env.lower (trimText color) = '#' :: hex → CutsInPairs hex := by
  unfold parseColor
  generalize env.lower (trimText color) = c
  dsimp only
  cases hfind : namedColors.find? fun p => decide (c = p.1.toList) with
  | some p =>
    -- no name begins with a number sign
    refine iff_of_true ⟨p.2, rfl⟩ fun hex hhex => ?_
    have hname := List.find?_some hfind
    rw [decide_eq_true_eq] at hname
    subst hname
    exact absurd (congrArg List.head? hhex) (ne_sign_of_named p (List.mem_of_find?_eq_some hfind))
  | none =>
    dsimp only
    split
    · next hex =>
      have hone : ∀ hex' : List Char, '#' :: hex = '#' :: hex' ↔ hex = hex' := fun hex' => by
        rw [List.cons.injEq, eq_self, true_and]
      simp only [hone, forall_eq']
      unfold CutsInPairs
      split
      · next hlength => rw [returns_pairs, imp_iff_right hlength]
      · next hlength => exact iff_of_true ⟨_, rfl⟩ fun h => absurd h hlength
    · next hsign => exact iff_of_true ⟨_, rfl⟩ fun hex hhex => absurd hhex (hsign hex)

theorem parseColor_nil : ∃ rgb, env.parseColor [] = .ok rgb := by
  rw [parseColor_returns_iff]
  intro hex hhex
  rw [show trimText [] = [] from rfl, env.lower_ascii [] (List.forall_mem_nil _)] at hhex
  exact absurd hhex.symm (List.cons_ne_nil _ _)

/-- What is shown behind a number sign is read as it is. -/
theorem parseColor_shown {hex shown : List Char} (hv : env.lower v = '#' :: hex)
    (hshown : ∀ c ∈ shown, c ∈ hex ∨ c = '0') :
    (∃ rgb, env.parseColor ('#' :: shown) = .ok rgb) ↔ CutsInPairs shown := by
  have hlower : env.lower (trimText ('#' :: shown)) = '#' :: shown.rdropWhile isWhitespace := by
    rw [trimText_cons (by decide)]
    refine env.lower_lowered v _ (List.forall_mem_cons.mpr ⟨Or.inr (Or.inl rfl), fun c hc => ?_⟩)
    rw [hv]
    exact (hshown c ((List.rdropWhile_prefix _ _).mem hc)).imp (List.mem_cons_of_mem _) Or.inr
  rw [parseColor_returns_iff, hlower, ← cutsInPairs_rdropWhile (t := shown)]
  constructor
  · exact fun h => h _ rfl
  · intro h hex' hhex'
    exact (List.cons.inj hhex').2 ▸ h

/-- What does not begin with a number sign is read without one. -/
theorem parseColor_plain {c : List Char} (hv : env.lower (trimText v) = c) (hsign : ∀ hex, c ≠ '#' :: hex) :
    ∃ rgb, env.parseColor c = .ok rgb := by
  obtain ⟨hnil, -⟩ | ⟨-, a, t, -, -, ha, heq⟩ := trimText_cases v
  · rw [hnil, env.lower_ascii [] (List.forall_mem_nil _)] at hv
    exact hv ▸ parseColor_nil
  · rw [heq] at hv
    obtain ⟨d, u, hd, -, hwhite⟩ := env.lower_front a (t.rdropWhile isWhitespace)
    obtain rfl := hv.symm.trans hd
    have hspace : isWhitespace d = false := by
      cases h : isWhitespace d with
      | false => rfl
      | true => rw [hwhite h] at ha; exact absurd ha Bool.true_eq_false_eq_False
    rw [parseColor_returns_iff, trimText_cons hspace]
    rw [env.lower_lowered (a :: t.rdropWhile isWhitespace)]
    · intro hex hhex
      obtain ⟨rfl, -⟩ := List.cons.inj hhex
      exact absurd rfl (hsign u)
    · intro e he
      rw [hd]
      obtain rfl | he := List.mem_cons.mp he
      · exact Or.inl List.mem_cons_self
      · exact Or.inl (List.mem_cons_of_mem _ ((List.rdropWhile_prefix _ _).mem he))

/-- A colour is normalized and read without a panic. -/
theorem normalizeColor_returns_iff (v : List Char) :
    (∃ n, env.normalizeColor v = .ok n ∧ ∃ rgb, env.parseColor n = .ok rgb) ↔
      ∀ hex, env.lower (trimText v) = '#' :: hex → CleanHex hex := by
  unfold normalizeColor
  split
  · next hex hv =>
    have hone : ∀ hex' : List Char, '#' :: hex = '#' :: hex' ↔ hex = hex' := fun hex' => by
      rw [List.cons.injEq, eq_self, true_and]
    simp only [hv, hone, forall_eq']
    split
    · next hthree =>
      rw [exists_eq_ok, parseColor_shown hv fun c => mem_doubled]
      exact ⟨fun h => ⟨fun _ => h, fun height => by omega, fun hne => absurd hthree hne⟩,
        fun h => h.short hthree⟩
    · next hthree =>
      split
      · next height =>
        constructor
        · rintro ⟨n, hn, hread⟩
          obtain ⟨shown, hslice, rfl⟩ := except_map_eq_ok.mp hn
          obtain ⟨p, alpha, rfl, hp, hsix⟩ := (byteSlice_eq_ok (by decide)).mp hslice
          obtain rfl := byteLength_eq_zero.mp hp
          rw [List.nil_append] at hv hsix
          rw [parseColor_shown hv fun c hc => Or.inl (List.mem_append_left alpha hc)] at hread
          exact ⟨fun h => absurd h hthree, fun _ => ⟨shown, alpha, rfl, hsix, hread⟩,
            fun _ h => absurd height h⟩
        · intro h
          obtain ⟨shown, alpha, rfl, hsix, hcuts⟩ := h.long height
          have hslice := byteSlice_front shown alpha
          rw [hsix] at hslice
          rw [hslice]
          exact ⟨_, rfl, (parseColor_shown hv fun c hc => Or.inl (List.mem_append_left alpha hc)).mpr hcuts⟩
      · next height =>
        rw [exists_eq_ok, parseColor_shown hv fun c => Or.inl]
        exact ⟨fun h => ⟨fun h' => absurd h' hthree, fun h' => absurd h' height, fun _ _ => h⟩,
          fun h => h.other hthree height⟩
  · next hsign =>
    rw [exists_eq_ok]
    exact iff_of_true (parseColor_plain rfl hsign) fun hex hhex => absurd hhex (hsign hex)

/-! ### Colours that are found -/

theorem utf8Size_toLower {c : Char} (hc : c.utf8Size = 1) : c.toLower.utf8Size = 1 := by
  rw [Char.utf8Size_eq_one_iff] at hc ⊢
  have hlower := Sieve.toNat_toLower c
  have hle : c.toNat ≤ 127 := hc
  show c.toLower.toNat ≤ 127
  split at hlower <;> omega

/-- A colour of a style: in ASCII, or with a small letter in front. -/
def Found (color : List Char) : Prop :=
  (∀ c ∈ color, c.utf8Size = 1) ∨ ∃ a s, color = a :: s ∧ 97 ≤ a.toNat ∧ a.toNat ≤ 122

theorem found_rgbText (r g b : List Char) : Found (rgbText r g b) :=
  Or.inr ⟨'r', _, rfl, by decide, by decide⟩

theorem found_of_firstNamed {bgValue name : List Char} (h : name ∈ env.firstNamed bgValue) : Found name := by
  have hall : ∀ p ∈ namedColors, ∀ c ∈ p.1.toList, c.utf8Size = 1 := by decide
  obtain ⟨p, hp, rfl⟩ := Option.map_eq_some_iff.mp (Option.mem_toList.mp h)
  exact Or.inl (hall p (List.mem_of_find?_eq_some hp))

theorem utf8Size_of_isColorDigit {c : Char} (h : isColorDigit c = true) : c.utf8Size = 1 := by
  rw [Char.utf8Size_eq_one_iff]
  show c.toNat ≤ 127
  simp only [isColorDigit, Bool.or_eq_true, Bool.and_eq_true, decide_eq_true_eq] at h
  omega

theorem ascii_of_hexColor {bgValue raw : List Char} (h : raw ∈ env.hexColor bgValue) :
    ∀ c ∈ raw, c.utf8Size = 1 := by
  obtain ⟨digits, rfl, hdigits⟩ := env.hexColor_match bgValue raw h
  exact List.forall_mem_cons.mpr ⟨by decide, fun c hc => utf8Size_of_isColorDigit (hdigits c hc)⟩

theorem ascii_lower {s : List Char} (hs : ∀ c ∈ s, c.utf8Size = 1) : ∀ c ∈ env.lower s, c.utf8Size = 1 := by
  rw [env.lower_ascii s hs]
  intro c hc
  obtain ⟨d, hd, rfl⟩ := List.mem_map.mp hc
  exact utf8Size_toLower (hs d hd)

/-- Only a colour in ASCII begins with a number sign. -/
theorem ascii_of_found (hv : Found v) {hex : List Char} (hhex : env.lower (trimText v) = '#' :: hex) :
    ∀ c ∈ hex, c.utf8Size = 1 := by
  obtain hascii | ⟨a, s, rfl, hlow, hhigh⟩ := hv
  · have hlower := @ascii_lower env _ fun c hc => hascii c (mem_of_mem_trimText hc)
    rw [hhex] at hlower
    exact fun c hc => hlower c (List.mem_cons_of_mem _ hc)
  · have hspace : isWhitespace a = false := by
      unfold isWhitespace
      simp only [Bool.or_eq_false_iff, Bool.and_eq_false_iff, decide_eq_false_iff_not]
      omega
    have hsize : a.utf8Size = 1 := by
      rw [Char.utf8Size_eq_one_iff]
      show a.toNat ≤ 127
      omega
    have hlower := Sieve.toNat_toLower a
    rw [if_neg (by omega)] at hlower
    rw [trimText_cons hspace] at hhex
    obtain ⟨d, t, hd, hletter, -⟩ := env.lower_front a (s.rdropWhile isWhitespace)
    obtain rfl := (List.cons.inj (hd.symm.trans hhex)).1
    -- a small letter stays the letter
    have hsign : a.toLower.toNat = 35 := by rw [← hletter hsize]; rfl
    omega

theorem cleanHex_of_ascii {hex : List Char} (hhex : ∀ c ∈ hex, c.utf8Size = 1) : CleanHex hex := by
  refine ⟨fun _ => ?_, fun height => ?_, fun _ _ => cutsInPairs_of_ascii hhex⟩
  · refine cutsInPairs_of_ascii fun c hc => ?_
    obtain hc | rfl := mem_doubled hc
    · exact hhex c hc
    · rfl
  · rw [byteLength_of_ascii hhex] at height
    have htake : ∀ c ∈ hex.take 6, c.utf8Size = 1 := fun c hc => hhex c (List.mem_of_mem_take hc)
    refine ⟨hex.take 6, hex.drop 6, (List.take_append_drop 6 hex).symm, ?_, cutsInPairs_of_ascii htake⟩
    rw [byteLength_of_ascii htake, List.length_take, height]
    rfl

/-- The colour of a background is read without a panic. -/
def Readable (env : ThemeEnv) (bg : BackgroundColor) : Prop := ∃ rgb, env.parseColor bg.color = .ok rgb

theorem readable_found {color : List Char} (h : Found color) (weight : Float32) :
    env.Readable ⟨color, weight⟩ :=
  (parseColor_returns_iff color).mpr fun _ hhex => cutsInPairs_of_ascii (ascii_of_found h hhex)

theorem normalizeColor_found (h : Found v) :
    ∃ n, env.normalizeColor v = .ok n ∧ ∃ rgb, env.parseColor n = .ok rgb :=
  (normalizeColor_returns_iff v).mpr fun _ hhex => cleanHex_of_ascii (ascii_of_found h hhex)

theorem hexValue_lt {b : UInt8} {n : Nat} (h : hexValue b = some n) : n < 16 := by
  unfold hexValue at h
  simp only [UInt8.le_iff_toNat_le, UInt8.reduceToNat] at h
  split_ifs at h
  · obtain rfl := Option.some.inj h
    omega
  · obtain rfl := Option.some.inj h
    omega
  · obtain rfl := Option.some.inj h
    omega

theorem u8Mul_hexNumber (c : Char) : ∃ n, u8Mul ((hexNumber [c]).getD 15) 17 = .ok n := by
  have hlt : ((hexNumber [c]).getD 15).toNat < 16 := by
    unfold hexNumber
    dsimp only
    split
    · cases h : hexValue (UInt8.ofNat c.toNat) with
      | none => decide
      | some n =>
        have hn := hexValue_lt h
        show (UInt8.ofNat n).toNat < 16
        rw [UInt8.toNat_ofNat_of_lt' (hn.trans (by decide))]
        exact hn
    · decide
  have hproduct : ((hexNumber [c]).getD 15).toNat * (17 : UInt8).toNat < 256 := by
    rw [show (17 : UInt8).toNat = 17 from rfl]
    omega
  exact ⟨_, if_pos hproduct⟩

theorem parseHexAlpha_ascii (h : ∀ c ∈ v, c.utf8Size = 1) : ∃ alpha, env.parseHexAlpha v = .ok alpha := by
  unfold parseHexAlpha
  split
  · next hex hhex =>
    have hascii := ascii_of_found (Or.inl h) hhex
    have hcut : ∀ {i j : Nat}, i ≤ j → j ≤ hex.length → byteSlice i j hex = .ok ((hex.take j).drop i) := by
      intro i j hij hj
      have hslice := byteSlice_of_ascii (t := []) hascii hij hj
      rwa [List.append_nil] at hslice
    rw [byteLength_of_ascii hascii]
    split
    · next height =>
      rw [hcut (by decide) (by omega)]
      exact ⟨_, rfl⟩
    · split
      · next hfour =>
        obtain ⟨a, b, c, d, rfl⟩ := List.length_eq_four.mp hfour
        obtain ⟨n, hn⟩ := u8Mul_hexNumber d
        rw [hcut (by decide) (Nat.le_refl 4), Except.bind_ok]
        show ∃ alpha, (u8Mul ((hexNumber [d]).getD 15) 17 >>= _) = .ok alpha
        rw [hn]
        exact ⟨_, rfl⟩
      · exact ⟨_, rfl⟩
  · exact ⟨_, rfl⟩

/-! ### Backgrounds -/

theorem yields_inlineColors (bg : List Char) : Yields (fun ec => Found ec.color) (env.inlineColors bg) := by
  unfold inlineColors
  refine yields_append.mpr ⟨yields_mapM fun raw hraw => ?_, ?_⟩
  · have hascii := ascii_of_hexColor hraw
    obtain ⟨alpha, halpha⟩ := parseHexAlpha_ascii hascii
    rw [halpha]
    exact ⟨_, rfl, Or.inl hascii⟩
  · simp only [List.forall_mem_append, List.forall_mem_map]
    exact ⟨⟨⟨fun _ _ => found_rgbText _ _ _, fun _ _ => found_rgbText _ _ _⟩, fun _ _ => found_rgbText _ _ _⟩,
      fun _ hname => found_of_firstNamed hname⟩

theorem yields_extractColorsFromStyle (tagContent : List Char) :
    Yields (fun ec => Found ec.color) (env.extractColorsFromStyle tagContent) := by
  unfold extractColorsFromStyle
  split
  · exact yields_collect.mpr fun bg _ => yields_inlineColors bg
  · exact yields_ok.mpr (List.forall_mem_nil _)

/-- What is normalized is read, or is not there. -/
theorem yields_normalized {weight : Float32} :
    Yields env.Readable (do
      let normalized ← env.normalizeColor v
      return if normalized.isEmpty then [] else [⟨normalized, weight⟩]) ↔
    ∃ n, env.normalizeColor v = .ok n ∧ ∃ rgb, env.parseColor n = .ok rgb := by
  cases env.normalizeColor v with
  | error e => exact iff_of_false nofun nofun
  | ok n =>
    rw [exists_eq_ok, Except.bind_ok]
    refine yields_ok.trans ?_
    cases n with
    | nil => exact iff_of_true (List.forall_mem_nil _) parseColor_nil
    | cons c n => exact List.forall_mem_singleton

theorem yields_addExtracted {ec : ExtractedColor} (h : Found ec.color) (weight : Float32) :
    Yields env.Readable (env.addExtracted weight ec) := by
  unfold addExtracted
  split
  · exact yields_ok.mpr (List.forall_mem_nil _)
  · exact yields_normalized.mpr (normalizeColor_found h)

theorem yields_extractInlineStyleColors (html : List Char) :
    Yields env.Readable (env.extractInlineStyleColors html) :=
  yields_collect.mpr fun _ _ => yields_collect.mpr fun tagContent _ =>
    (yields_extractColorsFromStyle tagContent).bind fun _ hcs => yields_collect.mpr fun ec hec =>
      yields_addExtracted (hcs ec hec) _

theorem yields_addHex {raw : List Char} (h : ∀ c ∈ raw, c.utf8Size = 1) (weight : Float32) :
    Yields env.Readable (env.addHex weight raw) := by
  obtain ⟨color, hcolor, hread⟩ := @normalizeColor_found env _ (Or.inl h)
  unfold addHex
  rw [hcolor, Except.bind_ok]
  refine yields_ok.mpr ?_
  split
  · exact List.forall_mem_nil _
  · exact List.forall_mem_singleton.mpr hread

theorem readable_addRgb {weight : Float32} (p : List Char × List Char × List Char) :
    ∀ bg ∈ env.addRgb weight p, env.Readable bg := by
  unfold addRgb
  split
  split
  · exact List.forall_mem_nil _
  · exact List.forall_mem_singleton.mpr (readable_found (found_rgbText _ _ _) _)

theorem readable_addRgba {weight : Float32} (p : List Char × List Char × List Char × List Char) :
    ∀ bg ∈ env.addRgba weight p, env.Readable bg := by
  unfold addRgba
  split
  dsimp only
  split
  · exact List.forall_mem_nil _
  · exact List.forall_mem_singleton.mpr (readable_found (found_rgbText _ _ _) _)

theorem yields_ruleColors (weight : Float32) (bg : List Char) :
    Yields env.Readable (env.ruleColors weight bg) := by
  unfold ruleColors
  refine yields_append.mpr ⟨yields_collect.mpr fun raw hraw => yields_addHex (ascii_of_hexColor hraw) weight, ?_⟩
  simp only [List.forall_mem_append, List.forall_mem_map, List.forall_mem_flatMap]
  exact ⟨⟨⟨fun p _ => readable_addRgb p, fun p _ => readable_addRgba p⟩, fun p _ => readable_addRgba p⟩,
    fun _ hname => readable_found (found_of_firstNamed hname) weight⟩

theorem yields_mentioned (weight : Float32) (styles : List Char) :
    Yields env.Readable (env.mentioned weight styles) := by
  unfold mentioned
  split
  · exact yields_collect.mpr fun bg _ => yields_ruleColors weight bg
  · exact yields_ok.mpr (List.forall_mem_nil _)

theorem yields_extractStyleTagColors (html : List Char) :
    Yields env.Readable (env.extractStyleTagColors html) := by
  refine yields_collect.mpr fun styleContent _ => ?_
  split
  · refine Yields.bind (yields_collect.mpr fun styles _ => yields_mentioned 1.0 styles) fun body hbody => ?_
    refine Yields.bind (yields_collect.mpr fun styles _ => yields_mentioned 0.3 styles) fun classes hclasses => ?_
    refine Yields.bind (yields_collect.mpr fun p _ => yields_mentioned _ p.2) fun elements helements => ?_
    exact yields_ok.mpr (List.forall_mem_append.mpr ⟨List.forall_mem_append.mpr ⟨hbody, hclasses⟩, helements⟩)
  · exact yields_ok.mpr (List.forall_mem_nil _)

/-- A value of a `bgcolor` attribute that is looked at. -/
def HasBgcolor (env : ThemeEnv) (html v : List Char) : Prop :=
  ∃ tag ∈ [env.bodyTag, env.tableTag, env.tdTag], ∃ tagContent ∈ tag html, env.bgcolorAttr tagContent = some v

/-- A colour that is cut between characters, if it has a number sign. -/
def CutsCleanly (env : ThemeEnv) (v : List Char) : Prop :=
  ∀ hex, env.lower (trimText v) = '#' :: hex → CleanHex hex

theorem yields_addBgcolor_iff (weight : Float32) (v : List Char) :
    Yields env.Readable (env.addBgcolor weight v) ↔ (env.isTransparent v = false → env.CutsCleanly v) := by
  unfold addBgcolor
  cases env.isTransparent v with
  | true =>
    rw [if_pos rfl]
    exact iff_of_true (yields_ok.mpr (List.forall_mem_nil _)) fun h => absurd h.symm Bool.false_ne_true
  | false =>
    rw [if_neg Bool.false_ne_true, imp_iff_right rfl]
    exact yields_normalized.trans (normalizeColor_returns_iff v)

/-- The attributes are read if every one of them is cut between characters. -/
theorem yields_extractBgcolorAttrs_iff (html : List Char) :
    Yields env.Readable (env.extractBgcolorAttrs html) ↔
      ∀ v, env.HasBgcolor html v → env.isTransparent v = false → env.CutsCleanly v := by
  have hone : ∀ (tag : List Char → List (List Char)) (weight : Float32),
      Yields env.Readable (collect (fun tagContent =>
        collect (env.addBgcolor weight) (env.bgcolorAttr tagContent).toList) (tag html)) ↔
      ∀ tagContent ∈ tag html, ∀ v, env.bgcolorAttr tagContent = some v →
        env.isTransparent v = false → env.CutsCleanly v := by
    intro tag weight
    simp only [yields_collect, Option.mem_toList, yields_addBgcolor_iff]
  unfold extractBgcolorAttrs
  rw [yields_collect]
  simp only [List.forall_mem_cons, hone, List.not_mem_nil, false_implies, implies_true, and_true]
  constructor
  · rintro ⟨hbody, htable, htd⟩ v ⟨tag, htag, tagContent, hmem, hv⟩
    simp only [List.mem_cons, List.not_mem_nil, or_false] at htag
    obtain rfl | rfl | rfl := htag
    · exact hbody tagContent hmem v hv
    · exact htable tagContent hmem v hv
    · exact htd tagContent hmem v hv
  · intro h
    exact ⟨fun tagContent hmem v hv => h v ⟨_, by simp, tagContent, hmem, hv⟩,
      fun tagContent hmem v hv => h v ⟨_, by simp, tagContent, hmem, hv⟩,
      fun tagContent hmem v hv => h v ⟨_, by simp, tagContent, hmem, hv⟩⟩

/-- The weight of a key has no colon. -/
theorem color_of_colorKey {a b : BackgroundColor} (h : env.colorKey a = env.colorKey b) : a.color = b.color := by
  have hcolon : ∀ {x y : List Char} {w : Float32}, env.tenths w = x ++ ':' :: y → False :=
    fun heq => env.tenths_colon _ (heq ▸ List.mem_append_right _ List.mem_cons_self)
  unfold colorKey at h
  obtain ⟨l, hl, heq⟩ | ⟨l, hl, heq⟩ := List.append_eq_append_iff.mp h
  · cases l with
    | nil => rw [hl, List.append_nil]
    | cons c l => exact (hcolon (List.cons.inj heq).2).elim
  · cases l with
    | nil => rw [hl, List.append_nil]
    | cons c l => exact (hcolon (List.cons.inj heq).2).elim

/-- Every key was seen, or is kept once. -/
theorem mem_retainNew (seen : List (List Char)) (colors : List BackgroundColor) :
    ∀ bg ∈ colors, env.colorKey bg ∈ seen ∨
      ∃ kept ∈ env.retainNew seen colors, env.colorKey kept = env.colorKey bg := by
  induction colors generalizing seen with
  | nil => exact List.forall_mem_nil _
  | cons a colors ih =>
    rw [retainNew, List.forall_mem_cons]
    split
    · next hseen => exact ⟨Or.inl hseen, ih seen⟩
    · refine ⟨Or.inr ⟨a, List.mem_cons_self, rfl⟩, fun bg hbg => ?_⟩
      obtain hkey | ⟨kept, hkept, hkey⟩ := ih (env.colorKey a :: seen) bg hbg
      · obtain hkey | hkey := List.mem_cons.mp hkey
        · exact Or.inr ⟨a, List.mem_cons_self, hkey.symm⟩
        · exact Or.inl hkey
      · exact Or.inr ⟨kept, List.mem_cons_of_mem _ hkept, hkey⟩

theorem retainNew_sublist (seen : List (List Char)) (colors : List BackgroundColor) :
    (env.retainNew seen colors).Sublist colors := by
  induction colors generalizing seen with
  | nil => exact List.Sublist.refl _
  | cons a colors ih =>
    rw [retainNew]
    split
    · exact (ih seen).cons a
    · exact (ih _).cons_cons a

/-- The same colours are left. -/
theorem readable_deduplicateColors {colors : List BackgroundColor} :
    (∀ bg ∈ env.deduplicateColors colors, env.Readable bg) ↔ ∀ bg ∈ colors, env.Readable bg := by
  unfold deduplicateColors
  split
  · exact Iff.rfl
  · constructor
    · intro h bg hbg
      obtain hseen | ⟨kept, hkept, hkey⟩ := @mem_retainNew env [] colors bg hbg
      · exact absurd hseen List.not_mem_nil
      · unfold Readable
        rw [← color_of_colorKey hkey]
        exact h kept hkept
    · exact fun h bg hbg => h bg ((retainNew_sublist [] colors).mem hbg)

/-- Only attributes are cut within a character. -/
theorem yields_extractBackgroundColors_iff (html : List Char) :
    Yields env.Readable (env.extractBackgroundColors html) ↔
      ∀ v, env.HasBgcolor html v → env.isTransparent v = false → env.CutsCleanly v := by
  obtain ⟨inline, hinline, hreadInline⟩ := @yields_extractInlineStyleColors env html
  obtain ⟨style, hstyle, hreadStyle⟩ := @yields_extractStyleTagColors env html
  unfold extractBackgroundColors
  rw [← yields_extractBgcolorAttrs_iff, hinline, Except.bind_ok, hstyle, Except.bind_ok]
  cases env.extractBgcolorAttrs html with
  | error e => exact iff_of_false nofun nofun
  | ok attrs =>
    rw [Except.bind_ok]
    refine yields_ok.trans ?_
    rw [readable_deduplicateColors, yields_ok, List.forall_mem_append, List.forall_mem_append]
    exact and_iff_right ⟨hreadInline, hreadStyle⟩

/-! ### Detection -/

theorem addColor_returns_iff (w : Weights) (bg : BackgroundColor) :
    (∃ w', env.addColor w bg = .ok w') ↔ env.Readable bg := by
  unfold addColor calculateLuminance Readable
  cases env.parseColor bg.color with
  | error e => exact iff_of_false nofun nofun
  | ok rgb => exact iff_of_true ⟨_, rfl⟩ ⟨rgb, rfl⟩

theorem classifyByLuminanceGroups_returns_iff (colors : List BackgroundColor) :
    (∃ theme, env.classifyByLuminanceGroups colors = .ok theme) ↔ ∀ bg ∈ colors, env.Readable bg := by
  unfold classifyByLuminanceGroups
  rw [returns_bind fun w _ => returns_pure _, foldlM_returns_iff addColor_returns_iff, and_true]

/-- A mail is read without a panic exactly if it is blank, or has a dark scheme of its own, or every value
of a `bgcolor` attribute that is looked at and is not transparent is cut between characters. -/
theorem detectEmailTheme_returns_iff (html : List Char) :
    (∃ theme, env.detectEmailTheme html = .ok theme) ↔
      trimText html = [] ∨ env.hasDarkModeMediaQuery (decodeQuotedPrintable html) = true ∨
        ∀ v, env.HasBgcolor (decodeQuotedPrintable html) v → env.isTransparent v = false → env.CutsCleanly v := by
  unfold detectEmailTheme
  rw [← yields_extractBackgroundColors_iff]
  split
  · next hblank => exact iff_of_true ⟨none, rfl⟩ (Or.inl (List.isEmpty_iff.mp hblank))
  · next hblank =>
    rw [or_iff_right fun h => hblank (List.isEmpty_iff.mpr h)]
    dsimp only
    split
    · next hdark => exact iff_of_true ⟨_, rfl⟩ (Or.inl hdark)
    · next hdark =>
      rw [or_iff_right hdark]
      cases env.extractBackgroundColors (decodeQuotedPrintable html) with
      | error e => exact iff_of_false nofun nofun
      | ok backgrounds =>
        rw [Except.bind_ok, yields_ok]
        split
        · next hempty =>
          obtain rfl := List.isEmpty_iff.mp hempty
          exact iff_of_true ⟨_, rfl⟩ (List.forall_mem_nil _)
        · exact classifyByLuminanceGroups_returns_iff backgrounds

end ThemeEnv

/-! ### A cell -/

/-- The texts from `<name` on to the next `>`. -/
def sampleTags (name : List Char) : Nat → List Char → List (List Char)
  | 0, _ => []
  | fuel + 1, html =>
    match splitOnce ('<' :: name) html with
    | none => []
    | some (_, rest) =>
      match splitOnce ['>'] rest with
      | none => []
      | some (attributes, rest) =>
        -- the name ends before anything but a letter, a digit or an underscore
        if attributes.head?.any fun c => c.isAlphanum || c = '_' then sampleTags name fuel rest
        else ('<' :: name ++ attributes ++ ['>']) :: sampleTags name fuel rest

/-- A text after the first `bgcolor=`, up to the closing quote. -/
def sampleBgcolor (tag : List Char) : Option (List Char) := do
  let (_, rest) ← splitOnce "bgcolor=\"".toList tag
  let (value, _) ← splitOnce "\"".toList rest
  if value.isEmpty then none else some value

theorem isWhitespace_of_toLower {c : Char} (h : isWhitespace c.toLower = true) : isWhitespace c = true := by
  have hlower := Sieve.toNat_toLower c
  split at hlower
  · unfold isWhitespace at h
    simp only [Bool.or_eq_true, Bool.and_eq_true, decide_eq_true_eq] at h
    omega
  · rwa [Char.toNat_inj.mp hlower] at h

theorem toLower_toLower (c : Char) : c.toLower.toLower = c.toLower := by
  have hlower := Sieve.toNat_toLower c
  rw [← Char.toNat_inj, Sieve.toNat_toLower, if_neg]
  split at hlower <;> omega

/-- For mails without styles. -/
def sampleTheme : ThemeEnv where
  lower s := s.map Char.toLower
  parseF32 _ := none
  tenths _ := "0.6".toList
  darkMediaQuery _ := []
  bodyTag html := sampleTags "body".toList html.length html
  tableTag html := sampleTags "table".toList html.length html
  tdTag html := sampleTags "td".toList html.length html
  divTag html := sampleTags "div".toList html.length html
  styleTag _ := []
  styleAttr _ := none
  bgcolorAttr := sampleBgcolor
  bodyCss _ := none
  classCss _ := []
  elemCss _ := []
  bgProp _ := []
  hexColor _ := []
  rgbColor _ := []
  rgbaColor _ := []
  rgbaModern _ := []
  namedColor _ _ := false
  lower_ascii _ _ := rfl
  lower_front c s := ⟨c.toLower, _, rfl, fun _ => rfl, isWhitespace_of_toLower⟩
  lower_lowered s t h := by
    have hfixed : ∀ c ∈ t, c.toLower = id c := by
      intro c hc
      obtain hc | rfl | rfl := h c hc
      · obtain ⟨d, -, rfl⟩ := List.mem_map.mp hc
        exact toLower_toLower d
      · rfl
      · rfl
    rw [List.map_congr_left hfixed, List.map_id]
  hexColor_match _ _ h := absurd h List.not_mem_nil
  tenths_colon _ := by decide

/-- Eight bytes, and the sixth one is within a character. -/
theorem detectEmailTheme_cut_within_character :
    sampleTheme.detectEmailTheme "<td bgcolor=\"#12345é7\">Total</td>".toList = .error .slice := by
  decide

end Rav
