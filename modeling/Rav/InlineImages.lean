import Rav.Replace
import Rav.Routes.MessageDetail

/-!
# Inline images

The addresses `cid:` of a body are replaced one attachment after the other, wherever the text of an
address stands. Each reference gets the image of its own content id while no address stands anywhere
else: within a longer one, or in an image put in before.

## Main definitions

- `Reading` — the characters that end a reference
- `substituteCids` — each reference replaced by itself
- `ResolvesExactly` — the body is what it is then, in whatever order the attachments are
- `Unambiguous` — when it is
-/

namespace Rav

def cidScheme : List Char := "cid:".toList

/-- The text looked for, for a content id. -/
def cidAddress (id : String) : List Char := cidScheme ++ id.toList

/-- How references are read: by characters that end them, which no content id has. -/
structure Reading (attachments : List ImapAttachment) where
  ends : Char → Bool
  scheme : ∀ c ∈ cidScheme, ends c = false
  ids : ∀ a ∈ attachments, ∀ x, a.contentId = some x → ∀ c ∈ x.toList, ends c = false

/-- A word is resolved by the reference that begins at its first `cid:`. -/
def resolveWord (url : List Char → Option (List Char)) (w : List Char) : List Char :=
  match splitOnce cidScheme w with
  | none => w
  | some (before,x) => (url x).elim w (fun u => before ++ u)

/-- The body with a URL in place of each reference that has one. -/
def substituteCids (ends : Char → Bool) (url : String → Option String) (html : String) : String :=
  String.ofList (mapWords ends
    (resolveWord fun x => (url (String.ofList x)).map String.toList) html.toList)

/-- The URL of an attachment with a content id, for each content id of an attachment. -/
structure UrlOf (attachments : List ImapAttachment) (url : String → Option String) : Prop where
  attached : ∀ x u, url x = some u → ∃ a ∈ attachments, a.contentId = some x ∧ a.dataUri = u
  known : ∀ a ∈ attachments, ∀ x, a.contentId = some x → url x ≠ none

/-- Each reference is replaced by the URL of the attachment with its content id, others are left alone,
and the order of the attachments does not matter. -/
structure ResolvesExactly (ends : Char → Bool) (attachments : List ImapAttachment) (html : String) :
    Prop where
  exact : ∃ url, UrlOf attachments url ∧
    resolveCids attachments html = substituteCids ends url html
  order : ∀ attachments', attachments'.Perm attachments →
    resolveCids attachments' html = resolveCids attachments html

/-- The address of one attachment is not in the image of another that is put into the body. -/
def Silent (html : String) (a b : ImapAttachment) : Prop :=
  ∀ x y, a.contentId = some x → b.contentId = some y → cidAddress x <:+: html.toList →
    ¬cidAddress y <:+: a.dataUri.toList

/-- Addresses stand in the body as whole references only, a content id that is referred to has one
image, and no address is in the image of another attachment. -/
structure Unambiguous (ends : Char → Bool) (attachments : List ImapAttachment) (html : String) : Prop where
  whole : ∀ a ∈ attachments, ∀ x, a.contentId = some x → ∀ w ∈ words ends html.toList,
    cidAddress x <:+: w → ∃ before, splitOnce cidScheme w = some (before,x.toList)
  same : ∀ a ∈ attachments, ∀ b ∈ attachments, ∀ x, a.contentId = some x → b.contentId = some x →
    cidAddress x <:+: html.toList → a.dataUri = b.dataUri
  quiet : attachments.Pairwise (fun a b => Silent html a b ∧ Silent html b a)

/-! ### The images -/

section Images

/-- The content ids and URLs. -/
def images (attachments : List ImapAttachment) : List (List Char × List Char) :=
  attachments.filterMap fun a => a.contentId.map fun x => (x.toList,a.dataUri.toList)

/-- Put in one image. -/
def putImage (s : List Char) (a : List Char × List Char) : List Char :=
  replaceText (cidScheme ++ a.1) a.2 s

theorem toList_resolveCids (attachments : List ImapAttachment) (html : String) :
    (resolveCids attachments html).toList = (images attachments).foldl putImage html.toList := by
  induction attachments generalizing html with
  | nil => rfl
  | cons a attachments ih =>
    have hcons : resolveCids (a :: attachments) html = resolveCids attachments (a.contentId.elim html
      (fun cid => strReplace ("cid:" ++ cid) a.dataUri html)) := rfl
    rw [hcons, ih]
    cases hid : a.contentId with
    | none =>
      rw [images, images, List.filterMap_cons_none (by rw [hid]; rfl)]
      rfl
    | some x =>
      rw [images, images, List.filterMap_cons_some (b := (x.toList,a.dataUri.toList)) (by rw [hid]; rfl),
        List.foldl_cons, Option.elim_some, strReplace_eq, String.toList_ofList, String.toList_append]
      rfl

/-- What begins as a URL. -/
def IsDataUri (u : List Char) : Prop := ∃ rest, u = 'd' :: 'a' :: rest

theorem isDataUri_of_mem {attachments : List ImapAttachment} {a : List Char × List Char}
    (h : a ∈ images attachments) : IsDataUri a.2 := by
  obtain ⟨b,-,hb⟩ := List.mem_filterMap.mp h
  obtain ⟨x,-,rfl⟩ := Option.map_eq_some_iff.mp hb
  refine ⟨"ta:".toList ++ b.contentType.toList ++ ";base64,".toList ++ base64Encode b.data,?_⟩
  simp [ImapAttachment.dataUri]

theorem prefix_of_prefix_append {b u : List Char} (hne : b ≠ []) (hu : IsDataUri u)
    (h : cidScheme <+: b ++ u) : cidScheme <+: b := by
  have hscheme : cidScheme = ['c','i','d',':'] := rfl
  obtain ⟨rest,rfl⟩ := hu
  rw [hscheme] at h ⊢
  rcases b with _ | ⟨c,_ | ⟨d,_ | ⟨e,_ | ⟨f,b⟩⟩⟩⟩
  · exact absurd rfl hne
  · simp [List.cons_prefix_cons] at h
  · simp [List.cons_prefix_cons] at h
  · simp [List.cons_prefix_cons] at h
  · simpa [List.cons_prefix_cons] using h

/-- No address begins before a URL and reaches into it. -/
theorem infix_of_infix_append {b u z : List Char} (hb : ¬cidScheme <:+: b) (hu : IsDataUri u)
    (h : cidScheme ++ z <:+: b ++ u) : cidScheme ++ z <:+: u := by
  induction b with
  | nil => exact h
  | cons c b ih =>
    rw [List.infix_cons_iff, not_or] at hb
    rcases List.infix_cons_iff.mp h with hhead | htail
    · have hscheme := (List.prefix_append cidScheme z).trans hhead
      exact absurd (prefix_of_prefix_append (List.cons_ne_nil c b) hu hscheme) hb.1
    · exact ih hb.2 htail

/-- The first URL for a content id. -/
def urlOf (l : List (List Char × List Char)) (x : List Char) : Option (List Char) :=
  (l.find? (fun a => a.1 = x)).map Prod.snd

theorem urlOf_concat (l : List (List Char × List Char)) (a : List Char × List Char) (x : List Char) :
    urlOf (l ++ [a]) x = (urlOf l x).or (if a.1 = x then some a.2 else none) := by
  unfold urlOf
  rw [List.find?_append]
  cases l.find? (fun a => a.1 = x) with
  | some b => rfl
  | none =>
    by_cases h : a.1 = x
    · simp [h]
    · simp [h]

theorem mem_of_urlOf {l : List (List Char × List Char)} {x u : List Char} (h : urlOf l x = some u) :
    (x,u) ∈ l := by
  obtain ⟨b,hb,rfl⟩ := Option.map_eq_some_iff.mp h
  have hfound := List.find?_some hb
  have hid : b.1 = x := of_decide_eq_true hfound
  rw [← hid]
  exact List.mem_of_find?_eq_some hb

theorem cidScheme_ne_nil : cidScheme ≠ [] := List.cons_ne_nil _ _

theorem address_ne_nil (x : List Char) : cidScheme ++ x ≠ [] :=
  List.append_ne_nil_of_left_ne_nil cidScheme_ne_nil x

/-- One more image in a word whose reference is resolved if its image has been put in. -/
theorem putImage_resolveWord {l : List (List Char × List Char)} {a : List Char × List Char}
    {w : List Char} (hl : ∀ b ∈ l, IsDataUri b.2)
    (hwhole : cidScheme ++ a.1 <:+: w → ∃ before, splitOnce cidScheme w = some (before,a.1))
    (hquiet : ∀ b ∈ l, cidScheme ++ b.1 <:+: w → ¬cidScheme ++ a.1 <:+: b.2) :
    putImage (resolveWord (urlOf l) w) a = resolveWord (urlOf (l ++ [a])) w := by
  unfold putImage resolveWord
  cases hw : splitOnce cidScheme w with
  | none =>
    have hnone := splitOnce_eq_none.mp hw
    exact replaceText_none fun h => hnone (((List.prefix_append cidScheme a.1).isInfix).trans h)
  | some r =>
    obtain ⟨before,x⟩ := r
    obtain ⟨heq,hfirst⟩ := splitOnce_eq_some cidScheme_ne_nil hw
    have hx : cidScheme ++ x <:+: w := by
      rw [heq, List.append_assoc]
      exact (List.suffix_append _ _).isInfix
    dsimp only
    rw [urlOf_concat]
    cases hurl : urlOf l x with
    | some u =>
      have hmem := mem_of_urlOf hurl
      -- the image has been put in, and this address is not in it
      refine replaceText_none fun h => hquiet (x,u) hmem hx ?_
      exact infix_of_infix_append hfirst (hl (x,u) hmem) h
    | none =>
      by_cases hid : a.1 = x
      · subst hid
        rw [if_pos rfl]
        have hsplit := splitOnce_append cidScheme_ne_nil hw
        rw [Option.elim_none, replaceText_some (address_ne_nil a.1) hsplit,
          replaceText_none (mt List.infix_nil.mp (address_ne_nil a.1)), List.append_nil]
        rfl
      · rw [if_neg hid]
        refine replaceText_none fun h => ?_
        obtain ⟨before',hsplit⟩ := hwhole h
        exact hid (Prod.mk.inj (Option.some.inj (hsplit.symm.trans hw))).2

/-- All images, one after the other. -/
theorem foldl_putImage {ends : Char → Bool} {html : List Char} (l : List (List Char × List Char))
    {done : List (List Char × List Char)} (hscheme : ∀ c ∈ cidScheme, ends c = false)
    (hids : ∀ a ∈ l, ∀ c ∈ a.1, ends c = false) (huri : ∀ a ∈ done ++ l, IsDataUri a.2)
    (hwhole : ∀ a ∈ l, ∀ w ∈ words ends html, cidScheme ++ a.1 <:+: w →
      ∃ before, splitOnce cidScheme w = some (before,a.1))
    (hquiet : (done ++ l).Pairwise
      (fun b a => cidScheme ++ b.1 <:+: html → ¬cidScheme ++ a.1 <:+: b.2)) :
    l.foldl putImage (mapWords ends (resolveWord (urlOf done)) html) =
      mapWords ends (resolveWord (urlOf (done ++ l))) html := by
  induction l generalizing done with
  | nil => rw [List.append_nil]; rfl
  | cons a l ih =>
    obtain ⟨haids,hids⟩ := List.forall_mem_cons.mp hids
    obtain ⟨hawhole,hwhole⟩ := List.forall_mem_cons.mp hwhole
    have hplain : ∀ e, ends e = true → e ∉ cidScheme ++ a.1 := by
      intro e he hmem
      have hfalse : ends e = false := (List.mem_append.mp hmem).elim (hscheme e) (haids e)
      rw [he] at hfalse
      exact absurd hfalse Bool.noConfusion
    have hstep : putImage (mapWords ends (resolveWord (urlOf done)) html) a =
        mapWords ends (resolveWord (urlOf (done ++ [a]))) html := by
      rw [putImage, replaceText_mapWords (address_ne_nil a.1) hplain]
      refine mapWords_congr fun w hw => ?_
      refine putImage_resolveWord (fun b hb => huri b (List.mem_append_left _ hb)) (hawhole w hw) ?_
      intro b hb href
      exact (List.pairwise_append.mp hquiet).2.2 b hb a List.mem_cons_self
        (href.trans (infix_of_mem_words hw))
    rw [List.foldl_cons, hstep, List.append_cons done a l]
    rw [List.append_cons done a l] at huri hquiet
    exact ih hids huri hwhole hquiet

theorem resolveWord_nil : resolveWord (urlOf []) = id := by
  funext w
  unfold resolveWord
  cases splitOnce cidScheme w with
  | none => rfl
  | some r => rfl

theorem mem_images {attachments : List ImapAttachment} {x u : List Char} :
    (x,u) ∈ images attachments ↔
      ∃ a ∈ attachments, a.contentId = some (String.ofList x) ∧ a.dataUri.toList = u := by
  rw [images, List.mem_filterMap]
  refine exists_congr fun a => and_congr_right fun _ => ?_
  rw [Option.map_eq_some_iff]
  constructor
  · rintro ⟨y,hy,heq⟩
    obtain ⟨rfl,rfl⟩ := Prod.mk.inj heq
    exact ⟨by rw [hy, String.ofList_toList],rfl⟩
  · rintro ⟨hy,rfl⟩
    exact ⟨_,hy,by rw [String.toList_ofList]⟩

end Images

/-! ### References resolved -/

section Resolve

variable {attachments : List ImapAttachment} {html : String}

theorem pairwise_images (h : attachments.Pairwise fun a b => Silent html a b ∧ Silent html b a) :
    (images attachments).Pairwise
      (fun b a => cidScheme ++ b.1 <:+: html.toList → ¬cidScheme ++ a.1 <:+: b.2) := by
  refine List.Pairwise.filterMap _ (fun a b hquiet p hp q hq => ?_) h
  obtain ⟨x,hx,rfl⟩ := Option.map_eq_some_iff.mp hp
  obtain ⟨y,hy,rfl⟩ := Option.map_eq_some_iff.mp hq
  exact hquiet.1 x y hx hy

/-- The body after all images are put in. -/
theorem toList_resolve (r : Reading attachments) (h : Unambiguous r.ends attachments html) :
    (resolveCids attachments html).toList =
      mapWords r.ends (resolveWord (urlOf (images attachments))) html.toList := by
  have hstart : mapWords r.ends (resolveWord (urlOf [])) html.toList = html.toList := by
    rw [resolveWord_nil, mapWords_id]
  rw [toList_resolveCids, ← hstart]
  refine (foldl_putImage (images attachments) r.scheme ?_ ?_ ?_ (pairwise_images h.quiet)).trans ?_
  · rintro ⟨x,u⟩ hmem c hc
    obtain ⟨a,ha,hid,-⟩ := mem_images.mp hmem
    exact r.ids a ha _ hid c (by rwa [String.toList_ofList])
  · exact fun a ha => isDataUri_of_mem ha
  · rintro ⟨x,u⟩ hmem w hw hinfix
    obtain ⟨a,ha,hid,-⟩ := mem_images.mp hmem
    have haddress : cidAddress (String.ofList x) <:+: w := by
      rwa [cidAddress, String.toList_ofList]
    obtain ⟨before,hsplit⟩ := h.whole a ha _ hid w hw haddress
    exact ⟨before,by rwa [String.toList_ofList] at hsplit⟩
  · rw [hstart, List.nil_append]

theorem urlOf_eq_none {x : List Char} : urlOf (images attachments) x = none ↔
    ∀ a ∈ attachments, a.contentId ≠ some (String.ofList x) := by
  unfold urlOf
  rw [Option.map_eq_none_iff, List.find?_eq_none]
  constructor
  · exact fun h a ha hid => h _ (mem_images.mpr ⟨a,ha,hid,rfl⟩) (decide_eq_true rfl)
  · rintro h ⟨y,u⟩ hmem heq
    obtain ⟨a,ha,hid,-⟩ := mem_images.mp hmem
    have hy : y = x := of_decide_eq_true heq
    exact h a ha (hy ▸ hid)

/-- The URLs of the first attachments with a content id. -/
def firstUrl (attachments : List ImapAttachment) (x : String) : Option String :=
  (urlOf (images attachments) x.toList).map String.ofList

theorem urlOf_firstUrl : UrlOf attachments (firstUrl attachments) where
  attached := by
    intro x u hurl
    obtain ⟨v,hv,rfl⟩ := Option.map_eq_some_iff.mp hurl
    obtain ⟨a,ha,hid,hu⟩ := mem_images.mp (mem_of_urlOf hv)
    exact ⟨a,ha,by rwa [String.ofList_toList] at hid,by rw [← hu, String.ofList_toList]⟩
  known := by
    intro a ha x hid hnone
    have hall := urlOf_eq_none.mp (Option.map_eq_none_iff.mp hnone) a ha
    rw [String.ofList_toList] at hall
    exact hall hid

theorem substituteCids_firstUrl (ends : Char → Bool) :
    substituteCids ends (firstUrl attachments) html =
      String.ofList (mapWords ends (resolveWord (urlOf (images attachments))) html.toList) := by
  have hurl : (fun x => (firstUrl attachments (String.ofList x)).map String.toList) =
      urlOf (images attachments) := by
    funext x
    unfold firstUrl
    rw [String.toList_ofList, Option.map_map]
    exact (congrArg (fun f => Option.map f _) (funext fun l => String.toList_ofList)).trans Option.map_id'
  rw [substituteCids, hurl]

/-- The images of a content id that is referred to are the same in every order. -/
theorem Unambiguous.urlOf_eq {ends : Char → Bool} (h : Unambiguous ends attachments html)
    {attachments' : List ImapAttachment} (hperm : attachments'.Perm attachments) {x : List Char}
    (hx : cidScheme ++ x <:+: html.toList) :
    urlOf (images attachments') x = urlOf (images attachments) x := by
  cases hurl : urlOf (images attachments) x with
  | none => exact urlOf_eq_none.mpr fun a ha => urlOf_eq_none.mp hurl a (hperm.mem_iff.mp ha)
  | some u =>
    cases hurl' : urlOf (images attachments') x with
    | none =>
      have hnone := urlOf_eq_none.mpr fun a ha => urlOf_eq_none.mp hurl' a (hperm.mem_iff.mpr ha)
      exact absurd (hurl.symm.trans hnone) (Option.some_ne_none u)
    | some v =>
      obtain ⟨a,ha,hid,rfl⟩ := mem_images.mp (mem_of_urlOf hurl)
      obtain ⟨b,hb,hidb,rfl⟩ := mem_images.mp (mem_of_urlOf hurl')
      have haddress : cidAddress (String.ofList x) <:+: html.toList := by
        rwa [cidAddress, String.toList_ofList]
      rw [h.same a ha b (hperm.mem_iff.mp hb) _ hid hidb haddress]

theorem Unambiguous.perm {ends : Char → Bool} (h : Unambiguous ends attachments html)
    {attachments' : List ImapAttachment} (hperm : attachments'.Perm attachments) :
    Unambiguous ends attachments' html where
  whole := fun a ha => h.whole a (hperm.mem_iff.mp ha)
  same := fun a ha b hb => h.same a (hperm.mem_iff.mp ha) b (hperm.mem_iff.mp hb)
  quiet := (hperm.pairwise_iff fun hab => And.symm hab).mpr h.quiet

end Resolve

/-- White space, quotes and angle brackets end a reference. -/
def endsInHtml (c : Char) : Bool := isWhitespace c || c = '"' || c = '\'' || c = '<' || c = '>'

def imageOf (id : String) : ImapAttachment := ⟨none,"image/png",0,[],some id⟩

def readInHtml (attachments : List ImapAttachment)
    (h : attachments.all fun a => a.contentId.all fun x => x.toList.all fun c => !endsInHtml c) :
    Reading attachments where
  ends := endsInHtml
  scheme := forall_mem_of_all (by decide)
  ids := by
    intro a ha x hid c hc
    have hall := List.all_eq_true.mp h a ha
    rw [hid, Option.all_some] at hall
    exact Bool.not_eq_true' _ ▸ List.all_eq_true.mp hall c hc

def twoImages : List ImapAttachment := [imageOf "a@x",imageOf "b@x"]

def twoReferences : String := "<img src=\"cid:a@x\"><img src=\"cid:b@x\">"

theorem unambiguous_two : Unambiguous endsInHtml twoImages twoReferences where
  whole := by
    have hwhole : ∀ a ∈ twoImages, ∀ w ∈ words endsInHtml twoReferences.toList,
        cidAddress (a.contentId.getD "") <:+: w →
          (splitOnce cidScheme w).map Prod.snd = some (a.contentId.getD "").toList := by decide
    intro a ha x hid w hw haddress
    have hsplit := hwhole a ha w hw
    rw [hid, Option.getD_some] at hsplit
    obtain ⟨r,hr,hx⟩ := Option.map_eq_some_iff.mp (hsplit haddress)
    exact ⟨r.1,hx ▸ hr⟩
  same := by
    have hids : (twoImages.map ImapAttachment.contentId).Nodup := by decide
    intro a ha b hb x hida hidb _
    rw [List.inj_on_of_nodup_map hids ha hb (hida.trans hidb.symm)]
  quiet := by
    have hquiet : ∀ a ∈ twoImages, ∀ b ∈ twoImages,
        ¬cidAddress (b.contentId.getD "") <:+: a.dataUri.toList := by decide
    refine List.pairwise_of_forall_mem_list fun a ha b hb => ⟨fun x y _ hy _ => ?_,fun x y _ hy _ => ?_⟩
    · have hnot := hquiet a ha b hb
      rwa [hy] at hnot
    · have hnot := hquiet b hb a ha
      rwa [hy] at hnot

end Rav
