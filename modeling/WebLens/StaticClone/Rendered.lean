import WebLens.Lib.Srcset
import WebLens.StaticClone.References

/-!
# References of a rendered document

`rewriteRenderedHtml` of `capture.ts`: what becomes of a reference, and of the candidates of a
`srcset`, when the document of a page is copied. The attribute is split at every comma, and every
part at its white space.
-/

set_option autoImplicit false
set_option relaxedAutoImplicit false

namespace WebLens.StaticClone

open Lib Lib.Srcset

/-! ### References -/

/-- What the copy of a document is given: the URL that its references are relative to, the paths of
the files by their URLs, and whether references without a file are kept. -/
structure Rendering where
  baseUrl : String
  paths : List (String × String)
  preserveUnmatched : Bool

/-- `paths[…]`, when it is a text that is not empty. -/
def Rendering.pathOf (rendering : Rendering) (url : String) : Option String :=
  (rendering.paths.lookup url).filter fun path ↦ path ≠ ""

/-- The URL with the values of its query replaced. -/
def redactQuery (p : Platform) (url : p.Url) : p.Url :=
  (p.searchKeys url).foldl (fun url key ↦ p.appendKey (p.deleteKey url key) key "[REDACTED]") url

/-- `redactOrReplace`. -/
def redactOrReplace (p : Platform) (rendering : Rendering) (raw : String) : String :=
  if raw = "" ∨ hasScheme ["data", "blob", "about", "javascript", "chrome", "chrome-extension"]
      raw = true then raw
  else match p.newUrlFrom raw rendering.baseUrl with
  | none => ""
  | some url =>
    let fragment := p.hash url
    let target := p.setHash url ""
    match rendering.pathOf (p.toString target) with
    | some replacement => replacement ++ fragment
    | none =>
      let target := p.setPassword (p.setUsername target "") ""
      if rendering.preserveUnmatched = true then p.toString target ++ fragment
      else p.toString (redactQuery p target) ++ fragment

/-! ### Redaction -/

/-- `capText`, without the half of a character at the end. -/
def capText (p : Platform) (value : String) (bytes : ℕ) : String :=
  let encoded := Utf8.ofText (p.trim value)
  if encoded.length ≤ bytes then p.decodeUtf8 encoded
  else
    let text := (p.decodeUtf8 (encoded.take bytes)).toList
    String.ofList (if text.getLast? = some '\uFFFD' then text.dropLast else text)

/-- `sanitizeUrl`. -/
def sanitizeUrl (p : Platform) (rawUrl : String) : String :=
  match p.newUrl rawUrl with
  | none => ""
  | some url =>
    let url := p.setHash (p.setPassword (p.setUsername url "") "") ""
    let url := (p.searchKeys url).eraseDups.foldl (fun url key ↦ p.setKey url key "[REDACTED]") url
    capText p (p.toString url) 8192

/-! ### Candidates -/

/-- `text.trim()`. -/
def trimSpaces (text : List Char) : List Char :=
  (text.dropWhile isSpace).rdropWhile isSpace

/-- Whether a text is not empty. -/
def isWord (word : List Char) : Bool :=
  !word.isEmpty

/-- `text.split(/\s+/u)` of a text without white space at its ends. -/
def splitSpaces (text : List Char) : List (List Char) :=
  match (text.splitOnP isSpace).filter isWord with
  | [] => [[]]
  | words => words

/-- A part between two commas, with its URL rewritten. -/
def rewriteCandidate (rewrite : String → String) (part : List Char) : List Char :=
  match splitSpaces (trimSpaces part) with
  | [] => []
  | raw :: descriptor =>
    if raw = [] then []
    else joinWith [' '] ((rewrite (String.ofList raw)).toList :: descriptor)

/-- A `srcset` with its URLs rewritten. -/
def rewriteSrcset (rewrite : String → String) (value : List Char) : List Char :=
  joinWith [',', ' '] (((value.splitOn ',').map (rewriteCandidate rewrite)).filter isWord)

/-- Whether a file was captured for the URL of a part. -/
def isCaptured (p : Platform) (rendering : Rendering) (part : List Char) : Bool :=
  match splitSpaces (trimSpaces part) with
  | [] => false
  | raw :: _ =>
    decide (raw ≠ []) && ((p.newUrlFrom (String.ofList raw) rendering.baseUrl).bind fun url ↦
      rendering.pathOf (p.toString url)).isSome

/-- `retainCapturedCandidates`: the attribute that is left, if it is not removed. -/
def retainCapturedCandidates (p : Platform) (rendering : Rendering) (value : List Char) :
    Option (List Char) :=
  let available := joinWith [','] ((value.splitOn ',').filter (isCaptured p rendering))
  if available = [] then none else some available

/-! ### Parts that hold a candidate -/

/-- A URL that the splitting keeps together. -/
structure IsPlain (url : List Char) : Prop where
  ne_nil : url ≠ []
  space : ∀ c ∈ url, isSpace c = false
  comma : ',' ∉ url

theorem isSpace_of_isAsciiSpace {c : Char} (h : isAsciiSpace c = true) : isSpace c = true := by
  unfold isAsciiSpace at h
  unfold isSpace
  rw [List.contains_iff_mem] at h
  rw [Bool.or_eq_true, List.contains_iff_mem]
  refine .inl ?_
  rcases List.mem_cons.1 h with h | h
  · rw [h]
    decide
  rcases List.mem_cons.1 h with h | h
  · rw [h]
    decide
  rcases List.mem_cons.1 h with h | h
  · rw [h]
    decide
  rcases List.mem_cons.1 h with h | h
  · rw [h]
    decide
  · rw [List.mem_singleton.1 h]
    decide

theorem isSpace_eq_false_of_isDescriptorChar {c : Char} (h : isDescriptorChar c = true) :
    isSpace c = false ∧ c ≠ ',' := by
  have hlow : c.toNat < 128 := by
    unfold isDescriptorChar at h
    rcases Bool.or_eq_true_iff.1 h with hdigit | hother
    · unfold Char.isDigit at hdigit
      have hle := of_decide_eq_true (Bool.and_eq_true_iff.1 hdigit).2
      have hle' : c.toNat ≤ 57 := hle
      omega
    · have hall : (".eE+-wx".toList.all fun c ↦ decide (c.toNat < 128)) = true := by decide
      exact of_decide_eq_true (List.all_eq_true.1 hall c (List.contains_iff_mem.1 hother))
  have hall : ∀ n < 128, isDescriptorChar (Char.ofNat n) = true →
      isSpace (Char.ofNat n) = false ∧ Char.ofNat n ≠ ',' := by decide +kernel
  have hc := hall c.toNat hlow
  rw [Char.ofNat_toNat] at hc
  exact hc h

theorem isWord_of_ne_nil {word : List Char} (h : word ≠ []) : isWord word = true := by
  unfold isWord
  rw [List.isEmpty_eq_false_iff.2 h]
  rfl

/-- White space, a text without white space, and something that ends in such a text. -/
theorem trimSpaces_append {before text after : List Char}
    (hbefore : ∀ c ∈ before, isSpace c = true) (hafter : ∀ c ∈ after, isSpace c = true)
    {first last : Char} {rest front : List Char} (hfirst : text = first :: rest)
    (hlast : text = front ++ [last]) (hfirst' : isSpace first = false)
    (hlast' : isSpace last = false) : trimSpaces (before ++ text ++ after) = text := by
  unfold trimSpaces
  have hdrop : (before ++ text ++ after).dropWhile isSpace = text ++ after := by
    rw [List.append_assoc, List.dropWhile_append_of_pos hbefore, hfirst, List.cons_append,
      List.dropWhile_cons_of_neg (Bool.eq_false_iff.1 hfirst')]
  have hreverse : (after.reverse ++ text.reverse).dropWhile isSpace = text.reverse := by
    rw [List.dropWhile_append_of_pos fun c hc ↦ hafter c (List.mem_reverse.1 hc), hlast,
      List.reverse_append, List.reverse_singleton, List.singleton_append,
      List.dropWhile_cons_of_neg (Bool.eq_false_iff.1 hlast')]
  rw [hdrop, List.rdropWhile, List.reverse_append, hreverse, List.reverse_reverse]

/-- The words of a word, white space and another word. -/
theorem filter_splitOnP_append {word gap other : List Char} (hword : ∀ c ∈ word, isSpace c = false)
    (hgap : ∀ c ∈ gap, isSpace c = true) (hgap_ne : gap ≠ [])
    (hother : ∀ c ∈ other, isSpace c = false) (hword_ne : word ≠ []) (hother_ne : other ≠ []) :
    ((word ++ gap ++ other).splitOnP isSpace).filter isWord = [word, other] := by
  have hspaces : ∀ gap : List Char, (∀ c ∈ gap, isSpace c = true) →
      ((gap ++ other).splitOnP isSpace).filter isWord = [other] := by
    intro gap
    induction gap with
    | nil =>
      intro _
      rw [List.nil_append, List.splitOnP_eq_singleton hother, List.filter_cons_of_pos
        (isWord_of_ne_nil hother_ne), List.filter_nil]
    | cons c gap ih =>
      intro hgap
      rw [List.cons_append, List.splitOnP_cons_eq_if_modifyHead,
        if_pos (hgap c (List.mem_cons_self ..)),
        List.filter_cons_of_neg Bool.false_ne_true]
      exact ih fun d hd ↦ hgap d (List.mem_cons_of_mem _ hd)
  obtain ⟨c, gap', rfl⟩ := List.exists_cons_of_ne_nil hgap_ne
  rw [List.append_assoc, List.cons_append,
    List.splitOnP_append_cons_of_forall_mem hword c (hgap c (List.mem_cons_self ..)),
    List.filter_cons_of_pos (isWord_of_ne_nil hword_ne),
    hspaces gap' fun d hd ↦ hgap d (List.mem_cons_of_mem _ hd)]

/-- The words of a candidate: its URL and its descriptor. -/
theorem splitSpaces_core {url gap : List Char} {descriptor : Option (List Char)}
    (hurl : IsPlain url) (hgap : ∀ c ∈ gap, isSpace c = true) (hgap_ne : gap ≠ [])
    (hdescriptor : ∀ text, descriptor = some text → IsDescriptor text) :
    splitSpaces (core url gap descriptor) = url :: descriptor.toList := by
  unfold splitSpaces
  cases descriptor with
  | none =>
    unfold core
    dsimp only
    rw [List.splitOnP_eq_singleton hurl.space, List.filter_cons_of_pos
      (isWord_of_ne_nil hurl.ne_nil), List.filter_nil]
    rfl
  | some text =>
    have htext := hdescriptor text rfl
    unfold core
    dsimp only
    rw [filter_splitOnP_append hurl.space hgap hgap_ne (fun c hc ↦
      (isSpace_eq_false_of_isDescriptorChar (htext.isDescriptorChar hc)).1) hurl.ne_nil htext.ne_nil]
    rfl

theorem splitSpaces_trimSpaces_text {layout : Layout} (h : layout.WellFormed)
    (hurl : IsPlain layout.url) :
    splitSpaces (trimSpaces layout.text) = layout.url :: layout.descriptor.toList := by
  have hgap : ∀ c ∈ layout.gap, isSpace c = true := fun c hc ↦
    isSpace_of_isAsciiSpace (h.gap c hc)
  have hbefore : ∀ c ∈ layout.before, isSpace c = true := fun c hc ↦
    isSpace_of_isAsciiSpace (h.before c hc)
  have hafter : ∀ c ∈ layout.after, isSpace c = true := fun c hc ↦
    isSpace_of_isAsciiSpace (h.after c hc)
  have hdescriptor : ∀ text, layout.descriptor = some text → IsDescriptor text :=
    h.candidate.descriptor
  obtain ⟨first, rest, hfirst⟩ := List.exists_cons_of_ne_nil hurl.ne_nil
  have hfirst' : isSpace first = false :=
    hurl.space first (hfirst ▸ List.mem_cons_self ..)
  have hends : ∃ tail front last, core layout.url layout.gap layout.descriptor = first :: tail ∧
      core layout.url layout.gap layout.descriptor = front ++ [last] ∧ isSpace last = false := by
    cases hcase : layout.descriptor with
    | none =>
      refine ⟨rest, layout.url.dropLast, layout.url.getLast hurl.ne_nil, hfirst, ?_,
        hurl.space _ (List.getLast_mem _)⟩
      exact (List.dropLast_append_getLast hurl.ne_nil).symm
    | some text =>
      have htext := hdescriptor text hcase
      refine ⟨rest ++ layout.gap ++ text, layout.url ++ layout.gap ++ text.dropLast,
        text.getLast htext.ne_nil, ?_, ?_, (isSpace_eq_false_of_isDescriptorChar
          (htext.isDescriptorChar (List.getLast_mem _))).1⟩
      · unfold core
        rw [hfirst]
        rfl
      · unfold core
        rw [List.append_assoc _ text.dropLast, List.dropLast_append_getLast]
  obtain ⟨tail, front, last, hcons, hconcat, hlast⟩ := hends
  unfold Layout.text
  rw [trimSpaces_append hbefore hafter hcons hconcat hfirst' hlast]
  exact splitSpaces_core hurl hgap h.gap_ne_nil hdescriptor

theorem comma_not_mem_text {layout : Layout} (h : layout.WellFormed) (hurl : IsPlain layout.url) :
    ',' ∉ layout.text := by
  have hspace : ∀ text : List Char, (∀ c ∈ text, isAsciiSpace c = true) → ',' ∉ text := by
    intro text htext hcomma
    exact absurd (htext _ hcomma) (by decide)
  have hcore : ',' ∉ core layout.url layout.gap layout.descriptor := by
    cases hcase : layout.descriptor with
    | none => exact hurl.comma
    | some text =>
      have htext := h.candidate.descriptor text hcase
      unfold core
      rw [List.mem_append, List.mem_append]
      rintro ((hcomma | hcomma) | hcomma)
      · exact hurl.comma hcomma
      · exact hspace _ h.gap hcomma
      · exact (isSpace_eq_false_of_isDescriptorChar (htext.isDescriptorChar hcomma)).2 rfl
  unfold Layout.text
  rw [List.mem_append, List.mem_append]
  rintro ((hcomma | hcomma) | hcomma)
  · exact hspace _ h.before hcomma
  · exact hcore hcomma
  · exact hspace _ h.after hcomma

/-! ### Rewriting -/

/-- A candidate with its URL replaced. -/
def mapUrl (rewrite : String → String) (candidate : ImageCandidate) : ImageCandidate where
  url := (rewrite (String.ofList candidate.url)).toList
  descriptor := candidate.descriptor

theorem rewriteCandidate_text (rewrite : String → String) {layout : Layout}
    (h : layout.WellFormed) (hurl : IsPlain layout.url) :
    rewriteCandidate rewrite layout.text = (mapUrl rewrite layout.toImageCandidate).text := by
  unfold rewriteCandidate
  rw [splitSpaces_trimSpaces_text h hurl]
  dsimp only
  rw [if_neg hurl.ne_nil]
  unfold ImageCandidate.text mapUrl
  cases layout.descriptor <;> rfl

/-- The rewriting of layouts with commas between them. -/
theorem rewriteSrcset_joinWith (rewrite : String → String) {layouts : List Layout}
    (hne : layouts ≠ []) (h : ∀ layout ∈ layouts, layout.WellFormed)
    (hurl : ∀ layout ∈ layouts, IsPlain layout.url)
    (himage : ∀ layout ∈ layouts, (rewrite (String.ofList layout.url)).toList ≠ []) :
    rewriteSrcset rewrite (joinWith [','] (layouts.map Layout.text)) =
      joinWith [',', ' '] ((layouts.map fun layout ↦ mapUrl rewrite layout.toImageCandidate).map
        ImageCandidate.text) := by
  have hcommas : ∀ text ∈ layouts.map Layout.text, ',' ∉ text := by
    intro text htext
    obtain ⟨layout, hlayout, rfl⟩ := List.mem_map.1 htext
    exact comma_not_mem_text (h layout hlayout) (hurl layout hlayout)
  have hmap : (layouts.map Layout.text).map (rewriteCandidate rewrite) =
      (layouts.map fun layout ↦ mapUrl rewrite layout.toImageCandidate).map
        ImageCandidate.text := by
    rw [List.map_map, List.map_map]
    exact List.map_congr_left fun layout hlayout ↦
      rewriteCandidate_text rewrite (h layout hlayout) (hurl layout hlayout)
  unfold rewriteSrcset
  rw [splitOn_joinWith (fun hnil ↦ hne (List.map_eq_nil_iff.1 hnil)) hcommas, hmap]
  congr 1
  refine List.filter_eq_self.2 fun text htext ↦ isWord_of_ne_nil ?_
  obtain ⟨candidate, hcandidate, rfl⟩ := List.mem_map.1 htext
  obtain ⟨layout, hlayout, rfl⟩ := List.mem_map.1 hcandidate
  have hnonempty := himage layout hlayout
  unfold ImageCandidate.text mapUrl core
  cases layout.descriptor with
  | none => exact hnonempty
  | some text =>
    exact List.append_ne_nil_of_left_ne_nil (List.append_ne_nil_of_left_ne_nil hnonempty _) _

/-- The rewriting of a valid `srcset` whose URLs are kept together and have images. -/
theorem rewriteSrcset_of_isSrcset (rewrite : String → String) {value : List Char}
    {candidates : List ImageCandidate} (h : IsSrcset value candidates)
    (hurl : ∀ candidate ∈ candidates, IsPlain candidate.url)
    (himage : ∀ candidate ∈ candidates, (rewrite (String.ofList candidate.url)).toList ≠ []) :
    rewriteSrcset rewrite value =
      joinWith [',', ' '] ((candidates.map (mapUrl rewrite)).map ImageCandidate.text) := by
  obtain ⟨layouts, hne, rfl, hlayouts, -, rfl, -⟩ := h
  have hmem : ∀ layout ∈ layouts, layout.toImageCandidate ∈ layouts.map Layout.toImageCandidate :=
    fun layout hlayout ↦ List.mem_map_of_mem hlayout
  rw [rewriteSrcset_joinWith rewrite hne hlayouts (fun layout hlayout ↦
    hurl _ (hmem layout hlayout)) fun layout hlayout ↦ himage _ (hmem layout hlayout),
    List.map_map (f := Layout.toImageCandidate)]
  rfl

end WebLens.StaticClone
