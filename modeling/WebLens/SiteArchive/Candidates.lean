import WebLens.SiteArchive.References
import WebLens.StaticClone.Rendered
import WebLens.StaticClone.SafePaths

/-!
# Image candidates in a site archive

A `srcset` is rewritten when the document of a page is copied and again when the archive is
assembled. Of an image that was captured only the captured candidates are kept. Candidates whose URLs
have no comma, before and after, keep their order and their descriptors.
-/

set_option autoImplicit false
set_option relaxedAutoImplicit false

namespace WebLens.SiteArchive

open Lib Lib.Srcset
open StaticClone

/-- Where a document lies in an archive, and the aliases of its files. -/
structure Placement where
  sourcePath : String
  aliases : List (String × String)
  pageAliases : List (String × String)

/-- The image of a URL under the reference maps of both rewritings. -/
def archivedReference (p : Platform) (rendering : Rendering) (placement : Placement)
    (raw : String) : String :=
  rewriteArchiveReference p placement.sourcePath placement.aliases placement.pageAliases
    (redactOrReplace p rendering raw)

/-- A `srcset` after both rewritings; of a captured image, only captured candidates are kept. -/
def archivedSrcset (p : Platform) (rendering : Rendering) (placement : Placement)
    (captured : Bool) (value : List Char) : Option (List Char) :=
  (if captured = true then retainCapturedCandidates p rendering value else some value).map
    fun value ↦ rewriteSrcset (rewriteArchiveReference p placement.sourcePath placement.aliases
      placement.pageAliases) (rewriteSrcset (redactOrReplace p rendering) value)

/-- Whether a file was captured for a URL. -/
def isCapturedUrl (p : Platform) (rendering : Rendering) (url : List Char) : Bool :=
  ((p.newUrlFrom (String.ofList url) rendering.baseUrl).bind fun url ↦
    rendering.pathOf (p.toString url)).isSome

/-- A URL that neither splitting breaks: without comma and white space, before and after. -/
structure SurvivesSplitting (p : Platform) (rendering : Rendering) (placement : Placement)
    (url : List Char) : Prop where
  original : IsPlain url
  copied : IsPlain (redactOrReplace p rendering (String.ofList url)).toList
  archived : IsPlain (archivedReference p rendering placement (String.ofList url)).toList

variable {p : Platform} {rendering : Rendering} {placement : Placement}

theorem IsPlain.wellFormed_mapUrl {rewrite : String → String} {candidate : ImageCandidate}
    (h : IsPlain (rewrite (String.ofList candidate.url)).toList) (hcandidate : candidate.WellFormed) :
    (mapUrl rewrite candidate).WellFormed where
  url_ne_nil := h.ne_nil
  url_space c hc := by
    refine Bool.eq_false_iff.2 fun hspace ↦ ?_
    have hplain := h.space c hc
    rw [isSpace_of_isAsciiSpace hspace] at hplain
    cases hplain
  url_first hcomma := h.comma (List.mem_of_head? hcomma)
  url_last hcomma := h.comma (List.mem_of_getLast? hcomma)
  descriptor := hcandidate.descriptor

/-- The rewriting of layouts, twice. -/
theorem isSrcset_rewriteSrcset {layouts : List Layout} (hne : layouts ≠ [])
    (hlayouts : ∀ layout ∈ layouts, layout.WellFormed)
    (hcompatible : Compatible (layouts.map fun layout ↦ layout.descriptor))
    (hurl : ∀ layout ∈ layouts, SurvivesSplitting p rendering placement layout.url) :
    IsSrcset (rewriteSrcset (rewriteArchiveReference p placement.sourcePath placement.aliases
        placement.pageAliases) (rewriteSrcset (redactOrReplace p rendering)
          (joinWith [','] (layouts.map Layout.text))))
      (layouts.map fun layout ↦
        mapUrl (archivedReference p rendering placement) layout.toImageCandidate) := by
  have hfirst := rewriteSrcset_joinWith (redactOrReplace p rendering) hne hlayouts
    (fun layout hlayout ↦ (hurl layout hlayout).original)
    fun layout hlayout ↦ (hurl layout hlayout).copied.ne_nil
  have hdescriptors : ∀ rewrite : String → String, (layouts.map fun layout ↦
      mapUrl rewrite layout.toImageCandidate).map ImageCandidate.descriptor =
        layouts.map fun layout ↦ layout.descriptor := by
    intro rewrite
    rw [List.map_map]
    rfl
  have hne' : ∀ rewrite : String → String, (layouts.map fun layout ↦
      mapUrl rewrite layout.toImageCandidate) ≠ [] := fun rewrite hnil ↦
    hne (List.map_eq_nil_iff.1 hnil)
  have hcopied : IsSrcset (rewriteSrcset (redactOrReplace p rendering)
      (joinWith [','] (layouts.map Layout.text))) (layouts.map fun layout ↦
        mapUrl (redactOrReplace p rendering) layout.toImageCandidate) := by
    rw [hfirst]
    refine isSrcset_joinWith (hne' _) (fun candidate hcandidate ↦ ?_) ?_
    · obtain ⟨layout, hlayout, rfl⟩ := List.mem_map.1 hcandidate
      exact IsPlain.wellFormed_mapUrl (hurl layout hlayout).copied (hlayouts layout hlayout).candidate
    · rw [hdescriptors]
      exact hcompatible
  have hsecond := rewriteSrcset_of_isSrcset (rewriteArchiveReference p placement.sourcePath
    placement.aliases placement.pageAliases) hcopied (fun candidate hcandidate ↦ ?_)
    fun candidate hcandidate ↦ ?_
  · have hmaps : (layouts.map fun layout ↦ mapUrl (redactOrReplace p rendering)
        layout.toImageCandidate).map (mapUrl (rewriteArchiveReference p placement.sourcePath
          placement.aliases placement.pageAliases)) = layouts.map fun layout ↦
            mapUrl (archivedReference p rendering placement) layout.toImageCandidate := by
      rw [List.map_map]
      refine List.map_congr_left fun layout hlayout ↦ ?_
      show mapUrl _ (mapUrl _ _) = _
      unfold mapUrl archivedReference
      dsimp only
      rw [String.ofList_toList]
    rw [hsecond, hmaps]
    refine isSrcset_joinWith (hne' _) (fun candidate hcandidate ↦ ?_) ?_
    · obtain ⟨layout, hlayout, rfl⟩ := List.mem_map.1 hcandidate
      exact IsPlain.wellFormed_mapUrl (hurl layout hlayout).archived
        (hlayouts layout hlayout).candidate
    · rw [hdescriptors]
      exact hcompatible
  · obtain ⟨layout, hlayout, rfl⟩ := List.mem_map.1 hcandidate
    exact (hurl layout hlayout).copied
  · obtain ⟨layout, hlayout, rfl⟩ := List.mem_map.1 hcandidate
    have harchived := (hurl layout hlayout).archived.ne_nil
    unfold archivedReference at harchived
    unfold mapUrl
    dsimp only
    rwa [String.ofList_toList]

theorem isCaptured_text {layout : Layout} (h : layout.WellFormed) (hurl : IsPlain layout.url) :
    isCaptured p rendering layout.text = isCapturedUrl p rendering layout.url := by
  unfold isCaptured
  rw [splitSpaces_trimSpaces_text h hurl]
  dsimp only
  rw [decide_eq_true hurl.ne_nil, Bool.true_and]
  rfl

/-- The captured candidates of layouts with commas between them. -/
theorem retainCapturedCandidates_joinWith {layouts : List Layout} (hne : layouts ≠ [])
    (hlayouts : ∀ layout ∈ layouts, layout.WellFormed)
    (hurl : ∀ layout ∈ layouts, IsPlain layout.url) :
    retainCapturedCandidates p rendering (joinWith [','] (layouts.map Layout.text)) =
      if layouts.filter (fun layout ↦ isCapturedUrl p rendering layout.url) = [] then none
      else some (joinWith [','] ((layouts.filter fun layout ↦
        isCapturedUrl p rendering layout.url).map Layout.text)) := by
  have hcommas : ∀ text ∈ layouts.map Layout.text, ',' ∉ text := by
    intro text htext
    obtain ⟨layout, hlayout, rfl⟩ := List.mem_map.1 htext
    exact comma_not_mem_text (hlayouts layout hlayout) (hurl layout hlayout)
  have hfilter : (layouts.map Layout.text).filter (isCaptured p rendering) =
      (layouts.filter fun layout ↦ isCapturedUrl p rendering layout.url).map Layout.text := by
    rw [List.filter_map]
    congr 1
    refine List.filter_congr fun layout hlayout ↦ ?_
    exact isCaptured_text (hlayouts layout hlayout) (hurl layout hlayout)
  unfold retainCapturedCandidates
  rw [splitOn_joinWith (fun hnil ↦ hne (List.map_eq_nil_iff.1 hnil)) hcommas, hfilter]
  dsimp only
  cases hkept : layouts.filter fun layout ↦ isCapturedUrl p rendering layout.url with
  | nil => rfl
  | cons layout rest =>
    have hlayout : layout ∈ layouts := by
      refine List.mem_of_mem_filter (p := fun layout ↦ isCapturedUrl p rendering layout.url) ?_
      rw [hkept]
      exact List.mem_cons_self ..
    have htext : layout.text ≠ [] := by
      have hplain := (hurl layout hlayout).ne_nil
      unfold Layout.text core
      refine List.append_ne_nil_of_left_ne_nil (List.append_ne_nil_of_right_ne_nil _ ?_) _
      cases layout.descriptor with
      | none => exact hplain
      | some text =>
        exact List.append_ne_nil_of_left_ne_nil (List.append_ne_nil_of_left_ne_nil hplain _) _
    have hjoin : joinWith [','] ((layout :: rest).map Layout.text) ≠ [] := by
      cases rest with
      | nil => exact htext
      | cons next rest =>
        rw [List.map_cons, List.map_cons, joinWith_cons_cons]
        exact List.append_ne_nil_of_left_ne_nil (List.append_ne_nil_of_left_ne_nil htext _) _
    rw [if_neg hjoin, if_neg (List.cons_ne_nil _ _)]

/-- A valid `srcset` whose URLs survive the splitting stays valid: its candidates, or the captured
ones of a captured image, keep their order and their descriptors, and their URLs are the images of
the original ones. Without a captured candidate the attribute is removed. -/
theorem archived_srcset (p : Platform) (rendering : Rendering) (placement : Placement)
    (captured : Bool) (value : List Char) (candidates : List ImageCandidate)
    (h : IsSrcset value candidates)
    (hurl : ∀ candidate ∈ candidates, SurvivesSplitting p rendering placement candidate.url) :
    let kept := if captured = true then
      candidates.filter fun candidate ↦ isCapturedUrl p rendering candidate.url else candidates
    (kept = [] ∧ archivedSrcset p rendering placement captured value = none) ∨
      ∃ result, archivedSrcset p rendering placement captured value = some result ∧
        IsSrcset result (kept.map (mapUrl (archivedReference p rendering placement))) := by
  obtain ⟨layouts, hne, rfl, hlayouts, -, rfl, hcompatible⟩ := h
  have hurl' : ∀ layout ∈ layouts, SurvivesSplitting p rendering placement layout.url :=
    fun layout hlayout ↦ hurl _ (List.mem_map_of_mem hlayout)
  rw [List.map_map] at hcompatible
  have hmaps : ∀ kept : List Layout, (kept.map Layout.toImageCandidate).map
      (mapUrl (archivedReference p rendering placement)) = kept.map fun layout ↦
        mapUrl (archivedReference p rendering placement) layout.toImageCandidate := by
    intro kept
    rw [List.map_map]
    rfl
  unfold archivedSrcset
  dsimp only
  by_cases hcaptured : captured = true
  · rw [if_pos hcaptured, if_pos hcaptured, retainCapturedCandidates_joinWith hne hlayouts
      fun layout hlayout ↦ (hurl' layout hlayout).original]
    have hfilter : (layouts.map Layout.toImageCandidate).filter (fun candidate ↦
        isCapturedUrl p rendering candidate.url) = (layouts.filter fun layout ↦
          isCapturedUrl p rendering layout.url).map Layout.toImageCandidate := by
      rw [List.filter_map]
      rfl
    rw [hfilter]
    by_cases hkept : layouts.filter (fun layout ↦ isCapturedUrl p rendering layout.url) = []
    · rw [if_pos hkept, hkept]
      exact .inl ⟨rfl, rfl⟩
    · rw [if_neg hkept]
      refine .inr ⟨_, rfl, ?_⟩
      rw [hmaps]
      have hmem : ∀ layout ∈ layouts.filter (fun layout ↦ isCapturedUrl p rendering layout.url),
          layout ∈ layouts := fun layout hlayout ↦ List.mem_of_mem_filter hlayout
      exact isSrcset_rewriteSrcset hkept (fun layout hlayout ↦ hlayouts layout (hmem layout hlayout))
        (hcompatible.sublist ((List.filter_sublist ..).map _))
        fun layout hlayout ↦ hurl' layout (hmem layout hlayout)
  · rw [if_neg hcaptured, if_neg hcaptured]
    refine .inr ⟨_, rfl, ?_⟩
    rw [hmaps]
    exact isSrcset_rewriteSrcset hne hlayouts hcompatible hurl'

/-! ### Two candidates -/

/-- A candidate with a density of one digit. -/
def densityCandidate (url : String) (density : Char) : ImageCandidate where
  url := url.toList
  descriptor := some [density, 'x']

theorem wellFormed_densityCandidate {url : String} {density : Char} (hne : url.toList ≠ [])
    (hspace : (url.toList.all fun c ↦ !isAsciiSpace c) = true)
    (hfirst : url.toList.head? ≠ some ',') (hlast : url.toList.getLast? ≠ some ',')
    (hdensity : density.isDigit = true) : (densityCandidate url density).WellFormed where
  url_ne_nil := hne
  url_space c hc := by
    have hc' := List.all_eq_true.1 hspace c hc
    rwa [Bool.not_eq_true'] at hc'
  url_first := hfirst
  url_last := hlast
  descriptor text htext := by
    cases htext
    refine .inr ⟨[density], rfl, [density], [], [], rfl, .inr ⟨List.cons_ne_nil _ _, ?_⟩, .inl rfl,
      .inl (List.cons_ne_nil _ _), .inl rfl⟩
    intro c hc
    rw [List.mem_singleton.1 hc]
    exact hdensity

/-- The candidates of an image with two densities. -/
def imageCandidates : List ImageCandidate :=
  [densityCandidate "https://example.com/a" '1', densityCandidate "https://example.com/b" '2']

def imageSrcset : List Char :=
  "https://example.com/a 1x, https://example.com/b 2x".toList

theorem isSrcset_imageSrcset : IsSrcset imageSrcset imageCandidates := by
  have hjoin : imageSrcset = joinWith [',', ' '] (imageCandidates.map ImageCandidate.text) := by
    decide +kernel
  rw [hjoin]
  refine isSrcset_joinWith (List.cons_ne_nil _ _) (fun candidate hcandidate ↦ ?_) ⟨by decide, .inr ?_⟩
  · rcases List.mem_cons.1 hcandidate with rfl | hcandidate
    · exact wellFormed_densityCandidate (by decide) (by decide) (by decide) (by decide) (by decide)
    · rw [List.mem_singleton.1 hcandidate]
      exact wellFormed_densityCandidate (by decide) (by decide) (by decide) (by decide) (by decide)
  · intro descriptor hdescriptor text htext
    have hdensity : ∀ density : Char, density.isDigit = true → IsDensity [density, 'x'] := by
      intro density hdigit
      refine ⟨[density], rfl, [density], [], [], rfl, .inr ⟨List.cons_ne_nil _ _, ?_⟩, .inl rfl,
        .inl (List.cons_ne_nil _ _), .inl rfl⟩
      intro c hc
      rw [List.mem_singleton.1 hc]
      exact hdigit
    rcases List.mem_cons.1 hdescriptor with rfl | hdescriptor
    · cases htext
      exact hdensity _ (by decide)
    · rw [List.mem_singleton.1 hdescriptor] at htext
      cases htext
      exact hdensity _ (by decide)

/-- A page with files for the URLs, at the top of an archive. -/
def sampleRendering (paths : List (String × String)) : Rendering where
  baseUrl := "https://example.com/"
  paths := paths
  preserveUnmatched := true

def Placement.sample : Placement where
  sourcePath := "index.html"
  aliases := []
  pageAliases := []

theorem isPlain_of_all {text : List Char} (hne : text ≠ [])
    (hall : (text.all fun c ↦ !isSpace c && c != ',') = true) : IsPlain text := by
  refine ⟨hne, fun c hc ↦ ?_, fun hcomma ↦ ?_⟩
  · have hc' := (Bool.and_eq_true_iff.1 (List.all_eq_true.1 hall c hc)).1
    rwa [Bool.not_eq_true'] at hc'
  · exact absurd (Bool.and_eq_true_iff.1 (List.all_eq_true.1 hall _ hcomma)).2 (by decide)

theorem archived_srcset_image :
    let rendering := sampleRendering [("https://example.com/a", "a.png"),
      ("https://example.com/b", "b.png")]
    let kept := if true = true then imageCandidates.filter fun candidate ↦
      isCapturedUrl Platform.sample rendering candidate.url else imageCandidates
    (kept = [] ∧ archivedSrcset Platform.sample rendering .sample true imageSrcset = none) ∨
      ∃ result, archivedSrcset Platform.sample rendering .sample true imageSrcset = some result ∧
        IsSrcset result (kept.map (mapUrl (archivedReference Platform.sample rendering .sample))) := by
  refine archived_srcset Platform.sample _ .sample true imageSrcset imageCandidates
    isSrcset_imageSrcset fun candidate hcandidate ↦ ?_
  rcases List.mem_cons.1 hcandidate with rfl | hcandidate
  · exact ⟨isPlain_of_all (by decide +kernel) (by decide +kernel),
      isPlain_of_all (by decide +kernel) (by decide +kernel),
      isPlain_of_all (by decide +kernel) (by decide +kernel)⟩
  · rw [List.mem_singleton.1 hcandidate]
    exact ⟨isPlain_of_all (by decide +kernel) (by decide +kernel),
      isPlain_of_all (by decide +kernel) (by decide +kernel),
      isPlain_of_all (by decide +kernel) (by decide +kernel)⟩

/-- The second candidate of a captured image was not captured and is left out. -/
theorem candidate_left_out :
    ¬ ∀ (rendering : Rendering) (placement : Placement) (captured : Bool) (value : List Char)
      (candidates : List ImageCandidate), IsSrcset value candidates →
        ∃ result, archivedSrcset Platform.sample rendering placement captured value = some result ∧
          IsSrcset result (candidates.map
            (mapUrl (archivedReference Platform.sample rendering placement))) := by
  intro h
  obtain ⟨result, hresult, layouts, -, hcandidates, -, -, hvalue, -⟩ :=
    h (sampleRendering [("https://example.com/a", "a.png")]) .sample true imageSrcset imageCandidates
      isSrcset_imageSrcset
  have hkept : archivedSrcset Platform.sample (sampleRendering [("https://example.com/a", "a.png")])
      .sample true imageSrcset = some "a.png 1x".toList := by decide +kernel
  rw [hkept] at hresult
  cases hresult
  have hlength := congrArg List.length hcandidates
  rw [List.length_map, List.length_map] at hlength
  have hcomma : ',' ∈ joinWith [','] (layouts.map Layout.text) := by
    cases layouts with
    | nil => cases hlength
    | cons first rest =>
      cases rest with
      | nil => cases hlength
      | cons second rest =>
        rw [List.map_cons, List.map_cons, joinWith_cons_cons]
        exact List.mem_append_left _ (List.mem_append_right _ (List.mem_singleton_self _))
  rw [hvalue] at hcomma
  exact absurd hcomma (by decide)

end WebLens.SiteArchive
