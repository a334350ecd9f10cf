import WebLens.SiteArchive.Indexing
import WebLens.StaticClone.Rendered

/-!
# Where a captured URL leads

The document of a page, the stylesheets of its static clone and the stylesheets of a site archive
look a captured URL up in three ways: the last capture of the page, its first capture, and the first
file of the URL in all pages. They lead to one file exactly when these captures have one file.
-/

set_option autoImplicit false
set_option relaxedAutoImplicit false

namespace WebLens.SiteArchive

open Lib Lib.PosixPath
open Lib.Utf8 (ByteString)
open StaticClone

/-! ### Stylesheets of a site archive -/

section Stylesheets

variable (p : Platform) (sourcePaths aliases : List (String × String))
  (cssSourceUrl cssLocalPath : String)

/-- `rewriteRef` of `rewriteCssWithSourceUrls`. -/
def siteReference (raw : String) : String :=
  if raw = "" ∨ raw.toList.head? = some '#' ∨
      hasScheme ["data", "blob", "about", "javascript"] raw = true then raw
  else match p.newUrlFrom raw cssSourceUrl with
  | none => raw
  | some url =>
    let resolved := p.toString (p.setHash url "")
    match (sourcePaths.lookup (normalizeSourceUrl p resolved)).filter fun path ↦ path ≠ "" with
    | none => sanitizeUrl p resolved ++ p.hash url
    | some localPath =>
      relativeArchivePath cssLocalPath ((aliases.lookup (lowerCase localPath)).getD localPath) ++
        p.hash url

/-- `rewriteCssWithSourceUrls`. -/
def rewriteCssWithSourceUrls (contentType : String) (body : ByteString) : ByteString :=
  if isStylesheet p contentType cssLocalPath = true then
    Utf8.ofText (rewriteCssText (siteReference p sourcePaths aliases cssSourceUrl cssLocalPath)
      (p.decodeUtf8 body))
  else body

end Stylesheets

/-! ### Paths of stored files -/

variable {p : Platform} {files : List IndexedFile}

theorem safeArchivePath_ne_empty {value path : String} (h : safeArchivePath p value = some path) :
    path ≠ "" := by
  unfold safeArchivePath at h
  dsimp only at h
  split_ifs at h with hunsafe hchars
  have hne : cleanArchivePath p value ≠ "" := fun hempty ↦ hunsafe (.inl hempty)
  rintro rfl
  have htake := String.ofList_eq_empty_iff.1 (Option.some.inj h)
  rcases List.take_eq_nil_iff.1 htake with hzero | hnil
  · exact absurd hzero (by decide)
  · exact hne (String.toList_eq_nil_iff.1 hnil)

theorem mem_of_mapM {α β : Type} {f : α → Option β} {list : List α} :
    ∀ {images : List β}, list.mapM f = some images →
      (∀ a ∈ list, ∃ b ∈ images, f a = some b) ∧ ∀ b ∈ images, ∃ a ∈ list, f a = some b := by
  induction list with
  | nil =>
    intro images h
    cases h
    exact ⟨fun a ha ↦ absurd ha List.not_mem_nil, fun b hb ↦ absurd hb List.not_mem_nil⟩
  | cons head rest ih =>
    intro images h
    rw [List.mapM_cons] at h
    obtain ⟨image, himage, h⟩ := Option.bind_eq_some_iff.1 h
    obtain ⟨tail, htail, h⟩ := Option.bind_eq_some_iff.1 h
    cases h
    obtain ⟨hforth, hback⟩ := ih htail
    constructor
    · intro a ha
      rcases List.mem_cons.1 ha with rfl | ha
      · exact ⟨image, List.mem_cons_self .., himage⟩
      · obtain ⟨b, hb, hab⟩ := hforth a ha
        exact ⟨b, List.mem_cons_of_mem _ hb, hab⟩
    · intro b hb
      rcases List.mem_cons.1 hb with rfl | hb
      · exact ⟨head, List.mem_cons_self .., himage⟩
      · obtain ⟨a, ha, hab⟩ := hback b hb
        exact ⟨a, List.mem_cons_of_mem _ ha, hab⟩

theorem localPath_ne_empty_of_siteFiles {pages : List (SitePage p)}
    (hfiles : siteFiles p pages = some files) : ∀ file ∈ files, file.localPath ≠ "" := by
  intro file hfile
  obtain ⟨resource, -, hindexed⟩ := (mem_of_mapM hfiles).2 file hfile
  unfold indexedFile at hindexed
  obtain ⟨path, -, hindexed⟩ := Option.bind_eq_some_iff.1 hindexed
  obtain ⟨body, -, hindexed⟩ := Option.bind_eq_some_iff.1 hindexed
  obtain ⟨localPath, hsafe, hindexed⟩ := Option.bind_eq_some_iff.1 hindexed
  cases hindexed
  exact safeArchivePath_ne_empty hsafe

/-- A path that ends in `.css` ignoring case is that of a stylesheet. -/
theorem isStylesheet_of_lowerCase {contentType path front : String}
    (h : lowerCase path = front ++ ".css") : isStylesheet p contentType path = true := by
  have hlist : path.toList.map lowerChar = front.toList ++ ['.', 'c', 's', 's'] := by
    rw [← toList_lowerCase, h, String.toList_append]
    rfl
  obtain ⟨before, last, hsplit, -, hlast⟩ := List.map_eq_append_iff.1 hlist
  have hfold : last.map foldCase = ['.', 'c', 's', 's'] := by
    rw [← hlast]
    refine List.map_congr_left fun c hc ↦ ?_
    unfold foldCase
    by_cases hlong : c = 'ſ'
    · subst hlong
      have hmem : lowerChar 'ſ' ∈ ['.', 'c', 's', 's'] := by
        rw [← hlast]
        exact List.mem_map_of_mem hc
      exact absurd hmem (by decide)
    · rw [if_neg hlong]
  unfold isStylesheet hasExtension
  have hsuffix : ('.' :: "css".toList).isSuffixOf (path.toList.map foldCase) = true := by
    rw [List.isSuffixOf_iff_suffix, hsplit, List.map_append, hfold]
    exact List.suffix_append _ _
  rw [List.any_cons, hsuffix, Bool.true_or, Bool.or_true]

/-- No two contexts of stylesheets have one digest. -/
def ContextsApart (p : Platform) (files : List IndexedFile) : Prop :=
  ∀ file ∈ files, ∀ other ∈ files, isStyle p file = true → isStyle p other = true →
    p.sha256 (Utf8.ofText (contextOf p file)) = p.sha256 (Utf8.ofText (contextOf p other)) →
      contextOf p file = contextOf p other

theorem lowerCase_contextualPath (hhex : p.HexDigest) (file : IndexedFile) :
    lowerCase (contextualPath p file) = contextualPath p file := by
  refine String.toList_inj.1 ?_
  rw [toList_lowerCase]
  unfold contextualPath
  rw [String.toList_append, String.toList_append, List.map_append, List.map_append]
  have hdigits : (p.sha256 (Utf8.ofText (contextOf p file))).toList.map lowerChar =
      (p.sha256 (Utf8.ofText (contextOf p file))).toList := by
    have hall : ("0123456789abcdef".toList.all fun c ↦ decide (lowerChar c = c)) = true := by
      decide
    refine (List.map_congr_left fun c hc ↦ ?_).trans (List.map_id _)
    exact of_decide_eq_true (List.all_eq_true.1 hall c ((hhex _).2 c hc))
  rw [hdigits]
  rfl

/-- The paths of two files are one, ignoring case, if and only if they are stored together. -/
theorem storedPath_eq_iff (hhex : p.HexDigest) (happart : ContextsApart p files)
    {file other : IndexedFile} (hfile : file ∈ files) (hother : other ∈ files) :
    storedPath p files file = storedPath p files other ↔ StoredTogether p files file other := by
  have hmixed : ∀ {style plain : IndexedFile}, isStyle p plain = false → plain ∈ files →
      some (lowerCase (contextualPath p style)) ≠ leaderPath p files plain := by
    intro style plain hplain hmem hequal
    unfold leaderPath at hequal
    obtain ⟨leader, hfind, hlower⟩ := Option.map_eq_some_iff.1 hequal.symm
    rw [lowerCase_contextualPath hhex] at hlower
    unfold contextualPath at hlower
    have hstyle : isStyle p leader = true := isStylesheet_of_lowerCase hlower
    have hkey := List.find?_some hfind
    unfold hasKey at hkey
    rw [hstyle] at hkey
    cases hkey
  unfold storedPath StoredTogether
  by_cases hstyle : isStyle p file = true <;> by_cases hstyle' : isStyle p other = true
  · rw [if_pos hstyle, if_pos hstyle']
    constructor
    · intro hequal
      have hpaths := Option.some.inj hequal
      rw [lowerCase_contextualPath hhex, lowerCase_contextualPath hhex] at hpaths
      unfold contextualPath at hpaths
      have hdigest := String.append_right_inj _ |>.1 (String.append_left_inj _ |>.1 hpaths)
      exact .inl ⟨hstyle, hstyle', happart file hfile other hother hstyle hstyle' hdigest⟩
    · rintro (⟨-, -, hcontext⟩ | ⟨hplain, -⟩)
      · unfold contextualPath
        rw [hcontext]
      · rw [hstyle] at hplain
        cases hplain
  · rw [if_pos hstyle, if_neg hstyle']
    refine iff_of_false (hmixed (Bool.eq_false_iff.2 hstyle') hother) ?_
    rintro (⟨-, htrue, -⟩ | ⟨hplain, -⟩)
    · exact hstyle' htrue
    · rw [hstyle] at hplain
      cases hplain
  · rw [if_neg hstyle, if_pos hstyle']
    refine iff_of_false (hmixed (Bool.eq_false_iff.2 hstyle) hfile).symm ?_
    rintro (⟨htrue, -⟩ | ⟨-, hplain, -⟩)
    · exact hstyle htrue
    · rw [hstyle'] at hplain
      cases hplain
  · rw [if_neg hstyle, if_neg hstyle']
    constructor
    · exact fun hequal ↦ .inr ⟨Bool.eq_false_iff.2 hstyle, Bool.eq_false_iff.2 hstyle', hequal⟩
    · rintro (⟨htrue, -⟩ | ⟨-, -, hequal⟩)
      · exact absurd htrue hstyle
      · exact hequal

/-! ### The three lookups -/

/-- The stylesheets of the site archive refer to the path that a file is stored under. -/
def SiteLeadsTo (p : Platform) (files : List IndexedFile) (url : String) (file : IndexedFile) :
    Prop :=
  ∃ target, (indexFiles p files).sourcePaths.lookup url = some target ∧
    ∀ (j : ℕ) path, files[j]? = some file → (indexFiles p files).stored[j]? = some path →
      lowerCase target = lowerCase path

/-- The first file of a URL is stored with a file. -/
def FirstStoredWith (p : Platform) (files : List IndexedFile) (url : String) (file : IndexedFile) :
    Prop :=
  ∃ first, (files.find? fun other ↦ normalizeSourceUrl p other.sourceUrl = url) = some first ∧
    StoredTogether p files first file

/-- The first of the files, and the path that it is stored under. -/
theorem find?_zip (test : IndexedFile → Bool) :
    ∀ {files : List IndexedFile} {paths : List String}, paths.length = files.length →
      ∀ {entry : IndexedFile × String},
        (files.zip paths).find? (fun entry ↦ test entry.1) = some entry →
          files.find? test = some entry.1 ∧
            ∃ j : ℕ, files[j]? = some entry.1 ∧ paths[j]? = some entry.2
  | [], _, _, _, h => by cases h
  | _ :: _, [], hlength, _, _ => by cases hlength
  | file :: files, path :: paths, hlength, entry, h => by
    rw [List.zip_cons_cons] at h
    by_cases htest : test file = true
    · rw [List.find?_cons_of_pos (by exact htest)] at h
      cases h
      exact ⟨List.find?_cons_of_pos htest, 0, rfl, rfl⟩
    · rw [List.find?_cons_of_neg (by exact htest)] at h
      obtain ⟨hfind, j, hfile, hpath⟩ := find?_zip test (Nat.succ.inj hlength) h
      exact ⟨(List.find?_cons_of_neg htest).trans hfind, j + 1, hfile, hpath⟩

theorem siteLeadsTo_iff (hhex : p.HexDigest) (happart : ContextsApart p files)
    (hfiles : ∀ file ∈ files, file.localPath ≠ "") {url : String} {file : IndexedFile}
    (hfile : file ∈ files) : SiteLeadsTo p files url file ↔ FirstStoredWith p files url file := by
  have hindexed := indexed_indexFiles (p := p) hfiles
  constructor
  · rintro ⟨target, htarget, hstored⟩
    rw [hindexed.sources] at htarget
    obtain ⟨entry, hentry, rfl⟩ := Option.map_eq_some_iff.1 htarget
    obtain ⟨hfirst, i, hi, hipath⟩ := find?_zip
      (fun other ↦ normalizeSourceUrl p other.sourceUrl = url) hindexed.length hentry
    refine ⟨entry.1, hfirst, (storedPath_eq_iff hhex happart (List.mem_of_getElem? hi) hfile).1 ?_⟩
    obtain ⟨j, hj⟩ := List.mem_iff_getElem?.1 hfile
    have hlt := (List.getElem?_eq_some_iff.1 hj).1
    rw [← hindexed.length] at hlt
    have hjpath := List.getElem?_eq_getElem hlt
    rw [← hindexed.stored i _ _ hi hipath, ← hindexed.stored j _ _ hj hjpath,
      hstored j _ hj hjpath]
  · rintro ⟨first, hfirst, htogether⟩
    have hsome : ((files.zip (indexFiles p files).stored).find? fun entry ↦
        normalizeSourceUrl p entry.1.sourceUrl = url).isSome = true := by
      obtain ⟨i, hi⟩ := List.mem_iff_getElem?.1 (List.mem_of_find?_eq_some hfirst)
      have hlt := (List.getElem?_eq_some_iff.1 hi).1
      have hlt' := hlt
      rw [← hindexed.length] at hlt'
      have htest := List.find?_some hfirst
      refine List.find?_isSome.2 ⟨(first, (indexFiles p files).stored[i]), ?_, htest⟩
      have hzip : (files.zip (indexFiles p files).stored)[i]? =
          some (first, (indexFiles p files).stored[i]) := by
        rw [List.getElem?_zip_eq_some]
        exact ⟨hi, List.getElem?_eq_getElem hlt'⟩
      exact List.mem_of_getElem? hzip
    obtain ⟨entry, hentry⟩ := Option.isSome_iff_exists.1 hsome
    obtain ⟨hfirst', i, hi, hipath⟩ := find?_zip
      (fun other ↦ normalizeSourceUrl p other.sourceUrl = url) hindexed.length hentry
    rw [hfirst] at hfirst'
    have heq := Option.some.inj hfirst'
    refine ⟨entry.2, ?_, fun j path hj hpath ↦ ?_⟩
    · rw [hindexed.sources, hentry]
      rfl
    · have hequal := (storedPath_eq_iff hhex happart (List.mem_of_find?_eq_some hfirst) hfile).2
        htogether
      rw [heq, ← hindexed.stored i _ _ hi hipath, ← hindexed.stored j _ _ hj hpath] at hequal
      exact Option.some.inj hequal

/-- The document refers to the last capture of a URL. The stylesheets of the static clone refer to
the same file if and only if the first capture shares it, and the stylesheets of the site archive if
and only if the first file of the URL in all pages is stored with it. -/
theorem lookups_agree_iff (p : Platform) (hhex : p.HexDigest) (pages : List (SitePage p))
    (files : List IndexedFile) (hfiles : siteFiles p pages = some files)
    (happart : ContextsApart p files) (page : SitePage p) (hpage : page ∈ pages)
    (url reference : String) (hurl : page.plan.replacements.lookup url = some reference) :
    ∃ path, reference = relativeArchivePath page.plan.mainPath path ∧
      lastTarget p url page.plan.resources = some path ∧
      (StylesheetsLeadTo p page.plan page.html url path ↔
        FirstSharesLast p page.options page.plan page.html url) ∧
      ∀ resource ∈ page.bundled, resource.localPath = some path →
        ∀ file, indexedFile p resource = some file →
          (SiteLeadsTo p files url file ↔ FirstStoredWith p files url file) := by
  have hlookup := lookup_replacements page.planned url
  rw [hurl] at hlookup
  obtain ⟨path, hlast, heq⟩ := Option.map_eq_some_iff.1 hlookup.symm
  refine ⟨path, heq.symm, hlast, stylesheetsLeadTo_iff hhex page.planned page.html hlast,
    fun resource hresource _ file hfile ↦ ?_⟩
  obtain ⟨indexed, hindexed, hsome⟩ := (mem_of_mapM hfiles).1 resource
    (List.mem_flatMap_of_mem hpage hresource)
  rw [hfile] at hsome
  cases hsome
  exact siteLeadsTo_iff hhex happart (localPath_ne_empty_of_siteFiles hfiles) hindexed

/-! ### A script that changes -/

/-- The SHA-256 of a semicolon, of a less-than sign, and of the context of a stylesheet. -/
def semicolonDigest : String :=
  "41b805ea7ac014e23556e98bb374702a08344268f92489a02f0880849394a1e4"

def signDigest : String :=
  "dabd3aff769f07eb2965401eb029974ebba3407afd02b26ddb564ea5f8efae72"

def styleDigest : String :=
  "eb0917373f5ec2521268ba0677e81f13b83ac70d4bc8ffdcca6aabad92257c55"

/-- A platform with a table of these digests. -/
def Platform.digests : Platform :=
  { StaticClone.Platform.sample with
    sha256 := fun bytes ↦ if bytes = [0x3B] then semicolonDigest
      else if bytes = [0x3C] then signDigest else styleDigest }

theorem hexDigest_digests : Platform.digests.HexDigest := by
  intro bytes
  show (if bytes = [0x3B] then semicolonDigest else if bytes = [0x3C] then signDigest
    else styleDigest).toList.length = 64 ∧ ∀ c ∈ (if bytes = [0x3B] then semicolonDigest
      else if bytes = [0x3C] then signDigest else styleDigest).toList, c ∈ "0123456789abcdef".toList
  split_ifs
  · exact hexDigest_of_all (by decide +kernel) (by decide +kernel)
  · exact hexDigest_of_all (by decide +kernel) (by decide +kernel)
  · exact hexDigest_of_all (by decide +kernel) (by decide +kernel)

/-- A stylesheet, and a script that was captured twice with different bodies. -/
def changingResources : List CloneInputResource := [
  { CloneInputResource.sample "https://example.com/s.css" with
    resourceType := "stylesheet", mimeType := "text/css" },
  .sample "https://example.com/a.js",
  { CloneInputResource.sample "https://example.com/a.js" with body := some [0x3C] }]

def changingPlan : StaticClonePlan where
  finalUrl := "https://example.com/"
  mainPath := "example.com/index.html"
  resources := [
    { CloneInputResource.sample "https://example.com/s.css" with
      resourceType := "stylesheet", mimeType := "text/css"
      localPath := some "example.com/s.css" },
    { CloneInputResource.sample "https://example.com/a.js" with
      localPath := some "example.com/a.js" },
    { CloneInputResource.sample "https://example.com/a.js" with
      body := some [0x3C], localPath := some "example.com/a_1.js" }]
  replacements := [("https://example.com/s.css", "s.css"), ("https://example.com/a.js", "a_1.js")]
  allowExternalVisualResources := false

theorem planStaticClone_changing :
    planStaticClone Platform.digests "https://example.com/" changingResources 1 {} =
      some changingPlan := by
  decide +kernel

def changingPage : SitePage Platform.digests where
  finalUrl := "https://example.com/"
  resources := changingResources
  htmlBytes := 1
  options := {}
  plan := changingPlan
  planned := planStaticClone_changing
  html := [0x3C]

def changingFiles : List IndexedFile :=
  (siteFiles Platform.digests [changingPage]).getD []

theorem siteFiles_changing : siteFiles Platform.digests [changingPage] = some changingFiles := by
  decide +kernel

theorem contextsApart_changing : ContextsApart Platform.digests changingFiles := by
  unfold ContextsApart
  decide +kernel

theorem lookups_agree_iff_changing :
    ∃ path, "a_1.js" = relativeArchivePath "example.com/index.html" path ∧
      lastTarget Platform.digests "https://example.com/a.js" changingPlan.resources = some path ∧
      (StylesheetsLeadTo Platform.digests changingPlan [0x3C] "https://example.com/a.js" path ↔
        FirstSharesLast Platform.digests {} changingPlan [0x3C]
          "https://example.com/a.js") ∧
      ∀ resource ∈ changingPage.bundled, resource.localPath = some path →
        ∀ file, indexedFile Platform.digests resource = some file →
          (SiteLeadsTo Platform.digests changingFiles "https://example.com/a.js" file ↔
            FirstStoredWith Platform.digests changingFiles "https://example.com/a.js" file) :=
  lookups_agree_iff Platform.digests hexDigest_digests [changingPage] changingFiles
    siteFiles_changing contextsApart_changing changingPage (List.mem_singleton_self _)
    "https://example.com/a.js" "a_1.js" (by decide +kernel)

/-- The document refers to the second body of the script, the stylesheet to the first one. -/
theorem captures_diverge :
    planStaticClone Platform.digests "https://example.com/" changingResources 1 {} =
        some changingPlan ∧
      lastTarget Platform.digests "https://example.com/a.js" changingPlan.resources =
        some "example.com/a_1.js" ∧
      ¬ StylesheetsLeadTo Platform.digests changingPlan [0x3C] "https://example.com/a.js"
        "example.com/a_1.js" := by
  refine ⟨planStaticClone_changing, by decide +kernel, fun hleads ↦ ?_⟩
  have hpackaged : PackagedStylesheet Platform.digests changingPlan [0x3C] 0
      changingPlan.resources[0] "example.com/s.css" [0x3B] := by
    refine ⟨⟨rfl, rfl, rfl⟩, rfl, ⟨by decide, by decide, .inr ?_⟩, List.not_mem_nil⟩
    decide +kernel
  have hpaths := hleads 0 _ _ _ hpackaged "https://example.com/a.js"
    "example.com/a.js" (by decide +kernel) (by decide +kernel)
  exact absurd hpaths (by decide)

end WebLens.SiteArchive
