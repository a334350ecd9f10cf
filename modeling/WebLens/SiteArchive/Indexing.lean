import WebLens.SiteArchive.Files
import WebLens.StaticClone.Lookups

/-!
# The files of all pages

The first loop of `buildSiteArchives`: every file of every page gets the path that it is stored
under, and every captured URL the path of its first file. A stylesheet is stored under a path of its
content and its URL, and other files with equal content and an equal kind under the path of the
first of them.
-/

set_option autoImplicit false
set_option relaxedAutoImplicit false

namespace WebLens.SiteArchive

open Lib Lib.PosixPath
open Lib.Utf8 (ByteString)
open StaticClone

/-! ### Pages -/

/-- A page of a site with the plan of its static clone. -/
structure SitePage (p : Platform) where
  finalUrl : String
  resources : List CloneInputResource
  htmlBytes : ℕ
  options : StaticClonePlanOptions
  plan : StaticClonePlan
  planned : planStaticClone p finalUrl resources htmlBytes options = some plan
  html : ByteString

/-- The resources of a page that its bundle has files for. -/
def SitePage.bundled {p : Platform} (page : SitePage p) : List PlannedResource :=
  (built p page.plan page.html).selected.map Prod.fst

/-- A resource of a bundle. -/
structure IndexedFile where
  localPath : String
  sourceUrl : String
  contentType : String
  hash : String
deriving DecidableEq

section Loop

variable (p : Platform)

/-- A resource as its bundle is read: a stylesheet is bundled with its original bytes. -/
def indexedFile (resource : PlannedResource) : Option IndexedFile := do
  let path ← resource.localPath
  let body ← resource.body
  let localPath ← safeArchivePath p path
  some {
    localPath := localPath
    sourceUrl := resource.sourceUrl
    contentType := if resource.mimeType = "" then "application/octet-stream" else resource.mimeType
    hash := p.sha256 body }

/-- The resources of all pages. -/
def siteFiles (pages : List (SitePage p)) : Option (List IndexedFile) :=
  (pages.flatMap SitePage.bundled).mapM (indexedFile p)

/-! ### The loop -/

/-- `normalizeSourceUrl`. -/
def normalizeSourceUrl (raw : String) : String :=
  (normalizeResourceUrl p raw).getD raw

def isStyle (file : IndexedFile) : Bool :=
  isStylesheet p file.contentType file.localPath

/-- What the path of a stylesheet is the hash of. -/
def contextOf (file : IndexedFile) : String :=
  file.hash ++ "\n" ++ normalizeSourceUrl p file.sourceUrl

/-- The path of a stylesheet. -/
def contextualPath (file : IndexedFile) : String :=
  "assets/" ++ p.sha256 (Utf8.ofText (contextOf p file)) ++ ".css"

/-- The extension of a file, or its MIME type. -/
def representation (file : IndexedFile) : String :=
  if lowerCase (extname file.localPath) ≠ "" then lowerCase (extname file.localPath)
  else if mimeOf p file.contentType ≠ "" then mimeOf p file.contentType
  else "application/octet-stream"

def fileKey (file : IndexedFile) : String :=
  file.hash ++ "\n" ++ representation p file

/-- The variables of the loop; `stored` has the paths of the files that it has passed. -/
structure Indexing where
  canonical : List (String × String) := []
  resourceAliases : List (String × String) := []
  sourcePaths : List (String × String) := []
  stored : List String := []

/-- The path that a file is stored under, when another file stands for it. -/
def canonicalOf (s : Indexing) (file : IndexedFile) : Option String :=
  (s.canonical.lookup (fileKey p file)).filter fun path ↦
    decide (path ≠ "") && decide (lowerCase path ≠ lowerCase file.localPath)

/-- A file is stored, and is the one of its URL if that has none. -/
def Indexing.store (s : Indexing) (url path : String) : Indexing :=
  { s with
    sourcePaths := if (s.sourcePaths.lookup url).isSome = true then s.sourcePaths
      else s.sourcePaths ++ [(url, path)]
    stored := s.stored ++ [path] }

/-- One round of the loop. -/
def indexFile (s : Indexing) (file : IndexedFile) : Indexing :=
  let url := normalizeSourceUrl p file.sourceUrl
  if isStyle p file = true then s.store url (contextualPath p file)
  else match canonicalOf p s file with
  | some canonical =>
    Indexing.store { s with
      resourceAliases := (lowerCase file.localPath, canonical) :: s.resourceAliases } url canonical
  | none =>
    Indexing.store { s with canonical := (fileKey p file, file.localPath) :: s.canonical } url
      file.localPath

def indexFiles (files : List IndexedFile) : Indexing :=
  files.foldl (indexFile p) {}

/-! ### What the loop finds -/

/-- A file that is no stylesheet and has the key. -/
def hasKey (key : String) (file : IndexedFile) : Bool :=
  !isStyle p file && decide (fileKey p file = key)

/-- The path of the first file with the key of a file, ignoring case. -/
def leaderPath (files : List IndexedFile) (file : IndexedFile) : Option String :=
  (files.find? (hasKey p (fileKey p file))).map fun leader ↦ lowerCase leader.localPath

/-- The path that a file is stored under, ignoring case. -/
def storedPath (files : List IndexedFile) (file : IndexedFile) : Option String :=
  if isStyle p file = true then some (lowerCase (contextualPath p file))
  else leaderPath p files file

/-- Two files are stored as one: stylesheets with equal bytes and URLs, or other files whose kinds
have one first file. -/
def StoredTogether (files : List IndexedFile) (file other : IndexedFile) : Prop :=
  isStyle p file = true ∧ isStyle p other = true ∧ contextOf p file = contextOf p other ∨
    isStyle p file = false ∧ isStyle p other = false ∧
      leaderPath p files file = leaderPath p files other

/-- What the loop knows after some files. -/
structure Indexed (files : List IndexedFile) (s : Indexing) : Prop where
  canonical : ∀ key, (s.canonical.lookup key).map lowerCase =
    (files.find? (hasKey p key)).map fun leader ↦ lowerCase leader.localPath
  length : s.stored.length = files.length
  stored : ∀ (j : ℕ) file path, files[j]? = some file → s.stored[j]? = some path →
    some (lowerCase path) = storedPath p files file
  sources : ∀ url, s.sourcePaths.lookup url =
    ((files.zip s.stored).find? fun entry ↦ normalizeSourceUrl p entry.1.sourceUrl = url).map
      Prod.snd

end Loop

variable {p : Platform} {files : List IndexedFile} {s : Indexing}

theorem find?_concat_of_isSome {α : Type} {test : α → Bool} {list : List α}
    (h : (list.find? test).isSome = true) (last : α) :
    (list ++ [last]).find? test = list.find? test := by
  obtain ⟨found, hfound⟩ := Option.isSome_iff_exists.1 h
  rw [List.find?_append, hfound, Option.some_or]

theorem isSome_leader {file : IndexedFile} (hmem : file ∈ files) (hstyle : isStyle p file = false) :
    (files.find? (hasKey p (fileKey p file))).isSome = true := by
  refine List.find?_isSome.2 ⟨file, hmem, ?_⟩
  unfold hasKey
  rw [hstyle, decide_eq_true rfl]
  rfl

theorem storedPath_concat {file : IndexedFile} (hmem : file ∈ files) (last : IndexedFile) :
    storedPath p (files ++ [last]) file = storedPath p files file := by
  unfold storedPath
  by_cases hstyle : isStyle p file = true
  · rw [if_pos hstyle, if_pos hstyle]
  · rw [if_neg hstyle, if_neg hstyle]
    unfold leaderPath
    rw [find?_concat_of_isSome (isSome_leader hmem (Bool.eq_false_iff.2 hstyle))]

/-- A file that is stored under a path. -/
theorem Indexed.store (h : Indexed p files s) {file : IndexedFile} {path : String}
    {canonical aliases : List (String × String)}
    (hcanonical : ∀ key, (canonical.lookup key).map lowerCase =
      ((files ++ [file]).find? (hasKey p key)).map fun leader ↦ lowerCase leader.localPath)
    (hpath : some (lowerCase path) = storedPath p (files ++ [file]) file) :
    Indexed p (files ++ [file]) (Indexing.store
      { s with canonical := canonical, resourceAliases := aliases }
      (normalizeSourceUrl p file.sourceUrl) path) where
  canonical := hcanonical
  length := by
    show (s.stored ++ [path]).length = _
    rw [List.length_append, List.length_append, h.length]
    rfl
  stored j other path' hother hpath' := by
    have hpath' : (s.stored ++ [path])[j]? = some path' := hpath'
    by_cases hj : j < files.length
    · rw [List.getElem?_append_left hj] at hother
      rw [List.getElem?_append_left (by rw [h.length]; exact hj)] at hpath'
      rw [storedPath_concat (List.mem_of_getElem? hother)]
      exact h.stored j other path' hother hpath'
    · have hlt := (List.getElem?_eq_some_iff.1 hother).1
      rw [List.length_append, List.length_singleton] at hlt
      have heq : j = files.length := by omega
      subst heq
      rw [List.getElem?_concat_length] at hother
      rw [← h.length, List.getElem?_concat_length] at hpath'
      cases hother
      cases hpath'
      exact hpath
  sources url := by
    show (if (s.sourcePaths.lookup (normalizeSourceUrl p file.sourceUrl)).isSome = true then
      s.sourcePaths else s.sourcePaths ++ [(normalizeSourceUrl p file.sourceUrl, path)]).lookup url =
        (((files ++ [file]).zip (s.stored ++ [path])).find? _).map Prod.snd
    rw [List.zip_append h.length.symm, List.find?_append, Option.map_or, ← h.sources]
    have hlast : ((List.zip [file] [path]).find? fun entry ↦
        normalizeSourceUrl p entry.1.sourceUrl = url).map Prod.snd =
          if normalizeSourceUrl p file.sourceUrl = url then some path else none := by
      show ((List.find? _ [(file, path)]).map Prod.snd) = _
      rw [List.find?_singleton]
      by_cases hurl : normalizeSourceUrl p file.sourceUrl = url
      · rw [if_pos hurl, if_pos (by exact decide_eq_true hurl)]
        rfl
      · rw [if_neg hurl, if_neg (by exact fun h ↦ hurl (of_decide_eq_true h))]
        rfl
    rw [hlast]
    by_cases hurl : normalizeSourceUrl p file.sourceUrl = url
    · subst hurl
      rw [if_pos rfl]
      by_cases hsome : (s.sourcePaths.lookup (normalizeSourceUrl p file.sourceUrl)).isSome = true
      · rw [if_pos hsome, Option.or_of_isSome hsome]
      · rw [if_neg hsome, List.lookup_append, Option.not_isSome_iff_eq_none.1 hsome,
          List.lookup_cons, beq_self_eq_true]
    · rw [if_neg hurl, Option.or_none]
      by_cases hsome : (s.sourcePaths.lookup (normalizeSourceUrl p file.sourceUrl)).isSome = true
      · rw [if_pos hsome]
      · rw [if_neg hsome, List.lookup_append, List.lookup_cons, beq_false_of_ne (Ne.symm hurl)]
        exact Option.or_none

/-- A file that is no stylesheet leaves the leaders as they are, or leads its kind. -/
theorem find?_hasKey_concat (key : String) (file : IndexedFile) :
    (files ++ [file]).find? (hasKey p key) =
      (files.find? (hasKey p key)).or (if hasKey p key file = true then some file else none) := by
  rw [List.find?_append, List.find?_singleton]

theorem Indexed.indexFile (h : Indexed p files s) {file : IndexedFile}
    (hfiles : ∀ other ∈ files, other.localPath ≠ "") :
    Indexed p (files ++ [file]) (indexFile p s file) := by
  unfold SiteArchive.indexFile
  by_cases hstyle : isStyle p file = true
  · dsimp only
    rw [if_pos hstyle]
    refine h.store (fun key ↦ ?_) ?_
    · have hkey : hasKey p key file = false := by
        unfold hasKey
        rw [hstyle]
        rfl
      rw [find?_hasKey_concat, hkey, if_neg Bool.false_ne_true, Option.or_none]
      exact h.canonical key
    · unfold storedPath
      rw [if_pos hstyle]
  · have hplain : isStyle p file = false := Bool.eq_false_iff.2 hstyle
    have hown : hasKey p (fileKey p file) file = true := by
      unfold hasKey
      rw [hplain, decide_eq_true rfl]
      rfl
    have hleader := h.canonical (fileKey p file)
    have hlookup_ne : ∀ path, s.canonical.lookup (fileKey p file) = some path → path ≠ "" := by
      rintro path hpath rfl
      rw [hpath, Option.map_some] at hleader
      obtain ⟨leader, hfind, hlower⟩ := Option.map_eq_some_iff.1 hleader.symm
      have hempty : lowerCase leader.localPath = "" := hlower
      unfold lowerCase at hempty
      have hnil := List.map_eq_nil_iff.1 (String.ofList_eq_empty_iff.1 hempty)
      exact hfiles leader (List.mem_of_find?_eq_some hfind) (String.toList_eq_nil_iff.1 hnil)
    dsimp only
    rw [if_neg hstyle]
    cases hcanonical : canonicalOf p s file with
    | some canonical =>
      unfold canonicalOf at hcanonical
      obtain ⟨hlookup, -⟩ := Option.filter_eq_some_iff.1 hcanonical
      rw [hlookup, Option.map_some] at hleader
      obtain ⟨leader, hfind, -⟩ := Option.map_eq_some_iff.1 hleader.symm
      refine h.store (fun key ↦ ?_) ?_
      · rw [find?_hasKey_concat]
        by_cases hkey : hasKey p key file = true
        · have heq : fileKey p file = key := by
            unfold hasKey at hkey
            exact of_decide_eq_true (Bool.and_eq_true_iff.1 hkey).2
          rw [← heq, hfind, Option.some_or, ← hfind]
          exact h.canonical _
        · rw [if_neg hkey, Option.or_none]
          exact h.canonical key
      · unfold storedPath leaderPath
        rw [if_neg hstyle, find?_concat_of_isSome (by rw [hfind]; rfl)]
        exact hleader
    | none =>
      have hsame : ∀ path, s.canonical.lookup (fileKey p file) = some path →
          lowerCase path = lowerCase file.localPath := by
        intro path hpath
        unfold canonicalOf at hcanonical
        rw [hpath] at hcanonical
        by_contra hdistinct
        rw [Option.filter_some_pos (by
          rw [decide_eq_true (hlookup_ne path hpath), decide_eq_true hdistinct]
          rfl)] at hcanonical
        cases hcanonical
      have hfirst : ((files ++ [file]).find? (hasKey p (fileKey p file))).map
          (fun leader ↦ lowerCase leader.localPath) = some (lowerCase file.localPath) := by
        rw [find?_hasKey_concat, if_pos hown]
        cases hfind : files.find? (hasKey p (fileKey p file)) with
        | none => rfl
        | some leader =>
          rw [hfind, Option.map_some] at hleader
          obtain ⟨path, hpath, hlower⟩ := Option.map_eq_some_iff.1 hleader
          rw [Option.some_or, Option.map_some, ← hlower, hsame path hpath]
      refine h.store (fun key ↦ ?_) ?_
      · rw [List.lookup_cons]
        by_cases heq : key = fileKey p file
        · rw [heq, beq_self_eq_true, hfirst]
          rfl
        · have hkey : hasKey p key file = false := by
            unfold hasKey
            rw [decide_eq_false fun h ↦ heq h.symm, Bool.and_false]
          rw [beq_false_of_ne heq, find?_hasKey_concat, hkey, if_neg Bool.false_ne_true,
            Option.or_none]
          exact h.canonical key
      · unfold storedPath leaderPath
        rw [if_neg hstyle]
        exact hfirst.symm

theorem indexed_indexFiles (hfiles : ∀ file ∈ files, file.localPath ≠ "") :
    Indexed p files (indexFiles p files) := by
  induction files using List.reverseRecOn with
  | nil =>
    exact ⟨fun _ ↦ rfl, rfl, fun _ _ _ h ↦ (by cases h), fun _ ↦ rfl⟩
  | append_singleton files last ih =>
    unfold indexFiles
    rw [List.foldl_append]
    exact (ih fun file hfile ↦ hfiles file (List.mem_append_left _ hfile)).indexFile
      fun file hfile ↦ hfiles file (List.mem_append_left _ hfile)

end WebLens.SiteArchive
