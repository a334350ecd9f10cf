import WebLens.StaticClone.Manifest
import WebLens.StaticClone.Targets

/-!
# Dangling references

References to a file are written when the plan is made and when a stylesheet is packaged. The build
may still drop the file: its budgets count the rewritten document and the rewritten stylesheets, the
plan counted the original ones. No reference dangles if and only if every file that is referred to
fits the budgets of the build.
-/

set_option autoImplicit false
set_option relaxedAutoImplicit false

namespace WebLens.StaticClone

open Lib Lib.PosixPath
open Lib.Utf8 (ByteString)

/-! ### References that are written -/

/-- The resources of the plan as the loop finds them in a round. -/
def resourcesAt (p : Platform) (plan : StaticClonePlan) (html : ByteString) (round : ℕ) :
    List PlannedResource :=
  (buildRounds p plan html round).done ++ plan.resources.drop round

/-- A stylesheet that becomes a file in a round. -/
structure PackagedStylesheet (p : Platform) (plan : StaticClonePlan) (html : ByteString)
    (round : ℕ) (resource : PlannedResource) (path : String) (body : ByteString) : Prop where
  planned : PlannedAt plan round resource path body
  stylesheet : resource.resourceType = "stylesheet"
  fits : Fits p plan html round resource path body
  fresh : lowerCase path ∉ (buildRounds p plan html round).selectedPaths

/-- A packaged stylesheet refers to a path. -/
def StylesheetRefersTo (p : Platform) (plan : StaticClonePlan) (html : ByteString)
    (path : String) : Prop :=
  ∃ round resource own body raw, PackagedStylesheet p plan html round resource own body ∧
    raw ∈ referencesOf (rewriteReference p (resourcesAt p plan html round) resource.sourceUrl own)
      (p.decodeUtf8 body) ∧
    cssTarget p (resourcesAt p plan html round) resource.sourceUrl raw = some path

/-- The document, or a packaged stylesheet, refers to a path. -/
def Refers (p : Platform) (plan : StaticClonePlan) (html : ByteString) (path : String) : Prop :=
  (∃ url, (plan.replacements.lookup url).isSome = true ∧
    lastTarget p url plan.resources = some path) ∨ StylesheetRefersTo p plan html path

/-- Every local path that the replacements or a rewritten stylesheet put into the output is the path
of a file of the archive. -/
structure NoDangling (p : Platform) (plan : StaticClonePlan) (html : ByteString)
    (archive : List ArchivedFile) : Prop where
  document : ∀ url reference, plan.replacements.lookup url = some reference →
    ∃ path, reference = relativeArchivePath plan.mainPath path ∧
      lastTarget p url plan.resources = some path ∧ path ∈ archive.map Prod.fst
  stylesheets : ∀ path, StylesheetRefersTo p plan html path → path ∈ archive.map Prod.fst

/-- A resource with the path fits the budgets of the build when its turn comes. -/
def SomeFits (p : Platform) (plan : StaticClonePlan) (html : ByteString) (path : String) : Prop :=
  ∃ round resource body, PlannedAt plan round resource path body ∧
    Fits p plan html round resource path body

variable {p : Platform} {plan : StaticClonePlan} {html : ByteString}

/-- A path of the resources that the loop finds is a path of the plan. -/
theorem exists_plannedAt (hsound : plan.Sound) {round : ℕ} (hround : round ≤ plan.resources.length)
    {left : PlannedResource} {path : String} (hleft : left ∈ resourcesAt p plan html round)
    (hpath : left.localPath = some path) :
    ∃ m resource body, PlannedAt plan m resource path body := by
  have hplanned : ∀ resource ∈ plan.resources, resource.localPath = some path →
      ∃ m resource body, PlannedAt plan m resource path body := by
    intro resource hresource hresourcePath
    obtain ⟨m, hm⟩ := List.mem_iff_getElem?.1 hresource
    obtain ⟨body, hbody⟩ := Option.isSome_iff_exists.1
      (hsound.body resource hresource path hresourcePath).1
    exact ⟨m, resource, body, hm, hresourcePath, hbody⟩
  rcases List.mem_append.1 hleft with hdone | hrest
  · have hbuilt := built_buildRounds p html hsound hround
    obtain ⟨m, hm⟩ := List.mem_iff_getElem?.1 hdone
    have hlt := (List.getElem?_eq_some_iff.1 hm).1
    rw [hbuilt.length] at hlt
    have hat : plan.resources[m]? = some plan.resources[m] :=
      List.getElem?_eq_getElem (Nat.lt_of_lt_of_le hlt hround)
    obtain ⟨left', hleft', hleaves⟩ := hbuilt.left m _ hlt hat
    rw [hm] at hleft'
    cases hleft'
    rcases hleaves with ⟨rfl, -⟩ | ⟨path', body, reason, -, -, rfl⟩
    · exact hplanned _ (List.getElem_mem _) hpath
    · cases hpath
  · exact hplanned left (List.mem_of_mem_drop hrest) hpath

/-- A path that is referred to is a path of the plan. -/
theorem Refers.plannedAt (hsound : plan.Sound) {path : String} (h : Refers p plan html path) :
    ∃ m resource body, PlannedAt plan m resource path body := by
  rcases h with ⟨url, -, hlast⟩ | ⟨round, resource, own, body, raw, hpackaged, -, htarget⟩
  · obtain ⟨resource, hresource, -, hpath⟩ := exists_of_lastTarget hlast
    obtain ⟨m, hm⟩ := List.mem_iff_getElem?.1 hresource
    obtain ⟨body, hbody⟩ := Option.isSome_iff_exists.1 (hsound.body _ hresource path hpath).1
    exact ⟨m, resource, body, hm, hpath, hbody⟩
  · obtain ⟨left, hleft, hpath⟩ := exists_of_cssTarget htarget
    have hlt := (List.getElem?_eq_some_iff.1 hpackaged.planned.at_round).1
    exact exists_plannedAt hsound (Nat.le_of_lt hlt) hleft hpath

/-- A planned path is in the archive if and only if a resource with it fits the budgets. -/
theorem mem_archivedFiles_iff (writer : ArchiveWriter) (hsound : plan.Sound) {path : String}
    (hplanned : ∃ m resource body, PlannedAt plan m resource path body) :
    path ∈ (archivedFiles p writer plan html).map Prod.fst ↔ SomeFits p plan html path := by
  obtain ⟨m, resource, body, hplanned⟩ := hplanned
  have hslash := (hsound.path resource (List.mem_of_getElem? hplanned.at_round) path
    hplanned.path).1
  have hno : '/' ∉ "manifest.json".toList := by decide
  refine Iff.trans ?_ (mem_contentFiles_iff hsound hplanned)
  unfold archivedFiles
  rw [List.map_append, List.mem_append]
  refine or_iff_left fun hmanifest ↦ hno ?_
  rw [List.map_singleton, List.mem_singleton] at hmanifest
  have hpath : path = "manifest.json" := hmanifest
  rwa [hpath] at hslash

theorem noDangling_archivedFiles_iff (hsound : plan.Sound) (writer : ArchiveWriter)
    (hreplacements : ∀ url, plan.replacements.lookup url =
      (lastTarget p url plan.resources).map (relativeArchivePath plan.mainPath)) :
    NoDangling p plan html (archivedFiles p writer plan html) ↔
      ∀ path, Refers p plan html path → SomeFits p plan html path := by
  constructor
  · intro h path hrefers
    rw [← mem_archivedFiles_iff writer hsound (hrefers.plannedAt hsound)]
    rcases hrefers with ⟨url, hsome, hlast⟩ | hstylesheet
    · obtain ⟨reference, hreference⟩ := Option.isSome_iff_exists.1 hsome
      obtain ⟨path', -, hlast', hmem⟩ := h.document url reference hreference
      rw [hlast] at hlast'
      cases hlast'
      exact hmem
    · exact h.stylesheets path hstylesheet
  · intro hfits
    refine ⟨fun url reference hreference ↦ ?_, fun path hstylesheet ↦ ?_⟩
    · have hlookup := hreplacements url
      rw [hreference] at hlookup
      obtain ⟨path, hlast, heq⟩ := Option.map_eq_some_iff.1 hlookup.symm
      have hrefers : Refers p plan html path :=
        .inl ⟨url, by rw [hreference]; rfl, hlast⟩
      exact ⟨path, heq.symm, hlast,
        (mem_archivedFiles_iff writer hsound (hrefers.plannedAt hsound)).2 (hfits path hrefers)⟩
    · have hrefers : Refers p plan html path := .inr hstylesheet
      exact (mem_archivedFiles_iff writer hsound (hrefers.plannedAt hsound)).2 (hfits path hrefers)

theorem noDangling_archive_iff (hhex : p.HexDigest) {writer : ArchiveWriter} {finalUrl : String}
    {resources : List CloneInputResource} {htmlBytes : ℕ} {options : StaticClonePlanOptions}
    (hplan : planStaticClone p finalUrl resources htmlBytes options = some plan)
    {bundleOnly : Bool} {archive : List ArchivedFile}
    (h : (buildStaticClone p writer plan html bundleOnly).archive = some archive) :
    NoDangling p plan html archive ↔
      ∀ path, Refers p plan html path → SomeFits p plan html path := by
  obtain ⟨-, rfl, -⟩ := buildStaticClone_archive h
  exact noDangling_archivedFiles_iff (sound_planStaticClone hhex hplan) writer
    (lookup_replacements hplan)

/-- No reference of an archive dangles if and only if every path that the document or a packaged
stylesheet refers to has a resource that fits the budgets of the build. -/
theorem no_dangling_iff (p : Platform) (hhex : p.HexDigest) (writer : ArchiveWriter)
    (finalUrl : String) (resources : List CloneInputResource) (htmlBytes : ℕ)
    (options : StaticClonePlanOptions) (plan : StaticClonePlan)
    (hplan : planStaticClone p finalUrl resources htmlBytes options = some plan)
    (html : ByteString) (bundleOnly : Bool) (archive : List ArchivedFile)
    (h : (buildStaticClone p writer plan html bundleOnly).archive = some archive) :
    NoDangling p plan html archive ↔
      ∀ path, Refers p plan html path → SomeFits p plan html path :=
  noDangling_archive_iff hhex hplan h

theorem no_dangling_iff_shared :
    NoDangling Platform.sample .shared [0x3C]
        (archivedFiles Platform.sample .sample .shared [0x3C]) ↔
      ∀ path, Refers Platform.sample .shared [0x3C] path →
        SomeFits Platform.sample .shared [0x3C] path :=
  no_dangling_iff Platform.sample Platform.hexDigest_sample .sample "https://example.com/"
    [.sample "https://example.com/a.js", .sample "https://example.com/b.js"] 20
    { mainPath := some "index.html", contentAddressedResources := true } .shared
    planStaticClone_shared [0x3C] false _ rfl

/-- With a document that leaves no room, no script fits. -/
theorem not_someFits_of_length (hhtml : html.length = 52_428_800) :
    ¬ SomeFits Platform.sample .shared html scriptPath := by
  have hsound := sound_planStaticClone Platform.hexDigest_sample planStaticClone_shared
  rintro ⟨round, resource, body, hplanned, hfits⟩
  have hlength : body.length = 1 := by
    have hresource := List.mem_of_getElem? hplanned.at_round
    have hbodies : ∀ resource ∈ StaticClonePlan.shared.resources,
        resource.body = some [0x3B] := by
      intro resource hresource
      rcases List.mem_cons.1 hresource with rfl | hresource
      · rfl
      · rw [List.mem_singleton.1 hresource]
        rfl
    have hbody := hplanned.body
    rw [hbodies resource hresource] at hbody
    cases hbody
    rfl
  have hround := (List.getElem?_eq_some_iff.1 hplanned.at_round).1
  have hbytes := (built_buildRounds Platform.sample html hsound
    (Nat.le_of_lt hround)).bytes
  have hroom := hfits.2.1
  rw [hlength, hbytes, hhtml] at hroom
  have hlimit : ¬ 52_428_800 < maxInputBytes := by decide
  omega

/-- The rewritten document leaves no room for a script that it refers to. -/
theorem reference_dangles :
    ¬ ∀ (writer : ArchiveWriter) (finalUrl : String) (resources : List CloneInputResource)
      (htmlBytes : ℕ) (options : StaticClonePlanOptions) (plan : StaticClonePlan)
      (html : ByteString) (archive : List ArchivedFile),
      planStaticClone Platform.sample finalUrl resources htmlBytes options = some plan →
        (buildStaticClone Platform.sample writer plan html false).archive = some archive →
          NoDangling Platform.sample plan html archive := by
  intro h
  obtain ⟨html, hhtml⟩ : ∃ html : ByteString, html.length = 52_428_800 :=
    ⟨List.replicate 52_428_800 0x20, List.length_replicate⟩
  obtain ⟨archive, harchive⟩ := exists_archive_sample .shared html
    (by rw [hhtml]; decide)
  have hfits := (noDangling_archive_iff Platform.hexDigest_sample planStaticClone_shared
    harchive).1 (h _ _ _ _ _ _ html archive planStaticClone_shared harchive)
  refine not_someFits_of_length hhtml (hfits scriptPath (.inl ⟨"https://example.com/a.js", ?_, ?_⟩))
  · decide +kernel
  · decide +kernel

end WebLens.StaticClone
