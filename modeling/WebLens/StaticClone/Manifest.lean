import WebLens.StaticClone.Budgets

/-!
# The manifest of a static clone

An entry of the manifest says what became of a resource. It is true except in one case: the budgets
are checked before the loop sees that the path of a resource is a file already, so a resource that
shares a file may be dropped although the file is there.
-/

set_option autoImplicit false
set_option relaxedAutoImplicit false

namespace WebLens.StaticClone

open Lib Lib.PosixPath
open Lib.Utf8 (ByteString)

variable {p : Platform} {plan : StaticClonePlan} {html : ByteString}

/-! ### Entries -/

theorem getElem?_manifestFiles_succ (round : ℕ) :
    (manifestFiles p plan html)[round + 1]? =
      (built p plan html).done[round]?.map (resourceFile p (built p plan html).selected) := by
  unfold manifestFiles resourceFiles
  rw [List.getElem?_cons_succ, List.getElem?_map]

/-- An entry names a file of the archive. -/
structure NamesFile (p : Platform) (files : List ArchivedFile) (file : ManifestFile)
    (path : String) : Prop where
  status : file.status = .packaged
  localPath : file.localPath = some path
  content : ∃ body, (path, body) ∈ files ∧ file.bytes = body.length ∧
    file.sha256 = some (p.sha256 body)

/-- The entry of a resource that the loop left with its path names a file; without a path, it is
skipped. -/
theorem resourceFile_spec (hsound : plan.Sound) {round : ℕ} {resource left : PlannedResource}
    (hround : plan.resources[round]? = some resource)
    (hleft : Leaves p plan html round resource left) :
    (resourceFile p (built p plan html).selected left).truncated = resource.wasTruncated ∧
      ((∃ path body, PlannedAt plan round resource path body ∧
          Fits p plan html round resource path body ∧ left.localPath = some path ∧
            NamesFile p (contentFiles p plan html)
              (resourceFile p (built p plan html).selected left) path) ∨
        (∀ path body, PlannedAt plan round resource path body →
            ¬ Fits p plan html round resource path body) ∧
          left.localPath = none ∧
            (resourceFile p (built p plan html).selected left).status = .skipped) := by
  have hbuilt := built_buildRounds p html hsound (Nat.le_refl _)
  have hnone : ∀ other : PlannedResource, other.localPath = none →
      (resourceFile p (built p plan html).selected other).status = .skipped ∧
        (resourceFile p (built p plan html).selected other).truncated = other.wasTruncated := by
    intro other hother
    unfold resourceFile
    rw [hother]
    cases (built p plan html).selected.find? fun item ↦ decide (item.1.localPath = none) with
    | none => exact ⟨rfl, rfl⟩
    | some item => exact ⟨rfl, rfl⟩
  rcases hleft with ⟨rfl, hfits⟩ | ⟨path, body, reason, hplanned, hfits, rfl⟩
  · cases hpath : left.localPath with
    | none =>
      obtain ⟨hstatus, htruncated⟩ := hnone left hpath
      refine ⟨htruncated, .inr ⟨fun path body hplanned ↦ ?_, rfl, hstatus⟩⟩
      rw [hplanned.path] at hpath
      cases hpath
    | some path =>
      have hmem := List.mem_of_getElem? hround
      obtain ⟨body, hbody⟩ := Option.isSome_iff_exists.1 (hsound.body _ hmem path hpath).1
      have hplanned : PlannedAt plan round left path body := ⟨hround, hpath, hbody⟩
      have hlt := (List.getElem?_eq_some_iff.1 hround).1
      obtain ⟨item, hitem, hitemPath⟩ := (hbuilt.selected path).2
        ⟨round, left, body, hlt, hplanned, hfits path body hplanned⟩
      have hne : path ≠ "" := by
        rintro rfl
        cases (hsound.path left hmem "" hpath).1
      cases hfind : (built p plan html).selected.find? fun item ↦
          decide (item.1.localPath = some path) with
      | none => exact absurd (decide_eq_true hitemPath) (List.find?_eq_none.1 hfind item hitem)
      | some found =>
        have hfound := List.mem_of_find?_eq_some hfind
        have hfoundPath : found.1.localPath = some path :=
          of_decide_eq_true (List.find?_some (p := fun item : PlannedResource × ByteString ↦
            decide (item.1.localPath = some path)) hfind)
        have hfile : resourceFile p (built p plan html).selected left =
            manifestFile p .resource left.sourceUrl path left.resourceType left.mimeType found.2
              left.wasTruncated := by
          unfold resourceFile
          rw [hpath, hfind]
          exact if_neg hne
        rw [hfile]
        refine ⟨rfl, .inl ⟨path, body, hplanned, hfits path body hplanned, rfl, rfl, rfl, found.2,
          ?_, rfl, rfl⟩⟩
        refine List.mem_cons_of_mem _ (List.mem_map.2 ⟨found, hfound, ?_⟩)
        rw [hfoundPath]
        rfl
  · obtain ⟨hstatus, htruncated⟩ := hnone
      { resource with localPath := none, skipReason := some reason } rfl
    refine ⟨htruncated, .inr ⟨fun path' body' hother ↦ ?_, rfl, hstatus⟩⟩
    have hpath := hother.path
    have hbody := hother.body
    rw [hplanned.path] at hpath
    rw [hplanned.body] at hbody
    cases hpath
    cases hbody
    exact hfits

/-- The entry of the resource of a round. -/
theorem exists_entry (p : Platform) (html : ByteString) (hsound : plan.Sound) {round : ℕ} {resource : PlannedResource}
    (hround : plan.resources[round]? = some resource) :
    ∃ file, (manifestFiles p plan html)[round + 1]? = some file ∧
      file.truncated = resource.wasTruncated ∧
        ((∃ path body, PlannedAt plan round resource path body ∧
            Fits p plan html round resource path body ∧
              NamesFile p (contentFiles p plan html) file path) ∨
          (∀ path body, PlannedAt plan round resource path body →
              ¬ Fits p plan html round resource path body) ∧ file.status = .skipped) := by
  have hbuilt := built_buildRounds p html hsound (Nat.le_refl _)
  obtain ⟨left, hleft, hleaves⟩ := hbuilt.left round resource
    (List.getElem?_eq_some_iff.1 hround).1 hround
  obtain ⟨htruncated, hspec⟩ := resourceFile_spec hsound hround hleaves
  refine ⟨resourceFile p (built p plan html).selected left, ?_, htruncated, ?_⟩
  · have hleft' : (built p plan html).done[round]? = some left := hleft
    rw [getElem?_manifestFiles_succ, hleft']
    rfl
  · rcases hspec with ⟨path, body, hplanned, hfits, -, hnames⟩ | ⟨hfits, -, hstatus⟩
    · exact .inl ⟨path, body, hplanned, hfits, hnames⟩
    · exact .inr ⟨hfits, hstatus⟩

/-- The entry behind the document belongs to a resource. -/
theorem exists_round (hsound : plan.Sound) {round : ℕ} {file : ManifestFile}
    (hfile : (manifestFiles p plan html)[round + 1]? = some file) :
    ∃ resource, plan.resources[round]? = some resource := by
  have hbuilt := built_buildRounds p html hsound (Nat.le_refl _)
  rw [getElem?_manifestFiles_succ] at hfile
  obtain ⟨left, hleft, -⟩ := Option.map_eq_some_iff.1 hfile
  have hlt := (List.getElem?_eq_some_iff.1 hleft).1
  have hlength : (built p plan html).done.length = plan.resources.length := hbuilt.length
  rw [hlength] at hlt
  exact ⟨_, List.getElem?_eq_getElem hlt⟩

/-- The path of a resource is a file of the archive if and only if a resource with that path fits
the budgets when its turn comes. -/
theorem mem_contentFiles_iff (hsound : plan.Sound) {round : ℕ} {resource : PlannedResource}
    {path : String} {body : ByteString} (hplanned : PlannedAt plan round resource path body) :
    path ∈ (contentFiles p plan html).map Prod.fst ↔ ∃ m other body',
      PlannedAt plan m other path body' ∧ Fits p plan html m other path body' := by
  have hbuilt := built_buildRounds p html hsound (Nat.le_refl _)
  have hne := (hsound.path resource (List.mem_of_getElem? hplanned.at_round) path hplanned.path).2
  have hselected : path ∈ (contentFiles p plan html).map Prod.fst ↔
      ∃ item ∈ (built p plan html).selected, item.1.localPath = some path := by
    unfold contentFiles
    rw [List.map_cons, List.mem_cons, List.map_map, List.mem_map]
    constructor
    · rintro (heq | ⟨item, hitem, heq⟩)
      · exact absurd heq hne
      · obtain ⟨-, path', hpath'⟩ := hbuilt.resources item hitem
        have heq' : item.1.localPath.getD "" = path := heq
        rw [hpath', Option.getD_some] at heq'
        rw [← heq']
        exact ⟨item, hitem, hpath'⟩
    · rintro ⟨item, hitem, hpath⟩
      refine .inr ⟨item, hitem, ?_⟩
      show item.1.localPath.getD "" = path
      rw [hpath]
      rfl
  rw [hselected]
  refine (hbuilt.selected path).trans ⟨fun ⟨m, other, body', _, h⟩ ↦ ⟨m, other, body', h⟩, ?_⟩
  rintro ⟨m, other, body', hother, hfits⟩
  exact ⟨m, other, body', (List.getElem?_eq_some_iff.1 hother.at_round).1, hother, hfits⟩

theorem countP_isSkipped (hsound : plan.Sound) :
    (manifestFiles p plan html).countP isSkipped =
      (built p plan html).done.countP fun left ↦ left.localPath.isNone := by
  have hbuilt := built_buildRounds p html hsound (Nat.le_refl _)
  have hdocument : ¬ isSkipped (documentFile p plan html) = true := by
    intro h
    cases of_decide_eq_true h
  unfold manifestFiles resourceFiles
  rw [List.countP_cons_of_neg hdocument, List.countP_map]
  refine List.countP_congr fun left hleft ↦ ?_
  obtain ⟨round, hround⟩ := List.mem_iff_getElem?.1 hleft
  have hlt := (List.getElem?_eq_some_iff.1 hround).1
  have hlength : (built p plan html).done.length = plan.resources.length := hbuilt.length
  rw [hlength] at hlt
  have hat : plan.resources[round]? = some plan.resources[round] := List.getElem?_eq_getElem hlt
  obtain ⟨left', hleft', hleaves⟩ := hbuilt.left round _ hlt hat
  have hround' : (buildRounds p plan html plan.resources.length).done[round]? = some left := hround
  rw [hround'] at hleft'
  cases hleft'
  obtain ⟨-, hspec⟩ := resourceFile_spec hsound hat hleaves
  rcases hspec with ⟨path, body, -, -, hpath, hnames⟩ | ⟨-, hpath, hstatus⟩
  · rw [hpath]
    show decide _ = true ↔ _
    rw [hnames.status]
    exact iff_of_false Bool.false_ne_true Bool.false_ne_true
  · rw [hpath]
    show decide _ = true ↔ _
    rw [hstatus]
    exact iff_of_true rfl rfl

theorem completenessCode_eq_iff : completenessCode p plan html = "COMPLETE" ↔
    ∀ file ∈ manifestFiles p plan html, file.status = .packaged ∧ file.truncated = false := by
  unfold completenessCode
  dsimp only
  have hcases : (∀ file ∈ manifestFiles p plan html, file.status = .packaged ∧
      file.truncated = false) ↔ ¬ (0 < (manifestFiles p plan html).countP isSkipped ∨
        (manifestFiles p plan html).any ManifestFile.truncated = true) := by
    rw [not_or, List.countP_pos_iff, List.any_eq_true]
    constructor
    · intro h
      refine ⟨fun ⟨file, hfile, hskipped⟩ ↦ ?_, fun ⟨file, hfile, htruncated⟩ ↦ ?_⟩
      · have hstatus := of_decide_eq_true hskipped
        rw [(h file hfile).1] at hstatus
        cases hstatus
      · rw [(h file hfile).2] at htruncated
        cases htruncated
    · rintro ⟨hskipped, htruncated⟩ file hfile
      refine ⟨?_, Bool.eq_false_iff.2 fun h ↦ htruncated ⟨file, hfile, h⟩⟩
      cases hstatus : file.status with
      | packaged => rfl
      | skipped => exact absurd ⟨file, hfile, decide_eq_true hstatus⟩ hskipped
  rw [hcases]
  by_cases hgap : 0 < (manifestFiles p plan html).countP isSkipped ∨
      (manifestFiles p plan html).any ManifestFile.truncated = true
  · rw [if_pos hgap]
    refine iff_of_false ?_ (not_not.2 hgap)
    split_ifs <;> decide
  · rw [if_neg hgap]
    exact iff_of_true rfl hgap

/-! ### Results -/

/-- What a result says about a plan is true. The manifest has an entry for the document and then
one for each resource; the manifest itself is the last file of an archive. -/
structure Truthful (p : Platform) (plan : StaticClonePlan) (result : ReconstructionBuild) :
    Prop where
  packaged : ∀ archive files, result.archive = some archive → result.manifest = some files →
    ∀ file ∈ files, file.status = .packaged → ∃ path, NamesFile p archive file path
  skipped : ∀ archive files, result.archive = some archive → result.manifest = some files →
    ∀ round resource file path, plan.resources[round]? = some resource →
      files[round + 1]? = some file → file.status = .skipped → resource.localPath = some path →
        path ∉ archive.map Prod.fst
  archived : ∀ archive, result.archive = some archive → ∃ content text,
    archive = content ++ [("manifest.json", text)] ∧ content.length = result.packagedCount ∧
      (content.map fun file ↦ file.2.length).sum = result.inputBytes
  packagedCount_le : result.packagedCount ≤ maxFiles
  inputBytes_le : result.inputBytes ≤ maxInputBytes
  counts : result.packagedCount + result.skippedCount ≤ result.discoveredCount
  complete : result.completenessCode = some "COMPLETE" ↔ ∃ files, result.manifest = some files ∧
    ∀ round resource, plan.resources[round]? = some resource → resource.wasTruncated = false ∧
      ∃ file, files[round + 1]? = some file ∧ file.status = .packaged

/-- Two resources with one path both fit the budgets when their turns come, or neither does. -/
def SharedAlike (p : Platform) (plan : StaticClonePlan) (html : ByteString) : Prop :=
  ∀ round other resource resource' path body body',
    PlannedAt plan round resource path body → PlannedAt plan other resource' path body' →
      Fits p plan html round resource path body → Fits p plan html other resource' path body'

theorem truthful_failed (failureCode : String) :
    Truthful p plan (failed (1 + plan.resources.length) failureCode) where
  packaged archive files harchive := by cases harchive
  skipped archive files harchive := by cases harchive
  archived archive harchive := by cases harchive
  packagedCount_le := Nat.zero_le _
  inputBytes_le := Nat.zero_le _
  counts := by
    show 0 + (1 + plan.resources.length - 1) ≤ 1 + plan.resources.length
    omega
  complete := by
    refine ⟨fun h ↦ (by cases h), fun ⟨files, hfiles, _⟩ ↦ ?_⟩
    cases hfiles

theorem counts_buildResult (hsound : plan.Sound) :
    (buildResult p plan html).packagedCount + (buildResult p plan html).skippedCount ≤
      (buildResult p plan html).discoveredCount := by
  have hbuilt := built_buildRounds p html hsound (Nat.le_refl _)
  have hcount := hbuilt.count
  have hdropped := hbuilt.dropped
  show (buildRounds p plan html plan.resources.length).contentFileCount +
    (manifestFiles p plan html).countP isSkipped ≤ 1 + plan.resources.length
  rw [countP_isSkipped hsound, built]
  omega

theorem complete_buildResult (hsound : plan.Sound) :
    (buildResult p plan html).completenessCode = some "COMPLETE" ↔
      ∃ files, (buildResult p plan html).manifest = some files ∧
        ∀ round resource, plan.resources[round]? = some resource →
          resource.wasTruncated = false ∧
            ∃ file, files[round + 1]? = some file ∧ file.status = .packaged := by
  have hcode : (buildResult p plan html).completenessCode = some "COMPLETE" ↔
      completenessCode p plan html = "COMPLETE" := Option.some_inj
  rw [hcode, completenessCode_eq_iff]
  constructor
  · intro hall
    refine ⟨_, rfl, fun round resource hround ↦ ?_⟩
    obtain ⟨file, hfile, htruncated, -⟩ := exists_entry p html hsound hround
    obtain ⟨hstatus, hwhole⟩ := hall file (List.mem_of_getElem? hfile)
    rw [hwhole] at htruncated
    exact ⟨htruncated.symm, file, hfile, hstatus⟩
  · rintro ⟨files, hfiles, hall⟩ file hfile
    cases hfiles
    obtain ⟨index, hindex⟩ := List.mem_iff_getElem?.1 hfile
    cases index with
    | zero =>
      cases hindex
      exact ⟨rfl, rfl⟩
    | succ round =>
      obtain ⟨resource, hround⟩ := exists_round hsound hindex
      obtain ⟨file', hfile', htruncated, -⟩ := exists_entry p html hsound hround
      obtain ⟨hwhole, file'', hfile'', hstatus⟩ := hall round resource hround
      rw [hindex] at hfile' hfile''
      cases hfile'
      cases hfile''
      exact ⟨hstatus, htruncated.trans hwhole⟩

/-- A result without an archive says nothing about files. -/
theorem truthful_buildResult (hsound : plan.Sound) (hhtml : html.length ≤ maxInputBytes) :
    Truthful p plan (buildResult p plan html) := by
  have hbuilt := built_buildRounds p html hsound (Nat.le_refl _)
  exact ⟨fun archive files harchive ↦ (by cases harchive),
    fun archive files harchive ↦ (by cases harchive), fun archive harchive ↦ (by cases harchive),
    hbuilt.count_le, hbuilt.bytes_le hhtml, counts_buildResult hsound,
    complete_buildResult hsound⟩

/-- What the manifest says of the resources that are skipped is true if and only if the resources
that share a path fit alike. -/
theorem skipped_iff (hsound : plan.Sound) (text : ByteString) :
    (∀ round resource file path, plan.resources[round]? = some resource →
      (manifestFiles p plan html)[round + 1]? = some file → file.status = .skipped →
        resource.localPath = some path →
          path ∉ (contentFiles p plan html ++ [("manifest.json", text)]).map Prod.fst) ↔
      SharedAlike p plan html := by
  have hmem : ∀ {round resource path body}, PlannedAt plan round resource path body →
      (path ∈ (contentFiles p plan html ++ [("manifest.json", text)]).map Prod.fst ↔
        path ∈ (contentFiles p plan html).map Prod.fst) := by
    intro round resource path body hplanned
    have hslash := (hsound.path resource (List.mem_of_getElem? hplanned.at_round) path
      hplanned.path).1
    rw [List.map_append, List.mem_append]
    refine or_iff_left fun hmanifest ↦ ?_
    rw [List.map_singleton, List.mem_singleton] at hmanifest
    have hno : '/' ∉ "manifest.json".toList := by decide
    rw [hmanifest] at hslash
    exact absurd hslash hno
  constructor
  · intro hall round other resource resource' path body body' hplanned hplanned' hfits
    obtain ⟨file, hfile, -, hspec⟩ := exists_entry p html hsound
      hplanned'.at_round
    rcases hspec with ⟨path', body'', hother, hfits', -⟩ | ⟨-, hstatus⟩
    · have hpath := hother.path
      have hbody := hother.body
      rw [hplanned'.path] at hpath
      rw [hplanned'.body] at hbody
      cases hpath
      cases hbody
      exact hfits'
    · refine absurd ?_ (hall other resource' file path hplanned'.at_round hfile hstatus
        hplanned'.path)
      rw [hmem hplanned', mem_contentFiles_iff hsound hplanned']
      exact ⟨round, resource, body, hplanned, hfits⟩
  · intro halike round resource file path hround hfile hstatus hpath hin
    have hresource := List.mem_of_getElem? hround
    obtain ⟨body, hbody⟩ := Option.isSome_iff_exists.1 (hsound.body _ hresource path hpath).1
    have hplanned : PlannedAt plan round resource path body := ⟨hround, hpath, hbody⟩
    rw [hmem hplanned, mem_contentFiles_iff hsound hplanned] at hin
    obtain ⟨m, other, body', hother, hfits⟩ := hin
    have hfits' := halike m round other resource path body' body hother hplanned hfits
    obtain ⟨file', hfile', -, hspec⟩ := exists_entry p html hsound hround
    rw [hfile] at hfile'
    cases hfile'
    rcases hspec with ⟨path', -, -, -, hnames⟩ | ⟨hunfit, -⟩
    · rw [hnames.status] at hstatus
      cases hstatus
    · exact hunfit path body hplanned hfits'

/-- The result with an archive. -/
theorem buildStaticClone_archive {writer : ArchiveWriter} {bundleOnly : Bool}
    {archive : List ArchivedFile}
    (h : (buildStaticClone p writer plan html bundleOnly).archive = some archive) :
    html.length ≤ maxInputBytes ∧ archive = archivedFiles p writer plan html ∧
      ∃ size, buildStaticClone p writer plan html bundleOnly =
        { buildResult p plan html with
          archiveBytes := some size
          archive := some (archivedFiles p writer plan html) } := by
  unfold buildStaticClone at h ⊢
  by_cases hhtml : maxInputBytes < html.length
  · rw [if_pos hhtml] at h
    cases h
  rw [if_neg hhtml] at h ⊢
  by_cases hbundle : bundleOnly = true
  · rw [if_pos hbundle] at h
    cases h
  rw [if_neg hbundle] at h ⊢
  cases hsize : writer.archiveSize (archivedFiles p writer plan html) with
  | none =>
    rw [hsize] at h
    cases h
  | some size =>
    rw [hsize] at h
    dsimp only at h ⊢
    by_cases hbound : size = 0 ∨ maxArchiveBytes < size
    · rw [if_pos hbound] at h
      cases h
    · rw [if_neg hbound] at h ⊢
      cases h
      exact ⟨Nat.not_lt.1 hhtml, rfl, size, rfl⟩

theorem truthful_of_no_archive (hsound : plan.Sound) {writer : ArchiveWriter} {bundleOnly : Bool}
    (h : (buildStaticClone p writer plan html bundleOnly).archive = none) :
    Truthful p plan (buildStaticClone p writer plan html bundleOnly) := by
  unfold buildStaticClone at h ⊢
  by_cases hhtml : maxInputBytes < html.length
  · rw [if_pos hhtml]
    exact truthful_failed _
  rw [if_neg hhtml] at h ⊢
  by_cases hbundle : bundleOnly = true
  · rw [if_pos hbundle]
    exact truthful_buildResult hsound (Nat.not_lt.1 hhtml)
  rw [if_neg hbundle] at h ⊢
  cases hsize : writer.archiveSize (archivedFiles p writer plan html) with
  | none => exact truthful_failed _
  | some size =>
    rw [hsize] at h
    dsimp only at h ⊢
    by_cases hbound : size = 0 ∨ maxArchiveBytes < size
    · rw [if_pos hbound]
      exact truthful_failed _
    · rw [if_neg hbound] at h
      cases h

theorem truthful_archive_iff (hsound : plan.Sound) {writer : ArchiveWriter} {bundleOnly : Bool}
    {archive : List ArchivedFile}
    (h : (buildStaticClone p writer plan html bundleOnly).archive = some archive) :
    Truthful p plan (buildStaticClone p writer plan html bundleOnly) ↔
      SharedAlike p plan html := by
  obtain ⟨hhtml, -, size, hresult⟩ := buildStaticClone_archive h
  have hbuilt := built_buildRounds p html hsound (Nat.le_refl _)
  rw [hresult]
  constructor
  · intro htruthful
    exact (skipped_iff hsound _).1 (htruthful.skipped _ _ rfl rfl)
  · intro halike
    refine ⟨?_, ?_, ?_, hbuilt.count_le, hbuilt.bytes_le hhtml, counts_buildResult hsound,
      complete_buildResult hsound⟩
    · intro archive files harchive hfiles file hfile hstatus
      cases harchive
      cases hfiles
      obtain ⟨index, hindex⟩ := List.mem_iff_getElem?.1 hfile
      cases index with
      | zero =>
        cases hindex
        exact ⟨plan.mainPath, rfl, rfl, html, List.mem_append_left _ (List.mem_cons_self ..),
          rfl, rfl⟩
      | succ round =>
        obtain ⟨resource, hround⟩ := exists_round hsound hindex
        obtain ⟨file', hfile', -, hspec⟩ := exists_entry p html hsound hround
        rw [hindex] at hfile'
        cases hfile'
        rcases hspec with ⟨path, -, -, -, hnames⟩ | ⟨-, hskipped⟩
        · obtain ⟨body, hbody, hbytes⟩ := hnames.content
          exact ⟨path, hnames.status, hnames.localPath, body, List.mem_append_left _ hbody, hbytes⟩
        · rw [hstatus] at hskipped
          cases hskipped
    · intro archive files harchive hfiles
      cases harchive
      cases hfiles
      exact (skipped_iff hsound _).2 halike
    · intro archive harchive
      cases harchive
      refine ⟨_, _, rfl, ?_, ?_⟩
      · show (contentFiles p plan html).length = (built p plan html).contentFileCount
        unfold contentFiles
        rw [List.length_cons, List.length_map, Nat.add_comm]
        exact hbuilt.count.symm
      · show _ = (built p plan html).inputBytes
        unfold contentFiles
        rw [List.map_cons, List.sum_cons, List.map_map]
        exact hbuilt.bytes.symm

/-- The result of a build tells the truth when it has no archive; when it has one, if and only if
the resources that share a path fit the budgets alike. -/
theorem manifest_truthful_iff (p : Platform) (hhex : p.HexDigest) (writer : ArchiveWriter)
    (finalUrl : String) (resources : List CloneInputResource) (htmlBytes : ℕ)
    (options : StaticClonePlanOptions) (plan : StaticClonePlan)
    (hplan : planStaticClone p finalUrl resources htmlBytes options = some plan)
    (html : ByteString) (bundleOnly : Bool) :
    ((buildStaticClone p writer plan html bundleOnly).archive = none →
      Truthful p plan (buildStaticClone p writer plan html bundleOnly)) ∧
    ∀ archive, (buildStaticClone p writer plan html bundleOnly).archive = some archive →
      (Truthful p plan (buildStaticClone p writer plan html bundleOnly) ↔
        SharedAlike p plan html) :=
  ⟨truthful_of_no_archive (sound_planStaticClone hhex hplan),
    fun _ h ↦ truthful_archive_iff (sound_planStaticClone hhex hplan) h⟩

/-! ### A shared file at the limit -/

/-- A writer whose archives have 100 bytes. -/
def ArchiveWriter.sample : ArchiveWriter where
  manifestText _ _ _ := []
  archiveSize _ := some 100

/-- The path of a script of one byte that is named by its contents. -/
def scriptPath : String :=
  "assets/" ++ Sha256.hex (Sha256.sum [0x3B]) ++ ".js"

/-- A resource of one byte that is planned under that path. -/
def PlannedResource.sample (sourceUrl : String) : PlannedResource where
  toCloneInputResource := .sample sourceUrl
  localPath := some scriptPath

/-- The plan of a page that loads two scripts with equal bytes. -/
def StaticClonePlan.shared : StaticClonePlan where
  finalUrl := "https://example.com/"
  mainPath := "index.html"
  resources := [.sample "https://example.com/a.js", .sample "https://example.com/b.js"]
  replacements := [("https://example.com/a.js", scriptPath),
    ("https://example.com/b.js", scriptPath)]
  allowExternalVisualResources := false

theorem planStaticClone_shared :
    planStaticClone Platform.sample "https://example.com/"
      [.sample "https://example.com/a.js", .sample "https://example.com/b.js"] 20
      { mainPath := some "index.html", contentAddressedResources := true } =
        some StaticClonePlan.shared := by
  decide +kernel

theorem manifest_truthful_iff_shared :
    ((buildStaticClone Platform.sample .sample .shared [0x3C] false).archive = none →
      Truthful Platform.sample .shared
        (buildStaticClone Platform.sample .sample .shared [0x3C] false)) ∧
    ∀ archive, (buildStaticClone Platform.sample .sample .shared [0x3C] false).archive =
        some archive →
      (Truthful Platform.sample .shared
          (buildStaticClone Platform.sample .sample .shared [0x3C] false) ↔
        SharedAlike Platform.sample .shared [0x3C]) :=
  manifest_truthful_iff Platform.sample Platform.hexDigest_sample .sample "https://example.com/"
    [.sample "https://example.com/a.js", .sample "https://example.com/b.js"] 20
    { mainPath := some "index.html", contentAddressedResources := true } .shared
    planStaticClone_shared [0x3C] false

theorem exists_archive_sample (plan : StaticClonePlan) (html : ByteString)
    (hhtml : html.length ≤ maxInputBytes) :
    ∃ archive, (buildStaticClone Platform.sample .sample plan html false).archive =
      some archive := by
  unfold buildStaticClone
  rw [if_neg (Nat.not_lt.2 hhtml), if_neg Bool.false_ne_true]
  have hsize : ArchiveWriter.sample.archiveSize
      (archivedFiles Platform.sample .sample plan html) = some 100 := rfl
  rw [hsize]
  dsimp only
  rw [if_neg (by decide)]
  exact ⟨_, rfl⟩

/-- With a document that leaves room for one byte, the first script fits and the second does not. -/
theorem not_sharedAlike_of_length (hhtml : html.length = 52_428_799) :
    ¬ SharedAlike Platform.sample .shared html := by
  intro halike
  have hfirst : PlannedAt .shared 0 (.sample "https://example.com/a.js") scriptPath [0x3B] :=
    ⟨rfl, rfl, rfl⟩
  have hsecond : PlannedAt .shared 1 (.sample "https://example.com/b.js") scriptPath [0x3B] :=
    ⟨rfl, rfl, rfl⟩
  have hsound := sound_planStaticClone Platform.hexDigest_sample planStaticClone_shared
  have hroom : html.length + 1 ≤ maxInputBytes := by
    rw [hhtml]
    decide
  have hfits : Fits Platform.sample .shared html 0
      (.sample "https://example.com/a.js") scriptPath [0x3B] := by
    refine ⟨?_, hroom, .inr ?_⟩
    · show 1 < maxFiles
      decide
    · unfold packagedBody
      rw [if_neg (by decide)]
      exact hroom
  obtain ⟨-, hbytes, -⟩ := halike 0 1 _ _ _ _ _ hfirst hsecond hfits
  rcases buildRounds_succ_planned Platform.sample html hsound hfirst with
    ⟨-, hselected, -⟩ | ⟨-, -, hnext⟩ | ⟨hunfit, -⟩
  · cases hselected
  · rw [hnext] at hbytes
    unfold packagedBody at hbytes
    rw [if_neg (by decide)] at hbytes
    have hbytes' : html.length + 1 + 1 ≤ maxInputBytes := hbytes
    rw [hhtml] at hbytes'
    exact absurd hbytes' (by decide)
  · exact hunfit hfits

/-- A script is skipped although the archive holds it. -/
theorem shared_file_skipped :
    ¬ ∀ (writer : ArchiveWriter) (finalUrl : String) (resources : List CloneInputResource)
      (htmlBytes : ℕ) (options : StaticClonePlanOptions) (plan : StaticClonePlan)
      (html : ByteString) (bundleOnly : Bool),
      planStaticClone Platform.sample finalUrl resources htmlBytes options = some plan →
        Truthful Platform.sample plan
          (buildStaticClone Platform.sample writer plan html bundleOnly) := by
  intro h
  obtain ⟨html, hhtml⟩ : ∃ html : ByteString, html.length = 52_428_799 :=
    ⟨List.replicate 52_428_799 0x20, List.length_replicate⟩
  have htruthful := h .sample _ _ _ _ _ html false planStaticClone_shared
  obtain ⟨archive, harchive⟩ := exists_archive_sample .shared html
    (by rw [hhtml]; decide)
  have hsound := sound_planStaticClone Platform.hexDigest_sample planStaticClone_shared
  exact not_sharedAlike_of_length hhtml ((truthful_archive_iff hsound harchive).1 htruthful)

end WebLens.StaticClone
