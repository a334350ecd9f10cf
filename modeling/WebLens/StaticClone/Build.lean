import WebLens.StaticClone.References

/-!
# Building a static clone

`buildStaticClone` of `static-clone.ts`: the planned resources become files of an archive, within
the budgets of files and bytes, and the manifest says of every resource what became of it. The loop
drops a resource by changing it in place, so a stylesheet that is rewritten later does not find it
any more.
-/

set_option autoImplicit false
set_option relaxedAutoImplicit false

namespace WebLens.StaticClone

open Lib Lib.PosixPath
open Lib.Utf8 (ByteString)

/-! ### The loop -/

/-- The variables of the loop; `done` are the resources that it has passed, as it left them. -/
structure Building where
  done : List PlannedResource := []
  selected : List (PlannedResource × ByteString) := []
  selectedPaths : List String := []
  inputBytes : ℕ
  contentFileCount : ℕ := 1
  budgetSkipped : Bool := false

/-- The loop goes on and leaves the resource as it is. -/
def Building.pass (s : Building) (resource : PlannedResource) : Building :=
  { s with done := s.done ++ [resource] }

/-- The resource is dropped. -/
def Building.drop (s : Building) (resource : PlannedResource) (reason : String) : Building :=
  { s with
    done := s.done ++ [{ resource with localPath := none, skipReason := some reason }]
    budgetSkipped := true }

/-- The resource becomes a file. -/
def Building.add (s : Building) (resource : PlannedResource) (path : String) (body : ByteString) :
    Building :=
  { s with
    done := s.done ++ [resource]
    selected := s.selected ++ [(resource, body)]
    selectedPaths := s.selectedPaths ++ [lowerCase path]
    inputBytes := s.inputBytes + body.length
    contentFileCount := s.contentFileCount + 1 }

/-- The bytes of the file of a resource: a stylesheet is rewritten. -/
def packagedBody (p : Platform) (resources : List PlannedResource) (resource : PlannedResource)
    (path : String) (body : ByteString) : ByteString :=
  if resource.resourceType = "stylesheet" then
    Utf8.ofText (rewriteCss p resources resource.sourceUrl path (p.decodeUtf8 body))
  else body

/-- One round of the loop; `resources` are the resources of the plan at that time. -/
def buildResource (p : Platform) (resources : List PlannedResource) (s : Building)
    (resource : PlannedResource) : Building :=
  match resource.body, resource.localPath with
  | some body, some path =>
    if path = "" ∨ isTruthy resource.skipReason = true then s.pass resource
    else if maxFiles ≤ s.contentFileCount ∨ maxInputBytes < s.inputBytes + body.length then
      s.drop resource (if maxFiles ≤ s.contentFileCount then "FILE_COUNT_BUDGET_EXCEEDED"
        else "CLONE_INPUT_BUDGET_EXCEEDED")
    else if s.selectedPaths.contains (lowerCase path) = true then s.pass resource
    else
      let packaged := packagedBody p resources resource path body
      if maxInputBytes < s.inputBytes + packaged.length then
        s.drop resource "CLONE_INPUT_BUDGET_EXCEEDED"
      else s.add resource path packaged
  | _, _ => s.pass resource

/-- The variables after some rounds. -/
def buildRounds (p : Platform) (plan : StaticClonePlan) (html : ByteString) : ℕ → Building
  | 0 => { inputBytes := html.length }
  | round + 1 =>
    let s := buildRounds p plan html round
    match plan.resources[round]? with
    | none => s
    | some resource => buildResource p (s.done ++ plan.resources.drop round) s resource

/-! ### The manifest -/

/-- `ManifestFile.kind`. -/
inductive ManifestKind
  | document
  | resource
deriving DecidableEq

/-- `ManifestFile.status`. -/
inductive ManifestStatus
  | packaged
  | skipped
deriving DecidableEq

/-- `ManifestFile`. -/
structure ManifestFile where
  kind : ManifestKind
  sourceUrl : String
  sourceUrlSha256 : String
  localPath : Option String
  resourceType : String
  mimeType : String
  status : ManifestStatus
  bytes : ℕ
  sha256 : Option String
  truncated : Bool
  reason : Option String
deriving DecidableEq

/-- `sha256Text`. -/
def sha256Text (p : Platform) (text : String) : String :=
  p.sha256 (Utf8.ofText text)

/-- `manifestFile`. -/
def manifestFile (p : Platform) (kind : ManifestKind)
    (sourceUrl localPath resourceType mimeType : String) (body : ByteString) (truncated : Bool) :
    ManifestFile where
  kind := kind
  sourceUrl := redactUrl p sourceUrl
  sourceUrlSha256 := sha256Text p sourceUrl
  localPath := some localPath
  resourceType := resourceType
  mimeType := mimeType
  status := .packaged
  bytes := body.length
  sha256 := some (p.sha256 body)
  truncated := truncated
  reason := none

/-- The entry of a resource that is no file. -/
def skippedFile (p : Platform) (resource : PlannedResource) : ManifestFile :=
  let url := if resource.sourceUrl = "" then resource.publicUrl else resource.sourceUrl
  { kind := .resource
    sourceUrl := redactUrl p url
    sourceUrlSha256 := sha256Text p url
    localPath := none
    resourceType := resource.resourceType
    mimeType := resource.mimeType
    status := .skipped
    bytes := (resource.body.map List.length).getD 0
    sha256 := resource.body.map p.sha256
    truncated := resource.wasTruncated
    reason := some (resource.skipReason.getD "BODY_UNAVAILABLE") }

/-- The entry of a resource as the loop left it. -/
def resourceFile (p : Platform) (selected : List (PlannedResource × ByteString))
    (resource : PlannedResource) : ManifestFile :=
  match selected.find? fun item ↦ decide (item.1.localPath = resource.localPath),
      resource.localPath with
  | some item, some path =>
    if path = "" then skippedFile p resource
    else manifestFile p .resource resource.sourceUrl path resource.resourceType resource.mimeType
      item.2 resource.wasTruncated
  | _, _ => skippedFile p resource

/-- The entry of the document. -/
def documentFile (p : Platform) (plan : StaticClonePlan) (html : ByteString) : ManifestFile :=
  manifestFile p .document plan.finalUrl plan.mainPath "document" "text/html" html false

/-- The variables after the loop. -/
def built (p : Platform) (plan : StaticClonePlan) (html : ByteString) : Building :=
  buildRounds p plan html plan.resources.length

/-- The entries of the resources. -/
def resourceFiles (p : Platform) (plan : StaticClonePlan) (html : ByteString) : List ManifestFile :=
  let s := built p plan html
  s.done.map (resourceFile p s.selected)

/-- `files`. -/
def manifestFiles (p : Platform) (plan : StaticClonePlan) (html : ByteString) :
    List ManifestFile :=
  documentFile p plan html :: resourceFiles p plan html

def isSkipped (file : ManifestFile) : Bool :=
  decide (file.status = .skipped)

/-- `completenessCode`. -/
def completenessCode (p : Platform) (plan : StaticClonePlan) (html : ByteString) : String :=
  let files := manifestFiles p plan html
  let truncated := files.any ManifestFile.truncated
  if 0 < files.countP isSkipped ∨ truncated = true then
    if (built p plan html).budgetSkipped = true then "BUDGET_LIMITED"
    else if truncated = true then "TRUNCATED_RESOURCE" else "RESOURCE_GAPS"
  else "COMPLETE"

/-! ### The result -/

/-- A file of an archive: its path and its bytes. -/
abbrev ArchivedFile := String × ByteString

/-- The part of the platform that writes an archive. -/
structure ArchiveWriter where
  /-- The text of the manifest. -/
  manifestText : StaticClonePlan → String → List ManifestFile → ByteString
  /-- The size of the ZIP file on the disk, unless it could not be written. -/
  archiveSize : List ArchivedFile → Option ℕ

inductive BuildStatus
  | published
  | partialArchive
  | failed
deriving DecidableEq

/-- `ReconstructionBuild`, with the files of the archive instead of its path. -/
structure ReconstructionBuild where
  status : BuildStatus
  discoveredCount : ℕ
  packagedCount : ℕ
  skippedCount : ℕ
  inputBytes : ℕ
  archiveBytes : Option ℕ
  completenessCode : Option String
  failureCode : Option String
  archive : Option (List ArchivedFile)
  manifest : Option (List ManifestFile)

def maxArchiveBytes : ℕ := 67_108_864

/-- `failed`. -/
def failed (discoveredCount : ℕ) (failureCode : String) : ReconstructionBuild where
  status := .failed
  discoveredCount := discoveredCount
  packagedCount := 0
  skippedCount := discoveredCount - 1
  inputBytes := 0
  archiveBytes := none
  completenessCode := none
  failureCode := some failureCode
  archive := none
  manifest := none

/-- The files of an archive but its manifest. -/
def contentFiles (p : Platform) (plan : StaticClonePlan) (html : ByteString) : List ArchivedFile :=
  (plan.mainPath, html) ::
    (built p plan html).selected.map fun item ↦ (item.1.localPath.getD "", item.2)

/-- The files of an archive. -/
def archivedFiles (p : Platform) (writer : ArchiveWriter) (plan : StaticClonePlan)
    (html : ByteString) : List ArchivedFile :=
  contentFiles p plan html ++ [("manifest.json", writer.manifestText plan
    (completenessCode p plan html) (manifestFiles p plan html))]

/-- `result`, before an archive is written. -/
def buildResult (p : Platform) (plan : StaticClonePlan) (html : ByteString) :
    ReconstructionBuild where
  status := if completenessCode p plan html = "COMPLETE" then .published else .partialArchive
  discoveredCount := 1 + plan.resources.length
  packagedCount := (built p plan html).contentFileCount
  skippedCount := (manifestFiles p plan html).countP isSkipped
  inputBytes := (built p plan html).inputBytes
  archiveBytes := none
  completenessCode := some (completenessCode p plan html)
  failureCode := none
  archive := none
  manifest := some (manifestFiles p plan html)

/-- `buildStaticClone`. -/
def buildStaticClone (p : Platform) (writer : ArchiveWriter) (plan : StaticClonePlan)
    (html : ByteString) (bundleOnly : Bool) : ReconstructionBuild :=
  if maxInputBytes < html.length then
    failed (1 + plan.resources.length) "CLONE_INPUT_BUDGET_EXCEEDED"
  else if bundleOnly = true then buildResult p plan html
  else match writer.archiveSize (archivedFiles p writer plan html) with
  | none => failed (1 + plan.resources.length) "CLONE_ARCHIVE_WRITE_FAILED"
  | some size =>
    if size = 0 ∨ maxArchiveBytes < size then
      failed (1 + plan.resources.length) "CLONE_ARCHIVE_BUDGET_EXCEEDED"
    else { buildResult p plan html with
      archiveBytes := some size
      archive := some (archivedFiles p writer plan html) }

end WebLens.StaticClone
