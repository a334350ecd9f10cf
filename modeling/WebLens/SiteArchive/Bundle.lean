import WebLens.Lib.JsonObject
import WebLens.SiteArchive.Files
import WebLens.SiteClone.Descriptor
import WebLens.StaticClone.Budgets
import WebLens.StaticClone.Collected

/-!
# Page bundles

The bundle that `processPage` of `site-worker.ts` makes of a rendered page, and `encodeSiteBundle`
and `decodeSiteBundle` of `site-archive.ts`. The decoder throws for a bundle with a length, a pattern
or a path that it does not accept, and `none` stands for that.
-/

set_option autoImplicit false
set_option relaxedAutoImplicit false

namespace WebLens.SiteArchive

open Lib
open Lib.Utf8 (ByteString)
open SiteClone.Design (textLength DesignPageInput describeDesignPage layoutFingerprint)
open StaticClone

/-! ### Bundles -/

/-- `SiteResourceGap`. -/
structure SiteResourceGap where
  sourceUrl : String
  resourceType : String
  reason : String
deriving DecidableEq

/-- `SitePageBundle.design`. -/
structure DesignMetadata where
  locale : String
  semanticRole : String
  routeTemplate : String
  layoutFingerprint : Option String
  layoutFingerprintVersion : String
deriving DecidableEq

/-- `SitePageBundle`. -/
structure SitePageBundle where
  pageId : String
  sourceFinalUrl : String
  publicFinalUrl : String
  mainPath : String
  capturedAt : String
  resourceGaps : Option (List SiteResourceGap)
  design : Option DesignMetadata
  files : List SiteBundleFile
deriving DecidableEq

/-- `LAYOUT_FINGERPRINT_VERSION`. -/
def layoutFingerprintVersion : String := "dom-structure-v1"

section Building

variable (p : Platform)

/-- `resourceGaps` of `buildStaticClone`. -/
def resourceGaps (plan : StaticClonePlan) (html : ByteString) : List SiteResourceGap :=
  (((manifestFiles p plan html).filter fun file ↦
    decide (file.kind = .resource) && (isSkipped file || file.truncated)).take maxFiles).map
      fun file ↦ ⟨file.sourceUrl, file.resourceType, file.reason.getD "TRUNCATED_RESOURCE"⟩

/-- The file of the document. -/
def documentBundleFile (plan : StaticClonePlan) (html : ByteString) : SiteBundleFile where
  kind := .document
  localPath := plan.mainPath
  sourceUrl := plan.finalUrl
  contentType := "text/html; charset=utf-8"
  body := html

/-- The file of a resource; a stylesheet keeps its original bytes. -/
def resourceBundleFile (item : PlannedResource × ByteString) : SiteBundleFile where
  kind := .resource
  localPath := item.1.localPath.getD ""
  sourceUrl := item.1.sourceUrl
  contentType := if item.1.mimeType = "" then "application/octet-stream" else item.1.mimeType
  body := if item.1.resourceType = "stylesheet" then item.1.body.getD [] else item.2

/-- A rendered page of a site. -/
structure RenderedPage where
  pageId : String
  rootUrl : String
  target : DesignPageInput
  finalUrl : String
  capturedAt : String
  /-- The document as it was parsed. -/
  document : Option Html.Node
  /-- The copy of the document; it starts with a document type. -/
  html : ByteString
  html_ne : html ≠ []

/-- The bundle of a rendered page, unless its clone failed. -/
def processPage (page : RenderedPage) (plan : StaticClonePlan) : Option SitePageBundle := do
  if maxInputBytes < page.html.length then none
  else
    let descriptor ← describeDesignPage p.toPlatform page.rootUrl page.target
    some {
      pageId := page.pageId
      sourceFinalUrl := plan.finalUrl
      publicFinalUrl := redactUrl p plan.finalUrl
      mainPath := plan.mainPath
      capturedAt := page.capturedAt
      resourceGaps := if resourceGaps p plan page.html = [] then none
        else some (resourceGaps p plan page.html)
      design := some {
        locale := descriptor.locale
        semanticRole := descriptor.semanticRole.text
        routeTemplate := descriptor.routeTemplate
        layoutFingerprint := layoutFingerprint p page.document
        layoutFingerprintVersion := layoutFingerprintVersion }
      files := documentBundleFile plan page.html ::
        (built p plan page.html).selected.map resourceBundleFile }

end Building

/-! ### Encoding -/

section Codec

variable (codec : JsonCodec)

def FileKind.text : FileKind → String
  | .document => "DOCUMENT"
  | .resource => "RESOURCE"

/-- A member of an object. -/
def member (name : String) (value : Json) : ByteString × Json :=
  (Utf8.ofText name, value)

def textMember (name value : String) : ByteString × Json :=
  member name (.ofString value)

def fileValue (file : SiteBundleFile) : Json :=
  .object [textMember "kind" file.kind.text, textMember "localPath" file.localPath,
    textMember "sourceUrl" file.sourceUrl, textMember "contentType" file.contentType,
    textMember "bodyBase64" (codec.toBase64 file.body)]

def gapValue (gap : SiteResourceGap) : Json :=
  .object [textMember "sourceUrl" gap.sourceUrl, textMember "resourceType" gap.resourceType,
    textMember "reason" gap.reason]

/-- A text, or null. -/
def nullableValue : Option String → Json
  | none => .null
  | some text => .ofString text

def designValue (design : DesignMetadata) : Json :=
  .object [textMember "locale" design.locale, textMember "semanticRole" design.semanticRole,
    textMember "routeTemplate" design.routeTemplate,
    member "layoutFingerprint" (nullableValue design.layoutFingerprint),
    textMember "layoutFingerprintVersion" design.layoutFingerprintVersion]

/-- A member that may be absent. -/
def optionalMember (name : String) : Option Json → List (ByteString × Json)
  | none => []
  | some value => [member name value]

def bundleValue (bundle : SitePageBundle) : Json :=
  .object (member "schemaVersion" (.number 1) ::
    textMember "sourceFinalUrl" bundle.sourceFinalUrl ::
    textMember "publicFinalUrl" bundle.publicFinalUrl :: textMember "mainPath" bundle.mainPath ::
    textMember "capturedAt" bundle.capturedAt ::
    (optionalMember "resourceGaps" (bundle.resourceGaps.map fun gaps ↦ .array (gaps.map gapValue)) ++
      member "files" (.array (bundle.files.map (fileValue codec))) ::
      textMember "pageId" bundle.pageId ::
      optionalMember "design" (bundle.design.map designValue)))

/-- `encodeSiteBundle`. -/
def encodeSiteBundle (bundle : SitePageBundle) : ByteString :=
  codec.stringify (bundleValue codec bundle)

/-! ### Decoding -/

variable (p : Platform)

def decodeKind (text : String) : Option FileKind :=
  if text = "DOCUMENT" then some .document
  else if text = "RESOURCE" then some .resource
  else none

def decodeFile (value : Json) : Option SiteBundleFile := do
  let kind ← (value.getText "kind").bind decodeKind
  let path ← value.getText "localPath"
  let sourceUrl ← value.getText "sourceUrl"
  let contentType ← value.getText "contentType"
  let encoded ← value.getText "bodyBase64"
  let body := codec.ofBase64 encoded
  if body = [] ∨ 52_428_800 < body.length then none
  else
    let localPath ← safeArchivePath p path
    some ⟨kind, localPath, sourceUrl, contentType, body⟩

/-- What `/^[0-9a-f]{64}$/u` matches. -/
def isDigest (text : String) : Bool :=
  decide (text.toList.length = 64) && text.toList.all fun c ↦ "0123456789abcdef".toList.contains c

/-- A fingerprint, or null. -/
def decodeFingerprint : Option Json → Option (Option String)
  | some .null => some none
  | some value => value.text.bind fun text ↦ if isDigest text = true then some (some text) else none
  | none => none

/-- `decodeDesignMetadata` of a value that is there. -/
def decodeDesign (value : Json) : Option DesignMetadata := do
  let locale ← value.getText "locale"
  let semanticRole ← value.getText "semanticRole"
  let routeTemplate ← value.getText "routeTemplate"
  let layoutFingerprint ← decodeFingerprint (value.get "layoutFingerprint")
  let version ← value.getText "layoutFingerprintVersion"
  if 35 < textLength locale ∨ 64 < textLength semanticRole ∨ 512 < textLength routeTemplate ∨
      version ≠ layoutFingerprintVersion then none
  else some ⟨locale, semanticRole, routeTemplate, layoutFingerprint, version⟩

def decodeGap (value : Json) : Option SiteResourceGap := do
  let sourceUrl ← value.getText "sourceUrl"
  let resourceType ← value.getText "resourceType"
  let reason ← value.getText "reason"
  if 8192 < textLength sourceUrl ∨ 32 < textLength resourceType ∨ isReason reason = false then none
  else some ⟨sanitizeUrl p sourceUrl, resourceType, reason⟩

/-- The elements of an array. -/
def elementsOf : Json → Option (List Json)
  | .array elements => some elements
  | _ => none

/-- `decodeResourceGaps` of a value that is there. -/
def decodeGaps (value : Json) : Option (List SiteResourceGap) := do
  let elements ← elementsOf value
  if 100 < elements.length then none else elements.mapM (decodeGap p)

/-- What becomes of a member that may be absent. -/
def decodeOptional {α : Type} (decode : Json → Option α) : Option Json → Option (Option α)
  | none => some none
  | some value => (decode value).map some

/-- Whether a value is the number 1. -/
def isOne : Json → Bool
  | .number value => decide (value = 1)
  | _ => false

/-- `decodeSiteBundle`. -/
def decodeSiteBundle (encoded : ByteString) (expectedPageId : String) : Option SitePageBundle := do
  let value ← codec.parse encoded
  let version ← value.get "schemaVersion"
  let pageId ← value.getText "pageId"
  let sourceFinalUrl ← value.getText "sourceFinalUrl"
  let publicFinalUrl ← value.getText "publicFinalUrl"
  let path ← value.getText "mainPath"
  let capturedAt ← value.getText "capturedAt"
  let elements ← (value.get "files").bind elementsOf
  if isOne version = false ∨ pageId ≠ expectedPageId ∨ elements = [] ∨ 101 < elements.length then
    none
  else
    let files ← elements.mapM (decodeFile codec p)
    let design ← decodeOptional decodeDesign (value.get "design")
    let gaps ← decodeOptional (decodeGaps p) (value.get "resourceGaps")
    let mainPath ← safeArchivePath p path
    some ⟨pageId, sourceFinalUrl, publicFinalUrl, mainPath, capturedAt, gaps, design, files⟩

end Codec

end WebLens.SiteArchive
