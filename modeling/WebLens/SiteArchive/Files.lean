import WebLens.StaticClone.Paths

/-!
# The files of a site archive

`site-archive.ts`: the paths and the kinds of the files that the pages of a site bring to its
archive. `safeArchivePath` throws for a path that leaves the archive or has a character that is not
kept.
-/

set_option autoImplicit false
set_option relaxedAutoImplicit false

namespace WebLens.SiteArchive

open Lib Lib.PosixPath
open Lib.Utf8 (ByteString)
open StaticClone

/-- `SiteBundleFile.kind`. -/
inductive FileKind
  | document
  | resource
deriving DecidableEq

/-- `SiteBundleFile`. -/
structure SiteBundleFile where
  kind : FileKind
  localPath : String
  sourceUrl : String
  contentType : String
  body : ByteString
deriving DecidableEq

/-! ### Paths -/

/-- Whether a path ends in a dot and one of the extensions, in any case. -/
def hasExtension (extensions : List String) (path : String) : Bool :=
  extensions.any fun extension ↦
    ('.' :: extension.toList).isSuffixOf (path.toList.map foldCase)

/-- Whether a text contains another one. -/
def includes (text part : String) : Bool :=
  text.toList.tails.any fun rest ↦ part.toList.isPrefixOf rest

/-- A path with the slashes of its platform turned, normalised, and without slashes in front. -/
def cleanArchivePath (p : Platform) (value : String) : String :=
  let turned := (p.normalizeNfc value).toList.map fun c ↦ if c = '\\' then '/' else c
  String.ofList ((normalize (String.ofList turned)).toList.dropWhile fun c ↦ c = '/')

/-- `safeArchivePath`. -/
def safeArchivePath (p : Platform) (value : String) : Option String :=
  let normalized := cleanArchivePath p value
  if normalized = "" ∨ normalized = "." ∨ "../".toList.isPrefixOf normalized.toList = true ∨
      includes normalized "/../" = true then none
  else if normalized.toList.all (fun c ↦ isKept c || decide (c = '/')) = true then
    some (String.ofList (normalized.toList.take 512))
  else none

/-- `isStylesheet`. -/
def isStylesheet (p : Platform) (contentType localPath : String) : Bool :=
  decide (mimeOf p contentType = "text/css") || hasExtension ["css"] localPath

/-- `shouldCompress`. -/
def shouldCompress (p : Platform) (contentType path : String) : Bool :=
  let mime := mimeOf p contentType
  "text/".toList.isPrefixOf mime.toList ||
    ["application/javascript", "application/json", "application/xml", "image/svg+xml"].contains
      mime ||
    hasExtension ["css", "htm", "html", "js", "json", "svg", "xml"] path

/-- `zipEntryOverhead`. -/
def zipEntryOverhead (path : String) : ℕ :=
  256 + 2 * (Utf8.ofText path).length

end WebLens.SiteArchive
