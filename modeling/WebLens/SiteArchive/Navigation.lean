import WebLens.Lib.Html
import WebLens.SiteArchive.Files
import WebLens.StaticClone.Rendered

/-!
# Navigation within an archive

`rewriteSiteNavigation` of `site-archive.ts`: a link of a packaged page leads to the page of the
archive whose URL has the hash of the link's target. A page is known by the URL that it was selected
by, by the URL that its capture ended at, and by the public form of that URL. The HTML parser and
serialiser are parameters.
-/

set_option autoImplicit false
set_option relaxedAutoImplicit false

namespace WebLens.SiteArchive

open Lib Lib.Html
open Lib.Utf8 (ByteString)
open SiteClone.Design (textLength dropTrailingSlashes)
open StaticClone

/-! ### Routes -/

/-- A page of the archive. -/
structure PackagedPage where
  sourceFinalUrl : String
  publicFinalUrl : String
  localPath : String
  localPath_ne_empty : localPath ≠ ""

/-- A page that was rendered, with the URL that it was selected by; only its hash is stored. -/
structure SiteRoute where
  url : String
  localPath : String

/-- A URL without credentials and fragment. -/
def stripUrl (p : Platform) (url : p.Url) : p.Url :=
  p.setHash (p.setPassword (p.setUsername url "") "") ""

/-- A URL without slashes at the end of a path that is longer than one slash. -/
def trimPath (p : Platform) (url : p.Url) : p.Url :=
  if 1 < textLength (p.pathname url) then
    p.setPathname url (dropTrailingSlashes (p.pathname url)) else url

/-- `normalizeRawUrl`. -/
def normalizeRawUrl (p : Platform) (rawUrl : String) : Option String :=
  (p.newUrl rawUrl).map fun url ↦ p.toString (trimPath p (stripUrl p url))

/-- `rawUrlHash`, in hexadecimal. -/
def rawUrlHash (p : Platform) (rawUrl : String) : Option String :=
  (normalizeRawUrl p rawUrl).map fun text ↦ p.sha256 (Utf8.ofText text)

/-- The URLs of the packaged pages and their paths, in the order in which they become routes. -/
def routeEntries (routes : List SiteRoute) (pages : List PackagedPage) : List (String × String) :=
  (routes.filter fun route ↦ (pages.map PackagedPage.localPath).contains route.localPath).map
      (fun route ↦ (route.url, route.localPath)) ++
    pages.flatMap fun page ↦
      [(page.sourceFinalUrl, page.localPath), (page.publicFinalUrl, page.localPath)]

/-- A further route; it hides an earlier one of the same hash. -/
def addRoute (p : Platform) (table : List (String × String)) (entry : String × String) :
    Option (List (String × String)) :=
  (rawUrlHash p entry.1).map fun hash ↦ (hash, entry.2) :: table

/-- `routeMap` of `buildSiteArchives`. -/
def routeMap (p : Platform) (routes : List SiteRoute) (pages : List PackagedPage) :
    Option (List (String × String)) :=
  (routeEntries routes pages).foldlM (addRoute p) []

/-! ### Links -/

/-- Whether a link has a target that is looked up. -/
def isFollowed (value : String) : Bool :=
  decide (value ≠ "") &&
    !hasScheme ["data", "blob", "about", "javascript", "mailto", "tel"] value

section Rewriting

variable (p : Platform) (sourceUrl sourcePath : String) (table : List (String × String))

/-- The route of a target. -/
def routeOf (target : p.Url) : Option String :=
  ((rawUrlHash p (p.toString (p.setHash target ""))).bind fun hash ↦ table.lookup hash).filter
    fun path ↦ path ≠ ""

/-- The value of `href` after the rewriting. -/
def rewriteLink (value : String) : String :=
  if isFollowed value = false then value
  else match p.newUrlFrom value sourceUrl with
  | none => ""
  | some target =>
    let text := p.toString (p.setHash target "")
    match rawUrlHash p text with
    | none => ""
    | some _ =>
      match routeOf p table target with
      | some route => relativeArchivePath sourcePath route ++ p.hash target
      | none => sanitizeUrl p text ++ p.hash target

/-- The first `href` of the attributes, rewritten. -/
def rewriteHref : List Attribute → List Attribute
  | [] => []
  | attr :: rest =>
    if p.toLowerCase attr.name = "href" then
      { attr with value := rewriteLink p sourceUrl sourcePath table attr.value } :: rest
    else attr :: rewriteHref rest

/-- Whether an element is a link. -/
def isLink (tagName : Option String) : Bool :=
  decide (tagName = some "a") || decide (tagName = some "area")

/-- The rewriting of the links of a document. -/
def navigationRewriting : Html.Rewriting where
  attributes tagName attrs :=
    if isLink tagName = true then rewriteHref p sourceUrl sourcePath table attrs else attrs
  text _ value := value
  keep _ := true

/-- `rewriteSiteNavigation`. -/
def rewriteSiteNavigation (parse : String → Html.Node) (serialize : Html.Node → String)
    (html : ByteString) : ByteString :=
  Utf8.ofText (serialize (transform (navigationRewriting p sourceUrl sourcePath table) none
    (parse (p.decodeUtf8 html))))

end Rewriting

/-- The first `href` of the attributes. -/
def hrefOf (p : Platform) (attrs : List Attribute) : Option String :=
  (attrs.find? fun attr ↦ p.toLowerCase attr.name = "href").map Attribute.value

/-- The links of a document. -/
def linksOf (p : Platform) (document : Html.Node) : List String :=
  (elements document).filterMap fun element ↦
    if isLink element.1 = true then hrefOf p element.2 else none

/-! ### The links of a rewritten document -/

section Links

variable {p : Platform} {sourceUrl sourcePath : String} {table : List (String × String)}

theorem hrefOf_rewriteHref (attrs : List Attribute) :
    hrefOf p (rewriteHref p sourceUrl sourcePath table attrs) =
      (hrefOf p attrs).map (rewriteLink p sourceUrl sourcePath table) := by
  induction attrs with
  | nil => rfl
  | cons attr rest ih =>
    unfold hrefOf at ih ⊢
    unfold rewriteHref
    by_cases hname : p.toLowerCase attr.name = "href"
    · rw [if_pos hname, List.find?_cons_of_pos (by exact decide_eq_true hname),
        List.find?_cons_of_pos (by exact decide_eq_true hname)]
      rfl
    · rw [if_neg hname, List.find?_cons_of_neg (by exact fun h ↦ hname (of_decide_eq_true h)), ih,
        List.find?_cons_of_neg (by exact fun h ↦ hname (of_decide_eq_true h))]

/-- Every link is rewritten, and stays where it is. -/
theorem linksOf_transform (document : Html.Node) :
    linksOf p (transform (navigationRewriting p sourceUrl sourcePath table) none document) =
      (linksOf p document).map (rewriteLink p sourceUrl sourcePath table) := by
  unfold linksOf
  rw [elements_transform fun _ ↦ rfl, List.filterMap_map, List.map_filterMap]
  congr 1
  funext element
  show (if isLink element.1 = true then _ else _) = _
  by_cases hlink : isLink element.1 = true
  · rw [if_pos hlink, if_pos hlink]
    show hrefOf p (if isLink element.1 = true then _ else _) = _
    rw [if_pos hlink, hrefOf_rewriteHref]
  · rw [if_neg hlink, if_neg hlink]
    rfl

end Links

end WebLens.SiteArchive
