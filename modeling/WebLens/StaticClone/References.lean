import WebLens.Lib.Scan
import WebLens.StaticClone.Plan

/-!
# References in stylesheets

`rewriteCss` of `static-clone.ts`: what becomes of the references of a stylesheet. The patterns of
its two replacements are `url\(\s*(['"]?)(.*?)\1\s*\)` and `@import\s+(['"])(.*?)\1`, without regard
to case; the second one runs over the text that the first one leaves.
-/

set_option autoImplicit false
set_option relaxedAutoImplicit false

namespace WebLens.StaticClone

open Lib Lib.PosixPath
open Lib.Utf8 (ByteString)
open SiteClone.Design (Pattern)

/-! ### Patterns -/

/-- `\s`. -/
def isSpace (c : Char) : Bool :=
  [0x09, 0x0A, 0x0B, 0x0C, 0x0D, 0x20, 0xA0, 0x1680, 0x2028, 0x2029, 0x202F, 0x205F, 0x3000,
    0xFEFF].contains c.toNat || (decide (0x2000 ≤ c.toNat) && decide (c.toNat ≤ 0x200A))

/-- What `.` does not match. -/
def isLineEnd (c : Char) : Bool :=
  [0x0A, 0x0D, 0x2028, 0x2029].contains c.toNat

def isQuote (c : Char) : Bool :=
  "'\"".toList.contains c

/-- The text behind a word of small letters, in any case. -/
def afterWord : List Char → List Char → Option (List Char)
  | [], text => some text
  | _ :: _, [] => none
  | w :: word, c :: text => if foldCase c = w then afterWord word text else none

/-- A reference: the quote before and behind it, if there is one, and the text between. -/
structure Reference where
  quote : List Char
  raw : List Char
deriving DecidableEq

/-- The shortest text of one line before a text that `close` matches, and the text behind. -/
def upto (close : List Char → Option (List Char)) : List Char → Option (List Char × List Char)
  | [] => (close []).map fun after ↦ ([], after)
  | c :: text =>
    match close (c :: text) with
    | some after => some ([], after)
    | none =>
      if isLineEnd c = true then none
      else (upto close text).map fun found ↦ (c :: found.1, found.2)

/-- The quote, spaces and a closing parenthesis. -/
def closeUrl (quote text : List Char) : Option (List Char) :=
  (afterWord quote text).bind fun after ↦
    match after.dropWhile isSpace with
    | ')' :: rest => some rest
    | _ => none

/-- A match of `url\(\s*(['"]?)(.*?)\1\s*\)`: with a quote if that is possible. Fewer spaces before
the quote would not match where all of them do not. -/
def matchUrl (text : List Char) : Option (Reference × List Char) := do
  let after ← afterWord "url(".toList text
  let text := after.dropWhile isSpace
  let plain := (upto (closeUrl []) text).map fun found ↦ (⟨[], found.1⟩, found.2)
  match text with
  | c :: rest =>
    if isQuote c = true then
      ((upto (closeUrl [c]) rest).map fun found ↦ (⟨[c], found.1⟩, found.2)) <|> plain
    else plain
  | [] => plain

/-- A match of `@import\s+(['"])(.*?)\1`. -/
def matchImport (text : List Char) : Option (Reference × List Char) := do
  let after ← afterWord "@import".toList text
  match after.head?.filter isSpace, after.dropWhile isSpace with
  | some _, c :: rest =>
    if isQuote c = true then
      (upto (afterWord [c]) rest).map fun found ↦ (⟨[c], found.1⟩, found.2)
    else none
  | _, _ => none

/-! ### Replacing -/

section Replacing

variable (rewrite : String → String)

/-- A reference between its quotes, rewritten. -/
def Reference.render (reference : Reference) : List Char :=
  reference.quote ++ (rewrite (String.ofList reference.raw)).toList ++ reference.quote

/-- The replacement of `url(…)`. -/
def rewriteUrls (css : List Char) : List Char :=
  replaceMatches matchUrl (fun reference ↦
    "url(".toList ++ reference.render rewrite ++ [')']) css

/-- The replacement of `@import "…"`. -/
def rewriteImports (css : List Char) : List Char :=
  replaceMatches matchImport (fun reference ↦
    "@import ".toList ++ reference.render rewrite) css

/-- A stylesheet with its references rewritten. -/
def rewriteCssText (css : String) : String :=
  String.ofList (rewriteImports rewrite (rewriteUrls rewrite css.toList))

/-- The references of a stylesheet that are rewritten. -/
def referencesOf (css : String) : List String :=
  (matchesOf matchUrl css.toList ++
    matchesOf matchImport (rewriteUrls rewrite css.toList)).map
      fun reference ↦ String.ofList reference.raw

end Replacing

/-! ### References -/

/-- Whether a reference starts with one of the schemes, in any case. -/
def hasScheme (schemes : List String) (raw : String) : Bool :=
  schemes.any fun scheme ↦ (scheme.toList ++ [':']).isPrefixOf (raw.toList.map foldCase)

/-- `redactUrl`. -/
def redactUrl (p : Platform) (raw : String) : String :=
  match p.newUrl raw with
  | none => ""
  | some url =>
    if p.protocol url ≠ "http:" ∧ p.protocol url ≠ "https:" then p.protocol url ++ "[OMITTED]"
    else
      let url := p.setHash (p.setPassword (p.setUsername url "") "") ""
      let url := (p.searchKeys url).foldl (fun url key ↦
        p.appendKey (p.deleteKey url key) key "[REDACTED]") url
      String.ofList ((p.toString url).toList.take 8192)

/-- The path of the first resource that has one and has the URL. -/
def findTarget (p : Platform) (url : String) : List PlannedResource → Option (Option String)
  | [] => some none
  | resource :: rest =>
    match resource.localPath with
    | none => findTarget p url rest
    | some path =>
      if path = "" then findTarget p url rest
      else do
        let resourceUrl ← normalizeResourceUrl p resource.sourceUrl
        let normalizedUrl ← normalizeResourceUrl p url
        if resourceUrl = normalizedUrl then some (some path) else findTarget p url rest

/-- The file that a reference in a stylesheet leads to. -/
def cssTarget (p : Platform) (resources : List PlannedResource) (sourceUrl raw : String) :
    Option String :=
  if raw = "" ∨ hasScheme ["data", "blob", "about", "javascript"] raw = true then none
  else do
    let url ← p.newUrlFrom raw sourceUrl
    let target ← findTarget p (p.toString (p.setHash url "")) resources
    target

/-- `rewriteReference` of `rewriteCss`. -/
def rewriteReference (p : Platform) (resources : List PlannedResource)
    (sourceUrl sourcePath raw : String) : String :=
  if raw = "" ∨ hasScheme ["data", "blob", "about", "javascript"] raw = true then raw
  else match p.newUrlFrom raw sourceUrl with
  | none => ""
  | some url =>
    let absolute := p.toString (p.setHash url "")
    match findTarget p absolute resources with
    | none => ""
    | some (some target) => relativeArchivePath sourcePath target ++ p.hash url
    | some none => redactUrl p absolute ++ p.hash url

/-- `rewriteCss`. -/
def rewriteCss (p : Platform) (resources : List PlannedResource) (sourceUrl sourcePath css : String) :
    String :=
  rewriteCssText (rewriteReference p resources sourceUrl sourcePath) css

/-- `url( "a.png" )`, and a reference whose quote is not closed. -/
example : rewriteCssText (fun raw ↦ "<" ++ raw ++ ">") "a URL( \"x\" );b url('y);@import 'z';" =
    "a url(\"<x>\");b url(<'y>);@import '<z>';" := by
  decide +kernel

end WebLens.StaticClone
