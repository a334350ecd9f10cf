import WebLens.Lib.PosixPath
import WebLens.SiteClone.Design

/-!
# Archive paths

`static-clone.ts`: the path of a captured URL in an archive. `urlToLocalPath` makes the host and
every segment of the URL's path safe, `inferExtension` adds an extension for the MIME type, and
`deduplicatePath` numbers a path that is taken. The extension is looked up in an object literal, so
a MIME type that names a property of `Object.prototype` finds that property.
-/

set_option autoImplicit false
set_option relaxedAutoImplicit false

namespace WebLens.StaticClone

open Lib Lib.PosixPath
open SiteClone.Design (splitText segmentsOf textLength)

/-- The part of the platform that a static clone uses. -/
structure Platform extends SiteClone.Design.Platform where
  host : Url → String
  username : Url → String
  password : Url → String
  hash : Url → String
  /-- `url.searchParams.append`. -/
  appendKey : Url → String → String → Url
  /-- `text.normalize('NFC')`. -/
  normalizeNfc : String → String
  /-- `decodeURIComponent`, which throws for a text that it cannot decode. -/
  decodeUriComponent : String → Option String
  /-- `buffer.toString('utf8')`. -/
  decodeUtf8 : Utf8.ByteString → String
  /-- The hexadecimal SHA-256 of some bytes. -/
  sha256 : Utf8.ByteString → String

/-! ### Components -/

/-- What `/[<>:"|?*\u0000-\u001f\\/]/gu` matches. -/
def isReserved (c : Char) : Bool :=
  "<>:\"|?*\\/".toList.contains c || decide (c.toNat ≤ 0x1F)

/-- What `/[^a-z0-9._-]/giu` does not match: the long s and the Kelvin sign fold to letters. -/
def isKept (c : Char) : Bool :=
  c.isAlphanum || ['.', '_', '-', 'ſ', '\u212A'].contains c

/-- `toUpperCase` of the characters that are kept. -/
def upperCase (c : Char) : Char :=
  if c = 'ſ' then 'S' else c.toUpper

/-- What `/^(?:CON|PRN|AUX|NUL|COM[1-9]|LPT[1-9])$/u` matches. -/
def deviceNames : List (List Char) :=
  (["CON", "PRN", "AUX", "NUL"] ++
    ["COM", "LPT"].flatMap fun device ↦
      ["1", "2", "3", "4", "5", "6", "7", "8", "9"].map fun digit ↦ device ++ digit).map
    String.toList

/-- The characters before the first dot. -/
def baseOf (component : List Char) : List Char :=
  component.takeWhile fun c ↦ decide (c ≠ '.')

def isDevice (component : List Char) : Bool :=
  deviceNames.contains ((baseOf component).map upperCase)

/-- The characters before the last dot, and that dot. -/
def uptoLastDot (component : List Char) : List Char :=
  component.rdropWhile fun c ↦ decide (c ≠ '.')

/-- The characters from the last dot on, at most 21, unless that dot comes first. -/
def shortExtension (component : List Char) : List Char :=
  if (uptoLastDot component).length ≤ 1 then []
  else ('.' :: component.rtakeWhile fun c ↦ decide (c ≠ '.')).take 21

/-- A component of more than 100 characters, cut before its extension. -/
def shorten (component : List Char) : List Char :=
  if 100 < component.length then
    component.take (max 1 (100 - (shortExtension component).length)) ++ shortExtension component
  else component

/-- The first steps of `sanitizePathComponent`: characters that are kept, and no dot at the end. -/
def cleanComponent (p : Platform) (value : String) : List Char :=
  let replaced := ((p.normalizeNfc value).toList.map fun c ↦ if isReserved c = true then '_' else c).map
    fun c ↦ if isKept c = true then c else '_'
  replaced.rdropWhile fun c ↦ decide (c = '.') || decide (c = ' ')

/-- `sanitizePathComponent`. -/
def sanitizePathComponent (p : Platform) (value : String) : String :=
  let cleaned := cleanComponent p value
  let named := if cleaned = [] ∨ cleaned = ['.'] ∨ cleaned = ['.', '.'] then ['_'] else cleaned
  String.ofList (shorten (if isDevice named = true then '_' :: named else named))

/-! ### Paths -/

/-- `safeDecode`. -/
def safeDecode (p : Platform) (value : String) : String :=
  (p.decodeUriComponent value).getD value

/-- `urlToLocalPath`. -/
def urlToLocalPath (p : Platform) (raw : String) : Option String := do
  let url ← p.newUrl raw
  let host := sanitizePathComponent p
    (String.ofList ((p.host url).toList.map fun c ↦ if c = ':' then '_' else c))
  let parts := (segmentsOf (p.pathname url)).map fun part ↦ sanitizePathComponent p (safeDecode p part)
  some (join (host :: if parts = [] ∨ endsInSlash (p.pathname url) = true then parts ++ ["index.html"]
    else parts))

/-- `MIME_EXTENSIONS`. -/
def mimeExtensions : List (String × String) := [
  ("text/html", ".html"), ("text/css", ".css"), ("text/javascript", ".js"),
  ("application/javascript", ".js"), ("application/x-javascript", ".js"),
  ("image/png", ".png"), ("image/jpeg", ".jpg"), ("image/gif", ".gif"),
  ("image/svg+xml", ".svg"), ("image/webp", ".webp"), ("image/avif", ".avif"),
  ("image/x-icon", ".ico"), ("image/vnd.microsoft.icon", ".ico"),
  ("font/woff", ".woff"), ("font/woff2", ".woff2"), ("font/ttf", ".ttf"),
  ("font/otf", ".otf"), ("application/font-woff", ".woff"),
  ("application/font-woff2", ".woff2"), ("application/x-font-woff", ".woff"),
  ("application/x-font-ttf", ".ttf"), ("application/vnd.ms-fontobject", ".eot")]

/-- The text of a function that is built in. -/
def functionText (name : String) : String :=
  "function " ++ name ++ "() \x7b [native code] \x7d"

/-- The texts of the properties of `Object.prototype`, which every object literal inherits. -/
def inheritedProperties : List (String × String) :=
  [("constructor", functionText "Object"), ("__proto__", "[object Object]")] ++
    ["__defineGetter__", "__defineSetter__", "__lookupGetter__", "__lookupSetter__",
      "hasOwnProperty", "isPrototypeOf", "propertyIsEnumerable", "toLocaleString", "toString",
      "valueOf"].map fun name ↦ (name, functionText name)

/-- `contentType.split(';')[0]?.trim().toLowerCase() ?? ''`. -/
def mimeOf (p : Platform) (contentType : String) : String :=
  p.toLowerCase (p.trim ((splitText ';' contentType).headD ""))

/-- `MIME_EXTENSIONS[mime] ?? ''`, as a text. -/
def extensionOf (mime : String) : String :=
  ((mimeExtensions ++ inheritedProperties).lookup mime).getD ""

/-- `inferExtension`. -/
def inferExtension (p : Platform) (path contentType : String) : String :=
  if '.' ∈ (basename path).toList then path else path ++ extensionOf (mimeOf p contentType)

/-- `toLowerCase` of a character of ASCII or one that is kept. -/
def lowerChar (c : Char) : Char :=
  if c = '\u212A' then 'k' else c.toLower

/-- `toLowerCase` of a path, whose letters outside ASCII are those that are kept. -/
def lowerCase (path : String) : String :=
  String.ofList (path.toList.map lowerChar)

/-- A character under the flags `iu` of a pattern: the long s and the Kelvin sign are letters. -/
def foldCase (c : Char) : Char :=
  if c = 'ſ' then 's' else lowerChar c

/-- The path with a number: the number 0 stands for the path itself. -/
def numberedPath (path : String) : ℕ → String
  | 0 => path
  | counter + 1 =>
    let extension := extname path
    join [dirname path, basenameWithout path extension ++ "_" ++ toString (counter + 1) ++ extension]

/-- The first numbered path that is not used, of `fuel + 1` ones. -/
def firstUnused (path : String) (used : List String) : ℕ → ℕ → String
  | 0, counter => numberedPath path counter
  | fuel + 1, counter =>
    if used.contains (lowerCase (numberedPath path counter)) = true then
      firstUnused path used fuel (counter + 1)
    else numberedPath path counter

/-- `deduplicatePath`: one of the first `used.length + 1` paths is not used. -/
def deduplicatePath (path : String) (used : List String) : String :=
  firstUnused path used used.length 0

/-- `relativeArchivePath`. -/
def relativeArchivePath (source target : String) : String :=
  let value := relative (dirname source) target
  if value = "" then basename target else value

end WebLens.StaticClone
