import WebLens.SiteArchive.Files
import WebLens.StaticClone.References

/-!
# References within an archive

`rewriteArchiveReference` of `site-archive.ts`: a reference to a file that has an alias leads to the
file that stands for it. A reference to another place, or one that cannot be resolved, stays.
-/

set_option autoImplicit false
set_option relaxedAutoImplicit false

namespace WebLens.SiteArchive

open Lib Lib.PosixPath
open StaticClone

/-- `resolveResourceAlias`, which throws for a circle of aliases; `seen` has a name of every step, so
there are at most as many steps as aliases. -/
def resolveAlias (aliases : List (String × String)) : ℕ → List String → String → Option String
  | 0, _, _ => none
  | fuel + 1, seen, path =>
    match aliases.lookup (lowerCase path) with
    | none => some path
    | some next =>
      if seen.contains (lowerCase path) = true then none
      else resolveAlias aliases fuel (lowerCase path :: seen) next

def resolveResourceAlias (aliases : List (String × String)) (path : String) : Option String :=
  resolveAlias aliases (aliases.length + 1) [] path

/-- What `/^(?:[a-z][a-z0-9+.-]*:|\/\/)/iu` matches. -/
def leadsElsewhere (raw : String) : Bool :=
  let folded := raw.toList.map foldCase
  let scheme := folded.takeWhile fun c ↦ c ≠ ':'
  "//".toList.isPrefixOf folded ||
    (decide (scheme.length < folded.length) && scheme.head?.any Char.isLower &&
      scheme.all fun c ↦ c.isLower || c.isDigit || "+.-".toList.contains c)

/-- The path and the query with the fragment of `/^([^?#]*)([?#].*)?$/u`. -/
def splitReference (raw : String) : Option (String × String) :=
  let path := raw.toList.takeWhile fun c ↦ c ≠ '?' ∧ c ≠ '#'
  let suffix := raw.toList.dropWhile fun c ↦ c ≠ '?' ∧ c ≠ '#'
  if suffix.any isLineEnd = true then none else some (String.ofList path, String.ofList suffix)

/-- The file that stands for the file of a reference, if that file has an alias. -/
def canonicalPath (p : Platform) (sourcePath : String) (aliases pageAliases : List (String × String))
    (path : String) : Option String := do
  let resolved ← safeArchivePath p
    (if path.toList.head? = some '/' then path else join [dirname sourcePath, path])
  match (pageAliases.lookup (lowerCase resolved)).filter fun path ↦ path ≠ "" with
  | some contextual => resolveResourceAlias aliases contextual
  | none =>
    if (aliases.lookup (lowerCase resolved)).isSome = true then
      resolveResourceAlias aliases resolved
    else none

/-- `rewriteArchiveReference`. -/
def rewriteArchiveReference (p : Platform) (sourcePath : String)
    (aliases pageAliases : List (String × String)) (raw : String) : String :=
  if raw = "" ∨ raw.toList.head? = some '#' ∨ leadsElsewhere raw = true then raw
  else match splitReference raw with
  | none => raw
  | some (path, suffix) =>
    if path = "" then raw
    else match (canonicalPath p sourcePath aliases pageAliases path).filter fun path ↦ path ≠ "" with
    | none => raw
    | some canonical => StaticClone.relativeArchivePath sourcePath canonical ++ suffix

end WebLens.SiteArchive
