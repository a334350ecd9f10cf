import WebLens.StaticClone.Paths

/-!
# The plan of a static clone

`planStaticClone` of `static-clone.ts`: which captured resources become files of the archive, under
which paths, and what the references to their URLs are replaced by. The resources are planned one
after the other, against the paths that are used and the budgets of files and bytes.
-/

set_option autoImplicit false
set_option relaxedAutoImplicit false

namespace WebLens.StaticClone

open Lib Lib.PosixPath
open Lib.Utf8 (ByteString)

/-! ### Resources -/

/-- `CloneInputResource`. -/
structure CloneInputResource where
  sequence : ℕ
  sourceUrl : String
  publicUrl : String
  resourceType : String
  mimeType : String
  body : Option ByteString
  wasTruncated : Bool
  skipReason : Option String
deriving DecidableEq

/-- `PlannedResource`. -/
structure PlannedResource extends CloneInputResource where
  localPath : Option String
deriving DecidableEq

/-- `StaticClonePlanOptions`. -/
structure StaticClonePlanOptions where
  mainPath : Option String := none
  contentAddressedResources : Bool := false
  allowExternalVisualResources : Bool := false

/-- `StaticClonePlan`. -/
structure StaticClonePlan where
  finalUrl : String
  mainPath : String
  resources : List PlannedResource
  replacements : List (String × String)
  allowExternalVisualResources : Bool
deriving DecidableEq

/-- Whether a text that may be absent counts as true. -/
def isTruthy (text : Option String) : Bool :=
  text.any fun text ↦ decide (text ≠ "")

def maxFiles : ℕ := 100

def maxInputBytes : ℕ := 52_428_800

/-! ### URLs -/

/-- `isSameOrigin`. -/
def isSameOrigin (p : Platform) (left right : String) : Bool :=
  match p.newUrl left, p.newUrl right with
  | some left, some right => decide (p.origin left = p.origin right)
  | _, _ => false

/-- `normalizeResourceUrl`. -/
def normalizeResourceUrl (p : Platform) (raw : String) : Option String :=
  (p.newUrl raw).map fun url ↦ p.toString (p.setHash url "")

def visualImages : List String :=
  ["avif", "bmp", "gif", "jpeg", "png", "svg+xml", "webp", "x-icon", "vnd.microsoft.icon"].map
    fun kind ↦ "image/" ++ kind

def visualFonts : List String :=
  (["woff", "woff2", "ttf", "otf", "collection"].map fun kind ↦ "font/" ++ kind) ++
    ["application/font-woff", "application/x-font-ttf", "application/x-font-opentype",
      "application/vnd.ms-fontobject"]

/-- `isExternalVisualResource`. -/
def isExternalVisualResource (p : Platform) (resource : CloneInputResource) : Bool :=
  let mime := mimeOf p resource.mimeType
  match p.newUrl resource.sourceUrl with
  | none => false
  | some url =>
    decide (p.protocol url = "https:") && decide (p.username url = "") &&
      decide (p.password url = "") &&
      ((decide (resource.resourceType = "stylesheet") && decide (mime = "text/css")) ||
        (decide (resource.resourceType = "image") && visualImages.contains mime) ||
        (decide (resource.resourceType = "font") && visualFonts.contains mime))

/-! ### Planning -/

/-- The variables of the loop over the resources. -/
structure Planning where
  used : List String
  contentPaths : List (String × String) := []
  replacements : List (String × String) := []
  plannedFiles : ℕ := 1
  plannedBytes : ℕ
  planned : List PlannedResource := []

/-- What becomes of a resource. -/
inductive Decision
  | skip (reason : Option String)
  | share (url path : String)
  | add (url contentKey desired : String) (bytes : ℕ)

/-- An assignment to a property of a record. -/
def setProperty (record : List (String × String)) (key value : String) : List (String × String) :=
  if record.any (fun entry ↦ decide (entry.1 = key)) = true then
    record.map fun entry ↦ if entry.1 = key then (key, value) else entry
  else record ++ [(key, value)]

/-- The path that a resource gets unless it is taken. -/
def desiredPath (p : Platform) (options : StaticClonePlanOptions) (resource : CloneInputResource)
    (body : ByteString) : Option String :=
  if options.contentAddressedResources = true then
    some (inferExtension p (join ["assets", p.sha256 body]) resource.mimeType)
  else (urlToLocalPath p resource.sourceUrl).map fun path ↦ inferExtension p path resource.mimeType

/-- What becomes of a resource, given what was planned before it. -/
def decideResource (p : Platform) (finalUrl : String) (options : StaticClonePlanOptions)
    (s : Planning) (resource : CloneInputResource) : Option Decision :=
  match resource.body with
  | none => some (.skip resource.skipReason)
  | some body =>
    if isTruthy resource.skipReason = true then some (.skip resource.skipReason)
    else if isSameOrigin p resource.sourceUrl finalUrl = false ∧
        (options.allowExternalVisualResources && isExternalVisualResource p resource) = false then
      some (.skip (some "EXTERNAL_ORIGIN"))
    else do
      let desired ← desiredPath p options resource body
      let url ← normalizeResourceUrl p resource.sourceUrl
      let contentKey := if resource.resourceType = "stylesheet" then desired ++ "\n" ++ url
        else desired
      match if options.contentAddressedResources = true then s.contentPaths.lookup contentKey
          else none with
      | some path => some (.share url path)
      | none =>
        if maxFiles ≤ s.plannedFiles then some (.skip (some "FILE_COUNT_BUDGET_EXCEEDED"))
        else if maxInputBytes < s.plannedBytes + body.length then
          some (.skip (some "CLONE_INPUT_BUDGET_EXCEEDED"))
        else some (.add url contentKey desired body.length)

/-- The key under which the file of a resource is shared. -/
def contentKey (resource : CloneInputResource) (desired url : String) : String :=
  if resource.resourceType = "stylesheet" then desired ++ "\n" ++ url else desired

/-- What a decision rests on. -/
theorem decideResource_cases {p : Platform} {finalUrl : String} {options : StaticClonePlanOptions}
    {s : Planning} {resource : CloneInputResource} {decision : Decision}
    (h : decideResource p finalUrl options s resource = some decision) :
    (∃ reason, decision = .skip reason) ∨
      ∃ body desired url, resource.body = some body ∧ isTruthy resource.skipReason = false ∧
        desiredPath p options resource body = some desired ∧
        normalizeResourceUrl p resource.sourceUrl = some url ∧
        ((∃ path, decision = .share url path ∧ options.contentAddressedResources = true ∧
            s.contentPaths.lookup (contentKey resource desired url) = some path) ∨
          decision = .add url (contentKey resource desired url) desired body.length ∧
            (options.contentAddressedResources = true →
              s.contentPaths.lookup (contentKey resource desired url) = none)) := by
  unfold decideResource at h
  cases hbody : resource.body with
  | none =>
    rw [hbody] at h
    exact .inl ⟨_, (Option.some.inj h).symm⟩
  | some body =>
    rw [hbody] at h
    dsimp only at h
    by_cases hreason : isTruthy resource.skipReason = true
    · rw [if_pos hreason] at h
      exact .inl ⟨_, (Option.some.inj h).symm⟩
    rw [if_neg hreason] at h
    by_cases horigin : isSameOrigin p resource.sourceUrl finalUrl = false ∧
        (options.allowExternalVisualResources && isExternalVisualResource p resource) = false
    · rw [if_pos horigin] at h
      exact .inl ⟨_, (Option.some.inj h).symm⟩
    rw [if_neg horigin] at h
    obtain ⟨desired, hdesired, h⟩ := Option.bind_eq_some_iff.1 h
    obtain ⟨url, hurl, h⟩ := Option.bind_eq_some_iff.1 h
    have hkey : (if resource.resourceType = "stylesheet" then desired ++ "\n" ++ url else desired) =
        contentKey resource desired url := rfl
    rw [hkey] at h
    split at h
    · next path hlookup =>
      refine .inr ⟨body, desired, url, rfl, Bool.eq_false_iff.2 hreason, hdesired, hurl,
        .inl ⟨path, (Option.some.inj h).symm, ?_⟩⟩
      by_cases hcontent : options.contentAddressedResources = true
      · rw [if_pos hcontent] at hlookup
        exact ⟨hcontent, hlookup⟩
      · rw [if_neg hcontent] at hlookup
        cases hlookup
    · next hlookup =>
      by_cases hfiles : maxFiles ≤ s.plannedFiles
      · rw [if_pos hfiles] at h
        exact .inl ⟨_, (Option.some.inj h).symm⟩
      rw [if_neg hfiles] at h
      by_cases hbytes : maxInputBytes < s.plannedBytes + body.length
      · rw [if_pos hbytes] at h
        exact .inl ⟨_, (Option.some.inj h).symm⟩
      rw [if_neg hbytes] at h
      refine .inr ⟨body, desired, url, rfl, Bool.eq_false_iff.2 hreason, hdesired, hurl,
        .inr ⟨(Option.some.inj h).symm, fun hcontent ↦ ?_⟩⟩
      rwa [if_pos hcontent] at hlookup

/-- The variables after a resource. -/
def Planning.apply (mainPath : String) (options : StaticClonePlanOptions) (s : Planning)
    (resource : CloneInputResource) : Decision → Planning
  | .skip reason =>
    { s with planned := s.planned ++ [{ resource with localPath := none, skipReason := reason }] }
  | .share url path =>
    { s with
      replacements := setProperty s.replacements url (relativeArchivePath mainPath path)
      planned := s.planned ++ [{ resource with localPath := some path }] }
  | .add url contentKey desired bytes =>
    let localPath := deduplicatePath desired s.used
    { used := s.used ++ [lowerCase localPath]
      contentPaths := if options.contentAddressedResources = true then
        s.contentPaths ++ [(contentKey, localPath)] else s.contentPaths
      replacements := setProperty s.replacements url (relativeArchivePath mainPath localPath)
      plannedFiles := s.plannedFiles + 1
      plannedBytes := s.plannedBytes + bytes
      planned := s.planned ++ [{ resource with localPath := some localPath }] }

/-- One round of the loop. -/
def planResource (p : Platform) (finalUrl mainPath : String) (options : StaticClonePlanOptions)
    (s : Planning) (resource : CloneInputResource) : Option Planning :=
  (decideResource p finalUrl options s resource).map (s.apply mainPath options resource)

/-- What every round keeps, the loop keeps. -/
theorem foldlM_planResource_induction {p : Platform} {finalUrl mainPath : String}
    {options : StaticClonePlanOptions} {motive : Planning → Prop}
    {resources : List CloneInputResource}
    (hstep : ∀ s, ∀ resource ∈ resources, ∀ decision, motive s →
      decideResource p finalUrl options s resource = some decision →
        motive (s.apply mainPath options resource decision)) :
    ∀ {s s' : Planning}, motive s →
      resources.foldlM (planResource p finalUrl mainPath options) s = some s' → motive s' := by
  induction resources with
  | nil =>
    intro s s' h hrun
    cases hrun
    exact h
  | cons resource rest ih =>
    intro s s' h hrun
    rw [List.foldlM_cons] at hrun
    obtain ⟨middle, hmiddle, hrun⟩ := Option.bind_eq_some_iff.1 hrun
    obtain ⟨decision, hdecide, rfl⟩ := Option.map_eq_some_iff.1 hmiddle
    exact ih (fun s other hother ↦ hstep s other (List.mem_cons_of_mem _ hother))
      (hstep s resource (List.mem_cons_self ..) decision h hdecide) hrun

/-- The path of the document. -/
def mainPathOf (p : Platform) (finalUrl : String) (options : StaticClonePlanOptions) :
    Option String :=
  match options.mainPath with
  | some path => some path
  | none => (urlToLocalPath p finalUrl).map fun path ↦ inferExtension p path "text/html"

/-- The variables before the loop. -/
def Planning.start (mainPath : String) (htmlBytes : ℕ) : Planning where
  used := [lowerCase mainPath]
  plannedBytes := htmlBytes

/-- `planStaticClone`. -/
def planStaticClone (p : Platform) (finalUrl : String) (resources : List CloneInputResource)
    (htmlBytes : ℕ) (options : StaticClonePlanOptions) : Option StaticClonePlan := do
  let mainPath ← mainPathOf p finalUrl options
  let s ← resources.foldlM (planResource p finalUrl mainPath options)
    (Planning.start mainPath htmlBytes)
  some {
    finalUrl := finalUrl
    mainPath := mainPath
    resources := s.planned
    replacements := s.replacements
    allowExternalVisualResources := options.allowExternalVisualResources }

end WebLens.StaticClone
