import WebLens.StaticClone.Build

/-!
# Where references lead

The record `replacements` of a plan has, for every URL that is planned, the path of the last resource
with that URL; a stylesheet is rewritten with the path of the first one that still has a path.
-/

set_option autoImplicit false
set_option relaxedAutoImplicit false

namespace WebLens.StaticClone

open Lib Lib.PosixPath

/-! ### Records -/

theorem lookup_map_update {record : List (String × String)} {key value : String} (other : String) :
    (record.map fun entry ↦ if entry.1 = key then (key, value) else entry).lookup other =
      if other = key then (record.lookup key).map fun _ ↦ value else record.lookup other := by
  induction record with
  | nil => split_ifs <;> rfl
  | cons entry rest ih =>
    rw [List.map_cons]
    by_cases hentry : entry.1 = key
    · rw [if_pos hentry, List.lookup_cons, List.lookup_cons, List.lookup_cons, hentry]
      by_cases hother : other = key
      · subst hother
        rw [if_pos rfl, beq_self_eq_true]
        rfl
      · rw [if_neg hother, beq_false_of_ne hother]
        rw [if_neg hother] at ih
        exact ih
    · rw [if_neg hentry, List.lookup_cons, List.lookup_cons, List.lookup_cons]
      by_cases hother : other = key
      · subst hother
        rw [if_pos rfl, beq_false_of_ne (Ne.symm hentry)]
        rw [if_pos rfl] at ih
        exact ih
      · rw [if_neg hother]
        rw [if_neg hother] at ih
        rw [ih]

/-- What an assignment to a property changes. -/
theorem lookup_setProperty (record : List (String × String)) (key value other : String) :
    (setProperty record key value).lookup other =
      if other = key then some value else record.lookup other := by
  unfold setProperty
  by_cases hany : record.any (fun entry ↦ decide (entry.1 = key)) = true
  · rw [if_pos hany, lookup_map_update]
    by_cases hother : other = key
    · rw [if_pos hother, if_pos hother]
      obtain ⟨entry, hentry, hkey⟩ := List.any_eq_true.1 hany
      have hsome : (record.lookup key).isSome = true :=
        List.lookup_isSome_iff.2 ⟨entry, hentry, beq_iff_eq.2 (of_decide_eq_true hkey).symm⟩
      obtain ⟨old, hold⟩ := Option.isSome_iff_exists.1 hsome
      rw [hold]
      rfl
    · rw [if_neg hother, if_neg hother]
  · rw [if_neg hany, List.lookup_append]
    by_cases hother : other = key
    · subst hother
      have hnone : record.lookup other = none := by
        refine List.lookup_eq_none_iff.2 fun entry hentry ↦ bne_iff_ne.2 fun heq ↦ hany ?_
        exact List.any_eq_true.2 ⟨entry, hentry, decide_eq_true heq.symm⟩
      rw [if_pos rfl, hnone, List.lookup_cons, beq_self_eq_true]
      rfl
    · rw [if_neg hother, List.lookup_cons, beq_false_of_ne hother]
      exact Option.or_none

/-! ### The document -/

/-- The path of a resource, if it has the URL. -/
def targetOf (p : Platform) (url : String) (resource : PlannedResource) : Option String :=
  if normalizeResourceUrl p resource.sourceUrl = some url then resource.localPath else none

/-- The path of the last resource that has one and has the URL. -/
def lastTarget (p : Platform) (url : String) (resources : List PlannedResource) : Option String :=
  resources.reverse.findSome? (targetOf p url)

theorem lastTarget_concat (p : Platform) (url : String) (resources : List PlannedResource)
    (resource : PlannedResource) :
    lastTarget p url (resources ++ [resource]) =
      (targetOf p url resource).or (lastTarget p url resources) := by
  unfold lastTarget
  rw [List.reverse_append, List.reverse_singleton, List.singleton_append, List.findSome?_cons]
  cases targetOf p url resource <;> rfl

theorem exists_of_lastTarget {p : Platform} {url path : String}
    {resources : List PlannedResource} (h : lastTarget p url resources = some path) :
    ∃ resource ∈ resources, normalizeResourceUrl p resource.sourceUrl = some url ∧
      resource.localPath = some path := by
  obtain ⟨resource, hresource, htarget⟩ := List.exists_of_findSome?_eq_some h
  refine ⟨resource, List.mem_reverse.1 hresource, ?_⟩
  unfold targetOf at htarget
  by_cases hurl : normalizeResourceUrl p resource.sourceUrl = some url
  · rw [if_pos hurl] at htarget
    exact ⟨hurl, htarget⟩
  · rw [if_neg hurl] at htarget
    cases htarget

variable {p : Platform} {finalUrl mainPath : String} {options : StaticClonePlanOptions}
  {s s' : Planning} {resource : CloneInputResource}

/-- The replacements lead to the last resource of every URL. -/
def Planning.Replaces (p : Platform) (mainPath : String) (s : Planning) : Prop :=
  ∀ url, s.replacements.lookup url =
    (lastTarget p url s.planned).map (relativeArchivePath mainPath)

/-- A resource whose URL is replaced by the path that it is planned under. -/
theorem Planning.Replaces.concat (h : s.Replaces p mainPath) {url path : String}
    (hurl : normalizeResourceUrl p resource.sourceUrl = some url) (other : String) :
    (setProperty s.replacements url (relativeArchivePath mainPath path)).lookup other =
      (lastTarget p other (s.planned ++ [{ resource with localPath := some path }])).map
        (relativeArchivePath mainPath) := by
  rw [lookup_setProperty, lastTarget_concat]
  unfold targetOf
  by_cases hother : other = url
  · subst hother
    rw [if_pos rfl, if_pos hurl]
    rfl
  · rw [if_neg hother, if_neg (fun heq ↦ hother (Option.some.inj (heq.symm.trans hurl)))]
    exact h other

theorem Planning.Replaces.apply (h : s.Replaces p mainPath) {decision : Decision}
    (hdecide : decideResource p finalUrl options s resource = some decision) :
    (s.apply mainPath options resource decision).Replaces p mainPath := by
  rcases decideResource_cases hdecide with ⟨reason, rfl⟩ | ⟨body, desired, url, -, -, -, hurl,
    ⟨path, rfl, -⟩ | ⟨rfl, -⟩⟩
  · intro other
    show s.replacements.lookup other = (lastTarget p other (s.planned ++ [_])).map _
    rw [lastTarget_concat]
    have hnone : targetOf p other { resource with localPath := none, skipReason := reason } =
        none := by
      unfold targetOf
      split_ifs <;> rfl
    rw [hnone]
    exact h other
  · exact h.concat hurl
  · exact h.concat hurl

/-- What the document's references to a URL are replaced by. -/
theorem lookup_replacements {resources : List CloneInputResource} {htmlBytes : ℕ}
    {plan : StaticClonePlan}
    (hplan : planStaticClone p finalUrl resources htmlBytes options = some plan) (url : String) :
    plan.replacements.lookup url =
      (lastTarget p url plan.resources).map (relativeArchivePath plan.mainPath) := by
  unfold planStaticClone at hplan
  obtain ⟨mainPath, -, hplan⟩ := Option.bind_eq_some_iff.1 hplan
  obtain ⟨s, hrun, hplan⟩ := Option.bind_eq_some_iff.1 hplan
  cases hplan
  have hstart : (Planning.start mainPath htmlBytes).Replaces p mainPath := fun url ↦ rfl
  exact foldlM_planResource_induction
    (fun _ _ _ _ h hdecide ↦ Planning.Replaces.apply h hdecide) hstart hrun url

/-! ### Stylesheets -/

theorem exists_of_findTarget {url path : String} {resources : List PlannedResource}
    (h : findTarget p url resources = some (some path)) :
    ∃ resource ∈ resources, normalizeResourceUrl p resource.sourceUrl =
      normalizeResourceUrl p url ∧ resource.localPath = some path := by
  induction resources with
  | nil => cases h
  | cons resource rest ih =>
    have hrest : findTarget p url rest = some (some path) → ∃ other ∈ resource :: rest,
        normalizeResourceUrl p other.sourceUrl = normalizeResourceUrl p url ∧
          other.localPath = some path := by
      intro hfind
      obtain ⟨other, hother, hspec⟩ := ih hfind
      exact ⟨other, List.mem_cons_of_mem _ hother, hspec⟩
    unfold findTarget at h
    cases hpath : resource.localPath with
    | none =>
      rw [hpath] at h
      exact hrest h
    | some own =>
      rw [hpath] at h
      dsimp only at h
      by_cases hempty : own = ""
      · rw [if_pos hempty] at h
        exact hrest h
      rw [if_neg hempty] at h
      obtain ⟨resourceUrl, hresourceUrl, h⟩ := Option.bind_eq_some_iff.1 h
      obtain ⟨normalizedUrl, hnormalizedUrl, h⟩ := Option.bind_eq_some_iff.1 h
      by_cases hurl : resourceUrl = normalizedUrl
      · rw [if_pos hurl] at h
        cases h
        refine ⟨resource, List.mem_cons_self .., ?_, hpath⟩
        rw [hresourceUrl, hnormalizedUrl, hurl]
      · rw [if_neg hurl] at h
        exact hrest h

theorem exists_of_cssTarget {resources : List PlannedResource} {sourceUrl raw path : String}
    (h : cssTarget p resources sourceUrl raw = some path) :
    ∃ resource ∈ resources, resource.localPath = some path := by
  unfold cssTarget at h
  by_cases hraw : raw = "" ∨ hasScheme ["data", "blob", "about", "javascript"] raw = true
  · rw [if_pos hraw] at h
    cases h
  rw [if_neg hraw] at h
  obtain ⟨url, -, h⟩ := Option.bind_eq_some_iff.1 h
  obtain ⟨target, htarget, h⟩ := Option.bind_eq_some_iff.1 h
  rw [h] at htarget
  obtain ⟨resource, hresource, -, hpath⟩ := exists_of_findTarget htarget
  exact ⟨resource, hresource, hpath⟩

/-- What a stylesheet's reference to a file becomes. -/
theorem rewriteReference_of_cssTarget {resources : List PlannedResource}
    {sourceUrl sourcePath raw path : String}
    (h : cssTarget p resources sourceUrl raw = some path) :
    ∃ url, p.newUrlFrom raw sourceUrl = some url ∧
      rewriteReference p resources sourceUrl sourcePath raw =
        relativeArchivePath sourcePath path ++ p.hash url := by
  unfold cssTarget at h
  unfold rewriteReference
  by_cases hraw : raw = "" ∨ hasScheme ["data", "blob", "about", "javascript"] raw = true
  · rw [if_pos hraw] at h
    cases h
  rw [if_neg hraw] at h ⊢
  obtain ⟨url, hurl, h⟩ := Option.bind_eq_some_iff.1 h
  obtain ⟨target, htarget, h⟩ := Option.bind_eq_some_iff.1 h
  rw [h] at htarget
  refine ⟨url, hurl, ?_⟩
  rw [hurl]
  dsimp only
  rw [htarget]

end WebLens.StaticClone
