import WebLens.StaticClone.Dangling

/-!
# Captures of one URL

A URL may be captured more than once. The document refers to the file of its last capture, and a
stylesheet to the file of the first capture that still has one. These are one file if and only if
they are one capture or share their file, which captures with equal content do when the paths are
those of the contents.
-/

set_option autoImplicit false
set_option relaxedAutoImplicit false

namespace WebLens.StaticClone

open Lib Lib.PosixPath
open Lib.Utf8 (ByteString)

/-! ### Shared files -/

/-- The key under which the file of a resource is shared, from the resource alone. -/
def contentKeyOf (p : Platform) (options : StaticClonePlanOptions) (resource : CloneInputResource) :
    Option String := do
  let body ← resource.body
  let desired ← desiredPath p options resource body
  let url ← normalizeResourceUrl p resource.sourceUrl
  some (contentKey resource desired url)

/-- The paths of the contents are kept under the keys of the resources that have them. -/
structure Planning.Keyed (p : Platform) (options : StaticClonePlanOptions) (s : Planning) :
    Prop where
  content : ∀ resource ∈ s.planned, ∀ path, resource.localPath = some path →
    ∃ key, contentKeyOf p options resource.toCloneInputResource = some key ∧
      s.contentPaths.lookup key = some path
  injective : ∀ key key' path, s.contentPaths.lookup key = some path →
    s.contentPaths.lookup key' = some path → key = key'

variable {p : Platform} {finalUrl mainPath : String} {options : StaticClonePlanOptions}
  {s s' : Planning} {resource : CloneInputResource}

theorem lookup_concat_of_some {table : List (String × String)} {key path : String}
    (h : table.lookup key = some path) (entry : String × String) :
    (table ++ [entry]).lookup key = some path := by
  rw [List.lookup_append, h]
  rfl

theorem Planning.Keyed.apply (hhex : p.HexDigest) (hcontent : options.contentAddressedResources = true)
    (hnamed : s.Named options mainPath) (h : s.Keyed p options) {decision : Decision}
    (hdecide : decideResource p finalUrl options s resource = some decision) :
    (s.apply mainPath options resource decision).Keyed p options := by
  rcases decideResource_cases hdecide with ⟨reason, rfl⟩ | ⟨body, desired, url, hbody, -, hdesired,
    hurl, hshared⟩
  · refine ⟨fun other hother path hpath ↦ ?_, h.injective⟩
    rcases List.mem_append.1 hother with hother | hother
    · exact h.content other hother path hpath
    · rw [List.mem_singleton.1 hother] at hpath
      cases hpath
  have hkey : contentKeyOf p options resource = some (contentKey resource desired url) := by
    unfold contentKeyOf
    rw [hbody, Option.bind_eq_bind, Option.bind_some, hdesired, Option.bind_eq_bind,
      Option.bind_some, hurl]
    rfl
  rcases hshared with ⟨path, rfl, -, hlookup⟩ | ⟨rfl, hnone⟩
  · refine ⟨fun other hother path' hpath ↦ ?_, h.injective⟩
    rcases List.mem_append.1 hother with hother | hother
    · exact h.content other hother path' hpath
    · rw [List.mem_singleton.1 hother] at hpath ⊢
      cases hpath
      exact ⟨_, hkey, hlookup⟩
  · have htable : (s.apply mainPath options resource (.add url (contentKey resource desired url)
        desired body.length)).contentPaths = s.contentPaths ++
          [(contentKey resource desired url, deduplicatePath desired s.used)] := by
      show (if options.contentAddressedResources = true then _ else _) = _
      rw [if_pos hcontent]
    have hnew : (s.contentPaths ++ [(contentKey resource desired url,
        deduplicatePath desired s.used)]).lookup (contentKey resource desired url) =
          some (deduplicatePath desired s.used) := by
      rw [List.lookup_append, hnone hcontent, List.lookup_cons, beq_self_eq_true]
      rfl
    -- The path of the new file was not used, so no earlier key has it.
    have hfresh : ∀ key, s.contentPaths.lookup key ≠ some (deduplicatePath desired s.used) := by
      intro key hlookup
      obtain ⟨front, name, hclean, hname⟩ := isWanted_desiredPath hhex hdesired
      obtain ⟨before, after, heq, -⟩ := List.lookup_eq_some_iff.1 hlookup
      have hmem := hnamed.shared (key, deduplicatePath desired s.used) (by
        rw [heq]
        exact List.mem_append_right _ (List.mem_cons_self ..))
      exact deduplicatePath_not_mem hclean hname s.used ((hnamed.used _).2 ⟨_, hmem, rfl⟩)
    have hcases : ∀ key path, (s.contentPaths ++ [(contentKey resource desired url,
        deduplicatePath desired s.used)]).lookup key = some path →
          s.contentPaths.lookup key = some path ∨
            key = contentKey resource desired url ∧ path = deduplicatePath desired s.used := by
      intro key path hlookup
      rw [List.lookup_append] at hlookup
      rcases Option.or_eq_some_iff.1 hlookup with hold | ⟨-, hold⟩
      · exact .inl hold
      · rw [List.lookup_cons] at hold
        by_cases heq : key = contentKey resource desired url
        · rw [beq_iff_eq.2 heq] at hold
          exact .inr ⟨heq, (Option.some.inj hold).symm⟩
        · rw [beq_false_of_ne heq] at hold
          cases hold
    refine ⟨fun other hother path hpath ↦ ?_, fun key key' path hlookup hlookup' ↦ ?_⟩
    · rw [htable]
      rcases List.mem_append.1 hother with hother | hother
      · obtain ⟨key, hkey', hlookup⟩ := h.content other hother path hpath
        exact ⟨key, hkey', lookup_concat_of_some hlookup _⟩
      · rw [List.mem_singleton.1 hother] at hpath ⊢
        cases hpath
        exact ⟨_, hkey, hnew⟩
    · rw [htable] at hlookup hlookup'
      rcases hcases key path hlookup with hold | ⟨rfl, rfl⟩ <;>
        rcases hcases key' _ hlookup' with hold' | ⟨hkey', hpath'⟩
      · exact h.injective key key' path hold hold'
      · rw [hpath'] at hold
        exact absurd hold (hfresh key)
      · exact absurd hold' (hfresh key')
      · exact hkey'.symm

/-- Two places of a list that give one path are one place, if no path is given twice. -/
theorem eq_of_nodup_filterMap {resources : List PlannedResource}
    (hnodup : (resources.filterMap PlannedResource.localPath).Nodup) {m n : ℕ}
    {one other : PlannedResource} {path : String} (hone : resources[m]? = some one)
    (hother : resources[n]? = some other) (hpath : one.localPath = some path)
    (hpath' : other.localPath = some path) : m = n := by
  have hpairs := List.pairwise_iff_getElem.1 (List.pairwise_filterMap.1 hnodup)
  obtain ⟨hm, rfl⟩ := List.getElem?_eq_some_iff.1 hone
  obtain ⟨hn, rfl⟩ := List.getElem?_eq_some_iff.1 hother
  rcases Nat.lt_trichotomy m n with hlt | heq | hlt
  · exact absurd rfl (hpairs m n hm hn hlt path hpath path hpath')
  · exact heq
  · exact absurd rfl (hpairs n m hn hm hlt path hpath' path hpath)

/-- Two captures are one, or have one file for their content. -/
def ShareFile (p : Platform) (options : StaticClonePlanOptions) (m n : ℕ)
    (one other : CloneInputResource) : Prop :=
  m = n ∨ options.contentAddressedResources = true ∧
    contentKeyOf p options one = contentKeyOf p options other

/-- Two captures that are files have one path if and only if they share their file. -/
theorem localPath_eq_iff (hhex : p.HexDigest) {resources : List CloneInputResource} {htmlBytes : ℕ}
    {plan : StaticClonePlan}
    (hplan : planStaticClone p finalUrl resources htmlBytes options = some plan) {m n : ℕ}
    {one other : PlannedResource} {path path' : String} (hone : plan.resources[m]? = some one)
    (hother : plan.resources[n]? = some other) (hpath : one.localPath = some path)
    (hpath' : other.localPath = some path') :
    path = path' ↔ ShareFile p options m n one.toCloneInputResource other.toCloneInputResource := by
  unfold planStaticClone at hplan
  obtain ⟨mainPath, -, hplan⟩ := Option.bind_eq_some_iff.1 hplan
  obtain ⟨s, hrun, hplan⟩ := Option.bind_eq_some_iff.1 hplan
  cases hplan
  have hone : s.planned[m]? = some one := hone
  have hother : s.planned[n]? = some other := hother
  by_cases hcontent : options.contentAddressedResources = true
  · have hstart : (Planning.start mainPath htmlBytes).Keyed p options :=
      ⟨fun _ hother ↦ (by cases hother), fun _ _ _ hlookup ↦ (by cases hlookup)⟩
    have hkeyed := (foldlM_planResource_induction
      (motive := fun s ↦ s.Named options mainPath ∧ s.Keyed p options)
      (fun s resource _ decision h hdecide ↦ ⟨h.1.apply hhex hdecide,
        h.2.apply hhex hcontent h.1 hdecide⟩) ⟨Planning.Named.start htmlBytes, hstart⟩ hrun).2
    obtain ⟨key, hkey, hlookup⟩ := hkeyed.content one (List.mem_of_getElem? hone) path hpath
    obtain ⟨key', hkey', hlookup'⟩ :=
      hkeyed.content other (List.mem_of_getElem? hother) path' hpath'
    constructor
    · rintro rfl
      refine .inr ⟨hcontent, ?_⟩
      rw [hkey, hkey', hkeyed.injective key key' path hlookup hlookup']
    · rintro (rfl | ⟨-, hequal⟩)
      · rw [hone] at hother
        cases hother
        exact Option.some.inj (hpath.symm.trans hpath')
      · rw [hkey, hkey'] at hequal
        rw [Option.some.inj hequal] at hlookup
        exact Option.some.inj (hlookup.symm.trans hlookup')
  · obtain ⟨hnamed, -⟩ := foldlM_planResource hhex (Planning.Named.start htmlBytes) hrun
    have hnodup := (List.nodup_cons.1 (hnamed.nodup (Bool.eq_false_iff.2 hcontent))).2
    constructor
    · rintro rfl
      exact .inl (eq_of_nodup_filterMap hnodup hone hother hpath hpath')
    · rintro (rfl | ⟨htrue, -⟩)
      · rw [hone] at hother
        cases hother
        exact Option.some.inj (hpath.symm.trans hpath')
      · exact absurd htrue hcontent

/-! ### First and last captures -/

/-- A capture of a URL that has a file. -/
def IsCapture (p : Platform) (url : String) (resource : PlannedResource) : Prop :=
  resource.localPath.isSome = true ∧ normalizeResourceUrl p resource.sourceUrl = some url

/-- The first capture of a URL that has a file. -/
structure IsFirstCapture (p : Platform) (url : String) (resources : List PlannedResource) (m : ℕ)
    (resource : PlannedResource) : Prop where
  at_index : resources[m]? = some resource
  capture : IsCapture p url resource
  first : ∀ k < m, ∀ other, resources[k]? = some other → ¬ IsCapture p url other

/-- The last capture of a URL that has a file. -/
structure IsLastCapture (p : Platform) (url : String) (resources : List PlannedResource) (m : ℕ)
    (resource : PlannedResource) : Prop where
  at_index : resources[m]? = some resource
  capture : IsCapture p url resource
  last : ∀ k, m < k → ∀ other, resources[k]? = some other → ¬ IsCapture p url other

theorem exists_lastCapture {url path : String} {resources : List PlannedResource}
    (h : lastTarget p url resources = some path) :
    ∃ m resource, IsLastCapture p url resources m resource ∧ resource.localPath = some path := by
  induction resources using List.reverseRecOn with
  | nil => cases h
  | append_singleton resources last ih =>
    rw [lastTarget_concat] at h
    by_cases hcapture : IsCapture p url last
    · obtain ⟨own, hown⟩ := Option.isSome_iff_exists.1 hcapture.1
      unfold targetOf at h
      rw [if_pos hcapture.2, hown, Option.some_or] at h
      refine ⟨resources.length, last, ⟨List.getElem?_concat_length, hcapture, fun k hk other hother ↦ ?_⟩,
        hown.trans h⟩
      have hlt := (List.getElem?_eq_some_iff.1 hother).1
      rw [List.length_append, List.length_singleton] at hlt
      omega
    · have hnone : targetOf p url last = none := by
        unfold targetOf
        by_cases hurl : normalizeResourceUrl p last.sourceUrl = some url
        · rw [if_pos hurl]
          refine Option.not_isSome_iff_eq_none.1 fun hsome ↦ hcapture ⟨hsome, hurl⟩
        · rw [if_neg hurl]
      rw [hnone, Option.none_or] at h
      obtain ⟨m, resource, hlast, hpath⟩ := ih h
      have hm := (List.getElem?_eq_some_iff.1 hlast.at_index).1
      refine ⟨m, resource, ⟨?_, hlast.capture, fun k hk other hother ↦ ?_⟩, hpath⟩
      · rw [List.getElem?_append_left hm]
        exact hlast.at_index
      · by_cases hend : k < resources.length
        · rw [List.getElem?_append_left hend] at hother
          exact hlast.last k hk other hother
        · rw [List.getElem?_append_right (Nat.not_lt.1 hend)] at hother
          have hmem := List.mem_of_getElem? hother
          rw [List.mem_singleton.1 hmem]
          exact hcapture

theorem exists_firstCapture {url path absolute : String} {resources : List PlannedResource}
    (habsolute : normalizeResourceUrl p absolute = some url)
    (hne : ∀ resource ∈ resources, resource.localPath ≠ some "")
    (h : findTarget p absolute resources = some (some path)) :
    ∃ m resource, IsFirstCapture p url resources m resource ∧ resource.localPath = some path := by
  induction resources with
  | nil => cases h
  | cons resource rest ih =>
    have hrest : ¬ IsCapture p url resource → findTarget p absolute rest = some (some path) →
        ∃ m other, IsFirstCapture p url (resource :: rest) m other ∧
          other.localPath = some path := by
      intro hcapture hfind
      obtain ⟨m, other, hfirst, hpath⟩ :=
        ih (fun other hother ↦ hne other (List.mem_cons_of_mem _ hother)) hfind
      refine ⟨m + 1, other, ⟨hfirst.at_index, hfirst.capture, fun k hk before hbefore ↦ ?_⟩, hpath⟩
      cases k with
      | zero =>
        cases hbefore
        exact hcapture
      | succ k => exact hfirst.first k (Nat.lt_of_succ_lt_succ hk) before hbefore
    unfold findTarget at h
    cases hpath : resource.localPath with
    | none =>
      rw [hpath] at h
      refine hrest (fun hcapture ↦ ?_) h
      have hsome := hcapture.1
      rw [hpath] at hsome
      cases hsome
    | some own =>
      rw [hpath] at h
      dsimp only at h
      by_cases hempty : own = ""
      · exact absurd (hempty ▸ hpath) (hne resource (List.mem_cons_self ..))
      rw [if_neg hempty, habsolute] at h
      obtain ⟨resourceUrl, hurl, h⟩ := Option.bind_eq_some_iff.1 h
      rw [Option.bind_eq_bind, Option.bind_some] at h
      by_cases hequal : resourceUrl = url
      · rw [if_pos hequal] at h
        cases h
        refine ⟨0, resource, ⟨rfl, ⟨?_, ?_⟩, fun k hk ↦ absurd hk (Nat.not_lt_zero k)⟩, hpath⟩
        · rw [hpath]
          rfl
        · rw [hurl, hequal]
      · rw [if_neg hequal] at h
        exact hrest (fun hcapture ↦ hequal (Option.some.inj (hurl.symm.trans hcapture.2))) h

/-- The first capture is found, unless a resource before it has a path and no URL. -/
theorem findTarget_of_firstCapture {url path absolute : String} {resources : List PlannedResource}
    (habsolute : normalizeResourceUrl p absolute = some url)
    (hne : ∀ resource ∈ resources, resource.localPath ≠ some "")
    (hurl : ∀ resource ∈ resources, resource.localPath.isSome = true →
      (normalizeResourceUrl p resource.sourceUrl).isSome = true) {m : ℕ}
    {resource : PlannedResource} (hfirst : IsFirstCapture p url resources m resource)
    (hpath : resource.localPath = some path) :
    findTarget p absolute resources = some (some path) := by
  induction resources generalizing m with
  | nil =>
    have hindex := hfirst.at_index
    cases hindex
  | cons other rest ih =>
    unfold findTarget
    cases m with
    | zero =>
      have hindex := hfirst.at_index
      cases hindex
      have hnonempty : path ≠ "" := fun hempty ↦
        hne resource (List.mem_cons_self ..) (hempty ▸ hpath)
      rw [hpath]
      dsimp only
      rw [if_neg hnonempty, hfirst.capture.2, habsolute]
      show (if url = url then _ else _) = _
      rw [if_pos rfl]
    | succ m =>
      have hrest : findTarget p absolute rest = some (some path) := by
        refine ih (fun later hlater ↦ hne later (List.mem_cons_of_mem _ hlater))
          (fun later hlater ↦ hurl later (List.mem_cons_of_mem _ hlater))
          (⟨hfirst.at_index, hfirst.capture, fun k hk before hbefore ↦ ?_⟩ :
            IsFirstCapture p url rest m resource)
        exact hfirst.first (k + 1) (Nat.succ_lt_succ hk) before hbefore
      have hother := hfirst.first 0 (Nat.succ_pos m) other rfl
      cases hotherPath : other.localPath with
      | none => exact hrest
      | some own =>
        dsimp only
        by_cases hempty : own = ""
        · rw [if_pos hempty]
          exact hrest
        have hsome : other.localPath.isSome = true := by
          rw [hotherPath]
          rfl
        obtain ⟨otherUrl, hotherUrl⟩ :=
          Option.isSome_iff_exists.1 (hurl other (List.mem_cons_self ..) hsome)
        rw [if_neg hempty, hotherUrl, habsolute]
        show (if otherUrl = url then _ else _) = _
        have hdistinct : otherUrl ≠ url := by
          rintro rfl
          exact hother ⟨hsome, hotherUrl⟩
        rw [if_neg hdistinct]
        exact hrest

/-! ### The document and the stylesheets -/

/-- The path that a packaged stylesheet refers to for a URL is always the given one. -/
def StylesheetsLeadTo (p : Platform) (plan : StaticClonePlan) (html : ByteString)
    (url path : String) : Prop :=
  ∀ round resource own body, PackagedStylesheet p plan html round resource own body →
    ∀ absolute path', normalizeResourceUrl p absolute = some url →
      findTarget p absolute (resourcesAt p plan html round) = some (some path') → path' = path

/-- When a stylesheet is packaged, the first capture of the URL that still has a file is the last
capture, or shares its file. -/
def FirstSharesLast (p : Platform) (options : StaticClonePlanOptions) (plan : StaticClonePlan)
    (html : ByteString) (url : String) : Prop :=
  ∀ round resource own body, PackagedStylesheet p plan html round resource own body →
    ∀ m n first last, IsFirstCapture p url (resourcesAt p plan html round) m first →
      IsLastCapture p url plan.resources n last →
      ShareFile p options m n first.toCloneInputResource last.toCloneInputResource

/-- A resource that the loop finds with a path is the one of the plan. -/
theorem getElem?_resourcesAt {plan : StaticClonePlan} {html : ByteString} (hsound : plan.Sound)
    {round : ℕ} (hround : round ≤ plan.resources.length) {m : ℕ} {left : PlannedResource}
    (hleft : (resourcesAt p plan html round)[m]? = some left) (hpath : left.localPath.isSome = true) :
    plan.resources[m]? = some left := by
  have hbuilt := built_buildRounds p html hsound hround
  unfold resourcesAt at hleft
  by_cases hm : m < round
  · rw [List.getElem?_append_left (by rw [hbuilt.length]; exact hm)] at hleft
    have hat : plan.resources[m]? = some plan.resources[m] :=
      List.getElem?_eq_getElem (Nat.lt_of_lt_of_le hm hround)
    obtain ⟨left', hleft', hleaves⟩ := hbuilt.left m _ hm hat
    rw [hleft] at hleft'
    cases hleft'
    rcases hleaves with ⟨rfl, -⟩ | ⟨path', body, reason, -, -, rfl⟩
    · exact hat
    · cases hpath
  · rw [List.getElem?_append_right (by rw [hbuilt.length]; exact Nat.not_lt.1 hm), hbuilt.length,
      List.getElem?_drop, Nat.add_sub_cancel' (Nat.not_lt.1 hm)] at hleft
    exact hleft

/-- A resource that is planned with a path has a URL. -/
theorem isSome_normalizeResourceUrl {resources : List CloneInputResource} {htmlBytes : ℕ}
    {plan : StaticClonePlan}
    (hplan : planStaticClone p finalUrl resources htmlBytes options = some plan) :
    ∀ resource ∈ plan.resources, resource.localPath.isSome = true →
      (normalizeResourceUrl p resource.sourceUrl).isSome = true := by
  unfold planStaticClone at hplan
  obtain ⟨mainPath, -, hplan⟩ := Option.bind_eq_some_iff.1 hplan
  obtain ⟨s, hrun, hplan⟩ := Option.bind_eq_some_iff.1 hplan
  cases hplan
  refine foldlM_planResource_induction (motive := fun s ↦ ∀ resource ∈ s.planned,
    resource.localPath.isSome = true → (normalizeResourceUrl p resource.sourceUrl).isSome = true)
    (fun s resource _ decision h hdecide ↦ ?_) (fun _ hother ↦ (by cases hother)) hrun
  have hlast : ∀ last : PlannedResource, (last.localPath.isSome = true →
      (normalizeResourceUrl p last.sourceUrl).isSome = true) →
        ∀ other ∈ s.planned ++ [last], other.localPath.isSome = true →
          (normalizeResourceUrl p other.sourceUrl).isSome = true := by
    intro last hlast other hother
    rcases List.mem_append.1 hother with hother | hother
    · exact h other hother
    · rw [List.mem_singleton.1 hother]
      exact hlast
  rcases decideResource_cases hdecide with ⟨reason, rfl⟩ | ⟨body, desired, url, -, -, -, hurl,
    ⟨path, rfl, -⟩ | ⟨rfl, -⟩⟩
  · exact hlast _ fun hsome ↦ (by cases hsome)
  · refine hlast _ fun _ ↦ ?_
    rw [hurl]
    rfl
  · refine hlast _ fun _ ↦ ?_
    rw [hurl]
    rfl

/-- The file of the last capture of a URL, and the stylesheets that refer to it. -/
theorem stylesheetsLeadTo_iff (hhex : p.HexDigest) {resources : List CloneInputResource}
    {htmlBytes : ℕ} {plan : StaticClonePlan}
    (hplan : planStaticClone p finalUrl resources htmlBytes options = some plan) (html : ByteString)
    {url path : String} (hpath : lastTarget p url plan.resources = some path) :
    StylesheetsLeadTo p plan html url path ↔ FirstSharesLast p options plan html url := by
  have hsound := sound_planStaticClone hhex hplan
  obtain ⟨n, last, hlast, hlastPath⟩ := exists_lastCapture hpath
  have hfound : ∀ {round : ℕ} {resource : PlannedResource} {own : String} {body : ByteString},
      PackagedStylesheet p plan html round resource own body →
        ∀ {m : ℕ} {left : PlannedResource}, (resourcesAt p plan html round)[m]? = some left →
          left.localPath.isSome = true → plan.resources[m]? = some left := by
    intro round resource own body hpackaged m left hleft hsome
    have hround := (List.getElem?_eq_some_iff.1 hpackaged.planned.at_round).1
    exact getElem?_resourcesAt hsound (Nat.le_of_lt hround) hleft hsome
  have hne : ∀ {round : ℕ} {resource : PlannedResource} {own : String} {body : ByteString},
      PackagedStylesheet p plan html round resource own body →
        ∀ left ∈ resourcesAt p plan html round, left.localPath ≠ some "" := by
    intro round resource own body hpackaged left hleft hempty
    obtain ⟨m, hm⟩ := List.mem_iff_getElem?.1 hleft
    have hat := hfound hpackaged hm (by rw [hempty]; rfl)
    have hslash := (hsound.path left (List.mem_of_getElem? hat) "" hempty).1
    cases hslash
  have hurl : ∀ {round : ℕ} {resource : PlannedResource} {own : String} {body : ByteString},
      PackagedStylesheet p plan html round resource own body →
        ∀ left ∈ resourcesAt p plan html round, left.localPath.isSome = true →
          (normalizeResourceUrl p left.sourceUrl).isSome = true := by
    intro round resource own body hpackaged left hleft hsome
    obtain ⟨m, hm⟩ := List.mem_iff_getElem?.1 hleft
    exact isSome_normalizeResourceUrl hplan left
      (List.mem_of_getElem? (hfound hpackaged hm hsome)) hsome
  constructor
  · intro hleads round resource own body hpackaged m n' first last' hfirst hlast'
    obtain ⟨path', hfirstPath⟩ := Option.isSome_iff_exists.1 hfirst.capture.1
    have hat := hfound hpackaged hfirst.at_index hfirst.capture.1
    have hfind := findTarget_of_firstCapture hfirst.capture.2 (hne hpackaged) (hurl hpackaged)
      hfirst hfirstPath
    have hequal := hleads round resource own body hpackaged first.sourceUrl path'
      hfirst.capture.2 hfind
    -- The last capture is one capture.
    have hsame : n' = n := by
      rcases Nat.lt_trichotomy n' n with hlt | heq | hlt
      · exact absurd hlast.capture (hlast'.last n hlt last hlast.at_index)
      · exact heq
      · exact absurd hlast'.capture (hlast.last n' hlt last' hlast'.at_index)
    have hat' := hlast'.at_index
    rw [hsame, hlast.at_index] at hat'
    cases hat'
    rw [hsame]
    exact (localPath_eq_iff hhex hplan hat hlast.at_index hfirstPath hlastPath).1 hequal
  · intro hshares round resource own body hpackaged absolute path' habsolute hfind
    obtain ⟨m, first, hfirst, hfirstPath⟩ :=
      exists_firstCapture habsolute (hne hpackaged) hfind
    have hat := hfound hpackaged hfirst.at_index hfirst.capture.1
    exact (localPath_eq_iff hhex hplan hat hlast.at_index hfirstPath hlastPath).2
      (hshares round resource own body hpackaged m n first last hfirst hlast)

end WebLens.StaticClone
