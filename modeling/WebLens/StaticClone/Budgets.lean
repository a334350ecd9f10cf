import Mathlib.Algebra.Order.Ring.Nat
import WebLens.StaticClone.Build
import WebLens.StaticClone.Extractable

/-!
# The budgets of a static clone

The loop of `buildStaticClone` makes a file of every path for which one of its resources fits the
budgets when its turn comes, and drops the resources that do not fit. The invariant of the loop says
so of every round.
-/

set_option autoImplicit false
set_option relaxedAutoImplicit false

namespace WebLens.StaticClone

open Lib Lib.PosixPath
open Lib.Utf8 (ByteString)

/-! ### Plans -/

/-- What a plan says about its resources: a resource with a path has a body and no reason to be
skipped, its path lies in a directory and is not that of the document, and two paths that differ in
case only are one path. -/
structure StaticClonePlan.Sound (plan : StaticClonePlan) : Prop where
  body : ∀ resource ∈ plan.resources, ∀ path, resource.localPath = some path →
    resource.body.isSome = true ∧ isTruthy resource.skipReason = false
  path : ∀ resource ∈ plan.resources, ∀ path, resource.localPath = some path →
    '/' ∈ path.toList ∧ path ≠ plan.mainPath
  distinct : ∀ resource ∈ plan.resources, ∀ other ∈ plan.resources, ∀ path path',
    resource.localPath = some path → other.localPath = some path' →
      lowerCase path = lowerCase path' → path = path'

/-- What the loop of the plan keeps. -/
structure Planning.Sound (mainPath : String) (s : Planning) : Prop where
  used : lowerCase mainPath ∈ s.used
  shared : ∀ entry ∈ s.contentPaths, '/' ∈ entry.2.toList ∧ entry.2 ≠ mainPath
  body : ∀ resource ∈ s.planned, ∀ path, resource.localPath = some path →
    resource.body.isSome = true ∧ isTruthy resource.skipReason = false
  path : ∀ resource ∈ s.planned, ∀ path, resource.localPath = some path →
    '/' ∈ path.toList ∧ path ≠ mainPath

variable {p : Platform} {finalUrl mainPath : String} {options : StaticClonePlanOptions}
  {s s' : Planning} {resource : CloneInputResource}

theorem decideResource_body {decision : Decision}
    (h : decideResource p finalUrl options s resource = some decision) :
    (∃ reason, decision = .skip reason) ∨
      resource.body.isSome = true ∧ isTruthy resource.skipReason = false := by
  rcases decideResource_cases h with hskip | ⟨body, desired, url, hbody, hreason, -⟩
  · exact .inl hskip
  · rw [hbody]
    exact .inr ⟨rfl, hreason⟩

/-- A resource that is planned with a path. -/
theorem Planning.Sound.concat (h : s.Sound mainPath) {path : String}
    (hbody : resource.body.isSome = true ∧ isTruthy resource.skipReason = false)
    (hpath : '/' ∈ path.toList ∧ path ≠ mainPath) :
    (∀ other ∈ s.planned ++ [{ resource with localPath := some path }], ∀ path',
        other.localPath = some path' →
          other.body.isSome = true ∧ isTruthy other.skipReason = false) ∧
      ∀ other ∈ s.planned ++ [{ resource with localPath := some path }], ∀ path',
        other.localPath = some path' → '/' ∈ path'.toList ∧ path' ≠ mainPath := by
  constructor
  · intro other hother path' hother'
    rcases List.mem_append.1 hother with hother | hother
    · exact h.body other hother path' hother'
    · rw [List.mem_singleton.1 hother]
      exact hbody
  · intro other hother path' hother'
    rcases List.mem_append.1 hother with hother | hother
    · exact h.path other hother path' hother'
    · rw [List.mem_singleton.1 hother] at hother'
      cases hother'
      exact hpath

theorem Planning.Sound.apply (hhex : p.HexDigest) (h : s.Sound mainPath) {decision : Decision}
    (hdecide : decideResource p finalUrl options s resource = some decision) :
    (s.apply mainPath options resource decision).Sound mainPath := by
  have hbody := decideResource_body hdecide
  rcases decideResource_spec hdecide with ⟨reason, rfl⟩ | ⟨url, path, key, rfl, -, hshared⟩ |
    ⟨url, key, desired, bytes, body, rfl, hdesired⟩
  · refine ⟨h.used, h.shared, fun other hother path hpath ↦ ?_, fun other hother path hpath ↦ ?_⟩
    · rcases List.mem_append.1 hother with hother | hother
      · exact h.body other hother path hpath
      · rw [List.mem_singleton.1 hother] at hpath
        cases hpath
    · rcases List.mem_append.1 hother with hother | hother
      · exact h.path other hother path hpath
      · rw [List.mem_singleton.1 hother] at hpath
        cases hpath
  · obtain ⟨reason, hreason⟩ | hbody := hbody
    · cases hreason
    · obtain ⟨hbodies, hpaths⟩ := h.concat hbody (h.shared _ hshared)
      exact ⟨h.used, h.shared, hbodies, hpaths⟩
  · obtain ⟨reason, hreason⟩ | hbody := hbody
    · cases hreason
    have hwanted := isWanted_desiredPath hhex hdesired
    have hpath : '/' ∈ (deduplicatePath desired s.used).toList ∧
        deduplicatePath desired s.used ≠ mainPath := by
      refine ⟨hwanted.slash_mem_deduplicatePath s.used, fun heq ↦ ?_⟩
      obtain ⟨front, name, hclean, hname⟩ := hwanted
      refine deduplicatePath_not_mem hclean hname s.used ?_
      rw [heq]
      exact h.used
    obtain ⟨hbodies, hpaths⟩ := h.concat hbody hpath
    refine ⟨List.mem_append_left _ h.used, fun entry hentry ↦ ?_, hbodies, hpaths⟩
    have hentry' : entry ∈ if options.contentAddressedResources = true then
        s.contentPaths ++ [(key, deduplicatePath desired s.used)] else s.contentPaths := hentry
    by_cases hcontent : options.contentAddressedResources = true
    · rw [if_pos hcontent, List.mem_append, List.mem_singleton] at hentry'
      rcases hentry' with hentry' | rfl
      · exact h.shared entry hentry'
      · exact hpath
    · rw [if_neg hcontent] at hentry'
      exact h.shared entry hentry'

theorem sound_planStaticClone (hhex : p.HexDigest) {resources : List CloneInputResource}
    {htmlBytes : ℕ} {plan : StaticClonePlan}
    (hplan : planStaticClone p finalUrl resources htmlBytes options = some plan) : plan.Sound := by
  unfold planStaticClone at hplan
  obtain ⟨mainPath, hmainPath, hplan⟩ := Option.bind_eq_some_iff.1 hplan
  obtain ⟨s, hrun, hplan⟩ := Option.bind_eq_some_iff.1 hplan
  cases hplan
  obtain ⟨hnamed, -⟩ := foldlM_planResource hhex (Planning.Named.start htmlBytes) hrun
  have hstart : (Planning.start mainPath htmlBytes).Sound mainPath :=
    ⟨List.mem_singleton_self _, fun entry hentry ↦ (by cases hentry),
      fun other hother ↦ (by cases hother), fun other hother ↦ (by cases hother)⟩
  have hsound := foldlM_planResource_induction
    (fun _ _ _ _ h hdecide ↦ Planning.Sound.apply hhex h hdecide) hstart hrun
  refine ⟨hsound.body, hsound.path, fun one hone other hother path path' hpath hpath' heq ↦ ?_⟩
  have hmem : ∀ planned ∈ s.planned, ∀ path, planned.localPath = some path →
      path ∈ s.paths mainPath := fun planned hplanned path hpath ↦
    List.mem_cons_of_mem _ (List.mem_filterMap.2 ⟨planned, hplanned, hpath⟩)
  exact hnamed.distinct path (hmem one hone path hpath) path' (hmem other hother path' hpath') heq

/-! ### Rounds -/

/-- A resource that a plan gives a path. -/
structure PlannedAt (plan : StaticClonePlan) (round : ℕ) (resource : PlannedResource)
    (path : String) (body : ByteString) : Prop where
  at_round : plan.resources[round]? = some resource
  path : resource.localPath = some path
  body : resource.body = some body

/-- A resource fits the budgets when its turn comes: fewer than 100 files so far, room for its
bytes, and room for its rewritten bytes unless its path is a file already. -/
def Fits (p : Platform) (plan : StaticClonePlan) (html : ByteString) (round : ℕ)
    (resource : PlannedResource) (path : String) (body : ByteString) : Prop :=
  let s := buildRounds p plan html round
  s.contentFileCount < maxFiles ∧ s.inputBytes + body.length ≤ maxInputBytes ∧
    (lowerCase path ∈ s.selectedPaths ∨ s.inputBytes + (packagedBody p
      (s.done ++ plan.resources.drop round) resource path body).length ≤ maxInputBytes)

/-- What the loop leaves of the resource of a round. -/
def Leaves (p : Platform) (plan : StaticClonePlan) (html : ByteString) (round : ℕ)
    (resource left : PlannedResource) : Prop :=
  (left = resource ∧ ∀ path body, PlannedAt plan round resource path body →
      Fits p plan html round resource path body) ∨
    ∃ path body reason, PlannedAt plan round resource path body ∧
      ¬ Fits p plan html round resource path body ∧
        left = { resource with localPath := none, skipReason := some reason }

variable {plan : StaticClonePlan} {html : ByteString} {round : ℕ}

theorem buildRounds_succ_none (h : plan.resources[round]? = none) :
    buildRounds p plan html (round + 1) = buildRounds p plan html round := by
  rw [buildRounds, h]

theorem buildRounds_succ_some {resource : PlannedResource}
    (h : plan.resources[round]? = some resource) :
    buildRounds p plan html (round + 1) =
      buildResource p ((buildRounds p plan html round).done ++ plan.resources.drop round)
        (buildRounds p plan html round) resource := by
  rw [buildRounds, h]

/-- A resource without a path is passed. -/
theorem buildResource_unplanned {resources : List PlannedResource} {t : Building}
    {resource : PlannedResource} (h : resource.localPath = none) :
    buildResource p resources t resource = t.pass resource := by
  unfold buildResource
  rw [h]
  cases resource.body <;> rfl

/-- What a round does with a resource that has a path. -/
theorem buildRounds_succ_planned (p : Platform) (html : ByteString) (hsound : plan.Sound)
    {resource : PlannedResource}
    {path : String} {body : ByteString} (h : PlannedAt plan round resource path body) :
    (Fits p plan html round resource path body ∧
        lowerCase path ∈ (buildRounds p plan html round).selectedPaths ∧
        buildRounds p plan html (round + 1) = (buildRounds p plan html round).pass resource) ∨
      (Fits p plan html round resource path body ∧
        lowerCase path ∉ (buildRounds p plan html round).selectedPaths ∧
        buildRounds p plan html (round + 1) = (buildRounds p plan html round).add resource path
          (packagedBody p ((buildRounds p plan html round).done ++ plan.resources.drop round)
            resource path body)) ∨
      (¬ Fits p plan html round resource path body ∧
        ∃ reason, buildRounds p plan html (round + 1) =
          (buildRounds p plan html round).drop resource reason) := by
  have hmem := List.mem_of_getElem? h.at_round
  have hslash := (hsound.path resource hmem path h.path).1
  have hne : path ≠ "" := by
    rintro rfl
    cases hslash
  have hreason := (hsound.body resource hmem path h.path).2
  rw [buildRounds_succ_some h.at_round]
  unfold buildResource Fits
  rw [h.body, h.path]
  dsimp only
  have hskip : ¬ (path = "" ∨ isTruthy resource.skipReason = true) := by
    rw [hreason]
    exact not_or.2 ⟨hne, Bool.false_ne_true⟩
  rw [if_neg hskip]
  by_cases hbudget : maxFiles ≤ (buildRounds p plan html round).contentFileCount ∨
      maxInputBytes < (buildRounds p plan html round).inputBytes + body.length
  · rw [if_pos hbudget]
    refine .inr (.inr ⟨fun hfits ↦ ?_, _, rfl⟩)
    rcases hbudget with hfiles | hbytes
    · exact absurd hfits.1 (Nat.not_lt.2 hfiles)
    · exact absurd hfits.2.1 (Nat.not_le.2 hbytes)
  rw [if_neg hbudget]
  obtain ⟨hfiles, hbytes⟩ := not_or.1 hbudget
  by_cases hselected : lowerCase path ∈ (buildRounds p plan html round).selectedPaths
  · rw [if_pos (List.contains_iff_mem.2 hselected)]
    exact .inl ⟨⟨Nat.not_le.1 hfiles, Nat.not_lt.1 hbytes, .inl hselected⟩, hselected, rfl⟩
  rw [if_neg (fun hcontains ↦ hselected (List.contains_iff_mem.1 hcontains))]
  by_cases hrewritten : maxInputBytes < (buildRounds p plan html round).inputBytes +
      (packagedBody p ((buildRounds p plan html round).done ++ plan.resources.drop round)
        resource path body).length
  · rw [if_pos hrewritten]
    refine .inr (.inr ⟨fun hfits ↦ ?_, _, rfl⟩)
    rcases hfits.2.2 with hmem | hroom
    · exact hselected hmem
    · exact absurd hroom (Nat.not_le.2 hrewritten)
  · rw [if_neg hrewritten]
    exact .inr (.inl ⟨⟨Nat.not_le.1 hfiles, Nat.not_lt.1 hbytes, .inr (Nat.not_lt.1 hrewritten)⟩,
      hselected, rfl⟩)

/-! ### The invariant -/

/-- A path whose file is there after some rounds. -/
def Selected (p : Platform) (plan : StaticClonePlan) (html : ByteString) (round : ℕ)
    (path : String) : Prop :=
  ∃ item ∈ (buildRounds p plan html round).selected, item.1.localPath = some path

/-- What holds after some rounds. -/
structure Built (p : Platform) (plan : StaticClonePlan) (html : ByteString) (round : ℕ)
    (t : Building) : Prop where
  paths : ∀ name, name ∈ t.selectedPaths ↔
    ∃ item ∈ t.selected, ∃ path, item.1.localPath = some path ∧ lowerCase path = name
  resources : ∀ item ∈ t.selected, item.1 ∈ plan.resources ∧ ∃ path,
    item.1.localPath = some path
  count : t.contentFileCount = 1 + t.selected.length
  count_le : t.contentFileCount ≤ maxFiles
  bytes : t.inputBytes = html.length + (t.selected.map fun item ↦ item.2.length).sum
  bytes_le : html.length ≤ maxInputBytes → t.inputBytes ≤ maxInputBytes
  length : t.done.length = round
  dropped : t.selected.length + t.done.countP (fun left ↦ left.localPath.isNone) ≤ round
  left : ∀ m resource, m < round → plan.resources[m]? = some resource →
    ∃ left, t.done[m]? = some left ∧ Leaves p plan html m resource left
  selected : ∀ path, (∃ item ∈ t.selected, item.1.localPath = some path) ↔
    ∃ m resource body, m < round ∧ PlannedAt plan m resource path body ∧
      Fits p plan html m resource path body

variable {t : Building}

theorem Built.start : Built p plan html 0 (buildRounds p plan html 0) where
  paths name := ⟨fun h ↦ (by cases h), fun ⟨item, hitem, _⟩ ↦ (by cases hitem)⟩
  resources item hitem := by cases hitem
  count := rfl
  count_le := by
    show 1 ≤ maxFiles
    decide
  bytes := rfl
  bytes_le h := h
  length := rfl
  dropped := Nat.le_refl _
  left m resource hm := absurd hm (Nat.not_lt_zero m)
  selected path := ⟨fun ⟨item, hitem, _⟩ ↦ (by cases hitem),
    fun ⟨m, _, _, hm, _⟩ ↦ absurd hm (Nat.not_lt_zero m)⟩

/-- What a round that adds nothing keeps. -/
theorem Built.of_done (h : Built p plan html round t) {resource left : PlannedResource}
    (hround : plan.resources[round]? = some resource)
    (hleft : Leaves p plan html round resource left) (hold : ∀ path body,
      PlannedAt plan round resource path body → Fits p plan html round resource path body →
        ∃ item ∈ t.selected, item.1.localPath = some path) (budgetSkipped : Bool) :
    Built p plan html (round + 1)
      { t with done := t.done ++ [left], budgetSkipped := budgetSkipped } := by
  refine ⟨h.paths, h.resources, h.count, h.count_le, h.bytes, h.bytes_le, ?_, ?_, ?_, ?_⟩
  · show (t.done ++ [left]).length = round + 1
    rw [List.length_append, h.length, List.length_singleton]
  · show t.selected.length + (t.done ++ [left]).countP _ ≤ round + 1
    have hlast := List.countP_le_length (p := fun left : PlannedResource ↦
      left.localPath.isNone) (l := [left])
    have hdropped := h.dropped
    rw [List.countP_append]
    rw [List.length_singleton] at hlast
    omega
  · intro m other hm hother
    show ∃ left', (t.done ++ [left])[m]? = some left' ∧ _
    by_cases hlast : m < round
    · obtain ⟨left', hleft', hleaves⟩ := h.left m other hlast hother
      exact ⟨left', by rw [List.getElem?_append_left (h.length ▸ hlast), hleft'], hleaves⟩
    · have heq : m = round := by omega
      subst heq
      rw [hround] at hother
      cases hother
      refine ⟨left, ?_, hleft⟩
      rw [List.getElem?_append_right (Nat.le_of_eq h.length), h.length, Nat.sub_self]
      rfl
  · intro path
    refine (h.selected path).trans ⟨fun ⟨m, other, body, hm, hplanned, hfits⟩ ↦
      ⟨m, other, body, Nat.lt_succ_of_lt hm, hplanned, hfits⟩, ?_⟩
    rintro ⟨m, other, body, hm, hplanned, hfits⟩
    by_cases hlast : m < round
    · exact ⟨m, other, body, hlast, hplanned, hfits⟩
    · have heq : m = round := by omega
      subst heq
      have hother := hplanned.at_round
      rw [hround] at hother
      cases hother
      exact (h.selected path).1 (hold path body hplanned hfits)

theorem Built.step (hsound : plan.Sound) (h : Built p plan html round (buildRounds p plan html round))
    (hround : round < plan.resources.length) :
    Built p plan html (round + 1) (buildRounds p plan html (round + 1)) := by
  have hat : plan.resources[round]? = some plan.resources[round] := List.getElem?_eq_getElem hround
  have hmem : plan.resources[round] ∈ plan.resources := List.getElem_mem hround
  cases hpath : plan.resources[round].localPath with
  | none =>
    rw [buildRounds_succ_some hat, buildResource_unplanned hpath]
    refine h.of_done hat (.inl ⟨rfl, fun path body hplanned ↦ ?_⟩) (fun path body hplanned ↦ ?_) _
    · rw [hplanned.path] at hpath
      cases hpath
    · rw [hplanned.path] at hpath
      cases hpath
  | some path =>
    obtain ⟨body, hbody⟩ := Option.isSome_iff_exists.1 (hsound.body _ hmem path hpath).1
    have hplanned : PlannedAt plan round plan.resources[round] path body := ⟨hat, hpath, hbody⟩
    have hunique : ∀ path' body', PlannedAt plan round plan.resources[round] path' body' →
        path' = path ∧ body' = body := by
      intro path' body' hother
      have hpath' := hother.path
      have hbody' := hother.body
      rw [hpath] at hpath'
      rw [hbody] at hbody'
      cases hpath'
      cases hbody'
      exact ⟨rfl, rfl⟩
    rcases buildRounds_succ_planned p html hsound hplanned with ⟨hfits, hselected, hnext⟩ |
      ⟨hfits, hselected, hnext⟩ | ⟨hfits, reason, hnext⟩
    · rw [hnext]
      refine h.of_done hat (.inl ⟨rfl, fun path' body' hother ↦ ?_⟩) (fun path' body' hother _ ↦ ?_) _
      · obtain ⟨rfl, rfl⟩ := hunique path' body' hother
        exact hfits
      · obtain ⟨rfl, rfl⟩ := hunique path' body' hother
        obtain ⟨item, hitem, other, hotherPath, hlower⟩ := (h.paths _).1 hselected
        refine ⟨item, hitem, ?_⟩
        rw [hotherPath, hsound.distinct item.1 (h.resources item hitem).1 _ hmem other path'
          hotherPath hpath hlower]
    · rw [hnext]
      have hlength := h.length
      refine ⟨?_, ?_, ?_, ?_, ?_, ?_, ?_, ?_, ?_, ?_⟩
      · intro name
        show name ∈ _ ++ [_] ↔ ∃ item ∈ _ ++ [_], _
        rw [List.mem_append, h.paths, List.mem_singleton]
        constructor
        · rintro (⟨item, hitem, hrest⟩ | rfl)
          · exact ⟨item, List.mem_append_left _ hitem, hrest⟩
          · exact ⟨_, List.mem_append_right _ (List.mem_singleton_self _), path, hpath, rfl⟩
        · rintro ⟨item, hitem, other, hother, hlower⟩
          rcases List.mem_append.1 hitem with hitem | hitem
          · exact .inl ⟨item, hitem, other, hother, hlower⟩
          · rw [List.mem_singleton.1 hitem, hpath] at hother
            cases hother
            exact .inr hlower.symm
      · intro item hitem
        rcases List.mem_append.1 hitem with hitem | hitem
        · exact h.resources item hitem
        · rw [List.mem_singleton.1 hitem]
          exact ⟨hmem, path, hpath⟩
      · show _ + 1 = 1 + (_ ++ [_]).length
        rw [List.length_append, List.length_singleton, h.count]
        rfl
      · exact hfits.1
      · show _ + _ = html.length + ((_ ++ [_]).map _).sum
        rw [List.map_append, List.sum_append, h.bytes, List.map_singleton, List.sum_singleton,
          Nat.add_assoc]
      · intro _
        exact hfits.2.2.resolve_left hselected
      · show (_ ++ [_]).length = round + 1
        rw [List.length_append, h.length, List.length_singleton]
      · show (_ ++ [_]).length + (_ ++ [plan.resources[round]]).countP _ ≤ round + 1
        have hlast : [plan.resources[round]].countP (fun left ↦ left.localPath.isNone) = 0 := by
          rw [List.countP_singleton, hpath]
          rfl
        have hdropped := h.dropped
        rw [List.countP_append, hlast, List.length_append, List.length_singleton]
        omega
      · intro m other hm hother
        show ∃ left, (_ ++ [_])[m]? = some left ∧ _
        by_cases hlast : m < round
        · obtain ⟨left, hleft, hleaves⟩ := h.left m other hlast hother
          exact ⟨left, by rw [List.getElem?_append_left (by omega), hleft], hleaves⟩
        · have heq : m = round := by omega
          subst heq
          rw [hat] at hother
          cases hother
          refine ⟨_, ?_, .inl ⟨rfl, fun path' body' hother ↦ ?_⟩⟩
          · rw [List.getElem?_append_right (Nat.le_of_eq hlength), hlength, Nat.sub_self]
            rfl
          · obtain ⟨rfl, rfl⟩ := hunique path' body' hother
            exact hfits
      · intro path'
        show (∃ item ∈ _ ++ [_], _) ↔ _
        constructor
        · rintro ⟨item, hitem, hpath'⟩
          rcases List.mem_append.1 hitem with hitem | hitem
          · obtain ⟨m, other, body', hm, hother, hfits'⟩ := (h.selected path').1
              ⟨item, hitem, hpath'⟩
            exact ⟨m, other, body', Nat.lt_succ_of_lt hm, hother, hfits'⟩
          · rw [List.mem_singleton.1 hitem, hpath] at hpath'
            cases hpath'
            exact ⟨round, _, body, Nat.lt_succ_self _, hplanned, hfits⟩
        · rintro ⟨m, other, body', hm, hother, hfits'⟩
          by_cases hlast : m < round
          · obtain ⟨item, hitem, hpath'⟩ := (h.selected path').2
              ⟨m, other, body', hlast, hother, hfits'⟩
            exact ⟨item, List.mem_append_left _ hitem, hpath'⟩
          · have heq : m = round := by omega
            subst heq
            have hat' := hother.at_round
            rw [hat] at hat'
            cases hat'
            exact ⟨_, List.mem_append_right _ (List.mem_singleton_self _), hother.path⟩
    · rw [hnext]
      refine h.of_done hat (.inr ⟨path, body, reason, hplanned, hfits, rfl⟩)
        (fun path' body' hother hfits' ↦ ?_) _
      obtain ⟨rfl, rfl⟩ := hunique path' body' hother
      exact absurd hfits' hfits

theorem built_buildRounds (p : Platform) (html : ByteString) (hsound : plan.Sound) (hround : round ≤ plan.resources.length) :
    Built p plan html round (buildRounds p plan html round) := by
  induction round with
  | zero => exact Built.start
  | succ round ih => exact (ih (Nat.le_of_succ_le hround)).step hsound hround

end WebLens.StaticClone
