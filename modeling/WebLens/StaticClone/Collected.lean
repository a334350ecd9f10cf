import WebLens.StaticClone.Build
import WebLens.StaticClone.Rendered

/-!
# Collected resources

`collectResourceBodies` of `capture.ts`: the bodies of the responses that a page received, within the
byte budgets of its capture, and the reasons for those that are missing. How the waits for a response
end is an argument. A body that is collected is not empty, and the plan and the build of an archive
keep the bodies and give reasons of their own.
-/

set_option autoImplicit false
set_option relaxedAutoImplicit false

namespace WebLens.StaticClone

open Lib
open Lib.Utf8 (ByteString)

/-! ### Responses -/

/-- `bodyResourceTypes`. -/
inductive BodyResourceType
  | stylesheet
  | script
  | image
  | font
deriving DecidableEq

def BodyResourceType.text : BodyResourceType → String
  | .stylesheet => "stylesheet"
  | .script => "script"
  | .image => "image"
  | .font => "font"

/-- Why a resource has no body. -/
inductive SkipReason
  | httpFailure
  | unexpectedDocumentBody
  | requestFailed
  | resourceTimeout
  | bodyUnavailable
  | emptyBody
  | resourceBodyCountLimit
  | captureByteBudgetExceeded
deriving DecidableEq

def SkipReason.text : SkipReason → String
  | .httpFailure => "HTTP_FAILURE"
  | .unexpectedDocumentBody => "UNEXPECTED_DOCUMENT_BODY"
  | .requestFailed => "REQUEST_FAILED"
  | .resourceTimeout => "RESOURCE_TIMEOUT"
  | .bodyUnavailable => "BODY_UNAVAILABLE"
  | .emptyBody => "EMPTY_BODY"
  | .resourceBodyCountLimit => "RESOURCE_BODY_COUNT_LIMIT"
  | .captureByteBudgetExceeded => "CAPTURE_BYTE_BUDGET_EXCEEDED"

/-- `ResponseCandidate`. -/
structure ResponseCandidate where
  sequence : ℕ
  sourceUrl : String
  publicUrl : String
  resourceType : BodyResourceType
  mimeType : String
  captureBody : Bool
  skipReason : Option SkipReason

/-- How the waits for a response and its body end. -/
inductive BodyWait
  | timeout
  | failed
  | error
  | body (raw : ByteString)

/-- `cloneInput`. -/
def cloneInput (candidate : ResponseCandidate) (body : Option ByteString) (wasTruncated : Bool)
    (skipReason : Option SkipReason) : CloneInputResource where
  sequence := candidate.sequence
  sourceUrl := candidate.sourceUrl
  publicUrl := candidate.publicUrl
  resourceType := candidate.resourceType.text
  mimeType := candidate.mimeType
  body := body
  wasTruncated := wasTruncated
  skipReason := skipReason.map SkipReason.text

/-- `collectResourceBodies`, with the budget that remains. -/
def collectResourceBodies (maxResourceBytes : ℕ) :
    ℕ → List (ResponseCandidate × BodyWait) → List CloneInputResource
  | _, [] => []
  | remaining, (candidate, wait) :: rest =>
    let skip := fun reason ↦ cloneInput candidate none false (some reason) ::
      collectResourceBodies maxResourceBytes remaining rest
    match candidate.skipReason with
    | some reason => skip reason
    | none =>
      if candidate.captureBody = false then skip .resourceBodyCountLimit
      else if remaining = 0 then skip .captureByteBudgetExceeded
      else match wait with
      | .timeout => skip .resourceTimeout
      | .failed => skip .requestFailed
      | .error => skip .bodyUnavailable
      | .body raw =>
        if raw = [] then skip .emptyBody
        else
          let body := raw.take (min maxResourceBytes remaining)
          cloneInput candidate (some body) (decide (body.length < raw.length)) none ::
            collectResourceBodies maxResourceBytes (remaining - body.length) rest

/-- A request without a response. -/
structure UnansweredRequest where
  sequence : ℕ
  url : String
  resourceType : BodyResourceType
  reason : SkipReason

def UnansweredRequest.cloneInput (p : Platform) (request : UnansweredRequest) :
    CloneInputResource where
  sequence := request.sequence
  sourceUrl := request.url
  publicUrl := sanitizeUrl p request.url
  resourceType := request.resourceType.text
  mimeType := ""
  body := none
  wasTruncated := false
  skipReason := some request.reason.text

/-- The resources of a page in the order of their requests. -/
def cloneInputs (p : Platform) (maxResourceBytes budget : ℕ)
    (candidates : List (ResponseCandidate × BodyWait)) (unanswered : List UnansweredRequest) :
    List CloneInputResource :=
  (collectResourceBodies maxResourceBytes budget candidates ++
    unanswered.map (UnansweredRequest.cloneInput p)).mergeSort
      fun left right ↦ decide (left.sequence ≤ right.sequence)

/-! ### What is collected -/

/-- What `/^[A-Z][A-Z0-9_]{0,63}$/u` matches. -/
def isReason (text : String) : Bool :=
  match text.toList with
  | [] => false
  | first :: rest =>
    first.isUpper && (rest.all fun c ↦ c.isUpper || c.isDigit || decide (c = '_')) &&
      decide (rest.length ≤ 63)

/-- A resource as a capture collects it. -/
structure CloneInputResource.Collected (resource : CloneInputResource) : Prop where
  body : ∀ body, resource.body = some body → body ≠ []
  resourceType : ∃ kind : BodyResourceType, resource.resourceType = kind.text
  skipReason : ∀ reason, resource.skipReason = some reason → isReason reason = true

theorem isReason_text (reason : SkipReason) : isReason reason.text = true := by
  cases reason <;> decide

theorem collected_skip (candidate : ResponseCandidate) (reason : SkipReason) :
    (cloneInput candidate none false (some reason)).Collected where
  body _ h := by cases h
  resourceType := ⟨candidate.resourceType, rfl⟩
  skipReason text h := by
    cases h
    exact isReason_text reason

theorem collected_collectResourceBodies {maxResourceBytes : ℕ} (hmax : 0 < maxResourceBytes)
    {candidates : List (ResponseCandidate × BodyWait)} :
    ∀ {remaining : ℕ}, ∀ resource ∈ collectResourceBodies maxResourceBytes remaining candidates,
      resource.Collected := by
  induction candidates with
  | nil => exact fun _ h ↦ absurd h List.not_mem_nil
  | cons first rest ih =>
    obtain ⟨candidate, wait⟩ := first
    intro remaining
    have hskip : ∀ reason, ∀ resource ∈ cloneInput candidate none false (some reason) ::
        collectResourceBodies maxResourceBytes remaining rest, resource.Collected := by
      intro reason resource hresource
      rcases List.mem_cons.1 hresource with rfl | hresource
      · exact collected_skip candidate reason
      · exact ih resource hresource
    unfold collectResourceBodies
    cases candidate.skipReason with
    | some reason => exact hskip reason
    | none =>
      dsimp only
      by_cases hcapture : candidate.captureBody = false
      · rw [if_pos hcapture]
        exact hskip _
      rw [if_neg hcapture]
      by_cases hremaining : remaining = 0
      · rw [if_pos hremaining]
        exact hskip _
      rw [if_neg hremaining]
      cases wait with
      | timeout => exact hskip _
      | failed => exact hskip _
      | error => exact hskip _
      | body raw =>
        dsimp only
        by_cases hraw : raw = []
        · rw [if_pos hraw]
          exact hskip _
        rw [if_neg hraw]
        intro resource hresource
        rcases List.mem_cons.1 hresource with rfl | hresource
        · refine ⟨fun body hbody ↦ ?_, ⟨candidate.resourceType, rfl⟩, fun text h ↦ by cases h⟩
          cases hbody
          intro hnil
          rcases List.take_eq_nil_iff.1 hnil with hzero | hnil
          · omega
          · exact hraw hnil
        · exact ih resource hresource

/-- Every resource of a capture has a body that is not empty, or a reason. -/
theorem collected_cloneInputs (p : Platform) {maxResourceBytes budget : ℕ}
    (hmax : 0 < maxResourceBytes) (candidates : List (ResponseCandidate × BodyWait))
    (unanswered : List UnansweredRequest) :
    ∀ resource ∈ cloneInputs p maxResourceBytes budget candidates unanswered,
      resource.Collected := by
  intro resource hresource
  unfold cloneInputs at hresource
  rcases List.mem_append.1 (List.mem_mergeSort.1 hresource) with hresource | hresource
  · exact collected_collectResourceBodies hmax resource hresource
  · obtain ⟨request, -, rfl⟩ := List.mem_map.1 hresource
    refine ⟨fun _ h ↦ (by cases h), ⟨request.resourceType, rfl⟩, fun text h ↦ ?_⟩
    cases h
    exact isReason_text request.reason

/-! ### What is planned and built -/

theorem CloneInputResource.Collected.skip {resource : CloneInputResource} (h : resource.Collected)
    {reason : Option String} (hreason : ∀ text, reason = some text → isReason text = true) :
    { resource with skipReason := reason }.Collected :=
  ⟨h.body, h.resourceType, hreason⟩

/-- The reasons of a plan. -/
theorem isReason_decideResource {p : Platform} {finalUrl : String}
    {options : StaticClonePlanOptions} {s : Planning} {resource : CloneInputResource}
    (hresource : resource.Collected) {reason : Option String}
    (h : decideResource p finalUrl options s resource = some (.skip reason)) :
    ∀ text, reason = some text → isReason text = true := by
  unfold decideResource at h
  cases hbody : resource.body with
  | none =>
    rw [hbody] at h
    cases h
    exact hresource.skipReason
  | some body =>
    rw [hbody] at h
    dsimp only at h
    by_cases hreason : isTruthy resource.skipReason = true
    · rw [if_pos hreason] at h
      cases h
      exact hresource.skipReason
    rw [if_neg hreason] at h
    by_cases horigin : isSameOrigin p resource.sourceUrl finalUrl = false ∧
        (options.allowExternalVisualResources && isExternalVisualResource p resource) = false
    · rw [if_pos horigin] at h
      cases h
      intro text htext
      cases htext
      decide
    rw [if_neg horigin] at h
    obtain ⟨desired, -, h⟩ := Option.bind_eq_some_iff.1 h
    obtain ⟨url, -, h⟩ := Option.bind_eq_some_iff.1 h
    split at h
    · cases h
    · by_cases hfiles : maxFiles ≤ s.plannedFiles
      · rw [if_pos hfiles] at h
        cases h
        intro text htext
        cases htext
        decide
      rw [if_neg hfiles] at h
      by_cases hbytes : maxInputBytes < s.plannedBytes + body.length
      · rw [if_pos hbytes] at h
        cases h
        intro text htext
        cases htext
        decide
      · rw [if_neg hbytes] at h
        cases h

/-- The resources of a plan are collected resources. -/
theorem collected_planStaticClone {p : Platform} {finalUrl : String}
    {resources : List CloneInputResource} (hresources : ∀ resource ∈ resources, resource.Collected)
    {htmlBytes : ℕ} {options : StaticClonePlanOptions} {plan : StaticClonePlan}
    (hplan : planStaticClone p finalUrl resources htmlBytes options = some plan) :
    ∀ resource ∈ plan.resources, resource.Collected := by
  unfold planStaticClone at hplan
  obtain ⟨mainPath, -, hplan⟩ := Option.bind_eq_some_iff.1 hplan
  obtain ⟨s, hrun, hplan⟩ := Option.bind_eq_some_iff.1 hplan
  cases hplan
  refine foldlM_planResource_induction
    (motive := fun s ↦ ∀ resource ∈ s.planned, resource.Collected) ?_
    (fun resource h ↦ absurd h List.not_mem_nil) hrun
  intro s resource hresource decision h hdecide other hother
  have hlast : ∃ planned : PlannedResource, (s.apply mainPath options resource decision).planned =
      s.planned ++ [planned] ∧ planned.Collected := by
    cases decision with
    | skip reason =>
      exact ⟨_, rfl, (hresources resource hresource).skip
        (isReason_decideResource (hresources resource hresource) hdecide)⟩
    | share url path => exact ⟨_, rfl, hresources resource hresource⟩
    | add url contentKey desired bytes => exact ⟨_, rfl, hresources resource hresource⟩
  obtain ⟨planned, heq, hplanned⟩ := hlast
  rw [heq] at hother
  rcases List.mem_append.1 hother with hother | hother
  · exact h other hother
  · rw [List.mem_singleton.1 hother]
    exact hplanned

/-- What a round of the build does with a resource. -/
theorem buildResource_cases (p : Platform) (resources : List PlannedResource) (s : Building)
    (resource : PlannedResource) :
    buildResource p resources s resource = s.pass resource ∨
      (∃ reason, isReason reason = true ∧
        buildResource p resources s resource = s.drop resource reason) ∨
      ∃ path body, resource.localPath = some path ∧ resource.body = some body ∧
        body.length ≤ maxInputBytes ∧
        (packagedBody p resources resource path body).length ≤ maxInputBytes ∧
        buildResource p resources s resource =
          s.add resource path (packagedBody p resources resource path body) := by
  unfold buildResource
  cases hbody : resource.body with
  | none => exact .inl rfl
  | some body =>
    cases hpath : resource.localPath with
    | none => exact .inl rfl
    | some path =>
      dsimp only
      by_cases hskip : path = "" ∨ isTruthy resource.skipReason = true
      · rw [if_pos hskip]
        exact .inl rfl
      rw [if_neg hskip]
      by_cases hbudget : maxFiles ≤ s.contentFileCount ∨
          maxInputBytes < s.inputBytes + body.length
      · rw [if_pos hbudget]
        refine .inr (.inl ⟨_, ?_, rfl⟩)
        split_ifs <;> decide
      rw [if_neg hbudget]
      by_cases hselected : s.selectedPaths.contains (lowerCase path) = true
      · rw [if_pos hselected]
        exact .inl rfl
      rw [if_neg hselected]
      by_cases hrewritten : maxInputBytes < s.inputBytes +
          (packagedBody p resources resource path body).length
      · rw [if_pos hrewritten]
        exact .inr (.inl ⟨_, by decide, rfl⟩)
      · rw [if_neg hrewritten]
        obtain ⟨-, hbytes⟩ := not_or.1 hbudget
        exact .inr (.inr ⟨path, body, rfl, rfl, by omega, by omega, rfl⟩)

/-- The files of an archive are the bodies that were collected, except for stylesheets. -/
structure Building.Collected (s : Building) : Prop where
  done : ∀ resource ∈ s.done, resource.Collected
  selected : ∀ item ∈ s.selected, ∃ body, item.1.body = some body ∧ body ≠ [] ∧
    body.length ≤ maxInputBytes ∧ item.2.length ≤ maxInputBytes ∧
      (item.1.resourceType ≠ "stylesheet" → item.2 = body)

theorem Building.Collected.round {p : Platform} {resources : List PlannedResource} {s : Building}
    {resource : PlannedResource} (h : s.Collected) (hresource : resource.Collected) :
    (buildResource p resources s resource).Collected := by
  have hdone : ∀ left : PlannedResource, left.Collected →
      ∀ other ∈ s.done ++ [left], other.Collected := by
    intro left hleft other hother
    rcases List.mem_append.1 hother with hother | hother
    · exact h.done other hother
    · rw [List.mem_singleton.1 hother]
      exact hleft
  rcases buildResource_cases p resources s resource with heq | ⟨reason, hreason, heq⟩ |
    ⟨path, body, -, hbody, hlength, hpackaged, heq⟩
  · rw [heq]
    exact ⟨hdone resource hresource, h.selected⟩
  · rw [heq]
    refine ⟨hdone _ (hresource.skip fun text htext ↦ ?_), h.selected⟩
    cases htext
    exact hreason
  · rw [heq]
    refine ⟨hdone resource hresource, fun item hitem ↦ ?_⟩
    rcases List.mem_append.1 hitem with hitem | hitem
    · exact h.selected item hitem
    · rw [List.mem_singleton.1 hitem]
      refine ⟨body, hbody, hresource.body body hbody, hlength, hpackaged, fun hplain ↦ ?_⟩
      show packagedBody p resources resource path body = body
      unfold packagedBody
      rw [if_neg hplain]

theorem collected_buildRounds (p : Platform) {plan : StaticClonePlan}
    (hplan : ∀ resource ∈ plan.resources, resource.Collected) (html : ByteString) (round : ℕ) :
    (buildRounds p plan html round).Collected := by
  induction round with
  | zero => exact ⟨fun _ h ↦ absurd h List.not_mem_nil, fun _ h ↦ absurd h List.not_mem_nil⟩
  | succ round ih =>
    unfold buildRounds
    cases hround : plan.resources[round]? with
    | none => exact ih
    | some resource => exact ih.round (hplan resource (List.mem_of_getElem? hround))

end WebLens.StaticClone
