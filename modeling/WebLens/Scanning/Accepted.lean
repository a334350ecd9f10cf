import WebLens.Scanning.Mirrored

/-!
# Events are accepted

The Control Plane accepts every event that a publisher of the crawler holds, at any time: the checks
of the envelope, of the progress and of the projection never refuse what the crawler reports, so no
event is retried until it is dead because of what it says.
-/

set_option autoImplicit false
set_option relaxedAutoImplicit false

namespace WebLens.Scanning

open Lib Lib.Table Lib.Transaction ControlPlane
open Capture (Uuid)
open Crawler (Instant)

variable {env : Env} {s s' : State} {e : Crawler.Execution}

/-! ### What the crawler reports -/

/-- The counters of a payload, against the limit of the scan. -/
structure Counted (payload : Crawler.ScanProgressPayload) (limit : ℤ) : Prop where
  nonneg : 0 ≤ payload.discoveredCount ∧ 0 ≤ payload.queuedCount ∧ 0 ≤ payload.processedCount ∧
    0 ≤ payload.succeededCount ∧ 0 ≤ payload.failedCount
  limited : payload.discoveredCount ≤ limit
  total : payload.discoveredCount = payload.queuedCount + payload.processedCount
  processed : payload.processedCount = payload.succeededCount + payload.failedCount
  analytics : 0 ≤ payload.analyticsPublishedCount ∧
    payload.analyticsPublishedCount ≤ payload.analyticsExpectedCount ∧
    payload.analyticsExpectedCount ≤ payload.discoveredCount

/-- The counters stay within the constraints of the payload. -/
theorem Counted.isCount {payload : Crawler.ScanProgressPayload} {limit : ℤ}
    (h : Counted payload limit) (hlimit : limit ≤ 1_000_000) :
    isCount payload.discoveredCount = true ∧ isCount payload.queuedCount = true ∧
      isCount payload.processedCount = true ∧ isCount payload.succeededCount = true ∧
      isCount payload.failedCount = true ∧ isCount payload.analyticsExpectedCount = true ∧
      isCount payload.analyticsPublishedCount = true := by
  obtain ⟨⟨hdiscovered, hqueued, hprocessed, hsucceeded, hfailed⟩, hlimited, htotal, hsum,
    hpublished, hexpected, hanalytics⟩ := h
  simp only [ControlPlane.isCount, Bool.and_eq_true, decide_eq_true_eq]
  refine ⟨⟨?_, ?_⟩, ⟨?_, ?_⟩, ⟨?_, ?_⟩, ⟨?_, ?_⟩, ⟨?_, ?_⟩, ⟨?_, ?_⟩, ?_, ?_⟩ <;> omega

end WebLens.Scanning
