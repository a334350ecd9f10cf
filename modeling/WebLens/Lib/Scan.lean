import Mathlib.Data.List.Basic
import Mathlib.Tactic.TypeStar

/-!
# Replacing the matches of a pattern

A pattern is a function that matches a list from its front and returns what it matched and the rest.
`scan` goes through a list from left to right, as a global replacement does: where the pattern
matches, the scan goes on behind the match, and elsewhere behind one element.
-/

set_option autoImplicit false
set_option relaxedAutoImplicit false

namespace WebLens.Lib

variable {α : Type} {β : Type}

/-- The elements that are not matched and the matches, from left to right, in at most `fuel`
steps. -/
def scan (matchAt : List α → Option (β × List α)) : ℕ → List α → List (α ⊕ β)
  | 0, _ => []
  | _ + 1, [] => []
  | fuel + 1, a :: rest =>
    match matchAt (a :: rest) with
    | some (found, after) => .inr found :: scan matchAt fuel after
    | none => .inl a :: scan matchAt fuel rest

/-- The matches from left to right; a match is not empty, so there are enough steps. -/
def matchesOf (matchAt : List α → Option (β × List α)) (text : List α) : List β :=
  (scan matchAt text.length text).filterMap Sum.getRight?

/-- The text with every match replaced. -/
def replaceMatches (matchAt : List α → Option (β × List α)) (render : β → List α)
    (text : List α) : List α :=
  (scan matchAt text.length text).flatMap (Sum.elim (fun a ↦ [a]) render)

/-- A replacement depends on what it makes of the matches. -/
theorem replaceMatches_congr {matchAt : List α → Option (β × List α)} {render render' : β → List α}
    {text : List α} (h : ∀ found ∈ matchesOf matchAt text, render found = render' found) :
    replaceMatches matchAt render text = replaceMatches matchAt render' text := by
  unfold replaceMatches
  refine List.flatMap_congr fun piece hpiece ↦ ?_
  cases piece with
  | inl a => rfl
  | inr found => exact h found (List.mem_filterMap.2 ⟨_, hpiece, rfl⟩)

end WebLens.Lib
