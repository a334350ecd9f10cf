import Mathlib.Data.List.Dedup
import Mathlib.Data.List.Nodup
import Mathlib.Data.List.Perm.Subperm
import Mathlib.Algebra.Order.Ring.Nat

/-!
# Distinct values up to a limit

A list that stores each value once and stops at a limit. Values come in groups, and a group is new
when storing it makes the list longer. Whether that happens is decided by the values that came
before, stored or not: the list represents all of them until the limit is reached.
-/

set_option autoImplicit false
set_option relaxedAutoImplicit false

namespace WebLens.Lib.Distinct

variable {α : Type*} {limit : ℕ}

/-! ### What the list represents -/

/-- The list holds the distinct values among `earlier`, all of them unless the limit is reached. -/
structure Represents (limit : ℕ) (earlier stored : List α) : Prop where
  nodup : stored.Nodup
  length_le : stored.length ≤ limit
  subset : stored ⊆ earlier
  complete : stored.length < limit → earlier ⊆ stored

theorem Represents.nil (limit : ℕ) : Represents limit ([] : List α) [] :=
  ⟨List.nodup_nil, Nat.zero_le _, List.Subset.refl _, fun _ ↦ List.Subset.refl _⟩

variable [DecidableEq α]

/-! ### Storing values -/

/-- Stores a value, unless it is stored already or the limit is reached. -/
def insertNew (limit : ℕ) (stored : List α) (value : α) : List α :=
  if limit ≤ stored.length ∨ value ∈ stored then stored else stored ++ [value]

/-- Stores values one after the other. -/
def insertAll (limit : ℕ) (stored values : List α) : List α :=
  values.foldl (insertNew limit) stored

theorem isPrefix_insertNew (limit : ℕ) (stored : List α) (value : α) :
    stored <+: insertNew limit stored value := by
  unfold insertNew
  split
  · exact List.prefix_refl _
  · exact List.prefix_append _ _

theorem isPrefix_insertAll (limit : ℕ) (stored values : List α) :
    stored <+: insertAll limit stored values := by
  induction values generalizing stored with
  | nil => exact List.prefix_refl _
  | cons value values ih => exact (isPrefix_insertNew limit stored value).trans (ih _)

theorem insertAll_append (limit : ℕ) (stored first second : List α) :
    insertAll limit stored (first ++ second) =
      insertAll limit (insertAll limit stored first) second :=
  List.foldl_append

theorem Represents.insertNew {earlier stored : List α} (h : Represents limit earlier stored)
    (value : α) : Represents limit (earlier ++ [value]) (insertNew limit stored value) := by
  unfold Distinct.insertNew
  by_cases hfull : limit ≤ stored.length
  · rw [if_pos (Or.inl hfull)]
    exact ⟨h.nodup, h.length_le, fun a ha ↦ List.mem_append_left _ (h.subset ha),
      fun hlt ↦ absurd hlt (not_lt.2 hfull)⟩
  by_cases hmem : value ∈ stored
  · rw [if_pos (Or.inr hmem)]
    refine ⟨h.nodup, h.length_le, fun a ha ↦ List.mem_append_left _ (h.subset ha), ?_⟩
    intro hlt a ha
    rcases List.mem_append.1 ha with ha | ha
    · exact h.complete hlt ha
    · rw [List.mem_singleton.1 ha]
      exact hmem
  rw [if_neg (not_or.2 ⟨hfull, hmem⟩)]
  have hlt : stored.length < limit := not_le.1 hfull
  refine ⟨?_, ?_, ?_, ?_⟩
  · exact List.nodup_append.2 ⟨h.nodup, List.nodup_singleton _, fun a ha b hb hab ↦
      hmem (List.mem_singleton.1 hb ▸ hab ▸ ha)⟩
  · rw [List.length_append]
    exact hlt
  · intro a ha
    rcases List.mem_append.1 ha with ha | ha
    · exact List.mem_append_left _ (h.subset ha)
    · exact List.mem_append_right _ ha
  · intro _ a ha
    rcases List.mem_append.1 ha with ha | ha
    · exact List.mem_append_left _ (h.complete hlt ha)
    · exact List.mem_append_right _ ha

theorem Represents.insertAll {earlier stored : List α} (h : Represents limit earlier stored)
    (values : List α) : Represents limit (earlier ++ values) (insertAll limit stored values) := by
  induction values generalizing earlier stored with
  | nil =>
    rw [List.append_nil]
    exact h
  | cons value values ih =>
    have hstep := ih (h.insertNew value)
    rw [List.append_assoc] at hstep
    exact hstep

/-- The list is below its limit exactly when there are fewer distinct values than the limit. -/
theorem Represents.length_lt_iff {earlier stored : List α} (h : Represents limit earlier stored) :
    stored.length < limit ↔ earlier.dedup.length < limit := by
  constructor
  · intro hlt
    have hsub : earlier.dedup ⊆ stored := fun a ha ↦ h.complete hlt (List.mem_dedup.1 ha)
    exact lt_of_le_of_lt ((List.nodup_dedup earlier).subperm hsub).length_le hlt
  · intro hlt
    have hsub : stored ⊆ earlier.dedup := fun a ha ↦ List.mem_dedup.2 (h.subset ha)
    exact lt_of_le_of_lt (h.nodup.subperm hsub).length_le hlt

/-! ### Groups that make the list longer -/

/-- A group of values has one that is not among the earlier ones, and the limit is not reached. -/
def IsNew (limit : ℕ) (earlier group : List α) : Prop :=
  earlier.dedup.length < limit ∧ ∃ value ∈ group, value ∉ earlier

instance instDecidableIsNew (limit : ℕ) (earlier group : List α) :
    Decidable (IsNew limit earlier group) :=
  inferInstanceAs (Decidable (_ ∧ _))

theorem Represents.length_lt_insertAll_iff {earlier stored : List α}
    (h : Represents limit earlier stored) (group : List α) :
    stored.length < (Distinct.insertAll limit stored group).length ↔
      IsNew limit earlier group := by
  have hafter := h.insertAll group
  have hprefix := isPrefix_insertAll limit stored group
  constructor
  · intro hlt
    have hroom : stored.length < limit := lt_of_lt_of_le hlt hafter.length_le
    refine ⟨h.length_lt_iff.1 hroom, ?_⟩
    by_contra hnone
    push Not at hnone
    have hsub : Distinct.insertAll limit stored group ⊆ stored := by
      intro a ha
      rcases List.mem_append.1 (hafter.subset ha) with ha | ha
      · exact h.complete hroom ha
      · exact h.complete hroom (hnone a ha)
    exact absurd (hafter.nodup.subperm hsub).length_le (not_le.2 hlt)
  · rintro ⟨hroom, value, hvalue, hnew⟩
    refine lt_of_le_of_ne hprefix.length_le fun heq ↦ ?_
    have hsame := hprefix.eq_of_length heq
    have hlt : (Distinct.insertAll limit stored group).length < limit := by
      rw [← heq]
      exact h.length_lt_iff.2 hroom
    have hmem := hafter.complete hlt (List.mem_append_right _ hvalue)
    rw [← hsame] at hmem
    exact hnew (h.subset hmem)

/-- How many groups, one after the other, are new. -/
def newGroups (limit : ℕ) (earlier : List α) : List (List α) → ℕ
  | [] => 0
  | group :: groups =>
    (if IsNew limit earlier group then 1 else 0) + newGroups limit (earlier ++ group) groups

/-- Every group is new when its turn comes. -/
def AllNew (limit : ℕ) (earlier : List α) : List (List α) → Prop
  | [] => True
  | group :: groups => IsNew limit earlier group ∧ AllNew limit (earlier ++ group) groups

theorem newGroups_append (earlier : List α) (first second : List (List α)) :
    newGroups limit earlier (first ++ second) =
      newGroups limit earlier first + newGroups limit (earlier ++ first.flatten) second := by
  induction first generalizing earlier with
  | nil => simp [newGroups]
  | cons group groups ih =>
    simp only [List.cons_append, newGroups, ih, List.flatten_cons, List.append_assoc]
    omega

theorem newGroups_le (earlier : List α) (groups : List (List α)) :
    newGroups limit earlier groups ≤ groups.length := by
  induction groups generalizing earlier with
  | nil => exact le_refl 0
  | cons group groups ih =>
    have hrest := ih (earlier ++ group)
    simp only [newGroups, List.length_cons]
    split <;> omega

theorem newGroups_eq_length_iff (earlier : List α) (groups : List (List α)) :
    newGroups limit earlier groups = groups.length ↔ AllNew limit earlier groups := by
  induction groups generalizing earlier with
  | nil => exact iff_of_true rfl trivial
  | cons group groups ih =>
    have hrest : newGroups limit (earlier ++ group) groups ≤ groups.length := newGroups_le _ _
    simp only [newGroups, List.length_cons, AllNew]
    by_cases hnew : IsNew limit earlier group
    · rw [if_pos hnew, ← ih (earlier ++ group)]
      constructor
      · intro h
        exact ⟨hnew, by omega⟩
      · rintro ⟨-, h⟩
        omega
    · rw [if_neg hnew]
      constructor
      · intro h
        omega
      · rintro ⟨h, -⟩
        exact absurd h hnew

end WebLens.Lib.Distinct
