import Mathlib.Data.List.Sort
import Mathlib.Data.List.Induction

/-!
# Sorting by a comparator and electing one value for each key

A list is sorted by a comparator, and of the values that share a key the first is elected. When
the comparator tells the values of the list apart, the winner for a key is the least value with
the key, and the order of the list does not matter.
-/

set_option autoImplicit false
set_option relaxedAutoImplicit false

namespace WebLens

open Std

variable {α κ : Type}

/-! ### Comparators -/

/-- Values compared by what a function reads of them. -/
theorem transCmp_on {β : Type} (f : α → β) (order : β → β → Ordering) [TransCmp order] :
    TransCmp fun left right ↦ order (f left) (f right) where
  eq_swap := OrientedCmp.eq_swap
  isLE_trans := TransCmp.isLE_trans

/-- A comparator with a second one for the values that the first does not tell apart. -/
theorem transCmp_then {order order' : α → α → Ordering} (h : TransCmp order)
    (h' : TransCmp order') :
    TransCmp fun left right ↦ (order left right).then (order' left right) :=
  inferInstanceAs (TransCmp (compareLex order order'))

theorem transCmp_opposite {order : α → α → Ordering} (h : TransCmp order) :
    TransCmp fun left right ↦ order right left :=
  TransCmp.opposite

/-! ### Sorting by a comparator -/

/-- The list in the order of a comparator. -/
def sortBy (order : α → α → Ordering) (list : List α) : List α :=
  list.insertionSort fun a b ↦ (order a b).isLE = true

/-- The comparator tells the values of the list apart. -/
def Separates (order : α → α → Ordering) (list : List α) : Prop :=
  ∀ a ∈ list, ∀ b ∈ list, order a b = .eq → a = b

section Sorting

variable {order : α → α → Ordering} {list list' : List α}

theorem sortBy_perm : (sortBy order list).Perm list :=
  List.perm_insertionSort _ list

theorem mem_sortBy {a : α} : a ∈ sortBy order list ↔ a ∈ list :=
  sortBy_perm.mem_iff

theorem Separates.eq_of_isLE [OrientedCmp order] (h : Separates order list) {a b : α}
    (ha : a ∈ list) (hb : b ∈ list) (hab : (order a b).isLE) (hba : (order b a).isLE) : a = b :=
  h a ha b hb (OrientedCmp.isLE_antisymm hab hba)

variable [TransCmp order]

theorem sortBy_pairwise (order : α → α → Ordering) [TransCmp order] (list : List α) :
    (sortBy order list).Pairwise fun a b ↦ (order a b).isLE = true := by
  have : Std.Total fun a b ↦ (order a b).isLE = true := by
    constructor
    intro a b
    by_cases h : (order a b).isLE = true
    · exact Or.inl h
    · refine Or.inr (OrientedCmp.isGE_iff_isLE.1 ?_)
      cases horder : order a b
      · exact absurd (by rw [horder]; rfl) h
      · rfl
      · rfl
  have : IsTrans α fun a b ↦ (order a b).isLE = true :=
    ⟨fun _ _ _ hab hbc ↦ TransCmp.isLE_trans hab hbc⟩
  exact List.pairwise_insertionSort _ list

/-- The order of the list does not matter to the sorted list. -/
theorem sortBy_eq_of_perm (hsep : Separates order list) (hperm : list.Perm list') :
    sortBy order list = sortBy order list' := by
  refine List.Perm.eq_of_pairwise (fun a b ha hb hab hba ↦ ?_) (sortBy_pairwise order list)
    (sortBy_pairwise order list') (sortBy_perm.trans (hperm.trans sortBy_perm.symm))
  exact hsep.eq_of_isLE (mem_sortBy.1 ha) (hperm.mem_iff.2 (mem_sortBy.1 hb)) hab hba

/-- The last value of the sorted list is the greatest. -/
theorem getLast?_sortBy (hsep : Separates order list) {last : α} :
    (sortBy order list).getLast? = some last ↔
      last ∈ list ∧ ∀ a ∈ list, (order a last).isLE = true := by
  have hgreatest : ∀ b, (sortBy order list).getLast? = some b →
      ∀ a ∈ list, (order a b).isLE = true := by
    intro b hb a ha
    obtain ⟨before, hlist⟩ := List.getLast?_eq_some_iff.1 hb
    have hsorted := sortBy_pairwise order list
    rw [hlist] at hsorted
    have ha : a ∈ before ++ [b] := hlist ▸ mem_sortBy.2 ha
    rcases List.mem_append.1 ha with ha | ha
    · exact (List.pairwise_append.1 hsorted).2.2 a ha b (List.mem_singleton_self b)
    · rw [List.mem_singleton.1 ha]
      exact ReflCmp.isLE_rfl
  constructor
  · intro h
    exact ⟨mem_sortBy.1 (List.mem_of_getLast? h), hgreatest last h⟩
  · rintro ⟨hlast, hall⟩
    cases hfound : (sortBy order list).getLast? with
    | none =>
      rw [List.getLast?_eq_none_iff] at hfound
      exact absurd (mem_sortBy.2 hlast) (hfound ▸ List.not_mem_nil)
    | some b =>
      have hb := mem_sortBy.1 (List.mem_of_getLast? hfound)
      rw [hsep.eq_of_isLE hb hlast (hall b hb) (hgreatest b hfound last hlast)]

end Sorting

/-! ### Electing -/

section Elect

variable [DecidableEq κ]

/-- Enter a value: it wins unless a value with its key has won before. -/
def enter (key : α → κ) (state : List α × List α) (a : α) : List α × List α :=
  if state.1.any fun winner ↦ key winner = key a then (state.1, state.2 ++ [a])
  else (state.1 ++ [a], state.2)

/-- The first value of each key, and the others. -/
def elect (key : α → κ) (list : List α) : List α × List α :=
  list.foldl (enter key) ([], [])

variable {key : α → κ} {list : List α}

theorem elect_concat (a : α) : elect key (list ++ [a]) = enter key (elect key list) a := by
  unfold elect
  rw [List.foldl_append]
  rfl

theorem elect_concat_of_mem {a : α} (h : key a ∈ (elect key list).1.map key) :
    elect key (list ++ [a]) = ((elect key list).1, (elect key list).2 ++ [a]) := by
  obtain ⟨winner, hwinner, hkey⟩ := List.mem_map.1 h
  rw [elect_concat, enter, if_pos]
  exact List.any_eq_true.2 ⟨winner, hwinner, decide_eq_true hkey⟩

theorem elect_concat_of_not_mem {a : α} (h : key a ∉ (elect key list).1.map key) :
    elect key (list ++ [a]) = ((elect key list).1 ++ [a], (elect key list).2) := by
  rw [elect_concat, enter, if_neg]
  intro hany
  obtain ⟨winner, hwinner, hkey⟩ := List.any_eq_true.1 hany
  exact h (List.mem_map.2 ⟨winner, hwinner, of_decide_eq_true hkey⟩)

/-- Every value of the list wins or loses, once. -/
theorem elect_perm (key : α → κ) (list : List α) :
    ((elect key list).1 ++ (elect key list).2).Perm list := by
  induction list using List.reverseRecOn with
  | nil => rfl
  | append_singleton list a ih =>
    by_cases h : key a ∈ (elect key list).1.map key
    · rw [elect_concat_of_mem h, ← List.append_assoc]
      exact ih.append_right [a]
    · rw [elect_concat_of_not_mem h, List.append_assoc]
      exact (List.perm_append_comm.append_left _).trans
        (by rw [← List.append_assoc]; exact ih.append_right [a])

/-- No two winners share a key. -/
theorem elect_nodup (key : α → κ) (list : List α) : ((elect key list).1.map key).Nodup := by
  induction list using List.reverseRecOn with
  | nil => exact List.nodup_nil
  | append_singleton list a ih =>
    by_cases h : key a ∈ (elect key list).1.map key
    · rw [elect_concat_of_mem h]
      exact ih
    · rw [elect_concat_of_not_mem h, List.map_append, List.nodup_append]
      refine ⟨ih, List.nodup_singleton _, ?_⟩
      rintro k hk k' hk' rfl
      rw [List.map_singleton, List.mem_singleton] at hk'
      exact h (hk' ▸ hk)

/-- The key of every value has a winner. -/
theorem key_mem_elect {a : α} (h : a ∈ list) : key a ∈ (elect key list).1.map key := by
  induction list using List.reverseRecOn with
  | nil => exact absurd h List.not_mem_nil
  | append_singleton list b ih =>
    by_cases hkey : key b ∈ (elect key list).1.map key
    · rw [elect_concat_of_mem hkey]
      rcases List.mem_append.1 h with h | h
      · exact ih h
      · rwa [List.mem_singleton.1 h]
    · rw [elect_concat_of_not_mem hkey, List.map_append]
      rcases List.mem_append.1 h with h | h
      · exact List.mem_append_left _ (ih h)
      · rw [List.mem_singleton.1 h]
        exact List.mem_append_right _ (List.mem_singleton_self _)

theorem mem_of_mem_elect {a : α} (h : a ∈ (elect key list).1) : a ∈ list :=
  (elect_perm key list).subset (List.mem_append_left _ h)

theorem mem_of_mem_elect_snd {a : α} (h : a ∈ (elect key list).2) : a ∈ list :=
  (elect_perm key list).subset (List.mem_append_right _ h)

theorem find?_key_eq_none {k : κ} :
    list.find? (fun a ↦ key a = k) = none ↔ ∀ a ∈ list, key a ≠ k := by
  rw [List.find?_eq_none]
  exact forall₂_congr fun _ _ ↦ by rw [decide_eq_true_eq]

theorem disjoint_elect (hnodup : list.Nodup) {a : α} (h : a ∈ (elect key list).1) :
    a ∉ (elect key list).2 :=
  List.disjoint_of_nodup_append ((elect_perm key list).nodup_iff.2 hnodup) h

theorem mem_elect_or_snd (key : α → κ) {a : α} (h : a ∈ list) :
    a ∈ (elect key list).1 ∨ a ∈ (elect key list).2 :=
  List.mem_append.1 ((elect_perm key list).mem_iff.2 h)

/-- The winners are those that come first of the values with their key. -/
theorem mem_elect (key : α → κ) (list : List α) (winner : α) :
    winner ∈ (elect key list).1 ↔ list.find? (fun a ↦ key a = key winner) = some winner := by
  induction list using List.reverseRecOn with
  | nil => simp [elect]
  | append_singleton list a ih =>
    rw [List.find?_append]
    by_cases hkey : key a ∈ (elect key list).1.map key
    · rw [elect_concat_of_mem hkey, ih]
      obtain ⟨first, hfirst, hsame⟩ := List.mem_map.1 hkey
      cases hfind : list.find? (fun a ↦ key a = key winner) with
      | some found => rfl
      | none =>
        have hne : key a ≠ key winner :=
          hsame ▸ find?_key_eq_none.1 hfind first (mem_of_mem_elect hfirst)
        simp [hne]
    · rw [elect_concat_of_not_mem hkey, List.mem_append, ih, List.mem_singleton]
      cases hfind : list.find? (fun a ↦ key a = key winner) with
      | some found =>
        have hne : winner ≠ a := by
          rintro rfl
          have hsame : key found = key winner := by
            simpa using List.find?_some hfind
          exact hkey (hsame ▸ key_mem_elect (List.mem_of_find?_eq_some hfind))
        simp [hne]
      | none =>
        by_cases hsame : winner = a
        · subst hsame
          simp
        · have hne : a ≠ winner := fun h ↦ hsame h.symm
          simp [hsame, hne]

end Elect

/-! ### The least value of each key -/

section Best

variable [DecidableEq κ] {order : α → α → Ordering} {key : α → κ} {list : List α}

/-- The value is the least in the list with its key. -/
def IsBest (order : α → α → Ordering) (key : α → κ) (list : List α) (best : α) : Prop :=
  best ∈ list ∧ ∀ a ∈ list, key a = key best → (order best a).isLE = true

/-- The winner of the key of a value. -/
def winnerOf (order : α → α → Ordering) (key : α → κ) (list : List α) (a : α) : Option α :=
  (sortBy order list).find? fun b ↦ key b = key a

theorem exists_winnerOf (order : α → α → Ordering) (key : α → κ) {a : α} (h : a ∈ list) :
    ∃ winner, winnerOf order key list a = some winner := by
  rw [← Option.isSome_iff_exists]
  unfold winnerOf
  rw [List.find?_isSome]
  exact ⟨a, mem_sortBy.2 h, by simp⟩

omit [DecidableEq κ] in
theorem IsBest.eq [OrientedCmp order] (hsep : Separates order list) {a b : α}
    (ha : IsBest order key list a) (hb : IsBest order key list b) (hkey : key a = key b) :
    a = b :=
  hsep.eq_of_isLE ha.1 hb.1 (ha.2 b hb.1 hkey.symm) (hb.2 a ha.1 hkey)

variable [TransCmp order]

theorem isBest_of_winnerOf {a winner : α} (h : winnerOf order key list a = some winner) :
    IsBest order key list winner ∧ key winner = key a := by
  obtain ⟨hkey, before, after, hlist, hbefore⟩ := List.find?_eq_some_iff_append.1 h
  have hkey := of_decide_eq_true hkey
  have hsorted := sortBy_pairwise order list
  rw [hlist] at hsorted
  refine ⟨⟨mem_sortBy.1 (hlist ▸ List.mem_append_right _ List.mem_cons_self),
    fun b hb hsame ↦ ?_⟩, hkey⟩
  have hb : b ∈ before ++ winner :: after := hlist ▸ mem_sortBy.2 hb
  rcases List.mem_append.1 hb with hb | hb
  · exact absurd (hbefore b hb) (by simp [hsame, hkey])
  · rcases List.mem_cons.1 hb with rfl | hb
    · exact ReflCmp.isLE_rfl
    · exact (List.pairwise_cons.1 (List.pairwise_append.1 hsorted).2.1).1 b hb

/-- The winner of the key of a value is the least value with the key. -/
theorem winnerOf_eq_some (hsep : Separates order list) {a winner : α} :
    winnerOf order key list a = some winner ↔
      IsBest order key list winner ∧ key winner = key a := by
  constructor
  · exact isBest_of_winnerOf
  · rintro ⟨hbest, hkey⟩
    obtain ⟨winner', h⟩ := exists_winnerOf order key hbest.1
    have hfound : winnerOf order key list a = some winner' := by
      unfold winnerOf at h ⊢
      rwa [← hkey]
    obtain ⟨hbest', hkey'⟩ := isBest_of_winnerOf hfound
    rwa [hbest.eq hsep hbest' (hkey.trans hkey'.symm)]

/-- The winners are the least values of their keys. -/
theorem mem_elect_sortBy (hsep : Separates order list) {winner : α} :
    winner ∈ (elect key (sortBy order list)).1 ↔ IsBest order key list winner := by
  rw [mem_elect]
  exact (winnerOf_eq_some hsep).trans (and_iff_left rfl)

end Best

end WebLens
