import Mathlib.Data.List.Perm.Subperm
import WebLens.Lib.Table

/-!
# Leases held in two tables

A worker that takes a lease becomes the owner of a row in each of two tables, with the same expiry.
`Paired` says that the two tables agree: an owner has at most one row in each, rows of one owner
match, and a row whose lease is still live has its partner in the other table. A lease is granted
to a fresh owner, extended on both sides, or dropped; the three rules say when this keeps the
tables paired. Leases that have expired need no partner, so the two sides may be cleaned up at
different moments.
-/

set_option autoImplicit false
set_option relaxedAutoImplicit false

namespace WebLens.Lib

/-- Who owns a row and until when. -/
structure Leasing (α ω τ : Type) where
  owner : α → Option ω
  expiry : α → Option τ

section

variable {α β ω τ : Type} [LT τ] {a : Leasing α ω τ} {b : Leasing β ω τ} {R : α → β → Prop}
  {now : τ} {as as' : List α} {bs bs' : List β}

/-- The lease of the row is not over at the given time. -/
def Leasing.Live (a : Leasing α ω τ) (now : τ) (row : α) : Prop :=
  ∀ expiry, a.expiry row = some expiry → now < expiry

/-- Every owner has at most one row of the table. -/
def Leasing.Unique (a : Leasing α ω τ) (as : List α) : Prop :=
  ∀ first ∈ as, ∀ second ∈ as, ∀ owner, a.owner first = some owner →
    a.owner second = some owner → first = second

/-- The live leases of the first table have partners in the second. -/
def Leasing.Covered (a : Leasing α ω τ) (b : Leasing β ω τ) (now : τ) (as : List α) (bs : List β) :
    Prop :=
  ∀ first ∈ as, ∀ owner, a.owner first = some owner → a.Live now first →
    ∃ second ∈ bs, b.owner second = some owner

/-- The two tables agree on their leases. -/
structure Paired (a : Leasing α ω τ) (b : Leasing β ω τ) (R : α → β → Prop) (now : τ)
    (as : List α) (bs : List β) : Prop where
  left : a.Unique as
  right : b.Unique bs
  agree : ∀ first ∈ as, ∀ second ∈ bs, ∀ owner, a.owner first = some owner →
    b.owner second = some owner → b.expiry second = a.expiry first ∧ R first second
  leftCovered : a.Covered b now as bs
  rightCovered : b.Covered a now bs as

theorem Leasing.live_congr {first : α} {second : β} (h : b.expiry second = a.expiry first) :
    b.Live now second ↔ a.Live now first := by
  rw [Leasing.Live, Leasing.Live, h]

/-- What holds of one side holds of the other. -/
theorem Paired.symm (h : Paired a b R now as bs) :
    Paired b a (fun second first ↦ R first second) now bs as where
  left := h.right
  right := h.left
  agree second hsecond first hfirst owner ho ho' :=
    have hagree := h.agree first hfirst second hsecond owner ho' ho
    ⟨hagree.1.symm, hagree.2⟩
  leftCovered := h.rightCovered
  rightCovered := h.leftCovered

/-- Leases that are paired at a time are paired later. -/
theorem Paired.mono {later : τ} (h : Paired a b R now as bs)
    (hlater : ∀ expiry, later < expiry → now < expiry) : Paired a b R later as bs where
  left := h.left
  right := h.right
  agree := h.agree
  leftCovered first hfirst owner ho hlive :=
    h.leftCovered first hfirst owner ho fun expiry he ↦ hlater expiry (hlive expiry he)
  rightCovered second hsecond owner ho hlive :=
    h.rightCovered second hsecond owner ho fun expiry he ↦ hlater expiry (hlive expiry he)

omit [LT τ] in
theorem Leasing.Unique.of_subset (h : a.Unique as)
    (hkept : ∀ row ∈ as', a.owner row ≠ none → row ∈ as) : a.Unique as' := by
  intro first hfirst second hsecond owner ho ho'
  exact h first (hkept first hfirst (by simp [ho])) second (hkept second hsecond (by simp [ho']))
    owner ho ho'

/-- Leases may be dropped when live partners are dropped together. -/
theorem Paired.drop (h : Paired a b R now as bs)
    (hleft : ∀ row ∈ as', a.owner row ≠ none → row ∈ as)
    (hright : ∀ row ∈ bs', b.owner row ≠ none → row ∈ bs)
    (hmatch : ∀ first ∈ as, ∀ second ∈ bs, ∀ owner, a.owner first = some owner →
      b.owner second = some owner → a.Live now first → (first ∈ as' ↔ second ∈ bs')) :
    Paired a b R now as' bs' where
  left := h.left.of_subset hleft
  right := h.right.of_subset hright
  agree first hfirst second hsecond owner ho ho' :=
    h.agree first (hleft first hfirst (by simp [ho])) second (hright second hsecond (by simp [ho']))
      owner ho ho'
  leftCovered first hfirst owner ho hlive := by
    have hmem := hleft first hfirst (by simp [ho])
    obtain ⟨second, hsecond, ho'⟩ := h.leftCovered first hmem owner ho hlive
    exact ⟨second, (hmatch first hmem second hsecond owner ho ho' hlive).1 hfirst, ho'⟩
  rightCovered second hsecond owner ho' hlive := by
    have hmem := hright second hsecond (by simp [ho'])
    obtain ⟨first, hfirst, ho⟩ := h.rightCovered second hmem owner ho' hlive
    have hlive' := (Leasing.live_congr (h.agree first hfirst second hmem owner ho ho').1).1 hlive
    exact ⟨first, (hmatch first hfirst second hmem owner ho ho' hlive').2 hsecond, ho⟩

/-! ### Extending -/

/-- An update that gives the lease of one owner a new expiry. -/
structure Leasing.Extends (a : Leasing α ω τ) (owner : ω) (expiry : τ) (set : α → α) (as : List α) :
    Prop where
  partner : ∃ row ∈ as, a.owner row = some owner
  owner_set : ∀ row ∈ as, a.owner (set row) = a.owner row
  same : ∀ row ∈ as, a.owner row ≠ some owner → set row = row
  expiry_set : ∀ row ∈ as, a.owner row = some owner → a.expiry (set row) = some expiry

omit [LT τ] in
theorem Leasing.Extends.unique {owner : ω} {expiry : τ} {set : α → α}
    (hset : a.Extends owner expiry set as) (h : a.Unique as) : a.Unique (as.map set) := by
  intro first' hfirst' second' hsecond' owner' ho ho'
  obtain ⟨first, hfirst, rfl⟩ := List.mem_map.1 hfirst'
  obtain ⟨second, hsecond, rfl⟩ := List.mem_map.1 hsecond'
  rw [hset.owner_set first hfirst] at ho
  rw [hset.owner_set second hsecond] at ho'
  rw [h first hfirst second hsecond owner' ho ho']

theorem Leasing.Extends.covered {owner : ω} {expiry : τ} {setLeft : α → α} {setRight : β → β}
    (hleft : a.Extends owner expiry setLeft as) (hright : b.Extends owner expiry setRight bs)
    (h : a.Covered b now as bs) : a.Covered b now (as.map setLeft) (bs.map setRight) := by
  intro first' hfirst' owner' ho hlive
  obtain ⟨first, hfirst, rfl⟩ := List.mem_map.1 hfirst'
  rw [hleft.owner_set first hfirst] at ho
  suffices hsuffices : ∃ second ∈ bs, b.owner second = some owner' by
    obtain ⟨second, hsecond, ho'⟩ := hsuffices
    exact ⟨setRight second, List.mem_map_of_mem hsecond,
      (hright.owner_set second hsecond).trans ho'⟩
  by_cases howner : owner' = owner
  · rw [howner]
    exact hright.partner
  · have hne : a.owner first ≠ some owner := fun heq ↦ howner (Option.some.inj (ho.symm.trans heq))
    rw [hleft.same first hfirst hne] at hlive
    exact h first hfirst owner' ho hlive

/-- A lease may be extended, even one that has expired, when both rows are still there. -/
theorem Paired.extend (h : Paired a b R now as bs) {owner : ω} {expiry : τ} {setLeft : α → α}
    {setRight : β → β} (hleft : a.Extends owner expiry setLeft as)
    (hright : b.Extends owner expiry setRight bs)
    (hR : ∀ first second, R first second → R (setLeft first) (setRight second)) :
    Paired a b R now (as.map setLeft) (bs.map setRight) where
  left := hleft.unique h.left
  right := hright.unique h.right
  agree first' hfirst' second' hsecond' owner' ho ho' := by
    obtain ⟨first, hfirst, rfl⟩ := List.mem_map.1 hfirst'
    obtain ⟨second, hsecond, rfl⟩ := List.mem_map.1 hsecond'
    rw [hleft.owner_set first hfirst] at ho
    rw [hright.owner_set second hsecond] at ho'
    obtain ⟨hexpiry, hrel⟩ := h.agree first hfirst second hsecond owner' ho ho'
    refine ⟨?_, hR first second hrel⟩
    by_cases howner : owner' = owner
    · rw [howner] at ho ho'
      rw [hleft.expiry_set first hfirst ho, hright.expiry_set second hsecond ho']
    · have hne : some owner' ≠ some owner := fun heq ↦ howner (Option.some.inj heq)
      rw [hleft.same first hfirst (ho ▸ hne), hright.same second hsecond (ho' ▸ hne), hexpiry]
  leftCovered := hleft.covered hright h.leftCovered
  rightCovered := hright.covered hleft h.rightCovered

/-! ### Granting -/

/-- An update that gives one row to a new owner. -/
structure Leasing.Grants (a : Leasing α ω τ) (owner : ω) (expiry : τ) (row row' : α)
    (as as' : List α) : Prop where
  mem : row ∈ as
  mem_iff : ∀ other, other ∈ as' ↔ other = row' ∨ other ∈ as ∧ other ≠ row
  fresh : ∀ other ∈ as, a.owner other ≠ some owner
  owner_eq : a.owner row' = some owner
  expiry_eq : a.expiry row' = some expiry

omit [LT τ] in
theorem Leasing.Grants.unique {owner : ω} {expiry : τ} {row row' : α}
    (hgrant : a.Grants owner expiry row row' as as') (h : a.Unique as) : a.Unique as' := by
  intro first hfirst second hsecond owner' ho ho'
  rcases (hgrant.mem_iff first).1 hfirst with heq | ⟨hold, -⟩ <;>
    rcases (hgrant.mem_iff second).1 hsecond with heq' | ⟨hold', -⟩
  · exact heq.trans heq'.symm
  · rw [heq, hgrant.owner_eq] at ho
    exact absurd (ho'.trans ho.symm) (hgrant.fresh second hold')
  · rw [heq', hgrant.owner_eq] at ho'
    exact absurd (ho.trans ho'.symm) (hgrant.fresh first hold)
  · exact h first hold second hold' owner' ho ho'

theorem Leasing.Grants.covered {owner : ω} {expiry : τ} {first first' : α} {second second' : β}
    (hfirst : a.Grants owner expiry first first' as as')
    (hsecond : b.Grants owner expiry second second' bs bs') (h : a.Covered b now as bs)
    (hover : ∀ other ∈ as, ∀ owner', a.owner other = some owner' → b.owner second = some owner' →
      a.Live now other → other = first) : a.Covered b now as' bs' := by
  intro other hother owner' ho hlive
  rcases (hfirst.mem_iff other).1 hother with rfl | ⟨hother, hne⟩
  · rw [hfirst.owner_eq] at ho
    exact ⟨second', (hsecond.mem_iff _).2 (.inl rfl), hsecond.owner_eq.trans ho⟩
  · obtain ⟨partner, hpartner, ho'⟩ := h other hother owner' ho hlive
    refine ⟨partner, (hsecond.mem_iff _).2 (.inr ⟨hpartner, ?_⟩), ho'⟩
    rintro rfl
    exact hne (hover other hother owner' ho ho' hlive)

omit [LT τ] in
/-- An update of one row grants it. -/
theorem Leasing.grants_update {sel : α → Bool} {set : α → α} {row : α} (hrow : row ∈ as)
    (hsel : ∀ other ∈ as, sel other = true ↔ other = row) {owner : ω} {expiry : τ}
    (hfresh : ∀ other ∈ as, a.owner other ≠ some owner) (howner : a.owner (set row) = some owner)
    (hexpiry : a.expiry (set row) = some expiry) :
    a.Grants owner expiry row (set row) as (Table.update sel set as) where
  mem := hrow
  mem_iff other := by
    constructor
    · intro hother
      obtain ⟨old, hold, rfl⟩ := Table.mem_update.1 hother
      by_cases heq : sel old = true
      · rw [if_pos heq, (hsel old hold).1 heq]
        exact .inl rfl
      · rw [if_neg heq]
        exact .inr ⟨hold, fun hrow ↦ heq ((hsel old hold).2 hrow)⟩
    · rintro (rfl | ⟨hother, hne⟩)
      · exact Table.mem_update_of_sel hrow ((hsel row hrow).2 rfl)
      · refine Table.mem_update_of_not hother ?_
        rw [← Bool.not_eq_true]
        exact fun heq ↦ hne ((hsel other hother).1 heq)
  fresh := hfresh
  owner_eq := howner
  expiry_eq := hexpiry

/-- A fresh owner may take a row of each table whose former lease, if any, has expired. -/
theorem Paired.grant (h : Paired a b R now as bs) {owner : ω} {expiry : τ} {first first' : α}
    {second second' : β} (hfirst : a.Grants owner expiry first first' as as')
    (hsecond : b.Grants owner expiry second second' bs bs') (hR : R first' second')
    (hfree : ∀ owner', a.owner first = some owner' → ¬ a.Live now first)
    (hfree' : ∀ owner', b.owner second = some owner' → ¬ b.Live now second) :
    Paired a b R now as' bs' where
  left := hfirst.unique h.left
  right := hsecond.unique h.right
  agree other hother partner hpartner owner' ho ho' := by
    rcases (hfirst.mem_iff other).1 hother with heq | ⟨hold, -⟩ <;>
      rcases (hsecond.mem_iff partner).1 hpartner with heq' | ⟨hold', -⟩
    · rw [heq, heq']
      exact ⟨hsecond.expiry_eq.trans hfirst.expiry_eq.symm, hR⟩
    · rw [heq, hfirst.owner_eq] at ho
      exact absurd (ho'.trans ho.symm) (hsecond.fresh partner hold')
    · rw [heq', hsecond.owner_eq] at ho'
      exact absurd (ho.trans ho'.symm) (hfirst.fresh other hold)
    · exact h.agree other hold partner hold' owner' ho ho'
  leftCovered := hfirst.covered hsecond h.leftCovered fun other hother owner' ho ho' hlive ↦ by
    have hagree := (h.agree other hother second hsecond.mem owner' ho ho').1
    exact absurd ((Leasing.live_congr hagree).2 hlive) (hfree' owner' ho')
  rightCovered := hsecond.covered hfirst h.rightCovered fun partner hpartner owner' ho' ho hlive ↦ by
    have hagree := (h.agree first hfirst.mem partner hpartner owner' ho ho').1
    exact absurd ((Leasing.live_congr hagree).1 hlive) (hfree owner' ho)

end

end WebLens.Lib
