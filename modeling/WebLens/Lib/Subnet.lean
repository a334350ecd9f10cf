import Mathlib.Algebra.Order.Ring.Nat

/-!
# Blocks of addresses

A block of `w`-bit addresses holds the addresses that share its leading bits. Two blocks are
nested or disjoint, so whether a union of blocks lies inside another, or meets it at all, is a
question about the blocks and not about the addresses: `Subnet.Covers` and `Subnet.Apart` are
decidable, and `any_contains_of_covers` and `not_any_contains_of_apart` carry them to every
address.
-/

set_option autoImplicit false
set_option relaxedAutoImplicit false

namespace WebLens

variable {w : ℕ}

/-- The addresses of `w` bits that share the first `bits` bits of `base`. -/
structure Subnet (w : ℕ) where
  base : BitVec w
  bits : ℕ
deriving DecidableEq, Repr

namespace Subnet

/-- Whether an address lies in the block. -/
def contains (s : Subnet w) (a : BitVec w) : Bool :=
  a.toNat / 2 ^ (w - s.bits) == s.base.toNat / 2 ^ (w - s.bits)

/-- The block of a single address. -/
def host (a : BitVec w) : Subnet w := ⟨a, w⟩

/-- The first block holds the base of the second, which is at most as large. -/
def Covers (s t : Subnet w) : Prop := s.bits ≤ t.bits ∧ s.contains t.base = true

instance (s t : Subnet w) : Decidable (s.Covers t) :=
  inferInstanceAs (Decidable (_ ∧ _))

/-- Neither block covers the other. -/
def Apart (s t : Subnet w) : Prop := ¬ s.Covers t ∧ ¬ t.Covers s

instance (s t : Subnet w) : Decidable (s.Apart t) :=
  inferInstanceAs (Decidable (_ ∧ _))

theorem contains_iff {s : Subnet w} {a : BitVec w} :
    s.contains a = true ↔
      a.toNat / 2 ^ (w - s.bits) = s.base.toNat / 2 ^ (w - s.bits) :=
  beq_iff_eq

@[simp]
theorem host_contains (a b : BitVec w) : (host a).contains b = true ↔ b = a := by
  rw [contains_iff]
  simp [host, BitVec.toNat_inj]

/-- Addresses that agree on their leading bits agree on fewer of them. -/
theorem div_two_pow_mono {m n : ℕ} (hle : m ≤ n) {a b : ℕ} (h : a / 2 ^ m = b / 2 ^ m) :
    a / 2 ^ n = b / 2 ^ n := by
  obtain ⟨k, rfl⟩ := Nat.exists_eq_add_of_le hle
  rw [Nat.pow_add, ← Nat.div_div_eq_div_mul, ← Nat.div_div_eq_div_mul, h]

/-- A covered block lies inside the covering one. -/
theorem Covers.contains {s t : Subnet w} (h : s.Covers t) {a : BitVec w}
    (ha : t.contains a = true) : s.contains a = true := by
  rw [contains_iff] at ha ⊢
  rw [← contains_iff.1 h.2]
  exact div_two_pow_mono (Nat.sub_le_sub_left h.1 w) ha

/-- Of two blocks with a common address one covers the other. -/
theorem covers_of_contains {s t : Subnet w} (hle : s.bits ≤ t.bits) {a : BitVec w}
    (hs : s.contains a = true) (ht : t.contains a = true) : s.Covers t := by
  refine ⟨hle, ?_⟩
  rw [contains_iff] at hs ht ⊢
  rw [← hs]
  exact (div_two_pow_mono (Nat.sub_le_sub_left hle w) ht).symm

/-- Blocks that are apart have no common address. -/
theorem Apart.not_contains {s t : Subnet w} (h : s.Apart t) {a : BitVec w}
    (hs : s.contains a = true) : ¬ t.contains a = true := by
  intro ht
  by_cases hle : s.bits ≤ t.bits
  · exact h.1 (covers_of_contains hle hs ht)
  · exact h.2 (covers_of_contains (Nat.le_of_not_le hle) ht hs)

/-! ### Unions of blocks -/

/-- A union of covered blocks lies inside the union of the covering ones. -/
theorem any_contains_of_covers (inner outer : List (Subnet w))
    (h : ∀ t ∈ inner, ∃ s ∈ outer, s.Covers t) {a : BitVec w}
    (ha : inner.any (·.contains a) = true) : outer.any (·.contains a) = true := by
  rw [List.any_eq_true] at ha ⊢
  obtain ⟨t, ht, hta⟩ := ha
  obtain ⟨s, hs, hcovers⟩ := h t ht
  exact ⟨s, hs, hcovers.contains hta⟩

/-- A block apart from each block of a union does not meet the union. -/
theorem not_any_contains_of_apart {s : Subnet w} {others : List (Subnet w)}
    (h : ∀ t ∈ others, s.Apart t) {a : BitVec w} (ha : s.contains a = true) :
    ¬ others.any (·.contains a) = true := by
  rw [List.any_eq_true]
  rintro ⟨t, ht, hta⟩
  exact (h t ht).not_contains ha hta

end Subnet

end WebLens
