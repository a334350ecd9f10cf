import WebLens.Network.Address

/-!
# The two address policies

The crawler dials an address only if `isPublicAddress` holds, the capture worker contacts a host
only if `isPrivateAddress` holds of none of its addresses. Both refuse a union of ranges. The
crawler's ranges are covered by the worker's, and the worker's by the crawler's except one: the
network `0.0.0.0/8`, of which the crawler refuses the single address `0.0.0.0`.
-/

set_option autoImplicit false
set_option relaxedAutoImplicit false

namespace WebLens.Network

/-! ### The policies -/

/-- The crawler's `blockedNetworks`. -/
def blockedNetworks : Ranges where
  ipv4 := [v4 100 64 0 0 10, v4 192 0 0 0 24, v4 192 0 2 0 24, v4 198 18 0 0 15,
    v4 198 51 100 0 24, v4 203 0 113 0 24, v4 240 0 0 0 4]
  ipv6 := [v6 0x2001 0xdb8 0 32]

/-- The crawler's policy; `none` is an address that is not valid. -/
def isPublicAddress : Option Address → Bool
  | none => false
  | some address =>
    let address := address.unmap
    if !address.isGlobalUnicast || address.isPrivate || address.isLoopback ||
        address.isLinkLocalUnicast || address.isLinkLocalMulticast || address.isMulticast ||
        address.isUnspecified then
      false
    else
      !blockedNetworks.contain address

/-- The capture worker's `blockedAddresses`. -/
def blockedAddresses : Ranges where
  ipv4 := [v4 0 0 0 0 8, v4 10 0 0 0 8, v4 100 64 0 0 10, v4 127 0 0 0 8, v4 169 254 0 0 16,
    v4 172 16 0 0 12, v4 192 0 0 0 24, v4 192 0 2 0 24, v4 192 168 0 0 16, v4 198 18 0 0 15,
    v4 198 51 100 0 24, v4 203 0 113 0 24, v4 224 0 0 0 4, v4 240 0 0 0 4]
  ipv6 := [v6 0 0 0 128, v6 0 0 1 128, v6 0xfc00 0 0 7, v6 0xfe80 0 0 10, v6 0xff00 0 0 8,
    v6 0x2001 0xdb8 0 32]

/-- The capture worker's policy; `none` is a text that is not an address. -/
def isPrivateAddress : Option Address → Bool
  | none => true
  | some address => blockedAddresses.check address

/-! ### What the crawler refuses -/

/-- The ranges that the crawler's policy refuses, as one union. -/
def refusedRanges : Ranges :=
  unspecified.union <| broadcast.union <| loopback.union <| multicast.union <|
    linkLocalUnicast.union <| privateUse.union <| linkLocalMulticast.union blockedNetworks

/-- The crawler refuses exactly the addresses of its ranges. -/
theorem isPublicAddress_some (address : Address) :
    isPublicAddress (some address) = !refusedRanges.contain address.unmap := by
  unfold isPublicAddress refusedRanges Address.isGlobalUnicast Address.isPrivate
    Address.isLoopback Address.isLinkLocalUnicast Address.isLinkLocalMulticast
    Address.isMulticast Address.isUnspecified
  simp only [Ranges.contain_union]
  generalize address.unmap = unmapped
  cases unspecified.contain unmapped <;> cases broadcast.contain unmapped <;>
    cases loopback.contain unmapped <;> cases multicast.contain unmapped <;>
    cases linkLocalUnicast.contain unmapped <;> cases privateUse.contain unmapped <;>
    cases linkLocalMulticast.contain unmapped <;> rfl

/-! ### The ranges of the two policies -/

/-- `0.0.0.0/8`. -/
def thisNetwork : Subnet 32 := v4 0 0 0 0 8

/-- An address of `0.0.0.0/8`, in either notation, other than `0.0.0.0` itself. -/
def Address.OnThisNetwork (address : Address) : Prop :=
  ∃ bits, address.unmap = .ipv4 bits ∧ thisNetwork.contains bits = true ∧ bits ≠ 0

/-- Each range of the crawler lies in one of the worker's. -/
theorem blockedAddresses_of_refusedRanges {address : Address}
    (h : refusedRanges.contain address = true) : blockedAddresses.contain address = true := by
  cases address with
  | ipv4 bits => exact Subnet.any_contains_of_covers _ _ (by decide +kernel) h
  | ipv6 bits => exact Subnet.any_contains_of_covers _ _ (by decide +kernel) h

/-- Each range of the worker other than `0.0.0.0/8` lies in one of the crawler's. -/
theorem refusedRanges_or_thisNetwork {address : Address}
    (h : blockedAddresses.contain address = true) :
    refusedRanges.contain address = true ∨
      ∃ bits, address = .ipv4 bits ∧ thisNetwork.contains bits = true := by
  cases address with
  | ipv4 bits =>
    have hcovered := Subnet.any_contains_of_covers _ (thisNetwork :: refusedRanges.ipv4)
      (by decide +kernel) h
    rw [List.any_cons, Bool.or_eq_true] at hcovered
    exact hcovered.symm.imp_right fun hthis ↦ ⟨bits, rfl, hthis⟩
  | ipv6 bits => exact .inl (Subnet.any_contains_of_covers _ _ (by decide +kernel) h)

/-- Of `0.0.0.0/8` the crawler refuses only `0.0.0.0`. -/
theorem refusedRanges_thisNetwork {bits : BitVec 32} (h : thisNetwork.contains bits = true) :
    refusedRanges.contain (.ipv4 bits) = true ↔ bits = 0 := by
  have hrest : ¬ refusedRanges.ipv4.tail.any (·.contains bits) = true :=
    Subnet.not_any_contains_of_apart (by decide +kernel) h
  show (Subnet.host 0 :: refusedRanges.ipv4.tail).any (·.contains bits) = true ↔ bits = 0
  rw [List.any_cons, Bool.or_eq_true, or_iff_left hrest, Subnet.host_contains]

/-- The worker's IPv6 ranges hold no IPv4-mapped address. -/
theorem not_blockedAddresses_of_mapped {bits : BitVec 128}
    (h : mappedBlock.contains bits = true) :
    ¬ blockedAddresses.contain (.ipv6 bits) = true :=
  Subnet.not_any_contains_of_apart (by decide +kernel) h

/-- The worker blocks an address exactly if its IPv4 form, when it has one, is blocked. -/
theorem isPrivateAddress_some (address : Address) :
    isPrivateAddress (some address) = blockedAddresses.contain address.unmap := by
  show blockedAddresses.check address = _
  unfold Ranges.check
  cases address with
  | ipv4 bits => exact Bool.or_self _
  | ipv6 bits =>
    by_cases hmapped : mappedBlock.contains bits = true
    · rw [Bool.eq_false_iff.2 (not_blockedAddresses_of_mapped hmapped), Bool.false_or]
    · rw [Address.unmap_of_not_mapped hmapped, Bool.or_self]

/-- What the crawler refuses the worker blocks. -/
theorem isPrivateAddress_of_not_isPublicAddress {address : Address}
    (h : isPublicAddress (some address) = false) : isPrivateAddress (some address) = true := by
  rw [isPublicAddress_some, Bool.not_eq_false'] at h
  rw [isPrivateAddress_some]
  exact blockedAddresses_of_refusedRanges h

/-! ### Agreement -/

/-- The policies agree on an address exactly if it is not on `0.0.0.0/8` beside `0.0.0.0`. -/
theorem isPublicAddress_iff_not_isPrivateAddress (address : Address) :
    (isPublicAddress (some address) = true ↔ isPrivateAddress (some address) = false) ↔
      ¬ address.OnThisNetwork := by
  rw [isPublicAddress_some, isPrivateAddress_some, Bool.not_eq_true', ← Bool.not_eq_true,
    ← Bool.not_eq_true, not_iff_not]
  constructor
  · rintro hagree ⟨bits, hunmap, hthis, hne⟩
    rw [hunmap] at hagree
    refine hne ((refusedRanges_thisNetwork hthis).1 (hagree.2 ?_))
    exact Subnet.any_contains_of_covers [thisNetwork] _ (by decide +kernel)
      (by rw [List.any_cons, hthis, Bool.true_or])
  · intro hother
    refine ⟨blockedAddresses_of_refusedRanges, fun hblocked ↦ ?_⟩
    rcases refusedRanges_or_thisNetwork hblocked with hrefused | ⟨bits, hunmap, hthis⟩
    · exact hrefused
    · rw [hunmap, refusedRanges_thisNetwork hthis]
      by_contra hne
      exact hother ⟨bits, hunmap, hthis, hne⟩

/-- `0.0.0.1` is public to the crawler and blocked by the capture worker. -/
theorem policies_differ_on_this_network :
    ¬ ∀ address : Address,
      (isPublicAddress (some address) = true ↔ isPrivateAddress (some address) = false) := by
  intro h
  have hpublic : isPublicAddress (some (.ipv4 1)) = true := by decide +kernel
  have hprivate : isPrivateAddress (some (.ipv4 1)) = true := by decide +kernel
  rw [(h (.ipv4 1)).1 hpublic] at hprivate
  exact Bool.false_ne_true hprivate

end WebLens.Network
