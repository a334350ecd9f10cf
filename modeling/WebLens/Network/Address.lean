import WebLens.Lib.Subnet

/-!
# Internet addresses

A parsed address, the predicates of the crawler's address library and the block list of the
capture worker's runtime, each as the union of the ranges it documents.
-/

set_option autoImplicit false
set_option relaxedAutoImplicit false

namespace WebLens.Network

/-- A parsed address without a zone. -/
inductive Address
  | ipv4 (bits : BitVec 32)
  | ipv6 (bits : BitVec 128)
deriving DecidableEq, Repr

/-- The IPv4 block `a.b.c.d/bits`. -/
def v4 (a b c d bits : ℕ) : Subnet 32 :=
  ⟨BitVec.ofNat 32 (a * 2 ^ 24 + b * 2 ^ 16 + c * 2 ^ 8 + d), bits⟩

/-- The IPv6 block of an address given by its first and last groups, the others being zero. -/
def v6 (first second last bits : ℕ) : Subnet 128 :=
  ⟨BitVec.ofNat 128 (first * 2 ^ 112 + second * 2 ^ 96 + last), bits⟩

/-- `::ffff:0:0/96`, the IPv6 notation of the IPv4 addresses. -/
def mappedBlock : Subnet 128 :=
  ⟨BitVec.ofNat 128 (0xffff * 2 ^ 32), 96⟩

/-- The IPv4 address of an IPv4-mapped IPv6 address; any other address is itself. -/
def Address.unmap : Address → Address
  | .ipv4 bits => .ipv4 bits
  | .ipv6 bits => if mappedBlock.contains bits then .ipv4 (bits.setWidth 32) else .ipv6 bits

theorem Address.unmap_of_not_mapped {bits : BitVec 128}
    (h : ¬ mappedBlock.contains bits = true) : (Address.ipv6 bits).unmap = .ipv6 bits :=
  if_neg h

/-- A union of ranges of both families. -/
structure Ranges where
  ipv4 : List (Subnet 32)
  ipv6 : List (Subnet 128)

/-- Whether an address lies in one of the ranges of its own family. -/
def Ranges.contain (ranges : Ranges) : Address → Bool
  | .ipv4 bits => ranges.ipv4.any (·.contains bits)
  | .ipv6 bits => ranges.ipv6.any (·.contains bits)

/-- The union of two unions of ranges. -/
def Ranges.union (ranges others : Ranges) : Ranges :=
  ⟨ranges.ipv4 ++ others.ipv4, ranges.ipv6 ++ others.ipv6⟩

@[simp]
theorem Ranges.contain_union (ranges others : Ranges) (address : Address) :
    (ranges.union others).contain address =
      (ranges.contain address || others.contain address) := by
  unfold contain union
  cases address with
  | ipv4 bits => exact List.any_append
  | ipv6 bits => exact List.any_append

/-! ### The predicates of the crawler's address library -/

def unspecified : Ranges := ⟨[v4 0 0 0 0 32], [v6 0 0 0 128]⟩

def broadcast : Ranges := ⟨[v4 255 255 255 255 32], []⟩

def loopback : Ranges := ⟨[v4 127 0 0 0 8], [v6 0 0 1 128]⟩

def multicast : Ranges := ⟨[v4 224 0 0 0 4], [v6 0xff00 0 0 8]⟩

def linkLocalUnicast : Ranges := ⟨[v4 169 254 0 0 16], [v6 0xfe80 0 0 10]⟩

/-- Link-local scope is the last digit of the first group, whatever the flags before it. -/
def linkLocalMulticast : Ranges :=
  ⟨[v4 224 0 0 0 24], (List.range 16).map fun flags ↦ v6 (0xff02 + flags * 16) 0 0 16⟩

def privateUse : Ranges :=
  ⟨[v4 10 0 0 0 8, v4 172 16 0 0 12, v4 192 168 0 0 16], [v6 0xfc00 0 0 7]⟩

namespace Address

def isUnspecified (address : Address) : Bool := unspecified.contain address

def isLoopback (address : Address) : Bool := loopback.contain address

def isMulticast (address : Address) : Bool := multicast.contain address

def isLinkLocalUnicast (address : Address) : Bool := linkLocalUnicast.contain address

def isLinkLocalMulticast (address : Address) : Bool := linkLocalMulticast.contain address

/-- Private by RFC 1918 or unique local by RFC 4193. -/
def isPrivate (address : Address) : Bool := privateUse.contain address

/-- Any address that is not unspecified, the IPv4 broadcast address, loopback, multicast or
link-local; private addresses are global unicast. -/
def isGlobalUnicast (address : Address) : Bool :=
  !(address.isUnspecified || broadcast.contain address || address.isLoopback ||
    address.isMulticast || address.isLinkLocalUnicast)

end Address

/-! ### The capture worker's block list -/

/-- A block list checks an IPv4-mapped IPv6 address against its IPv4 rules as well. -/
def Ranges.check (rules : Ranges) (address : Address) : Bool :=
  rules.contain address || rules.contain address.unmap

end WebLens.Network
