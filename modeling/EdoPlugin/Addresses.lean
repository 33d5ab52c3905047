import Mathlib.Data.BitVec
import Mathlib.Data.List.Basic

/-!
# IPv4 addresses and networks

The part of Python's `ipaddress` the daemon uses, over 32-bit words: dotted addresses, networks
with a prefix length, membership, and the usable hosts of a network in ascending order.
-/

namespace EdoPlugin

abbrev IPv4Address := BitVec 32

/-- The address written `a.b.c.d`. -/
def dotted (a b c d : Nat) : IPv4Address :=
  BitVec.ofNat 32 (((a * 256 + b) * 256 + c) * 256 + d)

/-- `str(IPv4Address)`. -/
def addressStr (ip : IPv4Address) : String :=
  s!"{ip.toNat / 16777216}.{ip.toNat / 65536 % 256}.{ip.toNat / 256 % 256}.{ip.toNat % 256}"

structure IPv4Network where
  address : IPv4Address
  prefixlen : Nat
deriving DecidableEq, Repr

/-- `str(IPv4Network)`. -/
def IPv4Network.str (net : IPv4Network) : String :=
  s!"{addressStr net.address}/{net.prefixlen}"

/-- The single-address network `ip/32`. -/
def hostNetwork (ip : IPv4Address) : IPv4Network := ⟨ip, 32⟩

/-- `ip in network`: the leading `prefixlen` bits agree. -/
def IPv4Network.contains (net : IPv4Network) (ip : IPv4Address) : Bool :=
  ip.toNat / 2 ^ (32 - net.prefixlen) == net.address.toNat / 2 ^ (32 - net.prefixlen)

/-- `network.hosts()`: without the network and broadcast addresses, except that a /31 yields both
    of its addresses and a /32 its only one. -/
def IPv4Network.hosts (net : IPv4Network) : List IPv4Address :=
  if net.prefixlen = 32 then [net.address]
  else if net.prefixlen = 31 then [net.address, net.address + 1]
  else (List.range (2 ^ (32 - net.prefixlen) - 2)).map fun i =>
    net.address + BitVec.ofNat 32 (i + 1)

@[simp] theorem hostNetwork_contains (ip other : IPv4Address) :
    (hostNetwork ip).contains other = true ↔ other = ip := by
  simp [IPv4Network.contains, hostNetwork, BitVec.toNat_eq]

theorem dotted_toNat {a b c d : Nat} (ha : a < 256) (hb : b < 256) (hc : c < 256) (hd : d < 256) :
    (dotted a b c d).toNat = ((a * 256 + b) * 256 + c) * 256 + d := by
  unfold dotted
  rw [BitVec.toNat_ofNat]
  exact Nat.mod_eq_of_lt (by omega)

/-- The hosts of a /24 are the network address plus 1 to 254. -/
theorem mem_hosts_of_prefixlen_24 {net : IPv4Network} (hlength : net.prefixlen = 24)
    (ip : IPv4Address) :
    ip ∈ net.hosts ↔ ∃ i, 1 ≤ i ∧ i ≤ 254 ∧ ip = net.address + BitVec.ofNat 32 i := by
  unfold IPv4Network.hosts
  rw [if_neg (by omega), if_neg (by omega), hlength]
  simp only [List.mem_map, List.mem_range]
  constructor
  · rintro ⟨i, hi, rfl⟩
    exact ⟨i + 1, by omega, by omega, rfl⟩
  · rintro ⟨i, hlow, hhigh, rfl⟩
    exact ⟨i - 1, by omega, by rw [Nat.sub_add_cancel hlow]⟩

end EdoPlugin
