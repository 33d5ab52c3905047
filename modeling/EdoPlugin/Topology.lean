import EdoPlugin.Addresses
import Mathlib

/-!
# Owners, octets and the address plan

An owner is a CTFd user or team.  Every owner that has spawned a container holds one octet `o`,
and with it the subnet `10.9.o.0/24`, the gateway `10.9.o.1` and the Docker bridge `edo_o<o>`.
VPN clients live in `10.8.0.0/24`, one address per CTFd user.
-/

namespace EdoPlugin

/-- The Python exceptions the daemon raises or handles, with their text. -/
inductive PyErr where
  | runtimeError (msg : String)
  | valueError (msg : String)
  | keyError (msg : String)
  | apiError (msg : String)
  | notFound (msg : String)
  | calledProcessError (stderr : String)
  | fileNotFoundError (binary : String)
  | osError (msg : String)
  | attributeError (msg : String)
deriving DecidableEq, Repr

/-- The pair `(owner_type, owner_id)`. -/
structure Owner where
  ownerType : String
  ownerId : Int
deriving DecidableEq, Repr

/-- An octet as the `CHECK (octet BETWEEN 1 AND 254)` of `owner_octets` admits it, so that the
    range test of `owner_subnet` always passes. -/
abbrev Octet := {n : Nat // 1 ≤ n ∧ n ≤ 254}

/-- `range(1, 255)`. -/
def allOctets : List Octet :=
  (List.finRange 254).map fun i => ⟨i.val + 1, by omega⟩

/-! ## Topology constants -/

def wgSubnet : IPv4Network := ⟨dotted 10 8 0 0, 24⟩
def wgServerIp : IPv4Address := dotted 10 8 0 1
def dockerPool : IPv4Network := ⟨dotted 10 9 0 0, 16⟩
def dockerBridgePrefix : String := "edo_o"

def ownerSubnet (octet : Octet) : IPv4Network := ⟨dotted 10 9 octet.val 0, 24⟩

def ownerGatewayIp (octet : Octet) : IPv4Address := dotted 10 9 octet.val 1

def bridgeName (octet : Octet) : String := dockerBridgePrefix ++ toString octet.val

/-! ## The plan is unambiguous

Membership in each of the networks is a statement about the leading octets of an address, which
turns disjointness into arithmetic. -/

theorem wgSubnet_contains (ip : IPv4Address) :
    wgSubnet.contains ip = true ↔ ip.toNat / 256 = 10 * 65536 + 8 * 256 := by
  have haddress : (dotted 10 8 0 0).toNat = ((10 * 256 + 8) * 256 + 0) * 256 + 0 :=
    dotted_toNat (by omega) (by omega) (by omega) (by omega)
  simp only [wgSubnet, IPv4Network.contains, haddress, beq_iff_eq]
  omega

theorem dockerPool_contains (ip : IPv4Address) :
    dockerPool.contains ip = true ↔ ip.toNat / 65536 = 10 * 256 + 9 := by
  have haddress : (dotted 10 9 0 0).toNat = ((10 * 256 + 9) * 256 + 0) * 256 + 0 :=
    dotted_toNat (by omega) (by omega) (by omega) (by omega)
  simp only [dockerPool, IPv4Network.contains, haddress, beq_iff_eq]
  omega

theorem ownerSubnet_contains (octet : Octet) (ip : IPv4Address) :
    (ownerSubnet octet).contains ip = true ↔
      ip.toNat / 256 = 10 * 65536 + 9 * 256 + octet.val := by
  have hoctet := octet.property
  have haddress : (dotted 10 9 octet.val 0).toNat =
      ((10 * 256 + 9) * 256 + octet.val) * 256 + 0 :=
    dotted_toNat (by omega) (by omega) (by omega) (by omega)
  simp only [ownerSubnet, IPv4Network.contains, haddress, beq_iff_eq]
  omega

/-- Every owner's subnet lies in the Docker pool. -/
theorem dockerPool_contains_of_ownerSubnet {octet : Octet} {ip : IPv4Address}
    (h : (ownerSubnet octet).contains ip = true) : dockerPool.contains ip = true := by
  have hoctet := octet.property
  rw [ownerSubnet_contains] at h
  rw [dockerPool_contains]
  omega

/-- The VPN and the Docker pool are disjoint. -/
theorem not_dockerPool_of_wgSubnet {ip : IPv4Address} (h : wgSubnet.contains ip = true) :
    dockerPool.contains ip = false := by
  rw [wgSubnet_contains] at h
  rw [Bool.eq_false_iff, ne_eq, dockerPool_contains]
  omega

/-- The subnets of different octets are disjoint. -/
theorem ownerSubnet_contains_inj {octet octet' : Octet} {ip : IPv4Address}
    (h : (ownerSubnet octet).contains ip = true)
    (h' : (ownerSubnet octet').contains ip = true) : octet = octet' := by
  rw [ownerSubnet_contains] at h h'
  exact Subtype.ext (by omega)

theorem bridgeName_injective : Function.Injective bridgeName := by
  intro octet octet' h
  have hnat : toString octet.val = toString octet'.val :=
    (String.append_right_inj dockerBridgePrefix).mp h
  exact Subtype.ext (Nat.repr_injective hnat)

/-- A host of an owner's subnet lies in that subnet. -/
theorem ownerSubnet_contains_of_mem_hosts {octet : Octet} {ip : IPv4Address}
    (h : ip ∈ (ownerSubnet octet).hosts) : (ownerSubnet octet).contains ip = true := by
  obtain ⟨i, hlow, hhigh, rfl⟩ := (mem_hosts_of_prefixlen_24 rfl ip).mp h
  have hoctet := octet.property
  have haddress : (dotted 10 9 octet.val 0).toNat =
      ((10 * 256 + 9) * 256 + octet.val) * 256 + 0 :=
    dotted_toNat (by omega) (by omega) (by omega) (by omega)
  rw [ownerSubnet_contains]
  simp only [ownerSubnet, BitVec.toNat_add, BitVec.toNat_ofNat, haddress]
  omega

theorem wgSubnet_contains_of_mem_hosts {ip : IPv4Address} (h : ip ∈ wgSubnet.hosts) :
    wgSubnet.contains ip = true := by
  obtain ⟨i, hlow, hhigh, rfl⟩ := (mem_hosts_of_prefixlen_24 rfl ip).mp h
  have haddress : (dotted 10 8 0 0).toNat = ((10 * 256 + 8) * 256 + 0) * 256 + 0 :=
    dotted_toNat (by omega) (by omega) (by omega) (by omega)
  rw [wgSubnet_contains]
  simp only [wgSubnet, BitVec.toNat_add, BitVec.toNat_ofNat, haddress]
  omega

/-- `_peer_candidate_ips`: the hosts of the VPN subnet without the server's own address. -/
def peerCandidateIps : List IPv4Address := wgSubnet.hosts.filter fun ip => ip ≠ wgServerIp

end EdoPlugin
