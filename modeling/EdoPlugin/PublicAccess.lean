import EdoPlugin.FirewallVerdicts

/-!
# Published ports behind the firewall

Docker publishes a port of a container with a NAT rule of its own, evaluated before the filter table:
when a client's packet passes `EDO_FORWARD` it already carries the container's address as its
destination, and the reply still carries it as its source.  The rules know no connections.  Nothing
in them stops the request, but the reply leaves the Docker pool by the public interface, which is
what the egress rule drops.
-/

namespace EdoPlugin

/-- A tracked instance with published ports, at an address of the subnet its owner holds. -/
structure Db.Publishes (db : Db) (row : Instance) (octet : Octet) (ip : IPv4Address) : Prop where
  tracked : row ∈ db.instances
  published : row.publishedPorts ≠ none
  held : db.getOctet row.owner = some octet
  address : row.assignedIp = some ip
  inside : (ownerSubnet octet).contains ip = true

/-- Neither direction of a connection between the client and the container is dropped.  `inward` is
    the interface towards the container; the reply leaves by the public one. -/
structure PublicReachable (db : Db) (publicIface inward : String) (client ip : IPv4Address) :
    Prop where
  request : verdict (db.chainRules publicIface) ⟨client, ip, inward⟩ ≠ some .drop
  reply : verdict (db.chainRules publicIface) ⟨ip, client, publicIface⟩ ≠ some .drop

variable {db : Db} {publicIface inward : String} {client ip : IPv4Address} {octet : Octet}

/-- The request is dropped by no rule. -/
theorem verdict_request (hvpn : wgSubnet.contains client = false)
    (hpool : dockerPool.contains client = false) :
    verdict (db.chainRules publicIface) ⟨client, ip, inward⟩ ≠ some .drop := by
  rw [verdict_chainRules]
  by_cases hgrants : db.Grants ⟨client, ip, inward⟩
  · simp [hvpn, hgrants]
  · simp [hvpn, hpool, hgrants]

/-- The reply is dropped unless the tables grant it, by the egress rule if by no earlier one. -/
theorem verdict_reply (hip : dockerPool.contains ip = true) :
    verdict (db.chainRules publicIface) ⟨ip, client, publicIface⟩ ≠ some .drop ↔
      db.Grants ⟨ip, client, publicIface⟩ := by
  have hvpn : ¬ wgSubnet.contains ip = true := by
    intro hvpn
    rw [not_dockerPool_of_wgSubnet hvpn] at hip
    cases hip
  rw [verdict_chainRules]
  by_cases hgrants : db.Grants ⟨ip, client, publicIface⟩
  · simp [hvpn, hgrants]
  · simp [hvpn, hip, hgrants]

/-- Outside the Docker pool a reply is granted to the peers of the container's subnet only. -/
theorem grants_reply_iff (hpool : dockerPool.contains client = false) :
    db.Grants ⟨ip, client, publicIface⟩ ↔
      ∃ peer ∈ db.peers, ∃ held ∈ db.ownerOctets, held.owner = peer.owner ∧
        (ownerSubnet held.octet).contains ip = true ∧ client = peer.ipAddress := by
  have houtside : ∀ octet, ¬ (ownerSubnet octet).contains client = true := by
    intro octet hinside
    rw [dockerPool_contains_of_ownerSubnet hinside] at hpool
    cases hpool
  unfold Db.Grants Connects
  simp [houtside]

/-- **Public access.**  For every state of the tables, a client outside the VPN and the Docker pool
    reaches a published container and gets its replies exactly if the client's own address is that
    of a peer whose owner's subnet has the container. -/
theorem publicReachable_iff (db : Db) (publicIface inward : String) (row : Instance) (octet : Octet)
    (client ip : IPv4Address) (hrow : db.Publishes row octet ip)
    (hvpn : wgSubnet.contains client = false) (hpool : dockerPool.contains client = false) :
    PublicReachable db publicIface inward client ip ↔
      ∃ peer ∈ db.peers, ∃ held ∈ db.ownerOctets, held.owner = peer.owner ∧
        (ownerSubnet held.octet).contains ip = true ∧ client = peer.ipAddress := by
  have hip : dockerPool.contains ip = true := dockerPool_contains_of_ownerSubnet hrow.inside
  rw [← grants_reply_iff hpool, ← verdict_reply hip]
  constructor
  · exact fun h => h.reply
  · exact fun h => ⟨verdict_request hvpn hpool, h⟩

/-- The daemon takes every peer address from the VPN subnet, so no client outside it is served. -/
theorem Db.AddressPlan.not_publicReachable (h : db.AddressPlan) {row : Instance}
    (hrow : db.Publishes row octet ip) (hvpn : wgSubnet.contains client = false)
    (hpool : dockerPool.contains client = false) :
    ¬ PublicReachable db publicIface inward client ip := by
  intro hreachable
  rw [publicReachable_iff db publicIface inward row octet client ip hrow hvpn hpool] at hreachable
  obtain ⟨peer, hpeer, -, -, -, -, rfl⟩ := hreachable
  rw [h.vpn hpeer] at hvpn
  cases hvpn

/-! ## One published container -/

/-- The first team's web challenge, published on port 40000 of the host. -/
def publishedInstance : Instance where
  containerId := 1
  containerName := "edo_web_team_1"
  owner := ⟨"team", 1⟩
  challengeRef := "web"
  assignedIp := some (dotted 10 9 7 2)
  ports := ["80/tcp"]
  status := .running
  expiresAt := none
  publishedPorts := some [("80/tcp", 40000)]

def publishedWeb : Db := { twoTeams with instances := [publishedInstance] }

theorem publishedWeb_publishes :
    publishedWeb.Publishes publishedInstance ⟨7, by decide⟩ (dotted 10 9 7 2) := by
  constructor <;> decide

theorem publicReachable_iff_publishedWeb :
    PublicReachable publishedWeb "eth0" "edo_o7" (dotted 203 0 113 5) (dotted 10 9 7 2) ↔
      ∃ peer ∈ publishedWeb.peers, ∃ held ∈ publishedWeb.ownerOctets, held.owner = peer.owner ∧
        (ownerSubnet held.octet).contains (dotted 10 9 7 2) = true ∧
        dotted 203 0 113 5 = peer.ipAddress :=
  publicReachable_iff publishedWeb "eth0" "edo_o7" publishedInstance ⟨7, by decide⟩ _ _
    publishedWeb_publishes (by decide) (by decide)

/-- The container's replies never leave the host. -/
theorem not_publicReachable_publishedWeb :
    ¬ ∀ (db : Db) (publicIface inward : String) (row : Instance) (octet : Octet)
      (client ip : IPv4Address), db.AddressPlan → db.Publishes row octet ip →
      wgSubnet.contains client = false → dockerPool.contains client = false →
      PublicReachable db publicIface inward client ip := by
  intro hall
  have hreachable := hall publishedWeb "eth0" "edo_o7" publishedInstance ⟨7, by decide⟩
    (dotted 203 0 113 5) (dotted 10 9 7 2) ⟨by decide, by decide, by decide, by decide⟩
    publishedWeb_publishes (by decide) (by decide)
  have hdropped : verdict (publishedWeb.chainRules "eth0")
      ⟨dotted 10 9 7 2, dotted 203 0 113 5, "eth0"⟩ = some .drop := by
    rw [verdict_chainRules]
    decide
  exact hreachable.reply hdropped

end EdoPlugin
