import EdoPlugin.DaemonHandlers
import EdoPlugin.DatabaseInvariant

/-!
# What the rule list of `EDO_FORWARD` decides

The rules are built from two tables; what they say about packets is better stated without them.
`Db.Grants` is the access relation the tables describe (a peer and an address of its own owner's
subnet), and `verdict_chainRules` evaluates the whole list in terms of it, for every state of the
tables.  Isolation and reachability are read off from that one equation.
-/

namespace EdoPlugin

open FirstMatch

/-! ## The access relation -/

/-- The packet travels between the peer and the subnet of the row, in one of the two directions. -/
def Connects (peer : Peer) (row : OwnerOctet) (packet : Packet) : Prop :=
  (packet.source = peer.ipAddress ∧
    (ownerSubnet row.octet).contains packet.destination = true) ∨
  ((ownerSubnet row.octet).contains packet.source = true ∧
    packet.destination = peer.ipAddress)

/-- Some peer and some subnet of the same owner are the two ends of the packet. -/
def Db.Grants (db : Db) (packet : Packet) : Prop :=
  ∃ peer ∈ db.peers, ∃ row ∈ db.ownerOctets, row.owner = peer.owner ∧ Connects peer row packet

instance (peer : Peer) (row : OwnerOctet) (packet : Packet) :
    Decidable (Connects peer row packet) := by
  unfold Connects
  infer_instance

instance (db : Db) (packet : Packet) : Decidable (db.Grants packet) := by
  unfold Db.Grants
  infer_instance

/-! ## The rules one by one -/

theorem participantIsolation_decides (packet : Packet) :
    ruleSemantics.decides packet participantIsolation =
      if wgSubnet.contains packet.source ∧ wgSubnet.contains packet.destination
      then some .drop else none := by
  simp [RuleSemantics.decides, ruleSemantics, Rule.applies, participantIsolation, Target.verdict]

theorem crossOwnerIsolation_decides (packet : Packet) :
    ruleSemantics.decides packet crossOwnerIsolation =
      if dockerPool.contains packet.source ∧ dockerPool.contains packet.destination
      then some .drop else none := by
  simp [RuleSemantics.decides, ruleSemantics, Rule.applies, crossOwnerIsolation, Target.verdict]

theorem egressContainment_decides (publicIface : String) (packet : Packet) :
    ruleSemantics.decides packet (egressContainment publicIface) =
      if dockerPool.contains packet.source ∧ publicIface = packet.outInterface
      then some .drop else none := by
  simp [RuleSemantics.decides, ruleSemantics, Rule.applies, egressContainment, Target.verdict]

/-- The two rules of a peer accept exactly the packets between the peer and the subnet. -/
theorem acceptPair_applies {peer : Peer} {row : OwnerOctet} {packet : Packet} :
    (∃ rule ∈ acceptPair peer.ipAddress row.octet, rule.applies packet = true) ↔
      Connects peer row packet := by
  simp [acceptPair, Rule.applies, Connects]

theorem acceptPair_verdict {ip : IPv4Address} {octet : Octet} {rule : Rule}
    (h : rule ∈ acceptPair ip octet) : ruleSemantics.verdict rule = some .accept := by
  simp only [acceptPair, List.mem_cons, List.not_mem_nil, or_false] at h
  rcases h with rfl | rfl <;> rfl

/-- The accept rules of the tables. -/
def Db.accepts (db : Db) : List Rule :=
  ownerAccepts db.peersGroupedByOwner (octetDictionary db.getAllOwnerOctets)

theorem Db.mem_accepts {db : Db} {rule : Rule} :
    rule ∈ db.accepts ↔ ∃ peer ∈ db.peers, ∃ row ∈ db.ownerOctets,
      row.owner = peer.owner ∧ rule ∈ acceptPair peer.ipAddress row.octet := by
  simp only [Db.accepts, ownerAccepts, octetDictionary, List.mem_flatMap, List.mem_map]
  constructor
  · rintro ⟨_, ⟨row, hrow, rfl⟩, ip, hip, hrule⟩
    rw [Db.lookup_peersGroupedByOwner, List.mem_map] at hip
    obtain ⟨peer, hpeer, rfl⟩ := hip
    rw [List.mem_filter, decide_eq_true_eq] at hpeer
    exact ⟨peer, hpeer.1, row, Db.mem_getAllOwnerOctets.mp hrow, hpeer.2.symm, hrule⟩
  · rintro ⟨peer, hpeer, row, hrow, howner, hrule⟩
    refine ⟨_, ⟨row, Db.mem_getAllOwnerOctets.mpr hrow, rfl⟩, peer.ipAddress, ?_, hrule⟩
    rw [Db.lookup_peersGroupedByOwner, List.mem_map]
    exact ⟨peer, List.mem_filter.mpr ⟨hpeer, by simpa using howner.symm⟩, rfl⟩

/-- The block of accept rules accepts what the tables grant and decides nothing else; the order of
    owners and peers plays no part. -/
theorem Db.firstMatch_accepts (db : Db) (packet : Packet) :
    ruleSemantics.firstMatch db.accepts packet =
      if db.Grants packet then some .accept else none := by
  split
  · rename_i hgrants
    obtain ⟨peer, hpeer, row, hrow, howner, hconnects⟩ := hgrants
    obtain ⟨rule, hrule, happlies⟩ := acceptPair_applies.mpr hconnects
    refine firstMatch_eq_some_of_forall (Db.mem_accepts.mpr ⟨peer, hpeer, row, hrow, howner, hrule⟩)
      happlies ?_
    intro other hother _
    obtain ⟨_, _, _, _, _, hpair⟩ := Db.mem_accepts.mp hother
    exact acceptPair_verdict hpair
  · rename_i hgrants
    apply firstMatch_eq_none
    intro rule hrule
    obtain ⟨peer, hpeer, row, hrow, howner, hpair⟩ := Db.mem_accepts.mp hrule
    rw [Bool.eq_false_iff]
    intro happlies
    exact hgrants ⟨peer, hpeer, row, hrow, howner, acceptPair_applies.mp ⟨rule, hpair, happlies⟩⟩

theorem Db.chainRules_eq (db : Db) (publicIface : String) :
    db.chainRules publicIface =
      [participantIsolation] ++ db.accepts ++ [crossOwnerIsolation] ++
        [egressContainment publicIface] := rfl

/-- **The verdict of the whole list.** -/
theorem verdict_chainRules (db : Db) (publicIface : String) (packet : Packet) :
    verdict (db.chainRules publicIface) packet =
      if wgSubnet.contains packet.source ∧ wgSubnet.contains packet.destination then some .drop
      else if db.Grants packet then some .accept
      else if dockerPool.contains packet.source ∧ (dockerPool.contains packet.destination ∨
        publicIface = packet.outInterface) then some .drop
      else none := by
  rw [Db.chainRules_eq, verdict]
  simp only [firstMatch_append, firstMatch_cons, firstMatch_nil, Option.or_none,
    participantIsolation_decides, crossOwnerIsolation_decides, egressContainment_decides,
    Db.firstMatch_accepts]
  by_cases hvpn : wgSubnet.contains packet.source = true ∧
      wgSubnet.contains packet.destination = true
  · simp [hvpn]
  · by_cases hgrants : db.Grants packet
    · simp [hvpn, hgrants]
    · by_cases hsource : dockerPool.contains packet.source = true
      · by_cases hdestination : dockerPool.contains packet.destination = true <;>
          simp [hvpn, hgrants, hsource, hdestination]
      · simp [hvpn, hgrants, hsource]

/-! ## Isolation -/

/-- The tables as the schema and the address plan leave them: distinct peer addresses, all of them
    hosts of the VPN subnet, at most one octet for an owner, and distinct octets. -/
structure Db.AddressPlan (db : Db) : Prop where
  peerIps : (db.peers.map Peer.ipAddress).Nodup
  peerHosts : ∀ peer ∈ db.peers, peer.ipAddress ∈ wgSubnet.hosts
  owners : (db.ownerOctets.map OwnerOctet.owner).Nodup
  octets : (db.ownerOctets.map OwnerOctet.octet).Nodup

theorem Db.AddressPlan.vpn {db : Db} (h : db.AddressPlan) {peer : Peer} (hpeer : peer ∈ db.peers) :
    wgSubnet.contains peer.ipAddress = true :=
  wgSubnet_contains_of_mem_hosts (h.peerHosts peer hpeer)

/-- No address is both in the VPN subnet and in an owner's subnet. -/
theorem not_ownerSubnet_of_wgSubnet {ip : IPv4Address} {octet : Octet}
    (hvpn : wgSubnet.contains ip = true) (howner : (ownerSubnet octet).contains ip = true) :
    False := by
  have hpool := dockerPool_contains_of_ownerSubnet howner
  rw [not_dockerPool_of_wgSubnet hvpn] at hpool
  cases hpool

/-- A packet connects at most one peer with at most one row of `owner_octets`. -/
theorem Db.AddressPlan.connects_unique {db : Db} (h : db.AddressPlan) {peer peer' : Peer}
    {row row' : OwnerOctet} {packet : Packet} (hpeer : peer ∈ db.peers) (hpeer' : peer' ∈ db.peers)
    (hrow : row ∈ db.ownerOctets) (hrow' : row' ∈ db.ownerOctets)
    (hconnects : Connects peer row packet) (hconnects' : Connects peer' row' packet) :
    peer = peer' ∧ row = row' := by
  have hpeers : peer.ipAddress = peer'.ipAddress → peer = peer' :=
    Db.eq_of_nodup_map h.peerIps hpeer hpeer'
  have hrows : ∀ ip, (ownerSubnet row.octet).contains ip = true →
      (ownerSubnet row'.octet).contains ip = true → row = row' := fun ip hin hin' =>
    Db.eq_of_nodup_map h.octets hrow hrow' (ownerSubnet_contains_inj hin hin')
  have hvpn := h.vpn hpeer
  have hvpn' := h.vpn hpeer'
  rcases hconnects with ⟨hsource, hin⟩ | ⟨hin, hdestination⟩
  · rcases hconnects' with ⟨hsource', hin'⟩ | ⟨hin', _⟩
    · exact ⟨hpeers (hsource.symm.trans hsource'), hrows _ hin hin'⟩
    · exact (not_ownerSubnet_of_wgSubnet (hsource ▸ hvpn) hin').elim
  · rcases hconnects' with ⟨hsource', _⟩ | ⟨hin', hdestination'⟩
    · exact (not_ownerSubnet_of_wgSubnet (hsource' ▸ hvpn') hin).elim
    · exact ⟨hpeers (hdestination.symm.trans hdestination'), hrows _ hin hin'⟩

/-- The packets the tables grant have one end in the VPN and the other in the Docker pool. -/
theorem Db.AddressPlan.not_grants {db : Db} (h : db.AddressPlan) {packet : Packet}
    (hpool : dockerPool.contains packet.source = true)
    (hpool' : dockerPool.contains packet.destination = true) : ¬ db.Grants packet := by
  rintro ⟨peer, hpeer, row, _, _, ⟨hsource, _⟩ | ⟨_, hdestination⟩⟩
  · rw [hsource, not_dockerPool_of_wgSubnet (h.vpn hpeer)] at hpool
    cases hpool
  · rw [hdestination, not_dockerPool_of_wgSubnet (h.vpn hpeer)] at hpool'
    cases hpool'

/-- The four isolation properties of a rule list, about one packet. -/
structure Isolates (db : Db) (publicIface : String) (rules : List Rule) (packet : Packet) :
    Prop where
  /-- What is accepted connects a peer with its owner's subnet. -/
  accepted_within_owner : verdict rules packet = some .accept →
    ∃ peer ∈ db.peers, ∃ row ∈ db.ownerOctets, row.owner = peer.owner ∧ Connects peer row packet
  /-- What is accepted connects no peer with the subnet of another owner. -/
  accepted_not_across : verdict rules packet = some .accept →
    ∀ peer ∈ db.peers, ∀ row ∈ db.ownerOctets, Connects peer row packet → row.owner = peer.owner
  between_vpn_clients : wgSubnet.contains packet.source = true →
    wgSubnet.contains packet.destination = true → verdict rules packet = some .drop
  between_containers : dockerPool.contains packet.source = true →
    dockerPool.contains packet.destination = true → verdict rules packet = some .drop
  egress : dockerPool.contains packet.source = true → packet.outInterface = publicIface →
    (¬ ∃ peer ∈ db.peers, ∃ row ∈ db.ownerOctets, row.owner = peer.owner ∧
      (ownerSubnet row.octet).contains packet.source = true ∧
      packet.destination = peer.ipAddress) →
    verdict rules packet = some .drop

/-- **Isolation.**  For every state of the tables and every packet, the list accepts only within
    one owner, and drops what runs between VPN clients, between containers, and out of the host. -/
theorem chainRules_isolate (db : Db) (publicIface : String) (packet : Packet)
    (h : db.AddressPlan) : Isolates db publicIface (db.chainRules publicIface) packet := by
  have hverdict := verdict_chainRules db publicIface packet
  have hgrants : verdict (db.chainRules publicIface) packet = some .accept →
      db.Grants packet := by
    intro haccept
    rw [hverdict] at haccept
    split at haccept
    · cases haccept
    · split at haccept
      · assumption
      · split at haccept <;> cases haccept
  constructor
  case accepted_within_owner => exact hgrants
  case accepted_not_across =>
    intro haccept peer hpeer row hrow hconnects
    obtain ⟨peer', hpeer', row', hrow', howner, hconnects'⟩ := hgrants haccept
    obtain ⟨rfl, rfl⟩ := h.connects_unique hpeer hpeer' hrow hrow' hconnects hconnects'
    exact howner
  case between_vpn_clients =>
    intro hsource hdestination
    rw [hverdict, if_pos ⟨hsource, hdestination⟩]
  case between_containers =>
    intro hsource hdestination
    have hvpn : ¬ (wgSubnet.contains packet.source = true ∧
        wgSubnet.contains packet.destination = true) := by
      rintro ⟨hvpn, _⟩
      rw [not_dockerPool_of_wgSubnet hvpn] at hsource
      cases hsource
    rw [hverdict, if_neg hvpn, if_neg (h.not_grants hsource hdestination),
      if_pos ⟨hsource, Or.inl hdestination⟩]
  case egress =>
    intro hsource hiface hnone
    have hvpn : ¬ wgSubnet.contains packet.source = true := by
      intro hvpn
      rw [not_dockerPool_of_wgSubnet hvpn] at hsource
      cases hsource
    have hnot : ¬ db.Grants packet := by
      rintro ⟨peer, hpeer, row, hrow, howner, ⟨hpeerSource, _⟩ | ⟨hin, hdestination⟩⟩
      · exact hvpn (hpeerSource ▸ h.vpn hpeer)
      · exact hnone ⟨peer, hpeer, row, hrow, howner, hin, hdestination⟩
    rw [hverdict, if_neg (fun hboth => hvpn hboth.1), if_neg hnot,
      if_pos ⟨hsource, Or.inr hiface.symm⟩]

/-- Two teams with one peer each; the first holds octet 7. -/
def twoTeams : Db where
  peers :=
    [⟨⟨"team", 1⟩, "user_1", dotted 10 8 0 2, "key1", none⟩,
     ⟨⟨"team", 2⟩, "user_2", dotted 10 8 0 3, "key2", none⟩]
  ownerOctets := [⟨⟨"team", 1⟩, ⟨7, by decide⟩⟩]
  instances := []

theorem twoTeams_addressPlan : twoTeams.AddressPlan := by
  constructor <;> decide

theorem chainRules_isolate_twoTeams :
    Isolates twoTeams "eth0" (twoTeams.chainRules "eth0")
      ⟨dotted 10 8 0 3, dotted 10 9 7 5, "edo_o7"⟩ :=
  chainRules_isolate twoTeams "eth0" _ twoTeams_addressPlan

/-! ## Reachability -/

/-- The address lies in the subnet of the octet the owner holds. -/
def Db.inOwnSubnet (db : Db) (owner : Owner) (ip : IPv4Address) : Bool :=
  match db.getOctet owner with
  | some octet => (ownerSubnet octet).contains ip
  | none => false

/-- A peer and a Docker address talk to each other if the address is in its owner's subnet, and are
    dropped in every other case.  `inward` is the interface of the packet to the peer. -/
def ReachesOnlyOwn (db : Db) (publicIface : String) (peer : Peer) (ip : IPv4Address)
    (outward inward : String) : Prop :=
  let expected := if db.inOwnSubnet peer.owner ip then Verdict.accept else Verdict.drop
  verdict (db.chainRules publicIface) ⟨peer.ipAddress, ip, outward⟩ = some expected ∧
    verdict (db.chainRules publicIface) ⟨ip, peer.ipAddress, inward⟩ = some expected

/-- With the uniqueness of the tables, a packet from a peer is granted exactly towards the peer's
    own subnet. -/
theorem Db.AddressPlan.grants_iff {db : Db} (h : db.AddressPlan) {peer : Peer}
    (hpeer : peer ∈ db.peers) {packet : Packet} {ip : IPv4Address}
    (hends : packet.source = peer.ipAddress ∧ packet.destination = ip ∨
      packet.source = ip ∧ packet.destination = peer.ipAddress) :
    db.Grants packet ↔ db.inOwnSubnet peer.owner ip = true := by
  have hvpn := h.vpn hpeer
  have hnotPool := not_dockerPool_of_wgSubnet hvpn
  have hconnects : ∀ row : OwnerOctet, Connects peer row packet ↔
      (ownerSubnet row.octet).contains ip = true := by
    intro row
    have hne : ¬ (ownerSubnet row.octet).contains peer.ipAddress = true :=
      fun hin => not_ownerSubnet_of_wgSubnet hvpn hin
    rcases hends with ⟨hsource, hdestination⟩ | ⟨hsource, hdestination⟩
    · simp [Connects, hsource, hdestination, hne]
    · simp [Connects, hsource, hdestination, hne]
  have hgetOctet : ∀ row ∈ db.ownerOctets, row.owner = peer.owner →
      db.getOctet peer.owner = some row.octet := fun row hrow howner =>
    (Db.getOctet_eq_some_iff h.owners).mpr (howner ▸ hrow)
  constructor
  · rintro ⟨peer', hpeer', row, hrow, howner, hconnects'⟩
    have hpeers : peer' = peer := by
      have hip : peer'.ipAddress = peer.ipAddress := by
        rcases hends with ⟨hsource, hdestination⟩ | ⟨hsource, hdestination⟩ <;>
          rcases hconnects' with ⟨hpeerEnd, hin⟩ | ⟨hin, hpeerEnd⟩
        · exact hpeerEnd.symm.trans hsource
        · exact (not_ownerSubnet_of_wgSubnet (hsource ▸ hvpn) hin).elim
        · exact (not_ownerSubnet_of_wgSubnet (hdestination ▸ hvpn) hin).elim
        · exact hpeerEnd.symm.trans hdestination
      exact Db.eq_of_nodup_map h.peerIps hpeer' hpeer hip
    subst hpeers
    rw [Db.inOwnSubnet, hgetOctet row hrow howner]
    exact (hconnects row).mp hconnects'
  · intro hown
    unfold Db.inOwnSubnet at hown
    split at hown
    · rename_i octet hget
      exact ⟨peer, hpeer, _, Db.mem_of_getOctet hget, rfl, (hconnects _).mpr hown⟩
    · cases hown

/-- **Reachability.**  Between a peer and an address of the Docker pool the list decides as
    promised exactly when the address lies in the subnet of the peer's own owner; towards every
    other address of the pool no rule decides. -/
theorem reachesOnlyOwn_iff (db : Db) (publicIface : String) (peer : Peer) (ip : IPv4Address)
    (outward inward : String) (h : db.AddressPlan) (hpeer : peer ∈ db.peers)
    (hpool : dockerPool.contains ip = true) (hinward : inward ≠ publicIface) :
    ReachesOnlyOwn db publicIface peer ip outward inward ↔
      db.inOwnSubnet peer.owner ip = true := by
  have hvpn := h.vpn hpeer
  have hnotVpn : ¬ wgSubnet.contains ip = true := by
    intro hip
    rw [not_dockerPool_of_wgSubnet hip] at hpool
    cases hpool
  have hnotPool : ¬ dockerPool.contains peer.ipAddress = true := by
    rw [not_dockerPool_of_wgSubnet hvpn]
    exact Bool.false_ne_true
  have hforward : verdict (db.chainRules publicIface) ⟨peer.ipAddress, ip, outward⟩ =
      if db.inOwnSubnet peer.owner ip = true then some .accept else none := by
    rw [verdict_chainRules, if_neg (fun hboth => hnotVpn hboth.2),
      if_neg (fun hboth : _ ∧ _ => hnotPool hboth.1)]
    have hgrants : db.Grants ⟨peer.ipAddress, ip, outward⟩ ↔ db.inOwnSubnet peer.owner ip = true :=
      h.grants_iff hpeer (Or.inl ⟨rfl, rfl⟩)
    simp only [hgrants]
  have hreverse : verdict (db.chainRules publicIface) ⟨ip, peer.ipAddress, inward⟩ =
      if db.inOwnSubnet peer.owner ip = true then some .accept else none := by
    rw [verdict_chainRules, if_neg (fun hboth => hnotVpn hboth.1),
      if_neg (fun hboth : _ ∧ _ => hboth.2.elim hnotPool fun hiface => hinward hiface.symm)]
    have hgrants : db.Grants ⟨ip, peer.ipAddress, inward⟩ ↔ db.inOwnSubnet peer.owner ip = true :=
      h.grants_iff hpeer (Or.inr ⟨rfl, rfl⟩)
    simp only [hgrants]
  unfold ReachesOnlyOwn
  rw [hforward, hreverse]
  cases db.inOwnSubnet peer.owner ip <;> simp

theorem reachesOnlyOwn_iff_twoTeams :
    ReachesOnlyOwn twoTeams "eth0" ⟨⟨"team", 1⟩, "user_1", dotted 10 8 0 2, "key1", none⟩
        (dotted 10 9 7 5) "edo_o7" "wg0" ↔
      twoTeams.inOwnSubnet ⟨"team", 1⟩ (dotted 10 9 7 5) = true :=
  reachesOnlyOwn_iff twoTeams "eth0" _ _ "edo_o7" "wg0" twoTeams_addressPlan (by decide)
    (by decide) (by decide)

/-- The second team has no octet, yet its packets to the first team's containers are not dropped:
    they fall off the end of the list. -/
theorem not_reachesOnlyOwn_foreign_subnet :
    ¬ ∀ (db : Db) (publicIface : String) (peer : Peer) (ip : IPv4Address)
      (outward inward : String), db.AddressPlan → (∀ p ∈ db.peers, p.ipAddress ≠ wgServerIp) →
      peer ∈ db.peers → dockerPool.contains ip = true → inward ≠ publicIface →
      ReachesOnlyOwn db publicIface peer ip outward inward := by
  intro hall
  have hreaches := hall twoTeams "eth0"
    ⟨⟨"team", 2⟩, "user_2", dotted 10 8 0 3, "key2", none⟩ (dotted 10 9 7 5) "edo_o7" "wg0"
    twoTeams_addressPlan (by decide) (by decide) (by decide) (by decide)
  have hfallsOff : verdict (twoTeams.chainRules "eth0")
      ⟨dotted 10 8 0 3, dotted 10 9 7 5, "edo_o7"⟩ = none := by
    rw [verdict_chainRules]
    decide
  have hverdict := hreaches.1
  rw [hfallsOff] at hverdict
  cases hverdict

end EdoPlugin
