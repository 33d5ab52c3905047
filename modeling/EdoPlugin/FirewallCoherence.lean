import EdoPlugin.FirewallRebuild
import EdoPlugin.OwnerNetworks
import Mathlib.Data.List.Perm.Lattice

/-!
# Coherence of the firewall with the tables

Handlers that run one after the other, each with any call failing.  A handler that rebuilds leaves
`EDO_FORWARD` with the rules of the tables whenever it returns.  The ones that return without a
rebuild leave the chain as they found it, so they keep it coherent only when it was; and
`container.reconcile`, which can free octets, must not free the octet of an owner with peers.
-/

namespace EdoPlugin

open Interaction

/-! ## The rules of the tables -/

/-- The rules of different peers, or for different octets, are different. -/
theorem acceptPair_inj {ip ip' : IPv4Address} {octet octet' : Octet} {rule : Rule}
    (h : rule ∈ acceptPair ip octet) (h' : rule ∈ acceptPair ip' octet') :
    ip = ip' ∧ octet = octet' := by
  have hhost : ∀ ip octet, hostNetwork ip ≠ ownerSubnet octet := by
    intro ip octet heq
    cases congrArg IPv4Network.prefixlen heq
  have hsubnet : ownerSubnet octet = ownerSubnet octet' → octet = octet' := by
    intro heq
    have hin : (ownerSubnet octet).contains (ownerSubnet octet).address = true :=
      beq_self_eq_true _
    have hin' : (ownerSubnet octet').contains (ownerSubnet octet).address = true := by
      rw [← heq]
      exact hin
    exact ownerSubnet_contains_inj hin hin'
  simp only [acceptPair, List.mem_cons, List.not_mem_nil, or_false] at h h'
  rcases h with rfl | rfl <;> rcases h' with h' | h' <;>
    simp only [Rule.mk.injEq, Option.some.injEq] at h'
  · exact ⟨congrArg IPv4Network.address h'.1, hsubnet h'.2.1⟩
  · exact absurd h'.1 (hhost _ _)
  · exact absurd h'.1.symm (hhost _ _)
  · exact ⟨congrArg IPv4Network.address h'.2.1, hsubnet h'.1⟩

theorem acceptPair_nodup (ip : IPv4Address) (octet : Octet) : (acceptPair ip octet).Nodup := by
  have hne : hostNetwork ip ≠ ownerSubnet octet := by
    intro heq
    cases congrArg IPv4Network.prefixlen heq
  simp [acceptPair, hne]

namespace Db

theorem accepts_eq (db : Db) :
    db.accepts = db.getAllOwnerOctets.flatMap fun row =>
      (db.peers.filter fun p => p.owner = row.owner).flatMap fun peer =>
        acceptPair peer.ipAddress row.octet := by
  unfold accepts ownerAccepts octetDictionary
  rw [List.flatMap_map]
  congr 1
  funext row
  rw [lookup_peersGroupedByOwner, List.flatMap_map]

/-- The unique columns keep the accept rules apart. -/
theorem WellFormed.accepts_nodup {db : Db} (h : db.WellFormed) : db.accepts.Nodup := by
  rw [accepts_eq, List.nodup_flatMap]
  constructor
  · intro row _
    rw [List.nodup_flatMap]
    refine ⟨fun peer _ => acceptPair_nodup _ _, ?_⟩
    have hips : (db.peers.filter fun p => p.owner = row.owner).Pairwise
        fun p p' => p.ipAddress ≠ p'.ipAddress :=
      List.pairwise_map.mp (nodup_map_filter _ h.peerIps)
    refine hips.imp ?_
    intro peer peer' hne rule hrule hrule'
    exact hne (acceptPair_inj hrule hrule').1
  · have hoctets : db.getAllOwnerOctets.Pairwise fun row row' => row.octet ≠ row'.octet :=
      List.pairwise_map.mp h.getAllOwnerOctets_octets
    refine hoctets.imp ?_
    intro row row' hne rule hrule hrule'
    obtain ⟨_, _, hrule⟩ := List.mem_flatMap.mp hrule
    obtain ⟨_, _, hrule'⟩ := List.mem_flatMap.mp hrule'
    exact hne (acceptPair_inj hrule hrule').2

theorem accepts_target {db : Db} {rule : Rule} (h : rule ∈ db.accepts) :
    rule.target = .accept := by
  obtain ⟨_, _, _, _, _, hpair⟩ := mem_accepts.mp h
  simp only [acceptPair, List.mem_cons, List.not_mem_nil, or_false] at hpair
  rcases hpair with rfl | rfl <;> rfl

theorem WellFormed.chainRules_nodup {db : Db} (h : db.WellFormed) (publicIface : String) :
    (db.chainRules publicIface).Nodup := by
  have hfirst : participantIsolation ∉ db.accepts := fun hmem => nomatch accepts_target hmem
  have hcross : crossOwnerIsolation ∉ db.accepts := fun hmem => nomatch accepts_target hmem
  have hegress : egressContainment publicIface ∉ db.accepts := fun hmem =>
    nomatch accepts_target hmem
  have hdrops : participantIsolation ≠ crossOwnerIsolation := by decide
  have hfirst' : participantIsolation ≠ egressContainment publicIface := by
    simp [participantIsolation, egressContainment]
  have hcross' : crossOwnerIsolation ≠ egressContainment publicIface := by
    simp [crossOwnerIsolation, egressContainment]
  rw [chainRules_eq, List.append_assoc, List.append_assoc, List.singleton_append,
    List.singleton_append, List.nodup_cons, List.nodup_append]
  refine ⟨?_, h.accepts_nodup, by simp [hcross'], ?_⟩
  · simp [hfirst, hdrops, hfirst']
  · intro rule hrule other hother
    simp only [List.mem_cons, List.not_mem_nil, or_false] at hother
    rcases hother with rfl | rfl <;> rintro rfl
    · exact hcross hrule
    · exact hegress hrule

/-- Some peer belongs to the owner. -/
def hasPeers (db : Db) (owner : Owner) : Bool := db.peers.any fun p => p.owner = owner

/-- The rows of owners without peers contribute no rule. -/
theorem accepts_eq_filter (db : Db) :
    db.accepts = (db.getAllOwnerOctets.filter fun row => db.hasPeers row.owner).flatMap fun row =>
      (db.peers.filter fun p => p.owner = row.owner).flatMap fun peer =>
        acceptPair peer.ipAddress row.octet := by
  rw [accepts_eq]
  induction db.getAllOwnerOctets with
  | nil => rfl
  | cons row rows ih =>
    cases hpeers : db.hasPeers row.owner with
    | true => simp [hpeers, ih]
    | false =>
      have hnone : (db.peers.filter fun p => p.owner = row.owner) = [] := by
        simpa [hasPeers] using hpeers
      simp [hpeers, hnone, ih]

/-- Two sorted tables with the same octets for the owners with peers list them in the same order. -/
theorem filter_getAllOwnerOctets_congr {db db' : Db} (h : db.WellFormed) (keep : Owner → Bool)
    (hoctets : db'.ownerOctets.filter (fun row => keep row.owner) =
      db.ownerOctets.filter fun row => keep row.owner) :
    db'.getAllOwnerOctets.filter (fun row => keep row.owner) =
      db.getAllOwnerOctets.filter fun row => keep row.owner := by
  have hsorted : ∀ d : Db, (d.getAllOwnerOctets.filter fun row => keep row.owner).Pairwise
      fun row row' => row.octet.val ≤ row'.octet.val := by
    intro d
    exact (List.pairwise_insertionSort _ _).filter _
  have hperm : ∀ d : Db, (d.getAllOwnerOctets.filter fun row => keep row.owner).Perm
      (d.ownerOctets.filter fun row => keep row.owner) := by
    intro d
    exact (List.perm_insertionSort _ _).filter _
  have hsame := (hperm db').trans (hoctets ▸ (hperm db).symm)
  refine List.Perm.eq_of_pairwise ?_ (hsorted db') (hsorted db) hsame
  intro row row' hrow hrow' hle hle'
  have hmem := List.mem_of_mem_filter (hsame.subset hrow)
  have hmem' := List.mem_of_mem_filter hrow'
  exact eq_of_nodup_map h.octets (mem_getAllOwnerOctets.mp hmem) (mem_getAllOwnerOctets.mp hmem')
    (Subtype.ext (Nat.le_antisymm hle hle'))

/-- The rules depend on the peers and on the octets of their owners only. -/
theorem chainRules_congr {db db' : Db} (h : db.WellFormed) (hpeers : db'.peers = db.peers)
    (hoctets : db'.ownerOctets.filter (fun row => db.hasPeers row.owner) =
      db.ownerOctets.filter fun row => db.hasPeers row.owner) (publicIface : String) :
    db'.chainRules publicIface = db.chainRules publicIface := by
  have hkeep : db'.hasPeers = db.hasPeers := by
    unfold hasPeers
    rw [hpeers]
  have haccepts : db'.accepts = db.accepts := by
    rw [accepts_eq_filter, accepts_eq_filter, hkeep, hpeers,
      filter_getAllOwnerOctets_congr h db.hasPeers hoctets]
  rw [chainRules_eq, chainRules_eq, haccepts]

end Db

/-! ## Handlers that rebuild -/

/-- `EDO_FORWARD` holds exactly the rules of the tables. -/
def Coherent (w : World) : Prop :=
  ∃ publicIface, w.filter .edoForward = some (w.db.chainRules publicIface)

variable {policy : Policy} {α β : Type} {w : World}

/-- Only the calls of `DatabaseManager` touch the tables, and they keep the constraints. -/
theorem Db.WellFormed.sem {w' : World} {op : DaemonOp} {res : op.Res} (h : w.db.WellFormed)
    (hsem : daemonSem policy w op res w') : w'.db.WellFormed := by
  obtain ⟨choice, -, hexec⟩ := hsem
  cases op with
  | db op =>
    cases hexec
    exact h.exec op
  | docker op | filter op | wg op =>
    cases hexec
    exact h
  | host op =>
    obtain ⟨result, -, hresult⟩ := Option.map_eq_some_iff.mp hexec
    cases hresult
    exact h

theorem wp_wellFormed (p : Daemon α) (h : w.db.WellFormed) :
    wp (daemonSem policy) (fun _ _ => True) p (fun _ w' => w'.db.WellFormed) w := by
  refine wp_guard_mono (CallsOnly.preserves (I := fun w : World => w.db.WellFormed)
    (CallsOnly.always p) ?_ h) fun _ _ _ => trivial
  intro w op res w' _ hw hsem
  exact hw.sem hsem

/-- The first part of a handler leaves well-formed tables to the rest. -/
theorem wp_thenWellFormed {p : Daemon β} {f : β → Daemon α} {R : α → World → Prop}
    (h : w.db.WellFormed) (hf : ∀ value w', w'.db.WellFormed →
      wp (daemonSem policy) (fun _ _ => True) (f value) (returning R) w') :
    wp (daemonSem policy) (fun _ _ => True) (p >>= f) (returning R) w :=
  wp_seq (wp_wellFormed p h) hf fun _ _ _ => trivial

/-- **A rebuild that returns makes the firewall coherent.** -/
theorem wp_rebuildFirewall (env : DaemonEnv) (h : w.db.WellFormed) :
    wp (daemonSem policy) (fun _ _ => True) (rebuildFirewall env)
      (returning fun _ w' => Coherent w') w := by
  refine wp_callDb trivial (wp_callDb trivial ?_)
  have hdb : wp (daemonSem policy) (fun w' _ => w'.db = w.db)
      (applyFirewall w.db.peersGroupedByOwner (octetDictionary w.db.getAllOwnerOctets) env.vpnPort)
      (fun _ w' => w'.db = w.db) w := by
    refine CallsOnly.preserves (I := fun w' : World => w'.db = w.db) callsOnly_applyFirewall ?_ rfl
    intro w₁ op res w₂ hcall hsame hsem
    rw [filterCall_rest hcall hsem]
    exact hsame
  have hchain : wp (daemonSem policy) (fun _ _ => True)
      (applyFirewall w.db.peersGroupedByOwner (octetDictionary w.db.getAllOwnerOctets) env.vpnPort)
      (returning fun _ w' => ∃ publicIface, w'.filter .edoForward = some (buildChainRules
        publicIface w.db.peersGroupedByOwner (octetDictionary w.db.getAllOwnerOctets))) w :=
    wp_applyFirewall (fun _ _ => trivial) h.chainRules_nodup
  refine wp_seq (wp_and hchain hdb) ?_ fun _ _ _ => trivial
  rintro result w' ⟨⟨publicIface, hrules⟩, hsame⟩
  refine ⟨publicIface, hrules.trans ?_⟩
  rw [hsame]
  rfl

theorem wp_rebuildThenReturn (env : DaemonEnv) (h : w.db.WellFormed) (value : α) :
    wp (daemonSem policy) (fun _ _ => True) (rebuildFirewall env >>= fun _ => return value)
      (returning fun _ w' => Coherent w') w :=
  wp_bind_returning (wp_rebuildFirewall env h) fun _ _ hcoherent => hcoherent

/-- `wg.remove_peer` of a known peer reports that it removed it. -/
theorem wp_removeKnownPeer {peer : Peer} {username : String} (h : w.db.WellFormed) :
    wp (daemonSem policy) (fun _ _ => True) (removeKnownPeer peer username)
      (returning fun removed w' => removed = true ∧ w'.db.WellFormed) w := by
  refine wp_thenWellFormed h fun _ _ h => wp_thenWellFormed h fun _ _ h => ?_
  refine wp_thenWellFormed h fun _ _ h => wp_thenWellFormed h fun _ _ h => ?_
  refine wp_thenWellFormed h fun _ _ h => wp_thenWellFormed h fun _ _ h => ?_
  exact ⟨rfl, h⟩

/-- The handler rebuilds the firewall on every path on which it returns. -/
def Request.rebuilds (db : Db) : Request → Bool
  | .wgEnsurePeer userId _ => (db.getPeer (usernameOf userId)).isNone
  | .wgRemovePeer userId => (db.getPeer (usernameOf userId)).isSome
  | .containerEnsureInstance .. | .containerReleaseInstance _ | .killSwitch => true
  | .ping | .wgRenderConfig _ | .containerReconcile | .containerInspect _ => false

/-- **A handler that rebuilds and returns leaves a coherent firewall**, whatever it found. -/
theorem wp_handle_rebuilds {env : DaemonEnv} {request : Request} (h : w.db.WellFormed)
    (hrebuilds : request.rebuilds w.db = true) :
    wp (daemonSem policy) (fun _ _ => True) (handle env request)
      (returning fun _ w' => Coherent w') w := by
  cases request with
  | wgEnsurePeer userId owner =>
    have hread : (DbOp.exec w.db (.getPeer (usernameOf userId))).1 = none :=
      Option.isNone_iff_eq_none.mp hrebuilds
    refine wp_callDb trivial ?_
    rw [hread]
    refine wp_thenWellFormed h fun _ _ h => wp_thenWellFormed h fun _ _ h => ?_
    exact wp_rebuildThenReturn env h _
  | wgRemovePeer userId =>
    obtain ⟨peer, hpeer⟩ := Option.isSome_iff_exists.mp hrebuilds
    have hremoved : wp (daemonSem policy) (fun _ _ => True) (removePeer (usernameOf userId))
        (returning fun removed w' => removed = true ∧ w'.db.WellFormed) w := by
      have hread : (DbOp.exec w.db (.getPeer (usernameOf userId))).1 = some peer := hpeer
      refine wp_callDb trivial ?_
      rw [hread]
      exact wp_removeKnownPeer h
    refine wp_bind_returning hremoved ?_
    rintro removed w' ⟨rfl, h⟩
    exact wp_rebuildThenReturn env h _
  | containerEnsureInstance owner challengeRef buildPath security ttlSeconds publishPorts =>
    refine wp_thenWellFormed h fun _ _ h => wp_thenWellFormed h fun _ _ h => ?_
    exact wp_rebuildThenReturn env h _
  | containerReleaseInstance containerId =>
    exact wp_thenWellFormed h fun _ _ h => wp_rebuildThenReturn env h _
  | killSwitch => exact wp_thenWellFormed h fun _ _ h => wp_rebuildThenReturn env h _
  | ping | wgRenderConfig _ | containerReconcile | containerInspect _ => cases hrebuilds

/-! ## Reconciliation -/

/-- What `container.reconcile` can free: the owner's rows are all about running containers that are
    gone, and its network is there and idle. -/
def World.vacated (w : World) (owner : Owner) : Prop :=
  (∃ row ∈ w.db.instances, row.owner = owner) ∧
    (∀ row ∈ w.db.instances, row.owner = owner →
      row.status = .running ∧ w.docker.findContainer (.id row.containerId) = none) ∧
    ∃ octet, w.db.getOctet owner = some octet ∧
      ∃ net ∈ w.docker.networks, net.name = bridgeName octet ∧
        w.docker.networkBusy net.netId = false

/-- Every network that could stand in the way of the owner's octet is in use. -/
def NetworkInUse (owner : Owner) (w : World) : Prop :=
  ∀ octet, w.db.getOctet owner = some octet → ∀ net ∈ w.docker.networks,
    net.name = bridgeName octet → w.docker.networkBusy net.netId = true

/-- The rows still to be reconciled do not cost the owner its octet: none is the owner's, or some
    row of the owner stays, or its network does. -/
def KeepsOctet (owner : Owner) (rows : List Instance) (w : World) : Prop :=
  (∀ row ∈ rows, row.owner ≠ owner) ∨
  (∃ row ∈ w.db.instances, row.owner = owner ∧
    (row.containerId ∉ rows.map Instance.containerId ∨
      w.docker.findContainer (.id row.containerId) ≠ none)) ∨
  NetworkInUse owner w

theorem NetworkInUse.mono {owner : Owner} {w w' : World} (h : NetworkInUse owner w)
    (hcontainers : w'.docker.containers = w.docker.containers)
    (hnetworks : w'.docker.networks ⊆ w.docker.networks)
    (hoctet : w'.db.getOctet owner = w.db.getOctet owner) : NetworkInUse owner w' := by
  intro octet hheld net hnet hname
  have hbusy := h octet (hoctet ▸ hheld) net (hnetworks hnet) hname
  unfold Docker.networkBusy at hbusy ⊢
  rw [hcontainers]
  exact hbusy

/-- The rows that count are kept, no container comes or goes, and no network appears. -/
theorem KeepsOctet.mono {owner : Owner} {rows rows' : List Instance} {w w' : World}
    (h : KeepsOctet owner rows w) (hrows : rows' ⊆ rows)
    (hkept : ∀ row ∈ w.db.instances, (row.containerId ∉ rows.map Instance.containerId ∨
        w.docker.findContainer (.id row.containerId) ≠ none) →
      ∃ row' ∈ w'.db.instances, row'.owner = row.owner ∧ row'.containerId = row.containerId)
    (hcontainers : w'.docker.containers = w.docker.containers)
    (hnetworks : w'.docker.networks ⊆ w.docker.networks)
    (hoctet : w'.db.getOctet owner = w.db.getOctet owner) : KeepsOctet owner rows' w' := by
  rcases h with hnone | ⟨row, hrow, howner, hstays⟩ | hinUse
  · exact Or.inl fun row hrow => hnone row (hrows hrow)
  · obtain ⟨row', hrow', howner', hid⟩ := hkept row hrow hstays
    have hfind : w'.docker.findContainer (.id row.containerId) =
        w.docker.findContainer (.id row.containerId) := by
      simp only [Docker.findContainer, hcontainers]
    refine Or.inr (Or.inl ⟨row', hrow', howner'.trans howner, ?_⟩)
    rw [hid, hfind]
    exact hstays.imp_left fun hnot hmem => hnot (List.map_subset _ hrows hmem)
  · exact Or.inr (Or.inr (hinUse.mono hcontainers hnetworks hoctet))

/-- A state inside a reconciliation that began in `w₀`: the peers and the octets of their owners are
    those of `w₀`, and the remaining rows do not change that. -/
structure Steady (w₀ : World) (rows : List Instance) (w : World) : Prop where
  filter : w.filter = w₀.filter
  peers : w.db.peers = w₀.db.peers
  octets : w.db.ownerOctets.filter (fun row => w₀.db.hasPeers row.owner) =
    w₀.db.ownerOctets.filter fun row => w₀.db.hasPeers row.owner
  spared : ∀ owner, w₀.db.hasPeers owner = true → KeepsOctet owner rows w

/-- Freeing the octet of an owner without peers. -/
theorem Steady.freeOctet {w₀ w : World} {rows : List Instance} {owner : Owner} {docker : Docker}
    (h : Steady w₀ rows w) (hpeers : w₀.db.hasPeers owner = false)
    (hcontainers : docker.containers = w.docker.containers)
    (hnetworks : docker.networks ⊆ w.docker.networks) :
    Steady w₀ rows { w with db := (w.db.freeOctet owner).2, docker := docker } where
  filter := h.filter
  peers := h.peers
  octets := by
    rw [← h.octets]
    show (w.db.ownerOctets.filter _).filter _ = _
    rw [List.filter_filter]
    refine List.filter_congr fun row _ => ?_
    by_cases howner : row.owner = owner
    · simp [howner, hpeers]
    · simp [howner]
  spared := by
    intro other hother
    have hne : other ≠ owner := by
      rintro rfl
      rw [hpeers] at hother
      cases hother
    exact (h.spared other hother).mono (List.Subset.refl _)
      (fun row hrow _ => ⟨row, hrow, rfl, rfl⟩) hcontainers hnetworks (Db.getOctet_freeOctet hne)

/-- The octet goes only after its network went, and a network in use stays. -/
theorem wp_removeOwnerNetwork {w₀ : World} {rows : List Instance} {owner : Owner} {octet : Octet}
    (h : Steady w₀ rows w) (hheld : w.db.getOctet owner = some octet)
    (hinUse : w₀.db.hasPeers owner = true → NetworkInUse owner w) :
    wp (daemonSem policy) (fun _ _ => True) (removeOwnerNetwork owner octet)
      (returning fun _ w' => Steady w₀ rows w') w := by
  refine wp_dockerClient trivial (wp_networksGet trivial ?_ ?_ ?_) ?_
  · intro net hnet
    obtain ⟨hmem, hname⟩ := Docker.mem_of_findNetwork hnet
    have hany : (w.docker.networks.any fun other => other.netId = net.netId) = true := by
      simpa using ⟨net, hmem, rfl⟩
    refine wp_callDocker trivial ?_
    intro choice _
    cases choice with
    | some msg => exact h
    | none =>
      simp only [DockerOp.exec, failing, Docker.networkRemove, hany, if_true]
      cases hbusy : w.docker.networkBusy net.netId with
      | true => exact h
      | false =>
        refine wp_callDb trivial ?_
        refine h.freeOctet ?_ rfl fun _ hother => List.mem_of_mem_filter hother
        rw [Bool.eq_false_iff]
        intro hpeers
        rw [hinUse hpeers octet hheld net hmem hname] at hbusy
        cases hbusy
  · intro msg _
    exact h
  · intro msg _
    exact h
  · intro msg _
    trivial

/-- `release_owner_network_if_idle` for an owner that has a row left or its network in use. -/
theorem wp_releaseOwnerNetworkIfIdle {w₀ : World} {rows : List Instance} {owner : Owner}
    (h : Steady w₀ rows w) (hstays : w₀.db.hasPeers owner = true →
      (∃ row ∈ w.db.instances, row.owner = owner) ∨ NetworkInUse owner w) :
    wp (daemonSem policy) (fun _ _ => True) (releaseOwnerNetworkIfIdle owner)
      (returning fun _ w' => Steady w₀ rows w') w := by
  refine wp_callDb trivial ?_
  by_cases hcount : 0 < w.db.countInstancesForOwner owner
  · simp only [DbOp.exec, hcount, if_true]
    exact h
  · have hnone : ¬ ∃ row ∈ w.db.instances, row.owner = owner := by
      rintro ⟨row, hrow, howner⟩
      apply hcount
      exact List.length_pos_of_mem (List.mem_filter.mpr ⟨hrow, decide_eq_true howner⟩)
    simp only [DbOp.exec, hcount, if_false]
    refine wp_callDb trivial ?_
    simp only [DbOp.exec]
    cases hheld : w.db.getOctet owner with
    | none => exact h
    | some octet =>
      exact wp_removeOwnerNetwork h hheld fun hpeers => (hstays hpeers).resolve_left hnone

/-- One round of the loop. -/
theorem wp_reconcileOne {w₀ : World} {row : Instance} {rows : List Instance}
    (h : Steady w₀ (row :: rows) w) :
    wp (daemonSem policy) (fun _ _ => True) (reconcileOne row)
      (returning fun _ w' => Steady w₀ rows w') w := by
  have hrest : Steady w₀ rows w :=
    { h with
      spared := fun owner hpeers => (h.spared owner hpeers).mono (List.subset_cons_self _ _)
        (fun row hrow _ => ⟨row, hrow, rfl, rfl⟩) rfl (List.Subset.refl _) rfl }
  refine wp_containersGet trivial ?_ ?_ ?_
  · intro container _
    refine wp_ite (wp_callDb trivial ?_) hrest
    refine ⟨h.filter, h.peers, h.octets, fun owner hpeers => ?_⟩
    refine (hrest.spared owner hpeers).mono (List.Subset.refl _) ?_ rfl (List.Subset.refl _) rfl
    intro other hother _
    refine ⟨_, List.mem_map_of_mem hother, ?_⟩
    split <;> exact ⟨rfl, rfl⟩
  · intro msg hgone
    refine wp_callDb trivial ?_
    have hkept : ∀ other ∈ w.db.instances,
        (other.containerId ∉ (row :: rows).map Instance.containerId ∨
          w.docker.findContainer (.id other.containerId) ≠ none) →
        other ∈ (w.db.removeInstance row.containerId).2.instances := by
      intro other hother hstays
      refine List.mem_filter.mpr ⟨hother, decide_eq_true ?_⟩
      intro hid
      rw [hid] at hstays
      rcases hstays with hnot | hfound
      · exact hnot List.mem_cons_self
      · exact hfound hgone
    have hremoved : Steady w₀ rows { w with db := (w.db.removeInstance row.containerId).2 } := by
      refine ⟨h.filter, h.peers, h.octets, fun owner hpeers => ?_⟩
      exact (h.spared owner hpeers).mono (List.subset_cons_self _ _)
        (fun other hother hstays => ⟨other, hkept other hother hstays, rfl, rfl⟩) rfl
        (List.Subset.refl _) rfl
    refine wp_bind_returning (wp_releaseOwnerNetworkIfIdle hremoved ?_) fun _ _ h => h
    intro hpeers
    rcases h.spared row.owner hpeers with hnone | ⟨other, hother, howner, hstays⟩ | hinUse
    · exact absurd rfl (hnone row List.mem_cons_self)
    · exact Or.inl ⟨other, hkept other hother hstays, howner⟩
    · exact Or.inr hinUse
  · intro msg _
    exact hrest

theorem wp_reconcileEach {w₀ : World} {rows : List Instance} (h : Steady w₀ rows w) :
    wp (daemonSem policy) (fun _ _ => True) (reconcileEach rows)
      (returning fun _ w' => Steady w₀ [] w') w := by
  induction rows generalizing w with
  | nil => exact h
  | cons row rows ih =>
    refine wp_bind_returning (wp_reconcileOne h) fun _ _ h => ?_
    exact wp_bind_returning (ih h) fun _ _ h => h

/-- At the start, the owners with peers keep their octets unless they are vacated. -/
theorem Steady.start (h : w.db.WellFormed)
    (hvacated : ∀ owner, w.vacated owner → w.db.hasPeers owner = false) :
    Steady w w.db.getActiveInstances w := by
  refine ⟨rfl, rfl, rfl, fun owner hpeers => ?_⟩
  by_contra hcosts
  simp only [KeepsOctet, not_or] at hcosts
  obtain ⟨hsome, hgone, hidle⟩ := hcosts
  have hrows : ∃ row ∈ w.db.instances, row.owner = owner := by
    push Not at hsome
    obtain ⟨row, hrow, howner⟩ := hsome
    exact ⟨row, List.mem_of_mem_filter hrow, howner⟩
  have hdead : ∀ row ∈ w.db.instances, row.owner = owner →
      row.status = .running ∧ w.docker.findContainer (.id row.containerId) = none := by
    intro row hrow howner
    have hnot : ¬ (row.containerId ∉ w.db.getActiveInstances.map Instance.containerId ∨
        w.docker.findContainer (.id row.containerId) ≠ none) :=
      fun hstays => hgone ⟨row, hrow, howner, hstays⟩
    push Not at hnot
    obtain ⟨hactive, hnone⟩ := hnot
    obtain ⟨other, hother, hid⟩ := List.mem_map.mp hactive
    obtain ⟨hmem, hstatus⟩ := List.mem_filter.mp hother
    rw [Db.eq_of_nodup_map h.containerIds hmem hrow hid] at hstatus
    exact ⟨of_decide_eq_true hstatus, hnone⟩
  have hnetwork : ∃ octet, w.db.getOctet owner = some octet ∧
      ∃ net ∈ w.docker.networks, net.name = bridgeName octet ∧
        w.docker.networkBusy net.netId = false := by
    unfold NetworkInUse at hidle
    push Not at hidle
    obtain ⟨octet, hheld, net, hnet, hname, hbusy⟩ := hidle
    exact ⟨octet, hheld, net, hnet, hname, Bool.eq_false_iff.mpr hbusy⟩
  rw [hvacated owner ⟨hrows, hdead, hnetwork⟩] at hpeers
  cases hpeers

/-- What a reconciliation left steady is as coherent as before. -/
theorem Steady.coherent {w₀ w : World} {rows : List Instance} (h : Steady w₀ rows w)
    (hdb : w₀.db.WellFormed) (hcoherent : Coherent w₀) : Coherent w := by
  obtain ⟨publicIface, hchain⟩ := hcoherent
  refine ⟨publicIface, ?_⟩
  rw [h.filter, hchain, Db.chainRules_congr hdb h.peers h.octets]

/-! ## Handlers that do not rebuild -/

theorem wp_handleContainerReconcile (h : w.db.WellFormed) (hcoherent : Coherent w)
    (hvacated : ∀ owner, w.vacated owner → w.db.hasPeers owner = false) :
    wp (daemonSem policy) (fun _ _ => True) handleContainerReconcile
      (returning fun _ w' => Coherent w') w := by
  have hreconcile : wp (daemonSem policy) (fun _ _ => True) reconcile
      (returning fun _ w' => Steady w [] w') w := by
    refine wp_dockerClient trivial (wp_callDb trivial ?_) fun _ _ => trivial
    exact wp_reconcileEach (Steady.start h hvacated)
  refine wp_bind_returning hreconcile fun _ w' hsteady => ?_
  exact wp_callDb trivial (hsteady.coherent h hcoherent)

/-- Calls that concern neither the tables nor the chain. -/
def wgCall : DaemonOp → Prop
  | .wg _ => True
  | _ => False

theorem callsOnly_loadServerConfig {endpoint : String} {port : Nat} :
    CallsOnly wgCall (loadServerConfig endpoint port) := by
  refine CallsOnly.bind (CallsOnly.perform trivial) fun parsed => ?_
  refine CallsOnly.bind CallsOnly.ofExcept fun iface => CallsOnly.ite .raise ?_
  refine CallsOnly.bind (CallsOnly.bind (CallsOnly.perform trivial) ?_) fun _ => .ret
  intro derived
  unfold wgOutput
  split <;> constructor

theorem wp_wgCalls {p : Daemon α} (hp : CallsOnly wgCall p) (hcoherent : Coherent w) :
    wp (daemonSem policy) (fun _ _ => True) p (fun _ w' => Coherent w') w := by
  refine wp_guard_mono (CallsOnly.preserves (I := Coherent) hp ?_ hcoherent) fun _ _ _ => trivial
  intro w op res w' hcall hw hsem
  obtain ⟨choice, -, hexec⟩ := hsem
  cases op with
  | wg op =>
    cases hexec
    exact hw
  | db op => exact hcall.elim
  | docker op => exact hcall.elim
  | filter op => exact hcall.elim
  | host op => exact hcall.elim

/-- A handler that does not rebuild keeps a coherent firewall coherent, unless it reconciles. -/
theorem wp_handle_reads {env : DaemonEnv} {request : Request} (hcoherent : Coherent w)
    (hrebuilds : request.rebuilds w.db = false) (hreconcile : request ≠ .containerReconcile) :
    wp (daemonSem policy) (fun _ _ => True) (handle env request)
      (returning fun _ w' => Coherent w') w := by
  have hserver : ∀ f : ServerConfig → Reply, wp (daemonSem policy) (fun _ _ => True)
      (loadServerConfig env.vpnEndpoint env.vpnPort >>= fun server => return f server)
      (returning fun _ w' => Coherent w') w := fun f =>
    wp_seq (wp_wgCalls callsOnly_loadServerConfig hcoherent) (fun _ _ h => h) fun _ _ _ => trivial
  cases request with
  | ping => exact hcoherent
  | wgEnsurePeer userId owner =>
    refine wp_callDb trivial ?_
    simp only [DbOp.exec]
    cases hpeer : w.db.getPeer (usernameOf userId) with
    | none => simp [Request.rebuilds, hpeer] at hrebuilds
    | some peer => exact hserver _
  | wgRemovePeer userId =>
    refine wp_callDb trivial ?_
    simp only [DbOp.exec]
    cases hpeer : w.db.getPeer (usernameOf userId) with
    | none => exact hcoherent
    | some peer => simp [Request.rebuilds, hpeer] at hrebuilds
  | wgRenderConfig userId =>
    refine wp_callDb trivial ?_
    simp only [DbOp.exec]
    cases w.db.getPeer (usernameOf userId) with
    | none => trivial
    | some peer => exact hserver _
  | containerReconcile => exact absurd rfl hreconcile
  | containerInspect containerId =>
    refine wp_callDb trivial ?_
    simp only [DbOp.exec]
    cases w.db.instances.find? fun row => row.containerId = containerId with
    | none => trivial
    | some row => exact hcoherent
  | containerEnsureInstance _ _ _ _ _ _ | containerReleaseInstance _ | killSwitch =>
    cases hrebuilds

/-! ## Sequences of handlers -/

def raises {α : Type} : Except PyErr α → Bool
  | .ok _ => false
  | .error _ => true

/-- What handlers that run one after the other reach when any call may fail and each step satisfies
    `ok`; the flag tells whether the last of them raised. -/
inductive HandlerRun (env : DaemonEnv) (ok : World → Bool → Request → Prop) (w₀ : World) :
    World → Bool → Prop
  | start : HandlerRun env ok w₀ w₀ false
  | step {w w' : World} {raised : Bool} {request : Request} {out : Except PyErr Reply} :
      HandlerRun env ok w₀ w raised → ok w raised request →
      Ends (daemonSem anyFault) (handle env request) w out w' →
      HandlerRun env ok w₀ w' (raises out)

/-- A step that cannot leave stale rules: the handler rebuilds; or it does not, no earlier failure
    left stale rules to it, and no reconciliation frees the octet of an owner with peers. -/
def KeepsCoherence (w : World) (raised : Bool) (request : Request) : Prop :=
  request.rebuilds w.db = true ∨
    (raised = true → Coherent w) ∧ (request = .containerReconcile →
      ∀ owner, w.vacated owner → w.db.hasPeers owner = false)

/-- The accept rules of the chain are those of the peers whose owner holds an octet. -/
def AcceptsCurrent (w : World) : Prop :=
  ∃ rules, w.filter .edoForward = some rules ∧ ∀ rule, (rule ∈ rules ∧ rule.target = .accept) ↔
    ∃ peer ∈ w.db.peers, ∃ row ∈ w.db.ownerOctets, row.owner = peer.owner ∧
      rule ∈ acceptPair peer.ipAddress row.octet

theorem Coherent.acceptsCurrent (h : Coherent w) : AcceptsCurrent w := by
  obtain ⟨publicIface, hchain⟩ := h
  refine ⟨_, hchain, fun rule => ?_⟩
  rw [← Db.mem_accepts, Db.chainRules_eq]
  constructor
  · rintro ⟨hmem, htarget⟩
    simp only [List.mem_append, List.mem_singleton] at hmem
    rcases hmem with ((rfl | hmem) | rfl) | rfl
    · cases htarget
    · exact hmem
    · cases htarget
    · cases htarget
  · intro hmem
    exact ⟨by simp [hmem], Db.accepts_target hmem⟩

/-- **One handler.** -/
theorem wp_handle_coherent {env : DaemonEnv} {raised : Bool} {request : Request}
    (h : w.db.WellFormed) (hcoherent : raised = false → Coherent w)
    (hkeeps : KeepsCoherence w raised request) :
    wp (daemonSem policy) (fun _ _ => True) (handle env request)
      (returning fun _ w' => Coherent w') w := by
  by_cases hrebuilds : request.rebuilds w.db = true
  · exact wp_handle_rebuilds h hrebuilds
  · obtain ⟨hraised, hvacated⟩ := hkeeps.resolve_left hrebuilds
    have hnow : Coherent w := by
      cases raised with
      | true => exact hraised rfl
      | false => exact hcoherent rfl
    by_cases hreconcile : request = .containerReconcile
    · subst hreconcile
      exact wp_handleContainerReconcile h hnow (hvacated rfl)
    · exact wp_handle_reads hnow (Bool.eq_false_iff.mpr hrebuilds) hreconcile

theorem HandlerRun.coherent {env : DaemonEnv} {w₀ w : World} {raised : Bool}
    (hrun : HandlerRun env KeepsCoherence w₀ w raised) (hdb : w₀.db.WellFormed)
    (hcoherent : Coherent w₀) : w.db.WellFormed ∧ (raised = false → Coherent w) := by
  induction hrun with
  | start => exact ⟨hdb, fun _ => hcoherent⟩
  | @step w w' raised request out _ hkeeps hends ih =>
    obtain ⟨hdb', hcoherent'⟩ := ih
    refine ⟨hends.of_wp (wp_wellFormed _ hdb'), ?_⟩
    intro hreturned
    have hout := hends.of_wp (wp_handle_coherent hdb' hcoherent' hkeeps)
    cases out with
    | ok reply => exact hout
    | error err => cases hreturned

/-- **Coherence over every run.**  Whatever fails on the way, after each handler that returns the
    chain holds exactly the rules of the tables. -/
theorem handlers_coherent (env : DaemonEnv) (w₀ w : World) (hdb : w₀.db.WellFormed)
    (hcoherent : Coherent w₀) (hrun : HandlerRun env KeepsCoherence w₀ w false) :
    Coherent w ∧ AcceptsCurrent w := by
  have hnow := (hrun.coherent hdb hcoherent).2 rfl
  exact ⟨hnow, hnow.acceptsCurrent⟩

/-- A host whose firewall has been rebuilt for the tables. -/
def rebuiltHost (db : Db) (docker : Docker) : World where
  db := db
  docker := docker
  filter := fun chain => match chain with
    | .dockerUser => some [jumpRule .edoForward]
    | .edoForward => some (db.chainRules "eth0")
    | .forward | .input => some []
    | .edoInput => none
  wg := ⟨"", [], []⟩
  spawnPermits := 4

theorem rebuiltHost_coherent (db : Db) (docker : Docker) : Coherent (rebuiltHost db docker) :=
  ⟨"eth0", rfl⟩

/-- An uneventful handler and what it leaves. -/
def runQuietly (w : World) (request : Request) : Option (Except PyErr Reply × World) :=
  (daemonMachine.run quietChoice (handle DaemonEnv.default request) w).map Prod.snd

theorem HandlerRun.of_runQuietly {ok : World → Bool → Request → Prop} {request : Request}
    {w : World} {check : World → Bool} (hok : ok w false request)
    (h : (runQuietly w request).any (fun result => !raises result.1 && check result.2) = true) :
    ∃ w', HandlerRun DaemonEnv.default ok w w' false ∧ check w' = true := by
  obtain ⟨⟨out, w'⟩, hrun, hchecks⟩ := (Option.any_eq_true _ _).mp h
  obtain ⟨⟨trace, _⟩, hrun, ⟨⟩⟩ := Option.map_eq_some_iff.mp hrun
  simp only [Bool.and_eq_true, Bool.not_eq_true'] at hchecks
  have hends : Ends (daemonSem anyFault) (handle DaemonEnv.default request) w out w' :=
    ⟨trace, Machine.runs_of_run (fun _ => trivial) hrun⟩
  have hstep := HandlerRun.start.step hok hends
  rw [hchecks.1] at hstep
  exact ⟨w', hstep, hchecks.2⟩

def onePeerLeft (w : World) : Bool := w.db.peers.length = 1

/-- The second team's peer goes. -/
theorem peerRemoval_returns : (runQuietly (rebuiltHost twoTeams Docker.empty) (.wgRemovePeer 2)).any
    (fun result => !raises result.1 && onePeerLeft result.2) = true := by
  decide +kernel

theorem handlers_coherent_peerRemoval :
    ∃ w, (HandlerRun DaemonEnv.default KeepsCoherence (rebuiltHost twoTeams Docker.empty) w false ∧
      w.db.peers.length = 1) ∧ Coherent w ∧ AcceptsCurrent w := by
  have hkeeps : KeepsCoherence (rebuiltHost twoTeams Docker.empty) false (.wgRemovePeer 2) :=
    Or.inl (by decide +kernel)
  obtain ⟨w, hrun, hpeers⟩ := HandlerRun.of_runQuietly hkeeps peerRemoval_returns
  exact ⟨w, ⟨hrun, of_decide_eq_true hpeers⟩, handlers_coherent _ _ w
    (by constructor <;> decide) (rebuiltHost_coherent _ _) hrun⟩

/-- The first team's only container has disappeared; its network is still there. -/
def lostContainer : World :=
  rebuiltHost
    { twoTeams with instances :=
        [⟨5, "edo-web", ⟨"team", 1⟩, "web", some (dotted 10 9 7 2), [], .running, none, none⟩] }
    ⟨[⟨0, "edo_o7", ⟨dotted 10 9 7 0, 24⟩, dotted 10 9 7 1, [], []⟩], [], 6⟩

/-- No octet is left, and the chain still has its five rules. -/
def keepsFreedRules (w : World) : Bool :=
  w.db.ownerOctets.isEmpty && (w.filter .edoForward).any fun rules => rules.length = 5

theorem reconciliation_returns : (runQuietly lostContainer .containerReconcile).any
    (fun result => !raises result.1 && keepsFreedRules result.2) = true := by
  decide +kernel

theorem not_coherent_of_keepsFreedRules (h : keepsFreedRules w = true) : ¬ Coherent w := by
  rintro ⟨publicIface, hchain⟩
  simp only [keepsFreedRules, Bool.and_eq_true, List.isEmpty_iff, hchain, Option.any_some,
    decide_eq_true_eq] at h
  obtain ⟨hnil, hlength⟩ := h
  have haccepts : w.db.accepts = [] := by
    rw [List.eq_nil_iff_forall_not_mem]
    intro rule hrule
    obtain ⟨_, _, row, hrow, -⟩ := Db.mem_accepts.mp hrule
    rw [hnil] at hrow
    cases hrow
  rw [Db.chainRules_eq, haccepts] at hlength
  cases hlength

/-- A reconciliation that frees an octet leaves the accept rules of its subnet. -/
theorem not_handlers_coherent :
    ¬ ∀ (env : DaemonEnv) (w₀ w : World), w₀.db.WellFormed → Coherent w₀ →
      HandlerRun env (fun _ _ _ => True) w₀ w false → Coherent w ∧ AcceptsCurrent w := by
  intro hall
  obtain ⟨w, hrun, hchecks⟩ : ∃ w, HandlerRun DaemonEnv.default (fun _ _ _ => True) lostContainer w
      false ∧ keepsFreedRules w = true :=
    HandlerRun.of_runQuietly trivial reconciliation_returns
  have hcoherent := hall _ lostContainer w (by constructor <;> decide) (rebuiltHost_coherent _ _)
    hrun
  exact not_coherent_of_keepsFreedRules hchecks hcoherent.1

end EdoPlugin
