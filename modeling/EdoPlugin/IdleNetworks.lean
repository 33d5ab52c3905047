import EdoPlugin.DaemonReconcile

/-!
# Octets and networks when instances go

The octet of an owner is a row in SQLite, its network lives in Docker.  When an owner's last instance
goes, `release_owner_network_if_idle` gives up both or neither.  A network that is already gone
counts as one that is busy, and then the octet stays with nothing behind it.
-/

namespace EdoPlugin

open Interaction

variable {policy : Policy} {w₀ w w₁ w' : World} {owner other : Owner} {octet : Octet}
  {row : Instance}

/-! ## The two stores -/

/-- The network of an octet is known by its name. -/
def World.networkExists (w : World) (octet : Octet) : Bool :=
  (w.docker.findNetwork (bridgeName octet)).isSome

theorem World.networkExists_iff : w.networkExists octet = true ↔
    ∃ net ∈ w.docker.networks, net.name = bridgeName octet := by
  simp [World.networkExists, Docker.findNetwork]

theorem World.networkExists_congr (h : w'.docker.networks = w.docker.networks) :
    w'.networkExists octet = w.networkExists octet := by
  unfold World.networkExists Docker.findNetwork
  rw [h]

theorem Db.getOctet_congr {db db' : Db} (h : db'.ownerOctets = db.ownerOctets) :
    db'.getOctet owner = db.getOctet owner := by
  unfold Db.getOctet
  rw [h]

theorem Db.getOctet_freeOctet_self {db : Db} : (db.freeOctet owner).2.getOctet owner = none := by
  rw [Db.getOctet_eq_none_iff]
  intro row hrow
  exact of_decide_eq_true (List.mem_filter.mp hrow).2

/-- Whatever octet the owner holds, its network exists. -/
def World.HasNetwork (w : World) (owner : Owner) : Prop :=
  ∀ octet, w.db.getOctet owner = some octet → w.networkExists octet = true

/-- The owner holds an octet in `w'` exactly if the network it had in `w` exists. -/
def OctetWithNetwork (owner : Owner) (w w' : World) : Prop :=
  (w'.db.getOctet owner).isSome = true ↔
    ∃ octet, w.db.getOctet owner = some octet ∧ w'.networkExists octet = true

/-! ## One teardown of a network -/

/-- Both stores keep what the owner has, or both give it up. -/
inductive GivesUp (owner : Owner) (w w' : World) : Prop
  | neither : w'.db.ownerOctets = w.db.ownerOctets → w'.docker.networks = w.docker.networks →
      GivesUp owner w w'
  | both {freed net} : w.db.getOctet owner = some freed →
      w.docker.findNetwork (bridgeName freed) = some net →
      w'.db.ownerOctets = (w.db.freeOctet owner).2.ownerOctets →
      w'.docker.networks = w.docker.networks.filter (fun other => other.netId ≠ net.netId) →
      GivesUp owner w w'

theorem GivesUp.refl (owner : Owner) (w : World) : GivesUp owner w w := .neither rfl rfl

/-- Rows and containers do not matter. -/
theorem GivesUp.congr (h : GivesUp owner w₁ w') (hoctets : w₁.db.ownerOctets = w.db.ownerOctets)
    (hnetworks : w₁.docker.networks = w.docker.networks) : GivesUp owner w w' := by
  cases h with
  | neither h h' => exact .neither (h.trans hoctets) (h'.trans hnetworks)
  | both hheld hfind h h' =>
    unfold Docker.findNetwork at hfind
    rw [hnetworks] at hfind h'
    rw [Db.getOctet_congr hoctets] at hheld
    refine .both hheld hfind ?_ h'
    rw [h]
    simp only [Db.freeOctet, hoctets]

theorem GivesUp.getOctet_of_ne (h : GivesUp owner w w') (hne : other ≠ owner) :
    w'.db.getOctet other = w.db.getOctet other := by
  cases h with
  | neither h _ => exact Db.getOctet_congr h
  | both _ _ h _ => rw [Db.getOctet_congr h, Db.getOctet_freeOctet hne]

theorem wp_removeOwnerNetwork_givesUp (hheld : w.db.getOctet owner = some octet) :
    wp (daemonSem policy) (fun _ _ => True) (removeOwnerNetwork owner octet)
      (fun _ w' => GivesUp owner w w') w := by
  apply wp_dockerClient trivial
  · apply wp_networksGet trivial
    · intro net hfind
      have hmem : w.docker.networks.any (fun other => other.netId = net.netId) = true := by
        rw [List.any_eq_true]
        exact ⟨net, (Docker.mem_of_findNetwork hfind).1, decide_eq_true rfl⟩
      apply wp_callDocker trivial
      intro fault _
      cases fault with
      | some msg => exact .refl owner w
      | none =>
        simp only [DockerOp.exec, failing, Docker.networkRemove, hmem, if_true]
        cases hbusy : w.docker.networkBusy net.netId with
        | true => exact .refl owner w
        | false => exact wp_callDb trivial (.both hheld hfind rfl rfl)
    · exact fun _ _ => .refl owner w
    · exact fun _ _ => .refl owner w
  · exact fun _ _ => .refl owner w

theorem wp_releaseOwnerNetworkIfIdle_givesUp :
    wp (daemonSem policy) (fun _ _ => True) (releaseOwnerNetworkIfIdle owner)
      (fun _ w' => GivesUp owner w w') w := by
  apply wp_callDb trivial
  apply wp_ite
  · exact .refl owner w
  · apply wp_callDb trivial
    simp only [DbOp.exec]
    cases hheld : w.db.getOctet owner with
    | none => exact .refl owner w
    | some octet => exact wp_removeOwnerNetwork_givesUp hheld

/-! ## Any number of teardowns -/

/-- Since `w₀`, an owner kept its octet and the network of it, or gave up both. -/
inductive Settled (owner : Owner) (w₀ w : World) : Prop
  | kept : w.db.getOctet owner = w₀.db.getOctet owner →
      (∀ octet, w₀.db.getOctet owner = some octet →
        w.networkExists octet = w₀.networkExists octet) → Settled owner w₀ w
  | gone {freed} : w₀.db.getOctet owner = some freed → w₀.networkExists freed = true →
      w.db.getOctet owner = none → w.networkExists freed = false → Settled owner w₀ w

theorem Settled.refl (owner : Owner) (w : World) : Settled owner w w := .kept rfl fun _ _ => rfl

/-- What is gone stays gone. -/
theorem GivesUp.networkExists_eq_false (h : GivesUp other w w')
    (hgone : w.networkExists octet = false) : w'.networkExists octet = false := by
  rw [Bool.eq_false_iff, ne_eq, World.networkExists_iff] at hgone ⊢
  rintro ⟨net, hnet, hname⟩
  apply hgone
  cases h with
  | neither _ hnetworks => exact ⟨net, hnetworks ▸ hnet, hname⟩
  | both _ _ _ hnetworks =>
    rw [hnetworks] at hnet
    exact ⟨net, List.mem_of_mem_filter hnet, hname⟩

/-- A network under another name stays. -/
theorem networkExists_filter {net : Network} (h : w.docker.WellFormed)
    (hnet : net ∈ w.docker.networks)
    (hnetworks : w'.docker.networks =
      w.docker.networks.filter fun other => other.netId ≠ net.netId) (octet : Octet) :
    w'.networkExists octet = true ↔ w.networkExists octet = true ∧ net.name ≠ bridgeName octet := by
  rw [World.networkExists_iff, World.networkExists_iff, hnetworks]
  constructor
  · rintro ⟨kept, hkept, hname⟩
    obtain ⟨hmem, hid⟩ := List.mem_filter.mp hkept
    refine ⟨⟨kept, hmem, hname⟩, ?_⟩
    intro hsame
    have heq : kept = net := Db.eq_of_nodup_map h.networkNames hmem hnet (hname.trans hsame.symm)
    exact of_decide_eq_true hid (congrArg Network.netId heq)
  · rintro ⟨⟨kept, hmem, hname⟩, hother⟩
    refine ⟨kept, List.mem_filter.mpr ⟨hmem, decide_eq_true ?_⟩, hname⟩
    intro hid
    have heq : kept = net := Db.eq_of_nodup_map h.networkIds hmem hnet hid
    exact hother (heq ▸ hname)

theorem Settled.givesUp (h : Settled owner w₀ w) (hwf : w.WellFormed) (hstep : GivesUp other w w') :
    Settled owner w₀ w' := by
  cases h with
  | gone hheld hexisted hunheld hgone =>
    refine .gone hheld hexisted ?_ (hstep.networkExists_eq_false hgone)
    by_cases hother : owner = other
    · cases hstep with
      | neither hoctets _ => rw [Db.getOctet_congr hoctets, hunheld]
      | both _ _ hoctets _ => rw [hother, Db.getOctet_congr hoctets, Db.getOctet_freeOctet_self]
    · rw [hstep.getOctet_of_ne hother, hunheld]
  | kept hsame hexists =>
    cases hstep with
    | neither hoctets hnetworks =>
      refine .kept ((Db.getOctet_congr hoctets).trans hsame) fun octet hheld => ?_
      rw [World.networkExists_congr hnetworks, hexists octet hheld]
    | @both freed net hfreed hfind hoctets hnetworks =>
      obtain ⟨hnet, hname⟩ := Docker.mem_of_findNetwork hfind
      have hafter := networkExists_filter hwf.docker hnet hnetworks
      by_cases hother : owner = other
      · subst hother
        rw [hsame] at hfreed
        refine .gone hfreed ?_ ?_ ?_
        · rw [← hexists freed hfreed, World.networkExists_iff]
          exact ⟨net, hnet, hname⟩
        · rw [Db.getOctet_congr hoctets, Db.getOctet_freeOctet_self]
        · rw [Bool.eq_false_iff, ne_eq, hafter]
          exact fun hkept => hkept.2 hname
      · refine .kept ?_ fun octet hheld => ?_
        · rw [Db.getOctet_congr hoctets, Db.getOctet_freeOctet hother, hsame]
        · have hne : net.name ≠ bridgeName octet := by
            intro hsameName
            have hsameOctet : freed = octet := bridgeName_injective (hname.symm.trans hsameName)
            rw [← hsame, ← hsameOctet] at hheld
            exact hother (hwf.db.getOctet_inj hheld hfreed)
          rw [← hexists octet hheld, Bool.eq_iff_iff, hafter]
          exact and_iff_left hne

/-- **Octet and network are together again** exactly if they were to begin with. -/
theorem Settled.octetWithNetwork_iff (h : Settled owner w₀ w) :
    OctetWithNetwork owner w₀ w ↔ w₀.HasNetwork owner := by
  cases h with
  | gone hheld hexisted hunheld hgone =>
    constructor
    · intro _ octet hoctet
      rw [hheld] at hoctet
      cases hoctet
      exact hexisted
    · intro _
      rw [OctetWithNetwork, hunheld]
      constructor
      · intro h
        cases h
      · rintro ⟨octet, hoctet, hexists⟩
        rw [hheld] at hoctet
        cases hoctet
        rw [hgone] at hexists
        cases hexists
  | kept hsame hexists =>
    rw [OctetWithNetwork, hsame, Option.isSome_iff_exists]
    constructor
    · intro htogether octet hheld
      obtain ⟨octet', hheld', hnow⟩ := htogether.mp ⟨octet, hheld⟩
      rw [hheld] at hheld'
      cases hheld'
      rw [← hexists octet hheld, hnow]
    · intro hnetwork
      constructor
      · rintro ⟨octet, hheld⟩
        exact ⟨octet, hheld, (hexists octet hheld).trans (hnetwork octet hheld)⟩
      · rintro ⟨octet, hheld, -⟩
        exact ⟨octet, hheld⟩

/-! ## `release_instance` and `reconcile` -/

/-- Tables and networks stay. -/
theorem wp_stopAndRemove_frame {containerId : ContainerId} :
    wp (daemonSem policy) (fun _ _ => True) (stopAndRemove containerId)
      (fun _ w' => w'.db = w.db ∧ w'.docker.networks = w.docker.networks) w := by
  refine wp_guard_mono (callsOnly_stopAndRemove.preserves
    (I := fun w' : World => w'.db = w.db ∧ w'.docker.networks = w.docker.networks) ?_ ⟨rfl, rfl⟩)
    fun _ _ _ => trivial
  rintro w₁ op res w₂ hcall ⟨hdb, hnetworks⟩ ⟨choice, -, hexec⟩
  cases op with
  | docker op =>
    cases hexec
    refine ⟨hdb, ?_⟩
    have hstep := op.exec_step w₁.docker choice
    generalize (op.exec w₁.docker choice).2 = docker at hstep
    cases hstep with
    | same | start _ _ _ | stop | remove => exact hnetworks
    | createNetwork _ | removeNetwork _ | createContainer => exact hcall.elim
  | db op | filter op | wg op | host op => exact hcall.elim

theorem wp_forgetInstance_givesUp :
    wp (daemonSem policy) (fun _ _ => True) (forgetInstance (some row) row.containerId)
      (fun _ w' => GivesUp row.owner w w') w := by
  apply wp_callDb trivial
  apply wp_seq wp_releaseOwnerNetworkIfIdle_givesUp
  · exact fun _ _ h => h.congr rfl rfl
  · exact fun _ _ h => h.congr rfl rfl

/-- The owner of the row is the one whose network can go. -/
theorem wp_releaseInstance_givesUp (hwf : w.db.WellFormed) (hrow : row ∈ w.db.instances) :
    wp (daemonSem policy) (fun _ _ => True) (releaseInstance row.containerId)
      (fun _ w' => GivesUp row.owner w w') w := by
  have hfound : w.db.instances.find? (fun other => other.containerId = row.containerId) =
      some row := by
    cases hfind : w.db.instances.find? fun other => other.containerId = row.containerId with
    | none => exact absurd (decide_eq_true rfl) (List.find?_eq_none.mp hfind row hrow)
    | some other =>
      have hid : other.containerId = row.containerId := by simpa using List.find?_some hfind
      rw [Db.eq_of_nodup_map hwf.containerIds (List.mem_of_find?_eq_some hfind) hrow hid]
  apply wp_dockerClient trivial
  · apply wp_callDb trivial
    show wp _ _ (stopAndRemove row.containerId >>= _) _ _
    apply wp_seq wp_stopAndRemove_frame
    · rintro stopped w₁ ⟨hdb, hnetworks⟩
      have hforget : wp (daemonSem policy) (fun _ _ => True)
          (forgetInstance (some row) row.containerId) (fun _ w' => GivesUp row.owner w w') w₁ := by
        refine wp_mono wp_forgetInstance_givesUp fun _ _ h => ?_
        exact h.congr (congrArg Db.ownerOctets hdb) hnetworks
      rw [← hfound] at hforget
      have hrefused : GivesUp row.owner w w₁ := .neither (congrArg Db.ownerOctets hdb) hnetworks
      cases stopped with
      | ok _ => exact hforget
      | error err =>
        cases err with
        | apiError msg => exact hrefused
        | notFound msg => exact hforget
    · rintro err w₁ ⟨hdb, hnetworks⟩
      exact .neither (congrArg Db.ownerOctets hdb) hnetworks
  · exact fun _ _ => .refl _ _

theorem wp_reconcileOne_givesUp :
    wp (daemonSem policy) (fun _ _ => True) (reconcileOne row)
      (fun _ w' => GivesUp row.owner w w') w := by
  apply wp_containersGet trivial
  · intro container _
    apply wp_ite
    · exact wp_callDb trivial (.neither rfl rfl)
    · exact .refl _ _
  · intro msg _
    apply wp_callDb trivial
    apply wp_seq wp_releaseOwnerNetworkIfIdle_givesUp
    · exact fun _ _ h => h.congr rfl rfl
    · exact fun _ _ h => h.congr rfl rfl
  · exact fun _ _ => .refl _ _

theorem wp_worldWellFormed {α : Type} (p : Daemon α) (h : w.WellFormed) :
    wp (daemonSem policy) (fun _ _ => True) p (fun _ w' => w'.WellFormed) w := by
  refine wp_guard_mono (CallsOnly.preserves (I := World.WellFormed) (CallsOnly.always p) ?_ h)
    fun _ _ _ => trivial
  exact fun _ _ _ _ _ hw hsem => hw.sem hsem

/-- Each round of the loop settles one owner. -/
theorem wp_reconcileEach_settled {rows : List Instance} (hwf : w.WellFormed)
    (h : ∀ owner, Settled owner w₀ w) :
    wp (daemonSem policy) (fun _ _ => True) (reconcileEach rows)
      (fun _ w' => ∀ owner, Settled owner w₀ w') w := by
  induction rows generalizing w with
  | nil => exact h
  | cons row rows ih =>
    have hround : wp (daemonSem policy) (fun _ _ => True) (reconcileOne row)
        (fun _ w' => GivesUp row.owner w w' ∧ w'.WellFormed) w :=
      wp_and wp_reconcileOne_givesUp (wp_worldWellFormed _ hwf)
    apply wp_seq hround
    · rintro gone w₁ ⟨hgivesUp, hwf₁⟩
      apply wp_seq (ih hwf₁ fun owner => (h owner).givesUp hwf hgivesUp)
      · exact fun _ _ hrest => hrest
      · exact fun _ _ hrest => hrest
    · rintro err w₁ ⟨hgivesUp, -⟩ owner
      exact (h owner).givesUp hwf hgivesUp

theorem wp_reconcile_settled (hwf : w.WellFormed) :
    wp (daemonSem policy) (fun _ _ => True) reconcile
      (fun _ w' => ∀ owner, Settled owner w w') w := by
  have hstart := fun owner => Settled.refl owner w
  apply wp_dockerClient trivial
  · exact wp_callDb trivial (wp_reconcileEach_settled hwf hstart)
  · exact fun _ _ => hstart

/-- A round removes its row and no other, or the row is still there. -/
theorem wp_reconcileOne_pruned (hrow : row ∈ w.db.instances) :
    wp (daemonSem policy) (fun _ _ => True) (reconcileOne row)
      (fun _ w' => ¬ w'.Tracks row.containerId → w'.db.peers = w.db.peers ∧
        w'.db.instances = w.db.instances.filter fun r => r.containerId ≠ row.containerId) w := by
  have hstays : ¬ w.Tracks row.containerId → w.db.peers = w.db.peers ∧
      w.db.instances = w.db.instances.filter fun r => r.containerId ≠ row.containerId :=
    fun hgone => absurd ⟨row, hrow, rfl⟩ hgone
  apply wp_containersGet trivial
  · intro container _
    apply wp_ite
    · apply wp_callDb trivial
      intro hgone
      refine absurd ⟨_, List.mem_map_of_mem hrow, ?_⟩ hgone
      simp
    · exact hstays
  · intro msg _
    apply wp_callDb trivial
    apply wp_seq (wp_idleNetworkCalls callsOnly_releaseOwnerNetworkIfIdle)
    · exact fun _ _ hsame _ => ⟨hsame.peers, hsame.instances⟩
    · exact fun _ _ hsame _ => ⟨hsame.peers, hsame.instances⟩
  · exact fun _ _ => hstays

/-! ## When octet and network stay together -/

/-- The row is gone and nothing else is, and an owner without instances has an octet exactly if it
    has a network. -/
structure RowPruned (row : Instance) (w w' : World) : Prop where
  instances : w'.db.instances =
    w.db.instances.filter fun other => other.containerId ≠ row.containerId
  peers : w'.db.peers = w.db.peers
  octets : ∀ other, other ≠ row.owner → w'.db.getOctet other = w.db.getOctet other
  together : (∀ other ∈ w'.db.instances, other.owner ≠ row.owner) →
    OctetWithNetwork row.owner w w'

/-- The owner has another instance, or the network of the octet it holds. -/
def LastHasNetwork (row : Instance) (w : World) : Prop :=
  (∀ other ∈ w.db.instances, other.owner = row.owner → other.containerId = row.containerId) →
    w.HasNetwork row.owner

theorem rowPruned_iff (hwf : w.WellFormed) (hgivesUp : GivesUp row.owner w w')
    (hinstances : w'.db.instances =
      w.db.instances.filter fun other => other.containerId ≠ row.containerId)
    (hpeers : w'.db.peers = w.db.peers) : RowPruned row w w' ↔ LastHasNetwork row w := by
  have hiff := ((Settled.refl row.owner w).givesUp hwf hgivesUp).octetWithNetwork_iff
  have hlast : (∀ other ∈ w'.db.instances, other.owner ≠ row.owner) ↔
      ∀ other ∈ w.db.instances, other.owner = row.owner →
        other.containerId = row.containerId := by
    rw [hinstances]
    constructor
    · intro hnone other hother howner
      by_contra hid
      exact hnone other (List.mem_filter.mpr ⟨hother, decide_eq_true hid⟩) howner
    · intro hall other hother howner
      obtain ⟨hmem, hid⟩ := List.mem_filter.mp hother
      exact of_decide_eq_true hid (hall other hmem howner)
  constructor
  · intro hpruned hall
    exact hiff.mp (hpruned.together (hlast.mpr hall))
  · intro hnetwork
    refine ⟨hinstances, hpeers, fun other hne => hgivesUp.getOctet_of_ne hne, fun hnone => ?_⟩
    exact hiff.mpr (hnetwork (hlast.mp hnone))

theorem releaseInstance_rowPruned_iff (hwf : w.WellFormed) (hrow : row ∈ w.db.instances)
    (hends : Ends (daemonSem policy) (releaseInstance row.containerId) w (.ok true) w') :
    RowPruned row w w' ↔ LastHasNetwork row w := by
  have hgivesUp := hends.of_wp (wp_releaseInstance_givesUp hwf.db hrow)
  have hreleased := hends.of_wp wp_releaseInstance
  cases hreleased with
  | refused _ _ hrefused => cases (hrefused true rfl).1
  | dropped hdropped _ => exact rowPruned_iff hwf hgivesUp hdropped.instances hdropped.peers

/-- A release that answers False for a tracked container was refused. -/
theorem releaseInstance_false (hrow : row ∈ w.db.instances)
    (hends : Ends (daemonSem policy) (releaseInstance row.containerId) w (.ok false) w') :
    w'.db = w.db := by
  have htracks : decide (w.Tracks row.containerId) = true := decide_eq_true ⟨row, hrow, rfl⟩
  have hreleased := hends.of_wp wp_releaseInstance
  cases hreleased with
  | refused _ hdb _ => exact hdb
  | dropped _ hout =>
    rw [htracks] at hout
    rcases hout with h | ⟨⟨err, h⟩, -⟩
    · cases h
    · cases h

/-- **When the last instance takes octet and network with it.**  A release that answers True, and a
    round of reconcile that prunes its row, do so exactly if the owner of the last row has a network
    for its octet; a whole reconcile does so for each owner it leaves without instances.  A release
    that answers False leaves the tables alone. -/
theorem lastInstance_together_iff (policy : Policy) (w w' : World) (hwf : w.WellFormed) :
    (∀ row ∈ w.db.instances, ∀ out,
      Ends (daemonSem policy) (releaseInstance row.containerId) w out w' →
      (out = .ok true → (RowPruned row w w' ↔ LastHasNetwork row w)) ∧
      (out = .ok false → w'.db = w.db)) ∧
    (∀ row ∈ w.db.instances, ∀ out, Ends (daemonSem policy) (reconcileOne row) w out w' →
      ¬ w'.Tracks row.containerId → (RowPruned row w w' ↔ LastHasNetwork row w)) ∧
    ∀ out, Ends (daemonSem policy) reconcile w out w' →
      ∀ row ∈ w.db.instances, ¬ w'.Tracks row.containerId →
        (((∀ other ∈ w'.db.instances, other.owner ≠ row.owner) →
          OctetWithNetwork row.owner w w') ↔
        ((∀ other ∈ w'.db.instances, other.owner ≠ row.owner) → w.HasNetwork row.owner)) := by
  refine ⟨?_, ?_, ?_⟩
  · intro row hrow out hends
    constructor
    · rintro rfl
      exact releaseInstance_rowPruned_iff hwf hrow hends
    · rintro rfl
      exact releaseInstance_false hrow hends
  · intro row hrow out hends hgone
    obtain ⟨hpeers, hinstances⟩ := hends.of_wp (wp_reconcileOne_pruned hrow) hgone
    exact rowPruned_iff hwf (hends.of_wp wp_reconcileOne_givesUp) hinstances hpeers
  · intro out hends row _ _
    have hiff := (hends.of_wp (wp_reconcile_settled hwf) row.owner).octetWithNetwork_iff
    exact imp_congr_right fun _ => hiff

/-! ## A team's only instance -/

/-- The row of the only instance. -/
def onlyRow : Instance :=
  ⟨0, "edo_web_team_1", ⟨"team", 1⟩, "web", some (dotted 10 9 2 2), [], .running, none, none⟩

/-- One team with one instance; its container is gone from Docker already. -/
def oneInstance (networks : List Network) : World where
  db := ⟨[], [⟨⟨"team", 1⟩, ⟨2, by decide⟩⟩], [onlyRow]⟩
  docker := ⟨networks, [], 1⟩
  filter := fun _ => none
  wg := ⟨"", [], []⟩
  spawnPermits := 4

/-- The network of the team. -/
def teamNetwork : Network :=
  ⟨0, bridgeName ⟨2, by decide⟩, ownerSubnet ⟨2, by decide⟩, ownerGatewayIp ⟨2, by decide⟩, [], []⟩

theorem oneInstance_wellFormed {networks : List Network} (hnames : (networks.map Network.name).Nodup)
    (hids : (networks.map Network.netId).Nodup) (hlt : ∀ net ∈ networks, net.netId < 1) :
    (oneInstance networks).WellFormed :=
  ⟨⟨List.nodup_nil, List.nodup_nil, List.nodup_singleton _, List.nodup_singleton _,
      List.nodup_singleton _, List.nodup_singleton _⟩,
    ⟨List.nodup_nil, (fun _ h => by cases h), hnames, hids, hlt⟩⟩

/-- The release of the instance, with no fault in it. -/
def releaseOnly (networks : List Network) : Option (Except PyErr Bool × World) :=
  (daemonMachine.run quietChoice (releaseInstance 0) (oneInstance networks)).map Prod.snd

theorem ends_releaseOnly (networks : List Network)
    (h : (releaseOnly networks).map Prod.fst = some (.ok true)) :
    ∃ w', Ends (daemonSem noFault) (releaseInstance 0) (oneInstance networks) (.ok true) w' := by
  obtain ⟨⟨out, w'⟩, hrun, hout⟩ := Option.map_eq_some_iff.mp h
  obtain ⟨⟨trace, _⟩, hrun, heq⟩ := Option.map_eq_some_iff.mp hrun
  cases heq
  cases hout
  exact ⟨w', trace, Machine.runs_of_run noFault_quietChoice hrun⟩

theorem lastInstance_together_iff_teamNetwork :
    ∃ w', Ends (daemonSem noFault) (releaseInstance 0) (oneInstance [teamNetwork]) (.ok true) w' ∧
      RowPruned onlyRow (oneInstance [teamNetwork]) w' := by
  have hwf : (oneInstance [teamNetwork]).WellFormed :=
    oneInstance_wellFormed (by decide) (by decide) (by decide)
  obtain ⟨w', hends⟩ := ends_releaseOnly [teamNetwork] rfl
  refine ⟨w', hends, ?_⟩
  have hiff := (lastInstance_together_iff noFault _ w' hwf).1 onlyRow List.mem_cons_self _ hends
  apply (hiff.1 rfl).mpr
  rintro - octet hheld
  cases hheld
  decide

/-- The network was removed by hand: the team keeps the octet. -/
theorem not_lastInstance_together : ¬ ∀ (policy : Policy) (w w' : World) (row : Instance),
    w.WellFormed → row ∈ w.db.instances →
    Ends (daemonSem policy) (releaseInstance row.containerId) w (.ok true) w' →
    RowPruned row w w' := by
  intro hall
  have hwf : (oneInstance []).WellFormed :=
    oneInstance_wellFormed (by decide) (by decide) (by decide)
  obtain ⟨w', hends⟩ := ends_releaseOnly [] rfl
  have hpruned := hall noFault (oneInstance []) w' onlyRow hwf List.mem_cons_self hends
  have hnetwork := (releaseInstance_rowPruned_iff hwf List.mem_cons_self hends).mp hpruned
  have hlast : ∀ other ∈ (oneInstance []).db.instances, other.owner = onlyRow.owner →
      other.containerId = onlyRow.containerId := by
    intro other hother _
    rw [List.mem_singleton.mp hother]
  have hexists : (oneInstance []).networkExists ⟨2, by decide⟩ = true := hnetwork hlast _ rfl
  cases hexists

end EdoPlugin
