import EdoPlugin.CallRules
import EdoPlugin.Containers
import EdoPlugin.DockerInvariant

/-!
# Whose network an owner gets

The octet of an owner comes from SQLite, the network of that octet from Docker, and
`ensure_owner_network` reuses a routed network of the right name without reading its labels.  The
two stores can disagree after a lost database.  This module says when the network an owner is given,
and every container spawned on it, carries the owner's own labels.
-/

namespace EdoPlugin

open Interaction

/-! ## The octet an owner will get -/

/-- The octet the owner holds, or else the least free one. -/
def Db.plannedOctet (db : Db) (owner : Owner) : Option Octet :=
  match db.getOctet owner with
  | some octet => some octet
  | none => db.firstFreeOctet

theorem Db.allocateOctet_ok_iff {db : Db} {owner : Owner} {octet : Octet} :
    (db.allocateOctet owner).1 = .ok octet ↔ db.plannedOctet owner = some octet := by
  rw [Db.allocateOctet_eq]
  unfold Db.plannedOctet
  cases hown : db.getOctet owner with
  | some held => simp
  | none =>
    cases hfree : db.firstFreeOctet with
    | none => simp
    | some free => simp

theorem ownerLabels_injective : Function.Injective ownerLabels := by
  rintro ⟨ownerType, ownerId⟩ ⟨ownerType', ownerId'⟩ h
  have hlabels : ownerType = ownerType' ∧ toString ownerId = toString ownerId' := by
    simpa [ownerLabels] using h
  rw [Owner.mk.injEq]
  exact ⟨hlabels.1, Int.repr_inj.mp hlabels.2⟩

/-! ## `ensure_owner_network` -/

variable {policy : Policy}

/-- The network of the octet exists and has the owner's labels. -/
def OwnNetwork (d : Docker) (owner : Owner) (octet : Octet) : Prop :=
  ∃ net, d.findNetwork (bridgeName octet) = some net ∧ net.labels = ownerLabels owner

/-- The only networks that could be reused for the owner are its own: a routed network under the
    name of the octet it holds, or will be given, has its labels. -/
def NoForeignNetwork (w : World) (owner : Owner) : Prop :=
  ∀ octet, w.db.plannedOctet owner = some octet →
    ∀ net, w.docker.findNetwork (bridgeName octet) = some net → networkIsRouted net = true →
      net.labels = ownerLabels owner

theorem findNetwork_append {d : Docker} {name : String} {net : Network}
    (hfree : d.findNetwork name = none) (hname : net.name = name) (nextId : Nat) :
    Docker.findNetwork ⟨d.networks ++ [net], d.containers, nextId⟩ name = some net := by
  unfold Docker.findNetwork at hfree ⊢
  rw [List.find?_append, hfree]
  simp [hname]

theorem wp_createOwnerNetwork {owner : Owner} {octet : Octet} {w : World} :
    wp (daemonSem policy) (fun _ _ => True) (createOwnerNetwork owner octet)
      (returning fun octet' w' => OwnNetwork w'.docker owner octet') w := by
  unfold createOwnerNetwork
  refine wp_callDocker trivial ?_
  intro choice _
  cases choice with
  | some msg => exact wp_ite trivial trivial
  | none =>
    simp only [DockerOp.exec, failing, Docker.networksCreate]
    cases hfind : w.docker.findNetwork (bridgeName octet) with
    | some net => exact wp_ite trivial trivial
    | none => exact ⟨_, findNetwork_append hfind rfl _, rfl⟩

theorem wp_dockerClient {α : Type} {G : World → DaemonOp → Prop} {f : Unit → Daemon α}
    {Q : Except PyErr α → World → Prop} {w : World} (hG : G w (.docker .client))
    (hok : wp (daemonSem policy) G (f ()) Q w)
    (herror : ∀ msg, policy (.docker .client) (some msg) →
      Q (.error (.runtimeError s!"docker unavailable: {msg}")) w) :
    wp (daemonSem policy) G (dockerClient >>= f) Q w := by
  refine wp_bind.mpr (wp_callDocker hG ?_)
  intro choice hchoice
  cases choice with
  | some msg => exact herror msg hchoice
  | none => exact hok

/-- The calls of `release_owner_network_if_idle`: no row, peer or container changes in them. -/
def idleNetworkCall : DaemonOp → Prop
  | .db (.countInstancesForOwner _) | .db (.getOctet _) | .db (.freeOctet _) => True
  | .docker .client | .docker (.networksGet _) | .docker (.networkRemove _) => True
  | _ => False

theorem callsOnly_releaseOwnerNetworkIfIdle {owner : Owner} :
    CallsOnly idleNetworkCall (releaseOwnerNetworkIfIdle owner) := by
  refine CallsOnly.bind (CallsOnly.perform trivial) fun count => CallsOnly.ite .ret ?_
  refine CallsOnly.bind (CallsOnly.perform trivial) fun held => ?_
  cases held with
  | none => constructor
  | some octet =>
    refine CallsOnly.bind (CallsOnly.bind (CallsOnly.perform trivial) fun _ =>
      CallsOnly.ofExcept) fun _ => ?_
    refine CallsOnly.bind (CallsOnly.perform trivial) fun found => ?_
    cases found with
    | error err => constructor
    | ok net =>
      refine CallsOnly.bind (CallsOnly.perform trivial) fun removed => ?_
      cases removed with
      | error err => constructor
      | ok _ => exact CallsOnly.bind (CallsOnly.perform trivial) fun _ => .ret

/-- When nothing foreign can be reused, the network of the returned octet is the owner's. -/
theorem wp_ensureOwnerNetwork {owner : Owner} {w : World} (hforeign : NoForeignNetwork w owner) :
    wp (daemonSem policy) (fun _ _ => True) (ensureOwnerNetwork owner)
      (returning fun octet w' => OwnNetwork w'.docker owner octet) w := by
  unfold ensureOwnerNetwork
  refine wp_callDb trivial ?_
  cases hallocated : (w.db.allocateOctet owner).1 with
  | error err =>
    simp only [DbOp.exec, hallocated]
    trivial
  | ok octet =>
    have hplanned := Db.allocateOctet_ok_iff.mp hallocated
    simp only [DbOp.exec, hallocated]
    refine wp_dockerClient trivial (wp_networksGet trivial ?_ ?_ ?_) ?_
    · intro net hnet
      by_cases hrouted : networkIsRouted net = true
      · simp only [hrouted, if_true]
        exact ⟨net, hnet, hforeign octet hplanned net hnet hrouted⟩
      · simp only [hrouted]
        trivial
    · intro msg _
      exact wp_createOwnerNetwork
    · intro msg _
      trivial
    · intro msg _
      trivial

/-- A routed network under the planned name is reused, whoever's labels it has. -/
theorem ends_ensureOwnerNetwork_reuse {owner : Owner} {w : World} {octet : Octet} {net : Network}
    (hplanned : w.db.plannedOctet owner = some octet)
    (hnet : w.docker.findNetwork (bridgeName octet) = some net)
    (hrouted : networkIsRouted net = true) :
    Ends (daemonSem anyFault) (ensureOwnerNetwork owner) w (.ok octet)
      { w with db := (w.db.allocateOctet owner).2 } := by
  have hallocated := Db.allocateOctet_ok_iff.mpr hplanned
  unfold ensureOwnerNetwork
  refine ends_callDb trivial ?_
  simp only [DbOp.exec, hallocated]
  refine ends_callDocker none trivial (ends_callDocker none trivial ?_)
  simp only [DockerOp.exec, failing, Docker.networksGet, hnet, hrouted, if_true]
  exact Ends.ret

/-! ## Containers spawned on the network -/

/-- The calls of `spawn_instance` once it has its network: none of them creates or removes one, and
    the only containers it creates are for the network of this name. -/
def spawnCall (name : String) : DaemonOp → Prop
  | .db .getAllInstances | .db (.getUsedInstanceIps _) | .db (.addInstance _) => True
  | .docker .client | .docker (.imagesGet _) | .docker (.buildImage ..) => True
  | .docker (.start _) | .docker (.containersGet _) | .docker (.remove _) => True
  | .docker (.createContainer spec) => spec.networkName = name
  | .host (.isoExpiry _) => True
  | _ => False

/-- Those of them that neither create, start nor record a container. -/
def auxiliaryCall : DaemonOp → Prop
  | .db .getAllInstances | .db (.getUsedInstanceIps _) => True
  | .docker .client | .docker (.imagesGet _) | .docker (.buildImage ..) => True
  | .docker (.containersGet _) | .docker (.remove _) => True
  | .host (.isoExpiry _) => True
  | _ => False

theorem spawnCall_of_auxiliaryCall {name : String} (op : DaemonOp) (h : auxiliaryCall op) :
    spawnCall name op := by
  unfold auxiliaryCall at h
  split at h <;> trivial

theorem callsOnly_dockerClient : CallsOnly auxiliaryCall dockerClient :=
  CallsOnly.bind (CallsOnly.perform trivial) fun _ => CallsOnly.ofExcept

theorem callsOnly_detectExposedPorts {imageTag : String} :
    CallsOnly auxiliaryCall (detectExposedPorts imageTag) := by
  refine CallsOnly.bind (CallsOnly.perform trivial) fun exposed => ?_
  cases exposed <;> constructor

theorem callsOnly_isoExpiry (ttlSeconds : Option Int) :
    CallsOnly auxiliaryCall (isoExpiry ttlSeconds) := by
  cases ttlSeconds with
  | none => exact .ret
  | some ttl => exact CallsOnly.bind (CallsOnly.perform trivial) fun _ => .ret

/-- The reads of the table that choose addresses and ports. -/
def allocationRead : DaemonOp → Prop
  | .db .getAllInstances | .db (.getUsedInstanceIps _) => True
  | _ => False

theorem auxiliaryCall_of_allocationRead (op : DaemonOp) (h : allocationRead op) :
    auxiliaryCall op := by
  unfold allocationRead at h
  split at h <;> trivial

theorem callsOnly_findNextOwnerIp {owner : Owner} {octet : Octet} :
    CallsOnly allocationRead (findNextOwnerIp owner octet) :=
  CallsOnly.bind (CallsOnly.perform trivial) fun _ => CallsOnly.ofExcept

theorem callsOnly_attemptPorts {env : DaemonEnv} {plan : SpawnPlan} {triedPorts : List Nat} :
    CallsOnly allocationRead (attemptPorts env plan triedPorts) := by
  unfold attemptPorts
  split
  · refine CallsOnly.bind ?_ fun ports => ?_
    · refine CallsOnly.bind (CallsOnly.bind (CallsOnly.perform trivial) fun _ => .ret) ?_
      intro used
      simp only []
      split <;> constructor
    · cases ports <;> constructor
  · constructor

theorem callsOnly_forceRemoveByName {container : String} :
    CallsOnly auxiliaryCall (forceRemoveByName container) := by
  refine CallsOnly.bind (CallsOnly.perform trivial) fun found => ?_
  cases found with
  | error err => constructor
  | ok container => exact CallsOnly.bind (CallsOnly.perform trivial) fun _ => .ret

theorem callsOnly_liveContainerIp {container : Container} {networkName : String} :
    CallsOnly auxiliaryCall (liveContainerIp container networkName) := by
  refine CallsOnly.bind (CallsOnly.perform trivial) fun reloaded => ?_
  cases reloaded with
  | error err => constructor
  | ok fresh =>
    simp only []
    split <;> constructor

theorem callsOnly_startContainer_of {A : DaemonOp → Prop} {spec : ContainerSpec}
    (haux : ∀ op, auxiliaryCall op → A op) (hcreate : A (.docker (.createContainer spec)))
    (hstart : ∀ id, A (.docker (.start id))) : CallsOnly A (startContainer spec) := by
  refine CallsOnly.bind (CallsOnly.perform hcreate) fun created => ?_
  cases created with
  | error err => constructor
  | ok id =>
    refine CallsOnly.bind (CallsOnly.perform (hstart id)) fun started => ?_
    cases started with
    | error err => constructor
    | ok _ => exact CallsOnly.perform (haux _ trivial)

/-- The attempts make these auxiliary calls, and create and start containers of the plan. -/
theorem callsOnly_spawnAttempts_of {A : DaemonOp → Prop} (env : DaemonEnv) {plan : SpawnPlan}
    (haux : ∀ op, auxiliaryCall op → A op)
    (hcreate : ∀ ip portMap, A (.docker (.createContainer (plan.spec ip portMap))))
    (hstart : ∀ id, A (.docker (.start id))) (rounds : Nat) (triedIps : List IPv4Address)
    (triedPorts : List Nat) (lastError : String) :
    CallsOnly A (spawnAttempts env plan rounds triedIps triedPorts lastError) := by
  induction rounds generalizing triedIps triedPorts lastError with
  | zero => constructor
  | succ rounds ih =>
    unfold spawnAttempts
    have hreads : ∀ op, allocationRead op → A op := fun op h =>
      haux op (auxiliaryCall_of_allocationRead op h)
    refine CallsOnly.bind (callsOnly_findNextOwnerIp.mono hreads) fun ip => ?_
    split
    · exact ih _ _ _
    · refine CallsOnly.bind (callsOnly_attemptPorts.mono hreads) fun ports => ?_
      cases ports with
      | error msg => constructor
      | ok portMap =>
        refine CallsOnly.bind (callsOnly_startContainer_of haux (hcreate _ _) hstart) ?_
        intro result
        cases result with
        | ok container => constructor
        | error err =>
          refine CallsOnly.bind (callsOnly_forceRemoveByName.mono haux) ?_
          intro _
          exact CallsOnly.ite (ih _ _ _) .ret

theorem callsOnly_spawnAttempts (env : DaemonEnv) (plan : SpawnPlan) (rounds : Nat)
    (triedIps : List IPv4Address) (triedPorts : List Nat) (lastError : String) :
    CallsOnly (spawnCall (bridgeName plan.octet))
      (spawnAttempts env plan rounds triedIps triedPorts lastError) :=
  callsOnly_spawnAttempts_of env spawnCall_of_auxiliaryCall (fun _ _ => rfl) (fun _ => trivial) rounds
    triedIps triedPorts lastError

theorem callsOnly_recordInstance {plan : SpawnPlan} {container : Container}
    {assignedIp : IPv4Address} {name : String} :
    CallsOnly (spawnCall name) (recordInstance plan container assignedIp) := by
  refine CallsOnly.bind (callsOnly_liveContainerIp.mono spawnCall_of_auxiliaryCall) fun live => ?_
  refine CallsOnly.bind (CallsOnly.perform trivial) fun reloaded => ?_
  cases reloaded with
  | error err => constructor
  | ok fresh =>
    refine CallsOnly.bind (CallsOnly.perform trivial) fun added => ?_
    cases added with
    | ok row => constructor
    | error err => exact CallsOnly.bind (CallsOnly.perform trivial) fun _ => .ret

/-- What holds of Docker from the moment the owner has its network: the containers with an id from
    `firstId` on were created for that network, and joined no other. -/
structure SpawnedOn (firstId : Nat) (owner : Owner) (octet : Octet) (d : Docker) : Prop where
  wellFormed : d.WellFormed
  firstId_le : firstId ≤ d.nextId
  network : OwnNetwork d owner octet
  networkName : ∀ c ∈ d.containers, firstId ≤ c.id → c.spec.networkName = bridgeName octet
  joined : ∀ c ∈ d.containers, firstId ≤ c.id → ∀ net, c.network = some net →
    net.labels = ownerLabels owner

theorem SpawnedOn.step {firstId : Nat} {owner : Owner} {octet : Octet} {d d' : Docker}
    {op : DockerOp} (h : SpawnedOn firstId owner octet d)
    (hcall : spawnCall (bridgeName octet) (.docker op)) (hstep : DockerStep d op d') :
    SpawnedOn firstId owner octet d' := by
  have hwellFormed := h.wellFormed.step hstep
  cases hstep with
  | same => exact h
  | createNetwork _ => exact hcall.elim
  | removeNetwork _ => exact hcall.elim
  | stop => exact hcall.elim
  | remove =>
    exact { h with
      wellFormed := hwellFormed
      networkName := fun c hc => h.networkName c (List.mem_of_mem_filter hc)
      joined := fun c hc => h.joined c (List.mem_of_mem_filter hc) }
  | @createContainer spec =>
    refine { h with
      wellFormed := hwellFormed
      firstId_le := Nat.le_succ_of_le h.firstId_le
      networkName := ?_
      joined := ?_ }
    · intro c hc hid
      rcases List.mem_append.mp hc with hold | hnew
      · exact h.networkName c hold hid
      · rw [List.mem_singleton.mp hnew]
        exact hcall
    · intro c hc hid net hnet
      rcases List.mem_append.mp hc with hold | hnew
      · exact h.joined c hold hid net hnet
      · rw [List.mem_singleton.mp hnew] at hnet
        cases hnet
  | @start id c₀ net₀ hfind hnet₀ _ =>
    refine { h with wellFormed := hwellFormed, networkName := ?_, joined := ?_ }
    · intro c hc hid
      obtain ⟨c', hmem, ⟨-, rfl⟩ | ⟨-, rfl⟩⟩ := Docker.mem_updateContainer.mp hc
      · exact h.networkName c' hmem hid
      · exact h.networkName _ hmem hid
    · intro c hc hid net hnet
      obtain ⟨c', hmem, ⟨hid', rfl⟩ | ⟨-, rfl⟩⟩ := Docker.mem_updateContainer.mp hc
      · obtain ⟨hmem₀, hid₀⟩ := Docker.mem_of_findContainer_id hfind
        have hc' : c' = c₀ :=
          Db.eq_of_nodup_map h.wellFormed.containerIds hmem hmem₀ (hid'.trans hid₀.symm)
        subst hc'
        cases hnet
        rw [h.networkName c' hmem hid] at hnet₀
        obtain ⟨own, hown, hlabels⟩ := h.network
        rw [hown] at hnet₀
        cases hnet₀
        exact hlabels
      · exact h.joined _ hmem hid net hnet

theorem SpawnedOn.exec {firstId : Nat} {owner : Owner} {octet : Octet} {w w' : World}
    {op : DaemonOp} {res : op.Res} (hcall : spawnCall (bridgeName octet) op)
    (h : SpawnedOn firstId owner octet w.docker) (hsem : daemonSem policy w op res w') :
    SpawnedOn firstId owner octet w'.docker := by
  obtain ⟨choice, -, hexec⟩ := hsem
  cases op with
  | docker op =>
    cases hexec
    exact h.step hcall (op.exec_step w.docker choice)
  | db op =>
    cases hexec
    exact h
  | filter op => exact hcall.elim
  | wg op => exact hcall.elim
  | host op =>
    obtain ⟨result, -, hresult⟩ := Option.map_eq_some_iff.mp hexec
    cases hresult
    exact h

/-! ## The two statements about an owner -/

/-- `ensure_owner_network` never returns an octet whose network is not labelled for the owner. -/
def EnsuresOwnNetwork (w : World) (owner : Owner) : Prop :=
  ∀ octet w', Ends (daemonSem anyFault) (ensureOwnerNetwork owner) w (.ok octet) w' →
    OwnNetwork w'.docker owner octet

/-- The containers with an id from `firstId` on are attached to networks of the owner only. -/
def AttachedToOwn (firstId : Nat) (owner : Owner) (w : World) : Prop :=
  ∀ c ∈ w.docker.containers, firstId ≤ c.id → ∀ net, c.network = some net →
    net.labels = ownerLabels owner

/-- No container that `spawn_instance` creates for the owner is ever on another owner's network,
    wherever the spawn is interrupted. -/
def SpawnsOnOwnNetwork (env : DaemonEnv) (w : World) (owner : Owner) : Prop :=
  ∀ challengeRef buildPath security ttlSeconds publishPorts w',
    Visits (daemonSem anyFault)
      (spawnInstance env owner challengeRef buildPath security ttlSeconds publishPorts) w w' →
    AttachedToOwn w.docker.nextId owner w'

/-- The calls of `ensure_owner_network` leave the containers alone. -/
def networkCall : DaemonOp → Prop
  | .db (.allocateOctet _) => True
  | .docker .client | .docker (.networksGet _) | .docker (.networksCreate ..) => True
  | _ => False

theorem callsOnly_ensureOwnerNetwork {owner : Owner} :
    CallsOnly networkCall (ensureOwnerNetwork owner) := by
  refine CallsOnly.bind (CallsOnly.perform trivial) fun allocated => ?_
  refine CallsOnly.bind CallsOnly.ofExcept fun octet => ?_
  refine CallsOnly.bind (CallsOnly.bind (CallsOnly.perform trivial) fun _ => CallsOnly.ofExcept) ?_
  intro _
  refine CallsOnly.bind (CallsOnly.perform trivial) fun existing => ?_
  split
  · split <;> constructor
  · refine CallsOnly.bind (CallsOnly.perform trivial) fun created => ?_
    cases created with
    | ok _ => constructor
    | error err => exact CallsOnly.ite .raise .raise
  · constructor

/-- The containers of `d₀`, and ids beyond its own. -/
def SameContainers (d₀ d : Docker) : Prop :=
  d.WellFormed ∧ d.containers = d₀.containers ∧ d₀.nextId ≤ d.nextId

theorem SameContainers.exec {d₀ : Docker} {w w' : World} {op : DaemonOp} {res : op.Res}
    (hcall : networkCall op) (h : SameContainers d₀ w.docker)
    (hsem : daemonSem policy w op res w') : SameContainers d₀ w'.docker := by
  obtain ⟨choice, -, hexec⟩ := hsem
  cases op with
  | docker op =>
    cases hexec
    obtain ⟨hwellFormed, hcontainers, hnext⟩ := h
    have hstep := op.exec_step w.docker choice
    refine ⟨hwellFormed.step hstep, ?_⟩
    generalize (op.exec w.docker choice).2 = d' at hstep
    cases hstep with
    | same => exact ⟨hcontainers, hnext⟩
    | createNetwork _ => exact ⟨hcontainers, Nat.le_succ_of_le hnext⟩
    | removeNetwork _ | createContainer | start _ _ _ | stop | remove => exact hcall.elim
  | db op =>
    cases hexec
    exact h
  | filter op => exact hcall.elim
  | wg op => exact hcall.elim
  | host op => exact hcall.elim

theorem SameContainers.attachedToOwn {d₀ : Docker} {owner : Owner} {w : World}
    (hwellFormed : d₀.WellFormed) (h : SameContainers d₀ w.docker) :
    AttachedToOwn d₀.nextId owner w := by
  intro c hc hid
  rw [h.2.1] at hc
  exact absurd (hwellFormed.containerIds_lt c hc) (Nat.not_lt.mpr hid)

theorem wp_sameContainers {owner : Owner} {w : World} (hdocker : w.docker.WellFormed) :
    wp (daemonSem policy) (fun w' _ => SameContainers w.docker w'.docker)
      (ensureOwnerNetwork owner) (fun _ w' => SameContainers w.docker w'.docker) w := by
  refine CallsOnly.preserves (I := fun w' : World => SameContainers w.docker w'.docker)
    callsOnly_ensureOwnerNetwork ?_ ⟨hdocker, rfl, Nat.le_refl _⟩
  intro _ _ _ _ hcall h hsem
  exact h.exec hcall hsem

theorem callsOnly_spawnOn {env : DaemonEnv} {owner : Owner} {challengeRef buildPath : String}
    {security : Option SecurityProfile} {ttlSeconds : Option Int} {publishPorts : Bool}
    {octet : Octet} : CallsOnly (spawnCall (bridgeName octet))
      (spawnOn env owner challengeRef buildPath security ttlSeconds publishPorts octet) := by
  refine CallsOnly.bind (callsOnly_dockerClient.mono spawnCall_of_auxiliaryCall) fun _ => ?_
  refine CallsOnly.bind (CallsOnly.perform trivial) fun built => ?_
  split
  · refine CallsOnly.bind (callsOnly_detectExposedPorts.mono spawnCall_of_auxiliaryCall) ?_
    intro exposedPorts
    refine CallsOnly.bind ((callsOnly_isoExpiry ttlSeconds).mono spawnCall_of_auxiliaryCall) ?_
    intro expiresAt
    extract_lets plan
    refine CallsOnly.bind (callsOnly_spawnAttempts env plan 8 [] [] "") fun outcome => ?_
    cases outcome with
    | started container ip => exact callsOnly_recordInstance
    | failed error => constructor
    | exhausted lastError => constructor
  · constructor

theorem wp_spawnedOn {env : DaemonEnv} {owner : Owner} {challengeRef buildPath : String}
    {security : Option SecurityProfile} {ttlSeconds : Option Int} {publishPorts : Bool}
    {octet : Octet} {firstId : Nat} {w : World} (h : SpawnedOn firstId owner octet w.docker) :
    wp (daemonSem policy) (fun w' _ => SpawnedOn firstId owner octet w'.docker)
      (spawnOn env owner challengeRef buildPath security ttlSeconds publishPorts octet)
      (fun _ w' => SpawnedOn firstId owner octet w'.docker) w := by
  refine CallsOnly.preserves (I := fun w' : World => SpawnedOn firstId owner octet w'.docker)
    callsOnly_spawnOn ?_ h
  intro _ _ _ _ hcall h hsem
  exact h.exec hcall hsem

theorem wp_spawnNew {env : DaemonEnv} {owner : Owner} {challengeRef buildPath : String}
    {security : Option SecurityProfile} {ttlSeconds : Option Int} {publishPorts : Bool} {w : World}
    (hdocker : w.docker.WellFormed) (hforeign : NoForeignNetwork w owner) :
    wp (daemonSem policy) (fun w' _ => AttachedToOwn w.docker.nextId owner w')
      (spawnNew env owner challengeRef buildPath security ttlSeconds publishPorts)
      (fun _ w' => AttachedToOwn w.docker.nextId owner w') w := by
  refine wp_seq (wp_guard_mono (wp_and (wp_sameContainers hdocker)
    (wp_ensureOwnerNetwork hforeign)) ?_) ?_ ?_
  · intro w' _ h
    exact h.attachedToOwn hdocker
  · rintro octet w₁ ⟨⟨hwellFormed, hcontainers, hnext⟩, hown⟩
    have hold : ∀ c ∈ w₁.docker.containers, ¬ w.docker.nextId ≤ c.id := by
      intro c hc
      rw [hcontainers] at hc
      exact Nat.not_le.mpr (hdocker.containerIds_lt c hc)
    have hspawned : SpawnedOn w.docker.nextId owner octet w₁.docker :=
      ⟨hwellFormed, hnext, hown, fun c hc hid => (hold c hc hid).elim,
        fun c hc hid => (hold c hc hid).elim⟩
    exact wp_mono (wp_guard_mono (wp_spawnedOn hspawned) fun _ _ h => h.joined)
      fun _ _ h => h.joined
  · rintro err w₁ ⟨hsame, -⟩
    exact hsame.attachedToOwn hdocker

theorem wp_spawnInstance {env : DaemonEnv} {owner : Owner} {challengeRef buildPath : String}
    {security : Option SecurityProfile} {ttlSeconds : Option Int} {publishPorts : Bool} {w : World}
    (hdocker : w.docker.WellFormed) (hforeign : NoForeignNetwork w owner) :
    wp (daemonSem policy) (fun w' _ => AttachedToOwn w.docker.nextId owner w')
      (spawnInstance env owner challengeRef buildPath security ttlSeconds publishPorts)
      (fun _ w' => AttachedToOwn w.docker.nextId owner w') w := by
  have hstart : AttachedToOwn w.docker.nextId owner w :=
    SameContainers.attachedToOwn hdocker ⟨hdocker, rfl, Nat.le_refl _⟩
  unfold spawnInstance
  refine wp_callDb hstart ?_
  split
  · exact hstart
  · refine wp_callHost hstart fun hasDockerfile permits => ?_
    split
    · exact wp_spawnNew hdocker hforeign
    · exact hstart

/-- **Whose network an owner gets.**  The network of the returned octet has the owner's labels, and
    no container spawned for the owner joins another owner's network, exactly when there is no
    foreign routed network under the name of the octet the owner holds or will be given. -/
theorem ensuresOwnNetwork_iff (env : DaemonEnv) (w : World) (owner : Owner)
    (hdocker : w.docker.WellFormed) :
    (EnsuresOwnNetwork w owner ∧ SpawnsOnOwnNetwork env w owner) ↔ NoForeignNetwork w owner := by
  constructor
  · rintro ⟨hensures, -⟩ octet hplanned net hnet hrouted
    obtain ⟨own, hown, hlabels⟩ :=
      hensures octet _ (ends_ensureOwnerNetwork_reuse hplanned hnet hrouted)
    have hsame : some own = some net := hown.symm.trans hnet
    cases hsame
    exact hlabels
  · intro hforeign
    refine ⟨?_, ?_⟩
    · intro octet w' hends
      exact hends.of_wp (wp_ensureOwnerNetwork hforeign)
    · intro challengeRef buildPath security ttlSeconds publishPorts w' hvisits
      exact hvisits.of_wp (wp_spawnInstance hdocker hforeign)

/-- The network `ensure_owner_network` creates for an owner. -/
def createdNetwork (netId : Nat) (owner : Owner) (octet : Octet) : Network :=
  ⟨netId, bridgeName octet, ownerSubnet octet, ownerGatewayIp octet,
    [("com.docker.network.bridge.name", bridgeName octet), (gatewayModeOption, "routed")],
    ownerLabels owner⟩

/-- The daemon's database is new; Docker still has the network of team 1 under octet 1. -/
def leftoverNetwork : World where
  db := Db.empty
  docker := ⟨[createdNetwork 0 ⟨"team", 1⟩ ⟨1, by decide⟩], [], 1⟩
  filter := fun _ => none
  wg := ⟨"", [], []⟩
  spawnPermits := 4

theorem leftoverNetwork_docker_wellFormed : leftoverNetwork.docker.WellFormed := by
  constructor <;> decide

theorem ensuresOwnNetwork_iff_leftoverNetwork :
    (EnsuresOwnNetwork leftoverNetwork ⟨"team", 1⟩ ∧
      SpawnsOnOwnNetwork DaemonEnv.default leftoverNetwork ⟨"team", 1⟩) ↔
    NoForeignNetwork leftoverNetwork ⟨"team", 1⟩ :=
  ensuresOwnNetwork_iff DaemonEnv.default leftoverNetwork ⟨"team", 1⟩
    leftoverNetwork_docker_wellFormed

/-- Every network with the name of an owner bridge has the labels of some owner. -/
def BridgesLabelled (d : Docker) : Prop :=
  ∀ net ∈ d.networks, ∀ octet, net.name = bridgeName octet → ∃ owner, net.labels = ownerLabels owner

/-- Team 2 is given octet 1 and with it the network that is labelled for team 1. -/
theorem not_ensuresOwnNetwork_leftover :
    ¬ ∀ (w : World) (owner : Owner), w.db.WellFormed → w.docker.WellFormed →
      BridgesLabelled w.docker → EnsuresOwnNetwork w owner := by
  intro hall
  have hlabelled : BridgesLabelled leftoverNetwork.docker := by
    intro net hnet octet _
    rw [List.mem_singleton.mp hnet]
    exact ⟨_, rfl⟩
  have hplanned : leftoverNetwork.db.plannedOctet ⟨"team", 2⟩ = some ⟨1, by decide⟩ := by decide
  have hreused : leftoverNetwork.docker.findNetwork (bridgeName ⟨1, by decide⟩) =
      some (createdNetwork 0 ⟨"team", 1⟩ ⟨1, by decide⟩) := by decide
  have hends := ends_ensureOwnerNetwork_reuse hplanned hreused (by decide)
  obtain ⟨net, hnet, hlabels⟩ := hall leftoverNetwork ⟨"team", 2⟩ Db.WellFormed.empty
    leftoverNetwork_docker_wellFormed hlabelled _ _ hends
  have hsame : some net = some (createdNetwork 0 ⟨"team", 1⟩ ⟨1, by decide⟩) :=
    hnet.symm.trans hreused
  cases hsame
  exact absurd (ownerLabels_injective hlabels) (by decide)

end EdoPlugin
