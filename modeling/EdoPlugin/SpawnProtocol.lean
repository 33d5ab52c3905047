import EdoPlugin.FirewallRebuild
import EdoPlugin.OwnerNetworks

/-!
# The protocol of a spawn

How far a handler has come with a spawn, as far as the networks are concerned: the octet it was
given, and the container it has created and started.  `container.ensure_instance` moves through
these phases; `container.release_instance` and `container.reconcile` make calls that move nothing.
-/

namespace EdoPlugin

open Interaction

inductive SpawnPhase where
  | idle
  /-- The octet is allocated. -/
  | spawning (owner : Owner) (octet : Octet)
  /-- Its last container has been created. -/
  | created (owner : Owner) (octet : Octet) (id : ContainerId)
  /-- Its last container has been started. -/
  | started (owner : Owner) (octet : Octet) (id : ContainerId)
deriving DecidableEq, Repr

namespace SpawnPhase

/-- The owner and octet of a spawn that is under way. -/
def flight : SpawnPhase → Option (Owner × Octet)
  | .idle => none
  | .spawning owner octet | .created owner octet _ | .started owner octet _ => some (owner, octet)

/-- The phase after a container was created. -/
def withContainer (id : ContainerId) : SpawnPhase → SpawnPhase
  | .idle => .idle
  | .spawning owner octet | .created owner octet _ | .started owner octet _ =>
    .created owner octet id

/-- The phase after a container was started. -/
def withStarted : SpawnPhase → SpawnPhase
  | .created owner octet id => .started owner octet id
  | phase => phase

def next (phase : SpawnPhase) : (op : DaemonOp) → op.Res → SpawnPhase
  | .db (.allocateOctet owner), .ok octet => .spawning owner octet
  | .docker (.createContainer _), .ok id => phase.withContainer id
  | .docker (.start _), .ok () => phase.withStarted
  | .db (.addInstance _), _ => .idle
  | .host .releaseSpawn, _ => .idle
  | _, _ => phase

/-- The calls a handler can make at this point, with what it passes to them. -/
def admits (phase : SpawnPhase) : DaemonOp → Prop
  | .db (.allocateOctet _) => phase = .idle
  | .docker (.networksCreate name _ _ _ labels) => ∃ owner octet,
    phase = .spawning owner octet ∧ name = bridgeName octet ∧ labels = ownerLabels owner
  | .docker (.createContainer spec) => ∃ owner octet, phase.flight = some (owner, octet) ∧
    spec.networkName = bridgeName octet ∧ (ownerSubnet octet).contains spec.ipv4Address = true
  | .docker (.start id) => ∃ owner octet, phase = .created owner octet id
  | .db (.addInstance row) => ∃ octet, phase = .started row.owner octet row.containerId ∧
    ∃ ip, row.assignedIp = some ip ∧ (ownerSubnet octet).contains ip = true
  | _ => True

/-- The answer a handler counts on: its started container has its own id, and an address in the
    owner's subnet. -/
def expected : SpawnPhase → (op : DaemonOp) → op.Res → Prop
  | .started _ octet id, .docker (.containersGet (.id id')), .ok c => id' = id →
    c.id = id ∧ ∀ ip, c.ipAddress = some ip → (ownerSubnet octet).contains ip = true
  | _, _, _ => True

end SpawnPhase

/-- The calls that leave every phase as it is and pass nothing on. -/
def quietCall : DaemonOp → Prop
  | .db (.allocateOctet _) | .db (.addInstance _) => False
  | .docker (.networksCreate ..) | .docker (.createContainer _) | .docker (.start _) => False
  | .host .releaseSpawn => False
  | _ => True

abbrev Spawns {α : Type} (p : Daemon α) (P : α → SpawnPhase → Prop) (phase : SpawnPhase) : Prop :=
  Conforms (E := daemonEffect) SpawnPhase.expected SpawnPhase.admits SpawnPhase.next p
    (returning P) phase

theorem SpawnPhase.admits_quiet {phase : SpawnPhase} {op : DaemonOp} (h : quietCall op) :
    phase.admits op := by
  cases op with
  | db op => cases op <;> trivial
  | docker op => cases op <;> trivial
  | filter op => trivial
  | wg op => trivial
  | host op => trivial

theorem SpawnPhase.next_quiet {phase : SpawnPhase} {op : DaemonOp} (res : op.Res)
    (h : quietCall op) : phase.next op res = phase := by
  cases op with
  | db op => cases op <;> first | rfl | exact h.elim
  | docker op => cases op <;> first | rfl | exact h.elim
  | filter op => rfl
  | wg op => rfl
  | host op => cases op <;> first | rfl | exact h.elim

theorem quietCall_of_auxiliaryCall (op : DaemonOp) (h : auxiliaryCall op) : quietCall op := by
  unfold auxiliaryCall at h
  split at h <;> trivial

theorem quietCall_of_filterCall (op : DaemonOp) (h : filterCall op) : quietCall op := by
  cases op <;> trivial

variable {α : Type} {phase : SpawnPhase}

theorem spawns_quiet {p : Daemon α} (hp : CallsOnly quietCall p) :
    Spawns p (fun _ φ => φ = phase) phase :=
  Conforms.of_callsOnly hp (fun _ hop => SpawnPhase.admits_quiet hop)
    fun _ res hop => SpawnPhase.next_quiet res hop

theorem spawns_auxiliary {p : Daemon α} (hp : CallsOnly auxiliaryCall p) :
    Spawns p (fun _ φ => φ = phase) phase :=
  spawns_quiet (hp.mono quietCall_of_auxiliaryCall)

/-! ## The parts of `spawn_instance` -/

theorem spawns_createOwnerNetwork {owner : Owner} {octet : Octet} :
    Spawns (createOwnerNetwork owner octet) (fun given φ => φ = .spawning owner given)
      (.spawning owner octet) := by
  refine Conforms.perform ⟨owner, octet, rfl, rfl, rfl⟩ fun created _ => ?_
  cases created with
  | ok _ => exact rfl
  | error err => exact Conforms.ite trivial trivial

theorem spawns_ensureOwnerNetwork {owner : Owner} :
    Spawns (ensureOwnerNetwork owner) (fun given φ => φ = .spawning owner given) .idle := by
  refine Conforms.perform rfl fun allocated _ => ?_
  cases allocated with
  | error err => trivial
  | ok octet =>
    show Spawns (dockerClient >>= fun _ => _) _ (.spawning owner octet)
    refine Conforms.bind (spawns_auxiliary callsOnly_dockerClient) ?_
    rintro _ _ rfl
    refine Conforms.perform trivial fun existing _ => ?_
    cases existing with
    | ok net => exact Conforms.ite rfl trivial
    | error err =>
      cases err with
      | notFound msg => exact spawns_createOwnerNetwork
      | apiError msg => trivial

theorem spawns_findNextOwnerIp {owner : Owner} {octet : Octet} :
    Spawns (findNextOwnerIp owner octet)
      (fun ip φ => φ = phase ∧ (ownerSubnet octet).contains ip = true) phase := by
  refine Conforms.perform trivial fun used _ => ?_
  unfold iterSubnetHosts
  split
  · rename_i host hfind
    exact ⟨rfl, ownerSubnet_contains_of_mem_hosts (List.mem_of_find?_eq_some hfind)⟩
  · trivial

/-- The container is created for the octet of the spawn, started under its own id, or not started at
    all. -/
theorem spawns_startContainer {owner : Owner} {octet : Octet} {spec : ContainerSpec}
    (hflight : phase.flight = some (owner, octet)) (hname : spec.networkName = bridgeName octet)
    (hip : (ownerSubnet octet).contains spec.ipv4Address = true) :
    Spawns (startContainer spec) (fun result φ => φ.flight = some (owner, octet) ∧
      ∀ c, result = .ok c → φ = .started owner octet c.id) phase := by
  refine Conforms.perform ⟨owner, octet, hflight, hname, hip⟩ fun created _ => ?_
  cases created with
  | error err => exact ⟨hflight, fun _ h => nomatch h⟩
  | ok id =>
    have hcreated : phase.next (.docker (.createContainer spec)) (.ok id) =
        .created owner octet id := by
      show phase.withContainer id = _
      cases phase <;> cases hflight <;> rfl
    rw [hcreated]
    refine Conforms.perform ⟨owner, octet, rfl⟩ fun started _ => ?_
    cases started with
    | error err => exact ⟨rfl, fun _ h => nomatch h⟩
    | ok _ =>
      refine Conforms.call trivial fun found hfound => ?_
      cases found with
      | error err => exact ⟨rfl, fun _ h => nomatch h⟩
      | ok c =>
        obtain ⟨hid, -⟩ := hfound rfl
        refine ⟨rfl, ?_⟩
        rintro _ ⟨⟩
        rw [hid]
        rfl

theorem spawns_spawnAttempts (env : DaemonEnv) (plan : SpawnPlan) (rounds : Nat)
    (triedIps : List IPv4Address) (triedPorts : List Nat) (lastError : String)
    (hflight : phase.flight = some (plan.owner, plan.octet)) :
    Spawns (spawnAttempts env plan rounds triedIps triedPorts lastError)
      (fun outcome φ => ∀ c ip, outcome = .started c ip →
        φ = .started plan.owner plan.octet c.id ∧ (ownerSubnet plan.octet).contains ip = true)
      phase := by
  induction rounds generalizing phase triedIps triedPorts lastError with
  | zero => exact fun _ _ h => nomatch h
  | succ rounds ih =>
    refine Conforms.bind spawns_findNextOwnerIp ?_
    rintro ip _ ⟨rfl, hip⟩
    refine Conforms.ite (ih _ _ _ hflight) ?_
    refine Conforms.bind
      (spawns_auxiliary (callsOnly_attemptPorts.mono auxiliaryCall_of_allocationRead)) ?_
    rintro ports _ rfl
    cases ports with
    | error msg => exact fun _ _ h => nomatch h
    | ok portMap =>
      refine Conforms.bind (spawns_startContainer hflight rfl hip) ?_
      rintro result φ ⟨hflight', hstarted⟩
      cases result with
      | ok c =>
        rintro _ _ ⟨⟩
        exact ⟨hstarted c rfl, hip⟩
      | error err =>
        refine Conforms.bind (spawns_auxiliary callsOnly_forceRemoveByName) ?_
        rintro _ _ rfl
        exact Conforms.ite (ih _ _ _ hflight') fun _ _ h => nomatch h

/-- The row is stored with the container's own id and an address in the owner's subnet. -/
theorem spawns_recordInstance {plan : SpawnPlan} {container : Container}
    {assignedIp : IPv4Address} (hip : (ownerSubnet plan.octet).contains assignedIp = true) :
    Spawns (recordInstance plan container assignedIp) (fun _ _ => True)
      (.started plan.owner plan.octet container.id) := by
  have hlive : Spawns (liveContainerIp container (bridgeName plan.octet))
      (fun live φ => φ = .started plan.owner plan.octet container.id ∧
        ∀ ip, live.2 = some ip → (ownerSubnet plan.octet).contains ip = true)
      (.started plan.owner plan.octet container.id) := by
    refine Conforms.perform trivial fun reloaded hreloaded => ?_
    cases reloaded with
    | error err => exact ⟨rfl, fun _ h => nomatch h⟩
    | ok fresh => exact Conforms.ite ⟨rfl, (hreloaded rfl).2⟩ ⟨rfl, fun _ h => nomatch h⟩
  refine Conforms.bind hlive ?_
  rintro live _ ⟨rfl, hliveIp⟩
  refine Conforms.perform trivial fun reloaded hreloaded => ?_
  cases reloaded with
  | error err => trivial
  | ok fresh =>
    obtain ⟨hid, -⟩ := hreloaded rfl
    have hassigned : (ownerSubnet plan.octet).contains (live.2.getD assignedIp) = true := by
      cases hsome : live.2 with
      | none => exact hip
      | some ip => exact hliveIp ip hsome
    refine Conforms.perform ⟨plan.octet, ?_, _, rfl, hassigned⟩ fun added _ => ?_
    · show SpawnPhase.started plan.owner plan.octet container.id =
        .started plan.owner plan.octet fresh.id
      rw [hid]
    · cases added with
      | ok row => trivial
      | error err => exact Conforms.perform trivial fun _ _ => trivial

theorem spawns_spawnInstance {env : DaemonEnv} {owner : Owner} {challengeRef buildPath : String}
    {security : Option SecurityProfile} {ttlSeconds : Option Int} {publishPorts : Bool} :
    Spawns (spawnInstance env owner challengeRef buildPath security ttlSeconds publishPorts)
      (fun _ _ => True) .idle := by
  refine Conforms.perform trivial fun existing _ => ?_
  cases existing with
  | some row => trivial
  | none =>
    refine Conforms.perform trivial fun hasDockerfile _ => Conforms.ite ?_ trivial
    refine Conforms.bind spawns_ensureOwnerNetwork ?_
    rintro octet _ rfl
    refine Conforms.bind (spawns_auxiliary callsOnly_dockerClient) ?_
    rintro _ _ rfl
    refine Conforms.perform trivial fun built _ => Conforms.ite ?_ trivial
    refine Conforms.bind (spawns_auxiliary callsOnly_detectExposedPorts) ?_
    rintro exposedPorts _ rfl
    refine Conforms.bind (spawns_auxiliary (callsOnly_isoExpiry ttlSeconds)) ?_
    rintro expiresAt _ rfl
    extract_lets plan
    refine Conforms.bind (spawns_spawnAttempts env plan 8 [] [] "" rfl) ?_
    intro outcome φ hstarted
    cases outcome with
    | started c ip =>
      obtain ⟨rfl, hip⟩ := hstarted c ip rfl
      exact spawns_recordInstance hip
    | failed error => trivial
    | exhausted lastError => trivial

/-! ## The handlers -/

theorem quietCall_of_idleNetworkCall (op : DaemonOp) (h : idleNetworkCall op) : quietCall op := by
  unfold idleNetworkCall at h
  split at h <;> trivial

/-- The calls that stop and remove a container. -/
def containerCall : DaemonOp → Prop
  | .docker (.containersGet _) | .docker (.stop _) | .docker (.remove _) => True
  | _ => False

theorem quietCall_of_containerCall (op : DaemonOp) (h : containerCall op) : quietCall op := by
  unfold containerCall at h
  split at h <;> trivial

theorem callsOnly_stopAndRemove {containerId : ContainerId} :
    CallsOnly containerCall (stopAndRemove containerId) := by
  refine CallsOnly.bind (CallsOnly.perform trivial) fun found => ?_
  cases found with
  | error err => constructor
  | ok container =>
    refine CallsOnly.bind (CallsOnly.perform trivial) fun stopped => ?_
    cases stopped with
    | error err => constructor
    | ok _ => exact CallsOnly.perform trivial

theorem callsOnly_releaseInstance {containerId : ContainerId} :
    CallsOnly quietCall (releaseInstance containerId) := by
  have hforget : ∀ inst, CallsOnly quietCall (forgetInstance inst containerId) := by
    intro inst
    refine CallsOnly.bind (CallsOnly.perform trivial) fun removed => ?_
    cases inst with
    | none => constructor
    | some row =>
      exact CallsOnly.bind
        (callsOnly_releaseOwnerNetworkIfIdle.mono quietCall_of_idleNetworkCall) fun _ => .ret
  refine CallsOnly.bind (callsOnly_dockerClient.mono quietCall_of_auxiliaryCall) fun _ => ?_
  refine CallsOnly.bind (CallsOnly.perform trivial) fun rows => ?_
  refine CallsOnly.bind (callsOnly_stopAndRemove.mono quietCall_of_containerCall) fun stopped => ?_
  cases stopped with
  | ok _ => exact hforget _
  | error err =>
    cases err with
    | apiError msg => constructor
    | notFound msg => exact hforget _

theorem callsOnly_reconcile : CallsOnly quietCall reconcile := by
  have hone : ∀ row, CallsOnly quietCall (reconcileOne row) := by
    intro row
    refine CallsOnly.bind (CallsOnly.perform trivial) fun found => ?_
    cases found with
    | ok container =>
      exact CallsOnly.ite (CallsOnly.bind (CallsOnly.perform trivial) fun _ => .ret) .ret
    | error err =>
      cases err with
      | apiError msg => constructor
      | notFound msg =>
        refine CallsOnly.bind (CallsOnly.perform trivial) fun _ => ?_
        exact CallsOnly.bind
          (callsOnly_releaseOwnerNetworkIfIdle.mono quietCall_of_idleNetworkCall) fun _ => .ret
  have heach : ∀ rows, CallsOnly quietCall (reconcileEach rows) := by
    intro rows
    induction rows with
    | nil => constructor
    | cons row rows ih => exact CallsOnly.bind (hone row) fun _ => CallsOnly.bind ih fun _ => .ret
  refine CallsOnly.bind (callsOnly_dockerClient.mono quietCall_of_auxiliaryCall) fun _ => ?_
  exact CallsOnly.bind (CallsOnly.perform trivial) heach

theorem callsOnly_rebuildFirewall {env : DaemonEnv} :
    CallsOnly quietCall (rebuildFirewall env) := by
  refine CallsOnly.bind (CallsOnly.perform trivial) fun peersByOwner => ?_
  refine CallsOnly.bind (CallsOnly.perform trivial) fun rows => ?_
  exact CallsOnly.bind (callsOnly_applyFirewall.mono quietCall_of_filterCall) fun _ => .ret

/-- `with _SPAWN_SEMAPHORE` ends every spawn, however it ends. -/
theorem spawns_withSpawnSemaphore {body : Daemon α}
    (hbody : Spawns body (fun _ _ => True) .idle) :
    Spawns (withSpawnSemaphore body) (fun _ φ => φ = .idle) .idle := by
  refine Conforms.perform trivial fun _ _ => ?_
  refine wp_finally.mpr (wp_mono hbody ?_)
  intro out φ _
  refine Conforms.call trivial fun _ _ => ?_
  cases out with
  | ok value => exact rfl
  | error err => trivial

/-- The requests that spawn, release and reconcile. -/
def Request.managesContainers : Request → Bool
  | .containerEnsureInstance .. | .containerReleaseInstance _ | .containerReconcile => true
  | _ => false

/-- One connection: the request is handled, and its reply or error is sent back. -/
def serve (env : DaemonEnv) (request : Request) : Daemon Unit := do
  let _ ← handle env request
  return ()

/-- **Every handler follows the protocol.** -/
theorem spawns_serve {env : DaemonEnv} {request : Request}
    (h : request.managesContainers = true) : Spawns (serve env request) (fun _ _ => True) .idle := by
  have hquiet : ∀ {p : Daemon Reply}, CallsOnly quietCall p →
      Spawns (p >>= fun _ => return ()) (fun _ _ => True) .idle := fun hp =>
    Conforms.bind (spawns_quiet hp) fun _ _ _ => trivial
  cases request with
  | containerEnsureInstance owner challengeRef buildPath security ttlSeconds publishPorts =>
    refine Conforms.bind (P := fun _ _ => True) ?_ fun _ _ _ => trivial
    refine Conforms.bind (spawns_withSpawnSemaphore spawns_spawnInstance) ?_
    rintro result _ rfl
    have hinstance : CallsOnly quietCall (spawnedInstance result) := by
      unfold spawnedInstance
      split <;> constructor
    refine Conforms.bind (spawns_quiet hinstance) ?_
    rintro row _ rfl
    exact Conforms.bind (spawns_quiet callsOnly_rebuildFirewall) fun _ _ _ => trivial
  | containerReleaseInstance containerId =>
    exact hquiet (CallsOnly.bind callsOnly_releaseInstance fun _ =>
      CallsOnly.bind callsOnly_rebuildFirewall fun _ => .ret)
  | containerReconcile =>
    exact hquiet (CallsOnly.bind callsOnly_reconcile fun _ =>
      CallsOnly.bind (CallsOnly.perform trivial) fun _ => .ret)
  | ping | wgEnsurePeer _ _ | wgRemovePeer _ | wgRenderConfig _ | containerInspect _ | killSwitch =>
    cases h

end EdoPlugin
