import EdoPlugin.SpawnLedger

/-!
# The handlers keep the ledger

`container.ensure_instance` and `container.release_instance` only touch what was issued for their key,
and every other handler issues nothing.  So whatever the daemon has been through, each container and
each row is there for a key that the plugin asked for.
-/

namespace EdoPlugin

open Interaction

variable {policy : Policy} {env : DaemonEnv} {w w' : World} {α β : Type} {phase : ServicePhase}
  {key : SpawnKey} {known : List ContainerId} {containerId : ContainerId}

abbrev Serves {α : Type} (p : Daemon α) (P : α → ServicePhase → Prop) (phase : ServicePhase) : Prop :=
  Conforms (E := daemonEffect) ServicePhase.expected ServicePhase.admits ServicePhase.next p
    (returning P) phase

/-! ## Calls that concern no key -/

/-- The calls that every thread may make, and that teach it nothing. -/
def keylessCall : DaemonOp → Prop
  | .db (.allocatePeer ..) | .db (.removePeer _) => False
  | .db (.addInstance _) | .db (.removeInstance _) | .db (.updateInstanceStatus ..) => False
  | .db (.findInstance ..) => False
  | .docker (.createContainer _) | .docker (.containersGet _) => False
  | .docker (.start _) | .docker (.stop _) | .docker (.remove _) => False
  | _ => True

theorem ServicePhase.admits_keyless {op : DaemonOp} (h : keylessCall op) : phase.admits op := by
  cases op with
  | db op => cases phase <;> cases op <;> trivial
  | docker op => cases phase <;> cases op <;> trivial
  | filter op | wg op | host op => cases phase <;> trivial

theorem ServicePhase.next_keyless {op : DaemonOp} (res : op.Res) (h : keylessCall op) :
    phase.next op res = phase := by
  cases op with
  | db op => cases phase <;> cases op <;> first | rfl | exact h.elim
  | docker op => cases phase <;> cases op <;> first | rfl | exact h.elim
  | filter op | wg op | host op => cases phase <;> rfl

theorem serves_keyless {p : Daemon α} (hp : CallsOnly keylessCall p) :
    Serves p (fun _ φ => φ = phase) phase :=
  Conforms.of_callsOnly hp (fun _ => ServicePhase.admits_keyless)
    fun _ res h => ServicePhase.next_keyless res h

theorem keylessCall_of_networkCall (op : DaemonOp) (h : networkCall op) : keylessCall op := by
  unfold networkCall at h
  split at h <;> trivial

theorem keylessCall_of_readingCall (op : DaemonOp) (h : readingCall op) : keylessCall op := by
  unfold readingCall at h
  split at h <;> trivial

theorem keylessCall_of_allocationRead (op : DaemonOp) (h : allocationRead op) : keylessCall op := by
  unfold allocationRead at h
  split at h <;> trivial

theorem keylessCall_of_idleNetworkCall (op : DaemonOp) (h : idleNetworkCall op) : keylessCall op := by
  unfold idleNetworkCall at h
  split at h <;> trivial

theorem keylessCall_of_filterCall (op : DaemonOp) (h : filterCall op) : keylessCall op := by
  cases op <;> trivial

theorem callsOnly_rebuildFirewall_keyless : CallsOnly keylessCall (rebuildFirewall env) := by
  refine CallsOnly.bind (CallsOnly.perform trivial) fun peersByOwner => ?_
  refine CallsOnly.bind (CallsOnly.perform trivial) fun rows => ?_
  exact CallsOnly.bind (callsOnly_applyFirewall.mono keylessCall_of_filterCall) fun _ => .ret

/-! ## A spawn -/

theorem serves_forceRemoveByName (hknown : key.owner.Known) :
    Serves (forceRemoveByName key.name) (fun _ φ => ∃ known', φ = .forKey key known')
      (.forKey key known) := by
  refine Conforms.perform ⟨rfl, hknown⟩ fun found _ => ?_
  cases found with
  | error err => exact ⟨known, rfl⟩
  | ok c => exact Conforms.perform List.mem_cons_self fun _ _ => ⟨c.id :: known, rfl⟩

/-- The container that has been started is one that was created for the key. -/
theorem serves_startContainer {spec : ContainerSpec} (hspec : spec.IssuedTo key) :
    Serves (startContainer spec) (fun result φ => ∃ known', φ = .forKey key known' ∧
      ∀ c, result = .ok c → c.id ∈ known') (.forKey key known) := by
  refine Conforms.perform hspec fun created _ => ?_
  cases created with
  | error err => exact ⟨known, rfl, fun _ h => by cases h⟩
  | ok id =>
    refine Conforms.perform List.mem_cons_self fun started _ => ?_
    cases started with
    | error err => exact ⟨id :: known, rfl, fun _ h => by cases h⟩
    | ok _ =>
      refine Conforms.call trivial fun found hfound => ?_
      cases found with
      | error err => exact ⟨id :: known, rfl, fun _ h => by cases h⟩
      | ok c =>
        obtain rfl : c.id = id := hfound
        refine ⟨c.id :: known, rfl, ?_⟩
        rintro _ ⟨⟩
        exact List.mem_cons_self

theorem serves_spawnAttempts {plan : SpawnPlan} (hknown : key.owner.Known)
    (howner : plan.owner = key.owner) (href : plan.challengeRef = key.challengeRef) {rounds : Nat}
    {triedIps : List IPv4Address} {triedPorts : List Nat} {lastError : String} :
    Serves (spawnAttempts env plan rounds triedIps triedPorts lastError)
      (fun outcome φ => ∃ known', φ = .forKey key known' ∧
        ∀ c ip, outcome = .started c ip → c.id ∈ known') (.forKey key known) := by
  induction rounds generalizing known triedIps triedPorts lastError with
  | zero => exact ⟨known, rfl, fun _ _ h => by cases h⟩
  | succ rounds ih =>
    rw [spawnAttempts]
    refine Conforms.bind
      (serves_keyless (callsOnly_findNextOwnerIp.mono keylessCall_of_allocationRead)) ?_
    rintro ip _ rfl
    refine Conforms.ite ih ?_
    refine Conforms.bind
      (serves_keyless (callsOnly_attemptPorts.mono keylessCall_of_allocationRead)) ?_
    rintro ports _ rfl
    cases ports with
    | error msg => exact ⟨known, rfl, fun _ _ h => by cases h⟩
    | ok portMap =>
      refine Conforms.bind (serves_startContainer (issuedTo_spec hknown howner href)) ?_
      rintro result _ ⟨known', rfl, hstarted⟩
      cases result with
      | ok c =>
        refine ⟨known', rfl, ?_⟩
        rintro _ _ ⟨⟩
        exact hstarted c rfl
      | error err =>
        have hname : plan.name = key.name := by
          unfold SpawnPlan.name
          rw [howner, href]
          rfl
        rw [hname]
        refine Conforms.bind (serves_forceRemoveByName hknown) ?_
        rintro _ _ ⟨known'', rfl⟩
        exact Conforms.ite ih ⟨known'', rfl, fun _ _ h => by cases h⟩

/-- The instance that is returned, and the row that is stored, name a container of the key. -/
theorem serves_recordInstance {plan : SpawnPlan} (hkey : (plan.owner, plan.challengeRef) = key.rowKey)
    {c : Container} {ip : IPv4Address} (hc : c.id ∈ known) :
    Serves (recordInstance plan c ip) (fun result φ => φ = .forKey key known ∧
      ∀ row, result.instance? = some row → row.containerId ∈ known) (.forKey key known) := by
  have hlive : Serves (liveContainerIp c (bridgeName plan.octet)) (fun _ φ => φ = .forKey key known)
      (.forKey key known) := by
    refine Conforms.perform trivial fun found _ => ?_
    cases found with
    | error err => exact rfl
    | ok fresh => exact Conforms.ite rfl rfl
  refine Conforms.bind hlive ?_
  rintro live _ rfl
  refine Conforms.perform trivial fun found hfound => ?_
  cases found with
  | error err => trivial
  | ok fresh =>
    have hid : fresh.id = c.id := hfound
    have hmem : fresh.id ∈ known := hid ▸ hc
    refine Conforms.perform ⟨hkey, hmem⟩ fun added hadded => ?_
    cases added with
    | ok row =>
      obtain rfl : row = plan.row fresh (live.2.getD ip) := hadded
      refine ⟨rfl, ?_⟩
      rintro _ ⟨⟩
      exact hmem
    | error err => exact Conforms.perform hc fun _ _ => ⟨rfl, fun _ h => by cases h⟩

theorem serves_spawnInstance (hknown : key.owner.Known) {buildPath : String}
    {security : Option SecurityProfile} {ttlSeconds : Option Int} {publishPorts : Bool} :
    Serves (spawnInstance env key.owner key.challengeRef buildPath security ttlSeconds publishPorts)
      (fun result φ => ∃ known', φ = .forKey key known' ∧
        ∀ row, result.instance? = some row → row.containerId ∈ known') (.forKey key known) := by
  refine Conforms.perform rfl fun existing _ => ?_
  cases existing with
  | some row =>
    refine ⟨row.containerId :: known, rfl, ?_⟩
    rintro _ ⟨⟩
    exact List.mem_cons_self
  | none =>
    have hfailed : ∀ error : String, ∃ known', ServicePhase.forKey key known = .forKey key known' ∧
        ∀ row, (SpawnResult.failure error).instance? = some row → row.containerId ∈ known' :=
      fun _ => ⟨known, rfl, fun _ h => by cases h⟩
    have hreads : ∀ {β : Type} {p : Daemon β}, CallsOnly readingCall p →
        Serves p (fun _ φ => φ = .forKey key known) (.forKey key known) := fun hp =>
      serves_keyless (hp.mono keylessCall_of_readingCall)
    refine Conforms.perform trivial fun hasDockerfile _ => Conforms.ite ?_ (hfailed _)
    refine Conforms.bind
      (serves_keyless (callsOnly_ensureOwnerNetwork.mono keylessCall_of_networkCall)) ?_
    rintro octet _ rfl
    refine Conforms.bind (hreads callsOnly_dockerClient_reads) ?_
    rintro _ _ rfl
    refine Conforms.perform trivial fun built _ => Conforms.ite ?_ (hfailed _)
    refine Conforms.bind (hreads callsOnly_detectExposedPorts_reads) ?_
    rintro exposedPorts _ rfl
    refine Conforms.bind (hreads callsOnly_isoExpiry_reads) ?_
    rintro expiresAt _ rfl
    extract_lets plan
    refine Conforms.bind (serves_spawnAttempts hknown rfl rfl) ?_
    rintro outcome _ ⟨known', rfl, hstarted⟩
    cases outcome with
    | started c ip =>
      apply wp_mono (serves_recordInstance rfl (hstarted c ip rfl))
      intro out φ hout
      cases out with
      | error err => trivial
      | ok result => exact ⟨known', hout⟩
    | failed error => exact ⟨known', rfl, fun _ h => by cases h⟩
    | exhausted lastError => exact ⟨known', rfl, fun _ h => by cases h⟩

/-- `with _SPAWN_SEMAPHORE` is of no concern to a key. -/
theorem serves_withSpawnSemaphore {body : Daemon α} {P : α → ServicePhase → Prop}
    (hbody : Serves body P phase) : Serves (withSpawnSemaphore body) P phase := by
  have hkeyless : ∀ {op : HostOp} (φ : ServicePhase) res, φ.next (.host op) res = φ := fun _ res =>
    ServicePhase.next_keyless res trivial
  refine Conforms.perform (ServicePhase.admits_keyless trivial) fun _ _ => ?_
  rw [hkeyless]
  apply wp_finally.mpr
  apply wp_mono hbody
  intro out φ hout
  refine Conforms.call (ServicePhase.admits_keyless trivial) fun _ _ => ?_
  rw [hkeyless]
  cases out with
  | ok value => exact hout
  | error err => trivial

theorem serves_ensureInstance (key : SpawnKey) (hknown : key.owner.Known) {buildPath : String}
    {security : SecurityProfile} {ttlSeconds : Option Int} {publishPorts : Bool} :
    Serves (handle env (.containerEnsureInstance key.owner key.challengeRef buildPath security ttlSeconds
        publishPorts))
      (fun reply φ => ∃ known', φ = .forKey key known' ∧
        ∀ row, reply = .instance_ row → row.containerId ∈ known') (.forKey key known) := by
  refine Conforms.bind (serves_withSpawnSemaphore (serves_spawnInstance hknown)) ?_
  rintro result _ ⟨known', rfl, hinstance⟩
  unfold spawnedInstance
  split
  · rename_i row _ hrow
    show Serves (rebuildFirewall env >>= fun _ => return Reply.instance_ row) _ _
    refine Conforms.bind (serves_keyless callsOnly_rebuildFirewall_keyless) ?_
    rintro _ _ rfl
    refine ⟨known', rfl, ?_⟩
    rintro _ ⟨⟩
    exact hinstance row hrow
  · trivial

/-! ## A release -/

theorem serves_stopAndRemove (hid : containerId ∈ known) :
    Serves (stopAndRemove containerId) (fun _ φ => φ = .forKey key known) (.forKey key known) := by
  refine Conforms.perform trivial fun found hfound => ?_
  cases found with
  | error err => exact rfl
  | ok c =>
    obtain rfl : c.id = containerId := hfound
    refine Conforms.perform hid fun stopped _ => ?_
    cases stopped with
    | error err => exact rfl
    | ok _ => exact Conforms.call hid fun _ _ => rfl

theorem serves_forgetInstance {inst : Option Instance} (hid : containerId ∈ known) :
    Serves (forgetInstance inst containerId) (fun _ φ => φ = .forKey key known)
      (.forKey key known) := by
  refine Conforms.perform hid fun removed _ => ?_
  cases inst with
  | none => exact rfl
  | some row =>
    refine Conforms.bind
      (serves_keyless (callsOnly_releaseOwnerNetworkIfIdle.mono keylessCall_of_idleNetworkCall)) ?_
    rintro _ _ rfl
    exact rfl

theorem serves_releaseInstance (hid : containerId ∈ known) :
    Serves (handle env (.containerReleaseInstance containerId)) (fun _ φ => φ = .forKey key known)
      (.forKey key known) := by
  have hrelease : Serves (releaseInstance containerId) (fun _ φ => φ = .forKey key known)
      (.forKey key known) := by
    refine Conforms.bind
      (serves_keyless (callsOnly_dockerClient_reads.mono keylessCall_of_readingCall)) ?_
    rintro _ _ rfl
    refine Conforms.perform trivial fun rows _ => ?_
    refine Conforms.bind (serves_stopAndRemove hid) ?_
    rintro stopped _ rfl
    cases stopped with
    | ok _ => exact serves_forgetInstance hid
    | error err =>
      cases err with
      | apiError msg => exact rfl
      | notFound msg => exact serves_forgetInstance hid
  refine Conforms.bind hrelease ?_
  rintro removed _ rfl
  refine Conforms.bind (serves_keyless callsOnly_rebuildFirewall_keyless) ?_
  rintro _ _ rfl
  exact rfl

/-! ## The other handlers -/

theorem next_issuesNothing (op : DaemonOp) (res : op.Res) :
    ServicePhase.issuesNothing.next op res = .issuesNothing := by
  cases op with
  | db op => cases op <;> rfl
  | docker op => cases op <;> rfl
  | filter op | wg op | host op => rfl

theorem serves_issuesNothing {p : Daemon α} (hp : CallsOnly ServicePhase.issuesNothing.admits p) :
    Serves p (fun _ _ => True) .issuesNothing := by
  apply wp_mono (Conforms.of_callsOnly hp (fun _ h => h) fun op res _ => next_issuesNothing op res)
  intro out φ _
  cases out <;> trivial

theorem issuesNothing_of_quietCall (op : DaemonOp) (h : quietCall op) :
    ServicePhase.issuesNothing.admits op := by
  cases op with
  | db op => cases op <;> trivial
  | docker op => cases op <;> trivial
  | filter op | wg op | host op => trivial

theorem issuesNothing_of_peerCall {username : String} (op : DaemonOp) (h : peerCall username op) :
    ServicePhase.issuesNothing.admits op := by
  unfold peerCall at h
  split at h <;> trivial

theorem issuesNothing_of_wgCall (op : DaemonOp) (h : wgCall op) :
    ServicePhase.issuesNothing.admits op := by
  cases op <;> trivial

theorem callsOnly_teardownAll : CallsOnly quietCall teardownAll := by
  refine CallsOnly.bind (CallsOnly.perform trivial) fun rows => ?_
  induction rows with
  | nil => exact .ret
  | cons row rows ih =>
    exact CallsOnly.bind callsOnly_releaseInstance fun _ => CallsOnly.bind ih fun _ => .ret

theorem callsOnly_handle_issuesNothing {request : Request} (h : request.spawns = false) :
    CallsOnly ServicePhase.issuesNothing.admits (handle env request) := by
  have hrebuild : CallsOnly ServicePhase.issuesNothing.admits (rebuildFirewall env) :=
    callsOnly_rebuildFirewall.mono issuesNothing_of_quietCall
  have hserver : ∀ {β : Type} {f : ServerConfig → Daemon β},
      (∀ server, CallsOnly ServicePhase.issuesNothing.admits (f server)) →
      CallsOnly ServicePhase.issuesNothing.admits
        (loadServerConfig env.vpnEndpoint env.vpnPort >>= f) := fun hf =>
    CallsOnly.bind (callsOnly_loadServerConfig.mono issuesNothing_of_wgCall) hf
  cases request with
  | ping => exact .ret
  | wgEnsurePeer userId owner =>
    refine CallsOnly.bind (CallsOnly.perform trivial) fun existing => ?_
    cases existing with
    | some peer => exact hserver fun _ => .ret
    | none =>
      refine hserver fun server => ?_
      refine CallsOnly.bind (callsOnly_addPeer.mono issuesNothing_of_peerCall) fun _ => ?_
      exact CallsOnly.bind hrebuild fun _ => .ret
  | wgRemovePeer userId =>
    refine CallsOnly.bind (callsOnly_removePeer.mono issuesNothing_of_peerCall) fun removed => ?_
    exact CallsOnly.ite (CallsOnly.bind hrebuild fun _ => .ret) .ret
  | wgRenderConfig userId =>
    refine CallsOnly.bind (CallsOnly.perform trivial) fun found => ?_
    cases found with
    | none => exact .raise
    | some peer => exact hserver fun _ => .ret
  | containerEnsureInstance owner challengeRef buildPath security ttlSeconds publishPorts => cases h
  | containerReleaseInstance containerId =>
    refine CallsOnly.bind (callsOnly_releaseInstance.mono issuesNothing_of_quietCall) fun _ => ?_
    exact CallsOnly.bind hrebuild fun _ => .ret
  | containerReconcile =>
    refine CallsOnly.bind (callsOnly_reconcile.mono issuesNothing_of_quietCall) fun _ => ?_
    exact CallsOnly.bind (CallsOnly.perform trivial) fun _ => .ret
  | containerInspect containerId =>
    refine CallsOnly.bind (CallsOnly.perform trivial) fun rows => ?_
    cases rows.find? fun row => row.containerId = containerId with
    | some row => exact .ret
    | none => exact .raise
  | killSwitch =>
    refine CallsOnly.bind (callsOnly_teardownAll.mono issuesNothing_of_quietCall) fun _ => ?_
    exact CallsOnly.bind hrebuild fun _ => .ret

/-! ## What the plugin asks for -/

/-- A spawn that the plugin asks for is one for a user or a team, of a challenge by its number. -/
def Request.FromPlugin : Request → Prop
  | .containerEnsureInstance owner challengeRef .. =>
    owner.Known ∧ ∃ challengeId : Nat, challengeRef = toString challengeId
  | _ => True

/-- What the thread that handles the request is there for. -/
def Request.servicePhase : Request → ServicePhase
  | .containerEnsureInstance owner challengeRef .. =>
    match challengeRef.toNat? with
    | some challengeId => .forKey ⟨owner, challengeId⟩ []
    | none => .issuesNothing
  | _ => .issuesNothing

theorem servicePhase_ensureInstance (key : SpawnKey) {buildPath : String} {security : SecurityProfile}
    {ttlSeconds : Option Int} {publishPorts : Bool} :
    (Request.containerEnsureInstance key.owner key.challengeRef buildPath security ttlSeconds
      publishPorts).servicePhase = .forKey key [] := by
  have hnumber : key.challengeRef.toNat? = some key.challengeId := Nat.toNat?_repr key.challengeId
  unfold Request.servicePhase
  simp only [hnumber]

/-- **Every handler is there for its key**, or issues nothing. -/
theorem serves_handle {request : Request} (h : request.FromPlugin) :
    Serves (handle env request) (fun _ _ => True) request.servicePhase := by
  by_cases hspawns : request.spawns = true
  · cases request with
    | containerEnsureInstance owner challengeRef buildPath security ttlSeconds publishPorts =>
      obtain ⟨hknown, challengeId, rfl⟩ := h
      have hkey : toString challengeId = SpawnKey.challengeRef ⟨owner, challengeId⟩ := rfl
      rw [hkey, servicePhase_ensureInstance ⟨owner, challengeId⟩]
      apply wp_mono (serves_ensureInstance ⟨owner, challengeId⟩ hknown)
      intro out φ _
      cases out <;> trivial
    | _ => cases hspawns
  · have hissues : request.spawns = false := by simpa using hspawns
    have hphase : request.servicePhase = .issuesNothing := by
      cases request <;> first | rfl | cases hissues
    rw [hphase]
    exact serves_issuesNothing (callsOnly_handle_issuesNothing hissues)

/-! ## Adoption -/

theorem parseOwnerId_toString (ownerId : Int) : parseOwnerId (toString ownerId) = .ok ownerId := by
  have hnumber : (toString ownerId).toInt? = some ownerId := Int.toInt?_repr ownerId
  unfold parseOwnerId
  rw [hnumber]

/-- Adoption reads from the labels what the container was issued for. -/
theorem labelledIdentity_of_issuedTo {spec : ContainerSpec} {identity : String × String × String}
    (h : spec.IssuedTo key) (hidentity : labelledIdentity spec.labels = some identity) :
    identity = (key.owner.ownerType, toString key.owner.ownerId, key.challengeRef) := by
  unfold labelledIdentity at hidentity
  simp only [h.ownerType, h.ownerId, h.challengeRef, Option.getD_some] at hidentity
  split at hidentity
  · exact (Option.some.inj hidentity).symm
  · cases hidentity

theorem serves_adoptOne {c : Container} (h : c.spec.IssuedTo key) :
    Serves (adoptOne c) (fun _ _ => True) (.forKey key [c.id]) := by
  unfold adoptOne
  cases hidentity : labelledIdentity c.spec.labels with
  | none => trivial
  | some identity =>
    rw [labelledIdentity_of_issuedTo h hidentity]
    simp only [parseOwnerId_toString]
    show Serves (callDb (.getOctet key.owner) >>= fun _ => _) _ _
    refine Conforms.perform trivial fun held _ => ?_
    have hlive : ∀ networkName, Serves (liveContainerIp c networkName)
        (fun live φ => φ = .forKey key [c.id] ∧ live.1.id = c.id) (.forKey key [c.id]) := by
      intro networkName
      refine Conforms.perform trivial fun found hfound => ?_
      cases found with
      | error err => exact ⟨rfl, rfl⟩
      | ok fresh =>
        have hid : fresh.id = c.id := hfound
        exact Conforms.ite ⟨rfl, hid⟩ ⟨rfl, hid⟩
    refine Conforms.bind (hlive _) ?_
    rintro live _ ⟨rfl, hid⟩
    refine Conforms.perform ⟨rfl, ?_⟩ fun added _ => ?_
    · show live.1.id ∈ [c.id]
      rw [hid]
      exact List.mem_cons_self
    · cases added <;> trivial

/-! ## Histories -/

section Histories

variable {issued : ContainerId → SpawnKey}

/-- What a whole program leaves: the ledger goes on, and what the thread knows at the end is true. -/
theorem wp_serves {p : Daemon α} {P : α → ServicePhase → Prop} (hp : Serves p P phase)
    (h : w.Ledger issued) (hholds : phase.Holds w issued) :
    wp (daemonSem policy) (fun _ _ => True) p (fun out w' => ∃ φ, (∃ issued',
      LedgerAfter w issued φ w' issued') ∧ returning P out φ) w := by
  refine hp.preserves (J := fun w' φ => ∃ issued', LedgerAfter w issued φ w' issued') ?_
    ⟨issued, .refl, h, hholds⟩
  rintro w₁ φ op res w₂ ⟨issued₁, hafter⟩ hadmits hsem
  obtain ⟨hexpected, issued₂, hafter'⟩ := hafter.ledger.sem hafter.holds hadmits hsem
  exact ⟨hexpected, issued₂, hafter.continues.trans hafter'.continues, hafter'.ledger, hafter'.holds⟩

/-- The ledger goes on. -/
def KeepsLedger (w : World) (issued : ContainerId → SpawnKey) (w' : World) : Prop :=
  ∃ issued', Continues w issued w' issued' ∧ w'.Ledger issued'

theorem KeepsLedger.refl (h : w.Ledger issued) : KeepsLedger w issued w := ⟨issued, .refl, h⟩

theorem KeepsLedger.trans {w'' : World} (h : KeepsLedger w issued w')
    (hnext : ∀ issued', w'.Ledger issued' → KeepsLedger w' issued' w'') :
    KeepsLedger w issued w'' := by
  obtain ⟨issued', hcontinues, hledger⟩ := h
  obtain ⟨issued'', hcontinues', hledger'⟩ := hnext issued' hledger
  exact ⟨issued'', hcontinues.trans hcontinues', hledger'⟩

theorem wp_keepsLedger {p : Daemon α} {P : α → ServicePhase → Prop} (hp : Serves p P phase)
    (h : w.Ledger issued) (hholds : phase.Holds w issued) :
    wp (daemonSem policy) (fun _ _ => True) p (fun _ w' => KeepsLedger w issued w') w := by
  apply wp_mono (wp_serves hp h hholds)
  rintro _ w' ⟨_, ⟨issued', hafter⟩, -⟩
  exact ⟨issued', hafter.continues, hafter.ledger⟩

theorem wp_adoptEach {containers : List Container} {knownIds : List ContainerId}
    (h : w.Ledger issued) (hcontainers : ∀ c ∈ containers,
      c.spec.IssuedTo (issued c.id) ∧ c.id < w.docker.nextId) :
    wp (daemonSem policy) (fun _ _ => True) (adoptEach knownIds containers)
      (fun _ w' => KeepsLedger w issued w') w := by
  induction containers generalizing w issued with
  | nil => exact .refl h
  | cons c containers ih =>
    obtain ⟨hissued, hlt⟩ := hcontainers c List.mem_cons_self
    have hrest : ∀ c ∈ containers, c.spec.IssuedTo (issued c.id) ∧ c.id < w.docker.nextId :=
      fun c hc => hcontainers c (List.mem_cons_of_mem _ hc)
    have hknown : (ServicePhase.forKey (issued c.id) [c.id]).Holds w issued := by
      intro id hid
      rw [List.mem_singleton.mp hid]
      exact ⟨rfl, hlt⟩
    refine wp_ite (ih h hrest) ?_
    apply wp_seq (wp_keepsLedger (serves_adoptOne hissued) h hknown)
    · rintro adopted w₁ ⟨issued₁, hcontinues, hledger⟩
      have hrest₁ : ∀ c ∈ containers, c.spec.IssuedTo (issued₁ c.id) ∧ c.id < w₁.docker.nextId := by
        intro c hc
        obtain ⟨hissued, hlt⟩ := hrest c hc
        rw [hcontinues.issued_eq c.id hlt]
        exact ⟨hissued, Nat.lt_of_lt_of_le hlt hcontinues.nextId_le⟩
      apply wp_seq (ih hledger hrest₁)
      · rintro count w₂ ⟨issued₂, hcontinues₂, hledger₂⟩
        exact ⟨issued₂, hcontinues.trans hcontinues₂, hledger₂⟩
      · rintro err w₂ ⟨issued₂, hcontinues₂, hledger₂⟩
        exact ⟨issued₂, hcontinues.trans hcontinues₂, hledger₂⟩
    · exact fun _ _ hkept => hkept

theorem wp_adoptUntracked_ledger (h : w.Ledger issued) :
    wp (daemonSem policy) (fun _ _ => True) adoptUntracked
      (fun _ w' => KeepsLedger w issued w') w := by
  refine wp_dockerClient trivial (wp_callDb trivial (wp_callDocker trivial ?_)) fun _ _ => .refl h
  intro choice _
  cases choice with
  | some msg => exact .refl h
  | none =>
    apply wp_adoptEach h
    intro c hc
    have hmem : c ∈ w.docker.containers := List.mem_of_mem_filter hc
    exact ⟨h.containers c hmem, h.docker.containerIds_lt c hmem⟩

/-- What containers do on their own changes neither what they are nor for what they were issued. -/
theorem World.Ledger.drift {d : Docker} (h : w.Ledger issued) (hdrift : w.docker.Drift d) :
    KeepsLedger w issued { w with docker := d } := by
  refine ⟨issued, ⟨?_, fun _ _ => rfl⟩, h.docker.drift hdrift, ?_, ?_⟩
  · cases hdrift <;> exact Nat.le_refl _
  · intro c hc
    cases hdrift with
    | changed =>
      obtain ⟨old, hold, ⟨-, rfl⟩ | ⟨-, rfl⟩⟩ := Docker.mem_updateContainer.mp hc
      · exact h.containers old hold
      · exact h.containers _ hold
    | removed => exact h.containers c (List.mem_of_mem_filter hc)
  · cases hdrift <;> exact h.rows

def DaemonEvent.FromPlugin : DaemonEvent → Prop
  | .request served => served.FromPlugin
  | .adoption | .drift | .lostDatabase => True

theorem Request.servicePhase_holds {request : Request} : request.servicePhase.Holds w issued := by
  cases request with
  | containerEnsureInstance owner challengeRef buildPath security ttlSeconds publishPorts =>
    unfold Request.servicePhase
    simp only
    cases challengeRef.toNat? with
    | none => trivial
    | some challengeId => exact fun _ hid => by cases hid
  | _ => trivial

theorem World.Ledger.step {event : DaemonEvent} (h : w.Ledger issued) (hevent : event.FromPlugin)
    (hstep : DaemonStep policy env w event w') : KeepsLedger w issued w' := by
  cases hstep with
  | request hends =>
    exact hends.of_wp (wp_keepsLedger (serves_handle hevent) h Request.servicePhase_holds)
  | adoption hends => exact hends.of_wp (wp_adoptUntracked_ledger h)
  | drift hdrift => exact h.drift hdrift
  | lostDatabase => exact ⟨issued, ⟨Nat.le_refl _, fun _ _ => rfl⟩, h.db fun _ hrow => by cases hrow⟩

/-- **Whatever the daemon has been through**, everything in it was issued for a key. -/
theorem World.Ledger.run (h : w.Ledger issued)
    (hrun : DaemonRun policy env (fun _ event => event.FromPlugin) w w') : KeepsLedger w issued w' := by
  induction hrun with
  | start => exact .refl h
  | step _ hevent hstep ih => exact ih.trans fun _ hledger => hledger.step hevent hstep

end Histories

end EdoPlugin
