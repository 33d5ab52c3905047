import EdoPlugin.PublishedPorts

/-!
# Retrying after a conflict

Docker may reject an attempt of `spawn_instance` because its address or one of its host ports is
taken, and the loop then asks for the next address.  That address comes from the tables alone, which
a rejection does not change, so it is the rejected one again; the loop skips it and so uses up its
remaining rounds.  A spawn succeeds exactly when its first attempt does.
-/

namespace EdoPlugin

open Interaction

/-! ## A Docker that rejects some attempts -/

/-- Nothing but an attempt fails: the challenge has a Dockerfile, its image exposes these ports, and no
    call fails of itself. -/
def attemptsOnly (exposed : List String) : Policy
  | .docker (.imagesGet _), answer => answer = .ok exposed
  | .host (.isDockerfile _), answer => answer = true
  | op, choice => noFault op choice

/-- The calls that are not part of an attempt. -/
def besideAttempts : DaemonOp → Prop
  | .docker (.createContainer _) | .docker (.start _) => False
  | _ => True

/-- `rejects n spec` says whether Docker rejects the attempt that comes after `n` others; it may do so
    at the creation or at the start of the container.  The state counts the attempts. -/
inductive RetryStep (rejects : Nat → ContainerSpec → Bool) (exposed : List String) :
    World × Nat → (op : DaemonOp) → op.Res → World × Nat → Prop
  | createRejected {w n spec msg} : rejects n spec = true → isResourceConflict msg = true →
      RetryStep rejects exposed (w, n) (.docker (.createContainer spec))
        (.error (.apiError msg) : Except DockerErr ContainerId) (w, n + 1)
  | created {w n spec id docker} : w.docker.createContainer spec = (.ok id, docker) →
      RetryStep rejects exposed (w, n) (.docker (.createContainer spec))
        (.ok id : Except DockerErr ContainerId) ({ w with docker := docker }, n + 1)
  | startRejected {w n id c msg} : w.docker.findContainer (.id id) = some c →
      rejects n c.spec = true → isResourceConflict msg = true →
      RetryStep rejects exposed (w, n + 1) (.docker (.start id))
        (.error (.apiError msg) : Except DockerErr Unit) (w, n + 1)
  | started {w n id c docker} : w.docker.findContainer (.id id) = some c →
      rejects n c.spec = false → w.docker.start id = (.ok (), docker) →
      RetryStep rejects exposed (w, n + 1) (.docker (.start id))
        (.ok () : Except DockerErr Unit) ({ w with docker := docker }, n + 1)
  | other {w w' n} {op : DaemonOp} {res : op.Res} : besideAttempts op →
      daemonSem (attemptsOnly exposed) w op res w' →
      RetryStep rejects exposed (w, n) op res (w', n)

abbrev retrySem (rejects : Nat → ContainerSpec → Bool) (exposed : List String) :
    Sem daemonEffect (World × Nat) := RetryStep rejects exposed

variable {rejects : Nat → ContainerSpec → Bool} {exposed : List String} {α β : Type} {w w' : World}
  {n : Nat} {Q : Except PyErr α → World × Nat → Prop}

/-! ## Rules -/

/-- Between its attempts a spawn runs as it always does. -/
theorem wp_beside {p : Daemon α} {R : Except PyErr α → World → Prop} (hp : CallsOnly besideAttempts p)
    (h : wp (daemonSem (attemptsOnly exposed)) (fun _ _ => True) p R w) :
    wp (retrySem rejects exposed) (fun _ _ => True) p (fun out s => R out s.1 ∧ s.2 = n) (w, n) := by
  induction hp generalizing w with
  | ret => exact ⟨h, rfl⟩
  | raise => exact ⟨h, rfl⟩
  | call hop _ ih =>
    refine ⟨trivial, ?_⟩
    intro res s' hstep
    cases hstep with
    | createRejected _ _ | created _ | startRejected _ _ _ | started _ _ _ => exact hop.elim
    | other _ hsem => exact ih _ (h.2 _ _ hsem)

/-- A part of the spawn that returns and makes no attempt. -/
theorem wp_beside_bind {p : Daemon β} {f : β → Daemon α} {R : β → World → Prop}
    (hp : CallsOnly besideAttempts p)
    (h : wp (daemonSem (attemptsOnly exposed)) (fun _ _ => True) p
      (fun out w' => ∃ value, out = .ok value ∧ R value w') w)
    (hf : ∀ value w', R value w' →
      wp (retrySem rejects exposed) (fun _ _ => True) (f value) Q (w', n)) :
    wp (retrySem rejects exposed) (fun _ _ => True) (p >>= f) Q (w, n) := by
  apply wp_bind.mpr
  apply wp_mono (wp_beside hp h)
  rintro out ⟨w₁, _⟩ ⟨⟨value, rfl, hR⟩, rfl⟩
  exact hf value w₁ hR

/-! ## The parts beside the attempts -/

theorem besideAttempts_of_allocationRead (op : DaemonOp) (h : allocationRead op) :
    besideAttempts op := by
  unfold allocationRead at h
  split at h <;> trivial

theorem besideAttempts_of_auxiliaryCall (op : DaemonOp) (h : auxiliaryCall op) :
    besideAttempts op := by
  unfold auxiliaryCall at h
  split at h <;> trivial

theorem besideAttempts_of_networkCall (op : DaemonOp) (h : networkCall op) : besideAttempts op := by
  unfold networkCall at h
  split at h <;> trivial

theorem besideAttempts_of_readingCall (op : DaemonOp) (h : readingCall op) : besideAttempts op := by
  unfold readingCall at h
  split at h <;> trivial

section Parts

variable {env : DaemonEnv} {owner : Owner} {challengeRef buildPath : String}
  {security : Option SecurityProfile} {ttlSeconds : Option Int} {publishPorts : Bool}
  {plan : SpawnPlan} {octet : Octet}

/-- The spawn is given a network: an octet is held or free, and its network, if it exists, is routed. -/
structure NetworkReady (owner : Owner) (octet : Octet) (w : World) : Prop where
  planned : w.db.plannedOctet owner = some octet
  routed : ∀ net, w.docker.findNetwork (bridgeName octet) = some net → networkIsRouted net = true

/-- The tables have the same instances, and Docker the same containers. -/
structure SameInstances (w w' : World) : Prop where
  instances : w'.db.instances = w.db.instances
  containers : w'.docker.containers = w.docker.containers
  nextId_le : w.docker.nextId ≤ w'.docker.nextId

theorem wp_ensureOwnerNetwork_ready (h : NetworkReady owner octet w) :
    wp (daemonSem (attemptsOnly exposed)) (fun _ _ => True) (ensureOwnerNetwork owner)
      (fun out w' => ∃ value, out = .ok value ∧ value = octet ∧ SameInstances w w') w := by
  have hallocated : (w.db.allocateOctet owner).1 = .ok octet := Db.allocateOctet_ok_iff.mpr h.planned
  have hinstances : (w.db.allocateOctet owner).2.instances = w.db.instances := instances_allocateOctet
  unfold ensureOwnerNetwork
  refine wp_callDb trivial ?_
  simp only [DbOp.exec, hallocated]
  refine wp_dockerClient trivial (wp_networksGet trivial ?_ ?_ ?_) ?_
  · intro net hfind
    simp only [h.routed net hfind, if_true]
    exact ⟨octet, rfl, rfl, hinstances, rfl, Nat.le_refl _⟩
  · intro msg hnone
    refine wp_callDocker trivial fun fault hfault => ?_
    cases hfault
    simp only [DockerOp.exec, failing, Docker.networksCreate, hnone]
    exact ⟨octet, rfl, rfl, hinstances, rfl, Nat.le_succ _⟩
  · intro msg hfault
    cases hfault
  · intro msg hfault
    cases hfault

/-- What one spawn request fixes, whatever the time is. -/
def SpawnPlan.Of (plan : SpawnPlan) (owner : Owner) (challengeRef : String) (octet : Octet)
    (publishPorts : Bool) (exposed : List String) : Prop :=
  plan.owner = owner ∧ plan.challengeRef = challengeRef ∧ plan.octet = octet ∧
    plan.publishPorts = publishPorts ∧ plan.exposedPorts.length = exposed.length

theorem wp_prepareSpawn_ready : wp (daemonSem (attemptsOnly exposed)) (fun _ _ => True)
    (prepareSpawn owner challengeRef buildPath security ttlSeconds publishPorts octet)
    (fun out w' => ∃ prepared, out = .ok prepared ∧ ∃ plan, prepared = .ok plan ∧
      plan.Of owner challengeRef octet publishPorts exposed ∧ SameStores w w') w := by
  have hends : ∀ expiresAt w', SameStores w w' → wp (daemonSem (attemptsOnly exposed))
      (fun _ _ => True) (.ret (.ok ⟨owner, challengeRef, octet, security.getD SecurityProfile.default,
        publishPorts, exposed.insertionSort fun a b => a ≤ b, expiresAt⟩) :
          Daemon (Except String SpawnPlan))
      (fun out w' => ∃ prepared, out = .ok prepared ∧ ∃ plan, prepared = .ok plan ∧
        plan.Of owner challengeRef octet publishPorts exposed ∧ SameStores w w') w' := by
    intro expiresAt w' hsame
    exact ⟨_, rfl, _, rfl, ⟨rfl, rfl, rfl, rfl, List.length_insertionSort _ _⟩, hsame⟩
  unfold prepareSpawn
  refine wp_dockerClient trivial ?_ fun msg hfault => by cases hfault
  refine wp_callDocker trivial fun built hbuilt => ?_
  have hbuilt' : built.1 = true := hbuilt
  simp only [DockerOp.exec, hbuilt', if_true]
  refine wp_bind.mpr (wp_callDocker trivial fun answer hanswer => ?_)
  cases hanswer
  cases ttlSeconds with
  | none => exact hends none _ ⟨rfl, rfl⟩
  | some ttl =>
    refine wp_bind.mpr (wp_callHost trivial fun text permits => ?_)
    exact hends (some text) _ ⟨rfl, rfl⟩

/-- A container that no row has, for a key that no row has, is recorded. -/
theorem wp_recordInstance_ready {c : Container} {ip : IPv4Address}
    (hfind : w.docker.findContainer (.id c.id) = some c)
    (hid : ∀ row ∈ w.db.instances, row.containerId ≠ c.id)
    (hkey : ∀ row ∈ w.db.instances, row.key ≠ (plan.owner, plan.challengeRef)) :
    wp (daemonSem (attemptsOnly exposed)) (fun _ _ => True) (recordInstance plan c ip)
      (fun out _ => spawnFailed out = false) w := by
  refine wp_liveContainerIp fun live _ => ?_
  refine wp_containersGet trivial ?_ ?_ ?_
  · intro fresh hfresh
    obtain rfl : c = fresh := Option.some.inj (hfind.symm.trans hfresh)
    have hid' : ¬ (w.db.instances.any fun r =>
        r.containerId = (plan.row c (live.2.getD ip)).containerId) = true := by
      simpa [SpawnPlan.row] using hid
    have hkey' : ¬ (w.db.instances.any fun r => r.key = (plan.row c (live.2.getD ip)).key) = true := by
      have hrow : (plan.row c (live.2.getD ip)).key = (plan.owner, plan.challengeRef) := rfl
      simpa [hrow] using hkey
    refine wp_callDb trivial ?_
    simp only [DbOp.exec, Db.addInstance, Db.insertInstance, if_neg hid', if_neg hkey']
    exact rfl
  · intro msg hnone
    rw [hfind] at hnone
    cases hnone
  · intro msg hfault
    cases hfault

theorem callsOnly_recordInstance_beside {c : Container} {ip : IPv4Address} :
    CallsOnly besideAttempts (recordInstance plan c ip) := by
  refine CallsOnly.bind (callsOnly_liveContainerIp.mono besideAttempts_of_auxiliaryCall) fun live => ?_
  refine CallsOnly.bind (CallsOnly.perform trivial) fun reloaded => ?_
  cases reloaded with
  | error err => constructor
  | ok fresh =>
    refine CallsOnly.bind (CallsOnly.perform trivial) fun added => ?_
    cases added with
    | ok row => constructor
    | error err => exact CallsOnly.bind (CallsOnly.perform trivial) fun _ => .ret

end Parts

/-! ## The attempts -/

section Attempts

variable {env : DaemonEnv} {plan : SpawnPlan}

/-- The end of an attempt, which is the one after `n` others. -/
def AttemptEnds (rejects : Nat → ContainerSpec → Bool) (spec : ContainerSpec) (w : World) (n : Nat)
    (result : Except DockerErr Container) (w' : World) : Prop :=
  w'.db = w.db ∧
    ((rejects n spec = true ∧ ∃ err, result = .error err ∧ isResourceConflict err.msg = true) ∨
      (rejects n spec = false ∧ ∃ c, result = .ok c ∧ w'.docker.findContainer (.id c.id) = some c ∧
        c.id = w.docker.nextId))

theorem createContainer_ok {d d' : Docker} {spec : ContainerSpec} {id : ContainerId}
    (h : d.createContainer spec = (.ok id, d')) :
    id = d.nextId ∧ d' = d.with_ ⟨d.nextId, spec, .created, none, none⟩ := by
  unfold Docker.createContainer at h
  split at h
  · cases h
  · cases h
    exact ⟨rfl, rfl⟩

/-- **One attempt**: it comes up, or is rejected with a conflict, as Docker decides. -/
theorem wp_startContainer_retry {spec : ContainerSpec} (h : w.docker.WellFormed) :
    wp (retrySem rejects exposed) (fun _ _ => True) (startContainer spec)
      (fun out s => ∃ result, out = .ok result ∧ AttemptEnds rejects spec w n result s.1 ∧
        s.2 = n + 1) (w, n) := by
  refine ⟨trivial, ?_⟩
  intro created s₁ hcreate
  cases hcreate with
  | createRejected hrejected hconflict =>
    exact ⟨_, rfl, ⟨rfl, Or.inl ⟨hrejected, _, rfl, hconflict⟩⟩, rfl⟩
  | other hbeside _ => exact hbeside.elim
  | created hcreated =>
    obtain ⟨rfl, rfl⟩ := createContainer_ok hcreated
    have hfound := h.findContainer_with (c := ⟨w.docker.nextId, spec, .created, none, none⟩) rfl
    refine ⟨trivial, ?_⟩
    intro started s₂ hstart
    cases hstart with
    | other hbeside _ => exact hbeside.elim
    | startRejected hfind hrejected hconflict =>
      obtain rfl := Option.some.inj (hfound.symm.trans hfind)
      exact ⟨_, rfl, ⟨rfl, Or.inl ⟨hrejected, _, rfl, hconflict⟩⟩, rfl⟩
    | started hfind haccepted hstarted =>
      obtain rfl := Option.some.inj (hfound.symm.trans hfind)
      rcases h.start_with spec with ⟨err, hfailed⟩ | ⟨net, hrunning⟩
      · rw [hfailed] at hstarted
        cases hstarted
      · rw [hrunning] at hstarted
        cases hstarted
        have hfinal := h.findContainer_with
          (c := ⟨w.docker.nextId, spec, .running, some net, some spec.ipv4Address⟩) rfl
        refine ⟨trivial, ?_⟩
        intro found s₃ hget
        cases hget with
        | other _ hsem =>
          obtain ⟨fault, hfault, hexec⟩ := hsem
          cases hfault
          simp only [daemonMachine, DaemonOp.exec, DockerOp.exec, failing, Docker.containersGet,
            hfinal] at hexec
          cases hexec
          exact ⟨_, rfl, ⟨rfl, Or.inr ⟨haccepted, _, rfl, hfinal, rfl⟩⟩, rfl⟩

theorem wp_findNextOwnerIp_ready {ip : IPv4Address}
    (hnext : w.db.nextOwnerIp plan.owner plan.octet = .ok ip) :
    wp (daemonSem (attemptsOnly exposed)) (fun _ _ => True) (findNextOwnerIp plan.owner plan.octet)
      (fun out w' => ∃ value, out = .ok value ∧ value = ip ∧ w' = w) w := by
  apply wp_of_bind_ret
  apply wp_findNextOwnerIp
  · intro value hvalue
    rw [hnext] at hvalue
    cases hvalue
    exact ⟨ip, rfl, rfl, rfl⟩
  · intro err herror
    rw [hnext] at herror
    cases herror

/-- The next address does not depend on what was tried: once it was rejected, no attempt follows. -/
theorem wp_spawnAttempts_tried {ip : IPv4Address} {rounds : Nat} {triedIps : List IPv4Address}
    {triedPorts : List Nat} {lastError : String}
    (hnext : w.db.nextOwnerIp plan.owner plan.octet = .ok ip) (htried : ip ∈ triedIps) :
    wp (retrySem rejects exposed) (fun _ _ => True)
      (spawnAttempts env plan rounds triedIps triedPorts lastError)
      (fun out _ => out = .ok (.exhausted lastError)) (w, n) := by
  induction rounds with
  | zero => exact rfl
  | succ rounds ih =>
    rw [spawnAttempts]
    apply wp_beside_bind (callsOnly_findNextOwnerIp.mono besideAttempts_of_allocationRead)
      (wp_findNextOwnerIp_ready hnext)
    rintro value w' ⟨rfl, rfl⟩
    rw [if_pos htried]
    exact ih

theorem wp_forceRemoveByName_ready {name : String} :
    wp (daemonSem (attemptsOnly exposed)) (fun _ _ => True) (forceRemoveByName name)
      (fun out w' => ∃ value, out = .ok value ∧ w'.db = w.db) w := by
  refine wp_containersGet trivial ?_ (fun _ _ => ⟨(), rfl, rfl⟩) fun _ _ => ⟨(), rfl, rfl⟩
  intro c _
  exact wp_callDocker trivial fun _ _ => ⟨(), rfl, rfl⟩

/-- What the attempts come to: a container, exactly when the first of them is accepted. -/
def AttemptsEnd (rejects : Nat → ContainerSpec → Bool) (spec : ContainerSpec) (w : World)
    (out : Except PyErr AttemptsOutcome) (w' : World) : Prop :=
  (rejects 0 spec = true ∧ ∃ lastError, out = .ok (.exhausted lastError)) ∨
    (rejects 0 spec = false ∧ ∃ c ip, out = .ok (.started c ip) ∧ w'.db = w.db ∧
      w'.docker.findContainer (.id c.id) = some c ∧ c.id = w.docker.nextId)

/-- **The retry loop.** -/
theorem wp_spawnAttempts_retry {ip : IPv4Address} {portMap : Option (List (String × Nat))}
    {rounds : Nat} {lastError : String} (h : w.docker.WellFormed)
    (hnext : w.db.nextOwnerIp plan.owner plan.octet = .ok ip)
    (hports : w.db.nextPorts env plan [] = .ok portMap) :
    wp (retrySem rejects exposed) (fun _ _ => True)
      (spawnAttempts env plan (rounds + 1) [] [] lastError)
      (fun out s => AttemptsEnd rejects (plan.spec ip portMap) w out s.1) (w, 0) := by
  rw [spawnAttempts]
  apply wp_beside_bind (callsOnly_findNextOwnerIp.mono besideAttempts_of_allocationRead)
    (wp_findNextOwnerIp_ready hnext)
  rintro value w' ⟨rfl, rfl⟩
  rw [if_neg List.not_mem_nil]
  have hattemptPorts : wp (daemonSem (attemptsOnly exposed)) (fun _ _ => True)
      (attemptPorts env plan []) (fun out w₁ => ∃ answer, out = .ok answer ∧
        answer = .ok portMap ∧ w₁ = w') w' :=
    wp_of_bind_ret (wp_attemptPorts ⟨_, rfl, hports, rfl⟩)
  apply wp_beside_bind (callsOnly_attemptPorts.mono besideAttempts_of_allocationRead) hattemptPorts
  rintro answer w₁ ⟨rfl, rfl⟩
  apply wp_bind.mpr
  apply wp_mono (wp_startContainer_retry h)
  rintro out ⟨w₂, attempts⟩ ⟨result, rfl, ⟨hdb, hend⟩, hattempts⟩
  rcases hend with ⟨hrejected, err, rfl, hconflict⟩ | ⟨haccepted, c, rfl, hfind, hid⟩
  · obtain rfl : attempts = 1 := hattempts
    apply wp_beside_bind (R := fun _ w₃ => w₃.db = w₂.db)
      (callsOnly_forceRemoveByName.mono besideAttempts_of_auxiliaryCall) wp_forceRemoveByName_ready
    intro _ w₃ hdb₃
    rw [if_pos hconflict]
    have hnext₃ : w₃.db.nextOwnerIp plan.owner plan.octet = .ok value := by
      rw [hdb₃.trans hdb]
      exact hnext
    apply wp_mono (wp_spawnAttempts_tried hnext₃ (by simp))
    rintro _ _ rfl
    exact Or.inl ⟨hrejected, _, rfl⟩
  · exact Or.inr ⟨haccepted, c, value, rfl, hdb, hfind, hid⟩

end Attempts

/-! ## Whole spawns -/

section Spawns

variable {env : DaemonEnv} {owner : Owner} {challengeRef buildPath : String}
  {security : Option SecurityProfile} {ttlSeconds : Option Int} {publishPorts : Bool}
  {octet : Octet} {plan : SpawnPlan}

/-- What a spawn needs beside an accepted attempt: a network, and free host ports when it publishes.
    Docker never gives a container the id of an older one. -/
structure SpawnPossible (env : DaemonEnv) (owner : Owner) (octet : Octet) (publishPorts : Bool)
    (exposed : List String) (w : World) : Prop where
  docker : w.docker.WellFormed
  ids : ∀ row ∈ w.db.instances, row.containerId < w.docker.nextId
  network : NetworkReady owner octet w
  ports : publishPorts = true → exposed.length ≤ {port | w.db.FreePort env [] port}.ncard

/-- A host of the owner's subnet that is not the gateway and that no running instance of the owner
    has. -/
def Db.FreeHost (db : Db) (owner : Owner) (octet : Octet) (ip : IPv4Address) : Prop :=
  ip ∈ (ownerSubnet octet).hosts ∧ ip ≠ ownerGatewayIp octet ∧
    ∀ row ∈ db.instances, row.owner = owner → row.status = .running → row.assignedIp ≠ some ip

theorem nextOwnerIp_of_freeHost {db : Db} {ip : IPv4Address} (h : db.FreeHost owner octet ip) :
    ∃ first, db.nextOwnerIp owner octet = .ok first := by
  obtain ⟨hhost, hgateway, hfree⟩ := h
  unfold Db.nextOwnerIp iterSubnetHosts
  cases hfind : (ownerSubnet octet).hosts.find? _ with
  | some first => exact ⟨first, rfl⟩
  | none =>
    have hblocked := List.find?_eq_none.mp hfind ip hhost
    simp only [Db.getUsedInstanceIps, Bool.not_eq_true', Bool.not_eq_false, List.contains_eq_mem,
      decide_eq_true_eq, List.mem_append, List.mem_map, List.mem_filter, Bool.decide_and,
      Bool.and_eq_true, List.mem_singleton, Option.some.injEq] at hblocked
    rcases hblocked with ⟨row, ⟨hrow, howner, hrunning⟩, hip⟩ | hip
    · exact absurd hip (hfree row hrow howner hrunning)
    · exact absurd hip hgateway

theorem nextPorts_of_enough {db : Db} (hplan : plan.Of owner challengeRef octet publishPorts exposed)
    (h : publishPorts = true → exposed.length ≤ {port | db.FreePort env [] port}.ncard) :
    ∃ portMap, db.nextPorts env plan [] = .ok portMap := by
  obtain ⟨-, -, -, rfl, hlength⟩ := hplan
  unfold Db.nextPorts
  by_cases hpublish : (plan.publishPorts && !plan.exposedPorts.isEmpty) = true
  · rw [if_pos hpublish]
    obtain ⟨hpublishes, hexposed⟩ := Bool.and_eq_true_iff.mp hpublish
    have hcount : 0 < plan.exposedPorts.length :=
      List.length_pos_iff.mpr (by simpa using hexposed)
    cases hfree : db.freePorts env plan.exposedPorts.length [] with
    | ok hostPorts => exact ⟨_, rfl⟩
    | error msg =>
      have hshort := (freePorts_error_iff hcount).mp ⟨msg, hfree⟩
      have henough := h hpublishes
      omega
  · rw [if_neg hpublish]
    exact ⟨none, rfl⟩

/-- **A spawn**, up to what Docker says to its first attempt. -/
theorem wp_spawnInstance_retry {first : IPv4Address} {rejected : Bool}
    (h : SpawnPossible env owner octet publishPorts exposed w)
    (hnew : w.db.findInstance owner challengeRef = none)
    (hnext : w.db.nextOwnerIp owner octet = .ok first)
    (hfirst : ∀ spec : ContainerSpec, spec.ipv4Address = first → rejects 0 spec = rejected) :
    wp (retrySem rejects exposed) (fun _ _ => True)
      (spawnInstance env owner challengeRef buildPath security ttlSeconds publishPorts)
      (fun out _ => spawnFailed out = rejected) (w, 0) := by
  have hlookup : wp (daemonSem (attemptsOnly exposed)) (fun _ _ => True)
      (callDb (.findInstance owner challengeRef))
      (fun out w' => ∃ value, out = .ok value ∧ value = none ∧ w' = w) w :=
    wp_callDb (f := .ret) trivial ⟨_, rfl, hnew, rfl⟩
  refine wp_beside_bind (CallsOnly.perform trivial) hlookup ?_
  rintro _ w' ⟨rfl, rfl⟩
  have hdockerfile : wp (daemonSem (attemptsOnly exposed)) (fun _ _ => True)
      (callHost (.isDockerfile buildPath))
      (fun out w₁ => ∃ value, out = .ok value ∧ value = true ∧ SameStores w' w₁) w' := by
    refine ⟨trivial, ?_⟩
    rintro answer w₁ ⟨choice, hchoice, hexec⟩
    cases hchoice
    cases hexec
    exact ⟨true, rfl, rfl, rfl, rfl⟩
  refine wp_beside_bind (CallsOnly.perform trivial) hdockerfile ?_
  rintro _ w₁ ⟨rfl, hdb₁, hdocker₁⟩
  have hready : NetworkReady owner octet w₁ := by
    constructor
    · rw [hdb₁]
      exact h.network.planned
    · rw [hdocker₁]
      exact h.network.routed
  have hensure : wp (daemonSem (attemptsOnly exposed)) (fun _ _ => True) (ensureOwnerNetwork owner)
      (fun out w₂ => ∃ value, out = .ok value ∧ value = octet ∧ SameInstances w₁ w₂ ∧
        w₂.docker.WellFormed) w₁ := by
    apply wp_mono (wp_and (wp_ensureOwnerNetwork_ready hready)
      (wp_dockerWellFormed (hdocker₁ ▸ h.docker)))
    rintro out w₂ ⟨⟨value, rfl, rfl, hsame⟩, hdocker₂⟩
    exact ⟨value, rfl, rfl, hsame, hdocker₂⟩
  refine wp_beside_bind (callsOnly_ensureOwnerNetwork.mono besideAttempts_of_networkCall) hensure ?_
  rintro _ w₂ ⟨rfl, hsame, hdocker₂⟩
  rw [spawnOn_eq]
  apply wp_beside_bind (callsOnly_prepareSpawn.mono besideAttempts_of_readingCall)
    wp_prepareSpawn_ready
  rintro _ w₃ ⟨plan, rfl, hplan, hdb₃, hdocker₃⟩
  have hinstances : w₃.db.instances = w'.db.instances := by
    rw [hdb₃, hsame.instances, hdb₁]
  obtain ⟨howner, href, hoctet, -, -⟩ := id hplan
  have hnext₃ : w₃.db.nextOwnerIp plan.owner plan.octet = .ok first := by
    rw [howner, hoctet]
    simp only [Db.nextOwnerIp, Db.getUsedInstanceIps, hinstances]
    exact hnext
  obtain ⟨portMap, hports⟩ := nextPorts_of_enough hplan h.ports
  have hports₃ : w₃.db.nextPorts env plan [] = .ok portMap := by
    simp only [Db.nextPorts, Db.freePorts, Db.usedPorts, hinstances]
    exact hports
  apply wp_bind.mpr
  apply wp_mono (wp_spawnAttempts_retry (hdocker₃ ▸ hdocker₂) hnext₃ hports₃)
  have hspec : rejects 0 (plan.spec first portMap) = rejected := hfirst _ rfl
  rintro out ⟨w₄, attempts⟩ hend
  rcases hend with ⟨hrejected, lastError, rfl⟩ | ⟨haccepted, c, ip, rfl, hdb₄, hfind, hid⟩
  · rw [← hspec, hrejected]
    exact rfl
  · rw [← hspec, haccepted]
    have hinstances₄ : w₄.db.instances = w'.db.instances := by rw [hdb₄, hinstances]
    have hle : w'.docker.nextId ≤ w₃.docker.nextId := by
      rw [hdocker₃, ← hdocker₁]
      exact hsame.nextId_le
    apply wp_mono (wp_beside callsOnly_recordInstance_beside (wp_recordInstance_ready hfind ?_ ?_))
    · rintro out s ⟨hsucceeds, -⟩
      exact hsucceeds
    · intro row hrow hrowId
      rw [hinstances₄] at hrow
      have hlt := h.ids row hrow
      rw [hrowId, hid] at hlt
      exact Nat.not_lt.mpr hle hlt
    · intro row hrow
      rw [hinstances₄] at hrow
      rw [howner, href]
      exact Db.findInstance_eq_none_iff.mp hnew row hrow

/-- A spawn of a tracked instance makes no attempt. -/
theorem wp_spawnInstance_tracked {row : Instance}
    (hfind : w.db.findInstance owner challengeRef = some row) :
    wp (retrySem rejects exposed) (fun _ _ => True)
      (spawnInstance env owner challengeRef buildPath security ttlSeconds publishPorts)
      (fun out _ => spawnFailed out = false) (w, n) := by
  have hlookup : wp (daemonSem (attemptsOnly exposed)) (fun _ _ => True)
      (callDb (.findInstance owner challengeRef))
      (fun out _ => ∃ value, out = .ok value ∧ value = some row) w :=
    wp_callDb (f := .ret) trivial ⟨_, rfl, hfind⟩
  refine wp_beside_bind (CallsOnly.perform trivial) hlookup ?_
  rintro _ w' rfl
  exact rfl

theorem spawnSucceeds_iff {first : IPv4Address} {rejected : Bool} {out : Except PyErr SpawnResult}
    {s : World × Nat} (h : SpawnPossible env owner octet publishPorts exposed w)
    (hnext : w.db.nextOwnerIp owner octet = .ok first)
    (hfirst : ∀ spec : ContainerSpec, spec.ipv4Address = first → rejects 0 spec = rejected)
    (hends : Ends (retrySem rejects exposed)
      (spawnInstance env owner challengeRef buildPath security ttlSeconds publishPorts) (w, 0) out s) :
    spawnFailed out = false ↔
      (w.db.findInstance owner challengeRef).isSome = true ∨ rejected = false := by
  cases hfind : w.db.findInstance owner challengeRef with
  | some row =>
    have hsucceeds := hends.of_wp (wp_spawnInstance_tracked hfind)
    simp [hsucceeds]
  | none =>
    have hfails := hends.of_wp (wp_spawnInstance_retry h hfind hnext hfirst)
    simp [hfails]

/-! ## The two kinds of conflicts -/

/-- Docker rejects the attempts at these addresses. -/
def addressConflicts (addresses : List IPv4Address) (_ : Nat) (spec : ContainerSpec) : Bool :=
  addresses.contains spec.ipv4Address

/-- Docker rejects these attempts, by their number. -/
def portConflicts (conflicts : Nat → Bool) (n : Nat) (_ : ContainerSpec) : Bool := conflicts n

/-- **When the retries help.**  With rejected addresses, a spawn that could succeed does so exactly if the
    first free host is not one of them; with rejected host ports, exactly if the first attempt is not
    rejected. -/
theorem spawnInstance_retry_iff (h : SpawnPossible env owner octet publishPorts exposed w) :
    (∀ (addresses : List IPv4Address) out s,
      (∃ ip, w.db.FreeHost owner octet ip ∧ ip ∉ addresses) →
      Ends (retrySem (addressConflicts addresses) exposed)
        (spawnInstance env owner challengeRef buildPath security ttlSeconds publishPorts)
        (w, 0) out s →
      (spawnFailed out = false ↔ (w.db.findInstance owner challengeRef).isSome = true ∨
        ∀ first, w.db.nextOwnerIp owner octet = .ok first → first ∉ addresses)) ∧
    ∀ (conflicts : Nat → Bool) out s, (∃ ip, w.db.FreeHost owner octet ip) →
      Ends (retrySem (portConflicts conflicts) exposed)
        (spawnInstance env owner challengeRef buildPath security ttlSeconds publishPorts)
        (w, 0) out s →
      (spawnFailed out = false ↔ (w.db.findInstance owner challengeRef).isSome = true ∨
        conflicts 0 = false) := by
  constructor
  · rintro addresses out s ⟨ip, hfree, -⟩ hends
    obtain ⟨first, hnext⟩ := nextOwnerIp_of_freeHost hfree
    have hfirst : ∀ spec : ContainerSpec, spec.ipv4Address = first →
        addressConflicts addresses 0 spec = addresses.contains first := by
      rintro spec rfl
      rfl
    rw [spawnSucceeds_iff h hnext hfirst hends]
    simp [hnext]
  · rintro conflicts out s ⟨ip, hfree⟩ hends
    obtain ⟨first, hnext⟩ := nextOwnerIp_of_freeHost hfree
    exact spawnSucceeds_iff h hnext (fun _ _ => rfl) hends

end Spawns

/-! ## Two spawns -/

/-- A Docker that rejects at the creation; everything else is uneventful. -/
def retryMachine (rejects : Nat → ContainerSpec → Bool) : Machine daemonEffect (World × Nat) where
  Choice := fun _ => Unit
  exec := fun (w, n) op _ => match op with
    | .docker (.createContainer spec) =>
      if rejects n spec then some (.error (.apiError "Address already in use"), (w, n + 1))
      else match w.docker.createContainer spec with
        | (.ok id, docker) => some (.ok id, ({ w with docker := docker }, n + 1))
        | (.error _, _) => none
    | .docker (.start id) => match n, w.docker.findContainer (.id id), w.docker.start id with
      | n + 1, some c, (.ok (), docker) =>
        if rejects n c.spec then none else some (.ok (), ({ w with docker := docker }, n + 1))
      | _, _, _ => none
    | op => (op.exec w (quietChoice op)).map fun answer => (answer.1, (answer.2, n))

theorem isResourceConflict_addressInUse : isResourceConflict "Address already in use" = true := by
  unfold isResourceConflict
  decide +kernel

theorem attemptsOnly_quietChoice (op : DaemonOp) : attemptsOnly ["8080/tcp"] op (quietChoice op) := by
  have hquiet := noFault_quietChoice op
  cases op with
  | docker op => cases op <;> first | exact hquiet | rfl
  | host op => cases op <;> first | exact hquiet | rfl
  | db op | filter op | wg op => exact hquiet

theorem retryStep_beside {op : DaemonOp} {res : op.Res} {s' : World × Nat}
    (hbeside : besideAttempts op)
    (h : ((op.exec w (quietChoice op)).map fun answer => (answer.1, (answer.2, n))) =
      some (res, s')) :
    retrySem rejects ["8080/tcp"] (w, n) op res s' := by
  obtain ⟨answer, hexec, hanswer⟩ := Option.map_eq_some_iff.mp h
  cases hanswer
  exact .other hbeside ⟨quietChoice op, attemptsOnly_quietChoice op, hexec⟩

theorem retryStep_of_exec {s s' : World × Nat} {op : DaemonOp} {choice : Unit} {res : op.Res}
    (h : (retryMachine rejects).exec s op choice = some (res, s')) :
    retrySem rejects ["8080/tcp"] s op res s' := by
  obtain ⟨w, n⟩ := s
  cases op with
  | docker op =>
    cases op with
    | createContainer spec =>
      simp only [retryMachine] at h
      split at h
      · rename_i hrejected
        cases h
        exact .createRejected hrejected isResourceConflict_addressInUse
      · split at h
        · rename_i id docker hcreated
          cases h
          exact .created hcreated
        · cases h
    | start id =>
      simp only [retryMachine] at h
      split at h
      · rename_i n c docker hfind hstarted
        split at h
        · cases h
        · rename_i haccepted
          cases h
          exact .started hfind (Bool.not_eq_true _ ▸ haccepted) hstarted
      · cases h
    | _ => exact retryStep_beside trivial h
  | db op | filter op | wg op | host op => exact retryStep_beside trivial h

theorem ends_of_retryMachine {p : Daemon α} {trace : List (World × Nat)} {out : Except PyErr α}
    {s' : World × Nat} (h : (retryMachine rejects).run (fun _ => ()) p (w, 0) = some (trace, out, s')) :
    Ends (retrySem rejects ["8080/tcp"]) p (w, 0) out s' := by
  have hruns : Runs ((retryMachine rejects).answers fun _ _ => True) p (w, 0) trace out s' :=
    Machine.runs_of_run (fun _ => trivial) h
  refine ⟨trace, hruns.mono ?_⟩
  rintro s op res s' ⟨choice, -, hexec⟩
  exact retryStep_of_exec hexec

/-- The first spawn of a team on a fresh host, with these addresses rejected. -/
def spawnAvoiding (addresses : List IPv4Address) :
    Option (List (World × Nat) × Except PyErr SpawnResult × (World × Nat)) :=
  (retryMachine (addressConflicts addresses)).run (fun _ => ())
    (spawnInstance DaemonEnv.default ⟨"team", 1⟩ "web" "/challenges/web" none none false)
    (freshHost, 0)

theorem freshHost_spawnPossible :
    SpawnPossible DaemonEnv.default ⟨"team", 1⟩ ⟨1, by decide⟩ false ["8080/tcp"] freshHost where
  docker := freshHost_installed.wellFormed.docker
  ids := fun _ h => by cases h
  network := ⟨by decide +kernel, fun _ h => by cases h⟩
  ports := fun h => by cases h

theorem freshHost_nextOwnerIp :
    freshHost.db.nextOwnerIp ⟨"team", 1⟩ ⟨1, by decide⟩ = .ok (dotted 10 9 1 2) := by
  rfl

theorem freshHost_freeHost {ip : IPv4Address} (hhost : ip ∈ (ownerSubnet ⟨1, by decide⟩).hosts)
    (hgateway : ip ≠ ownerGatewayIp ⟨1, by decide⟩) :
    freshHost.db.FreeHost ⟨"team", 1⟩ ⟨1, by decide⟩ ip :=
  ⟨hhost, hgateway, fun _ h => by cases h⟩

theorem spawnAvoiding_second_ends : (spawnAvoiding [dotted 10 9 1 3]).isSome = true := by
  decide +kernel

/-- The second host is rejected. -/
theorem spawnInstance_retry_iff_second : ∃ out s,
    Ends (retrySem (addressConflicts [dotted 10 9 1 3]) ["8080/tcp"])
      (spawnInstance DaemonEnv.default ⟨"team", 1⟩ "web" "/challenges/web" none none false)
      (freshHost, 0) out s ∧ spawnFailed out = false := by
  obtain ⟨⟨trace, out, s⟩, hrun⟩ := Option.isSome_iff_exists.mp spawnAvoiding_second_ends
  have hends := ends_of_retryMachine hrun
  refine ⟨out, s, hends, ?_⟩
  apply ((spawnInstance_retry_iff freshHost_spawnPossible).1 _ out s ?_ hends).mpr
  · refine Or.inr fun first hfirst => ?_
    rw [freshHost_nextOwnerIp] at hfirst
    cases hfirst
    decide
  · exact ⟨dotted 10 9 1 2, freshHost_freeHost (by decide +kernel) (by decide +kernel), by decide⟩

theorem spawnAvoiding_first_fails :
    (spawnAvoiding [dotted 10 9 1 2]).any (fun run => spawnFailed run.2.1) = true := by
  decide +kernel

/-- One rejected address, the first free host, is enough for the spawn to fail. -/
theorem not_spawnInstance_retry : ¬ ∀ (env : DaemonEnv) (owner : Owner)
    (challengeRef buildPath : String) (publishPorts : Bool) (exposed : List String) (octet : Octet)
    (w : World) (addresses : List IPv4Address) out s,
    SpawnPossible env owner octet publishPorts exposed w → addresses.length ≤ 7 →
    (∃ ip, w.db.FreeHost owner octet ip ∧ ip ∉ addresses) →
    Ends (retrySem (addressConflicts addresses) exposed)
      (spawnInstance env owner challengeRef buildPath none none publishPorts) (w, 0) out s →
    spawnFailed out = false := by
  intro hall
  obtain ⟨⟨trace, out, s⟩, hrun, hfails⟩ := (Option.any_eq_true _ _).mp spawnAvoiding_first_fails
  have hsucceeds := hall DaemonEnv.default ⟨"team", 1⟩ "web" "/challenges/web" false ["8080/tcp"] _
    freshHost [dotted 10 9 1 2] out s freshHost_spawnPossible (by decide)
    ⟨dotted 10 9 1 3, freshHost_freeHost (by decide +kernel) (by decide +kernel), by decide⟩
    (ends_of_retryMachine hrun)
  rw [hsucceeds] at hfails
  cases hfails

end EdoPlugin
