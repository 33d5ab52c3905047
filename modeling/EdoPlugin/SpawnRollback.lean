import EdoPlugin.SpawnOutcome

/-!
# What a failed spawn undoes

`spawn_instance` removes the container of a failed attempt, and nothing else that it did: a new
octet and a new network stay, and so does a container whose row could not be written because it
could not be read back.  The cleanup finds its container by name, so it also takes one that was
there before.
-/

namespace EdoPlugin

open Interaction

/-- The cleanup calls themselves succeed; every other call may fail. -/
def cleanupWorks : Policy
  | .docker (.containersGet (.name _)), fault => fault = none
  | .docker (.remove _), fault => fault = none
  | _, _ => True

/-- The tables and Docker are the same. -/
structure SameStores (w w' : World) : Prop where
  db : w'.db = w.db
  docker : w'.docker = w.docker

theorem SameStores.trans {w w₁ w₂ : World} (h : SameStores w w₁) (h' : SameStores w₁ w₂) :
    SameStores w w₂ :=
  ⟨h'.db.trans h.db, h'.docker.trans h.docker⟩

/-- The instances and octets are the same, and so are the sets of containers and networks. -/
structure Unchanged (w w' : World) : Prop where
  instances : w'.db.instances = w.db.instances
  ownerOctets : w'.db.ownerOctets = w.db.ownerOctets
  containers : ∀ c, c ∈ w'.docker.containers ↔ c ∈ w.docker.containers
  networks : ∀ net, net ∈ w'.docker.networks ↔ net ∈ w.docker.networks

/-! ## The parts of a spawn -/

section Parts

variable (env : DaemonEnv) (owner : Owner) (challengeRef buildPath : String)
  (security : Option SecurityProfile) (ttlSeconds : Option Int) (publishPorts : Bool)

/-- `spawn_instance` between the network and the first attempt. -/
def prepareSpawn (octet : Octet) : Daemon (Except String SpawnPlan) := do
  dockerClient
  let built ← callDocker (.buildImage (imageTagFor challengeRef) buildPath)
  if built.1 then
    let exposedPorts ← detectExposedPorts (imageTagFor challengeRef)
    let expiresAt ← isoExpiry ttlSeconds
    return .ok ⟨owner, challengeRef, octet, security.getD SecurityProfile.default, publishPorts,
      exposedPorts, expiresAt⟩
  else
    return .error built.2

/-- `spawn_instance` from its first attempt on. -/
def attemptAndRecord (plan : SpawnPlan) : Daemon SpawnResult := do
  let outcome ← spawnAttempts env plan 8 [] [] ""
  match outcome with
  | .started container ip => recordInstance plan container ip
  | .failed error => return .failure error
  | .exhausted lastError => return .failure s!"could not allocate a free IP: {lastError}"

theorem spawnOn_eq (octet : Octet) :
    spawnOn env owner challengeRef buildPath security ttlSeconds publishPorts octet =
      prepareSpawn owner challengeRef buildPath security ttlSeconds publishPorts octet >>=
        fun prepared => match prepared with
          | .ok plan => attemptAndRecord env plan
          | .error error => return .failure error := by
  unfold spawnOn prepareSpawn attemptAndRecord
  simp only [Prog.bind_eq, Prog.bind_assoc]
  congr 1
  funext _
  congr 1
  funext built
  split
  · rw [Prog.bind_assoc]
    congr 1
    funext exposedPorts
    rw [Prog.bind_assoc]
    rfl
  · rfl

/-! ## Where it can fail -/

inductive FailurePoint where
  /-- There is no Dockerfile. -/
  | dockerfile
  /-- No octet is left. -/
  | octet
  /-- The network is not routed, or could not be looked up or created. -/
  | network
  /-- Docker is away, the build fails, or no address or port is left for a first attempt. -/
  | preparation
  /-- No attempt brings a container up. -/
  | attempts
  /-- The container that came up cannot be read back. -/
  | reload
  /-- The row cannot be added. -/
  | record
deriving DecidableEq, Repr

/-- There is an address and there are ports for a first attempt. -/
def CanAttempt (db : Db) (plan : SpawnPlan) : Prop :=
  (∃ ip, db.nextOwnerIp plan.owner plan.octet = .ok ip) ∧
    ∃ portMap, db.nextPorts env plan [] = .ok portMap

/-- The spawn has got its network. -/
def NetworkGiven (policy : Policy) (w : World) (octet : Octet) (w' : World) : Prop :=
  ∃ w₁, Ends (daemonSem policy) (callHost (.isDockerfile buildPath)) w (.ok true) w₁ ∧
    Ends (daemonSem policy) (ensureOwnerNetwork owner) w₁ (.ok octet) w'

/-- The spawn is ready for its attempts. -/
def Prepared (policy : Policy) (w : World) (plan : SpawnPlan) (w' : World) : Prop :=
  ∃ octet w₁, NetworkGiven owner buildPath policy w octet w₁ ∧
    Ends (daemonSem policy)
      (prepareSpawn owner challengeRef buildPath security ttlSeconds publishPorts octet) w₁
      (.ok (.ok plan)) w'

/-- The container of an attempt came up. -/
def isStarted : Except PyErr AttemptsOutcome → Bool
  | .ok (.started _ _) => true
  | .ok (.failed _) | .ok (.exhausted _) | .error _ => false

/-- The spawn fails at this point, and leaves the world `w'`. -/
inductive SpawnFails (policy : Policy) (w : World) : FailurePoint → World → Prop
  | dockerfile {w'} :
      Ends (daemonSem policy) (callHost (.isDockerfile buildPath)) w (.ok false) w' →
      SpawnFails policy w .dockerfile w'
  | octet {w₁ w' err err'} :
      Ends (daemonSem policy) (callHost (.isDockerfile buildPath)) w (.ok true) w₁ →
      (w₁.db.allocateOctet owner).1 = .error err →
      Ends (daemonSem policy) (ensureOwnerNetwork owner) w₁ (.error err') w' →
      SpawnFails policy w .octet w'
  | network {w₁ w' octet err} :
      Ends (daemonSem policy) (callHost (.isDockerfile buildPath)) w (.ok true) w₁ →
      (w₁.db.allocateOctet owner).1 = .ok octet →
      Ends (daemonSem policy) (ensureOwnerNetwork owner) w₁ (.error err) w' →
      SpawnFails policy w .network w'
  | preparation {w₁ w' octet out} : NetworkGiven owner buildPath policy w octet w₁ →
      Ends (daemonSem policy)
        (prepareSpawn owner challengeRef buildPath security ttlSeconds publishPorts octet) w₁ out w' →
      (∀ plan, out ≠ .ok (.ok plan)) → SpawnFails policy w .preparation w'
  | noAttempt {w₁ w' plan out} :
      Prepared owner challengeRef buildPath security ttlSeconds publishPorts policy w plan w₁ →
      ¬ CanAttempt env w₁.db plan →
      Ends (daemonSem policy) (spawnAttempts env plan 8 [] [] "") w₁ out w' →
      SpawnFails policy w .preparation w'
  | attempts {w₁ w' plan out} :
      Prepared owner challengeRef buildPath security ttlSeconds publishPorts policy w plan w₁ →
      CanAttempt env w₁.db plan →
      Ends (daemonSem policy) (spawnAttempts env plan 8 [] [] "") w₁ out w' →
      isStarted out = false → SpawnFails policy w .attempts w'
  | reload {w₁ w₂ w' plan c ip err} :
      Prepared owner challengeRef buildPath security ttlSeconds publishPorts policy w plan w₁ →
      Ends (daemonSem policy) (spawnAttempts env plan 8 [] [] "") w₁ (.ok (.started c ip)) w₂ →
      Ends (daemonSem policy) (recordInstance plan c ip) w₂ (.error err) w' →
      SpawnFails policy w .reload w'
  | record {w₁ w₂ w' plan c ip result} :
      Prepared owner challengeRef buildPath security ttlSeconds publishPorts policy w plan w₁ →
      Ends (daemonSem policy) (spawnAttempts env plan 8 [] [] "") w₁ (.ok (.started c ip)) w₂ →
      Ends (daemonSem policy) (recordInstance plan c ip) w₂ (.ok result) w' →
      result.success = false → SpawnFails policy w .record w'

/-- The call did not succeed. -/
def spawnFailed : Except PyErr SpawnResult → Bool
  | .ok result => !result.success
  | .error _ => true

/-- **Every failure is at one of the points.** -/
theorem spawnFails_of_ends {policy : Policy} {w w' : World} {out : Except PyErr SpawnResult}
    (hends : Ends (daemonSem policy)
      (spawnInstance env owner challengeRef buildPath security ttlSeconds publishPorts) w out w')
    (hfailed : spawnFailed out = true) :
    ∃ point, SpawnFails env owner challengeRef buildPath security ttlSeconds publishPorts policy w
      point w' := by
  have hafter := Ends.of_callDb hends
  cases hfind : (DbOp.exec w.db (.findInstance owner challengeRef)).1 with
  | some row =>
    rw [hfind] at hafter
    obtain ⟨rfl, -⟩ := Ends.of_ret hafter
    cases hfailed
  | none =>
    rw [hfind] at hafter
    obtain ⟨hasDockerfile, w₁, hsem, hends⟩ := Ends.of_perform hafter
    cases hasDockerfile with
    | false =>
      obtain ⟨-, rfl⟩ := Ends.of_ret hends
      exact ⟨_, .dockerfile (.perform hsem)⟩
    | true =>
      have hdockerfile : Ends (daemonSem policy) (callHost (.isDockerfile buildPath)) w (.ok true)
          w₁ := .perform hsem
      rcases Ends.of_bind hends with ⟨err, -, hensure⟩ | ⟨octet, w₂, hensure, hends⟩
      · cases hallocated : (w₁.db.allocateOctet owner).1 with
        | error err => exact ⟨_, .octet hdockerfile hallocated hensure⟩
        | ok octet => exact ⟨_, .network hdockerfile hallocated hensure⟩
      · have hgiven : NetworkGiven owner buildPath policy w octet w₂ := ⟨w₁, hdockerfile, hensure⟩
        rw [spawnOn_eq] at hends
        rcases Ends.of_bind hends with ⟨err, -, hprepare⟩ | ⟨prepared, w₃, hprepare, hends⟩
        · exact ⟨_, .preparation hgiven hprepare fun _ h => nomatch h⟩
        · cases prepared with
          | error error =>
            obtain ⟨-, rfl⟩ := Ends.of_ret hends
            exact ⟨_, .preparation hgiven hprepare fun _ h => nomatch h⟩
          | ok plan =>
            have hprepared : Prepared owner challengeRef buildPath security ttlSeconds publishPorts
                policy w plan w₃ := ⟨octet, w₂, hgiven, hprepare⟩
            have hattempts : ∀ {out' : Except PyErr AttemptsOutcome},
                Ends (daemonSem policy) (spawnAttempts env plan 8 [] [] "") w₃ out' w' →
                isStarted out' = false → ∃ point, SpawnFails env owner challengeRef buildPath security
                  ttlSeconds publishPorts policy w point w' := by
              intro out' hattempts hstarted
              by_cases hcan : CanAttempt env w₃.db plan
              · exact ⟨_, .attempts hprepared hcan hattempts hstarted⟩
              · exact ⟨_, .noAttempt hprepared hcan hattempts⟩
            rcases Ends.of_bind hends with ⟨err, -, hfails⟩ | ⟨outcome, w₄, hrun, hends⟩
            · exact hattempts hfails rfl
            · cases outcome with
              | failed error =>
                obtain ⟨-, rfl⟩ := Ends.of_ret hends
                exact hattempts hrun rfl
              | exhausted lastError =>
                obtain ⟨-, rfl⟩ := Ends.of_ret hends
                exact hattempts hrun rfl
              | started c ip =>
                cases out with
                | error err => exact ⟨_, .reload hprepared hrun hends⟩
                | ok result => exact ⟨_, .record hprepared hrun hends ((Bool.not_eq_true' _).mp hfailed)⟩

end Parts

/-! ## The network -/

variable {policy : Policy} {env : DaemonEnv} {owner : Owner} {challengeRef buildPath : String}
  {security : Option SecurityProfile} {ttlSeconds : Option Int} {publishPorts : Bool}
  {w w' : World} {octet : Octet} {plan : SpawnPlan}

/-- The owner holds an octet, and Docker has a network for it. -/
def HasNetwork (w : World) (owner : Owner) : Prop :=
  ∃ octet, w.db.getOctet owner = some octet ∧
    (w.docker.findNetwork (bridgeName octet)).isSome = true

/-- What `ensure_owner_network` leaves: the octet, and the network of that octet, which was there or
    is new. -/
structure Ensured (owner : Owner) (w : World) (out : Except PyErr Octet) (w' : World) : Prop where
  db : w'.db = (w.db.allocateOctet owner).2
  containers : w'.docker.containers = w.docker.containers
  octet : ∀ octet, out = .ok octet → (w.db.allocateOctet owner).1 = .ok octet
  network : (w'.docker.networks = w.docker.networks ∧ ∀ octet, out = .ok octet →
      (w.docker.findNetwork (bridgeName octet)).isSome = true) ∨
    ∃ octet net, out = .ok octet ∧ w.docker.findNetwork (bridgeName octet) = none ∧
      net ∉ w.docker.networks ∧ w'.docker.networks = w.docker.networks ++ [net]

theorem wp_createOwnerNetwork_ensured (h : w.docker.WellFormed)
    (hfree : w.docker.findNetwork (bridgeName octet) = none) :
    wp (daemonSem policy) (fun _ _ => True) (createOwnerNetwork owner octet)
      (fun out w' => w'.db = w.db ∧ w'.docker.containers = w.docker.containers ∧
        (∀ given, out = .ok given → given = octet) ∧
        ((w'.docker.networks = w.docker.networks ∧ ∀ given, out ≠ .ok given) ∨
          ∃ net, out = .ok octet ∧ net ∉ w.docker.networks ∧
            w'.docker.networks = w.docker.networks ++ [net])) w := by
  unfold createOwnerNetwork
  refine wp_callDocker trivial fun fault _ => ?_
  cases fault with
  | some msg =>
    exact wp_ite ⟨rfl, rfl, fun _ h => (nomatch h), Or.inl ⟨rfl, fun _ h => nomatch h⟩⟩
      ⟨rfl, rfl, fun _ h => (nomatch h), Or.inl ⟨rfl, fun _ h => nomatch h⟩⟩
  | none =>
    simp only [DockerOp.exec, failing, Docker.networksCreate, hfree]
    refine ⟨rfl, rfl, by rintro _ ⟨⟩; rfl, Or.inr ⟨_, rfl, ?_, rfl⟩⟩
    intro hmem
    exact Nat.lt_irrefl _ (h.networkIds_lt _ hmem)

theorem wp_ensureOwnerNetwork_ensured (h : w.docker.WellFormed) :
    wp (daemonSem policy) (fun _ _ => True) (ensureOwnerNetwork owner)
      (Ensured owner w) w := by
  unfold ensureOwnerNetwork
  refine wp_callDb trivial ?_
  have hraises : ∀ err, Ensured owner w (.error err)
      { w with db := (w.db.allocateOctet owner).2 } := fun err =>
    ⟨rfl, rfl, fun _ h => (nomatch h), Or.inl ⟨rfl, fun _ h => nomatch h⟩⟩
  cases hallocated : (w.db.allocateOctet owner).1 with
  | error err =>
    simp only [DbOp.exec, hallocated]
    exact hraises err
  | ok octet =>
    simp only [DbOp.exec, hallocated]
    refine wp_dockerClient trivial (wp_networksGet trivial ?_ ?_ ?_) ?_
    · intro net hnet
      refine wp_ite ⟨rfl, rfl, ?_, Or.inl ⟨rfl, ?_⟩⟩ (hraises _)
      · rintro _ ⟨⟩
        exact hallocated
      · rintro _ ⟨⟩
        rw [hnet]
        rfl
    · intro msg hnone
      refine wp_mono (wp_createOwnerNetwork_ensured h hnone) ?_
      rintro out w' ⟨hdb, hcontainers, hgiven, hnetworks⟩
      refine ⟨hdb, hcontainers, ?_, ?_⟩
      · intro given hout
        rw [hgiven given hout]
        exact hallocated
      · rcases hnetworks with ⟨hsame, hraised⟩ | ⟨net, rfl, hnew, happended⟩
        · exact Or.inl ⟨hsame, fun given hout => absurd hout (hraised given)⟩
        · exact Or.inr ⟨octet, net, rfl, hnone, hnew, happended⟩
    · exact fun msg _ => hraises _
    · exact fun msg _ => hraises _

/-- Allocation changes the octets exactly when the owner held none and gets one. -/
theorem ownerOctets_allocateOctet_eq_iff {db : Db}
    (hallocated : (db.allocateOctet owner).1 = .ok octet) :
    (db.allocateOctet owner).2.ownerOctets = db.ownerOctets ↔
      (db.getOctet owner).isSome = true := by
  rw [Db.allocateOctet_eq] at hallocated ⊢
  cases hown : db.getOctet owner with
  | some held => simp
  | none =>
    cases hfree : db.firstFreeOctet with
    | none =>
      rw [hown, hfree] at hallocated
      cases hallocated
    | some free => simp

theorem instances_allocateOctet {db : Db} :
    (db.allocateOctet owner).2.instances = db.instances := by
  rw [Db.allocateOctet_eq]
  cases db.getOctet owner with
  | some held => rfl
  | none => cases db.firstFreeOctet <;> rfl

theorem allocateOctet_error {db : Db} {err : PyErr}
    (hallocated : (db.allocateOctet owner).1 = .error err) : (db.allocateOctet owner).2 = db := by
  rw [Db.allocateOctet_eq] at hallocated ⊢
  cases hown : db.getOctet owner with
  | some held => rfl
  | none =>
    cases hfree : db.firstFreeOctet with
    | none => rfl
    | some free =>
      rw [hown, hfree] at hallocated
      cases hallocated

/-- The octets and the networks are as before exactly when the owner had its network. -/
theorem Ensured.same_iff (h : Ensured owner w (.ok octet) w') :
    (w'.db.ownerOctets = w.db.ownerOctets ∧ ∀ net, net ∈ w'.docker.networks ↔
      net ∈ w.docker.networks) ↔ HasNetwork w owner := by
  have hallocated := h.octet octet rfl
  rw [h.db, ownerOctets_allocateOctet_eq_iff hallocated]
  constructor
  · rintro ⟨hheld, hnetworks⟩
    obtain ⟨held, hheld⟩ := Option.isSome_iff_exists.mp hheld
    have hsame : held = octet := by
      rw [Db.allocateOctet_eq, hheld] at hallocated
      cases hallocated
      rfl
    subst hsame
    refine ⟨held, hheld, ?_⟩
    rcases h.network with ⟨-, hexisted⟩ | ⟨_, net, -, -, hnew, happended⟩
    · exact hexisted held rfl
    · rw [happended] at hnetworks
      exact absurd ((hnetworks net).mp (by simp)) hnew
  · rintro ⟨held, hheld, hexisted⟩
    refine ⟨by rw [hheld]; rfl, ?_⟩
    rcases h.network with ⟨hsame, -⟩ | ⟨given, net, hgiven, hnone, -, -⟩
    · intro net
      rw [hsame]
    · cases hgiven
      rw [Db.allocateOctet_eq, hheld] at hallocated
      cases hallocated
      rw [hnone] at hexisted
      cases hexisted

/-! ## The preparation -/

/-- The calls between the network and the attempts write nothing. -/
def readingCall : DaemonOp → Prop
  | .docker .client | .docker (.buildImage ..) | .docker (.imagesGet _) | .host _ => True
  | _ => False

theorem SameStores.sem {w₀ : World} {op : DaemonOp} {res : op.Res} (hcall : readingCall op)
    (h : SameStores w₀ w) (hsem : daemonSem policy w op res w') : SameStores w₀ w' := by
  obtain ⟨choice, -, hexec⟩ := hsem
  cases op with
  | docker op =>
    cases hexec
    cases op with
    | client => cases choice <;> exact ⟨h.db, h.docker⟩
    | buildImage _ _ => exact ⟨h.db, h.docker⟩
    | imagesGet _ => exact ⟨h.db, h.docker⟩
    | _ => exact hcall.elim
  | host op =>
    obtain ⟨result, -, hresult⟩ := Option.map_eq_some_iff.mp hexec
    cases hresult
    exact ⟨h.db, h.docker⟩
  | db op | filter op | wg op => exact hcall.elim

theorem SameStores.of_ends {α : Type} {p : Daemon α} {out : Except PyErr α}
    (hp : CallsOnly readingCall p) (hends : Ends (daemonSem policy) p w out w') :
    SameStores w w' := by
  refine hends.of_wp (CallsOnly.preserves (I := SameStores w) hp ?_ ⟨rfl, rfl⟩)
  intro _ _ _ _ hcall h hsem
  exact h.sem hcall hsem

theorem callsOnly_isDockerfile :
    CallsOnly readingCall (callHost (.isDockerfile buildPath)) := .perform trivial

theorem callsOnly_dockerClient_reads : CallsOnly readingCall dockerClient :=
  .bind (.perform trivial) fun _ => .ofExcept

theorem callsOnly_detectExposedPorts_reads {imageTag : String} :
    CallsOnly readingCall (detectExposedPorts imageTag) := by
  refine .bind (.perform trivial) fun exposed => ?_
  cases exposed with
  | ok ports => exact .ret
  | error err => exact .ret

theorem callsOnly_isoExpiry_reads : CallsOnly readingCall (isoExpiry ttlSeconds) := by
  cases ttlSeconds with
  | none => exact .ret
  | some ttl => exact .bind (.perform trivial) fun _ => .ret

theorem callsOnly_prepareSpawn : CallsOnly readingCall
    (prepareSpawn owner challengeRef buildPath security ttlSeconds publishPorts octet) := by
  refine .bind callsOnly_dockerClient_reads fun _ => .bind (.perform trivial) fun built => .ite ?_ .ret
  exact .bind callsOnly_detectExposedPorts_reads fun _ =>
    .bind callsOnly_isoExpiry_reads fun _ => .ret

/-! ## The attempts -/

/-- The tables, the containers and the networks are the same; ids may have been used up. -/
structure SameContents (w w' : World) : Prop where
  db : w'.db = w.db
  containers : w'.docker.containers = w.docker.containers
  networks : w'.docker.networks = w.docker.networks

theorem SameContents.trans {w w₁ w₂ : World} (h : SameContents w w₁) (h' : SameContents w₁ w₂) :
    SameContents w w₂ :=
  ⟨h'.db.trans h.db, h'.containers.trans h.containers, h'.networks.trans h.networks⟩

theorem SameContents.findContainer (h : SameContents w w') (ref : ContainerRef) :
    w'.docker.findContainer ref = w.docker.findContainer ref := by
  cases ref with
  | id _ => simp only [Docker.findContainer, h.containers]
  | name _ => simp only [Docker.findContainer, h.containers]

/-- The world without one of its containers. -/
def World.withoutContainer (w : World) (id : ContainerId) : World :=
  { w with docker := { w.docker with containers := w.docker.containers.filter fun c => c.id ≠ id } }

/-- What the cleanup by name leaves: it takes the container that has the name, whoever created
    it. -/
def World.cleanedUp (w : World) (name : String) : World :=
  match w.docker.findContainer (.name name) with
  | none => w
  | some c => w.withoutContainer c.id

theorem wp_forceRemoveByName {name : String} :
    wp (daemonSem cleanupWorks) (fun _ _ => True) (forceRemoveByName name)
      (fun out w' => out = .ok () ∧ w' = w.cleanedUp name) w := by
  refine wp_containersGet trivial ?_ ?_ ?_
  · intro c hfind
    obtain ⟨hmem, -⟩ := Docker.mem_of_findContainer_name hfind
    have hcleaned : w.cleanedUp name = w.withoutContainer c.id := by
      simp only [World.cleanedUp, hfind]
    refine wp_callDocker trivial fun fault hfault => ?_
    cases hfault
    rw [hcleaned]
    simp only [DockerOp.exec, failing, Docker.remove]
    cases hsome : w.docker.findContainer (.id c.id) with
    | none => exact absurd rfl (Docker.findContainer_id_eq_none_iff.mp hsome c hmem)
    | some _ => exact ⟨rfl, rfl⟩
  · intro msg hfind
    refine ⟨rfl, ?_⟩
    simp only [World.cleanedUp, hfind]
  · intro msg hfault
    cases hfault

/-- A failed attempt under a free name is cleaned up completely. -/
theorem Attempted.cleanedUp {spec : ContainerSpec} {err : DockerErr} {w₁ : World}
    (h : w.docker.WellFormed) (hfree : w.docker.findContainer (.name spec.name) = none)
    (hattempted : Attempted spec w (.error err) w₁) :
    SameContents w (w₁.cleanedUp spec.name) := by
  unfold World.cleanedUp
  cases hattempted with
  | notCreated =>
    rw [hfree]
    exact ⟨rfl, rfl, rfl⟩
  | @notStarted _ c _ hid hspec =>
    subst hspec
    have hfind : (w.withContainer c).docker.findContainer (.name c.spec.name) = some c :=
      Docker.findContainer_name_with hfree
    have hsame : (w.docker.with_ c).containers.filter (fun c' => c'.id ≠ c.id) =
        w.docker.containers := by
      rw [hid]
      exact h.filter_with hid
    rw [hfind]
    exact ⟨rfl, hsame, rfl⟩

/-- What the attempts leave when nobody has the name: nothing, or the one container that came up. -/
inductive Attempts (w : World) : Except PyErr AttemptsOutcome → World → Prop
  | nothing {out w'} : isStarted out = false → SameContents w w' → Attempts w out w'
  | started {w₁ c ip} : SameContents w w₁ → w₁.docker.WellFormed → c.id = w₁.docker.nextId →
      Attempts w (.ok (.started c ip)) (w₁.withContainer c)

theorem Attempts.of_sameContents {w₁ : World} {out : Except PyErr AttemptsOutcome}
    (hsame : SameContents w w₁) (h : Attempts w₁ out w') : Attempts w out w' := by
  cases h with
  | nothing hstarted h => exact .nothing hstarted (hsame.trans h)
  | started h hwf hid => exact .started (hsame.trans h) hwf hid

theorem wp_spawnAttempts_free {rounds : Nat} {triedIps : List IPv4Address} {triedPorts : List Nat}
    {lastError : String} (h : w.docker.WellFormed)
    (hfree : w.docker.findContainer (.name plan.name) = none) :
    wp (daemonSem cleanupWorks) (fun _ _ => True)
      (spawnAttempts env plan rounds triedIps triedPorts lastError) (Attempts w) w := by
  have hnothing : ∀ {w : World} {out : Except PyErr AttemptsOutcome}, isStarted out = false →
      Attempts w out w := fun hstarted => .nothing hstarted ⟨rfl, rfl, rfl⟩
  induction rounds generalizing w triedIps triedPorts lastError with
  | zero => exact hnothing rfl
  | succ rounds ih =>
    rw [spawnAttempts]
    refine wp_findNextOwnerIp ?_ fun _ _ => hnothing rfl
    intro ip _
    refine wp_ite (ih h hfree) (wp_attemptPorts ?_)
    cases w.db.nextPorts env plan triedPorts with
    | error msg => exact hnothing rfl
    | ok portMap =>
      refine wp_seq (wp_and (wp_startContainer h) (wp_dockerWellFormed h)) ?_ ?_
      · rintro result w₁ ⟨⟨_, ⟨⟩, hattempted⟩, h₁⟩
        cases result with
        | ok c =>
          cases hattempted with
          | started _ hid _ _ => exact .started ⟨rfl, rfl, rfl⟩ h hid
        | error err =>
          refine wp_seq (wp_and wp_forceRemoveByName (wp_dockerWellFormed h₁)) ?_ ?_
          · intro _ w₂ hcleanup
            have hsame : SameContents w w₂ := by
              rw [hcleanup.1.2]
              exact hattempted.cleanedUp h hfree
            have hfree₂ : w₂.docker.findContainer (.name plan.name) = none := by
              rw [hsame.findContainer]
              exact hfree
            have h₂ : w₂.docker.WellFormed := hcleanup.2
            split
            · refine wp_mono (ih h₂ hfree₂) ?_
              intro out w' hattempts
              exact hattempts.of_sameContents hsame
            · exact .nothing rfl hsame
          · rintro err w₂ ⟨⟨h, -⟩, -⟩
            cases h
      · rintro err w₁ ⟨⟨_, h, -⟩, -⟩
        cases h

/-- A container that was there is gone for good. -/
structure World.Lost (id : ContainerId) (w : World) : Prop where
  lt : id < w.docker.nextId
  gone : ∀ c ∈ w.docker.containers, c.id ≠ id

theorem World.Lost.sem {id : ContainerId} {op : DaemonOp} {res : op.Res} (h : w.Lost id)
    (hsem : daemonSem policy w op res w') : w'.Lost id := by
  obtain ⟨choice, -, hexec⟩ := hsem
  cases op with
  | docker op =>
    cases hexec
    have hstep := op.exec_step w.docker choice
    refine ⟨Nat.lt_of_lt_of_le h.lt (Docker.nextId_le_of_step hstep), ?_⟩
    have hgone := h.gone
    have hlt := h.lt
    generalize (op.exec w.docker choice).2 = d' at hstep
    intro c hc
    cases hstep with
    | same | createNetwork _ | removeNetwork _ => exact hgone c hc
    | createContainer =>
      rcases List.mem_append.mp hc with hold | hnew
      · exact hgone c hold
      · rw [List.mem_singleton.mp hnew]
        exact Nat.ne_of_gt hlt
    | start _ _ _ | stop =>
      obtain ⟨old, hold, ⟨-, rfl⟩ | ⟨-, rfl⟩⟩ := Docker.mem_updateContainer.mp hc
      · exact hgone old hold
      · exact hgone _ hold
    | remove => exact hgone c (List.mem_of_mem_filter hc)
  | db op | filter op | wg op =>
    cases hexec
    exact ⟨h.lt, h.gone⟩
  | host op =>
    obtain ⟨result, -, hresult⟩ := Option.map_eq_some_iff.mp hexec
    cases hresult
    exact ⟨h.lt, h.gone⟩

theorem World.Lost.wp {α : Type} {id : ContainerId} {p : Daemon α} (h : w.Lost id) :
    wp (daemonSem policy) (fun _ _ => True) p (fun _ w' => w'.Lost id) w := by
  refine wp_guard_mono (CallsOnly.preserves (I := World.Lost id) (CallsOnly.always p) ?_ h)
    fun _ _ _ => trivial
  intro _ _ _ _ _ h hsem
  exact h.sem hsem

theorem cleanedUp_lost {name : String} {old : Container} (h : w.docker.WellFormed)
    (hfind : w.docker.findContainer (.name name) = some old) : (w.cleanedUp name).Lost old.id := by
  obtain ⟨hmem, -⟩ := Docker.mem_of_findContainer_name hfind
  unfold World.cleanedUp
  rw [hfind]
  refine ⟨h.containerIds_lt old hmem, ?_⟩
  intro c hc
  exact of_decide_eq_true (List.mem_filter.mp hc).2

/-- The first attempt cannot create its container while the name is taken, and its cleanup takes
    the container that has the name. -/
theorem wp_spawnAttempts_taken {rounds : Nat} {lastError : String} {old : Container}
    (h : w.docker.WellFormed) (hfind : w.docker.findContainer (.name plan.name) = some old)
    (hcan : CanAttempt env w.db plan) :
    wp (daemonSem cleanupWorks) (fun _ _ => True)
      (spawnAttempts env plan (rounds + 1) [] [] lastError) (fun _ w' => w'.Lost old.id) w := by
  obtain ⟨⟨ip, hip⟩, portMap, hports⟩ := hcan
  rw [spawnAttempts]
  refine wp_findNextOwnerIp ?_ ?_
  · intro ip' _
    rw [if_neg List.not_mem_nil]
    refine wp_attemptPorts ?_
    rw [hports]
    refine wp_seq (wp_startContainer h) ?_ ?_
    · rintro result w₁ ⟨_, ⟨⟩, hattempted⟩
      have htaken : w.docker.findContainer (.name plan.name) ≠ none := by simp [hfind]
      cases hattempted with
      | notCreated =>
        refine wp_seq wp_forceRemoveByName ?_ ?_
        · intro _ w₂ hcleanup
          have hlost : w₂.Lost old.id := by
            rw [hcleanup.2]
            exact cleanedUp_lost h hfind
          split
          · exact hlost.wp
          · exact hlost
        · rintro err w₂ ⟨h, -⟩
          cases h
      | notStarted hfree _ _ => exact absurd hfree htaken
      | started hfree _ _ _ => exact absurd hfree htaken
    · rintro err w₁ ⟨_, h, -⟩
      cases h
  · intro err herror
    rw [hip] at herror
    cases herror

/-- Without an address or ports for a first attempt, nothing is attempted. -/
theorem wp_spawnAttempts_cannot {rounds : Nat} {lastError : String}
    (hcan : ¬ CanAttempt env w.db plan) :
    wp (daemonSem policy) (fun _ _ => True)
      (spawnAttempts env plan (rounds + 1) [] [] lastError)
      (fun out w' => w' = w ∧ isStarted out = false) w := by
  refine wp_findNextOwnerIp ?_ fun _ _ => ⟨rfl, rfl⟩
  intro ip hip
  rw [if_neg List.not_mem_nil]
  refine wp_attemptPorts ?_
  cases hports : w.db.nextPorts env plan [] with
  | error msg => exact ⟨rfl, rfl⟩
  | ok portMap => exact absurd ⟨⟨ip, hip⟩, portMap, hports⟩ hcan

/-! ## The record -/

/-- The address that is read back is the container's, or none. -/
theorem wp_liveContainerIp {α : Type} {c : Container} {networkName : String}
    {f : Container × Option IPv4Address → Daemon α} {Q : Except PyErr α → World → Prop}
    (h : ∀ live : Container × Option IPv4Address, (live.2 = none ∨ ∃ fresh,
        w.docker.findContainer (.id c.id) = some fresh ∧ live.2 = fresh.ipAddress) →
      wp (daemonSem policy) (fun _ _ => True) (f live) Q w) :
    wp (daemonSem policy) (fun _ _ => True) (liveContainerIp c networkName >>= f) Q w := by
  refine wp_bind.mpr (wp_containersGet trivial ?_ (fun _ _ => h _ (Or.inl rfl))
    fun _ _ => h _ (Or.inl rfl))
  intro fresh hfresh
  exact wp_ite (h _ (Or.inr ⟨fresh, hfresh, rfl⟩)) (h _ (Or.inl rfl))

/-- How `recordInstance` fails: when it raises, nothing changed; when it reports failure, the
    container is gone. -/
structure RecordFailed (c : Container) (w : World) (out : Except PyErr SpawnResult) (w' : World) :
    Prop where
  raised : ∀ err, out = .error err → w' = w
  reported : ∀ result, out = .ok result → result.success = false → w' = w.withoutContainer c.id

theorem wp_recordInstance_failed {c : Container} {ip : IPv4Address} :
    wp (daemonSem cleanupWorks) (fun _ _ => True) (recordInstance plan c ip) (RecordFailed c w) w := by
  have hraises : ∀ err, RecordFailed c w (.error err) w :=
    fun _ => ⟨fun _ _ => rfl, fun _ h => by cases h⟩
  refine wp_liveContainerIp fun live _ => ?_
  refine wp_containersGet trivial ?_ (fun _ _ => hraises _) fun _ _ => hraises _
  intro fresh _
  refine wp_callDb trivial ?_
  simp only [DbOp.exec]
  rcases w.db.addInstance_cases (plan.row fresh (live.2.getD ip)) with ⟨hadded, -⟩ | ⟨msg, hadded⟩
  · rw [hadded]
    refine ⟨fun _ h => (by cases h), ?_⟩
    rintro _ ⟨⟩ h
    cases h
  · rw [hadded]
    refine wp_callDocker trivial fun fault hfault => ?_
    cases hfault
    refine ⟨fun _ h => (by cases h), fun _ _ _ => ?_⟩
    simp only [DockerOp.exec, failing, Docker.remove, World.withoutContainer]
    cases hfind : w.docker.findContainer (.id c.id) with
    | none => rw [filter_ne_of_findContainer_none hfind]
    | some _ => rfl

/-! ## When nothing is left behind -/

/-- The world once the spawn has its network: only the octets and the networks can differ. -/
structure AfterNetwork (owner : Owner) (w w' : World) : Prop where
  docker : w'.docker.WellFormed
  instances : w'.db.instances = w.db.instances
  containers : w'.docker.containers = w.docker.containers
  same_iff : (w'.db.ownerOctets = w.db.ownerOctets ∧
    ∀ net, net ∈ w'.docker.networks ↔ net ∈ w.docker.networks) ↔ HasNetwork w owner

theorem HasNetwork.congr {w₁ : World} (h : SameStores w w₁) :
    HasNetwork w₁ owner ↔ HasNetwork w owner := by
  unfold HasNetwork
  rw [h.db, h.docker]

theorem NetworkGiven.after {w₁ : World} (h : w.docker.WellFormed)
    (hgiven : NetworkGiven owner buildPath policy w octet w₁) : AfterNetwork owner w w₁ := by
  obtain ⟨w₀, hdockerfile, hensure⟩ := hgiven
  have hsame : SameStores w w₀ := .of_ends callsOnly_isDockerfile hdockerfile
  have h₀ : w₀.docker.WellFormed := hsame.docker ▸ h
  have hensured : Ensured owner w₀ (.ok octet) w₁ := hensure.of_wp (wp_ensureOwnerNetwork_ensured h₀)
  refine ⟨hensure.of_wp (wp_dockerWellFormed h₀), ?_, ?_, ?_⟩
  · rw [hensured.db, instances_allocateOctet, hsame.db]
  · rw [hensured.containers, hsame.docker]
  · have hiff := hensured.same_iff
    rw [hsame.db, hsame.docker] at hiff
    rw [hiff, HasNetwork.congr hsame]

theorem AfterNetwork.of_sameStores {w₁ w₂ : World} (h : AfterNetwork owner w w₁)
    (hsame : SameStores w₁ w₂) : AfterNetwork owner w w₂ := by
  obtain ⟨hdb, hdocker⟩ := hsame
  refine ⟨hdocker ▸ h.docker, hdb ▸ h.instances, hdocker ▸ h.containers, ?_⟩
  rw [hdb, hdocker]
  exact h.same_iff

theorem Prepared.after {w₁ : World} (h : w.docker.WellFormed)
    (hprepared : Prepared owner challengeRef buildPath security ttlSeconds publishPorts policy w plan
      w₁) : AfterNetwork owner w w₁ := by
  obtain ⟨octet, w₀, hgiven, hprepare⟩ := hprepared
  exact (hgiven.after h).of_sameStores (.of_ends callsOnly_prepareSpawn hprepare)

/-- Nothing more than the network was done, or it was undone. -/
theorem AfterNetwork.unchanged_iff {w₁ : World} (h : AfterNetwork owner w w₁)
    (hsame : SameContents w₁ w') : Unchanged w w' ↔ HasNetwork w owner := by
  rw [← h.same_iff]
  constructor
  · intro hunchanged
    refine ⟨?_, ?_⟩
    · rw [← hsame.db]
      exact hunchanged.ownerOctets
    · rw [← hsame.networks]
      exact hunchanged.networks
  · rintro ⟨hoctets, hnetworks⟩
    refine ⟨?_, ?_, ?_, ?_⟩
    · rw [hsame.db, h.instances]
    · rw [hsame.db, hoctets]
    · rw [hsame.containers, h.containers]
      exact fun _ => Iff.rfl
    · rw [hsame.networks]
      exact hnetworks

theorem World.Lost.not_unchanged {old : Container} (h : w'.Lost old.id)
    (hmem : old ∈ w.docker.containers) : ¬ Unchanged w w' := by
  intro hunchanged
  exact h.gone old ((hunchanged.containers old).mpr hmem) rfl

theorem wp_prepareSpawn : wp (daemonSem policy) (fun _ _ => True)
    (prepareSpawn owner challengeRef buildPath security ttlSeconds publishPorts octet)
    (fun out _ => ∀ plan, out = .ok (.ok plan) →
      plan.owner = owner ∧ plan.challengeRef = challengeRef ∧ plan.octet = octet) w := by
  refine wp_dockerClient trivial ?_ fun _ _ _ h => nomatch h
  refine wp_callDocker trivial fun _ _ => wp_ite ?_ fun _ h => nomatch h
  refine wp_seq (wp_trivial fun _ _ => trivial) ?_ fun _ _ _ _ h => nomatch h
  intro ports _ _
  refine wp_seq (wp_trivial fun _ _ => trivial) ?_ fun _ _ _ _ h => nomatch h
  rintro expiresAt w' - _ ⟨⟩
  exact ⟨rfl, rfl, rfl⟩

theorem Prepared.name_eq {w₁ : World}
    (hprepared : Prepared owner challengeRef buildPath security ttlSeconds publishPorts policy w plan
      w₁) : plan.name = containerNameFor challengeRef owner := by
  obtain ⟨octet, w₀, -, hprepare⟩ := hprepared
  obtain ⟨howner, href, -⟩ := hprepare.of_wp wp_prepareSpawn plan rfl
  rw [SpawnPlan.name, howner, href]

/-- When a failure at this point leaves nothing behind. -/
def FailurePoint.Harmless (owner : Owner) (challengeRef : String) (w : World) :
    FailurePoint → Prop
  | .dockerfile | .octet => True
  | .network => (w.db.getOctet owner).isSome = true
  | .preparation => HasNetwork w owner
  | .attempts | .record => HasNetwork w owner ∧
      w.docker.findContainer (.name (containerNameFor challengeRef owner)) = none
  | .reload => False

/-- The attempts of a prepared spawn, when the name is free and when it is taken. -/
theorem Prepared.attempts {w₁ w₂ : World} {out : Except PyErr AttemptsOutcome}
    (h : w.docker.WellFormed)
    (hprepared : Prepared owner challengeRef buildPath security ttlSeconds publishPorts cleanupWorks w
      plan w₁)
    (hends : Ends (daemonSem cleanupWorks) (spawnAttempts env plan 8 [] [] "") w₁ out w₂) :
    (w.docker.findContainer (.name (containerNameFor challengeRef owner)) = none →
      Attempts w₁ out w₂) ∧
    ∀ old, w.docker.findContainer (.name (containerNameFor challengeRef owner)) = some old →
      CanAttempt env w₁.db plan → w₂.Lost old.id := by
  have hafter := hprepared.after h
  have hfind : w₁.docker.findContainer (.name plan.name) =
      w.docker.findContainer (.name (containerNameFor challengeRef owner)) := by
    rw [hprepared.name_eq]
    simp only [Docker.findContainer, hafter.containers]
  constructor
  · intro hfree
    exact hends.of_wp (wp_spawnAttempts_free hafter.docker (hfind.trans hfree))
  · intro old htaken hcan
    exact hends.of_wp (wp_spawnAttempts_taken hafter.docker (hfind.trans htaken) hcan)

/-- A container came up, so there was a first attempt. -/
theorem canAttempt_of_started {w₁ w₂ : World} {c : Container} {ip : IPv4Address}
    (hends : Ends (daemonSem policy) (spawnAttempts env plan 8 [] [] "") w₁ (.ok (.started c ip))
      w₂) : CanAttempt env w₁.db plan := by
  by_contra hcan
  obtain ⟨-, hstarted⟩ := hends.of_wp (wp_spawnAttempts_cannot hcan)
  cases hstarted

theorem SpawnFails.unchanged_iff {point : FailurePoint} (h : w.docker.WellFormed)
    (hfails : SpawnFails env owner challengeRef buildPath security ttlSeconds publishPorts
      cleanupWorks w point w') : Unchanged w w' ↔ point.Harmless owner challengeRef w := by
  cases hfails with
  | dockerfile hcall =>
    obtain ⟨hdb, hdocker⟩ : SameStores w w' := .of_ends callsOnly_isDockerfile hcall
    refine iff_of_true ⟨?_, ?_, ?_, ?_⟩ trivial
    · rw [hdb]
    · rw [hdb]
    · rw [hdocker]
      exact fun _ => Iff.rfl
    · rw [hdocker]
      exact fun _ => Iff.rfl
  | @octet w₁ _ _ _ hcall hallocated hensure =>
    obtain ⟨hdb, hdocker⟩ : SameStores w w₁ := .of_ends callsOnly_isDockerfile hcall
    have hensured := hensure.of_wp (wp_ensureOwnerNetwork_ensured (hdocker ▸ h))
    have hsame : w'.db = w.db := by rw [hensured.db, allocateOctet_error hallocated, hdb]
    refine iff_of_true ⟨?_, ?_, ?_, ?_⟩ trivial
    · rw [hsame]
    · rw [hsame]
    · rw [hensured.containers, hdocker]
      exact fun _ => Iff.rfl
    · rcases hensured.network with ⟨hnetworks, -⟩ | ⟨_, _, hraised, -⟩
      · rw [hnetworks, hdocker]
        exact fun _ => Iff.rfl
      · cases hraised
  | @network w₁ _ octet _ hcall hallocated hensure =>
    obtain ⟨hdb, hdocker⟩ : SameStores w w₁ := .of_ends callsOnly_isDockerfile hcall
    have hensured := hensure.of_wp (wp_ensureOwnerNetwork_ensured (hdocker ▸ h))
    have hoctets := ownerOctets_allocateOctet_eq_iff hallocated
    rw [← hensured.db, hdb] at hoctets
    refine Iff.trans ⟨Unchanged.ownerOctets, ?_⟩ hoctets
    intro hoctets
    refine ⟨?_, hoctets, ?_, ?_⟩
    · rw [hensured.db, instances_allocateOctet, hdb]
    · rw [hensured.containers, hdocker]
      exact fun _ => Iff.rfl
    · rcases hensured.network with ⟨hnetworks, -⟩ | ⟨_, _, hraised, -⟩
      · rw [hnetworks, hdocker]
        exact fun _ => Iff.rfl
      · cases hraised
  | preparation hgiven hprepare _ =>
    have hsame : SameStores _ w' := .of_ends callsOnly_prepareSpawn hprepare
    exact ((hgiven.after h).of_sameStores hsame).unchanged_iff ⟨rfl, rfl, rfl⟩
  | noAttempt hprepared hcan hattempts =>
    obtain ⟨rfl, -⟩ := hattempts.of_wp (wp_spawnAttempts_cannot hcan)
    exact (hprepared.after h).unchanged_iff ⟨rfl, rfl, rfl⟩
  | attempts hprepared hcan hattempts hfailed =>
    obtain ⟨hfree, htaken⟩ := hprepared.attempts h hattempts
    unfold FailurePoint.Harmless
    cases hfind : w.docker.findContainer (.name (containerNameFor challengeRef owner)) with
    | none =>
      cases hfree hfind with
      | nothing _ hsame =>
        rw [(hprepared.after h).unchanged_iff hsame]
        simp
      | started _ _ _ => cases hfailed
    | some old =>
      have hlost := htaken old hfind hcan
      refine iff_of_false (hlost.not_unchanged (Docker.mem_of_findContainer_name hfind).1) ?_
      rintro ⟨-, h⟩
      cases h
  | @reload w₁ w₂ _ _ c _ _ hprepared hattempts hrecord =>
    obtain ⟨hfree, htaken⟩ := hprepared.attempts h hattempts
    refine iff_of_false ?_ id
    cases hfind : w.docker.findContainer (.name (containerNameFor challengeRef owner)) with
    | none =>
      have hsame : w' = w₂ := (hrecord.of_wp wp_recordInstance_failed).raised _ rfl
      subst hsame
      cases hfree hfind with
      | nothing hstarted _ => cases hstarted
      | started hsame hwf hid =>
        intro hunchanged
        have hmem : c ∈ w.docker.containers :=
          (hunchanged.containers c).mp (List.mem_append_right _ List.mem_cons_self)
        rw [← (hprepared.after h).containers, ← hsame.containers] at hmem
        exact hwf.ne_nextId hmem hid
    | some old =>
      have hlost := htaken old hfind (canAttempt_of_started hattempts)
      exact (hrecord.of_wp hlost.wp).not_unchanged (Docker.mem_of_findContainer_name hfind).1
  | @record w₁ w₂ _ _ c _ _ hprepared hattempts hrecord hfailed =>
    obtain ⟨hfree, htaken⟩ := hprepared.attempts h hattempts
    unfold FailurePoint.Harmless
    cases hfind : w.docker.findContainer (.name (containerNameFor challengeRef owner)) with
    | none =>
      have hremoved : w' = w₂.withoutContainer c.id :=
        (hrecord.of_wp wp_recordInstance_failed).reported _ rfl hfailed
      subst hremoved
      cases hfree hfind with
      | nothing hstarted _ => cases hstarted
      | @started w₃ _ _ hsame hwf hid =>
        have hremoved : (w₃.docker.with_ c).containers.filter (fun c' => c'.id ≠ c.id) =
            w₃.docker.containers := by
          rw [hid]
          exact hwf.filter_with hid
        have hgone : SameContents w₃ ((w₃.withContainer c).withoutContainer c.id) :=
          ⟨rfl, hremoved, rfl⟩
        rw [(hprepared.after h).unchanged_iff (hsame.trans hgone)]
        simp
    | some old =>
      have hlost := htaken old hfind (canAttempt_of_started hattempts)
      refine iff_of_false ?_ ?_
      · exact (hrecord.of_wp hlost.wp).not_unchanged (Docker.mem_of_findContainer_name hfind).1
      · rintro ⟨-, h⟩
        cases h

/-- **What a failed spawn leaves behind.**  A call that fails does so at one of the points, and the
    stores are as they were before it exactly when that point is harmless. -/
theorem spawnInstance_unchanged_iff (env : DaemonEnv) (owner : Owner)
    (challengeRef buildPath : String) (security : Option SecurityProfile)
    (ttlSeconds : Option Int) (publishPorts : Bool) (w w' : World)
    (out : Except PyErr SpawnResult) (hdocker : w.docker.WellFormed)
    (hends : Ends (daemonSem cleanupWorks)
      (spawnInstance env owner challengeRef buildPath security ttlSeconds publishPorts) w out w')
    (hfailed : spawnFailed out = true) :
    (∃ point, SpawnFails env owner challengeRef buildPath security ttlSeconds publishPorts
      cleanupWorks w point w') ∧
    ∀ point, SpawnFails env owner challengeRef buildPath security ttlSeconds publishPorts
      cleanupWorks w point w' → (Unchanged w w' ↔ point.Harmless owner challengeRef w) :=
  ⟨spawnFails_of_ends env owner challengeRef buildPath security ttlSeconds publishPorts hends hfailed,
    fun _ hfails => hfails.unchanged_iff hdocker⟩

/-! ## A build that fails -/

/-- The image cannot be built; nothing else fails. -/
def buildFails : (op : DaemonOp) → op.Choice
  | .docker (.buildImage ..) => (false, "no space left on device")
  | op => quietChoice op

theorem cleanupWorks_buildFails (op : DaemonOp) : cleanupWorks op (buildFails op) := by
  cases op with
  | docker op =>
    cases op with
    | containersGet ref => cases ref <;> trivial
    | remove id => rfl
    | _ => trivial
  | db op | filter op | wg op | host op => trivial

/-- The first spawn of a team, on a host where nothing has run yet. -/
def firstSpawn : Daemon SpawnResult :=
  spawnInstance DaemonEnv.default ⟨"team", 1⟩ "web-1" "/challenges/web-1" none none false

theorem firstSpawn_fails : (daemonMachine.run buildFails firstSpawn freshHost).any (fun result =>
    spawnFailed result.2.1 && !result.2.2.db.ownerOctets.isEmpty) = true := by
  decide +kernel

theorem spawnInstance_unchanged_iff_buildFails :
    ∃ out w', Ends (daemonSem cleanupWorks) firstSpawn freshHost out w' ∧ ∀ point,
      SpawnFails DaemonEnv.default ⟨"team", 1⟩ "web-1" "/challenges/web-1" none none false
        cleanupWorks freshHost point w' →
      (Unchanged freshHost w' ↔ point.Harmless ⟨"team", 1⟩ "web-1" freshHost) := by
  obtain ⟨⟨trace, out, w'⟩, hrun, hfailed⟩ := (Option.any_eq_true _ _).mp firstSpawn_fails
  have hends : Ends (daemonSem cleanupWorks) firstSpawn freshHost out w' :=
    ⟨trace, Machine.runs_of_run cleanupWorks_buildFails hrun⟩
  refine ⟨out, w', hends, ?_⟩
  exact (spawnInstance_unchanged_iff _ _ _ _ _ _ _ _ _ _ freshHost_installed.wellFormed.docker hends
    (Bool.and_eq_true_iff.mp hfailed).1).2

/-- The failed spawn leaves the octet of the team. -/
theorem not_spawnInstance_unchanged :
    ¬ ∀ (env : DaemonEnv) (owner : Owner) (challengeRef buildPath : String)
      (security : Option SecurityProfile) (ttlSeconds : Option Int) (publishPorts : Bool)
      (w w' : World) (out : Except PyErr SpawnResult), w.docker.WellFormed →
      Ends (daemonSem cleanupWorks)
        (spawnInstance env owner challengeRef buildPath security ttlSeconds publishPorts) w out w' →
      spawnFailed out = true → Unchanged w w' := by
  intro hall
  obtain ⟨⟨trace, out, w'⟩, hrun, hfailed⟩ := (Option.any_eq_true _ _).mp firstSpawn_fails
  have hends : Ends (daemonSem cleanupWorks) firstSpawn freshHost out w' :=
    ⟨trace, Machine.runs_of_run cleanupWorks_buildFails hrun⟩
  obtain ⟨hfailed, hoctets⟩ := Bool.and_eq_true_iff.mp hfailed
  have hunchanged := hall _ _ _ _ _ _ _ _ _ _ freshHost_installed.wellFormed.docker hends hfailed
  have hempty : w'.db.ownerOctets = [] := hunchanged.ownerOctets
  rw [hempty] at hoctets
  cases hoctets

end EdoPlugin
