import EdoPlugin.SpawnProtocol

/-!
# Network ownership under concurrent handlers

Any number of handlers that spawn, release and reconcile, in any order of their calls.  A spawn
fixes its octet and its network long before it stores its row, and a release decides by the rows
alone that an owner is idle; so an octet can be freed under a spawn.  When no octet is freed while
its owner has a row, a spawn under way or a network left, every tracked instance sits on its
owner's network in every state.
-/

namespace EdoPlugin

open Interaction

/-! ## Containers on the owner's network -/

/-- The container of this id, as long as Docker has it, was created for the network of the octet,
    and joined no network but the owner's. -/
structure Berth (d : Docker) (owner : Owner) (octet : Octet) (id : ContainerId) : Prop where
  id_lt : id < d.nextId
  networkName : ∀ c ∈ d.containers, c.id = id → c.spec.networkName = bridgeName octet
  address : ∀ c ∈ d.containers, c.id = id →
    (ownerSubnet octet).contains c.spec.ipv4Address = true
  joined : ∀ c ∈ d.containers, c.id = id → ∀ net, c.network = some net →
    net.name = bridgeName octet ∧ net.labels = ownerLabels owner

/-- The container of this id has joined a network. -/
def Moored (d : Docker) (id : ContainerId) : Prop :=
  ∀ c ∈ d.containers, c.id = id → c.network.isSome = true

/-- A live container has joined a network, and has the address it was created with. -/
structure Endpoints (d : Docker) : Prop where
  joined : ∀ c ∈ d.containers, c.status.holdsEndpoint = true → c.network.isSome = true
  address : ∀ c ∈ d.containers, ∀ ip, c.ipAddress = some ip → ip = c.spec.ipv4Address

/-- Every network under the name of an octet has the labels of the owner that holds the octet. -/
def NetworkLabels (db : Db) (d : Docker) : Prop :=
  ∀ net ∈ d.networks, ∀ octet, net.name = bridgeName octet →
    ∃ owner, db.getOctet owner = some octet ∧ net.labels = ownerLabels owner

section Docker

variable {db : Db} {d d' : Docker} {op : DockerOp} {owner : Owner} {octet : Octet}
  {id : ContainerId}

theorem NetworkLabels.eq (h : NetworkLabels db d) (hdb : db.WellFormed) {net : Network}
    (hnet : net ∈ d.networks) (hname : net.name = bridgeName octet)
    (hheld : db.getOctet owner = some octet) : net.labels = ownerLabels owner := by
  obtain ⟨holder, hholds, hlabels⟩ := h net hnet octet hname
  rw [hlabels, hdb.getOctet_inj hholds hheld]

/-- Whatever anybody asks of Docker, the container stays on its network. -/
theorem Berth.step (h : Berth d owner octet id) (hd : d.WellFormed) (hdb : db.WellFormed)
    (hlabels : NetworkLabels db d) (hheld : db.getOctet owner = some octet)
    (hstep : DockerStep d op d') : Berth d' owner octet id := by
  have hof : ∀ c ∈ d'.containers, c.id = id → ∃ old ∈ d.containers, old.id = id ∧
      c.spec = old.spec ∧ (c.network = old.network ∨
        ∃ net, d.findNetwork old.spec.networkName = some net ∧ c.network = some net) := by
    rintro c hc rfl
    exact hd.of_container hstep hc h.id_lt
  constructor
  case id_lt => exact Nat.lt_of_lt_of_le h.id_lt (Docker.nextId_le_of_step hstep)
  case networkName =>
    intro c hc hid
    obtain ⟨old, hold, hidOld, hspec, -⟩ := hof c hc hid
    rw [hspec]
    exact h.networkName old hold hidOld
  case address =>
    intro c hc hid
    obtain ⟨old, hold, hidOld, hspec, -⟩ := hof c hc hid
    rw [hspec]
    exact h.address old hold hidOld
  case joined =>
    intro c hc hid net hnet
    obtain ⟨old, hold, hidOld, -, hsame | ⟨net', hfind, hjoined⟩⟩ := hof c hc hid
    · exact h.joined old hold hidOld net (hsame ▸ hnet)
    · rw [hjoined] at hnet
      cases hnet
      obtain ⟨hmem, hname⟩ := Docker.mem_of_findNetwork hfind
      rw [h.networkName old hold hidOld] at hname
      exact ⟨hname, hlabels.eq hdb hmem hname hheld⟩

theorem Moored.step (h : Moored d id) (hd : d.WellFormed) (hid : id < d.nextId)
    (hstep : DockerStep d op d') : Moored d' id := by
  rintro c hc rfl
  obtain ⟨old, hold, hidOld, -, hsame | ⟨net, -, hjoined⟩⟩ := hd.of_container hstep hc hid
  · rw [hsame]
    exact h old hold hidOld
  · rw [hjoined]
    rfl

theorem Endpoints.step (h : Endpoints d) (hstep : DockerStep d op d') : Endpoints d' := by
  cases hstep with
  | same | createNetwork _ | removeNetwork _ => exact ⟨h.joined, h.address⟩
  | createContainer =>
    constructor
    · intro c hc hlive
      rcases List.mem_append.mp hc with hold | hnew
      · exact h.joined c hold hlive
      · rw [List.mem_singleton.mp hnew] at hlive
        cases hlive
    · intro c hc ip hip
      rcases List.mem_append.mp hc with hold | hnew
      · exact h.address c hold ip hip
      · rw [List.mem_singleton.mp hnew] at hip
        cases hip
  | start _ _ _ =>
    constructor
    · intro c hc hlive
      obtain ⟨old, hold, ⟨-, rfl⟩ | ⟨-, rfl⟩⟩ := Docker.mem_updateContainer.mp hc
      · rfl
      · exact h.joined _ hold hlive
    · intro c hc ip hip
      obtain ⟨old, hold, ⟨-, rfl⟩ | ⟨-, rfl⟩⟩ := Docker.mem_updateContainer.mp hc
      · cases hip
        rfl
      · exact h.address _ hold ip hip
  | stop =>
    constructor
    · intro c hc hlive
      obtain ⟨old, hold, ⟨-, rfl⟩ | ⟨-, rfl⟩⟩ := Docker.mem_updateContainer.mp hc
      · cases hlive
      · exact h.joined _ hold hlive
    · intro c hc ip hip
      obtain ⟨old, hold, ⟨-, rfl⟩ | ⟨-, rfl⟩⟩ := Docker.mem_updateContainer.mp hc
      · cases hip
      · exact h.address _ hold ip hip
  | remove =>
    exact ⟨fun c hc => h.joined c (List.mem_of_mem_filter hc),
      fun c hc => h.address c (List.mem_of_mem_filter hc)⟩

/-- The container Docker has just created. -/
theorem Berth.of_createContainer {spec : ContainerSpec} {choice : Option String}
    (hd : d.WellFormed) (hname : spec.networkName = bridgeName octet)
    (hip : (ownerSubnet octet).contains spec.ipv4Address = true)
    (hok : (DockerOp.exec d (.createContainer spec) choice).1 = .ok id) :
    Berth (DockerOp.exec d (.createContainer spec) choice).2 owner octet id := by
  cases choice with
  | some msg => cases hok
  | none =>
    simp only [DockerOp.exec, failing, Docker.createContainer] at hok ⊢
    cases hfind : d.findContainer (.name spec.name) with
    | some c =>
      rw [hfind] at hok
      cases hok
    | none =>
      rw [hfind] at hok
      cases hok
      have hnew : ∀ c ∈ d.containers ++ [(⟨d.nextId, spec, .created, none, none⟩ : Container)],
          c.id = d.nextId → c = ⟨d.nextId, spec, .created, none, none⟩ := by
        intro c hc hid
        rcases List.mem_append.mp hc with hold | hnew
        · exact absurd hid (Nat.ne_of_lt (hd.containerIds_lt c hold))
        · exact List.mem_singleton.mp hnew
      constructor
      case id_lt => exact Nat.lt_succ_self _
      case networkName =>
        intro c hc hid
        rw [hnew c hc hid]
        exact hname
      case address =>
        intro c hc hid
        rw [hnew c hc hid]
        exact hip
      case joined =>
        intro c hc hid net hnet
        rw [hnew c hc hid] at hnet
        cases hnet

/-- A start that succeeds finds the container live, or puts it on a network. -/
theorem start_ok (hok : (d.start id).1 = .ok ()) :
    (∃ c, d.findContainer (.id id) = some c ∧ c.status.holdsEndpoint = true ∧
      (d.start id).2 = d) ∨
    ∃ net, (d.start id).2 = d.updateContainer id fun c => c.started net := by
  unfold Docker.start at hok ⊢
  cases hfind : d.findContainer (.id id) with
  | none =>
    rw [hfind] at hok
    cases hok
  | some c =>
    simp only [hfind] at hok ⊢
    by_cases hlive : c.status.holdsEndpoint = true
    · exact Or.inl ⟨c, rfl, hlive, by rw [if_pos hlive]⟩
    · right
      rw [if_neg hlive] at hok ⊢
      cases hnet : d.findNetwork c.spec.networkName with
      | none =>
        rw [hnet] at hok
        cases hok
      | some net =>
        simp only [hnet] at hok ⊢
        split at hok
        · cases hok
        · rename_i hsubnet
          split at hok
          · cases hok
          · rename_i haddress
            split at hok
            · cases hok
            · rename_i hport
              exact ⟨net, by rw [if_neg hsubnet, if_neg haddress, if_neg hport]; rfl⟩

/-- The container Docker has just started. -/
theorem Moored.of_start {choice : Option String} (hd : d.WellFormed) (hends : Endpoints d)
    (hok : (DockerOp.exec d (.start id) choice).1 = .ok ()) :
    Moored (DockerOp.exec d (.start id) choice).2 id := by
  cases choice with
  | some msg => cases hok
  | none =>
    simp only [DockerOp.exec, failing] at hok ⊢
    rcases start_ok hok with ⟨c, hfind, hlive, hsame⟩ | ⟨net, hstarted⟩
    · obtain ⟨hmem, hid⟩ := Docker.mem_of_findContainer_id hfind
      rw [hsame]
      intro c' hc' hid'
      rw [Db.eq_of_nodup_map hd.containerIds hc' hmem (hid'.trans hid.symm)]
      exact hends.joined c hmem hlive
    · rw [hstarted]
      intro c hc hid
      obtain ⟨old, -, ⟨-, rfl⟩ | ⟨hne, rfl⟩⟩ := Docker.mem_updateContainer.mp hc
      · rfl
      · exact absurd hid hne

end Docker

/-! ## The invariant -/

/-- The row's owner holds an octet, and its address and container belong to it. -/
def RowOwned (db : Db) (d : Docker) (row : Instance) : Prop :=
  ∃ octet, db.getOctet row.owner = some octet ∧
    (∃ ip, row.assignedIp = some ip ∧ (ownerSubnet octet).contains ip = true) ∧
    Berth d row.owner octet row.containerId ∧ Moored d row.containerId

/-- What a spawn under way has secured. -/
def SpawnPhase.Secured (db : Db) (d : Docker) : SpawnPhase → Prop
  | .idle => True
  | .spawning owner octet => db.getOctet owner = some octet
  | .created owner octet id => db.getOctet owner = some octet ∧ Berth d owner octet id
  | .started owner octet id =>
    db.getOctet owner = some octet ∧ Berth d owner octet id ∧ Moored d id

structure NetworksOwned (w : World) (phases : List SpawnPhase) : Prop where
  db : w.db.WellFormed
  docker : w.docker.WellFormed
  endpoints : Endpoints w.docker
  networks : NetworkLabels w.db w.docker
  rows : ∀ row ∈ w.db.instances, RowOwned w.db w.docker row
  phases : ∀ phase ∈ phases, phase.Secured w.db w.docker

/-- An octet is freed only when its owner has no row, no spawn under way and no network left. -/
def FreesSafely (w : World) (phases : List SpawnPhase) (event : Event daemonEffect) : Prop :=
  ∀ owner octet, event.op = .db (.freeOctet owner) → w.db.getOctet owner = some octet →
    (∀ row ∈ w.db.instances, row.owner ≠ owner) ∧
    (∀ phase ∈ phases, ∀ held, phase.flight ≠ some (owner, held)) ∧
    ∀ net ∈ w.docker.networks, net.name ≠ bridgeName octet

theorem SpawnPhase.Secured.held {db : Db} {d : Docker} {phase : SpawnPhase} {owner : Owner}
    {octet : Octet} (h : phase.Secured db d) (hflight : phase.flight = some (owner, octet)) :
    db.getOctet owner = some octet := by
  cases phase with
  | idle => cases hflight
  | spawning _ _ =>
    cases hflight
    exact h
  | created _ _ _ | started _ _ _ =>
    cases hflight
    exact h.1

section Steps

variable {w : World} {phases : List SpawnPhase} {phase : SpawnPhase} {tid : Nat}

/-- A step replaces the phase of its own thread. -/
theorem secured_set {db : Db} {d : Docker} {phase' : SpawnPhase}
    (hphases : ∀ φ ∈ phases, φ.Secured db d) (hphase' : phase'.Secured db d) :
    ∀ φ ∈ phases.set tid phase', φ.Secured db d := by
  intro φ hφ
  rcases List.mem_or_eq_of_mem_set hφ with hold | rfl
  · exact hphases φ hold
  · exact hphase'

/-! ### Calls of `DatabaseManager` -/

/-- Whoever still counts on an octet keeps it. -/
theorem FreesSafely.keeps {op : DbOp} {event : Event daemonEffect}
    (hfrees : FreesSafely w phases event) (hop : event.op = .db op) {owner : Owner} {octet : Octet}
    (hheld : w.db.getOctet owner = some octet)
    (hcounts : (∃ row ∈ w.db.instances, row.owner = owner) ∨
      (∃ φ ∈ phases, φ.flight = some (owner, octet)) ∨
      ∃ net ∈ w.docker.networks, net.name = bridgeName octet) :
    (op.exec w.db).2.getOctet owner = some octet := by
  apply Db.getOctet_exec hheld
  rintro rfl
  obtain ⟨hrows, hphases, hnetworks⟩ := hfrees owner octet hop hheld
  rcases hcounts with ⟨row, hrow, howner⟩ | ⟨φ, hφ, hflight⟩ | ⟨net, hnet, hname⟩
  · exact hrows row hrow howner
  · exact hphases φ hφ octet hflight
  · exact hnetworks net hnet hname

theorem NetworksOwned.db_step {op : DbOp} {event : Event daemonEffect}
    (h : NetworksOwned w phases) (hget : phases[tid]? = some phase)
    (hadmits : phase.admits (.db op)) (hfrees : FreesSafely w phases event)
    (hop : event.op = .db op) :
    NetworksOwned { w with db := (op.exec w.db).2 }
      (phases.set tid (phase.next (.db op) (op.exec w.db).1)) := by
  have hmem : phase ∈ phases := List.mem_of_getElem? hget
  have hphases : ∀ φ ∈ phases, φ.Secured (op.exec w.db).2 w.docker := by
    intro φ hφ
    have hkeeps : ∀ owner octet, φ.flight = some (owner, octet) →
        (op.exec w.db).2.getOctet owner = some octet := fun owner octet hflight =>
      hfrees.keeps hop ((h.phases φ hφ).held hflight) (Or.inr (Or.inl ⟨φ, hφ, hflight⟩))
    have hsecured := h.phases φ hφ
    cases φ with
    | idle => trivial
    | spawning owner octet => exact hkeeps owner octet rfl
    | created owner octet id => exact ⟨hkeeps owner octet rfl, hsecured.2⟩
    | started owner octet id => exact ⟨hkeeps owner octet rfl, hsecured.2⟩
  refine ⟨h.db.exec op, h.docker, h.endpoints, ?_, ?_, secured_set hphases ?_⟩
  · intro net hnet octet hname
    obtain ⟨owner, hheld, hlabels⟩ := h.networks net hnet octet hname
    exact ⟨owner, hfrees.keeps hop hheld (Or.inr (Or.inr ⟨net, hnet, hname⟩)), hlabels⟩
  · intro row hrow
    rcases Db.instances_exec hrow with rfl | ⟨old, hold, hkey, hassigned, hid⟩
    · obtain ⟨octet, rfl, hip⟩ := hadmits
      obtain ⟨hheld, hberth, hmoored⟩ := hphases _ hmem
      exact ⟨octet, hheld, hip, hberth, hmoored⟩
    · obtain ⟨octet, hheld, hip, hberth, hmoored⟩ := h.rows old hold
      have howner : row.owner = old.owner := congrArg Prod.fst hkey
      unfold RowOwned
      rw [howner, hassigned, hid]
      exact ⟨octet, hfrees.keeps hop hheld (Or.inl ⟨old, hold, rfl⟩), hip, hberth, hmoored⟩
  · cases op with
    | allocateOctet owner =>
      cases hallocated : (DbOp.exec w.db (.allocateOctet owner)).1 with
      | ok octet => exact Db.getOctet_of_allocateOctet hallocated
      | error err => exact hphases phase hmem
    | addInstance row => trivial
    | _ => exact hphases phase hmem

/-! ### Calls of Docker -/

/-- A network is only created by a spawn, for its own owner. -/
theorem NetworkLabels.step {db : Db} {d d' : Docker} {op : DockerOp} (h : NetworkLabels db d)
    (hsecured : phase.Secured db d) (hadmits : phase.admits (.docker op))
    (hstep : DockerStep d op d') : NetworkLabels db d' := by
  cases hstep with
  | same | createContainer | start _ _ _ | stop | remove => exact h
  | createNetwork _ =>
    obtain ⟨owner, octet, rfl, rfl, rfl⟩ := hadmits
    intro net hnet octet' hname
    rcases List.mem_append.mp hnet with hold | hnew
    · exact h net hold octet' hname
    · rw [List.mem_singleton.mp hnew] at hname ⊢
      rw [← bridgeName_injective hname]
      exact ⟨owner, hsecured, rfl⟩
  | removeNetwork _ =>
    intro net hnet
    exact h net (List.mem_of_mem_filter hnet)

theorem NetworksOwned.docker_step {op : DockerOp} (choice : op.Choice)
    (h : NetworksOwned w phases) (hget : phases[tid]? = some phase)
    (hadmits : phase.admits (.docker op)) :
    NetworksOwned { w with docker := (op.exec w.docker choice).2 }
      (phases.set tid (phase.next (.docker op) (op.exec w.docker choice).1)) := by
  have hmem : phase ∈ phases := List.mem_of_getElem? hget
  have hstep := op.exec_step w.docker choice
  have hberth : ∀ {owner octet id}, w.db.getOctet owner = some octet →
      Berth w.docker owner octet id → Berth (op.exec w.docker choice).2 owner octet id :=
    fun hheld hberth => hberth.step h.docker h.db h.networks hheld hstep
  have hphases : ∀ φ ∈ phases, φ.Secured w.db (op.exec w.docker choice).2 := by
    intro φ hφ
    have hsecured := h.phases φ hφ
    cases φ with
    | idle => trivial
    | spawning owner octet => exact hsecured
    | created owner octet id => exact ⟨hsecured.1, hberth hsecured.1 hsecured.2⟩
    | started owner octet id =>
      obtain ⟨hheld, hold, hmoored⟩ := hsecured
      exact ⟨hheld, hberth hheld hold, hmoored.step h.docker hold.id_lt hstep⟩
  refine ⟨h.db, h.docker.step hstep, h.endpoints.step hstep,
    h.networks.step (h.phases phase hmem) hadmits hstep, ?_, secured_set hphases ?_⟩
  · intro row hrow
    obtain ⟨octet, hheld, hip, hold, hmoored⟩ := h.rows row hrow
    exact ⟨octet, hheld, hip, hberth hheld hold, hmoored.step h.docker hold.id_lt hstep⟩
  · cases op with
    | createContainer spec =>
      obtain ⟨owner, octet, hflight, hname, hip⟩ := hadmits
      cases hcreated : (DockerOp.exec w.docker (.createContainer spec) choice).1 with
      | error err => exact hphases phase hmem
      | ok id =>
        have hnext : phase.withContainer id = .created owner octet id := by
          cases phase <;> cases hflight <;> rfl
        show (phase.withContainer id).Secured _ _
        rw [hnext]
        exact ⟨(h.phases phase hmem).held hflight,
          Berth.of_createContainer h.docker hname hip hcreated⟩
    | start id =>
      obtain ⟨owner, octet, rfl⟩ := hadmits
      cases hstarted : (DockerOp.exec w.docker (.start id) choice).1 with
      | error err => exact hphases _ hmem
      | ok _ =>
        obtain ⟨hheld, hold⟩ := hphases _ hmem
        exact ⟨hheld, hold, Moored.of_start h.docker h.endpoints hstarted⟩
    | _ => exact hphases phase hmem

/-- Docker's answer about a started container is the one its spawn counts on. -/
theorem NetworksOwned.expected_containersGet {owner : Owner} {octet : Octet} {id id' : ContainerId}
    (choice : Option String) (h : NetworksOwned w phases)
    (hsecured : (SpawnPhase.started owner octet id).Secured w.db w.docker) :
    (SpawnPhase.started owner octet id).expected (.docker (.containersGet (.id id')))
      (DockerOp.exec w.docker (.containersGet (.id id')) choice).1 := by
  cases hfound : (DockerOp.exec w.docker (.containersGet (.id id')) choice).1 with
  | error err => trivial
  | ok c =>
    rintro rfl
    obtain ⟨hmem, hid⟩ := Docker.mem_of_findContainer_id (DockerOp.findContainer_of_ok hfound)
    refine ⟨hid, fun ip hip => ?_⟩
    rw [h.endpoints.address c hmem ip hip]
    exact hsecured.2.1.address c hmem hid

theorem NetworksOwned.expected {op : DaemonOp} {res : op.Res} {w' : World} {policy : Policy}
    (h : NetworksOwned w phases) (hsecured : phase.Secured w.db w.docker)
    (hsem : daemonSem policy w op res w') : phase.expected op res := by
  obtain ⟨choice, -, hexec⟩ := hsem
  cases phase with
  | started owner octet id =>
    cases op with
    | docker op =>
      cases op with
      | containersGet ref =>
        cases ref with
        | id id' =>
          cases hexec
          exact h.expected_containersGet choice hsecured
        | name name => trivial
      | _ => trivial
    | _ => trivial
  | _ => trivial

/-- **Every call a handler can make keeps the networks owned.** -/
theorem NetworksOwned.step {op : DaemonOp} {res : op.Res} {w' : World} {policy : Policy}
    (h : NetworksOwned w phases) (hget : phases[tid]? = some phase) (hadmits : phase.admits op)
    (hsem : daemonSem policy w op res w') (hfrees : FreesSafely w phases ⟨tid, op, res⟩) :
    NetworksOwned w' (phases.set tid (phase.next op res)) := by
  have hmem : phase ∈ phases := List.mem_of_getElem? hget
  have hsame : ∀ {phase' : SpawnPhase}, phase'.Secured w.db w.docker →
      NetworksOwned w (phases.set tid phase') := fun hphase' =>
    { h with phases := secured_set h.phases hphase' }
  obtain ⟨choice, -, hexec⟩ := hsem
  cases op with
  | db op =>
    cases hexec
    exact h.db_step hget hadmits hfrees rfl
  | docker op =>
    cases hexec
    exact h.docker_step choice hget hadmits
  | filter op | wg op =>
    cases hexec
    exact { hsame (h.phases phase hmem) with }
  | host op =>
    obtain ⟨result, -, hresult⟩ := Option.map_eq_some_iff.mp hexec
    cases hresult
    have hnext : (phase.next (.host op) result.1).Secured w.db w.docker := by
      cases op with
      | releaseSpawn => trivial
      | _ => exact h.phases phase hmem
    exact { hsame hnext with }

end Steps

/-! ## Runs -/

abbrev SpawnConfig := Config daemonEffect PyErr SpawnPhase World

/-- One thread for each connection. -/
def startConnections (env : DaemonEnv) (requests : List Request) (w : World) : SpawnConfig :=
  ⟨w, requests.map fun request => ⟨.idle, serve env request⟩⟩

/-- Every tracked instance is on its owner's network: the owner holds an octet, the address lies in
    its subnet, and the container is attached to the network created for the owner. -/
def InstancesOnOwnNetwork (w : World) : Prop :=
  ∀ row ∈ w.db.instances, ∃ octet, w.db.getOctet row.owner = some octet ∧
    (∃ ip, row.assignedIp = some ip ∧ (ownerSubnet octet).contains ip = true) ∧
    ∀ c ∈ w.docker.containers, c.id = row.containerId →
      ∃ net, c.network = some net ∧ net.name = bridgeName octet ∧
        net.labels = ownerLabels row.owner

theorem NetworksOwned.instancesOnOwnNetwork {w : World} {phases : List SpawnPhase}
    (h : NetworksOwned w phases) : InstancesOnOwnNetwork w := by
  intro row hrow
  obtain ⟨octet, hheld, hip, hberth, hmoored⟩ := h.rows row hrow
  refine ⟨octet, hheld, hip, fun c hc hid => ?_⟩
  obtain ⟨net, hnet⟩ := Option.isSome_iff_exists.mp (hmoored c hc hid)
  exact ⟨net, hnet, hberth.joined c hc hid net hnet⟩

/-- **Ownership in every interleaving.**  From a state in which the networks are owned, and whatever
    fails, as long as no octet is freed under its owner, every instance that is tracked at any point
    is on its owner's network. -/
theorem instances_onOwnNetwork (policy : Policy) (env : DaemonEnv) (requests : List Request)
    (w : World) (c : SpawnConfig)
    (hrequests : ∀ request ∈ requests, request.managesContainers = true)
    (hstart : NetworksOwned w [])
    (hrun : Reach (daemonSem policy) SpawnPhase.next FreesSafely
      (startConnections env requests w) c) : InstancesOnOwnNetwork c.world := by
  have hconf : ∀ thread ∈ (startConnections env requests w).threads,
      Spawns thread.prog (fun _ _ => True) thread.phase := by
    intro thread hthread
    obtain ⟨request, hrequest, rfl⟩ := List.mem_map.mp hthread
    exact spawns_serve (hrequests request hrequest)
  have hinit : NetworksOwned (startConnections env requests w).world
      (startConnections env requests w).phases := by
    refine { hstart with phases := ?_ }
    intro phase hphase
    obtain ⟨thread, hthread, rfl⟩ := List.mem_map.mp hphase
    obtain ⟨request, -, rfl⟩ := List.mem_map.mp hthread
    trivial
  have hkeeps : ∀ world phases tid phase (op : DaemonOp) (res : op.Res) world',
      NetworksOwned world phases → phases[tid]? = some phase → SpawnPhase.admits phase op →
      daemonSem policy world op res world' → FreesSafely world phases ⟨tid, op, res⟩ →
      SpawnPhase.expected phase op res ∧
        NetworksOwned world' (phases.set tid (SpawnPhase.next phase op res)) := by
    intro world phases tid phase op res world' h hget hadmits hsem hfrees
    exact ⟨h.expected (h.phases phase (List.mem_of_getElem? hget)) hsem,
      h.step hget hadmits hsem hfrees⟩
  exact (reach_invariant hkeeps hconf hinit hrun).1.instancesOnOwnNetwork

/-- A daemon that has just been installed. -/
def freshHost : World where
  db := Db.empty
  docker := Docker.empty
  filter := fun chain => match chain with
    | .dockerUser | .forward | .input => some []
    | .edoForward | .edoInput => none
  wg := ⟨"", [], []⟩
  spawnPermits := 4

theorem freshHost_networksOwned : NetworksOwned freshHost [] where
  db := Db.WellFormed.empty
  docker := Docker.WellFormed.empty
  endpoints := ⟨fun _ hc => (nomatch hc), fun _ hc => (nomatch hc)⟩
  networks := fun _ hnet => nomatch hnet
  rows := fun _ hrow => nomatch hrow
  phases := fun _ hphase => nomatch hphase

def spawnRequest (owner : Owner) (challengeRef : String) : Request :=
  .containerEnsureInstance owner challengeRef ("/challenges/" ++ challengeRef)
    SecurityProfile.default none false

/-- In each block, one connection makes so many uneventful calls. -/
def uneventful (check : World → List SpawnPhase → Event daemonEffect → Bool)
    (blocks : List (Nat × Nat)) (requests : List Request) : Option SpawnConfig :=
  quietThreads SpawnPhase.next check blocks (startConnections DaemonEnv.default requests freshHost)

/-- The owner has no row, no spawn under way and no network left. -/
def hasNothing (w : World) (phases : List SpawnPhase) (owner : Owner) (octet : Octet) : Bool :=
  w.db.instances.all (fun row => row.owner ≠ owner) &&
    phases.all (fun phase => phase.flight.all fun flight => flight.1 ≠ owner) &&
    w.docker.networks.all fun net => net.name ≠ bridgeName octet

/-- A step that frees an octet frees one of an owner that has nothing else. -/
def freesIdle (w : World) (phases : List SpawnPhase) (event : Event daemonEffect) : Bool :=
  match event.op with
  | .db (.freeOctet owner) => (w.db.getOctet owner).all (hasNothing w phases owner)
  | _ => true

theorem freesSafely_of_freesIdle {w : World} {phases : List SpawnPhase} {event : Event daemonEffect}
    (h : freesIdle w phases event = true) : FreesSafely w phases event := by
  obtain ⟨tid, op, res⟩ := event
  rintro owner octet rfl hheld
  simp only [freesIdle, hheld, Option.all_some, hasNothing, Bool.and_eq_true, List.all_eq_true,
    decide_eq_true_eq] at h
  obtain ⟨⟨hrows, hphases⟩, hnetworks⟩ := h
  refine ⟨hrows, ?_, hnetworks⟩
  intro phase hphase held hflight
  have hother := hphases phase hphase
  rw [hflight] at hother
  simp at hother

/-- While the second team spawns, the first team's only instance is released, and its octet goes to
    the third team. -/
def freedAndTaken : Option SpawnConfig :=
  uneventful freesIdle [(0, 18), (1, 8), (2, 12), (1, 10), (3, 18)]
    [spawnRequest ⟨"team", 1⟩ "web-1", spawnRequest ⟨"team", 2⟩ "web-1",
      .containerReleaseInstance 1, spawnRequest ⟨"team", 3⟩ "web-1"]

theorem freedAndTaken_tracked : freedAndTaken.any (fun c => decide (
    c.world.db.instances.map Instance.owner = [⟨"team", 2⟩, ⟨"team", 3⟩] ∧
      c.world.db.getOctet ⟨"team", 3⟩ = some ⟨1, by decide⟩)) = true := by
  decide +kernel

theorem instances_onOwnNetwork_freedAndTaken :
    ∃ c, (freedAndTaken = some c ∧ c.world.db.getOctet ⟨"team", 3⟩ = some ⟨1, by decide⟩) ∧
      InstancesOnOwnNetwork c.world := by
  obtain ⟨c, hrun, htracked⟩ := (Option.any_eq_true _ _).mp freedAndTaken_tracked
  obtain ⟨-, htaken⟩ := of_decide_eq_true htracked
  refine ⟨c, ⟨hrun, htaken⟩, ?_⟩
  exact instances_onOwnNetwork noFault DaemonEnv.default _ freshHost c (by decide)
    freshHost_networksOwned ((reach_quietThreads hrun).mono fun _ _ _ => freesSafely_of_freesIdle)

/-- While the first team builds a second image, its first instance is released and its octet goes to
    the second team, whose network is there when the first team's container starts. -/
def releaseDuringBuild : Option SpawnConfig :=
  uneventful (fun _ _ _ => true) [(0, 18), (1, 8), (2, 12), (3, 7), (1, 8)]
    [spawnRequest ⟨"team", 1⟩ "web-1", spawnRequest ⟨"team", 1⟩ "web-2",
      .containerReleaseInstance 1, spawnRequest ⟨"team", 2⟩ "web-1"]

/-- A row of an owner without an octet, whose container is on a network of the second team. -/
def onForeignNetwork (w : World) : Bool :=
  w.db.instances.any fun row => (w.db.getOctet row.owner).isNone &&
    w.docker.containers.any fun c => c.id = row.containerId ∧
      c.network.any fun net => net.labels = ownerLabels ⟨"team", 2⟩

theorem releaseDuringBuild_foreign :
    releaseDuringBuild.any (fun c => onForeignNetwork c.world) = true := by
  decide +kernel

/-- **An octet can be freed under a spawn.** -/
theorem not_instances_onOwnNetwork :
    ¬ ∀ (env : DaemonEnv) (requests : List Request) (w : World) (c : SpawnConfig),
      (∀ request ∈ requests, request.managesContainers = true) → NetworksOwned w [] →
      Reach (daemonSem noFault) SpawnPhase.next (fun _ _ _ => True)
        (startConnections env requests w) c → InstancesOnOwnNetwork c.world := by
  intro hall
  obtain ⟨c, hrun, hforeign⟩ := (Option.any_eq_true _ _).mp releaseDuringBuild_foreign
  have hreach : Reach (daemonSem noFault) SpawnPhase.next (fun _ _ _ => True) _ c :=
    (reach_quietThreads hrun).mono fun _ _ _ _ => trivial
  have howned := hall _ _ _ c (by decide) freshHost_networksOwned hreach
  simp only [onForeignNetwork, List.any_eq_true, Bool.and_eq_true] at hforeign
  obtain ⟨row, hrow, hnone, -⟩ := hforeign
  obtain ⟨octet, hheld, -⟩ := howned row hrow
  rw [hheld] at hnone
  cases hnone

end EdoPlugin
