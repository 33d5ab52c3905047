import EdoPlugin.SpawnRollback

/-!
# The addresses of the containers

A spawn takes the first host of the owner's subnet that no row in status `running` has.  A row that a
reconcile took out of `running` keeps its address, so the next spawn of the owner can take the same
one; as long as that does not happen the addresses are distinct.
-/

namespace EdoPlugin

open Interaction

variable {policy : Policy} {env : DaemonEnv} {α : Type} {owner : Owner}
  {challengeRef buildPath : String} {security : Option SecurityProfile} {ttlSeconds : Option Int}
  {publishPorts : Bool} {plan : SpawnPlan} {w w' : World}

/-! ## The property of the table -/

/-- The row has an address in its owner's subnet, and not the gateway's. -/
def Db.Addressed (db : Db) (row : Instance) : Prop :=
  ∃ octet ip, db.getOctet row.owner = some octet ∧ row.assignedIp = some ip ∧
    (ownerSubnet octet).contains ip = true ∧ ip ≠ ownerGatewayIp octet

structure Db.AddressesUnique (db : Db) : Prop where
  distinct : (db.instances.map fun row => (row.owner, row.assignedIp)).Nodup
  addressed : ∀ row ∈ db.instances, db.Addressed row

namespace Db.AddressesUnique

variable {db : Db}

theorem empty : Db.empty.AddressesUnique := ⟨List.nodup_nil, fun _ h => nomatch h⟩

theorem removeInstance (h : db.AddressesUnique) (containerId : ContainerId) :
    (db.removeInstance containerId).2.AddressesUnique :=
  ⟨nodup_map_filter _ h.distinct, fun row hrow => h.addressed row (List.mem_of_mem_filter hrow)⟩

theorem updateInstanceStatus (h : db.AddressesUnique) (containerId : ContainerId) (status : Status) :
    (db.updateInstanceStatus containerId status).2.AddressesUnique := by
  constructor
  · rw [map_updateInstanceStatus (fun row => (row.owner, row.assignedIp)) fun _ _ => rfl]
    exact h.distinct
  · intro row hrow
    obtain ⟨old, hold, rfl⟩ := List.mem_map.mp hrow
    have haddressed := h.addressed old hold
    split
    · exact haddressed
    · exact haddressed

theorem freeOctet (h : db.AddressesUnique) (hidle : ∀ row ∈ db.instances, row.owner ≠ owner) :
    (db.freeOctet owner).2.AddressesUnique := by
  refine ⟨h.distinct, ?_⟩
  intro row hrow
  obtain ⟨octet, ip, hheld, haddress⟩ := h.addressed row hrow
  exact ⟨octet, ip, (getOctet_freeOctet (hidle row hrow)).trans hheld, haddress⟩

theorem allocateOctet (h : db.AddressesUnique) : (db.allocateOctet owner).2.AddressesUnique := by
  have hinstances : (db.allocateOctet owner).2.instances = db.instances := instances_allocateOctet
  refine ⟨hinstances ▸ h.distinct, ?_⟩
  intro row hrow
  rw [hinstances] at hrow
  obtain ⟨octet, ip, hheld, haddress⟩ := h.addressed row hrow
  exact ⟨octet, ip, getOctet_allocateOctet hheld, haddress⟩

/-- A row at an address that no row of its owner has can be added. -/
theorem addInstance {row : Instance} (h : db.AddressesUnique) (haddressed : db.Addressed row)
    (hfree : ∀ other ∈ db.instances, other.owner = row.owner → other.assignedIp ≠ row.assignedIp) :
    (db.addInstance row).2.AddressesUnique := by
  rcases db.addInstance_cases row with ⟨hadded, -⟩ | ⟨msg, hadded⟩
  · rw [hadded]
    constructor
    · refine nodup_map_append_singleton h.distinct ?_
      intro other hother heq
      rw [Prod.mk.injEq] at heq
      exact hfree other hother heq.1 heq.2
    · intro other hother
      rcases List.mem_append.mp hother with hold | hnew
      · exact h.addressed other hold
      · rw [List.mem_singleton.mp hnew]
        exact haddressed
  · rw [hadded]
    exact h

end Db.AddressesUnique

/-- What the address of the next attempt is. -/
theorem nextOwnerIp_ok {db : Db} {octet : Octet} {ip : IPv4Address}
    (h : db.nextOwnerIp owner octet = .ok ip) :
    (ownerSubnet octet).contains ip = true ∧ ip ≠ ownerGatewayIp octet := by
  unfold Db.nextOwnerIp iterSubnetHosts at h
  split at h
  · rename_i host hfind
    cases h
    refine ⟨ownerSubnet_contains_of_mem_hosts (List.mem_of_find?_eq_some hfind), ?_⟩
    intro hgateway
    have hfree := List.find?_some hfind
    rw [hgateway] at hfree
    simp at hfree
  · cases h

/-! ## Releases and reconciliations -/

/-- The calls that leave the tables alone. -/
def keepsTables : DaemonOp → Prop
  | .db op => ∀ db, (op.exec db).2 = db
  | _ => True

theorem wp_keepsTables {p : Daemon α} (hp : CallsOnly keepsTables p) :
    wp (daemonSem policy) (fun _ _ => True) p (fun _ w' => w'.db = w.db) w := by
  refine wp_guard_mono (CallsOnly.preserves (I := fun w' : World => w'.db = w.db) hp ?_ rfl)
    fun _ _ _ => trivial
  rintro w₁ op res w₂ hcall hdb ⟨choice, -, hexec⟩
  cases op with
  | db op =>
    cases hexec
    exact (hcall w₁.db).trans hdb
  | docker op | filter op | wg op =>
    cases hexec
    exact hdb
  | host op =>
    obtain ⟨result, -, hresult⟩ := Option.map_eq_some_iff.mp hexec
    cases hresult
    exact hdb

theorem keepsTables_of_auxiliaryCall (op : DaemonOp) (h : auxiliaryCall op) : keepsTables op := by
  unfold auxiliaryCall at h
  split at h <;> first | exact fun _ => rfl | trivial

theorem keepsTables_of_filterCall (op : DaemonOp) (h : filterCall op) : keepsTables op := by
  unfold filterCall at h
  split at h <;> trivial

theorem wp_rebuildFirewall_sameDb : wp (daemonSem policy) (fun _ _ => True) (rebuildFirewall env)
    (fun _ w' => w'.db = w.db) w := by
  refine wp_keepsTables ?_
  refine CallsOnly.bind (CallsOnly.perform fun _ => rfl) fun peersByOwner => ?_
  refine CallsOnly.bind (CallsOnly.perform fun _ => rfl) fun rows => ?_
  exact CallsOnly.bind (callsOnly_applyFirewall.mono keepsTables_of_filterCall) fun _ => .ret

theorem wp_releaseOwnerNetworkIfIdle_addresses (h : w.db.AddressesUnique) :
    wp (daemonSem policy) (fun _ _ => True) (releaseOwnerNetworkIfIdle owner)
      (fun _ w' => w'.db.AddressesUnique) w := by
  refine wp_callDb trivial ?_
  show wp _ _ (if 0 < w.db.countInstancesForOwner owner then _ else _) _ _
  by_cases hcount : 0 < w.db.countInstancesForOwner owner
  · rw [if_pos hcount]
    exact h
  · rw [if_neg hcount]
    have hidle : ∀ row ∈ w.db.instances, row.owner ≠ owner := by
      intro row hrow hrowOwner
      exact hcount (List.length_pos_of_mem (List.mem_filter.mpr ⟨hrow, decide_eq_true hrowOwner⟩))
    refine wp_callDb trivial ?_
    split
    · exact h
    · refine wp_dockerClient trivial (wp_networksGet trivial ?_ ?_ ?_) ?_
      · intro net _
        refine wp_callDocker trivial fun fault _ => ?_
        split
        · exact h
        · exact wp_callDb trivial (h.freeOctet hidle)
      · exact fun _ _ => h
      · exact fun _ _ => h
      · exact fun _ _ => h

theorem wp_releaseInstance_addresses {containerId : ContainerId} (h : w.db.AddressesUnique) :
    wp (daemonSem policy) (fun _ _ => True) (releaseInstance containerId)
      (fun _ w' => w'.db.AddressesUnique) w := by
  have hforget : ∀ inst, ∀ w₁ : World, w₁.db = w.db → wp (daemonSem policy) (fun _ _ => True)
      (forgetInstance inst containerId) (fun _ w' => w'.db.AddressesUnique) w₁ := by
    intro inst w₁ hdb
    have hremoved : (w₁.db.removeInstance containerId).2.AddressesUnique := by
      rw [hdb]
      exact h.removeInstance containerId
    refine wp_callDb trivial ?_
    cases inst with
    | none => exact hremoved
    | some row =>
      exact wp_seq (wp_releaseOwnerNetworkIfIdle_addresses hremoved) (fun _ _ h => h) fun _ _ h => h
  refine wp_dockerClient trivial (wp_callDb trivial ?_) fun _ _ => h
  refine wp_seq wp_stopAndRemove ?_ ?_
  · rintro stopped w₁ ⟨_, -, hanswered⟩
    cases stopped with
    | ok _ => exact hforget _ w₁ hanswered.db
    | error err =>
      cases err with
      | notFound msg => exact hforget _ w₁ hanswered.db
      | apiError msg =>
        show w₁.db.AddressesUnique
        rw [hanswered.db]
        exact h
  · rintro err w₁ ⟨_, h, -⟩
    cases h

theorem wp_reconcile_addresses (h : w.db.AddressesUnique) :
    wp (daemonSem policy) (fun _ _ => True) reconcile (fun _ w' => w'.db.AddressesUnique) w := by
  have hone : ∀ row, ∀ {w : World}, w.db.AddressesUnique → wp (daemonSem policy) (fun _ _ => True)
      (reconcileOne row) (fun _ w' => w'.db.AddressesUnique) w := by
    intro row w h
    refine wp_containersGet trivial ?_ ?_ fun _ _ => h
    · intro c _
      refine wp_ite (wp_callDb trivial ?_) h
      exact h.updateInstanceStatus _ _
    · intro msg _
      refine wp_callDb trivial ?_
      exact wp_seq (wp_releaseOwnerNetworkIfIdle_addresses (h.removeInstance _)) (fun _ _ h => h)
        fun _ _ h => h
  have heach : ∀ rows, ∀ {w : World}, w.db.AddressesUnique → wp (daemonSem policy) (fun _ _ => True)
      (reconcileEach rows) (fun _ w' => w'.db.AddressesUnique) w := by
    intro rows
    induction rows with
    | nil => exact id
    | cons row rows ih =>
      intro w h
      refine wp_seq (hone row h) ?_ fun _ _ h => h
      intro _ w₁ h₁
      exact wp_seq (ih h₁) (fun _ _ h => h) fun _ _ h => h
  exact wp_dockerClient trivial (wp_callDb trivial (heach _ h)) fun _ _ => h

/-! ## Spawns -/

/-- The container of the attempts was created at the address, and with the host ports, that were free
    before the first of them. -/
structure StartedBy (env : DaemonEnv) (plan : SpawnPlan) (w : World)
    (out : Except PyErr AttemptsOutcome) (w' : World) : Prop where
  db : w'.db = w.db
  container : ∀ c ip, out = .ok (.started c ip) →
    w.db.nextOwnerIp plan.owner plan.octet = .ok ip ∧
      w'.docker.findContainer (.id c.id) = some c ∧ c.ipAddress = some ip ∧
      ∃ triedPorts portMap, w.db.nextPorts env plan triedPorts = .ok portMap ∧
        c.spec = plan.spec ip portMap

theorem wp_spawnAttempts_started {rounds : Nat} {triedIps : List IPv4Address} {triedPorts : List Nat}
    {lastError : String} (h : w.docker.WellFormed) :
    wp (daemonSem policy) (fun _ _ => True)
      (spawnAttempts env plan rounds triedIps triedPorts lastError) (StartedBy env plan w) w := by
  have hnothing : ∀ {w w' : World} {out : Except PyErr AttemptsOutcome}, isStarted out = false →
      w'.db = w.db → StartedBy env plan w out w' := by
    intro w w' out hstarted hdb
    refine ⟨hdb, ?_⟩
    rintro c ip rfl
    cases hstarted
  induction rounds generalizing w triedIps triedPorts lastError with
  | zero => exact hnothing rfl rfl
  | succ rounds ih =>
    rw [spawnAttempts]
    refine wp_findNextOwnerIp ?_ fun _ _ => hnothing rfl rfl
    intro ip hip
    refine wp_ite (ih h) (wp_attemptPorts ?_)
    cases hports : w.db.nextPorts env plan triedPorts with
    | error msg => exact hnothing rfl rfl
    | ok portMap =>
      refine wp_seq (wp_and (wp_startContainer h) (wp_dockerWellFormed h)) ?_ ?_
      · rintro result w₁ ⟨⟨_, ⟨⟩, hattempted⟩, h₁⟩
        cases result with
        | ok c =>
          cases hattempted with
          | started _ hid hspec haddress =>
            refine ⟨rfl, ?_⟩
            rintro _ _ ⟨⟩
            refine ⟨hip, ?_, haddress, triedPorts, portMap, hports, hspec⟩
            rw [hid]
            exact h.findContainer_with hid
        | error err =>
          have hdb : w₁.db = w.db := by cases hattempted <;> rfl
          have hcleanup : wp (daemonSem policy) (fun _ _ => True) (forceRemoveByName plan.name)
              (fun _ w' => w'.db = w₁.db) w₁ :=
            wp_keepsTables (callsOnly_forceRemoveByName.mono keepsTables_of_auxiliaryCall)
          refine wp_seq (wp_and hcleanup (wp_dockerWellFormed h₁)) ?_ ?_
          · rintro _ w₂ ⟨hdb₂, h₂⟩
            refine wp_ite (wp_mono (ih h₂) ?_) (hnothing rfl (hdb₂.trans hdb))
            rintro out w' ⟨hsame, hcontainer⟩
            rw [hdb₂.trans hdb] at hsame hcontainer
            exact ⟨hsame, hcontainer⟩
          · rintro err w₂ ⟨hdb₂, -⟩
            exact hnothing rfl (hdb₂.trans hdb)
      · rintro err w₁ ⟨⟨_, h, -⟩, -⟩
        cases h

/-- The container of the attempts has the address that was free before the first of them. -/
structure StartedAt (plan : SpawnPlan) (w : World) (out : Except PyErr AttemptsOutcome) (w' : World) :
    Prop where
  db : w'.db = w.db
  address : ∀ c ip, out = .ok (.started c ip) → w.db.nextOwnerIp plan.owner plan.octet = .ok ip ∧
    w'.docker.findContainer (.id c.id) = some c ∧ c.ipAddress = some ip

theorem wp_spawnAttempts_address {rounds : Nat} {triedIps : List IPv4Address} {triedPorts : List Nat}
    {lastError : String} (h : w.docker.WellFormed) :
    wp (daemonSem policy) (fun _ _ => True)
      (spawnAttempts env plan rounds triedIps triedPorts lastError) (StartedAt plan w) w := by
  apply wp_mono (wp_spawnAttempts_started h)
  rintro out w' ⟨hdb, hcontainer⟩
  refine ⟨hdb, ?_⟩
  intro c ip hout
  obtain ⟨hip, hfind, haddress, -⟩ := hcontainer c ip hout
  exact ⟨hip, hfind, haddress⟩

/-- The row is stored at the address of its container. -/
theorem wp_recordInstance_addresses {c : Container} {ip : IPv4Address} (h : w.db.AddressesUnique)
    (hfind : w.docker.findContainer (.id c.id) = some c) (haddress : c.ipAddress = some ip)
    (hheld : w.db.getOctet plan.owner = some plan.octet)
    (hip : (ownerSubnet plan.octet).contains ip = true ∧ ip ≠ ownerGatewayIp plan.octet)
    (hfree : ∀ other ∈ w.db.instances, other.owner = plan.owner → other.assignedIp ≠ some ip) :
    wp (daemonSem policy) (fun _ _ => True) (recordInstance plan c ip)
      (fun _ w' => w'.db.AddressesUnique) w := by
  refine wp_liveContainerIp ?_
  intro live hlive
  have hsame : live.2.getD ip = ip := by
    rcases hlive with hnone | ⟨fresh, hfresh, hread⟩
    · rw [hnone]
      rfl
    · rw [hfind] at hfresh
      cases hfresh
      rw [hread, haddress]
      rfl
  refine wp_containersGet trivial ?_ (fun _ _ => h) fun _ _ => h
  intro fresh _
  rw [hsame]
  have hadded : (w.db.addInstance (plan.row fresh ip)).2.AddressesUnique :=
    h.addInstance ⟨plan.octet, ip, hheld, rfl, hip⟩ hfree
  refine wp_callDb trivial ?_
  split
  · exact hadded
  · exact wp_callDocker trivial fun _ _ => hadded

/-- The address the next container of the owner gets is not recorded on one of its rows. -/
def Db.NextAddressFree (db : Db) (owner : Owner) : Prop :=
  ∀ octet ip, db.getOctet owner = some octet → db.nextOwnerIp owner octet = .ok ip →
    ∀ row ∈ db.instances, row.owner = owner → row.assignedIp ≠ some ip

/-- The allocation of the octet changes neither the condition nor what it is about. -/
theorem nextAddressFree_allocateOctet {db : Db} {octet : Octet} (h : db.AddressesUnique)
    (hfree : db.NextAddressFree owner) (hallocated : (db.allocateOctet owner).1 = .ok octet) :
    (db.allocateOctet owner).2.getOctet owner = some octet ∧
      ∀ ip, (db.allocateOctet owner).2.nextOwnerIp owner octet = .ok ip →
        ∀ row ∈ (db.allocateOctet owner).2.instances, row.owner = owner →
          row.assignedIp ≠ some ip := by
  have hinstances : (db.allocateOctet owner).2.instances = db.instances := instances_allocateOctet
  refine ⟨Db.getOctet_of_allocateOctet hallocated, ?_⟩
  intro ip hip row hrow hrowOwner
  rw [hinstances] at hrow
  obtain ⟨held, _, hheld, -⟩ := h.addressed row hrow
  rw [hrowOwner] at hheld
  have hsame : held = octet := by
    rw [Db.allocateOctet_eq, hheld] at hallocated
    cases hallocated
    rfl
  subst hsame
  refine hfree held ip hheld ?_ row hrow hrowOwner
  simp only [Db.nextOwnerIp, Db.getUsedInstanceIps, hinstances] at hip
  exact hip

theorem wp_attemptAndRecord_addresses (hdocker : w.docker.WellFormed) (h : w.db.AddressesUnique)
    (hheld : w.db.getOctet plan.owner = some plan.octet)
    (hfree : ∀ ip, w.db.nextOwnerIp plan.owner plan.octet = .ok ip →
      ∀ row ∈ w.db.instances, row.owner = plan.owner → row.assignedIp ≠ some ip) :
    wp (daemonSem policy) (fun _ _ => True) (attemptAndRecord env plan)
      (fun _ w' => w'.db.AddressesUnique) w := by
  refine wp_seq (wp_spawnAttempts_address hdocker) ?_ ?_
  · rintro outcome w₁ ⟨hdb, haddress⟩
    cases outcome with
    | started c ip =>
      obtain ⟨hip, hfind, hlive⟩ := haddress c ip rfl
      refine wp_recordInstance_addresses (hdb ▸ h) hfind hlive (hdb ▸ hheld) (nextOwnerIp_ok hip) ?_
      rw [hdb]
      exact hfree ip hip
    | failed error =>
      show w₁.db.AddressesUnique
      rw [hdb]
      exact h
    | exhausted lastError =>
      show w₁.db.AddressesUnique
      rw [hdb]
      exact h
  · rintro err w₁ ⟨hdb, -⟩
    rw [hdb]
    exact h

/-- **A spawn keeps the addresses distinct when the next one is free.** -/
theorem wp_spawnInstance_addresses (hdocker : w.docker.WellFormed) (h : w.db.AddressesUnique)
    (hfree : w.db.findInstance owner challengeRef = none → w.db.NextAddressFree owner) :
    wp (daemonSem policy) (fun _ _ => True)
      (spawnInstance env owner challengeRef buildPath security ttlSeconds publishPorts)
      (fun _ w' => w'.db.AddressesUnique) w := by
  refine wp_callDb trivial ?_
  simp only [DbOp.exec]
  cases hfind : w.db.findInstance owner challengeRef with
  | some row => exact h
  | none =>
    refine wp_callHost trivial fun hasDockerfile permits => wp_ite ?_ h
    refine wp_seq (wp_and (wp_ensureOwnerNetwork_ensured hdocker) (wp_dockerWellFormed hdocker)) ?_ ?_
    · rintro octet w₁ ⟨hensured, hdocker₁⟩
      have hallocated : (w.db.allocateOctet owner).1 = .ok octet := hensured.octet octet rfl
      have h₁ : w₁.db.AddressesUnique := hensured.db ▸ h.allocateOctet
      obtain ⟨hheld, hnext⟩ := nextAddressFree_allocateOctet h (hfree hfind) hallocated
      have hdb : w₁.db = (w.db.allocateOctet owner).2 := hensured.db
      rw [← hdb] at hheld hnext
      rw [spawnOn_eq]
      have hprepare : wp (daemonSem policy) (fun w' _ => SameStores w₁ w')
          (prepareSpawn owner challengeRef buildPath security ttlSeconds publishPorts octet)
          (fun _ w' => SameStores w₁ w') w₁ := by
        refine CallsOnly.preserves (I := SameStores w₁) callsOnly_prepareSpawn ?_ ⟨rfl, rfl⟩
        intro _ _ _ _ hcall h hsem
        exact h.sem hcall hsem
      refine wp_seq (wp_and wp_prepareSpawn hprepare) ?_ ?_
      · rintro prepared w₂ ⟨hplan, hdb₂, hdocker₂⟩
        cases prepared with
        | error error =>
          show w₂.db.AddressesUnique
          rw [hdb₂]
          exact h₁
        | ok plan =>
          obtain ⟨rfl, -, rfl⟩ := hplan plan rfl
          refine wp_attemptAndRecord_addresses (hdocker₂ ▸ hdocker₁) (hdb₂ ▸ h₁) (hdb₂ ▸ hheld) ?_
          rw [hdb₂]
          exact hnext
      · rintro err w₂ ⟨-, hdb₂, -⟩
        rw [hdb₂]
        exact h₁
    · rintro err w₁ ⟨hensured, -⟩
      rw [hensured.db]
      exact h.allocateOctet

/-! ## Whole runs -/

/-- Spawns, releases and reconciliations, and whatever happens to containers in between. -/
def DaemonEvent.managesContainers : DaemonEvent → Prop
  | .request served => served.managesContainers = true
  | .drift => True
  | .adoption | .lostDatabase => False

/-- A spawn that is not of a tracked instance finds its next address free. -/
def SpawnsAtFreeAddress (w : World) : DaemonEvent → Prop
  | .request (.containerEnsureInstance owner challengeRef _ _ _ _) =>
    w.db.findInstance owner challengeRef = none → w.db.NextAddressFree owner
  | _ => True

theorem wp_thenSameDb {p : Daemon α} {f : α → Daemon Reply}
    (hp : wp (daemonSem policy) (fun _ _ => True) p (fun _ w' => w'.db.AddressesUnique) w)
    (hf : ∀ value, ∀ {w : World}, wp (daemonSem policy) (fun _ _ => True) (f value)
      (fun _ w' => w'.db = w.db) w) :
    wp (daemonSem policy) (fun _ _ => True) (p >>= f) (fun _ w' => w'.db.AddressesUnique) w := by
  refine wp_seq hp ?_ fun _ _ h => h
  intro value w₁ h
  refine wp_mono (hf value) ?_
  intro _ w' hdb
  rw [hdb]
  exact h

theorem Db.AddressesUnique.step {event : DaemonEvent} (h : w.db.AddressesUnique)
    (hdocker : w.docker.WellFormed) (hmanages : event.managesContainers)
    (hfree : SpawnsAtFreeAddress w event) (hstep : DaemonStep policy env w event w') :
    w'.db.AddressesUnique := by
  have hrebuild : ∀ (reply : Reply) {w : World}, wp (daemonSem policy) (fun _ _ => True)
      (rebuildFirewall env >>= fun _ => .ret reply) (fun _ w' => w'.db = w.db) w := fun reply _ =>
    wp_seq wp_rebuildFirewall_sameDb (fun _ _ hdb => hdb) fun _ _ hdb => hdb
  cases hstep with
  | adoption _ => exact hmanages.elim
  | lostDatabase => exact hmanages.elim
  | drift _ => exact h
  | request hends =>
    rename_i request _
    cases request with
    | containerEnsureInstance owner challengeRef buildPath security ttlSeconds publishPorts =>
      refine hends.of_wp (wp_thenSameDb (wp_withSpawnSemaphore (fun _ _ _ h => h)
        fun permits => wp_spawnInstance_addresses hdocker h hfree) ?_)
      intro result w₁
      unfold spawnedInstance
      split
      · exact hrebuild _
      · rfl
    | containerReleaseInstance containerId =>
      exact hends.of_wp (wp_thenSameDb (wp_releaseInstance_addresses h) fun _ _ => hrebuild _)
    | containerReconcile =>
      exact hends.of_wp (wp_thenSameDb (wp_reconcile_addresses h) fun _ _ => wp_callDb trivial rfl)
    | ping | wgEnsurePeer _ _ | wgRemovePeer _ | wgRenderConfig _ | containerInspect _ | killSwitch =>
      cases hmanages

/-- **Distinct addresses over whole runs.**  From the installation on, spawns, releases and
    reconciliations in any order, with any failures and with containers changing status in between,
    keep the addresses of each owner distinct, inside its subnet and off its gateway, if every spawn
    finds its next address free. -/
theorem spawns_keepAddressesUnique (env : DaemonEnv) (w₀ w : World) (hinstalled : w₀.Installed)
    (hrun : DaemonRun anyFault env
      (fun w event => event.managesContainers ∧ SpawnsAtFreeAddress w event) w₀ w) :
    w.db.AddressesUnique := by
  induction hrun with
  | start =>
    rw [hinstalled.db]
    exact .empty
  | step hrun hok hstep ih =>
    exact ih.step (hinstalled.wellFormed.run hrun).docker hok.1 hok.2 hstep

/-! ## Two histories -/

instance : (event : DaemonEvent) → Decidable event.managesContainers
  | .request served => inferInstanceAs (Decidable (served.managesContainers = true))
  | .drift => isTrue trivial
  | .adoption | .lostDatabase => isFalse id

/-- The next address, where the owner has an octet and an address is left. -/
def Db.nextAddress (db : Db) (owner : Owner) : Option IPv4Address :=
  (db.getOctet owner).bind fun octet => (db.nextOwnerIp owner octet).toOption

theorem nextAddressFree_iff {db : Db} : db.NextAddressFree owner ↔ ∀ row ∈ db.instances,
    row.owner = owner → row.assignedIp = db.nextAddress owner → row.assignedIp = none := by
  constructor
  · intro h row hrow hrowOwner hsame
    cases hnext : db.nextAddress owner with
    | none => exact hsame.trans hnext
    | some ip =>
      obtain ⟨octet, hheld, hip⟩ := Option.bind_eq_some_iff.mp hnext
      cases hok : db.nextOwnerIp owner octet with
      | ok next =>
        rw [hok] at hip
        cases hip
        exact absurd (hsame.trans hnext) (h octet ip hheld hok row hrow hrowOwner)
      | error err =>
        rw [hok] at hip
        cases hip
  · intro h octet ip hheld hok row hrow hrowOwner hsame
    have hnext : db.nextAddress owner = some ip := by
      unfold Db.nextAddress
      rw [hheld, Option.bind_some, hok]
      rfl
    have hnone := h row hrow hrowOwner (hsame.trans hnext.symm)
    rw [hsame] at hnone
    cases hnone

instance (db : Db) (owner : Owner) : Decidable (db.NextAddressFree owner) :=
  decidable_of_iff' _ nextAddressFree_iff

instance (w : World) : (event : DaemonEvent) → Decidable (SpawnsAtFreeAddress w event)
  | .request (.containerEnsureInstance owner challengeRef _ _ _ _) =>
    inferInstanceAs (Decidable (w.db.findInstance owner challengeRef = none →
      w.db.NextAddressFree owner))
  | .request .ping | .request (.wgEnsurePeer _ _) | .request (.wgRemovePeer _)
  | .request (.wgRenderConfig _) | .request (.containerReleaseInstance _)
  | .request .containerReconcile | .request (.containerInspect _) | .request .killSwitch
  | .adoption | .drift | .lostDatabase => isTrue trivial

/-- Two challenges of one team, and a third after the first was released. -/
def spawnsAndRelease : List QuietEvent :=
  [.served (spawnRequest ⟨"team", 1⟩ "web-1"), .served (spawnRequest ⟨"team", 1⟩ "web-2"),
   .served (.containerReleaseInstance 1), .served .containerReconcile,
   .served (spawnRequest ⟨"team", 1⟩ "web-3")]

/-- What they leave, if every step meets the condition. -/
def afterSpawnsAndRelease : Option World :=
  quietHistory (fun w event => decide (event.managesContainers ∧ SpawnsAtFreeAddress w event))
    spawnsAndRelease freshHost

theorem afterSpawnsAndRelease_tracks :
    afterSpawnsAndRelease.any (fun w => w.db.instances.length = 2) = true := by
  decide +kernel

theorem spawns_keepAddressesUnique_spawnsAndRelease : ∃ w, afterSpawnsAndRelease = some w ∧
    w.db.instances.length = 2 ∧ w.db.AddressesUnique := by
  obtain ⟨w, hrun, hlength⟩ := (Option.any_eq_true _ _).mp afterSpawnsAndRelease_tracks
  refine ⟨w, hrun, of_decide_eq_true hlength, ?_⟩
  exact spawns_keepAddressesUnique DaemonEnv.default freshHost w freshHost_installed
    (.of_quietHistory (fun _ _ hok => of_decide_eq_true hok) hrun)

/-- A container exits, a reconcile records it, and the team spawns its next challenge. -/
def spawnAfterExit : List QuietEvent :=
  [.served (spawnRequest ⟨"team", 1⟩ "web-1"), .turns 1 .exited, .served .containerReconcile,
   .served (spawnRequest ⟨"team", 1⟩ "web-2")]

theorem spawnAfterExit_repeats :
    (quietHistory (fun _ event => decide event.managesContainers) spawnAfterExit freshHost).any
      (fun w => (w.db.instances.map fun row => (row.owner, row.assignedIp)).count
        (⟨"team", 1⟩, some (dotted 10 9 1 2)) = 2) = true := by
  decide +kernel

/-- The two containers have one address. -/
theorem not_spawns_keepAddressesUnique :
    ¬ ∀ (env : DaemonEnv) (w₀ w : World), w₀.Installed →
      DaemonRun anyFault env (fun _ event => event.managesContainers) w₀ w →
      w.db.AddressesUnique := by
  intro hall
  obtain ⟨w, hrun, hrepeats⟩ := (Option.any_eq_true _ _).mp spawnAfterExit_repeats
  have hunique := hall DaemonEnv.default freshHost w freshHost_installed
    (.of_quietHistory (fun _ _ hok => of_decide_eq_true hok) hrun)
  have honce := List.nodup_iff_count_le_one.mp hunique.distinct
    (⟨"team", 1⟩, some (dotted 10 9 1 2))
  rw [of_decide_eq_true hrepeats] at honce
  omega

end EdoPlugin
