import EdoPlugin.InstanceRelease

/-!
# What a spawn leaves behind

`spawn_instance` run on its own, with any of its calls failing: the container that one attempt
creates, what the cleanup by name takes away, and the row that is stored in the end.
-/

namespace EdoPlugin

open Interaction

variable {policy : Policy} {w w' : World}

/-! ## The container of an attempt -/

namespace Docker

variable {d : Docker} {c : Container} {id : ContainerId}

theorem mem_of_findContainer_name {name : String} (h : d.findContainer (.name name) = some c) :
    c ∈ d.containers ∧ c.spec.name = name :=
  ⟨List.mem_of_find?_eq_some h, by simpa using List.find?_some h⟩

/-- The containers of `d` and one more. -/
def with_ (d : Docker) (c : Container) : Docker :=
  { d with containers := d.containers ++ [c], nextId := d.nextId + 1 }

theorem WellFormed.ne_nextId (h : d.WellFormed) (hc : c ∈ d.containers) : c.id ≠ d.nextId :=
  Nat.ne_of_lt (h.containerIds_lt c hc)

theorem WellFormed.findContainer_with (h : d.WellFormed) (hid : c.id = d.nextId) :
    (d.with_ c).findContainer (.id d.nextId) = some c := by
  have hnone : d.containers.find? (fun c => c.id = d.nextId) = none := by
    simpa using fun c hc => h.ne_nextId hc
  simp [findContainer, with_, List.find?_append, hnone, hid]

theorem WellFormed.updateContainer_with (h : d.WellFormed) (hid : c.id = d.nextId)
    (f : Container → Container) : (d.with_ c).updateContainer d.nextId f = d.with_ (f c) := by
  have hsame : (d.containers.map fun c => if c.id = d.nextId then f c else c) = d.containers := by
    conv_rhs => rw [← List.map_id d.containers]
    apply List.map_congr_left
    intro other hother
    rw [if_neg (h.ne_nextId hother)]
    rfl
  simp [Docker.updateContainer, with_, hsame, hid]

theorem WellFormed.filter_with (h : d.WellFormed) (hid : c.id = d.nextId) :
    (d.with_ c).containers.filter (fun c => c.id ≠ d.nextId) = d.containers := by
  have hsame : d.containers.filter (fun c => c.id ≠ d.nextId) = d.containers := by
    rw [List.filter_eq_self]
    intro other hother
    simpa using h.ne_nextId hother
  simp only [with_, List.filter_append, hsame]
  simp [hid]

theorem findContainer_name_with (hfree : d.findContainer (.name c.spec.name) = none) :
    (d.with_ c).findContainer (.name c.spec.name) = some c := by
  unfold findContainer at hfree ⊢
  simp [with_, List.find?_append, hfree]

/-- Starting the container that was created last either changes nothing or gives it the address it
    was created with. -/
theorem WellFormed.start_with (h : d.WellFormed) (spec : ContainerSpec) :
    (∃ err, (d.with_ ⟨d.nextId, spec, .created, none, none⟩).start d.nextId =
      (.error err, d.with_ ⟨d.nextId, spec, .created, none, none⟩)) ∨
    ∃ net, (d.with_ ⟨d.nextId, spec, .created, none, none⟩).start d.nextId =
      (.ok (), d.with_ ⟨d.nextId, spec, .running, some net, some spec.ipv4Address⟩) := by
  have hfind : (d.with_ ⟨d.nextId, spec, .created, none, none⟩).findContainer (.id d.nextId) =
      some ⟨d.nextId, spec, .created, none, none⟩ := h.findContainer_with rfl
  unfold Docker.start
  simp only [hfind, Status.holdsEndpoint, Bool.false_eq_true, if_false]
  split
  · exact Or.inl ⟨_, rfl⟩
  · rename_i net _
    split
    · exact Or.inl ⟨_, rfl⟩
    · split
      · exact Or.inl ⟨_, rfl⟩
      · split
        · exact Or.inl ⟨_, rfl⟩
        · exact Or.inr ⟨net, by rw [h.updateContainer_with rfl]⟩

end Docker

/-- The world with one more container. -/
def World.withContainer (w : World) (c : Container) : World := { w with docker := w.docker.with_ c }

/-- The end of one attempt: no container was created, or one that did not come up, or one that
    runs at the address it was created with. -/
inductive Attempted (spec : ContainerSpec) (w : World) :
    Except DockerErr Container → World → Prop
  | notCreated {err} : Attempted spec w (.error err) w
  | notStarted {err c} : w.docker.findContainer (.name spec.name) = none →
      c.id = w.docker.nextId → c.spec = spec → Attempted spec w (.error err) (w.withContainer c)
  | started {c} : w.docker.findContainer (.name spec.name) = none →
      c.id = w.docker.nextId → c.spec = spec → c.ipAddress = some spec.ipv4Address →
      Attempted spec w (.ok c) (w.withContainer c)

/-- **One attempt.** -/
theorem wp_startContainer {spec : ContainerSpec} (h : w.docker.WellFormed) :
    wp (daemonSem policy) (fun _ _ => True) (startContainer spec)
      (fun out w' => ∃ result, out = .ok result ∧ Attempted spec w result w') w := by
  refine wp_callDocker trivial fun fault _ => ?_
  cases fault with
  | some msg => exact ⟨_, rfl, .notCreated⟩
  | none =>
    simp only [DockerOp.exec, failing, Docker.createContainer]
    cases hfree : w.docker.findContainer (.name spec.name) with
    | some c => exact ⟨_, rfl, .notCreated⟩
    | none =>
      refine wp_callDocker trivial fun fault _ => ?_
      cases fault with
      | some msg =>
        exact ⟨_, rfl, .notStarted (c := ⟨w.docker.nextId, spec, .created, none, none⟩) hfree rfl rfl⟩
      | none =>
        simp only [DockerOp.exec, failing]
        rcases h.start_with spec with ⟨err, hstart⟩ | ⟨net, hstart⟩
        · simp only [Docker.with_] at hstart
          rw [hstart]
          exact ⟨_, rfl, .notStarted (c := ⟨w.docker.nextId, spec, .created, none, none⟩)
            hfree rfl rfl⟩
        · simp only [Docker.with_] at hstart
          rw [hstart]
          have hfind := h.findContainer_with
            (c := ⟨w.docker.nextId, spec, .running, some net, some spec.ipv4Address⟩) rfl
          refine wp_callDocker (f := fun res => .ret res) trivial fun fault _ => ?_
          cases fault with
          | some msg =>
            exact ⟨_, rfl, .notStarted
              (c := ⟨w.docker.nextId, spec, .running, some net, some spec.ipv4Address⟩)
              hfree rfl rfl⟩
          | none =>
            simp only [Docker.with_] at hfind
            simp only [DockerOp.exec, failing, Docker.containersGet, hfind]
            exact ⟨_, rfl, .started hfree rfl rfl rfl⟩

/-! ## What an attempt reads from the tables -/

/-- The address the next attempt asks for. -/
def Db.nextOwnerIp (db : Db) (owner : Owner) (octet : Octet) : Except PyErr IPv4Address :=
  iterSubnetHosts (ownerSubnet octet)
    (db.getUsedInstanceIps owner ++ [some (ownerGatewayIp octet)])

/-- The host ports of all tracked instances. -/
def Db.usedPorts (db : Db) : List Nat :=
  db.instances.flatMap fun row => (row.publishedPorts.getD []).map Prod.snd

/-- The free host ports a call of `_allocate_public_ports` chooses. -/
def Db.freePorts (db : Db) (env : DaemonEnv) (count : Nat) (exclude : List Nat) :
    Except String (List Nat) :=
  match choosePorts (db.usedPorts ++ exclude) count [] (List.range' env.publicPortRangeStart
      (env.publicPortRangeEnd + 1 - env.publicPortRangeStart)) with
  | some ports => .ok ports
  | none => .error ("no free ports left in range " ++
      s!"{env.publicPortRangeStart}-{env.publicPortRangeEnd}")

/-- The host ports of the next attempt. -/
def Db.nextPorts (db : Db) (env : DaemonEnv) (plan : SpawnPlan) (triedPorts : List Nat) :
    Except String (Option (List (String × Nat))) :=
  if plan.publishPorts && !plan.exposedPorts.isEmpty then
    match db.freePorts env plan.exposedPorts.length triedPorts with
    | .ok hostPorts => .ok (some (plan.exposedPorts.zip hostPorts))
    | .error msg => .error msg
  else .ok none

variable {α : Type} {Q : Except PyErr α → World → Prop}

theorem wp_findNextOwnerIp {owner : Owner} {octet : Octet} {f : IPv4Address → Daemon α}
    (hok : ∀ ip, w.db.nextOwnerIp owner octet = .ok ip →
      wp (daemonSem policy) (fun _ _ => True) (f ip) Q w)
    (herror : ∀ err, w.db.nextOwnerIp owner octet = .error err → Q (.error err) w) :
    wp (daemonSem policy) (fun _ _ => True) (findNextOwnerIp owner octet >>= f) Q w := by
  refine wp_bind.mpr (wp_callDb trivial ?_)
  show wp _ _ (Prog.ofExcept (w.db.nextOwnerIp owner octet)) _ w
  cases hnext : w.db.nextOwnerIp owner octet with
  | ok ip => exact hok ip hnext
  | error err => exact herror err hnext

theorem wp_allocatePublicPorts {env : DaemonEnv} {count : Nat} {exclude : List Nat}
    {f : Except String (List Nat) → Daemon α}
    (h : wp (daemonSem policy) (fun _ _ => True) (f (w.db.freePorts env count exclude)) Q w) :
    wp (daemonSem policy) (fun _ _ => True) (allocatePublicPorts env count exclude >>= f) Q w := by
  refine wp_bind.mpr (wp_bind.mpr (wp_bind.mpr (wp_callDb trivial ?_)))
  unfold Db.freePorts at h
  show wp _ _ (match choosePorts (w.db.usedPorts ++ exclude) _ _ _ with
    | some ports => Prog.ret (Except.ok ports) | none => .ret (.error _)) _ w
  revert h
  split
  · exact id
  · exact id

theorem wp_attemptPorts {env : DaemonEnv} {plan : SpawnPlan} {triedPorts : List Nat}
    {f : Except String (Option (List (String × Nat))) → Daemon α}
    (h : wp (daemonSem policy) (fun _ _ => True) (f (w.db.nextPorts env plan triedPorts)) Q w) :
    wp (daemonSem policy) (fun _ _ => True) (attemptPorts env plan triedPorts >>= f) Q w := by
  unfold attemptPorts
  unfold Db.nextPorts at h
  split
  · rename_i hpublish
    rw [if_pos hpublish] at h
    refine wp_bind.mpr (wp_allocatePublicPorts ?_)
    cases hports : w.db.freePorts env plan.exposedPorts.length triedPorts with
    | ok hostPorts =>
      rw [hports] at h
      exact h
    | error msg =>
      rw [hports] at h
      exact h
  · rename_i hpublish
    rw [if_neg hpublish] at h
    exact h

/-! ## The semaphore around it -/

theorem wp_withSpawnSemaphore {body : Daemon α}
    (hQ : ∀ out w permits, Q out w → Q out { w with spawnPermits := permits })
    (hbody : ∀ permits, wp (daemonSem policy) (fun _ _ => True) body Q
      { w with spawnPermits := permits }) :
    wp (daemonSem policy) (fun _ _ => True) (withSpawnSemaphore body) Q w := by
  refine wp_callHost trivial fun _ permits => wp_finally.mpr (wp_mono (hbody permits) ?_)
  intro out w₁ h
  refine wp_callHost trivial fun _ permits => ?_
  cases out with
  | ok value => exact hQ _ _ _ h
  | error err => exact hQ _ _ _ h

end EdoPlugin
