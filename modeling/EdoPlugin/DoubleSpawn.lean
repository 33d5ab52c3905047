import EdoPlugin.SpawnRollback

/-!
# Two spawns of one key

Several calls of `spawn_instance` for the same owner and challenge, interleaved.  Each looks for a
row before it starts, so all of them can create a container; the name and the unique constraint
admit one at a time.  The cleanup of a failed attempt removes whatever container has the name.  As
long as it spares a container that another call has read back for its row, at most one row comes out
of it, and its container exists.
-/

namespace EdoPlugin

open Interaction

/-! ## How far a call has come -/

inductive SpawnerPhase where
  | idle
  /-- Its container has been created. -/
  | created (id : ContainerId)
  /-- Its container has been started and looked up. -/
  | up (id : ContainerId)
  /-- The address of its container has been read. -/
  | addressed (id : ContainerId)
  /-- Its container has been read back for the row. -/
  | reloaded (id : ContainerId)
  /-- The row is in the table. -/
  | recorded (id : ContainerId)
  /-- The row was refused. -/
  | rejected (id : ContainerId)
  /-- The cleanup has found a container by name. -/
  | cleaning (id : ContainerId)
deriving DecidableEq, Repr

namespace SpawnerPhase

/-- The container the call has created last. -/
def own : SpawnerPhase → Option ContainerId
  | .idle | .cleaning _ => none
  | .created id | .up id | .addressed id | .reloaded id | .recorded id | .rejected id => some id

/-- The container a row names or is about to name. -/
def counted : SpawnerPhase → Option ContainerId
  | .reloaded id | .recorded id => some id
  | .idle | .created _ | .up _ | .addressed _ | .rejected _ | .cleaning _ => none

def next (phase : SpawnerPhase) : (op : DaemonOp) → op.Res → SpawnerPhase
  | .docker (.createContainer _), .ok id => .created id
  | .docker (.containersGet (.id _)), found =>
    match phase, found with
    | .created id, .ok _ => .up id
    | .up id, _ => .addressed id
    | .addressed id, .ok _ => .reloaded id
    | _, _ => phase
  | .docker (.containersGet (.name _)), .ok c => .cleaning c.id
  | .docker (.containersGet (.name _)), .error _ => .idle
  | .docker (.remove _), _ => .idle
  | .db (.addInstance _), added =>
    match phase, added with
    | .reloaded id, .ok _ => .recorded id
    | .reloaded id, .error _ => .rejected id
    | _, _ => phase
  | _, _ => phase

/-- The calls a spawn of the key can make at this point. -/
def admits (key : Owner × String) (phase : SpawnerPhase) : DaemonOp → Prop
  | .docker (.createContainer _) => phase = .idle
  | .docker (.containersGet (.id id)) =>
    phase = .created id ∨ phase = .up id ∨ phase = .addressed id
  | .docker (.containersGet (.name _)) => phase = .idle ∨ ∃ id, phase = .created id
  | .docker (.remove id) => phase = .cleaning id ∨ phase = .rejected id
  | .db (.addInstance row) => phase = .reloaded row.containerId ∧ row.key = key
  | .db (.removeInstance _) => False
  | _ => True

/-- A container looked up by id has that id. -/
def expected (_ : SpawnerPhase) : (op : DaemonOp) → op.Res → Prop
  | .docker (.containersGet (.id id)), .ok c => c.id = id
  | _, _ => True

end SpawnerPhase

/-- The calls that leave every phase as it is. -/
def unrelatedCall : DaemonOp → Prop
  | .db (.addInstance _) | .db (.removeInstance _) => False
  | .docker (.createContainer _) | .docker (.containersGet _) | .docker (.remove _) => False
  | _ => True

abbrev SpawnsKey {α : Type} (key : Owner × String) (p : Daemon α) (P : α → SpawnerPhase → Prop)
    (phase : SpawnerPhase) : Prop :=
  Conforms (E := daemonEffect) SpawnerPhase.expected (SpawnerPhase.admits key) SpawnerPhase.next p
    (returning P) phase

variable {α : Type} {key : Owner × String} {phase : SpawnerPhase}

theorem SpawnerPhase.admits_unrelated {op : DaemonOp} (h : unrelatedCall op) :
    phase.admits key op := by
  cases op with
  | db op => cases op <;> trivial
  | docker op => cases op <;> trivial
  | filter op | wg op | host op => trivial

theorem SpawnerPhase.next_unrelated {op : DaemonOp} (res : op.Res) (h : unrelatedCall op) :
    phase.next op res = phase := by
  cases op with
  | db op => cases op <;> first | rfl | exact h.elim
  | docker op => cases op <;> first | rfl | exact h.elim
  | filter op | wg op | host op => rfl

theorem spawnsKey_unrelated {p : Daemon α} (hp : CallsOnly unrelatedCall p) :
    SpawnsKey key p (fun _ φ => φ = phase) phase :=
  Conforms.of_callsOnly hp (fun _ => SpawnerPhase.admits_unrelated)
    fun _ res h => SpawnerPhase.next_unrelated res h

theorem unrelatedCall_of_networkCall (op : DaemonOp) (h : networkCall op) : unrelatedCall op := by
  unfold networkCall at h
  split at h <;> trivial

theorem unrelatedCall_of_readingCall (op : DaemonOp) (h : readingCall op) : unrelatedCall op := by
  unfold readingCall at h
  split at h <;> trivial

theorem unrelatedCall_of_allocationRead (op : DaemonOp) (h : allocationRead op) :
    unrelatedCall op := by
  unfold allocationRead at h
  split at h <;> trivial

/-! ## A spawn follows the phases -/

/-- The cleanup goes from any failed attempt back to the start. -/
theorem spawnsKey_forceRemoveByName {name : String}
    (hphase : phase = .idle ∨ ∃ id, phase = .created id) :
    SpawnsKey key (forceRemoveByName name) (fun _ φ => φ = .idle) phase := by
  refine Conforms.perform hphase fun found _ => ?_
  cases found with
  | error err => exact rfl
  | ok c => exact Conforms.perform (Or.inl rfl) fun _ _ => rfl

theorem spawnsKey_startContainer {spec : ContainerSpec} :
    SpawnsKey key (startContainer spec) (fun result φ => match result with
      | .ok c => φ = .up c.id
      | .error _ => φ = .idle ∨ ∃ id, φ = .created id) .idle := by
  refine Conforms.perform rfl fun created _ => ?_
  cases created with
  | error err => exact Or.inl rfl
  | ok id =>
    refine Conforms.perform trivial fun started _ => ?_
    cases started with
    | error err => exact Or.inr ⟨id, rfl⟩
    | ok _ =>
      refine Conforms.call (Or.inl rfl) fun found hfound => ?_
      cases found with
      | error err => exact Or.inr ⟨id, rfl⟩
      | ok c =>
        obtain rfl : c.id = id := hfound
        exact rfl

theorem spawnsKey_spawnAttempts {env : DaemonEnv} {plan : SpawnPlan} {rounds : Nat}
    {triedIps : List IPv4Address} {triedPorts : List Nat} {lastError : String} :
    SpawnsKey key (spawnAttempts env plan rounds triedIps triedPorts lastError)
      (fun outcome φ => ∀ c ip, outcome = .started c ip → φ = .up c.id) .idle := by
  induction rounds generalizing triedIps triedPorts lastError with
  | zero => exact fun _ _ h => by cases h
  | succ rounds ih =>
    rw [spawnAttempts]
    refine Conforms.bind
      (spawnsKey_unrelated (callsOnly_findNextOwnerIp.mono unrelatedCall_of_allocationRead)) ?_
    rintro ip _ rfl
    refine Conforms.ite ih ?_
    refine Conforms.bind
      (spawnsKey_unrelated (callsOnly_attemptPorts.mono unrelatedCall_of_allocationRead)) ?_
    rintro ports _ rfl
    cases ports with
    | error msg => exact fun _ _ h => by cases h
    | ok portMap =>
      refine Conforms.bind spawnsKey_startContainer ?_
      intro result φ hφ
      cases result with
      | ok c =>
        rintro _ _ ⟨⟩
        exact hφ
      | error err =>
        refine Conforms.bind (spawnsKey_forceRemoveByName hφ) ?_
        rintro _ _ rfl
        split
        · exact ih
        · exact fun _ _ h => by cases h

theorem spawnsKey_recordInstance {plan : SpawnPlan} {c : Container} {ip : IPv4Address} :
    SpawnsKey (plan.owner, plan.challengeRef) (recordInstance plan c ip) (fun _ _ => True)
      (.up c.id) := by
  have hlive : SpawnsKey (plan.owner, plan.challengeRef) (liveContainerIp c (bridgeName plan.octet))
      (fun _ φ => φ = .addressed c.id) (.up c.id) := by
    refine Conforms.perform (Or.inr (Or.inl rfl)) fun found _ => ?_
    cases found with
    | error err => exact rfl
    | ok fresh => exact Conforms.ite rfl rfl
  refine Conforms.bind hlive ?_
  rintro live _ rfl
  refine Conforms.perform (Or.inr (Or.inr rfl)) fun found hfound => ?_
  cases found with
  | error err => trivial
  | ok fresh =>
    have hid : fresh.id = c.id := hfound
    refine Conforms.perform ⟨?_, rfl⟩ fun added _ => ?_
    · show SpawnerPhase.reloaded c.id = .reloaded fresh.id
      rw [hid]
    · cases added with
      | ok row => trivial
      | error err => exact Conforms.perform (Or.inr rfl) fun _ _ => trivial

theorem spawnsKey_spawnInstance {env : DaemonEnv} {owner : Owner} {challengeRef buildPath : String}
    {security : Option SecurityProfile} {ttlSeconds : Option Int} {publishPorts : Bool} :
    SpawnsKey (owner, challengeRef)
      (spawnInstance env owner challengeRef buildPath security ttlSeconds publishPorts)
      (fun _ _ => True) .idle := by
  refine Conforms.perform trivial fun existing _ => ?_
  cases existing with
  | some row => trivial
  | none =>
    refine Conforms.perform trivial fun hasDockerfile _ => Conforms.ite ?_ trivial
    refine Conforms.bind
      (spawnsKey_unrelated (callsOnly_ensureOwnerNetwork.mono unrelatedCall_of_networkCall)) ?_
    rintro octet _ rfl
    have hreads : ∀ {β : Type} {p : Daemon β}, CallsOnly readingCall p →
        SpawnsKey (owner, challengeRef) p (fun _ φ => φ = .idle) .idle := fun hp =>
      spawnsKey_unrelated (hp.mono unrelatedCall_of_readingCall)
    refine Conforms.bind (hreads callsOnly_dockerClient_reads) ?_
    rintro _ _ rfl
    refine Conforms.perform trivial fun built _ => Conforms.ite ?_ trivial
    refine Conforms.bind (hreads callsOnly_detectExposedPorts_reads) ?_
    rintro exposedPorts _ rfl
    refine Conforms.bind (hreads callsOnly_isoExpiry_reads) ?_
    rintro expiresAt _ rfl
    extract_lets plan
    refine Conforms.bind spawnsKey_spawnAttempts ?_
    intro outcome φ hstarted
    cases outcome with
    | started c ip =>
      obtain rfl := hstarted c ip rfl
      show SpawnsKey (plan.owner, plan.challengeRef) _ _ _
      exact spawnsKey_recordInstance
    | failed error => trivial
    | exhausted lastError => trivial

/-! ## The invariant -/

/-- The container exists. -/
def Docker.Has (d : Docker) (id : ContainerId) : Prop := ∃ c ∈ d.containers, c.id = id

/-- The rows of the key are those the calls have recorded; each call that has read its container back
    still has it, and no two calls have the same. -/
structure Accounted (key : Owner × String) (w : World) (phases : List SpawnerPhase) : Prop where
  wellFormed : w.WellFormed
  rows : ∀ row ∈ w.db.instances, row.key = key →
    ∃ i : Nat, phases[i]? = some (SpawnerPhase.recorded row.containerId)
  counted : ∀ (i : Nat) (φ : SpawnerPhase) id, phases[i]? = some φ → φ.counted = some id → w.docker.Has id
  own_lt : ∀ (i : Nat) (φ : SpawnerPhase) id, phases[i]? = some φ → φ.own = some id → id < w.docker.nextId
  distinct : ∀ (i j : Nat) (φ ψ : SpawnerPhase) id, phases[i]? = some φ → phases[j]? = some ψ → φ.own = some id →
    ψ.own = some id → i = j

/-- The container the step removes. -/
def removes : Event daemonEffect → Option ContainerId
  | ⟨_, .docker (.remove id), .ok _⟩ => some id
  | _ => none

theorem removes_of_ok {tid : Nat} {id : ContainerId} {res : DockerOp.Res (.remove id)}
    (h : res = .ok ()) : removes ⟨tid, .docker (.remove id), res⟩ = some id := by
  subst h
  rfl

/-- A cleanup removes no container that another call has read back for its row. -/
def SparesCounted (phases : List SpawnerPhase) (event : Event daemonEffect) : Prop :=
  ∀ id, phases[event.tid]? = some (.cleaning id) → removes event = some id →
    ∀ (i : Nat) (φ : SpawnerPhase), i ≠ event.tid → phases[i]? = some φ → φ.counted ≠ some id

theorem SpawnerPhase.own_of_counted {id : ContainerId} (h : phase.counted = some id) :
    phase.own = some id := by
  cases phase <;> first | exact h | cases h

/-- A container survives every call that does not remove it. -/
theorem Docker.Has.step {d d' : Docker} {op : DockerOp} {id : ContainerId} (h : d.Has id)
    (hstep : DockerStep d op d') (hop : op ≠ .remove id) : d'.Has id := by
  obtain ⟨c, hc, rfl⟩ := h
  cases hstep with
  | same | createNetwork _ | removeNetwork _ => exact ⟨c, hc, rfl⟩
  | createContainer => exact ⟨c, List.mem_append_left _ hc, rfl⟩
  | @start id c₀ net _ _ _ =>
    by_cases hid : c.id = id
    · exact ⟨_, Docker.mem_updateContainer.mpr ⟨c, hc, Or.inl ⟨hid, rfl⟩⟩, rfl⟩
    · exact ⟨c, Docker.mem_updateContainer.mpr ⟨c, hc, Or.inr ⟨hid, rfl⟩⟩, rfl⟩
  | @stop id =>
    by_cases hid : c.id = id
    · exact ⟨_, Docker.mem_updateContainer.mpr ⟨c, hc, Or.inl ⟨hid, rfl⟩⟩, rfl⟩
    · exact ⟨c, Docker.mem_updateContainer.mpr ⟨c, hc, Or.inr ⟨hid, rfl⟩⟩, rfl⟩
  | @remove id =>
    have hne : c.id ≠ id := fun hid => hop (hid ▸ rfl)
    exact ⟨c, List.mem_filter.mpr ⟨hc, decide_eq_true hne⟩, rfl⟩

section Steps

variable {w : World} {phases : List SpawnerPhase} {phase' : SpawnerPhase} {tid : Nat}

/-- What a step has to keep, and what its own call may change. -/
theorem Accounted.set_phase {w' : World} (h : Accounted key w phases)
    (hget : phases[tid]? = some phase) (hwf : w'.WellFormed)
    (hrows : ∀ row ∈ w'.db.instances, row.key = key →
      (∃ old ∈ w.db.instances, old.key = key ∧ old.containerId = row.containerId) ∨
        phase' = .recorded row.containerId)
    (hrecorded : ∀ id, phase = .recorded id → phase' = .recorded id)
    (hothers : ∀ (i : Nat) (φ : SpawnerPhase) id, i ≠ tid → phases[i]? = some φ → φ.counted = some id → w'.docker.Has id)
    (hcounted : ∀ id, phase'.counted = some id → w'.docker.Has id)
    (hnext : w.docker.nextId ≤ w'.docker.nextId)
    (hown : ∀ id, phase'.own = some id → phase.own = some id ∨
      (id = w.docker.nextId ∧ id < w'.docker.nextId)) :
    Accounted key w' (phases.set tid phase') := by
  have hlt : ∀ id, phase'.own = some id → id < w'.docker.nextId := by
    intro id hid
    rcases hown id hid with hold | ⟨-, hlt⟩
    · exact Nat.lt_of_lt_of_le (h.own_lt tid phase id hget hold) hnext
    · exact hlt
  have hapart : ∀ (i : Nat) (φ : SpawnerPhase) id, i ≠ tid → phases[i]? = some φ → φ.own = some id →
      phase'.own ≠ some id := by
    intro i φ id hi hφ hid hid'
    rcases hown id hid' with hold | ⟨rfl, -⟩
    · exact hi (h.distinct i tid φ phase id hφ hget hid hold)
    · exact Nat.lt_irrefl _ (h.own_lt i φ _ hφ hid)
  constructor
  case wellFormed => exact hwf
  case rows =>
    intro row hrow hkey
    rcases hrows row hrow hkey with ⟨old, hold, holdKey, hid⟩ | hphase'
    · obtain ⟨i, hi⟩ := h.rows old hold holdKey
      rw [hid] at hi
      refine ⟨i, (getElem?_set_iff hget).mpr ?_⟩
      by_cases hitid : i = tid
      · subst hitid
        rw [hget] at hi
        cases hi
        exact Or.inl ⟨rfl, (hrecorded _ rfl).symm⟩
      · exact Or.inr ⟨hitid, hi⟩
    · exact ⟨tid, (getElem?_set_iff hget).mpr (Or.inl ⟨rfl, hphase'.symm⟩)⟩
  case counted =>
    intro i φ id hφ hid
    rcases (getElem?_set_iff hget).mp hφ with ⟨-, rfl⟩ | ⟨hi, hφ⟩
    · exact hcounted id hid
    · exact hothers i φ id hi hφ hid
  case own_lt =>
    intro i φ id hφ hid
    rcases (getElem?_set_iff hget).mp hφ with ⟨-, rfl⟩ | ⟨-, hφ⟩
    · exact hlt id hid
    · exact Nat.lt_of_lt_of_le (h.own_lt i φ id hφ hid) hnext
  case distinct =>
    intro i j φ ψ id hφ hψ hid hid'
    rcases (getElem?_set_iff hget).mp hφ with ⟨hi, rfl⟩ | ⟨hi, hφ₀⟩
    · rcases (getElem?_set_iff hget).mp hψ with ⟨hj, -⟩ | ⟨hj, hψ₀⟩
      · rw [hi, hj]
      · exact absurd hid (hapart j ψ id hj hψ₀ hid')
    · rcases (getElem?_set_iff hget).mp hψ with ⟨hj, rfl⟩ | ⟨-, hψ₀⟩
      · exact absurd hid' (hapart i φ id hi hφ₀ hid)
      · exact h.distinct i j φ ψ id hφ₀ hψ₀ hid hid'

/-- A call that changes neither Docker nor the rows of the key. -/
theorem Accounted.same_containers {w' : World} (h : Accounted key w phases)
    (hget : phases[tid]? = some phase) (hwf : w'.WellFormed) (hdocker : w'.docker = w.docker)
    (hrows : ∀ row ∈ w'.db.instances, row.key = key →
      ∃ old ∈ w.db.instances, old.key = key ∧ old.containerId = row.containerId)
    (hrecorded : ∀ id, phase = .recorded id → phase' = .recorded id)
    (hcounted : ∀ id, phase'.counted = some id → w.docker.Has id)
    (hown : ∀ id, phase'.own = some id → phase.own = some id) :
    Accounted key w' (phases.set tid phase') := by
  refine h.set_phase hget hwf (fun row hrow hkey => Or.inl (hrows row hrow hkey)) hrecorded ?_ ?_ ?_ ?_
  · intro i φ id _ hφ hid
    rw [hdocker]
    exact h.counted i φ id hφ hid
  · rw [hdocker]
    exact hcounted
  · rw [hdocker]
  · exact fun id hid => Or.inl (hown id hid)

theorem Accounted.db_step {op : DbOp} (h : Accounted key w phases)
    (hget : phases[tid]? = some phase) (hadmits : phase.admits key (.db op)) :
    Accounted key { w with db := (op.exec w.db).2 }
      (phases.set tid (phase.next (.db op) (op.exec w.db).1)) := by
  have hwf : World.WellFormed { w with db := (op.exec w.db).2 } :=
    ⟨h.wellFormed.db.exec op, h.wellFormed.docker⟩
  by_cases hadd : ∃ row, op = .addInstance row
  · obtain ⟨row, rfl⟩ := hadd
    obtain ⟨rfl, hkey⟩ := hadmits
    have hhas : w.docker.Has row.containerId := h.counted tid _ _ hget rfl
    rcases w.db.addInstance_cases row with ⟨hadded, -⟩ | ⟨msg, hadded⟩
    · simp only [DbOp.exec, hadded] at hwf ⊢
      refine h.set_phase hget hwf ?_ (fun _ h => by cases h) ?_ ?_ (Nat.le_refl _) ?_
      · intro other hother hotherKey
        rcases List.mem_append.mp hother with hold | hnew
        · exact Or.inl ⟨other, hold, hotherKey, rfl⟩
        · rw [List.mem_singleton.mp hnew]
          exact Or.inr rfl
      · exact fun i φ id _ hφ hid => h.counted i φ id hφ hid
      · rintro id ⟨⟩
        exact hhas
      · exact fun id hid => Or.inl hid
    · simp only [DbOp.exec, hadded] at hwf ⊢
      refine h.same_containers hget hwf rfl (fun other hother hkey => ⟨other, hother, hkey, rfl⟩)
        (fun _ h => by cases h) (fun _ h => by cases h) fun _ hid => hid
  · have hnext : phase.next (.db op) (op.exec w.db).1 = phase := by
      cases op with
      | addInstance row => exact absurd ⟨row, rfl⟩ hadd
      | _ => rfl
    rw [hnext]
    refine h.same_containers hget hwf rfl ?_ (fun _ h => h) (fun id hid => h.counted tid _ id hget hid)
      fun _ hid => hid
    intro row hrow hkey
    rcases Db.instances_exec hrow with hop | ⟨old, hold, hsame, -, hid⟩
    · exact absurd ⟨row, hop⟩ hadd
    · exact ⟨old, hold, hsame ▸ hkey, hid.symm⟩

/-- A removal that succeeds removes the container; one that fails does nothing. -/
theorem exec_remove (d : Docker) (id : ContainerId) (choice : Option String) :
    ((DockerOp.exec d (.remove id) choice).1 = .ok () ∧ (DockerOp.exec d (.remove id) choice).2 =
        { d with containers := d.containers.filter fun c => c.id ≠ id }) ∨
      (DockerOp.exec d (.remove id) choice).2 = d := by
  cases choice with
  | some msg => exact Or.inr rfl
  | none =>
    simp only [DockerOp.exec, failing, Docker.remove]
    cases d.findContainer (.id id) with
    | none => exact Or.inr rfl
    | some c => exact Or.inl ⟨rfl, rfl⟩

theorem Accounted.docker_step {op : DockerOp} (choice : op.Choice) (h : Accounted key w phases)
    (hget : phases[tid]? = some phase) (hadmits : phase.admits key (.docker op))
    (hspares : SparesCounted phases ⟨tid, .docker op, (op.exec w.docker choice).1⟩) :
    Accounted key { w with docker := (op.exec w.docker choice).2 }
      (phases.set tid (phase.next (.docker op) (op.exec w.docker choice).1)) := by
  have hwf : World.WellFormed { w with docker := (op.exec w.docker choice).2 } :=
    ⟨h.wellFormed.db, h.wellFormed.docker.exec op choice⟩
  have hrows : ∀ row ∈ w.db.instances, row.key = key →
      ∃ old ∈ w.db.instances, old.key = key ∧ old.containerId = row.containerId :=
    fun row hrow hkey => ⟨row, hrow, hkey, rfl⟩
  have hstep := op.exec_step w.docker choice
  have hnext := Docker.nextId_le_of_step hstep
  -- Every call but a removal keeps the containers that were there.
  have hkeeps : (∀ id, op ≠ .remove id) → ∀ id, w.docker.Has id →
      (op.exec w.docker choice).2.Has id := fun hop id hhas => hhas.step hstep (hop id)
  have hothers : (∀ id, op ≠ .remove id) → ∀ (i : Nat) (φ : SpawnerPhase) id, i ≠ tid →
      phases[i]? = some φ → φ.counted = some id → (op.exec w.docker choice).2.Has id :=
    fun hop i φ id _ hφ hid => hkeeps hop id (h.counted i φ id hφ hid)
  cases op with
  | createContainer spec =>
    obtain rfl : phase = .idle := hadmits
    have hop : ∀ id, DockerOp.createContainer spec ≠ .remove id := fun _ h => by cases h
    cases hcreated : (DockerOp.exec w.docker (.createContainer spec) choice).1 with
    | error err =>
      exact h.set_phase hget hwf (fun row hrow hkey => Or.inl (hrows row hrow hkey))
        (fun _ h => by cases h) (hothers hop) (fun _ h => by cases h) hnext fun _ h => by cases h
    | ok id =>
      have hfresh : id = w.docker.nextId ∧
          id < (DockerOp.exec w.docker (.createContainer spec) choice).2.nextId := by
        cases choice with
        | some msg => cases hcreated
        | none =>
          simp only [DockerOp.exec, failing, Docker.createContainer] at hcreated ⊢
          split at hcreated
          · cases hcreated
          · cases hcreated
            exact ⟨rfl, Nat.lt_succ_self _⟩
      refine h.set_phase hget hwf (fun row hrow hkey => Or.inl (hrows row hrow hkey))
        (fun _ h => by cases h) (hothers hop) (fun _ h => by cases h) hnext ?_
      rintro _ ⟨⟩
      exact Or.inr hfresh
  | containersGet ref =>
    have hsame : (DockerOp.exec w.docker (.containersGet ref) choice).2 = w.docker := by
      cases choice <;> rfl
    have hfound : ∀ c, (DockerOp.exec w.docker (.containersGet ref) choice).1 = .ok c →
        w.docker.Has c.id := by
      intro c hc
      exact ⟨c, Docker.mem_of_findContainer (DockerOp.findContainer_of_ok hc), rfl⟩
    rw [hsame] at hwf ⊢
    have hget' : ∀ φ : SpawnerPhase, (∀ id, phase = .recorded id → φ = .recorded id) →
        (∀ id, φ.counted = some id → w.docker.Has id) →
        (∀ id, φ.own = some id → phase.own = some id) →
        Accounted key { w with docker := w.docker } (phases.set tid φ) := fun φ =>
      h.same_containers hget hwf rfl hrows
    cases ref with
    | id id =>
      have hid : ∀ c, (DockerOp.exec w.docker (.containersGet (.id id)) choice).1 = .ok c → c.id = id :=
        fun _ hc => (Docker.mem_of_findContainer_id (DockerOp.findContainer_of_ok hc)).2
      generalize (DockerOp.exec w.docker (.containersGet (.id id)) choice).1 = found at *
      rcases hadmits with rfl | rfl | rfl
      · cases found with
        | ok c => exact hget' _ (fun _ h => by cases h) (fun _ h => by cases h) fun _ h => h
        | error err => exact hget' _ (fun _ h => by cases h) (fun _ h => by cases h) fun _ h => h
      · exact hget' _ (fun _ h => by cases h) (fun _ h => by cases h) fun _ h => h
      · cases found with
        | ok c =>
          refine hget' _ (fun _ h => by cases h) ?_ fun _ h => h
          rintro _ ⟨⟩
          have hhas := hfound c rfl
          rwa [hid c rfl] at hhas
        | error err => exact hget' _ (fun _ h => by cases h) (fun _ h => by cases h) fun _ h => h
    | name name =>
      generalize (DockerOp.exec w.docker (.containersGet (.name name)) choice).1 = found at *
      have hrecorded : ∀ φ : SpawnerPhase, ∀ id, phase = .recorded id → φ = .recorded id := by
        rintro φ id rfl
        rcases hadmits with h | ⟨_, h⟩ <;> cases h
      cases found with
      | ok c => exact hget' _ (hrecorded _) (fun _ h => by cases h) fun _ h => by cases h
      | error err => exact hget' _ (hrecorded _) (fun _ h => by cases h) fun _ h => by cases h
  | remove id =>
    have hidle : phase.next (.docker (.remove id))
        (DockerOp.exec w.docker (.remove id) choice).1 = .idle := rfl
    have hrecorded : ∀ id', phase = .recorded id' → SpawnerPhase.idle = .recorded id' := by
      rintro id' rfl
      rcases hadmits with h | h <;> cases h
    rw [hidle]
    refine h.set_phase hget hwf (fun row hrow hkey => Or.inl (hrows row hrow hkey)) hrecorded ?_
      (fun _ h => by cases h) hnext fun _ h => by cases h
    intro i φ id' hi hφ hcounted
    have hhas := h.counted i φ id' hφ hcounted
    rcases exec_remove w.docker id choice with ⟨hok, -⟩ | hsame
    · refine hhas.step hstep ?_
      rintro ⟨⟩
      rcases hadmits with rfl | rfl
      · exact hspares id hget (removes_of_ok hok) i φ hi hφ hcounted
      · exact hi (h.distinct i tid φ _ id hφ hget (SpawnerPhase.own_of_counted hcounted) rfl)
    · rw [hsame]
      exact hhas
  | client | networksGet _ | networksCreate _ _ _ _ _ | networkRemove _ | imagesGet _
  | buildImage _ _ | start _ | containersList _ | stop _ =>
    exact h.set_phase hget hwf (fun row hrow hkey => Or.inl (hrows row hrow hkey)) (fun _ h => h)
      (hothers fun _ h => by cases h)
      (fun id hid => hkeeps (fun _ h => by cases h) id (h.counted tid phase id hget hid)) hnext
      fun _ hid => Or.inl hid

/-- **Every call of a spawn keeps the account.** -/
theorem Accounted.step {policy : Policy} {op : DaemonOp} {res : op.Res} {w' : World}
    (h : Accounted key w phases) (hget : phases[tid]? = some phase) (hadmits : phase.admits key op)
    (hsem : daemonSem policy w op res w') (hspares : SparesCounted phases ⟨tid, op, res⟩) :
    phase.expected op res ∧ Accounted key w' (phases.set tid (phase.next op res)) := by
  have hsame : ∀ w' : World, w'.db = w.db → w'.docker = w.docker →
      Accounted key w' (phases.set tid phase) := by
    intro w' hdb hdocker
    have hwf : w'.WellFormed := ⟨hdb ▸ h.wellFormed.db, hdocker ▸ h.wellFormed.docker⟩
    refine h.same_containers hget hwf hdocker ?_ (fun _ h => h)
      (fun id hid => h.counted tid phase id hget hid) fun _ hid => hid
    rw [hdb]
    exact fun row hrow hkey => ⟨row, hrow, hkey, rfl⟩
  obtain ⟨choice, -, hexec⟩ := hsem
  cases op with
  | db op =>
    cases hexec
    exact ⟨trivial, h.db_step hget hadmits⟩
  | docker op =>
    cases hexec
    refine ⟨?_, h.docker_step choice hget hadmits hspares⟩
    cases op with
    | containersGet ref =>
      cases ref with
      | id id =>
        cases hfound : (DockerOp.exec w.docker (.containersGet (.id id)) choice).1 with
        | ok c => exact (Docker.mem_of_findContainer_id (DockerOp.findContainer_of_ok hfound)).2
        | error err => trivial
      | name name => trivial
    | _ => trivial
  | filter op | wg op =>
    cases hexec
    exact ⟨trivial, hsame _ rfl rfl⟩
  | host op =>
    obtain ⟨result, -, hresult⟩ := Option.map_eq_some_iff.mp hexec
    cases hresult
    exact ⟨trivial, hsame _ rfl rfl⟩

end Steps

/-! ## Interleaved calls -/

/-- The arguments of one call for the key. -/
structure SpawnCall where
  buildPath : String
  security : Option SecurityProfile
  ttlSeconds : Option Int
  publishPorts : Bool
deriving DecidableEq, Repr

/-- The call, with its result or exception dropped. -/
def SpawnCall.prog (env : DaemonEnv) (owner : Owner) (challengeRef : String) (call : SpawnCall) :
    Daemon Unit :=
  (do
    let _ ← spawnInstance env owner challengeRef call.buildPath call.security call.ttlSeconds
      call.publishPorts
    return ()).catching fun _ => .ret ()

abbrev SpawnersConfig := Config daemonEffect PyErr SpawnerPhase World

def startSpawns (env : DaemonEnv) (owner : Owner) (challengeRef : String) (calls : List SpawnCall)
    (w : World) : SpawnersConfig :=
  ⟨w, calls.map fun call => ⟨.idle, call.prog env owner challengeRef⟩⟩

/-- No instance of the key is tracked, or exactly one, and its container exists. -/
def TrackedOnce (w : World) (key : Owner × String) : Prop :=
  (∀ row ∈ w.db.instances, row.key ≠ key) ∨
    ∃ row, w.db.instances.filter (fun row => row.key = key) = [row] ∧ w.docker.Has row.containerId

theorem Accounted.trackedOnce {w : World} {phases : List SpawnerPhase} (h : Accounted key w phases) :
    TrackedOnce w key := by
  by_cases hnone : ∀ row ∈ w.db.instances, row.key ≠ key
  · exact Or.inl hnone
  · right
    push Not at hnone
    obtain ⟨row, hrow, rfl⟩ := hnone
    obtain ⟨i, hi⟩ := h.rows row hrow rfl
    exact ⟨row, Db.filter_eq_singleton h.wellFormed.db.keys hrow, h.counted i _ _ hi rfl⟩

theorem spawnsKey_prog {env : DaemonEnv} {owner : Owner} {challengeRef : String} {call : SpawnCall} :
    SpawnsKey (owner, challengeRef) (call.prog env owner challengeRef) (fun _ _ => True) .idle := by
  have hcall : SpawnsKey (owner, challengeRef) (do
      let _ ← spawnInstance env owner challengeRef call.buildPath call.security call.ttlSeconds
        call.publishPorts
      return ()) (fun _ _ => True) .idle :=
    Conforms.bind spawnsKey_spawnInstance fun _ _ _ => trivial
  refine wp_catching.mpr (wp_mono hcall ?_)
  intro out φ _
  cases out with
  | ok value => trivial
  | error err => trivial

/-- **Concurrent spawns of one key.**  Whatever calls of `spawn_instance` for a key that is not
    tracked do in any interleaving, with any of their calls failing: as long as every cleanup spares
    the containers the other calls have read back, no instance of the key is tracked at any moment,
    or exactly one is, and its container exists. -/
theorem spawns_trackedOnce (env : DaemonEnv) (owner : Owner) (challengeRef : String)
    (calls : List SpawnCall) (w : World) (c : SpawnersConfig) (hwf : w.WellFormed)
    (huntracked : w.db.findInstance owner challengeRef = none)
    (hreach : Reach (daemonSem anyFault) SpawnerPhase.next
      (fun _ phases event => SparesCounted phases event)
      (startSpawns env owner challengeRef calls w) c) :
    TrackedOnce c.world (owner, challengeRef) := by
  have hidle : ∀ (i : Nat) (φ : SpawnerPhase),
      (startSpawns env owner challengeRef calls w).phases[i]? = some φ → φ = .idle := by
    intro i φ hφ
    have hmem := List.mem_of_getElem? hφ
    simp only [Config.phases, startSpawns, List.map_map, List.mem_map, Function.comp_apply] at hmem
    obtain ⟨call, -, rfl⟩ := hmem
    rfl
  have hinit : Accounted (owner, challengeRef) w
      (startSpawns env owner challengeRef calls w).phases := by
    constructor
    case wellFormed => exact hwf
    case rows =>
      intro row hrow hkey
      exact absurd hkey (Db.findInstance_eq_none_iff.mp huntracked row hrow)
    case counted =>
      intro i φ id hφ hid
      rw [hidle i φ hφ] at hid
      cases hid
    case own_lt =>
      intro i φ id hφ hid
      rw [hidle i φ hφ] at hid
      cases hid
    case distinct =>
      intro i j φ ψ id hφ _ hid
      rw [hidle i φ hφ] at hid
      cases hid
  have hconf : ∀ thread ∈ (startSpawns env owner challengeRef calls w).threads,
      SpawnsKey (owner, challengeRef) thread.prog (fun _ _ => True) thread.phase := by
    intro thread hthread
    obtain ⟨call, -, rfl⟩ := List.mem_map.mp hthread
    exact spawnsKey_prog
  have hkeeps : ∀ world phases tid phase op res world', Accounted (owner, challengeRef) world phases →
      phases[tid]? = some phase → SpawnerPhase.admits (owner, challengeRef) phase op →
      daemonSem anyFault world op res world' → SparesCounted phases ⟨tid, op, res⟩ →
      phase.expected op res ∧
        Accounted (owner, challengeRef) world' (phases.set tid (phase.next op res)) :=
    fun _ _ _ _ _ _ _ h hget hadmits hsem hok => h.step hget hadmits hsem hok
  exact (reach_invariant hkeeps hconf hinit hreach).1.trackedOnce

/-! ## Two schedules -/

def plainCall : SpawnCall := ⟨"/challenges/web-1", none, none, false⟩

/-- Calls for one team and challenge; in each block, one of them makes so many calls that do not fail
    of themselves. -/
def plainCalls (check : World → List SpawnerPhase → Event daemonEffect → Bool)
    (calls : List SpawnCall) (blocks : List (Nat × Nat)) : Option SpawnersConfig :=
  quietThreads SpawnerPhase.next check blocks
    (startSpawns DaemonEnv.default ⟨"team", 1⟩ "web-1" calls freshHost)

theorem reach_plainCalls {check : World → List SpawnerPhase → Event daemonEffect → Bool}
    {calls : List SpawnCall} {blocks : List (Nat × Nat)} {c : SpawnersConfig}
    (h : plainCalls check calls blocks = some c) :
    Reach (daemonSem anyFault) SpawnerPhase.next (fun w phases event => check w phases event = true)
      (startSpawns DaemonEnv.default ⟨"team", 1⟩ "web-1" calls freshHost) c :=
  (reach_quietThreads h).mono_sem anyFault_of_noFault

/-- No removal takes a container that another call has read back. -/
def sparesOthers (_ : World) (phases : List SpawnerPhase) (event : Event daemonEffect) : Bool :=
  (removes event).all fun id => (phases.eraseIdx event.tid).all fun φ => φ.counted ≠ some id

theorem sparesCounted_of_sparesOthers {w : World} {phases : List SpawnerPhase}
    {event : Event daemonEffect} (h : sparesOthers w phases event = true) :
    SparesCounted phases event := by
  intro id _ hid i φ hother hφ
  rw [sparesOthers, hid, Option.all_some, List.all_eq_true] at h
  exact of_decide_eq_true (h φ (List.mem_eraseIdx_iff_getElem?.mpr ⟨i, hother, hφ⟩))

/-- The second call cannot have the name, and its cleanup removes the first call's container before
    that has been read back.  Both fail, and a third call spawns. -/
def removedBeforeReadBack : Option SpawnersConfig :=
  plainCalls sparesOthers [plainCall, plainCall, plainCall] [(0, 13), (1, 19), (0, 2), (2, 15)]

theorem removedBeforeReadBack_tracks : removedBeforeReadBack.any (fun c => c.isFinished && decide (
    c.world.db.instances.map Instance.containerId = [2] ∧
      c.world.docker.containers.map Container.id = [2])) = true := by
  decide +kernel

theorem spawns_trackedOnce_removedBeforeReadBack : ∃ c, removedBeforeReadBack = some c ∧
    c.world.db.instances.map Instance.containerId = [2] ∧
    TrackedOnce c.world (⟨"team", 1⟩, "web-1") := by
  obtain ⟨c, hrun, htracks⟩ := (Option.any_eq_true _ _).mp removedBeforeReadBack_tracks
  obtain ⟨-, htracks⟩ := Bool.and_eq_true_iff.mp htracks
  refine ⟨c, hrun, (of_decide_eq_true htracks).1, ?_⟩
  exact spawns_trackedOnce DaemonEnv.default ⟨"team", 1⟩ "web-1" [plainCall, plainCall, plainCall]
    freshHost c freshHost_installed.wellFormed rfl
    ((reach_plainCalls hrun).mono fun _ _ _ => sparesCounted_of_sparesOthers)

/-- The second call cannot have the name, and its cleanup removes the first call's container just
    before that is recorded. -/
def removedBeforeRecord : List (Nat × Nat) := [(0, 15), (1, 12), (0, 1), (1, 8)]

theorem removedBeforeRecord_dangles : (plainCalls (fun _ _ _ => true) [plainCall, plainCall]
    removedBeforeRecord).any (fun c => c.isFinished && decide (c.world.docker.containers = [] ∧
      c.world.db.instances.map Instance.key = [(⟨"team", 1⟩, "web-1")])) = true := by
  decide +kernel

/-- The row that remains names no container. -/
theorem not_spawns_trackedOnce :
    ¬ ∀ (env : DaemonEnv) (owner : Owner) (challengeRef : String) (call call' : SpawnCall)
      (w : World) (c : SpawnersConfig), w.WellFormed →
      w.db.findInstance owner challengeRef = none →
      Reach (daemonSem anyFault) SpawnerPhase.next (fun _ _ _ => True)
        (startSpawns env owner challengeRef [call, call'] w) c → c.Finished →
      TrackedOnce c.world (owner, challengeRef) := by
  intro hall
  obtain ⟨c, hrun, hdangles⟩ := (Option.any_eq_true _ _).mp removedBeforeRecord_dangles
  obtain ⟨hfinished, hdangles⟩ := Bool.and_eq_true_iff.mp hdangles
  obtain ⟨hcontainers, hkeys⟩ := of_decide_eq_true hdangles
  have htracked := hall DaemonEnv.default ⟨"team", 1⟩ "web-1" plainCall plainCall freshHost c
    freshHost_installed.wellFormed rfl ((reach_plainCalls hrun).mono fun _ _ _ _ => trivial)
    (Config.finished_of_isFinished hfinished)
  rcases htracked with hnone | ⟨row, -, container, hmem, -⟩
  · have hkey : (⟨"team", 1⟩, "web-1") ∈ c.world.db.instances.map Instance.key := by
      rw [hkeys]
      exact List.mem_singleton_self _
    obtain ⟨row, hrow, heq⟩ := List.mem_map.mp hkey
    exact hnone row hrow heq
  · rw [hcontainers] at hmem
    cases hmem

end EdoPlugin
