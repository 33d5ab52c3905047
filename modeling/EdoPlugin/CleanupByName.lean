import EdoPlugin.ServiceProtocol

/-!
# The cleanup by name

When a container does not start, `spawn_instance` removes whatever container has its name.  Names are
injective on what the plugin asks for, and nothing else gets such a name; so in any interleaving of
handlers a spawn only ever removes containers of its own owner and challenge.
-/

namespace EdoPlugin

open Interaction

variable {policy : Policy} {w w' : World} {phases : List ServicePhase} {requests : List Request}

/-! ## Threads with a key -/

/-- Everything was issued for a key, and what the threads know is true. -/
structure Serviced (requests : List Request) (w : World) (phases : List ServicePhase) : Prop where
  ledger : ∃ issued, w.Ledger issued ∧ ∀ phase ∈ phases, phase.Holds w issued
  keys : phases.map ServicePhase.key? = requests.map fun request => request.servicePhase.key?

theorem Serviced.step {tid : Nat} {phase : ServicePhase} {op : DaemonOp} {res : op.Res}
    (h : Serviced requests w phases) (hget : phases[tid]? = some phase) (hadmits : phase.admits op)
    (hsem : daemonSem policy w op res w') :
    phase.expected op res ∧ Serviced requests w' (phases.set tid (phase.next op res)) := by
  obtain ⟨issued, hledger, hholds⟩ := h.ledger
  obtain ⟨hexpected, issued', hafter⟩ :=
    hledger.sem (hholds phase (List.mem_of_getElem? hget)) hadmits hsem
  refine ⟨hexpected, ⟨issued', hafter.ledger, ?_⟩, ?_⟩
  · intro other hother
    rcases List.mem_or_eq_of_mem_set hother with hold | rfl
    · exact (hholds other hold).continues hafter.continues
    · exact hafter.holds
  · have hkey : (phases.map ServicePhase.key?)[tid]? = some phase.key? := by
      rw [List.getElem?_map, hget]
      rfl
    rw [List.map_set, ServicePhase.key?_next, ← h.keys]
    obtain ⟨hlt, heq⟩ := List.getElem?_eq_some_iff.mp hkey
    rw [← heq]
    exact List.set_getElem_self hlt

/-! ## Interleaved handlers -/

abbrev ServiceConfig := Config daemonEffect PyErr ServicePhase World

/-- One connection for each request, all of them at their start. -/
def startServices (env : DaemonEnv) (requests : List Request) (w : World) : ServiceConfig :=
  ⟨w, requests.map fun request => ⟨request.servicePhase, serve env request⟩⟩

/-- A world of the daemon at any time after its installation, when only the plugin talked to it. -/
def PluginReached (env : DaemonEnv) (w : World) : Prop :=
  ∃ w₀, w₀.Installed ∧ DaemonRun anyFault env (fun _ event => event.FromPlugin) w₀ w

theorem PluginReached.ledger {env : DaemonEnv} (h : PluginReached env w) : ∃ issued, w.Ledger issued := by
  obtain ⟨w₀, hinstalled, hrun⟩ := h
  have hinit : w₀.Ledger fun _ => ⟨⟨"user", 0⟩, 0⟩ := World.Ledger.installed hinstalled
  obtain ⟨issued, -, hledger⟩ := hinit.run hrun
  exact ⟨issued, hledger⟩

/-- Whatever container a spawn of a key removes in this step, its name and its labels are those of the
    key. -/
def RemovesOwn (requests : List Request) (w : World) (event : Event daemonEffect) : Prop :=
  ∀ (key : SpawnKey) (buildPath : String) (security : SecurityProfile) (ttlSeconds : Option Int)
    (publishPorts : Bool) (id : ContainerId),
    requests[event.tid]? = some (.containerEnsureInstance key.owner key.challengeRef buildPath security
      ttlSeconds publishPorts) →
    event.op = .docker (.remove id) →
    ∀ c ∈ w.docker.containers, c.id = id → c.spec.name = key.name ∧ c.hasKey key = true

theorem Serviced.removesOwn {tid : Nat} {phase : ServicePhase} {op : DaemonOp} {res : op.Res}
    (h : Serviced requests w phases) (hget : phases[tid]? = some phase) (hadmits : phase.admits op) :
    RemovesOwn requests w ⟨tid, op, res⟩ := by
  rintro key buildPath security ttlSeconds publishPorts id hrequest rfl c hc rfl
  have hkey : phase.key? = some key := by
    have hkeys : (phases.map ServicePhase.key?)[tid]? =
        (requests.map fun request => request.servicePhase.key?)[tid]? := by rw [h.keys]
    rw [List.getElem?_map, List.getElem?_map, hget, hrequest] at hkeys
    simp only [Option.map_some, servicePhase_ensureInstance key] at hkeys
    exact Option.some.inj hkeys
  cases phase with
  | issuesNothing => cases hkey
  | forKey own known =>
    cases hkey
    obtain ⟨issued, hledger, hholds⟩ := h.ledger
    have hissued := hledger.containers c hc
    rw [(hholds _ (List.mem_of_getElem? hget) c.id hadmits).1] at hissued
    exact ⟨hissued.name, hissued.hasKey⟩

/-- **A name identifies an instance, and a cleanup finds its own.**  Names of different challenges or
    owners differ.  Whatever requests of the plugin the daemon has served, and whatever requests of the
    plugin it serves at the same time, in any interleaving and with any call failing: every container
    that a spawn removes has the key of the spawn. -/
theorem containerNames_identify (env : DaemonEnv) (requests : List Request) (w : World)
    (c : ServiceConfig) (hreached : PluginReached env w)
    (hrequests : ∀ request ∈ requests, request.FromPlugin)
    (hreach : Reach (daemonSem anyFault) ServicePhase.next (fun _ _ _ => True)
      (startServices env requests w) c) :
    (∀ (challengeId challengeId' : Nat) (owner owner' : Owner), owner.Known → owner'.Known →
      containerNameFor (toString challengeId) owner = containerNameFor (toString challengeId') owner' →
      challengeId = challengeId' ∧ owner = owner') ∧
    ∀ event c', Step (daemonSem anyFault) ServicePhase.next c event c' →
      RemovesOwn requests c.world event := by
  refine ⟨fun _ _ _ _ hknown hknown' => containerNameFor_injective hknown hknown', ?_⟩
  have hinit : Serviced requests w (startServices env requests w).phases := by
    obtain ⟨issued, hledger⟩ := hreached.ledger
    constructor
    · refine ⟨issued, hledger, ?_⟩
      intro phase hphase
      simp only [Config.phases, startServices, List.map_map, List.mem_map, Function.comp_apply] at hphase
      obtain ⟨request, -, rfl⟩ := hphase
      exact Request.servicePhase_holds
    · simp [Config.phases, startServices, Function.comp_def]
  have hconf : ∀ thread ∈ (startServices env requests w).threads,
      Serves thread.prog (fun _ _ => True) thread.phase := by
    intro thread hthread
    obtain ⟨request, hrequest, rfl⟩ := List.mem_map.mp hthread
    exact Conforms.bind (serves_handle (hrequests request hrequest)) fun _ _ _ => trivial
  have hkeeps : ∀ world phases tid phase op res world', Serviced requests world phases →
      phases[tid]? = some phase → phase.admits op → daemonSem anyFault world op res world' → True →
      phase.expected op res ∧ Serviced requests world' (phases.set tid (phase.next op res)) :=
    fun _ _ _ _ _ _ _ h hget hadmits hsem _ => h.step hget hadmits hsem
  obtain ⟨hserviced, hthreads⟩ := reach_invariant hkeeps hconf hinit hreach
  intro event c' hstep
  cases hstep with
  | @mk world world' threads tid phase op rest res hget hsem =>
    have hthis : Serves (.call op rest) _ phase := hthreads _ (List.mem_of_getElem? hget)
    apply hserviced.removesOwn _ hthis.1
    simp [Config.phases, hget]


/-- No container starts. -/
def startless : (op : DaemonOp) → op.Choice
  | .docker (.start _) => some "driver failed programming external connectivity"
  | op => quietChoice op

def removedBy : DaemonOp → Option ContainerId
  | .docker (.remove id) => some id
  | _ => none

theorem eq_of_removedBy {op : DaemonOp} {id : ContainerId} (h : removedBy op = some id) :
    op = .docker (.remove id) := by
  unfold removedBy at h
  split at h
  · cases h
    rfl
  · cases h

def sameNumberRequests : List Request := [spawnRequest ⟨"team", 1⟩ "7", spawnRequest ⟨"user", 1⟩ "7"]

/-- A team's container runs, and the one of the user with the same number, for the same challenge, has
    not started. -/
def startFails : Option ServiceConfig :=
  daemonMachine.runSchedule ServicePhase.next (fun _ => true)
    (List.replicate 17 (0, quietChoice) ++ List.replicate 14 (1, startless))
    (startServices DaemonEnv.default sameNumberRequests freshHost)

theorem startFails_cleansUp : startFails.any (fun c =>
    decide (c.world.docker.containers.map Container.id = [1, 3]) &&
      (daemonMachine.stepThread ServicePhase.next c 1 startless).any
        fun step => decide (step.1.tid = 1 ∧ removedBy step.1.op = some 3)) = true := by
  decide +kernel

/-- The cleanup removes the user's container. -/
theorem containerNames_identify_startFails :
    ∃ c event c', startFails = some c ∧ Step (daemonSem anyFault) ServicePhase.next c event c' ∧
      event.op = .docker (.remove 3) ∧ ∃ container ∈ c.world.docker.containers, container.id = 3 ∧
        container.spec.name = "edo_7_user_1" ∧ container.hasKey ⟨⟨"user", 1⟩, 7⟩ = true := by
  obtain ⟨c, hrun, hcheck⟩ := (Option.any_eq_true _ _).mp startFails_cleansUp
  obtain ⟨hids, hcleans⟩ := Bool.and_eq_true_iff.mp hcheck
  obtain ⟨⟨event, c'⟩, hexec, hevent⟩ := (Option.any_eq_true _ _).mp hcleans
  obtain ⟨htid, hremoved⟩ := of_decide_eq_true hevent
  have hop := eq_of_removedBy hremoved
  have hstep : Step (daemonSem anyFault) ServicePhase.next c event c' :=
    Machine.step_of_stepThread (fun _ => trivial) hexec
  have hreach : Reach (daemonSem anyFault) ServicePhase.next (fun _ _ _ => True)
      (startServices DaemonEnv.default sameNumberRequests freshHost) c :=
    (Machine.reach_of_runSchedule (fun _ _ _ => trivial) hrun).mono fun _ _ _ _ => trivial
  have hrequests : ∀ request ∈ sameNumberRequests, request.FromPlugin := by
    intro request hrequest
    rcases List.mem_pair.mp hrequest with rfl | rfl
    · exact ⟨Or.inr rfl, 7, rfl⟩
    · exact ⟨Or.inl rfl, 7, rfl⟩
  have hids' : 3 ∈ c.world.docker.containers.map Container.id := by
    rw [of_decide_eq_true hids]
    decide
  obtain ⟨container, hmem, hid⟩ := List.mem_map.mp hids'
  have hremoves := (containerNames_identify DaemonEnv.default sameNumberRequests freshHost c
    ⟨freshHost, freshHost_installed, .start⟩ hrequests hreach).2 event c' hstep
  have hown := hremoves ⟨⟨"user", 1⟩, 7⟩ _ _ _ _ 3 (by rw [htid]; rfl) hop container hmem hid
  refine ⟨c, event, c', hrun, hstep, hop, container, hmem, hid, ?_, hown.2⟩
  rw [hown.1]
  decide

end EdoPlugin
