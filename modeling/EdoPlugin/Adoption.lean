import EdoPlugin.CallRules
import EdoPlugin.Containers
import EdoPlugin.DatabaseInvariant

/-!
# What startup adoption recovers

`adopt_untracked` rebuilds the `instances` table from Docker when the database was lost.  It asks
the database for the octet of a container's owner, and nothing ever writes the octets back.
-/

namespace EdoPlugin

open Interaction

/-- The states that spawns and releases reach one after the other from an empty daemon; any of
    their calls may have failed. -/
inductive SpawnReached (env : DaemonEnv) : World → Prop
  | start {filter wg permits} : SpawnReached env ⟨Db.empty, Docker.empty, filter, wg, permits⟩
  | spawn {w w' owner challengeRef buildPath security ttlSeconds publishPorts out} :
      SpawnReached env w →
      Ends (daemonSem anyFault)
        (spawnInstance env owner challengeRef buildPath security ttlSeconds publishPorts) w out w' →
      SpawnReached env w'
  | release {w w' containerId out} : SpawnReached env w →
      Ends (daemonSem anyFault) (releaseInstance containerId) w out w' → SpawnReached env w'

/-- Every tracked container exists and runs. -/
def AllAlive (w : World) : Prop :=
  ∀ row ∈ w.db.instances, ∃ c ∈ w.docker.containers, c.id = row.containerId ∧ c.status = .running

/-- The row is tracked again as it was, and its owner holds the octet of the network its container
    is attached to. -/
structure Recovered (docker : Docker) (db : Db) (row : Instance) : Prop where
  tracked : ∃ row' ∈ db.instances, row'.containerId = row.containerId ∧
    row'.containerName = row.containerName ∧ row'.owner = row.owner ∧
    row'.challengeRef = row.challengeRef ∧ row'.assignedIp = row.assignedIp ∧
    row'.ports = row.ports ∧ row'.publishedPorts = row.publishedPorts ∧
    row'.expiresAt = row.expiresAt
  octet : ∃ octet, db.getOctet row.owner = some octet ∧
    ∃ c ∈ docker.containers, c.id = row.containerId ∧
      ∃ net, c.network = some net ∧ net.name = bridgeName octet

/-- The world after the database file was lost. -/
def World.withoutDb (w : World) : World := { w with db := Db.empty }

/-- Adoption on an empty database brings every tracked instance back. -/
def RecoversLostDb (w : World) : Prop :=
  ∀ out w', Ends (daemonSem noFault) adoptUntracked w.withoutDb out w' →
    ∀ row ∈ w.db.instances, Recovered w.docker w'.db row

/-! ## Adoption gives nobody an octet -/

/-- The calls of `adopt_untracked`. -/
def adoptionCall : DaemonOp → Prop
  | .db .getAllInstances | .db (.getOctet _) | .db (.addInstance _) => True
  | .docker .client | .docker (.containersList _) | .docker (.containersGet _) => True
  | _ => False

theorem callsOnly_adoptOne (container : Container) :
    CallsOnly adoptionCall (adoptOne container) := by
  unfold adoptOne
  split
  · exact .ret
  · refine CallsOnly.bind CallsOnly.ofExcept fun id => ?_
    refine CallsOnly.bind (CallsOnly.perform trivial) fun held => ?_
    extract_lets networkName
    refine CallsOnly.bind ?_ fun live => ?_
    · refine CallsOnly.bind (CallsOnly.perform trivial) fun reloaded => ?_
      cases reloaded with
      | error err => exact .ret
      | ok fresh => exact CallsOnly.ite .ret .ret
    · refine CallsOnly.bind (CallsOnly.perform trivial) fun added => ?_
      cases added with
      | ok row => exact .ret
      | error err => exact .ret

theorem callsOnly_adoptEach (knownIds : List ContainerId) (containers : List Container) :
    CallsOnly adoptionCall (adoptEach knownIds containers) := by
  induction containers with
  | nil => exact .ret
  | cons container containers ih =>
    unfold adoptEach
    refine CallsOnly.ite ih ?_
    exact CallsOnly.bind (callsOnly_adoptOne container) fun _ => CallsOnly.bind ih fun _ => .ret

theorem callsOnly_adoptUntracked : CallsOnly adoptionCall adoptUntracked := by
  refine CallsOnly.bind (CallsOnly.bind (CallsOnly.perform trivial) fun _ =>
    CallsOnly.ofExcept) fun _ => ?_
  refine CallsOnly.bind (CallsOnly.perform trivial) fun rows => ?_
  refine CallsOnly.bind (CallsOnly.perform trivial) fun listed => ?_
  cases listed with
  | error err => exact .ret
  | ok containers => exact callsOnly_adoptEach _ containers

/-- A run of adoption leaves `owner_octets` as it was. -/
theorem adoptionCall_ownerOctets {policy : Policy} {w w' : World} {op : DaemonOp} {res : op.Res}
    (hcall : adoptionCall op) (hsem : daemonSem policy w op res w') :
    w'.db.ownerOctets = w.db.ownerOctets := by
  obtain ⟨choice, -, hexec⟩ := hsem
  cases op with
  | db op =>
    cases hexec
    cases op with
    | getAllInstances => rfl
    | getOctet owner => rfl
    | addInstance row =>
      rcases w.db.addInstance_cases row with ⟨heq, -⟩ | ⟨msg, heq⟩
      · simp [DbOp.exec, heq]
      · simp [DbOp.exec, heq]
    | _ => exact hcall.elim
  | docker op =>
    cases hexec
    rfl
  | filter op => exact hcall.elim
  | wg op => exact hcall.elim
  | host op => exact hcall.elim

theorem adoptUntracked_octets {policy : Policy} {w w' : World} {out : Except PyErr Nat}
    (hends : Ends (daemonSem policy) adoptUntracked w.withoutDb out w') :
    w'.db.ownerOctets = [] := by
  refine hends.of_wp (CallsOnly.preserves (I := fun w : World => w.db.ownerOctets = [])
    callsOnly_adoptUntracked ?_ rfl)
  intro w₁ op res w₂ hcall hnil hsem
  rw [adoptionCall_ownerOctets hcall hsem, hnil]

/-- Adoption always runs to an end when nothing fails. -/
theorem exists_ends_adoptUntracked (w : World) :
    ∃ out w', Ends (daemonSem noFault) adoptUntracked w out w' := by
  refine callsOnly_adoptUntracked.exists_ends ?_ w
  intro w op hcall
  cases op with
  | db op => exact ⟨_, _, (), trivial, rfl⟩
  | docker op => exact ⟨_, _, quietChoice (.docker op), noFault_quietChoice (.docker op), rfl⟩
  | filter op => exact hcall.elim
  | wg op => exact hcall.elim
  | host op => exact hcall.elim

/-- No tracked instance is recovered: its owner holds no octet afterwards. -/
theorem not_recovered {w w' : World} {out : Except PyErr Nat} {row : Instance}
    (hends : Ends (daemonSem noFault) adoptUntracked w.withoutDb out w') :
    ¬ Recovered w.docker w'.db row := by
  rintro ⟨-, octet, hoctet, -⟩
  have hmem := Db.mem_of_getOctet hoctet
  rw [adoptUntracked_octets hends] at hmem
  cases hmem

/-- **Recovery from a lost database.**  It succeeds only when there was nothing to recover: the
    octets are not written back, so that every instance that was tracked comes back without them. -/
theorem recoversLostDb_iff (w : World) : RecoversLostDb w ↔ w.db.instances = [] := by
  constructor
  · intro hrecovers
    obtain ⟨out, w', hends⟩ := exists_ends_adoptUntracked w.withoutDb
    rw [List.eq_nil_iff_forall_not_mem]
    intro row hrow
    exact not_recovered hends (hrecovers out w' hends row hrow)
  · intro hnil out w' _ row hrow
    rw [hnil] at hrow
    cases hrow

/-- One spawn from an empty daemon, with nothing failing. -/
def oneSpawn : Option (List World × Except PyErr SpawnResult × World) :=
  daemonMachine.run quietChoice
    (spawnInstance DaemonEnv.default ⟨"team", 1⟩ "web-1" "/challenges/web-1" none none false)
    ⟨Db.empty, Docker.empty, fun _ => none, ⟨"", [], []⟩, 4⟩

theorem oneSpawn_tracks : oneSpawn.any (fun result =>
    !result.2.2.db.instances.isEmpty &&
      result.2.2.db.instances.all fun row => result.2.2.docker.containers.any fun c =>
        c.id = row.containerId ∧ c.status = .running) = true := by
  decide

theorem exists_spawnReached : ∃ w, SpawnReached DaemonEnv.default w ∧ AllAlive w ∧
    w.db.instances ≠ [] := by
  cases hrun : oneSpawn with
  | none => exact absurd oneSpawn_tracks (by rw [hrun]; exact Bool.false_ne_true)
  | some result =>
    obtain ⟨trace, out, w⟩ := result
    have htracks := oneSpawn_tracks
    rw [hrun] at htracks
    simp only [Option.any_some, Bool.and_eq_true, Bool.not_eq_true', List.isEmpty_eq_false_iff,
      List.all_eq_true, List.any_eq_true, decide_eq_true_eq] at htracks
    have hanyFault : ∀ op, anyFault op (quietChoice op) := fun _ => trivial
    have hends : Ends (daemonSem anyFault) _ _ out w :=
      ⟨trace, Machine.runs_of_run hanyFault hrun⟩
    exact ⟨w, SpawnReached.start.spawn hends, htracks.2, htracks.1⟩

/-- A team with one running container has lost it to the daemon after adoption. -/
theorem not_recoversLostDb_oneSpawn :
    ¬ ∀ (env : DaemonEnv) (w : World), SpawnReached env w → AllAlive w → RecoversLostDb w := by
  intro hall
  obtain ⟨w, hreached, halive, hne⟩ := exists_spawnReached
  obtain ⟨row, hrow⟩ := List.exists_mem_of_ne_nil _ hne
  obtain ⟨out, w', hends⟩ := exists_ends_adoptUntracked w.withoutDb
  exact not_recovered hends (hall _ w hreached halive out w' hends row hrow)

end EdoPlugin
