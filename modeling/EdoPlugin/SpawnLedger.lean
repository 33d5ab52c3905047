import EdoPlugin.ContainerNames
import EdoPlugin.DaemonHistory
import EdoPlugin.PeerPrograms
import EdoPlugin.TrackedSpawns

/-!
# For what a container was issued

Only the plugin asks the daemon for a spawn, always for a user or a team and for a challenge by its
number.  Then Docker has no container, and the table no row, but for such keys, and an id stays with
the key that it was issued for, since Docker never gives it twice.  A thread that serves a request for
a key learns ids from the answers to its calls, and all of them were issued for that key.
-/

namespace EdoPlugin

open Interaction

variable {policy : Policy} {env : DaemonEnv} {w w' w'' : World} {α : Type}

/-! ## The ledger -/

/-- Every container and every row is there for the key that its id was issued for. -/
structure World.Ledger (w : World) (issued : ContainerId → SpawnKey) : Prop where
  docker : w.docker.WellFormed
  containers : ∀ c ∈ w.docker.containers, c.spec.IssuedTo (issued c.id)
  rows : ∀ row ∈ w.db.instances,
    row.key = (issued row.containerId).rowKey ∧ row.containerId < w.docker.nextId

/-- What was issued before is as it was. -/
structure Continues (w : World) (issued : ContainerId → SpawnKey) (w' : World)
    (issued' : ContainerId → SpawnKey) : Prop where
  nextId_le : w.docker.nextId ≤ w'.docker.nextId
  issued_eq : ∀ id < w.docker.nextId, issued' id = issued id

/-- The call creates a container. -/
def DockerOp.creates : DockerOp → Prop
  | .createContainer _ => True
  | _ => False

/-- Otherwise every container was there before, and for the same purpose. -/
theorem DockerStep.old_container {d d' : Docker} {op : DockerOp} {c : Container}
    (hstep : DockerStep d op d') (hop : ¬ op.creates) (hmem : c ∈ d'.containers) :
    ∃ old ∈ d.containers, old.id = c.id ∧ old.spec = c.spec := by
  cases hstep with
  | same | createNetwork _ | removeNetwork _ => exact ⟨c, hmem, rfl, rfl⟩
  | createContainer => exact absurd trivial hop
  | start _ _ _ | stop =>
    obtain ⟨old, hold, ⟨-, rfl⟩ | ⟨-, rfl⟩⟩ := Docker.mem_updateContainer.mp hmem
    · exact ⟨old, hold, rfl, rfl⟩
    · exact ⟨_, hold, rfl, rfl⟩
  | remove => exact ⟨c, List.mem_of_mem_filter hmem, rfl, rfl⟩

section Ledger

variable {issued issued' issued'' : ContainerId → SpawnKey}

theorem Continues.refl : Continues w issued w issued := ⟨Nat.le_refl _, fun _ _ => rfl⟩

theorem Continues.trans (h : Continues w issued w' issued') (h' : Continues w' issued' w'' issued'') :
    Continues w issued w'' issued'' := by
  refine ⟨Nat.le_trans h.nextId_le h'.nextId_le, ?_⟩
  intro id hid
  rw [h'.issued_eq id (Nat.lt_of_lt_of_le hid h.nextId_le), h.issued_eq id hid]

namespace World.Ledger

theorem installed (h : w.Installed) : w.Ledger issued := by
  refine ⟨h.wellFormed.docker, ?_, ?_⟩
  · intro c hc
    rw [h.docker] at hc
    cases hc
  · intro row hrow
    rw [h.db] at hrow
    cases hrow

/-- The other parts of the world do not matter. -/
theorem congr (h : w.Ledger issued) (hinstances : w'.db.instances = w.db.instances)
    (hdocker : w'.docker = w.docker) : w'.Ledger issued := by
  constructor
  · rw [hdocker]
    exact h.docker
  · rw [hdocker]
    exact h.containers
  · rw [hdocker, hinstances]
    exact h.rows

theorem docker_step {d : Docker} {op : DockerOp} (h : w.Ledger issued)
    (hstep : DockerStep w.docker op d) (hop : ¬ op.creates) :
    ({ w with docker := d } : World).Ledger issued := by
  refine ⟨h.docker.step hstep, ?_, ?_⟩
  · intro c hc
    obtain ⟨old, hold, hid, hspec⟩ := hstep.old_container hop hc
    rw [← hid, ← hspec]
    exact h.containers old hold
  · intro row hrow
    obtain ⟨hkey, hlt⟩ := h.rows row hrow
    exact ⟨hkey, Nat.lt_of_lt_of_le hlt (Docker.nextId_le_of_step hstep)⟩

/-- A new container gets an id that nothing refers to yet. -/
theorem create {spec : ContainerSpec} {key : SpawnKey} (h : w.Ledger issued) (hspec : spec.IssuedTo key) :
    ({ w with docker := { w.docker with
        containers := w.docker.containers ++ [⟨w.docker.nextId, spec, .created, none, none⟩]
        nextId := w.docker.nextId + 1 } } : World).Ledger
      (Function.update issued w.docker.nextId key) := by
  have hold : ∀ id < w.docker.nextId, Function.update issued w.docker.nextId key id = issued id :=
    fun id hid => Function.update_of_ne (Nat.ne_of_lt hid) _ _
  refine ⟨h.docker.step .createContainer, ?_, ?_⟩
  · intro c hc
    rcases List.mem_append.mp hc with hmem | hnew
    · rw [hold _ (h.docker.containerIds_lt c hmem)]
      exact h.containers c hmem
    · rw [List.mem_singleton.mp hnew, Function.update_self]
      exact hspec
  · intro row hrow
    obtain ⟨hkey, hlt⟩ := h.rows row hrow
    exact ⟨by rw [hold _ hlt, hkey], Nat.lt_succ_of_lt hlt⟩

/-- Rows that are left, rows with another status, and rows for what was issued. -/
theorem db {db : Db} (h : w.Ledger issued)
    (hrows : ∀ row ∈ db.instances,
      row.key = (issued row.containerId).rowKey ∧ row.containerId < w.docker.nextId) :
    ({ w with db := db } : World).Ledger issued := ⟨h.docker, h.containers, hrows⟩

/-- Whose a container of a name is. -/
theorem issued_of_name {name : String} {key : SpawnKey} {c : Container} (h : w.Ledger issued)
    (hknown : key.owner.Known) (hname : name = key.name)
    (hfind : w.docker.findContainer (.name name) = some c) :
    issued c.id = key ∧ c.id < w.docker.nextId := by
  have hmem := Docker.mem_of_findContainer hfind
  have hspec : c.spec.name = name := by simpa using List.find?_some hfind
  exact ⟨(h.containers c hmem).key_eq hknown (hspec.trans hname), h.docker.containerIds_lt c hmem⟩

end World.Ledger

end Ledger

/-! ## What a thread knows -/

/-- What a thread is there for: a key, with the ids that it knows to be issued for the key, or
    something else, which issues nothing. -/
inductive ServicePhase where
  | forKey (key : SpawnKey) (known : List ContainerId)
  | issuesNothing
deriving DecidableEq, Repr

namespace ServicePhase

/-- The calls of a thread.  One that is there for a key touches what was issued for that key alone. -/
def admits : ServicePhase → DaemonOp → Prop
  | .forKey key known, .db (.addInstance row) => row.key = key.rowKey ∧ row.containerId ∈ known
  | .forKey _ known, .db (.removeInstance id) | .forKey _ known, .db (.updateInstanceStatus id _) =>
    id ∈ known
  | .forKey key _, .db (.findInstance owner challengeRef) => (owner, challengeRef) = key.rowKey
  | .forKey .., .db (.allocatePeer ..) | .forKey .., .db (.removePeer _) => False
  | .forKey key _, .docker (.createContainer spec) => spec.IssuedTo key
  | .forKey key _, .docker (.containersGet (.name name)) => name = key.name ∧ key.owner.Known
  | .forKey _ known, .docker (.start id) | .forKey _ known, .docker (.stop id)
  | .forKey _ known, .docker (.remove id) => id ∈ known
  | .issuesNothing, .db (.addInstance _) | .issuesNothing, .docker (.createContainer _) => False
  | _, _ => True

/-- The ids that the answer of a call adds. -/
def next : ServicePhase → (op : DaemonOp) → op.Res → ServicePhase
  | .forKey key known, .db (.findInstance _ _), some row => .forKey key (row.containerId :: known)
  | .forKey key known, .docker (.createContainer _), .ok id => .forKey key (id :: known)
  | .forKey key known, .docker (.containersGet (.name _)), .ok c => .forKey key (c.id :: known)
  | phase, _, _ => phase

/-- The key of a thread. -/
def key? : ServicePhase → Option SpawnKey
  | .forKey key _ => some key
  | .issuesNothing => none

/-- A thread keeps its key. -/
@[simp] theorem key?_next (phase : ServicePhase) (op : DaemonOp) (res : op.Res) :
    (phase.next op res).key? = phase.key? := by
  unfold next
  split <;> rfl

/-- The answers a thread counts on. -/
def expected (_ : ServicePhase) : (op : DaemonOp) → op.Res → Prop
  | .db (.addInstance row), .ok added => added = row
  | .docker (.containersGet (.id id)), .ok c => c.id = id
  | _, _ => True

/-- What the thread knows is true. -/
def Holds (w : World) (issued : ContainerId → SpawnKey) : ServicePhase → Prop
  | .forKey key known => ∀ id ∈ known, issued id = key ∧ id < w.docker.nextId
  | .issuesNothing => True

theorem Holds.continues {issued issued' : ContainerId → SpawnKey} {phase : ServicePhase}
    (h : phase.Holds w issued) (hcontinues : Continues w issued w' issued') :
    phase.Holds w' issued' := by
  cases phase with
  | issuesNothing => trivial
  | forKey key known =>
    intro id hid
    obtain ⟨hissued, hlt⟩ := h id hid
    exact ⟨by rw [hcontinues.issued_eq id hlt, hissued], Nat.lt_of_lt_of_le hlt hcontinues.nextId_le⟩

/-- It goes on being true when the thread learns an id. -/
theorem Holds.learn {issued : ContainerId → SpawnKey} {key : SpawnKey} {known : List ContainerId}
    {id : ContainerId} (h : (forKey key known).Holds w issued)
    (hid : issued id = key ∧ id < w.docker.nextId) : (forKey key (id :: known)).Holds w issued := by
  intro other hother
  rcases List.mem_cons.mp hother with rfl | hmem
  · exact hid
  · exact h other hmem

end ServicePhase

/-- What follows from a call: the ledger goes on, and what the thread knows then is true. -/
structure LedgerAfter (w : World) (issued : ContainerId → SpawnKey) (phase : ServicePhase)
    (w' : World) (issued' : ContainerId → SpawnKey) : Prop where
  continues : Continues w issued w' issued'
  ledger : w'.Ledger issued'
  holds : phase.Holds w' issued'

section Calls

variable {issued : ContainerId → SpawnKey} {phase : ServicePhase}

/-- Every row after a call of the database is there for what was issued. -/
theorem World.Ledger.rows_exec {op : DbOp} (h : w.Ledger issued) (hholds : phase.Holds w issued)
    (hadmits : phase.admits (.db op)) : ∀ row ∈ (op.exec w.db).2.instances,
      row.key = (issued row.containerId).rowKey ∧ row.containerId < w.docker.nextId := by
  intro row hrow
  rcases Db.instances_exec hrow with rfl | ⟨old, hold, hkey, -, hid⟩
  · cases phase with
    | issuesNothing => exact hadmits.elim
    | forKey key known =>
      obtain ⟨hkey, hmem⟩ := hadmits
      obtain ⟨hissued, hlt⟩ := hholds _ hmem
      rw [hissued]
      exact ⟨hkey, hlt⟩
  · rw [hkey, hid]
    exact h.rows old hold

/-- A thread learns from the table what is true. -/
theorem ServicePhase.Holds.db_next {op : DbOp} (hholds : phase.Holds w issued) (h : w.Ledger issued)
    (hadmits : phase.admits (.db op)) :
    (phase.next (.db op) (op.exec w.db).1).Holds w issued := by
  cases phase with
  | issuesNothing => trivial
  | forKey key known =>
    cases op with
    | findInstance owner challengeRef =>
      simp only [DbOp.exec]
      cases hfind : w.db.findInstance owner challengeRef with
      | none => exact hholds
      | some row =>
        have hkey : row.key = (owner, challengeRef) := by simpa using List.find?_some hfind
        obtain ⟨hrow, hlt⟩ := h.rows row (List.mem_of_find?_eq_some hfind)
        have hissued : (issued row.containerId).rowKey = key.rowKey := by
          rw [← hrow, hkey]
          exact hadmits
        exact hholds.learn ⟨SpawnKey.rowKey_injective hissued, hlt⟩
    | _ => exact hholds

theorem ServicePhase.expected_db {op : DbOp} : phase.expected (.db op) (op.exec w.db).1 := by
  cases op with
  | addInstance row =>
    simp only [DbOp.exec]
    rcases w.db.addInstance_cases row with ⟨hadded, -⟩ | ⟨msg, hadded⟩
    · rw [hadded]
      rfl
    · rw [hadded]
      trivial
  | _ => trivial

theorem World.Ledger.docker_exec {op : DockerOp} {choice : op.Choice} (h : w.Ledger issued)
    (hholds : phase.Holds w issued) (hadmits : phase.admits (.docker op)) :
    ∃ issued', LedgerAfter w issued (phase.next (.docker op) (op.exec w.docker choice).1)
      { w with docker := (op.exec w.docker choice).2 } issued' := by
  have hstill : ∀ phase' : ServicePhase, phase'.Holds w issued → ¬ op.creates →
      LedgerAfter w issued phase' { w with docker := (op.exec w.docker choice).2 } issued := by
    intro phase' hphase' hop
    have hstep := DockerOp.exec_step w.docker op choice
    have hcontinues : Continues w issued { w with docker := (op.exec w.docker choice).2 } issued :=
      ⟨Docker.nextId_le_of_step hstep, fun _ _ => rfl⟩
    exact ⟨hcontinues, h.docker_step hstep hop, hphase'.continues hcontinues⟩
  cases op with
  | createContainer spec =>
    cases phase with
    | issuesNothing => exact hadmits.elim
    | forKey key known =>
      have hfailed : LedgerAfter w issued (.forKey key known) w issued := ⟨.refl, h, hholds⟩
      cases choice with
      | some msg => exact ⟨issued, hfailed⟩
      | none =>
        simp only [DockerOp.exec, failing, Docker.createContainer]
        cases w.docker.findContainer (.name spec.name) with
        | some other => exact ⟨issued, hfailed⟩
        | none =>
          have hcontinues : Continues w issued { w with docker := { w.docker with
              containers := w.docker.containers ++ [⟨w.docker.nextId, spec, .created, none, none⟩]
              nextId := w.docker.nextId + 1 } } (Function.update issued w.docker.nextId key) :=
            ⟨Nat.le_succ _, fun id hid => Function.update_of_ne (Nat.ne_of_lt hid) _ _⟩
          refine ⟨_, hcontinues, h.create hadmits, (hholds.continues hcontinues).learn ?_⟩
          exact ⟨Function.update_self _ _ _, Nat.lt_succ_self _⟩
  | containersGet ref =>
    refine ⟨issued, hstill _ ?_ fun hop => hop⟩
    cases phase with
    | issuesNothing => trivial
    | forKey key known =>
      cases ref with
      | id id => exact hholds
      | name name =>
        cases hfound : (DockerOp.exec w.docker (.containersGet (.name name)) choice).1 with
        | error err => exact hholds
        | ok c =>
          exact hholds.learn (h.issued_of_name hadmits.2 hadmits.1 (DockerOp.findContainer_of_ok hfound))
  | _ =>
    refine ⟨issued, hstill _ ?_ fun hop => hop⟩
    cases phase <;> exact hholds

/-- A container looked up by its id has this id. -/
theorem ServicePhase.expected_docker {op : DockerOp} {choice : op.Choice} :
    phase.expected (.docker op) (op.exec w.docker choice).1 := by
  cases op with
  | containersGet ref =>
    cases ref with
    | name name => trivial
    | id id =>
      cases hfound : (DockerOp.exec w.docker (.containersGet (.id id)) choice).1 with
      | error err => trivial
      | ok c => exact (Docker.mem_of_findContainer_id (DockerOp.findContainer_of_ok hfound)).2
  | _ => trivial

/-- **One call.**  Whatever a thread may do at its phase keeps the ledger, and what it learns is
    true. -/
theorem World.Ledger.sem {op : DaemonOp} {res : op.Res} (h : w.Ledger issued)
    (hholds : phase.Holds w issued) (hadmits : phase.admits op) (hsem : daemonSem policy w op res w') :
    phase.expected op res ∧ ∃ issued', LedgerAfter w issued (phase.next op res) w' issued' := by
  have hquiet : ∀ w₁ : World, w₁.db = w.db → w₁.docker = w.docker →
      LedgerAfter w issued phase w₁ issued := by
    intro w₁ hdb hdocker
    have hcontinues : Continues w issued w₁ issued := ⟨Nat.le_of_eq (by rw [hdocker]), fun _ _ => rfl⟩
    exact ⟨hcontinues, h.congr (by rw [hdb]) hdocker, hholds.continues hcontinues⟩
  obtain ⟨choice, -, hexec⟩ := hsem
  cases op with
  | db op =>
    cases hexec
    refine ⟨ServicePhase.expected_db, issued, ⟨Nat.le_refl _, fun _ _ => rfl⟩, ?_, ?_⟩
    · exact h.db (h.rows_exec hholds hadmits)
    · exact (hholds.db_next h hadmits).continues ⟨Nat.le_refl _, fun _ _ => rfl⟩
  | docker op =>
    cases hexec
    exact ⟨ServicePhase.expected_docker, h.docker_exec hholds hadmits⟩
  | filter op | wg op =>
    cases hexec
    refine ⟨trivial, issued, ?_⟩
    cases phase <;> exact hquiet _ rfl rfl
  | host op =>
    obtain ⟨result, -, hresult⟩ := Option.map_eq_some_iff.mp hexec
    cases hresult
    refine ⟨trivial, issued, ?_⟩
    cases phase <;> exact hquiet _ rfl rfl

end Calls

end EdoPlugin
