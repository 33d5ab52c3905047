import EdoPlugin.Adoption
import EdoPlugin.FirewallCoherence
import EdoPlugin.NetworkOwnership

/-!
# The life of a daemon

What a daemon goes through between its installation and any later moment, one operation at a time:
requests it serves, whatever fails in them; adoptions at startup; the loss of its database; and what
containers do on their own, which is to crash, to be restarted or paused, or to disappear.
-/

namespace EdoPlugin

open Interaction

/-- What happens to a container without the daemon: another status with or without an endpoint, or
    its removal. -/
inductive Docker.Drift (d : Docker) : Docker → Prop
  | changed {id status ipAddress} : Drift d (d.updateContainer id fun c =>
      { c with status := status, ipAddress := ipAddress })
  | removed {id} : Drift d { d with containers := d.containers.filter fun c => c.id ≠ id }

inductive DaemonEvent where
  | request (request : Request)
  | adoption
  | drift
  | lostDatabase
deriving DecidableEq, Repr

inductive DaemonStep (policy : Policy) (env : DaemonEnv) (w : World) : DaemonEvent → World → Prop
  | request {request out w'} : Ends (daemonSem policy) (handle env request) w out w' →
      DaemonStep policy env w (.request request) w'
  | adoption {out w'} : Ends (daemonSem policy) adoptUntracked w out w' →
      DaemonStep policy env w .adoption w'
  | drift {docker} : w.docker.Drift docker →
      DaemonStep policy env w .drift { w with docker := docker }
  | lostDatabase : DaemonStep policy env w .lostDatabase w.withoutDb

/-- The worlds that histories from `w₀` lead to when every step satisfies `ok`, which sees the world
    before the step. -/
inductive DaemonRun (policy : Policy) (env : DaemonEnv) (ok : World → DaemonEvent → Prop)
    (w₀ : World) : World → Prop
  | start : DaemonRun policy env ok w₀ w₀
  | step {w w' : World} {event : DaemonEvent} : DaemonRun policy env ok w₀ w → ok w event →
      DaemonStep policy env w event w' → DaemonRun policy env ok w₀ w'

/-- Nothing is tracked and Docker is empty. -/
structure World.Installed (w : World) : Prop where
  db : w.db = Db.empty
  docker : w.docker = Docker.empty

/-- The worlds of a daemon some time after its installation. -/
def DaemonReached (env : DaemonEnv) (w : World) : Prop :=
  ∃ w₀, w₀.Installed ∧ DaemonRun anyFault env (fun _ _ => True) w₀ w

/-! ## The constraints of both stores -/

structure World.WellFormed (w : World) : Prop where
  db : w.db.WellFormed
  docker : w.docker.WellFormed

variable {policy : Policy} {env : DaemonEnv} {α β : Type} {w w' : World}

theorem World.Installed.wellFormed (h : w.Installed) : w.WellFormed :=
  ⟨h.db ▸ Db.WellFormed.empty, h.docker ▸ Docker.WellFormed.empty⟩

theorem Docker.WellFormed.sem {op : DaemonOp} {res : op.Res} (h : w.docker.WellFormed)
    (hsem : daemonSem policy w op res w') : w'.docker.WellFormed := by
  obtain ⟨choice, -, hexec⟩ := hsem
  cases op with
  | docker op =>
    cases hexec
    exact h.exec op choice
  | db op | filter op | wg op =>
    cases hexec
    exact h
  | host op =>
    obtain ⟨result, -, hresult⟩ := Option.map_eq_some_iff.mp hexec
    cases hresult
    exact h

theorem wp_dockerWellFormed {p : Daemon α} (h : w.docker.WellFormed) :
    wp (daemonSem policy) (fun w _ => w.docker.WellFormed) p
      (fun _ w' => w'.docker.WellFormed) w := by
  refine CallsOnly.preserves (I := fun w : World => w.docker.WellFormed) (CallsOnly.always p) ?_ h
  intro _ _ _ _ _ h hsem
  exact h.sem hsem

theorem World.WellFormed.sem {op : DaemonOp} {res : op.Res} (h : w.WellFormed)
    (hsem : daemonSem policy w op res w') : w'.WellFormed :=
  ⟨h.db.sem hsem, h.docker.sem hsem⟩

theorem World.WellFormed.ends {p : Daemon α} {out : Except PyErr α} (h : w.WellFormed)
    (hends : Ends (daemonSem policy) p w out w') : w'.WellFormed := by
  refine hends.of_wp (CallsOnly.preserves (I := World.WellFormed) (CallsOnly.always p) ?_ h)
  intro _ _ _ _ _ h hsem
  exact h.sem hsem

theorem Docker.WellFormed.drift {d d' : Docker} (h : d.WellFormed) (hdrift : d.Drift d') :
    d'.WellFormed := by
  cases hdrift with
  | changed => exact h.updateContainer fun _ => rfl
  | removed => exact h.step .remove

theorem World.WellFormed.step {event : DaemonEvent} (h : w.WellFormed)
    (hstep : DaemonStep policy env w event w') : w'.WellFormed := by
  cases hstep with
  | request hends => exact h.ends hends
  | adoption hends => exact h.ends hends
  | drift hdrift => exact ⟨h.db, h.docker.drift hdrift⟩
  | lostDatabase => exact ⟨Db.WellFormed.empty, h.docker⟩

theorem World.WellFormed.run {ok : World → DaemonEvent → Prop} (h : w.WellFormed)
    (hrun : DaemonRun policy env ok w w') : w'.WellFormed := by
  induction hrun with
  | start => exact h
  | step _ _ hstep ih => exact ih.step hstep

theorem DaemonReached.wellFormed (h : DaemonReached env w) : w.WellFormed := by
  obtain ⟨w₀, hinstalled, hrun⟩ := h
  exact hinstalled.wellFormed.run hrun

/-! ## Uneventful histories -/

/-- A history in which nothing fails, and a container may stop or disappear. -/
inductive QuietEvent where
  | served (request : Request)
  | adopts
  | turns (id : ContainerId) (status : Status)
  | vanishes (id : ContainerId)
deriving DecidableEq, Repr

def QuietEvent.event : QuietEvent → DaemonEvent
  | .served request => .request request
  | .adopts => .adoption
  | .turns _ _ | .vanishes _ => .drift

def QuietEvent.exec (w : World) : QuietEvent → Option World
  | .served request => (runQuietly w request).map Prod.snd
  | .adopts => (daemonMachine.run quietChoice adoptUntracked w).map fun result => result.2.2
  | .turns id status => some { w with docker := w.docker.updateContainer id fun c =>
      { c with status := status, ipAddress := none } }
  | .vanishes id => some { w with docker :=
      { w.docker with containers := w.docker.containers.filter fun c => c.id ≠ id } }

/-- The end of a history whose steps all pass the check. -/
def quietHistory (check : World → DaemonEvent → Bool) : List QuietEvent → World → Option World
  | [], w => some w
  | event :: events, w =>
    if check w event.event then (event.exec w).bind (quietHistory check events) else none

theorem QuietEvent.step {event : QuietEvent} (h : event.exec w = some w') :
    DaemonStep noFault DaemonEnv.default w event.event w' := by
  cases event with
  | served request =>
    obtain ⟨⟨out, last⟩, hrun, hlast⟩ := Option.map_eq_some_iff.mp h
    obtain ⟨⟨trace, _⟩, hrun, hout⟩ := Option.map_eq_some_iff.mp hrun
    cases hout
    cases hlast
    exact .request ⟨trace, Machine.runs_of_run noFault_quietChoice hrun⟩
  | adopts =>
    obtain ⟨⟨trace, out, last⟩, hrun, hlast⟩ := Option.map_eq_some_iff.mp h
    cases hlast
    exact .adoption ⟨trace, Machine.runs_of_run noFault_quietChoice hrun⟩
  | turns id status =>
    cases h
    exact .drift .changed
  | vanishes id =>
    cases h
    exact .drift .removed

theorem DaemonStep.anyFault {event : DaemonEvent} (h : DaemonStep noFault env w event w') :
    DaemonStep anyFault env w event w' := by
  cases h with
  | request hends =>
    obtain ⟨trace, hrun⟩ := hends
    exact .request ⟨trace, hrun.mono anyFault_of_noFault⟩
  | adoption hends =>
    obtain ⟨trace, hrun⟩ := hends
    exact .adoption ⟨trace, hrun.mono anyFault_of_noFault⟩
  | drift hdrift => exact .drift hdrift
  | lostDatabase => exact .lostDatabase

/-- An executable history is a run. -/
theorem DaemonRun.of_quietHistory {check : World → DaemonEvent → Bool}
    {ok : World → DaemonEvent → Prop} {events : List QuietEvent}
    (hok : ∀ w event, check w event = true → ok w event)
    (h : quietHistory check events w = some w') :
    DaemonRun EdoPlugin.anyFault DaemonEnv.default ok w w' := by
  suffices haux : ∀ w₀, DaemonRun EdoPlugin.anyFault DaemonEnv.default ok w₀ w →
      DaemonRun EdoPlugin.anyFault DaemonEnv.default ok w₀ w' from haux w .start
  induction events generalizing w with
  | nil =>
    cases h
    intro _ hrun
    exact hrun
  | cons event events ih =>
    intro w₀ hrun
    simp only [quietHistory] at h
    split at h
    · rename_i hcheck
      obtain ⟨w₁, hexec, hrest⟩ := Option.bind_eq_some_iff.mp h
      exact ih hrest w₀ (hrun.step (hok _ _ hcheck) (QuietEvent.step hexec).anyFault)
    · cases h

theorem freshHost_installed : freshHost.Installed := ⟨rfl, rfl⟩

end EdoPlugin
