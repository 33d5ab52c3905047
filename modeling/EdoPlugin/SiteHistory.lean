import EdoPlugin.DaemonHistory
import EdoPlugin.Scheduler

/-!
# The life of a site

What can happen to a site, one operation at a time: requests, background jobs, changes that CTFd
itself makes to its tables, and what containers do on their own.
-/

namespace EdoPlugin

open Interaction

/-! ## Changes made in CTFd -/

inductive CtfdChange where
  /-- A user joins, leaves or switches teams. -/
  | setTeam (userId : Int) (team : Option Int)
  | createTeam (team : Int)
  | addFlag (challengeId : Nat) (type content data : String)
  /-- Its weight and its finds go with it. -/
  | deleteFlag (flagId : Nat)
deriving DecidableEq, Repr

def PluginDb.change (db : PluginDb) : CtfdChange → PluginDb
  | .setTeam userId team => { db with
      users := db.users.map fun user => if user.id = userId then { user with teamId := team } else user }
  | .createTeam team => { db with teams := db.teams ++ [team] }
  | .addFlag challengeId type content data => { db with
      flags := db.flags ++ [⟨db.nextFlagId, challengeId, type, content, data⟩]
      nextFlagId := db.nextFlagId + 1 }
  | .deleteFlag flagId => { db with
      flags := db.flags.filter fun flag => flag.id ≠ flagId
      flagWeights := db.flagWeights.filter fun row => row.flagId ≠ flagId
      flagSolves := db.flagSolves.filter fun solve => solve.flagId ≠ flagId }

/-! ## Requests -/

inductive RouteCall where
  | spawnInstance (caller : Option Int) (challengeId : Nat)
  | teardownInstance (caller : Option Int) (instanceId : Nat)
  | extendInstance (caller : Option Int) (instanceId : Nat)
  | downloadWgConfig (caller : Option Int)
  | submitFlag (caller : Option Int) (challengeId : Nat) (provided : Option String) (ip : String)
  | resetOwnerProgress (challengeId : Nat) (owner : Owner)
  | forceTeardown (instanceId : Nat)
  | killSwitch
  | wgBulkGenerate
  | wgRevokePeer (userId : Int)
deriving DecidableEq, Repr

def RouteCall.prog (compare : FlagComparison) : RouteCall → Plugin Response
  | .spawnInstance caller challengeId => UserRoutes.spawnInstance caller challengeId
  | .teardownInstance caller instanceId => UserRoutes.teardownInstance caller instanceId
  | .extendInstance caller instanceId => UserRoutes.extendInstance caller instanceId
  | .downloadWgConfig caller => UserRoutes.downloadWgConfig caller
  | .submitFlag caller challengeId provided ip =>
    UserRoutes.submitFlag compare caller challengeId provided ip
  | .resetOwnerProgress challengeId owner => AdminRoutes.resetOwnerProgress challengeId owner
  | .forceTeardown instanceId => AdminRoutes.forceTeardown instanceId
  | .killSwitch => AdminRoutes.killSwitch
  | .wgBulkGenerate => AdminRoutes.wgBulkGenerate
  | .wgRevokePeer userId => AdminRoutes.wgRevokePeer userId

/-! ## Runs -/

inductive SiteEvent where
  | route (call : RouteCall)
  | sweep
  | tick
  | ctfd (change : CtfdChange)
  | drift
deriving DecidableEq, Repr

inductive SiteStep (rpc : RpcSem) (compare : FlagComparison) (s : Site) : SiteEvent → Site → Prop
  | route {call out s'} : Ends (siteSem rpc) (call.prog compare) s out s' →
      SiteStep rpc compare s (.route call) s'
  | sweep {out s'} : Ends (siteSem rpc) Scheduler.sweepExpired s out s' →
      SiteStep rpc compare s .sweep s'
  | tick {out s'} : Ends (siteSem rpc) Scheduler.reconcile s out s' →
      SiteStep rpc compare s .tick s'
  | ctfd {change} : SiteStep rpc compare s (.ctfd change) { s with plugin := s.plugin.change change }
  | drift {docker} : s.daemon.docker.Drift docker →
      SiteStep rpc compare s .drift { s with daemon := { s.daemon with docker := docker } }

/-- The sites that histories from `s₀` lead to when every step satisfies `ok`, which sees the site
    before the step. -/
inductive SiteRun (rpc : RpcSem) (compare : FlagComparison) (ok : Site → SiteEvent → Prop)
    (s₀ : Site) : Site → Prop
  | start : SiteRun rpc compare ok s₀ s₀
  | step {s s' : Site} {event : SiteEvent} : SiteRun rpc compare ok s₀ s → ok s event →
      SiteStep rpc compare s event s' → SiteRun rpc compare ok s₀ s'

/-! ## Executable histories -/

/-- One operation with its outside choices fixed. -/
inductive SiteMove where
  | routed (call : RouteCall) (pick : (op : SiteOp) → op.Choice)
  | swept (pick : (op : SiteOp) → op.Choice)
  | ticked (pick : (op : SiteOp) → op.Choice)
  | changed (change : CtfdChange)
  | turned (id : ContainerId) (status : Status)

def SiteMove.event : SiteMove → SiteEvent
  | .routed request _ => .route request
  | .swept _ => .sweep
  | .ticked _ => .tick
  | .changed change => .ctfd change
  | .turned _ _ => .drift

variable {call : RpcExec} {compare : FlagComparison} {s s' : Site}

def SiteMove.exec (call : RpcExec) (compare : FlagComparison) (s : Site) : SiteMove → Option Site
  | .routed request pick => ((siteMachine call).run pick (request.prog compare) s).map fun r => r.2.2
  | .swept pick => ((siteMachine call).run pick Scheduler.sweepExpired s).map fun r => r.2.2
  | .ticked pick => ((siteMachine call).run pick Scheduler.reconcile s).map fun r => r.2.2
  | .changed change => some { s with plugin := s.plugin.change change }
  | .turned id status => some { s with daemon := { s.daemon with
      docker := s.daemon.docker.updateContainer id fun c =>
        { c with status := status, ipAddress := none } } }

/-- The end of a history whose steps all pass the check. -/
def siteHistory (call : RpcExec) (compare : FlagComparison) (check : Site → SiteEvent → Bool) :
    List SiteMove → Site → Option Site
  | [], s => some s
  | move :: moves, s =>
    if check s move.event then
      (move.exec call compare s).bind (siteHistory call compare check moves)
    else none

/-- What an executable program of the plugin computes is a run. -/
theorem ends_of_siteRun {α : Type} {rpc : RpcSem} (hrpc : rpc.Executes call) {p : Plugin α}
    {pick : (op : SiteOp) → op.Choice} {trace : List Site} {out : Except PluginErr α}
    (h : (siteMachine call).run pick p s = some (trace, out, s')) : Ends (siteSem rpc) p s out s' := by
  have hruns : Runs ((siteMachine call).answers fun _ _ => True) p s trace out s' :=
    Machine.runs_of_run (fun _ => trivial) h
  refine ⟨trace, hruns.mono ?_⟩
  rintro s op res s' ⟨choice, -, hexec⟩
  exact siteSem_of_exec hrpc hexec

theorem SiteMove.step {rpc : RpcSem} (hrpc : rpc.Executes call) {move : SiteMove}
    (h : move.exec call compare s = some s') : SiteStep rpc compare s move.event s' := by
  cases move with
  | routed request pick =>
    obtain ⟨⟨trace, out, last⟩, hrun, rfl⟩ := Option.map_eq_some_iff.mp h
    exact .route (ends_of_siteRun hrpc hrun)
  | swept pick =>
    obtain ⟨⟨trace, out, last⟩, hrun, rfl⟩ := Option.map_eq_some_iff.mp h
    exact .sweep (ends_of_siteRun hrpc hrun)
  | ticked pick =>
    obtain ⟨⟨trace, out, last⟩, hrun, rfl⟩ := Option.map_eq_some_iff.mp h
    exact .tick (ends_of_siteRun hrpc hrun)
  | changed change =>
    cases h
    exact .ctfd
  | turned id status =>
    cases h
    exact .drift .changed

/-- An executable history is a run. -/
theorem SiteRun.of_siteHistory {rpc : RpcSem} (hrpc : rpc.Executes call)
    {check : Site → SiteEvent → Bool} {ok : Site → SiteEvent → Prop} {moves : List SiteMove}
    (hok : ∀ s event, check s event = true → ok s event)
    (h : siteHistory call compare check moves s = some s') : SiteRun rpc compare ok s s' := by
  suffices haux : ∀ s₀, SiteRun rpc compare ok s₀ s → SiteRun rpc compare ok s₀ s' from haux s .start
  induction moves generalizing s with
  | nil =>
    cases h
    intro _ hrun
    exact hrun
  | cons move moves ih =>
    intro s₀ hrun
    simp only [siteHistory] at h
    split at h
    · rename_i hcheck
      obtain ⟨s₁, hexec, hrest⟩ := Option.bind_eq_some_iff.mp h
      exact ih hrest s₀ (hrun.step (hok _ _ hcheck) (SiteMove.step hrpc hexec))
    · cases h

/-- A site with one participant and one challenge, on a fresh host. -/
def freshSite : Site where
  plugin := { PluginDb.empty with
    users := [⟨1, "alice", none, false, false⟩]
    challenges := [⟨1, "web", none, some "/challenges/web-1", none, none, none, false, none, "vpn",
      some 100, "static", some 500, some 100, some 25⟩] }
  buckets := fun _ => []
  daemon := freshHost

def sameContent : FlagComparison := fun flag submission => flag.content = submission

end EdoPlugin
