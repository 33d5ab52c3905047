import EdoPlugin.SiteThreads

/-!
# What a participant can look at

The two routes of `api/user.py` that only read: the data of the dashboard, and the owner's progress on
a challenge.
-/

namespace EdoPlugin

open Interaction ChallengeType

/-- `owner_required`, around a route that answers with data. -/
def ownerRequiredData {α : Type} (caller : Option Int) (fn : Plugin α) : Plugin (Except Refusal α) := do
  let db ← select
  match db.currentUser caller with
  | none => return .error .notAuthenticated
  | some _ =>
    match db.resolveOwner caller with
    | none => return .error .teamRequired
    | some _ => do
      let data ← fn
      return .ok data

/-- `_setting(key, default, cast=str)` -/
def PluginDb.textSetting (db : PluginDb) (key default : String) : String :=
  match db.settings.lookup key with
  | some (some text) => if text = "" then default else text
  | some none => default
  | none => default

structure Dashboard where
  maxContainers : Int
  extendThresholdSeconds : Int
  publicIp : String
  instances : List InstanceView
deriving DecidableEq, Repr

namespace UserRoutes

/-- `_serialize_instance` of a row that the session has just read. -/
def serializeRow (row : EdoInstance) (extendThreshold : Int) : Plugin InstanceView := do
  let now ← utcnow
  let db ← select
  let challenge := db.getChallenge row.challengeId
  let remaining := wholeSeconds (row.expiresAt - now)
  return {
    id := row.id, challengeId := row.challengeId
    category := challenge.map EdoChallenge.category
    accessMode := (challenge.map EdoChallenge.accessMode).getD "vpn"
    containerName := row.containerName, assignedIp := row.assignedIp
    hostPorts := row.hostPorts, publishedPorts := row.publishedPorts
    status := row.status, expiresAt := row.expiresAt
    remainingSeconds := max remaining 0
    canExtend := 0 < remaining ∧ remaining ≤ extendThreshold }

def serializeRows (extendThreshold : Int) : List EdoInstance → Plugin (List InstanceView)
  | [] => return []
  | row :: rows => do
    let view ← serializeRow row extendThreshold
    let views ← serializeRows extendThreshold rows
    return view :: views

def dashboardData (caller : Option Int) : Plugin (Except Refusal Dashboard) :=
  ownerRequiredData caller do
    let owner ← resolvedOwner caller
    let db ← select
    let extendThreshold ← settingOf "extend_threshold_seconds" 600
    let maxContainers ← settingOf "max_containers_per_owner" 3
    let settings ← select
    let views ← serializeRows extendThreshold
      (db.instances.filter fun row => row.isActive ∧ row.owner = owner)
    return {
      maxContainers := maxContainers
      extendThresholdSeconds := extendThreshold
      publicIp := settings.textSetting "public_ip" "203.0.113.1"
      instances := views }

def challengeProgress (caller : Option Int) (challengeId : Nat) : Plugin (Except Refusal Progress) :=
  ownerRequiredData caller do
    let owner ← resolvedOwner caller
    ownerProgress challengeId owner

end UserRoutes

/-! ## Whatever the plugin does -/

/-- A request, or a run of a background job. -/
inductive SiteRequest where
  | route (call : RouteCall)
  | dashboardData (caller : Option Int)
  | challengeProgress (caller : Option Int) (challengeId : Nat)
  | sweepExpired
  | reconcile
deriving DecidableEq, Repr

/-- What a request does to the site; nothing else depends on its response. -/
def SiteRequest.prog (compare : FlagComparison) : SiteRequest → Plugin Unit
  | .route call => unattended (call.prog compare)
  | .dashboardData caller => unattended (UserRoutes.dashboardData caller)
  | .challengeProgress caller challengeId =>
    unattended (UserRoutes.challengeProgress caller challengeId)
  | .sweepExpired => unattended Scheduler.sweepExpired
  | .reconcile => unattended Scheduler.reconcile

/-- Who makes a participant's request; the other requests are the admins', and the jobs. -/
def SiteRequest.participant? : SiteRequest → Option (Option Int)
  | .route (.spawnInstance caller _) | .route (.teardownInstance caller _)
  | .route (.extendInstance caller _) | .route (.downloadWgConfig caller)
  | .route (.submitFlag caller ..) | .dashboardData caller | .challengeProgress caller _ => some caller
  | _ => none

end EdoPlugin
