import EdoPlugin.UserRoutes

/-!
# The administrator's routes

The part of `api/admin.py` that changes rows or calls the daemon.
-/

namespace EdoPlugin

open Interaction

namespace AdminRoutes

def resetOwnerProgress (challengeId : Nat) (owner : Owner) : Plugin Response := do
  if owner.ownerType ≠ "user" ∧ owner.ownerType ≠ "team" then
    return .refused .invalidOwnerType
  else
    commit [.deleteFlagSolves challengeId owner, .deleteSolves challengeId owner]
    return .done

/-! ## Containers -/

def forceTeardown (instanceId : Nat) : Plugin Response := do
  let db ← select
  match db.getInstance instanceId with
  | none => return .refused .notFound
  | some row =>
    let released ← UserRoutes.releaseContainer row
    match released with
    | .error err => return .refused (.adminDaemonError err.str)
    | .ok () =>
      commit [.deleteInstance row.id]
      return .done

def killSwitch : Plugin Response := do
  let result ← DaemonClient.killSwitch
  match result with
  | .error err => return .refused (.adminDaemonError err.str)
  | .ok count =>
    commit [.deleteActiveInstances]
    return .killed count

/-! ## WireGuard -/

/-- The counters of `wg_bulk_generate`. -/
structure BulkCounts where
  created : Nat
  skipped : Nat
  failed : Nat
deriving DecidableEq, Repr

/-- The loop of `wg_bulk_generate`: the new rows stay in the session until the end, and the query of
    each round flushes those added before it. -/
def generateEach : List User → List Write → BulkCounts → Plugin Response
  | [], added, counts => do
    commit added
    return .bulkGenerated counts.created counts.skipped counts.failed
  | user :: users, added, counts => do
    let db ← flush added
    match db.activePeer user.id with
    | some _ => generateEach users added { counts with skipped := counts.skipped + 1 }
    | none =>
      match db.resolveOwnerForUser user with
      | none => generateEach users added { counts with skipped := counts.skipped + 1 }
      | some owner =>
        let ensured ← DaemonClient.wgEnsurePeer user.id owner
        match ensured with
        | .ok reply =>
          generateEach users (added ++ [.insertPeer (UserRoutes.peerRow user.id owner reply)])
            { counts with created := counts.created + 1 }
        | .error _ => generateEach users added { counts with failed := counts.failed + 1 }

def wgBulkGenerate : Plugin Response := do
  let db ← select
  generateEach (db.users.filter fun user => user.banned = false ∧ user.hidden = false) [] ⟨0, 0, 0⟩

def wgRevokePeer (userId : Int) : Plugin Response := do
  let db ← select
  match db.activePeer userId with
  | none => return .refused .notFound
  | some _ =>
    let removed ← DaemonClient.wgRemovePeer userId
    match removed with
    | .error err => return .refused (.adminDaemonError err.str)
    | .ok () =>
      commit [.revokePeer userId]
      return .done

end AdminRoutes

end EdoPlugin
