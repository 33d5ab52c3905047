import EdoPlugin.AdminRoutes

/-!
# The background jobs

`scheduler.py`: the sweep of expired instances and the reconciliation of the rows with what the
daemon reports.  Both read their rows once, and commit all their writes at the end.
-/

namespace EdoPlugin

open Interaction

namespace Scheduler

/-! ## TTL sweep -/

/-- The rows the sweep takes up at a time. -/
def expiredRows (db : PluginDb) (now : Timestamp) : List EdoInstance :=
  db.instances.filter fun row => row.expiresAt ≤ now ∧ row.isActive

/-- The loop of `_sweep_expired`; returns the writes its session holds. -/
def sweepEach : List EdoInstance → Plugin (List Write)
  | [] => return []
  | row :: rows => do
    let released ← UserRoutes.releaseContainer row
    let write : Write := match released with
      | .ok () => .deleteInstance row.id
      | .error err => .updateInstance row.id
          [.status .error, .errorMessage s!"teardown failed: {err.str}"]
    let writes ← sweepEach rows
    return write :: writes

/-- `_sweep_expired` once it has read the clock. -/
def sweepAt (now : Timestamp) : Plugin Unit := do
  let db ← select
  let expired := expiredRows db now
  if expired.isEmpty then
    return ()
  else
    let writes ← sweepEach expired
    commit writes

def sweepExpired : Plugin Unit := do
  let now ← utcnow
  sweepAt now

/-! ## Reconciliation -/

/-- `live_row.get("status") in ("running", "created")` -/
def reportsAlive (row : Instance) : Bool := row.status = .running ∨ row.status = .created

/-- What `_reconcile` writes about one row, given what the daemon reports of its container. -/
def reconcileWrite (row : EdoInstance) (now : Timestamp) : Option Instance → Write
  | none => .deleteInstance row.id
  | some live =>
    if reportsAlive live then .updateInstance row.id [.lastReconciledAt now]
    else .updateInstance row.id [.lastReconciledAt now, .status .stopped]

/-- The loop of `_reconcile`; a row without a container id is left alone. -/
def reconcileEach (live : List Instance) : List EdoInstance → Plugin (List Write)
  | [] => return []
  | row :: rows =>
    match row.containerId with
    | none => reconcileEach live rows
    | some containerId => do
      let now ← utcnow
      let write := reconcileWrite row now
        (live.find? fun instance_ => instance_.containerId = containerId)
      let writes ← reconcileEach live rows
      return write :: writes

def reconcile : Plugin Unit := do
  let result ← DaemonClient.containerReconcile
  match result with
  | .error _ => return ()
  | .ok live =>
    let db ← select
    let writes ← reconcileEach live (db.instances.filter fun row => row.isActive)
    commit writes

end Scheduler

end EdoPlugin
