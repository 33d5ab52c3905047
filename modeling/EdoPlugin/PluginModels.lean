import EdoPlugin.Wireguard

/-!
# The plugin's tables

`models.py`, `owner.py` and the tables of CTFd they are joined with.  The plugin reads and writes
them through SQLAlchemy: a query sees what is committed, together with the writes its own session
has flushed, and a commit applies all the writes of a session or, when one of them breaks a
constraint, none.  `Write` is one such write and `PluginDb.applyAll` what a session does.

Instance ids come from an `AUTO_INCREMENT` column and are not reused.  The audit log is left out:
nothing reads it but the admin page.  Columns of JSON text hold the value they encode.
-/

namespace EdoPlugin

/-! ## Time -/

/-- A `datetime`, in microseconds. -/
abbrev Timestamp := Int

/-- `timedelta(seconds=seconds)`. -/
def timedelta (seconds : Int) : Timestamp := seconds * 1000000

/-- `int(delta.total_seconds())`, which truncates. -/
def wholeSeconds (delta : Timestamp) : Int := delta.tdiv 1000000

/-! ## CTFd's tables -/

structure User where
  id : Int
  name : String
  teamId : Option Int
  banned : Bool
  hidden : Bool
deriving DecidableEq, Repr

/-- A row of CTFd's `Flags`; how its content is compared is up to the flag's type. -/
structure Flag where
  id : Nat
  challengeId : Nat
  type : String
  content : String
  data : String
deriving DecidableEq, Repr

/-- A row of CTFd's `Solves` or `Fails`. -/
structure Submission where
  userId : Int
  teamId : Option Int
  challengeId : Nat
  ip : String
  provided : String
deriving DecidableEq, Repr

/-! ## The plugin's rows -/

structure EdoChallenge where
  id : Nat
  category : String
  maxAttempts : Option Int
  buildPath : Option String
  cpuLimit : Option Rat
  memoryLimitMb : Option Int
  pidsLimit : Option Int
  readOnlyRootfs : Bool
  ttlSeconds : Option Int
  accessMode : String
  value : Option Int
  scoringMode : String
  initialValue : Option Int
  minimumValue : Option Int
  decay : Option Int
deriving DecidableEq, Repr

structure EdoFlagWeight where
  flagId : Nat
  weightPct : Int
deriving DecidableEq, Repr

structure EdoFlagSolve where
  challengeId : Nat
  flagId : Nat
  owner : Owner
deriving DecidableEq, Repr

inductive InstanceStatus where
  | pending
  | running
  | expired
  | stopped
  | error
  | orphaned
deriving DecidableEq, Repr

structure EdoInstance where
  id : Nat
  challengeId : Nat
  owner : Owner
  containerId : Option ContainerId
  containerName : Option String
  assignedIp : Option IPv4Address
  hostPorts : Option (List String)
  publishedPorts : Option (List (String × Nat))
  status : InstanceStatus
  expiresAt : Timestamp
  lastReconciledAt : Option Timestamp
  errorMessage : Option String
deriving DecidableEq, Repr

/-- The columns of `uq_edo_instance_owner_chal`. -/
def EdoInstance.key (row : EdoInstance) : Nat × Owner := (row.challengeId, row.owner)

/-- `status in ("pending", "running")`. -/
def EdoInstance.isActive (row : EdoInstance) : Bool :=
  row.status = .pending ∨ row.status = .running

structure EdoPeer where
  userId : Int
  owner : Owner
  publicKey : String
  privateKey : Option String
  assignedIp : IPv4Address
  revoked : Bool
deriving DecidableEq, Repr

structure PluginDb where
  /-- `get_config("user_mode") == TEAMS_MODE`. -/
  teamsMode : Bool
  users : List User
  /-- The ids of the `Teams` rows. -/
  teams : List Int
  flags : List Flag
  nextFlagId : Nat
  solves : List Submission
  fails : List Submission
  challenges : List EdoChallenge
  flagWeights : List EdoFlagWeight
  flagSolves : List EdoFlagSolve
  instances : List EdoInstance
  nextInstanceId : Nat
  peers : List EdoPeer
  settings : List (String × Option String)
deriving DecidableEq, Repr

/-- A site on which nothing has happened yet. -/
def PluginDb.empty : PluginDb where
  teamsMode := false
  users := []
  teams := []
  flags := []
  nextFlagId := 1
  solves := []
  fails := []
  challenges := []
  flagWeights := []
  flagSolves := []
  instances := []
  nextInstanceId := 1
  peers := []
  settings := []

/-! ## Errors of the database -/

/-- The unique constraint that an `INSERT` or `UPDATE` violates. -/
inductive UniqueConstraint where
  | instanceContainerId
  | instanceOwnerChallenge
  | peerUserId
  | peerAssignedIp
  | flagSolveOwner
  | solveUser
  | solveTeam
deriving DecidableEq, Repr

/-- What a flush can raise; an `UPDATE` of a row that is gone is a `StaleDataError`. -/
inductive FlushError where
  | integrityError (constraint : UniqueConstraint)
  | staleDataError
deriving DecidableEq, Repr

/-! ## Settings -/

/-- The digits of an `int(text)`, between which single underscores may stand. -/
def digitsValue : Nat → Bool → List Char → Option Nat
  | value, afterDigit, [] => if afterDigit then some value else none
  | value, afterDigit, c :: cs =>
    if c.isDigit then digitsValue (value * 10 + (c.toNat - 48)) true cs
    else if c = '_' ∧ afterDigit = true then digitsValue value false cs
    else none

/-- `int(text)`; `none` when it raises `ValueError`. -/
def pyInt (text : String) : Option Int :=
  match stripChars text.toList with
  | '-' :: cs => (digitsValue 0 false cs).map fun n => -(n : Int)
  | '+' :: cs => (digitsValue 0 false cs).map fun n => (n : Int)
  | cs => (digitsValue 0 false cs).map fun n => (n : Int)

/-- `_setting(key, default)`: a missing, unreadable or zero value gives the default. -/
def PluginDb.setting (db : PluginDb) (key : String) (default : Int) : Int :=
  match db.settings.lookup key with
  | some (some text) =>
    match pyInt text with
    | some value => if value = 0 then default else value
    | none => default
  | some none => default
  | none => default

/-! ## Queries -/

namespace PluginDb

def getUser (db : PluginDb) (userId : Int) : Option User := db.users.find? fun u => u.id = userId

def getChallenge (db : PluginDb) (challengeId : Nat) : Option EdoChallenge :=
  db.challenges.find? fun challenge => challenge.id = challengeId

def getInstance (db : PluginDb) (instanceId : Nat) : Option EdoInstance :=
  db.instances.find? fun row => row.id = instanceId

def findInstance (db : PluginDb) (challengeId : Nat) (owner : Owner) : Option EdoInstance :=
  db.instances.find? fun row => row.key = (challengeId, owner)

/-- The rows of an owner that count against its limit. -/
def activeCount (db : PluginDb) (owner : Owner) : Nat :=
  (db.instances.filter fun row => row.isActive ∧ row.owner = owner).length

/-- `EdoPeer.query.filter_by(user_id=user_id, revoked=False).first()`. -/
def activePeer (db : PluginDb) (userId : Int) : Option EdoPeer :=
  db.peers.find? fun peer => peer.userId = userId ∧ peer.revoked = false

def flagsOf (db : PluginDb) (challengeId : Nat) : List Flag :=
  db.flags.filter fun flag => flag.challengeId = challengeId

/-- The owner's solve of a flag. -/
def flagSolve (db : PluginDb) (owner : Owner) (flagId : Nat) : Option EdoFlagSolve :=
  db.flagSolves.find? fun solve => solve.owner = owner ∧ solve.flagId = flagId

/-! ## Owners -/

/-- `get_current_user()`. -/
def currentUser (db : PluginDb) (caller : Option Int) : Option User := caller.bind db.getUser

def resolveOwnerForUser (db : PluginDb) (user : User) : Option Owner :=
  if db.teamsMode then user.teamId.map fun team => ⟨"team", team⟩
  else some ⟨"user", user.id⟩

/-- `resolve_owner()`; the team is read through the user's row, so a team that is gone is none. -/
def resolveOwner (db : PluginDb) (caller : Option Int) : Option Owner :=
  (db.currentUser caller).bind fun user =>
    if db.teamsMode then
      (user.teamId.filter fun team => db.teams.contains team).map fun team => ⟨"team", team⟩
    else some ⟨"user", user.id⟩

/-! ## Writes -/

def insertInstance (db : PluginDb) (challengeId : Nat) (owner : Owner) (expiresAt : Timestamp) :
    Except FlushError (Nat × PluginDb) :=
  if db.instances.any fun row => row.key = (challengeId, owner) then
    .error (.integrityError .instanceOwnerChallenge)
  else
    let row : EdoInstance :=
      { id := db.nextInstanceId, challengeId := challengeId, owner := owner, containerId := none,
        containerName := none, assignedIp := none, hostPorts := none, publishedPorts := none,
        status := .pending, expiresAt := expiresAt, lastReconciledAt := none, errorMessage := none }
    .ok (db.nextInstanceId,
      { db with instances := db.instances ++ [row], nextInstanceId := db.nextInstanceId + 1 })

end PluginDb

/-- One assignment of an `UPDATE edo_instances`. -/
inductive InstanceColumn where
  | containerId (value : ContainerId)
  | containerName (value : String)
  | assignedIp (value : Option IPv4Address)
  | hostPorts (value : List String)
  | publishedPorts (value : List (String × Nat))
  | status (value : InstanceStatus)
  | expiresAt (value : Timestamp)
  | lastReconciledAt (value : Timestamp)
  | errorMessage (value : String)
deriving DecidableEq, Repr

def InstanceColumn.set (row : EdoInstance) : InstanceColumn → EdoInstance
  | .containerId value => { row with containerId := some value }
  | .containerName value => { row with containerName := some value }
  | .assignedIp value => { row with assignedIp := value }
  | .hostPorts value => { row with hostPorts := some value }
  | .publishedPorts value => { row with publishedPorts := some value }
  | .status value => { row with status := value }
  | .expiresAt value => { row with expiresAt := value }
  | .lastReconciledAt value => { row with lastReconciledAt := some value }
  | .errorMessage value => { row with errorMessage := some value }

/-- The row after all assignments. -/
def EdoInstance.update (row : EdoInstance) (columns : List InstanceColumn) : EdoInstance :=
  columns.foldl InstanceColumn.set row

namespace PluginDb

/-- `UPDATE edo_instances SET ... WHERE id = ...` of an object in the session. -/
def updateInstance (db : PluginDb) (instanceId : Nat) (columns : List InstanceColumn) :
    Except FlushError PluginDb :=
  match db.getInstance instanceId with
  | none => .error .staleDataError
  | some row =>
    let updated := row.update columns
    if updated.containerId.isSome ∧ db.instances.any fun other =>
        other.id ≠ instanceId ∧ other.containerId = updated.containerId then
      .error (.integrityError .instanceContainerId)
    else
      .ok { db with
        instances := db.instances.map fun other => if other.id = instanceId then updated else other }

/-- `DELETE` of an object in the session; a row that is gone is only warned about. -/
def deleteInstance (db : PluginDb) (instanceId : Nat) : PluginDb :=
  { db with instances := db.instances.filter fun row => row.id ≠ instanceId }

/-- The bulk `DELETE` of the rows in status pending or running. -/
def deleteActiveInstances (db : PluginDb) : PluginDb :=
  { db with instances := db.instances.filter fun row => row.isActive = false }

def insertPeer (db : PluginDb) (row : EdoPeer) : Except FlushError PluginDb :=
  if db.peers.any fun peer => peer.userId = row.userId then
    .error (.integrityError .peerUserId)
  else if db.peers.any fun peer => peer.assignedIp = row.assignedIp then
    .error (.integrityError .peerAssignedIp)
  else .ok { db with peers := db.peers ++ [row] }

def revokePeer (db : PluginDb) (userId : Int) : Except FlushError PluginDb :=
  if db.peers.any fun peer => peer.userId = userId then
    .ok { db with peers := db.peers.map fun peer =>
      if peer.userId = userId then { peer with revoked := true } else peer }
  else .error .staleDataError

def insertFlagSolve (db : PluginDb) (row : EdoFlagSolve) : Except FlushError PluginDb :=
  if db.flagSolves.any fun solve => solve.owner = row.owner ∧ solve.flagId = row.flagId then
    .error (.integrityError .flagSolveOwner)
  else .ok { db with flagSolves := db.flagSolves ++ [row] }

def insertSolve (db : PluginDb) (row : Submission) : Except FlushError PluginDb :=
  if db.solves.any fun solve =>
      solve.challengeId = row.challengeId ∧ solve.userId = row.userId then
    .error (.integrityError .solveUser)
  else if db.solves.any fun solve =>
      solve.challengeId = row.challengeId ∧ solve.teamId.isSome ∧ solve.teamId = row.teamId then
    .error (.integrityError .solveTeam)
  else .ok { db with solves := db.solves ++ [row] }

end PluginDb

/-- `filter_by(team_id=owner_id)` or `filter_by(user_id=owner_id)`, by the type of the owner. -/
def Submission.belongsTo (row : Submission) (owner : Owner) : Bool :=
  if owner.ownerType = "team" then row.teamId = some owner.ownerId else row.userId = owner.ownerId

/-- The owner's row in `Solves` for a challenge. -/
def PluginDb.solveOf (db : PluginDb) (challengeId : Nat) (owner : Owner) : Option Submission :=
  db.solves.find? fun solve => solve.challengeId = challengeId ∧ solve.belongsTo owner

/-- A write of a session. -/
inductive Write where
  | updateInstance (instanceId : Nat) (columns : List InstanceColumn)
  | deleteInstance (instanceId : Nat)
  | deleteActiveInstances
  | insertPeer (row : EdoPeer)
  | revokePeer (userId : Int)
  | insertFlagSolve (row : EdoFlagSolve)
  | insertSolve (row : Submission)
  | insertFail (row : Submission)
  | deleteFlagSolves (challengeId : Nat) (owner : Owner)
  | deleteSolves (challengeId : Nat) (owner : Owner)
deriving DecidableEq, Repr

def PluginDb.apply (db : PluginDb) : Write → Except FlushError PluginDb
  | .updateInstance instanceId columns => db.updateInstance instanceId columns
  | .deleteInstance instanceId => .ok (db.deleteInstance instanceId)
  | .deleteActiveInstances => .ok db.deleteActiveInstances
  | .insertPeer row => db.insertPeer row
  | .revokePeer userId => db.revokePeer userId
  | .insertFlagSolve row => db.insertFlagSolve row
  | .insertSolve row => db.insertSolve row
  | .insertFail row => .ok { db with fails := db.fails ++ [row] }
  | .deleteFlagSolves challengeId owner => .ok { db with
      flagSolves := db.flagSolves.filter fun solve =>
        ¬ (solve.challengeId = challengeId ∧ solve.owner = owner) }
  | .deleteSolves challengeId owner => .ok { db with
      solves := db.solves.filter fun solve =>
        ¬ (solve.challengeId = challengeId ∧ solve.belongsTo owner) }

/-- The writes of one session, in order; the first that fails undoes all of them. -/
def PluginDb.applyAll (db : PluginDb) : List Write → Except FlushError PluginDb
  | [] => .ok db
  | write :: writes =>
    match db.apply write with
    | .ok db' => db'.applyAll writes
    | .error err => .error err

@[simp] theorem PluginDb.applyAll_nil (db : PluginDb) : db.applyAll [] = .ok db := rfl

@[simp] theorem PluginDb.applyAll_singleton (db : PluginDb) (write : Write) :
    db.applyAll [write] = db.apply write := by
  unfold PluginDb.applyAll
  cases db.apply write <;> rfl

end EdoPlugin
