import EdoPlugin.ChallengeType

/-!
# The participant's routes

`api/user.py`: spawning, tearing down and extending an instance, downloading a VPN configuration, and
submitting a flag.  Every query, commit, RPC and reading of a clock is a call of its own, in the
order of the source.  A commit expires the objects of its session, so the next use of one reads its
row again, and raises when the row is gone.
-/

namespace EdoPlugin

open Interaction ChallengeType

/-! ## Responses -/

/-- A response with `success=False`. -/
inductive Refusal where
  | notAuthenticated
  | teamRequired
  | challengeNotFound
  | challengeHasNoBuildPath
  | ownerContainerLimit (limit : Int)
  | alreadyRunning (instanceId : Nat)
  | raceConflict
  | daemonError (detail : String)
  | notFound
  | forbidden
  | notYetExtendable (remainingSeconds thresholdSeconds : Int)
  | rateLimited (retryAfter : Int)
  | attemptsExhausted
  | emptySubmission
  | invalidOwnerType
  /-- The admin routes put the text of the `DaemonError` in place of a code. -/
  | adminDaemonError (text : String)
deriving DecidableEq, Repr

/-- The `error` field. -/
def Refusal.error : Refusal → String
  | .notAuthenticated => "not_authenticated"
  | .teamRequired => "team_required"
  | .challengeNotFound => "challenge_not_found"
  | .challengeHasNoBuildPath => "challenge_has_no_build_path"
  | .ownerContainerLimit _ => "owner_container_limit"
  | .alreadyRunning _ => "already_running"
  | .raceConflict => "race_conflict"
  | .daemonError _ => "daemon_error"
  | .notFound => "not_found"
  | .forbidden => "forbidden"
  | .notYetExtendable .. => "not_yet_extendable"
  | .rateLimited _ => "rate_limited"
  | .attemptsExhausted => "attempts_exhausted"
  | .emptySubmission => "empty_submission"
  | .invalidOwnerType => "invalid_owner_type"
  | .adminDaemonError text => text

def Refusal.status : Refusal → Nat
  | .notAuthenticated => 401
  | .forbidden | .attemptsExhausted => 403
  | .challengeNotFound | .notFound => 404
  | .alreadyRunning _ | .raceConflict => 409
  | .ownerContainerLimit _ | .rateLimited _ => 429
  | .daemonError _ | .adminDaemonError _ => 502
  | .teamRequired | .challengeHasNoBuildPath | .notYetExtendable .. | .emptySubmission
  | .invalidOwnerType => 400

/-- What a participant sees of an instance. -/
structure InstanceView where
  id : Nat
  challengeId : Nat
  category : Option String
  accessMode : String
  containerName : Option String
  assignedIp : Option IPv4Address
  hostPorts : Option (List String)
  publishedPorts : Option (List (String × Nat))
  status : InstanceStatus
  expiresAt : Timestamp
  remainingSeconds : Int
  canExtend : Bool
deriving DecidableEq, Repr

inductive Response where
  | refused (refusal : Refusal)
  | done
  | spawned (view : InstanceView)
  | extended (expiresAt : Timestamp)
  | config (filename text : String)
  | incorrect
  | correct (alreadyFound complete : Bool) (message : String) (progress : Progress)
  | killed (containersRemoved : Nat)
  | bulkGenerated (created skipped failed : Nat)
deriving DecidableEq, Repr

/-! ## The caller -/

/-- `_setting(key, default)` -/
def settingOf (key : String) (default : Int) : Plugin Int := do
  let db ← select
  return db.setting key default

/-- `user_id = current_user_id()` -/
def currentUserId (caller : Option Int) : Plugin Int := do
  let db ← select
  match db.currentUser caller with
  | some user => return user.id
  | none => .raise (.attributeError "'NoneType' object has no attribute 'id'")

/-- `owner_type, owner_id = resolve_owner()` -/
def resolvedOwner (caller : Option Int) : Plugin Owner := do
  let db ← select
  match db.resolveOwner caller with
  | some owner => return owner
  | none => .raise (.typeError "cannot unpack non-iterable NoneType object")

def ownerRequired (caller : Option Int) (fn : Plugin Response) : Plugin Response := do
  let db ← select
  match db.currentUser caller with
  | none => return .refused .notAuthenticated
  | some _ =>
    match db.resolveOwner caller with
    | none => return .refused .teamRequired
    | some _ => fn

/-- An expired instance, read again. -/
def refreshInstance (instanceId : Nat) : Plugin EdoInstance := do
  let db ← select
  match db.getInstance instanceId with
  | some row => return row
  | none => .raise .objectDeletedError

namespace UserRoutes

/-! ## Container lifecycle -/

/-- `value or default` -/
def orDefault (value : Option Int) (default : Int) : Int :=
  match value with
  | some value => if value = 0 then default else value
  | none => default

/-- The `security` dictionary of the request, as the daemon reads it. -/
def securityOf (challenge : EdoChallenge) : SecurityProfile :=
  { SecurityProfile.default with
    readOnlyRootfs := challenge.readOnlyRootfs
    memory := some s!"{orDefault challenge.memoryLimitMb 512}m"
    cpus := some (match challenge.cpuLimit with
      | some cpus => if cpus = 0 then 1 else cpus
      | none => 1)
    pidsLimit := some (orDefault challenge.pidsLimit 256) }

def ttlOf (challenge : EdoChallenge) : Plugin Int := do
  let ttl := orDefault challenge.ttlSeconds 0
  if ttl = 0 then settingOf "container_ttl_seconds" 3600 else return ttl

def serializeInstance (instanceId : Nat) (extendThreshold : Int) : Plugin InstanceView := do
  let now ← utcnow
  let row ← refreshInstance instanceId
  let db ← select
  let challenge := db.getChallenge row.challengeId
  let remaining := wholeSeconds (row.expiresAt - now)
  return {
    id := row.id, challengeId := row.challengeId
    category := challenge.map EdoChallenge.category
    accessMode := (challenge.map EdoChallenge.accessMode).getD "vpn"
    containerName := row.containerName, assignedIp := row.assignedIp
    hostPorts := row.hostPorts, publishedPorts := row.publishedPorts
    status := row.status, expiresAt := row.expiresAt
    remainingSeconds := max remaining 0
    canExtend := 0 < remaining ∧ remaining ≤ extendThreshold }

/-- The columns `spawn_instance` fills in from the reply. -/
def spawnColumns (reply : Instance) : List InstanceColumn :=
  [.containerId reply.containerId, .containerName reply.containerName,
   .assignedIp reply.assignedIp, .hostPorts reply.ports,
   .publishedPorts (reply.publishedPorts.getD []), .status .running]

/-- The end of `spawn_instance`, once the RPC has returned. -/
def finishSpawn (instanceId : Nat) : Except DaemonError Instance → Plugin Response
  | .error err => do
    let _ ← refreshInstance instanceId
    commit [.deleteInstance instanceId]
    return .refused (.daemonError err.str)
  | .ok reply => do
    let _ ← refreshInstance instanceId
    commit [.updateInstance instanceId (spawnColumns reply)]
    let threshold ← settingOf "extend_threshold_seconds" 600
    let view ← serializeInstance instanceId threshold
    return .spawned view

/-- `spawn_instance` once its row is reserved. -/
def spawnReserved (owner : Owner) (challengeId : Nat) (ttl : Int) (instanceId : Nat) :
    Plugin Response := do
  let db ← select
  match db.getChallenge challengeId with
  | none => .raise .objectDeletedError
  | some challenge =>
    let result ← DaemonClient.containerEnsureInstance owner (toString challengeId)
      (challenge.buildPath.getD "") (securityOf challenge) (some ttl)
      (challenge.accessMode = "public")
    finishSpawn instanceId result

/-- The answer when the row could not be inserted. -/
def refuseSpawn (owner : Owner) (challengeId : Nat) : Plugin Response := do
  let db ← select
  match db.findInstance challengeId owner with
  | some existing => return .refused (.alreadyRunning existing.id)
  | none => return .refused .raceConflict

/-- `spawn_instance` for a challenge that can be spawned. -/
def spawnChallenge (owner : Owner) (challenge : EdoChallenge) : Plugin Response := do
  let maxContainers ← settingOf "max_containers_per_owner" 3
  let db ← select
  if maxContainers ≤ db.activeCount owner then
    return .refused (.ownerContainerLimit maxContainers)
  else
    let ttl ← ttlOf challenge
    let now ← utcnow
    let inserted ← @Prog.perform siteEffect PluginErr
      (.insertInstance challenge.id owner (now + timedelta ttl))
    match inserted with
    | .error _ => refuseSpawn owner challenge.id
    | .ok instanceId => spawnReserved owner challenge.id ttl instanceId

def spawnInstance (caller : Option Int) (challengeId : Nat) : Plugin Response :=
  ownerRequired caller do
    let owner ← resolvedOwner caller
    let db ← select
    match db.getChallenge challengeId with
    | none => return .refused .challengeNotFound
    | some challenge =>
      if challenge.buildPath.getD "" = "" then
        return .refused .challengeHasNoBuildPath
      else spawnChallenge owner challenge

/-- `_owned_instance` -/
def ownedInstance (caller : Option Int) (instanceId : Nat) :
    Plugin (Except Refusal EdoInstance) := do
  let owner ← resolvedOwner caller
  let db ← select
  match db.getInstance instanceId with
  | none => return .error .notFound
  | some row => if row.owner ≠ owner then return .error .forbidden else return .ok row

/-- `if inst.container_id: client.container_release_instance(inst.container_id)` -/
def releaseContainer (row : EdoInstance) : Plugin (Except DaemonError Unit) :=
  match row.containerId with
  | none => return .ok ()
  | some containerId => DaemonClient.containerReleaseInstance containerId

def teardownInstance (caller : Option Int) (instanceId : Nat) : Plugin Response :=
  ownerRequired caller do
    let found ← ownedInstance caller instanceId
    match found with
    | .error refusal => return .refused refusal
    | .ok row =>
      -- a `DaemonError` is only logged
      let _ ← releaseContainer row
      commit [.deleteInstance row.id]
      return .done

def extendInstance (caller : Option Int) (instanceId : Nat) : Plugin Response :=
  ownerRequired caller do
    let found ← ownedInstance caller instanceId
    match found with
    | .error refusal => return .refused refusal
    | .ok row =>
      let threshold ← settingOf "extend_threshold_seconds" 600
      let extendBy ← settingOf "extend_seconds" 1800
      let now ← utcnow
      let remaining := row.expiresAt - now
      if timedelta threshold < remaining then
        return .refused (.notYetExtendable (wholeSeconds remaining) threshold)
      else
        commit [.updateInstance row.id [.expiresAt (row.expiresAt + timedelta extendBy)]]
        let fresh ← refreshInstance row.id
        return .extended fresh.expiresAt

/-! ## WireGuard -/

def isSafeChar (c : Char) : Bool := c.isAlphanum || c == '_' || c == '.' || c == '-'

/-- `re.sub(r"[^A-Za-z0-9_.-]", "_", username) or f"user-{user_id}"` -/
def safeName (username : String) (userId : Int) : String :=
  if username = "" then s!"user-{userId}"
  else String.ofList (username.toList.map fun c => if isSafeChar c then c else '_')

/-- The end of `download_wg_config`, once the user has a peer. -/
def renderConfig (userId : Int) : Plugin Response := do
  let blob ← DaemonClient.wgRenderConfig userId
  match blob with
  | .error err => return .refused (.daemonError err.str)
  | .ok text =>
    let db ← select
    match db.getUser userId with
    | none => .raise (.attributeError "'NoneType' object has no attribute 'name'")
    | some user => return .config (safeName user.name userId ++ ".conf") text

/-- The row of a new peer. -/
def peerRow (userId : Int) (owner : Owner) (reply : PeerReply) : EdoPeer :=
  ⟨userId, owner, reply.publicKey, reply.privateKey, reply.assignedIp, false⟩

def downloadWgConfig (caller : Option Int) : Plugin Response :=
  ownerRequired caller do
    let userId ← currentUserId caller
    let owner ← resolvedOwner caller
    let db ← select
    match db.activePeer userId with
    | some _ => renderConfig userId
    | none =>
      let ensured ← DaemonClient.wgEnsurePeer userId owner
      match ensured with
      | .error err => return .refused (.daemonError err.str)
      | .ok reply =>
        commit [.insertPeer (peerRow userId owner reply)]
        renderConfig userId

/-! ## Flag submission -/

section Submission

variable (compare : FlagComparison)

/-- The answer when the owner has already found the flag. -/
def answerFound (challengeId : Nat) (owner : Owner) : Plugin Response := do
  let progress ← ownerProgress challengeId owner
  return .correct true progress.complete "You already found this flag." progress

/-- The find of a flag that is new to the owner. -/
def creditFlag (challengeId : Nat) (owner : Owner) (userId : Int) (team : Option Int)
    (submission ip : String) : Plugin Response := do
  let _ ← recordFlagFind compare challengeId userId team submission
  let progress ← ownerProgress challengeId owner
  if progress.complete then
    insertCtfdSolve challengeId userId team submission ip
    return .correct false true "Correct! Challenge complete." progress
  else
    let remaining := progress.flagsTotal - progress.flagsSolved
    return .correct false false s!"Correct! {remaining} flag(s) remaining." progress

/-- `submit_flag` for a submission that may be compared with the flags. -/
def judgeSubmission (challengeId : Nat) (owner : Owner) (userId : Int) (team : Option Int)
    (submission ip : String) : Plugin Response := do
  let matching ← firstMatchingFlag compare challengeId submission
  match matching with
  | none =>
    insertCtfdFail challengeId userId team submission ip
    return .incorrect
  | some flag =>
    let db ← select
    match db.flagSolve owner flag.id with
    | some _ => answerFound challengeId owner
    | none => creditFlag compare challengeId owner userId team submission ip

/-- The number of `Fails` rows that count against `max_attempts`. -/
def failCount (db : PluginDb) (challengeId : Nat) (solver : Owner) : Nat :=
  (db.fails.filter fun fail => fail.challengeId = challengeId ∧ fail.belongsTo solver).length

/-- `challenge.max_attempts` is set, and the owner has used it up. -/
def attemptsExhausted (challenge : EdoChallenge) (solver : Owner) : Plugin Bool :=
  let maxAttempts := orDefault challenge.maxAttempts 0
  if maxAttempts = 0 then return false
  else do
    let db ← select
    return maxAttempts ≤ failCount db challenge.id solver

/-- `Teams.query.get(owner_id) if owner_type == "team" else None` -/
def teamOf (owner : Owner) : Plugin (Option Int) :=
  if owner.ownerType = "team" then do
    let db ← select
    return (some owner.ownerId).filter fun team => db.teams.contains team
  else return none

/-- `Users.query.get(current_user_id())`, whose `id` is used. -/
def submitterOf (caller : Option Int) : Plugin Int := do
  let userId ← currentUserId caller
  let db ← select
  match db.getUser userId with
  | some user => return user.id
  | none => .raise (.attributeError "'NoneType' object has no attribute 'id'")

def submitFlag (caller : Option Int) (challengeId : Nat) (provided : Option String) (ip : String) :
    Plugin Response :=
  ownerRequired caller do
    let owner ← resolvedOwner caller
    let db ← select
    match db.getChallenge challengeId with
    | none => return .refused .challengeNotFound
    | some challenge =>
      let limit ← settingOf "submit_rate_limit" 10
      let window ← settingOf "submit_rate_window" 60
      let allowed ← checkRate (owner, challengeId) limit window
      if allowed.1 then
        let userId ← submitterOf caller
        let team ← teamOf owner
        let exhausted ← attemptsExhausted challenge (solverOf owner.ownerId team)
        if exhausted then
          return .refused .attemptsExhausted
        else
          let submission := String.ofList (stripChars (provided.getD "").toList)
          if submission = "" then
            return .refused .emptySubmission
          else judgeSubmission compare challengeId owner userId team submission ip
      else return .refused (.rateLimited allowed.2)

end Submission

end UserRoutes

end EdoPlugin
