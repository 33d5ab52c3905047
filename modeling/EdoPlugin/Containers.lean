import EdoPlugin.Network
import EdoPlugin.Rounding

/-!
# The container plane

`containers.py`: per-owner Docker networks, spawning and releasing instances, reconciliation and
startup adoption.  Each function is the sequence of its database and Docker calls, with every early
return and every handled exception.
-/

namespace EdoPlugin

open Interaction

/-- The configuration the daemon reads from its environment. -/
structure DaemonEnv where
  vpnEndpoint : String
  vpnPort : Nat
  publicPortRangeStart : Nat
  publicPortRangeEnd : Nat
deriving DecidableEq, Repr

def DaemonEnv.default : DaemonEnv := ⟨"vpn.example.com:51820", 51820, 40000, 41000⟩

/-! ## Labels and names -/

def managedLabel : String := "edo.managed"
def ownerTypeLabel : String := "edo.owner_type"
def ownerIdLabel : String := "edo.owner_id"
def challengeLabel : String := "edo.challenge_ref"
def expiresLabel : String := "edo.expires_at"
def portsLabel : String := "edo.ports"

/-- The labels of an owner's network. -/
def ownerLabels (owner : Owner) : List (String × String) :=
  [(ownerTypeLabel, owner.ownerType), (ownerIdLabel, toString owner.ownerId)]

/-- Runs of characters outside `[a-z0-9]` become one underscore. -/
def slugChars : Bool → List Char → List Char
  | _, [] => []
  | inGap, c :: cs =>
    if c.isLower || c.isDigit then c :: slugChars false cs
    else if inGap then slugChars true cs
    else '_' :: slugChars true cs

/-- `.strip("_")` -/
def stripUnderscores (cs : List Char) : List Char :=
  (((cs.dropWhile fun c => c == '_').reverse).dropWhile fun c => c == '_').reverse

def slug (name : String) : String :=
  String.ofList (stripUnderscores (slugChars false (name.toList.map Char.toLower)))

def containerNameFor (challengeRef : String) (owner : Owner) : String :=
  s!"edo_{slug challengeRef}_{owner.ownerType}_{owner.ownerId}"

def imageTagFor (challengeRef : String) : String := s!"edo/{slug challengeRef}:latest"

/-! ## Host configuration -/

structure SecurityProfile where
  noNewPrivileges : Bool
  capDrop : List String
  capAdd : List String
  readOnlyRootfs : Bool
  memory : Option String
  cpus : Option Rat
  pidsLimit : Option Int
  restartPolicy : String
deriving DecidableEq, Repr

def SecurityProfile.default : SecurityProfile :=
  ⟨true, ["NET_RAW"], [], false, none, none, none, "unless-stopped"⟩

/-- `int(cpus * 1_000_000_000)`: the product of two floats is a float, and `int` truncates it. -/
def nanoCpus (cpus : Rat) : Int :=
  let nano := toFloat (cpus * 1000000000)
  nano.num.tdiv nano.den

/-- The float of `0.57` is a little less, and its product is rounded up again. -/
example : nanoCpus (toFloat (57 / 100)) = 570000000 := by decide +kernel

def buildSecureHostConfig (profile : SecurityProfile)
    (publishPorts : Option (List (String × Nat))) : HostConfig where
  restartPolicy := profile.restartPolicy
  securityOpt := if profile.noNewPrivileges then ["no-new-privileges:true"] else []
  capDrop := profile.capDrop
  capAdd := profile.capAdd
  memLimit := profile.memory.filter fun memory => memory ≠ ""
  nanoCpus := profile.cpus.map nanoCpus
  pidsLimit := profile.pidsLimit
  readOnly := profile.readOnlyRootfs
  tmpfs := if profile.readOnlyRootfs then [("/tmp", "rw,size=64m,exec")] else []
  portBindings := publishPorts.getD []

/-! ## Docker helpers -/

/-- `_client()`. -/
def dockerClient : Daemon Unit := do
  let connected ← callDocker .client
  Prog.ofExcept connected

def detectExposedPorts (imageTag : String) : Daemon (List String) := do
  let exposed ← callDocker (.imagesGet imageTag)
  match exposed with
  | .ok ports => return ports.insertionSort fun a b => a ≤ b
  | .error _ => return []

/-! ## Per-owner network -/

def gatewayModeOption : String := "com.docker.network.bridge.gateway_mode_ipv4"

def networkIsRouted (net : Network) : Bool :=
  net.options.lookup gatewayModeOption == some "routed"

/-- `sub in text`. -/
def containsText (sub text : String) : Bool :=
  text.toList.tails.any fun rest => sub.toList.isPrefixOf rest

def lowerText (text : String) : String := String.ofList (text.toList.map Char.toLower)

/-- `networks.create` for an owner, and the reading of its error. -/
def createOwnerNetwork (owner : Owner) (octet : Octet) : Daemon Octet := do
  let name := bridgeName octet
  let created ← callDocker (.networksCreate name (ownerSubnet octet) (ownerGatewayIp octet)
    [("com.docker.network.bridge.name", name), (gatewayModeOption, "routed")]
    (ownerLabels owner))
  match created with
  | .ok () => return octet
  | .error err =>
    if containsText "gateway_mode" err.msg || containsText "unknown option" (lowerText err.msg) then
      .raise (.runtimeError
        s!"Docker rejected routed-mode networking (needs Docker 24.0+): {err.msg}")
    else
      .raise err.toPyErr

def ensureOwnerNetwork (owner : Owner) : Daemon Octet := do
  let allocated ← callDb (.allocateOctet owner)
  let octet ← (Prog.ofExcept allocated : Daemon Octet)
  dockerClient
  let existing ← callDocker (.networksGet (bridgeName octet))
  match existing with
  | .ok net =>
    if networkIsRouted net then
      return octet
    else
      .raise (.runtimeError (s!"docker network '{bridgeName octet}' exists but is not in routed " ++
        "mode; remove it manually (docker network rm) and retry"))
  | .error (.notFound _) => createOwnerNetwork owner octet
  | .error (.apiError msg) => .raise (.apiError msg)

/-- The last part of `release_owner_network_if_idle`, once the octet is known. -/
def removeOwnerNetwork (owner : Owner) (octet : Octet) : Daemon Unit := do
  dockerClient
  let found ← callDocker (.networksGet (bridgeName octet))
  match found with
  | .error _ => return ()
  | .ok net =>
    let removed ← callDocker (.networkRemove net.netId)
    match removed with
    | .error _ => return ()
    | .ok () =>
      let _ ← callDb (.freeOctet owner)
      return ()

def releaseOwnerNetworkIfIdle (owner : Owner) : Daemon Unit := do
  let count ← callDb (.countInstancesForOwner owner)
  if 0 < count then
    return ()
  else
    let held ← callDb (.getOctet owner)
    match held with
    | none => return ()
    | some octet => removeOwnerNetwork owner octet

def findNextOwnerIp (owner : Owner) (octet : Octet) : Daemon IPv4Address := do
  let used ← callDb (.getUsedInstanceIps owner)
  Prog.ofExcept (iterSubnetHosts (ownerSubnet octet) (used ++ [some (ownerGatewayIp octet)]))

@[irreducible] def isResourceConflict (msg : String) : Bool :=
  let text := lowerText msg
  containsText "address already in use" text || containsText "is already in use" text ||
    containsText "no available" text || containsText "overlaps" text ||
    containsText "already allocated" text

/-! ## Public ports -/

def usedPublicPorts : Daemon (List Nat) := do
  let rows ← callDb .getAllInstances
  return rows.flatMap fun row => (row.publishedPorts.getD []).map Prod.snd

/-- The loop of `_allocate_public_ports`, with the ports chosen so far. -/
def choosePorts (used : List Nat) (count : Nat) : List Nat → List Nat → Option (List Nat)
  | _, [] => none
  | chosen, port :: ports =>
    if used.contains port then choosePorts used count chosen ports
    else if (chosen ++ [port]).length = count then some (chosen ++ [port])
    else choosePorts used count (chosen ++ [port]) ports

def allocatePublicPorts (env : DaemonEnv) (count : Nat) (exclude : List Nat) :
    Daemon (Except String (List Nat)) := do
  let used ← usedPublicPorts
  let range := List.range' env.publicPortRangeStart
    (env.publicPortRangeEnd + 1 - env.publicPortRangeStart)
  match choosePorts (used ++ exclude) count [] range with
  | some ports => return .ok ports
  | none => return .error ("no free ports left in range " ++
      s!"{env.publicPortRangeStart}-{env.publicPortRangeEnd}")

/-! ## Reading a container back -/

/-- `_live_container_ip`: reloads the container and reads its address on the named network. -/
def liveContainerIp (container : Container) (networkName : String) :
    Daemon (Container × Option IPv4Address) := do
  let reloaded ← callDocker (.containersGet (.id container.id))
  match reloaded with
  | .error _ => return (container, none)
  | .ok fresh =>
    if fresh.spec.networkName = networkName then return (fresh, fresh.ipAddress)
    else return (fresh, none)

/-! ## Spawning -/

structure SpawnResult where
  success : Bool
  instance? : Option Instance
  error : Option String
deriving DecidableEq, Repr

def SpawnResult.failure (error : String) : SpawnResult := ⟨false, none, some error⟩

/-- What one spawn request fixes before its attempts to start a container. -/
structure SpawnPlan where
  owner : Owner
  challengeRef : String
  octet : Octet
  profile : SecurityProfile
  publishPorts : Bool
  exposedPorts : List String
  expiresAt : Option String
deriving DecidableEq, Repr

def SpawnPlan.name (plan : SpawnPlan) : String := containerNameFor plan.challengeRef plan.owner

def SpawnPlan.labels (plan : SpawnPlan) : List (String × String) :=
  [(managedLabel, "true"),
   (ownerTypeLabel, plan.owner.ownerType),
   (ownerIdLabel, toString plan.owner.ownerId),
   (challengeLabel, plan.challengeRef),
   (expiresLabel, plan.expiresAt.getD ""),
   (portsLabel, ",".intercalate plan.exposedPorts)]

def SpawnPlan.spec (plan : SpawnPlan) (ip : IPv4Address)
    (portMap : Option (List (String × Nat))) : ContainerSpec where
  image := imageTagFor plan.challengeRef
  name := plan.name
  networkName := bridgeName plan.octet
  ipv4Address := ip
  hostConfig := buildSecureHostConfig plan.profile portMap
  labels := plan.labels

/-- The body of the `try`: create, start, get. -/
def startContainer (spec : ContainerSpec) : Daemon (Except DockerErr Container) := do
  let created ← callDocker (.createContainer spec)
  match created with
  | .error err => return .error err
  | .ok id =>
    let started ← callDocker (.start id)
    match started with
    | .error err => return .error err
    | .ok () => callDocker (.containersGet (.id id))

/-- `client.containers.get(name).remove(force=True)`, with its errors ignored. -/
def forceRemoveByName (name : String) : Daemon Unit := do
  let found ← callDocker (.containersGet (.name name))
  match found with
  | .error _ => return ()
  | .ok container =>
    let _ ← callDocker (.remove container.id)
    return ()

inductive AttemptsOutcome where
  | started (container : Container) (assignedIp : IPv4Address)
  | failed (error : String)
  | exhausted (lastError : String)
deriving DecidableEq, Repr

/-- The host ports of one attempt; `none` when nothing is published. -/
def attemptPorts (env : DaemonEnv) (plan : SpawnPlan) (triedPorts : List Nat) :
    Daemon (Except String (Option (List (String × Nat)))) := do
  if plan.publishPorts && !plan.exposedPorts.isEmpty then
    let ports ← allocatePublicPorts env plan.exposedPorts.length triedPorts
    match ports with
    | .error msg => return .error msg
    | .ok hostPorts => return .ok (some (plan.exposedPorts.zip hostPorts))
  else
    return .ok none

/-- The retry loop of `spawn_instance`, with the rounds it has left. -/
def spawnAttempts (env : DaemonEnv) (plan : SpawnPlan) :
    Nat → List IPv4Address → List Nat → String → Daemon AttemptsOutcome
  | 0, _, _, lastError => return .exhausted lastError
  | rounds + 1, triedIps, triedPorts, lastError => do
    let ip ← findNextOwnerIp plan.owner plan.octet
    if ip ∈ triedIps then
      spawnAttempts env plan rounds triedIps triedPorts lastError
    else
      let ports ← attemptPorts env plan triedPorts
      match ports with
      | .error msg => return .failed msg
      | .ok portMap =>
        let result ← startContainer (plan.spec ip portMap)
        match result with
        | .ok container => return .started container ip
        | .error err =>
          forceRemoveByName plan.name
          if isResourceConflict err.msg then
            spawnAttempts env plan rounds (triedIps ++ [ip])
              (triedPorts ++ (portMap.getD []).map Prod.snd) err.msg
          else
            return .failed s!"run failed: {err.msg}"

/-- The row `spawn_instance` stores for a started container. -/
def SpawnPlan.row (plan : SpawnPlan) (container : Container) (assignedIp : IPv4Address) :
    Instance where
  containerId := container.id
  containerName := plan.name
  owner := plan.owner
  challengeRef := plan.challengeRef
  assignedIp := some assignedIp
  ports := plan.exposedPorts
  status := .running
  expiresAt := plan.expiresAt
  publishedPorts :=
    let published := if plan.publishPorts then container.boundPorts else []
    if published.isEmpty then none else some published

def PyErr.str : PyErr → String
  | .runtimeError msg | .valueError msg | .keyError msg | .apiError msg | .notFound msg
  | .calledProcessError msg | .fileNotFoundError msg | .osError msg | .attributeError msg => msg

/-- The end of `spawn_instance`: read the container back and store its row. -/
def recordInstance (plan : SpawnPlan) (container : Container) (assignedIp : IPv4Address) :
    Daemon SpawnResult := do
  let live ← liveContainerIp container (bridgeName plan.octet)
  let reloaded ← callDocker (.containersGet (.id container.id))
  match reloaded with
  | .error err => .raise err.toPyErr
  | .ok fresh =>
    let added ← callDb (.addInstance (plan.row fresh (live.2.getD assignedIp)))
    match added with
    | .ok row => return ⟨true, some row, none⟩
    | .error err =>
      let _ ← callDocker (.remove container.id)
      return .failure s!"db logging failed: {err.str}"

/-- `expires_at` as text, when there is a time to live. -/
def isoExpiry : Option Int → Daemon (Option String)
  | none => return none
  | some ttl => do
    let text ← callHost (.isoExpiry ttl)
    return some text

/-- `spawn_instance` once the owner has its network: build, start, record. -/
def spawnOn (env : DaemonEnv) (owner : Owner) (challengeRef buildPath : String)
    (security : Option SecurityProfile) (ttlSeconds : Option Int) (publishPorts : Bool)
    (octet : Octet) : Daemon SpawnResult := do
  dockerClient
  let built ← callDocker (.buildImage (imageTagFor challengeRef) buildPath)
  if built.1 then
    let exposedPorts ← detectExposedPorts (imageTagFor challengeRef)
    let expiresAt ← isoExpiry ttlSeconds
    let plan : SpawnPlan := ⟨owner, challengeRef, octet,
      security.getD SecurityProfile.default, publishPorts, exposedPorts, expiresAt⟩
    let outcome ← spawnAttempts env plan 8 [] [] ""
    match outcome with
    | .started container ip => recordInstance plan container ip
    | .failed error => return .failure error
    | .exhausted lastError => return .failure s!"could not allocate a free IP: {lastError}"
  else
    return .failure built.2

/-- `spawn_instance` after its two early returns. -/
def spawnNew (env : DaemonEnv) (owner : Owner) (challengeRef buildPath : String)
    (security : Option SecurityProfile) (ttlSeconds : Option Int) (publishPorts : Bool) :
    Daemon SpawnResult := do
  let octet ← ensureOwnerNetwork owner
  spawnOn env owner challengeRef buildPath security ttlSeconds publishPorts octet

def spawnInstance (env : DaemonEnv) (owner : Owner) (challengeRef buildPath : String)
    (security : Option SecurityProfile) (ttlSeconds : Option Int) (publishPorts : Bool) :
    Daemon SpawnResult := do
  let existing ← callDb (.findInstance owner challengeRef)
  match existing with
  | some row => return ⟨true, some row, none⟩
  | none =>
    let hasDockerfile ← callHost (.isDockerfile buildPath)
    if hasDockerfile then
      spawnNew env owner challengeRef buildPath security ttlSeconds publishPorts
    else
      return .failure s!"no Dockerfile in {buildPath}"

/-! ## Releasing -/

/-- The `try` of `release_instance`: get, stop, remove. -/
def stopAndRemove (containerId : ContainerId) : Daemon (Except DockerErr Unit) := do
  let found ← callDocker (.containersGet (.id containerId))
  match found with
  | .error err => return .error err
  | .ok container =>
    let stopped ← callDocker (.stop container.id)
    match stopped with
    | .error err => return .error err
    | .ok () => callDocker (.remove container.id)

/-- `release_instance` once the container is gone from Docker. -/
def forgetInstance (inst : Option Instance) (containerId : ContainerId) : Daemon Bool := do
  let removed ← callDb (.removeInstance containerId)
  match inst with
  | none => return removed
  | some row =>
    releaseOwnerNetworkIfIdle row.owner
    return removed

def releaseInstance (containerId : ContainerId) : Daemon Bool := do
  dockerClient
  let rows ← callDb .getAllInstances
  let inst := rows.find? fun row => row.containerId = containerId
  let stopped ← stopAndRemove containerId
  match stopped with
  | .error (.apiError _) => return false
  | .error (.notFound _) => forgetInstance inst containerId
  | .ok () => forgetInstance inst containerId

/-- The loop of `teardown_all`; returns how many were released. -/
def teardownEach : List Instance → Daemon Nat
  | [] => return 0
  | row :: rows => do
    let released ← releaseInstance row.containerId
    let count ← teardownEach rows
    return (if released then 1 else 0) + count

def teardownAll : Daemon Nat := do
  let rows ← callDb .getActiveInstances
  teardownEach rows

/-! ## Reconciliation and adoption -/

/-- One round of the loop of `reconcile`; returns whether the row was pruned. -/
def reconcileOne (row : Instance) : Daemon Bool := do
  let found ← callDocker (.containersGet (.id row.containerId))
  match found with
  | .ok container =>
    if container.status ≠ row.status then
      let _ ← callDb (.updateInstanceStatus row.containerId container.status)
      return false
    else
      return false
  | .error (.notFound _) =>
    let _ ← callDb (.removeInstance row.containerId)
    releaseOwnerNetworkIfIdle row.owner
    return true
  | .error (.apiError _) => return false

def reconcileEach : List Instance → Daemon Nat
  | [] => return 0
  | row :: rows => do
    let pruned ← reconcileOne row
    let count ← reconcileEach rows
    return (if pruned then 1 else 0) + count

def reconcile : Daemon Nat := do
  dockerClient
  let rows ← callDb .getActiveInstances
  reconcileEach rows

/-- `text.split(sep)` on a separator of one character, from right to left. -/
def splitChars (sep : Char) : List Char → List (List Char)
  | [] => [[]]
  | c :: cs =>
    if c = sep then [] :: splitChars sep cs
    else match splitChars sep cs with
      | [] => [[c]]
      | word :: words => (c :: word) :: words

/-- The non-empty words between commas. -/
def splitPorts (text : String) : List String :=
  ((splitChars ',' text.toList).map String.ofList).filter fun port => port ≠ ""

/-- The owner and challenge a container's labels name, when all three are non-empty. -/
def labelledIdentity (labels : List (String × String)) : Option (String × String × String) :=
  let ownerType := (labels.lookup ownerTypeLabel).getD ""
  let ownerId := (labels.lookup ownerIdLabel).getD ""
  let challengeRef := (labels.lookup challengeLabel).getD ""
  if ownerType ≠ "" ∧ ownerId ≠ "" ∧ challengeRef ≠ "" then some (ownerType, ownerId, challengeRef)
  else none

/-- The row adoption stores for a container. -/
def adoptedRow (owner : Owner) (challengeRef : String) (container : Container)
    (ip : Option IPv4Address) : Instance where
  containerId := container.id
  containerName := container.spec.name
  owner := owner
  challengeRef := challengeRef
  assignedIp := ip
  ports := splitPorts ((container.spec.labels.lookup portsLabel).getD "")
  status := container.status
  expiresAt :=
    let expires := (container.spec.labels.lookup expiresLabel).getD ""
    if expires = "" then none else some expires
  publishedPorts := if container.boundPorts.isEmpty then none else some container.boundPorts

/-- `int(text)` of a label. -/
def parseOwnerId (text : String) : Except PyErr Int :=
  match text.toInt? with
  | some n => .ok n
  | none => .error (.valueError s!"invalid literal for int() with base 10: '{text}'")

/-- One round of the loop of `adopt_untracked`; returns whether the container was adopted. -/
def adoptOne (container : Container) : Daemon Bool := do
  match labelledIdentity container.spec.labels with
  | none => return false
  | some (ownerType, ownerId, challengeRef) =>
    let id ← (Prog.ofExcept (parseOwnerId ownerId) : Daemon Int)
    let owner : Owner := ⟨ownerType, id⟩
    let held ← callDb (.getOctet owner)
    let networkName := match held with
      | some octet => bridgeName octet
      | none => ""
    let live ← liveContainerIp container networkName
    let added ← callDb (.addInstance (adoptedRow owner challengeRef live.1 live.2))
    match added with
    | .ok _ => return true
    | .error _ => return false

def adoptEach (knownIds : List ContainerId) : List Container → Daemon Nat
  | [] => return 0
  | container :: containers => do
    if knownIds.contains container.id then
      adoptEach knownIds containers
    else
      let adopted ← adoptOne container
      let count ← adoptEach knownIds containers
      return (if adopted then 1 else 0) + count

def adoptUntracked : Daemon Nat := do
  dockerClient
  let rows ← callDb .getAllInstances
  let listed ← callDocker (.containersList managedLabel)
  match listed with
  | .error _ => return 0
  | .ok containers => adoptEach (rows.map Instance.containerId) containers

end EdoPlugin
