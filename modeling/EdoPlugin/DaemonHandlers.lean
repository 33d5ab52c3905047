import EdoPlugin.Containers
import EdoPlugin.Wireguard

/-!
# The RPC handlers of the daemon

`edo_daemon.py`: the dispatch table, the handlers behind it, and `_rebuild_firewall`, which most of
them end with.
-/

namespace EdoPlugin

open Interaction

/-! ## The firewall of the tables -/

/-- The dictionary `{(owner_type, owner_id): octet}` of the `owner_octets` rows. -/
def octetDictionary (rows : List OwnerOctet) : List (Owner × Octet) :=
  rows.map fun row => (row.owner, row.octet)

def rebuildFirewall (env : DaemonEnv) : Daemon Unit := do
  let peersByOwner ← callDb .peersGroupedByOwner
  let octetRows ← callDb .getAllOwnerOctets
  let _ ← applyFirewall peersByOwner (octetDictionary octetRows) env.vpnPort
  return ()

/-- The rules `_rebuild_firewall` installs for the tables. -/
def Db.chainRules (db : Db) (publicIface : String) : List Rule :=
  buildChainRules publicIface db.peersGroupedByOwner (octetDictionary db.getAllOwnerOctets)

/-! ## Requests and replies -/

inductive Request where
  | ping
  | wgEnsurePeer (userId : Int) (owner : Owner)
  | wgRemovePeer (userId : Int)
  | wgRenderConfig (userId : Int)
  | containerEnsureInstance (owner : Owner) (challengeRef buildPath : String)
      (security : SecurityProfile) (ttlSeconds : Option Int) (publishPorts : Bool)
  | containerReleaseInstance (containerId : ContainerId)
  | containerReconcile
  | containerInspect (containerId : ContainerId)
  | killSwitch
deriving DecidableEq, Repr

def Request.spawns : Request → Bool
  | .containerEnsureInstance .. => true
  | _ => false

structure PeerReply where
  username : String
  publicKey : String
  privateKey : Option String
  assignedIp : IPv4Address
  serverPublicKey : String
  endpoint : String
  listenPort : Nat
deriving DecidableEq, Repr

def peerReply (peer : Peer) (server : ServerConfig) : PeerReply :=
  ⟨peer.username, peer.publicKey, peer.privateKey, peer.ipAddress, server.publicKey,
    server.endpoint, server.listenPort⟩

inductive Reply where
  | pong
  | peer (reply : PeerReply)
  | removed (removed : Bool)
  | config (text : String)
  | instance_ (row : Instance)
  | reconciled (pruned : Nat) (instances : List Instance)
  | containersRemoved (count : Nat)
deriving DecidableEq, Repr

/-! ## Handlers -/

def usernameOf (userId : Int) : String := s!"user_{userId}"

theorem usernameOf_injective : Function.Injective usernameOf := by
  intro userId userId' h
  have hint : toString userId = toString userId' := by
    simpa [usernameOf, String.append_right_inj] using h
  exact Int.repr_inj.mp hint

def handleWgEnsurePeer (env : DaemonEnv) (userId : Int) (owner : Owner) : Daemon Reply := do
  let existing ← callDb (.getPeer (usernameOf userId))
  match existing with
  | none =>
    let server ← loadServerConfig env.vpnEndpoint env.vpnPort
    let clientCfg ← addPeer owner (usernameOf userId) server none
    rebuildFirewall env
    return .peer (peerReply clientCfg.peer server)
  | some peer =>
    let server ← loadServerConfig env.vpnEndpoint env.vpnPort
    return .peer (peerReply peer server)

def handleWgRemovePeer (env : DaemonEnv) (userId : Int) : Daemon Reply := do
  let removed ← removePeer (usernameOf userId)
  if removed then
    rebuildFirewall env
    return .removed removed
  else
    return .removed removed

def handleWgRenderConfig (env : DaemonEnv) (userId : Int) : Daemon Reply := do
  let found ← callDb (.getPeer (usernameOf userId))
  match found with
  | none => .raise (.keyError s!"no peer for user {userId}")
  | some peer =>
    let server ← loadServerConfig env.vpnEndpoint env.vpnPort
    return .config (renderClientConfig peer server)

/-- `with _SPAWN_SEMAPHORE: body`. -/
def withSpawnSemaphore {α : Type} (body : Daemon α) : Daemon α := do
  callHost .acquireSpawn
  body.finally_ (callHost .releaseSpawn)

/-- The instance of a successful spawn; a failed one raises its error. -/
def spawnedInstance (result : SpawnResult) : Daemon Instance :=
  match result.success, result.instance? with
  | true, some row => return row
  | _, _ =>
    let error := result.error.getD ""
    .raise (.runtimeError (if error = "" then "spawn failed" else error))

def handleContainerEnsureInstance (env : DaemonEnv) (owner : Owner)
    (challengeRef buildPath : String) (security : SecurityProfile) (ttlSeconds : Option Int)
    (publishPorts : Bool) : Daemon Reply := do
  let result ← withSpawnSemaphore
    (spawnInstance env owner challengeRef buildPath (some security) ttlSeconds publishPorts)
  let row ← spawnedInstance result
  rebuildFirewall env
  return .instance_ row

def handleContainerReleaseInstance (env : DaemonEnv) (containerId : ContainerId) :
    Daemon Reply := do
  let removed ← releaseInstance containerId
  rebuildFirewall env
  return .removed removed

def handleContainerReconcile : Daemon Reply := do
  let pruned ← reconcile
  let rows ← callDb .getAllInstances
  return .reconciled pruned rows

def handleContainerInspect (containerId : ContainerId) : Daemon Reply := do
  let rows ← callDb .getAllInstances
  match rows.find? fun row => row.containerId = containerId with
  | some row => return .instance_ row
  | none => .raise (.keyError s!"unknown container {containerId}")

def handleKillSwitch (env : DaemonEnv) : Daemon Reply := do
  let count ← teardownAll
  rebuildFirewall env
  return .containersRemoved count

/-- `METHODS`. -/
def handle (env : DaemonEnv) : Request → Daemon Reply
  | .ping => return .pong
  | .wgEnsurePeer userId owner => handleWgEnsurePeer env userId owner
  | .wgRemovePeer userId => handleWgRemovePeer env userId
  | .wgRenderConfig userId => handleWgRenderConfig env userId
  | .containerEnsureInstance owner challengeRef buildPath security ttlSeconds publishPorts =>
    handleContainerEnsureInstance env owner challengeRef buildPath security ttlSeconds publishPorts
  | .containerReleaseInstance containerId => handleContainerReleaseInstance env containerId
  | .containerReconcile => handleContainerReconcile
  | .containerInspect containerId => handleContainerInspect containerId
  | .killSwitch => handleKillSwitch env

end EdoPlugin
