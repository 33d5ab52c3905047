import EdoPlugin.ContainerRecords
import EdoPlugin.Restarts

/-!
# Which part of the daemon calls what

A handler for containers works with the tables, Docker and the host; a handler for peers with the
tables and WireGuard; the filter table is left to `_rebuild_firewall`, which most of them end with.
-/

namespace EdoPlugin

open Interaction

/-- The calls of a handler for containers before it rebuilds the firewall. -/
def containerSide : DaemonOp → Prop
  | .db (.allocatePeer ..) | .db (.removePeer _) => False
  | .db _ | .docker _ | .host _ => True
  | _ => False

/-- The calls of a handler for peers before it rebuilds the firewall. -/
def peerSide : DaemonOp → Prop
  | .db _ | .wg _ => True
  | _ => False

section Sides

variable {env : DaemonEnv} {containerId : ContainerId} {owner : Owner}

theorem containerSide_of_auxiliaryCall (op : DaemonOp) (h : auxiliaryCall op) :
    containerSide op := by
  unfold auxiliaryCall at h
  split at h <;> trivial

theorem containerSide_of_idleNetworkCall (op : DaemonOp) (h : idleNetworkCall op) :
    containerSide op := by
  unfold idleNetworkCall at h
  split at h <;> trivial

theorem containerSide_of_spawnCall {name : String} (op : DaemonOp) (h : spawnCall name op) :
    containerSide op := by
  unfold spawnCall at h
  split at h <;> trivial

theorem containerSide_spawnInstance {challengeRef buildPath : String}
    {security : Option SecurityProfile} {ttlSeconds : Option Int} {publishPorts : Bool} :
    CallsOnly containerSide (withSpawnSemaphore
      (spawnInstance env owner challengeRef buildPath security ttlSeconds publishPorts)) := by
  apply CallsOnly.bind (.perform trivial)
  intro _
  apply CallsOnly.finally_ _ (.perform trivial)
  apply CallsOnly.bind (.perform trivial)
  intro existing
  cases existing with
  | some row => exact .ret
  | none =>
    apply CallsOnly.bind (.perform trivial)
    intro hasDockerfile
    apply CallsOnly.ite _ .ret
    apply CallsOnly.bind (callsOnly_ensureOwnerNetwork.mono _)
    · exact fun octet => callsOnly_spawnOn.mono containerSide_of_spawnCall
    · intro op hcall
      unfold networkCall at hcall
      split at hcall <;> trivial

theorem containerSide_releaseInstance : CallsOnly containerSide (releaseInstance containerId) := by
  have hforget : ∀ inst, CallsOnly containerSide (forgetInstance inst containerId) := by
    intro inst
    apply CallsOnly.bind (.perform trivial)
    intro removed
    cases inst with
    | none => exact .ret
    | some row =>
      apply CallsOnly.bind (callsOnly_releaseOwnerNetworkIfIdle.mono containerSide_of_idleNetworkCall)
      exact fun _ => .ret
  have hstop : CallsOnly containerSide (stopAndRemove containerId) := by
    apply callsOnly_stopAndRemove.mono
    intro op hcall
    unfold containerCall at hcall
    split at hcall <;> trivial
  apply CallsOnly.bind (callsOnly_dockerClient.mono containerSide_of_auxiliaryCall)
  intro _
  apply CallsOnly.bind (.perform trivial)
  intro rows
  apply CallsOnly.bind hstop
  intro stopped
  cases stopped with
  | ok _ => exact hforget _
  | error err =>
    cases err with
    | apiError msg => exact .ret
    | notFound msg => exact hforget _

theorem containerSide_teardownAll : CallsOnly containerSide teardownAll := by
  apply CallsOnly.bind (.perform trivial)
  intro rows
  induction rows with
  | nil => exact .ret
  | cons row rows ih =>
    apply CallsOnly.bind containerSide_releaseInstance
    exact fun _ => .bind ih fun _ => .ret

theorem containerSide_reconcile : CallsOnly containerSide reconcile := by
  have hone : ∀ row, CallsOnly containerSide (reconcileOne row) := by
    intro row
    apply CallsOnly.bind (.perform trivial)
    intro found
    cases found with
    | ok container => exact .ite (.bind (.perform trivial) fun _ => .ret) .ret
    | error err =>
      cases err with
      | apiError msg => exact .ret
      | notFound msg =>
        apply CallsOnly.bind (.perform trivial)
        intro _
        apply CallsOnly.bind
          (callsOnly_releaseOwnerNetworkIfIdle.mono containerSide_of_idleNetworkCall)
        exact fun _ => .ret
  apply CallsOnly.bind (callsOnly_dockerClient.mono containerSide_of_auxiliaryCall)
  intro _
  apply CallsOnly.bind (.perform trivial)
  intro rows
  induction rows with
  | nil => exact .ret
  | cons row rows ih =>
    apply CallsOnly.bind (hone row)
    exact fun _ => .bind ih fun _ => .ret

theorem containerSide_adoptUntracked : CallsOnly containerSide adoptUntracked := by
  apply callsOnly_adoptUntracked.mono
  intro op hcall
  unfold adoptionCall at hcall
  split at hcall <;> trivial

theorem peerSide_of_sparesServerFile (op : DaemonOp) (h : sparesServerFile op) : peerSide op := by
  unfold sparesServerFile at h
  split at h <;> trivial

theorem peerSide_loadServerConfig {endpoint : String} {port : Nat} :
    CallsOnly peerSide (loadServerConfig endpoint port) := by
  apply callsOnly_loadServerConfig.mono
  intro op hcall
  unfold wgCall at hcall
  split at hcall <;> trivial

theorem peerSide_addPeer {username : String} {server : ServerConfig} {publicKey : Option String} :
    CallsOnly peerSide (addPeer owner username server publicKey) := by
  apply CallsOnly.bind (callsOnly_peerKeys.mono peerSide_of_sparesServerFile)
  intro keys
  apply CallsOnly.bind (.perform trivial)
  intro allocated
  apply CallsOnly.bind .ofExcept
  intro peer
  apply CallsOnly.bind _ fun _ => .ret
  apply CallsOnly.catching
  · apply CallsOnly.bind (.bind (.perform trivial) fun _ => .ofExcept)
    exact fun _ => callsOnly_afterAppend.mono peerSide_of_sparesServerFile
  · exact fun err => .bind (.perform trivial) fun _ => .raise

theorem peerSide_removePeer {username : String} : CallsOnly peerSide (removePeer username) := by
  apply CallsOnly.bind (.perform trivial)
  intro found
  cases found with
  | none => exact .ret
  | some peer =>
    apply CallsOnly.bind (.perform trivial)
    intro removed
    apply CallsOnly.bind callsOnly_loggedWg
    intro _
    apply CallsOnly.bind
    · apply CallsOnly.bind (.perform trivial)
      intro content
      apply CallsOnly.bind .ofExcept
      intro text
      apply CallsOnly.bind (.perform trivial)
      exact fun peers => .bind (.perform trivial) fun _ => .ofExcept
    · intro _
      apply CallsOnly.bind (.perform trivial)
      intro _
      apply CallsOnly.bind (.perform trivial)
      exact fun _ => .bind .ofExcept fun _ => .ret

end Sides

/-! ## The handlers -/

section Handlers

variable {env : DaemonEnv} {A : DaemonOp → Prop}

/-- The requests that concern peers. -/
def Request.ofPeers : Request → Bool
  | .wgEnsurePeer .. | .wgRemovePeer _ | .wgRenderConfig _ => true
  | _ => false

theorem callsOnly_spawnedInstance {result : SpawnResult} : CallsOnly A (spawnedInstance result) := by
  unfold spawnedInstance
  split
  · exact .ret
  · exact .raise

theorem callsOnly_containerHandler {request : Request} (hpeers : request.ofPeers = false)
    (hside : ∀ op, containerSide op → A op) (hrebuild : CallsOnly A (rebuildFirewall env)) :
    CallsOnly A (handle env request) := by
  have hrows : A (.db .getAllInstances) := hside _ trivial
  cases request with
  | ping => exact .ret
  | wgEnsurePeer _ _ | wgRemovePeer _ | wgRenderConfig _ => cases hpeers
  | containerEnsureInstance owner challengeRef buildPath security ttlSeconds publishPorts =>
    apply CallsOnly.bind (containerSide_spawnInstance.mono hside)
    intro result
    apply CallsOnly.bind callsOnly_spawnedInstance
    exact fun row => .bind hrebuild fun _ => .ret
  | containerReleaseInstance containerId =>
    apply CallsOnly.bind (containerSide_releaseInstance.mono hside)
    exact fun removed => .bind hrebuild fun _ => .ret
  | containerReconcile =>
    apply CallsOnly.bind (containerSide_reconcile.mono hside)
    exact fun pruned => .bind (.perform hrows) fun _ => .ret
  | containerInspect containerId =>
    apply CallsOnly.bind (.perform hrows)
    intro rows
    split
    · exact .ret
    · exact .raise
  | killSwitch =>
    apply CallsOnly.bind (containerSide_teardownAll.mono hside)
    exact fun count => .bind hrebuild fun _ => .ret

theorem callsOnly_peerHandler {request : Request} (hpeers : request.ofPeers = true)
    (hside : ∀ op, peerSide op → A op) (hrebuild : CallsOnly A (rebuildFirewall env)) :
    CallsOnly A (handle env request) := by
  have hdb : ∀ op, A (.db op) := fun op => hside (.db op) trivial
  cases request with
  | wgEnsurePeer userId owner =>
    apply CallsOnly.bind (.perform (hdb _))
    intro existing
    cases existing with
    | none =>
      apply CallsOnly.bind (peerSide_loadServerConfig.mono hside)
      intro server
      apply CallsOnly.bind (peerSide_addPeer.mono hside)
      exact fun config => .bind hrebuild fun _ => .ret
    | some peer => exact .bind (peerSide_loadServerConfig.mono hside) fun _ => .ret
  | wgRemovePeer userId =>
    apply CallsOnly.bind (peerSide_removePeer.mono hside)
    intro removed
    exact .ite (.bind hrebuild fun _ => .ret) .ret
  | wgRenderConfig userId =>
    apply CallsOnly.bind (.perform (hdb _))
    intro found
    cases found with
    | none => exact .raise
    | some peer => exact .bind (peerSide_loadServerConfig.mono hside) fun _ => .ret
  | _ => cases hpeers

/-- **The filter table is the firewall's.** -/
theorem callsOnly_handle {request : Request} (hcontainers : ∀ op, containerSide op → A op)
    (hpeers : ∀ op, peerSide op → A op) (hrebuild : CallsOnly A (rebuildFirewall env)) :
    CallsOnly A (handle env request) := by
  cases hrequest : request.ofPeers with
  | true => exact callsOnly_peerHandler hrequest hpeers hrebuild
  | false => exact callsOnly_containerHandler hrequest hcontainers hrebuild

/-- The start of the daemon, once the interface is up. -/
theorem callsOnly_restart_of (hcontainers : ∀ op, containerSide op → A op)
    (hrebuild : CallsOnly A (rebuildFirewall env)) : CallsOnly A (restart env) := by
  have hlogging : ∀ {body : Daemon Unit}, CallsOnly A body →
      CallsOnly A (loggingRuntimeError body) := by
    intro body hbody
    apply CallsOnly.catching hbody
    intro err
    cases err <;> constructor
  apply CallsOnly.bind
  · apply hlogging
    apply CallsOnly.bind (containerSide_adoptUntracked.mono hcontainers)
    intro _
    exact .bind (containerSide_reconcile.mono hcontainers) fun _ => .ret
  · exact fun _ => hlogging hrebuild

end Handlers

end EdoPlugin
