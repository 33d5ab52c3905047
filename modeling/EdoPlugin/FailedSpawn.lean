import EdoPlugin.RouteCalls
import EdoPlugin.SiteHistory
import EdoPlugin.TrackedSpawns

/-!
# The two sides of a failed spawn

The route deletes its row when the RPC raises, since nothing was created.  The daemon knows nothing
of that: once it has read the request it goes on to the end, whether or not anybody waits for the
answer.  Here the two sides run side by side, call by call, and the plugin may stop waiting at any
moment.
-/

namespace EdoPlugin

open Interaction

/-! ## The exchange -/

/-- The plugin's side: the route runs, or waits in `_call` for the answer. -/
inductive Client where
  | running (p : Plugin Response)
  | waiting (rest : Except DaemonError Reply → Plugin Response)

/-- The daemon's side: no request yet, one in the socket, one in `spawn_instance`, or one past it. -/
inductive Server where
  | idle
  | queued (request : Request)
  | spawning (p : Daemon SpawnResult)
  | answering (result : Except PyErr SpawnResult) (p : Daemon Reply)

structure Exchange where
  site : Site
  client : Client
  server : Server

inductive ExchangeEvent where
  | work
  | send
  | giveUp
  | accept
  | spawn
  | spawned
  | finish
  | reply
deriving DecidableEq, Repr

/-- `handle_container_ensure_instance` after `spawn_instance`. -/
def answerSpawn (env : DaemonEnv) (result : SpawnResult) : Daemon Reply := do
  let row ← spawnedInstance result
  rebuildFirewall env
  return .instance_ row

theorem handle_containerEnsureInstance (env : DaemonEnv) (owner : Owner)
    (challengeRef buildPath : String) (security : SecurityProfile) (ttlSeconds : Option Int)
    (publishPorts : Bool) :
    handle env (.containerEnsureInstance owner challengeRef buildPath security ttlSeconds publishPorts) =
      withSpawnSemaphore (spawnInstance env owner challengeRef buildPath (some security) ttlSeconds
        publishPorts) >>= answerSpawn env := rfl

/-- No RPC is atomic here. -/
def noRpc : RpcSem := fun _ _ _ _ => False

inductive ExchangeStep (env : DaemonEnv) : Exchange → ExchangeEvent → Exchange → Prop
  /-- The route makes a call of its own. -/
  | work {s s' op rest res server} : siteSem noRpc s op res s' →
      ExchangeStep env ⟨s, .running (.call op rest), server⟩ .work ⟨s', .running (rest res), server⟩
  | send {s request rest} : ExchangeStep env ⟨s, .running (.call (.rpc request) rest), .idle⟩ .send
      ⟨s, .waiting rest, .queued request⟩
  /-- The socket is missing, the connection is lost, or the time is up; the request may be anywhere. -/
  | giveUp {s rest server} (err : DaemonError) :
      ExchangeStep env ⟨s, .waiting rest, server⟩ .giveUp ⟨s, .running (rest (.error err)), server⟩
  | accept {s client owner challengeRef buildPath security ttlSeconds publishPorts} :
      ExchangeStep env ⟨s, client, .queued (.containerEnsureInstance owner challengeRef buildPath
          security ttlSeconds publishPorts)⟩ .accept
        ⟨s, client, .spawning (withSpawnSemaphore (spawnInstance env owner challengeRef buildPath
          (some security) ttlSeconds publishPorts))⟩
  | spawn {s client op rest res w} : daemonSem anyFault s.daemon op res w →
      ExchangeStep env ⟨s, client, .spawning (.call op rest)⟩ .spawn
        ⟨{ s with daemon := w }, client, .spawning (rest res)⟩
  | spawned {s client result} : ExchangeStep env ⟨s, client, .spawning (.ret result)⟩ .spawned
      ⟨s, client, .answering (.ok result) (answerSpawn env result)⟩
  | spawnRaised {s client err} : ExchangeStep env ⟨s, client, .spawning (.raise err)⟩ .spawned
      ⟨s, client, .answering (.error err) (.raise err)⟩
  | finish {s client result op rest res w} : daemonSem anyFault s.daemon op res w →
      ExchangeStep env ⟨s, client, .answering result (.call op rest)⟩ .finish
        ⟨{ s with daemon := w }, client, .answering result (rest res)⟩
  | reply {s rest result out} :
      ExchangeStep env ⟨s, .waiting rest, .answering result (.ofExcept out)⟩ .reply
        ⟨s, .running (rest (handlerAnswer out)), .answering result (.ofExcept out)⟩

/-- What an exchange can come to, when each of its steps satisfies `ok`. -/
inductive Exchanges (env : DaemonEnv) (ok : Exchange → ExchangeEvent → Prop) (x₀ : Exchange) :
    Exchange → Prop
  | start : Exchanges env ok x₀ x₀
  | step {x x' event} : Exchanges env ok x₀ x → ok x event → ExchangeStep env x event x' →
      Exchanges env ok x₀ x'

namespace Server

/-- The daemon has finished the request, or never gets to it. -/
def Finished : Server → Prop
  | .idle | .queued _ => True
  | .spawning _ => False
  | .answering _ p => ∃ out, p = .ofExcept out

/-- The daemon has not begun the spawn, or failed in it. -/
def NothingSpawned : Server → Prop
  | .idle | .queued _ => True
  | .spawning _ => False
  | .answering result _ => spawnFailed result = true

end Server

/-- The plugin stops waiting only for a request that the daemon has not begun to spawn, or failed to;
    the daemon begins only what the plugin waits for, and reports no error of a spawn that
    succeeded. -/
def Attended (x : Exchange) : ExchangeEvent → Prop
  | .giveUp => x.server.NothingSpawned
  | .accept => ∃ rest, x.client = .waiting rest
  | .reply => ∀ result err, x.server = .answering result (.raise err) → spawnFailed result = true
  | _ => True

/-! ## The plugin's side -/

section Plugin

variable {s s' : Site} {owner : Owner} {challengeId instanceId : Nat} {ttl : Int} {w : World}
  {challengeRef : String}

/-- The request is for an instance of the owner and challenge. -/
def Request.SpawnsFor (owner : Owner) (challengeRef : String) : Request → Prop
  | .containerEnsureInstance other ref _ _ _ _ => other = owner ∧ ref = challengeRef
  | _ => False

/-- The route's only request is for the pair. -/
def spawnsForPair (owner : Owner) (challengeRef : String) : SiteOp → Prop
  | .rpc request => request.SpawnsFor owner challengeRef
  | _ => True

/-- Whatever the daemon answers. -/
def anyRpc : RpcSem := fun _ _ _ _ => True

/-- The daemon answers with a reply. -/
def repliedRpc : RpcSem := fun _ _ answer _ => ∃ reply, answer = .ok reply

/-- A route that reports an error of the daemon has deleted its row. -/
def DeletedRow (instanceId : Nat) (out : Except PluginErr Response) (s : Site) : Prop :=
  ∀ detail, out = .ok (.refused (.daemonError detail)) → s.plugin.getInstance instanceId = none

def NotRefused (out : Except PluginErr Response) (_ : Site) : Prop :=
  ∀ detail, out ≠ .ok (.refused (.daemonError detail))

/-- The rest of the route asks for an instance of the pair at most, and deletes its row if it reports
    an error. -/
structure Deletes (owner : Owner) (challengeRef : String) (instanceId : Nat) (s : Site)
    (p : Plugin Response) : Prop where
  calls : CallsOnly (spawnsForPair owner challengeRef) p
  deletes : ∀ w, wp (siteSem anyRpc) (fun _ _ => True) p (DeletedRow instanceId) { s with daemon := w }

/-- The rest of the route reports no error unless an RPC raises one. -/
def Accepts (s : Site) (p : Plugin Response) : Prop :=
  ∀ w, wp (siteSem repliedRpc) (fun _ _ => True) p NotRefused { s with daemon := w }

theorem getInstance_deleteInstance {db : PluginDb} :
    (db.deleteInstance instanceId).getInstance instanceId = none := by
  simp [PluginDb.getInstance, PluginDb.deleteInstance]

theorem wp_finishSpawn_ok {rpc : RpcSem} {reply : Instance} :
    wp (siteSem rpc) (fun _ _ => True) (UserRoutes.finishSpawn instanceId (.ok reply)) NotRefused s := by
  apply wp_then (wp_trivial fun _ _ => trivial)
  · intro row s₁ _
    apply wp_then (wp_trivial fun _ _ => trivial)
    · intro done s₂ _
      apply wp_then (wp_trivial fun _ _ => trivial)
      · intro threshold s₃ _
        apply wp_then (wp_trivial fun _ _ => trivial)
        · intro view s₄ _ detail h
          cases h
        · intro err s₄ _ detail h
          cases h
      · intro err s₃ _ detail h
        cases h
    · intro err s₂ _ detail h
      cases h
  · intro err s₁ _ detail h
    cases h

theorem wp_finishSpawn_deletes {rpc : RpcSem} {answer : Except DaemonError Instance} :
    wp (siteSem rpc) (fun _ _ => True) (UserRoutes.finishSpawn instanceId answer)
      (DeletedRow instanceId) s := by
  cases answer with
  | ok reply =>
    apply wp_mono wp_finishSpawn_ok
    exact fun _ _ hout detail h => absurd h (hout detail)
  | error err =>
    apply wp_refreshInstance
    · intro row _
      apply wp_commit trivial
      · intro db happly _ _
        rw [PluginDb.applyAll_singleton] at happly
        cases happly
        exact getInstance_deleteInstance
      · intro flushErr _ _ h
        cases h
    · intro _ _ h
      cases h

theorem deletes_spawnReserved : Deletes owner (toString challengeId) instanceId s
    (UserRoutes.spawnReserved owner challengeId ttl instanceId) := by
  constructor
  case calls =>
    refine CallsOnly.bind (.perform trivial) fun db => ?_
    cases db.getChallenge challengeId with
    | none => exact .raise
    | some challenge =>
      refine CallsOnly.bind (callsOnly_containerEnsureInstance ⟨rfl, rfl⟩) fun result => ?_
      exact callsOnly_finishSpawn ⟨trivial, trivial⟩ trivial fun _ => trivial
  case deletes =>
    intro w
    apply wp_select trivial
    cases s.plugin.getChallenge challengeId with
    | none =>
      intro _ h
      cases h
    | some challenge =>
      apply wp_then (wp_trivial fun _ _ => trivial)
      · exact fun _ _ _ => wp_finishSpawn_deletes
      · intro err s₁ _ detail h
        cases h

theorem accepts_spawnReserved :
    Accepts s (UserRoutes.spawnReserved owner challengeId ttl instanceId) := by
  intro w
  apply wp_select trivial
  cases s.plugin.getChallenge challengeId with
  | none =>
    intro _ h
    cases h
  | some challenge =>
    apply wp_bind.mpr
    apply wp_callRpc trivial
    rintro _ w' ⟨reply, rfl⟩
    cases reply with
    | instance_ row => exact wp_finishSpawn_ok
    | _ =>
      intro _ h
      cases h

end Plugin

/-! ## The daemon's side -/

section Daemon

variable {env : DaemonEnv} {w₀ w w' : World} {owner : Owner} {challengeRef : String}

theorem keepsInstances_of_filterCall (op : DaemonOp) (h : filterCall op) : keepsInstances op := by
  unfold filterCall at h
  split at h <;> trivial

theorem callsOnly_answerSpawn {result : SpawnResult} :
    CallsOnly keepsInstances (answerSpawn env result) := by
  refine CallsOnly.bind ?_ fun row => ?_
  · unfold spawnedInstance
    split
    · exact .ret
    · exact .raise
  · refine CallsOnly.bind ?_ fun _ => .ret
    refine CallsOnly.bind (.perform trivial) fun peersByOwner => ?_
    refine CallsOnly.bind (.perform trivial) fun rows => ?_
    exact CallsOnly.bind (callsOnly_applyFirewall.mono keepsInstances_of_filterCall) fun _ => .ret

/-- What happens after the row was stored leaves the table alone. -/
theorem SpawnSettled.before {out : Except PyErr SpawnResult}
    (h : SpawnSettled owner challengeRef w₀ out w) (hsame : w'.db.instances = w.db.instances) :
    SpawnSettled owner challengeRef w₀ out w' := by
  cases h with
  | found hrow hinstances => exact .found hrow (hsame.trans hinstances)
  | added hnone hkey hinstances => exact .added hnone hkey (hsame.trans hinstances)
  | failed hfailed hnone hinstances => exact .failed hfailed hnone (hsame.trans hinstances)

/-- The daemon is at work on an instance of the pair, and has changed the table as far as its spawn
    has come. -/
def Server.Settles (owner : Owner) (challengeRef : String) (w₀ w : World) : Server → Prop
  | .idle => w.db.instances = w₀.db.instances
  | .queued request => w.db.instances = w₀.db.instances ∧ request.SpawnsFor owner challengeRef
  | .spawning p => wp (daemonSem anyFault) (fun _ _ => True) p (SpawnSettled owner challengeRef w₀) w
  | .answering result p =>
    SpawnSettled owner challengeRef w₀ result w ∧ CallsOnly keepsInstances p

/-- An exchange in which nothing was spawned has no instance to track. -/
theorem Server.Settles.untracked {server : Server} (h : server.Settles owner challengeRef w₀ w)
    (hnone : w₀.db.findInstance owner challengeRef = none) (hnothing : server.NothingSpawned) :
    w.db.findInstance owner challengeRef = none := by
  cases server with
  | idle =>
    rw [findInstance_of_instances h]
    exact hnone
  | queued request =>
    rw [findInstance_of_instances h.1]
    exact hnone
  | spawning p => exact hnothing.elim
  | answering result p => exact h.1.tracked_iff.mpr hnothing

end Daemon

/-! ## Both sides -/

/-- The rest of the route, whatever the daemon does in the meantime. -/
def Client.Follows (owner : Owner) (challengeRef : String) (instanceId : Nat) (s : Site) :
    Client → Prop
  | .running p => Deletes owner challengeRef instanceId s p
  | .waiting rest => (∀ answer, Deletes owner challengeRef instanceId s (rest answer)) ∧
      ∀ reply, Accepts s (rest (.ok reply))

/-- What an attended exchange keeps: a route that may still report an error is one of which nothing
    was spawned. -/
structure Coupled (owner : Owner) (challengeRef : String) (instanceId : Nat) (w₀ : World)
    (x : Exchange) : Prop where
  follows : x.client.Follows owner challengeRef instanceId x.site
  settles : x.server.Settles owner challengeRef w₀ x.site.daemon
  sent : ∀ rest, x.client = .waiting rest → x.server ≠ .idle
  refuses : ∀ p, x.client = .running p → Accepts x.site p ∨ x.server ≠ .idle ∧ x.server.NothingSpawned

section Steps

variable {env : DaemonEnv} {w₀ : World} {x x' : Exchange} {owner : Owner} {challengeId instanceId : Nat}
  {challengeRef : String} {ttl : Int} {s s' : Site} {event : ExchangeEvent}

/-- A call of the route that is no RPC does not concern the daemon. -/
theorem siteSem_of_noRpc {rpc : RpcSem} {op : SiteOp} {res : op.Res} (h : siteSem noRpc s op res s')
    (w : World) : siteSem rpc { s with daemon := w } op res { s' with daemon := w } := by
  cases op with
  | select | flush _ | commit _ | insertInstance _ _ _ =>
    obtain ⟨rfl, rfl⟩ := h
    exact ⟨rfl, rfl⟩
  | rpc _ => exact h.1.elim
  | utcnow =>
    cases h
    exact rfl
  | rateLimit _ _ _ =>
    obtain ⟨now, rfl, rfl⟩ := h
    exact ⟨now, rfl, rfl⟩

theorem daemon_of_noRpc {op : SiteOp} {res : op.Res} (h : siteSem noRpc s op res s') :
    s'.daemon = s.daemon := by
  cases op with
  | select | flush _ | commit _ | insertInstance _ _ _ =>
    obtain ⟨-, rfl⟩ := h
    rfl
  | rpc _ => exact h.1.elim
  | utcnow =>
    cases h
    rfl
  | rateLimit _ _ _ =>
    obtain ⟨now, -, rfl⟩ := h
    rfl

section Calls

variable {op : SiteOp} {res : op.Res} {request : Request} {p : Plugin Response}

theorem Deletes.work {rest : op.Res → Plugin Response}
    (h : Deletes owner challengeRef instanceId s (.call op rest)) (hsem : siteSem noRpc s op res s') :
    Deletes owner challengeRef instanceId s' (rest res) :=
  ⟨h.calls.next res, fun w => (h.deletes w).2 res _ (siteSem_of_noRpc hsem w)⟩

theorem Deletes.send {rest : Except DaemonError Reply → Plugin Response}
    (h : Deletes owner challengeRef instanceId s (.call (.rpc request) rest)) :
    request.SpawnsFor owner challengeRef ∧
      ∀ answer, Deletes owner challengeRef instanceId s (rest answer) := by
  constructor
  · cases h.calls with
    | call hop _ => exact hop
  · exact fun answer => ⟨h.calls.next answer, fun w => (h.deletes w).2 answer _ ⟨trivial, rfl⟩⟩

theorem Accepts.work {rest : op.Res → Plugin Response} (h : Accepts s (.call op rest))
    (hsem : siteSem noRpc s op res s') : Accepts s' (rest res) :=
  fun w => (h w).2 res _ (siteSem_of_noRpc hsem w)

theorem Accepts.send {rest : Except DaemonError Reply → Plugin Response}
    (h : Accepts s (.call (.rpc request) rest)) (reply : Reply) : Accepts s (rest (.ok reply)) :=
  fun w => (h w).2 (.ok reply) _ ⟨⟨reply, rfl⟩, rfl⟩

end Calls

/-- The daemon moves, and the route stays where it is. -/
theorem Coupled.server {server server' : Server} {client : Client} {w : World}
    (h : Coupled owner challengeRef instanceId w₀ ⟨s, client, server⟩)
    (hsettles : server'.Settles owner challengeRef w₀ w) (hbusy : server' ≠ .idle)
    (hnothing : ∀ p, client = .running p → server.NothingSpawned → server'.NothingSpawned) :
    Coupled owner challengeRef instanceId w₀ ⟨{ s with daemon := w }, client, server'⟩ := by
  constructor
  case follows =>
    have hfollows := h.follows
    cases client with
    | running p => exact ⟨hfollows.calls, hfollows.deletes⟩
    | waiting rest =>
      exact ⟨fun answer => ⟨(hfollows.1 answer).calls, (hfollows.1 answer).deletes⟩, hfollows.2⟩
  case settles => exact hsettles
  case sent => exact fun _ _ => hbusy
  case refuses =>
    intro p hp
    rcases h.refuses p hp with haccepts | ⟨-, hspawned⟩
    · exact Or.inl haccepts
    · exact Or.inr ⟨hbusy, hnothing p hp hspawned⟩

/-- **One step of either side.** -/
theorem Coupled.step (h : Coupled owner challengeRef instanceId w₀ x) (hok : Attended x event)
    (hstep : ExchangeStep env x event x') : Coupled owner challengeRef instanceId w₀ x' := by
  cases hstep with
  | work hsem =>
    constructor
    case follows => exact Deletes.work h.follows hsem
    case settles =>
      show Server.Settles _ _ _ _ _
      rw [daemon_of_noRpc hsem]
      exact h.settles
    case sent =>
      intro _ hwaiting
      cases hwaiting
    case refuses =>
      rintro _ ⟨⟩
      rcases h.refuses _ rfl with haccepts | hnothing
      · exact Or.inl (haccepts.work hsem)
      · exact Or.inr hnothing
  | send =>
    obtain ⟨hrequest, hrest⟩ := Deletes.send h.follows
    constructor
    case follows =>
      rcases h.refuses _ rfl with haccepts | ⟨hidle, -⟩
      · exact ⟨hrest, haccepts.send⟩
      · exact absurd rfl hidle
    case settles => exact ⟨h.settles, hrequest⟩
    case sent =>
      intro _ _ hidle
      cases hidle
    case refuses =>
      intro p hp
      cases hp
  | giveUp err =>
    constructor
    case follows => exact h.follows.1 _
    case settles => exact h.settles
    case sent =>
      intro _ hwaiting
      cases hwaiting
    case refuses => exact fun p _ => Or.inr ⟨h.sent _ rfl, hok⟩
  | accept =>
    obtain ⟨hsame, rfl, rfl⟩ := h.settles
    apply h.server
    · apply wp_mono wp_spawnWithSemaphore_settled
      exact fun _ _ hsettled => hsettled.after hsame
    · intro hidle
      cases hidle
    · intro p hp _
      obtain ⟨rest, hwaiting⟩ := hok
      cases hwaiting.symm.trans hp
  | spawn hsem =>
    apply h.server
    · exact h.settles.2 _ _ hsem
    · intro hidle
      cases hidle
    · exact fun _ _ hnothing => hnothing.elim
  | spawned =>
    apply h.server
    · exact ⟨h.settles, callsOnly_answerSpawn⟩
    · intro hidle
      cases hidle
    · exact fun _ _ hnothing => hnothing.elim
  | spawnRaised =>
    apply h.server
    · exact ⟨h.settles, .raise⟩
    · intro hidle
      cases hidle
    · exact fun _ _ hnothing => hnothing.elim
  | finish hsem =>
    obtain ⟨hsettled, hcalls⟩ := h.settles
    apply h.server
    · refine ⟨hsettled.before ?_, hcalls.next _⟩
      cases hcalls with
      | call hop _ => exact instances_sem hop hsem
    · intro hidle
      cases hidle
    · exact fun _ _ hnothing => hnothing
  | @reply _ _ result out =>
    constructor
    case follows => exact h.follows.1 _
    case settles => exact h.settles
    case sent =>
      intro _ hwaiting
      cases hwaiting
    case refuses =>
      rintro _ ⟨⟩
      cases out with
      | ok reply => exact Or.inl (h.follows.2 reply)
      | error err => exact Or.inr ⟨h.sent _ rfl, hok result err rfl⟩

end Steps

/-! ## Failed requests -/

section Runs

variable {env : DaemonEnv} {ok : Exchange → ExchangeEvent → Prop} {w₀ : World} {x₀ x : Exchange}
  {owner : Owner} {challengeId instanceId : Nat} {challengeRef : String} {ttl : Int} {s s' : Site}

theorem Exchanges.coupled (h₀ : Coupled owner challengeRef instanceId w₀ x₀)
    (hrun : Exchanges env Attended x₀ x) : Coupled owner challengeRef instanceId w₀ x := by
  induction hrun with
  | start => exact h₀
  | step _ hok hstep ih => exact ih.step hok hstep

/-- **A failed spawn left nothing behind**, if the daemon tracked nothing of the pair before and the
    exchange was attended. -/
theorem failedSpawn_untracked (env : DaemonEnv) (s : Site) (owner : Owner) (challengeId : Nat)
    (ttl : Int) (instanceId : Nat) (detail : String) (x : Exchange)
    (hnone : s.daemon.db.findInstance owner (toString challengeId) = none)
    (hrun : Exchanges env Attended
      ⟨s, .running (UserRoutes.spawnReserved owner challengeId ttl instanceId), .idle⟩ x)
    (hrefused : x.client = .running (.ret (.refused (.daemonError detail)))) :
    x.site.plugin.getInstance instanceId = none ∧
      x.site.daemon.db.findInstance owner (toString challengeId) = none := by
  have hinit : Coupled owner (toString challengeId) instanceId s.daemon
      ⟨s, .running (UserRoutes.spawnReserved owner challengeId ttl instanceId), .idle⟩ := by
    constructor
    case follows => exact deletes_spawnReserved
    case settles => exact rfl
    case sent =>
      intro _ hwaiting
      cases hwaiting
    case refuses =>
      rintro _ ⟨⟩
      exact Or.inl accepts_spawnReserved
  have hend := hrun.coupled hinit
  obtain ⟨site, client, server⟩ := x
  obtain rfl : client = _ := hrefused
  have hdeletes : Deletes owner (toString challengeId) instanceId site
    (.ret (.refused (.daemonError detail))) := hend.follows
  refine ⟨hdeletes.deletes site.daemon detail rfl, ?_⟩
  rcases hend.refuses _ rfl with haccepts | ⟨-, hnothing⟩
  · exact absurd rfl (haccepts site.daemon detail)
  · exact hend.settles.untracked hnone hnothing

/-! ## Placements of the timeout -/

theorem Exchanges.works {p : Plugin Response} {server : Server} {trace : List Site}
    {out : Except PluginErr Response} (hok : ∀ x, ok x .work)
    (h : Exchanges env ok x₀ ⟨s, .running p, server⟩) (hruns : Runs (siteSem noRpc) p s trace out s') :
    Exchanges env ok x₀ ⟨s', .running (.ofExcept out), server⟩ := by
  induction hruns with
  | ret => exact h
  | raise => exact h
  | call hsem _ ih => exact ih (h.step (hok _) (.work hsem))

theorem Exchanges.spawns {p : Daemon SpawnResult} {client : Client} {trace : List World}
    {w w' : World} {out : Except PyErr SpawnResult} (hok : ∀ x, ok x .spawn)
    (h : Exchanges env ok x₀ ⟨{ s with daemon := w }, client, .spawning p⟩)
    (hruns : Runs (daemonSem anyFault) p w trace out w') :
    Exchanges env ok x₀ ⟨{ s with daemon := w' }, client, .spawning (.ofExcept out)⟩ := by
  induction hruns with
  | ret => exact h
  | raise => exact h
  | call hsem _ ih => exact ih (h.step (hok _) (.spawn hsem))

theorem Exchanges.finishes {p : Daemon Reply} {client : Client} {result : Except PyErr SpawnResult}
    {trace : List World} {w w' : World} {out : Except PyErr Reply} (hok : ∀ x, ok x .finish)
    (h : Exchanges env ok x₀ ⟨{ s with daemon := w }, client, .answering result p⟩)
    (hruns : Runs (daemonSem anyFault) p w trace out w') :
    Exchanges env ok x₀ ⟨{ s with daemon := w' }, client, .answering result (.ofExcept out)⟩ := by
  induction hruns with
  | ret => exact h
  | raise => exact h
  | call hsem _ ih => exact ih (h.step (hok _) (.finish hsem))

/-- The request of the route. -/
def reservedRequest (owner : Owner) (challenge : EdoChallenge) (ttl : Int) : Request :=
  .containerEnsureInstance owner (toString challenge.id) (challenge.buildPath.getD "")
    (UserRoutes.securityOf challenge) (some ttl) (challenge.accessMode = "public")

theorem Exchanges.sends (challenge : EdoChallenge) (hwork : ∀ x, ok x .work) (hsend : ∀ x, ok x .send)
    (hchallenge : s.plugin.getChallenge challenge.id = some challenge) : ∃ rest,
      Exchanges env ok
        ⟨s, .running (UserRoutes.spawnReserved owner challenge.id ttl instanceId), .idle⟩
        ⟨s, .waiting rest, .queued (reservedRequest owner challenge ttl)⟩ ∧
      ∀ err, rest (.error err) = UserRoutes.finishSpawn instanceId (.error err) := by
  obtain ⟨first, hfirst, hnext⟩ : ∃ first : PluginDb → Plugin Response,
      UserRoutes.spawnReserved owner challenge.id ttl instanceId = .call .select first ∧
        first s.plugin = DaemonClient.containerEnsureInstance owner (toString challenge.id)
          (challenge.buildPath.getD "") (UserRoutes.securityOf challenge) (some ttl)
          (challenge.accessMode = "public") >>= UserRoutes.finishSpawn instanceId := by
    refine ⟨_, rfl, ?_⟩
    rw [Prog.bind_ret, hchallenge]
  have hread : siteSem noRpc s .select s.plugin s := ⟨rfl, rfl⟩
  have hready : Exchanges env ok ⟨s, .running (.call .select first), .idle⟩
      ⟨s, .running (first s.plugin), .idle⟩ := .step .start (hwork _) (.work hread)
  rw [hnext, ← hfirst] at hready
  exact ⟨_, hready.step (hsend _) .send, fun _ => rfl⟩

/-- The route's answer to an error. -/
theorem exists_runs_finishSpawn {row : EdoInstance} (err : DaemonError)
    (hrow : s.plugin.getInstance instanceId = some row) : ∃ trace,
      Runs (siteSem noRpc) (UserRoutes.finishSpawn instanceId (.error err)) s trace
        (.ok (.refused (.daemonError err.str)))
        { s with plugin := s.plugin.deleteInstance instanceId } := by
  obtain ⟨first, hfirst, hnext⟩ : ∃ first : PluginDb → Plugin Response,
      UserRoutes.finishSpawn instanceId (.error err) = .call .select first ∧
        first s.plugin = commit [.deleteInstance instanceId] >>= fun _ =>
          return .refused (.daemonError err.str) := by
    refine ⟨_, rfl, ?_⟩
    simp only [Prog.bind_ret, hrow]
    rfl
  have hread : siteSem noRpc s .select s.plugin s := ⟨rfl, rfl⟩
  have hdelete : siteSem noRpc s (.commit [.deleteInstance instanceId]) (.ok ())
    { s with plugin := s.plugin.deleteInstance instanceId } := ⟨rfl, rfl⟩
  rw [hfirst]
  apply Exists.intro
  apply Runs.call hread
  rw [hnext]
  exact Runs.call hdelete .ret

end Runs

/-- A challenge that is served inside the VPN. -/
def vpnChallenge : EdoChallenge :=
  ⟨1, "web", none, some "/challenges/web-1", none, none, none, false, none, "vpn", some 100, "static",
    some 500, some 100, some 25⟩

def reservedRow : EdoInstance :=
  ⟨1, 1, ⟨"user", 1⟩, none, none, none, none, none, .pending, 0, none, none⟩

/-- The participant's row is reserved, on a fresh host. -/
def reservedSite : Site := { freshSite with plugin := { freshSite.plugin with
  challenges := [vpnChallenge]
  instances := [reservedRow]
  nextInstanceId := 2 } }

theorem getInstance_reservedSite {w : World} :
    { reservedSite with daemon := w }.plugin.getInstance 1 = some reservedRow := rfl

def reservedExchange : Exchange :=
  ⟨reservedSite, .running (UserRoutes.spawnReserved ⟨"user", 1⟩ 1 3600 1), .idle⟩

/-- The daemon's part of the request. -/
def vpnSpawn : Daemon SpawnResult :=
  withSpawnSemaphore (spawnInstance DaemonEnv.default ⟨"user", 1⟩ (toString vpnChallenge.id)
    (vpnChallenge.buildPath.getD "") (some (UserRoutes.securityOf vpnChallenge)) (some 3600)
    (vpnChallenge.accessMode = "public"))

/-- The image cannot be built. -/
def failedBuild : Option (Except PyErr SpawnResult × World) :=
  (daemonMachine.run buildFails vpnSpawn reservedSite.daemon).map Prod.snd

theorem failedBuild_fails : failedBuild.any (fun spawned => match spawned.1 with
    | .ok result => decide (result.success = false ∧ result.error = some "no space left on device")
    | .error _ => false) = true := by
  decide +kernel

theorem exists_failedBuild : ∃ result w,
    Ends (daemonSem anyFault) vpnSpawn reservedSite.daemon (.ok result) w ∧
      result.success = false ∧
      answerSpawn DaemonEnv.default result = .raise (.runtimeError "no space left on device") := by
  obtain ⟨⟨spawned, w⟩, hspawn, hfails⟩ := (Option.any_eq_true _ _).mp failedBuild_fails
  cases spawned with
  | error err => cases hfails
  | ok result =>
    obtain ⟨⟨trace, _⟩, hrun, heq⟩ := Option.map_eq_some_iff.mp hspawn
    cases heq
    obtain ⟨hsuccess, herror⟩ := of_decide_eq_true hfails
    refine ⟨result, w, ⟨trace, Machine.runs_of_run (fun _ => trivial) hrun⟩, hsuccess, ?_⟩
    rw [answerSpawn, spawnedInstance, hsuccess, herror]
    rfl

/-- The daemon cannot build the image, and the plugin receives its error. -/
theorem failedSpawn_untracked_failedBuild : ∃ result x,
    Exchanges DaemonEnv.default Attended reservedExchange x ∧
    x.server = .answering (.ok result) (.raise (.runtimeError "no space left on device")) ∧
    x.client = .running (.ret (.refused (.daemonError "no space left on device"))) ∧
    x.site.plugin.getInstance 1 = none ∧ x.site.daemon.db.findInstance ⟨"user", 1⟩ (toString 1) = none := by
  obtain ⟨result, w, ⟨trace, hspawn⟩, hfailed, hraises⟩ := exists_failedBuild
  obtain ⟨rest, hsent, hrest⟩ : ∃ rest, Exchanges DaemonEnv.default Attended reservedExchange
      ⟨reservedSite, .waiting rest, .queued (reservedRequest ⟨"user", 1⟩ vpnChallenge 3600)⟩ ∧
        ∀ err, rest (.error err) = UserRoutes.finishSpawn 1 (.error err) :=
    Exchanges.sends vpnChallenge (fun _ => trivial) (fun _ => trivial) rfl
  have hwaits : Attended ⟨reservedSite, .waiting rest,
    .queued (reservedRequest ⟨"user", 1⟩ vpnChallenge 3600)⟩ .accept := ⟨rest, rfl⟩
  have haccepted : Exchanges DaemonEnv.default Attended reservedExchange
    ⟨{ reservedSite with daemon := reservedSite.daemon }, .waiting rest, .spawning vpnSpawn⟩ :=
      hsent.step hwaits .accept
  have hreturns : Attended ⟨{ reservedSite with daemon := w }, .waiting rest,
    .spawning (.ret result)⟩ .spawned := trivial
  have hspawned := (haccepted.spawns (fun _ => trivial) hspawn).step hreturns .spawned
  rw [hraises] at hspawned
  have hreported : Attended ⟨{ reservedSite with daemon := w }, .waiting rest,
      .answering (.ok result) (.raise (.runtimeError "no space left on device"))⟩ .reply := by
    rintro _ _ ⟨⟩
    rw [spawnFailed, hfailed]
    rfl
  have hreplied : Exchanges DaemonEnv.default Attended reservedExchange
    ⟨{ reservedSite with daemon := w }, .running (rest (.error (.daemon "no space left on device"))),
      .answering (.ok result) (.raise (.runtimeError "no space left on device"))⟩ :=
      hspawned.step hreported (@ExchangeStep.reply _ _ _ _ (.error _))
  rw [hrest] at hreplied
  obtain ⟨trace', hruns⟩ := exists_runs_finishSpawn (.daemon "no space left on device")
    (getInstance_reservedSite (w := w))
  have hrun := hreplied.works (fun _ => trivial) hruns
  refine ⟨result, _, hrun, rfl, rfl, ?_⟩
  exact failedSpawn_untracked DaemonEnv.default reservedSite ⟨"user", 1⟩ 1 3600 1 _ _ (by decide) hrun
    rfl

/-- The daemon spawns, and answers, as if nothing had happened. -/
def quietSpawn : Option (Except PyErr SpawnResult × World) :=
  (daemonMachine.run quietChoice vpnSpawn reservedSite.daemon).map Prod.snd

def quietAnswer (result : SpawnResult) (w : World) : Option (Except PyErr Reply × World) :=
  (daemonMachine.run quietChoice (answerSpawn DaemonEnv.default result) w).map Prod.snd

theorem quietSpawn_tracks : quietSpawn.any (fun spawned =>
    match spawned.1 with
    | .ok result => (quietAnswer result spawned.2).any fun answered =>
        (answered.2.db.findInstance ⟨"user", 1⟩ (toString 1)).isSome
    | .error _ => false) = true := by
  decide +kernel

theorem exists_quietSpawn : ∃ result w out w',
    Ends (daemonSem anyFault) vpnSpawn reservedSite.daemon (.ok result) w ∧
      Ends (daemonSem anyFault) (answerSpawn DaemonEnv.default result) w out w' ∧
      w'.db.findInstance ⟨"user", 1⟩ (toString 1) ≠ none := by
  obtain ⟨⟨spawned, w⟩, hspawn, htracks⟩ := (Option.any_eq_true _ _).mp quietSpawn_tracks
  cases spawned with
  | error err => cases htracks
  | ok result =>
    obtain ⟨⟨out, w'⟩, hanswer, htracked⟩ := (Option.any_eq_true _ _).mp htracks
    obtain ⟨⟨trace, _⟩, hrun, heq⟩ := Option.map_eq_some_iff.mp hspawn
    cases heq
    obtain ⟨⟨trace', _⟩, hrun', heq'⟩ := Option.map_eq_some_iff.mp hanswer
    cases heq'
    refine ⟨result, w, out, w', ⟨trace, ?_⟩, ⟨trace', ?_⟩, ?_⟩
    · exact Machine.runs_of_run (fun _ => trivial) hrun
    · exact Machine.runs_of_run (fun _ => trivial) hrun'
    · intro hnone
      dsimp only at htracked
      rw [hnone] at htracked
      cases htracked

/-- The time is up after the daemon has stored the row of the container. -/
theorem not_failedSpawn_untracked : ¬ ∀ (env : DaemonEnv) (s : Site) (owner : Owner)
    (challengeId : Nat) (ttl : Int) (instanceId : Nat) (detail : String) (x : Exchange),
    s.daemon.db.findInstance owner (toString challengeId) = none →
    Exchanges env (fun _ _ => True)
      ⟨s, .running (UserRoutes.spawnReserved owner challengeId ttl instanceId), .idle⟩ x →
    x.client = .running (.ret (.refused (.daemonError detail))) → x.server.Finished →
    x.site.daemon.db.findInstance owner (toString challengeId) = none := by
  intro hall
  obtain ⟨result, w, out, w', ⟨trace, hspawn⟩, ⟨trace', hanswer⟩, htracked⟩ := exists_quietSpawn
  obtain ⟨rest, hsent, hrest⟩ : ∃ rest, Exchanges DaemonEnv.default (fun _ _ => True) reservedExchange
      ⟨reservedSite, .waiting rest, .queued (reservedRequest ⟨"user", 1⟩ vpnChallenge 3600)⟩ ∧
        ∀ err, rest (.error err) = UserRoutes.finishSpawn 1 (.error err) :=
    Exchanges.sends vpnChallenge (fun _ => trivial) (fun _ => trivial) rfl
  have haccepted : Exchanges DaemonEnv.default (fun _ _ => True) reservedExchange
    ⟨{ reservedSite with daemon := reservedSite.daemon }, .waiting rest, .spawning vpnSpawn⟩ :=
      hsent.step trivial .accept
  have hspawned := haccepted.spawns (fun _ => trivial) hspawn
  have hfinished := (hspawned.step trivial .spawned).finishes (fun _ => trivial) hanswer
  have hgaveUp := hfinished.step trivial (.giveUp (.timeout "timed out"))
  rw [hrest] at hgaveUp
  obtain ⟨trace'', hruns⟩ := exists_runs_finishSpawn (.timeout "timed out") getInstance_reservedSite
  have hrun := hgaveUp.works (fun _ => trivial) hruns
  apply htracked
  exact hall DaemonEnv.default reservedSite ⟨"user", 1⟩ 1 3600 1 "timed out" _ (by decide) hrun rfl
    ⟨out, rfl⟩

end EdoPlugin
