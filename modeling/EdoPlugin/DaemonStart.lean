import EdoPlugin.JointEffects
import EdoPlugin.Restarts
import EdoPlugin.ServerFile

/-!
# Starts of the daemon

`main` brings the VPN interface up, creating `wg0.conf` on the first start, and restores the state
of containers and firewall before it serves.  A host goes through starts and sessions of requests,
each with the settings of its day; a process may be killed in any of them.
-/

namespace EdoPlugin

open Interaction

/-! ## The start of the daemon -/

/-- What the daemon calls besides what its handlers call. -/
inductive StartOp where
  | mkConfigDir
  | serverConfigExists
  | chmodServerConfig
  | wgQuickUp
  | answer (reply : Reply)

@[reducible] def StartOp.Res : StartOp → Type
  | .mkConfigDir | .chmodServerConfig => Except PyErr Unit
  | .serverConfigExists => Except PyErr Bool
  | .wgQuickUp => Except CmdFault Unit
  | .answer _ => Unit

@[reducible] def startEffect : Effect := ⟨StartOp, StartOp.Res⟩

abbrev Start (α : Type) : Type := Prog (daemonEffect.sum startEffect) PyErr α

namespace Start

def callDaemon {α : Type} (p : Daemon α) : Start α := p.first startEffect id

def call (op : StartOp) : Start op.Res :=
  @Prog.perform (daemonEffect.sum startEffect) PyErr (.inr op)

/-- `init_server` when there is no file yet. -/
def createServer (endpoint : String) (port : Nat) : Start ServerConfig := do
  let pair ← callDaemon generateKeypair
  let written ← callDaemon (callWg (.writeServerConfig (initServerContents port pair.privateKey)))
  (Prog.ofExcept written : Start Unit)
  let protected_ ← call .chmodServerConfig
  (Prog.ofExcept protected_ : Start Unit)
  return ⟨pair.privateKey, pair.publicKey, endpoint, port⟩

def initServer (endpoint : String) (port : Nat) : Start ServerConfig := do
  let made ← call .mkConfigDir
  (Prog.ofExcept made : Start Unit)
  let found ← call .serverConfigExists
  let exists_ ← (Prog.ofExcept found : Start Bool)
  if exists_ then callDaemon (loadServerConfig endpoint port)
  else createServer endpoint port

/-- What `wg-quick` says of an interface that is up. -/
def isUpAlready (stderr : String) : Bool :=
  containsText "already exists" (lowerText stderr) ||
    containsText "rtnetlink" (lowerText stderr)

def bringUp : Start Unit := do
  let raised ← call .wgQuickUp
  match checked "wg-quick" raised with
  | .ok () => return ()
  | .error (.calledProcessError stderr) =>
    if isUpAlready stderr then return ()
    else .raise (.runtimeError s!"wg-quick up wg0 failed: {stderr}")
  | .error err => .raise err

/-- The `try` around the interface. -/
def startInterface (env : DaemonEnv) : Start Unit :=
  Prog.catching (do
    let _ ← initServer env.vpnEndpoint env.vpnPort
    bringUp) fun err => match err with
    | .runtimeError _ => .ret ()
    | err => .raise err

/-- `main`, from `init_server` to the socket. -/
def boot (env : DaemonEnv) : Start Unit := do
  startInterface env
  callDaemon (restart env)

/-- A request, whose reply is sent. -/
def serve (env : DaemonEnv) (request : Request) : Start Unit := do
  let reply ← callDaemon (handle env request)
  call (.answer reply)

end Start

/-! ## The host -/

/-- The world of the daemon, whether `wg0.conf` is there, and the replies so far. -/
structure ServerHost where
  world : World
  fileExists : Bool
  replies : List Reply

/-- Opening a file, to append to it or to write it, creates it. -/
def createsServerConfig : (op : DaemonOp) → op.Choice → Bool
  | .wg (.appendServerConfig _), fault | .wg (.writeServerConfig _), fault =>
    fault.all fun fault => fault.written.isSome
  | _, _ => false

/-- `wg` prints keys in base64, and the public key of a private one is always the same; the file is
    read as it is.  Every call may fail; a write to `wg0.conf` that fails has not changed the file. -/
def ServerHost.answers (derive : String → String) (h : ServerHost) : Policy
  | .wg .genkey, key => ∀ k, key = .ok k → IsKeyText k
  | .wg (.pubkey privateKey), key => ∀ k, key = .ok k → k = derive privateKey
  | .wg .parseInterfaceSection, section_ => ∀ options, section_ = .ok options →
      h.fileExists = true ∧ parseInterfaceSection h.world.wg.serverConfig = .ok options
  | .wg .readServerConfig, fault => fault = none → h.fileExists = true
  | .wg (.appendServerConfig _), fault => ∀ failed ∈ fault, failed.written.getD 0 = 0
  | .wg (.writeServerConfig _), fault => ∀ failed ∈ fault, failed.written = none
  | _, _ => True

def handlerSem (derive : String → String) : Sem daemonEffect ServerHost := fun h op res h' =>
  ∃ choice, h.answers derive op choice ∧ op.exec h.world choice = some (res, h'.world) ∧
    h'.fileExists = (h.fileExists || createsServerConfig op choice) ∧ h'.replies = h.replies

def startSem : Sem startEffect ServerHost
  | h, .mkConfigDir, _, h' | h, .chmodServerConfig, _, h' | h, .wgQuickUp, _, h' => h' = h
  | h, .serverConfigExists, found, h' => (∀ exists_, found = .ok exists_ → exists_ = h.fileExists) ∧
      h' = h
  | h, .answer reply, _, h' => h' = { h with replies := h.replies ++ [reply] }

def hostSem (derive : String → String) : Sem (daemonEffect.sum startEffect) ServerHost :=
  (handlerSem derive).shared startSem

/-- A process that serves these requests, each in a thread of its own. -/
def startServing (env : DaemonEnv) (requests : List Request) (permits : Nat) (h : ServerHost) :
    Config (daemonEffect.sum startEffect) PyErr Unit ServerHost :=
  ⟨{ h with world := { h.world with spawnPermits := permits } },
    requests.map fun request => ⟨(), Start.serve env request⟩⟩

/-- The hosts that a host becomes.  Each process has settings of its own; every call may fail, the
    threads of a process run in any order, and it is killed between any two calls; containers come to
    harm at any time, and the database is lost between two processes.  A call reads or writes its file
    in one step. -/
inductive ServerLife (derive : String → String) (h₀ : ServerHost) : ServerHost → Prop
  | now : ServerLife derive h₀ h₀
  | started {h h' : ServerHost} {env : DaemonEnv} : ServerLife derive h₀ h →
      Visits (hostSem derive) (Start.boot env) h h' → ServerLife derive h₀ h'
  | served {h : ServerHost} {env : DaemonEnv} {requests : List Request} {permits : Nat}
      {c : Config (daemonEffect.sum startEffect) PyErr Unit ServerHost} : ServerLife derive h₀ h →
      Reach (hostSem derive) (fun _ _ _ => ()) (fun _ _ _ => True)
        (startServing env requests permits h) c → ServerLife derive h₀ c.world
  | drift {h : ServerHost} {docker : Docker} : ServerLife derive h₀ h →
      h.world.docker.Drift docker →
      ServerLife derive h₀ { h with world := { h.world with docker := docker } }
  | lostDatabase {h : ServerHost} : ServerLife derive h₀ h →
      ServerLife derive h₀ { h with world := h.world.withoutDb }

/-! ## An uneventful day -/

/-- The choices of an uneventful run that reads the file as it is. -/
def ServerHost.quietChoice (h : ServerHost) : (op : DaemonOp) → op.Choice
  | .wg .parseInterfaceSection =>
    if h.fileExists then parseInterfaceSection h.world.wg.serverConfig
    else .error (.runtimeError s!"{wgServerConfigPath} does not exist")
  | .wg .readServerConfig =>
    if h.fileExists then none else some (.fileNotFoundError wgServerConfigPath)
  | op => EdoPlugin.quietChoice op

def ServerHost.quietAnswer (h : ServerHost) : (op : (daemonEffect.sum startEffect).Op) →
    Option ((daemonEffect.sum startEffect).Res op × ServerHost)
  | .inl op => (op.exec h.world (h.quietChoice op)).map fun answer =>
      (answer.1, ⟨answer.2, h.fileExists || createsServerConfig op (h.quietChoice op), h.replies⟩)
  | .inr .mkConfigDir | .inr .chmodServerConfig | .inr .wgQuickUp => some (.ok (), h)
  | .inr .serverConfigExists => some (.ok h.fileExists, h)
  | .inr (.answer reply) => some ((), { h with replies := h.replies ++ [reply] })

/-- The host of an uneventful day. -/
def quietHost : Machine (daemonEffect.sum startEffect) ServerHost where
  Choice := fun _ => Unit
  exec := fun h op _ => h.quietAnswer op

def quietStart (env : DaemonEnv) (h : ServerHost) : Option ServerHost :=
  match quietHost.run (fun _ => ()) (Start.boot env) h with
  | some (_, .ok _, h') => some h'
  | _ => none

/-- A request that is served alone, in so many calls. -/
def quietService (env : DaemonEnv) (request : Request) (calls : Nat) (h : ServerHost) :
    Option ServerHost :=
  (quietHost.runChecked (fun _ _ _ => ()) (fun _ _ _ => true)
    (List.replicate calls (0, fun _ => ())) (startServing env [request] 4 h)).map Config.world

theorem hostSem_of_quietAnswer {h h' : ServerHost} {op : (daemonEffect.sum startEffect).Op}
    {res : (daemonEffect.sum startEffect).Res op} (hanswer : h.quietAnswer op = some (res, h')) :
    hostSem (fun _ => "public") h op res h' := by
  have hprivate : IsKeyText "private" := by decide
  cases op with
  | inl op =>
    obtain ⟨answer, hexec, hafter⟩ := Option.map_eq_some_iff.mp hanswer
    cases hafter
    refine ⟨h.quietChoice op, ?_, hexec, rfl, rfl⟩
    unfold ServerHost.answers
    split
    · rintro k ⟨⟩
      exact hprivate
    · rintro k ⟨⟩
      rfl
    · intro options hoptions
      simp only [ServerHost.quietChoice] at hoptions
      split at hoptions
      · exact ⟨‹_›, hoptions⟩
      · cases hoptions
    · intro hfault
      simp only [ServerHost.quietChoice] at hfault
      split at hfault
      · assumption
      · cases hfault
    · rintro _ ⟨⟩
    · rintro _ ⟨⟩
    · trivial
  | inr op =>
    cases op with
    | mkConfigDir | chmodServerConfig | wgQuickUp =>
      cases hanswer
      rfl
    | serverConfigExists =>
      cases hanswer
      refine ⟨?_, rfl⟩
      rintro _ ⟨⟩
      rfl
    | answer reply =>
      cases hanswer
      rfl

theorem visits_of_quietStart {env : DaemonEnv} {h h' : ServerHost}
    (hstart : quietStart env h = some h') :
    Visits (hostSem fun _ => "public") (Start.boot env) h h' := by
  unfold quietStart at hstart
  split at hstart
  · rename_i trace value h₁ hrun
    cases hstart
    have hruns : Runs (quietHost.answers fun _ _ => True) (Start.boot env) h trace (.ok value) h' :=
      Machine.runs_of_run (fun _ => trivial) hrun
    apply Ends.visits ⟨trace, hruns.mono _⟩
    rintro h op res h' ⟨_, -, hanswer⟩
    exact hostSem_of_quietAnswer hanswer
  · cases hstart

theorem ServerLife.servedQuietly {env : DaemonEnv} {request : Request} {calls : Nat}
    {h₀ h h' : ServerHost} (hlife : ServerLife (fun _ => "public") h₀ h)
    (hservice : quietService env request calls h = some h') :
    ServerLife (fun _ => "public") h₀ h' := by
  obtain ⟨c, hrun, rfl⟩ := Option.map_eq_some_iff.mp hservice
  apply hlife.served
  exact (Machine.reach_of_runChecked (fun _ _ _ _ _ => hostSem_of_quietAnswer) hrun).mono
    fun _ _ _ _ => trivial

end EdoPlugin
