import EdoPlugin.Docker
import EdoPlugin.Interleaving
import EdoPlugin.Netfilter

/-!
# The world of the daemon

Everything a handler of the daemon can read or change between two of its own instructions: the
SQLite tables, Docker, the packet filter, the WireGuard interface with its configuration files, and
the semaphore that bounds concurrent spawns.  `DaemonOp` is the signature of the calls and
`daemonMachine` their meaning once the outside world has made its choices.
-/

namespace EdoPlugin

open Interaction

/-! ## WireGuard and files -/

/-- `wg0.conf`, the peers of the live interface, and the client files by username. -/
structure Wg where
  serverConfig : String
  live : List (String × IPv4Address)
  clientFiles : List (String × String)
deriving DecidableEq, Repr

inductive WgOp where
  | genkey
  | pubkey (privateKey : String)
  | parseInterfaceSection
  | setPeer (publicKey : String) (ip : IPv4Address)
  | removeLivePeer (publicKey : String)
  | readServerConfig
  | appendServerConfig (block : String)
  | writeServerConfig (text : String)
  | mkClientsDir
  | writeClientFile (username text : String)
  | chmodClientFile (username : String)
  | unlinkClientFile (username : String)

@[reducible] def WgOp.Res : WgOp → Type
  | .genkey => Except CmdFault String
  | .pubkey _ => Except CmdFault String
  | .parseInterfaceSection => Except PyErr (List (String × String))
  | .setPeer .. => Except CmdFault Unit
  | .removeLivePeer _ => Except CmdFault Unit
  | .readServerConfig => Except PyErr String
  | _ => Except PyErr Unit

/-- How the writing of a file fails: the file is not opened, or so many characters get there. -/
structure WriteFault where
  err : PyErr
  written : Option Nat
deriving DecidableEq, Repr

def textTaken (n : Nat) (text : String) : String := String.ofList (text.toList.take n)

/-- What a failing append makes of a file. -/
def WriteFault.appended (fault : WriteFault) (old text : String) : String :=
  old ++ textTaken (fault.written.getD 0) text

/-- What a failing `write_text` makes of a file, which is emptied when it is opened. -/
def WriteFault.rewritten (fault : WriteFault) (old text : String) : String :=
  match fault.written with
  | none => old
  | some n => textTaken n text

/-- The client files with one of them written anew. -/
def withClientFile (files : List (String × String)) (username text : String) :
    List (String × String) :=
  files.filter (fun file => file.1 ≠ username) ++ [(username, text)]

/-- What a failing `write_text` makes of the client files. -/
def WriteFault.clientFiles (fault : WriteFault) (files : List (String × String))
    (username text : String) : List (String × String) :=
  match fault.written with
  | none => files
  | some n => withClientFile files username (textTaken n text)

/-- What the outside world decides: the keys, the keys and values of the `[Interface]` section, and
    for the other calls whether they fail. -/
@[reducible] def WgOp.Choice : WgOp → Type
  | .genkey => Except CmdFault String
  | .pubkey _ => Except CmdFault String
  | .parseInterfaceSection => Except PyErr (List (String × String))
  | .setPeer .. => Option CmdFault
  | .removeLivePeer _ => Option CmdFault
  | .appendServerConfig _ | .writeServerConfig _ | .writeClientFile .. => Option WriteFault
  | _ => Option PyErr

def WgOp.exec (wg : Wg) : (op : WgOp) → op.Choice → op.Res × Wg
  | .genkey, key => (key, wg)
  | .pubkey _, key => (key, wg)
  | .parseInterfaceSection, section_ => (section_, wg)
  | .setPeer publicKey ip, fault =>
    match fault with
    | some err => (.error err, wg)
    | none =>
      (.ok (), { wg with
        live := wg.live.filter (fun peer => peer.1 ≠ publicKey ∧ peer.2 ≠ ip) ++
          [(publicKey, ip)] })
  | .removeLivePeer publicKey, fault =>
    match fault with
    | some err => (.error err, wg)
    | none => (.ok (), { wg with live := wg.live.filter fun peer => peer.1 ≠ publicKey })
  | .readServerConfig, fault =>
    match fault with
    | some err => (.error err, wg)
    | none => (.ok wg.serverConfig, wg)
  | .appendServerConfig block, fault =>
    match fault with
    | some fault =>
      (.error fault.err, { wg with serverConfig := fault.appended wg.serverConfig block })
    | none => (.ok (), { wg with serverConfig := wg.serverConfig ++ block })
  | .writeServerConfig text, fault =>
    match fault with
    | some fault =>
      (.error fault.err, { wg with serverConfig := fault.rewritten wg.serverConfig text })
    | none => (.ok (), { wg with serverConfig := text })
  | .mkClientsDir, fault =>
    match fault with
    | some err => (.error err, wg)
    | none => (.ok (), wg)
  | .writeClientFile username text, fault =>
    match fault with
    | some fault =>
      (.error fault.err, { wg with
        clientFiles := fault.clientFiles wg.clientFiles username text })
    | none =>
      (.ok (), { wg with clientFiles := withClientFile wg.clientFiles username text })
  | .chmodClientFile _, fault =>
    match fault with
    | some err => (.error err, wg)
    | none => (.ok (), wg)
  | .unlinkClientFile username, fault =>
    match fault with
    | some err => (.error err, wg)
    | none =>
      (.ok (), { wg with clientFiles := wg.clientFiles.filter fun file => file.1 ≠ username })

/-! ## The process and the host -/

inductive HostOp where
  /-- `(build_path / "Dockerfile").is_file()` -/
  | isDockerfile (buildPath : String)
  /-- `(datetime.now(timezone.utc) + timedelta(seconds=ttl)).isoformat()` -/
  | isoExpiry (ttlSeconds : Int)
  | acquireSpawn
  | releaseSpawn

@[reducible] def HostOp.Res : HostOp → Type
  | .isDockerfile _ => Bool
  | .isoExpiry _ => String
  | .acquireSpawn => Unit
  | .releaseSpawn => Unit

/-- Whether a path has a Dockerfile, and the text of the clock, are choices. -/
@[reducible] def HostOp.Choice : HostOp → Type := HostOp.Res

/-- Acquiring the semaphore blocks while it has no permit. -/
def HostOp.exec (permits : Nat) : (op : HostOp) → op.Choice → Option (op.Res × Nat)
  | .isDockerfile _, answer => some (answer, permits)
  | .isoExpiry _, text => some (text, permits)
  | .acquireSpawn, _ => if permits = 0 then none else some ((), permits - 1)
  | .releaseSpawn, _ => some ((), permits + 1)

/-! ## The whole world -/

structure World where
  db : Db
  docker : Docker
  filter : FilterTable
  wg : Wg
  spawnPermits : Nat

inductive DaemonOp where
  | db (op : DbOp)
  | docker (op : DockerOp)
  | filter (op : FilterOp)
  | wg (op : WgOp)
  | host (op : HostOp)

@[reducible] def DaemonOp.Res : DaemonOp → Type
  | .db op => op.Res
  | .docker op => op.Res
  | .filter op => op.Res
  | .wg op => op.Res
  | .host op => op.Res

@[reducible] def DaemonOp.Choice : DaemonOp → Type
  | .db _ => Unit
  | .docker op => op.Choice
  | .filter op => op.Choice
  | .wg op => op.Choice
  | .host op => op.Choice

@[reducible] def daemonEffect : Effect := ⟨DaemonOp, DaemonOp.Res⟩

/-- A piece of the daemon's code. -/
abbrev Daemon (α : Type) : Type := Prog daemonEffect PyErr α

def callDb (op : DbOp) : Daemon op.Res := @Prog.perform daemonEffect PyErr (.db op)

def callDocker (op : DockerOp) : Daemon op.Res := @Prog.perform daemonEffect PyErr (.docker op)

def callFilter (op : FilterOp) : Daemon op.Res := @Prog.perform daemonEffect PyErr (.filter op)

def callWg (op : WgOp) : Daemon op.Res := @Prog.perform daemonEffect PyErr (.wg op)

def callHost (op : HostOp) : Daemon op.Res := @Prog.perform daemonEffect PyErr (.host op)

def DaemonOp.exec (w : World) : (op : DaemonOp) → op.Choice → Option (op.Res × World)
  | .db op, _ => some ((op.exec w.db).1, { w with db := (op.exec w.db).2 })
  | .docker op, choice =>
    some ((op.exec w.docker choice).1, { w with docker := (op.exec w.docker choice).2 })
  | .filter op, choice =>
    some ((op.exec w.filter choice).1, { w with filter := (op.exec w.filter choice).2 })
  | .wg op, choice => some ((op.exec w.wg choice).1, { w with wg := (op.exec w.wg choice).2 })
  | .host op, choice =>
    (op.exec w.spawnPermits choice).map fun result =>
      (result.1, { w with spawnPermits := result.2 })

def daemonMachine : Machine daemonEffect World where
  Choice := DaemonOp.Choice
  exec := DaemonOp.exec

/-- Which choices the outside world may make. -/
abbrev Policy : Type := (op : DaemonOp) → op.Choice → Prop

/-- Every call may fail. -/
def anyFault : Policy := fun _ _ => True

/-- No Docker call, command or file operation fails of itself: a call still reports what the state
    makes it report (a missing container, a chain that exists already). -/
def noFault : Policy
  | .docker .client, fault => fault = none
  | .docker (.imagesGet _), exposed => ∃ ports, exposed = .ok ports
  | .docker (.buildImage ..), outcome => outcome.1 = true
  | .docker (.networksGet _), fault => fault = none
  | .docker (.networksCreate ..), fault => fault = none
  | .docker (.networkRemove _), fault => fault = none
  | .docker (.createContainer _), fault => fault = none
  | .docker (.start _), fault => fault = none
  | .docker (.containersGet _), fault => fault = none
  | .docker (.containersList _), fault => fault = none
  | .docker (.stop _), fault => fault = none
  | .docker (.remove _), fault => fault = none
  | .filter .ipRouteShowDefault, words => ∃ ws, words = .ok ws
  | .filter .firewalldActive, _ => True
  | .filter .sysctlIpForward, fault => fault = none
  | .filter (.iptables _), fault => fault = none
  | .filter (.firewallCmd _), fault => fault = none
  | .wg .genkey, key => ∃ k, key = .ok k
  | .wg (.pubkey _), key => ∃ k, key = .ok k
  | .wg .parseInterfaceSection, section_ => ∃ keys, section_ = .ok keys
  | .wg (.setPeer ..), fault => fault = none
  | .wg (.removeLivePeer _), fault => fault = none
  | .wg .readServerConfig, fault => fault = none
  | .wg (.appendServerConfig _), fault => fault = none
  | .wg (.writeServerConfig _), fault => fault = none
  | .wg .mkClientsDir, fault => fault = none
  | .wg (.writeClientFile ..), fault => fault = none
  | .wg (.chmodClientFile _), fault => fault = none
  | .wg (.unlinkClientFile _), fault => fault = none
  | .db _, _ => True
  | .host _, _ => True

/-- The choices of an uneventful run: every build exposes one port, the host has one default route,
    and nothing fails. -/
def quietChoice : (op : DaemonOp) → op.Choice
  | .db _ => ()
  | .docker .client => none
  | .docker (.imagesGet _) => .ok ["8080/tcp"]
  | .docker (.buildImage ..) => (true, "")
  | .docker (.networksGet _) => none
  | .docker (.networksCreate ..) => none
  | .docker (.networkRemove _) => none
  | .docker (.createContainer _) => none
  | .docker (.start _) => none
  | .docker (.containersGet _) => none
  | .docker (.containersList _) => none
  | .docker (.stop _) => none
  | .docker (.remove _) => none
  | .filter .ipRouteShowDefault => .ok ["default", "via", "192.0.2.1", "dev", "eth0"]
  | .filter .firewalldActive => false
  | .filter .sysctlIpForward => none
  | .filter (.iptables _) => none
  | .filter (.firewallCmd _) => none
  | .wg .genkey => .ok "private"
  | .wg (.pubkey _) => .ok "public"
  | .wg .parseInterfaceSection => .ok [("PrivateKey", "server")]
  | .wg (.setPeer ..) => none
  | .wg (.removeLivePeer _) => none
  | .wg .readServerConfig => none
  | .wg (.appendServerConfig _) => none
  | .wg (.writeServerConfig _) => none
  | .wg .mkClientsDir => none
  | .wg (.writeClientFile ..) => none
  | .wg (.chmodClientFile _) => none
  | .wg (.unlinkClientFile _) => none
  | .host (.isDockerfile _) => true
  | .host (.isoExpiry _) => "2030-01-01T00:00:00+00:00"
  | .host .acquireSpawn => ()
  | .host .releaseSpawn => ()

theorem noFault_quietChoice (op : DaemonOp) : noFault op (quietChoice op) := by
  cases op with
  | db op => trivial
  | docker op =>
    cases op with
    | imagesGet tag => exact ⟨_, rfl⟩
    | _ => rfl
  | filter op =>
    cases op with
    | ipRouteShowDefault => exact ⟨_, rfl⟩
    | firewalldActive => trivial
    | _ => rfl
  | wg op =>
    cases op with
    | genkey | pubkey _ | parseInterfaceSection => exact ⟨_, rfl⟩
    | _ => rfl
  | host op => trivial

/-- The answers of the world under a policy. -/
abbrev daemonSem (policy : Policy) : Sem daemonEffect World := daemonMachine.answers policy

/-- The host of an uneventful day. -/
def quietMachine : Machine daemonEffect World where
  Choice := fun _ => Unit
  exec := fun w op _ => DaemonOp.exec w op (quietChoice op)

theorem noFault_of_quietMachine (w : World) (op : DaemonOp) (choice : Unit) (res : op.Res)
    (w' : World) (h : quietMachine.exec w op choice = some (res, w')) : daemonSem noFault w op res w' :=
  ⟨quietChoice op, noFault_quietChoice op, h⟩

/-- A schedule of an uneventful day: in each block, one thread makes so many calls. -/
def quietThreads {ε Φ : Type} (next : Φ → (op : DaemonOp) → op.Res → Φ)
    (check : World → List Φ → Event daemonEffect → Bool) (blocks : List (Nat × Nat)) :
    Config daemonEffect ε Φ World → Option (Config daemonEffect ε Φ World) :=
  quietMachine.runChecked next check (blocksOf (fun _ => ()) blocks)

theorem reach_quietThreads {ε Φ : Type} {next : Φ → (op : DaemonOp) → op.Res → Φ}
    {check : World → List Φ → Event daemonEffect → Bool} {blocks : List (Nat × Nat)}
    {c c' : Config daemonEffect ε Φ World} (h : quietThreads next check blocks c = some c') :
    Reach (daemonSem noFault) next (fun w phases event => check w phases event = true) c c' :=
  Machine.reach_of_runChecked noFault_of_quietMachine h

/-- What happens without failures can happen. -/
theorem anyFault_of_noFault (w : World) (op : DaemonOp) (res : op.Res) (w' : World)
    (h : daemonSem noFault w op res w') : daemonSem anyFault w op res w' :=
  let ⟨choice, _, hexec⟩ := h
  ⟨choice, trivial, hexec⟩

end EdoPlugin
