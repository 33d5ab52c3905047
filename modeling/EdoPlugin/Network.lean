import EdoPlugin.World

/-!
# The firewall plane

`network.py`: the rule list of `EDO_FORWARD`, and `apply_firewall`, which rebuilds the chain with
one `iptables` command after the other.
-/

namespace EdoPlugin

open Interaction

/-! ## Commands and their errors -/

def installHint (binary : String) : String :=
  ([("wg", "apt install wireguard-tools"),
    ("wg-quick", "apt install wireguard-tools"),
    ("iptables", "apt install iptables"),
    ("ip", "apt install iproute2"),
    ("firewall-cmd", "apt install firewalld"),
    ("docker", "apt install docker.io  (or see docs.docker.com/engine/install)")].lookup
      binary).getD s!"install '{binary}' via your distro's package manager"

/-- `_run(cmd)`: a non-zero exit raises `CalledProcessError`, a missing binary `RuntimeError`. -/
def checked {α : Type} (binary : String) : Except CmdFault α → Except PyErr α
  | .ok value => .ok value
  | .error (.nonzero stderr) => .error (.calledProcessError stderr)
  | .error .fileNotFound => .error (.runtimeError
      s!"required binary not found: {binary}\n  install: {installHint binary}")

/-- The exception of `subprocess.run` without `check` when the binary is missing. -/
def unchecked (binary : String) : Except CmdFault Unit → Except PyErr Unit
  | .error .fileNotFound => .error (.fileNotFoundError binary)
  | _ => .ok ()

/-- `repr` of a list of strings, as f-strings print a rule. -/
def pyList (items : List String) : String :=
  "[" ++ ", ".intercalate (items.map fun item => "'" ++ item ++ "'") ++ "]"

structure RuleResult where
  success : Bool
  rule : List String
  stderr : String
deriving DecidableEq, Repr

structure FirewallApplyResult where
  publicInterface : String
  rules : List RuleResult
deriving DecidableEq, Repr

def iptables (cmd : IptablesCmd) : Daemon (Except CmdFault Unit) :=
  callFilter (.iptables cmd)

/-- The word after the first `dev`. -/
def wordAfterDev : List String → Option String
  | [] => none
  | word :: words => if word = "dev" then words.head? else wordAfterDev words

def getPublicInterface : Daemon (Option String) := do
  let result ← callFilter .ipRouteShowDefault
  match checked "ip" result with
  | .ok words => return wordAfterDev words
  | .error (.calledProcessError _) => return none
  | .error err => .raise err

/-! ## iptables primitives -/

def iptablesCheck (chain : ChainName) (rule : Rule) : Daemon Bool := do
  let result ← iptables (.check chain rule)
  match result with
  | .ok () => return true
  | .error _ => return false

def iptablesAppend (chain : ChainName) (rule : Rule) : Daemon RuleResult := do
  let present ← iptablesCheck chain rule
  if present then
    return ⟨true, rule.args chain, ""⟩
  else
    let result ← iptables (.append chain rule)
    match checked "iptables" result with
    | .ok () => return ⟨true, rule.args chain, ""⟩
    | .error (.calledProcessError stderr) => return ⟨false, rule.args chain, stderr⟩
    | .error err => .raise err

def iptablesDelete (chain : ChainName) (rule : Rule) : Daemon RuleResult := do
  let present ← iptablesCheck chain rule
  if present then
    let result ← iptables (.delete chain rule)
    match checked "iptables" result with
    | .ok () => return ⟨true, rule.args chain, ""⟩
    | .error (.calledProcessError stderr) => return ⟨false, rule.args chain, stderr⟩
    | .error err => .raise err
  else
    return ⟨true, rule.args chain, ""⟩

def chainExists (chain : ChainName) : Daemon Bool := do
  let result ← iptables (.list chain)
  match result with
  | .ok () => return true
  | .error _ => return false

/-! ## The WireGuard port in INPUT -/

def firewallCmd (args : List String) : Daemon (Except PyErr Unit) := do
  let result ← callFilter (.firewallCmd args)
  return checked "firewall-cmd" result

def wgInputRule (port : Nat) : Rule :=
  ⟨none, none, none,
    ["-p", "udp", "--dport", toString port, "-m", "comment", "--comment",
      "edo: WireGuard handshake"], .accept⟩

/-- The `firewalld` branch of `apply_wg_input_rule`. -/
def applyFirewalldPort (port : Nat) : Daemon RuleResult := do
  let added ← firewallCmd [s!"--add-port={port}/udp", "--permanent"]
  match added with
  | .error (.calledProcessError stderr) => return ⟨false, ["firewalld", s!"{port}/udp"], stderr⟩
  | .error err => .raise err
  | .ok () =>
    let reloaded ← firewallCmd ["--reload"]
    match reloaded with
    | .error (.calledProcessError stderr) => return ⟨false, ["firewalld", s!"{port}/udp"], stderr⟩
    | .error err => .raise err
    | .ok () => return ⟨true, ["firewalld", s!"{port}/udp"], ""⟩

/-- Flush `EDO_INPUT` and append its only rule. -/
def fillInputChain (port : Nat) : Daemon RuleResult := do
  let flushed ← iptables (.flush .edoInput)
  match checked "iptables" flushed with
  | .error (.calledProcessError stderr) => return ⟨false, ["-F", ChainName.edoInput.str], stderr⟩
  | .error err => .raise err
  | .ok () => iptablesAppend .edoInput (wgInputRule port)

def applyWgInputRule (port : Nat) : Daemon RuleResult := do
  let active ← callFilter .firewalldActive
  if active then
    applyFirewalldPort port
  else
    let created ← iptables (.newChain .edoInput)
    Prog.ofExcept (unchecked "iptables" created)
    let hooked ← iptablesCheck .input (jumpRule .edoInput)
    if hooked then
      fillInputChain port
    else
      let inserted ← iptables (.insertFirst .input (jumpRule .edoInput))
      match checked "iptables" inserted with
      | .error (.calledProcessError stderr) =>
        return ⟨false, (jumpRule .edoInput).args .input, stderr⟩
      | .error err => .raise err
      | .ok () => fillInputChain port

/-! ## Hooking EDO_FORWARD -/

def forwardHookCandidates : List ChainName := [.dockerUser, .forward]

/-- The first candidate chain that exists, `FORWARD` when none does. -/
def preferredForwardHook : List ChainName → Daemon ChainName
  | [] => return .forward
  | chain :: chains => do
    let found ← chainExists chain
    if found then return chain else preferredForwardHook chains

/-- The `while` loop of `_unhook_edo_from_all` on one chain, with the rounds its guard leaves. -/
def unhookEdoFrom (chain : ChainName) : Nat → Daemon (List RuleResult)
  | 0 => return []
  | guard + 1 => do
    let hooked ← iptablesCheck chain (jumpRule .edoForward)
    if hooked then
      let result ← iptablesDelete chain (jumpRule .edoForward)
      let results ← unhookEdoFrom chain guard
      return result :: results
    else
      return []

def unhookEdoFromAll : List ChainName → Daemon (List RuleResult)
  | [] => return []
  | chain :: chains => do
    let found ← chainExists chain
    if found then
      let results ← unhookEdoFrom chain 5
      let rest ← unhookEdoFromAll chains
      return results ++ rest
    else
      unhookEdoFromAll chains

/-! ## The rule set -/

/-- The two directions of one peer's access to its owner's subnet. -/
def acceptPair (ip : IPv4Address) (octet : Octet) : List Rule :=
  [⟨some (hostNetwork ip), some (ownerSubnet octet), none, [], .accept⟩,
   ⟨some (ownerSubnet octet), some (hostNetwork ip), none, [], .accept⟩]

/-- (1) No VPN client reaches another VPN client. -/
def participantIsolation : Rule := ⟨some wgSubnet, some wgSubnet, none, [], .drop⟩

/-- (2) A peer reaches its own owner's subnet, in both directions. -/
def ownerAccepts (peersByOwner : List (Owner × List IPv4Address))
    (octetsByOwner : List (Owner × Octet)) : List Rule :=
  octetsByOwner.flatMap fun entry =>
    ((peersByOwner.lookup entry.1).getD []).flatMap fun ip => acceptPair ip entry.2

/-- (3) No traffic between two owners' subnets. -/
def crossOwnerIsolation : Rule := ⟨some dockerPool, some dockerPool, none, [], .drop⟩

/-- (4) No container reaches the internet through the public interface. -/
def egressContainment (publicIface : String) : Rule :=
  ⟨some dockerPool, none, some publicIface, [], .drop⟩

/-- `_build_chain_rules`: the rules of `EDO_FORWARD` in evaluation order. -/
def buildChainRules (publicIface : String) (peersByOwner : List (Owner × List IPv4Address))
    (octetsByOwner : List (Owner × Octet)) : List Rule :=
  [participantIsolation] ++ ownerAccepts peersByOwner octetsByOwner ++ [crossOwnerIsolation] ++
    [egressContainment publicIface]

/-- The rollback after a rule that could not be installed: empty the chain and raise. -/
def rollBackRules (rule : Rule) (stderr : String) : Daemon (List RuleResult) := do
  let rolledBack ← iptables (.flush .edoForward)
  Prog.ofExcept (unchecked "iptables" rolledBack)
  .raise (.runtimeError s!"failed to install rule {pyList (rule.args .edoForward)}: {stderr}")

/-- Append the rules one by one, up to the first failure. -/
def installRules : List Rule → Daemon (List RuleResult)
  | [] => return []
  | rule :: rules => do
    let result ← iptablesAppend .edoForward rule
    if result.success then
      let results ← installRules rules
      return result :: results
    else
      rollBackRules rule result.stderr

/-- A command of `apply_firewall` whose failure is reported as a `RuntimeError`. -/
def orRuntimeError (what : String) (result : Except PyErr Unit) : Daemon Unit :=
  match result with
  | .ok () => return ()
  | .error (.calledProcessError stderr) => .raise (.runtimeError s!"{what}: {stderr}")
  | .error err => .raise err

def requirePublicInterface : Daemon String := do
  let iface ← getPublicInterface
  match iface with
  | some publicIface => return publicIface
  | none =>
    .raise (.runtimeError "unable to determine public interface; refusing to apply firewall")

def enableForwarding : Daemon Unit := do
  let forwarding ← callFilter .sysctlIpForward
  orRuntimeError "failed to enable net.ipv4.ip_forward" (checked "sysctl" forwarding)

/-- Create `EDO_FORWARD`, and make it the first rule of its hook. -/
def hookEdoForward : Daemon Unit := do
  let created ← iptables (.newChain .edoForward)
  Prog.ofExcept (unchecked "iptables" created)
  let _ ← unhookEdoFromAll forwardHookCandidates
  let target ← preferredForwardHook forwardHookCandidates
  let hooked ← iptables (.insertFirst target (jumpRule .edoForward))
  orRuntimeError s!"failed to hook {ChainName.edoForward.str} into {target.str}"
    (checked "iptables" hooked)

/-- Flush `EDO_FORWARD`, append its rules, open the WireGuard port. -/
def rebuildChain (publicIface : String) (rules : List Rule) (wgPort : Nat) :
    Daemon FirewallApplyResult := do
  let flushed ← iptables (.flush .edoForward)
  orRuntimeError s!"failed to flush {ChainName.edoForward.str}" (checked "iptables" flushed)
  let results ← installRules rules
  let inputResult ← applyWgInputRule wgPort
  return ⟨publicIface, results ++ [inputResult]⟩

def applyFirewall (peersByOwner : List (Owner × List IPv4Address))
    (octetsByOwner : List (Owner × Octet)) (wgPort : Nat) : Daemon FirewallApplyResult := do
  let publicIface ← requirePublicInterface
  enableForwarding
  hookEdoForward
  rebuildChain publicIface (buildChainRules publicIface peersByOwner octetsByOwner) wgPort

/-! ## Hosts of a subnet -/

/-- `iter_subnet_hosts`: the first host that is not excluded. -/
def iterSubnetHosts (network : IPv4Network) (exclude : List (Option IPv4Address)) :
    Except PyErr IPv4Address :=
  match network.hosts.find? fun host => !(exclude.contains (some host)) with
  | some host => .ok host
  | none => .error (.runtimeError s!"subnet {network.str} is exhausted")

end EdoPlugin
