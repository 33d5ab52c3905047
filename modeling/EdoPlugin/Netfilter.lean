import EdoPlugin.FirstMatch
import EdoPlugin.Topology

/-!
# The host's packet filter

The `filter` table as far as the daemon touches it: five chains of rules, the `iptables` commands
`network.py` runs, one atomic step each, and the commands next to them (`ip route`, `sysctl`,
`firewall-cmd`).  Every command may fail without an effect, either with a non-zero exit status or
because its binary is missing.

A rule is kept as its match part and its target; `Rule.args` is the argument list `network.py`
passes after `iptables -A`.
-/

namespace EdoPlugin

open FirstMatch

inductive ChainName where
  | dockerUser
  | forward
  | edoForward
  | input
  | edoInput
deriving DecidableEq, Repr

def ChainName.str : ChainName → String
  | .dockerUser => "DOCKER-USER"
  | .forward => "FORWARD"
  | .edoForward => "EDO_FORWARD"
  | .input => "INPUT"
  | .edoInput => "EDO_INPUT"

inductive Target where
  | accept
  | drop
  | jump (chain : ChainName)
deriving DecidableEq, Repr

def Target.str : Target → String
  | .accept => "ACCEPT"
  | .drop => "DROP"
  | .jump chain => chain.str

structure Rule where
  source : Option IPv4Network
  destination : Option IPv4Network
  outInterface : Option String
  /-- Matches outside the packet model, as raw arguments. -/
  extra : List String
  target : Target
deriving DecidableEq, Repr

/-- The arguments after `-A`: the chain, the matches and the target. -/
def Rule.args (chain : ChainName) (rule : Rule) : List String :=
  [chain.str]
    ++ (match rule.source with | some net => ["-s", net.str] | none => [])
    ++ (match rule.destination with | some net => ["-d", net.str] | none => [])
    ++ (match rule.outInterface with | some iface => ["-o", iface] | none => [])
    ++ rule.extra ++ ["-j", rule.target.str]

def jumpRule (chain : ChainName) : Rule := ⟨none, none, none, [], .jump chain⟩

/-! ## Packets -/

structure Packet where
  source : IPv4Address
  destination : IPv4Address
  outInterface : String
deriving DecidableEq, Repr

inductive Verdict where
  | accept
  | drop
deriving DecidableEq, Repr

/-- A forwarded packet satisfies every match of the rule. -/
def Rule.applies (rule : Rule) (packet : Packet) : Bool :=
  rule.source.all (fun net => net.contains packet.source) &&
  rule.destination.all (fun net => net.contains packet.destination) &&
  rule.outInterface.all (fun iface => iface == packet.outInterface) &&
  rule.extra.isEmpty

def Target.verdict : Target → Option Verdict
  | .accept => some .accept
  | .drop => some .drop
  | .jump _ => none

def ruleSemantics : RuleSemantics Rule Packet Verdict where
  applies := Rule.applies
  verdict rule := rule.target.verdict

/-- First-match verdict of a chain; `none` when the packet falls off its end. -/
def verdict (rules : List Rule) (packet : Packet) : Option Verdict :=
  ruleSemantics.firstMatch rules packet

/-! ## Commands -/

/-- The rules of each chain, `none` for a chain that does not exist. -/
abbrev FilterTable := ChainName → Option (List Rule)

/-- Why a command fails: a non-zero exit status with its stripped error output, or a missing
    binary. -/
inductive CmdFault where
  | nonzero (stderr : String)
  | fileNotFound
deriving DecidableEq, Repr

inductive IptablesCmd where
  | newChain (chain : ChainName)
  | check (chain : ChainName) (rule : Rule)
  | append (chain : ChainName) (rule : Rule)
  | insertFirst (chain : ChainName) (rule : Rule)
  | delete (chain : ChainName) (rule : Rule)
  | flush (chain : ChainName)
  | list (chain : ChainName)
deriving DecidableEq, Repr

/-- The target of the rule exists. -/
def FilterTable.targetExists (table : FilterTable) (rule : Rule) : Bool :=
  match rule.target with
  | .jump chain => (table chain).isSome
  | _ => true

def FilterTable.run (table : FilterTable) : IptablesCmd → Except CmdFault Unit × FilterTable
  | .newChain chain =>
    match table chain with
    | some _ => (.error (.nonzero "iptables: Chain already exists."), table)
    | none => (.ok (), Function.update table chain (some []))
  | .check chain rule =>
    match table chain with
    | some rules =>
      if rules.contains rule then (.ok (), table)
      else (.error (.nonzero "iptables: Bad rule (does a matching rule exist in that chain?)."),
        table)
    | none => (.error (.nonzero "iptables: No chain/target/match by that name."), table)
  | .append chain rule =>
    match table chain with
    | some rules =>
      if table.targetExists rule then
        (.ok (), Function.update table chain (some (rules ++ [rule])))
      else (.error (.nonzero "iptables: No chain/target/match by that name."), table)
    | none => (.error (.nonzero "iptables: No chain/target/match by that name."), table)
  | .insertFirst chain rule =>
    match table chain with
    | some rules =>
      if table.targetExists rule then
        (.ok (), Function.update table chain (some (rule :: rules)))
      else (.error (.nonzero "iptables: No chain/target/match by that name."), table)
    | none => (.error (.nonzero "iptables: No chain/target/match by that name."), table)
  | .delete chain rule =>
    match table chain with
    | some rules =>
      if rules.contains rule then (.ok (), Function.update table chain (some (rules.erase rule)))
      else (.error (.nonzero "iptables: Bad rule (does a matching rule exist in that chain?)."),
        table)
    | none => (.error (.nonzero "iptables: No chain/target/match by that name."), table)
  | .flush chain =>
    match table chain with
    | some _ => (.ok (), Function.update table chain (some []))
    | none => (.error (.nonzero "iptables: No chain/target/match by that name."), table)
  | .list chain =>
    match table chain with
    | some _ => (.ok (), table)
    | none => (.error (.nonzero "iptables: No chain/target/match by that name."), table)

inductive FilterOp where
  | ipRouteShowDefault
  | sysctlIpForward
  | iptables (cmd : IptablesCmd)
  | firewalldActive
  | firewallCmd (args : List String)

@[reducible] def FilterOp.Res : FilterOp → Type
  | .ipRouteShowDefault => Except CmdFault (List String)
  | .firewalldActive => Bool
  | _ => Except CmdFault Unit

/-- What the outside world decides: the words `ip route` prints, whether firewalld runs, and for
    the other commands whether they fail. -/
@[reducible] def FilterOp.Choice : FilterOp → Type
  | .ipRouteShowDefault => Except CmdFault (List String)
  | .firewalldActive => Bool
  | _ => Option CmdFault

def FilterOp.exec (table : FilterTable) : (op : FilterOp) → op.Choice → op.Res × FilterTable
  | .ipRouteShowDefault, words => (words, table)
  | .firewalldActive, active => (active, table)
  | .sysctlIpForward, fault =>
    match fault with
    | some err => (.error err, table)
    | none => (.ok (), table)
  | .firewallCmd _, fault =>
    match fault with
    | some err => (.error err, table)
    | none => (.ok (), table)
  | .iptables cmd, fault =>
    match fault with
    | some err => (.error err, table)
    | none => table.run cmd

end EdoPlugin
