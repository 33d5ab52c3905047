import EdoPlugin.HandlerCalls

/-!
# The firewall of others

The daemon writes to two chains of its own, and to the chains of others it adds a jump to them.
Whatever it has been through, and however often its firewall was removed, the rules of others are the
ones that were there, in their order.
-/

namespace EdoPlugin

open Interaction

/-! ## The removal -/

def chainNames : List ChainName := [.dockerUser, .forward, .edoForward, .input, .edoInput]

/-- Some rule jumps to the chain. -/
def FilterTable.referenced (table : FilterTable) (chain : ChainName) : Bool :=
  chainNames.any fun other =>
    (table other).any fun rules => rules.any fun rule => rule.target = .jump chain

/-- `iptables -X chain` -/
def FilterTable.deleteChain (table : FilterTable) (chain : ChainName) :
    Except CmdFault Unit × FilterTable :=
  match table chain with
  | none => (.error (.nonzero "iptables: No chain/target/match by that name."), table)
  | some rules =>
    if table.referenced chain then (.error (.nonzero "iptables: Too many links."), table)
    else if rules = [] then (.ok (), Function.update table chain none)
    else (.error (.nonzero "iptables: Directory not empty."), table)

/-- The one command that nothing else of the daemon runs. -/
@[reducible] def deleteChainEffect : Effect := ⟨ChainName, fun _ => Except CmdFault Unit⟩

/-- It may fail, too. -/
def deleteChainSem (policy : ChainName → Option CmdFault → Prop) : Sem deleteChainEffect World :=
  fun w chain res w' => ∃ fault, policy chain fault ∧ match fault with
    | some err => res = .error err ∧ w' = w
    | none => res = (w.filter.deleteChain chain).1 ∧ w' = w.withFilter (w.filter.deleteChain chain).2

/-- A program with that command. -/
abbrev Removal (α : Type) : Type := Prog (daemonEffect.sum deleteChainEffect) PyErr α

namespace Removal

def callDaemon {α : Type} (p : Daemon α) : Removal α := p.first deleteChainEffect id

def deleteChain (chain : ChainName) : Removal (Except CmdFault Unit) :=
  @Prog.perform (daemonEffect.sum deleteChainEffect) PyErr (.inr chain)

/-- The `firewalld` branch of `remove_wg_input_rule`. -/
def removeFirewalldPort (port : Nat) : Daemon RuleResult := do
  let removed ← firewallCmd [s!"--remove-port={port}/udp", "--permanent"]
  match removed with
  | .error (.calledProcessError stderr) => return ⟨false, ["firewalld", s!"{port}/udp"], stderr⟩
  | .error err => .raise err
  | .ok () =>
    let reloaded ← firewallCmd ["--reload"]
    match reloaded with
    | .error (.calledProcessError stderr) => return ⟨false, ["firewalld", s!"{port}/udp"], stderr⟩
    | .error err => .raise err
    | .ok () => return ⟨true, ["firewalld", s!"{port}/udp"], ""⟩

/-- The `try` of `remove_wg_input_rule`. -/
def flushAndDeleteInput : Removal RuleResult := do
  let flushed ← callDaemon (iptables (.flush .edoInput))
  match checked "iptables" flushed with
  | .error (.calledProcessError stderr) => return ⟨false, ["-X", ChainName.edoInput.str], stderr⟩
  | .error err => .raise err
  | .ok () =>
    let deleted ← deleteChain .edoInput
    match checked "iptables" deleted with
    | .error (.calledProcessError stderr) => return ⟨false, ["-X", ChainName.edoInput.str], stderr⟩
    | .error err => .raise err
    | .ok () => return ⟨true, [ChainName.edoInput.str, "removed"], ""⟩

def removeInputChain : Removal RuleResult := do
  let found ← callDaemon (chainExists .edoInput)
  if found then flushAndDeleteInput
  else return ⟨true, [ChainName.edoInput.str, "removed"], ""⟩

def removeWgInputRule (port : Nat) : Removal RuleResult := do
  let active ← callDaemon (callFilter .firewalldActive)
  if active then
    callDaemon (removeFirewalldPort port)
  else
    let hooked ← callDaemon (iptablesCheck .input (jumpRule .edoInput))
    if hooked then
      let _ ← callDaemon (iptablesDelete .input (jumpRule .edoInput))
      removeInputChain
    else removeInputChain

/-- A command of `remove_firewall` whose failure is part of the result. -/
def reported (rule : List String) (result : Except CmdFault Unit) : Removal RuleResult :=
  match checked "iptables" result with
  | .ok () => return ⟨true, rule, ""⟩
  | .error (.calledProcessError stderr) => return ⟨false, rule, stderr⟩
  | .error err => .raise err

def removeForwardChain : Removal (List RuleResult) := do
  let found ← callDaemon (chainExists .edoForward)
  if found then
    let flushed ← callDaemon (iptables (.flush .edoForward))
    let flushResult ← reported ["-F", ChainName.edoForward.str] flushed
    let deleted ← deleteChain .edoForward
    let deleteResult ← reported ["-X", ChainName.edoForward.str] deleted
    return [flushResult, deleteResult]
  else return []

def removeFirewall (wgPort : Nat) : Removal (List RuleResult) := do
  let unhooked ← callDaemon (unhookEdoFromAll forwardHookCandidates)
  let removed ← removeForwardChain
  let inputResult ← removeWgInputRule wgPort
  return unhooked ++ removed ++ [inputResult]

end Removal

/-! ## What is not the daemon's -/

def ChainName.isOwn (chain : ChainName) : Bool := chain = .edoForward || chain = .edoInput

/-- The jump that the daemon adds to a chain of others. -/
def hookRule (chain : ChainName) : Rule :=
  if chain = .input then jumpRule .edoInput else jumpRule .edoForward

/-- The table without the daemon's chains and jumps. -/
def FilterTable.withoutEdo (table : FilterTable) : FilterTable := fun chain =>
  if chain.isOwn then none
  else (table chain).map fun rules => rules.filter fun rule => rule ≠ hookRule chain

/-- The jumps to the daemon's chains are the ones that the daemon adds. -/
def FilterTable.OnlyHooks (table : FilterTable) : Prop :=
  ∀ chain rules, table chain = some rules → ∀ rule ∈ rules, ∀ own : ChainName, own.isOwn →
    rule.target = .jump own → chain.isOwn = false ∧ rule = hookRule chain

/-- No rule of a host without the daemon has to do with the daemon. -/
structure FilterTable.Foreign (table : FilterTable) : Prop where
  chains : ∀ chain : ChainName, chain.isOwn → table chain = none
  rules : ∀ chain rules, table chain = some rules → ∀ rule ∈ rules, ∀ own : ChainName, own.isOwn →
    rule.target ≠ .jump own

/-- The commands that the daemon runs. -/
def IptablesCmd.IsEdo : IptablesCmd → Prop
  | .newChain chain | .flush chain => chain.isOwn
  | .append chain rule => chain.isOwn ∧ rule.target.verdict ≠ none
  | .insertFirst chain rule | .delete chain rule => chain.isOwn = false ∧ rule = hookRule chain
  | .check .. | .list _ => True

section Commands

variable {table table' : FilterTable} {chain own : ChainName} {rules : List Rule} {cmd : IptablesCmd}

theorem hookRule_target (chain : ChainName) :
    hookRule chain = jumpRule .edoInput ∨ hookRule chain = jumpRule .edoForward := by
  unfold hookRule
  split
  · exact .inl rfl
  · exact .inr rfl

/-- A host without the daemon has nothing to leave out. -/
theorem FilterTable.Foreign.withoutEdo (h : table.Foreign) : table.withoutEdo = table := by
  funext chain
  unfold FilterTable.withoutEdo
  split
  · rename_i hown
    exact (h.chains chain hown).symm
  · cases hchain : table chain with
    | none => rfl
    | some rules =>
      rw [Option.map_some, List.filter_eq_self.mpr]
      intro rule hrule
      apply decide_eq_true
      rintro rfl
      rcases hookRule_target chain with hinput | hforward
      · exact h.rules chain rules hchain _ hrule .edoInput rfl (by rw [hinput]; rfl)
      · exact h.rules chain rules hchain _ hrule .edoForward rfl (by rw [hforward]; rfl)

theorem FilterTable.Foreign.onlyHooks (h : table.Foreign) : table.OnlyHooks :=
  fun chain rules hchain rule hrule own hown htarget =>
    (h.rules chain rules hchain rule hrule own hown htarget).elim

/-- A chain of the daemon. -/
theorem withoutEdo_update_own {value : Option (List Rule)} (hown : chain.isOwn = true) :
    FilterTable.withoutEdo (Function.update table chain value) = table.withoutEdo := by
  funext other
  unfold FilterTable.withoutEdo
  by_cases hother : other = chain
  · rw [hother, if_pos hown, if_pos hown]
  · rw [Function.update_of_ne hother]

/-- A chain of others, with the same rules but for the jump. -/
theorem withoutEdo_update_hook {rules' : List Rule} (hchain : table chain = some rules)
    (hrules : (rules'.filter fun rule => rule ≠ hookRule chain) =
      rules.filter fun rule => rule ≠ hookRule chain) :
    FilterTable.withoutEdo (Function.update table chain (some rules')) = table.withoutEdo := by
  funext other
  unfold FilterTable.withoutEdo
  by_cases hother : other = chain
  · rw [hother, Function.update_self, hchain, Option.map_some, Option.map_some, hrules]
  · rw [Function.update_of_ne hother]

theorem filter_ne_erase {rule : Rule} (rules : List Rule) :
    ((rules.erase rule).filter fun other => other ≠ rule) =
      rules.filter fun other => other ≠ rule := by
  rw [← List.erase_filter]
  apply List.erase_of_not_mem
  simp

/-- What one of these commands can make of a table. -/
inductive EdoChange (table : FilterTable) : FilterTable → Prop
  | same : EdoChange table table
  | own {chain : ChainName} {rules : List Rule} : chain.isOwn = true →
      (∀ rule ∈ rules, (∃ old, table chain = some old ∧ rule ∈ old) ∨ rule.target.verdict ≠ none) →
      EdoChange table (Function.update table chain (some rules))
  | deleted {chain : ChainName} : chain.isOwn = true →
      EdoChange table (Function.update table chain none)
  | hooked {chain : ChainName} {rules : List Rule} : chain.isOwn = false → table chain = some rules →
      EdoChange table (Function.update table chain (some (hookRule chain :: rules)))
  | unhooked {chain : ChainName} {rules : List Rule} : table chain = some rules →
      EdoChange table (Function.update table chain (some (rules.erase (hookRule chain))))

theorem EdoChange.run (h : cmd.IsEdo) : EdoChange table (table.run cmd).2 := by
  cases cmd with
  | check chain rule =>
    cases hchain : table chain with
    | none =>
      simp only [FilterTable.run, hchain]
      exact .same
    | some rules =>
      simp only [FilterTable.run, hchain]
      split <;> exact .same
  | list chain =>
    cases hchain : table chain <;> simp only [FilterTable.run, hchain] <;> exact .same
  | newChain chain =>
    cases hchain : table chain with
    | none =>
      simp only [FilterTable.run, hchain]
      exact .own h fun _ hrule => by cases hrule
    | some rules =>
      simp only [FilterTable.run, hchain]
      exact .same
  | flush chain =>
    cases hchain : table chain with
    | none =>
      simp only [FilterTable.run, hchain]
      exact .same
    | some rules =>
      simp only [FilterTable.run, hchain]
      exact .own h fun _ hrule => by cases hrule
  | append chain rule =>
    cases hchain : table chain with
    | none =>
      simp only [FilterTable.run, hchain]
      exact .same
    | some rules =>
      simp only [FilterTable.run, hchain]
      split
      · apply EdoChange.own h.1
        intro added hadded
        rcases List.mem_append.mp hadded with hold | hnew
        · exact .inl ⟨rules, hchain, hold⟩
        · rw [List.mem_singleton.mp hnew]
          exact .inr h.2
      · exact .same
  | insertFirst chain rule =>
    obtain ⟨hothers, rfl⟩ := h
    cases hchain : table chain with
    | none =>
      simp only [FilterTable.run, hchain]
      exact .same
    | some rules =>
      simp only [FilterTable.run, hchain]
      split
      · exact .hooked hothers hchain
      · exact .same
  | delete chain rule =>
    obtain ⟨-, rfl⟩ := h
    cases hchain : table chain with
    | none =>
      simp only [FilterTable.run, hchain]
      exact .same
    | some rules =>
      simp only [FilterTable.run, hchain]
      split
      · exact .unhooked hchain
      · exact .same

/-- **The daemon's commands leave the rules of others alone.** -/
theorem EdoChange.withoutEdo (h : EdoChange table table') :
    table'.withoutEdo = table.withoutEdo := by
  cases h with
  | same => rfl
  | own hown _ | deleted hown => exact withoutEdo_update_own hown
  | hooked _ hchain => exact withoutEdo_update_hook hchain (List.filter_cons_of_neg (by simp))
  | unhooked hchain => exact withoutEdo_update_hook hchain (filter_ne_erase _)

theorem FilterTable.OnlyHooks.update {value : Option (List Rule)} (h : table.OnlyHooks)
    (hrules : ∀ rules, value = some rules → ∀ rule ∈ rules,
      (∃ old, table chain = some old ∧ rule ∈ old) ∨
        (rule.target.verdict ≠ none ∨ chain.isOwn = false ∧ rule = hookRule chain)) :
    FilterTable.OnlyHooks (Function.update table chain value) := by
  intro other rules' hother rule hrule own hown htarget
  by_cases hsame : other = chain
  · subst hsame
    rw [Function.update_self] at hother
    rcases hrules rules' hother rule hrule with ⟨old, hold, hmem⟩ | hverdict | hhook
    · exact h other old hold rule hmem own hown htarget
    · rw [htarget] at hverdict
      exact (hverdict rfl).elim
    · exact hhook
  · rw [Function.update_of_ne hsame] at hother
    exact h other rules' hother rule hrule own hown htarget

theorem FilterTable.OnlyHooks.change (h : table.OnlyHooks) (hchange : EdoChange table table') :
    table'.OnlyHooks := by
  cases hchange with
  | same => exact h
  | own _ hrules =>
    apply h.update
    rintro _ ⟨⟩ rule hrule
    exact (hrules rule hrule).imp_right .inl
  | deleted _ => exact h.update fun _ hnone => by cases hnone
  | hooked hothers hchain =>
    apply h.update
    rintro _ ⟨⟩ rule hrule
    rcases List.mem_cons.mp hrule with rfl | hold
    · exact .inr (.inr ⟨hothers, rfl⟩)
    · exact .inl ⟨_, hchain, hold⟩
  | unhooked hchain =>
    apply h.update
    rintro _ ⟨⟩ rule hrule
    exact .inl ⟨_, hchain, List.mem_of_mem_erase hrule⟩

end Commands

/-! ## Nothing else happens to the table -/

/-- The calls of the daemon that can happen to the table. -/
def edoCommand : DaemonOp → Prop
  | .filter (.iptables cmd) => cmd.IsEdo
  | _ => True

theorem EdoChange.sem {policy : Policy} {w w' : World} {op : DaemonOp} {res : op.Res}
    (hcall : edoCommand op) (hsem : daemonSem policy w op res w') :
    EdoChange w.filter w'.filter := by
  obtain ⟨choice, -, hexec⟩ := hsem
  cases op with
  | filter op =>
    cases hexec
    cases op with
    | iptables cmd =>
      cases choice with
      | some err => exact .same
      | none => exact .run hcall
    | ipRouteShowDefault | firewalldActive => exact .same
    | sysctlIpForward | firewallCmd _ => cases choice <;> exact .same
  | db op | docker op | wg op =>
    cases hexec
    exact .same
  | host op =>
    obtain ⟨result, -, hresult⟩ := Option.map_eq_some_iff.mp hexec
    cases hresult
    exact .same

section Calls

variable {env : DaemonEnv} {α : Type}

theorem edoCommand_of_containerSide (op : DaemonOp) (h : containerSide op) : edoCommand op := by
  cases op with
  | filter op => exact h.elim
  | _ => trivial

theorem edoCommand_of_peerSide (op : DaemonOp) (h : peerSide op) : edoCommand op := by
  cases op with
  | filter op => exact h.elim
  | _ => trivial

theorem hookRule_of_candidate {chain : ChainName} (h : chain ∈ forwardHookCandidates) :
    chain.isOwn = false ∧ jumpRule .edoForward = hookRule chain := by
  rcases List.mem_pair.mp h with rfl | rfl
  · exact ⟨rfl, rfl⟩
  · exact ⟨rfl, rfl⟩

theorem callsEdo_iptables {cmd : IptablesCmd} (h : cmd.IsEdo) : CallsOnly edoCommand (iptables cmd) :=
  callsOnly_iptables h

theorem callsEdo_unhookEdoFromAll {chains : List ChainName}
    (hchains : ∀ chain ∈ chains, chain ∈ forwardHookCandidates) :
    CallsOnly edoCommand (unhookEdoFromAll chains) := by
  induction chains with
  | nil => exact .ret
  | cons chain chains ih =>
    have hdelete : edoCommand (.filter (.iptables (.delete chain (jumpRule .edoForward)))) :=
      hookRule_of_candidate (hchains chain List.mem_cons_self)
    have ih := ih fun other hother => hchains other (List.mem_cons_of_mem _ hother)
    apply CallsOnly.bind (callsOnly_chainExists trivial)
    intro found
    apply CallsOnly.ite _ ih
    apply CallsOnly.bind (callsOnly_unhookEdoFrom 5 trivial hdelete)
    exact fun _ => .bind ih fun _ => .ret

/-- The chain that is hooked is one of the candidates. -/
theorem callsEdo_preferredForwardHook {chains : List ChainName} {f : ChainName → Daemon α}
    (hchains : ∀ chain ∈ chains, chain ∈ forwardHookCandidates)
    (hf : ∀ chain ∈ forwardHookCandidates, CallsOnly edoCommand (f chain)) :
    CallsOnly edoCommand (preferredForwardHook chains >>= f) := by
  induction chains with
  | nil => exact hf .forward (by decide)
  | cons chain chains ih =>
    have ih := ih fun other hother => hchains other (List.mem_cons_of_mem _ hother)
    unfold preferredForwardHook
    simp only [Prog.bind_eq, Prog.bind_assoc]
    apply CallsOnly.bind (callsOnly_chainExists trivial)
    intro found
    cases found with
    | true => exact hf chain (hchains chain List.mem_cons_self)
    | false => exact ih

theorem callsEdo_hookEdoForward : CallsOnly edoCommand hookEdoForward := by
  apply CallsOnly.bind (callsEdo_iptables (by rfl))
  intro created
  apply CallsOnly.bind .ofExcept
  intro _
  apply CallsOnly.bind (callsEdo_unhookEdoFromAll fun _ h => h)
  intro _
  apply callsEdo_preferredForwardHook fun _ h => h
  intro target htarget
  apply CallsOnly.bind (callsEdo_iptables (by exact hookRule_of_candidate htarget))
  exact fun _ => callsOnly_orRuntimeError

theorem callsEdo_installRules {rules : List Rule}
    (hrules : ∀ rule ∈ rules, rule.target.verdict ≠ none) :
    CallsOnly edoCommand (installRules rules) := by
  induction rules with
  | nil => exact .ret
  | cons rule rules ih =>
    have ih := ih fun other hother => hrules other (List.mem_cons_of_mem _ hother)
    apply CallsOnly.bind
      (callsOnly_iptablesAppend trivial ⟨rfl, hrules rule List.mem_cons_self⟩)
    intro result
    apply CallsOnly.ite (.bind ih fun _ => .ret)
    apply CallsOnly.bind (callsEdo_iptables (by rfl))
    exact fun rolledBack => .bind .ofExcept fun _ => .raise

theorem callsEdo_fillInputChain {port : Nat} : CallsOnly edoCommand (fillInputChain port) := by
  apply CallsOnly.bind (callsEdo_iptables (by rfl))
  intro flushed
  split
  · exact .ret
  · exact .raise
  · exact callsOnly_iptablesAppend trivial ⟨rfl, by simp [wgInputRule, Target.verdict]⟩

theorem callsEdo_applyWgInputRule {port : Nat} : CallsOnly edoCommand (applyWgInputRule port) := by
  have hcmd : ∀ args, CallsOnly edoCommand (firewallCmd args) :=
    fun args => .bind (.perform trivial) fun _ => .ret
  apply CallsOnly.bind (.perform trivial)
  intro active
  apply CallsOnly.ite
  · apply CallsOnly.bind (hcmd _)
    intro added
    split
    · exact .ret
    · exact .raise
    · apply CallsOnly.bind (hcmd _)
      intro reloaded
      split <;> constructor
  · apply CallsOnly.bind (callsEdo_iptables (by rfl))
    intro created
    apply CallsOnly.bind .ofExcept
    intro _
    apply CallsOnly.bind (callsOnly_iptablesCheck trivial)
    intro hooked
    apply CallsOnly.ite callsEdo_fillInputChain
    apply CallsOnly.bind (callsEdo_iptables (by exact ⟨rfl, rfl⟩))
    intro inserted
    split
    · exact .ret
    · exact .raise
    · exact callsEdo_fillInputChain

theorem callsEdo_rebuildFirewall : CallsOnly edoCommand (rebuildFirewall env) := by
  apply CallsOnly.bind (.perform trivial)
  intro peersByOwner
  apply CallsOnly.bind (.perform trivial)
  intro octetRows
  apply CallsOnly.bind _ fun _ => .ret
  apply CallsOnly.bind
  · apply CallsOnly.bind
    · apply CallsOnly.bind (.perform trivial)
      intro words
      split <;> constructor
    · intro iface
      cases iface <;> constructor
  · intro publicIface
    apply CallsOnly.bind (.bind (.perform trivial) fun _ => callsOnly_orRuntimeError)
    intro _
    apply CallsOnly.bind callsEdo_hookEdoForward
    intro _
    apply CallsOnly.bind (callsEdo_iptables (by rfl))
    intro flushed
    apply CallsOnly.bind callsOnly_orRuntimeError
    intro _
    apply CallsOnly.bind (callsEdo_installRules buildChainRules_verdict)
    intro results
    exact .bind callsEdo_applyWgInputRule fun _ => .ret

theorem callsEdo_task {task : SessionTask} : CallsOnly edoCommand (task.prog env) := by
  cases task with
  | request served =>
    apply CallsOnly.bind _ fun _ => .ret
    exact callsOnly_handle edoCommand_of_containerSide edoCommand_of_peerSide callsEdo_rebuildFirewall
  | adoption =>
    exact .bind (containerSide_adoptUntracked.mono edoCommand_of_containerSide) fun _ => .ret

theorem callsEdo_restart : CallsOnly edoCommand (restart env) :=
  callsOnly_restart_of edoCommand_of_containerSide callsEdo_rebuildFirewall

/-- The calls of the removal. -/
def removalCall : (daemonEffect.sum deleteChainEffect).Op → Prop
  | .inl op => edoCommand op
  | .inr chain => chain.isOwn

theorem callsEdo_callDaemon {p : Daemon α} (h : CallsOnly edoCommand p) :
    CallsOnly removalCall (Removal.callDaemon p) :=
  h.first

theorem callsEdo_reported {rule : List String} {result : Except CmdFault Unit} :
    CallsOnly removalCall (Removal.reported rule result) := by
  unfold Removal.reported
  split <;> constructor

theorem callsEdo_removeForwardChain : CallsOnly removalCall Removal.removeForwardChain := by
  apply CallsOnly.bind (callsEdo_callDaemon (callsOnly_chainExists trivial))
  intro found
  apply CallsOnly.ite _ .ret
  apply CallsOnly.bind (callsEdo_callDaemon (callsEdo_iptables (by rfl)))
  intro flushed
  apply CallsOnly.bind callsEdo_reported
  intro flushResult
  apply CallsOnly.bind (.perform (by rfl))
  intro deleted
  exact .bind callsEdo_reported fun _ => .ret

theorem callsEdo_removeInputChain : CallsOnly removalCall Removal.removeInputChain := by
  apply CallsOnly.bind (callsEdo_callDaemon (callsOnly_chainExists trivial))
  intro found
  apply CallsOnly.ite _ .ret
  apply CallsOnly.bind (callsEdo_callDaemon (callsEdo_iptables (by rfl)))
  intro flushed
  split
  · exact .ret
  · exact .raise
  · apply CallsOnly.bind (.perform (by rfl))
    intro deleted
    split <;> constructor

theorem callsEdo_removeWgInputRule {port : Nat} :
    CallsOnly removalCall (Removal.removeWgInputRule port) := by
  have hcmd : ∀ args, CallsOnly edoCommand (firewallCmd args) :=
    fun args => .bind (.perform trivial) fun _ => .ret
  have hactive : CallsOnly edoCommand (callFilter .firewalldActive) := .perform trivial
  apply CallsOnly.bind (callsEdo_callDaemon hactive)
  intro active
  apply CallsOnly.ite
  · apply callsEdo_callDaemon
    apply CallsOnly.bind (hcmd _)
    intro removed
    split
    · exact .ret
    · exact .raise
    · apply CallsOnly.bind (hcmd _)
      intro reloaded
      split <;> constructor
  · apply CallsOnly.bind (callsEdo_callDaemon (callsOnly_iptablesCheck trivial))
    intro hooked
    apply CallsOnly.ite _ callsEdo_removeInputChain
    apply CallsOnly.bind (callsEdo_callDaemon
      (callsOnly_iptablesDelete trivial (by exact ⟨rfl, rfl⟩)))
    exact fun _ => callsEdo_removeInputChain

theorem callsEdo_removeFirewall {port : Nat} :
    CallsOnly removalCall (Removal.removeFirewall port) := by
  apply CallsOnly.bind (callsEdo_callDaemon (callsEdo_unhookEdoFromAll fun _ h => h))
  intro unhooked
  apply CallsOnly.bind callsEdo_removeForwardChain
  intro removed
  exact .bind callsEdo_removeWgInputRule fun _ => .ret

end Calls

/-- Every call of a removal may fail. -/
def anyFaultRemoval : Sem (daemonEffect.sum deleteChainEffect) World :=
  (daemonSem anyFault).shared (deleteChainSem fun _ _ => True)

theorem EdoChange.removal {w w' : World} {op : (daemonEffect.sum deleteChainEffect).Op}
    {res : (daemonEffect.sum deleteChainEffect).Res op} (hcall : removalCall op)
    (hsem : anyFaultRemoval w op res w') : EdoChange w.filter w'.filter := by
  cases op with
  | inl op => exact EdoChange.sem hcall hsem
  | inr chain =>
    obtain ⟨fault, -, hresult⟩ := hsem
    cases fault with
    | some err =>
      rw [hresult.2]
      exact .same
    | none =>
      rw [hresult.2, World.withFilter_filter]
      unfold FilterTable.deleteChain
      split
      · exact .same
      · split
        · exact .same
        · split
          · exact .deleted hcall
          · exact .same

/-! ## A host with the daemon on it -/

/-- The threads of one process. -/
def startProcess (env : DaemonEnv) (tasks : List SessionTask) (permits : Nat) (w : World) :
    Config daemonEffect PyErr Unit World :=
  ⟨{ w with spawnPermits := permits }, tasks.map fun task => ⟨(), task.prog env⟩⟩

/-- The worlds of a host on which the daemon starts and serves any number of times, and on which its
    firewall is removed any number of times.  Every call may fail, the threads of a process run in any
    order, and it is killed at any point; containers come to harm at any time, and the database is
    lost between two processes. -/
inductive HostLife (env : DaemonEnv) (w₀ : World) : World → Prop
  | before : HostLife env w₀ w₀
  | startup {w w' : World} : HostLife env w₀ w → Visits (daemonSem anyFault) (restart env) w w' →
      HostLife env w₀ w'
  | session {w : World} {tasks : List SessionTask} {permits : Nat}
      {c : Config daemonEffect PyErr Unit World} : HostLife env w₀ w →
      Reach (daemonSem anyFault) (fun _ _ _ => ()) (fun _ _ _ => True)
        (startProcess env tasks permits w) c → HostLife env w₀ c.world
  | removal {w w' : World} {port : Nat} : HostLife env w₀ w →
      Visits anyFaultRemoval (Removal.removeFirewall port) w w' → HostLife env w₀ w'
  | drift {w : World} {docker : Docker} : HostLife env w₀ w → w.docker.Drift docker →
      HostLife env w₀ { w with docker := docker }
  | lostDatabase {w : World} : HostLife env w₀ w → HostLife env w₀ w.withoutDb

/-- What the changes to the table keep, holds for life. -/
theorem HostLife.keeps {env : DaemonEnv} {w₀ w : World} {I : FilterTable → Prop}
    (hI : ∀ {table table'}, I table → EdoChange table table' → I table') (h : I w₀.filter)
    (hlife : HostLife env w₀ w) : I w.filter := by
  induction hlife with
  | before => exact h
  | startup _ hvisits ih =>
    apply hvisits.of_wp
    apply callsEdo_restart.preserves (I := fun w : World => I w.filter) _ ih
    exact fun _ _ _ _ hcall h hsem => hI h (.sem hcall hsem)
  | removal _ hvisits ih =>
    apply hvisits.of_wp
    apply callsEdo_removeFirewall.preserves (I := fun w : World => I w.filter) _ ih
    exact fun _ _ _ _ hcall h hsem => hI h (.removal hcall hsem)
  | @session w tasks permits c _ hreach ih =>
    have hinvariant : I c.world.filter ∧ ∀ thread ∈ c.threads,
        Conforms (fun _ _ _ => True) (fun _ op => edoCommand op) (fun _ _ _ => ()) thread.prog
          (returning fun _ φ => φ = ()) thread.phase := by
      apply reach_invariant (J := fun world _ => I world.filter) ?_ ?_ ih hreach
      · exact fun _ _ _ _ _ _ _ h _ hcall hsem _ => ⟨trivial, hI h (.sem hcall hsem)⟩
      · intro thread hthread
        obtain ⟨task, -, rfl⟩ := List.mem_map.mp hthread
        exact Conforms.of_callsOnly callsEdo_task (fun _ h => h) fun _ _ _ => rfl
    exact hinvariant.1
  | drift _ _ ih => exact ih
  | lostDatabase _ ih => exact ih

theorem HostLife.withoutEdo {env : DaemonEnv} {w₀ w : World} (hlife : HostLife env w₀ w) :
    w.filter.withoutEdo = w₀.filter.withoutEdo :=
  hlife.keeps (I := fun table => table.withoutEdo = w₀.filter.withoutEdo)
    (fun h hchange => hchange.withoutEdo.trans h) rfl

theorem HostLife.onlyHooks {env : DaemonEnv} {w₀ w : World} (hlife : HostLife env w₀ w)
    (hforeign : w₀.filter.Foreign) : w.filter.OnlyHooks :=
  hlife.keeps FilterTable.OnlyHooks.change hforeign.onlyHooks

end EdoPlugin
