import EdoPlugin.CallRules
import EdoPlugin.FirewallVerdicts

/-!
# One rebuild of the firewall

`apply_firewall` runs alone, and any of its commands may fail.  Two things are proved about it: when
it returns, `EDO_FORWARD` holds exactly the rules it was called with, whatever the chain held
before; and on the way there the chain is empty.
-/

namespace EdoPlugin

open Interaction

variable {policy : Policy} {G : World → DaemonOp → Prop} {α : Type}
  {Q : Except PyErr α → World → Prop} {w : World}

/-! ## The iptables commands -/

def World.withFilter (w : World) (filter : FilterTable) : World := { w with filter := filter }

@[simp] theorem World.withFilter_filter (w : World) (filter : FilterTable) :
    (w.withFilter filter).filter = filter := rfl

@[simp] theorem World.withFilter_self (w : World) : w.withFilter w.filter = w := rfl

theorem wp_iptables {cmd : IptablesCmd} {f : Except CmdFault Unit → Daemon α}
    (hG : G w (.filter (.iptables cmd)))
    (hrun : wp (daemonSem policy) G (f (w.filter.run cmd).1) Q
      (w.withFilter (w.filter.run cmd).2))
    (hfault : ∀ err, policy (.filter (.iptables cmd)) (some err) →
      wp (daemonSem policy) G (f (.error err)) Q w) :
    wp (daemonSem policy) G (iptables cmd >>= f) Q w := by
  refine wp_callFilter hG ?_
  intro choice hchoice
  cases choice with
  | none => exact hrun
  | some err => exact hfault err hchoice

/-- A check only reads, and it can answer yes only about a rule that is there. -/
theorem wp_iptablesCheck {chain : ChainName} {rule : Rule} {f : Bool → Daemon α}
    (hG : G w (.filter (.iptables (.check chain rule))))
    (hyes : ∀ rules, w.filter chain = some rules → rule ∈ rules →
      wp (daemonSem policy) G (f true) Q w)
    (hno : wp (daemonSem policy) G (f false) Q w) :
    wp (daemonSem policy) G (iptablesCheck chain rule >>= f) Q w := by
  refine wp_bind.mpr (wp_iptables hG ?_ fun _ _ => hno)
  cases hchain : w.filter chain with
  | none => simpa [FilterTable.run, hchain] using hno
  | some rules =>
    by_cases hmem : rule ∈ rules
    · simpa [FilterTable.run, hchain, hmem] using hyes rules hchain hmem
    · simpa [FilterTable.run, hchain, hmem] using hno

/-- Appending a rule the chain does not hold: a success means that it is now the last one. -/
theorem wp_iptablesAppend {chain : ChainName} {rule : Rule} {rules : List Rule}
    (hG : ∀ w op, G w op) (hchain : w.filter chain = some rules)
    (hmem : rule ∉ rules) :
    wp (daemonSem policy) G (iptablesAppend chain rule)
      (returning fun result w' => result.success = true →
        w'.filter chain = some (rules ++ [rule])) w := by
  unfold iptablesAppend
  refine wp_iptablesCheck (hG _ _) ?_ ?_
  · intro rules' hchain' hmem'
    rw [hchain] at hchain'
    cases hchain'
    exact absurd hmem' hmem
  · refine wp_iptables (hG _ _) ?_ ?_
    · by_cases htarget : w.filter.targetExists rule = true
      · simp [FilterTable.run, hchain, htarget, checked, returning]
      · simp [FilterTable.run, hchain, htarget, checked, returning]
    · intro err _
      cases err with
      | nonzero stderr => simp [checked, returning]
      | fileNotFound => simp [checked, returning]

/-! ## Installing the rules -/

/-- The rollback always ends with an error. -/
theorem wp_rollBackRules {rule : Rule} {stderr : String} (hG : ∀ w op, G w op)
    {P : List RuleResult → World → Prop} :
    wp (daemonSem policy) G (rollBackRules rule stderr) (returning P) w := by
  refine wp_bind_returning (wp_mono (wp_trivial hG) (R := returning fun _ _ => True) ?_) ?_
  · intro out _ _
    cases out <;> trivial
  · intro rolledBack w₁ _
    cases rolledBack with
    | ok _ => trivial
    | error err => cases err <;> trivial

/-- If `apply_firewall` gets through its loop, the chain holds the rules in order. -/
theorem wp_installRules {done rules : List Rule} (hG : ∀ w op, G w op)
    (hchain : w.filter .edoForward = some done) (hnodup : (done ++ rules).Nodup) :
    wp (daemonSem policy) G (installRules rules)
      (returning fun _ w' => w'.filter .edoForward = some (done ++ rules)) w := by
  induction rules generalizing w done with
  | nil => simpa [installRules, returning] using hchain
  | cons rule rules ih =>
    have hmem : rule ∉ done := by
      rw [List.nodup_append] at hnodup
      exact fun hmem => hnodup.2.2 rule hmem rule List.mem_cons_self rfl
    unfold installRules
    refine wp_bind_returning (wp_iptablesAppend hG hchain hmem) ?_
    intro result w₁ happended
    by_cases hsuccess : result.success = true
    · rw [if_pos hsuccess]
      have hnodup' : ((done ++ [rule]) ++ rules).Nodup := by simpa using hnodup
      refine wp_bind_returning (ih (happended hsuccess) hnodup') ?_
      intro results w₂ hrest
      simpa [returning] using hrest
    · rw [if_neg hsuccess]
      exact wp_rollBackRules hG

/-! ## Commands on the other chains -/

def IptablesCmd.chain : IptablesCmd → ChainName
  | .newChain chain | .check chain _ | .append chain _ | .insertFirst chain _ | .delete chain _
  | .flush chain | .list chain => chain

/-- A command changes at most the chain it names. -/
theorem FilterTable.run_other {table : FilterTable} {cmd : IptablesCmd} {chain : ChainName}
    (h : cmd.chain ≠ chain) : (table.run cmd).2 chain = table chain := by
  have hupdate : ∀ rules, Function.update table cmd.chain rules chain = table chain :=
    fun rules => Function.update_of_ne h.symm rules table
  cases cmd with
  | newChain c | check c rule | append c rule | insertFirst c rule | delete c rule | flush c
  | list c =>
    simp only [IptablesCmd.chain] at hupdate
    simp only [FilterTable.run]
    repeat' split
    all_goals first | rfl | exact hupdate _

/-- The calls of the firewall plane. -/
def filterCall : DaemonOp → Prop
  | .filter _ => True
  | _ => False

/-- The calls of the firewall plane that spare `EDO_FORWARD`. -/
def sparesForward : DaemonOp → Prop
  | .filter (.iptables cmd) => cmd.chain ≠ .edoForward
  | .filter _ => True
  | _ => False

/-- Only the commands on a chain change it. -/
theorem filter_frame {w w' : World} {op : FilterOp} {res : op.Res} {chain : ChainName}
    (hchain : ∀ cmd, op = .iptables cmd → cmd.chain ≠ chain)
    (hsem : daemonSem policy w (.filter op) res w') : w'.filter chain = w.filter chain := by
  obtain ⟨choice, -, hexec⟩ := hsem
  cases hexec
  cases op with
  | iptables cmd =>
    cases choice with
    | none => exact FilterTable.run_other (hchain cmd rfl)
    | some err => rfl
  | ipRouteShowDefault | firewalldActive => rfl
  | sysctlIpForward | firewallCmd _ => cases choice <;> rfl

theorem sparesForward_filter {w w' : World} {op : DaemonOp} {res : op.Res}
    (hcall : sparesForward op) (hsem : daemonSem policy w op res w') :
    w'.filter .edoForward = w.filter .edoForward := by
  cases op with
  | filter op =>
    apply filter_frame _ hsem
    rintro cmd rfl
    exact hcall
  | db op | docker op | wg op | host op => exact hcall.elim

/-- The calls of `apply_wg_input_rule`. -/
def inputCall : DaemonOp → Prop
  | .filter (.iptables cmd) => cmd.chain = .input ∨ cmd.chain = .edoInput
  | .filter .firewalldActive | .filter (.firewallCmd _) => True
  | _ => False

theorem inputCall_filter {w w' : World} {op : DaemonOp} {res : op.Res} {chain : ChainName}
    (hinput : chain ≠ .input) (hedoInput : chain ≠ .edoInput) (hcall : inputCall op)
    (hsem : daemonSem policy w op res w') : w'.filter chain = w.filter chain := by
  cases op with
  | filter op =>
    apply filter_frame _ hsem
    rintro cmd rfl heq
    rcases hcall with h | h
    · exact hinput (heq.symm.trans h)
    · exact hedoInput (heq.symm.trans h)
  | db op | docker op | wg op | host op => exact hcall.elim

theorem sparesForward_of_inputCall (op : DaemonOp) (h : inputCall op) : sparesForward op := by
  cases op with
  | filter op =>
    cases op with
    | iptables cmd =>
      show cmd.chain ≠ .edoForward
      rcases h with h | h
      · rw [h]
        decide
      · rw [h]
        decide
    | firewalldActive | firewallCmd _ => trivial
    | _ => exact h.elim
  | db op | docker op | wg op | host op => exact h.elim

theorem filterCall_rest {w w' : World} {op : DaemonOp} {res : op.Res} (hcall : filterCall op)
    (hsem : daemonSem policy w op res w') : w' = w.withFilter w'.filter := by
  obtain ⟨choice, -, hexec⟩ := hsem
  cases op with
  | filter op =>
    cases hexec
    rfl
  | db op => exact hcall.elim
  | docker op => exact hcall.elim
  | wg op => exact hcall.elim
  | host op => exact hcall.elim

section CallsOnly

variable {A : DaemonOp → Prop}

theorem callsOnly_iptables {cmd : IptablesCmd} (h : A (.filter (.iptables cmd))) :
    CallsOnly A (iptables cmd) := CallsOnly.perform h

theorem callsOnly_iptablesCheck {chain : ChainName} {rule : Rule}
    (h : A (.filter (.iptables (.check chain rule)))) :
    CallsOnly A (iptablesCheck chain rule) := by
  refine CallsOnly.bind (CallsOnly.perform h) fun result => ?_
  cases result <;> constructor

theorem callsOnly_iptablesAppend {chain : ChainName} {rule : Rule}
    (hcheck : A (.filter (.iptables (.check chain rule))))
    (happend : A (.filter (.iptables (.append chain rule)))) :
    CallsOnly A (iptablesAppend chain rule) := by
  refine CallsOnly.bind (callsOnly_iptablesCheck hcheck) fun present => ?_
  refine CallsOnly.ite .ret (CallsOnly.bind (callsOnly_iptables happend) fun result => ?_)
  split <;> constructor

theorem callsOnly_iptablesDelete {chain : ChainName} {rule : Rule}
    (hcheck : A (.filter (.iptables (.check chain rule))))
    (hdelete : A (.filter (.iptables (.delete chain rule)))) :
    CallsOnly A (iptablesDelete chain rule) := by
  refine CallsOnly.bind (callsOnly_iptablesCheck hcheck) fun present => ?_
  refine CallsOnly.ite (CallsOnly.bind (callsOnly_iptables hdelete) fun result => ?_) .ret
  split <;> constructor

theorem callsOnly_chainExists {chain : ChainName} (h : A (.filter (.iptables (.list chain)))) :
    CallsOnly A (chainExists chain) := by
  refine CallsOnly.bind (callsOnly_iptables h) fun result => ?_
  cases result <;> constructor

theorem callsOnly_unhookEdoFrom {chain : ChainName} (guard : Nat)
    (hcheck : A (.filter (.iptables (.check chain (jumpRule .edoForward)))))
    (hdelete : A (.filter (.iptables (.delete chain (jumpRule .edoForward))))) :
    CallsOnly A (unhookEdoFrom chain guard) := by
  induction guard with
  | zero => exact .ret
  | succ guard ih =>
    refine CallsOnly.bind (callsOnly_iptablesCheck hcheck) fun hooked => CallsOnly.ite ?_ .ret
    refine CallsOnly.bind (callsOnly_iptablesDelete hcheck hdelete) fun _ => ?_
    exact CallsOnly.bind ih fun _ => .ret

end CallsOnly

theorem callsOnly_unhookEdoFromAll {chains : List ChainName}
    (hchains : ∀ chain ∈ chains, chain ≠ .edoForward) :
    CallsOnly sparesForward (unhookEdoFromAll chains) := by
  induction chains with
  | nil => exact .ret
  | cons chain chains ih =>
    have hchain : chain ≠ .edoForward := hchains chain List.mem_cons_self
    have ih := ih fun c hc => hchains c (List.mem_cons_of_mem _ hc)
    refine CallsOnly.bind (callsOnly_chainExists hchain) fun found => CallsOnly.ite ?_ ih
    refine CallsOnly.bind (callsOnly_unhookEdoFrom 5 hchain hchain) fun _ => ?_
    exact CallsOnly.bind ih fun _ => .ret

theorem callsOnly_preferredForwardHook {chains : List ChainName}
    (hchains : ∀ chain ∈ chains, chain ≠ .edoForward) :
    CallsOnly sparesForward (preferredForwardHook chains) := by
  induction chains with
  | nil => exact .ret
  | cons chain chains ih =>
    have hchain : chain ≠ .edoForward := hchains chain List.mem_cons_self
    have ih := ih fun c hc => hchains c (List.mem_cons_of_mem _ hc)
    exact CallsOnly.bind (callsOnly_chainExists hchain) fun found => CallsOnly.ite .ret ih

theorem forwardHookCandidates_ne : ∀ chain ∈ forwardHookCandidates, chain ≠ .edoForward := by
  decide

theorem callsOnly_orRuntimeError {A : DaemonOp → Prop} {what : String}
    {result : Except PyErr Unit} : CallsOnly A (orRuntimeError what result) := by
  unfold orRuntimeError
  split <;> constructor

theorem callsOnly_firewallCmd {args : List String} : CallsOnly inputCall (firewallCmd args) :=
  CallsOnly.bind (CallsOnly.perform trivial) fun _ => .ret

theorem callsOnly_fillInputChain {port : Nat} : CallsOnly inputCall (fillInputChain port) := by
  refine CallsOnly.bind (callsOnly_iptables (Or.inr rfl)) fun flushed => ?_
  split
  · exact .ret
  · exact .raise
  · exact callsOnly_iptablesAppend (Or.inr rfl) (Or.inr rfl)

theorem callsOnly_inputRule {port : Nat} : CallsOnly inputCall (applyWgInputRule port) := by
  refine CallsOnly.bind (CallsOnly.perform trivial) fun active => CallsOnly.ite ?_ ?_
  · refine CallsOnly.bind callsOnly_firewallCmd fun added => ?_
    split
    · exact .ret
    · exact .raise
    · refine CallsOnly.bind callsOnly_firewallCmd fun reloaded => ?_
      split <;> constructor
  · refine CallsOnly.bind (callsOnly_iptables (Or.inr rfl)) fun created => ?_
    refine CallsOnly.bind CallsOnly.ofExcept fun _ => ?_
    refine CallsOnly.bind (callsOnly_iptablesCheck (Or.inl rfl)) fun hooked => ?_
    refine CallsOnly.ite callsOnly_fillInputChain ?_
    refine CallsOnly.bind (callsOnly_iptables (Or.inl rfl)) fun inserted => ?_
    split
    · exact .ret
    · exact .raise
    · exact callsOnly_fillInputChain

theorem callsOnly_applyWgInputRule {port : Nat} :
    CallsOnly sparesForward (applyWgInputRule port) :=
  callsOnly_inputRule.mono sparesForward_of_inputCall

theorem callsOnly_getPublicInterface : CallsOnly sparesForward getPublicInterface := by
  refine CallsOnly.bind (CallsOnly.perform trivial) fun result => ?_
  split <;> constructor

theorem filterCall_of_sparesForward (op : DaemonOp) (h : sparesForward op) : filterCall op := by
  cases op with
  | filter op => trivial
  | db op | docker op | wg op | host op => exact h.elim

theorem callsOnly_installRules {rules : List Rule} :
    CallsOnly filterCall (installRules rules) := by
  induction rules with
  | nil => exact .ret
  | cons rule rules ih =>
    refine CallsOnly.bind (callsOnly_iptablesAppend trivial trivial) fun result => ?_
    refine CallsOnly.ite (CallsOnly.bind ih fun _ => .ret) ?_
    refine CallsOnly.bind (callsOnly_iptables trivial) fun rolledBack => ?_
    exact CallsOnly.bind CallsOnly.ofExcept fun _ => .raise

theorem callsOnly_requirePublicInterface : CallsOnly sparesForward requirePublicInterface := by
  refine CallsOnly.bind callsOnly_getPublicInterface fun iface => ?_
  cases iface <;> constructor

theorem callsOnly_enableForwarding : CallsOnly sparesForward enableForwarding :=
  CallsOnly.bind (CallsOnly.perform trivial) fun _ => callsOnly_orRuntimeError

theorem callsOnly_hookEdoForward : CallsOnly filterCall hookEdoForward := by
  refine CallsOnly.bind (callsOnly_iptables trivial) fun created => ?_
  refine CallsOnly.bind CallsOnly.ofExcept fun _ => ?_
  refine CallsOnly.bind ((callsOnly_unhookEdoFromAll forwardHookCandidates_ne).mono
    filterCall_of_sparesForward) fun _ => ?_
  refine CallsOnly.bind ((callsOnly_preferredForwardHook forwardHookCandidates_ne).mono
    filterCall_of_sparesForward) fun target => ?_
  exact CallsOnly.bind (callsOnly_iptables trivial) fun _ => callsOnly_orRuntimeError

theorem callsOnly_rebuildChain {publicIface : String} {rules : List Rule} {wgPort : Nat} :
    CallsOnly filterCall (rebuildChain publicIface rules wgPort) := by
  refine CallsOnly.bind (callsOnly_iptables trivial) fun flushed => ?_
  refine CallsOnly.bind callsOnly_orRuntimeError fun _ => ?_
  refine CallsOnly.bind callsOnly_installRules fun results => ?_
  exact CallsOnly.bind (callsOnly_applyWgInputRule.mono filterCall_of_sparesForward) fun _ => .ret

theorem callsOnly_applyFirewall {peersByOwner : List (Owner × List IPv4Address)}
    {octetsByOwner : List (Owner × Octet)} {wgPort : Nat} :
    CallsOnly filterCall (applyFirewall peersByOwner octetsByOwner wgPort) := by
  refine CallsOnly.bind (callsOnly_requirePublicInterface.mono filterCall_of_sparesForward) ?_
  intro publicIface
  refine CallsOnly.bind (callsOnly_enableForwarding.mono filterCall_of_sparesForward) fun _ => ?_
  exact CallsOnly.bind callsOnly_hookEdoForward fun _ => callsOnly_rebuildChain

/-! ## What a successful rebuild leaves -/

theorem wp_applyWgInputRule {port : Nat} {rules : Option (List Rule)} (hG : ∀ w op, G w op)
    (hchain : w.filter .edoForward = rules) :
    wp (daemonSem policy) G (applyWgInputRule port)
      (fun _ w' => w'.filter .edoForward = rules) w := by
  refine wp_guard_mono (CallsOnly.preserves
    (I := fun w : World => w.filter .edoForward = rules) callsOnly_applyWgInputRule ?_ hchain)
    fun _ _ _ => hG _ _
  intro w op res w' hcall hw hsem
  rw [sparesForward_filter hcall hsem, hw]

theorem wp_orRuntimeError {what : String} {result : Except PyErr Unit} {f : Unit → Daemon α}
    {P : α → World → Prop}
    (hok : result = .ok () → wp (daemonSem policy) G (f ()) (returning P) w) :
    wp (daemonSem policy) G (orRuntimeError what result >>= f) (returning P) w := by
  cases result with
  | ok _ => exact hok rfl
  | error err => cases err <;> trivial

theorem wp_rebuildChain {publicIface : String} {rules : List Rule} {wgPort : Nat}
    (hG : ∀ w op, G w op) (hnodup : rules.Nodup) :
    wp (daemonSem policy) G (rebuildChain publicIface rules wgPort)
      (returning fun _ w' => w'.filter .edoForward = some rules) w := by
  unfold rebuildChain
  refine wp_iptables (hG _ _) (wp_orRuntimeError ?_) fun err _ => wp_orRuntimeError ?_
  · intro hflushed
    have hempty : (w.withFilter (w.filter.run (.flush .edoForward)).2).filter .edoForward =
        some [] := by
      cases hchain : w.filter .edoForward with
      | none => simp [FilterTable.run, hchain, checked] at hflushed
      | some old => simp [FilterTable.run, hchain]
    refine wp_bind_returning (wp_installRules hG hempty (by simpa using hnodup)) ?_
    intro results w₁ hinstalled
    exact wp_seq (wp_applyWgInputRule hG hinstalled) (fun _ _ hkept => hkept) fun _ _ _ => trivial
  · intro hflushed
    cases err <;> cases hflushed

theorem wp_returning_trivial {p : Daemon α} (hG : ∀ w op, G w op) :
    wp (daemonSem policy) G p (returning fun _ _ => True) w := by
  refine wp_mono (wp_trivial hG) ?_
  intro out _ _
  cases out <;> trivial

/-- **A rebuild that returns leaves exactly its rules**, whatever the chain held before and
    whichever other command failed on the way. -/
theorem wp_applyFirewall {peersByOwner : List (Owner × List IPv4Address)}
    {octetsByOwner : List (Owner × Octet)} {wgPort : Nat} (hG : ∀ w op, G w op)
    (hnodup : ∀ publicIface, (buildChainRules publicIface peersByOwner octetsByOwner).Nodup) :
    wp (daemonSem policy) G (applyFirewall peersByOwner octetsByOwner wgPort)
      (returning fun _ w' => ∃ publicIface, w'.filter .edoForward =
        some (buildChainRules publicIface peersByOwner octetsByOwner)) w := by
  unfold applyFirewall
  refine wp_bind_returning (wp_returning_trivial hG) fun publicIface w₁ _ => ?_
  refine wp_bind_returning (wp_returning_trivial hG) fun _ w₂ _ => ?_
  refine wp_bind_returning (wp_returning_trivial hG) fun _ w₃ _ => ?_
  refine wp_mono (wp_rebuildChain hG (hnodup publicIface)) ?_
  intro out w' hrebuilt
  cases out with
  | ok result => exact ⟨publicIface, hrebuilt⟩
  | error err => trivial

/-! ## The window in which the chain is empty -/

/-- `EDO_FORWARD` is hooked into one of the chains that see forwarded packets. -/
def FilterTable.Hooked (table : FilterTable) : Prop :=
  ∃ chain ∈ forwardHookCandidates, ∃ rules, table chain = some rules ∧
    jumpRule .edoForward ∈ rules

/-- A packet that passes the hook is dropped in `EDO_FORWARD`. -/
def FilterTable.Drops (table : FilterTable) (packet : Packet) : Prop :=
  table.Hooked ∧ ∃ rules, table .edoForward = some rules ∧ verdict rules packet = some .drop

/-- The packets a rebuild must not let through: between two VPN clients, and between the subnets of
    two different octets. -/
def MustStayDropped (packet : Packet) : Prop :=
  (wgSubnet.contains packet.source = true ∧ wgSubnet.contains packet.destination = true) ∨
  ∃ octet octet', octet ≠ octet' ∧ (ownerSubnet octet).contains packet.source = true ∧
    (ownerSubnet octet').contains packet.destination = true

/-- At no point of a rebuild, whichever of its commands fail, does a packet pass that was dropped
    before. -/
def FailsClosed (w : World) (peersByOwner : List (Owner × List IPv4Address))
    (octetsByOwner : List (Owner × Octet)) (wgPort : Nat) : Prop :=
  ∀ w', Visits (daemonSem anyFault) (applyFirewall peersByOwner octetsByOwner wgPort) w w' →
    ∀ packet, MustStayDropped packet → w.filter.Drops packet → w'.filter.Drops packet

/-- `EDO_FORWARD` holds these rules, and there is a chain it can be hooked into. -/
structure Hookable (rules : List Rule) (w : World) : Prop where
  chain : w.filter .edoForward = some rules
  target : ∃ target ∈ forwardHookCandidates, (w.filter target).isSome = true

theorem FilterTable.run_isSome {table : FilterTable} {cmd : IptablesCmd} {chain : ChainName}
    (h : (table chain).isSome = true) : ((table.run cmd).2 chain).isSome = true := by
  have hupdate : ∀ c rules, (Function.update table c (some rules) chain).isSome = true := by
    intro c rules
    by_cases hc : chain = c
    · simp [hc]
    · simpa [Function.update_of_ne hc] using h
  cases cmd with
  | newChain c | check c rule | append c rule | insertFirst c rule | delete c rule | flush c
  | list c =>
    simp only [FilterTable.run]
    repeat' split
    all_goals first | exact h | exact hupdate _ _

/-- A command that runs never reports a missing binary. -/
theorem FilterTable.run_ne_fileNotFound (table : FilterTable) (cmd : IptablesCmd) :
    (table.run cmd).1 ≠ .error .fileNotFound := by
  cases cmd with
  | newChain c | check c rule | append c rule | insertFirst c rule | delete c rule | flush c
  | list c =>
    simp only [FilterTable.run]
    repeat' split
    all_goals simp

theorem Hookable.exec {rules : List Rule} {w w' : World} {op : DaemonOp} {res : op.Res}
    (hcall : sparesForward op) (h : Hookable rules w) (hsem : daemonSem policy w op res w') :
    Hookable rules w' := by
  refine ⟨by rw [sparesForward_filter hcall hsem, h.chain], ?_⟩
  obtain ⟨target, hmem, hsome⟩ := h.target
  refine ⟨target, hmem, ?_⟩
  obtain ⟨choice, -, hexec⟩ := hsem
  cases op with
  | filter op =>
    cases hexec
    cases op with
    | iptables cmd =>
      cases choice with
      | none => exact FilterTable.run_isSome hsome
      | some err => exact hsome
    | ipRouteShowDefault | firewalldActive => exact hsome
    | sysctlIpForward | firewallCmd _ => cases choice <;> exact hsome
  | db op => exact hcall.elim
  | docker op => exact hcall.elim
  | wg op => exact hcall.elim
  | host op => exact hcall.elim

theorem Hookable.preserved {rules : List Rule} {w : World} {p : Daemon α} (h : Hookable rules w)
    (hp : CallsOnly sparesForward p) :
    wp (daemonSem noFault) (fun w _ => Hookable rules w) p (fun _ w' => Hookable rules w') w :=
  hp.preserves (fun _ _ _ _ hcall hw hsem => hw.exec hcall hsem) h

/-- The program returns whenever no command fails. -/
def Returns (p : Daemon α) (w : World) : Prop :=
  wp (daemonSem noFault) (fun _ _ => True) p (fun out _ => ∃ value, out = .ok value) w

theorem Returns.iptablesDelete {chain : ChainName} {rule : Rule} :
    Returns (iptablesDelete chain rule) w := by
  refine wp_iptablesCheck trivial ?_ ⟨_, rfl⟩
  intro rules _ _
  refine wp_iptables trivial ?_ ?_
  · have hne := w.filter.run_ne_fileNotFound (.delete chain rule)
    generalize (w.filter.run (.delete chain rule)).1 = result at hne
    cases result with
    | ok _ => exact ⟨_, rfl⟩
    | error err =>
      cases err with
      | nonzero stderr => exact ⟨_, rfl⟩
      | fileNotFound => exact absurd rfl hne
  · rintro err ⟨⟩

theorem Returns.seq {β : Type} {p : Daemon β} {f : β → Daemon α} (hp : Returns p w)
    (hf : ∀ value w', Returns (f value) w') : Returns (p >>= f) w := by
  refine wp_seq hp ?_ ?_
  · intro value w' _
    exact hf value w'
  · rintro err w' ⟨value, ⟨⟩⟩

theorem Returns.iptablesCheck {chain : ChainName} {rule : Rule} {f : Bool → Daemon α}
    (hyes : Returns (f true) w) (hno : Returns (f false) w) :
    Returns (iptablesCheck chain rule >>= f) w :=
  wp_iptablesCheck trivial (fun _ _ _ => hyes) hno

theorem Returns.unhookEdoFrom {chain : ChainName} (guard : Nat) :
    Returns (unhookEdoFrom chain guard) w := by
  induction guard generalizing w with
  | zero => exact ⟨_, rfl⟩
  | succ guard ih =>
    refine Returns.iptablesCheck (Returns.seq Returns.iptablesDelete fun _ _ => ?_) ⟨_, rfl⟩
    exact Returns.seq ih fun _ _ => ⟨_, rfl⟩

/-- Without failures `chainExists` tells the truth. -/
theorem wp_chainExists {chain : ChainName} {f : Bool → Daemon α} {Q : Except PyErr α → World → Prop}
    (h : wp (daemonSem noFault) (fun _ _ => True) (f (w.filter chain).isSome) Q w) :
    wp (daemonSem noFault) (fun _ _ => True) (chainExists chain >>= f) Q w := by
  refine wp_bind.mpr (wp_iptables trivial ?_ ?_)
  · cases hchain : w.filter chain with
    | none => simpa [FilterTable.run, hchain] using h
    | some rules => simpa [FilterTable.run, hchain] using h
  · rintro err ⟨⟩

theorem Returns.unhookEdoFromAll (chains : List ChainName) :
    Returns (unhookEdoFromAll chains) w := by
  induction chains generalizing w with
  | nil => exact ⟨_, rfl⟩
  | cons chain chains ih =>
    refine wp_chainExists ?_
    refine wp_ite ?_ ih
    refine Returns.seq (Returns.unhookEdoFrom 5) fun _ _ => ?_
    exact Returns.seq ih fun _ _ => ⟨_, rfl⟩

/-- The hook is a candidate that exists. -/
theorem wp_preferredForwardHook {chains : List ChainName}
    (h : ∃ target ∈ chains, (w.filter target).isSome = true) :
    wp (daemonSem noFault) (fun _ _ => True) (preferredForwardHook chains)
      (fun out w' => w' = w ∧ ∃ target ∈ chains, out = .ok target ∧
        (w.filter target).isSome = true) w := by
  induction chains with
  | nil => simp at h
  | cons chain chains ih =>
    refine wp_chainExists ?_
    by_cases hchain : (w.filter chain).isSome = true
    · rw [if_pos hchain]
      exact ⟨rfl, chain, List.mem_cons_self, rfl, hchain⟩
    · rw [if_neg hchain]
      obtain ⟨target, hmem, hsome⟩ := h
      rcases List.mem_cons.mp hmem with rfl | hmem
      · exact absurd hsome hchain
      · refine wp_mono (ih ⟨target, hmem, hsome⟩) ?_
        rintro out w' ⟨rfl, target', hmem', hout⟩
        exact ⟨rfl, target', List.mem_cons_of_mem _ hmem', hout⟩

/-- Without failures the hooking succeeds and leaves the rules of the chain alone. -/
theorem wp_hookEdoForward {rules : List Rule} (h : Hookable rules w) :
    wp (daemonSem noFault) (fun _ _ => True) hookEdoForward
      (fun out w' => (∃ value, out = .ok value) ∧ w'.filter .edoForward = some rules) w := by
  unfold hookEdoForward
  refine wp_iptables trivial ?_ (by rintro err ⟨⟩)
  have hcreated : w.filter.run (.newChain .edoForward) =
      (.error (.nonzero "iptables: Chain already exists."), w.filter) := by
    simp [FilterTable.run, h.chain]
  rw [hcreated]
  show wp _ _ (unhookEdoFromAll forwardHookCandidates >>= fun _ => _) _ w
  refine wp_seq (wp_guard_mono (wp_and (h.preserved
    (callsOnly_unhookEdoFromAll forwardHookCandidates_ne))
    (Returns.unhookEdoFromAll forwardHookCandidates)) fun _ _ _ => trivial) ?_ ?_
  · rintro _ w₁ ⟨hhookable, -⟩
    refine wp_seq (wp_preferredForwardHook hhookable.target) ?_ ?_
    · rintro target w₂ ⟨rfl, _, hmem, ⟨⟩, hsome⟩
      obtain ⟨old, hold⟩ := Option.isSome_iff_exists.mp hsome
      have hne : ChainName.edoForward ≠ target :=
        (forwardHookCandidates_ne target hmem).symm
      have htarget : w₂.filter.targetExists (jumpRule .edoForward) = true := by
        simp [FilterTable.targetExists, jumpRule, hhookable.chain]
      have hinserted : w₂.filter.run (.insertFirst target (jumpRule .edoForward)) =
          (.ok (), Function.update w₂.filter target (some (jumpRule .edoForward :: old))) := by
        simp [FilterTable.run, hold, htarget]
      refine wp_iptables trivial ?_ (by rintro err ⟨⟩)
      rw [hinserted]
      refine ⟨⟨_, rfl⟩, ?_⟩
      show Function.update w₂.filter target _ .edoForward = some rules
      rw [Function.update_of_ne hne]
      exact hhookable.chain
    · rintro err w₂ ⟨-, target, -, ⟨⟩, -⟩
  · rintro err w₁ ⟨-, value, ⟨⟩⟩

theorem exists_ends_filterCall {p : Daemon α} (hp : CallsOnly filterCall p) (w : World) :
    ∃ out w', Ends (daemonSem noFault) p w out w' := by
  refine hp.exists_ends ?_ w
  intro w op hcall
  cases op with
  | filter op => exact ⟨_, _, quietChoice (.filter op), noFault_quietChoice (.filter op), rfl⟩
  | db op => exact hcall.elim
  | docker op => exact hcall.elim
  | wg op => exact hcall.elim
  | host op => exact hcall.elim

theorem ends_hookEdoForward {rules : List Rule} (h : Hookable rules w) :
    ∃ w', Ends (daemonSem noFault) hookEdoForward w (.ok ()) w' ∧
      w'.filter .edoForward = some rules := by
  obtain ⟨out, w', hends⟩ := exists_ends_filterCall callsOnly_hookEdoForward w
  obtain ⟨⟨value, rfl⟩, hchain⟩ := hends.of_wp (wp_hookEdoForward h)
  exact ⟨w', hends, hchain⟩

/-- **Every rebuild opens the chain.**  From any state in which `EDO_FORWARD` can be hooked, a
    rebuild whose commands all succeed passes through a state in which the chain is empty. -/
theorem visits_empty_chain {rules : List Rule} (h : Hookable rules w)
    (peersByOwner : List (Owner × List IPv4Address)) (octetsByOwner : List (Owner × Octet))
    (wgPort : Nat) :
    ∃ w', Visits (daemonSem noFault) (applyFirewall peersByOwner octetsByOwner wgPort) w w' ∧
      w'.filter .edoForward = some [] := by
  have hiface : Ends (daemonSem noFault) requirePublicInterface w (.ok "eth0") w :=
    Ends.bind (ends_callFilter (quietChoice (.filter .ipRouteShowDefault)) ⟨_, rfl⟩ Ends.ret)
      Ends.ret
  have hforwarding : Ends (daemonSem noFault) enableForwarding w (.ok ()) w :=
    ends_callFilter none rfl Ends.ret
  obtain ⟨w₁, hhook, hchain⟩ := ends_hookEdoForward h
  have hflushed : w₁.filter.run (.flush .edoForward) =
      (.ok (), Function.update w₁.filter .edoForward (some [])) := by
    simp [FilterTable.run, hchain]
  refine ⟨w₁.withFilter (w₁.filter.run (.flush .edoForward)).2, ?_, by simp [hflushed]⟩
  refine Visits.bind hiface (Visits.bind hforwarding (Visits.bind hhook ?_))
  refine Visits.call ⟨none, rfl, rfl⟩ (Visits.start (exists_ends_filterCall ?_ _))
  exact CallsOnly.next callsOnly_rebuildChain _

theorem Hookable.of_hooked {rules : List Rule} (hhooked : w.filter.Hooked)
    (hchain : w.filter .edoForward = some rules) : Hookable rules w := by
  obtain ⟨target, hmem, old, hold, -⟩ := hhooked
  exact ⟨hchain, target, hmem, by rw [hold]; rfl⟩

/-- Two VPN addresses. -/
def clientToClient : Packet := ⟨dotted 10 8 0 2, dotted 10 8 0 3, "wg0"⟩

/-- The first rule of every list drops packets between VPN addresses. -/
theorem verdict_clientToClient (publicIface : String)
    (peersByOwner : List (Owner × List IPv4Address)) (octetsByOwner : List (Owner × Octet)) :
    verdict (buildChainRules publicIface peersByOwner octetsByOwner) clientToClient =
      some .drop := by
  have hfirst : ruleSemantics.decides clientToClient participantIsolation = some .drop := by
    rw [participantIsolation_decides, if_pos (by decide)]
  unfold verdict buildChainRules
  rw [List.append_assoc, List.append_assoc, List.singleton_append, FirstMatch.firstMatch_cons,
    hfirst]
  rfl

/-- The packet passes in the state in which the chain is empty. -/
theorem FailsClosed.false_of_hookable {rules : List Rule}
    {peersByOwner : List (Owner × List IPv4Address)} {octetsByOwner : List (Owner × Octet)}
    {wgPort : Nat} (hclosed : FailsClosed w peersByOwner octetsByOwner wgPort)
    (hhookable : Hookable rules w) (hdrops : w.filter.Drops clientToClient) : False := by
  obtain ⟨w', ⟨trace, out, last, hrun, hmem⟩, hempty⟩ :=
    visits_empty_chain hhookable peersByOwner octetsByOwner wgPort
  have hvisits : Visits (daemonSem anyFault) _ w w' :=
    ⟨trace, out, last, hrun.mono anyFault_of_noFault, hmem⟩
  obtain ⟨-, rules', hrules', hverdict⟩ :=
    hclosed w' hvisits clientToClient (Or.inl (by decide)) hdrops
  rw [hempty] at hrules'
  cases hrules'
  cases hverdict

/-- **Rebuilds do not fail closed.**  From every state in which `EDO_FORWARD` is hooked and holds
    the rules of an earlier rebuild, and for every rebuild, a packet between two VPN clients that
    was dropped passes at some point; no command needs to fail for that. -/
theorem not_failsClosed (w : World) (publicIface : String)
    (peersByOwner : List (Owner × List IPv4Address)) (octetsByOwner : List (Owner × Octet))
    (peersByOwner' : List (Owner × List IPv4Address)) (octetsByOwner' : List (Owner × Octet))
    (wgPort : Nat) (hhooked : w.filter.Hooked)
    (hchain : w.filter .edoForward =
      some (buildChainRules publicIface peersByOwner octetsByOwner)) :
    ¬ FailsClosed w peersByOwner' octetsByOwner' wgPort := by
  intro hclosed
  exact hclosed.false_of_hookable (Hookable.of_hooked hhooked hchain)
    ⟨hhooked, _, hchain, verdict_clientToClient _ _ _⟩

/-- `EDO_FORWARD` as the first rebuild leaves it on a host with one participant. -/
def afterFirstRebuild : World where
  db := Db.empty
  docker := Docker.empty
  filter := fun chain => match chain with
    | .dockerUser => some [jumpRule .edoForward]
    | .edoForward => some (buildChainRules "eth0" [(⟨"team", 1⟩, [dotted 10 8 0 2])] [])
    | .forward | .input => some []
    | .edoInput => none
  wg := ⟨"", [], []⟩
  spawnPermits := 4

theorem afterFirstRebuild_hooked : afterFirstRebuild.filter.Hooked :=
  ⟨.dockerUser, by decide, _, rfl, List.mem_cons_self⟩

theorem not_failsClosed_afterFirstRebuild : ¬ FailsClosed afterFirstRebuild [] [] 51820 :=
  not_failsClosed afterFirstRebuild "eth0" [(⟨"team", 1⟩, [dotted 10 8 0 2])] [] [] [] 51820
    afterFirstRebuild_hooked rfl

/-- A second participant's rebuild opens the first one's chain. -/
theorem not_failsClosed_second_participant :
    ¬ ∀ (w : World) (publicIface : String) (peersByOwner : List (Owner × List IPv4Address))
      (octetsByOwner : List (Owner × Octet)) (peersByOwner' : List (Owner × List IPv4Address))
      (octetsByOwner' : List (Owner × Octet)) (wgPort : Nat), w.filter.Hooked →
      w.filter .edoForward = some (buildChainRules publicIface peersByOwner octetsByOwner) →
      FailsClosed w peersByOwner' octetsByOwner' wgPort := by
  intro hall
  have hclosed := hall afterFirstRebuild "eth0" [(⟨"team", 1⟩, [dotted 10 8 0 2])] []
    [(⟨"team", 1⟩, [dotted 10 8 0 2]), (⟨"team", 2⟩, [dotted 10 8 0 3])] [] 51820
    afterFirstRebuild_hooked rfl
  exact hclosed.false_of_hookable (Hookable.of_hooked afterFirstRebuild_hooked rfl)
    ⟨afterFirstRebuild_hooked, _, rfl, verdict_clientToClient _ _ _⟩

end EdoPlugin
