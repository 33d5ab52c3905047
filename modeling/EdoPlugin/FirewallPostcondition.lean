import EdoPlugin.FirewallRebuild

/-!
# What a rebuild of the firewall leaves

`apply_firewall` on a host whose commands succeed, from any filter table: the three chains afterwards
are computed from the three chains before.  The check before each append drops the later copies of a
rule, which were never the first to match, and the loop that removes old hooks removes them all, so a
second call finds and leaves the same chains.
-/

namespace EdoPlugin

open Interaction FirstMatch

/-! ## Commands that succeed -/

/-- Every command succeeds, and the default route goes through this interface. -/
def routedThrough (iface : String) : Policy
  | .filter .ipRouteShowDefault, words => ∃ ws, words = .ok ws ∧ wordAfterDev ws = some iface
  | op, choice => noFault op choice

section Commands

variable {iface : String} {α : Type} {Q : Except PyErr α → World → Prop} {w : World}
  {chain : ChainName} {rule : Rule}

abbrev Succeeds (iface : String) (p : Daemon α) (Q : Except PyErr α → World → Prop) (w : World) :
    Prop :=
  wp (daemonSem (routedThrough iface)) (fun _ _ => True) p Q w

theorem succeeds_iptables {cmd : IptablesCmd} {f : Except CmdFault Unit → Daemon α}
    (h : Succeeds iface (f (w.filter.run cmd).1) Q (w.withFilter (w.filter.run cmd).2)) :
    Succeeds iface (iptables cmd >>= f) Q w :=
  wp_iptables trivial h fun _ hfault => by cases hfault

/-- The rule is in the chain. -/
def FilterTable.holds (table : FilterTable) (chain : ChainName) (rule : Rule) : Bool :=
  (table chain).any fun rules => rules.contains rule

/-- `iptables -C` tests exact presence. -/
theorem succeeds_iptablesCheck {f : Bool → Daemon α}
    (h : Succeeds iface (f (w.filter.holds chain rule)) Q w) :
    Succeeds iface (iptablesCheck chain rule >>= f) Q w := by
  apply wp_bind.mpr
  apply succeeds_iptables
  unfold FilterTable.holds at h
  cases hchain : w.filter chain with
  | none => simpa [FilterTable.run, hchain] using h
  | some rules =>
    by_cases hmem : rule ∈ rules
    · simpa [FilterTable.run, hchain, hmem] using h
    · simpa [FilterTable.run, hchain, hmem] using h

theorem succeeds_chainExists {f : Bool → Daemon α}
    (h : Succeeds iface (f (w.filter chain).isSome) Q w) :
    Succeeds iface (chainExists chain >>= f) Q w := by
  apply wp_bind.mpr
  apply succeeds_iptables
  cases hchain : w.filter chain with
  | none => simpa [FilterTable.run, hchain] using h
  | some rules => simpa [FilterTable.run, hchain] using h

/-! ## Rules -/

/-- A rule is appended unless the chain has it. -/
theorem succeeds_iptablesAppend {done : List Rule} {f : RuleResult → Daemon α}
    (hchain : w.filter chain = some done.eraseDups) (htarget : w.filter.targetExists rule = true)
    (h : ∀ result, result.success = true → Succeeds iface (f result) Q
      (w.withFilter (Function.update w.filter chain (some (done ++ [rule]).eraseDups)))) :
    Succeeds iface (iptablesAppend chain rule >>= f) Q w := by
  apply wp_bind.mpr
  apply succeeds_iptablesCheck
  rw [eraseDups_concat] at h
  by_cases hmem : rule ∈ done
  · have hholds : w.filter.holds chain rule = true := by
      simpa [FilterTable.holds, hchain] using hmem
    rw [if_pos hmem] at h
    have hsame : Function.update w.filter chain (some done.eraseDups) = w.filter := by
      rw [← hchain, Function.update_eq_self]
    rw [hsame] at h
    rw [hholds]
    exact h _ rfl
  · have hholds : w.filter.holds chain rule = false := by
      simpa [FilterTable.holds, hchain] using hmem
    rw [if_neg hmem] at h
    rw [hholds]
    apply succeeds_iptables
    simp only [FilterTable.run, hchain, htarget, if_true, checked]
    exact h _ rfl

/-- A rule with a verdict jumps to no chain that could be missing. -/
theorem targetExists_of_verdict {table : FilterTable} (h : rule.target.verdict ≠ none) :
    table.targetExists rule = true := by
  unfold FilterTable.targetExists
  cases htarget : rule.target with
  | accept | drop => rfl
  | jump chain =>
    rw [htarget] at h
    exact absurd rfl h

/-- The loop appends the rules in order, and omits those that are there. -/
theorem succeeds_installRules (done : List Rule) {rules : List Rule}
    (hchain : w.filter .edoForward = some done.eraseDups)
    (hverdicts : ∀ rule ∈ rules, rule.target.verdict ≠ none) :
    Succeeds iface (installRules rules) (fun out w' => (∃ results, out = .ok results) ∧
      w' = w.withFilter (Function.update w.filter .edoForward (some (done ++ rules).eraseDups))) w := by
  induction rules generalizing w done with
  | nil =>
    refine ⟨⟨[], rfl⟩, ?_⟩
    rw [List.append_nil, ← hchain, Function.update_eq_self, World.withFilter_self]
  | cons rule rules ih =>
    apply succeeds_iptablesAppend hchain
      (targetExists_of_verdict (hverdicts rule List.mem_cons_self))
    intro result hsuccess
    rw [if_pos hsuccess]
    apply wp_seq (ih (done ++ [rule]) (by simp)
      fun other hother => hverdicts other (List.mem_cons_of_mem _ hother))
    · rintro results w' ⟨-, rfl⟩
      refine ⟨⟨_, rfl⟩, ?_⟩
      simp [World.withFilter]
    · rintro err w' ⟨⟨results, h⟩, -⟩
      cases h

/-! ## Hooks -/

/-- The rules of a chain other than the jump. -/
def withoutJump (rules : List Rule) : List Rule := rules.filter fun rule => rule ≠ jumpRule .edoForward

theorem withoutJump_erase (rules : List Rule) :
    withoutJump (rules.erase (jumpRule .edoForward)) = withoutJump rules := by
  unfold withoutJump
  rw [← List.erase_filter]
  apply List.erase_of_not_mem
  simp

theorem withoutJump_of_count_eq_zero {rules : List Rule}
    (h : rules.count (jumpRule .edoForward) = 0) : withoutJump rules = rules := by
  apply List.filter_eq_self.mpr
  intro rule hmem
  have hother : jumpRule .edoForward ∉ rules := List.count_eq_zero.mp h
  exact decide_eq_true fun heq => hother (heq ▸ hmem)

/-- The loop removes every jump, if its guard allows for as many. -/
theorem succeeds_unhookEdoFrom {rules : List Rule} {guard : Nat}
    (hchain : w.filter chain = some rules) (hcount : rules.count (jumpRule .edoForward) ≤ guard) :
    Succeeds iface (unhookEdoFrom chain guard) (fun out w' => (∃ results, out = .ok results) ∧
      w' = w.withFilter (Function.update w.filter chain (some (withoutJump rules)))) w := by
  induction guard generalizing w rules with
  | zero =>
    refine ⟨⟨[], rfl⟩, ?_⟩
    rw [withoutJump_of_count_eq_zero (Nat.le_zero.mp hcount), ← hchain, Function.update_eq_self,
      World.withFilter_self]
  | succ guard ih =>
    apply succeeds_iptablesCheck
    by_cases hmem : jumpRule .edoForward ∈ rules
    · have hholds : w.filter.holds chain (jumpRule .edoForward) = true := by
        simpa [FilterTable.holds, hchain] using hmem
      have hdelete : w.filter.run (.delete chain (jumpRule .edoForward)) =
          (.ok (), Function.update w.filter chain (some (rules.erase (jumpRule .edoForward)))) := by
        simp [FilterTable.run, hchain, hmem]
      rw [hholds, if_pos rfl]
      apply wp_seq (R := fun out w' => (∃ result, out = .ok result) ∧ w' =
        w.withFilter (Function.update w.filter chain (some (rules.erase (jumpRule .edoForward)))))
      · apply succeeds_iptablesCheck
        rw [hholds, if_pos rfl]
        apply succeeds_iptables
        rw [hdelete]
        exact ⟨⟨_, rfl⟩, rfl⟩
      · rintro result w₁ ⟨-, rfl⟩
        have hfewer : (rules.erase (jumpRule .edoForward)).count (jumpRule .edoForward) ≤ guard := by
          rw [List.count_erase_self]
          omega
        apply wp_seq (ih (by simp) hfewer)
        · rintro results w₂ ⟨-, rfl⟩
          refine ⟨⟨_, rfl⟩, ?_⟩
          simp [World.withFilter, withoutJump_erase]
        · rintro err w₂ ⟨⟨results, h⟩, -⟩
          cases h
      · rintro err w₁ ⟨⟨result, h⟩, -⟩
        cases h
    · have hholds : w.filter.holds chain (jumpRule .edoForward) = false := by
        simpa [FilterTable.holds, hchain] using hmem
      rw [hholds]
      refine ⟨⟨[], rfl⟩, ?_⟩
      rw [withoutJump_of_count_eq_zero (List.count_eq_zero.mpr hmem), ← hchain,
        Function.update_eq_self, World.withFilter_self]

/-- The chains without their jumps. -/
def FilterTable.unhooked (table : FilterTable) (chains : List ChainName) : FilterTable := fun chain =>
  if chain ∈ chains then (table chain).map withoutJump else table chain

theorem FilterTable.unhooked_cons {table : FilterTable} {chains : List ChainName}
    (hnew : chain ∉ chains) : table.unhooked (chain :: chains) =
      FilterTable.unhooked (Function.update table chain ((table chain).map withoutJump)) chains := by
  funext other
  unfold FilterTable.unhooked
  by_cases hother : other = chain
  · subst hother
    simp [hnew]
  · simp [hother]

/-- At most as many jumps as the guard of the loop allows for. -/
def FilterTable.FewJumps (table : FilterTable) : Prop :=
  ∀ chain ∈ forwardHookCandidates, ∀ rules, table chain = some rules →
    rules.count (jumpRule .edoForward) ≤ 5

theorem succeeds_unhookEdoFromAll {chains : List ChainName} (hnodup : chains.Nodup)
    (hcounts : ∀ chain ∈ chains, ∀ rules, w.filter chain = some rules →
      rules.count (jumpRule .edoForward) ≤ 5) :
    Succeeds iface (unhookEdoFromAll chains) (fun out w' => (∃ results, out = .ok results) ∧
      w' = w.withFilter (w.filter.unhooked chains)) w := by
  induction chains generalizing w with
  | nil =>
    refine ⟨⟨[], rfl⟩, ?_⟩
    have hsame : w.filter.unhooked [] = w.filter := by
      funext chain
      simp [FilterTable.unhooked]
    rw [hsame, World.withFilter_self]
  | cons chain chains ih =>
    obtain ⟨hnew, hnodup⟩ := List.nodup_cons.mp hnodup
    rw [FilterTable.unhooked_cons hnew]
    apply succeeds_chainExists
    cases hchain : w.filter chain with
    | none =>
      have hsame : Function.update w.filter chain (none : Option (List Rule)) = w.filter := by
        rw [← hchain, Function.update_eq_self]
      rw [Option.map_none, hsame]
      exact ih hnodup fun other hother => hcounts other (List.mem_cons_of_mem _ hother)
    | some rules =>
      apply wp_seq (succeeds_unhookEdoFrom hchain (hcounts chain List.mem_cons_self rules hchain))
      · rintro results w₁ ⟨-, rfl⟩
        apply wp_seq (ih hnodup ?_)
        · rintro rest w₂ ⟨-, rfl⟩
          exact ⟨⟨_, rfl⟩, rfl⟩
        · rintro err w₂ ⟨⟨rest, h⟩, -⟩
          cases h
        · intro other hother rules' hrules'
          have hne : other ≠ chain := fun heq => hnew (heq ▸ hother)
          rw [World.withFilter_filter, Function.update_of_ne hne] at hrules'
          exact hcounts other (List.mem_cons_of_mem _ hother) rules' hrules'
      · rintro err w₁ ⟨⟨results, h⟩, -⟩
        cases h

/-- `_preferred_forward_hook` -/
def FilterTable.hookTarget (table : FilterTable) : ChainName :=
  if (table .dockerUser).isSome then .dockerUser else .forward

theorem succeeds_preferredForwardHook :
    Succeeds iface (preferredForwardHook forwardHookCandidates)
      (fun out w' => out = .ok w.filter.hookTarget ∧ w' = w) w := by
  unfold FilterTable.hookTarget
  apply succeeds_chainExists
  cases hdocker : (w.filter .dockerUser).isSome with
  | true => exact ⟨rfl, rfl⟩
  | false =>
    apply succeeds_chainExists
    cases hforward : (w.filter .forward).isSome with
    | true => exact ⟨rfl, rfl⟩
    | false => exact ⟨rfl, rfl⟩

/-- What becomes of a hook chain: the target chain starts with the jump, no other place has one. -/
def FilterTable.rehook (table : FilterTable) (chain : ChainName) (rules : List Rule) : List Rule :=
  if chain = table.hookTarget then jumpRule .edoForward :: withoutJump rules
  else withoutJump rules

/-- `EDO_FORWARD` exists, and is hooked where it belongs. -/
structure HookedFrom (table table' : FilterTable) : Prop where
  exists_chain : (table' .edoForward).isSome = true
  hooks : ∀ chain ∈ forwardHookCandidates, table' chain = (table chain).map (table.rehook chain)

theorem hookTarget_mem {table : FilterTable} : table.hookTarget ∈ forwardHookCandidates := by
  unfold FilterTable.hookTarget
  split <;> decide

/-- A new chain, or the one there is. -/
theorem run_newChain (table : FilterTable) (chain : ChainName) :
    unchecked "iptables" (table.run (.newChain chain)).1 = .ok () ∧
      ((table.run (.newChain chain)).2 chain).isSome = true := by
  cases hchain : table chain with
  | none => simp [FilterTable.run, hchain, unchecked]
  | some rules => simp [FilterTable.run, hchain, unchecked]

/-- `EDO_FORWARD` is made if it is not there, and the target chain gets its only jump. -/
theorem succeeds_hookEdoForward (hforward : (w.filter .forward).isSome = true)
    (hcounts : w.filter.FewJumps) :
    Succeeds iface hookEdoForward (fun out w' => out = .ok () ∧ HookedFrom w.filter w'.filter) w := by
  obtain ⟨hcreated, hexists⟩ := run_newChain w.filter .edoForward
  have hcandidates : ∀ chain ∈ forwardHookCandidates,
      (w.filter.run (.newChain .edoForward)).2 chain = w.filter chain :=
    fun chain hchain => FilterTable.run_other (forwardHookCandidates_ne chain hchain).symm
  apply succeeds_iptables
  rw [hcreated]
  generalize (w.filter.run (.newChain .edoForward)).2 = table at hexists hcandidates
  have htarget : ∀ chain ∈ forwardHookCandidates,
      table.unhooked forwardHookCandidates chain = (w.filter chain).map withoutJump := by
    intro chain hchain
    unfold FilterTable.unhooked
    rw [if_pos hchain, hcandidates chain hchain]
  have hsame : (table.unhooked forwardHookCandidates).hookTarget = w.filter.hookTarget := by
    unfold FilterTable.hookTarget
    rw [htarget .dockerUser (by decide), Option.isSome_map]
  have hkept : table.unhooked forwardHookCandidates .edoForward = table .edoForward :=
    if_neg (by decide)
  apply wp_seq (succeeds_unhookEdoFromAll (w := w.withFilter table) (by decide) ?_)
  · rintro _ w₁ ⟨-, rfl⟩
    apply wp_seq succeeds_preferredForwardHook
    · rintro target w₂ ⟨heq, rfl⟩
      cases heq
      have hsome : ∃ rules, w.filter w.filter.hookTarget = some rules := by
        apply Option.isSome_iff_exists.mp
        unfold FilterTable.hookTarget
        split
        · assumption
        · exact hforward
      obtain ⟨rules, hrules⟩ := hsome
      simp only [World.withFilter_filter, hsame]
      generalize table.unhooked forwardHookCandidates = unhooked at htarget hkept
      have hchain := htarget w.filter.hookTarget hookTarget_mem
      rw [hrules, Option.map_some] at hchain
      have hjump : unhooked.targetExists (jumpRule .edoForward) = true := by
        simpa [FilterTable.targetExists, jumpRule, hkept] using hexists
      have hinserted : unhooked.run (.insertFirst w.filter.hookTarget (jumpRule .edoForward)) =
          (.ok (), Function.update unhooked w.filter.hookTarget
            (some (jumpRule .edoForward :: withoutJump rules))) := by
        simp [FilterTable.run, hchain, hjump]
      apply succeeds_iptables
      simp only [World.withFilter_filter, hinserted]
      refine ⟨rfl, ?_, ?_⟩
      · have hne : ChainName.edoForward ≠ w.filter.hookTarget :=
          (forwardHookCandidates_ne _ hookTarget_mem).symm
        rw [World.withFilter_filter, Function.update_of_ne hne, hkept]
        exact hexists
      · intro chain hmem
        unfold FilterTable.rehook
        by_cases heq : chain = w.filter.hookTarget
        · simp [heq, hrules]
        · rw [World.withFilter_filter, Function.update_of_ne heq]
          simp [heq, htarget chain hmem]
    · rintro err w₂ ⟨h, -⟩
      cases h
  · rintro err w₁ ⟨⟨results, h⟩, -⟩
    cases h
  · intro chain hchain rules hrules
    rw [World.withFilter_filter, hcandidates chain hchain] at hrules
    exact hcounts chain hchain rules hrules

/-! ## The input chain -/

/-- The port is opened, or the result says why not: no exception reaches `apply_firewall`. -/
theorem succeeds_firewallCmd {args : List String} {f : Except PyErr Unit → Daemon α}
    (h : Succeeds iface (f (.ok ())) Q w) : Succeeds iface (firewallCmd args >>= f) Q w := by
  apply wp_bind.mpr
  apply wp_callFilter trivial
  rintro choice ⟨⟩
  exact h

/-- A command that ran reports success, or what it wrote to its error stream. -/
theorem checked_run (table : FilterTable) (cmd : IptablesCmd) :
    checked "iptables" (table.run cmd).1 = .ok () ∨
      ∃ stderr, checked "iptables" (table.run cmd).1 = .error (.calledProcessError stderr) := by
  have hne := table.run_ne_fileNotFound cmd
  generalize (table.run cmd).1 = result at hne
  cases result with
  | ok _ => exact .inl rfl
  | error err =>
    cases err with
    | nonzero stderr => exact .inr ⟨stderr, rfl⟩
    | fileNotFound => exact absurd rfl hne

theorem succeeds_fillInputChain {port : Nat} :
    Succeeds iface (fillInputChain port) (fun out _ => ∃ result, out = .ok result) w := by
  apply succeeds_iptables
  rcases checked_run w.filter (.flush .edoInput) with hflushed | ⟨stderr, hflushed⟩
  · rw [hflushed]
    apply succeeds_iptablesCheck
    split
    · exact ⟨_, rfl⟩
    · apply succeeds_iptables
      generalize w.withFilter _ = w₁
      rcases checked_run w₁.filter (.append .edoInput (wgInputRule port)) with
        happended | ⟨stderr, happended⟩
      · rw [happended]
        exact ⟨_, rfl⟩
      · rw [happended]
        exact ⟨_, rfl⟩
  · rw [hflushed]
    exact ⟨_, rfl⟩

theorem succeeds_applyWgInputRule {port : Nat} :
    Succeeds iface (applyWgInputRule port) (fun out w' => (∃ result, out = .ok result) ∧
      ∀ chain, chain ≠ .input → chain ≠ .edoInput → w'.filter chain = w.filter chain) w := by
  have hkept : Succeeds iface (applyWgInputRule port) (fun _ w' =>
      ∀ chain, chain ≠ .input → chain ≠ .edoInput → w'.filter chain = w.filter chain) w := by
    apply wp_guard_mono (callsOnly_inputRule.preserves (I := fun w' : World => ∀ chain,
      chain ≠ .input → chain ≠ .edoInput → w'.filter chain = w.filter chain) _ fun _ _ _ => rfl) fun _ _ _ => trivial
    intro w₁ op res w₂ hcall hw₁ hsem chain hinput hedoInput
    rw [inputCall_filter hinput hedoInput hcall hsem, hw₁ chain hinput hedoInput]
  apply wp_and _ hkept
  apply wp_callFilter trivial
  intro active _
  split
  · apply succeeds_firewallCmd
    apply succeeds_firewallCmd
    exact ⟨_, rfl⟩
  · apply succeeds_iptables
    rw [(run_newChain _ _).1]
    apply succeeds_iptablesCheck
    split
    · exact succeeds_fillInputChain
    · apply succeeds_iptables
      generalize World.withFilter _ _ = w₁
      rcases checked_run w₁.filter (.insertFirst .input (jumpRule .edoInput)) with
        hinserted | ⟨stderr, hinserted⟩
      · rw [hinserted]
        exact succeeds_fillInputChain
      · rw [hinserted]
        exact ⟨_, rfl⟩

/-! ## The whole call -/

theorem buildChainRules_verdict {publicIface : String}
    {peersByOwner : List (Owner × List IPv4Address)} {octetsByOwner : List (Owner × Octet)} :
    ∀ rule ∈ buildChainRules publicIface peersByOwner octetsByOwner,
      rule.target.verdict ≠ none := by
  have haccepts : ∀ rule ∈ ownerAccepts peersByOwner octetsByOwner, rule.target = .accept := by
    intro rule hrule
    obtain ⟨_, _, hrule⟩ := List.mem_flatMap.mp hrule
    obtain ⟨_, _, hrule⟩ := List.mem_flatMap.mp hrule
    simp only [acceptPair, List.mem_cons, List.not_mem_nil, or_false] at hrule
    rcases hrule with rfl | rfl
    · rfl
    · rfl
  intro rule hrule
  simp only [buildChainRules, List.mem_append, List.mem_singleton] at hrule
  rcases hrule with ((rfl | hrule) | rfl) | rfl
  · simp [participantIsolation, Target.verdict]
  · simp [haccepts rule hrule, Target.verdict]
  · simp [crossOwnerIsolation, Target.verdict]
  · simp [egressContainment, Target.verdict]

theorem succeeds_rebuildChain {publicIface : String} {rules : List Rule} {wgPort : Nat}
    (hexists : (w.filter .edoForward).isSome = true)
    (hverdicts : ∀ rule ∈ rules, rule.target.verdict ≠ none) :
    Succeeds iface (rebuildChain publicIface rules wgPort) (fun out w' =>
      (∃ result, out = .ok result) ∧ w'.filter .edoForward = some rules.eraseDups ∧
      ∀ chain ∈ forwardHookCandidates, w'.filter chain = w.filter chain) w := by
  obtain ⟨old, hold⟩ := Option.isSome_iff_exists.mp hexists
  have hflushed : w.filter.run (.flush .edoForward) =
      (.ok (), Function.update w.filter .edoForward (some [])) := by
    simp [FilterTable.run, hold]
  apply succeeds_iptables
  rw [hflushed]
  apply wp_seq (succeeds_installRules [] (by simp) hverdicts)
  · rintro results w₁ ⟨-, rfl⟩
    apply wp_seq succeeds_applyWgInputRule
    · rintro result w₂ ⟨-, hkept⟩
      refine ⟨⟨_, rfl⟩, ?_, ?_⟩
      · rw [hkept .edoForward (by decide) (by decide)]
        simp
      · intro chain hchain
        have hne := forwardHookCandidates_ne chain hchain
        have hinput : ∀ chain ∈ forwardHookCandidates, chain ≠ .input ∧ chain ≠ .edoInput := by
          decide
        rw [hkept chain (hinput chain hchain).1 (hinput chain hchain).2]
        simp [hne]
    · rintro err w₂ ⟨⟨result, h⟩, -⟩
      cases h
  · rintro err w₁ ⟨⟨results, h⟩, -⟩
    cases h

theorem succeeds_getPublicInterface {f : Option String → Daemon α}
    (h : Succeeds iface (f (some iface)) Q w) : Succeeds iface (getPublicInterface >>= f) Q w := by
  apply wp_bind.mpr
  apply wp_callFilter trivial
  rintro choice ⟨words, rfl, hdev⟩
  rw [← hdev] at h
  exact h

theorem succeeds_requirePublicInterface {f : String → Daemon α} (h : Succeeds iface (f iface) Q w) :
    Succeeds iface (requirePublicInterface >>= f) Q w := by
  apply wp_bind.mpr
  apply succeeds_getPublicInterface
  exact h

theorem succeeds_applyFirewall {peersByOwner : List (Owner × List IPv4Address)}
    {octetsByOwner : List (Owner × Octet)} {wgPort : Nat}
    (hforward : (w.filter .forward).isSome = true) (hcounts : w.filter.FewJumps) :
    Succeeds iface (applyFirewall peersByOwner octetsByOwner wgPort) (fun out w' =>
      (∃ result, out = .ok result) ∧ HookedFrom w.filter w'.filter ∧ w'.filter .edoForward =
        some (buildChainRules iface peersByOwner octetsByOwner).eraseDups) w := by
  apply succeeds_requirePublicInterface
  apply wp_callFilter trivial
  rintro choice ⟨⟩
  apply wp_seq (succeeds_hookEdoForward hforward hcounts)
  · rintro _ w₁ ⟨-, hhooked⟩
    apply wp_mono (succeeds_rebuildChain hhooked.exists_chain buildChainRules_verdict)
    rintro out w₂ ⟨hout, hrules, hkept⟩
    refine ⟨hout, ⟨?_, ?_⟩, hrules⟩
    · rw [hrules]
      rfl
    · intro chain hchain
      rw [hkept chain hchain, hhooked.hooks chain hchain]
  · rintro err w₁ ⟨h, -⟩
    cases h

end Commands

/-! ## The postcondition -/

section Rehook

variable {table table' table'' : FilterTable} {chain : ChainName}

theorem count_withoutJump (rules : List Rule) :
    (withoutJump rules).count (jumpRule .edoForward) = 0 := by
  apply List.count_eq_zero.mpr
  simp [withoutJump]

theorem withoutJump_rehook (rules : List Rule) :
    withoutJump (table.rehook chain rules) = withoutJump rules := by
  unfold FilterTable.rehook
  split
  · simp [withoutJump]
  · simp [withoutJump]

theorem count_rehook (rules : List Rule) : (table.rehook chain rules).count (jumpRule .edoForward) =
    if chain = table.hookTarget then 1 else 0 := by
  unfold FilterTable.rehook
  split
  · rw [List.count_cons_self, count_withoutJump]
  · exact count_withoutJump rules

theorem HookedFrom.isSome (h : HookedFrom table table') (hchain : chain ∈ forwardHookCandidates) :
    (table' chain).isSome = (table chain).isSome := by
  rw [h.hooks chain hchain, Option.isSome_map]

theorem HookedFrom.hookTarget (h : HookedFrom table table') :
    table'.hookTarget = table.hookTarget := by
  unfold FilterTable.hookTarget
  rw [h.isSome (by decide)]

theorem HookedFrom.fewJumps (h : HookedFrom table table') : table'.FewJumps := by
  intro chain hchain rules hrules
  rw [h.hooks chain hchain] at hrules
  obtain ⟨old, -, rfl⟩ := Option.map_eq_some_iff.mp hrules
  rw [count_rehook]
  split <;> decide

/-- The second call finds the hook chains as it would leave them. -/
theorem HookedFrom.again (h : HookedFrom table table') (h' : HookedFrom table' table'')
    (hchain : chain ∈ forwardHookCandidates) : table'' chain = table' chain := by
  have htwice : ∀ rules, table'.rehook chain (table.rehook chain rules) =
      table.rehook chain rules := by
    intro rules
    unfold FilterTable.rehook
    rw [h.hookTarget]
    split
    · simp [withoutJump]
    · simp [withoutJump]
  rw [h'.hooks chain hchain, h.hooks chain hchain, Option.map_map]
  congr 1
  funext rules
  exact htwice rules

end Rehook

/-- The number of rules `-j EDO_FORWARD` in the two hook chains. -/
def FilterTable.jumps (table : FilterTable) : Nat :=
  (forwardHookCandidates.map fun chain =>
    ((table chain).getD []).count (jumpRule .edoForward)).sum

/-- What the call promises about the filter table, for the rules it builds. -/
structure Rebuilt (rules : List Rule) (table table' : FilterTable) : Prop where
  chain : table' .edoForward = some rules.eraseDups
  verdicts : ∀ packet, verdict rules.eraseDups packet = verdict rules packet
  hooked : ∃ others, table' table.hookTarget = some (jumpRule .edoForward :: others)
  once : table'.jumps = 1
  others : ∀ chain ∈ forwardHookCandidates,
    (table' chain).map withoutJump = (table chain).map withoutJump

theorem HookedFrom.rebuilt {table table' : FilterTable} {rules : List Rule}
    (h : HookedFrom table table') (hforward : (table .forward).isSome = true)
    (hchain : table' .edoForward = some rules.eraseDups) : Rebuilt rules table table' := by
  refine ⟨hchain, fun packet => firstMatch_eraseDups rules packet, ?_, ?_, ?_⟩
  · have hsome : (table table.hookTarget).isSome = true := by
      unfold FilterTable.hookTarget
      split
      · assumption
      · exact hforward
    obtain ⟨old, hold⟩ := Option.isSome_iff_exists.mp hsome
    refine ⟨withoutJump old, ?_⟩
    rw [h.hooks _ hookTarget_mem, hold]
    simp [FilterTable.rehook]
  · obtain ⟨forward, hforward⟩ := Option.isSome_iff_exists.mp hforward
    simp only [FilterTable.jumps, forwardHookCandidates, List.map_cons, List.map_nil, List.sum_cons,
      List.sum_nil, h.hooks .dockerUser (by decide), h.hooks .forward (by decide), hforward]
    cases hdocker : table .dockerUser with
    | none => simp [count_rehook, FilterTable.hookTarget, hdocker]
    | some docker => simp [count_rehook, FilterTable.hookTarget, hdocker]
  · intro chain hmem
    rw [h.hooks chain hmem, Option.map_map]
    congr 1
    funext rules
    exact withoutJump_rehook rules

theorem exists_ends_applyFirewall {peersByOwner : List (Owner × List IPv4Address)}
    {octetsByOwner : List (Owner × Octet)} {wgPort : Nat} (iface : String) (w : World) :
    ∃ out w', Ends (daemonSem (routedThrough iface))
      (applyFirewall peersByOwner octetsByOwner wgPort) w out w' := by
  apply callsOnly_applyFirewall.exists_ends
  intro w op hcall
  cases op with
  | filter op =>
    cases op with
    | ipRouteShowDefault => exact ⟨_, _, .ok ["dev", iface], ⟨_, rfl, rfl⟩, rfl⟩
    | firewalldActive => exact ⟨_, _, false, trivial, rfl⟩
    | sysctlIpForward | firewallCmd _ | iptables _ => exact ⟨_, _, none, rfl, rfl⟩
  | db op | docker op | wg op | host op => exact hcall.elim

/-- **What a rebuild leaves.**  From any filter table with at most five jumps in a hook chain, a call
    whose commands succeed returns.  It installs its rules without the later duplicates and its only
    hook, keeps the other rules of the hook chains, and a second call changes none of the three
    chains. -/
theorem applyFirewall_rebuilt (iface : String) (peersByOwner : List (Owner × List IPv4Address))
    (octetsByOwner : List (Owner × Octet)) (wgPort : Nat) (w : World)
    (hforward : (w.filter .forward).isSome = true) (hcounts : w.filter.FewJumps) :
    (∃ out w', Ends (daemonSem (routedThrough iface))
      (applyFirewall peersByOwner octetsByOwner wgPort) w out w') ∧
    ∀ out w', Ends (daemonSem (routedThrough iface))
        (applyFirewall peersByOwner octetsByOwner wgPort) w out w' →
      (∃ result, out = .ok result) ∧
      Rebuilt (buildChainRules iface peersByOwner octetsByOwner) w.filter w'.filter ∧
      ∀ out' w'', Ends (daemonSem (routedThrough iface))
          (applyFirewall peersByOwner octetsByOwner wgPort) w' out' w'' →
        (∃ result, out' = .ok result) ∧
        ∀ chain ∈ [.edoForward, .dockerUser, .forward], w''.filter chain = w'.filter chain := by
  constructor
  · exact exists_ends_applyFirewall iface w
  · intro out w' hends
    obtain ⟨hout, hhooked, hrules⟩ := hends.of_wp (succeeds_applyFirewall hforward hcounts)
    refine ⟨hout, hhooked.rebuilt hforward hrules, ?_⟩
    intro out' w'' hends'
    have hforward' : (w'.filter .forward).isSome = true := by
      rw [hhooked.isSome (by decide), hforward]
    obtain ⟨hout', hhooked', hrules'⟩ :=
      hends'.of_wp (succeeds_applyFirewall hforward' hhooked.fewJumps)
    refine ⟨hout', ?_⟩
    intro chain hchain
    by_cases hedo : chain = .edoForward
    · rw [hedo, hrules', hrules]
    · apply hhooked.again hhooked'
      simpa [forwardHookCandidates, hedo] using hchain

/-- Both hook chains jump, `EDO_FORWARD` drops everything, and Docker has a rule of its own. -/
def hookedTwice : World where
  db := Db.empty
  docker := Docker.empty
  filter := fun chain => match chain with
    | .dockerUser => some [⟨none, none, some "docker0", [], .accept⟩, jumpRule .edoForward]
    | .forward => some [jumpRule .edoForward, ⟨none, none, none, [], .drop⟩]
    | .edoForward => some [⟨none, none, none, [], .drop⟩]
    | .input | .edoInput => none
  wg := ⟨"", [], []⟩
  spawnPermits := 4

theorem applyFirewall_rebuilt_hookedTwice : ∃ out w', Ends (daemonSem (routedThrough "eth0"))
    (applyFirewall [(⟨"team", 1⟩, [dotted 10 8 0 2, dotted 10 8 0 2])] [(⟨"team", 1⟩, ⟨1, by decide⟩)]
      51820) hookedTwice out w' ∧
    Rebuilt (buildChainRules "eth0" [(⟨"team", 1⟩, [dotted 10 8 0 2, dotted 10 8 0 2])]
      [(⟨"team", 1⟩, ⟨1, by decide⟩)]) hookedTwice.filter w'.filter := by
  have hcounts : hookedTwice.filter.FewJumps := by
    intro chain hchain rules hrules
    simp only [forwardHookCandidates, List.mem_cons, List.not_mem_nil, or_false] at hchain
    rcases hchain with rfl | rfl
    · cases hrules
      decide
    · cases hrules
      decide
  obtain ⟨⟨out, w', hends⟩, hrebuilt⟩ := applyFirewall_rebuilt "eth0"
    [(⟨"team", 1⟩, [dotted 10 8 0 2, dotted 10 8 0 2])] [(⟨"team", 1⟩, ⟨1, by decide⟩)] 51820
    hookedTwice rfl hcounts
  exact ⟨out, w', hends, (hrebuilt out w' hends).2.1⟩

end EdoPlugin
