import EdoPlugin.HostLife

/-!
# What the removal of the firewall leaves

`remove_firewall` on a host whose commands succeed, whatever the daemon has been through on it: every
jump is deleted before the chain that it goes to, so no deletion finds a chain in use, and what is
left is the filter table of the host before the daemon.
-/

namespace EdoPlugin

open Interaction

/-! ## Commands that succeed -/

/-- Every command succeeds, and firewalld does not run. -/
def unmanaged (iface : String) : Policy
  | .filter .firewalldActive, active => active = false
  | op, choice => routedThrough iface op choice

def removalSem (iface : String) : Sem (daemonEffect.sum deleteChainEffect) World :=
  (daemonSem (unmanaged iface)).shared (deleteChainSem fun _ fault => fault = none)

abbrev Removes {α : Type} (iface : String) (p : Removal α) (Q : Except PyErr α → World → Prop)
    (w : World) : Prop :=
  wp (removalSem iface) (fun _ _ => True) p Q w

section Removal

variable {iface : String} {α β : Type} {Q : Except PyErr α → World → Prop} {w : World}
  {chain own : ChainName} {rules : List Rule} {table : FilterTable}

theorem daemonSem_unmanaged {w w' : World} {op : DaemonOp} {res : op.Res}
    (hsem : daemonSem (unmanaged iface) w op res w') :
    daemonSem (routedThrough iface) w op res w' := by
  obtain ⟨choice, hchoice, hexec⟩ := hsem
  refine ⟨choice, ?_, hexec⟩
  cases op with
  | filter op =>
    cases op with
    | firewalldActive => trivial
    | _ => exact hchoice
  | _ => exact hchoice

theorem removes_seq {p : Removal β} {f : β → Removal α} {P : Except PyErr β → World → Prop}
    (hp : Removes iface p P w)
    (hok : ∀ value w', P (.ok value) w' → Removes iface (f value) Q w')
    (herror : ∀ err w', P (.error err) w' → Q (.error err) w') : Removes iface (p >>= f) Q w := by
  apply wp_bind.mpr
  apply wp_mono hp
  intro out w' hout
  cases out with
  | ok value => exact hok value w' hout
  | error err => exact herror err w' hout

/-- A part that only the daemon's own calls are made in. -/
theorem removes_callDaemon {p : Daemon β} {f : β → Removal α}
    {P : Except PyErr β → World → Prop} (hp : Succeeds iface p P w)
    (hok : ∀ value w', P (.ok value) w' → Removes iface (f value) Q w')
    (herror : ∀ err w', P (.error err) w' → Q (.error err) w') :
    Removes iface (Removal.callDaemon p >>= f) Q w := by
  apply removes_seq (P := P) _ hok herror
  apply wp_first_shared
  apply wp_sem_mono fun _ _ _ _ => daemonSem_unmanaged
  apply wp_mono hp
  intro out w' hout
  rw [translated_id]
  exact hout

theorem removes_chainExists {f : Bool → Removal α}
    (h : Removes iface (f (w.filter chain).isSome) Q w) :
    Removes iface (Removal.callDaemon (chainExists chain) >>= f) Q w := by
  have hlist : Succeeds iface (chainExists chain)
      (fun out w' => out = .ok (w.filter chain).isSome ∧ w' = w) w := by
    apply succeeds_iptables
    cases hchain : w.filter chain with
    | none => simp [FilterTable.run, hchain]
    | some rules => simp [FilterTable.run, hchain]
  apply removes_callDaemon hlist
  · rintro _ _ ⟨⟨⟩, rfl⟩
    exact h
  · rintro _ _ ⟨⟨⟩, -⟩

theorem removes_iptablesCheck {rule : Rule} {f : Bool → Removal α}
    (h : Removes iface (f (w.filter.holds chain rule)) Q w) :
    Removes iface (Removal.callDaemon (iptablesCheck chain rule) >>= f) Q w := by
  have hcheck : Succeeds iface (iptablesCheck chain rule)
      (fun out w' => out = .ok (w.filter.holds chain rule) ∧ w' = w) w := by
    apply succeeds_iptables
    unfold FilterTable.holds
    cases hchain : w.filter chain with
    | none => simp [FilterTable.run, hchain]
    | some rules => by_cases hmem : rule ∈ rules <;> simp [FilterTable.run, hchain, hmem]
  apply removes_callDaemon hcheck
  · rintro _ _ ⟨⟨⟩, rfl⟩
    exact h
  · rintro _ _ ⟨⟨⟩, -⟩

theorem removes_iptables {cmd : IptablesCmd} {f : Except CmdFault Unit → Removal α}
    (h : Removes iface (f (w.filter.run cmd).1) Q (w.withFilter (w.filter.run cmd).2)) :
    Removes iface (Removal.callDaemon (iptables cmd) >>= f) Q w := by
  have hrun : Succeeds iface (iptables cmd) (fun out w' => out = .ok (w.filter.run cmd).1 ∧
      w' = w.withFilter (w.filter.run cmd).2) w := by
    apply wp_callFilter trivial
    rintro choice ⟨⟩
    exact ⟨rfl, rfl⟩
  apply removes_callDaemon hrun
  · rintro _ _ ⟨⟨⟩, rfl⟩
    exact h
  · rintro _ _ ⟨⟨⟩, -⟩

/-- No rule jumps to the chain. -/
def FilterTable.Unreferenced (table : FilterTable) (own : ChainName) : Prop :=
  ∀ chain rules, table chain = some rules → ∀ rule ∈ rules, rule.target ≠ .jump own

theorem FilterTable.Unreferenced.referenced (h : table.Unreferenced own) :
    table.referenced own = false := by
  apply Bool.eq_false_iff.mpr
  intro hreferenced
  obtain ⟨chain, -, hany⟩ := List.any_eq_true.mp hreferenced
  obtain ⟨rules, hchain, hany⟩ := (Option.any_eq_true _ _).mp hany
  obtain ⟨rule, hrule, htarget⟩ := List.any_eq_true.mp hany
  exact h chain rules hchain rule hrule (of_decide_eq_true htarget)

theorem FilterTable.Unreferenced.update {value : Option (List Rule)} (h : table.Unreferenced own)
    (hvalue : ∀ rules, value = some rules → rules = []) :
    FilterTable.Unreferenced (Function.update table chain value) own := by
  intro other rules hother rule hrule
  by_cases hsame : other = chain
  · rw [hsame, Function.update_self] at hother
    rw [hvalue rules hother] at hrule
    cases hrule
  · rw [Function.update_of_ne hsame] at hother
    exact h other rules hother rule hrule

theorem removes_deleteChain {f : Except CmdFault Unit → Removal α} (hchain : w.filter chain = some [])
    (hreferenced : w.filter.Unreferenced chain)
    (h : Removes iface (f (.ok ())) Q (w.withFilter (Function.update w.filter chain none))) :
    Removes iface (Removal.deleteChain chain >>= f) Q w := by
  have hdelete : w.filter.deleteChain chain = (.ok (), Function.update w.filter chain none) := by
    unfold FilterTable.deleteChain
    rw [hchain]
    simp [hreferenced.referenced]
  refine ⟨trivial, ?_⟩
  rintro res w' ⟨_, rfl, rfl, rfl⟩
  rw [hdelete]
  exact h

theorem removes_removeForwardChain (hreferenced : w.filter.Unreferenced .edoForward) :
    Removes iface Removal.removeForwardChain (fun out w' =>
      (∃ results, out = .ok results ∧ ∀ result ∈ results, result.success = true) ∧
        w' = w.withFilter (Function.update w.filter .edoForward none)) w := by
  apply removes_chainExists
  cases hchain : w.filter .edoForward with
  | none =>
    refine ⟨⟨[], rfl, fun _ h => by cases h⟩, ?_⟩
    rw [← hchain, Function.update_eq_self, World.withFilter_self]
  | some rules =>
    apply removes_iptables
    simp only [FilterTable.run, hchain, Removal.reported, checked, Prog.pure_eq, Prog.bind_eq,
      Prog.bind_ret]
    apply removes_deleteChain
    · simp
    · exact hreferenced.update fun _ h => (Option.some.inj h).symm
    · refine ⟨⟨_, rfl, ?_⟩, ?_⟩
      · simp
      · simp [World.withFilter]

/-- The jump in the input chain. -/
def unhookInput (table : FilterTable) : FilterTable :=
  Function.update table .input
    ((table .input).map fun rules => rules.filter fun rule => rule ≠ jumpRule .edoInput)

theorem removes_removeInputChain (hreferenced : w.filter.Unreferenced .edoInput) :
    Removes iface Removal.removeInputChain (fun out w' =>
      (∃ result, out = .ok result ∧ result.success = true) ∧
        w' = w.withFilter (Function.update w.filter .edoInput none)) w := by
  apply removes_chainExists
  cases hchain : w.filter .edoInput with
  | none =>
    refine ⟨⟨_, rfl, rfl⟩, ?_⟩
    rw [← hchain, Function.update_eq_self, World.withFilter_self]
  | some rules =>
    apply removes_iptables
    simp only [FilterTable.run, hchain, checked]
    apply removes_deleteChain
    · simp
    · exact hreferenced.update fun _ h => (Option.some.inj h).symm
    · refine ⟨⟨_, rfl, rfl⟩, ?_⟩
      simp [World.withFilter]

theorem unhookInput_of_count_eq_zero
    (h : ∀ rules, table .input = some rules → rules.count (jumpRule .edoInput) = 0) :
    unhookInput table = table := by
  have hsame : (table .input).map (fun rules => rules.filter fun rule => rule ≠ jumpRule .edoInput) =
      table .input := by
    cases hinput : table .input with
    | none => rfl
    | some rules =>
      rw [Option.map_some, List.filter_eq_self.mpr]
      intro rule hrule
      have hother : jumpRule .edoInput ∉ rules := List.count_eq_zero.mp (h rules hinput)
      exact decide_eq_true fun heq => hother (heq ▸ hrule)
  rw [unhookInput, hsame, Function.update_eq_self]

/-- One deletion is enough for one jump. -/
theorem unhookInput_erase {rules : List Rule} (hinput : table .input = some rules)
    (hcount : rules.count (jumpRule .edoInput) ≤ 1) :
    Function.update table .input (some (rules.erase (jumpRule .edoInput))) = unhookInput table := by
  have hnone : (rules.erase (jumpRule .edoInput)).count (jumpRule .edoInput) = 0 := by
    rw [List.count_erase_self]
    omega
  have herased : (rules.erase (jumpRule .edoInput)).filter (fun rule => rule ≠ jumpRule .edoInput) =
      rules.erase (jumpRule .edoInput) := by
    apply List.filter_eq_self.mpr
    intro rule hrule
    have hother := List.count_eq_zero.mp hnone
    exact decide_eq_true fun heq => hother (heq ▸ hrule)
  rw [unhookInput, hinput, Option.map_some, ← filter_ne_erase, herased]

theorem succeeds_unhookInput
    (hfew : ∀ rules, w.filter .input = some rules → rules.count (jumpRule .edoInput) ≤ 1)
    (hheld : w.filter.holds .input (jumpRule .edoInput) = true) :
    Succeeds iface (iptablesDelete .input (jumpRule .edoInput)) (fun out w' =>
      (∃ result, out = .ok result) ∧ w' = w.withFilter (unhookInput w.filter)) w := by
  apply succeeds_iptablesCheck
  rw [hheld, if_pos rfl]
  apply succeeds_iptables
  obtain ⟨rules, hinput, hmem⟩ := (Option.any_eq_true _ _).mp hheld
  have hdelete : w.filter.run (.delete .input (jumpRule .edoInput)) =
      (.ok (), unhookInput w.filter) := by
    rw [← unhookInput_erase hinput (hfew rules hinput)]
    simp [FilterTable.run, hinput, List.contains_iff_mem.mp hmem]
  rw [hdelete]
  exact ⟨⟨_, rfl⟩, rfl⟩

theorem removes_removeWgInputRule {port : Nat}
    (hfew : ∀ rules, w.filter .input = some rules → rules.count (jumpRule .edoInput) ≤ 1)
    (hreferenced : FilterTable.Unreferenced (unhookInput w.filter) .edoInput) :
    Removes iface (Removal.removeWgInputRule port) (fun out w' =>
      (∃ result, out = .ok result ∧ result.success = true) ∧
        w' = w.withFilter (Function.update (unhookInput w.filter) .edoInput none)) w := by
  have hrest : Removes iface Removal.removeInputChain (fun out w' =>
      (∃ result, out = .ok result ∧ result.success = true) ∧
        w' = w.withFilter (Function.update (unhookInput w.filter) .edoInput none))
      (w.withFilter (unhookInput w.filter)) :=
    removes_removeInputChain hreferenced
  have hactive : wp (daemonSem (unmanaged iface)) (fun _ _ => True) (callFilter .firewalldActive)
      (fun out w' => out = .ok false ∧ w' = w) w := by
    apply wp_callFilter trivial
    rintro choice ⟨⟩
    exact ⟨rfl, rfl⟩
  apply wp_bind.mpr
  apply wp_first_shared
  apply wp_mono hactive
  rintro _ _ ⟨rfl, hunchanged⟩
  rw [hunchanged]
  apply removes_iptablesCheck
  by_cases hheld : w.filter.holds .input (jumpRule .edoInput) = true
  · rw [if_pos hheld]
    apply removes_callDaemon (succeeds_unhookInput hfew hheld)
    · rintro _ _ ⟨-, rfl⟩
      exact hrest
    · rintro _ _ ⟨⟨result, h⟩, -⟩
      cases h
  · rw [if_neg hheld]
    have hnone : ∀ rules, w.filter .input = some rules → rules.count (jumpRule .edoInput) = 0 := by
      intro rules hinput
      apply List.count_eq_zero.mpr
      intro hmem
      apply hheld
      simpa [FilterTable.holds, hinput] using hmem
    rw [unhookInput_of_count_eq_zero hnone, World.withFilter_self] at hrest
    rw [unhookInput_of_count_eq_zero hnone]
    exact hrest

/-! ## The whole removal -/

theorem FilterTable.OnlyHooks.unhooked (h : table.OnlyHooks) :
    FilterTable.Unreferenced (table.unhooked forwardHookCandidates) .edoForward := by
  intro chain rules hchain rule hrule htarget
  unfold FilterTable.unhooked at hchain
  by_cases hcandidate : chain ∈ forwardHookCandidates
  · rw [if_pos hcandidate] at hchain
    obtain ⟨old, hold, rfl⟩ := Option.map_eq_some_iff.mp hchain
    obtain ⟨hmem, hne⟩ := List.mem_filter.mp hrule
    have hhook := (h chain old hold rule hmem .edoForward rfl htarget).2
    rw [← (hookRule_of_candidate hcandidate).2] at hhook
    exact of_decide_eq_true hne hhook
  · rw [if_neg hcandidate] at hchain
    obtain ⟨hothers, rfl⟩ := h chain rules hchain rule hrule .edoForward rfl htarget
    cases chain with
    | dockerUser | forward => exact hcandidate (by decide)
    | edoForward | edoInput => cases hothers
    | input => cases htarget

/-- The table once the forward chain is gone. -/
def FilterTable.withoutForward (table : FilterTable) : FilterTable :=
  Function.update (table.unhooked forwardHookCandidates) .edoForward none

theorem FilterTable.withoutForward_input : table.withoutForward .input = table .input := rfl

theorem FilterTable.OnlyHooks.unhookInput (h : table.OnlyHooks) :
    FilterTable.Unreferenced (EdoPlugin.unhookInput table.withoutForward) .edoInput := by
  intro chain rules hchain rule hrule htarget
  by_cases hinput : chain = .input
  · subst hinput
    rw [EdoPlugin.unhookInput, Function.update_self, FilterTable.withoutForward_input] at hchain
    obtain ⟨old, hold, rfl⟩ := Option.map_eq_some_iff.mp hchain
    obtain ⟨hmem, hne⟩ := List.mem_filter.mp hrule
    exact of_decide_eq_true hne (h .input old hold rule hmem .edoInput rfl htarget).2
  · rw [EdoPlugin.unhookInput, Function.update_of_ne hinput] at hchain
    obtain ⟨old, hold, hmem⟩ : ∃ old, table chain = some old ∧ rule ∈ old := by
      unfold FilterTable.withoutForward at hchain
      by_cases hforward : chain = .edoForward
      · rw [hforward, Function.update_self] at hchain
        cases hchain
      · rw [Function.update_of_ne hforward] at hchain
        unfold FilterTable.unhooked at hchain
        split at hchain
        · obtain ⟨old, hold, rfl⟩ := Option.map_eq_some_iff.mp hchain
          exact ⟨old, hold, List.mem_of_mem_filter hrule⟩
        · exact ⟨rules, hchain, hrule⟩
    have hhook := (h chain old hold rule hmem .edoInput rfl htarget).2
    rw [hookRule, if_neg hinput] at hhook
    rw [hhook] at htarget
    cases htarget

/-- Nothing of the daemon is left. -/
theorem FilterTable.removed :
    Function.update (EdoPlugin.unhookInput table.withoutForward) .edoInput none =
      table.withoutEdo := by
  funext chain
  cases chain <;> rfl

/-- A deletion after a check. -/
theorem succeeds_iptablesDelete {rule : Rule} :
    Succeeds iface (iptablesDelete chain rule)
      (fun out _ => ∃ result, out = .ok result ∧ result.success = true) w := by
  apply succeeds_iptablesCheck
  split
  · rename_i hholds
    apply succeeds_iptables
    obtain ⟨rules, hchain, hmem⟩ := (Option.any_eq_true _ _).mp hholds
    have hdelete : (w.filter.run (.delete chain rule)).1 = .ok () := by
      simp [FilterTable.run, hchain, List.contains_iff_mem.mp hmem]
    rw [hdelete]
    exact ⟨_, rfl, rfl⟩
  · exact ⟨_, rfl, rfl⟩

/-- Every step succeeded. -/
def Reported (out : Except PyErr (List RuleResult)) : Prop :=
  ∃ results, out = .ok results ∧ ∀ result ∈ results, result.success = true

theorem succeeds_unhookEdoFrom_reported {guard : Nat} :
    Succeeds iface (unhookEdoFrom chain guard) (fun out _ => Reported out) w := by
  induction guard generalizing w with
  | zero => exact ⟨[], rfl, fun _ h => by cases h⟩
  | succ guard ih =>
    apply succeeds_iptablesCheck
    split
    · apply wp_seq succeeds_iptablesDelete
      · rintro result w₁ ⟨_, ⟨⟩, hsuccess⟩
        apply wp_seq ih
        · rintro results w₂ ⟨_, ⟨⟩, hall⟩
          exact ⟨_, rfl, List.forall_mem_cons.mpr ⟨hsuccess, hall⟩⟩
        · rintro err w₂ ⟨_, ⟨⟩, -⟩
      · rintro err w₁ ⟨_, ⟨⟩, -⟩
    · exact ⟨[], rfl, fun _ h => by cases h⟩

theorem succeeds_unhookEdoFromAll_reported {chains : List ChainName} :
    Succeeds iface (unhookEdoFromAll chains) (fun out _ => Reported out) w := by
  induction chains generalizing w with
  | nil => exact ⟨[], rfl, fun _ h => by cases h⟩
  | cons chain chains ih =>
    apply succeeds_chainExists
    split
    · apply wp_seq succeeds_unhookEdoFrom_reported
      · rintro results w₁ ⟨_, ⟨⟩, hall⟩
        apply wp_seq ih
        · rintro rest w₂ ⟨_, ⟨⟩, hrest⟩
          refine ⟨_, rfl, ?_⟩
          intro result hresult
          exact (List.mem_append.mp hresult).elim (hall result) (hrest result)
        · rintro err w₂ ⟨_, ⟨⟩, -⟩
      · rintro err w₁ ⟨_, ⟨⟩, -⟩
    · exact ih

theorem removes_removeFirewall {port : Nat} (hhooks : w.filter.OnlyHooks) (hfew : w.filter.FewJumps)
    (hinput : ∀ rules, w.filter .input = some rules → rules.count (jumpRule .edoInput) ≤ 1) :
    Removes iface (Removal.removeFirewall port) (fun out w' =>
      Reported out ∧ w' = w.withFilter w.filter.withoutEdo) w := by
  apply removes_callDaemon
    (wp_and succeeds_unhookEdoFromAll_reported (succeeds_unhookEdoFromAll (by decide) hfew))
  · rintro unhooked _ ⟨⟨_, ⟨⟩, hunhooked⟩, -, rfl⟩
    apply removes_seq (removes_removeForwardChain (w := w.withFilter _) hhooks.unhooked)
    · rintro removed _ ⟨⟨_, ⟨⟩, hremoved⟩, rfl⟩
      apply removes_seq (removes_removeWgInputRule (w := w.withFilter w.filter.withoutForward)
        hinput hhooks.unhookInput)
      · rintro inputResult _ ⟨⟨_, ⟨⟩, hresult⟩, rfl⟩
        refine ⟨⟨_, rfl, ?_⟩, ?_⟩
        · intro result hmem
          rcases List.mem_append.mp hmem with hmem | hmem
          · exact (List.mem_append.mp hmem).elim (hunhooked result) (hremoved result)
          · rw [List.mem_singleton.mp hmem]
            exact hresult
        · rw [← FilterTable.removed]
          rfl
      · rintro _ _ ⟨⟨_, ⟨⟩, -⟩, -⟩
    · rintro _ _ ⟨⟨_, ⟨⟩, -⟩, -⟩
  · rintro _ _ ⟨⟨_, ⟨⟩, -⟩, -⟩

end Removal

/-- **`remove_firewall` gives the host its filter table back.**  Whatever the daemon has done to a
    host that had nothing to do with it before, the rules of others are all there and in their order;
    and the removal succeeds and leaves the table of before, as long as firewalld is not running and
    the jumps are not more than it looks for. -/
theorem removeFirewall_restores (env : DaemonEnv) (iface : String) (port : Nat) (w₀ w : World)
    (hforeign : w₀.filter.Foreign) (hlife : HostLife env w₀ w) :
    w.filter.withoutEdo = w₀.filter ∧ (w.filter.FewJumps →
      (∀ rules, w.filter .input = some rules → rules.count (jumpRule .edoInput) ≤ 1) →
      Removes iface (Removal.removeFirewall port) (fun out w' =>
        Reported out ∧ w' = w.withFilter w₀.filter) w) := by
  have hothers : w.filter.withoutEdo = w₀.filter := by
    rw [hlife.withoutEdo, hforeign.withoutEdo]
  refine ⟨hothers, ?_⟩
  intro hfew hinput
  rw [← hothers]
  exact removes_removeFirewall (hlife.onlyHooks hforeign) hfew hinput

/-! ## A host whose chain is hooked twice -/

/-- A host that lets nothing through. -/
def filteringHost : World :=
  freshHost.withFilter
    (Function.update freshHost.filter .forward (some [⟨none, none, none, [], .drop⟩]))

theorem filteringHost_foreign : filteringHost.filter.Foreign where
  chains := by
    intro chain hown
    cases chain with
    | edoForward | edoInput => rfl
    | dockerUser | forward | input => cases hown
  rules := by
    intro chain rules hchain rule hrule own hown
    cases chain with
    | forward =>
      cases hchain
      rw [List.mem_singleton.mp hrule]
      simp
    | dockerUser | input =>
      cases hchain
      cases hrule
    | edoForward | edoInput => cases hchain

/-- Two rebuilds hook the chain at the same time, and the process is killed in the second. -/
def rebuiltAtOnce : Option (Config daemonEffect PyErr Unit World) :=
  daemonMachine.runSchedule (fun _ _ _ => ()) (fun _ => true)
    (List.replicate 11 (0, quietChoice) ++ List.replicate 12 (1, quietChoice) ++
      List.replicate 15 (0, quietChoice))
    (startProcess DaemonEnv.default [.request .killSwitch, .request .killSwitch] 4 filteringHost)

theorem rebuiltAtOnce_tables : rebuiltAtOnce.any (fun c => decide (
    c.world.filter .dockerUser = some [jumpRule .edoForward, jumpRule .edoForward] ∧
      c.world.filter .forward = some [⟨none, none, none, [], .drop⟩] ∧
      c.world.filter .input = some [jumpRule .edoInput])) = true := by
  decide +kernel

theorem rebuiltAtOnce_life : ∃ c, rebuiltAtOnce = some c ∧
    HostLife DaemonEnv.default filteringHost c.world ∧
    c.world.filter .dockerUser = some [jumpRule .edoForward, jumpRule .edoForward] ∧
    c.world.filter .forward = some [⟨none, none, none, [], .drop⟩] ∧
    c.world.filter .input = some [jumpRule .edoInput] := by
  obtain ⟨c, hrun, hcheck⟩ := (Option.any_eq_true _ _).mp rebuiltAtOnce_tables
  refine ⟨c, hrun, ?_, of_decide_eq_true hcheck⟩
  apply HostLife.session .before
  exact (Machine.reach_of_runSchedule (fun _ _ _ => trivial) hrun).mono fun _ _ _ _ => trivial

theorem removeFirewall_restores_rebuiltAtOnce : ∃ c, rebuiltAtOnce = some c ∧
    c.world.filter .dockerUser = some [jumpRule .edoForward, jumpRule .edoForward] ∧
    Removes "eth0" (Removal.removeFirewall 51820) (fun out w' =>
      Reported out ∧ w' = c.world.withFilter filteringHost.filter) c.world := by
  obtain ⟨c, hrun, hlife, hdocker, hforward, hinput⟩ := rebuiltAtOnce_life
  refine ⟨c, hrun, hdocker, ?_⟩
  apply (removeFirewall_restores DaemonEnv.default "eth0" 51820 filteringHost c.world
    filteringHost_foreign hlife).2
  · intro chain hchain rules hrules
    rcases List.mem_pair.mp hchain with rfl | rfl
    · rw [hdocker] at hrules
      cases hrules
      decide
    · rw [hforward] at hrules
      cases hrules
      decide
  · intro rules hrules
    rw [hinput] at hrules
    cases hrules
    decide

end EdoPlugin
