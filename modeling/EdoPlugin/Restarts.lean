import EdoPlugin.AdoptedRows
import EdoPlugin.FirewallPostcondition
import EdoPlugin.JointEffects
import Mathlib.Logic.Relation

/-!
# Restarts

Before it serves its first request the daemon adopts what Docker has, reconciles its table with
Docker and rebuilds the firewall from the table.  This module says what that makes of the world
when Docker and the commands do as they are told: after a database was lost, and after any number
of restarts of a daemon that was left alone.
-/

namespace EdoPlugin

open Interaction

/-! ## The start of the daemon -/

/-- `except RuntimeError: log.exception(...)`. -/
def loggingRuntimeError (body : Daemon Unit) : Daemon Unit :=
  body.catching fun err => match err with
    | .runtimeError _ => .ret ()
    | err => .raise err

def reconcileAtStartup : Daemon Unit :=
  loggingRuntimeError do
    let _ ← adoptUntracked
    let _ ← reconcile
    return ()

def firewallAtStartup (env : DaemonEnv) : Daemon Unit :=
  loggingRuntimeError (rebuildFirewall env)

/-- `main` between the WireGuard interface and the socket. -/
def restart (env : DaemonEnv) : Daemon Unit := do
  reconcileAtStartup
  firewallAtStartup env

section Startup

variable {iface : String} {env : DaemonEnv} {w w' : World}

/-- A body that does not raise a `RuntimeError` is not affected. -/
theorem wp_loggingRuntimeError {policy : Policy} {body : Daemon Unit}
    {Q : Except PyErr Unit → World → Prop} (hbody : wp (daemonSem policy) (fun _ _ => True) body Q w)
    (hlogged : ∀ msg w', Q (.error (.runtimeError msg)) w' → Q (.ok ()) w') :
    wp (daemonSem policy) (fun _ _ => True) (loggingRuntimeError body) Q w := by
  apply wp_catching.mpr
  apply wp_mono hbody
  intro out w' hQ
  cases out with
  | ok value => exact hQ
  | error err =>
    cases err with
    | runtimeError msg => exact hlogged msg w' hQ
    | _ => exact hQ

/-- The calls that leave the firewall alone, and wait for nobody. -/
def sparesFilter : DaemonOp → Prop
  | .filter _ | .host _ => False
  | _ => True

theorem sparesFilter_of_idleNetworkCall (op : DaemonOp) (h : idleNetworkCall op) :
    sparesFilter op := by
  cases op with
  | filter op | host op => exact h.elim
  | _ => trivial

theorem sparesFilter_of_adoptionCall (op : DaemonOp) (h : adoptionCall op) : sparesFilter op := by
  cases op with
  | filter op | host op => exact h.elim
  | _ => trivial

theorem callsOnly_reconcileOne_sparesFilter (row : Instance) :
    CallsOnly sparesFilter (reconcileOne row) := by
  apply CallsOnly.bind (CallsOnly.perform trivial)
  intro found
  cases found with
  | ok c =>
    exact CallsOnly.ite (CallsOnly.bind (CallsOnly.perform trivial) fun _ => .ret) .ret
  | error err =>
    cases err with
    | notFound msg =>
      apply CallsOnly.bind (CallsOnly.perform trivial)
      intro _
      exact CallsOnly.bind
        (callsOnly_releaseOwnerNetworkIfIdle.mono sparesFilter_of_idleNetworkCall) fun _ => .ret
    | apiError msg => exact .ret

theorem callsOnly_reconcile_sparesFilter : CallsOnly sparesFilter reconcile := by
  apply CallsOnly.bind
  · exact CallsOnly.bind (CallsOnly.perform trivial) fun _ => CallsOnly.ofExcept
  · intro _
    apply CallsOnly.bind (CallsOnly.perform trivial)
    intro rows
    induction rows with
    | nil => exact .ret
    | cons row rows ih =>
      apply CallsOnly.bind (callsOnly_reconcileOne_sparesFilter row)
      intro pruned
      exact CallsOnly.bind ih fun _ => .ret

/-- What holds of these calls when nothing fails holds under the interface too. -/
theorem succeeds_of_sparesFilter {α : Type} {p : Daemon α} {Q : Except PyErr α → World → Prop}
    (hp : CallsOnly sparesFilter p) (h : wp (daemonSem noFault) (fun _ _ => True) p Q w) :
    Succeeds iface p (fun out w' => Q out w' ∧ w'.filter = w.filter) w := by
  apply wp_alongside id World.filter _ hp h
  rintro t op res t' hop ⟨choice, hpolicy, hexec⟩
  cases op with
  | filter op | host op => exact hop.elim
  | db op =>
    cases hexec
    exact ⟨⟨choice, hpolicy, rfl⟩, rfl⟩
  | docker op | wg op =>
    refine ⟨⟨choice, hpolicy, hexec⟩, ?_⟩
    cases hexec
    rfl

/-! ## Reconciling what is in step -/

/-- Docker has the container of every row that is recorded as running, and it is running. -/
def World.RunningInStep (w : World) : Prop :=
  ∀ row ∈ w.db.instances, row.status = .running → InStep w.docker row

theorem wp_reconcileEach_inStep {rows : List Instance} (h : ∀ row ∈ rows, InStep w.docker row) :
    wp (daemonSem noFault) (fun _ _ => True) (reconcileEach rows)
      (fun out w' => out = .ok 0 ∧ w' = w) w := by
  induction rows with
  | nil => exact ⟨rfl, rfl⟩
  | cons row rows ih =>
    obtain ⟨c, hfind, hstatus⟩ := h row List.mem_cons_self
    have hone : wp (daemonSem noFault) (fun _ _ => True) (reconcileOne row)
        (fun out w' => out = .ok false ∧ w' = w) w := by
      apply wp_containersGet trivial
      · intro found hfound
        rw [hfind] at hfound
        cases hfound
        show wp _ _ (if c.status ≠ row.status then _ else _) _ _
        rw [if_neg (not_not.mpr hstatus)]
        exact ⟨rfl, rfl⟩
      · intro msg hnone
        rw [hfind] at hnone
        cases hnone
      · intro msg hfault
        cases hfault
    apply wp_seq hone
    · rintro pruned w₁ ⟨hpruned, rfl⟩
      cases hpruned
      apply wp_seq (ih fun other hother => h other (List.mem_cons_of_mem _ hother))
      · rintro count w₂ ⟨hcount, rfl⟩
        cases hcount
        exact ⟨rfl, rfl⟩
      · rintro err w₂ ⟨h, -⟩
        cases h
    · rintro err w₁ ⟨h, -⟩
      cases h

/-- There is nothing to reconcile. -/
theorem wp_reconcile_inStep (h : w.RunningInStep) :
    wp (daemonSem noFault) (fun _ _ => True) reconcile (fun out w' => out = .ok 0 ∧ w' = w) w := by
  refine wp_dockerClient trivial ?_ fun _ hfault => by cases hfault
  apply wp_callDb trivial
  apply wp_reconcileEach_inStep
  intro row hrow
  obtain ⟨htable, hrunning⟩ := List.mem_filter.mp hrow
  exact h row htable (of_decide_eq_true hrunning)

/-- **A reconcile brings the running rows in step.** -/
theorem wp_reconcile_brings (h : w.db.WellFormed) :
    wp (daemonSem noFault) (fun _ _ => True) reconcile
      (fun out w' => (∃ count, out = .ok count) ∧ w'.RunningInStep) w := by
  apply wp_mono (wp_reconcile_noFault h)
  rintro out w' ⟨rfl, hinstances, hcontainers⟩
  refine ⟨⟨_, rfl⟩, ?_⟩
  intro row hrow hrunning
  rw [hinstances] at hrow
  obtain ⟨old, -, hrow⟩ := List.mem_filterMap.mp hrow
  unfold reconciledRow at hrow
  split at hrow
  · obtain ⟨c, hfind, rfl⟩ := Option.map_eq_some_iff.mp hrow
    refine ⟨c, ?_, rfl⟩
    simpa only [Docker.findContainer, hcontainers] using hfind
  · cases hrow
    contradiction

theorem Db.mem_adoptAll {db : Db} {cs : List Container} {row : Instance}
    (h : row ∈ (db.adoptAll cs).instances) :
    row ∈ db.instances ∨ ∃ c ∈ cs, readLabels db c = .row row := by
  induction cs generalizing db with
  | nil => exact .inl h
  | cons c cs ih =>
    rcases ih h with hadopted | ⟨other, hother, hread⟩
    · rcases db.adopt_cases c with ⟨new, hnew, -, heq⟩ | ⟨heq, -⟩
      · rw [heq] at hadopted
        rcases List.mem_append.mp hadopted with hold | hlast
        · exact .inl hold
        · rw [List.mem_singleton.mp hlast]
          exact .inr ⟨c, List.mem_cons_self, hnew⟩
      · rw [heq] at hadopted
        exact .inl hadopted
    · rw [readLabels_congr Db.adopt_ownerOctets] at hread
      exact .inr ⟨other, List.mem_cons_of_mem _ hother, hread⟩

/-- What is adopted is in step. -/
theorem World.RunningInStep.adopted (h : w.RunningInStep) (hdocker : w.docker.WellFormed) :
    ({ w with db := w.db.adoptAll (untracked w.db w.docker) } : World).RunningInStep := by
  intro row hrow hrunning
  rcases Db.mem_adoptAll hrow with hold | ⟨c, hc, hread⟩
  · exact h row hold hrunning
  · obtain ⟨hid, hstatus⟩ := containerId_of_readLabels hread
    refine ⟨c, ?_, hstatus.symm⟩
    rw [hid]
    exact hdocker.findContainer_id (List.mem_of_mem_filter (List.mem_of_mem_filter hc))

/-! ## One restart -/

/-- Some container that is to be adopted has a bad number, and nobody catches the `ValueError`. -/
def BlocksStartup (w : World) : Except PyErr Unit → Prop
  | .ok _ => False
  | .error err => ∃ c ∈ untracked w.db w.docker, ∃ msg,
    readLabels w.db c = .badNumber err ∧ err = .valueError msg

theorem succeeds_adoptUntracked (hdocker : w.docker.WellFormed) :
    Succeeds iface adoptUntracked (fun out w' =>
      AdoptionOf (untracked w.db w.docker) w out w' ∧ w'.filter = w.filter) w :=
  succeeds_of_sparesFilter (callsOnly_adoptUntracked.mono sparesFilter_of_adoptionCall)
    (wp_adoptUntracked_noFault hdocker)

/-- Whatever the table was before, its running rows are in step after the startup. -/
theorem succeeds_reconcileAtStartup (h : w.WellFormed) :
    Succeeds iface reconcileAtStartup (fun out w' => BlocksStartup w out ∨
      out = .ok () ∧ w'.RunningInStep ∧ w'.filter = w.filter) w := by
  apply wp_loggingRuntimeError
  · apply wp_seq (wp_and (succeeds_adoptUntracked h.docker) (wp_wellFormed adoptUntracked h.db))
    · rintro count w₁ ⟨⟨-, hfilter₁⟩, hdb⟩
      apply wp_seq (succeeds_of_sparesFilter callsOnly_reconcile_sparesFilter
        (wp_reconcile_brings hdb))
      · rintro pruned w₂ ⟨⟨-, hinStep⟩, hfilter₂⟩
        exact .inr ⟨rfl, hinStep, hfilter₂.trans hfilter₁⟩
      · rintro err w₂ ⟨⟨⟨count, h⟩, -⟩, -⟩
        cases h
    · rintro err w₁ ⟨⟨hadoption, -⟩, -⟩
      exact .inl hadoption
  · rintro msg w' (⟨c, hc, msg', hread, hvalue⟩ | ⟨hok, -⟩)
    · cases hvalue
    · cases hok

/-- Once the running rows are in step, a startup only adopts. -/
theorem succeeds_reconcileAtStartup_inStep (hdocker : w.docker.WellFormed) (h : w.RunningInStep) :
    Succeeds iface reconcileAtStartup (fun out w' => BlocksStartup w out ∨
      out = .ok () ∧ (∀ c ∈ untracked w.db w.docker, ¬ HasBadNumber w.db c) ∧
        w' = { w with db := w.db.adoptAll (untracked w.db w.docker) }) w := by
  apply wp_loggingRuntimeError
  · apply wp_seq (succeeds_adoptUntracked hdocker)
    · rintro count w₁ ⟨⟨hnumbers, rfl⟩, -⟩
      apply wp_seq (succeeds_of_sparesFilter callsOnly_reconcile_sparesFilter
        (wp_reconcile_inStep (h.adopted hdocker)))
      · rintro pruned w₂ ⟨⟨-, rfl⟩, -⟩
        exact .inr ⟨rfl, hnumbers, rfl⟩
      · rintro err w₂ ⟨⟨h, -⟩, -⟩
        cases h
    · rintro err w₁ ⟨hadoption, -⟩
      exact .inl hadoption
  · rintro msg w' (⟨c, hc, msg', hread, hvalue⟩ | ⟨hok, -⟩)
    · cases hvalue
    · cases hok

/-- The firewall is what the table asks for. -/
structure FirewallOf (iface : String) (w w' : World) : Prop where
  hooks : HookedFrom w.filter w'.filter
  chain : w'.filter .edoForward = some (w'.db.chainRules iface).eraseDups

theorem succeeds_firewallAtStartup (hforward : (w.filter .forward).isSome = true)
    (hcounts : w.filter.FewJumps) :
    Succeeds iface (firewallAtStartup env) (fun out w' => out = .ok () ∧ FirewallOf iface w w' ∧
      w' = w.withFilter w'.filter) w := by
  apply wp_loggingRuntimeError
  · apply wp_callDb trivial
    apply wp_callDb trivial
    have hrest : Succeeds iface (applyFirewall w.db.peersGroupedByOwner
        (octetDictionary w.db.getAllOwnerOctets) env.vpnPort)
        (fun _ w' => w' = w.withFilter w'.filter) w := by
      apply wp_guard_mono (CallsOnly.preserves (I := fun w₁ => w₁ = w.withFilter w₁.filter)
        callsOnly_applyFirewall _ rfl) fun _ _ _ => trivial
      intro w₁ op res w₂ hcall hw₁ hsem
      rw [filterCall_rest hcall hsem, hw₁]
      rfl
    apply wp_seq (wp_and (succeeds_applyFirewall hforward hcounts) hrest)
    · rintro result w₁ ⟨⟨-, hhooked, hchain⟩, hkept⟩
      refine ⟨rfl, ⟨hhooked, ?_⟩, hkept⟩
      rw [hchain, hkept]
      rfl
    · rintro err w₁ ⟨⟨⟨result, h⟩, -⟩, -⟩
      cases h
  · rintro msg w' ⟨h, -⟩
    cases h

/-- **A restart** either stops at a bad number, or brings the running rows in step and the firewall
    up to date. -/
theorem succeeds_restart (h : w.WellFormed) (hforward : (w.filter .forward).isSome = true)
    (hcounts : w.filter.FewJumps) :
    Succeeds iface (restart env) (fun out w' => BlocksStartup w out ∨
      out = .ok () ∧ w'.RunningInStep ∧ FirewallOf iface w w') w := by
  apply wp_seq (succeeds_reconcileAtStartup h)
  · rintro _ w₁ (hblocked | ⟨-, hinStep, hfilter⟩)
    · exact hblocked.elim
    · rw [← hfilter] at hforward hcounts
      apply wp_mono (succeeds_firewallAtStartup hforward hcounts)
      rintro out w₂ ⟨hout, ⟨hhooked, hchain⟩, hkept⟩
      rw [hfilter] at hhooked
      refine .inr ⟨hout, ?_, hhooked, hchain⟩
      rw [hkept]
      exact hinStep
  · rintro err w₁ (hblocked | ⟨h, -⟩)
    · exact .inl hblocked
    · cases h

/-- What a restart does to a world whose running rows are in step. -/
structure Restarted (iface : String) (w w' : World) : Prop where
  numbers : ∀ c ∈ untracked w.db w.docker, ¬ HasBadNumber w.db c
  db : w'.db = w.db.adoptAll (untracked w.db w.docker)
  docker : w'.docker = w.docker
  firewall : FirewallOf iface w w'

theorem succeeds_restart_inStep (hdocker : w.docker.WellFormed) (h : w.RunningInStep)
    (hforward : (w.filter .forward).isSome = true) (hcounts : w.filter.FewJumps) :
    Succeeds iface (restart env) (fun out w' => BlocksStartup w out ∨
      out = .ok () ∧ Restarted iface w w') w := by
  apply wp_seq (succeeds_reconcileAtStartup_inStep hdocker h)
  · rintro _ w₁ (hblocked | ⟨-, hnumbers, rfl⟩)
    · exact hblocked.elim
    · apply wp_mono (succeeds_firewallAtStartup
        (w := { w with db := w.db.adoptAll (untracked w.db w.docker) }) hforward hcounts)
      rintro out w₂ ⟨hout, ⟨hhooked, hchain⟩, hkept⟩
      refine .inr ⟨hout, hnumbers, ?_, ?_, hhooked, hchain⟩
      · rw [hkept]
        rfl
      · rw [hkept]
        rfl
  · rintro err w₁ (hblocked | ⟨h, -⟩)
    · exact .inl hblocked
    · cases h

namespace Restarted

variable (h : Restarted iface w w')

include h

theorem runningInStep (hdocker : w.docker.WellFormed) (hinStep : w.RunningInStep) :
    w'.RunningInStep := by
  have hadopted := hinStep.adopted hdocker
  intro row hrow hrunning
  rw [h.db] at hrow
  rw [h.docker]
  exact hadopted row hrow hrunning

/-- The next adoption looks at some of the same containers, with the same octets. -/
theorem untracked_subset : untracked w'.db w'.docker ⊆ untracked w.db w.docker := by
  rw [h.db, h.docker]
  intro c hc
  obtain ⟨hlisted, hnew⟩ := List.mem_filter.mp hc
  apply List.mem_filter.mpr
  refine ⟨hlisted, ?_⟩
  simp only [Bool.not_eq_true', List.contains_eq_mem, decide_eq_false_iff_not] at hnew ⊢
  exact fun hmem => hnew (List.map_subset _ (w.db.subset_adoptAll _) hmem)

theorem not_hasBadNumber {c : Container} (hc : c ∈ untracked w'.db w'.docker) :
    ¬ HasBadNumber w'.db c := by
  rw [hasBadNumber_congr (show w'.db.ownerOctets = w.db.ownerOctets by
    rw [h.db, Db.adoptAll_ownerOctets])]
  exact h.numbers c (h.untracked_subset hc)

theorem not_blocked {out : Except PyErr Unit} : ¬ BlocksStartup w' out := by
  intro hblocked
  cases out with
  | ok value => exact hblocked
  | error err =>
    obtain ⟨c, hc, msg, hread, -⟩ := hblocked
    exact h.not_hasBadNumber hc ⟨err, hread⟩

/-- **The next restart changes nothing.** -/
theorem again {w'' : World} (h' : Restarted iface w' w'') : w''.db = w'.db ∧ w''.docker = w'.docker ∧
    ∀ chain ∈ [.edoForward, .dockerUser, .forward], w''.filter chain = w'.filter chain := by
  have hdb : w''.db = w'.db := by
    rw [h'.db, h.db, h.docker]
    exact w.db.adoptAll_again
  refine ⟨hdb, h'.docker, ?_⟩
  intro chain hchain
  by_cases hedo : chain = .edoForward
  · rw [hedo, h'.firewall.chain, h.firewall.chain, hdb]
  · apply h.firewall.hooks.again h'.firewall.hooks
    simpa [forwardHookCandidates, hedo] using hchain

end Restarted

theorem FirewallOf.isSome (h : FirewallOf iface w w') (hforward : (w.filter .forward).isSome = true) :
    (w'.filter .forward).isSome = true := by
  rw [h.hooks.isSome (by decide), hforward]

/-- A world that a restart has left, with what the next restart needs of it. -/
structure LeftByRestart (iface : String) (w : World) : Prop where
  restarted : ∃ before, before.docker.WellFormed ∧ Restarted iface before w
  runningInStep : w.RunningInStep
  forward : (w.filter .forward).isSome = true

theorem LeftByRestart.next {out : Except PyErr Unit} (h : LeftByRestart iface w)
    (hends : Ends (daemonSem (routedThrough iface)) (restart env) w out w') :
    out = .ok () ∧ Restarted iface w w' ∧ LeftByRestart iface w' := by
  obtain ⟨before, hdocker, hrestarted⟩ := h.restarted
  rw [← hrestarted.docker] at hdocker
  rcases hends.of_wp (succeeds_restart_inStep hdocker h.runningInStep h.forward
    hrestarted.firewall.hooks.fewJumps) with hblocked | ⟨hout, hnext⟩
  · exact absurd hblocked hrestarted.not_blocked
  · exact ⟨hout, hnext, ⟨w, hdocker, hnext⟩, hnext.runningInStep hdocker h.runningInStep,
      hnext.firewall.isSome h.forward⟩

def Restarts (env : DaemonEnv) (iface : String) (w w' : World) : Prop :=
  ∃ out, Ends (daemonSem (routedThrough iface)) (restart env) w out w'

/-- **Restarting settles.**  If two restarts return, the first one brings the rows of running
    containers in step and the firewall to what the table asks for, the second one adopts what the
    first one made room for, and no later one changes the table, Docker or the firewall, or fails. -/
theorem restarts_settle (env : DaemonEnv) (iface : String) (w w₁ w₂ w₃ : World) (hw : w.WellFormed)
    (hforward : (w.filter .forward).isSome = true) (hcounts : w.filter.FewJumps)
    (hfirst : Ends (daemonSem (routedThrough iface)) (restart env) w (.ok ()) w₁)
    (hsecond : Ends (daemonSem (routedThrough iface)) (restart env) w₁ (.ok ()) w₂)
    (hlater : Relation.ReflTransGen (Restarts env iface) w₂ w₃) :
    w₁.RunningInStep ∧ FirewallOf iface w w₁ ∧
    (w₂.db = w₁.db.adoptAll (untracked w₁.db w₁.docker) ∧ w₂.docker = w₁.docker) ∧
    (w₃.db = w₂.db ∧ w₃.docker = w₂.docker) ∧
    (∀ chain ∈ [.edoForward, .dockerUser, .forward], w₃.filter chain = w₁.filter chain) ∧
    ∀ out w₄, Ends (daemonSem (routedThrough iface)) (restart env) w₃ out w₄ → out = .ok () := by
  have hw₁ : w₁.WellFormed := hw.ends hfirst
  obtain ⟨hinStep, hfirewall⟩ : w₁.RunningInStep ∧ FirewallOf iface w w₁ := by
    rcases hfirst.of_wp (succeeds_restart hw hforward hcounts) with hblocked | ⟨-, hleft⟩
    · exact hblocked.elim
    · exact hleft
  have hforward₁ := hfirewall.isSome hforward
  have hrestarted : Restarted iface w₁ w₂ := by
    rcases hsecond.of_wp (succeeds_restart_inStep hw₁.docker hinStep hforward₁
      hfirewall.hooks.fewJumps) with hblocked | ⟨-, hleft⟩
    · exact hblocked.elim
    · exact hleft
  have hfirewall₂ : ∀ chain ∈ [.edoForward, .dockerUser, .forward],
      w₂.filter chain = w₁.filter chain := by
    intro chain hchain
    by_cases hedo : chain = .edoForward
    · rw [hedo, hrestarted.firewall.chain, hfirewall.chain, hrestarted.db]
      simp only [Db.chainRules, Db.peersGroupedByOwner, Db.getAllOwnerOctets,
        Db.adoptAll_ownerOctets, Db.adoptAll_peers]
    · apply hfirewall.hooks.again hrestarted.firewall.hooks
      simpa [forwardHookCandidates, hedo] using hchain
  -- From the second restart on, the worlds differ in nothing that the next one looks at.
  have hsettled : LeftByRestart iface w₃ ∧ (w₃.db = w₂.db ∧ w₃.docker = w₂.docker) ∧
      ∀ chain ∈ [.edoForward, .dockerUser, .forward], w₃.filter chain = w₂.filter chain := by
    induction hlater with
    | refl =>
      refine ⟨⟨⟨w₁, hw₁.docker, hrestarted⟩, hrestarted.runningInStep hw₁.docker hinStep,
        hrestarted.firewall.isSome hforward₁⟩, ⟨rfl, rfl⟩, fun _ _ => rfl⟩
    | tail hrest hstep ih =>
      obtain ⟨out, hends⟩ := hstep
      obtain ⟨hleft, ⟨hdb, hdocker⟩, hchains⟩ := ih
      obtain ⟨-, hnext, hleft'⟩ := hleft.next hends
      obtain ⟨before, -, hbefore⟩ := hleft.restarted
      obtain ⟨hdb', hdocker', hchains'⟩ := hbefore.again hnext
      refine ⟨hleft', ⟨hdb'.trans hdb, hdocker'.trans hdocker⟩, ?_⟩
      intro chain hchain
      rw [hchains' chain hchain, hchains chain hchain]
  refine ⟨hinStep, hfirewall, ⟨hrestarted.db, hrestarted.docker⟩, hsettled.2.1, ?_, ?_⟩
  · intro chain hchain
    rw [hsettled.2.2 chain hchain, hfirewall₂ chain hchain]
  · intro out w₄ hends
    exact (hsettled.1.next hends).1

end Startup

/-! ## A restart without the database -/

/-- No label of a container that was ordered stops a restart. -/
theorem World.Recorded.restarted_lost {env : DaemonEnv} {iface : String} {orders : SpawnOrder → Prop}
    {w w' : World} {out : Except PyErr Unit} (h : w.Recorded orders)
    (hnamed : ∀ order, orders order → order.Named) (hforward : (w.filter .forward).isSome = true)
    (hcounts : w.filter.FewJumps)
    (hends : Ends (daemonSem (routedThrough iface)) (restart env) w.withoutDb out w') :
    out = .ok () ∧ Restarted iface w.withoutDb w' := by
  have hlost : w.withoutDb.RunningInStep := by
    intro row hrow
    cases hrow
  rcases hends.of_wp (succeeds_restart_inStep h.docker hlost hforward hcounts) with
    hblocked | hrestarted
  · cases out with
    | ok value => exact hblocked.elim
    | error err =>
      obtain ⟨c, hc, msg, hbad, -⟩ := hblocked
      change c ∈ untracked Db.empty w.docker at hc
      rw [h.untracked_empty] at hc
      obtain ⟨order, horder, hfulfils⟩ := h.containers c hc
      obtain ⟨row, hread, -⟩ :=
        readLabels_of_fulfils w.withoutDb.db hfulfils (hnamed order horder)
      rw [hread] at hbad
      cases hbad
  · exact hrestarted

section Examples

variable {iface : String} {env : DaemonEnv}

/-- The calls of a startup. -/
def startupCall (op : DaemonOp) : Prop := sparesFilter op ∨ filterCall op

theorem callsOnly_restart : CallsOnly startupCall (restart env) := by
  have hlogging : ∀ {body : Daemon Unit}, CallsOnly startupCall body →
      CallsOnly startupCall (loggingRuntimeError body) := by
    intro body hbody
    apply hbody.catching
    intro err
    cases err with
    | runtimeError msg => exact .ret
    | _ => exact .raise
  apply CallsOnly.bind
  · apply hlogging
    apply CallsOnly.bind (callsOnly_adoptUntracked.mono fun op h =>
      .inl (sparesFilter_of_adoptionCall op h))
    intro _
    exact CallsOnly.bind (callsOnly_reconcile_sparesFilter.mono fun _ => .inl) fun _ => .ret
  · intro _
    apply hlogging
    apply CallsOnly.bind (CallsOnly.perform (.inl trivial))
    intro peers
    apply CallsOnly.bind (CallsOnly.perform (.inl trivial))
    intro octets
    exact CallsOnly.bind (callsOnly_applyFirewall.mono fun _ => .inr) fun _ => .ret

theorem exists_ends_restart (w : World) :
    ∃ out w', Ends (daemonSem (routedThrough iface)) (restart env) w out w' := by
  apply callsOnly_restart.exists_ends
  intro w op hcall
  cases op with
  | filter op =>
    cases op with
    | ipRouteShowDefault => exact ⟨_, _, .ok ["dev", iface], ⟨_, rfl, rfl⟩, rfl⟩
    | firewalldActive => exact ⟨_, _, false, trivial, rfl⟩
    | sysctlIpForward | firewallCmd _ | iptables _ => exact ⟨_, _, none, rfl, rfl⟩
  | db op => exact ⟨_, _, (), trivial, rfl⟩
  | docker op => exact ⟨_, _, quietChoice (.docker op), noFault_quietChoice (.docker op), rfl⟩
  | wg op => exact ⟨_, _, quietChoice (.wg op), noFault_quietChoice (.wg op), rfl⟩
  | host op => exact hcall.elim False.elim False.elim

end Examples

/-- The firewall of the host has not been touched. -/
theorem fewJumps_of_unhooked {table : FilterTable} (hforward : table .forward = some [])
    (hdocker : table .dockerUser = some []) : table.FewJumps := by
  intro chain hchain rules hrules
  rcases List.mem_pair.mp hchain with rfl | rfl
  · rw [hdocker] at hrules
    cases hrules
    decide
  · rw [hforward] at hrules
    cases hrules
    decide

/-- The third start of the daemon after the loss finds what the second one left. -/
theorem restarts_settle_killed : ∃ c w₁ w₂ w₃, killedAtSecond = some c ∧
    Ends (daemonSem (routedThrough "eth0")) (restart DaemonEnv.default) c.world.withoutDb (.ok ())
      w₁ ∧
    Ends (daemonSem (routedThrough "eth0")) (restart DaemonEnv.default) w₁ (.ok ()) w₂ ∧
    Restarts DaemonEnv.default "eth0" w₂ w₃ ∧ w₃.db = w₂.db ∧ w₂.docker = c.world.docker := by
  obtain ⟨c, hrun, hlife, -, hforward, hdocker⟩ := killedAtSecond_life
  have hrecorded := hlife.recorded freshHost_installed fun _ => IsSpawnOfSeven.named
  have hsome : (c.world.filter .forward).isSome = true := by
    rw [hforward]
    rfl
  have hcounts := fewJumps_of_unhooked hforward hdocker
  obtain ⟨out, w₁, hfirst⟩ : ∃ out w₁, Ends (daemonSem (routedThrough "eth0"))
    (restart DaemonEnv.default) c.world.withoutDb out w₁ := exists_ends_restart _
  obtain ⟨rfl, hrestarted⟩ := hrecorded.restarted_lost (fun _ => IsSpawnOfSeven.named) hsome hcounts
    hfirst
  have hleft : LeftByRestart "eth0" w₁ := by
    refine ⟨⟨c.world.withoutDb, hrecorded.docker, hrestarted⟩, ?_, hrestarted.firewall.isSome hsome⟩
    apply hrestarted.runningInStep hrecorded.docker
    intro row hrow
    cases hrow
  obtain ⟨out, w₂, hsecond⟩ : ∃ out w₂, Ends (daemonSem (routedThrough "eth0"))
    (restart DaemonEnv.default) w₁ out w₂ := exists_ends_restart _
  obtain ⟨rfl, -⟩ := hleft.next hsecond
  obtain ⟨out, w₃, hthird⟩ : ∃ out w₃, Ends (daemonSem (routedThrough "eth0"))
    (restart DaemonEnv.default) w₂ out w₃ := exists_ends_restart _
  obtain ⟨-, -, ⟨-, hdocker₂⟩, ⟨hdb₃, -⟩, -⟩ := restarts_settle DaemonEnv.default "eth0"
    c.world.withoutDb w₁ w₂ w₃ ⟨Db.WellFormed.empty, hrecorded.docker⟩ hsome hcounts hfirst hsecond
    (.single ⟨out, hthird⟩)
  exact ⟨c, w₁, w₂, w₃, hrun, hfirst, hsecond, ⟨out, hthird⟩, hdb₃,
    hdocker₂.trans hrestarted.docker⟩

end EdoPlugin
