import EdoPlugin.SiteLedger
import EdoPlugin.UserPages

/-!
# Every site there can be

Requests and jobs come at any time and run side by side, the daemon loses replies, restarts and loses
its database, containers stop, and CTFd changes its own tables.  Through all of it the container in a
row stays one that was issued for the row.
-/

namespace EdoPlugin

open Interaction

variable {env : DaemonEnv} {compare : FlagComparison}

/-- A site some time after its installation, with the threads that are under way. -/
inductive SiteLife (env : DaemonEnv) (compare : FlagComparison) : SiteConfig Unit → Prop
  | installed {s : Site} : s.daemon.Installed → s.plugin.instances = [] →
      SiteLife env compare ⟨s, []⟩
  | arrival {c : SiteConfig Unit} (request : SiteRequest) : SiteLife env compare c →
      SiteLife env compare ⟨c.world, c.threads ++ [⟨(), request.prog compare⟩]⟩
  | call {c c' : SiteConfig Unit} {event : Event siteEffect} : SiteLife env compare c →
      Step (siteSem (Unreliable env)) (fun _ _ _ => ()) c event c' → SiteLife env compare c'
  /-- A worker ends, and its threads with it. -/
  | killed {c : SiteConfig Unit} {threads : List (Thread siteEffect PluginErr Unit)} :
      SiteLife env compare c → threads ⊆ c.threads → SiteLife env compare ⟨c.world, threads⟩
  /-- CTFd, or an admin, changes the tables; with a challenge its instances are deleted. -/
  | change {c : SiteConfig Unit} {db : PluginDb} : SiteLife env compare c →
      db.instances.Sublist c.world.plugin.instances →
      db.nextInstanceId = c.world.plugin.nextInstanceId →
      SiteLife env compare ⟨{ c.world with plugin := db }, c.threads⟩
  | daemon {c : SiteConfig Unit} {event : DaemonEvent} {w : World} : SiteLife env compare c →
      event.FromPlugin → DaemonStep anyFault env c.world.daemon event w →
      SiteLife env compare ⟨{ c.world with daemon := w }, c.threads⟩

/-! ## The requests -/

section Requests

variable {A : SiteOp → Prop} {caller : Option Int} {challengeId : Nat} {phase : BookingPhase}

theorem Reading.ownerRequiredData {α : Type} {fn : Plugin α} (hA : Reading A) (hfn : CallsOnly A fn) :
    CallsOnly A (ownerRequiredData caller fn) :=
  CallsOnly.bind (.perform hA.select) fun db => by
    cases db.currentUser caller with
    | none => exact .ret
    | some user =>
      cases db.resolveOwner caller with
      | none => exact .ret
      | some owner => exact CallsOnly.bind hfn fun _ => .ret

theorem Reading.serializeRows (hA : Reading A) {threshold : Int} {rows : List EdoInstance} :
    CallsOnly A (UserRoutes.serializeRows threshold rows) := by
  induction rows with
  | nil => exact .ret
  | cons row rows ih =>
    refine CallsOnly.bind ?_ fun view => CallsOnly.bind ih fun views => .ret
    refine CallsOnly.bind (.perform hA.utcnow) fun now => ?_
    exact CallsOnly.bind (.perform hA.select) fun db => .ret

theorem Reading.dashboardData (hA : Reading A) : CallsOnly A (UserRoutes.dashboardData caller) := by
  apply hA.ownerRequiredData
  refine CallsOnly.bind hA.resolvedOwner fun owner => CallsOnly.bind (.perform hA.select) fun db => ?_
  refine CallsOnly.bind hA.settingOf fun extendThreshold => ?_
  refine CallsOnly.bind hA.settingOf fun maxContainers => ?_
  refine CallsOnly.bind (.perform hA.select) fun settings => ?_
  exact CallsOnly.bind hA.serializeRows fun views => .ret

theorem Reading.challengeProgress (hA : Reading A) :
    CallsOnly A (UserRoutes.challengeProgress caller challengeId) :=
  hA.ownerRequiredData (CallsOnly.bind hA.resolvedOwner fun _ => callsOnly_ownerProgress hA.select)

theorem callsOnly_unattended {α : Type} {p : Plugin α} (hp : CallsOnly A p) :
    CallsOnly A (unattended p) :=
  CallsOnly.catching (CallsOnly.bind hp fun _ => .ret) fun _ => .ret

theorem books_unattended {α : Type} {p : Plugin α} (hp : Books p phase) :
    Books (unattended p) phase := by
  have hrun : PluginFollows (fun _ _ _ => True) BookingPhase.admits BookingPhase.next p
      (fun _ _ => True) phase := wp_mono hp fun _ _ _ => trivial
  apply wp_mono (follows_unattended hrun)
  intro out φ _
  cases out <;> trivial

/-- Every request keeps the books, from its start. -/
theorem books_request {request : SiteRequest} : Books (request.prog compare) .free := by
  cases request with
  | route call => exact books_unattended books_route
  | dashboardData caller => exact books_last (callsOnly_unattended housekeeping_unbooked.dashboardData)
  | challengeProgress caller challengeId =>
    exact books_last (callsOnly_unattended housekeeping_unbooked.challengeProgress)
  | sweepExpired => exact books_last (callsOnly_unattended housekeeping_unbooked.sweepExpired)
  | reconcile => exact books_last (callsOnly_unattended housekeeping_unbooked.reconcile)

end Requests

/-! ## The invariant -/

/-- The books of the site, and where each thread stands. -/
def Bookkept (c : SiteConfig Unit) : Prop :=
  ∃ issued, c.world.Ledger issued ∧ ∀ thread ∈ c.threads, ∃ phase : BookingPhase,
    phase.Holds c.world issued ∧ Books thread.prog phase

theorem Site.Ledger.installed {s : Site} (hdaemon : s.daemon.Installed)
    (hplugin : s.plugin.instances = []) : s.Ledger fun _ => ⟨⟨"user", 0⟩, 0⟩ := by
  refine ⟨⟨?_, ?_, ?_⟩, World.Ledger.installed hdaemon, ?_⟩
  · simp [hplugin]
  · simp [hplugin]
  · simp [hplugin]
  · simp [hplugin]

namespace Bookkept

variable {c c' : SiteConfig Unit}

/-- The site goes on without the threads. -/
theorem continues {s : Site} {issued issued' : ContainerId → SpawnKey}
    (hthreads : ∀ thread ∈ c.threads, ∃ phase : BookingPhase, phase.Holds c.world issued ∧
      Books thread.prog phase) (hcontinues : SiteContinues c.world issued s issued')
    (hledger : s.Ledger issued') : Bookkept ⟨s, c.threads⟩ := by
  refine ⟨issued', hledger, ?_⟩
  intro thread hthread
  obtain ⟨phase, hholds, hbooks⟩ := hthreads thread hthread
  exact ⟨phase, hholds.continues hcontinues, hbooks⟩

theorem call {event : Event siteEffect} (h : Bookkept c)
    (hstep : Step (siteSem (Unreliable env)) (fun _ _ _ => ()) c event c') : Bookkept c' := by
  obtain ⟨issued, hledger, hthreads⟩ := h
  cases hstep with
  | @mk s s' threads tid mark op rest res hget hsem =>
    obtain ⟨phase, hholds, hadmits, hrest⟩ := hthreads _ (List.mem_of_getElem? hget)
    obtain ⟨issued', hafter⟩ := hledger.step hholds hadmits hsem
    refine ⟨issued', hafter.ledger, ?_⟩
    intro thread hthread
    rcases List.mem_or_eq_of_mem_set hthread with hold | rfl
    · obtain ⟨other, hother, hbooks⟩ := hthreads thread hold
      exact ⟨other, hother.continues hafter.continues, hbooks⟩
    · exact ⟨_, hafter.holds, hrest res _ ⟨trivial, rfl⟩⟩

theorem of_life (h : SiteLife env compare c) : Bookkept c := by
  induction h with
  | installed hdaemon hplugin => exact ⟨_, .installed hdaemon hplugin, fun _ h => by cases h⟩
  | arrival request _ ih =>
    obtain ⟨issued, hledger, hthreads⟩ := ih
    refine ⟨issued, hledger, ?_⟩
    intro thread hthread
    rcases List.mem_append.mp hthread with hold | hnew
    · exact hthreads thread hold
    · rw [List.mem_singleton.mp hnew]
      exact ⟨.free, trivial, books_request⟩
  | call _ hstep ih => exact ih.call hstep
  | killed _ hsub ih =>
    obtain ⟨issued, hledger, hthreads⟩ := ih
    exact ⟨issued, hledger, fun thread hthread => hthreads thread (hsub hthread)⟩
  | change _ hrows hnext ih =>
    obtain ⟨issued, hledger, hthreads⟩ := ih
    refine continues hthreads ⟨.refl, Nat.le_of_eq hnext.symm, ?_⟩
      (hledger.plugin (hledger.keyed.of_sublist hrows hnext) ?_)
    · exact fun row hrow _ => ⟨row, hrows.subset hrow, rfl, rfl⟩
    · exact fun row hrow => hledger.rows row (hrows.subset hrow)
  | daemon _ hevent hstep ih =>
    obtain ⟨issued, hledger, hthreads⟩ := ih
    obtain ⟨issued', hcontinues, hledger'⟩ := hledger.daemon.step hevent hstep
    exact continues hthreads (.of_plugin hcontinues rfl) (hledger.daemon_continues hcontinues hledger')

end Bookkept

/-! ## One request at a time -/

/-- Requests one after the other, each to its end. -/
inductive InTurn (env : DaemonEnv) (compare : FlagComparison) : List SiteRequest → Site → Site → Prop
  | done {s : Site} : InTurn env compare [] s s
  | next {request : SiteRequest} {requests : List SiteRequest} {s s₁ s' : Site}
      {out : Except PluginErr Unit} : Ends (siteSem (Unreliable env)) (request.prog compare) s out s₁ →
      InTurn env compare requests s₁ s' → InTurn env compare (request :: requests) s s'

namespace SiteLife

/-- The last thread runs to its end while the others wait. -/
theorem ends {p : Plugin Unit} {threads : List (Thread siteEffect PluginErr Unit)} {s s' : Site}
    {out : Except PluginErr Unit} (h : SiteLife env compare ⟨s, threads ++ [⟨(), p⟩]⟩)
    (hends : Ends (siteSem (Unreliable env)) p s out s') : SiteLife env compare ⟨s', threads⟩ := by
  obtain ⟨trace, hruns⟩ := hends
  induction hruns with
  | ret => exact h.killed fun _ hthread => List.mem_append_left _ hthread
  | raise => exact h.killed fun _ hthread => List.mem_append_left _ hthread
  | @call op rest s res s₁ trace out s' hsem _ ih =>
    apply ih
    have hget : (threads ++ [⟨(), .call op rest⟩])[threads.length]? = some ⟨(), .call op rest⟩ :=
      List.getElem?_concat_length
    have hstep := h.call (Step.mk hget hsem)
    rw [List.set_append_right _ _ (Nat.le_refl _), Nat.sub_self] at hstep
    exact hstep

theorem inTurn {requests : List SiteRequest} {threads : List (Thread siteEffect PluginErr Unit)}
    {s s' : Site} (h : SiteLife env compare ⟨s, threads⟩) (hruns : InTurn env compare requests s s') :
    SiteLife env compare ⟨s', threads⟩ := by
  induction hruns with
  | done => exact h
  | next hends _ ih => exact ih ((h.arrival _).ends hends)

end SiteLife

end EdoPlugin
