import EdoPlugin.ContainerAddresses
import EdoPlugin.InstanceTable

/-!
# Rows that are dropped

A participant's teardown, the administrator's and the sweep release a container and then delete its
row.  The participant's deletes the row whatever becomes of the release, so that the owner is not
locked out of the challenge; the other two keep it when the release fails.
-/

namespace EdoPlugin

open Interaction

variable {env : DaemonEnv} {policy : Policy} {compare : FlagComparison}

/-! ## The release RPC -/

/-- Anything can happen to an RPC, but the faults inside its handler are those of the policy. -/
inductive UnreliableUnder (policy : Policy) (env : DaemonEnv) (w : World) (request : Request) :
    Except DaemonError Reply → World → Prop
  | answered {answer w'} : Handled policy env w request answer w' →
      UnreliableUnder policy env w request answer w'
  | undelivered {err} : UnreliableUnder policy env w request (.error err) w
  | replyLost {answer err w'} : Handled policy env w request answer w' →
      UnreliableUnder policy env w request (.error err) w'

/-- No RPC fails, and the faults inside its handler are those of the policy. -/
inductive ServedUnder (policy : Policy) (env : DaemonEnv) (w : World) (request : Request) :
    Except DaemonError Reply → World → Prop
  | mk {reply w'} : Ends (daemonSem policy) (handle env request) w (.ok reply) w' →
      ServedUnder policy env w request (.ok reply) w'

theorem ServedUnder.unreliable {w w' : World} {request : Request} {answer : Except DaemonError Reply}
    (h : ServedUnder policy env w request answer w') :
    UnreliableUnder policy env w request answer w' := by
  cases h with
  | mk hends => exact .answered (.ok hends)

/-- What a release request leaves: nothing new is tracked, and after a reply the container is not
    tracked either. -/
structure ReleaseAnswered {α ε : Type} (containerId : ContainerId) (w : World) (answer : Except ε α)
    (w' : World) : Prop where
  tracks : ∀ id, w'.Tracks id → w.Tracks id
  untracked : ∀ reply, answer = .ok reply → ¬ w'.Tracks containerId

variable {w w' : World} {containerId : ContainerId}

theorem wp_releaseInstance_answered (hpolicy : ¬ policy.RefusesContainer) :
    wp (daemonSem policy) (fun _ _ => True) (releaseInstance containerId)
      (ReleaseAnswered containerId w) w := by
  refine wp_mono wp_releaseInstance fun out w' hreleased => ?_
  cases hreleased with
  | refused _ hdb hrefused =>
    have hsame : ∀ id, w'.Tracks id ↔ w.Tracks id := fun id => by rw [World.Tracks, hdb, World.Tracks]
    exact ⟨fun id => (hsame id).mp, fun removed hout => absurd (hrefused removed hout).2 hpolicy⟩
  | dropped hdropped _ =>
    constructor
    · rintro id ⟨row, hrow, hid⟩
      rw [hdropped.instances] at hrow
      exact ⟨row, List.mem_of_mem_filter hrow, hid⟩
    · rintro _ _ ⟨row, hrow, hid⟩
      rw [hdropped.instances] at hrow
      exact of_decide_eq_true (List.mem_filter.mp hrow).2 hid

theorem wp_handleRelease (hpolicy : ¬ policy.RefusesContainer) :
    wp (daemonSem policy) (fun _ _ => True) (handle env (.containerReleaseInstance containerId))
      (ReleaseAnswered containerId w) w := by
  refine wp_seq (wp_releaseInstance_answered hpolicy) ?_ ?_
  · intro removed w₁ hreleased
    have hsame : ∀ {w₂ : World}, w₂.db = w₁.db → ∀ id, w₂.Tracks id → w₁.Tracks id := by
      rintro w₂ hdb id ⟨row, hrow, hid⟩
      rw [hdb] at hrow
      exact ⟨row, hrow, hid⟩
    refine wp_seq wp_rebuildFirewall_sameDb ?_ ?_
    · intro _ w₂ hdb
      refine ⟨fun id htracks => hreleased.tracks id (hsame hdb id htracks), fun _ _ htracks => ?_⟩
      exact hreleased.untracked removed rfl (hsame hdb _ htracks)
    · intro err w₂ hdb
      exact ⟨fun id htracks => hreleased.tracks id (hsame hdb id htracks), fun _ h => nomatch h⟩
  · intro err w₁ hreleased
    exact ⟨hreleased.tracks, fun _ h => nomatch h⟩

theorem UnreliableUnder.releaseAnswered {answer : Except DaemonError Reply}
    (hpolicy : ¬ policy.RefusesContainer)
    (h : UnreliableUnder policy env w (.containerReleaseInstance containerId) answer w') :
    ReleaseAnswered containerId w answer w' := by
  have hhandled : ∀ {answer w'},
      Handled policy env w (.containerReleaseInstance containerId) answer w' →
        ReleaseAnswered containerId w answer w' := by
    intro answer w' hhandled
    cases hhandled with
    | ok hends =>
      have hanswered := hends.of_wp (wp_handleRelease hpolicy)
      exact ⟨hanswered.tracks, fun _ _ => hanswered.untracked _ rfl⟩
    | error hends => exact ⟨(hends.of_wp (wp_handleRelease hpolicy)).tracks, fun _ h => nomatch h⟩
  cases h with
  | answered h => exact hhandled h
  | undelivered => exact ⟨fun _ h => h, fun _ h => nomatch h⟩
  | replyLost h => exact ⟨(hhandled h).tracks, fun _ h => nomatch h⟩

/-! ## The three routes -/

/-- Of every release request, the answer tells whether the container is tracked. -/
def RpcSem.Releases (rpc : RpcSem) : Prop :=
  ∀ w containerId answer w', rpc w (.containerReleaseInstance containerId) answer w' →
    ReleaseAnswered containerId w answer w'

/-- No RPC fails. -/
def RpcSem.Answers (rpc : RpcSem) : Prop :=
  ∀ w request answer w', rpc w request answer w' → ∃ reply, answer = .ok reply

variable {rpc : RpcSem} {s s' : Site} {row : EdoInstance}

/-- What the release of a row leaves. -/
structure RowReleased (row : EdoInstance) (s : Site) (released : Except DaemonError Unit) (s' : Site) :
    Prop where
  plugin : s'.plugin = s.plugin
  tracks : ∀ id, s'.daemon.Tracks id → s.daemon.Tracks id
  untracked : released = .ok () → ∀ containerId, row.containerId = some containerId →
    ¬ s'.daemon.Tracks containerId

theorem wp_releaseContainer (hrpc : rpc.Releases) :
    wp (siteSem rpc) (fun _ _ => True) (UserRoutes.releaseContainer row)
      (fun out s' => ∃ released, out = .ok released ∧ RowReleased row s released s') s := by
  unfold UserRoutes.releaseContainer
  cases hcontainer : row.containerId with
  | none =>
    refine ⟨_, rfl, rfl, fun _ h => h, fun _ containerId h => ?_⟩
    rw [hcontainer] at h
    cases h
  | some containerId =>
    refine wp_callRpc trivial fun answer w hanswer => ?_
    have hreleased := hrpc _ _ _ _ hanswer
    cases answer with
    | error err => exact ⟨_, rfl, rfl, hreleased.tracks, fun h => nomatch h⟩
    | ok reply =>
      refine ⟨_, rfl, rfl, hreleased.tracks, fun _ other hother => ?_⟩
      rw [hcontainer, Option.some.injEq] at hother
      rw [← hother]
      exact hreleased.untracked reply rfl

theorem wp_releaseContainer_answers (hrpc : rpc.Answers) :
    wp (siteSem rpc) (fun _ _ => True) (UserRoutes.releaseContainer row)
      (fun out _ => out = .ok (.ok ())) s := by
  unfold UserRoutes.releaseContainer
  cases row.containerId with
  | none => rfl
  | some containerId =>
    refine wp_callRpc trivial fun answer w hanswer => ?_
    obtain ⟨reply, rfl⟩ := hrpc _ _ _ _ hanswer
    rfl

/-- The row is gone. -/
def Deleted (row : EdoInstance) (s' : Site) : Prop := ∀ other ∈ s'.plugin.instances, other.id ≠ row.id

theorem Deleted.of_nil (h : s'.plugin.instances = []) : Deleted row s' := by
  intro other hother
  rw [h] at hother
  cases hother

/-- No row that is gone has a container that is still tracked. -/
def DropsReleased (s s' : Site) : Prop :=
  ∀ row ∈ s.plugin.instances, Deleted row s' →
    ∀ containerId, row.containerId = some containerId → ¬ s'.daemon.Tracks containerId

theorem DropsReleased.of_same (h : s'.plugin = s.plugin) : DropsReleased s s' := by
  intro row hrow hdeleted
  rw [← h] at hrow
  exact absurd rfl (hdeleted row hrow)

/-- A row is deleted after its release. -/
theorem DropsReleased.of_delete {s₁ : Site} (hkeyed : s.plugin.Keyed) (hrow : row ∈ s.plugin.instances)
    (hreleased : RowReleased row s (.ok ()) s₁) :
    DropsReleased s { s₁ with plugin := s₁.plugin.deleteInstance row.id } := by
  intro other hother hdeleted containerId hcontainer
  have hid : other.id = row.id := by
    by_contra hne
    refine hdeleted other ?_ rfl
    refine List.mem_filter.mpr ⟨?_, decide_eq_true hne⟩
    rw [hreleased.plugin]
    exact hother
  rw [hkeyed.eq_of_id hother hrow hid] at hcontainer
  exact hreleased.untracked rfl containerId hcontainer

theorem wp_forceTeardown (hrpc : rpc.Releases) (hkeyed : s.plugin.Keyed) {instanceId : Nat} :
    wp (siteSem rpc) (fun _ _ => True) (AdminRoutes.forceTeardown instanceId)
      (fun _ s' => DropsReleased s s') s := by
  refine wp_select trivial ?_
  cases hget : s.plugin.getInstance instanceId with
  | none => exact .of_same rfl
  | some row =>
    obtain ⟨hrow, -⟩ := PluginDb.mem_of_getInstance hget
    refine wp_then (wp_releaseContainer hrpc) ?_ ?_
    · rintro released s₁ ⟨_, ⟨⟩, hreleased⟩
      cases released with
      | error err => exact .of_same hreleased.plugin
      | ok _ =>
        refine wp_commit trivial (fun db happly => ?_) fun err happly => nomatch happly
        cases happly
        exact .of_delete hkeyed hrow hreleased
    · rintro err s₁ ⟨_, h, -⟩
      cases h

/-- A participant's teardown whose RPC does not fail. -/
theorem wp_teardownInstance (hrpc : rpc.Releases) (hanswers : rpc.Answers)
    (hkeyed : s.plugin.Keyed) {caller : Option Int} {instanceId : Nat} :
    wp (siteSem rpc) (fun _ _ => True) (UserRoutes.teardownInstance caller instanceId)
      (fun _ s' => DropsReleased s s') s := by
  refine wp_ownerRequired (fun _ => .of_same rfl) fun owner howner => ?_
  refine wp_ownedInstance howner (fun _ _ => .of_same rfl) fun row hget _ => ?_
  obtain ⟨hrow, -⟩ := PluginDb.mem_of_getInstance hget
  refine wp_then (wp_and (wp_releaseContainer hrpc) (wp_releaseContainer_answers hanswers)) ?_ ?_
  · rintro _ s₁ ⟨⟨_, ⟨⟩, hreleased⟩, ⟨⟩⟩
    refine wp_commit trivial (fun db happly => ?_) fun err happly => nomatch happly
    cases happly
    exact .of_delete hkeyed hrow hreleased
  · rintro err s₁ ⟨-, h⟩
    cases h

/-- The owner's teardown deletes the row, whatever becomes of the release. -/
theorem wp_teardownInstance_deletes {caller : Option Int} {instanceId : Nat}
    (hget : s.plugin.getInstance instanceId = some row)
    (howner : s.plugin.resolveOwner caller = some row.owner) :
    wp (siteSem rpc) (fun _ _ => True) (UserRoutes.teardownInstance caller instanceId)
      (fun out s' => out = .ok .done ∧ Deleted row s') s := by
  obtain ⟨user, huser, -⟩ := Option.bind_eq_some_iff.mp howner
  refine wp_select trivial ?_
  simp only [huser, howner]
  refine wp_ownedInstance howner ?_ fun other hother _ => ?_
  · rintro refusal (hnone | ⟨other, hother, hne⟩)
    · rw [hget] at hnone
      cases hnone
    · rw [hget, Option.some.injEq] at hother
      exact absurd (hother ▸ rfl) hne
  · rw [hget, Option.some.injEq] at hother
    subst hother
    have hreturns : wp (siteSem rpc) (fun _ _ => True) (UserRoutes.releaseContainer row)
        (fun out _ => ∃ released, out = .ok released) s := by
      unfold UserRoutes.releaseContainer
      cases row.containerId with
      | none => exact ⟨_, rfl⟩
      | some containerId =>
        refine wp_callRpc trivial fun answer w _ => ?_
        cases answer with
        | error err => exact ⟨_, rfl⟩
        | ok reply => exact ⟨_, rfl⟩
    refine wp_then hreturns ?_ ?_
    · intro released s₁ _
      refine wp_commit trivial (fun db happly => ?_) fun err happly => nomatch happly
      cases happly
      refine ⟨rfl, fun other hother => ?_⟩
      exact of_decide_eq_true (List.mem_filter.mp hother).2
    · rintro err s₁ ⟨_, h⟩
      cases h

/-! ### The sweep -/

/-- The writes of a sweep are about the rows it takes up, and it deletes those it has released. -/
structure SweepWrites (rows : List EdoInstance) (writes : List Write) (s' : Site) : Prop where
  bulk : .deleteActiveInstances ∉ writes
  deleted : ∀ id, .deleteInstance id ∈ writes → ∃ row ∈ rows, row.id = id ∧
    ∀ containerId, row.containerId = some containerId → ¬ s'.daemon.Tracks containerId

theorem wp_sweepEach (hrpc : rpc.Releases) {rows : List EdoInstance} :
    wp (siteSem rpc) (fun _ _ => True) (Scheduler.sweepEach rows)
      (fun out s' => ∃ writes, out = .ok writes ∧ s'.plugin = s.plugin ∧
        (∀ id, s'.daemon.Tracks id → s.daemon.Tracks id) ∧ SweepWrites rows writes s') s := by
  induction rows generalizing s with
  | nil =>
    refine ⟨[], rfl, rfl, fun _ h => h, List.not_mem_nil, ?_⟩
    intro id hid
    cases hid
  | cons row rows ih =>
    refine wp_then (wp_releaseContainer hrpc) ?_ ?_
    · rintro released s₁ ⟨_, ⟨⟩, hreleased⟩
      refine wp_then ih ?_ ?_
      · rintro writes s₂ ⟨_, ⟨⟩, hplugin, htracks, hwrites⟩
        refine ⟨_, rfl, hplugin.trans hreleased.plugin, fun id h => hreleased.tracks id (htracks id h),
          ?_, ?_⟩
        · rw [List.mem_cons, not_or]
          refine ⟨?_, hwrites.bulk⟩
          cases released with
          | ok _ => exact fun h => nomatch h
          | error err => exact fun h => nomatch h
        · intro id hid
          rcases List.mem_cons.mp hid with hfirst | hrest
          · cases released with
            | ok _ =>
              cases hfirst
              refine ⟨row, List.mem_cons_self, rfl, fun containerId hcontainer htracked => ?_⟩
              exact hreleased.untracked rfl containerId hcontainer (htracks _ htracked)
            | error err => cases hfirst
          · obtain ⟨other, hother, hdone⟩ := hwrites.deleted id hrest
            exact ⟨other, List.mem_cons_of_mem _ hother, hdone⟩
      · rintro err s₂ ⟨_, h, -⟩
        cases h
    · rintro err s₁ ⟨_, h, -⟩
      cases h

theorem wp_sweepExpired (hrpc : rpc.Releases) (hkeyed : s.plugin.Keyed) :
    wp (siteSem rpc) (fun _ _ => True) Scheduler.sweepExpired (fun _ s' => DropsReleased s s') s := by
  refine wp_utcnow trivial fun now => wp_select trivial (wp_branch (fun _ => .of_same rfl) fun _ => ?_)
  refine wp_then (wp_sweepEach hrpc) ?_ ?_
  · rintro writes s₁ ⟨_, ⟨⟩, hplugin, -, hwrites⟩
    refine wp_commitLast trivial (fun db happly => ?_) fun err _ => .of_same hplugin
    rw [hplugin] at happly
    intro row hrow hdeleted
    have hgone : rowAfter writes row = none := by
      cases hafter : rowAfter writes row with
      | none => rfl
      | some row' =>
        have hmem : row' ∈ db.instances := (hkeyed.mem_applyAll happly).mpr ⟨row, hrow, hafter⟩
        exact absurd (Write.rowAfter_id hafter) (hdeleted row' hmem)
    obtain ⟨other, hother, hid, hdone⟩ :=
      hwrites.deleted _ (Write.deleted_of_rowAfter hwrites.bulk hgone)
    rw [← hkeyed.eq_of_id (List.mem_of_mem_filter hother) hrow hid]
    exact hdone
  · rintro err s₁ ⟨_, h, -⟩
    cases h

/-! ## Dropped rows and released containers -/

/-- The operations that delete a row after its release. -/
def SiteEvent.dropsRows : SiteEvent → Bool
  | .route (.teardownInstance ..) | .route (.forceTeardown _) | .sweep => true
  | _ => false

/-- The operations that keep a row whose release fails. -/
def SiteEvent.keepsUnreleased : SiteEvent → Bool
  | .route (.forceTeardown _) | .sweep => true
  | _ => false

/-- **A row is dropped only when its container is**, as long as Docker does not refuse: with the
    administrator's teardown and the sweep whatever happens to the RPC, with the owner's when the RPC
    does not fail.  The owner's teardown drops the row in any case. -/
theorem rowDropped_released (policy : Policy) (env : DaemonEnv) (compare : FlagComparison)
    (s s' : Site) (row : EdoInstance) (containerId : ContainerId)
    (hpolicy : ¬ policy.RefusesContainer) (hkeyed : s.plugin.Keyed)
    (hrow : row ∈ s.plugin.instances) (hcontainer : row.containerId = some containerId) :
    (∀ event : SiteEvent, event.keepsUnreleased = true →
      SiteStep (UnreliableUnder policy env) compare s event s' → Deleted row s' →
      ¬ s'.daemon.Tracks containerId) ∧
    (∀ caller instanceId,
      SiteStep (ServedUnder policy env) compare s (.route (.teardownInstance caller instanceId)) s' →
      Deleted row s' → ¬ s'.daemon.Tracks containerId) ∧
    ∀ (rpc : RpcSem) caller, s.plugin.resolveOwner caller = some row.owner →
      SiteStep rpc compare s (.route (.teardownInstance caller row.id)) s' → Deleted row s' := by
  have hreleases : RpcSem.Releases (UnreliableUnder policy env) :=
    fun _ _ _ _ h => h.releaseAnswered hpolicy
  refine ⟨?_, ?_, ?_⟩
  · intro event hkeeps hstep hdeleted
    have hdrops : DropsReleased s s' := by
      cases hstep with
      | @route call out _ hends =>
        cases call with
        | forceTeardown instanceId => exact hends.of_wp (wp_forceTeardown hreleases hkeyed)
        | _ => cases hkeeps
      | sweep hends => exact hends.of_wp (wp_sweepExpired hreleases hkeyed)
      | tick _ | ctfd | drift _ => cases hkeeps
    exact hdrops row hrow hdeleted containerId hcontainer
  · intro caller instanceId hstep hdeleted
    have hserved : RpcSem.Releases (ServedUnder policy env) :=
      fun _ _ _ _ h => h.unreliable.releaseAnswered hpolicy
    have hanswers : RpcSem.Answers (ServedUnder policy env) := by
      rintro w request answer w' ⟨hends⟩
      exact ⟨_, rfl⟩
    cases hstep with
    | route hends =>
      exact hends.of_wp (wp_teardownInstance hserved hanswers hkeyed) row hrow hdeleted containerId
        hcontainer
  · intro rpc caller howner hstep
    cases hstep with
    | route hends =>
      exact (hends.of_wp (wp_teardownInstance_deletes (hkeyed.getInstance hrow) howner)).2

/-! ## Three ends of an instance -/

/-- An RPC whose handler runs undisturbed and has to succeed. -/
def execQuiet (env : DaemonEnv) : RpcExec := fun w request delivery _ =>
  execServed env w request delivery quietChoice

theorem executes_servedUnder : RpcSem.Executes (ServedUnder noFault env) (execQuiet env) := by
  intro w request delivery pick answer w' h
  simp only [execQuiet, execServed] at h
  split at h
  · rename_i trace reply last hrun
    cases h
    exact .mk ⟨trace, Machine.runs_of_run noFault_quietChoice hrun⟩
  · cases h

theorem not_refusesContainer_noFault : ¬ Policy.RefusesContainer noFault :=
  fun h => not_refuses_noFault (Or.inr h)

/-- The participant spawns the challenge. -/
def spawns : SiteMove := .routed (.spawnInstance (some 1) 1) (quietSiteChoice 0)

/-- A spawn, and a move after it. -/
def afterSpawn (call : RpcExec) (move : SiteMove) : Option (Site × Site) :=
  (siteHistory call sameContent (fun _ _ => true) [spawns] freshSite).bind fun s =>
    (move.exec call sameContent s).map fun s' => (s, s')

theorem step_afterSpawn {call : RpcExec} {rpc : RpcSem} {move : SiteMove} {s s' : Site}
    (hrpc : rpc.Executes call) (h : afterSpawn call move = some (s, s')) :
    SiteStep rpc sameContent s move.event s' := by
  obtain ⟨s₁, -, hmove⟩ := Option.bind_eq_some_iff.mp h
  obtain ⟨s₂, hexec, heq⟩ := Option.map_eq_some_iff.mp hmove
  cases heq
  exact SiteMove.step hrpc hexec

/-- The participant's row is gone; the daemon tracks its container or not. -/
def DropsRow (tracked : Prop) (result : Site × Site) : Prop :=
  result.1.plugin.Keyed ∧ result.1.plugin.resolveOwner (some 1) = some ⟨"user", 1⟩ ∧
    (∃ row ∈ result.1.plugin.instances, row.id = 1 ∧ row.owner = ⟨"user", 1⟩ ∧
      row.containerId = some 1) ∧
    result.2.plugin.instances = [] ∧ (result.2.daemon.Tracks 1 ↔ tracked)

instance (tracked : Prop) [Decidable tracked] (result : Site × Site) :
    Decidable (DropsRow tracked result) := by
  unfold DropsRow
  infer_instance

/-- The sweep, an hour later. -/
def sweepsLater : SiteMove := .swept (quietSiteChoice (timedelta 3600))

def tearsDown (pick : (op : SiteOp) → op.Choice) : SiteMove :=
  .routed (.teardownInstance (some 1) 1) pick

theorem sweepsLater_drops : (afterSpawn (execQuiet DaemonEnv.default) sweepsLater).any
    (fun result => decide (DropsRow False result)) = true := by
  decide +kernel

theorem tearsDown_drops : (afterSpawn (execQuiet DaemonEnv.default)
    (tearsDown (quietSiteChoice 0))).any (fun result => decide (DropsRow False result)) = true := by
  decide +kernel

theorem rowDropped_released_afterSpawn :
    (∃ s s', afterSpawn (execQuiet DaemonEnv.default) sweepsLater = some (s, s') ∧
      ¬ s'.daemon.Tracks 1) ∧
    ∃ s s' row, afterSpawn (execQuiet DaemonEnv.default) (tearsDown (quietSiteChoice 0)) =
      some (s, s') ∧ row ∈ s.plugin.instances ∧ Deleted row s' ∧ ¬ s'.daemon.Tracks 1 := by
  have hserved : RpcSem.Executes (ServedUnder noFault DaemonEnv.default)
      (execQuiet DaemonEnv.default) := executes_servedUnder
  constructor
  · obtain ⟨⟨s, s'⟩, hrun, hdrops⟩ := (Option.any_eq_true _ _).mp sweepsLater_drops
    obtain ⟨hkeyed, -, ⟨row, hrow, -, -, hcontainer⟩, hgone, -⟩ := of_decide_eq_true hdrops
    have hdeleted : Deleted row s' := Deleted.of_nil hgone
    have hstep : SiteStep (UnreliableUnder noFault DaemonEnv.default) sameContent s
        sweepsLater.event s' :=
      step_afterSpawn (fun _ _ _ _ _ _ h => (hserved _ _ _ _ _ _ h).unreliable) hrun
    exact ⟨s, s', hrun, (rowDropped_released noFault DaemonEnv.default sameContent s s' row 1
      not_refusesContainer_noFault hkeyed hrow hcontainer).1 _ rfl hstep hdeleted⟩
  · obtain ⟨⟨s, s'⟩, hrun, hdrops⟩ := (Option.any_eq_true _ _).mp tearsDown_drops
    obtain ⟨hkeyed, howner, ⟨row, hrow, hid, hown, hcontainer⟩, hgone, -⟩ := of_decide_eq_true hdrops
    have hstep := step_afterSpawn hserved hrun
    obtain ⟨-, huntracked, hdeletes⟩ := rowDropped_released noFault DaemonEnv.default sameContent s s'
      row 1 not_refusesContainer_noFault hkeyed hrow hcontainer
    rw [← hown] at howner
    have hdeleted : Deleted row s' := hdeletes _ (some 1) howner (by rw [hid]; exact hstep)
    exact ⟨s, s', row, hrun, hrow, hdeleted, huntracked _ _ hstep hdeleted⟩

/-- No request reaches the daemon. -/
def timesOut : (op : SiteOp) → op.Choice
  | .rpc _ => (.undelivered (.timeout "RPC container.release_instance timed out after 30s"), quietChoice)
  | op => quietSiteChoice 0 op

theorem timesOut_drops : (afterSpawn (execRpc DaemonEnv.default) (tearsDown timesOut)).any
    (fun result => decide (DropsRow True result)) = true := by
  decide +kernel

/-- The owner's teardown drops the row of a container that the daemon still tracks. -/
theorem not_rowDropped_released :
    ¬ ∀ (env : DaemonEnv) (compare : FlagComparison) (event : SiteEvent) (s s' : Site)
      (row : EdoInstance) (containerId : ContainerId), event.dropsRows = true → s.plugin.Keyed →
      row ∈ s.plugin.instances → row.containerId = some containerId →
      SiteStep (Unreliable env) compare s event s' → Deleted row s' →
      ¬ s'.daemon.Tracks containerId := by
  intro hall
  obtain ⟨⟨s, s'⟩, hrun, hdrops⟩ := (Option.any_eq_true _ _).mp timesOut_drops
  obtain ⟨hkeyed, -, ⟨row, hrow, -, -, hcontainer⟩, hgone, htracked⟩ := of_decide_eq_true hdrops
  have hdeleted : Deleted row s' := Deleted.of_nil hgone
  have hstep := step_afterSpawn (executes_unreliable DaemonEnv.default) hrun
  exact hall DaemonEnv.default sameContent _ s s' row 1 rfl hkeyed hrow hcontainer hstep hdeleted
    (htracked.mpr trivial)

end EdoPlugin
