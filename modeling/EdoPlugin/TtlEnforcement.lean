import EdoPlugin.RouteCalls
import EdoPlugin.RowRemoval

/-!
# The end of an instance's time

The sweep takes up the rows in status pending or running.  A row leaves these two when a tick hears
from the daemon that its container is not alive, and nothing brings it back, though the restart
policy may bring the container back.  As long as every tick hears that all containers are alive, no
row leaves them, and the sweep finds every container whose time is over.
-/

namespace EdoPlugin

open Interaction

/-! ## Active rows -/

/-- Every row can be found by the sweep. -/
def PluginDb.AllActive (db : PluginDb) : Prop := ∀ row ∈ db.instances, row.isActive = true

/-- The write leaves active rows active. -/
def Write.KeepsActive (write : Write) : Prop :=
  ∀ row row' : EdoInstance, row.isActive = true → write.onRow row = some row' → row'.isActive = true

theorem Write.keepsActive_delete {instanceId : Nat} : (deleteInstance instanceId).KeepsActive := by
  intro row row' hactive h
  simp only [onRow] at h
  split at h <;> cases h
  exact hactive

theorem Write.keepsActive_update {instanceId : Nat} {columns : List InstanceColumn}
    (hcolumns : ∀ row : EdoInstance, row.isActive = true → (row.update columns).isActive = true) :
    (updateInstance instanceId columns).KeepsActive := by
  intro row row' hactive h
  simp only [onRow] at h
  split at h <;> cases h
  · exact hcolumns row hactive
  · exact hactive

theorem rowAfter_active {writes : List Write} {row row' : EdoInstance}
    (hwrites : ∀ write ∈ writes, write.KeepsActive) (hactive : row.isActive = true)
    (h : rowAfter writes row = some row') : row'.isActive = true := by
  induction writes generalizing row with
  | nil =>
    cases h
    exact hactive
  | cons write writes ih =>
    obtain ⟨row₁, hwrite, hrest⟩ := Option.bind_eq_some_iff.mp h
    have hfirst := hwrites write List.mem_cons_self row row₁ hactive hwrite
    exact ih (fun other hother => hwrites other (List.mem_cons_of_mem _ hother)) hfirst hrest

/-- What holds of the table in every run: its constraints, and that the sweep can find every row. -/
structure PluginDb.Sweepable (db : PluginDb) : Prop extends db.Keyed where
  active : db.AllActive

theorem PluginDb.Sweepable.applyAll {db db' : PluginDb} {writes : List Write} (h : db.Sweepable)
    (hwrites : ∀ write ∈ writes, write.KeepsActive) (happly : db.applyAll writes = .ok db') :
    db'.Sweepable := by
  refine ⟨(h.toKeyed.applyAll happly).1, fun row' hrow' => ?_⟩
  obtain ⟨row, hrow, hafter⟩ := (h.toKeyed.mem_applyAll happly).mp hrow'
  exact rowAfter_active hwrites (h.active row hrow) hafter

theorem PluginDb.Sweepable.commit {db : PluginDb} {writes : List Write} (h : db.Sweepable)
    (hwrites : ∀ write ∈ writes, write.KeepsActive) : (db.commit writes).2.Sweepable := by
  unfold PluginDb.commit
  cases happly : db.applyAll writes with
  | ok db' => exact h.applyAll hwrites happly
  | error err => exact h

theorem PluginDb.Sweepable.commitInstance {db : PluginDb} {challengeId : Nat} {owner : Owner}
    {expiresAt : Timestamp} (h : db.Sweepable) :
    (db.commitInstance challengeId owner expiresAt).2.Sweepable := by
  unfold PluginDb.commitInstance
  cases hinsert : db.insertInstance challengeId owner expiresAt with
  | error err => exact h
  | ok result =>
    have hkeyed := h.toKeyed.insertInstance hinsert
    obtain ⟨-, -, row, -, -, -, hstatus, -, hdb⟩ := PluginDb.insertInstance_eq hinsert
    refine ⟨hkeyed, fun other hother => ?_⟩
    rw [hdb] at hother
    rcases List.mem_append.mp hother with hold | hnew
    · exact h.active other hold
    · rw [List.mem_singleton.mp hnew]
      simp [EdoInstance.isActive, hstatus]

/-! ## Spawns and extensions -/

/-- The calls that leave active rows active. -/
def activeCall : SiteOp → Prop
  | .commit writes => ∀ write ∈ writes, write.KeepsActive
  | _ => True

variable {rpc : RpcSem} {compare : FlagComparison} {s s' : Site} {α : Type}

theorem PluginDb.Sweepable.sem {op : SiteOp} {res : op.Res} (hcall : activeCall op)
    (h : s.plugin.Sweepable) (hsem : siteSem rpc s op res s') : s'.plugin.Sweepable := by
  cases op with
  | select | flush _ =>
    rw [hsem.2]
    exact h
  | commit writes =>
    rw [hsem.2]
    exact h.commit hcall
  | insertInstance challengeId owner expiresAt =>
    rw [hsem.2]
    exact h.commitInstance
  | rpc request =>
    rw [hsem.2]
    exact h
  | utcnow =>
    cases hsem
    exact h
  | rateLimit key limit window =>
    obtain ⟨now, -, rfl⟩ := hsem
    exact h

theorem PluginDb.Sweepable.ends {p : Plugin α} {out : Except PluginErr α}
    (hp : CallsOnly activeCall p) (h : s.plugin.Sweepable) (hends : Ends (siteSem rpc) p s out s') :
    s'.plugin.Sweepable := by
  refine hends.of_wp (CallsOnly.preserves (I := fun s => s.plugin.Sweepable) hp ?_ h)
  intro _ _ _ _ hcall h hsem
  exact h.sem hcall hsem

theorem reading_activeCall : Reading activeCall := ⟨trivial, trivial⟩

theorem activeCall_commit {write : Write} (h : write.KeepsActive) : activeCall (.commit [write]) := by
  intro other hother
  rw [List.mem_singleton.mp hother]
  exact h

theorem callsOnly_activeSpawn {caller : Option Int} {challengeId : Nat} :
    CallsOnly activeCall (UserRoutes.spawnInstance caller challengeId) := by
  apply callsOnly_spawnInstance reading_activeCall
  · exact fun _ _ _ => trivial
  · intro instanceId
    constructor
    · exact fun _ => trivial
    · exact activeCall_commit Write.keepsActive_delete
    · exact fun _ => activeCall_commit (Write.keepsActive_update fun _ _ => rfl)

theorem callsOnly_activeExtension {caller : Option Int} {instanceId : Nat} :
    CallsOnly activeCall (UserRoutes.extendInstance caller instanceId) := by
  apply callsOnly_extendInstance reading_activeCall
  exact fun _ _ => activeCall_commit (Write.keepsActive_update fun _ hactive => hactive)

/-! ## What the daemon reports -/

/-- A row of the later table comes from one of the earlier, with its status or, when that was
    running, with the status of its container in Docker. -/
def ReportedFrom (w : World) (reported : Instance) : Prop :=
  ∃ row ∈ w.db.instances, row.containerId = reported.containerId ∧
    (reported.status = row.status ∨ row.status = .running ∧
      ∃ c ∈ w.docker.containers, c.id = row.containerId ∧ c.status = reported.status)

/-- A reconciliation of the daemon is under way, or done. -/
structure Reporting (w₀ w : World) : Prop where
  containers : w.docker.containers = w₀.docker.containers
  reported : ∀ row ∈ w.db.instances, ReportedFrom w₀ row

variable {policy : Policy} {env : DaemonEnv} {w₀ w : World}

theorem Reporting.start (w : World) : Reporting w w :=
  ⟨rfl, fun row hrow => ⟨row, hrow, rfl, Or.inl rfl⟩⟩

theorem wp_reconcileOne_reports {row : Instance} (hrow : row ∈ w₀.db.instances)
    (hrunning : row.status = .running) (h : Reporting w₀ w) :
    wp (daemonSem policy) (fun _ _ => True) (reconcileOne row) (fun _ w' => Reporting w₀ w') w := by
  refine wp_containersGet trivial ?_ ?_ ?_
  · intro c hfind
    obtain ⟨hc, hid⟩ := Docker.mem_of_findContainer_id hfind
    rw [h.containers] at hc
    refine wp_ite (wp_callDb trivial ⟨h.containers, fun reported hreported => ?_⟩) h
    obtain ⟨old, hold, rfl⟩ := List.mem_map.mp hreported
    by_cases hsame : old.containerId = row.containerId
    · rw [if_pos hsame]
      exact ⟨row, hrow, hsame.symm, Or.inr ⟨hrunning, c, hc, hid, rfl⟩⟩
    · rw [if_neg hsame]
      exact h.reported old hold
  · intro msg _
    refine wp_callDb trivial ?_
    have hremoved : Reporting w₀ { w with db := (w.db.removeInstance row.containerId).2 } :=
      ⟨h.containers, fun other hother => h.reported other (List.mem_of_mem_filter hother)⟩
    have hdone : ∀ {w' : World},
        Undisturbed { w with db := (w.db.removeInstance row.containerId).2 } w' →
        Reporting w₀ w' := by
      intro w' hsame
      refine ⟨hsame.containers.trans hremoved.containers, fun other hother => ?_⟩
      rw [hsame.instances] at hother
      exact hremoved.reported other hother
    exact wp_seq (wp_idleNetworkCalls callsOnly_releaseOwnerNetworkIfIdle)
      (fun _ _ hsame => hdone hsame) fun _ _ hsame => hdone hsame
  · exact fun _ _ => h

theorem wp_reconcileEach_reports {rows : List Instance}
    (hrows : ∀ row ∈ rows, row ∈ w₀.db.instances ∧ row.status = .running) (h : Reporting w₀ w) :
    wp (daemonSem policy) (fun _ _ => True) (reconcileEach rows) (fun _ w' => Reporting w₀ w') w := by
  induction rows generalizing w with
  | nil => exact h
  | cons row rows ih =>
    obtain ⟨hrow, hrunning⟩ := hrows row List.mem_cons_self
    have hrest := fun other hother => hrows other (List.mem_cons_of_mem row hother)
    refine wp_seq (wp_reconcileOne_reports hrow hrunning h) ?_ fun _ _ hone => hone
    intro pruned w₁ hone
    exact wp_seq (ih hrest hone) (fun _ _ hall => hall) fun _ _ hall => hall

/-- The rows that `container.reconcile` reports. -/
theorem wp_handleContainerReconcile_reports :
    wp (daemonSem policy) (fun _ _ => True) handleContainerReconcile
      (fun out _ => ∀ pruned rows, out = .ok (.reconciled pruned rows) →
        ∀ row ∈ rows, ReportedFrom w row) w := by
  have hreconcile : wp (daemonSem policy) (fun _ _ => True) reconcile
      (fun _ w' => Reporting w w') w := by
    refine wp_dockerClient trivial (wp_callDb trivial ?_) fun _ _ => .start w
    refine wp_reconcileEach_reports ?_ (.start w)
    intro row hrow
    obtain ⟨hmem, hrunning⟩ := List.mem_filter.mp hrow
    exact ⟨hmem, of_decide_eq_true hrunning⟩
  refine wp_seq hreconcile ?_ ?_
  · intro count w₁ hreporting
    refine wp_callDb trivial ?_
    rintro pruned rows ⟨⟩
    exact hreporting.reported
  · intro err w₁ _ pruned rows h
    cases h

/-! ## Ticks -/

/-- The daemon would report the container alive. -/
def ReportedAlive (w : World) (containerId : ContainerId) : Prop :=
  ∀ row ∈ w.db.instances, row.containerId = containerId →
    Scheduler.reportsAlive row = true ∧ (row.status = .running →
      ∀ c ∈ w.docker.containers, c.id = containerId → c.status = .running ∨ c.status = .created)

/-- No active row has a container that the daemon would report dead. -/
def TickSafe (s : Site) : Prop :=
  ∀ row ∈ s.plugin.instances, row.isActive = true →
    ∀ containerId ∈ row.containerId, ReportedAlive s.daemon containerId

theorem ReportedAlive.of_reported {containerId : ContainerId} {reported : Instance}
    (h : ReportedAlive w containerId) (hreported : ReportedFrom w reported)
    (hid : reported.containerId = containerId) : Scheduler.reportsAlive reported = true := by
  obtain ⟨row, hrow, hsame, hstatus⟩ := hreported
  obtain ⟨halive, hcontainers⟩ := h row hrow (hsame.trans hid)
  rcases hstatus with hstatus | ⟨hrunning, c, hc, hcid, hstatus⟩
  · unfold Scheduler.reportsAlive at halive ⊢
    rw [hstatus]
    exact halive
  · have hdocker := hcontainers hrunning c hc (hcid.trans (hsame.trans hid))
    rw [hstatus] at hdocker
    exact decide_eq_true hdocker

/-- What a tick writes about rows whose containers are reported alive. -/
theorem keepsActive_reconcileWrite {row : EdoInstance} {now : Timestamp} {live : List Instance}
    {containerId : ContainerId}
    (halive : ∀ reported ∈ live, reported.containerId = containerId →
      Scheduler.reportsAlive reported = true) :
    (Scheduler.reconcileWrite row now
      (live.find? fun instance_ => instance_.containerId = containerId)).KeepsActive := by
  cases hfind : live.find? fun instance_ => instance_.containerId = containerId with
  | none => exact Write.keepsActive_delete
  | some reported =>
    have hid : reported.containerId = containerId := by simpa using List.find?_some hfind
    have hreported := halive reported (List.mem_of_find?_eq_some hfind) hid
    simp only [Scheduler.reconcileWrite, hreported, if_true]
    exact Write.keepsActive_update fun _ hactive => hactive

theorem wp_tickEach {live : List Instance} {rows : List EdoInstance}
    (halive : ∀ row ∈ rows, ∀ containerId, row.containerId = some containerId →
      ∀ reported ∈ live, reported.containerId = containerId →
        Scheduler.reportsAlive reported = true) :
    wp (siteSem rpc) (fun _ _ => True) (Scheduler.reconcileEach live rows)
      (fun out s' => s' = s ∧ ∃ writes, out = .ok writes ∧ ∀ write ∈ writes, write.KeepsActive) s := by
  induction rows generalizing s with
  | nil => exact ⟨rfl, [], rfl, fun _ h => nomatch h⟩
  | cons row rows ih =>
    have hrest := fun other hother => halive other (List.mem_cons_of_mem row hother)
    unfold Scheduler.reconcileEach
    cases hcontainer : row.containerId with
    | none => exact ih hrest
    | some containerId =>
      refine wp_utcnow trivial fun now => wp_then (ih hrest) ?_ ?_
      · rintro writes s₁ ⟨rfl, _, ⟨⟩, hwrites⟩
        refine ⟨rfl, _, rfl, fun write hwrite => ?_⟩
        rcases List.mem_cons.mp hwrite with rfl | hmem
        · exact keepsActive_reconcileWrite (halive row List.mem_cons_self containerId hcontainer)
        · exact hwrites write hmem
      · rintro err s₁ ⟨_, _, h, _⟩
        cases h

/-- The reports of the daemon are about its rows. -/
def RpcSem.Reports (rpc : RpcSem) : Prop :=
  ∀ w pruned rows w', rpc w .containerReconcile (.ok (.reconciled pruned rows)) w' →
    ∀ row ∈ rows, ReportedFrom w row

theorem wp_containerReconcile (hrpc : rpc.Reports) :
    wp (siteSem rpc) (fun _ _ => True) DaemonClient.containerReconcile
      (fun out s' => s'.plugin = s.plugin ∧
        ∀ live, out = .ok (.ok live) → ∀ row ∈ live, ReportedFrom s.daemon row) s := by
  refine wp_callRpc trivial fun answer w hanswer => ?_
  cases answer with
  | error err => exact ⟨rfl, fun _ h => nomatch h⟩
  | ok reply =>
    cases reply with
    | reconciled pruned rows =>
      refine ⟨rfl, ?_⟩
      rintro live ⟨⟩
      exact hrpc _ _ _ _ hanswer
    | _ => exact ⟨rfl, fun _ h => nomatch h⟩

theorem wp_tick (hrpc : rpc.Reports) (hsafe : TickSafe s) (h : s.plugin.Sweepable) :
    wp (siteSem rpc) (fun _ _ => True) Scheduler.reconcile (fun _ s' => s'.plugin.Sweepable) s := by
  refine wp_then (wp_containerReconcile hrpc) ?_ ?_
  · rintro result s₁ ⟨hplugin, hreported⟩
    have hstay : s₁.plugin.Sweepable := hplugin.symm ▸ h
    cases result with
    | error err => exact hstay
    | ok live =>
      refine wp_select trivial (wp_then (wp_tickEach ?_) ?_ ?_)
      · intro row hrow containerId hcontainer reported hmem hid
        obtain ⟨htable, hactive⟩ := List.mem_filter.mp hrow
        rw [hplugin] at htable
        exact (hsafe row htable hactive containerId hcontainer).of_reported
          (hreported live rfl reported hmem) hid
      · rintro writes s₂ ⟨rfl, _, ⟨⟩, hwrites⟩
        exact wp_commitLast trivial (fun db happly => hstay.applyAll hwrites happly) fun _ _ => hstay
      · rintro err s₂ ⟨_, _, h, _⟩
        cases h
  · rintro err s₁ ⟨hplugin, -⟩
    rw [hplugin]
    exact h

/-! ## Sweeps -/

theorem wp_sweepEach_answers (hrpc : rpc.Answers) {rows : List EdoInstance} :
    wp (siteSem rpc) (fun _ _ => True) (Scheduler.sweepEach rows)
      (fun out _ => out = .ok (rows.map fun row => .deleteInstance row.id)) s := by
  induction rows generalizing s with
  | nil => rfl
  | cons row rows ih =>
    refine wp_then (wp_releaseContainer_answers hrpc) ?_ fun _ _ h => nomatch h
    rintro released s₁ ⟨⟩
    refine wp_then ih ?_ fun _ _ h => nomatch h
    rintro writes s₂ ⟨⟩
    rfl

theorem rowAfter_deletes {rows : List EdoInstance} {row row' : EdoInstance}
    (h : rowAfter (rows.map fun row => .deleteInstance row.id) row = some row') : row' = row := by
  induction rows with
  | nil =>
    cases h
    rfl
  | cons other rows ih =>
    obtain ⟨row₁, hfirst, hrest⟩ := Option.bind_eq_some_iff.mp h
    simp only [Write.onRow] at hfirst
    split at hfirst <;> cases hfirst
    exact ih hrest

/-- What the sweep at a time leaves: no new row, and none of the containers whose time was over. -/
structure Swept (now : Timestamp) (s s' : Site) : Prop where
  sweepable : s'.plugin.Sweepable
  rows : ∀ row ∈ s'.plugin.instances, row ∈ s.plugin.instances
  untracked : ∀ row ∈ s.plugin.instances, row.expiresAt ≤ now →
    ∀ containerId, row.containerId = some containerId → ¬ s'.daemon.Tracks containerId

theorem wp_sweepAt (hrpc : rpc.Releases) (hanswers : rpc.Answers) (h : s.plugin.Sweepable)
    {now : Timestamp} :
    wp (siteSem rpc) (fun _ _ => True) (Scheduler.sweepAt now) (fun _ s' => Swept now s s') s := by
  have hexpired : ∀ row ∈ s.plugin.instances, row.expiresAt ≤ now →
      row ∈ Scheduler.expiredRows s.plugin now := by
    intro row hrow htime
    exact List.mem_filter.mpr ⟨hrow, decide_eq_true ⟨htime, h.active row hrow⟩⟩
  refine wp_select trivial (wp_branch (fun hempty => ?_) fun _ => ?_)
  · refine ⟨h, fun _ hrow => hrow, fun row hrow htime => ?_⟩
    have hmem := hexpired row hrow htime
    rw [List.isEmpty_iff.mp hempty] at hmem
    cases hmem
  · refine wp_then (wp_and (wp_sweepEach hrpc) (wp_sweepEach_answers hanswers)) ?_ ?_
    · rintro writes s₁ ⟨⟨_, ⟨⟩, hplugin, -, hwrites⟩, hdeletes⟩
      rw [Except.ok.injEq] at hdeletes
      subst hdeletes
      have huntracked : ∀ row ∈ s.plugin.instances, row.expiresAt ≤ now →
          ∀ containerId, row.containerId = some containerId → ¬ s₁.daemon.Tracks containerId := by
        intro row hrow htime
        obtain ⟨other, hother, hid, hdone⟩ := hwrites.deleted row.id
          (List.mem_map.mpr ⟨row, hexpired row hrow htime, rfl⟩)
        rw [← h.eq_of_id (List.mem_of_mem_filter hother) hrow hid]
        exact hdone
      refine wp_commitLast trivial (fun db happly => ?_) fun err _ => ?_
      · rw [hplugin] at happly
        refine ⟨h.applyAll ?_ happly, fun row' hrow' => ?_, huntracked⟩
        · intro write hwrite
          obtain ⟨row, -, rfl⟩ := List.mem_map.mp hwrite
          exact Write.keepsActive_delete
        · obtain ⟨row, hrow, hafter⟩ := (h.toKeyed.mem_applyAll happly).mp hrow'
          rw [rowAfter_deletes hafter]
          exact hrow
      · exact ⟨hplugin.symm ▸ h, fun row hrow => hplugin ▸ hrow, huntracked⟩
    · rintro err s₁ ⟨⟨_, h, -⟩, -⟩
      cases h

/-! ## Runs -/

/-- No RPC fails, and Docker refuses nothing to a release. -/
inductive ServedReleasing (env : DaemonEnv) (w : World) :
    Request → Except DaemonError Reply → World → Prop
  | release {policy containerId answer w'} : ¬ Policy.RefusesContainer policy →
      ServedUnder policy env w (.containerReleaseInstance containerId) answer w' →
      ServedReleasing env w (.containerReleaseInstance containerId) answer w'
  | other {request answer w'} : (∀ containerId, request ≠ .containerReleaseInstance containerId) →
      Served env w request answer w' → ServedReleasing env w request answer w'

theorem releases_servedReleasing : RpcSem.Releases (ServedReleasing env) := by
  intro w containerId answer w' h
  cases h with
  | release hpolicy h => exact h.unreliable.releaseAnswered hpolicy
  | other hother h => exact absurd rfl (hother containerId)

theorem answers_servedReleasing : RpcSem.Answers (ServedReleasing env) := by
  intro w request answer w' h
  cases h with
  | release _ h =>
    cases h with
    | mk _ => exact ⟨_, rfl⟩
  | other _ h =>
    cases h with
    | mk _ => exact ⟨_, rfl⟩

theorem reports_servedReleasing : RpcSem.Reports (ServedReleasing env) := by
  intro w pruned rows w' h
  cases h with
  | other _ h =>
    cases h with
    | mk hends => exact hends.of_wp wp_handleContainerReconcile_reports pruned rows rfl

/-- Spawns, extensions, ticks, sweeps, and what containers do on their own. -/
def SiteEvent.concernsTtl : SiteEvent → Bool
  | .route (.spawnInstance ..) | .route (.extendInstance ..) | .tick | .sweep | .drift => true
  | _ => false

/-- Ticks come when no active row has a container that would be reported dead. -/
def TicksSafely (s : Site) : SiteEvent → Prop
  | .tick => TickSafe s
  | _ => True

/-- **One operation leaves every row where the sweep finds it.** -/
theorem PluginDb.Sweepable.step {event : SiteEvent} (h : s.plugin.Sweepable)
    (hevent : event.concernsTtl) (hsafe : TicksSafely s event)
    (hstep : SiteStep (ServedReleasing env) compare s event s') : s'.plugin.Sweepable := by
  cases hstep with
  | @route call out _ hends =>
    cases call with
    | spawnInstance caller challengeId => exact h.ends callsOnly_activeSpawn hends
    | extendInstance caller instanceId => exact h.ends callsOnly_activeExtension hends
    | _ => cases hevent
  | sweep hends =>
    have hsweep : wp (siteSem (ServedReleasing env)) (fun _ _ => True) Scheduler.sweepExpired
        (fun _ s' => s'.plugin.Sweepable) s := by
      refine wp_utcnow trivial fun now => ?_
      exact wp_mono (wp_sweepAt releases_servedReleasing answers_servedReleasing h)
        fun _ _ hswept => hswept.sweepable
    exact hends.of_wp hsweep
  | tick hends => exact hends.of_wp (wp_tick reports_servedReleasing hsafe h)
  | ctfd => cases hevent
  | drift _ => exact h

theorem SiteRun.sweepable {s₀ s : Site} (h₀ : s₀.plugin.Sweepable)
    (hrun : SiteRun (ServedReleasing env) compare
      (fun s event => event.concernsTtl ∧ TicksSafely s event) s₀ s) : s.plugin.Sweepable := by
  induction hrun with
  | start => exact h₀
  | step _ hok hstep ih => exact ih.step hok.1 hok.2 hstep

/-- **The sweep enforces the end of every instance's time**, as long as no tick hears that a container
    is not alive. -/
theorem sweep_enforces_ttl (env : DaemonEnv) (compare : FlagComparison) (s₀ s s' : Site)
    (now : Timestamp) (out : Except PluginErr Unit) (row : EdoInstance) (containerId : ContainerId)
    (hstart : s₀.plugin.instances = [])
    (hrun : SiteRun (ServedReleasing env) compare
      (fun s event => event.concernsTtl ∧ TicksSafely s event) s₀ s)
    (hsweep : Ends (siteSem (ServedReleasing env)) (Scheduler.sweepAt now) s out s')
    (hrow : row ∈ s.plugin.instances ∨ row ∈ s'.plugin.instances) (hexpired : row.expiresAt ≤ now)
    (hcontainer : row.containerId = some containerId) : ¬ s'.daemon.Tracks containerId := by
  have hempty : s₀.plugin.Sweepable := by
    refine ⟨⟨?_, ?_, ?_⟩, ?_⟩ <;> simp [hstart, PluginDb.AllActive]
  have hswept := hsweep.of_wp
    (wp_sweepAt releases_servedReleasing answers_servedReleasing (hrun.sweepable hempty))
  rcases hrow with hbefore | hafter
  · exact hswept.untracked row hbefore hexpired containerId hcontainer
  · exact hswept.untracked row (hswept.rows row hafter) hexpired containerId hcontainer

/-! ## Two histories -/

instance (w : World) (containerId : ContainerId) : Decidable (ReportedAlive w containerId) := by
  unfold ReportedAlive
  infer_instance

instance (s : Site) : Decidable (TickSafe s) := by
  unfold TickSafe
  infer_instance

instance (s : Site) : (event : SiteEvent) → Decidable (TicksSafely s event)
  | .tick => inferInstanceAs (Decidable (TickSafe s))
  | .route _ | .sweep | .ctfd _ | .drift => isTrue trivial

theorem executes_servedReleasing : RpcSem.Executes (ServedReleasing env) (execQuiet env) := by
  intro w request delivery pick answer w' h
  have hserved := executes_servedUnder w request delivery pick answer w' h
  have hother : Served env w request answer w' := by
    cases hserved with
    | mk hends =>
      obtain ⟨trace, hrun⟩ := hends
      exact .mk ⟨trace, hrun.mono anyFault_of_noFault⟩
  cases request with
  | containerReleaseInstance containerId => exact .release not_refusesContainer_noFault hserved
  | _ => exact .other (fun _ h => nomatch h) hother

/-- A sweep after a history. -/
def sweepAfter (check : Site → SiteEvent → Bool) (moves : List SiteMove) (now : Timestamp) :
    Option (Site × Except PluginErr Unit × Site) :=
  (siteHistory (execQuiet DaemonEnv.default) sameContent check moves freshSite).bind fun s =>
    ((siteMachine (execQuiet DaemonEnv.default)).run (quietSiteChoice now) (Scheduler.sweepAt now)
      s).map fun result => (s, result.2)

theorem ends_sweepAfter {check : Site → SiteEvent → Bool} {ok : Site → SiteEvent → Prop}
    {moves : List SiteMove} {now : Timestamp} {s s' : Site} {out : Except PluginErr Unit}
    (hok : ∀ s event, check s event = true → ok s event)
    (h : sweepAfter check moves now = some (s, out, s')) :
    SiteRun (ServedReleasing DaemonEnv.default) sameContent ok freshSite s ∧
      Ends (siteSem (ServedReleasing DaemonEnv.default)) (Scheduler.sweepAt now) s out s' := by
  obtain ⟨s₁, hhistory, hsweep⟩ := Option.bind_eq_some_iff.mp h
  obtain ⟨⟨trace, out', last⟩, hrun, heq⟩ := Option.map_eq_some_iff.mp hsweep
  cases heq
  exact ⟨.of_siteHistory executes_servedReleasing hok hhistory,
    ends_of_siteRun executes_servedReleasing hrun⟩

/-- The row of container 1 has expired; the daemon tracks the container after the sweep or not. -/
def Expires (tracked : Prop) (now : Timestamp)
    (result : Site × Except PluginErr Unit × Site) : Prop :=
  (∃ row ∈ result.1.plugin.instances, row.expiresAt ≤ now ∧ row.containerId = some 1) ∧
    result.1.daemon.Tracks 1 ∧ (result.2.2.daemon.Tracks 1 ↔ tracked)

instance (tracked : Prop) [Decidable tracked] (now : Timestamp)
    (result : Site × Except PluginErr Unit × Site) : Decidable (Expires tracked now result) := by
  unfold Expires
  infer_instance

def ticks : SiteMove := .ticked (quietSiteChoice 0)

/-- A tick comes while the container is running. -/
theorem spawnTick_expires : (sweepAfter
    (fun s event => event.concernsTtl && decide (TicksSafely s event)) [spawns, ticks]
    (timedelta 3600)).any (fun result => decide (Expires False (timedelta 3600) result)) = true := by
  decide +kernel

theorem sweep_enforces_ttl_spawnTick :
    ∃ s out s', sweepAfter (fun s event => event.concernsTtl && decide (TicksSafely s event))
      [spawns, ticks] (timedelta 3600) = some (s, out, s') ∧ s.daemon.Tracks 1 ∧
        ¬ s'.daemon.Tracks 1 := by
  obtain ⟨⟨s, out, s'⟩, hrun, hexpires⟩ := (Option.any_eq_true _ _).mp spawnTick_expires
  obtain ⟨⟨row, hrow, hexpired, hcontainer⟩, htracked, -⟩ := of_decide_eq_true hexpires
  have hchecks : ∀ (s : Site) (event : SiteEvent),
      (event.concernsTtl && decide (TicksSafely s event)) = true →
        event.concernsTtl ∧ TicksSafely s event := by
    intro s event h
    obtain ⟨hevent, hsafe⟩ := Bool.and_eq_true_iff.mp h
    exact ⟨hevent, of_decide_eq_true hsafe⟩
  obtain ⟨hhistory, hsweep⟩ := ends_sweepAfter hchecks hrun
  refine ⟨s, out, s', hrun, htracked, ?_⟩
  exact sweep_enforces_ttl DaemonEnv.default sameContent freshSite s s' (timedelta 3600) out row 1 rfl
    hhistory hsweep (Or.inl hrow) hexpired hcontainer

/-- A container exits, a tick hears of it, and the restart policy starts it again. -/
def crashTickRestart : List SiteMove := [spawns, .turned 1 .exited, ticks, .turned 1 .running]

theorem crashTickRestart_expires : (sweepAfter (fun _ event => event.concernsTtl) crashTickRestart
    (timedelta 3600)).any (fun result => decide (Expires True (timedelta 3600) result)) = true := by
  decide +kernel

/-- The container that once exited outlives its time. -/
theorem not_sweep_enforces_ttl :
    ¬ ∀ (env : DaemonEnv) (compare : FlagComparison) (s₀ s s' : Site) (now : Timestamp)
      (out : Except PluginErr Unit) (row : EdoInstance) (containerId : ContainerId),
      s₀.plugin.instances = [] →
      SiteRun (ServedReleasing env) compare (fun _ event => event.concernsTtl) s₀ s →
      Ends (siteSem (ServedReleasing env)) (Scheduler.sweepAt now) s out s' →
      row ∈ s.plugin.instances ∨ row ∈ s'.plugin.instances → row.expiresAt ≤ now →
      row.containerId = some containerId → ¬ s'.daemon.Tracks containerId := by
  intro hall
  obtain ⟨⟨s, out, s'⟩, hrun, hexpires⟩ := (Option.any_eq_true _ _).mp crashTickRestart_expires
  obtain ⟨⟨row, hrow, hexpired, hcontainer⟩, -, htracked⟩ := of_decide_eq_true hexpires
  obtain ⟨hhistory, hsweep⟩ := ends_sweepAfter (fun _ _ h => h) hrun
  exact hall DaemonEnv.default sameContent freshSite s s' (timedelta 3600) out row 1 rfl hhistory
    hsweep (Or.inl hrow) hexpired hcontainer (htracked.mpr trivial)

end EdoPlugin
