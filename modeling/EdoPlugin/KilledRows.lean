import EdoPlugin.KillSwitch
import EdoPlugin.RowRemoval

/-!
# The rows after a kill switch

The daemon releases the rows it has in status `running`, and a row whose release Docker refuses
stays.  The route then deletes the rows the plugin has in status pending or running, whatever became
of their containers.  The two tables agree afterwards exactly when the two selections did.
-/

namespace EdoPlugin

open Interaction

/-! ## Which releases are refused -/

/-- The call about a container that Docker refuses. -/
inductive Trouble where
  | lookup
  | stop
  | removal
deriving DecidableEq, Repr

/-- Docker refuses these calls about containers and no others.  Whatever else can fail may fail. -/
def troubled (trouble : ContainerId → Option Trouble) : Policy
  | .docker (.containersGet (.id id)), fault => fault.isSome = true ↔ trouble id = some .lookup
  | .docker (.stop id), fault => fault.isSome = true ↔ trouble id = some .stop
  | .docker (.remove id), fault => fault.isSome = true ↔ trouble id = some .removal
  | _, _ => True

/-- Docker refuses to release the container: it does not find out about it, or it has it and does
    not stop or remove it. -/
def Docker.RefusesRelease (trouble : ContainerId → Option Trouble) (d : Docker) (id : ContainerId) :
    Prop :=
  trouble id = some .lookup ∨ trouble id ≠ none ∧ ∃ c ∈ d.containers, c.id = id

variable {trouble : ContainerId → Option Trouble} {w : World}

theorem Docker.refusesRelease_congr {d d' : Docker} {id : ContainerId}
    (h : (∃ c ∈ d'.containers, c.id = id) ↔ ∃ c ∈ d.containers, c.id = id) :
    d'.RefusesRelease trouble id ↔ d.RefusesRelease trouble id := by
  unfold RefusesRelease
  rw [h]

theorem Docker.exists_updateContainer {d : Docker} {id other : ContainerId} {f : Container → Container}
    (hf : ∀ c, (f c).id = c.id) :
    (∃ c ∈ (d.updateContainer id f).containers, c.id = other) ↔ ∃ c ∈ d.containers, c.id = other := by
  have hid : ∀ c, (if c.id = id then f c else c).id = c.id := by
    intro c
    split
    · exact hf c
    · rfl
  simp [updateContainer, hid]

theorem Docker.refusesRelease_removed {d : Docker} {id other : ContainerId}
    (hnone : trouble id = none) :
    ({ d with containers := d.containers.filter fun c => c.id ≠ id } : Docker).RefusesRelease trouble
      other ↔ d.RefusesRelease trouble other := by
  by_cases hother : other = id
  · simp [RefusesRelease, hother, hnone]
  · apply refusesRelease_congr
    constructor
    · rintro ⟨c, hc, hid⟩
      exact ⟨c, List.mem_of_mem_filter hc, hid⟩
    · rintro ⟨c, hc, rfl⟩
      exact ⟨c, List.mem_filter.mpr ⟨hc, decide_eq_true hother⟩, rfl⟩

/-- Docker's part of a release, with what it leaves of the refusals. -/
structure ReleaseTried (trouble : ContainerId → Option Trouble) (id : ContainerId) (w : World)
    (stopped : Except DockerErr Unit) (w' : World) : Prop where
  refused : isRefusal stopped = true ↔ w.docker.RefusesRelease trouble id
  others : ∀ other, w'.docker.RefusesRelease trouble other ↔ w.docker.RefusesRelease trouble other

theorem wp_stopAndRemove_troubled {id : ContainerId} :
    wp (daemonSem (troubled trouble)) (fun _ _ => True) (stopAndRemove id)
      (fun out w' => ∃ stopped, out = .ok stopped ∧ ReleaseTried trouble id w stopped w') w := by
  refine wp_callDocker trivial fun lookup hlookup => ?_
  cases lookup with
  | some msg => exact ⟨_, rfl, ⟨fun _ => Or.inl (hlookup.mp rfl), fun _ => rfl⟩, fun _ => Iff.rfl⟩
  | none =>
    have hfound : trouble id ≠ some .lookup := fun h => by cases hlookup.mpr h
    cases hfind : w.docker.findContainer (.id id) with
    | none =>
      simp only [DockerOp.exec, failing, Docker.containersGet, hfind]
      refine ⟨_, rfl, ⟨fun h => (by cases h), ?_⟩, fun _ => Iff.rfl⟩
      rintro (h | ⟨-, c, hc, hid⟩)
      · exact absurd h hfound
      · exact absurd hid (Docker.findContainer_id_eq_none_iff.mp hfind c hc)
    | some c =>
      obtain ⟨hc, rfl⟩ := Docker.mem_of_findContainer_id hfind
      simp only [DockerOp.exec, failing, Docker.containersGet, hfind]
      refine wp_callDocker trivial fun stop hstop => ?_
      cases stop with
      | some msg =>
        have htrouble : trouble c.id = some .stop := hstop.mp rfl
        refine ⟨_, rfl, ⟨fun _ => Or.inr ⟨?_, c, hc, rfl⟩, fun _ => rfl⟩, fun _ => Iff.rfl⟩
        simp [htrouble]
      | none =>
        simp only [DockerOp.exec, failing, Docker.stop, hfind]
        refine wp_callDocker (f := fun res => .ret res) trivial fun removal hremoval => ?_
        have hsame : ∀ other, (w.docker.updateContainer c.id Container.stopped).RefusesRelease
            trouble other ↔ w.docker.RefusesRelease trouble other := fun other =>
          Docker.refusesRelease_congr (Docker.exists_updateContainer fun _ => rfl)
        cases removal with
        | some msg =>
          have htrouble : trouble c.id = some .removal := hremoval.mp rfl
          refine ⟨_, rfl, ⟨fun _ => Or.inr ⟨?_, c, hc, rfl⟩, fun _ => rfl⟩, hsame⟩
          simp [htrouble]
        | none =>
          have hnone : trouble c.id = none := by
            cases htrouble : trouble c.id with
            | none => rfl
            | some kind =>
              cases kind with
              | lookup => exact absurd htrouble hfound
              | stop => cases hstop.mpr htrouble
              | removal => cases hremoval.mpr htrouble
          have hremoved : ∀ other, ({ w.docker.updateContainer c.id Container.stopped with
              containers := (w.docker.updateContainer c.id Container.stopped).containers.filter
                fun c' => c'.id ≠ c.id } : Docker).RefusesRelease trouble other ↔
                w.docker.RefusesRelease trouble other := fun other =>
            (Docker.refusesRelease_removed hnone).trans (hsame other)
          have hgranted : ∀ {stopped : Except DockerErr Unit}, isRefusal stopped = false →
              (isRefusal stopped = true ↔ w.docker.RefusesRelease trouble c.id) := by
            intro stopped hstopped
            simp [hstopped, Docker.RefusesRelease, hnone]
          simp only [DockerOp.exec, failing, Docker.remove]
          split
          · exact ⟨_, rfl, hgranted rfl, hsame⟩
          · exact ⟨_, rfl, hgranted rfl, hremoved⟩

/-! ## The tables -/

/-- A release, with what it leaves of the instances and of the refusals. -/
structure ReleaseEnded (trouble : ContainerId → Option Trouble) (ids : List ContainerId)
    (w w' : World) : Prop where
  instances : ∀ row, row ∈ w'.db.instances ↔ row ∈ w.db.instances ∧
    (row.containerId ∈ ids → w.docker.RefusesRelease trouble row.containerId)
  others : ∀ other, w'.docker.RefusesRelease trouble other ↔ w.docker.RefusesRelease trouble other

theorem ReleaseEnded.cons {id : ContainerId} {ids : List ContainerId} {w₁ w₂ : World}
    (h : ReleaseEnded trouble [id] w w₁) (hrest : ReleaseEnded trouble ids w₁ w₂) :
    ReleaseEnded trouble (id :: ids) w w₂ := by
  constructor
  · intro row
    rw [hrest.instances, h.instances, h.others, List.mem_singleton, List.mem_cons, or_imp, and_assoc]
  · intro other
    rw [hrest.others, h.others]

theorem wp_releaseInstance_troubled {id : ContainerId} :
    wp (daemonSem (troubled trouble)) (fun _ _ => True) (releaseInstance id)
      (fun out w' => ∀ removed, out = .ok removed → ReleaseEnded trouble [id] w w') w := by
  refine wp_dockerClient trivial (wp_callDb trivial ?_) fun msg _ removed h => (by cases h)
  simp only [DbOp.exec]
  refine wp_seq (wp_and wp_stopAndRemove_troubled wp_stopAndRemove) ?_ ?_
  · rintro stopped w₁ ⟨⟨_, ⟨⟩, hrefused, hothers⟩, ⟨_, ⟨⟩, hdb, -, -⟩⟩
    have hforget : isRefusal stopped = false → ∀ inst, wp (daemonSem (troubled trouble))
        (fun _ _ => True) (forgetInstance inst id)
        (fun out w' => ∀ removed, out = .ok removed → ReleaseEnded trouble [id] w w') w₁ := by
      intro hanswered inst
      refine wp_mono wp_forgetInstance ?_
      rintro out w' ⟨hsame, -⟩ removed -
      have hnot : ¬ w.docker.RefusesRelease trouble id := by
        rw [← hrefused, hanswered]
        exact Bool.false_ne_true
      constructor
      · intro row
        rw [hsame.instances, hdb]
        simp only [Db.removeInstance, List.mem_filter, decide_eq_true_eq, List.mem_singleton]
        by_cases hid : row.containerId = id
        · simp [hid, hnot]
        · simp [hid]
      · intro other
        rw [← hothers]
        apply Docker.refusesRelease_congr
        rw [hsame.containers]
    cases stopped with
    | ok _ => exact hforget rfl _
    | error err =>
      cases err with
      | notFound msg => exact hforget rfl _
      | apiError msg =>
        intro removed _
        refine ⟨fun row => ?_, hothers⟩
        rw [hdb, List.mem_singleton]
        refine ⟨fun hrow => ⟨hrow, ?_⟩, fun h => h.1⟩
        rintro rfl
        exact hrefused.mp rfl
  · rintro err w₁ ⟨⟨_, h, -⟩, -⟩
    cases h

theorem wp_teardownEach_troubled {rows : List Instance} :
    wp (daemonSem (troubled trouble)) (fun _ _ => True) (teardownEach rows)
      (fun out w' => ∀ count, out = .ok count →
        ReleaseEnded trouble (rows.map Instance.containerId) w w') w := by
  induction rows generalizing w with
  | nil =>
    intro count _
    exact ⟨fun row => by simp, fun _ => Iff.rfl⟩
  | cons row rows ih =>
    apply wp_seq wp_releaseInstance_troubled
    · intro released w₁ hfirst
      apply wp_seq ih
      · intro count w₂ hrest total _
        exact (hfirst released rfl).cons (hrest count rfl)
      · intro err w₂ _ count h
        cases h
    · intro err w₁ _ count h
      cases h

/-! ## The route -/

/-- The daemon keeps a row for the container through a kill switch. -/
def World.KeepsTracking (trouble : ContainerId → Option Trouble) (w : World) (id : ContainerId) :
    Prop :=
  w.Tracks id ∧ ((∃ row ∈ w.db.instances, row.containerId = id ∧ row.status = .running) →
    w.docker.RefusesRelease trouble id)

variable {env : DaemonEnv} {s s' : Site}

theorem wp_handleKillSwitch_troubled :
    wp (daemonSem (troubled trouble)) (fun _ _ => True) (handle env .killSwitch)
      (fun out w' => ∀ reply, out = .ok reply →
        ∀ id, w'.Tracks id ↔ w.KeepsTracking trouble id) w := by
  have hall : wp (daemonSem (troubled trouble)) (fun _ _ => True) teardownAll
      (fun out w' => ∀ count, out = .ok count →
        ReleaseEnded trouble (w.db.getActiveInstances.map Instance.containerId) w w') w :=
    wp_callDb trivial wp_teardownEach_troubled
  apply wp_seq hall
  · intro count w₁ hended
    have hkept : ∀ id, w₁.Tracks id ↔ w.KeepsTracking trouble id := by
      intro id
      have hruns : id ∈ w.db.getActiveInstances.map Instance.containerId ↔
          ∃ row ∈ w.db.instances, row.containerId = id ∧ row.status = .running := by
        simp [Db.getActiveInstances, and_assoc, and_comm]
      unfold World.KeepsTracking World.Tracks
      rw [← hruns]
      constructor
      · rintro ⟨row, hrow, rfl⟩
        rw [(hended count rfl).instances] at hrow
        exact ⟨⟨row, hrow.1, rfl⟩, hrow.2⟩
      · rintro ⟨⟨row, hrow, rfl⟩, hrefused⟩
        exact ⟨row, ((hended count rfl).instances row).mpr ⟨hrow, hrefused⟩, rfl⟩
    apply wp_seq wp_rebuildFirewall_sameDb
    · intro _ w₂ hdb reply _ id
      rw [← hkept, World.Tracks, World.Tracks, hdb]
    · intro err w₂ _ reply h
      cases h
  · intro err w₁ _ reply h
    cases h

/-- What a kill switch that succeeds leaves of both tables. -/
structure Killed (trouble : ContainerId → Option Trouble) (s s' : Site) : Prop where
  rows : s'.plugin.instances = s.plugin.instances.filter fun row => row.isActive = false
  tracked : ∀ id, s'.daemon.Tracks id ↔ s.daemon.KeepsTracking trouble id

theorem wp_killSwitch :
    wp (siteSem (UnreliableUnder (troubled trouble) env)) (fun _ _ => True) AdminRoutes.killSwitch
      (fun out s' => ∀ count, out = .ok (.killed count) → Killed trouble s s') s := by
  apply wp_callRpc trivial
  intro answer w hanswer
  cases answer with
  | error err =>
    intro count h
    cases h
  | ok reply =>
    have htracked : ∀ id, w.Tracks id ↔ s.daemon.KeepsTracking trouble id := by
      cases hanswer with
      | answered hhandled =>
        cases hhandled with
        | ok hends => exact hends.of_wp wp_handleKillSwitch_troubled reply rfl
    cases reply with
    | containersRemoved count =>
      apply wp_commit trivial
      · intro db happly
        cases happly
        exact fun _ _ => ⟨rfl, htracked⟩
      · intro err happly
        cases happly
    | _ =>
      intro count h
      cases h

/-! ## When the two tables agree -/

/-- The `container_id`s of the plugin's rows, NULL among them. -/
def PluginDb.containerIds (db : PluginDb) : Set (Option ContainerId) :=
  {containerId | ∃ row ∈ db.instances, row.containerId = containerId}

/-- The `container_id`s the daemon tracks. -/
def World.containerIds (w : World) : Set (Option ContainerId) :=
  {containerId | ∃ id, containerId = some id ∧ w.Tracks id}

/-- Before a kill switch: the rows that are neither pending nor running belong to the containers the
    daemon does not release. -/
structure Site.Parted (trouble : ContainerId → Option Trouble) (s : Site) : Prop where
  /-- A container that stays has a row that stays. -/
  kept : ∀ id, s.daemon.KeepsTracking trouble id →
    ∃ row ∈ s.plugin.instances, row.isActive = false ∧ row.containerId = some id
  /-- A row that stays has a container that stays. -/
  inactive : ∀ row ∈ s.plugin.instances, row.isActive = false →
    ∃ id, row.containerId = some id ∧ s.daemon.KeepsTracking trouble id

/-- **When a kill switch leaves the tables in agreement.**  Whatever both parties have in their
    tables and whatever Docker refuses, the rows after a kill switch that succeeds are those of the
    tracked containers exactly when the two selections agreed before it. -/
theorem killSwitch_matches_iff (env : DaemonEnv) (trouble : ContainerId → Option Trouble)
    (s s' : Site) (count : Nat)
    (hends : Ends (siteSem (UnreliableUnder (troubled trouble) env)) AdminRoutes.killSwitch s
      (.ok (.killed count)) s') :
    s'.plugin.containerIds = s'.daemon.containerIds ↔ s.Parted trouble := by
  have hkilled : Killed trouble s s' := hends.of_wp wp_killSwitch count rfl
  have hrow : ∀ row, row ∈ s'.plugin.instances ↔
      row ∈ s.plugin.instances ∧ row.isActive = false := by
    intro row
    rw [hkilled.rows, List.mem_filter, decide_eq_true_eq]
  have hsets : s'.plugin.containerIds = s'.daemon.containerIds ↔ ∀ containerId : Option ContainerId,
      (∃ row, (row ∈ s.plugin.instances ∧ row.isActive = false) ∧ row.containerId = containerId) ↔
      ∃ id, containerId = some id ∧ s.daemon.KeepsTracking trouble id := by
    simp only [Set.ext_iff, PluginDb.containerIds, World.containerIds, Set.mem_ofPred_eq, hrow,
      hkilled.tracked]
  rw [hsets]
  constructor
  · intro h
    constructor
    · intro id hkeeps
      obtain ⟨row, ⟨hmem, hactive⟩, hid⟩ := (h (some id)).mpr ⟨id, rfl, hkeeps⟩
      exact ⟨row, hmem, hactive, hid⟩
    · intro row hmem hactive
      exact (h row.containerId).mp ⟨row, ⟨hmem, hactive⟩, rfl⟩
  · intro h containerId
    constructor
    · rintro ⟨row, ⟨hmem, hactive⟩, rfl⟩
      exact h.inactive row hmem hactive
    · rintro ⟨id, rfl, hkeeps⟩
      obtain ⟨row, hmem, hactive, hid⟩ := h.kept id hkeeps
      exact ⟨row, ⟨hmem, hactive⟩, hid⟩

/-! ## Two kill switches -/

/-- An RPC whose handler makes its own choices. -/
def execPicked (env : DaemonEnv) (pick : (op : DaemonOp) → op.Choice) : RpcExec :=
  fun w request delivery _ => execRpc env w request delivery pick

theorem executes_picked {policy : Policy} {pick : (op : DaemonOp) → op.Choice}
    (hpick : ∀ op, policy op (pick op)) :
    RpcSem.Executes (UnreliableUnder policy env) (execPicked env pick) := by
  intro w request delivery _ answer w' h
  cases delivery with
  | undelivered err =>
    cases h
    exact .undelivered
  | answered =>
    obtain ⟨⟨trace, out, last⟩, hrun, heq⟩ := Option.map_eq_some_iff.mp h
    cases heq
    exact .answered (handled_of_run hpick hrun)
  | replyLost err =>
    obtain ⟨⟨trace, out, last⟩, hrun, heq⟩ := Option.map_eq_some_iff.mp h
    cases heq
    exact .replyLost (handled_of_run hpick hrun)

/-- Docker does not stop this container. -/
def unstoppable (id : ContainerId) : (op : DaemonOp) → op.Choice
  | .docker (.stop other) => if other = id then some "tried to kill container" else none
  | op => quietChoice op

theorem troubled_unstoppable {id : ContainerId} (op : DaemonOp) :
    troubled (fun other => if other = id then some .stop else none) op (unstoppable id op) := by
  cases op with
  | docker op =>
    cases op with
    | stop other => by_cases h : other = id <;> simp [troubled, unstoppable, h]
    | remove other => by_cases h : other = id <;> simp [troubled, unstoppable, quietChoice, h]
    | containersGet ref =>
      cases ref with
      | id other => by_cases h : other = id <;> simp [troubled, unstoppable, quietChoice, h]
      | name _ => trivial
    | _ => trivial
  | _ => trivial

theorem troubled_quietChoice (op : DaemonOp) : troubled (fun _ => none) op (quietChoice op) := by
  cases op with
  | docker op =>
    cases op with
    | stop _ | remove _ => simp [troubled, quietChoice]
    | containersGet ref =>
      cases ref with
      | id _ => simp [troubled, quietChoice]
      | name _ => trivial
    | _ => trivial
  | _ => trivial

/-- A spawn, and a kill switch after it. -/
def killedAfterSpawn (pick : (op : DaemonOp) → op.Choice) :
    Option (Site × Except PluginErr Response × Site) :=
  (siteHistory (execRpc DaemonEnv.default) sameContent (fun _ _ => true) [spawns] freshSite).bind
    fun s => ((siteMachine (execPicked DaemonEnv.default pick)).run (quietSiteChoice 0)
      AdminRoutes.killSwitch s).map fun result => (s, result.2)

theorem ends_killedAfterSpawn {trouble : ContainerId → Option Trouble}
    {pick : (op : DaemonOp) → op.Choice} {out : Except PluginErr Response}
    (hpick : ∀ op, troubled trouble op (pick op)) (h : killedAfterSpawn pick = some (s, out, s')) :
    SiteRun (Unreliable DaemonEnv.default) sameContent (fun _ _ => True) freshSite s ∧
      Ends (siteSem (UnreliableUnder (troubled trouble) DaemonEnv.default)) AdminRoutes.killSwitch s
        out s' := by
  obtain ⟨s₁, hhistory, hkill⟩ := Option.bind_eq_some_iff.mp h
  obtain ⟨⟨trace, out', last⟩, hrun, heq⟩ := Option.map_eq_some_iff.mp hkill
  cases heq
  exact ⟨.of_siteHistory (executes_unreliable _) (fun _ _ _ => trivial) hhistory,
    ends_of_siteRun (executes_picked hpick) hrun⟩

/-- The kill switch succeeds, no row of the plugin is left, and the daemon tracks so many. -/
def Kills (before after removed : Nat) (result : Site × Except PluginErr Response × Site) : Prop :=
  result.2.1 = .ok (.killed removed) ∧ result.1.plugin.instances.length = before ∧
    result.2.2.plugin.instances = [] ∧ result.2.2.daemon.db.instances.length = after

instance (before after removed : Nat) (result : Site × Except PluginErr Response × Site) :
    Decidable (Kills before after removed result) := by
  unfold Kills
  infer_instance

theorem killedAfterSpawn_quietChoice :
    (killedAfterSpawn quietChoice).any (fun result => decide (Kills 1 0 1 result)) = true := by
  decide +kernel

theorem killSwitch_matches_iff_spawned :
    ∃ s s', killedAfterSpawn quietChoice = some (s, .ok (.killed 1), s') ∧
      (s'.plugin.containerIds = s'.daemon.containerIds ↔ s.Parted fun _ => none) := by
  obtain ⟨⟨s, out, s'⟩, hrun, hkills⟩ := (Option.any_eq_true _ _).mp killedAfterSpawn_quietChoice
  obtain ⟨hout, -⟩ := of_decide_eq_true hkills
  simp only at hout
  subst hout
  refine ⟨s, s', hrun, ?_⟩
  exact killSwitch_matches_iff DaemonEnv.default (fun _ => none) s s' 1
    (ends_killedAfterSpawn troubled_quietChoice hrun).2

theorem killedAfterSpawn_unstoppable :
    (killedAfterSpawn (unstoppable 1)).any (fun result => decide (Kills 1 1 0 result)) = true := by
  decide +kernel

/-- A container that Docker does not stop survives, and its row is gone. -/
theorem not_killSwitch_matches :
    ¬ ∀ (env : DaemonEnv) (compare : FlagComparison) (trouble : ContainerId → Option Trouble)
      (s₀ s s' : Site) (count : Nat), s₀.daemon.Installed → s₀.plugin.instances = [] →
      SiteRun (Unreliable env) compare (fun _ _ => True) s₀ s →
      Ends (siteSem (UnreliableUnder (troubled trouble) env)) AdminRoutes.killSwitch s
        (.ok (.killed count)) s' →
      s'.plugin.containerIds = s'.daemon.containerIds := by
  intro hall
  obtain ⟨⟨s, out, s'⟩, hrun, hkills⟩ := (Option.any_eq_true _ _).mp killedAfterSpawn_unstoppable
  obtain ⟨hout, -, hrows, htracked⟩ := of_decide_eq_true hkills
  simp only at hout hrows htracked
  subst hout
  obtain ⟨hreached, hends⟩ := ends_killedAfterSpawn troubled_unstoppable hrun
  have hsame := hall _ _ _ freshSite s s' 0 freshHost_installed rfl hreached hends
  obtain ⟨row, hrow⟩ := List.exists_mem_of_length_pos (htracked ▸ Nat.zero_lt_one)
  have hmem : some row.containerId ∈ s'.plugin.containerIds :=
    hsame ▸ ⟨row.containerId, rfl, row, hrow, rfl⟩
  obtain ⟨other, hother, -⟩ := hmem
  rw [hrows] at hother
  cases hother

end EdoPlugin
