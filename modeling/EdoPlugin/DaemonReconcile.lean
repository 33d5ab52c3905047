import EdoPlugin.KillSwitch

/-!
# What the daemon's reconcile repairs

`reconcile` looks up the container of every row in status `running`, and of no other.  A row that
one reconcile took out of `running` is out of reach of all later ones, so the table matches Docker
afterwards exactly when those rows happened to match before.
-/

namespace EdoPlugin

open Interaction

variable {w : World}

/-- The row as Docker has its container now; `none` when the container is gone. -/
def refreshed (d : Docker) (row : Instance) : Option Instance :=
  (d.findContainer (.id row.containerId)).map fun c => { row with status := c.status }

/-- The rows with these container ids are refreshed, the others stay. -/
def refreshAmong (d : Docker) (ids : List ContainerId) (row : Instance) : Option Instance :=
  if row.containerId ∈ ids then refreshed d row else some row

theorem refreshAmong_cons (d : Docker) (id : ContainerId) (ids : List ContainerId)
    (row : Instance) :
    refreshAmong d (id :: ids) row = (refreshAmong d [id] row).bind (refreshAmong d ids) := by
  unfold refreshAmong
  by_cases hid : row.containerId = id
  · simp only [hid, List.mem_cons, true_or, if_true, List.not_mem_nil, or_false, refreshed]
    cases hfind : d.findContainer (.id id) with
    | none => rfl
    | some c =>
      by_cases hmem : id ∈ ids
      · simp [hmem, hfind]
      · simp [hmem]
  · simp [hid]

/-- The table after the rows with these ids were reconciled. -/
structure Reconciled (ids : List ContainerId) (w w' : World) : Prop where
  instances : w'.db.instances = w.db.instances.filterMap (refreshAmong w.docker ids)
  containers : w'.docker.containers = w.docker.containers

theorem refreshAmong_congr {d d' : Docker} (h : d'.containers = d.containers) :
    refreshAmong d' = refreshAmong d := by
  funext ids row
  simp only [refreshAmong, refreshed, Docker.findContainer, h]

theorem Reconciled.cons {id : ContainerId} {ids : List ContainerId} {w₁ w₂ : World}
    (h : Reconciled [id] w w₁) (hrest : Reconciled ids w₁ w₂) : Reconciled (id :: ids) w w₂ := by
  refine ⟨?_, hrest.containers.trans h.containers⟩
  rw [hrest.instances, refreshAmong_congr h.containers, h.instances, List.filterMap_filterMap]
  congr 1
  funext row
  exact (refreshAmong_cons _ _ _ _).symm

/-- The answer of one round: whether the row's container is gone. -/
def isGone (d : Docker) (row : Instance) : Bool :=
  (d.findContainer (.id row.containerId)).isNone

theorem wp_reconcileOne_noFault {row : Instance} (h : w.db.WellFormed)
    (hrow : row ∈ w.db.instances) :
    wp (daemonSem noFault) (fun _ _ => True) (reconcileOne row)
      (fun out w' => out = .ok (isGone w.docker row) ∧ Reconciled [row.containerId] w w') w := by
  refine wp_containersGet trivial ?_ ?_ ?_
  · intro c hfind
    have hgone : isGone w.docker row = false := by simp [isGone, hfind]
    rw [hgone]
    show wp _ _ (if c.status ≠ row.status then _ else _) _ _
    by_cases hstatus : c.status ≠ row.status
    · rw [if_pos hstatus]
      refine wp_callDb trivial ⟨rfl, ?_, rfl⟩
      show List.map _ w.db.instances = _
      rw [← List.filterMap_eq_map]
      apply List.filterMap_congr
      intro other hother
      by_cases hid : other.containerId = row.containerId
      · simp [refreshAmong, refreshed, hid, hfind]
      · simp [refreshAmong, hid]
    · rw [if_neg hstatus]
      refine ⟨rfl, ?_, rfl⟩
      have hsame : ∀ other ∈ w.db.instances,
          refreshAmong w.docker [row.containerId] other = some other := by
        intro other hother
        by_cases hid : other.containerId = row.containerId
        · obtain rfl : other = row := Db.eq_of_nodup_map h.containerIds hother hrow hid
          simp only [refreshAmong, refreshed, List.mem_singleton, if_true, hfind, Option.map_some]
          rw [not_not.mp hstatus]
        · simp [refreshAmong, hid]
      rw [List.filterMap_congr hsame, List.filterMap_some]
  · intro msg hfind
    have hgone : isGone w.docker row = true := by simp [isGone, hfind]
    rw [hgone]
    refine wp_callDb trivial ?_
    refine wp_seq (wp_and (wp_idleNetworkCalls callsOnly_releaseOwnerNetworkIfIdle)
      wp_releaseOwnerNetworkIfIdle_refuses) ?_ ?_
    · rintro _ w' ⟨hsame, -⟩
      refine ⟨rfl, ?_, hsame.containers⟩
      rw [hsame.instances]
      show List.filter _ w.db.instances = _
      rw [← List.filterMap_eq_filter]
      apply List.filterMap_congr
      intro other hother
      by_cases hid : other.containerId = row.containerId
      · simp [refreshAmong, refreshed, hid, hfind, Option.guard]
      · simp [refreshAmong, hid, Option.guard]
    · rintro err w' ⟨-, hrefuses⟩
      exact (not_refuses_noFault (hrefuses err rfl)).elim
  · intro msg hfault
    cases hfault

/-- The loop reconciles each of its rows. -/
theorem wp_reconcileEach_noFault {rows : List Instance} (h : w.db.WellFormed)
    (hids : (rows.map Instance.containerId).Nodup) (hrows : ∀ row ∈ rows, row ∈ w.db.instances) :
    wp (daemonSem noFault) (fun _ _ => True) (reconcileEach rows)
      (fun out w' => out = .ok (rows.countP (isGone w.docker)) ∧
        Reconciled (rows.map Instance.containerId) w w') w := by
  induction rows generalizing w with
  | nil =>
    refine ⟨rfl, ?_, rfl⟩
    have hsame : refreshAmong w.docker [] = some := by
      funext row
      simp [refreshAmong]
    rw [List.map_nil, hsame, List.filterMap_some]
  | cons row rows ih =>
    rw [List.map_cons, List.nodup_cons] at hids
    have hone := wp_and (wp_reconcileOne_noFault h (hrows row List.mem_cons_self))
      (wp_wellFormed (reconcileOne row) h)
    refine wp_seq hone ?_ ?_
    · rintro gone w₁ ⟨⟨hgone, hfirst⟩, hdb⟩
      cases hgone
      have hrest : ∀ other ∈ rows, other ∈ w₁.db.instances := by
        intro other hother
        rw [hfirst.instances]
        refine List.mem_filterMap.mpr ⟨other, hrows other (List.mem_cons_of_mem _ hother), ?_⟩
        have hid : other.containerId ≠ row.containerId :=
          fun hid => hids.1 (List.mem_map.mpr ⟨other, hother, hid⟩)
        simp [refreshAmong, hid]
      refine wp_seq (ih hdb hids.2 hrest) ?_ ?_
      · rintro count w₂ ⟨hcount, hall⟩
        cases hcount
        refine ⟨?_, .cons hfirst hall⟩
        have hsame : isGone w₁.docker = isGone w.docker := by
          funext other
          simp only [isGone, Docker.findContainer, hfirst.containers]
        rw [hsame, List.countP_cons, Nat.add_comm]
      · rintro err w₂ ⟨h, -⟩
        cases h
    · rintro err w₁ ⟨⟨h, -⟩, -⟩
      cases h

/-- What one reconcile does to a row. -/
def reconciledRow (d : Docker) (row : Instance) : Option Instance :=
  if row.status = .running then refreshed d row else some row

/-- **The table after a reconcile.** -/
theorem wp_reconcile_noFault (h : w.db.WellFormed) :
    wp (daemonSem noFault) (fun _ _ => True) reconcile
      (fun out w' => out = .ok (w.db.getActiveInstances.countP (isGone w.docker)) ∧
        w'.db.instances = w.db.instances.filterMap (reconciledRow w.docker) ∧
        w'.docker.containers = w.docker.containers) w := by
  have hids : (w.db.getActiveInstances.map Instance.containerId).Nodup :=
    Db.nodup_map_filter _ h.containerIds
  refine wp_dockerClient trivial (wp_callDb trivial ?_) fun _ hfault => nomatch hfault
  refine wp_mono (wp_reconcileEach_noFault h hids fun _ hrow => List.mem_of_mem_filter hrow) ?_
  rintro out w' ⟨rfl, hreconciled⟩
  refine ⟨rfl, ?_, hreconciled.containers⟩
  rw [hreconciled.instances]
  show w.db.instances.filterMap
    (refreshAmong w.docker (w.db.getActiveInstances.map Instance.containerId)) = _
  apply List.filterMap_congr
  intro row hrow
  have hactive : row.containerId ∈ w.db.getActiveInstances.map Instance.containerId ↔
      row.status = .running := by
    constructor
    · intro hmem
      obtain ⟨active, hactive, hid⟩ := List.mem_map.mp hmem
      obtain ⟨htable, hrunning⟩ := List.mem_filter.mp hactive
      obtain rfl : active = row := Db.eq_of_nodup_map h.containerIds htable hrow hid
      exact of_decide_eq_true hrunning
    · intro hrunning
      exact List.mem_map.mpr ⟨row, List.mem_filter.mpr ⟨hrow, decide_eq_true hrunning⟩, rfl⟩
  simp only [refreshAmong, reconciledRow, hactive]

/-- A row names a container that exists in Docker, in the status it records. -/
def InStep (d : Docker) (row : Instance) : Prop :=
  ∃ c, d.findContainer (.id row.containerId) = some c ∧ c.status = row.status

/-- What a reconcile is for: every row is in step with Docker, and the result is the number of rows
    that were removed. -/
structure MatchesDocker (w : World) (out : Except PyErr Nat) (w' : World) : Prop where
  inStep : ∀ row ∈ w'.db.instances, InStep w'.docker row
  removed : ∃ count, out = .ok count ∧ w'.db.instances.length + count = w.db.instances.length

theorem length_filterMap_reconciledRow (d : Docker) (rows : List Instance) :
    (rows.filterMap (reconciledRow d)).length +
      (rows.filter fun row => row.status = .running).countP (isGone d) = rows.length := by
  induction rows with
  | nil => rfl
  | cons row rows ih =>
    by_cases hstatus : row.status = .running
    · cases hfind : d.findContainer (.id row.containerId) with
      | none =>
        have hnone : reconciledRow d row = none := by simp [reconciledRow, hstatus, refreshed, hfind]
        have hgone : isGone d row = true := by simp [isGone, hfind]
        simp only [List.filterMap_cons_none hnone, List.filter_cons, hstatus, decide_true, if_true,
          List.countP_cons, hgone, List.length_cons]
        omega
      | some c =>
        have hsome : reconciledRow d row = some { row with status := c.status } := by
          simp [reconciledRow, hstatus, refreshed, hfind]
        have hgone : isGone d row = false := by simp [isGone, hfind]
        simp only [List.filterMap_cons_some hsome, List.filter_cons, hstatus, decide_true, if_true,
          List.countP_cons, hgone, List.length_cons, Bool.false_eq_true, if_false]
        omega
    · have hsome : reconciledRow d row = some row := by simp [reconciledRow, hstatus]
      simp only [List.filterMap_cons_some hsome, List.filter_cons, hstatus, decide_false,
        Bool.false_eq_true, if_false, List.length_cons]
      omega

/-- **When a reconcile makes the table match Docker.**  For every table a daemon can reach and every
    state of Docker, a reconcile in which Docker answers makes them match exactly when the rows that
    are not recorded as running are in step already. -/
theorem reconcile_matches_iff (env : DaemonEnv) (w w' : World) (d : Docker) (out : Except PyErr Nat)
    (hreached : DaemonReached env w)
    (hends : Ends (daemonSem noFault) reconcile { w with docker := d } out w') :
    MatchesDocker { w with docker := d } out w' ↔
      ∀ row ∈ w.db.instances, row.status ≠ .running → InStep d row := by
  obtain ⟨rfl, hinstances, hcontainers⟩ :=
    hends.of_wp (wp_reconcile_noFault hreached.wellFormed.db)
  have hinStep : ∀ row, InStep w'.docker row ↔ InStep d row := by
    intro row
    simp only [InStep, Docker.findContainer, hcontainers]
  constructor
  · intro h row hrow hstatus
    rw [← hinStep]
    apply h.inStep
    rw [hinstances]
    exact List.mem_filterMap.mpr ⟨row, hrow, by simp [reconciledRow, hstatus]⟩
  · intro h
    constructor
    · intro row hrow
      rw [hinStep]
      rw [hinstances] at hrow
      obtain ⟨old, hold, hrefreshed⟩ := List.mem_filterMap.mp hrow
      unfold reconciledRow at hrefreshed
      split at hrefreshed
      · obtain ⟨c, hfind, rfl⟩ := Option.map_eq_some_iff.mp hrefreshed
        exact ⟨c, hfind, rfl⟩
      · rename_i hstatus
        cases hrefreshed
        exact h row hold hstatus
    · refine ⟨_, rfl, ?_⟩
      rw [hinstances]
      exact length_filterMap_reconciledRow d w.db.instances

/-! ## Two histories -/

/-- Nothing fails in the reconcile after the history. -/
def reconcileAfter (events : List QuietEvent) : Option (World × Except PyErr Nat × World) :=
  (quietHistory (fun _ _ => true) events freshHost).bind fun w =>
    (daemonMachine.run quietChoice reconcile w).map fun result => (w, result.2)

theorem ends_reconcileAfter {events : List QuietEvent} {w w' : World} {out : Except PyErr Nat}
    (h : reconcileAfter events = some (w, out, w')) :
    DaemonReached DaemonEnv.default w ∧ Ends (daemonSem noFault) reconcile w out w' := by
  obtain ⟨w₁, hhistory, hreconcile⟩ := Option.bind_eq_some_iff.mp h
  obtain ⟨⟨trace, out', last⟩, hrun, heq⟩ := Option.map_eq_some_iff.mp hreconcile
  cases heq
  exact ⟨⟨freshHost, freshHost_installed, .of_quietHistory (fun _ _ _ => trivial) hhistory⟩,
    trace, Machine.runs_of_run noFault_quietChoice hrun⟩

/-- One of two teams' containers exits, the other disappears. -/
def exitAndVanish : List QuietEvent := twoTeamsSpawn ++ [.turns 1 .exited, .vanishes 3]

theorem exitAndVanish_prunes :
    (reconcileAfter exitAndVanish).any (fun result => result.2.2.db.instances.length = 1) = true := by
  decide +kernel

theorem reconcile_matches_iff_exitAndVanish :
    ∃ w out w', (reconcileAfter exitAndVanish = some (w, out, w') ∧
        w'.db.instances.length = 1) ∧
      (MatchesDocker w out w' ↔
        ∀ row ∈ w.db.instances, row.status ≠ .running → InStep w.docker row) := by
  obtain ⟨⟨w, out, w'⟩, hrun, hlength⟩ := (Option.any_eq_true _ _).mp exitAndVanish_prunes
  refine ⟨w, out, w', ⟨hrun, of_decide_eq_true hlength⟩, ?_⟩
  obtain ⟨hreached, hends⟩ := ends_reconcileAfter hrun
  exact reconcile_matches_iff DaemonEnv.default w w' w.docker out hreached hends

/-- Some row records another status than its container has. -/
def outOfStep (w : World) : Bool :=
  w.db.instances.any fun row => w.docker.containers.any fun c =>
    c.id = row.containerId ∧ c.status ≠ row.status

theorem crashAndRestart_outOfStep :
    (reconcileAfter crashAndRestart).any (fun result => outOfStep result.2.2) = true := by
  decide +kernel

/-- A container that was restarted after a reconcile saw it exited stays recorded as exited. -/
theorem not_reconcile_matches :
    ¬ ∀ (env : DaemonEnv) (w w' : World) (d : Docker) (out : Except PyErr Nat),
      DaemonReached env w → d.WellFormed →
      Ends (daemonSem noFault) reconcile { w with docker := d } out w' →
      MatchesDocker { w with docker := d } out w' := by
  intro hall
  obtain ⟨⟨w, out, w'⟩, hrun, hout⟩ := (Option.any_eq_true _ _).mp crashAndRestart_outOfStep
  obtain ⟨hreached, hends⟩ := ends_reconcileAfter hrun
  have hmatches := hall _ w w' w.docker out hreached hreached.wellFormed.docker hends
  have hdocker : w'.docker.WellFormed := (hreached.wellFormed.ends hends).docker
  simp only [outOfStep, List.any_eq_true, decide_eq_true_eq] at hout
  obtain ⟨row, hrow, c, hc, hid, hstatus⟩ := hout
  obtain ⟨found, hfind, hsame⟩ := hmatches.inStep row hrow
  have hfound := hdocker.findContainer_id hc
  rw [hid, hfind] at hfound
  cases hfound
  exact hstatus hsame

end EdoPlugin
