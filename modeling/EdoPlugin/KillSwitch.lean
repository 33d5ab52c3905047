import EdoPlugin.InstanceRelease

/-!
# The kill switch

`teardown_all` releases the rows it finds in status `running`.  A row gets any other status from a
`reconcile` that saw its container stopped, or from an adoption, and nothing brings it back; so the
kill switch empties the daemon exactly when no row has left `running`.
-/

namespace EdoPlugin

open Interaction

variable {w : World}

/-- Releasing a tracked instance when nothing fails. -/
theorem wp_releaseInstance_noFault {containerId : ContainerId} (h : w.Tracks containerId) :
    wp (daemonSem noFault) (fun _ _ => True) (releaseInstance containerId)
      (fun out w' => out = .ok true ∧ Dropped containerId w w') w := by
  refine wp_mono wp_releaseInstance ?_
  intro out w' hreleased
  cases hreleased with
  | refused hrefuses _ _ => exact (not_refuses_noFault hrefuses).elim
  | dropped hdropped hout =>
    rcases hout with rfl | ⟨-, hrefuses⟩
    · rw [decide_eq_true h]
      exact ⟨rfl, hdropped⟩
    · exact (not_refuses_noFault hrefuses).elim

/-- The rows and the containers with these ids are gone, and nothing else is. -/
structure DroppedAll (ids : List ContainerId) (w w' : World) : Prop where
  instances : w'.db.instances = w.db.instances.filter fun row => row.containerId ∉ ids
  containers : w'.docker.containers = w.docker.containers.filter fun c => c.id ∉ ids

theorem DroppedAll.cons {id : ContainerId} {ids : List ContainerId} {w₁ w₂ : World}
    (h : Dropped id w w₁) (hrest : DroppedAll ids w₁ w₂) : DroppedAll (id :: ids) w w₂ := by
  constructor
  · rw [hrest.instances, h.instances, List.filter_filter]
    congr 1
    funext row
    simp [Bool.and_comm]
  · rw [hrest.containers, h.containers, List.filter_filter]
    congr 1
    funext c
    simp [Bool.and_comm]

/-- The loop releases each of its rows. -/
theorem wp_teardownEach {rows : List Instance} (hids : (rows.map Instance.containerId).Nodup)
    (htracked : ∀ row ∈ rows, w.Tracks row.containerId) :
    wp (daemonSem noFault) (fun _ _ => True) (teardownEach rows)
      (fun out w' => out = .ok rows.length ∧
        DroppedAll (rows.map Instance.containerId) w w') w := by
  induction rows generalizing w with
  | nil =>
    refine ⟨rfl, ?_, ?_⟩
    · exact (List.filter_eq_self.mpr fun _ _ => by simp).symm
    · exact (List.filter_eq_self.mpr fun _ _ => by simp).symm
  | cons row rows ih =>
    rw [List.map_cons, List.nodup_cons] at hids
    refine wp_seq (wp_releaseInstance_noFault (htracked row List.mem_cons_self)) ?_ ?_
    · rintro released w₁ ⟨hreleased, hdropped⟩
      cases hreleased
      have hrest : ∀ other ∈ rows, w₁.Tracks other.containerId := by
        intro other hother
        obtain ⟨tracked, htracked, hid⟩ := htracked other (List.mem_cons_of_mem _ hother)
        refine ⟨tracked, ?_, hid⟩
        rw [hdropped.instances]
        refine List.mem_filter.mpr ⟨htracked, decide_eq_true ?_⟩
        intro hsame
        exact hids.1 (List.mem_map.mpr ⟨other, hother, hid.symm.trans hsame⟩)
      refine wp_seq (ih hids.2 hrest) ?_ ?_
      · rintro count w₂ ⟨hcount, hall⟩
        cases hcount
        refine ⟨?_, .cons hdropped hall⟩
        rw [List.length_cons, Nat.add_comm]
        rfl
      · rintro err w₂ ⟨h, -⟩
        cases h
    · rintro err w₁ ⟨h, -⟩
      cases h

/-- What the kill switch is for: nothing is tracked any more, none of the tracked containers exists,
    and the count is the number of instances there were. -/
structure TornDown (w : World) (out : Except PyErr Nat) (w' : World) : Prop where
  untracked : w'.db.instances = []
  gone : ∀ row ∈ w.db.instances, ∀ c ∈ w'.docker.containers, c.id ≠ row.containerId
  count : out = .ok w.db.instances.length

/-- **When the kill switch is complete.**  In every state a daemon can reach, with Docker answering
    every call, `teardown_all` is complete exactly when every row is recorded as running. -/
theorem teardownAll_complete_iff (env : DaemonEnv) (w w' : World) (out : Except PyErr Nat)
    (hreached : DaemonReached env w) (hends : Ends (daemonSem noFault) teardownAll w out w') :
    TornDown w out w' ↔ ∀ row ∈ w.db.instances, row.status = .running := by
  have hids : (w.db.getActiveInstances.map Instance.containerId).Nodup :=
    Db.nodup_map_filter _ hreached.wellFormed.db.containerIds
  have htracked : ∀ row ∈ w.db.getActiveInstances, w.Tracks row.containerId :=
    fun row hrow => ⟨row, List.mem_of_mem_filter hrow, rfl⟩
  have hwp : wp (daemonSem noFault) (fun _ _ => True) teardownAll
      (fun out w' => out = .ok w.db.getActiveInstances.length ∧
        DroppedAll (w.db.getActiveInstances.map Instance.containerId) w w') w :=
    wp_callDb trivial (wp_teardownEach hids htracked)
  obtain ⟨rfl, hdropped⟩ := hends.of_wp hwp
  constructor
  · intro h row hrow
    by_contra hstatus
    have hstays : row ∈ w'.db.instances := by
      rw [hdropped.instances]
      refine List.mem_filter.mpr ⟨hrow, decide_eq_true ?_⟩
      intro hmem
      obtain ⟨active, hactive, hid⟩ := List.mem_map.mp hmem
      obtain ⟨htable, hrunning⟩ := List.mem_filter.mp hactive
      have hsame : active = row :=
        Db.eq_of_nodup_map hreached.wellFormed.db.containerIds htable hrow hid
      exact hstatus (hsame ▸ of_decide_eq_true hrunning)
    rw [h.untracked] at hstays
    cases hstays
  · intro hrunning
    have hactive : w.db.getActiveInstances = w.db.instances :=
      List.filter_eq_self.mpr fun row hrow => decide_eq_true (hrunning row hrow)
    rw [hactive] at hdropped ⊢
    refine ⟨?_, ?_, rfl⟩
    · rw [hdropped.instances, List.filter_eq_nil_iff]
      intro row hrow
      simpa using ⟨row, hrow, rfl⟩
    · intro row hrow c hc hid
      rw [hdropped.containers] at hc
      have hnot := of_decide_eq_true (List.mem_filter.mp hc).2
      exact hnot (List.mem_map.mpr ⟨row, hrow, hid.symm⟩)

/-! ## Two histories -/

/-- Nothing fails in the kill switch after the history. -/
def killAfter (events : List QuietEvent) : Option (World × Except PyErr Nat × World) :=
  (quietHistory (fun _ _ => true) events freshHost).bind fun w =>
    (daemonMachine.run quietChoice teardownAll w).map fun result => (w, result.2)

theorem ends_killAfter {events : List QuietEvent} {w w' : World} {out : Except PyErr Nat}
    (h : killAfter events = some (w, out, w')) :
    DaemonReached DaemonEnv.default w ∧ Ends (daemonSem noFault) teardownAll w out w' := by
  obtain ⟨w₁, hhistory, hkill⟩ := Option.bind_eq_some_iff.mp h
  obtain ⟨⟨trace, out', last⟩, hrun, heq⟩ := Option.map_eq_some_iff.mp hkill
  cases heq
  exact ⟨⟨freshHost, freshHost_installed, .of_quietHistory (fun _ _ _ => trivial) hhistory⟩,
    trace, Machine.runs_of_run noFault_quietChoice hrun⟩

/-- Two teams spawn. -/
def twoTeamsSpawn : List QuietEvent :=
  [.served (spawnRequest ⟨"team", 1⟩ "web-1"), .served (spawnRequest ⟨"team", 2⟩ "web-1")]

theorem twoTeamsSpawn_tracked :
    (killAfter twoTeamsSpawn).any (fun result => result.1.db.instances.length = 2) = true := by
  decide +kernel

theorem teardownAll_complete_iff_twoTeams :
    ∃ w out w', (killAfter twoTeamsSpawn = some (w, out, w') ∧ w.db.instances.length = 2) ∧
      (TornDown w out w' ↔ ∀ row ∈ w.db.instances, row.status = .running) := by
  obtain ⟨⟨w, out, w'⟩, hrun, hlength⟩ := (Option.any_eq_true _ _).mp twoTeamsSpawn_tracked
  refine ⟨w, out, w', ⟨hrun, of_decide_eq_true hlength⟩, ?_⟩
  obtain ⟨hreached, hends⟩ := ends_killAfter hrun
  exact teardownAll_complete_iff DaemonEnv.default w w' out hreached hends

/-- A container exits, a reconciliation records it, and the restart policy starts it again. -/
def crashAndRestart : List QuietEvent :=
  [.served (spawnRequest ⟨"team", 1⟩ "web-1"), .turns 1 .exited, .served .containerReconcile,
   .turns 1 .running]

theorem crashAndRestart_survives :
    (killAfter crashAndRestart).any (fun result => !result.2.2.db.instances.isEmpty) = true := by
  decide +kernel

/-- The container that once exited survives the kill switch. -/
theorem not_teardownAll_complete :
    ¬ ∀ (env : DaemonEnv) (w w' : World) (out : Except PyErr Nat), DaemonReached env w →
      Ends (daemonSem noFault) teardownAll w out w' → TornDown w out w' := by
  intro hall
  obtain ⟨⟨w, out, w'⟩, hrun, hsurvives⟩ := (Option.any_eq_true _ _).mp crashAndRestart_survives
  obtain ⟨hreached, hends⟩ := ends_killAfter hrun
  have huntracked := (hall _ w w' out hreached hends).untracked
  simp only [huntracked, List.isEmpty_nil, Bool.not_true, Bool.false_eq_true] at hsurvives

end EdoPlugin
