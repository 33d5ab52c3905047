import EdoPlugin.DaemonHistory

/-!
# Releasing instances

What `release_instance`, `teardown_all` and `reconcile` leave of the rows and of the containers.
Docker's part of a release either ends with the container gone, or it is refused, and then the
tables stay as they are.
-/

namespace EdoPlugin

open Interaction

variable {policy : Policy} {α : Type} {w : World}

/-- No row, peer or container changed. -/
structure Undisturbed (w₀ w : World) : Prop where
  instances : w.db.instances = w₀.db.instances
  peers : w.db.peers = w₀.db.peers
  containers : w.docker.containers = w₀.docker.containers

theorem Undisturbed.refl (w : World) : Undisturbed w w := ⟨rfl, rfl, rfl⟩

theorem Undisturbed.trans {w₀ w₁ w₂ : World} (h : Undisturbed w₀ w₁) (h' : Undisturbed w₁ w₂) :
    Undisturbed w₀ w₂ :=
  ⟨h'.instances.trans h.instances, h'.peers.trans h.peers, h'.containers.trans h.containers⟩

theorem Undisturbed.sem {w₀ w' : World} {op : DaemonOp} {res : op.Res} (hcall : idleNetworkCall op)
    (h : Undisturbed w₀ w) (hsem : daemonSem policy w op res w') : Undisturbed w₀ w' := by
  obtain ⟨choice, -, hexec⟩ := hsem
  cases op with
  | db op =>
    cases hexec
    cases op <;> first | exact h | exact hcall.elim | exact ⟨h.instances, h.peers, h.containers⟩
  | docker op =>
    cases hexec
    have hstep := op.exec_step w.docker choice
    refine ⟨h.instances, h.peers, ?_⟩
    generalize (op.exec w.docker choice).2 = d' at hstep
    cases hstep with
    | same | removeNetwork _ => exact h.containers
    | createNetwork _ | createContainer | start _ _ _ | stop | remove => exact hcall.elim
  | filter op | wg op | host op => exact hcall.elim

theorem wp_idleNetworkCalls {p : Daemon α} (hp : CallsOnly idleNetworkCall p) :
    wp (daemonSem policy) (fun _ _ => True) p (fun _ w' => Undisturbed w w') w := by
  refine wp_guard_mono (CallsOnly.preserves (I := Undisturbed w) hp ?_ (.refl w)) fun _ _ _ => trivial
  intro _ _ _ _ hcall h hsem
  exact h.sem hcall hsem

/-! ## One release -/

/-- The row and the container are gone, and nothing else is. -/
structure Dropped (containerId : ContainerId) (w w' : World) : Prop where
  instances : w'.db.instances =
    w.db.instances.filter fun row => row.containerId ≠ containerId
  peers : w'.db.peers = w.db.peers
  containers : w'.docker.containers = w.docker.containers.filter fun c => c.id ≠ containerId

theorem filter_updateContainer {d : Docker} {id : ContainerId} {f : Container → Container}
    (hf : ∀ c, (f c).id = c.id) : (d.updateContainer id f).containers.filter (fun c => c.id ≠ id) =
      d.containers.filter fun c => c.id ≠ id := by
  unfold Docker.updateContainer
  induction d.containers with
  | nil => rfl
  | cons c cs ih =>
    by_cases hid : c.id = id
    · simpa [hid, hf] using ih
    · simpa [hid] using ih

theorem filter_ne_of_findContainer_none {d : Docker} {id : ContainerId}
    (h : d.findContainer (.id id) = none) :
    d.containers.filter (fun c => c.id ≠ id) = d.containers := by
  rw [List.filter_eq_self]
  intro c hc
  simpa using Docker.findContainer_id_eq_none_iff.mp h c hc

/-- Docker can refuse to look up, stop or remove a container. -/
def Policy.RefusesContainer (policy : Policy) : Prop :=
  (∃ id msg, policy (.docker (.containersGet (.id id))) (some msg)) ∨
  (∃ id msg, policy (.docker (.stop id)) (some msg)) ∨
  ∃ id msg, policy (.docker (.remove id)) (some msg)

/-- Docker can be unreachable, or refuse something about a container. -/
def Policy.Refuses (policy : Policy) : Prop :=
  (∃ msg, policy (.docker .client) (some msg)) ∨ policy.RefusesContainer

theorem not_refuses_noFault : ¬ Policy.Refuses noFault := by
  rintro (⟨msg, h⟩ | ⟨id, msg, h⟩ | ⟨id, msg, h⟩ | ⟨id, msg, h⟩) <;> cases h

/-- The Docker part of a release was refused. -/
def isRefusal : Except DockerErr Unit → Bool
  | .error (.apiError _) => true
  | .error (.notFound _) => false
  | .ok () => false

/-- Docker no longer has the container, or it refused. -/
structure DockerAnswered (policy : Policy) (containerId : ContainerId) (w : World)
    (stopped : Except DockerErr Unit) (w' : World) : Prop where
  db : w'.db = w.db
  refused : isRefusal stopped = true → policy.RefusesContainer
  gone : isRefusal stopped = false →
    w'.docker.containers = w.docker.containers.filter fun c => c.id ≠ containerId

theorem wp_stopAndRemove {containerId : ContainerId} :
    wp (daemonSem policy) (fun _ _ => True) (stopAndRemove containerId)
      (fun out w' => ∃ stopped, out = .ok stopped ∧
        DockerAnswered policy containerId w stopped w') w := by
  have hrefused : ∀ {w' : World} {msg : String}, policy.RefusesContainer → w'.db = w.db →
      DockerAnswered policy containerId w (.error (.apiError msg)) w' := fun hrefuses hdb =>
    ⟨hdb, fun _ => hrefuses, fun h => by cases h⟩
  refine wp_containersGet trivial ?_ ?_ ?_
  · intro c hfind
    obtain ⟨hmem, rfl⟩ := Docker.mem_of_findContainer_id hfind
    refine wp_callDocker trivial fun fault hfault => ?_
    cases fault with
    | some msg => exact ⟨_, rfl, hrefused (Or.inr (Or.inl ⟨_, _, hfault⟩)) rfl⟩
    | none =>
      simp only [DockerOp.exec, failing, Docker.stop, hfind]
      refine wp_callDocker (f := fun res => .ret res) trivial fun fault hfault => ?_
      cases fault with
      | some msg => exact ⟨_, rfl, hrefused (Or.inr (Or.inr ⟨_, _, hfault⟩)) rfl⟩
      | none =>
        have hgone : (w.docker.updateContainer c.id Container.stopped).containers.filter
            (fun c' => c'.id ≠ c.id) = w.docker.containers.filter fun c' => c'.id ≠ c.id :=
          filter_updateContainer fun _ => rfl
        simp only [DockerOp.exec, failing, Docker.remove]
        split
        · rename_i hnone
          refine ⟨_, rfl, rfl, fun h => (by cases h), fun _ => ?_⟩
          rw [← hgone]
          exact (filter_ne_of_findContainer_none hnone).symm
        · exact ⟨_, rfl, rfl, fun h => (by cases h), fun _ => hgone⟩
  · intro msg hfind
    exact ⟨_, rfl, rfl, fun h => (by cases h),
      fun _ => (filter_ne_of_findContainer_none hfind).symm⟩
  · intro msg hfault
    exact ⟨_, rfl, hrefused (Or.inl ⟨_, _, hfault⟩) rfl⟩

/-- Only the Docker client of `release_owner_network_if_idle` can raise. -/
theorem wp_releaseOwnerNetworkIfIdle_refuses {owner : Owner} :
    wp (daemonSem policy) (fun _ _ => True) (releaseOwnerNetworkIfIdle owner)
      (fun out _ => ∀ err, out = .error err → policy.Refuses) w := by
  have hnone : ∀ err : PyErr, (.ok () : Except PyErr Unit) = .error err → policy.Refuses :=
    fun _ h => nomatch h
  refine wp_callDb trivial (wp_ite hnone (wp_callDb trivial ?_))
  split
  · exact hnone
  · refine wp_dockerClient trivial (wp_networksGet trivial ?_ ?_ ?_) ?_
    · intro net _
      refine wp_callDocker trivial fun fault _ => ?_
      split
      · exact hnone
      · exact wp_callDb trivial hnone
    · exact fun _ _ => hnone
    · exact fun _ _ => hnone
    · exact fun msg hmsg _ _ => Or.inl ⟨msg, hmsg⟩

/-- The row is forgotten, and a network that nobody needs goes with it. -/
theorem wp_forgetInstance {inst : Option Instance} {containerId : ContainerId} :
    wp (daemonSem policy) (fun _ _ => True) (forgetInstance inst containerId)
      (fun out w' => Undisturbed { w with db := (w.db.removeInstance containerId).2 } w' ∧
        (out = .ok (w.db.removeInstance containerId).1 ∨
          (∃ err, out = .error err) ∧ policy.Refuses)) w := by
  refine wp_callDb trivial ?_
  cases inst with
  | none => exact ⟨.refl _, Or.inl rfl⟩
  | some row =>
    refine wp_seq (wp_and (wp_idleNetworkCalls callsOnly_releaseOwnerNetworkIfIdle)
      wp_releaseOwnerNetworkIfIdle_refuses) ?_ ?_
    · rintro _ w' ⟨hsame, -⟩
      exact ⟨hsame, Or.inl rfl⟩
    · rintro err w' ⟨hsame, hrefuses⟩
      exact ⟨hsame, Or.inr ⟨⟨err, rfl⟩, hrefuses err rfl⟩⟩

/-- The daemon tracks an instance under this container id. -/
def World.Tracks (w : World) (containerId : ContainerId) : Prop :=
  ∃ row ∈ w.db.instances, row.containerId = containerId

instance (w : World) (containerId : ContainerId) : Decidable (w.Tracks containerId) := by
  unfold World.Tracks
  infer_instance

/-- The end of a release: refused, with the tables as they were, or with the row and the container
    gone. -/
inductive Released (policy : Policy) (containerId : ContainerId) (w : World) :
    Except PyErr Bool → World → Prop
  | refused {out w'} : policy.Refuses → w'.db = w.db → (∀ removed, out = .ok removed →
      removed = false ∧ policy.RefusesContainer) → Released policy containerId w out w'
  | dropped {out w'} : Dropped containerId w w' → (out = .ok (decide (w.Tracks containerId)) ∨
      (∃ err, out = .error err) ∧ policy.Refuses) → Released policy containerId w out w'

/-- **What a release leaves.** -/
theorem wp_releaseInstance {containerId : ContainerId} :
    wp (daemonSem policy) (fun _ _ => True) (releaseInstance containerId)
      (Released policy containerId w) w := by
  refine wp_dockerClient trivial (wp_callDb trivial ?_) ?_
  · simp only [DbOp.exec]
    refine wp_seq wp_stopAndRemove ?_ ?_
    · rintro stopped w₁ ⟨_, ⟨⟩, hdb, hrefused, hgone⟩
      have hforget : isRefusal stopped = false → ∀ inst, wp (daemonSem policy) (fun _ _ => True)
          (forgetInstance inst containerId) (Released policy containerId w) w₁ := by
        intro hanswered inst
        refine wp_mono wp_forgetInstance ?_
        rintro out w' ⟨hsame, hout⟩
        have htracks : (w₁.db.removeInstance containerId).1 = decide (w.Tracks containerId) := by
          rw [hdb]
          simp [Db.removeInstance, World.Tracks, List.any_eq]
        rw [htracks] at hout
        refine .dropped ⟨?_, ?_, ?_⟩ hout
        · rw [hsame.instances, hdb]
          rfl
        · rw [hsame.peers, hdb]
          rfl
        · rw [hsame.containers]
          exact hgone hanswered
      cases stopped with
      | ok _ => exact hforget rfl _
      | error err =>
        cases err with
        | notFound msg => exact hforget rfl _
        | apiError msg => exact .refused (Or.inr (hrefused rfl)) hdb (by rintro _ ⟨⟩; exact ⟨rfl, hrefused rfl⟩)
    · rintro err w₁ ⟨_, h, -⟩
      cases h
  · intro msg hmsg
    exact .refused (Or.inl ⟨msg, hmsg⟩) rfl fun _ h => by cases h

end EdoPlugin
