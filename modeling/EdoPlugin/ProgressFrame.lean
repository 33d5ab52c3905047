import EdoPlugin.InstanceTable
import EdoPlugin.RouteCalls

/-!
# What leaves the progress alone

Flags are submitted through one route and reset through another.  All other routes and both
background jobs write to `edo_instances` and `edo_peers` only, so flags, finds, solves and fails stay
as they are.
-/

namespace EdoPlugin

open Interaction

variable {rpc : RpcSem} {compare : FlagComparison} {s s' : Site} {db db' db'' : PluginDb}
  {caller : Option Int} {instanceId challengeId : Nat} {α : Type}

/-! ## Writes -/

/-- The writes to instances and peers. -/
def Write.SparesProgress : Write → Prop
  | .updateInstance .. | .deleteInstance _ | .deleteActiveInstances => True
  | .insertPeer _ | .revokePeer _ => True
  | _ => False

/-- The two databases differ in instances and peers alone. -/
def PluginDb.SameProgress (db db' : PluginDb) : Prop :=
  db' = { db with
    instances := db'.instances, nextInstanceId := db'.nextInstanceId, peers := db'.peers }

namespace PluginDb.SameProgress

theorem refl (db : PluginDb) : db.SameProgress db := rfl

theorem trans (h : db.SameProgress db') (h' : db'.SameProgress db'') : db.SameProgress db'' := by
  unfold SameProgress at h h' ⊢
  rw [h', h]

theorem of_sameButInstances (h : db.SameButInstances db') : db.SameProgress db' := by
  unfold PluginDb.SameButInstances at h
  unfold SameProgress
  rw [h]

theorem apply {write : Write} (hspares : write.SparesProgress) (happly : db.apply write = .ok db') :
    db.SameProgress db' := by
  cases write with
  | updateInstance instanceId columns =>
    have hall : db.applyAll [.updateInstance instanceId columns] = .ok db' := by
      rw [applyAll_singleton, happly]
    apply of_sameButInstances
    exact (SameButInstances.refl db).applyAll (by simp [Write.OnInstances]) hall
  | deleteInstance _ | deleteActiveInstances =>
    cases happly
    rfl
  | insertPeer row =>
    simp only [PluginDb.apply, insertPeer] at happly
    split at happly
    · cases happly
    · split at happly
      · cases happly
      · cases happly
        rfl
  | revokePeer userId =>
    simp only [PluginDb.apply, revokePeer] at happly
    split at happly
    · cases happly
      rfl
    · cases happly
  | _ => cases hspares

theorem applyAll {writes : List Write} (hspares : ∀ write ∈ writes, write.SparesProgress)
    (happly : db.applyAll writes = .ok db') : db.SameProgress db' := by
  induction writes generalizing db with
  | nil =>
    cases happly
    exact .refl _
  | cons write writes ih =>
    simp only [PluginDb.applyAll] at happly
    split at happly
    · rename_i db₁ hwrite
      have hfirst := apply (hspares write List.mem_cons_self) hwrite
      exact hfirst.trans (ih (fun other hother => hspares other (List.mem_cons_of_mem _ hother)) happly)
    · cases happly

end PluginDb.SameProgress

/-! ## Calls -/

/-- The calls that write nothing else. -/
def sparesProgress : SiteOp → Prop
  | .commit writes => ∀ write ∈ writes, write.SparesProgress
  | _ => True

theorem sparesProgress_sem {op : SiteOp} {res : op.Res} (hcall : sparesProgress op)
    (hsem : siteSem rpc s op res s') : s.plugin.SameProgress s'.plugin := by
  cases op with
  | commit writes =>
    obtain ⟨-, rfl⟩ := hsem
    unfold PluginDb.commit
    cases happly : s.plugin.applyAll writes with
    | ok db => exact .applyAll hcall happly
    | error err => exact .refl _
  | insertInstance challengeId owner expiresAt =>
    obtain ⟨-, rfl⟩ := hsem
    unfold PluginDb.commitInstance
    cases hinsert : s.plugin.insertInstance challengeId owner expiresAt with
    | ok result => exact .of_sameButInstances ((PluginDb.SameButInstances.refl _).insertInstance hinsert)
    | error err => exact .refl _
  | select | flush _ =>
    obtain ⟨-, rfl⟩ := hsem
    exact .refl _
  | rpc _ =>
    obtain ⟨-, hs'⟩ := hsem
    rw [hs']
    exact .refl _
  | utcnow =>
    cases hsem
    exact .refl _
  | rateLimit key limit window =>
    obtain ⟨now, -, rfl⟩ := hsem
    exact .refl _

theorem wp_sparesProgress {p : Plugin α} (hp : CallsOnly sparesProgress p) :
    wp (siteSem rpc) (fun _ _ => True) p (fun _ s' => s.plugin.SameProgress s'.plugin) s := by
  apply wp_guard_mono (hp.preserves (I := fun s' : Site => s.plugin.SameProgress s'.plugin) _ (.refl _))
    fun _ _ _ => trivial
  exact fun _ _ _ _ hcall h hsem => h.trans (sparesProgress_sem hcall hsem)

theorem Write.Housekeeps.sparesProgress {write : Write} (h : write.Housekeeps) :
    write.SparesProgress := by
  cases write <;> trivial

theorem housekeeping_sparesProgress : Housekeeping sparesProgress := by
  refine ⟨⟨trivial, trivial⟩, fun _ _ => trivial, fun _ => trivial, ?_⟩
  intro writes hwrites write hwrite
  exact (hwrites write hwrite).sparesProgress

theorem spares_spawnInstance :
    CallsOnly sparesProgress (UserRoutes.spawnInstance caller challengeId) := by
  have hcommit : ∀ {write : Write}, write.SparesProgress → sparesProgress (.commit [write]) := by
    intro write h other hother
    rw [List.mem_singleton.mp hother]
    exact h
  apply callsOnly_spawnInstance housekeeping_sparesProgress.toReading
  · exact fun _ _ _ => trivial
  · intro instanceId
    constructor
    · exact fun _ => trivial
    · exact hcommit trivial
    · exact fun _ => hcommit trivial

/-! ## Steps -/

/-- Everything but submissions, resets, and changes of the flags or of who is who. -/
def SiteEvent.SparesProgress : SiteEvent → Prop
  | .route (.submitFlag ..) | .route (.resetOwnerProgress ..) | .ctfd _ => False
  | _ => True

/-- **The other operations leave the progress alone.** -/
theorem SiteStep.sameProgress {event : SiteEvent} (hspares : event.SparesProgress)
    (hstep : SiteStep rpc compare s event s') : s.plugin.SameProgress s'.plugin := by
  have hkeeps := housekeeping_sparesProgress
  cases hstep with
  | @route call out _ hends =>
    cases call with
    | submitFlag _ _ _ _ | resetOwnerProgress _ _ => exact hspares.elim
    | spawnInstance _ _ => exact hends.of_wp (wp_sparesProgress spares_spawnInstance)
    | teardownInstance _ _ => exact hends.of_wp (wp_sparesProgress hkeeps.teardownInstance)
    | extendInstance _ _ => exact hends.of_wp (wp_sparesProgress hkeeps.extendInstance)
    | downloadWgConfig _ => exact hends.of_wp (wp_sparesProgress hkeeps.downloadWgConfig)
    | forceTeardown _ => exact hends.of_wp (wp_sparesProgress hkeeps.forceTeardown)
    | killSwitch => exact hends.of_wp (wp_sparesProgress hkeeps.killSwitch)
    | wgBulkGenerate => exact hends.of_wp (wp_sparesProgress hkeeps.wgBulkGenerate)
    | wgRevokePeer _ => exact hends.of_wp (wp_sparesProgress hkeeps.wgRevokePeer)
  | sweep hends => exact hends.of_wp (wp_sparesProgress hkeeps.sweepExpired)
  | tick hends => exact hends.of_wp (wp_sparesProgress hkeeps.reconcile)
  | ctfd => exact hspares.elim
  | drift _ => exact .refl _

end EdoPlugin
