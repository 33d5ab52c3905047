import EdoPlugin.SpawnProtocol
import EdoPlugin.SpawnRollback

/-!
# What a spawn does to the table of instances

`spawn_instance` returns an instance that the table tracks, the one that was there or a new one;
when it fails, the table is as it was and had no such instance.
-/

namespace EdoPlugin

open Interaction

variable {policy : Policy} {env : DaemonEnv} {w w' : World} {owner : Owner}
  {challengeRef buildPath : String} {security : Option SecurityProfile} {ttlSeconds : Option Int}
  {publishPorts : Bool} {plan : SpawnPlan} {α : Type}

/-! ## Calls that leave the instances alone -/

def keepsInstances : DaemonOp → Prop
  | .db (.addInstance _) | .db (.removeInstance _) | .db (.updateInstanceStatus ..) => False
  | _ => True

theorem Db.exec_keepsInstances {db : Db} {op : DbOp} (h : keepsInstances (.db op)) :
    (op.exec db).2.instances = db.instances := by
  cases op with
  | addInstance row | removeInstance containerId | updateInstanceStatus containerId status =>
    exact h.elim
  | allocatePeer owner username publicKey candidateIps privateKey =>
    simp only [DbOp.exec, Db.allocatePeer_eq]
    cases db.firstFreeIp candidateIps with
    | none => rfl
    | some ip => cases db.getPeer username <;> rfl
  | allocateOctet owner => exact instances_allocateOctet
  | freeOctet owner => rfl
  | _ => rfl

theorem instances_sem {op : DaemonOp} {res : op.Res} (hcall : keepsInstances op)
    (hsem : daemonSem policy w op res w') : w'.db.instances = w.db.instances := by
  obtain ⟨choice, -, hexec⟩ := hsem
  cases op with
  | db op =>
    cases hexec
    exact Db.exec_keepsInstances hcall
  | docker op | filter op | wg op =>
    cases hexec
    rfl
  | host op =>
    obtain ⟨result, -, hresult⟩ := Option.map_eq_some_iff.mp hexec
    cases hresult
    rfl

theorem wp_keepsInstances {p : Daemon α} (hp : CallsOnly keepsInstances p) :
    wp (daemonSem policy) (fun _ _ => True) p (fun _ w' => w'.db.instances = w.db.instances) w := by
  apply wp_guard_mono (CallsOnly.preserves
    (I := fun w' : World => w'.db.instances = w.db.instances) hp ?_ rfl) fun _ _ _ => trivial
  intro _ _ _ _ hcall h hsem
  exact (instances_sem hcall hsem).trans h

theorem keepsInstances_of_auxiliaryCall (op : DaemonOp) (h : auxiliaryCall op) :
    keepsInstances op := by
  unfold auxiliaryCall at h
  split at h <;> trivial

theorem keepsInstances_of_networkCall (op : DaemonOp) (h : networkCall op) : keepsInstances op := by
  unfold networkCall at h
  split at h <;> trivial

theorem keepsInstances_of_readingCall (op : DaemonOp) (h : readingCall op) : keepsInstances op := by
  unfold readingCall at h
  split at h <;> trivial

/-! ## The spawn -/

/-- Once a spawn has ended, the instance it returns is tracked, or there is none. -/
inductive SpawnSettled (owner : Owner) (challengeRef : String) (w : World) :
    Except PyErr SpawnResult → World → Prop
  | found {row w'} : w.db.findInstance owner challengeRef = some row →
      w'.db.instances = w.db.instances → SpawnSettled owner challengeRef w (.ok ⟨true, some row, none⟩) w'
  | added {row w'} : w.db.findInstance owner challengeRef = none → row.key = (owner, challengeRef) →
      w'.db.instances = w.db.instances ++ [row] →
      SpawnSettled owner challengeRef w (.ok ⟨true, some row, none⟩) w'
  | failed {out w'} : spawnFailed out = true → w.db.findInstance owner challengeRef = none →
      w'.db.instances = w.db.instances → SpawnSettled owner challengeRef w out w'

theorem wp_recordInstance_settled {c : Container} {ip : IPv4Address}
    (hnone : w.db.findInstance plan.owner plan.challengeRef = none) :
    wp (daemonSem policy) (fun _ _ => True) (recordInstance plan c ip)
      (SpawnSettled plan.owner plan.challengeRef w) w := by
  refine wp_liveContainerIp fun live _ => ?_
  refine wp_containersGet trivial ?_ (fun _ _ => .failed rfl hnone rfl)
    fun _ _ => .failed rfl hnone rfl
  intro fresh _
  apply wp_callDb trivial
  simp only [DbOp.exec]
  rcases w.db.addInstance_cases (plan.row fresh (live.2.getD ip)) with ⟨hadded, -⟩ | ⟨msg, hadded⟩
  · rw [hadded]
    exact .added hnone rfl rfl
  · rw [hadded]
    exact wp_callDocker trivial fun _ _ => .failed rfl hnone rfl

theorem callsOnly_spawnAttempts_keeps (env : DaemonEnv) {rounds : Nat} {triedIps : List IPv4Address}
    {triedPorts : List Nat} {lastError : String} : CallsOnly keepsInstances
      (spawnAttempts env plan rounds triedIps triedPorts lastError) :=
  callsOnly_spawnAttempts_of env keepsInstances_of_auxiliaryCall (fun _ _ => trivial)
    (fun _ => trivial) _ _ _ _

theorem findInstance_of_instances {db db' : Db} (h : db'.instances = db.instances) :
    db'.findInstance owner challengeRef = db.findInstance owner challengeRef := by
  rw [Db.findInstance, h]
  rfl

/-- What happened before the row was stored left the table alone. -/
theorem SpawnSettled.after {w₁ : World} {out : Except PyErr SpawnResult}
    (h : SpawnSettled owner challengeRef w₁ out w') (hsame : w₁.db.instances = w.db.instances) :
    SpawnSettled owner challengeRef w out w' := by
  have hfind : w₁.db.findInstance owner challengeRef = w.db.findInstance owner challengeRef :=
    findInstance_of_instances hsame
  cases h with
  | found hrow hinstances => exact .found (hfind ▸ hrow) (hinstances.trans hsame)
  | added hnone hkey hinstances => exact .added (hfind ▸ hnone) hkey (hsame ▸ hinstances)
  | failed hfailed hnone hinstances => exact .failed hfailed (hfind ▸ hnone) (hinstances.trans hsame)

theorem wp_attemptAndRecord_settled
    (hnone : w.db.findInstance plan.owner plan.challengeRef = none) :
    wp (daemonSem policy) (fun _ _ => True) (attemptAndRecord env plan)
      (SpawnSettled plan.owner plan.challengeRef w) w := by
  apply wp_seq (wp_keepsInstances (callsOnly_spawnAttempts_keeps env))
  · intro outcome w₁ hsame
    cases outcome with
    | started c ip =>
      apply wp_mono (wp_recordInstance_settled (findInstance_of_instances hsame ▸ hnone))
      exact fun _ _ h => h.after hsame
    | failed error => exact .failed rfl hnone hsame
    | exhausted lastError => exact .failed rfl hnone hsame
  · exact fun err w₁ hsame => .failed rfl hnone hsame

/-- **A spawn settles**, whatever fails in it. -/
theorem wp_spawnInstance_settled : wp (daemonSem policy) (fun _ _ => True)
    (spawnInstance env owner challengeRef buildPath security ttlSeconds publishPorts)
    (SpawnSettled owner challengeRef w) w := by
  apply wp_callDb trivial
  simp only [DbOp.exec]
  cases hfind : w.db.findInstance owner challengeRef with
  | some row => exact .found hfind rfl
  | none =>
    refine wp_callHost trivial fun hasDockerfile permits => wp_ite ?_ (.failed rfl hfind rfl)
    apply wp_seq (wp_keepsInstances (callsOnly_ensureOwnerNetwork.mono keepsInstances_of_networkCall))
    · intro octet w₁ hsame
      rw [spawnOn_eq]
      apply wp_seq (wp_and wp_prepareSpawn
        (wp_keepsInstances (callsOnly_prepareSpawn.mono keepsInstances_of_readingCall)))
      · rintro prepared w₂ ⟨hplan, hsame₂⟩
        have hinstances : w₂.db.instances = w.db.instances := hsame₂.trans hsame
        cases prepared with
        | error error => exact .failed rfl hfind hinstances
        | ok plan =>
          obtain ⟨rfl, rfl, -⟩ := hplan plan rfl
          apply wp_mono (wp_attemptAndRecord_settled (findInstance_of_instances hinstances ▸ hfind))
          exact fun _ _ h => h.after hinstances
      · rintro err w₂ ⟨-, hsame₂⟩
        exact .failed rfl hfind (hsame₂.trans hsame)
    · exact fun err w₁ hsame => .failed rfl hfind hsame

theorem SpawnSettled.tracked_iff {out : Except PyErr SpawnResult}
    (h : SpawnSettled owner challengeRef w out w') :
    w'.db.findInstance owner challengeRef = none ↔ spawnFailed out = true := by
  cases h with
  | found hrow hinstances =>
    rw [findInstance_of_instances hinstances, hrow]
    simp [spawnFailed]
  | added hnone hkey hinstances =>
    rw [Db.findInstance_eq_none_iff, hinstances]
    simp [spawnFailed, hkey]
  | failed hfailed hnone hinstances =>
    simp [findInstance_of_instances hinstances, hnone, hfailed]

/-! ## The semaphore around it -/

theorem wp_spawnWithSemaphore_settled : wp (daemonSem policy) (fun _ _ => True)
    (withSpawnSemaphore
      (spawnInstance env owner challengeRef buildPath security ttlSeconds publishPorts))
    (SpawnSettled owner challengeRef w) w := by
  apply wp_withSpawnSemaphore
  · intro out w' permits h
    cases h with
    | found hrow hinstances => exact .found hrow hinstances
    | added hnone hkey hinstances => exact .added hnone hkey hinstances
    | failed hfailed hnone hinstances => exact .failed hfailed hnone hinstances
  · intro permits
    exact wp_mono wp_spawnInstance_settled fun _ _ h => h.after rfl

end EdoPlugin
