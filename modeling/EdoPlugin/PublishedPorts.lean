import EdoPlugin.ContainerAddresses
import EdoPlugin.LeastValues

/-!
# The host ports of the containers

A spawn that publishes asks Docker for the least host ports of the public range that no row has, and
stores the ports its container came up with.  Docker binds what it is asked for or refuses, so the
ports of all rows stay distinct over any run, whatever becomes of the containers.
-/

namespace EdoPlugin

open Interaction LeastValues

variable {policy : Policy} {env : DaemonEnv} {α : Type} {db db' : Db} {w w' : World}

/-! ## `_allocate_public_ports` -/

theorem choosePorts_eq (used : List Nat) (count : Nat) {chosen : List Nat} (ports : List Nat)
    (h : chosen.length < count) : choosePorts used count chosen ports =
      if count ≤ chosen.length + (ports.filter fun port => !used.contains port).length then
        some (chosen ++ (ports.filter fun port => !used.contains port).take (count - chosen.length))
      else none := by
  induction ports generalizing chosen with
  | nil =>
    rw [choosePorts, if_neg]
    simp only [List.filter_nil, List.length_nil]
    omega
  | cons port ports ih =>
    rw [choosePorts]
    by_cases hused : used.contains port = true
    · rw [if_pos hused, ih h, List.filter_cons_of_neg (by simpa using hused)]
    · rw [if_neg hused, List.filter_cons_of_pos (by simpa using hused)]
      have hlength : (chosen ++ [port]).length = chosen.length + 1 := by simp
      by_cases hlast : (chosen ++ [port]).length = count
      · have hone : count - chosen.length = 1 := by omega
        rw [if_pos hlast, if_pos (by rw [List.length_cons]; omega), hone]
        simp
      · obtain ⟨left, hleft⟩ : ∃ left, count - chosen.length = left + 1 :=
          ⟨count - chosen.length - 1, by omega⟩
        have hleft' : count - (chosen ++ [port]).length = left := by omega
        rw [if_neg hlast, ih (by omega), hleft, hleft', List.length_cons, hlength,
          List.take_succ_cons, Nat.add_assoc, Nat.add_comm 1, List.append_assoc, List.singleton_append]

/-- A port of the public range that no row has and that is not excluded. -/
def Db.FreePort (db : Db) (env : DaemonEnv) (exclude : List Nat) (port : Nat) : Prop :=
  env.publicPortRangeStart ≤ port ∧ port ≤ env.publicPortRangeEnd ∧ port ∉ db.usedPorts ∧
    port ∉ exclude

/-- The free ports, in increasing order. -/
def Db.allFreePorts (db : Db) (env : DaemonEnv) (exclude : List Nat) : List Nat :=
  (List.range' env.publicPortRangeStart
    (env.publicPortRangeEnd + 1 - env.publicPortRangeStart)).filter fun port =>
      !(db.usedPorts ++ exclude).contains port

theorem mem_allFreePorts {exclude : List Nat} {port : Nat} :
    port ∈ db.allFreePorts env exclude ↔ db.FreePort env exclude port := by
  simp only [Db.allFreePorts, Db.FreePort, List.mem_filter, List.mem_range'_1, Bool.not_eq_true',
    List.contains_eq_mem, decide_eq_false_iff_not, List.mem_append, not_or]
  have hrange : (env.publicPortRangeStart ≤ port ∧ port < env.publicPortRangeStart +
      (env.publicPortRangeEnd + 1 - env.publicPortRangeStart)) ↔
      env.publicPortRangeStart ≤ port ∧ port ≤ env.publicPortRangeEnd := by omega
  rw [hrange, and_assoc]

theorem allFreePorts_increasing (db : Db) (env : DaemonEnv) (exclude : List Nat) :
    (db.allFreePorts env exclude).Pairwise (· < ·) :=
  List.Pairwise.filter _ List.pairwise_lt_range'

theorem freePorts_eq {count : Nat} {exclude : List Nat} (hcount : 0 < count) :
    db.freePorts env count exclude =
      if count ≤ (db.allFreePorts env exclude).length then
        .ok ((db.allFreePorts env exclude).take count)
      else .error ("no free ports left in range " ++
        s!"{env.publicPortRangeStart}-{env.publicPortRangeEnd}") := by
  have hchoose := choosePorts_eq (db.usedPorts ++ exclude) count
    (List.range' env.publicPortRangeStart (env.publicPortRangeEnd + 1 - env.publicPortRangeStart))
    (show ([] : List Nat).length < count from hcount)
  unfold Db.freePorts
  rw [hchoose]
  simp only [List.length_nil, Nat.zero_add, List.nil_append, Nat.sub_zero]
  rw [← Db.allFreePorts]
  by_cases henough : count ≤ (db.allFreePorts env exclude).length
  · rw [if_pos henough, if_pos henough]
  · rw [if_neg henough, if_neg henough]

theorem freePorts_ok_iff {count : Nat} {exclude ports : List Nat} (hcount : 0 < count) :
    db.freePorts env count exclude = .ok ports ↔
      IsLeastValues (db.FreePort env exclude) count ports := by
  have htake : count ≤ (db.allFreePorts env exclude).length →
      IsLeastValues (db.FreePort env exclude) count ((db.allFreePorts env exclude).take count) :=
    isLeastValues_take (allFreePorts_increasing db env exclude) fun _ => mem_allFreePorts
  rw [freePorts_eq hcount]
  split
  · rename_i henough
    rw [Except.ok.injEq]
    constructor
    · rintro rfl
      exact htake henough
    · exact (htake henough).unique
  · rename_i hshort
    constructor
    · intro h
      cases h
    · intro h
      -- the list would hold all free ports, and more than there are
      have hsubset : ports ⊆ db.allFreePorts env exclude := fun port hport =>
        mem_allFreePorts.mpr (h.holds port hport)
      have hlength := (h.nodup.subperm hsubset).length_le
      rw [h.length] at hlength
      exact absurd hlength hshort

theorem freePorts_error_iff {count : Nat} {exclude : List Nat} (hcount : 0 < count) :
    (∃ msg, db.freePorts env count exclude = .error msg) ↔
      {port | db.FreePort env exclude port}.ncard < count := by
  rw [ncard_setOf (allFreePorts_increasing db env exclude) fun _ => mem_allFreePorts,
    freePorts_eq hcount]
  split
  · rename_i henough
    constructor
    · rintro ⟨msg, h⟩
      cases h
    · exact fun hshort => absurd henough (Nat.not_le_of_lt hshort)
  · rename_i hshort
    exact ⟨fun _ => Nat.lt_of_not_le hshort, fun _ => ⟨_, rfl⟩⟩

/-- How a call of `_allocate_public_ports` can end; a `RuntimeError` is the inner `error`. -/
structure Allocates (env : DaemonEnv) (db : Db) (count : Nat) (exclude : List Nat)
    (out : Except PyErr (Except String (List Nat))) : Prop where
  returns_iff : ∀ ports, out = .ok (.ok ports) ↔
    IsLeastValues (db.FreePort env exclude) count ports
  raises_iff : (∃ msg, out = .ok (.error msg)) ↔
    {port | db.FreePort env exclude port}.ncard < count

/-- A rule for a sequence, read for its first part alone. -/
theorem wp_of_bind_ret {p : Daemon α} {Q : Except PyErr α → World → Prop}
    (h : wp (daemonSem policy) (fun _ _ => True) (p >>= fun value => .ret value) Q w) :
    wp (daemonSem policy) (fun _ _ => True) p Q w := by
  apply wp_mono (wp_bind.mp h)
  intro out w' hout
  cases out with
  | ok value => exact hout
  | error err => exact hout

theorem wp_allocatePublicPorts_free {count : Nat} {exclude : List Nat} :
    wp (daemonSem policy) (fun _ _ => True) (allocatePublicPorts env count exclude)
      (fun out w' => out = .ok (w.db.freePorts env count exclude) ∧ w' = w) w :=
  wp_of_bind_ret (wp_allocatePublicPorts ⟨rfl, rfl⟩)

theorem allocatePublicPorts_allocates {count : Nat} {exclude : List Nat} (hcount : 0 < count)
    {out : Except PyErr (Except String (List Nat))}
    (hends : Ends (daemonSem policy) (allocatePublicPorts env count exclude) w out w') :
    w' = w ∧ Allocates env w.db count exclude out := by
  obtain ⟨rfl, rfl⟩ := hends.of_wp wp_allocatePublicPorts_free
  refine ⟨rfl, ?_, ?_⟩
  · intro ports
    rw [← freePorts_ok_iff hcount, Except.ok.injEq]
  · rw [← freePorts_error_iff hcount]
    simp only [Except.ok.injEq]

/-! ## The ports of the rows -/

/-- The host ports of a row. -/
def Instance.hostPorts (row : Instance) : List Nat := (row.publishedPorts.getD []).map Prod.snd

theorem usedPorts_eq (db : Db) : db.usedPorts = db.instances.flatMap Instance.hostPorts := rfl

/-- The host ports of all rows, across owners and within a row, are distinct and in the public
    range. -/
structure Db.PortsDistinct (env : DaemonEnv) (db : Db) : Prop where
  distinct : db.usedPorts.Nodup
  inRange : ∀ port ∈ db.usedPorts, env.publicPortRangeStart ≤ port ∧ port ≤ env.publicPortRangeEnd

theorem portsDistinct_empty : Db.empty.PortsDistinct env :=
  ⟨List.nodup_nil, fun _ h => by cases h⟩

theorem Db.PortsDistinct.of_sublist (h : db.PortsDistinct env) (hports : db'.usedPorts.Sublist db.usedPorts) :
    db'.PortsDistinct env :=
  ⟨h.distinct.sublist hports, fun port hport => h.inRange port (hports.subset hport)⟩

/-- Only `add_instance` brings ports. -/
theorem usedPorts_exec {op : DbOp} (h : ∀ row, op ≠ .addInstance row) :
    (op.exec db).2.usedPorts.Sublist db.usedPorts := by
  cases op with
  | addInstance row => exact absurd rfl (h row)
  | removeInstance containerId =>
    exact List.filter_sublist.flatMap _
  | updateInstanceStatus containerId status =>
    have hsame := Db.map_updateInstanceStatus Instance.hostPorts (fun _ _ => rfl) db containerId status
    simp only [DbOp.exec, usedPorts_eq, List.flatMap_def, hsame]
    exact List.Sublist.refl _
  | allocateOctet owner =>
    have hsame : (db.allocateOctet owner).2.instances = db.instances := instances_allocateOctet
    simp only [DbOp.exec, usedPorts_eq, hsame]
    exact List.Sublist.refl _
  | allocatePeer owner username publicKey candidateIps privateKey =>
    have hsame : (db.allocatePeer owner username publicKey candidateIps privateKey).2.instances =
        db.instances := by
      rw [Db.allocatePeer_eq]
      cases db.firstFreeIp candidateIps with
      | none => rfl
      | some ip => cases db.getPeer username <;> rfl
    simp only [DbOp.exec, usedPorts_eq, hsame]
    exact List.Sublist.refl _
  | _ => exact List.Sublist.refl _

/-- A row whose ports are free can be added. -/
theorem Db.PortsDistinct.addInstance {row : Instance} {exclude : List Nat} (h : db.PortsDistinct env)
    (hnodup : row.hostPorts.Nodup) (hfree : ∀ port ∈ row.hostPorts, db.FreePort env exclude port) :
    (db.addInstance row).2.PortsDistinct env := by
  rcases db.addInstance_cases row with ⟨hadded, -⟩ | ⟨msg, hadded⟩
  · have hports : (db.addInstance row).2.usedPorts = db.usedPorts ++ row.hostPorts := by
      rw [hadded]
      simp [usedPorts_eq, List.flatMap_append]
    constructor
    · rw [hports, List.nodup_append]
      refine ⟨h.distinct, hnodup, ?_⟩
      rintro port hused _ hport rfl
      exact (hfree port hport).2.2.1 hused
    · rw [hports]
      intro port hport
      rcases List.mem_append.mp hport with hold | hnew
      · exact h.inRange port hold
      · exact ⟨(hfree port hnew).1, (hfree port hnew).2.1⟩
  · rw [hadded]
    exact h

/-! ## What a spawn publishes -/

variable {owner : Owner} {challengeRef buildPath : String} {security : Option SecurityProfile}
  {ttlSeconds : Option Int} {publishPorts : Bool} {plan : SpawnPlan}

/-- The ports of an attempt are free. -/
theorem nextPorts_free {triedPorts : List Nat} {portMap : Option (List (String × Nat))}
    (h : db.nextPorts env plan triedPorts = .ok portMap) :
    ((portMap.getD []).map Prod.snd).Nodup ∧
      ∀ port ∈ (portMap.getD []).map Prod.snd, db.FreePort env triedPorts port := by
  unfold Db.nextPorts at h
  split at h
  · rename_i hpublish
    have hcount : 0 < plan.exposedPorts.length := by
      have hexposed : plan.exposedPorts ≠ [] := by simpa using (Bool.and_eq_true_iff.mp hpublish).2
      exact List.length_pos_iff.mpr hexposed
    split at h
    · rename_i hostPorts hfree
      cases h
      have hleast := (freePorts_ok_iff hcount).mp hfree
      have hzip : ((some (plan.exposedPorts.zip hostPorts)).getD []).map Prod.snd = hostPorts :=
        List.map_snd_zip (by rw [hleast.length])
      rw [hzip]
      exact ⟨hleast.nodup, hleast.holds⟩
    · cases h
  · cases h
    exact ⟨List.nodup_nil, fun _ hport => by cases hport⟩

/-- The ports of the row are among those its container was asked for. -/
theorem hostPorts_row {c : Container} {ip ip' : IPv4Address}
    {portMap : Option (List (String × Nat))} (hspec : c.spec = plan.spec ip' portMap) :
    (plan.row c ip).hostPorts.Sublist ((portMap.getD []).map Prod.snd) := by
  have hbound : c.boundPorts.Sublist (portMap.getD []) := by
    unfold Container.boundPorts
    split
    · rw [hspec]
      exact List.Sublist.refl _
    · exact List.nil_sublist _
  have hpublished : (if plan.publishPorts then c.boundPorts else []).Sublist (portMap.getD []) := by
    split
    · exact hbound
    · exact List.nil_sublist _
  have hrow : (plan.row c ip).hostPorts =
      (if plan.publishPorts then c.boundPorts else []).map Prod.snd := by
    unfold Instance.hostPorts SpawnPlan.row
    generalize (if plan.publishPorts then c.boundPorts else []) = published
    cases published with
    | nil => rfl
    | cons _ _ => rfl
  rw [hrow]
  exact hpublished.map _

theorem wp_recordInstance_ports {c : Container} {ip ip' : IPv4Address} {triedPorts : List Nat}
    {portMap : Option (List (String × Nat))} (h : w.db.PortsDistinct env)
    (hfind : w.docker.findContainer (.id c.id) = some c) (hspec : c.spec = plan.spec ip' portMap)
    (hports : w.db.nextPorts env plan triedPorts = .ok portMap) :
    wp (daemonSem policy) (fun _ _ => True) (recordInstance plan c ip)
      (fun _ w' => w'.db.PortsDistinct env) w := by
  obtain ⟨hnodup, hfree⟩ := nextPorts_free hports
  refine wp_liveContainerIp fun live _ => ?_
  refine wp_containersGet trivial ?_ (fun _ _ => h) fun _ _ => h
  intro fresh hfresh
  obtain rfl : c = fresh := Option.some.inj (hfind.symm.trans hfresh)
  have hadded : (w.db.addInstance (plan.row c (live.2.getD ip))).2.PortsDistinct env := by
    have hsublist : (plan.row c (live.2.getD ip)).hostPorts.Sublist ((portMap.getD []).map Prod.snd) :=
      hostPorts_row hspec
    exact h.addInstance (hnodup.sublist hsublist) fun port hport =>
      hfree port (hsublist.subset hport)
  refine wp_callDb trivial ?_
  split
  · exact hadded
  · exact wp_callDocker trivial fun _ _ => hadded

/-! ## The other programs -/

/-- The calls that bring no port. -/
def addsNoRow : DaemonOp → Prop
  | .db (.addInstance _) => False
  | _ => True

theorem Db.PortsDistinct.sem {op : DaemonOp} {res : op.Res} (hcall : addsNoRow op)
    (h : w.db.PortsDistinct env) (hsem : daemonSem policy w op res w') :
    w'.db.PortsDistinct env := by
  obtain ⟨choice, -, hexec⟩ := hsem
  cases op with
  | db op =>
    cases hexec
    apply h.of_sublist
    apply usedPorts_exec
    rintro row rfl
    exact hcall
  | docker op | filter op | wg op =>
    cases hexec
    exact h
  | host op =>
    obtain ⟨result, -, hresult⟩ := Option.map_eq_some_iff.mp hexec
    cases hresult
    exact h

theorem wp_addsNoRow {p : Daemon α} (hp : CallsOnly addsNoRow p) (h : w.db.PortsDistinct env) :
    wp (daemonSem policy) (fun _ _ => True) p (fun _ w' => w'.db.PortsDistinct env) w := by
  apply wp_guard_mono (CallsOnly.preserves (I := fun w : World => w.db.PortsDistinct env) hp ?_ h)
    fun _ _ _ => trivial
  intro _ _ _ _ hcall h hsem
  exact h.sem hcall hsem

theorem addsNoRow_of_quietCall (op : DaemonOp) (h : quietCall op) : addsNoRow op := by
  cases op with
  | db op => cases op <;> first | exact h.elim | trivial
  | docker op | filter op | wg op | host op => trivial

theorem addsNoRow_of_networkCall (op : DaemonOp) (h : networkCall op) : addsNoRow op := by
  unfold networkCall at h
  split at h <;> trivial

theorem addsNoRow_of_readingCall (op : DaemonOp) (h : readingCall op) : addsNoRow op := by
  unfold readingCall at h
  split at h <;> trivial

/-! ## Spawns -/

theorem wp_attemptAndRecord_ports (hdocker : w.docker.WellFormed) (h : w.db.PortsDistinct env) :
    wp (daemonSem policy) (fun _ _ => True) (attemptAndRecord env plan)
      (fun _ w' => w'.db.PortsDistinct env) w := by
  apply wp_seq (wp_spawnAttempts_started hdocker)
  · rintro outcome w₁ ⟨hdb, hcontainer⟩
    have h₁ : w₁.db.PortsDistinct env := hdb ▸ h
    cases outcome with
    | started c ip =>
      obtain ⟨-, hfind, -, triedPorts, portMap, hports, hspec⟩ := hcontainer c ip rfl
      exact wp_recordInstance_ports h₁ hfind hspec (hdb ▸ hports)
    | failed error => exact h₁
    | exhausted lastError => exact h₁
  · rintro err w₁ ⟨hdb, -⟩
    exact hdb ▸ h

theorem wp_spawnInstance_ports (hdocker : w.docker.WellFormed) (h : w.db.PortsDistinct env) :
    wp (daemonSem policy) (fun _ _ => True)
      (spawnInstance env owner challengeRef buildPath security ttlSeconds publishPorts)
      (fun _ w' => w'.db.PortsDistinct env) w := by
  apply wp_callDb trivial
  simp only [DbOp.exec]
  cases w.db.findInstance owner challengeRef with
  | some row => exact h
  | none =>
    refine wp_callHost trivial fun hasDockerfile permits => wp_ite ?_ h
    refine wp_seq (wp_and (wp_addsNoRow (callsOnly_ensureOwnerNetwork.mono
      addsNoRow_of_networkCall) h) (wp_dockerWellFormed hdocker)) ?_ fun _ _ h => h.1
    · rintro octet w₁ ⟨h₁, hdocker₁⟩
      rw [spawnOn_eq]
      apply wp_seq (wp_and (wp_addsNoRow
        (callsOnly_prepareSpawn.mono addsNoRow_of_readingCall) h₁) (wp_dockerWellFormed hdocker₁))
      · rintro prepared w₂ ⟨h₂, hdocker₂⟩
        cases prepared with
        | error error => exact h₂
        | ok plan => exact wp_attemptAndRecord_ports hdocker₂ h₂
      · exact fun _ _ h => h.1

/-! ## Whole runs -/

theorem wp_rebuildFirewall_ports {α : Type} {value : α} (h : w.db.PortsDistinct env) :
    wp (daemonSem policy) (fun _ _ => True) (rebuildFirewall env >>= fun _ => .ret value)
      (fun _ w' => w'.db.PortsDistinct env) w :=
  wp_addsNoRow ((callsOnly_rebuildFirewall.bind fun _ => .ret).mono addsNoRow_of_quietCall) h

/-- **One event.** -/
theorem Db.PortsDistinct.step {event : DaemonEvent} (h : w.db.PortsDistinct env)
    (hdocker : w.docker.WellFormed) (hmanages : event.managesContainers)
    (hstep : DaemonStep policy env w event w') : w'.db.PortsDistinct env := by
  cases hstep with
  | adoption _ => exact hmanages.elim
  | lostDatabase => exact hmanages.elim
  | drift _ => exact h
  | request hends =>
    rename_i request _
    cases request with
    | containerEnsureInstance owner challengeRef buildPath security ttlSeconds publishPorts =>
      apply hends.of_wp
      apply wp_seq (wp_withSpawnSemaphore (fun _ _ _ h => h) fun permits =>
        wp_spawnInstance_ports hdocker h)
      · intro result w₁ h₁
        unfold spawnedInstance
        split
        · exact wp_rebuildFirewall_ports h₁
        · exact h₁
      · exact fun _ _ h => h
    | containerReleaseInstance containerId =>
      apply hends.of_wp
      apply wp_seq (wp_addsNoRow (callsOnly_releaseInstance.mono addsNoRow_of_quietCall) h)
      · exact fun _ _ h₁ => wp_rebuildFirewall_ports h₁
      · exact fun _ _ h => h
    | containerReconcile =>
      apply hends.of_wp
      apply wp_seq (wp_addsNoRow (callsOnly_reconcile.mono addsNoRow_of_quietCall) h)
      · exact fun _ _ h₁ => wp_callDb trivial h₁
      · exact fun _ _ h => h
    | ping | wgEnsurePeer _ _ | wgRemovePeer _ | wgRenderConfig _ | containerInspect _ | killSwitch =>
      cases hmanages

theorem portsDistinct_of_run {w₀ : World} (hinstalled : w₀.Installed)
    (hrun : DaemonRun anyFault env (fun _ event => event.managesContainers) w₀ w) :
    w.db.PortsDistinct env := by
  induction hrun with
  | start =>
    rw [hinstalled.db]
    exact portsDistinct_empty
  | step hrun hok hstep ih => exact ih.step (hinstalled.wellFormed.run hrun).docker hok hstep

/-- **Published host ports never clash.**  From the installation on, spawns, releases and
    reconciliations in any order, with any failures and with containers changing status in between,
    keep the host ports of all rows distinct and in the public range; and the allocator returns the
    least free ports, or raises if there are too few. -/
theorem publishedPorts_neverClash (env : DaemonEnv) :
    (∀ w₀ w : World, w₀.Installed →
      DaemonRun anyFault env (fun _ event => event.managesContainers) w₀ w →
      w.db.PortsDistinct env) ∧
    ∀ (w w' : World) (count : Nat) (exclude : List Nat) out, 1 ≤ count →
      Ends (daemonSem anyFault) (allocatePublicPorts env count exclude) w out w' →
      w' = w ∧ Allocates env w.db count exclude out :=
  ⟨fun _ _ hinstalled hrun => portsDistinct_of_run hinstalled hrun,
    fun _ _ _ _ _ hcount hends => allocatePublicPorts_allocates hcount hends⟩

theorem ends_allocatePublicPorts {count : Nat} {exclude : List Nat}
    (hpolicy : policy (.db .getAllInstances) ()) :
    Ends (daemonSem policy) (allocatePublicPorts env count exclude) w
      (.ok (w.db.freePorts env count exclude)) w := by
  have hcalls : CallsOnly (fun op => op = DaemonOp.db .getAllInstances)
      (allocatePublicPorts env count exclude) := by
    refine .call rfl fun rows => ?_
    simp only [Prog.bind_ret, Prog.pure_eq]
    split
    · exact .ret
    · exact .ret
  have hanswers : ∀ (w : World) (op : DaemonOp), op = .db .getAllInstances →
      ∃ res w', daemonSem policy w op res w' := by
    rintro w _ rfl
    exact ⟨_, _, (), hpolicy, rfl⟩
  obtain ⟨out, w', hends⟩ := hcalls.exists_ends hanswers w
  obtain ⟨rfl, rfl⟩ := hends.of_wp wp_allocatePublicPorts_free
  exact hends

def publishRequest (owner : Owner) : Request :=
  .containerEnsureInstance owner "web" "/challenges/web" SecurityProfile.default none true

/-- A published instance for each of two teams; the first is released and spawned again. -/
def publishedSpawns : List QuietEvent :=
  [.served (publishRequest ⟨"team", 1⟩), .served (publishRequest ⟨"team", 2⟩),
   .served (.containerReleaseInstance 1), .served (publishRequest ⟨"team", 3⟩)]

theorem publishedSpawns_runs : (quietHistory (fun _ event => decide event.managesContainers)
    publishedSpawns freshHost).any (fun w => w.db.usedPorts = [40001, 40000] ∧
      w.db.freePorts DaemonEnv.default 2 [40002] = .ok [40003, 40004]) = true := by
  decide +kernel

theorem publishedPorts_neverClash_publishedSpawns : ∃ w : World, w.db.usedPorts = [40001, 40000] ∧
    w.db.PortsDistinct DaemonEnv.default ∧
    Allocates DaemonEnv.default w.db 2 [40002] (.ok (.ok [40003, 40004])) := by
  obtain ⟨w, hrun, hchecks⟩ := (Option.any_eq_true _ _).mp publishedSpawns_runs
  obtain ⟨hports, hfree⟩ := of_decide_eq_true hchecks
  obtain ⟨hruns, hallocates⟩ := publishedPorts_neverClash DaemonEnv.default
  refine ⟨w, hports, hruns freshHost w freshHost_installed
    (.of_quietHistory (fun _ _ hok => of_decide_eq_true hok) hrun), ?_⟩
  rw [← hfree]
  exact (hallocates w w 2 [40002] _ (by decide) (ends_allocatePublicPorts trivial)).2

end EdoPlugin
