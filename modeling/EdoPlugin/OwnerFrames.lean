import EdoPlugin.ListFrames
import EdoPlugin.ServiceProtocol

/-!
# What the daemon leaves alone

A request for a key changes no container, row or peer but those of the owner of the key, and a request
for the peer of a user no other peer.  Each is shown call by call: what was issued for somebody else is
not what the thread knows, so an update or a removal spares it.
-/

namespace EdoPlugin

open Interaction

variable {policy : Policy} {env : DaemonEnv} {w w' w'' : World} {owner other : Owner} {α : Type}

/-! ## Frames -/

/-- The containers and rows of the owner are as they were. -/
structure World.OwnerKept (owner : Owner) (w₀ w : World) : Prop where
  rows : w.db.instances.filter (fun row => row.owner = owner) =
    w₀.db.instances.filter fun row => row.owner = owner
  containers : w.docker.containers.filter (fun c => c.belongsTo owner) =
    w₀.docker.containers.filter fun c => c.belongsTo owner

/-- Everything but the containers and rows of one owner is as it was. -/
structure World.OthersKept (owner : Owner) (w₀ w : World) : Prop where
  owners : ∀ other ≠ owner, w₀.OwnerKept other w
  peers : w.db.peers = w₀.db.peers

/-- Everything but one peer is as it was. -/
structure World.PeersKept (username : String) (w₀ w : World) : Prop where
  instances : w.db.instances = w₀.db.instances
  docker : w.docker = w₀.docker
  peers : ∀ other ≠ username, w.db.peers.filter (fun peer => peer.username = other) =
    w₀.db.peers.filter fun peer => peer.username = other

namespace World.OwnerKept

theorem refl : OwnerKept owner w w := ⟨rfl, rfl⟩

theorem trans (h : OwnerKept owner w w') (h' : OwnerKept owner w' w'') : OwnerKept owner w w'' :=
  ⟨h'.rows.trans h.rows, h'.containers.trans h.containers⟩

end World.OwnerKept

namespace World.OthersKept

theorem refl : OthersKept owner w w := ⟨fun _ _ => .refl, rfl⟩

theorem trans (h : OthersKept owner w w') (h' : OthersKept owner w' w'') : OthersKept owner w w'' :=
  ⟨fun other hother => (h.owners other hother).trans (h'.owners other hother), h'.peers.trans h.peers⟩

end World.OthersKept

namespace World.PeersKept

variable {username : String}

theorem refl : PeersKept username w w := ⟨rfl, rfl, fun _ _ => rfl⟩

theorem trans (h : PeersKept username w w') (h' : PeersKept username w' w'') :
    PeersKept username w w'' :=
  ⟨h'.instances.trans h.instances, h'.docker.trans h.docker,
    fun other hother => (h'.peers other hother).trans (h.peers other hother)⟩

end World.PeersKept

/-! ## Requests for a key -/

section Keys

variable {issued : ContainerId → SpawnKey} {key : SpawnKey} {known : List ContainerId}

theorem ownerKept_docker {op : DockerOp} {d : Docker} (h : w.Ledger issued)
    (hholds : (ServicePhase.forKey key known).Holds w issued) (hother : other ≠ key.owner)
    (hadmits : (ServicePhase.forKey key known).admits (.docker op)) (hstep : DockerStep w.docker op d) :
    d.containers.filter (fun c => c.belongsTo other) =
      w.docker.containers.filter fun c => c.belongsTo other := by
  have hforeign : ∀ {c : Container}, c.spec.IssuedTo key → c.belongsTo other = false := by
    intro c hc
    rw [← Bool.not_eq_true, hc.belongsTo_iff]
    exact hother.symm
  have hown : ∀ c ∈ w.docker.containers, c.id ∈ known → c.spec.IssuedTo key := by
    intro c hc hmem
    rw [← (hholds c.id hmem).1]
    exact h.containers c hc
  have hupdate : ∀ (id : ContainerId) (f : Container → Container), id ∈ known →
      (∀ c, (f c).spec = c.spec) → (w.docker.updateContainer id f).containers.filter
        (fun c => c.belongsTo other) = w.docker.containers.filter fun c => c.belongsTo other := by
    intro id f hmem hf
    apply ListFrames.filter_map_frame
    intro c hc
    by_cases hid : c.id = id
    · have hspec := hown c hc (hid ▸ hmem)
      have hspec' : (f c).spec.IssuedTo key := by
        rw [hf]
        exact hspec
      rw [if_pos hid]
      exact Or.inr ⟨hforeign hspec, hforeign hspec'⟩
    · rw [if_neg hid]
      exact Or.inl rfl
  cases hstep with
  | same | createNetwork _ | removeNetwork _ => rfl
  | createContainer =>
    apply ListFrames.filter_append_frame
    intro c hc
    rw [List.mem_singleton.mp hc]
    exact hforeign hadmits
  | start _ _ _ => exact hupdate _ _ hadmits fun _ => rfl
  | stop => exact hupdate _ _ hadmits fun _ => rfl
  | remove =>
    apply ListFrames.filter_filter_frame
    intro c hc hkeep
    apply decide_eq_true
    rintro rfl
    rw [hforeign (hown c hc hadmits)] at hkeep
    cases hkeep

theorem ownerKept_db {op : DbOp} (h : w.Ledger issued)
    (hholds : (ServicePhase.forKey key known).Holds w issued) (hother : other ≠ key.owner)
    (hadmits : (ServicePhase.forKey key known).admits (.db op)) :
    (op.exec w.db).2.instances.filter (fun row => row.owner = other) =
      w.db.instances.filter fun row => row.owner = other := by
  have hown : ∀ row ∈ w.db.instances, row.containerId ∈ known → row.owner = key.owner := by
    intro row hrow hmem
    have hkey := (h.rows row hrow).1
    rw [(hholds _ hmem).1] at hkey
    exact congrArg Prod.fst hkey
  cases op with
  | addInstance row =>
    have howner : row.owner = key.owner := congrArg Prod.fst hadmits.1
    rcases w.db.addInstance_cases row with ⟨hadded, -⟩ | ⟨msg, hadded⟩
    · simp only [DbOp.exec, hadded]
      apply ListFrames.filter_append_frame
      intro added hadded
      rw [List.mem_singleton.mp hadded, howner]
      exact decide_eq_false hother.symm
    · simp only [DbOp.exec, hadded]
  | removeInstance id =>
    apply ListFrames.filter_filter_frame
    intro row hrow hkeep
    apply decide_eq_true
    rintro rfl
    rw [hown row hrow hadmits] at hkeep
    exact hother (of_decide_eq_true hkeep).symm
  | updateInstanceStatus id status =>
    apply ListFrames.filter_map_frame
    intro row hrow
    by_cases hid : row.containerId = id
    · have howner : row.owner ≠ other := by
        rw [hown row hrow (hid ▸ hadmits)]
        exact hother.symm
      rw [if_pos hid]
      exact Or.inr ⟨decide_eq_false howner, decide_eq_false howner⟩
    · rw [if_neg hid]
      exact Or.inl rfl
  | _ => exact congrArg (List.filter _) (Db.exec_keepsInstances trivial)

/-- One call of a thread that serves the key. -/
theorem othersKept_sem {op : DaemonOp} {res : op.Res} (h : w.Ledger issued)
    (hholds : (ServicePhase.forKey key known).Holds w issued)
    (hadmits : (ServicePhase.forKey key known).admits op) (hsem : daemonSem policy w op res w') :
    w.OthersKept key.owner w' := by
  obtain ⟨choice, -, hexec⟩ := hsem
  cases op with
  | db op =>
    cases hexec
    refine ⟨fun other hother => ⟨ownerKept_db h hholds hother hadmits, rfl⟩, ?_⟩
    cases op with
    | allocatePeer owner username publicKey candidateIps privateKey => exact hadmits.elim
    | removePeer username => exact hadmits.elim
    | addInstance row =>
      rcases w.db.addInstance_cases row with ⟨hadded, -⟩ | ⟨msg, hadded⟩
      · simp only [DbOp.exec, hadded]
      · simp only [DbOp.exec, hadded]
    | allocateOctet owner =>
      simp only [DbOp.exec, Db.allocateOctet_eq]
      cases w.db.getOctet owner with
      | some held => rfl
      | none => cases w.db.firstFreeOctet <;> rfl
    | _ => rfl
  | docker op =>
    cases hexec
    refine ⟨fun other hother => ⟨rfl, ?_⟩, rfl⟩
    exact ownerKept_docker h hholds hother hadmits (DockerOp.exec_step w.docker op choice)
  | filter op | wg op =>
    cases hexec
    exact ⟨fun _ _ => ⟨rfl, rfl⟩, rfl⟩
  | host op =>
    obtain ⟨result, -, hresult⟩ := Option.map_eq_some_iff.mp hexec
    cases hresult
    exact ⟨fun _ _ => ⟨rfl, rfl⟩, rfl⟩

theorem wp_othersKept {p : Daemon α} {P : α → ServicePhase → Prop} (hp : Serves p P (.forKey key known))
    (h : w.Ledger issued) (hholds : (ServicePhase.forKey key known).Holds w issued) :
    wp (daemonSem policy) (fun _ _ => True) p (fun _ w' => w.OthersKept key.owner w') w := by
  have hstep : ∀ w₁ φ op (res : DaemonOp.Res op) w₂, (φ.key? = some key ∧
      (∃ issued', LedgerAfter w issued φ w₁ issued') ∧ w.OthersKept key.owner w₁) →
      φ.admits op → daemonSem policy w₁ op res w₂ → φ.expected op res ∧
      (φ.next op res).key? = some key ∧ (∃ issued', LedgerAfter w issued (φ.next op res) w₂ issued') ∧
        w.OthersKept key.owner w₂ := by
    rintro w₁ φ op res w₂ ⟨hkey, ⟨issued₁, hafter⟩, hothers⟩ hadmits hsem
    obtain ⟨hexpected, issued₂, hafter'⟩ := hafter.ledger.sem hafter.holds hadmits hsem
    refine ⟨hexpected, ?_, ⟨issued₂, hafter.continues.trans hafter'.continues, hafter'.ledger,
      hafter'.holds⟩, ?_⟩
    · rw [ServicePhase.key?_next]
      exact hkey
    · cases φ with
      | issuesNothing => cases hkey
      | forKey own known' =>
        cases hkey
        exact hothers.trans (othersKept_sem hafter.ledger hafter.holds hadmits hsem)
  apply wp_mono (hp.preserves hstep ⟨rfl, ⟨issued, .refl, h, hholds⟩, .refl⟩)
  rintro _ w' ⟨_, ⟨-, -, hothers⟩, -⟩
  exact hothers

end Keys

/-! ## Requests for a peer -/

section Peers

variable {username : String}

theorem peers_db {op : DbOp} {other : String} (hother : other ≠ username)
    (hcall : peerCall username (.db op)) :
    (op.exec w.db).2.peers.filter (fun peer => peer.username = other) =
      w.db.peers.filter fun peer => peer.username = other := by
  cases op with
  | allocatePeer owner name publicKey candidateIps privateKey =>
    obtain rfl : name = username := hcall
    simp only [DbOp.exec, Db.allocatePeer_eq]
    cases w.db.firstFreeIp candidateIps with
    | none => rfl
    | some ip =>
      cases w.db.getPeer name with
      | some peer => rfl
      | none =>
        apply ListFrames.filter_append_frame
        intro peer hpeer
        rw [List.mem_singleton.mp hpeer]
        exact decide_eq_false hother.symm
  | removePeer name =>
    obtain rfl : name = username := hcall
    apply ListFrames.filter_filter_frame
    intro peer _ hkeep
    apply decide_eq_true
    rw [of_decide_eq_true hkeep]
    exact hother
  | getPeer _ | getAllPeers | peersGroupedByOwner | getAllOwnerOctets => rfl
  | _ => exact hcall.elim

theorem peersKept_sem {op : DaemonOp} {res : op.Res} (hcall : peerCall username op)
    (hsem : daemonSem policy w op res w') : w.PeersKept username w' := by
  have hinstances : w'.db.instances = w.db.instances := by
    refine instances_sem ?_ hsem
    unfold peerCall at hcall
    split at hcall <;> trivial
  obtain ⟨choice, -, hexec⟩ := hsem
  cases op with
  | db op =>
    cases hexec
    exact ⟨hinstances, rfl, fun other hother => peers_db hother hcall⟩
  | filter op | wg op =>
    cases hexec
    exact ⟨rfl, rfl, fun _ _ => rfl⟩
  | docker op | host op => exact hcall.elim

theorem wp_peersKept {p : Daemon α} (hp : CallsOnly (peerCall username) p) :
    wp (daemonSem policy) (fun _ _ => True) p (fun _ w' => w.PeersKept username w') w := by
  apply wp_guard_mono (hp.preserves (I := fun w' : World => w.PeersKept username w') ?_ .refl)
    fun _ _ _ => trivial
  exact fun _ _ _ _ hcall h hsem => h.trans (peersKept_sem hcall hsem)

theorem peerCall_of_filterCall (op : DaemonOp) (h : filterCall op) : peerCall username op := by
  cases op <;> trivial

theorem callsOnly_rebuildFirewall_peer : CallsOnly (peerCall username) (rebuildFirewall env) := by
  refine CallsOnly.bind (CallsOnly.perform trivial) fun peersByOwner => ?_
  refine CallsOnly.bind (CallsOnly.perform trivial) fun rows => ?_
  exact CallsOnly.bind (callsOnly_applyFirewall.mono peerCall_of_filterCall) fun _ => .ret

theorem peerCall_of_wgCall (op : DaemonOp) (h : wgCall op) : peerCall username op := by
  cases op <;> trivial

theorem callsOnly_wgEnsurePeer {userId : Int} :
    CallsOnly (peerCall (usernameOf userId)) (handle env (.wgEnsurePeer userId owner)) := by
  refine CallsOnly.bind (CallsOnly.perform trivial) fun existing => ?_
  cases existing with
  | some peer =>
    refine CallsOnly.bind (callsOnly_loadServerConfig.mono peerCall_of_wgCall) fun server => ?_
    exact .ret
  | none =>
    refine CallsOnly.bind (callsOnly_loadServerConfig.mono peerCall_of_wgCall) fun server => ?_
    refine CallsOnly.bind callsOnly_addPeer fun _ => ?_
    exact CallsOnly.bind callsOnly_rebuildFirewall_peer fun _ => .ret

theorem callsOnly_wgRenderConfig {userId : Int} :
    CallsOnly (peerCall (usernameOf userId)) (handle env (.wgRenderConfig userId)) := by
  refine CallsOnly.bind (CallsOnly.perform trivial) fun found => ?_
  cases found with
  | none => exact .raise
  | some peer =>
    refine CallsOnly.bind (callsOnly_loadServerConfig.mono peerCall_of_wgCall) fun server => ?_
    exact .ret

end Peers

end EdoPlugin
