import EdoPlugin.ConcurrentSubmissions
import EdoPlugin.OwnerFrames
import EdoPlugin.SiteLife

/-!
# What a participant can touch

A participant's request acts for the owner of its caller.  Each write of its session concerns that
owner alone, and each RPC is for a key of the owner or for the caller's peer; so the rows, containers
and peers of everybody else are after the request what they were before.
-/

namespace EdoPlugin

open Interaction ChallengeType

/-! ## Frames -/

/-- Everything but the rows of one owner, and of its users, is as it was. -/
structure PluginDb.OthersKept (owner : Owner) (db₀ db : PluginDb) : Prop where
  accounts : db₀.SameAccounts db
  instances : ∀ other ≠ owner, db.instances.filter (fun row => row.owner = other) =
    db₀.instances.filter fun row => row.owner = other
  flagSolves : ∀ other ≠ owner, db.flagSolves.filter (fun solve => solve.owner = other) =
    db₀.flagSolves.filter fun solve => solve.owner = other
  solves : ∀ other ≠ owner, db.solves.filter (fun row => solverOf row.userId row.teamId = other) =
    db₀.solves.filter fun row => solverOf row.userId row.teamId = other
  fails : ∀ other ≠ owner, db.fails.filter (fun row => solverOf row.userId row.teamId = other) =
    db₀.fails.filter fun row => solverOf row.userId row.teamId = other
  peers : ∀ userId, db₀.resolveOwner (some userId) ≠ some owner →
    db.peers.filter (fun peer => peer.userId = userId) =
      db₀.peers.filter fun peer => peer.userId = userId

/-- On both sides of the site. -/
structure Site.OthersKept (owner : Owner) (s₀ s : Site) : Prop where
  plugin : s₀.plugin.OthersKept owner s.plugin
  owners : ∀ other ≠ owner, s₀.daemon.OwnerKept other s.daemon
  peers : ∀ userId, s₀.plugin.resolveOwner (some userId) ≠ some owner →
    s.daemon.db.peers.filter (fun peer => peer.username = usernameOf userId) =
      s₀.daemon.db.peers.filter fun peer => peer.username = usernameOf userId

variable {env : DaemonEnv} {compare : FlagComparison} {owner : Owner} {db db' db'' : PluginDb}
  {s s' s'' : Site} {w : World}

namespace PluginDb.OthersKept

theorem refl : db.OthersKept owner db :=
  ⟨⟨rfl, rfl, rfl, rfl⟩, fun _ _ => rfl, fun _ _ => rfl, fun _ _ => rfl, fun _ _ => rfl,
    fun _ _ => rfl⟩

theorem trans (h : db.OthersKept owner db') (h' : db'.OthersKept owner db'') :
    db.OthersKept owner db'' := by
  refine ⟨⟨?_, ?_, ?_, ?_⟩, ?_, ?_, ?_, ?_, ?_⟩
  · exact h'.accounts.teamsMode.trans h.accounts.teamsMode
  · exact h'.accounts.users.trans h.accounts.users
  · exact h'.accounts.teams.trans h.accounts.teams
  · exact h'.accounts.flags.trans h.accounts.flags
  · exact fun other hother => (h'.instances other hother).trans (h.instances other hother)
  · exact fun other hother => (h'.flagSolves other hother).trans (h.flagSolves other hother)
  · exact fun other hother => (h'.solves other hother).trans (h.solves other hother)
  · exact fun other hother => (h'.fails other hother).trans (h.fails other hother)
  · intro userId huser
    apply (h'.peers userId _).trans (h.peers userId huser)
    rw [h.accounts.resolveOwner]
    exact huser

end PluginDb.OthersKept

namespace Site.OthersKept

theorem refl : s.OthersKept owner s := ⟨.refl, fun _ _ => .refl, fun _ _ => rfl⟩

theorem trans (h : s.OthersKept owner s') (h' : s'.OthersKept owner s'') : s.OthersKept owner s'' := by
  refine ⟨h.plugin.trans h'.plugin, ?_, ?_⟩
  · exact fun other hother => (h.owners other hother).trans (h'.owners other hother)
  · intro userId huser
    apply (h'.peers userId _).trans (h.peers userId huser)
    rw [h.plugin.accounts.resolveOwner]
    exact huser

theorem of_plugin (h : s.plugin.OthersKept owner db) : s.OthersKept owner { s with plugin := db } :=
  ⟨h, fun _ _ => .refl, fun _ _ => rfl⟩

/-- An RPC for a key of the owner. -/
theorem of_daemon (h : s.daemon.OthersKept owner w) : s.OthersKept owner { s with daemon := w } :=
  ⟨.refl, h.owners, fun _ _ => congrArg (List.filter _) h.peers⟩

/-- An RPC for the peer of one of its users. -/
theorem of_peers {userId : Int} (h : s.daemon.PeersKept (usernameOf userId) w)
    (huser : s.plugin.resolveOwner (some userId) = some owner) :
    s.OthersKept owner { s with daemon := w } := by
  refine ⟨.refl, fun other _ => ⟨?_, ?_⟩, ?_⟩
  · exact congrArg (List.filter _) h.instances
  · rw [h.docker]
  · intro other hother
    apply h.peers
    intro hsame
    rw [usernameOf_injective hsame] at hother
    exact hother huser

end Site.OthersKept

/-! ## Writes -/

/-- The write is one to a row of the owner, or of one of its users. -/
def Write.Concerns (owner : Owner) (db : PluginDb) : Write → Prop
  | .updateInstance instanceId _ | .deleteInstance instanceId =>
    ∀ row ∈ db.instances, row.id = instanceId → row.owner = owner
  | .insertPeer row => db.resolveOwner (some row.userId) = some owner
  | .insertFlagSolve row => row.owner = owner
  | .insertSolve row | .insertFail row => solverOf row.userId row.teamId = owner
  | _ => False

/-- A new row of the owner. -/
theorem filter_append_other {ρ : Type} {rows : List ρ} {row : ρ} {ownerOf : ρ → Owner} {other : Owner}
    (hrow : ownerOf row = owner) (hother : other ≠ owner) :
    (rows ++ [row]).filter (fun row => ownerOf row = other) =
      rows.filter fun row => ownerOf row = other := by
  apply ListFrames.filter_append_frame
  intro added hadded
  rw [List.mem_singleton.mp hadded, hrow]
  exact decide_eq_false hother.symm

namespace PluginDb.OthersKept

/-- A write that leaves the instances of others alone. -/
theorem of_onRow {write : Write} (hkeyed : db.Keyed) (hon : write.OnInstances)
    (hspares : ∀ row ∈ db.instances, row.owner ≠ owner → write.onRow row = some row)
    (happly : db.apply write = .ok db') : db.OthersKept owner db' := by
  have hrows := (hkeyed.apply happly).2.2
  have hall : db.applyAll [write] = .ok db' := by
    rw [applyAll_singleton]
    exact happly
  have hrest : db' = { db with instances := db'.instances } := by
    apply applyAll_onInstances _ hall
    intro other hother
    rw [List.mem_singleton.mp hother]
    exact hon
  rw [hrest]
  refine ⟨⟨rfl, rfl, rfl, rfl⟩, ?_, fun _ _ => rfl, fun _ _ => rfl, fun _ _ => rfl, fun _ _ => rfl⟩
  intro other hother
  show db'.instances.filter _ = _
  rw [hrows]
  apply ListFrames.filter_filterMap_frame
  intro row hrow
  by_cases hown : row.owner = owner
  · refine Or.inr ⟨decide_eq_false fun h => hother (h.symm.trans hown), ?_⟩
    intro row' hrow'
    have hsame : row'.owner = row.owner :=
      congrArg Prod.snd (Write.onRow_congr (fun _ _ _ _ => EdoInstance.update_key) hrow')
    rw [hsame, hown]
    exact decide_eq_false hother.symm
  · exact Or.inl (hspares row hrow hown)

/-- A write to another table. -/
theorem apply_elsewhere {write : Write} (hon : ¬ write.OnInstances) (h : write.Concerns owner db)
    (happly : db.apply write = .ok db') : db.OthersKept owner db' := by
  cases write with
  | updateInstance _ _ | deleteInstance _ => exact (hon trivial).elim
  | insertPeer row =>
    simp only [PluginDb.apply, insertPeer] at happly
    split at happly
    · cases happly
    · split at happly <;> cases happly
      refine ⟨⟨rfl, rfl, rfl, rfl⟩, fun _ _ => rfl, fun _ _ => rfl, fun _ _ => rfl, fun _ _ => rfl, ?_⟩
      intro userId huser
      apply ListFrames.filter_append_frame
      intro added hadded
      rw [List.mem_singleton.mp hadded]
      apply decide_eq_false
      rintro rfl
      exact huser h
  | insertFlagSolve row =>
    simp only [PluginDb.apply, insertFlagSolve] at happly
    split at happly <;> cases happly
    refine ⟨⟨rfl, rfl, rfl, rfl⟩, fun _ _ => rfl, ?_, fun _ _ => rfl, fun _ _ => rfl, fun _ _ => rfl⟩
    exact fun other hother => filter_append_other h hother
  | insertSolve row =>
    simp only [PluginDb.apply, insertSolve] at happly
    split at happly
    · cases happly
    · split at happly <;> cases happly
      refine ⟨⟨rfl, rfl, rfl, rfl⟩, fun _ _ => rfl, fun _ _ => rfl, ?_, fun _ _ => rfl, fun _ _ => rfl⟩
      exact fun other hother => filter_append_other h hother
  | insertFail row =>
    cases happly
    refine ⟨⟨rfl, rfl, rfl, rfl⟩, fun _ _ => rfl, fun _ _ => rfl, fun _ _ => rfl, ?_, fun _ _ => rfl⟩
    exact fun other hother => filter_append_other h hother
  | deleteActiveInstances | revokePeer _ | deleteFlagSolves _ _ | deleteSolves _ _ => exact h.elim

theorem apply {write : Write} (hkeyed : db.Keyed) (h : write.Concerns owner db)
    (happly : db.apply write = .ok db') : db.OthersKept owner db' := by
  by_cases hon : write.OnInstances
  · refine of_onRow hkeyed hon ?_ happly
    intro row hrow hother
    cases write with
    | updateInstance instanceId columns => exact if_neg fun hid => hother (h row hrow hid)
    | deleteInstance instanceId => exact if_neg fun hid => hother (h row hrow hid)
    | deleteActiveInstances => exact h.elim
    | _ => exact hon.elim
  · exact apply_elsewhere hon h happly

theorem insertInstance {challengeId id : Nat} {expiresAt : Timestamp}
    (hinsert : db.insertInstance challengeId owner expiresAt = .ok (id, db')) :
    db.OthersKept owner db' := by
  obtain ⟨-, -, row, -, -, howner, -, -, rfl⟩ := insertInstance_eq hinsert
  refine ⟨⟨rfl, rfl, rfl, rfl⟩, ?_, fun _ _ => rfl, fun _ _ => rfl, fun _ _ => rfl, fun _ _ => rfl⟩
  exact fun other hother => filter_append_other howner hother

end PluginDb.OthersKept

/-! ## RPCs -/

section Rpcs

variable {w' : World} {issued : ContainerId → SpawnKey} {key : SpawnKey} {request : Request}
  {answer : Except DaemonError Reply}

/-- A spawn for the key. -/
theorem Unreliable.othersKept_spawn (hrpc : Unreliable env w request answer w') (key : SpawnKey)
    (h : w.Ledger issued) (hknown : key.owner.Known) (hfor : request.IsFor key) :
    w.OthersKept key.owner w' := by
  cases request with
  | containerEnsureInstance owner challengeRef buildPath security ttlSeconds publishPorts =>
    obtain ⟨rfl, rfl⟩ := hfor
    have hholds : (ServicePhase.forKey key []).Holds w issued := fun _ hid => by cases hid
    exact hrpc.of_wp .refl (wp_othersKept (serves_ensureInstance key hknown) h hholds)
  | _ => exact hfor.elim

/-- The release of a container that was issued for the key. -/
theorem Unreliable.othersKept_release {containerId : ContainerId} (h : w.Ledger issued)
    (hissued : issued containerId = key ∧ containerId < w.docker.nextId)
    (hrpc : Unreliable env w (.containerReleaseInstance containerId) answer w') :
    w.OthersKept key.owner w' := by
  have hholds : (ServicePhase.forKey key [containerId]).Holds w issued := by
    intro id hid
    rw [List.mem_singleton.mp hid]
    exact hissued
  exact hrpc.of_wp .refl (wp_othersKept (serves_releaseInstance List.mem_cons_self) h hholds)

end Rpcs

/-! ## Calls that spare the others in any state -/

/-- Whatever the call answers, in whatever state, the others are as before. -/
def Sparing (env : DaemonEnv) (owner : Owner) (op : SiteOp) : Prop :=
  ∀ s res s', siteSem (Unreliable env) s op res s' → s.OthersKept owner s'

/-- A write of such a kind. -/
theorem sparing_commit {write : Write} (hon : ¬ write.OnInstances)
    (h : ∀ db, write.Concerns owner db) : Sparing env owner (.commit [write]) := by
  rintro s _ _ ⟨-, rfl⟩
  unfold PluginDb.commit
  rw [PluginDb.applyAll_singleton]
  cases happly : s.plugin.apply write with
  | ok db => exact .of_plugin (PluginDb.OthersKept.apply_elsewhere hon (h _) happly)
  | error err => exact .refl

theorem judging_sparing {challengeId : Nat} : Judging (Sparing env owner) challengeId owner := by
  constructor
  · rintro s _ _ ⟨-, rfl⟩
    exact .refl
  · exact fun row _ hsolver => sparing_commit id fun _ => hsolver.symm
  · exact fun flagId => sparing_commit id fun _ => rfl
  · exact fun row _ hsolver => sparing_commit id fun _ => hsolver.symm

/-! ## The routes -/

/-- A piece of a route that leaves the others as they were. -/
abbrev KeepsOthers {α : Type} (env : DaemonEnv) (owner : Owner) (p : Plugin α) (s : Site) : Prop :=
  wp (siteSem (Unreliable env)) (fun _ _ => True) p (fun _ s' => s.OthersKept owner s') s

section Routes

variable {α : Type} {caller : Option Int} {instanceId challengeId : Nat}
  {issued : ContainerId → SpawnKey} {row : EdoInstance} {user : User}

theorem keepsOthers_reads {p : Plugin α} (hp : CallsOnly readsSite p) : KeepsOthers env owner p s := by
  apply wp_mono (wp_reads hp)
  rintro _ _ rfl
  exact .refl

theorem keepsOthers_sparing {p : Plugin α} (hp : CallsOnly (Sparing env owner) p) :
    KeepsOthers env owner p s := by
  apply wp_guard_mono (hp.preserves (I := fun s' : Site => s.OthersKept owner s') ?_ .refl)
    fun _ _ _ => trivial
  exact fun _ _ _ _ hcall h hsem => h.trans (hcall _ _ _ hsem)

theorem keepsOthers_commit {write : Write} {f : Unit → Plugin α} (hkeyed : s.plugin.Keyed)
    (h : write.Concerns owner s.plugin) (hf : ∀ db, s.plugin.apply write = .ok db →
      s.plugin.OthersKept owner db → KeepsOthers env owner (f ()) { s with plugin := db }) :
    KeepsOthers env owner (commit [write] >>= f) s := by
  apply wp_commit trivial
  · intro db happly
    rw [PluginDb.applyAll_singleton] at happly
    have hkept := PluginDb.OthersKept.apply hkeyed h happly
    exact wp_mono (hf db happly hkept) fun _ _ hrest => (Site.OthersKept.of_plugin hkept).trans hrest
  · exact fun _ _ => .refl

/-- An RPC, and what its method makes of the reply. -/
theorem keepsOthers_rpc {request : Request} {f : Except DaemonError Reply → Plugin α}
    (hf : ∀ answer, CallsOnly (fun _ => False) (f answer))
    (h : ∀ answer w, Unreliable env s.daemon request answer w →
      s.OthersKept owner { s with daemon := w }) :
    wp (siteSem (Unreliable env)) (fun _ _ => True) (callRpc request >>= f)
      (fun _ s' => s.OthersKept owner s' ∧ s'.plugin = s.plugin) s := by
  apply wp_callRpc trivial
  intro answer w hrpc
  apply wp_guard_mono ((hf answer).preserves
    (I := fun s' : Site => s.OthersKept owner s' ∧ s'.plugin = s.plugin) ?_ ⟨h answer w hrpc, rfl⟩)
    fun _ _ _ => trivial
  exact fun _ _ _ _ hcall => hcall.elim

/-- The instance is the owner's. -/
theorem concerns_row (hkeyed : s.plugin.Keyed) (hget : s.plugin.getInstance instanceId = some row)
    (hown : row.owner = owner) : ∀ other ∈ s.plugin.instances, other.id = row.id →
      other.owner = owner := by
  intro other hother hid
  rw [hkeyed.eq_of_id hother (PluginDb.mem_of_getInstance hget).1 hid]
  exact hown

theorem keepsOthers_extendInstance (hkeyed : s.plugin.Keyed)
    (howner : s.plugin.resolveOwner caller = some owner) :
    KeepsOthers env owner (UserRoutes.extendInstance caller instanceId) s := by
  apply wp_ownerRequired
  · exact fun _ => .refl
  intro _ _
  apply wp_ownedInstance howner
  · exact fun _ _ => .refl
  · intro row hget hown
    apply wp_settingOf
    apply wp_settingOf
    apply wp_utcnow trivial
    intro now
    apply wp_branch
    · exact fun _ => .refl
    · intro _
      apply keepsOthers_commit hkeyed
      · exact concerns_row hkeyed hget hown
      · intro db _ _
        exact keepsOthers_reads (CallsOnly.bind reading_readsSite.refreshInstance fun _ => .ret)

theorem keepsOthers_releaseContainer (h : s.Ledger issued) (hrow : row ∈ s.plugin.instances)
    (hown : row.owner = owner) : wp (siteSem (Unreliable env)) (fun _ _ => True)
      (UserRoutes.releaseContainer row)
      (fun _ s' => s.OthersKept owner s' ∧ s'.plugin = s.plugin) s := by
  unfold UserRoutes.releaseContainer
  cases hcontainer : row.containerId with
  | none => exact ⟨.refl, rfl⟩
  | some containerId =>
    apply keepsOthers_rpc
    · intro answer
      cases answer <;> exact .ret
    · intro answer w hrpc
      have hkept := hrpc.othersKept_release h.daemon (h.rows row hrow containerId hcontainer)
      rw [show row.spawnKey.owner = owner from hown] at hkept
      exact .of_daemon hkept

theorem keepsOthers_teardownInstance (h : s.Ledger issued)
    (howner : s.plugin.resolveOwner caller = some owner) :
    KeepsOthers env owner (UserRoutes.teardownInstance caller instanceId) s := by
  apply wp_ownerRequired
  · exact fun _ => .refl
  intro _ _
  apply wp_ownedInstance howner
  · exact fun _ _ => .refl
  · intro row hget hown
    apply wp_then (keepsOthers_releaseContainer h (PluginDb.mem_of_getInstance hget).1 hown)
    · rintro _ s' ⟨hkept, hplugin⟩
      have hdeletes : KeepsOthers env owner (do
          commit [.deleteInstance row.id]
          return Response.done) s' := by
        apply keepsOthers_commit
        · rw [hplugin]
          exact h.keyed
        · rw [hplugin]
          exact concerns_row h.keyed hget hown
        · exact fun _ _ _ => .refl
      exact wp_mono hdeletes fun _ _ hrest => hkept.trans hrest
    · exact fun _ _ hkept => hkept.1

/-! ### Spawns -/

/-- The new row is the owner's. -/
theorem concerns_inserted {challengeId id : Nat} {expiresAt : Timestamp} (hkeyed : db.Keyed)
    (hinsert : db.insertInstance challengeId owner expiresAt = .ok (id, db')) :
    ∀ row ∈ db'.instances, row.id = id → row.owner = owner := by
  obtain ⟨rfl, -, new, -, -, howner, -, -, rfl⟩ := PluginDb.insertInstance_eq hinsert
  intro row hrow hid
  rcases List.mem_append.mp hrow with hmem | hnew
  · exact absurd hid (Nat.ne_of_lt (hkeyed.ids_lt row hmem))
  · rw [List.mem_singleton.mp hnew]
    exact howner

theorem keepsOthers_finishSpawn {result : Except DaemonError Instance} (hkeyed : s.plugin.Keyed)
    (hrows : ∀ row ∈ s.plugin.instances, row.id = instanceId → row.owner = owner) :
    KeepsOthers env owner (UserRoutes.finishSpawn instanceId result) s := by
  cases result with
  | error err =>
    apply wp_refreshInstance
    · intro row _
      exact keepsOthers_commit hkeyed hrows fun _ _ _ => .refl
    · exact fun _ => .refl
  | ok reply =>
    apply wp_refreshInstance
    · intro row _
      apply keepsOthers_commit hkeyed
      · exact hrows
      · intro db _ _
        apply keepsOthers_reads
        apply CallsOnly.bind reading_readsSite.settingOf
        intro threshold
        exact CallsOnly.bind reading_readsSite.serializeInstance fun _ => .ret
    · exact fun _ => .refl

theorem keepsOthers_spawnReserved {ttl : Int} (h : s.Ledger issued) (hknown : owner.Known)
    (hrows : ∀ row ∈ s.plugin.instances, row.id = instanceId → row.owner = owner) :
    KeepsOthers env owner (UserRoutes.spawnReserved owner challengeId ttl instanceId) s := by
  apply wp_select trivial
  cases s.plugin.getChallenge challengeId with
  | none => exact .refl
  | some challenge =>
    refine wp_then (keepsOthers_rpc ?_ ?_) ?_ fun _ _ hkept => hkept.1
    · intro answer
      cases answer with
      | error err => exact .ret
      | ok reply => cases reply <;> first | exact .ret | exact .raise
    · intro answer w hrpc
      exact .of_daemon (hrpc.othersKept_spawn ⟨owner, challengeId⟩ h.daemon hknown ⟨rfl, rfl⟩)
    · rintro result s' ⟨hkept, hplugin⟩
      have hrest : KeepsOthers env owner (UserRoutes.finishSpawn instanceId result) s' := by
        apply keepsOthers_finishSpawn
        · rw [hplugin]
          exact h.keyed
        · rw [hplugin]
          exact hrows
      exact wp_mono hrest fun _ _ hrest => hkept.trans hrest

theorem keepsOthers_spawnChallenge {challenge : EdoChallenge} (h : s.Ledger issued)
    (hknown : owner.Known) : KeepsOthers env owner (UserRoutes.spawnChallenge owner challenge) s := by
  apply wp_settingOf
  apply wp_select trivial
  apply wp_branch
  · exact fun _ => .refl
  intro _
  apply wp_then (wp_reads (callsOnly_ttlOf reading_readsSite))
  · rintro ttl _ rfl
    apply wp_utcnow trivial
    intro now
    refine ⟨trivial, ?_⟩
    rintro inserted _ ⟨rfl, rfl⟩
    unfold PluginDb.commitInstance
    cases hinsert : PluginDb.insertInstance _ challenge.id owner (now + timedelta ttl) with
    | error err => exact keepsOthers_reads (callsOnly_refuseSpawn reading_readsSite)
    | ok result =>
      have hkept := PluginDb.OthersKept.insertInstance hinsert
      have hafter := h.insertInstance hknown hinsert
      have hrows := concerns_inserted h.keyed hinsert
      refine wp_mono (keepsOthers_spawnReserved hafter.ledger hknown hrows) ?_
      exact fun _ _ hrest => (Site.OthersKept.of_plugin hkept).trans hrest
  · rintro err _ rfl
    exact .refl

theorem keepsOthers_spawnInstance (h : s.Ledger issued)
    (howner : s.plugin.resolveOwner caller = some owner) :
    KeepsOthers env owner (UserRoutes.spawnInstance caller challengeId) s := by
  apply wp_ownerRequired
  · exact fun _ => .refl
  intro _ _
  apply wp_resolvedOwner howner
  apply wp_select trivial
  cases s.plugin.getChallenge challengeId with
  | none => exact .refl
  | some challenge =>
    apply wp_branch
    · exact fun _ => .refl
    · exact fun _ => keepsOthers_spawnChallenge h (PluginDb.known_of_resolveOwner howner)

/-! ### The VPN -/

theorem keepsOthers_renderConfig {userId : Int}
    (huser : s.plugin.resolveOwner (some userId) = some owner) :
    KeepsOthers env owner (UserRoutes.renderConfig userId) s := by
  refine wp_then (keepsOthers_rpc ?_ ?_) ?_ fun _ _ hkept => hkept.1
  · intro answer
    cases answer with
    | error err => exact .ret
    | ok reply => cases reply <;> first | exact .ret | exact .raise
  · intro answer w hrpc
    exact .of_peers (hrpc.of_wp .refl (wp_peersKept callsOnly_wgRenderConfig)) huser
  · rintro result s' ⟨hkept, -⟩
    cases result with
    | error err => exact hkept
    | ok text =>
      apply wp_select trivial
      cases s'.plugin.getUser userId with
      | none => exact hkept
      | some user => exact hkept

theorem keepsOthers_downloadWgConfig (hkeyed : s.plugin.Keyed)
    (howner : s.plugin.resolveOwner caller = some owner) :
    KeepsOthers env owner (UserRoutes.downloadWgConfig caller) s := by
  apply wp_ownerRequired
  · exact fun _ => .refl
  intro _ _
  apply wp_currentUserId
  · intro user huser
    have hresolved := resolveOwner_of_currentUser huser howner
    apply wp_resolvedOwner howner
    apply wp_select trivial
    cases s.plugin.activePeer user.id with
    | some row => exact keepsOthers_renderConfig hresolved
    | none =>
      refine wp_then (keepsOthers_rpc ?_ ?_) ?_ fun _ _ hkept => hkept.1
      · intro answer
        cases answer with
        | error err => exact .ret
        | ok reply => cases reply <;> first | exact .ret | exact .raise
      · intro answer w hrpc
        exact .of_peers (hrpc.of_wp .refl (wp_peersKept callsOnly_wgEnsurePeer)) hresolved
      · rintro result s' ⟨hkept, hplugin⟩
        cases result with
        | error err => exact hkept
        | ok reply =>
          rw [← hplugin] at hkeyed hresolved
          have hrest : KeepsOthers env owner (do
              commit [.insertPeer (UserRoutes.peerRow user.id owner reply)]
              UserRoutes.renderConfig user.id) s' := by
            apply keepsOthers_commit hkeyed
            · exact hresolved
            · intro db _ hkept'
              apply keepsOthers_renderConfig
              rw [← hresolved]
              exact hkept'.accounts.resolveOwner _
          exact wp_mono hrest fun _ _ hrest => hkept.trans hrest
  · exact fun _ => .refl

/-! ### Submissions -/

theorem Site.OthersKept.buckets {buckets : RateBuckets} :
    s.OthersKept owner { s with buckets := buckets } := ⟨.refl, fun _ _ => .refl, fun _ _ => rfl⟩

theorem keepsOthers_submitFlag {provided : Option String} {ip : String}
    (howner : s.plugin.resolveOwner caller = some owner) :
    KeepsOthers env owner (UserRoutes.submitFlag compare caller challengeId provided ip) s := by
  apply wp_submitFlag_judged howner
  · exact fun _ => .refl
  · exact fun _ _ => .buckets
  · exact fun _ _ => .buckets
  · exact fun _ => .buckets
  · exact fun _ _ => .buckets
  · rintro challenge user team buckets _ _ rfl _
    refine wp_mono (keepsOthers_sparing (Judging.judgeSubmission judging_sparing)) ?_
    exact fun _ _ hrest => Site.OthersKept.buckets.trans hrest

/-! ### All of them -/

theorem keepsOthers_unattended {p : Plugin α} (hp : KeepsOthers env owner p s) :
    KeepsOthers env owner (unattended p) s := by
  have hbody : KeepsOthers env owner (do
      let _ ← p
      return ()) s := wp_then hp (fun _ _ hkept => hkept) fun _ _ hkept => hkept
  apply wp_catching.mpr
  apply wp_mono hbody
  intro out s' hkept
  cases out with
  | ok _ => exact hkept
  | error _ => exact hkept

theorem keepsOthers_request {request : SiteRequest} (h : s.Ledger issued)
    (hcaller : request.participant? = some caller)
    (howner : s.plugin.resolveOwner caller = some owner) :
    KeepsOthers env owner (request.prog compare) s := by
  cases request with
  | route call =>
    apply keepsOthers_unattended
    cases call with
    | spawnInstance _ challengeId =>
      cases hcaller
      exact keepsOthers_spawnInstance h howner
    | teardownInstance _ instanceId =>
      cases hcaller
      exact keepsOthers_teardownInstance h howner
    | extendInstance _ instanceId =>
      cases hcaller
      exact keepsOthers_extendInstance h.keyed howner
    | downloadWgConfig _ =>
      cases hcaller
      exact keepsOthers_downloadWgConfig h.keyed howner
    | submitFlag _ challengeId provided ip =>
      cases hcaller
      exact keepsOthers_submitFlag howner
    | _ => cases hcaller
  | dashboardData _ =>
    exact keepsOthers_reads (callsOnly_unattended reading_readsSite.dashboardData)
  | challengeProgress _ _ =>
    exact keepsOthers_reads (callsOnly_unattended reading_readsSite.challengeProgress)
  | sweepExpired => cases hcaller
  | reconcile => cases hcaller

end Routes

/-- **Participants keep to their own.**  From every site there can be, whatever requests participants
    make for one owner, with whatever ids, one after the other: no row of `edo_instances`,
    `edo_flag_solves`, `solves` or `fails` of another owner, no row or container of the daemon of
    another owner, and no peer of a user outside the owner is created, changed or removed. -/
theorem participants_keepOthers (env : DaemonEnv) (compare : FlagComparison) (owner : Owner)
    (c : SiteConfig Unit) (requests : List SiteRequest) (s' : Site) (hlife : SiteLife env compare c)
    (hrequests : ∀ request ∈ requests, ∃ caller, request.participant? = some caller ∧
      c.world.plugin.resolveOwner caller = some owner)
    (hruns : InTurn env compare requests c.world s') : c.world.OthersKept owner s' := by
  obtain ⟨s, threads⟩ := c
  dsimp only at hrequests hruns ⊢
  induction hruns with
  | done => exact .refl
  | @next request requests s s₁ s' out hends _ ih =>
    obtain ⟨issued, hledger, -⟩ := Bookkept.of_life hlife
    obtain ⟨caller, hcaller, howner⟩ := hrequests request List.mem_cons_self
    have hfirst : s.OthersKept owner s₁ := hends.of_wp (keepsOthers_request hledger hcaller howner)
    apply hfirst.trans
    apply ih ((hlife.arrival request).ends hends)
    intro other hother
    obtain ⟨caller', hcaller', howner'⟩ := hrequests other (List.mem_cons_of_mem _ hother)
    refine ⟨caller', hcaller', ?_⟩
    rw [← howner']
    exact hfirst.plugin.accounts.resolveOwner caller'

/-! ## Two participants -/

/-- What uneventful requests leave, one after the other. -/
def quietTurns : List SiteRequest → Site → Option Site
  | [], s => some s
  | request :: requests, s =>
    ((siteMachine (execRpc DaemonEnv.default)).run (quietSiteChoice 0) (request.prog sameContent)
      s).bind fun result => quietTurns requests result.2.2

theorem inTurn_of_quietTurns {requests : List SiteRequest} (h : quietTurns requests s = some s') :
    InTurn DaemonEnv.default sameContent requests s s' := by
  induction requests generalizing s with
  | nil =>
    cases h
    exact .done
  | cons request requests ih =>
    obtain ⟨⟨trace, out, s₁⟩, hrun, hrest⟩ := Option.bind_eq_some_iff.mp h
    exact .next (ends_of_siteRun (executes_unreliable DaemonEnv.default) hrun) (ih hrest)

/-- A site with two participants and a challenge with one flag. -/
def sharedSite : Site :=
  { freshSite with plugin := { freshSite.plugin with
      users := [⟨1, "alice", none, false, false⟩, ⟨2, "bob", none, false, false⟩]
      flags := [⟨1, 1, "static", "flag", ""⟩] } }

/-- One participant has an instance and a peer. -/
def bobsRequests : List SiteRequest :=
  [.route (.spawnInstance (some 2) 1), .route (.downloadWgConfig (some 2))]

/-- The other one tries the instance of the first, and then has its own. -/
def alicesRequests : List SiteRequest :=
  [.route (.teardownInstance (some 1) 1), .route (.extendInstance (some 1) 1),
   .route (.spawnInstance (some 1) 1), .route (.downloadWgConfig (some 1)),
   .route (.submitFlag (some 1) 1 (some "flag") "10.0.0.1"), .dashboardData (some 1),
   .challengeProgress (some 1) 1, .route (.extendInstance (some 1) 2),
   .route (.teardownInstance (some 1) 2)]

/-- A row of the owner, its container on the daemon, and a peer of the user. -/
structure Site.Has (s : Site) (owner : Owner) (userId : Int) : Prop where
  row : ∃ row ∈ s.plugin.instances, row.owner = owner
  peer : ∃ peer ∈ s.plugin.peers, peer.userId = userId
  tracked : ∃ row ∈ s.daemon.db.instances, row.owner = owner
  container : ∃ c ∈ s.daemon.docker.containers, c.belongsTo owner = true

instance (s : Site) (owner : Owner) (userId : Int) : Decidable (s.Has owner userId) :=
  decidable_of_iff ((∃ row ∈ s.plugin.instances, row.owner = owner) ∧
      (∃ peer ∈ s.plugin.peers, peer.userId = userId) ∧
      (∃ row ∈ s.daemon.db.instances, row.owner = owner) ∧
      ∃ c ∈ s.daemon.docker.containers, c.belongsTo owner = true)
    ⟨fun h => ⟨h.1, h.2.1, h.2.2.1, h.2.2.2⟩, fun h => ⟨h.row, h.peer, h.tracked, h.container⟩⟩

theorem sharedSite_turns : (quietTurns bobsRequests sharedSite).any (fun s =>
    decide (s.plugin.resolveOwner (some 1) = some ⟨"user", 1⟩) &&
      (quietTurns alicesRequests s).any fun s' => decide (s'.Has ⟨"user", 2⟩ 2)) = true := by
  decide +kernel

theorem participants_keepOthers_sharedSite : ∃ s s', quietTurns bobsRequests sharedSite = some s ∧
    quietTurns alicesRequests s = some s' ∧ s'.Has ⟨"user", 2⟩ 2 ∧ s.OthersKept ⟨"user", 1⟩ s' := by
  obtain ⟨s, hbob, hturns⟩ := (Option.any_eq_true _ _).mp sharedSite_turns
  obtain ⟨halice, hturns⟩ := Bool.and_eq_true_iff.mp hturns
  obtain ⟨s', hruns, hhas⟩ := (Option.any_eq_true _ _).mp hturns
  refine ⟨s, s', hbob, hruns, of_decide_eq_true hhas, ?_⟩
  have hlife : SiteLife DaemonEnv.default sameContent ⟨s, []⟩ :=
    (SiteLife.installed freshHost_installed rfl).inTurn (inTurn_of_quietTurns hbob)
  have hcaller : ∀ request ∈ alicesRequests, request.participant? = some (some 1) := by decide
  apply participants_keepOthers DaemonEnv.default sameContent ⟨"user", 1⟩ ⟨s, []⟩ alicesRequests s'
    hlife
  · exact fun request hrequest => ⟨some 1, hcaller request hrequest, of_decide_eq_true halice⟩
  · exact inTurn_of_quietTurns hruns

end EdoPlugin
