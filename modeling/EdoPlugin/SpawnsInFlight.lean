import EdoPlugin.ContainerAddresses
import EdoPlugin.InstanceTable
import EdoPlugin.RouteCalls
import EdoPlugin.ServiceProtocol
import EdoPlugin.SiteThreads

/-!
# Spawns in flight

A spawn reserves its row, waits for the daemon, and then writes the new container into the row.
Teardowns, sweeps, reconciler ticks and kill switches may delete rows in the meantime, each on the
strength of what it has seen before.  Where none of them deletes the row of a spawn in flight or of a
container that is tracked, every tracked container has a row in the end.
-/

namespace EdoPlugin

open Interaction

/-! ## What the daemon tracks -/

section Daemon

variable {policy : Policy} {env : DaemonEnv} {w w' : World} {request : Request} {owner : Owner}
  {challengeRef buildPath : String} {security : SecurityProfile} {ttlSeconds : Option Int}
  {publishPorts : Bool}

/-- A call that stores no row. -/
theorem tracks_sem {op : DaemonOp} {res : op.Res} {id : ContainerId}
    (hcall : ServicePhase.issuesNothing.admits op) (hsem : daemonSem policy w op res w')
    (h : w'.Tracks id) : w.Tracks id := by
  obtain ⟨choice, -, hexec⟩ := hsem
  cases op with
  | db op =>
    cases hexec
    obtain ⟨row, hrow, rfl⟩ := h
    rcases Db.instances_exec hrow with rfl | ⟨old, hold, -, -, hid⟩
    · exact hcall.elim
    · exact ⟨old, hold, hid.symm⟩
  | docker op | filter op | wg op =>
    cases hexec
    exact h
  | host op =>
    obtain ⟨result, -, hresult⟩ := Option.map_eq_some_iff.mp hexec
    cases hresult
    exact h

theorem wp_handle_tracks (hspawns : request.spawns = false) :
    wp (daemonSem policy) (fun _ _ => True) (handle env request)
      (fun _ w' => ∀ id, w'.Tracks id → w.Tracks id) w := by
  apply wp_guard_mono (CallsOnly.preserves (I := fun w' : World => ∀ id, w'.Tracks id → w.Tracks id)
    (callsOnly_handle_issuesNothing hspawns) ?_ fun _ h => h) fun _ _ _ => trivial
  exact fun _ _ _ _ hcall h hsem id htracks => h id (tracks_sem hcall hsem htracks)

/-- The reply to a spawn names its container, and no other is new. -/
def SpawnReplied (w : World) (reply : Reply) (w' : World) : Prop :=
  ∃ row, reply = .instance_ row ∧ ∀ id, w'.Tracks id → w.Tracks id ∨ id = row.containerId

theorem SpawnSettled.tracks {result : SpawnResult} {row : Instance}
    (h : SpawnSettled owner challengeRef w (.ok result) w') (hsuccess : result.success = true)
    (hrow : result.instance? = some row) {id : ContainerId} (htracks : w'.Tracks id) :
    w.Tracks id ∨ id = row.containerId := by
  obtain ⟨other, hother, rfl⟩ := htracks
  cases h with
  | found _ hinstances =>
    rw [hinstances] at hother
    exact Or.inl ⟨other, hother, rfl⟩
  | added _ _ hinstances =>
    cases hrow
    rw [hinstances] at hother
    rcases List.mem_append.mp hother with hold | hnew
    · exact Or.inl ⟨other, hold, rfl⟩
    · rw [List.mem_singleton.mp hnew]
      exact Or.inr rfl
  | failed hfailed _ _ =>
    simp [spawnFailed, hsuccess] at hfailed

theorem wp_handleEnsure_replied :
    wp (daemonSem policy) (fun _ _ => True) (handle env (.containerEnsureInstance owner challengeRef
        buildPath security ttlSeconds publishPorts))
      (fun out w' => ∀ reply, out = .ok reply → SpawnReplied w reply w') w := by
  apply wp_seq wp_spawnWithSemaphore_settled
  · intro result w₁ hsettled
    unfold spawnedInstance
    split
    · rename_i row hsuccess hrow
      show wp (daemonSem policy) (fun _ _ => True)
        (rebuildFirewall env >>= fun _ => return Reply.instance_ row) _ w₁
      apply wp_seq wp_rebuildFirewall_sameDb
      · intro _ w₂ hdb reply hreply
        cases hreply
        refine ⟨row, rfl, ?_⟩
        intro id htracks
        apply hsettled.tracks hsuccess hrow
        rw [World.Tracks, hdb] at htracks
        exact htracks
      · intro err w₂ _ reply h
        cases h
    · intro reply h
      cases h
  · intro err w₁ _ reply h
    cases h

/-- What follows from an RPC that does not fail. -/
structure RpcTracked (request : Request) (w : World) (answer : Except DaemonError Reply)
    (w' : World) : Prop where
  kept : request.spawns = false → ∀ id, w'.Tracks id → w.Tracks id
  replied : request.spawns = true → ∃ reply, answer = .ok reply ∧ SpawnReplied w reply w'

theorem Served.tracked {answer : Except DaemonError Reply} (h : Served env w request answer w') :
    RpcTracked request w answer w' := by
  cases h with
  | @mk reply _ hends =>
    constructor
    · intro hspawns
      exact hends.of_wp (wp_handle_tracks hspawns)
    · intro hspawns
      refine ⟨reply, rfl, ?_⟩
      cases request with
      | containerEnsureInstance owner challengeRef buildPath security ttlSeconds publishPorts =>
        exact hends.of_wp wp_handleEnsure_replied reply rfl
      | _ => cases hspawns

end Daemon

/-! ## How far a request has come -/

inductive FlightPhase where
  /-- It has no row of its own. -/
  | grounded
  /-- It has reserved a row. -/
  | reserved (instanceId : Nat)
  /-- The daemon has answered with the container of its row. -/
  | placed (instanceId : Nat) (containerId : ContainerId)
deriving DecidableEq, Repr

namespace FlightPhase

/-- The row that the spawn is in flight for. -/
def instanceId? : FlightPhase → Option Nat
  | .grounded => none
  | .reserved instanceId | .placed instanceId _ => some instanceId

/-- The container that the spawn has not written into its row yet. -/
def containerId? : FlightPhase → Option ContainerId
  | .placed _ containerId => some containerId
  | _ => none

def next (phase : FlightPhase) : (op : SiteOp) → op.Res → FlightPhase
  | .insertInstance .., .ok instanceId => .reserved instanceId
  | .rpc (.containerEnsureInstance ..), .ok (.instance_ row) =>
    match phase with
    | .reserved instanceId => .placed instanceId row.containerId
    | _ => phase
  | .commit _, _ => .grounded
  | _, _ => phase

def admits (phase : FlightPhase) : SiteOp → Prop
  | .select | .utcnow | .flush _ => True
  | .insertInstance .. => phase = .grounded
  | .rpc request => if request.spawns then ∃ instanceId, phase = .reserved instanceId
      else phase = .grounded
  | .commit writes =>
    match phase with
    | .grounded => ∀ write ∈ writes, write.Housekeeps
    | .reserved _ => False
    | .placed instanceId containerId => ∃ reply : Instance, reply.containerId = containerId ∧
        writes = [.updateInstance instanceId (UserRoutes.spawnColumns reply)]
  | .rateLimit .. => False

/-- The row of a spawn is there until the spawn is over, and a spawn RPC replies with an instance. -/
def expected (phase : FlightPhase) : (op : SiteOp) → op.Res → Prop
  | .select, db => ∀ instanceId, phase.instanceId? = some instanceId →
      ∃ row, db.getInstance instanceId = some row
  | .rpc request, answer => request.spawns = true → ∃ row, answer = .ok (.instance_ row)
  | _, _ => True

end FlightPhase

section Conformance

variable {α β : Type} {phase : FlightPhase} {caller : Option Int} {instanceId challengeId : Nat}
  {owner : Owner}

/-- A piece of the plugin's code whose spawn, if it has one, is over in the end. -/
abbrev Lands (p : Plugin α) (phase : FlightPhase) : Prop :=
  PluginFollows FlightPhase.expected FlightPhase.admits FlightPhase.next p
    (fun _ φ => φ.containerId? = none) phase

theorem stays_reading {p : Plugin α} (hp : CallsOnly readsSite p) :
    PluginFollows FlightPhase.expected FlightPhase.admits FlightPhase.next p
      (fun _ φ => φ = phase) phase := by
  apply Conforms.stays hp
  · intro op hop
    cases op with
    | select | utcnow => trivial
    | _ => cases hop
  · intro op res hop
    cases op with
    | select | utcnow => rfl
    | _ => cases hop

theorem lands_reading {p : Plugin β} {f : β → Plugin α} (hphase : phase.containerId? = none)
    (hp : CallsOnly readsSite p) (hf : ∀ value, Lands (f value) phase) : Lands (p >>= f) phase := by
  apply Conforms.andThen (stays_reading hp)
  · rintro value _ rfl
    exact hf value
  · rintro err _ rfl
    exact hphase

theorem lands_read {p : Plugin α} (hphase : phase.containerId? = none) (hp : CallsOnly readsSite p) :
    Lands p phase := by
  apply wp_mono (stays_reading hp)
  rintro out _ rfl
  exact hphase

/-- The row of the spawn is there to be written. -/
theorem lands_refreshInstance {containerId : ContainerId} {f : EdoInstance → Plugin α}
    (hf : ∀ row, Lands (f row) (.placed instanceId containerId)) :
    Lands (refreshInstance instanceId >>= f) (.placed instanceId containerId) := by
  apply wp_bind.mpr
  apply follows_select trivial
  intro db hdb
  obtain ⟨row, hrow⟩ := hdb instanceId rfl
  rw [hrow]
  exact hf row

theorem lands_finishSpawn {reply : Instance} :
    Lands (UserRoutes.finishSpawn instanceId (.ok reply)) (.placed instanceId reply.containerId) := by
  apply lands_refreshInstance
  intro _
  apply follows_commit ⟨reply, rfl, rfl⟩
  · apply lands_reading rfl reading_readsSite.settingOf
    intro threshold
    apply lands_reading rfl reading_readsSite.serializeInstance
    exact fun _ => rfl
  · exact fun _ => rfl

theorem lands_spawnReserved {ttl : Int} :
    Lands (UserRoutes.spawnReserved owner challengeId ttl instanceId) (.reserved instanceId) := by
  apply follows_select trivial
  intro db _
  cases db.getChallenge challengeId with
  | none => exact rfl
  | some challenge =>
    apply wp_bind.mpr
    apply Conforms.perform ⟨instanceId, rfl⟩
    intro answer hanswer
    obtain ⟨row, rfl⟩ := hanswer rfl
    exact lands_finishSpawn

theorem lands_spawnChallenge {challenge : EdoChallenge} :
    Lands (UserRoutes.spawnChallenge owner challenge) .grounded := by
  apply lands_reading rfl reading_readsSite.settingOf
  intro maxContainers
  apply follows_select trivial
  intro db _
  apply Conforms.ite
  · exact rfl
  · apply lands_reading rfl (callsOnly_ttlOf reading_readsSite)
    intro ttl
    apply Conforms.perform trivial
    intro now _
    refine Conforms.perform ?_ fun inserted _ => ?_
    · exact rfl
    · cases inserted with
      | ok instanceId => exact lands_spawnReserved
      | error err => exact lands_read rfl (callsOnly_refuseSpawn reading_readsSite)

theorem lands_spawnInstance : Lands (UserRoutes.spawnInstance caller challengeId) .grounded := by
  apply follows_select trivial
  intro db _
  cases db.currentUser caller with
  | none => exact rfl
  | some user =>
    cases db.resolveOwner caller with
    | none => exact rfl
    | some owner =>
      apply lands_reading rfl reading_readsSite.resolvedOwner
      intro owner
      apply follows_select trivial
      intro db _
      cases db.getChallenge challengeId with
      | none => exact rfl
      | some challenge =>
        apply Conforms.ite
        · exact rfl
        · exact lands_spawnChallenge

/-- The calls of the other requests. -/
def keepsGrounded (op : SiteOp) : Prop :=
  FlightPhase.grounded.admits op ∧ ∀ res, FlightPhase.grounded.next op res = .grounded

theorem housekeeping_keepsGrounded : Housekeeping keepsGrounded := by
  refine ⟨⟨⟨trivial, fun _ => rfl⟩, ⟨trivial, fun _ => rfl⟩⟩, ?_, ?_, ?_⟩
  · intro request hspawns
    constructor
    · simp [FlightPhase.admits, hspawns]
    · intro answer
      cases request <;> first | rfl | cases hspawns
  · exact fun _ => ⟨trivial, fun _ => rfl⟩
  · exact fun _ hwrites => ⟨hwrites, fun _ => rfl⟩

theorem lands_housekeeping {p : Plugin α} (hp : CallsOnly keepsGrounded p) : Lands p .grounded := by
  apply wp_mono (Conforms.stays hp (fun _ h => h.1) fun _ res h => h.2 res)
  rintro out _ rfl
  exact rfl

end Conformance

/-! ## The invariant -/

/-- Every container that the daemon tracks has a row. -/
def Site.Accounted (s : Site) : Prop :=
  ∀ id, s.daemon.Tracks id → ∃ row ∈ s.plugin.instances, row.containerId = some id

/-- A commit deletes no row of a spawn in flight, and none whose container is tracked. -/
def DeletesUntracked (s : Site) (phases : List FlightPhase) (event : Event siteEffect) : Prop :=
  match event.op with
  | .commit writes => ∀ row ∈ s.plugin.instances, rowAfter writes row = none →
      (∀ phase ∈ phases, phase.instanceId? ≠ some row.id) ∧
        ∀ id ∈ row.containerId, ¬ s.daemon.Tracks id
  | _ => True

/-- Every spawn in flight has a row of its own, which is empty, and every tracked container is in a
    row, or on its way there. -/
structure InFlight (s : Site) (phases : List FlightPhase) : Prop where
  keyed : s.plugin.Keyed
  reserved : ∀ i instanceId : Nat, phases[i]?.bind FlightPhase.instanceId? = some instanceId →
    ∃ row ∈ s.plugin.instances, row.id = instanceId ∧ row.containerId = none
  apart : ∀ i j instanceId : Nat, phases[i]?.bind FlightPhase.instanceId? = some instanceId →
    phases[j]?.bind FlightPhase.instanceId? = some instanceId → i = j
  tracked : ∀ id, s.daemon.Tracks id → (∃ row ∈ s.plugin.instances, row.containerId = some id) ∨
    ∃ i : Nat, phases[i]?.bind FlightPhase.containerId? = some id

theorem bind_set {β : Type} {f : FlightPhase → Option β} {phases : List FlightPhase} {tid i : Nat}
    {phase φ : FlightPhase} (hget : phases[tid]? = some phase) :
    (phases.set tid φ)[i]?.bind f = if i = tid then f φ else phases[i]?.bind f := by
  have hlt : tid < phases.length := (List.getElem?_eq_some_iff.mp hget).1
  rw [List.getElem?_set]
  by_cases hi : i = tid
  · subst hi
    rw [if_pos rfl, if_pos hlt, if_pos rfl]
    rfl
  · rw [if_neg (Ne.symm hi), if_neg hi]

namespace InFlight

variable {s s' : Site} {phases : List FlightPhase} {tid : Nat} {phase φ : FlightPhase}

theorem ofPhase (hget : phases[tid]? = some phase) {β : Type} (f : FlightPhase → Option β) :
    phases[tid]?.bind f = f phase := by
  rw [hget]
  rfl

/-- A call that writes nothing to the tables of the plugin. -/
theorem call (h : InFlight s phases) (hget : phases[tid]? = some phase)
    (hplugin : s'.plugin = s.plugin) (hid : φ.instanceId? = phase.instanceId?)
    (hcontainer : ∀ id, phase.containerId? = some id → φ.containerId? = some id)
    (htracks : ∀ id, s'.daemon.Tracks id → s.daemon.Tracks id ∨ φ.containerId? = some id) :
    InFlight s' (phases.set tid φ) := by
  have hsame : ∀ i : Nat, (phases.set tid φ)[i]?.bind FlightPhase.instanceId? =
      phases[i]?.bind FlightPhase.instanceId? := by
    intro i
    rw [bind_set hget]
    split
    · rename_i hi
      rw [hi, ofPhase hget, hid]
    · rfl
  constructor
  · rw [hplugin]
    exact h.keyed
  · rw [hplugin]
    intro i instanceId hi
    rw [hsame] at hi
    exact h.reserved i instanceId hi
  · intro i j instanceId hi hj
    rw [hsame] at hi hj
    exact h.apart i j instanceId hi hj
  · rw [hplugin]
    have hmine : ∀ id, φ.containerId? = some id →
        ∃ i : Nat, (phases.set tid φ)[i]?.bind FlightPhase.containerId? = some id := by
      intro id hφ
      refine ⟨tid, ?_⟩
      rw [bind_set hget, if_pos rfl]
      exact hφ
    intro id hid'
    rcases htracks id hid' with hold | hnew
    · rcases h.tracked id hold with hrow | ⟨i, hi⟩
      · exact Or.inl hrow
      · by_cases htid : i = tid
        · rw [htid, ofPhase hget] at hi
          exact Or.inr (hmine id (hcontainer id hi))
        · refine Or.inr ⟨i, ?_⟩
          rw [bind_set hget, if_neg htid]
          exact hi
    · exact Or.inr (hmine id hnew)

/-- A spawn reserves its row. -/
theorem reserve (h : InFlight s phases) (hget : phases[tid]? = some .grounded) {challengeId id : Nat}
    {owner : Owner} {expiresAt : Timestamp} {db : PluginDb}
    (hinsert : s.plugin.insertInstance challengeId owner expiresAt = .ok (id, db)) :
    InFlight { s with plugin := db } (phases.set tid (.reserved id)) := by
  have hkeyed := h.keyed.insertInstance hinsert
  obtain ⟨rfl, -, new, hid, -, -, -, hcontainer, rfl⟩ := PluginDb.insertInstance_eq hinsert
  have hfresh : ∀ i : Nat, phases[i]?.bind FlightPhase.instanceId? ≠ some s.plugin.nextInstanceId := by
    intro i hi
    obtain ⟨row, hrow, hrowId, -⟩ := h.reserved i _ hi
    exact absurd hrowId (Nat.ne_of_lt (h.keyed.ids_lt row hrow))
  constructor
  · exact hkeyed
  · intro i instanceId hi
    rw [bind_set hget] at hi
    split at hi
    · cases hi
      exact ⟨new, List.mem_append_right _ List.mem_cons_self, hid, hcontainer⟩
    · obtain ⟨row, hrow, hempty⟩ := h.reserved i instanceId hi
      exact ⟨row, List.mem_append_left _ hrow, hempty⟩
  · intro i j instanceId hi hj
    rw [bind_set hget] at hi hj
    split at hi
    · cases hi
      split at hj
      · rename_i hi' hj'
        rw [hi', hj']
      · exact absurd hj (hfresh j)
    · split at hj
      · cases hj
        exact absurd hi (hfresh i)
      · exact h.apart i j instanceId hi hj
  · intro containerId htracks
    rcases h.tracked containerId htracks with ⟨row, hrow, hrowContainer⟩ | ⟨i, hi⟩
    · exact Or.inl ⟨row, List.mem_append_left _ hrow, hrowContainer⟩
    · refine Or.inr ⟨i, ?_⟩
      rw [bind_set hget]
      split
      · rename_i htid
        rw [htid, ofPhase hget] at hi
        cases hi
      · exact hi

end InFlight

namespace InFlight

variable {s s' : Site} {phases : List FlightPhase} {tid : Nat}

/-- A commit of the other requests. -/
theorem housekeep (h : InFlight s phases) (hget : phases[tid]? = some .grounded) {writes : List Write}
    {db : PluginDb} (hwrites : ∀ write ∈ writes, write.Housekeeps)
    (hok : DeletesUntracked s phases ⟨tid, .commit writes, .ok ()⟩)
    (happly : s.plugin.applyAll writes = .ok db) :
    InFlight { s with plugin := db } (phases.set tid .grounded) := by
  have hset : phases.set tid .grounded = phases := by
    obtain ⟨hlt, hphase⟩ := List.getElem?_eq_some_iff.mp hget
    rw [← hphase]
    exact List.set_getElem_self hlt
  have hkept : ∀ row ∈ s.plugin.instances, rowAfter writes row ≠ none →
      ∃ row' ∈ db.instances, row'.id = row.id ∧ row'.containerId = row.containerId := by
    intro row hrow hsome
    obtain ⟨row', hrow'⟩ := Option.ne_none_iff_exists'.mp hsome
    exact ⟨row', (h.keyed.mem_applyAll happly).mpr ⟨row, hrow, hrow'⟩, Write.rowAfter_id hrow',
      Write.rowAfter_containerId (fun write hwrite => (hwrites write hwrite).not_namesContainer) hrow'⟩
  rw [hset]
  constructor
  · exact (h.keyed.applyAll happly).1
  · intro i instanceId hi
    obtain ⟨row, hrow, rfl, hempty⟩ := h.reserved i instanceId hi
    obtain ⟨phase, hphase, hid⟩ := Option.bind_eq_some_iff.mp hi
    obtain ⟨row', hrow', hsame, hcontainer⟩ := hkept row hrow fun hnone =>
      (hok row hrow hnone).1 phase (List.mem_of_getElem? hphase) hid
    exact ⟨row', hrow', hsame, hcontainer.trans hempty⟩
  · exact h.apart
  · intro id htracks
    rcases h.tracked id htracks with ⟨row, hrow, hcontainer⟩ | hflight
    · obtain ⟨row', hrow', -, hsame⟩ := hkept row hrow fun hnone =>
        (hok row hrow hnone).2 id hcontainer htracks
      exact Or.inl ⟨row', hrow', hsame.trans hcontainer⟩
    · exact Or.inr hflight

/-- A spawn is over, and its container is in a row. -/
theorem land (h : InFlight s phases) {instanceId : Nat} {containerId : ContainerId}
    (hget : phases[tid]? = some (.placed instanceId containerId)) {db : PluginDb} (hkeyed : db.Keyed)
    (hothers : ∀ row ∈ s.plugin.instances, row.id ≠ instanceId → row ∈ db.instances)
    (hlanded : ∃ row ∈ db.instances, row.containerId = some containerId) :
    InFlight { s with plugin := db } (phases.set tid .grounded) := by
  have hmine : phases[tid]?.bind FlightPhase.instanceId? = some instanceId := ofPhase hget _
  constructor
  · exact hkeyed
  · intro i otherId hi
    rw [bind_set hget] at hi
    split at hi
    · cases hi
    · rename_i hother
      obtain ⟨row, hrow, rfl, hempty⟩ := h.reserved i otherId hi
      have hne : row.id ≠ instanceId := fun heq => hother (h.apart i tid _ hi (heq ▸ hmine))
      exact ⟨row, hothers row hrow hne, rfl, hempty⟩
  · intro i j otherId hi hj
    rw [bind_set hget] at hi hj
    split at hi
    · cases hi
    · split at hj
      · cases hj
      · exact h.apart i j otherId hi hj
  · intro id htracks
    rcases h.tracked id htracks with ⟨row, hrow, hcontainer⟩ | ⟨i, hi⟩
    · have hne : row.id ≠ instanceId := by
        intro heq
        obtain ⟨own, hown, hownId, hempty⟩ := h.reserved tid instanceId hmine
        rw [h.keyed.eq_of_id hrow hown (heq.trans hownId.symm), hempty] at hcontainer
        cases hcontainer
      exact Or.inl ⟨row, hothers row hrow hne, hcontainer⟩
    · by_cases htid : i = tid
      · rw [htid, ofPhase hget] at hi
        cases hi
        exact Or.inl hlanded
      · refine Or.inr ⟨i, ?_⟩
        rw [bind_set hget, if_neg htid]
        exact hi

/-- A spawn writes its container into its row. -/
theorem record (h : InFlight s phases) {instanceId : Nat} {reply : Instance} {db : PluginDb}
    (hget : phases[tid]? = some (.placed instanceId reply.containerId))
    (happly : s.plugin.applyAll [.updateInstance instanceId (UserRoutes.spawnColumns reply)] = .ok db) :
    InFlight { s with plugin := db } (phases.set tid .grounded) := by
  have hmem : ∀ row ∈ s.plugin.instances, ∀ row', rowAfter
      [.updateInstance instanceId (UserRoutes.spawnColumns reply)] row = some row' →
        row' ∈ db.instances :=
    fun row hrow _ hafter => (h.keyed.mem_applyAll happly).mpr ⟨row, hrow, hafter⟩
  apply h.land hget (h.keyed.applyAll happly).1
  · intro row hrow hne
    apply hmem row hrow
    simp [rowAfter, Write.onRow, hne]
  · obtain ⟨own, hown, hid, -⟩ := h.reserved tid instanceId (ofPhase hget _)
    refine ⟨own.update (UserRoutes.spawnColumns reply), hmem own hown _ ?_, rfl⟩
    simp [rowAfter, Write.onRow, hid]

/-- A spawn that cannot write its container finds it in another row. -/
theorem conflict (h : InFlight s phases) {instanceId : Nat} {reply : Instance} {err : FlushError}
    (hget : phases[tid]? = some (.placed instanceId reply.containerId))
    (happly : s.plugin.applyAll [.updateInstance instanceId (UserRoutes.spawnColumns reply)] =
      .error err) : InFlight s (phases.set tid .grounded) := by
  apply h.land hget h.keyed fun _ hrow _ => hrow
  obtain ⟨own, hown, rfl, -⟩ := h.reserved tid instanceId (ofPhase hget _)
  rw [PluginDb.applyAll_singleton] at happly
  simp only [PluginDb.apply, PluginDb.updateInstance, h.keyed.getInstance hown] at happly
  split at happly
  · rename_i hconflict
    obtain ⟨other, hother, heq⟩ := List.any_eq_true.mp hconflict.2
    exact ⟨other, hother, (of_decide_eq_true heq).2⟩
  · cases happly

/-- What a thread may count on. -/
theorem expected (h : InFlight s phases) {phase : FlightPhase} (hget : phases[tid]? = some phase) :
    ∀ instanceId, phase.instanceId? = some instanceId →
      ∃ row, s.plugin.getInstance instanceId = some row := by
  intro instanceId hid
  obtain ⟨row, hrow, rfl, -⟩ := h.reserved tid instanceId ((ofPhase hget _).trans hid)
  exact ⟨row, h.keyed.getInstance hrow⟩

/-- **One call.** -/
theorem step (h : InFlight s phases) {env : DaemonEnv} {phase : FlightPhase} {op : SiteOp}
    {res : op.Res} (hget : phases[tid]? = some phase) (hadmits : phase.admits op)
    (hsem : siteSem (Served env) s op res s') (hok : DeletesUntracked s phases ⟨tid, op, res⟩) :
    phase.expected op res ∧ InFlight s' (phases.set tid (phase.next op res)) := by
  have hquiet : ∀ s₁ : Site, s₁.plugin = s.plugin → s₁.daemon = s.daemon →
      InFlight s₁ (phases.set tid phase) := by
    intro s₁ hplugin hdaemon
    apply h.call hget hplugin rfl fun _ hid => hid
    intro id htracks
    rw [hdaemon] at htracks
    exact Or.inl htracks
  cases op with
  | select =>
    obtain ⟨rfl, rfl⟩ := hsem
    exact ⟨h.expected hget, hquiet _ rfl rfl⟩
  | utcnow =>
    cases hsem
    exact ⟨trivial, hquiet _ rfl rfl⟩
  | flush writes =>
    obtain ⟨rfl, rfl⟩ := hsem
    exact ⟨trivial, hquiet _ rfl rfl⟩
  | rateLimit key limit window => exact hadmits.elim
  | insertInstance challengeId owner expiresAt =>
    obtain ⟨rfl, rfl⟩ := hsem
    cases hadmits
    refine ⟨trivial, ?_⟩
    unfold PluginDb.commitInstance
    cases hinsert : s.plugin.insertInstance challengeId owner expiresAt with
    | ok result => exact h.reserve hget hinsert
    | error err => exact hquiet _ rfl rfl
  | rpc request =>
    obtain ⟨hrpc, hs'⟩ := hsem
    have hplugin : s'.plugin = s.plugin := by rw [hs']
    have htracked := hrpc.tracked
    cases request with
    | containerEnsureInstance owner challengeRef buildPath security ttlSeconds publishPorts =>
      obtain ⟨instanceId, rfl⟩ := hadmits
      obtain ⟨reply, rfl, row, rfl, htracks⟩ := htracked.replied rfl
      refine ⟨fun _ => ⟨row, rfl⟩, ?_⟩
      show InFlight s' (phases.set tid (.placed instanceId row.containerId))
      refine h.call hget hplugin ?_ ?_ ?_
      · rfl
      · exact fun _ hnone => by cases hnone
      · intro id hid
        rcases htracks id hid with hold | rfl
        · exact Or.inl hold
        · exact Or.inr rfl
    | _ =>
      cases hadmits
      refine ⟨fun hspawns => (by cases hspawns), ?_⟩
      exact h.call hget hplugin rfl (fun _ hid => hid) fun id hid => Or.inl (htracked.kept rfl id hid)
  | commit writes =>
    obtain ⟨rfl, rfl⟩ := hsem
    refine ⟨trivial, ?_⟩
    unfold PluginDb.commit
    cases phase with
    | grounded =>
      cases happly : s.plugin.applyAll writes with
      | ok db => exact h.housekeep hget hadmits hok happly
      | error err => exact hquiet _ rfl rfl
    | reserved instanceId => exact hadmits.elim
    | placed instanceId containerId =>
      obtain ⟨reply, rfl, rfl⟩ := hadmits
      cases happly : s.plugin.applyAll
          [.updateInstance instanceId (UserRoutes.spawnColumns reply)] with
      | ok db => exact h.record hget happly
      | error err => exact h.conflict hget happly

end InFlight

/-! ## Runs -/

/-- What may go on at the same time. -/
inductive RowRequest where
  | spawnInstance (caller : Option Int) (challengeId : Nat)
  | teardownInstance (caller : Option Int) (instanceId : Nat)
  | sweepExpired
  | reconcile
  | killSwitch
deriving DecidableEq, Repr

def RowRequest.prog : RowRequest → Plugin Unit
  | .spawnInstance caller challengeId => unattended (UserRoutes.spawnInstance caller challengeId)
  | .teardownInstance caller instanceId => unattended (UserRoutes.teardownInstance caller instanceId)
  | .sweepExpired => unattended Scheduler.sweepExpired
  | .reconcile => unattended Scheduler.reconcile
  | .killSwitch => unattended AdminRoutes.killSwitch

def startRowRequests (requests : List RowRequest) (s : Site) : SiteConfig FlightPhase :=
  startThreads .grounded (requests.map RowRequest.prog) s

theorem lands_prog {request : RowRequest} : Lands request.prog .grounded := by
  have hkeeps := housekeeping_keepsGrounded
  cases request with
  | spawnInstance caller challengeId => exact follows_unattended lands_spawnInstance
  | teardownInstance caller instanceId =>
    exact follows_unattended (lands_housekeeping hkeeps.teardownInstance)
  | sweepExpired => exact follows_unattended (lands_housekeeping hkeeps.sweepExpired)
  | reconcile => exact follows_unattended (lands_housekeeping hkeeps.reconcile)
  | killSwitch => exact follows_unattended (lands_housekeeping hkeeps.killSwitch)

theorem InFlight.start {s : Site} {requests : List RowRequest} (hkeyed : s.plugin.Keyed)
    (haccounted : s.Accounted) : InFlight s (startRowRequests requests s).phases := by
  have hnone : ∀ (i : Nat) (φ : FlightPhase),
      (startRowRequests requests s).phases[i]? = some φ → φ = .grounded :=
    fun _ _ hφ => phases_startThreads hφ
  have hfree : ∀ (i : Nat) (instanceId : Nat),
      (startRowRequests requests s).phases[i]?.bind FlightPhase.instanceId? ≠ some instanceId := by
    intro i instanceId hi
    obtain ⟨φ, hφ, hid⟩ := Option.bind_eq_some_iff.mp hi
    rw [hnone i φ hφ] at hid
    cases hid
  constructor
  · exact hkeyed
  · exact fun i instanceId hi => absurd hi (hfree i instanceId)
  · exact fun i _ instanceId hi => absurd hi (hfree i instanceId)
  · exact fun id htracks => Or.inl (haccounted id htracks)

/-- **Nothing survives untracked**, if no commit deletes the row of a spawn in flight, or of a
    container that the daemon tracks. -/
theorem spawnsInFlight_accounted (env : DaemonEnv) (s : Site) (requests : List RowRequest)
    (c : SiteConfig FlightPhase) (hkeyed : s.plugin.Keyed) (haccounted : s.Accounted)
    (hreach : Reach (siteSem (Served env)) FlightPhase.next DeletesUntracked
      (startRowRequests requests s) c) (hfinished : c.Finished) : c.world.Accounted := by
  have hconf : ∀ thread ∈ (startRowRequests requests s).threads, Lands thread.prog thread.phase := by
    intro thread hthread
    obtain ⟨prog, hprog, rfl⟩ := List.mem_map.mp hthread
    obtain ⟨request, -, rfl⟩ := List.mem_map.mp hprog
    exact lands_prog
  obtain ⟨hflight, hthreads⟩ := reach_invariant
    (fun _ _ _ _ _ _ _ h hget hadmits hsem hok => h.step hget hadmits hsem hok) hconf
    (InFlight.start hkeyed haccounted) hreach
  intro id htracks
  rcases hflight.tracked id htracks with hrow | ⟨i, hi⟩
  · exact hrow
  · obtain ⟨phase, hphase, hid⟩ := Option.bind_eq_some_iff.mp hi
    obtain ⟨thread, hthread, rfl⟩ := List.mem_map.mp (List.mem_of_getElem? hphase)
    have hlanded := hthreads thread hthread
    rw [hfinished thread hthread] at hlanded
    rw [show thread.phase.containerId? = none from hlanded] at hid
    cases hid

/-! ## Two orders -/

instance (s : Site) (phases : List FlightPhase) (event : Event siteEffect) :
    Decidable (DeletesUntracked s phases event) := by
  unfold DeletesUntracked
  split <;> infer_instance

/-- Requests of a fresh site, in blocks of calls. -/
def rowRequests (check : Site → List FlightPhase → Event siteEffect → Bool)
    (requests : List RowRequest) (blocks : List (Nat × Nat)) : Option (SiteConfig FlightPhase) :=
  (siteMachine (execServed DaemonEnv.default)).runChecked FlightPhase.next check
    (blocksOf (quietSiteChoice 0) blocks) (startRowRequests requests freshSite)

theorem reach_rowRequests {check : Site → List FlightPhase → Event siteEffect → Bool}
    {requests : List RowRequest} {blocks : List (Nat × Nat)} {c : SiteConfig FlightPhase}
    (h : rowRequests check requests blocks = some c) :
    Reach (siteSem (Served DaemonEnv.default)) FlightPhase.next
      (fun s phases event => check s phases event = true) (startRowRequests requests freshSite) c :=
  reach_of_siteSchedule (executes_served _) h

/-- All are over; the daemon tracks the container, and there are so many rows. -/
def LeavesRows (rows : Nat) (c : SiteConfig FlightPhase) : Prop :=
  c.isFinished = true ∧ c.world.daemon.Tracks 1 ∧ c.world.plugin.instances.length = rows

instance (rows : Nat) (c : SiteConfig FlightPhase) : Decidable (LeavesRows rows c) := by
  unfold LeavesRows
  infer_instance

theorem freshSite_accounted : freshSite.plugin.Keyed ∧ freshSite.Accounted := by
  refine ⟨by decide, ?_⟩
  rintro id ⟨row, hrow, -⟩
  cases hrow

theorem killSpawnReconcile_leaves : (rowRequests (fun s phases event =>
    decide (DeletesUntracked s phases event)) [.spawnInstance (some 1) 1, .reconcile, .killSwitch]
      [(2, 2), (0, 9), (1, 3), (0, 7)]).any (fun c => decide (LeavesRows 1 c)) = true := by
  decide +kernel

/-- A kill switch before the row is reserved, and a tick of the reconciler while it is pending. -/
theorem spawnsInFlight_accounted_killSpawnReconcile :
    ∃ c, rowRequests (fun s phases event => decide (DeletesUntracked s phases event))
        [.spawnInstance (some 1) 1, .reconcile, .killSwitch]
        [(2, 2), (0, 9), (1, 3), (0, 7)] = some c ∧
      c.world.daemon.Tracks 1 ∧ c.world.Accounted := by
  obtain ⟨c, hrun, hleaves⟩ := (Option.any_eq_true _ _).mp killSpawnReconcile_leaves
  obtain ⟨hfinished, htracks, -⟩ := of_decide_eq_true hleaves
  refine ⟨c, hrun, htracks, ?_⟩
  exact spawnsInFlight_accounted DaemonEnv.default freshSite _ c freshSite_accounted.1
    freshSite_accounted.2 ((reach_rowRequests hrun).mono fun _ _ _ => of_decide_eq_true)
    (Config.finished_of_isFinished hfinished)

theorem teardownOfPending_leaves : (rowRequests (fun _ _ _ => true)
    [.spawnInstance (some 1) 1, .teardownInstance (some 1) 1]
      [(0, 9), (1, 4), (0, 2)]).any (fun c => decide (LeavesRows 0 c)) = true := by
  decide +kernel

/-- The participant tears down an instance that is still pending: there is nothing to release yet,
    the row goes, and the container comes. -/
theorem not_spawnsInFlight_accounted :
    ¬ ∀ (env : DaemonEnv) (s : Site) (requests : List RowRequest) (c : SiteConfig FlightPhase),
      s.plugin.Keyed → s.Accounted →
      Reach (siteSem (Served env)) FlightPhase.next (fun _ _ _ => True)
        (startRowRequests requests s) c → c.Finished → c.world.Accounted := by
  intro hall
  obtain ⟨c, hrun, hleaves⟩ := (Option.any_eq_true _ _).mp teardownOfPending_leaves
  obtain ⟨hfinished, htracks, hrows⟩ := of_decide_eq_true hleaves
  obtain ⟨row, hrow, -⟩ := hall DaemonEnv.default freshSite _ c freshSite_accounted.1
    freshSite_accounted.2 ((reach_rowRequests hrun).mono fun _ _ _ _ => trivial)
    (Config.finished_of_isFinished hfinished) 1 htracks
  rw [List.length_eq_zero_iff.mp hrows] at hrow
  cases hrow

end EdoPlugin
