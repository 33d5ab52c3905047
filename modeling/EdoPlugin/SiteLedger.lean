import EdoPlugin.RouteCalls
import EdoPlugin.ServiceProtocol
import EdoPlugin.SiteThreads

/-!
# Whose the rows of the plugin are

A row gets its container from the reply to a spawn for the owner and the challenge of the row.  In
between, other requests may delete the row, but its id is never given again; so at any time, whatever
requests run side by side and whatever becomes of their RPCs, the container in a row was issued for the
key of the row.
-/

namespace EdoPlugin

open Interaction

/-- What the plugin asks for when it spawns the row. -/
def EdoInstance.spawnKey (row : EdoInstance) : SpawnKey := ⟨row.owner, row.challengeId⟩

theorem EdoInstance.spawnKey_eq {row row' : EdoInstance} (h : row.key = row'.key) :
    row.spawnKey = row'.spawnKey := by
  obtain ⟨hchallenge, howner⟩ := Prod.ext_iff.mp h
  unfold spawnKey
  rw [show row.owner = row'.owner from howner, show row.challengeId = row'.challengeId from hchallenge]

/-- The container of every row was issued for the row. -/
structure Site.Ledger (s : Site) (issued : ContainerId → SpawnKey) : Prop where
  keyed : s.plugin.Keyed
  daemon : s.daemon.Ledger issued
  rows : ∀ row ∈ s.plugin.instances, ∀ id ∈ row.containerId,
    issued id = row.spawnKey ∧ id < s.daemon.docker.nextId

/-- The row, if it is still there, is one for the key. -/
structure Site.Booked (s : Site) (instanceId : Nat) (key : SpawnKey) : Prop where
  known : key.owner.Known
  id_lt : instanceId < s.plugin.nextInstanceId
  row : ∀ row ∈ s.plugin.instances, row.id = instanceId → row.spawnKey = key

/-! ## How far a spawn has come -/

inductive BookingPhase where
  | free
  /-- It has reserved a row for the key. -/
  | booked (instanceId : Nat) (key : SpawnKey)
  /-- The daemon has answered with a container. -/
  | issued (instanceId : Nat) (key : SpawnKey) (containerId : ContainerId)
deriving DecidableEq, Repr

/-- A spawn for the key. -/
def Request.IsFor (key : SpawnKey) : Request → Prop
  | .containerEnsureInstance owner challengeRef .. =>
    owner = key.owner ∧ challengeRef = key.challengeRef
  | _ => False

namespace BookingPhase

def next (phase : BookingPhase) : (op : SiteOp) → op.Res → BookingPhase
  | .insertInstance challengeId owner _, .ok instanceId => .booked instanceId ⟨owner, challengeId⟩
  | .rpc (.containerEnsureInstance ..), .ok (.instance_ row) =>
    match phase with
    | .booked instanceId key => .issued instanceId key row.containerId
    | _ => phase
  | _, _ => phase

def admits (phase : BookingPhase) : SiteOp → Prop
  | .insertInstance _ owner _ => owner.Known
  | .rpc request => request.spawns = false ∨
      ∃ instanceId key, phase = .booked instanceId key ∧ request.IsFor key
  | .commit writes => (∀ write ∈ writes, ¬ write.NamesContainer) ∨
      ∃ instanceId key reply, phase = .issued instanceId key reply.containerId ∧
        writes = [.updateInstance instanceId (UserRoutes.spawnColumns reply)]
  | _ => True

/-- What the phase says is true. -/
def Holds (s : Site) (issuedFor : ContainerId → SpawnKey) : BookingPhase → Prop
  | .free => True
  | .booked instanceId key => s.Booked instanceId key
  | .issued instanceId key containerId => s.Booked instanceId key ∧
      issuedFor containerId = key ∧ containerId < s.daemon.docker.nextId

end BookingPhase

/-! ## The routes -/

section Conformance

variable {α β : Type} {phase : BookingPhase} {caller : Option Int} {instanceId challengeId : Nat}
  {owner : Owner}

abbrev Books (p : Plugin α) (phase : BookingPhase) : Prop :=
  PluginFollows (fun _ _ _ => True) BookingPhase.admits BookingPhase.next p (returning fun _ _ => True)
    phase

/-- The calls that any thread may make, and that tell nothing about its row. -/
def unbooked (op : SiteOp) : Prop :=
  ∀ phase : BookingPhase, phase.admits op ∧ ∀ res, phase.next op res = phase

theorem unbooked_commit {writes : List Write} (h : ∀ write ∈ writes, ¬ write.NamesContainer) :
    unbooked (.commit writes) := fun _ => ⟨Or.inl h, fun _ => rfl⟩

theorem unbooked_commitOne {write : Write} (h : ¬ write.NamesContainer) :
    unbooked (.commit [write]) := by
  apply unbooked_commit
  intro other hother
  rw [List.mem_singleton.mp hother]
  exact h

theorem housekeeping_unbooked : Housekeeping unbooked := by
  refine ⟨⟨fun _ => ⟨trivial, fun _ => rfl⟩, fun _ => ⟨trivial, fun _ => rfl⟩⟩, ?_, ?_, ?_⟩
  · intro request hspawns phase
    refine ⟨Or.inl hspawns, fun answer => ?_⟩
    cases request <;> first | rfl | cases hspawns
  · exact fun _ _ => ⟨trivial, fun _ => rfl⟩
  · exact fun writes hwrites => unbooked_commit fun write hwrite =>
      (hwrites write hwrite).not_namesContainer

theorem judging_unbooked : Judging unbooked challengeId owner :=
  ⟨fun _ => ⟨trivial, fun _ => rfl⟩, fun _ _ _ => unbooked_commitOne id,
    fun _ => unbooked_commitOne id, fun _ _ _ => unbooked_commitOne id⟩

theorem books_unbooked {p : Plugin α} {f : α → Plugin β} (hp : CallsOnly unbooked p)
    (hf : ∀ value, Books (f value) phase) : Books (p >>= f) phase := by
  apply Conforms.bind (Conforms.of_callsOnly hp (fun _ h => (h phase).1) fun _ res h => (h phase).2 res)
  rintro value _ rfl
  exact hf value

theorem books_last {p : Plugin α} (hp : CallsOnly unbooked p) : Books p phase := by
  apply wp_mono (Conforms.stays hp (fun _ h => (h phase).1) fun _ res h => (h phase).2 res)
  intro out φ _
  cases out <;> trivial

/-- An owner that a request acts for is a user or a team. -/
theorem PluginDb.known_of_resolveOwner {db : PluginDb} (h : db.resolveOwner caller = some owner) :
    owner.Known := by
  obtain ⟨user, -, howner⟩ := Option.bind_eq_some_iff.mp h
  split at howner
  · obtain ⟨team, -, rfl⟩ := Option.map_eq_some_iff.mp howner
    exact Or.inr rfl
  · cases howner
    exact Or.inl rfl

theorem books_finishSpawn (key : SpawnKey) {result : Except DaemonError Instance}
    (hresult : ∀ reply, result = .ok reply → phase = .issued instanceId key reply.containerId) :
    Books (UserRoutes.finishSpawn instanceId result) phase := by
  have hreads := housekeeping_unbooked
  cases result with
  | error err =>
    apply books_unbooked hreads.refreshInstance
    intro _
    exact books_unbooked (hreads.commitOne trivial) fun _ => trivial
  | ok reply =>
    apply books_unbooked hreads.refreshInstance
    intro _
    refine Conforms.bind (P := fun _ _ => True) ?_ fun _ φ _ => ?_
    · refine Conforms.perform (Or.inr ⟨instanceId, key, reply, hresult reply rfl, rfl⟩) fun done _ => ?_
      cases done <;> trivial
    · apply books_unbooked hreads.settingOf
      intro threshold
      exact books_unbooked hreads.serializeInstance fun _ => trivial

theorem books_spawnReserved {ttl : Int} : Books (UserRoutes.spawnReserved owner challengeId ttl
    instanceId) (.booked instanceId ⟨owner, challengeId⟩) := by
  apply follows_select trivial
  intro db _
  cases db.getChallenge challengeId with
  | none => trivial
  | some challenge =>
    apply wp_bind.mpr
    apply Conforms.perform (Or.inr ⟨instanceId, ⟨owner, challengeId⟩, rfl, rfl, rfl⟩)
    intro answer _
    cases answer with
    | error err =>
      apply books_finishSpawn ⟨owner, challengeId⟩
      exact fun _ h => by cases h
    | ok reply =>
      cases reply with
      | instance_ row =>
        apply books_finishSpawn ⟨owner, challengeId⟩
        rintro _ ⟨⟩
        rfl
      | _ => trivial

theorem books_spawnChallenge {challenge : EdoChallenge} (hknown : owner.Known) :
    Books (UserRoutes.spawnChallenge owner challenge) phase := by
  have hreads := housekeeping_unbooked.toReading
  apply books_unbooked hreads.settingOf
  intro maxContainers
  apply follows_select trivial
  intro db _
  apply Conforms.ite
  · trivial
  · apply books_unbooked (callsOnly_ttlOf hreads)
    intro ttl
    apply Conforms.perform trivial
    intro now _
    refine Conforms.perform hknown fun inserted _ => ?_
    cases inserted with
    | ok instanceId => exact books_spawnReserved
    | error err => exact books_last (callsOnly_refuseSpawn hreads)

theorem books_spawnInstance : Books (UserRoutes.spawnInstance caller challengeId) phase := by
  apply follows_select trivial
  intro db _
  cases db.currentUser caller with
  | none => trivial
  | some user =>
    cases db.resolveOwner caller with
    | none => trivial
    | some owner =>
      refine Conforms.bind (P := fun owner φ => owner.Known ∧ φ = phase) ?_ ?_
      · apply follows_select trivial
        intro db _
        cases howner : db.resolveOwner caller with
        | none => trivial
        | some owner => exact ⟨PluginDb.known_of_resolveOwner howner, rfl⟩
      · rintro owner _ ⟨hknown, rfl⟩
        apply follows_select trivial
        intro db _
        cases db.getChallenge challengeId with
        | none => trivial
        | some challenge =>
          apply Conforms.ite
          · trivial
          · exact books_spawnChallenge hknown

theorem books_route {compare : FlagComparison} {call : RouteCall} :
    Books (call.prog compare) .free := by
  have hkeeps := housekeeping_unbooked
  cases call with
  | spawnInstance caller challengeId => exact books_spawnInstance
  | teardownInstance caller instanceId => exact books_last hkeeps.teardownInstance
  | extendInstance caller instanceId => exact books_last hkeeps.extendInstance
  | downloadWgConfig caller => exact books_last hkeeps.downloadWgConfig
  | submitFlag caller challengeId provided ip =>
    apply books_last
    apply callsOnly_submitFlag hkeeps.toReading
    · exact fun _ _ _ _ => ⟨trivial, fun _ => rfl⟩
    · exact fun _ => judging_unbooked
  | resetOwnerProgress challengeId owner =>
    apply books_last
    refine CallsOnly.ite .ret (CallsOnly.bind (callsOnly_commit ?_) fun _ => .ret)
    apply unbooked_commit
    intro write hwrite
    rcases List.mem_pair.mp hwrite with rfl | rfl
    · exact id
    · exact id
  | forceTeardown instanceId => exact books_last hkeeps.forceTeardown
  | killSwitch => exact books_last hkeeps.killSwitch
  | wgBulkGenerate => exact books_last hkeeps.wgBulkGenerate
  | wgRevokePeer userId => exact books_last hkeeps.wgRevokePeer

end Conformance

/-! ## The invariant -/

section Steps

variable {env : DaemonEnv} {s s' : Site} {issued issued' : ContainerId → SpawnKey}
  {phase : BookingPhase}

/-- What was issued and reserved before is as it was, or gone. -/
structure SiteContinues (s : Site) (issued : ContainerId → SpawnKey) (s' : Site)
    (issued' : ContainerId → SpawnKey) : Prop where
  daemon : Continues s.daemon issued s'.daemon issued'
  nextId_le : s.plugin.nextInstanceId ≤ s'.plugin.nextInstanceId
  rows : ∀ row' ∈ s'.plugin.instances, row'.id < s.plugin.nextInstanceId →
    ∃ row ∈ s.plugin.instances, row.id = row'.id ∧ row.spawnKey = row'.spawnKey

theorem SiteContinues.of_plugin (hdaemon : Continues s.daemon issued s'.daemon issued')
    (hplugin : s'.plugin = s.plugin) : SiteContinues s issued s' issued' := by
  refine ⟨hdaemon, Nat.le_of_eq (by rw [hplugin]), ?_⟩
  intro row' hrow' _
  rw [hplugin] at hrow'
  exact ⟨row', hrow', rfl, rfl⟩

theorem Site.Booked.continues {instanceId : Nat} {key : SpawnKey} (h : s.Booked instanceId key)
    (hcontinues : SiteContinues s issued s' issued') : s'.Booked instanceId key := by
  refine ⟨h.known, Nat.lt_of_lt_of_le h.id_lt hcontinues.nextId_le, ?_⟩
  intro row' hrow' hid
  obtain ⟨row, hrow, hsame, hkey⟩ := hcontinues.rows row' hrow' (hid ▸ h.id_lt)
  rw [← hkey]
  exact h.row row hrow (hsame.trans hid)

/-- What a phase says goes on being true. -/
theorem BookingPhase.Holds.continues (h : phase.Holds s issued)
    (hcontinues : SiteContinues s issued s' issued') : phase.Holds s' issued' := by
  cases phase with
  | free => trivial
  | booked instanceId key => exact Site.Booked.continues h hcontinues
  | issued instanceId key containerId =>
    obtain ⟨hbooked, hissued, hlt⟩ := h
    refine ⟨hbooked.continues hcontinues, ?_, Nat.lt_of_lt_of_le hlt hcontinues.daemon.nextId_le⟩
    rw [hcontinues.daemon.issued_eq containerId hlt, hissued]

/-- Rows that are left, and rows with a container that was issued for them. -/
theorem Site.Ledger.plugin {db : PluginDb} (h : s.Ledger issued) (hkeyed : db.Keyed)
    (hrows : ∀ row' ∈ db.instances, ∀ id ∈ row'.containerId,
      issued id = row'.spawnKey ∧ id < s.daemon.docker.nextId) :
    ({ s with plugin := db } : Site).Ledger issued := ⟨hkeyed, h.daemon, hrows⟩

/-- The daemon goes on. -/
theorem Site.Ledger.daemon_continues {w : World} (h : s.Ledger issued)
    (hcontinues : Continues s.daemon issued w issued') (hledger : w.Ledger issued') :
    ({ s with daemon := w } : Site).Ledger issued' := by
  refine ⟨h.keyed, hledger, ?_⟩
  intro row hrow id hid
  obtain ⟨hissued, hlt⟩ := h.rows row hrow id hid
  exact ⟨by rw [hcontinues.issued_eq id hlt, hissued], Nat.lt_of_lt_of_le hlt hcontinues.nextId_le⟩

/-- What follows from a call. -/
structure BooksAfter (s : Site) (issued : ContainerId → SpawnKey) (phase : BookingPhase) (s' : Site)
    (issued' : ContainerId → SpawnKey) : Prop where
  continues : SiteContinues s issued s' issued'
  ledger : s'.Ledger issued'
  holds : phase.Holds s' issued'

/-- A row is reserved. -/
theorem Site.Ledger.insertInstance (h : s.Ledger issued) {challengeId id : Nat} {owner : Owner}
    {expiresAt : Timestamp} {db : PluginDb} (hknown : owner.Known)
    (hinsert : s.plugin.insertInstance challengeId owner expiresAt = .ok (id, db)) :
    BooksAfter s issued (.booked id ⟨owner, challengeId⟩) { s with plugin := db } issued := by
  have hkeyed := h.keyed.insertInstance hinsert
  obtain ⟨rfl, -, new, hid, hchallenge, howner, -, hcontainer, rfl⟩ :=
    PluginDb.insertInstance_eq hinsert
  have hold : ∀ row ∈ s.plugin.instances, row.id ≠ s.plugin.nextInstanceId :=
    fun row hrow => Nat.ne_of_lt (h.keyed.ids_lt row hrow)
  refine ⟨⟨.refl, Nat.le_succ _, ?_⟩, h.plugin hkeyed ?_, hknown, Nat.lt_succ_self _, ?_⟩
  · intro row' hrow' hlt
    rcases List.mem_append.mp hrow' with hmem | hnew
    · exact ⟨row', hmem, rfl, rfl⟩
    · rw [List.mem_singleton.mp hnew, hid] at hlt
      exact absurd hlt (Nat.lt_irrefl _)
  · intro row' hrow' containerId hmem
    rcases List.mem_append.mp hrow' with hmem' | hnew
    · exact h.rows row' hmem' containerId hmem
    · rw [List.mem_singleton.mp hnew, hcontainer] at hmem
      cases hmem
  · intro row' hrow' hrowId
    rcases List.mem_append.mp hrow' with hmem | hnew
    · exact absurd hrowId (hold row' hmem)
    · rw [List.mem_singleton.mp hnew]
      unfold EdoInstance.spawnKey
      rw [howner, hchallenge]

/-- A commit, in which only a spawn says which container is its row's. -/
theorem Site.Ledger.commit (h : s.Ledger issued) (hholds : phase.Holds s issued) {writes : List Write}
    {db : PluginDb} (hadmits : phase.admits (.commit writes))
    (happly : s.plugin.applyAll writes = .ok db) :
    BooksAfter s issued phase { s with plugin := db } issued := by
  obtain ⟨hkeyed, hnext, -⟩ := h.keyed.applyAll happly
  have hcontinues : SiteContinues s issued { s with plugin := db } issued := by
    refine ⟨.refl, Nat.le_of_eq hnext.symm, ?_⟩
    intro row' hrow' _
    obtain ⟨row, hrow, hafter⟩ := (h.keyed.mem_applyAll happly).mp hrow'
    exact ⟨row, hrow, (Write.rowAfter_id hafter).symm,
      EdoInstance.spawnKey_eq (Write.rowAfter_key hafter).symm⟩
  refine ⟨hcontinues, h.plugin hkeyed ?_, hholds.continues hcontinues⟩
  intro row' hrow' id hid
  obtain ⟨row, hrow, hafter⟩ := (h.keyed.mem_applyAll happly).mp hrow'
  have hkey : row'.spawnKey = row.spawnKey := EdoInstance.spawnKey_eq (Write.rowAfter_key hafter)
  rcases hadmits with hwrites | ⟨instanceId, key, reply, rfl, rfl⟩
  · rw [Write.rowAfter_containerId hwrites hafter] at hid
    rw [hkey]
    exact h.rows row hrow id hid
  · obtain ⟨hbooked, hissued, hlt⟩ := hholds
    by_cases hown : row.id = instanceId
    · simp only [rowAfter, Write.onRow, hown, if_true, Option.bind_some, Option.some.injEq] at hafter
      rw [← hafter] at hid
      obtain rfl : reply.containerId = id := Option.some.inj hid
      rw [hkey, hbooked.row row hrow hown]
      exact ⟨hissued, hlt⟩
    · simp only [rowAfter, Write.onRow, hown, if_false, Option.bind_some, Option.some.injEq] at hafter
      rw [← hafter] at hid ⊢
      exact h.rows row hrow id hid

/-- A query, or a reading of a clock. -/
theorem BooksAfter.same (h : s.Ledger issued) (hholds : phase.Holds s issued)
    (hplugin : s'.plugin = s.plugin) (hdaemon : s'.daemon = s.daemon) :
    BooksAfter s issued phase s' issued := by
  have hcontinues : SiteContinues s issued s' issued :=
    .of_plugin (by rw [hdaemon]; exact .refl) hplugin
  refine ⟨hcontinues, ⟨?_, ?_, ?_⟩, hholds.continues hcontinues⟩
  · rw [hplugin]
    exact h.keyed
  · rw [hdaemon]
    exact h.daemon
  · rw [hplugin, hdaemon]
    exact h.rows

end Steps

/-! ## RPCs -/

section Rpcs

variable {policy : Policy} {env : DaemonEnv} {w w' : World} {issued : ContainerId → SpawnKey}
  {request : Request} {answer : Except DaemonError Reply} {key : SpawnKey}

/-- What the handler of a request leaves of the world, an RPC leaves of it, or nothing has happened. -/
theorem Unreliable.of_wp {Q : World → Prop} (hsame : Q w)
    (hp : wp (daemonSem anyFault) (fun _ _ => True) (handle env request) (fun _ w' => Q w') w)
    (h : Unreliable env w request answer w') : Q w' := by
  have hhandled : ∀ {answer w'}, Handled anyFault env w request answer w' → Q w' := by
    intro answer w' hhandled
    cases hhandled with
    | ok hends => exact hends.of_wp hp
    | error hends => exact hends.of_wp hp
  cases h with
  | answered h => exact hhandled h
  | undelivered => exact hsame
  | replyLost h => exact hhandled h

/-- The ledger goes on, and the container in a reply was issued for the key. -/
def SpawnIssued (key : SpawnKey) (w : World) (issued : ContainerId → SpawnKey)
    (reply? : Option Reply) (w' : World) : Prop :=
  ∃ issued', Continues w issued w' issued' ∧ w'.Ledger issued' ∧ ∀ row, reply? = some (.instance_ row) →
    issued' row.containerId = key ∧ row.containerId < w'.docker.nextId

theorem wp_handle_spawnIssued (h : w.Ledger issued) (hknown : key.owner.Known)
    (hfor : request.IsFor key) : wp (daemonSem policy) (fun _ _ => True) (handle env request)
      (fun out w' => SpawnIssued key w issued out.toOption w') w := by
  cases request with
  | containerEnsureInstance owner challengeRef buildPath security ttlSeconds publishPorts =>
    obtain ⟨rfl, rfl⟩ := hfor
    have hholds : (ServicePhase.forKey key []).Holds w issued := fun _ hid => by cases hid
    apply wp_mono (wp_serves (serves_ensureInstance key hknown) h hholds)
    rintro out w' ⟨φ, ⟨issued', hafter⟩, hreturns⟩
    refine ⟨issued', hafter.continues, hafter.ledger, ?_⟩
    rintro row hreply
    cases out with
    | error err => cases hreply
    | ok reply =>
      obtain ⟨known, rfl, hrow⟩ := hreturns
      exact hafter.holds row.containerId (hrow row (Option.some.inj hreply))
  | _ => exact hfor.elim

theorem Unreliable.spawnIssued (h : w.Ledger issued) (hknown : key.owner.Known)
    (hfor : request.IsFor key) (hrpc : Unreliable env w request answer w') :
    SpawnIssued key w issued answer.toOption w' := by
  have hforget : ∀ {reply? : Option Reply} {w₁ : World}, SpawnIssued key w issued reply? w₁ →
      SpawnIssued key w issued none w₁ := by
    rintro reply? w₁ ⟨issued', hcontinues, hledger, -⟩
    exact ⟨issued', hcontinues, hledger, fun _ h => by cases h⟩
  have hhandled : ∀ {answer w'}, Handled anyFault env w request answer w' →
      SpawnIssued key w issued answer.toOption w' := by
    intro answer w' hhandled
    cases hhandled with
    | ok hends => exact hends.of_wp (wp_handle_spawnIssued h hknown hfor)
    | error hends => exact hforget (hends.of_wp (wp_handle_spawnIssued h hknown hfor))
  cases hrpc with
  | answered h => exact hhandled h
  | undelivered => exact ⟨issued, .refl, h, fun _ h => by cases h⟩
  | replyLost h => exact hforget (hhandled h)

/-- The other requests issue nothing. -/
theorem Unreliable.keepsLedger (h : w.Ledger issued) (hspawns : request.spawns = false)
    (hrpc : Unreliable env w request answer w') : KeepsLedger w issued w' := by
  apply hrpc.of_wp (.refl h)
  apply wp_keepsLedger (serves_issuesNothing (callsOnly_handle_issuesNothing hspawns)) h
  trivial

end Rpcs

/-- **One call**, whatever becomes of its RPC. -/
theorem Site.Ledger.step {env : DaemonEnv} {s s' : Site} {issued : ContainerId → SpawnKey}
    {phase : BookingPhase} {op : SiteOp} {res : op.Res} (h : s.Ledger issued)
    (hholds : phase.Holds s issued) (hadmits : phase.admits op)
    (hsem : siteSem (Unreliable env) s op res s') :
    ∃ issued', BooksAfter s issued (phase.next op res) s' issued' := by
  cases op with
  | select | flush writes =>
    obtain ⟨rfl, rfl⟩ := hsem
    exact ⟨issued, .same h hholds rfl rfl⟩
  | utcnow =>
    cases hsem
    exact ⟨issued, .same h hholds rfl rfl⟩
  | rateLimit key limit window =>
    obtain ⟨now, -, rfl⟩ := hsem
    exact ⟨issued, .same h hholds rfl rfl⟩
  | insertInstance challengeId owner expiresAt =>
    obtain ⟨rfl, rfl⟩ := hsem
    refine ⟨issued, ?_⟩
    unfold PluginDb.commitInstance
    cases hinsert : s.plugin.insertInstance challengeId owner expiresAt with
    | ok result => exact h.insertInstance hadmits hinsert
    | error err => exact .same h hholds rfl rfl
  | commit writes =>
    obtain ⟨rfl, rfl⟩ := hsem
    refine ⟨issued, ?_⟩
    unfold PluginDb.commit
    cases happly : s.plugin.applyAll writes with
    | ok db => exact h.commit hholds hadmits happly
    | error err => exact .same h hholds rfl rfl
  | rpc request =>
    obtain ⟨hrpc, hs'⟩ := hsem
    rcases hadmits with hspawns | ⟨instanceId, key, rfl, hfor⟩
    · obtain ⟨issued', hcontinues, hledger⟩ := hrpc.keepsLedger h.daemon hspawns
      have hnext : phase.next (.rpc request) res = phase := by
        cases request <;> first | rfl | cases hspawns
      have hplugin : SiteContinues s issued s' issued' := .of_plugin hcontinues (by rw [hs'])
      refine ⟨issued', hplugin, ?_, ?_⟩
      · rw [hs']
        exact h.daemon_continues hcontinues hledger
      · rw [hnext]
        exact hholds.continues hplugin
    · obtain ⟨issued', hcontinues, hledger, hreply⟩ := hrpc.spawnIssued h.daemon hholds.known hfor
      have hplugin : SiteContinues s issued s' issued' := .of_plugin hcontinues (by rw [hs'])
      refine ⟨issued', hplugin, ?_, ?_⟩
      · rw [hs']
        exact h.daemon_continues hcontinues hledger
      · have hbooked : (BookingPhase.booked instanceId key).Holds s' issued' := hholds.continues hplugin
        cases request with
        | containerEnsureInstance owner challengeRef buildPath security ttlSeconds publishPorts =>
          cases res with
          | error err => exact hbooked
          | ok reply =>
            cases reply with
            | instance_ row => exact ⟨hbooked, hreply row rfl⟩
            | _ => exact hbooked
        | _ => exact hfor.elim

end EdoPlugin
