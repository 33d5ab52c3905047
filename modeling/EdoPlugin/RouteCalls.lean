import EdoPlugin.InstanceTable

/-!
# The calls a route makes

Which calls each route can make at all, whatever they answer: apart from those that write nothing,
the commits it makes itself.  A property that these commits keep, the route keeps.
-/

namespace EdoPlugin

open Interaction ChallengeType

/-- A set of calls that has the queries and the readings of the clock. -/
structure Reading (A : SiteOp → Prop) : Prop where
  select : A .select
  utcnow : A .utcnow

/-- The queries and the readings of the clock. -/
def readsSite : SiteOp → Prop
  | .select | .utcnow => True
  | _ => False

theorem reading_readsSite : Reading readsSite := ⟨trivial, trivial⟩

/-- They change nothing. -/
theorem wp_reads {rpc : RpcSem} {s : Site} {β : Type} {p : Plugin β} (hp : CallsOnly readsSite p) :
    wp (siteSem rpc) (fun _ _ => True) p (fun _ s' => s' = s) s := by
  apply wp_guard_mono (hp.preserves (I := fun s' : Site => s' = s) ?_ rfl) fun _ _ _ => trivial
  rintro _ op res s' hop rfl hsem
  cases op with
  | select => exact hsem.2
  | utcnow => exact hsem
  | _ => exact hop.elim

/-- What the routes write that neither spawn nor judge a flag. -/
def Write.Housekeeps : Write → Prop
  | .updateInstance instanceId columns => ¬ (Write.updateInstance instanceId columns).NamesContainer
  | .deleteInstance _ | .deleteActiveInstances => True
  | .insertPeer _ | .revokePeer _ => True
  | _ => False

theorem Write.Housekeeps.not_namesContainer {write : Write} (h : write.Housekeeps) :
    ¬ write.NamesContainer := by
  cases write with
  | updateInstance instanceId columns => exact h
  | _ => exact fun hnames => hnames.elim

/-- A set of calls that has all those of these routes, and of the background jobs. -/
structure Housekeeping (A : SiteOp → Prop) : Prop extends Reading A where
  rpc : ∀ request, request.spawns = false → A (.rpc request)
  flush : ∀ writes, A (.flush writes)
  commit : ∀ writes, (∀ write ∈ writes, write.Housekeeps) → A (.commit writes)

/-- The other calls of a spawn once its row is reserved. -/
structure SpawnCalls (A : SiteOp → Prop) (instanceId : Nat) : Prop where
  rpc : ∀ request, A (.rpc request)
  delete : A (.commit [.deleteInstance instanceId])
  update : ∀ reply, A (.commit [.updateInstance instanceId (UserRoutes.spawnColumns reply)])

variable {A : SiteOp → Prop} {α : Type} {caller : Option Int} {instanceId challengeId : Nat}
  {owner : Owner}

namespace Reading

theorem resolvedOwner (hA : Reading A) : CallsOnly A (resolvedOwner caller) :=
  CallsOnly.bind (.perform hA.select) fun db => by
    cases db.resolveOwner caller with
    | some owner => exact .ret
    | none => exact .raise

theorem ownerRequired (hA : Reading A) {fn : Plugin Response} (hfn : CallsOnly A fn) :
    CallsOnly A (ownerRequired caller fn) :=
  CallsOnly.bind (.perform hA.select) fun db => by
    cases db.currentUser caller with
    | none => exact .ret
    | some user =>
      cases db.resolveOwner caller with
      | none => exact .ret
      | some owner => exact hfn

theorem settingOf (hA : Reading A) {key : String} {default : Int} :
    CallsOnly A (settingOf key default) :=
  CallsOnly.bind (.perform hA.select) fun _ => .ret

theorem refreshInstance (hA : Reading A) : CallsOnly A (refreshInstance instanceId) :=
  CallsOnly.bind (.perform hA.select) fun db => by
    cases db.getInstance instanceId with
    | some row => exact .ret
    | none => exact .raise

theorem serializeInstance (hA : Reading A) {threshold : Int} :
    CallsOnly A (UserRoutes.serializeInstance instanceId threshold) := by
  refine CallsOnly.bind (.perform hA.utcnow) fun now => ?_
  refine CallsOnly.bind hA.refreshInstance fun row => ?_
  exact CallsOnly.bind (.perform hA.select) fun db => .ret

theorem currentUserId (hA : Reading A) : CallsOnly A (currentUserId caller) :=
  CallsOnly.bind (.perform hA.select) fun db => by
    cases db.currentUser caller with
    | some user => exact .ret
    | none => exact .raise

end Reading

theorem callsOnly_flushed {result : Except FlushError α} : CallsOnly A (flushed result) := by
  cases result with
  | ok value => exact .ret
  | error err => exact .raise

theorem callsOnly_commit {writes : List Write} (h : A (.commit writes)) :
    CallsOnly A (commit writes) :=
  CallsOnly.bind (CallsOnly.perform h) fun _ => callsOnly_flushed

/-! ## Spawns -/

theorem callsOnly_finishSpawn {result : Except DaemonError Instance} (hA : Reading A)
    (hdelete : A (.commit [.deleteInstance instanceId]))
    (hupdate : ∀ reply, A (.commit [.updateInstance instanceId (UserRoutes.spawnColumns reply)])) :
    CallsOnly A (UserRoutes.finishSpawn instanceId result) := by
  cases result with
  | error err =>
    refine CallsOnly.bind hA.refreshInstance fun _ => ?_
    exact CallsOnly.bind (callsOnly_commit hdelete) fun _ => .ret
  | ok reply =>
    refine CallsOnly.bind hA.refreshInstance fun _ => ?_
    refine CallsOnly.bind (callsOnly_commit (hupdate reply)) fun _ => ?_
    refine CallsOnly.bind hA.settingOf fun threshold => ?_
    exact CallsOnly.bind hA.serializeInstance fun _ => .ret

theorem callsOnly_containerEnsureInstance {challengeRef buildPath : String} {security : SecurityProfile}
    {ttl : Option Int} {publishPorts : Bool}
    (hrpc : A (.rpc (.containerEnsureInstance owner challengeRef buildPath security ttl publishPorts))) :
    CallsOnly A (DaemonClient.containerEnsureInstance owner challengeRef buildPath security ttl
      publishPorts) :=
  CallsOnly.bind (.perform hrpc) fun answer => by
    cases answer with
    | error err => exact .ret
    | ok reply => cases reply <;> first | exact .ret | exact .raise

theorem callsOnly_spawnReserved (hA : Reading A) (hspawn : SpawnCalls A instanceId) {ttl : Int} :
    CallsOnly A (UserRoutes.spawnReserved owner challengeId ttl instanceId) :=
  CallsOnly.bind (.perform hA.select) fun db => by
    cases db.getChallenge challengeId with
    | none => exact .raise
    | some challenge =>
      refine CallsOnly.bind (callsOnly_containerEnsureInstance (hspawn.rpc _)) fun result => ?_
      exact callsOnly_finishSpawn hA hspawn.delete hspawn.update

theorem callsOnly_refuseSpawn (hA : Reading A) :
    CallsOnly A (UserRoutes.refuseSpawn owner challengeId) :=
  CallsOnly.bind (.perform hA.select) fun db => by
    cases db.findInstance challengeId owner with
    | some existing => exact .ret
    | none => exact .ret

theorem callsOnly_ttlOf (hA : Reading A) {challenge : EdoChallenge} :
    CallsOnly A (UserRoutes.ttlOf challenge) :=
  CallsOnly.ite hA.settingOf .ret

theorem callsOnly_spawnInstance (hA : Reading A)
    (hinsert : ∀ challengeId owner expiresAt, A (.insertInstance challengeId owner expiresAt))
    (hspawn : ∀ instanceId, SpawnCalls A instanceId) :
    CallsOnly A (UserRoutes.spawnInstance caller challengeId) := by
  refine hA.ownerRequired (CallsOnly.bind hA.resolvedOwner fun owner => ?_)
  refine CallsOnly.bind (.perform hA.select) fun db => ?_
  cases db.getChallenge challengeId with
  | none => exact .ret
  | some challenge =>
    refine CallsOnly.ite .ret (CallsOnly.bind hA.settingOf fun maxContainers => ?_)
    refine CallsOnly.bind (.perform hA.select) fun db => CallsOnly.ite .ret ?_
    refine CallsOnly.bind (callsOnly_ttlOf hA) fun ttl => ?_
    refine CallsOnly.bind (.perform hA.utcnow) fun now => ?_
    refine CallsOnly.bind (.perform (hinsert _ _ _)) fun inserted => ?_
    cases inserted with
    | ok instanceId => exact callsOnly_spawnReserved hA (hspawn instanceId)
    | error err => exact callsOnly_refuseSpawn hA

/-! ## Extensions -/

theorem callsOnly_ownedInstance (hA : Reading A) :
    CallsOnly A (UserRoutes.ownedInstance caller instanceId) := by
  refine CallsOnly.bind hA.resolvedOwner fun owner => CallsOnly.bind (.perform hA.select) fun db => ?_
  cases db.getInstance instanceId with
  | none => exact .ret
  | some row => exact CallsOnly.ite .ret .ret

theorem callsOnly_extendInstance (hA : Reading A)
    (hextend : ∀ instanceId expiresAt, A (.commit [.updateInstance instanceId [.expiresAt expiresAt]])) :
    CallsOnly A (UserRoutes.extendInstance caller instanceId) := by
  refine hA.ownerRequired (CallsOnly.bind (callsOnly_ownedInstance hA) fun found => ?_)
  cases found with
  | error refusal => exact .ret
  | ok row =>
    refine CallsOnly.bind hA.settingOf fun threshold => ?_
    refine CallsOnly.bind hA.settingOf fun extendBy => ?_
    refine CallsOnly.bind (.perform hA.utcnow) fun now => CallsOnly.ite .ret ?_
    refine CallsOnly.bind (callsOnly_commit (hextend _ _)) fun _ => ?_
    exact CallsOnly.bind hA.refreshInstance fun fresh => .ret

/-! ## Submissions -/

/-- The calls of a request whose submission is compared with the flags, for its solver. -/
structure Judging (A : SiteOp → Prop) (challengeId : Nat) (solver : Owner) : Prop where
  select : A .select
  fail : ∀ row : Submission, row.challengeId = challengeId → solver = solverOf row.userId row.teamId →
    A (.commit [.insertFail row])
  find : ∀ flagId, A (.commit [.insertFlagSolve ⟨challengeId, flagId, solver⟩])
  solve : ∀ row : Submission, row.challengeId = challengeId → solver = solverOf row.userId row.teamId →
    A (.commit [.insertSolve row])

section Submissions

variable {compare : FlagComparison} {userId : Int} {team : Option Int} {submission ip : String}

theorem callsOnly_firstMatchingFlag (hselect : A .select) :
    CallsOnly A (firstMatchingFlag compare challengeId submission) :=
  CallsOnly.bind (.perform hselect) fun _ => .ret

theorem callsOnly_ownerProgress (hselect : A .select) : CallsOnly A (ownerProgress challengeId owner) :=
  CallsOnly.bind (.perform hselect) fun _ => CallsOnly.bind (.perform hselect) fun _ =>
    CallsOnly.bind (.perform hselect) fun _ => .ret

namespace Judging

theorem recordFlagFind (hA : Judging A challengeId (solverOf userId team)) :
    CallsOnly A (recordFlagFind compare challengeId userId team submission) := by
  refine CallsOnly.bind (callsOnly_firstMatchingFlag hA.select) fun matching => ?_
  cases matching with
  | none => exact .ret
  | some flag =>
    refine CallsOnly.bind (.perform hA.select) fun db => ?_
    cases db.flagSolve (solverOf userId team) flag.id with
    | some _ => exact .ret
    | none => exact CallsOnly.bind (callsOnly_commit (hA.find flag.id)) fun _ => .ret

theorem insertCtfdSolve (hA : Judging A challengeId (solverOf userId team)) :
    CallsOnly A (insertCtfdSolve challengeId userId team submission ip) := by
  refine CallsOnly.bind (.perform hA.select) fun db => ?_
  cases db.solveOf challengeId (solverOf userId team) with
  | some _ => exact .ret
  | none => exact callsOnly_commit (hA.solve _ rfl rfl)

theorem creditFlag (hA : Judging A challengeId (solverOf userId team)) : CallsOnly A
    (UserRoutes.creditFlag compare challengeId owner userId team submission ip) := by
  refine CallsOnly.bind hA.recordFlagFind fun _ => ?_
  refine CallsOnly.bind (callsOnly_ownerProgress hA.select) fun progress => CallsOnly.ite ?_ .ret
  exact CallsOnly.bind hA.insertCtfdSolve fun _ => .ret

theorem judgeSubmission (hA : Judging A challengeId (solverOf userId team)) : CallsOnly A
    (UserRoutes.judgeSubmission compare challengeId owner userId team submission ip) := by
  refine CallsOnly.bind (callsOnly_firstMatchingFlag hA.select) fun matching => ?_
  cases matching with
  | none => exact CallsOnly.bind (callsOnly_commit (hA.fail _ rfl rfl)) fun _ => .ret
  | some flag =>
    refine CallsOnly.bind (.perform hA.select) fun db => ?_
    cases db.flagSolve owner flag.id with
    | some _ => exact CallsOnly.bind (callsOnly_ownerProgress hA.select) fun _ => .ret
    | none => exact hA.creditFlag

end Judging

theorem callsOnly_submitFlag (hA : Reading A)
    (hrate : ∀ key limit window, A (.rateLimit key limit window))
    (hjudging : ∀ solver, Judging A challengeId solver) {provided : Option String} :
    CallsOnly A (UserRoutes.submitFlag compare caller challengeId provided ip) := by
  refine hA.ownerRequired (CallsOnly.bind hA.resolvedOwner fun owner => ?_)
  refine CallsOnly.bind (.perform hA.select) fun db => ?_
  cases db.getChallenge challengeId with
  | none => exact .ret
  | some challenge =>
    refine CallsOnly.bind hA.settingOf fun limit => CallsOnly.bind hA.settingOf fun window => ?_
    refine CallsOnly.bind ?_ fun allowed => CallsOnly.ite ?_ .ret
    · exact CallsOnly.bind (.perform (hrate _ _ _)) fun _ => .ofExcept
    · refine CallsOnly.bind ?_ fun userId => CallsOnly.bind ?_ fun team => CallsOnly.bind ?_ fun _ => ?_
      · refine CallsOnly.bind hA.currentUserId fun userId => CallsOnly.bind (.perform hA.select) fun db => ?_
        cases db.getUser userId with
        | some user => exact .ret
        | none => exact .raise
      · exact CallsOnly.ite (CallsOnly.bind (.perform hA.select) fun _ => .ret) .ret
      · exact CallsOnly.ite .ret (CallsOnly.bind (.perform hA.select) fun _ => .ret)
      · exact CallsOnly.ite .ret (CallsOnly.ite .ret (hjudging _).judgeSubmission)

end Submissions

/-! ## Housekeeping -/

namespace Housekeeping

/-- A commit of a single write. -/
theorem commitOne (hA : Housekeeping A) {write : Write} (h : write.Housekeeps) :
    CallsOnly A (EdoPlugin.commit [write]) := by
  apply callsOnly_commit
  apply hA.commit
  intro other hother
  rw [List.mem_singleton.mp hother]
  exact h

theorem extendInstance (hA : Housekeeping A) :
    CallsOnly A (UserRoutes.extendInstance caller instanceId) := by
  apply callsOnly_extendInstance hA.toReading
  intro id expiresAt
  apply hA.commit
  intro write hwrite
  rw [List.mem_singleton.mp hwrite]
  rintro ⟨containerId, hmem⟩
  cases List.mem_singleton.mp hmem

theorem releaseContainer (hA : Housekeeping A) {row : EdoInstance} :
    CallsOnly A (UserRoutes.releaseContainer row) := by
  unfold UserRoutes.releaseContainer
  cases row.containerId with
  | none => exact .ret
  | some containerId =>
    refine CallsOnly.bind (.perform (hA.rpc _ rfl)) fun answer => ?_
    cases answer <;> exact .ret

theorem teardownInstance (hA : Housekeeping A) :
    CallsOnly A (UserRoutes.teardownInstance caller instanceId) := by
  apply hA.ownerRequired
  refine CallsOnly.bind (callsOnly_ownedInstance hA.toReading) fun found => ?_
  cases found with
  | error refusal => exact .ret
  | ok row =>
    refine CallsOnly.bind hA.releaseContainer fun _ => ?_
    exact CallsOnly.bind (hA.commitOne trivial) fun _ => .ret

theorem forceTeardown (hA : Housekeeping A) : CallsOnly A (AdminRoutes.forceTeardown instanceId) := by
  refine CallsOnly.bind (.perform hA.select) fun db => ?_
  cases db.getInstance instanceId with
  | none => exact .ret
  | some row =>
    refine CallsOnly.bind hA.releaseContainer fun released => ?_
    cases released with
    | error err => exact .ret
    | ok _ => exact CallsOnly.bind (hA.commitOne trivial) fun _ => .ret

theorem killSwitch (hA : Housekeeping A) : CallsOnly A AdminRoutes.killSwitch := by
  refine CallsOnly.bind (CallsOnly.bind (.perform (hA.rpc _ rfl)) fun answer => ?_) fun result => ?_
  · cases answer with
    | error err => exact .ret
    | ok reply => cases reply <;> first | exact .ret | exact .raise
  · cases result with
    | error err => exact .ret
    | ok count => exact CallsOnly.bind (hA.commitOne trivial) fun _ => .ret

/-! ### Peers -/

theorem wgEnsurePeer (hA : Housekeeping A) {userId : Int} :
    CallsOnly A (DaemonClient.wgEnsurePeer userId owner) := by
  refine CallsOnly.bind (.perform (hA.rpc _ rfl)) fun answer => ?_
  cases answer with
  | error err => exact .ret
  | ok reply => cases reply <;> first | exact .ret | exact .raise

theorem renderConfig (hA : Housekeeping A) {userId : Int} :
    CallsOnly A (UserRoutes.renderConfig userId) := by
  refine CallsOnly.bind (CallsOnly.bind (.perform (hA.rpc _ rfl)) fun answer => ?_) fun blob => ?_
  · cases answer with
    | error err => exact .ret
    | ok reply => cases reply <;> first | exact .ret | exact .raise
  · cases blob with
    | error err => exact .ret
    | ok text =>
      refine CallsOnly.bind (.perform hA.select) fun db => ?_
      cases db.getUser userId with
      | none => exact .raise
      | some user => exact .ret

theorem downloadWgConfig (hA : Housekeeping A) :
    CallsOnly A (UserRoutes.downloadWgConfig caller) := by
  apply hA.ownerRequired
  refine CallsOnly.bind hA.currentUserId fun userId => ?_
  refine CallsOnly.bind hA.resolvedOwner fun owner => ?_
  refine CallsOnly.bind (.perform hA.select) fun db => ?_
  cases db.activePeer userId with
  | some peer => exact hA.renderConfig
  | none =>
    refine CallsOnly.bind hA.wgEnsurePeer fun ensured => ?_
    cases ensured with
    | error err => exact .ret
    | ok reply => exact CallsOnly.bind (hA.commitOne trivial) fun _ => hA.renderConfig

theorem wgRevokePeer (hA : Housekeeping A) {userId : Int} :
    CallsOnly A (AdminRoutes.wgRevokePeer userId) := by
  refine CallsOnly.bind (.perform hA.select) fun db => ?_
  cases db.activePeer userId with
  | none => exact .ret
  | some peer =>
    refine CallsOnly.bind (CallsOnly.bind (.perform (hA.rpc _ rfl)) fun answer => ?_) fun removed => ?_
    · cases answer <;> exact .ret
    · cases removed with
      | error err => exact .ret
      | ok _ => exact CallsOnly.bind (hA.commitOne trivial) fun _ => .ret

theorem generateEach (hA : Housekeeping A) {users : List User} {added : List Write}
    {counts : AdminRoutes.BulkCounts} (hadded : ∀ write ∈ added, write.Housekeeps) :
    CallsOnly A (AdminRoutes.generateEach users added counts) := by
  induction users generalizing added counts with
  | nil => exact CallsOnly.bind (callsOnly_commit (hA.commit added hadded)) fun _ => .ret
  | cons user users ih =>
    refine CallsOnly.bind (CallsOnly.bind (.perform (hA.flush added)) fun _ => callsOnly_flushed)
      fun db => ?_
    cases db.activePeer user.id with
    | some peer => exact ih hadded
    | none =>
      cases db.resolveOwnerForUser user with
      | none => exact ih hadded
      | some owner =>
        refine CallsOnly.bind hA.wgEnsurePeer fun ensured => ?_
        cases ensured with
        | error err => exact ih hadded
        | ok reply =>
          apply ih
          intro write hwrite
          rcases List.mem_append.mp hwrite with hold | hnew
          · exact hadded write hold
          · rw [List.mem_singleton.mp hnew]
            trivial

theorem wgBulkGenerate (hA : Housekeeping A) : CallsOnly A AdminRoutes.wgBulkGenerate :=
  CallsOnly.bind (.perform hA.select) fun _ => hA.generateEach fun _ h => by cases h

/-! ### Background jobs -/

/-- The sweep does with its writes what `f` does. -/
theorem sweepEach (hA : Housekeeping A) {rows : List EdoInstance} {f : List Write → Plugin α}
    (hf : ∀ writes, (∀ write ∈ writes, write.Housekeeps) → CallsOnly A (f writes)) :
    CallsOnly A (Scheduler.sweepEach rows >>= f) := by
  induction rows generalizing f with
  | nil => exact hf [] fun _ h => by cases h
  | cons row rows ih =>
    rw [Scheduler.sweepEach, Prog.bind_eq, Prog.bind_eq, Prog.bind_assoc]
    refine CallsOnly.bind hA.releaseContainer fun released => ?_
    rw [Prog.bind_eq, Prog.bind_assoc]
    apply ih
    intro writes hwrites
    apply hf
    intro write hwrite
    rcases List.mem_cons.mp hwrite with rfl | hmem
    · cases released with
      | ok _ => trivial
      | error err =>
        rintro ⟨containerId, hcolumn⟩
        simp at hcolumn
    · exact hwrites write hmem

theorem sweepExpired (hA : Housekeeping A) : CallsOnly A Scheduler.sweepExpired := by
  refine CallsOnly.bind (.perform hA.utcnow) fun now => ?_
  refine CallsOnly.bind (.perform hA.select) fun db => CallsOnly.ite .ret ?_
  exact hA.sweepEach fun writes hwrites => callsOnly_commit (hA.commit writes hwrites)

theorem reconcileWrite_housekeeps {row : EdoInstance} {now : Timestamp} {live : Option Instance} :
    (Scheduler.reconcileWrite row now live).Housekeeps := by
  unfold Scheduler.reconcileWrite
  split
  · trivial
  · split <;> simp [Write.Housekeeps, Write.NamesContainer]

theorem reconcileEach (hA : Housekeeping A) {live : List Instance} {rows : List EdoInstance}
    {f : List Write → Plugin α}
    (hf : ∀ writes, (∀ write ∈ writes, write.Housekeeps) → CallsOnly A (f writes)) :
    CallsOnly A (Scheduler.reconcileEach live rows >>= f) := by
  induction rows generalizing f with
  | nil => exact hf [] fun _ h => by cases h
  | cons row rows ih =>
    unfold Scheduler.reconcileEach
    cases row.containerId with
    | none => exact ih hf
    | some containerId =>
      refine CallsOnly.call hA.utcnow fun now => ?_
      show CallsOnly A ((Scheduler.reconcileEach live rows >>= _) >>= f)
      rw [Prog.bind_eq, Prog.bind_eq, Prog.bind_assoc]
      apply ih
      intro writes hwrites
      apply hf
      intro write hwrite
      rcases List.mem_cons.mp hwrite with rfl | hmem
      · exact reconcileWrite_housekeeps
      · exact hwrites write hmem

theorem reconcile (hA : Housekeeping A) : CallsOnly A Scheduler.reconcile := by
  refine CallsOnly.bind (CallsOnly.bind (.perform (hA.rpc _ rfl)) fun answer => ?_) fun result => ?_
  · cases answer with
    | error err => exact .ret
    | ok reply => cases reply <;> first | exact .ret | exact .raise
  · cases result with
    | error err => exact .ret
    | ok live =>
      refine CallsOnly.bind (.perform hA.select) fun db => ?_
      exact hA.reconcileEach fun writes hwrites => callsOnly_commit (hA.commit writes hwrites)

end Housekeeping

end EdoPlugin
