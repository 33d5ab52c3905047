import EdoPlugin.FirewallCoherence
import EdoPlugin.PluginModels

/-!
# A site: plugin and daemon

The plugin runs in CTFd and owns the tables of `PluginModels`; the daemon runs as root and owns the
world of `World`.  They meet in one place, the RPC of `daemon_client.py`.  `SiteOp` is the signature
of the calls the plugin's code makes, and `siteSem` their meaning, in which an RPC is one step whose
answers are a parameter: a daemon that always answers, one whose replies get lost, and so on.
-/

namespace EdoPlugin

open Interaction

/-- The exceptions a request does not handle. -/
inductive PluginErr where
  | flush (err : FlushError)
  | objectDeletedError
  | attributeError (msg : String)
  | typeError (msg : String)
  | keyError (key : String)
  | indexError (msg : String)
deriving DecidableEq, Repr

/-! ## The rate limiter -/

/-- The arguments `(owner_type, owner_id, "submit", challenge_id)` of a bucket. -/
abbrev RateKey := Owner × Nat

/-- `_BUCKETS`: the times of the calls that were allowed, oldest first. -/
abbrev RateBuckets := RateKey → List Rat

/-- `int(seconds)` of a float, which truncates. -/
def truncate (seconds : Rat) : Int := seconds.num.tdiv seconds.den

/-- `check_rate_limit` at the monotonic time `now`.  Only a limit below one refuses a call whose
    bucket is empty, and then there is no oldest call to compute the wait from. -/
def checkRateLimit (buckets : RateBuckets) (key : RateKey) (limit window : Int) (now : Rat) :
    Except PluginErr (Bool × Int) × RateBuckets :=
  let cutoff := now - window
  let bucket := (buckets key).dropWhile fun t => t < cutoff
  if limit ≤ bucket.length then
    (match bucket with
      | oldest :: _ => .ok (false, truncate (window - (now - oldest)) + 1)
      | [] => .error (.indexError "deque index out of range"),
      Function.update buckets key bucket)
  else (.ok (true, 0), Function.update buckets key (bucket ++ [now]))

/-! ## The RPC -/

/-- `DaemonError` and its two subclasses. -/
inductive DaemonError where
  | daemon (msg : String)
  | timeout (msg : String)
  | unavailable (msg : String)
deriving DecidableEq, Repr

def DaemonError.str : DaemonError → String
  | .daemon msg | .timeout msg | .unavailable msg => msg

/-- What the plugin gets back, and the world it leaves. -/
abbrev RpcSem : Type := World → Request → Except DaemonError Reply → World → Prop

/-- The handler ran to its end, and its reply arrived. -/
inductive Handled (policy : Policy) (env : DaemonEnv) (w : World) (request : Request) :
    Except DaemonError Reply → World → Prop
  | ok {reply w'} : Ends (daemonSem policy) (handle env request) w (.ok reply) w' →
      Handled policy env w request (.ok reply) w'
  | error {err w'} : Ends (daemonSem policy) (handle env request) w (.error err) w' →
      Handled policy env w request (.error (.daemon err.str)) w'

/-- No RPC fails; what happens inside a handler that still replies is open. -/
inductive Served (env : DaemonEnv) (w : World) (request : Request) :
    Except DaemonError Reply → World → Prop
  | mk {reply w'} : Ends (daemonSem anyFault) (handle env request) w (.ok reply) w' →
      Served env w request (.ok reply) w'

/-- Anything can happen to an RPC: it is answered, it never reaches the daemon, or its reply never
    reaches the plugin. -/
inductive Unreliable (env : DaemonEnv) (w : World) (request : Request) :
    Except DaemonError Reply → World → Prop
  | answered {answer w'} : Handled anyFault env w request answer w' →
      Unreliable env w request answer w'
  | undelivered {err} : Unreliable env w request (.error err) w
  | replyLost {answer err w'} : Handled anyFault env w request answer w' →
      Unreliable env w request (.error err) w'

theorem Served.unreliable {env : DaemonEnv} {w w' : World} {request : Request}
    {answer : Except DaemonError Reply} (h : Served env w request answer w') :
    Unreliable env w request answer w' := by
  cases h with
  | mk hends => exact .answered (.ok hends)

/-! ## The calls of the plugin -/

structure Site where
  plugin : PluginDb
  buckets : RateBuckets
  daemon : World

inductive SiteOp where
  /-- A query of a session that has nothing to flush. -/
  | select
  /-- A query that first flushes the writes of its session. -/
  | flush (writes : List Write)
  | commit (writes : List Write)
  /-- `add` and `commit` of a new instance. -/
  | insertInstance (challengeId : Nat) (owner : Owner) (expiresAt : Timestamp)
  | rpc (request : Request)
  | utcnow
  | rateLimit (key : RateKey) (limit window : Int)

@[reducible] def SiteOp.Res : SiteOp → Type
  | .select => PluginDb
  | .flush _ => Except FlushError PluginDb
  | .commit _ => Except FlushError Unit
  | .insertInstance .. => Except FlushError Nat
  | .rpc _ => Except DaemonError Reply
  | .utcnow => Timestamp
  | .rateLimit .. => Except PluginErr (Bool × Int)

@[reducible] def siteEffect : Effect := ⟨SiteOp, SiteOp.Res⟩

/-- A piece of the plugin's code. -/
abbrev Plugin (α : Type) : Type := Prog siteEffect PluginErr α

def select : Plugin PluginDb := @Prog.perform siteEffect PluginErr .select

def callRpc (request : Request) : Plugin (Except DaemonError Reply) :=
  @Prog.perform siteEffect PluginErr (.rpc request)

def utcnow : Plugin Timestamp := @Prog.perform siteEffect PluginErr .utcnow

/-- The result of a flush, whose error nobody catches. -/
def flushed {α : Type} : Except FlushError α → Plugin α
  | .ok value => return value
  | .error err => .raise (.flush err)

def flush (writes : List Write) : Plugin PluginDb := do
  let view ← @Prog.perform siteEffect PluginErr (.flush writes)
  flushed view

def commit (writes : List Write) : Plugin Unit := do
  let done ← @Prog.perform siteEffect PluginErr (.commit writes)
  flushed done

/-- `check_rate_limit(key, limit, window)`. -/
def checkRate (key : RateKey) (limit window : Int) : Plugin (Bool × Int) := do
  let allowed ← @Prog.perform siteEffect PluginErr (.rateLimit key limit window)
  Prog.ofExcept allowed

/-! ## The methods of `EdoDaemonClient`

Each returns the value of the reply; a `DaemonError` is a value here, since every caller catches it.
The `KeyError`s are those of a reply of another shape than the method's handler gives. -/

namespace DaemonClient

def wgEnsurePeer (userId : Int) (owner : Owner) : Plugin (Except DaemonError PeerReply) := do
  let answer ← callRpc (.wgEnsurePeer userId owner)
  match answer with
  | .error err => return .error err
  | .ok (.peer reply) => return .ok reply
  | .ok _ => .raise (.keyError "public_key")

def wgRemovePeer (userId : Int) : Plugin (Except DaemonError Unit) := do
  let answer ← callRpc (.wgRemovePeer userId)
  match answer with
  | .error err => return .error err
  | .ok _ => return .ok ()

def wgRenderConfig (userId : Int) : Plugin (Except DaemonError String) := do
  let answer ← callRpc (.wgRenderConfig userId)
  match answer with
  | .error err => return .error err
  | .ok (.config text) => return .ok text
  | .ok _ => .raise (.typeError "response must be a string")

def containerEnsureInstance (owner : Owner) (challengeRef buildPath : String)
    (security : SecurityProfile) (ttlSeconds : Option Int) (publishPorts : Bool) :
    Plugin (Except DaemonError Instance) := do
  let answer ← callRpc
    (.containerEnsureInstance owner challengeRef buildPath security ttlSeconds publishPorts)
  match answer with
  | .error err => return .error err
  | .ok (.instance_ row) => return .ok row
  | .ok _ => .raise (.keyError "container_id")

def containerReleaseInstance (containerId : ContainerId) : Plugin (Except DaemonError Unit) := do
  let answer ← callRpc (.containerReleaseInstance containerId)
  match answer with
  | .error err => return .error err
  | .ok _ => return .ok ()

def containerReconcile : Plugin (Except DaemonError (List Instance)) := do
  let answer ← callRpc .containerReconcile
  match answer with
  | .error err => return .error err
  | .ok (.reconciled _ rows) => return .ok rows
  | .ok _ => .raise (.keyError "instances")

def killSwitch : Plugin (Except DaemonError Nat) := do
  let answer ← callRpc .killSwitch
  match answer with
  | .error err => return .error err
  | .ok (.containersRemoved count) => return .ok count
  | .ok _ => .raise (.keyError "containers_removed")

end DaemonClient

/-- What a commit leaves of the tables. -/
def PluginDb.commit (db : PluginDb) (writes : List Write) : Except FlushError Unit × PluginDb :=
  match db.applyAll writes with
  | .ok db' => (.ok (), db')
  | .error err => (.error err, db)

def PluginDb.commitInstance (db : PluginDb) (challengeId : Nat) (owner : Owner)
    (expiresAt : Timestamp) : Except FlushError Nat × PluginDb :=
  match db.insertInstance challengeId owner expiresAt with
  | .ok (id, db') => (.ok id, db')
  | .error err => (.error err, db)

/-- The answers of a site, given those of its RPC.  Clocks are arbitrary. -/
def siteSem (rpc : RpcSem) : Sem siteEffect Site
  | s, .select, db, s' => db = s.plugin ∧ s' = s
  | s, .flush writes, view, s' => view = s.plugin.applyAll writes ∧ s' = s
  | s, .commit writes, done, s' =>
    done = (s.plugin.commit writes).1 ∧ s' = { s with plugin := (s.plugin.commit writes).2 }
  | s, .insertInstance challengeId owner expiresAt, id, s' =>
    id = (s.plugin.commitInstance challengeId owner expiresAt).1 ∧
      s' = { s with plugin := (s.plugin.commitInstance challengeId owner expiresAt).2 }
  | s, .rpc request, answer, s' =>
    rpc s.daemon request answer s'.daemon ∧ s' = { s with daemon := s'.daemon }
  | s, .utcnow, _, s' => s' = s
  | s, .rateLimit key limit window, allowed, s' => ∃ now,
    allowed = (checkRateLimit s.buckets key limit window now).1 ∧
      s' = { s with buckets := (checkRateLimit s.buckets key limit window now).2 }

/-! ## Rules for the calls -/

section Rules

variable {rpc : RpcSem} {G : Site → SiteOp → Prop} {α β : Type} {Q : Except PluginErr α → Site → Prop}
  {s : Site}

theorem wp_select {f : PluginDb → Plugin α} (hG : G s .select)
    (h : wp (siteSem rpc) G (f s.plugin) Q s) : wp (siteSem rpc) G (select >>= f) Q s := by
  refine ⟨hG, ?_⟩
  rintro _ _ ⟨rfl, rfl⟩
  exact h

theorem wp_commitLast {writes : List Write} {Q : Except PluginErr Unit → Site → Prop}
    (hG : G s (.commit writes))
    (hok : ∀ db, s.plugin.applyAll writes = .ok db → Q (.ok ()) { s with plugin := db })
    (herror : ∀ err, s.plugin.applyAll writes = .error err → Q (.error (.flush err)) s) :
    wp (siteSem rpc) G (commit writes) Q s := by
  refine ⟨hG, ?_⟩
  rintro _ _ ⟨rfl, rfl⟩
  unfold PluginDb.commit
  cases happly : s.plugin.applyAll writes with
  | ok db => exact hok db happly
  | error err => exact herror err happly

theorem wp_commit {writes : List Write} {f : Unit → Plugin α} (hG : G s (.commit writes))
    (hok : ∀ db, s.plugin.applyAll writes = .ok db →
      wp (siteSem rpc) G (f ()) Q { s with plugin := db })
    (herror : ∀ err, s.plugin.applyAll writes = .error err → Q (.error (.flush err)) s) :
    wp (siteSem rpc) G (commit writes >>= f) Q s :=
  wp_bind.mpr (wp_commitLast hG hok herror)

theorem wp_callRpc {request : Request} {f : Except DaemonError Reply → Plugin α}
    (hG : G s (.rpc request))
    (h : ∀ answer w, rpc s.daemon request answer w →
      wp (siteSem rpc) G (f answer) Q { s with daemon := w }) :
    wp (siteSem rpc) G (callRpc request >>= f) Q s := by
  refine ⟨hG, ?_⟩
  rintro answer s' ⟨hrpc, hs'⟩
  rw [hs']
  exact h answer s'.daemon hrpc

theorem wp_utcnow {f : Timestamp → Plugin α} (hG : G s .utcnow)
    (h : ∀ now, wp (siteSem rpc) G (f now) Q s) : wp (siteSem rpc) G (utcnow >>= f) Q s := by
  refine ⟨hG, ?_⟩
  rintro now _ rfl
  exact h now

end Rules

/-! ## Executable sites -/

/-- What becomes of an RPC. -/
inductive Delivery where
  | answered
  | undelivered (err : DaemonError)
  | replyLost (err : DaemonError)
deriving DecidableEq, Repr

/-- What the outside world decides: the clocks, what becomes of an RPC, and the choices of its
    handler. -/
@[reducible] def SiteOp.Choice : SiteOp → Type
  | .rpc _ => Delivery × ((op : DaemonOp) → op.Choice)
  | .utcnow => Timestamp
  | .rateLimit .. => Rat
  | _ => Unit

def handlerAnswer : Except PyErr Reply → Except DaemonError Reply
  | .ok reply => .ok reply
  | .error err => .error (.daemon err.str)

/-- How an executable site performs an RPC. -/
abbrev RpcExec : Type := World → Request → Delivery → ((op : DaemonOp) → op.Choice) →
  Option (Except DaemonError Reply × World)

/-- The handler runs with fixed choices, whatever becomes of its reply. -/
def execRpc (env : DaemonEnv) : RpcExec
  | w, _, .undelivered err, _ => some (.error err, w)
  | w, request, .answered, pick =>
    (daemonMachine.run pick (handle env request) w).map fun result =>
      (handlerAnswer result.2.1, result.2.2)
  | w, request, .replyLost err, pick =>
    (daemonMachine.run pick (handle env request) w).map fun result => (.error err, result.2.2)

/-- The handler runs with fixed choices and has to succeed. -/
def execServed (env : DaemonEnv) : RpcExec
  | w, request, _, pick =>
    match daemonMachine.run pick (handle env request) w with
    | some (_, .ok reply, w') => some (.ok reply, w')
    | _ => none

/-- The RPC admits whatever an executable site does. -/
def RpcSem.Executes (rpc : RpcSem) (exec : RpcExec) : Prop :=
  ∀ w request delivery pick answer w',
    exec w request delivery pick = some (answer, w') → rpc w request answer w'

def SiteOp.exec (exec : RpcExec) (s : Site) : (op : SiteOp) → op.Choice → Option (op.Res × Site)
  | .select, _ => some (s.plugin, s)
  | .flush writes, _ => some (s.plugin.applyAll writes, s)
  | .commit writes, _ =>
    some ((s.plugin.commit writes).1, { s with plugin := (s.plugin.commit writes).2 })
  | .insertInstance challengeId owner expiresAt, _ =>
    some ((s.plugin.commitInstance challengeId owner expiresAt).1,
      { s with plugin := (s.plugin.commitInstance challengeId owner expiresAt).2 })
  | .rpc request, choice =>
    (exec s.daemon request choice.1 choice.2).map fun result =>
      (result.1, { s with daemon := result.2 })
  | .utcnow, now => some (now, s)
  | .rateLimit key limit window, now =>
    some ((checkRateLimit s.buckets key limit window now).1,
      { s with buckets := (checkRateLimit s.buckets key limit window now).2 })

def siteMachine (exec : RpcExec) : Machine siteEffect Site where
  Choice := SiteOp.Choice
  exec := SiteOp.exec exec

/-- The choices of an uneventful site at one moment. -/
def quietSiteChoice (now : Timestamp) : (op : SiteOp) → op.Choice
  | .select => ()
  | .flush _ => ()
  | .commit _ => ()
  | .insertInstance .. => ()
  | .rpc _ => (.answered, quietChoice)
  | .utcnow => now
  | .rateLimit .. => 0

theorem handled_of_run {policy : Policy} {env : DaemonEnv} {w w' : World} {request : Request}
    {pick : (op : DaemonOp) → op.Choice} {trace : List World} {out : Except PyErr Reply}
    (hpick : ∀ op, policy op (pick op))
    (h : daemonMachine.run pick (handle env request) w = some (trace, out, w')) :
    Handled policy env w request (handlerAnswer out) w' := by
  have hends : Ends (daemonSem policy) (handle env request) w out w' :=
    ⟨trace, Machine.runs_of_run hpick h⟩
  cases out with
  | ok reply => exact .ok hends
  | error err => exact .error hends

theorem executes_unreliable (env : DaemonEnv) : RpcSem.Executes (Unreliable env) (execRpc env) := by
  intro w request delivery pick answer w' h
  cases delivery with
  | undelivered err =>
    cases h
    exact .undelivered
  | answered =>
    obtain ⟨⟨trace, out, last⟩, hrun, heq⟩ := Option.map_eq_some_iff.mp h
    cases heq
    exact .answered (handled_of_run (fun _ => trivial) hrun)
  | replyLost err =>
    obtain ⟨⟨trace, out, last⟩, hrun, heq⟩ := Option.map_eq_some_iff.mp h
    cases heq
    exact .replyLost (handled_of_run (fun _ => trivial) hrun)

theorem executes_served (env : DaemonEnv) : RpcSem.Executes (Served env) (execServed env) := by
  intro w request delivery pick answer w' h
  simp only [execServed] at h
  split at h
  · rename_i trace reply last hrun
    cases h
    exact .mk ⟨trace, Machine.runs_of_run (fun _ => trivial) hrun⟩
  · cases h

/-- What an executable site does is a step of a site whose RPC admits it. -/
theorem siteSem_of_exec {exec : RpcExec} {rpc : RpcSem} {s s' : Site} {op : SiteOp}
    {choice : op.Choice} {res : op.Res} (hrpc : rpc.Executes exec)
    (h : op.exec exec s choice = some (res, s')) : siteSem rpc s op res s' := by
  cases op with
  | select | flush _ | commit _ | insertInstance _ _ _ =>
    cases h
    exact ⟨rfl, rfl⟩
  | rpc request =>
    obtain ⟨⟨answer, w⟩, hexec, heq⟩ := Option.map_eq_some_iff.mp h
    cases heq
    exact ⟨hrpc _ _ _ _ _ _ hexec, rfl⟩
  | utcnow =>
    cases h
    exact rfl
  | rateLimit key limit window =>
    cases h
    exact ⟨choice, rfl, rfl⟩

end EdoPlugin
