import EdoPlugin.RowRemoval
import EdoPlugin.WorkerLease

/-!
# Background jobs at the same time

`_run_with_app` runs the body of a job once its worker has won the lease.  The lease is won for a
fixed time and is not renewed while the body runs, and the body makes an RPC for every row it takes
up; so the lease excludes other workers only from a body that ends in time.  Time is explicit here:
all workers read one clock, and it moves between any two of their calls.
-/

namespace EdoPlugin

open Interaction

/-! ## Jobs -/

inductive BackgroundJob where
  | ttlSweep
  | reconcile
deriving DecidableEq, Repr

/-- The function that `start_scheduler` passes to `_run_with_app`. -/
def BackgroundJob.fn : BackgroundJob → Plugin Unit
  | .ttlSweep => Scheduler.sweepExpired
  | .reconcile => Scheduler.reconcile

/-- A worker whose job runs every `interval` seconds passes three intervals as `lease_seconds`. -/
def leaseWorker (id : String) (interval : Int) : LeaseWorker := ⟨id, interval * 3⟩

inductive JobOp where
  /-- The clock. -/
  | pass
  | lease (worker : String) (op : LeaseOp)
  /-- `fn()` begins. -/
  | enter (worker : String)
  /-- `fn()` has returned or raised. -/
  | leave (worker : String)
  | body (worker : String) (op : SiteOp)

@[reducible] def JobOp.Res : JobOp → Type
  | .pass => Unit
  | .lease _ op => op.Res
  | .enter _ => Unit
  | .leave _ => Unit
  | .body _ op => op.Res

@[reducible] def jobEffect : Effect := ⟨JobOp, JobOp.Res⟩

abbrev Job (α : Type) : Type := Prog jobEffect Empty α

/-- `_try_acquire_lease` for the lock of the job. -/
def acquire (worker : LeaseWorker) : Job Bool :=
  @Prog.within leaseEffect jobEffect Empty Empty Bool (fun op => .lease worker.id op)
    (fun _ res => res) Empty.elim (tryAcquireLease worker)

/-- `fn()`, with what it raises logged. -/
def runBody (worker : LeaseWorker) (fn : Plugin Unit) : Job Unit :=
  @Prog.within siteEffect jobEffect PluginErr Empty Unit (fun op => .body worker.id op)
    (fun _ res => res) (fun _ => .ret ()) fn

/-- `_run_with_app` -/
def runJob (worker : LeaseWorker) (fn : Plugin Unit) : Job Unit := do
  let won ← acquire worker
  if won then
    @Prog.perform jobEffect Empty (.enter worker.id)
    runBody worker fn
    @Prog.perform jobEffect Empty (.leave worker.id)
  else return ()

/-- The ticks of the job in a worker's scheduler, one after the other (`max_instances=1`). -/
def runJobs (worker : LeaseWorker) (fn : Plugin Unit) : Nat → Job Unit
  | 0 => return ()
  | ticks + 1 => do
    runJob worker fn
    runJobs worker fn ticks

/-- Time passes so many times. -/
def passTime : Nat → Job Unit
  | 0 => return ()
  | times + 1 => do
    @Prog.perform jobEffect Empty .pass
    passTime times

/-! ## Time -/

/-- The time, and when each worker made its last call. -/
structure JobWorld where
  now : Timestamp
  since : String → Timestamp
  leases : LeaseWorld
  site : Site

namespace JobWorld

def called (w : JobWorld) (worker : String) : JobWorld :=
  { w with since := Function.update w.since worker w.now }

end JobWorld

/-- All clocks show the time. -/
def LeaseOp.choiceAt (now : Timestamp) : (op : LeaseOp) → op.Choice
  | .utcnow _ => now
  | .update _ | .first | .insert _ | .tick _ _ => ()

/-- A call of the body: an RPC is answered, or has timed out, within the timeout. -/
def bodySem (rpc : RpcSem) (timeout : Int) (w : JobWorld) (worker : String) :
    (op : SiteOp) → op.Res → Site → Prop
  | .utcnow, now, site => now = w.now ∧ site = w.site
  | .rpc request, answer, site => w.now ≤ w.since worker + timedelta timeout ∧
      siteSem rpc w.site (.rpc request) answer site
  | op, res, site => siteSem rpc w.site op res site

/-- While time passes, everything else at the site may happen: requests, the other job. -/
def jobSem (rpc : RpcSem) (timeout : Int) : Sem jobEffect JobWorld
  | w, .pass, _, w' => ∃ later site, w.now ≤ later ∧ w' = { w with now := later, site := site }
  | w, .lease worker op, res, w' => ∃ leases, op.exec w.leases (op.choiceAt w.now) = some (res, leases) ∧
      w' = { w.called worker with leases := leases }
  | w, .enter worker, _, w' => w' = w.called worker
  | w, .leave worker, _, w' => w' = w.called worker
  | w, .body worker op, res, w' => ∃ site, bodySem rpc timeout w worker op res site ∧
      w' = { w.called worker with site := site }

/-! ## How far a worker has come -/

inductive JobStage where
  | idle
  /-- It has read its clock. -/
  | read (now : Timestamp)
  /-- It has won this lease, and is about to run the body. -/
  | won (row : EdoWorkerLease)
  | inside (row : EdoWorkerLease)
deriving DecidableEq, Repr

namespace JobStage

/-- The lease of the tick that is under way. -/
def lease : JobStage → Option EdoWorkerLease
  | .won row | .inside row => some row
  | .idle | .read _ => none

end JobStage

inductive JobPhase where
  | clock
  | worker (self : LeaseWorker) (stage : JobStage)
deriving DecidableEq, Repr

namespace JobPhase

def nextStage (stage : JobStage) : (op : JobOp) → op.Res → JobStage
  | .lease _ (.utcnow _), now => .read now
  | .lease _ (.update row), true | .lease _ (.insert row), true => .won row
  | .enter _, _ => match stage with
    | .won row => .inside row
    | stage => stage
  | .leave _, _ => .idle
  | _, _ => stage

def next : JobPhase → (op : JobOp) → op.Res → JobPhase
  | .clock, _, _ => .clock
  | .worker self stage, op, res => .worker self (nextStage stage op res)

def admits : JobPhase → JobOp → Prop
  | .clock, op => op = .pass
  | .worker _ _, .pass => False
  | .worker self stage, .lease id op => id = self.id ∧ match op with
    | .utcnow _ => stage.lease = none
    | .update row | .insert row => ∃ now, stage = .read now ∧ row = self.lease now
    | .first => True
    | .tick _ _ => False
  | .worker self stage, .enter id => id = self.id ∧ ∃ row, stage = .won row
  | .worker self stage, .leave id | .worker self stage, .body id _ =>
    id = self.id ∧ ∃ row, stage = .inside row

end JobPhase

abbrev JobFollows {α : Type} (p : Job α) (P : α → JobPhase → Prop) (phase : JobPhase) : Prop :=
  Conforms (E := jobEffect) (fun _ _ _ => True) JobPhase.admits JobPhase.next p (returning P) phase

section Conformance

variable {worker : LeaseWorker} {stage : JobStage} {fn : Plugin Unit}

/-- Between two ticks. -/
def Resting (worker : LeaseWorker) (phase : JobPhase) : Prop :=
  ∃ stage, phase = .worker worker stage ∧ stage.lease = none

theorem follows_acquire (hstage : stage.lease = none) : JobFollows (acquire worker)
    (fun won phase => (won = true → ∃ row, phase = .worker worker (.won row)) ∧
      (won = false → Resting worker phase)) (.worker worker stage) := by
  refine Conforms.call ⟨rfl, hstage⟩ fun now _ => ?_
  refine Conforms.call ⟨rfl, now, rfl, rfl⟩ fun matched _ => ?_
  cases matched with
  | true => exact ⟨fun _ => ⟨_, rfl⟩, fun h => by cases h⟩
  | false =>
    refine Conforms.call ⟨rfl, trivial⟩ fun existing _ => ?_
    cases existing with
    | some row => exact ⟨fun h => (by cases h), fun _ => ⟨_, rfl, rfl⟩⟩
    | none =>
      refine Conforms.call ⟨rfl, now, rfl, rfl⟩ fun inserted _ => ?_
      cases inserted with
      | true => exact ⟨fun _ => ⟨_, rfl⟩, fun h => by cases h⟩
      | false => exact ⟨fun h => (by cases h), fun _ => ⟨_, rfl, rfl⟩⟩

theorem follows_runBody {row : EdoWorkerLease} : JobFollows (runBody worker fn)
    (fun _ phase => phase = .worker worker (.inside row)) (.worker worker (.inside row)) := by
  have hbody : CallsOnly (fun op => ∃ call, op = JobOp.body worker.id call) (runBody worker fn) :=
    CallsOnly.within (fun op => ⟨op, rfl⟩) (fun _ => .ret) fn
  apply Conforms.of_callsOnly hbody
  · rintro _ ⟨call, rfl⟩
    exact ⟨rfl, row, rfl⟩
  · rintro _ res ⟨call, rfl⟩
    rfl

theorem follows_runJob (hstage : stage.lease = none) :
    JobFollows (runJob worker fn) (fun _ phase => Resting worker phase) (.worker worker stage) := by
  apply Conforms.bind (follows_acquire hstage)
  rintro won phase ⟨hwon, hlost⟩
  cases won with
  | false => exact hlost rfl
  | true =>
    obtain ⟨row, rfl⟩ := hwon rfl
    refine Conforms.perform ⟨rfl, row, rfl⟩ fun _ _ => ?_
    have hbody : JobFollows (runBody worker fn) (fun _ phase => phase = .worker worker (.inside row))
        (.worker worker (.inside row)) := follows_runBody
    apply Conforms.bind hbody
    rintro _ _ rfl
    exact Conforms.call ⟨rfl, row, rfl⟩ fun _ _ => ⟨_, rfl, rfl⟩

theorem follows_runJobs {ticks : Nat} (hstage : stage.lease = none) :
    JobFollows (runJobs worker fn ticks) (fun _ _ => True) (.worker worker stage) := by
  induction ticks generalizing stage with
  | zero => exact trivial
  | succ ticks ih =>
    apply Conforms.bind (follows_runJob hstage)
    rintro _ _ ⟨rested, rfl, hrested⟩
    exact ih hrested

theorem follows_passTime {times : Nat} :
    JobFollows (passTime times) (fun _ _ => True) .clock := by
  induction times with
  | zero => exact trivial
  | succ times ih => exact Conforms.perform rfl fun _ _ => ih

end Conformance

/-! ## The invariant -/

/-- The worker of a thread, and how far it has come. -/
def At (phases : List JobPhase) (i : Nat) (worker : LeaseWorker) (stage : JobStage) : Prop :=
  phases[i]? = some (.worker worker stage)

/-- No worker that has won the tick's lease is still at work when that lease has ended. -/
def WithinLease (w : JobWorld) (phases : List JobPhase) (_ : Event jobEffect) : Prop :=
  ∀ i worker stage row, At phases i worker stage → stage.lease = some row → w.now ≤ row.expiresAt

structure JobsExclude (w : JobWorld) (phases : List JobPhase) : Prop where
  ids : ∀ i j a b stage stage', At phases i a stage → At phases j b stage' → a.id = b.id → i = j
  reads : ∀ i worker now, At phases i worker (.read now) → now ≤ w.now
  /-- A lease is the row's until it has ended. -/
  held : ∀ i worker stage row, At phases i worker stage → stage.lease = some row →
    row.holder = worker.id ∧ (w.leases.lease = some row ∨ row.expiresAt < w.now)
  alone : ∀ i j a b row row', At phases i a (.inside row) → At phases j b (.inside row') → i = j

section Steps

variable {rpc : RpcSem} {timeout : Int} {w w' : JobWorld} {phases : List JobPhase} {tid : Nat}
  {worker : LeaseWorker} {stage stage' : JobStage}

theorem at_set_iff (hget : At phases tid worker stage) {i : Nat} {other : LeaseWorker}
    {otherStage : JobStage} : At (phases.set tid (.worker worker stage')) i other otherStage ↔
      (i = tid ∧ other = worker ∧ otherStage = stage') ∨ (i ≠ tid ∧ At phases i other otherStage) := by
  unfold At at *
  rw [getElem?_set_iff hget, JobPhase.worker.injEq]

/-- A step of a worker, by what it needs: what was read is past, a lease that was won stays the
    row's until it ends, and it enters the body alone. -/
theorem JobsExclude.set (h : JobsExclude w phases) (hget : At phases tid worker stage)
    (hnow : w'.now = w.now) (hread : ∀ now, stage' = .read now → now ≤ w.now)
    (hheld : ∀ row, stage'.lease = some row →
      row.holder = worker.id ∧ (w'.leases.lease = some row ∨ row.expiresAt < w.now))
    (hothers : ∀ i other otherStage row, i ≠ tid → At phases i other otherStage →
      otherStage.lease = some row → w.leases.lease = some row →
      w'.leases.lease = some row ∨ row.expiresAt < w.now)
    (halone : ∀ i other row row', i ≠ tid → stage' = .inside row →
      ¬ At phases i other (.inside row')) :
    JobsExclude w' (phases.set tid (.worker worker stage')) := by
  constructor
  case ids =>
    intro i j a b stageA stageB hi hj hid
    rcases (at_set_iff hget).mp hi with ⟨rfl, rfl, rfl⟩ | ⟨-, hi'⟩
    · rcases (at_set_iff hget).mp hj with ⟨rfl, -, -⟩ | ⟨-, hj'⟩
      · rfl
      · exact h.ids _ _ _ _ _ _ hget hj' hid
    · rcases (at_set_iff hget).mp hj with ⟨rfl, rfl, rfl⟩ | ⟨-, hj'⟩
      · exact h.ids _ _ _ _ _ _ hi' hget hid
      · exact h.ids _ _ _ _ _ _ hi' hj' hid
  case reads =>
    intro i other now hi
    rw [hnow]
    rcases (at_set_iff hget).mp hi with ⟨rfl, rfl, hstage⟩ | ⟨-, hi⟩
    · exact hread now hstage.symm
    · exact h.reads i other now hi
  case held =>
    intro i other otherStage row hi hrow
    rw [hnow]
    rcases (at_set_iff hget).mp hi with ⟨rfl, rfl, rfl⟩ | ⟨hne, hi⟩
    · exact hheld row hrow
    · obtain ⟨hholder, hlease | hended⟩ := h.held i other otherStage row hi hrow
      · exact ⟨hholder, hothers i other otherStage row hne hi hrow hlease⟩
      · exact ⟨hholder, Or.inr hended⟩
  case alone =>
    intro i j a b row row' hi hj
    rcases (at_set_iff hget).mp hi with ⟨rfl, rfl, hstage⟩ | ⟨hne, hi'⟩
    · rcases (at_set_iff hget).mp hj with ⟨rfl, -, -⟩ | ⟨hne, hj'⟩
      · rfl
      · exact absurd hj' (halone j b row row' hne hstage.symm)
    · rcases (at_set_iff hget).mp hj with ⟨rfl, rfl, hstage⟩ | ⟨-, hj'⟩
      · exact absurd hi' (halone i a row' row hne hstage.symm)
      · exact h.alone _ _ _ _ _ _ hi' hj'

/-- A step of a worker that leaves the row alone and does not enter the body. -/
theorem JobsExclude.unchanged (h : JobsExclude w phases) (hget : At phases tid worker stage)
    (hnow : w'.now = w.now) (hlease : w'.leases.lease = w.leases.lease)
    (hread : ∀ now, stage' = .read now → now ≤ w.now)
    (hstage : ∀ row, stage'.lease = some row → stage' = stage) :
    JobsExclude w' (phases.set tid (.worker worker stage')) := by
  apply h.set hget hnow hread
  · intro row hrow
    rw [hlease]
    rw [hstage row hrow] at hrow
    exact h.held tid worker stage row hget hrow
  · intro i other otherStage row _ _ _ hcurrent
    rw [hlease]
    exact Or.inl hcurrent
  · intro i other row row' hne hinside hi
    rw [hstage row (by rw [hinside]; rfl)] at hinside
    rw [hinside] at hget
    exact hne (h.alone _ _ _ _ _ _ hi hget)

/-- A grant: the row was its own, or had ended when it read its clock. -/
theorem JobsExclude.grant (h : JobsExclude w phases) {now : Timestamp}
    (hget : At phases tid worker (.read now)) (hnow : w'.now = w.now)
    (hlease : w'.leases.lease = some (worker.lease now))
    (havailable : ∀ current, w.leases.lease = some current →
      LeaseWorld.available current (worker.lease now) = true) :
    JobsExclude w' (phases.set tid (.worker worker (.won (worker.lease now)))) := by
  apply h.set hget hnow
  · intro _ hread
    cases hread
  · rintro _ ⟨⟩
    exact ⟨rfl, Or.inl hlease⟩
  · intro i other otherStage row hne hi hrow hcurrent
    rcases of_decide_eq_true (havailable row hcurrent) with hended | hsame
    · exact Or.inr (Int.lt_of_lt_of_le hended (h.reads tid worker now hget))
    · obtain ⟨hholder, -⟩ := h.held i other otherStage row hi hrow
      exact absurd (h.ids _ _ _ _ _ _ hi hget (hholder.symm.trans hsame)) hne
  · intro i other row row' _ hinside
    cases hinside

/-- **A worker enters the body alone** when nobody's lease has ended under its work. -/
theorem JobsExclude.enter (h : JobsExclude w phases) {row : EdoWorkerLease}
    (hget : At phases tid worker (.won row)) (hwithin : ∀ i other stage row,
      At phases i other stage → stage.lease = some row → w.now ≤ row.expiresAt) {id : String} :
    JobsExclude (w.called id) (phases.set tid (.worker worker (.inside row))) := by
  have hcurrent : ∀ {i other otherStage row}, At phases i other otherStage →
      otherStage.lease = some row → row.holder = other.id ∧ w.leases.lease = some row := by
    intro i other otherStage row hi hrow
    obtain ⟨hholder, hlease | hended⟩ := h.held i other otherStage row hi hrow
    · exact ⟨hholder, hlease⟩
    · exact absurd (hwithin i other otherStage row hi hrow) (Int.not_le.mpr hended)
  obtain ⟨hholder, hlease⟩ := hcurrent hget rfl
  have hnow : (w.called id).now = w.now := rfl
  apply h.set hget hnow
  · intro _ hread
    cases hread
  · rintro _ ⟨⟩
    exact ⟨hholder, Or.inl hlease⟩
  · exact fun _ _ _ _ _ _ _ hrow => Or.inl hrow
  · intro i other _ row' hne _ hi
    obtain ⟨hholder', hlease'⟩ := hcurrent hi rfl
    rw [hlease, Option.some.injEq] at hlease'
    rw [← hlease', hholder] at hholder'
    exact hne (h.ids _ _ _ _ _ _ hi hget hholder'.symm)

/-- Time passes. -/
theorem JobsExclude.pass (h : JobsExclude w phases) {later : Timestamp} {site : Site}
    (hlater : w.now ≤ later) : JobsExclude { w with now := later, site := site } phases := by
  constructor
  · exact h.ids
  · exact fun i worker now hi => (h.reads i worker now hi).trans hlater
  · intro i worker stage row hi hrow
    obtain ⟨hholder, hlease | hended⟩ := h.held i worker stage row hi hrow
    · exact ⟨hholder, Or.inl hlease⟩
    · exact ⟨hholder, Or.inr (Int.lt_of_lt_of_le hended hlater)⟩
  · exact h.alone

theorem JobsExclude.lease (h : JobsExclude w phases) (hget : At phases tid worker stage)
    {op : LeaseOp} {res : op.Res} {leases : LeaseWorld} {id : String}
    (hadmits : JobPhase.admits (.worker worker stage) (.lease id op))
    (hexec : op.exec w.leases (op.choiceAt w.now) = some (res, leases)) :
    JobsExclude { w.called id with leases := leases }
      (phases.set tid (.worker worker (JobPhase.nextStage stage (.lease id op) res))) := by
  have hsame : JobsExclude (w.called id) (phases.set tid (.worker worker stage)) :=
    h.unchanged hget rfl rfl
      (fun now hread => h.reads tid worker now (hread ▸ hget)) fun _ _ => rfl
  obtain ⟨-, hadmits⟩ := hadmits
  cases op with
  | utcnow clock =>
    simp only [LeaseOp.exec] at hexec
    split at hexec
    · cases hexec
      apply h.unchanged hget
      · rfl
      · rfl
      · rintro now ⟨⟩
        exact Int.le_refl w.now
      · intro row hrow
        cases hrow
    · cases hexec
  | update row =>
    obtain ⟨now, rfl, rfl⟩ := hadmits
    simp only [LeaseOp.exec] at hexec
    split at hexec
    · cases hexec
      exact hsame
    · rename_i current hcurrent
      split at hexec
      · rename_i havailable
        cases hexec
        apply h.grant hget
        · rfl
        · rfl
        · intro other hother
          cases hcurrent.symm.trans hother
          exact havailable
      · cases hexec
        exact hsame
  | first =>
    cases hexec
    exact hsame
  | insert row =>
    obtain ⟨now, rfl, rfl⟩ := hadmits
    simp only [LeaseOp.exec] at hexec
    split at hexec
    · rename_i hnone
      cases hexec
      apply h.grant hget
      · rfl
      · rfl
      · intro other hother
        cases hnone.symm.trans hother
    · cases hexec
      exact hsame
  | tick _ _ => exact hadmits.elim

/-- **Every call keeps the bodies apart.** -/
theorem JobsExclude.step (h : JobsExclude w phases) {phase : JobPhase} {op : JobOp} {res : op.Res}
    (hget : phases[tid]? = some phase) (hadmits : phase.admits op) (hsem : jobSem rpc timeout w op res w')
    (hwithin : WithinLease w phases ⟨tid, op, res⟩) :
    JobsExclude w' (phases.set tid (phase.next op res)) := by
  cases phase with
  | clock =>
    cases hadmits
    obtain ⟨later, site, hlater, rfl⟩ := hsem
    have hset : phases.set tid JobPhase.clock = phases := by
      obtain ⟨hlt, hphase⟩ := List.getElem?_eq_some_iff.mp hget
      rw [← hphase, List.set_getElem_self]
    simp only [JobPhase.next, hset]
    exact h.pass hlater
  | worker self stage =>
    cases op with
    | pass => exact hadmits.elim
    | lease id op =>
      obtain ⟨leases, hexec, rfl⟩ := hsem
      exact h.lease hget hadmits hexec
    | enter id =>
      obtain ⟨-, row, rfl⟩ := hadmits
      cases hsem
      exact h.enter hget hwithin
    | leave id =>
      obtain ⟨-, row, rfl⟩ := hadmits
      cases hsem
      apply h.unchanged hget
      · rfl
      · rfl
      · intro _ hread
        cases hread
      · intro _ hrow
        cases hrow
    | body id op =>
      obtain ⟨-, row, rfl⟩ := hadmits
      obtain ⟨site, -, rfl⟩ := hsem
      apply h.unchanged hget
      · rfl
      · rfl
      · intro _ hread
        cases hread
      · intro _ _
        rfl

end Steps

/-! ## Exclusive bodies -/

abbrev JobConfig := Config jobEffect Empty JobPhase JobWorld

/-- The schedulers of the workers, each with its id, its interval and so many ticks, and the clock. -/
def startSchedulers (job : BackgroundJob) (workers : List (String × Int × Nat)) (times : Nat)
    (start : Option EdoWorkerLease) (site : Site) (now : Timestamp) : JobConfig :=
  ⟨⟨now, fun _ => now, ⟨start, fun _ => now, [], [], fun _ => false⟩, site⟩,
    ⟨.clock, passTime times⟩ :: workers.map fun entry =>
      ⟨.worker (leaseWorker entry.1 entry.2.1) .idle,
        runJobs (leaseWorker entry.1 entry.2.1) job.fn entry.2.2⟩⟩

/-- Two workers are inside the body. -/
def Overlap (c : JobConfig) : Prop :=
  ∃ i j a b row row', a.id ≠ b.id ∧ At c.phases i a (.inside row) ∧ At c.phases j b (.inside row')

theorem at_startSchedulers {job : BackgroundJob} {workers : List (String × Int × Nat)} {times : Nat}
    {start : Option EdoWorkerLease} {site : Site} {now : Timestamp} {i : Nat} {worker : LeaseWorker}
    {stage : JobStage}
    (h : At (startSchedulers job workers times start site now).phases i worker stage) :
    stage = .idle ∧ ∃ k, i = k + 1 ∧ (workers.map Prod.fst)[k]? = some worker.id := by
  cases i with
  | zero => cases h
  | succ k =>
    simp only [At, Config.phases, startSchedulers, List.map_cons, List.map_map,
      List.getElem?_cons_succ, List.getElem?_map, Option.map_eq_some_iff, Function.comp_apply] at h
    obtain ⟨entry, hentry, hphase⟩ := h
    cases hphase
    refine ⟨rfl, k, rfl, ?_⟩
    rw [List.getElem?_map, hentry]
    rfl

/-- **Jobs do not overlap** in any run in which every worker ends its tick within the lease it has
    won for it, whatever the number of workers, their intervals, the daemon's answers and the times
    at which anything happens. -/
theorem jobs_never_overlap (rpc : RpcSem) (timeout : Int) (job : BackgroundJob)
    (workers : List (String × Int × Nat)) (times : Nat) (start : Option EdoWorkerLease) (site : Site)
    (now : Timestamp) (c : JobConfig) (hids : (workers.map Prod.fst).Nodup)
    (hreach : Reach (jobSem rpc timeout) JobPhase.next WithinLease
      (startSchedulers job workers times start site now) c) : ¬ Overlap c := by
  have hinit : JobsExclude (startSchedulers job workers times start site now).world
      (startSchedulers job workers times start site now).phases := by
    constructor
    case ids =>
      intro i j a b stage stage' hi hj hid
      obtain ⟨-, k, rfl, ha⟩ := at_startSchedulers hi
      obtain ⟨-, l, rfl, hb⟩ := at_startSchedulers hj
      rw [← hid] at hb
      have hlt := (List.getElem?_eq_some_iff.mp ha).1
      rw [(List.getElem?_inj hlt hids).mp (ha.trans hb.symm)]
    case reads =>
      intro i worker read hi
      cases (at_startSchedulers hi).1
    case held =>
      intro i worker stage row hi hrow
      cases (at_startSchedulers hi).1
      cases hrow
    case alone =>
      intro i j a b row row' hi
      cases (at_startSchedulers hi).1
  have hconf : ∀ thread ∈ (startSchedulers job workers times start site now).threads,
      JobFollows thread.prog (fun _ _ => True) thread.phase := by
    intro thread hthread
    rcases List.mem_cons.mp hthread with rfl | hworker
    · exact follows_passTime
    · obtain ⟨entry, -, rfl⟩ := List.mem_map.mp hworker
      exact follows_runJobs rfl
  have hkeeps : ∀ world phases tid phase op res world', JobsExclude world phases →
      phases[tid]? = some phase → JobPhase.admits phase op → jobSem rpc timeout world op res world' →
      WithinLease world phases ⟨tid, op, res⟩ →
      True ∧ JobsExclude world' (phases.set tid (JobPhase.next phase op res)) :=
    fun _ _ _ _ _ _ _ h hget hadmits hsem hwithin => ⟨trivial, h.step hget hadmits hsem hwithin⟩
  have hend := (reach_invariant hkeeps hconf hinit hreach).1
  rintro ⟨i, j, a, b, row, row', hne, hi, hj⟩
  obtain rfl := hend.alone i j a b row row' hi hj
  rw [At, hi, Option.some.injEq, JobPhase.worker.injEq] at hj
  exact hne (by rw [hj.1])

/-! ## Two workers at one sweep -/

/-- The times the clock shows, and the choices of the calls of a body. -/
@[reducible] def JobOp.Choice : JobOp → Type
  | .pass => Timestamp
  | .body _ op => op.Choice
  | _ => Unit

def JobOp.exec (call : RpcExec) (timeout : Int) (w : JobWorld) :
    (op : JobOp) → op.Choice → Option (op.Res × JobWorld)
  | .pass, later => if w.now ≤ later then some ((), { w with now := later }) else none
  | .lease worker op, _ => (op.exec w.leases (op.choiceAt w.now)).map fun result =>
    (result.1, { w.called worker with leases := result.2 })
  | .enter worker, _ | .leave worker, _ => some ((), w.called worker)
  | .body worker .utcnow, _ => some (w.now, w.called worker)
  | .body worker (.rpc request), choice =>
    if w.now ≤ w.since worker + timedelta timeout then
      (SiteOp.exec call w.site (.rpc request) choice).map fun result =>
        (result.1, { w.called worker with site := result.2 })
    else none
  | .body worker op, choice => (op.exec call w.site choice).map fun result =>
    (result.1, { w.called worker with site := result.2 })

def jobMachine (call : RpcExec) (timeout : Int) : Machine jobEffect JobWorld where
  Choice := JobOp.Choice
  exec := JobOp.exec call timeout

theorem jobSem_of_exec {call : RpcExec} {rpc : RpcSem} {timeout : Int} (hrpc : rpc.Executes call)
    (w : JobWorld) (op : JobOp) (choice : op.Choice) (res : op.Res) (w' : JobWorld)
    (h : op.exec call timeout w choice = some (res, w')) : jobSem rpc timeout w op res w' := by
  cases op with
  | pass =>
    simp only [JobOp.exec] at h
    split at h
    · rename_i hlater
      cases h
      exact ⟨choice, w.site, hlater, rfl⟩
    · cases h
  | lease worker op =>
    obtain ⟨⟨_, leases⟩, hexec, heq⟩ := Option.map_eq_some_iff.mp h
    cases heq
    exact ⟨leases, hexec, rfl⟩
  | enter worker | leave worker =>
    cases h
    exact rfl
  | body worker op =>
    cases op with
    | utcnow =>
      cases h
      exact ⟨w.site, ⟨rfl, rfl⟩, rfl⟩
    | rpc request =>
      simp only [JobOp.exec] at h
      split at h
      · rename_i hdue
        obtain ⟨⟨_, site⟩, hexec, heq⟩ := Option.map_eq_some_iff.mp h
        cases heq
        exact ⟨site, ⟨hdue, siteSem_of_exec hrpc hexec⟩, rfl⟩
      · cases h
    | _ =>
      simp only [JobOp.exec] at h
      obtain ⟨⟨_, site⟩, hexec, heq⟩ := Option.map_eq_some_iff.mp h
      cases heq
      exact ⟨site, siteSem_of_exec hrpc hexec, rfl⟩

/-- The clock moves to so many seconds. -/
def jobChoice (seconds : Int) : (op : JobOp) → op.Choice
  | .pass => timedelta seconds
  | .body _ op => quietSiteChoice 0 op
  | .lease _ _ | .enter _ | .leave _ => ()

def withinLeases (w : JobWorld) (phases : List JobPhase) (_ : Event jobEffect) : Bool :=
  phases.all fun phase => match phase with
    | .worker _ (.won row) | .worker _ (.inside row) => w.now ≤ row.expiresAt
    | _ => true

theorem withinLease_of_withinLeases {w : JobWorld} {phases : List JobPhase} {event : Event jobEffect}
    (h : withinLeases w phases event = true) : WithinLease w phases event := by
  intro i worker stage row hi hrow
  have hthis := List.all_eq_true.mp h _ (List.mem_of_getElem? hi)
  cases stage with
  | idle | read _ => cases hrow
  | won other | inside other =>
    cases hrow
    exact of_decide_eq_true hthis

/-- Two workers sweep an instance whose time is over, each once, in blocks of calls: thread, number
    of calls, and the clock's next reading. -/
def sweepsTwice (check : JobWorld → List JobPhase → Event jobEffect → Bool)
    (blocks : List (Nat × Nat × Int)) : Option JobConfig :=
  (siteHistory (execQuiet DaemonEnv.default) sameContent (fun _ _ => true) [spawns] freshSite).bind
    fun site => (jobMachine (execRpc DaemonEnv.default) 180).runChecked JobPhase.next check
      (blocks.flatMap fun block => List.replicate block.2.1 (block.1, jobChoice block.2.2))
      (startSchedulers .ttlSweep [("17-a", 15, 1), ("18-b", 15, 1)] 2 none site (timedelta 3600))

theorem reach_sweepsTwice {check : JobWorld → List JobPhase → Event jobEffect → Bool}
    {blocks : List (Nat × Nat × Int)} {c : JobConfig} (h : sweepsTwice check blocks = some c) :
    ∃ site, Reach (jobSem (Unreliable DaemonEnv.default) 180) JobPhase.next
      (fun w phases event => check w phases event = true)
      (startSchedulers .ttlSweep [("17-a", 15, 1), ("18-b", 15, 1)] 2 none site (timedelta 3600)) c := by
  obtain ⟨site, -, hrun⟩ := Option.bind_eq_some_iff.mp h
  exact ⟨site, Machine.reach_of_runChecked (jobSem_of_exec (executes_unreliable _)) hrun⟩

/-- Who is inside the body. -/
def JobPhase.bodyOf : JobPhase → Option String
  | .worker self (.inside _) => some self.id
  | _ => none

theorem at_of_bodyOf {c : JobConfig} {ids : List (Option String)} {i : Nat} {id : String}
    (h : c.phases.map JobPhase.bodyOf = ids) (hi : ids[i]? = some (some id)) :
    ∃ worker row, worker.id = id ∧ At c.phases i worker (.inside row) := by
  rw [← h, List.getElem?_map] at hi
  obtain ⟨phase, hphase, hbody⟩ := Option.map_eq_some_iff.mp hi
  cases phase with
  | clock => cases hbody
  | worker self stage =>
    cases stage with
    | inside row =>
      cases hbody
      exact ⟨self, row, rfl, hphase⟩
    | idle | read _ | won _ => cases hbody

/-- The first sweep is over after ten seconds; the second worker takes over after the lease. -/
def sweepsInTurn : List (Nat × Nat × Int) := [(1, 7, 0), (0, 1, 3610), (1, 3, 0), (0, 1, 3650), (2, 3, 0)]

theorem sweepsTwice_inTurn : (sweepsTwice withinLeases sweepsInTurn).any (fun c =>
    decide (c.phases.map JobPhase.bodyOf = [none, none, some "18-b"])) = true := by
  decide +kernel

theorem jobs_never_overlap_inTurn : ∃ c, sweepsTwice withinLeases sweepsInTurn = some c ∧
    c.phases.map JobPhase.bodyOf = [none, none, some "18-b"] ∧ ¬ Overlap c := by
  obtain ⟨c, hrun, hinside⟩ := (Option.any_eq_true _ _).mp sweepsTwice_inTurn
  obtain ⟨site, hreach⟩ := reach_sweepsTwice hrun
  refine ⟨c, hrun, of_decide_eq_true hinside, ?_⟩
  exact jobs_never_overlap (Unreliable DaemonEnv.default) 180 .ttlSweep
    [("17-a", 15, 1), ("18-b", 15, 1)] 2 none site (timedelta 3600) c (by decide)
    (hreach.mono fun _ _ _ => withinLease_of_withinLeases)

/-- The first worker's release takes a minute; its lease is one of 45 seconds. -/
def slowRelease : List (Nat × Nat × Int) :=
  [(1, 7, 0), (0, 1, 3646), (2, 3, 0), (0, 1, 3660), (1, 1, 0)]

theorem sweepsTwice_slowRelease : (sweepsTwice (fun _ _ _ => true) slowRelease).any (fun c =>
    decide (c.phases.map JobPhase.bodyOf = [none, some "17-a", some "18-b"])) = true := by
  decide +kernel

/-- Two workers are inside the sweep. -/
theorem not_jobs_never_overlap :
    ¬ ∀ (env : DaemonEnv) (timeout : Int) (job : BackgroundJob) (workers : List (String × Int × Nat))
      (times : Nat) (start : Option EdoWorkerLease) (site : Site) (now : Timestamp) (c : JobConfig),
      (workers.map Prod.fst).Nodup →
      Reach (jobSem (Unreliable env) timeout) JobPhase.next (fun _ _ _ => True)
        (startSchedulers job workers times start site now) c → ¬ Overlap c := by
  intro hall
  obtain ⟨c, hrun, hinside⟩ := (Option.any_eq_true _ _).mp sweepsTwice_slowRelease
  obtain ⟨site, hreach⟩ := reach_sweepsTwice hrun
  obtain ⟨a, row, ha, hinsideA⟩ := @at_of_bodyOf c _ 1 "17-a" (of_decide_eq_true hinside) rfl
  obtain ⟨b, row', hb, hinsideB⟩ := @at_of_bodyOf c _ 2 "18-b" (of_decide_eq_true hinside) rfl
  apply hall DaemonEnv.default 180 .ttlSweep [("17-a", 15, 1), ("18-b", 15, 1)] 2 none site
    (timedelta 3600) c (by decide) (hreach.mono fun _ _ _ _ => trivial)
  refine ⟨1, 2, a, b, row, row', ?_, hinsideA, hinsideB⟩
  rw [ha, hb]
  decide

end EdoPlugin
