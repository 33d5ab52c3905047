import EdoPlugin.Interleaving
import EdoPlugin.PluginModels

/-!
# The lease of a background job

`_try_acquire_lease` of `scheduler.py`, for one lock.  Every worker reads its clock, tries a
conditional `UPDATE` that renews its own lease or takes over an expired one, and falls back to an
`INSERT` if the row does not exist.  The `UPDATE` may come long after the clock was read.  What makes
the lease exclusive is that the current row never ends before a lease granted to its holder.
-/

namespace EdoPlugin

open Interaction

/-! ## Workers and statements -/

/-- A row of `EdoWorkerLease`; its `lock_name` is the one all statements name. -/
structure EdoWorkerLease where
  holder : String
  expiresAt : Timestamp
  updatedAt : Timestamp
deriving DecidableEq, Repr

/-- `_WORKER_ID`, and the `lease_seconds` its job passes at every tick. -/
structure LeaseWorker where
  id : String
  leaseSeconds : Int
deriving DecidableEq, Repr

/-- The row a worker asks for at `now`. -/
def LeaseWorker.lease (worker : LeaseWorker) (now : Timestamp) : EdoWorkerLease :=
  ⟨worker.id, now + timedelta (max worker.leaseSeconds 10), now⟩

inductive LeaseOp where
  | utcnow (worker : String)
  /-- The conditional `UPDATE` and its commit; `updated_at` is the `now` of its condition. -/
  | update (row : EdoWorkerLease)
  /-- `filter_by(lock_name=lock_name).first()` -/
  | first
  /-- The `INSERT` and its commit, under the primary key. -/
  | insert (row : EdoWorkerLease)
  /-- What `_run_with_app` does with the answer. -/
  | tick (worker : String) (won : Bool)
deriving DecidableEq, Repr

@[reducible] def LeaseOp.Res : LeaseOp → Type
  | .utcnow _ => Timestamp
  | .update _ => Bool
  | .first => Option EdoWorkerLease
  | .insert _ => Bool
  | .tick _ _ => Unit

@[reducible] def leaseEffect : Effect := ⟨LeaseOp, LeaseOp.Res⟩

abbrev Lease (α : Type) : Type := Prog leaseEffect Empty α

def tryAcquireLease (worker : LeaseWorker) : Lease Bool := do
  let now ← @Prog.perform leaseEffect Empty (.utcnow worker.id)
  let matched ← @Prog.perform leaseEffect Empty (.update (worker.lease now))
  if matched then return true
  else
    let existing ← @Prog.perform leaseEffect Empty .first
    if existing.isSome then return false
    else @Prog.perform leaseEffect Empty (.insert (worker.lease now))

def runWithApp (worker : LeaseWorker) : Lease Unit := do
  let won ← tryAcquireLease worker
  @Prog.perform leaseEffect Empty (.tick worker.id won)

/-- The ticks of a worker's scheduler, one after the other. -/
def runTicks (worker : LeaseWorker) : Nat → Lease Unit
  | 0 => return ()
  | ticks + 1 => do
    runWithApp worker
    runTicks worker ticks

/-! ## The table, and what is recorded about it -/

/-- A committed grant. -/
structure Grant where
  row : EdoWorkerLease
  brandNew : Bool
deriving DecidableEq, Repr

/-- A call that has returned: its answer, and whether one of its statements changed the row. -/
structure Tick where
  worker : String
  won : Bool
  changed : Bool
deriving DecidableEq, Repr

/-- The row, with a history: the last reading of every clock, the grants, the calls that have
    returned, and whether the current call of a worker has changed the row. -/
structure LeaseWorld where
  lease : Option EdoWorkerLease
  clocks : String → Timestamp
  grants : List Grant
  ticks : List Tick
  changed : String → Bool

namespace LeaseWorld

/-- `expires_at < now OR holder = _WORKER_ID` -/
def available (current row : EdoWorkerLease) : Bool :=
  current.expiresAt < row.updatedAt ∨ current.holder = row.holder

/-- A statement of the row's worker writes the row. -/
def grant (w : LeaseWorld) (row : EdoWorkerLease) (brandNew : Bool) : LeaseWorld :=
  { w with
    lease := some row
    grants := w.grants ++ [⟨row, brandNew⟩]
    changed := Function.update w.changed row.holder
      (w.changed row.holder || decide (w.lease ≠ some row)) }

end LeaseWorld

@[reducible] def LeaseOp.Choice : LeaseOp → Type
  | .utcnow _ => Timestamp
  | _ => Unit

/-- A clock answers with any reading that is not before its last one. -/
def LeaseOp.exec (w : LeaseWorld) : (op : LeaseOp) → op.Choice → Option (op.Res × LeaseWorld)
  | .utcnow worker, now =>
    if w.clocks worker ≤ now then
      some (now, { w with clocks := Function.update w.clocks worker now })
    else none
  | .update row, _ =>
    match w.lease with
    | none => some (false, w)
    | some current =>
      if LeaseWorld.available current row then some (true, w.grant row false) else some (false, w)
  | .first, _ => some (w.lease, w)
  | .insert row, _ =>
    match w.lease with
    | none => some (true, w.grant row true)
    | some _ => some (false, w)
  | .tick worker won, _ => some ((), { w with
      ticks := w.ticks ++ [⟨worker, won, w.changed worker⟩]
      changed := Function.update w.changed worker false })

def leaseMachine : Machine leaseEffect LeaseWorld where
  Choice := LeaseOp.Choice
  exec := LeaseOp.exec

def leaseSem : Sem leaseEffect LeaseWorld := leaseMachine.answers fun _ _ => True

/-! ## How far a worker has come -/

inductive LeaseStage where
  | idle
  /-- It has read its clock. -/
  | read (now : Timestamp)
  /-- One of its statements was granted. -/
  | won
deriving DecidableEq, Repr

structure LeasePhase where
  worker : LeaseWorker
  stage : LeaseStage
deriving DecidableEq, Repr

namespace LeasePhase

def next (phase : LeasePhase) : (op : LeaseOp) → op.Res → LeasePhase
  | .utcnow _, now => { phase with stage := .read now }
  | .update _, true | .insert _, true => { phase with stage := .won }
  | .tick _ _, _ => { phase with stage := .idle }
  | _, _ => phase

def admits (phase : LeasePhase) : LeaseOp → Prop
  | .utcnow worker => worker = phase.worker.id ∧ phase.stage = .idle
  | .update row | .insert row => ∃ now, phase.stage = .read now ∧ row = phase.worker.lease now
  | .first => True
  | .tick worker won => worker = phase.worker.id ∧ (won = false → phase.stage ≠ .won)

end LeasePhase

abbrev Leases {α : Type} (p : Lease α) (P : α → LeasePhase → Prop) (phase : LeasePhase) : Prop :=
  Conforms (E := leaseEffect) (fun _ _ _ => True) LeasePhase.admits LeasePhase.next p (returning P)
    phase

section Conformance

variable {worker : LeaseWorker}

/-- A call that does not win has been granted nothing. -/
theorem leases_tryAcquireLease : Leases (tryAcquireLease worker)
    (fun won phase => phase.worker = worker ∧ (won = false → phase.stage ≠ .won))
    ⟨worker, .idle⟩ := by
  refine Conforms.perform ⟨rfl, rfl⟩ fun now _ => ?_
  refine Conforms.perform ⟨now, rfl, rfl⟩ fun matched _ => ?_
  cases matched with
  | true => exact ⟨rfl, fun h => nomatch h⟩
  | false =>
    refine Conforms.perform trivial fun existing _ => ?_
    apply Conforms.ite
    · exact ⟨rfl, fun _ h => nomatch h⟩
    · refine Conforms.call ⟨now, rfl, rfl⟩ fun inserted _ => ?_
      cases inserted with
      | true => exact ⟨rfl, fun h => nomatch h⟩
      | false => exact ⟨rfl, fun _ h => nomatch h⟩

theorem leases_runTicks {ticks : Nat} :
    Leases (runTicks worker ticks) (fun _ _ => True) ⟨worker, .idle⟩ := by
  induction ticks with
  | zero => exact trivial
  | succ ticks ih =>
    have htick : Leases (runWithApp worker) (fun _ phase => phase = ⟨worker, .idle⟩)
        ⟨worker, .idle⟩ := by
      apply Conforms.bind leases_tryAcquireLease
      rintro won ⟨_, stage⟩ ⟨rfl, hwon⟩
      exact Conforms.call ⟨rfl, hwon⟩ fun _ _ => rfl
    apply Conforms.bind htick
    rintro _ _ rfl
    exact ih

end Conformance

/-! ## The invariant -/

/-- Whenever a lease is followed by grants to its own worker only, and then by one to another worker,
    that one was asked for after the lease had ended. -/
def Apart (grants : List Grant) : Prop :=
  ∀ pre first renewals second post, grants = pre ++ first :: (renewals ++ second :: post) →
    (∀ renewal ∈ renewals, renewal.row.holder = first.row.holder) →
    second.row.holder ≠ first.row.holder → first.row.expiresAt < second.row.updatedAt

structure Leased (workers : List LeaseWorker) (start : Option EdoWorkerLease) (w : LeaseWorld)
    (phases : List LeasePhase) : Prop where
  threads : phases.map LeasePhase.worker = workers
  reads : ∀ (i : Nat) (φ : LeasePhase) now, phases[i]? = some φ → φ.stage = .read now →
    w.clocks φ.worker.id = now
  unchanged : ∀ (i : Nat) (φ : LeasePhase), phases[i]? = some φ → φ.stage ≠ .won →
    w.changed φ.worker.id = false
  granted : ∀ grant ∈ w.grants, (∃ worker ∈ workers, grant.row = worker.lease grant.row.updatedAt) ∧
    grant.row.updatedAt ≤ w.clocks grant.row.holder
  /-- The row does not end before any lease of its holder that nobody else has followed. -/
  held : ∀ pre first renewals, w.grants = pre ++ first :: renewals →
    (∀ renewal ∈ renewals, renewal.row.holder = first.row.holder) →
    ∃ row, w.lease = some row ∧ row.holder = first.row.holder ∧ first.row.expiresAt ≤ row.expiresAt
  apart : Apart w.grants
  brandNew : (w.grants.filter Grant.brandNew).length ≤ 1
  existing : start ≠ none → w.lease ≠ none ∧ w.grants.filter Grant.brandNew = []
  refused : ∀ tick ∈ w.ticks, tick.won = false → tick.changed = false

section Steps

variable {workers : List LeaseWorker} {start : Option EdoWorkerLease} {w w' : LeaseWorld}
  {phases : List LeasePhase} {phase : LeasePhase} {tid : Nat} {now : Timestamp}

/-- A list with one more element, taken apart in front of it. -/
theorem append_singleton_eq_iff {β : Type} {l pre rest : List β} {a b : β} :
    l ++ [a] = pre ++ b :: rest ↔
      (rest = [] ∧ l = pre ∧ a = b) ∨ ∃ rest', rest = rest' ++ [a] ∧ l = pre ++ b :: rest' := by
  constructor
  · intro h
    rcases List.eq_nil_or_concat' rest with rfl | ⟨rest', last, rfl⟩
    · obtain ⟨rfl, hlast⟩ := List.append_inj' h rfl
      cases hlast
      exact Or.inl ⟨rfl, rfl, rfl⟩
    · rw [← List.cons_append, ← List.append_assoc] at h
      obtain ⟨rfl, hlast⟩ := List.append_inj' h rfl
      cases hlast
      exact Or.inr ⟨rest', rfl, rfl⟩
  · rintro (⟨rfl, rfl, rfl⟩ | ⟨rest', rfl, rfl⟩)
    · rfl
    · simp

/-- The workers have different ids. -/
theorem Leased.index_eq (h : Leased workers start w phases)
    (hids : (workers.map LeaseWorker.id).Nodup) {i j : Nat} {φ ψ : LeasePhase}
    (hi : phases[i]? = some φ) (hj : phases[j]? = some ψ) (hid : φ.worker.id = ψ.worker.id) :
    i = j := by
  rw [← h.threads, List.map_map] at hids
  have hlt : i < (phases.map (LeaseWorker.id ∘ LeasePhase.worker)).length := by
    rw [List.length_map]
    exact (List.getElem?_eq_some_iff.mp hi).1
  exact (List.getElem?_inj hlt hids).mp (by simp [hi, hj, hid])

theorem workers_set (hget : phases[tid]? = some phase) {stage : LeaseStage} :
    (phases.set tid { phase with stage := stage }).map LeasePhase.worker =
      phases.map LeasePhase.worker := by
  apply List.ext_getElem?
  intro i
  rw [List.map_set, List.getElem?_set]
  by_cases hi : tid = i
  · subst hi
    obtain ⟨hlt, rfl⟩ := List.getElem?_eq_some_iff.mp hget
    simp [hlt]
  · simp [hi]

/-- What a step of one worker keeps of the others. -/
theorem Leased.others (h : Leased workers start w phases) (hids : (workers.map LeaseWorker.id).Nodup)
    (hget : phases[tid]? = some phase) {stage : LeaseStage}
    (hclocks : ∀ id, id ≠ phase.worker.id → w'.clocks id = w.clocks id)
    (hchanged : ∀ id, id ≠ phase.worker.id → w'.changed id = w.changed id)
    (hread : ∀ now, stage = .read now → w'.clocks phase.worker.id = now)
    (hsame : stage ≠ .won → w'.changed phase.worker.id = false) :
    (∀ (i : Nat) (φ : LeasePhase) now, (phases.set tid { phase with stage := stage })[i]? = some φ →
      φ.stage = .read now → w'.clocks φ.worker.id = now) ∧
    ∀ (i : Nat) (φ : LeasePhase), (phases.set tid { phase with stage := stage })[i]? = some φ →
      φ.stage ≠ .won → w'.changed φ.worker.id = false := by
  have hother : ∀ (i : Nat) (φ : LeasePhase), i ≠ tid → phases[i]? = some φ →
      φ.worker.id ≠ phase.worker.id := fun i φ hi hφ hid => hi (h.index_eq hids hφ hget hid)
  constructor
  · intro i φ now hφ hstage
    rcases (getElem?_set_iff hget).mp hφ with ⟨rfl, rfl⟩ | ⟨hi, hold⟩
    · exact hread now hstage
    · rw [hclocks _ (hother i φ hi hold)]
      exact h.reads i φ now hold hstage
  · intro i φ hφ hstage
    rcases (getElem?_set_iff hget).mp hφ with ⟨rfl, rfl⟩ | ⟨hi, hold⟩
    · exact hsame hstage
    · rw [hchanged _ (hother i φ hi hold)]
      exact h.unchanged i φ hold hstage

/-- Every lease of a worker is as long as the next. -/
theorem expiresAt_le {worker worker' : LeaseWorker} {now now' : Timestamp}
    (hids : (workers.map LeaseWorker.id).Nodup) (hworker : worker ∈ workers)
    (hworker' : worker' ∈ workers) (hid : worker.id = worker'.id) (hle : now ≤ now') :
    (worker.lease now).expiresAt ≤ (worker'.lease now').expiresAt := by
  obtain rfl : worker = worker' := List.inj_on_of_nodup_map hids hworker hworker' hid
  exact Int.add_le_add_right hle _

/-- **A grant** to a worker whose own lease it renews, or after the current one has ended. -/
theorem Leased.grant (h : Leased workers start w phases) (hids : (workers.map LeaseWorker.id).Nodup)
    (hget : phases[tid]? = some phase) (hread : phase.stage = .read now) {brandNew : Bool}
    (hnew : brandNew = true → w.lease = none)
    (havailable : ∀ current, w.lease = some current →
      LeaseWorld.available current (phase.worker.lease now) = true) :
    Leased workers start (w.grant (phase.worker.lease now) brandNew)
      (phases.set tid { phase with stage := .won }) := by
  have hworker : phase.worker ∈ workers := by
    rw [← h.threads]
    exact List.mem_map.mpr ⟨phase, List.mem_of_getElem? hget, rfl⟩
  have hclock := h.reads tid phase now hget hread
  have hnone : w.lease = none → w.grants = [] := by
    intro hlease
    rcases List.eq_nil_or_concat' w.grants with hnil | ⟨pre, last, hlast⟩
    · exact hnil
    · obtain ⟨row, hrow, -⟩ := h.held pre last [] hlast (fun _ h => nomatch h)
      cases hlease.symm.trans hrow
  have hothers := @Leased.others workers start w (w.grant (phase.worker.lease now) brandNew) phases
    phase tid h hids hget .won (fun _ _ => rfl) (fun id hid => Function.update_of_ne hid _ _)
    (fun _ h => nomatch h) (fun h => absurd rfl h)
  obtain ⟨hreads, hunchanged⟩ := hothers
  constructor
  case threads => rw [workers_set hget, h.threads]
  case reads => exact hreads
  case unchanged => exact hunchanged
  case granted =>
    intro grant hgrant
    rcases List.mem_append.mp hgrant with hold | hthis
    · exact h.granted grant hold
    · rw [List.mem_singleton.mp hthis]
      exact ⟨⟨phase.worker, hworker, rfl⟩, hclock.ge⟩
  case held =>
    intro pre first renewals hgrants hown
    rcases append_singleton_eq_iff.mp hgrants with ⟨rfl, -, rfl⟩ | ⟨renewals, rfl, hold⟩
    · exact ⟨_, rfl, rfl, Int.le_refl _⟩
    · have hholder : phase.worker.id = first.row.holder :=
        hown _ (List.mem_append_right _ (List.mem_singleton_self _))
      refine ⟨_, rfl, hholder, ?_⟩
      have hmem : first ∈ w.grants := by simp [hold]
      obtain ⟨⟨worker, hmemWorker, hrow⟩, hle⟩ := h.granted first hmem
      have hid : worker.id = phase.worker.id := by
        rw [hholder, hrow]
        rfl
      rw [← hholder, hclock] at hle
      rw [hrow]
      exact expiresAt_le hids hmemWorker hworker hid hle
  case apart =>
    intro pre first renewals second post hgrants hown hother
    rw [← List.cons_append, ← List.append_assoc] at hgrants
    rcases append_singleton_eq_iff.mp hgrants with ⟨rfl, hold, rfl⟩ | ⟨post, rfl, hold⟩
    · obtain ⟨row, hrow, hholder, hle⟩ := h.held pre first renewals hold hown
      have hends := of_decide_eq_true (havailable row hrow)
      rcases hends with hends | hsame
      · exact Int.lt_of_le_of_lt hle hends
      · exact absurd (hsame.symm.trans hholder) hother
    · apply h.apart pre first renewals second post ?_ hown hother
      rw [hold]
      simp
  case brandNew =>
    cases brandNew with
    | true => simp [LeaseWorld.grant, hnone (hnew rfl)]
    | false => simpa [LeaseWorld.grant] using h.brandNew
  case existing =>
    intro hstart
    obtain ⟨hlease, hgrants⟩ := h.existing hstart
    refine ⟨fun h => (nomatch h), ?_⟩
    cases brandNew with
    | true => exact absurd (hnew rfl) hlease
    | false => simpa [LeaseWorld.grant] using hgrants
  case refused => exact h.refused

/-- A step that grants nothing. -/
theorem Leased.ungranted (h : Leased workers start w phases)
    (hids : (workers.map LeaseWorker.id).Nodup) (hget : phases[tid]? = some phase)
    {stage : LeaseStage} (hlease : w'.lease = w.lease) (hgrants : w'.grants = w.grants)
    (hclocks : ∀ id, w.clocks id ≤ w'.clocks id)
    (hotherClocks : ∀ id, id ≠ phase.worker.id → w'.clocks id = w.clocks id)
    (hotherChanged : ∀ id, id ≠ phase.worker.id → w'.changed id = w.changed id)
    (hread : ∀ now, stage = .read now → w'.clocks phase.worker.id = now)
    (hsame : stage ≠ .won → w'.changed phase.worker.id = false)
    (hrefused : ∀ tick ∈ w'.ticks, tick.won = false → tick.changed = false) :
    Leased workers start w' (phases.set tid { phase with stage := stage }) := by
  obtain ⟨hreads, hunchanged⟩ := h.others hids hget hotherClocks hotherChanged hread hsame
  constructor
  case threads => rw [workers_set hget, h.threads]
  case reads => exact hreads
  case unchanged => exact hunchanged
  case granted =>
    rw [hgrants]
    exact fun grant hgrant => ⟨(h.granted grant hgrant).1, (h.granted grant hgrant).2.trans (hclocks _)⟩
  case held =>
    rw [hgrants, hlease]
    exact h.held
  case apart =>
    rw [hgrants]
    exact h.apart
  case brandNew =>
    rw [hgrants]
    exact h.brandNew
  case existing =>
    rw [hgrants, hlease]
    exact h.existing
  case refused => exact hrefused

/-- **Every statement keeps the leases apart.** -/
theorem Leased.step {op : LeaseOp} {res : op.Res} (h : Leased workers start w phases)
    (hids : (workers.map LeaseWorker.id).Nodup) (hget : phases[tid]? = some phase)
    (hadmits : phase.admits op) (hsem : leaseSem w op res w') :
    Leased workers start w' (phases.set tid (phase.next op res)) := by
  obtain ⟨choice, -, hexec⟩ := hsem
  have hsame : Leased workers start w (phases.set tid { phase with stage := phase.stage }) :=
    h.ungranted hids hget rfl rfl (fun _ => Int.le_refl _) (fun _ _ => rfl) (fun _ _ => rfl)
      (fun now hnow => h.reads tid phase now hget hnow) (h.unchanged tid phase hget) h.refused
  cases op with
  | utcnow worker =>
    obtain ⟨rfl, hidle⟩ := hadmits
    simp only [leaseMachine, LeaseOp.exec] at hexec
    split at hexec
    · rename_i hle
      cases hexec
      apply h.ungranted hids hget
      · exact rfl
      · exact rfl
      · intro id
        by_cases hid : id = phase.worker.id
        · subst hid
          simpa using hle
        · simp [hid]
      · exact fun id hid => Function.update_of_ne hid _ _
      · exact fun _ _ => rfl
      · rintro now ⟨⟩
        exact Function.update_self _ _ _
      · exact fun _ => h.unchanged tid phase hget (by rw [hidle]; exact fun h => nomatch h)
      · exact h.refused
    · cases hexec
  | update row =>
    obtain ⟨now, hread, rfl⟩ := hadmits
    simp only [leaseMachine, LeaseOp.exec] at hexec
    split at hexec
    · cases hexec
      exact hsame
    · rename_i current hlease
      split at hexec
      · rename_i havailable
        cases hexec
        apply h.grant hids hget hread
        · exact fun h => nomatch h
        · intro other hother
          cases hlease.symm.trans hother
          exact havailable
      · cases hexec
        exact hsame
  | first =>
    cases hexec
    exact hsame
  | insert row =>
    obtain ⟨now, hread, rfl⟩ := hadmits
    simp only [leaseMachine, LeaseOp.exec] at hexec
    split at hexec
    · rename_i hlease
      cases hexec
      apply h.grant hids hget hread
      · exact fun _ => hlease
      · intro other hother
        cases hlease.symm.trans hother
    · cases hexec
      exact hsame
  | tick worker won =>
    obtain ⟨rfl, hwon⟩ := hadmits
    cases hexec
    apply h.ungranted hids hget
    · exact rfl
    · exact rfl
    · exact fun _ => Int.le_refl _
    · exact fun _ _ => rfl
    · exact fun id hid => Function.update_of_ne hid _ _
    · exact fun _ h => nomatch h
    · exact fun _ => Function.update_self _ _ _
    · intro tick htick hlost
      rcases List.mem_append.mp htick with hold | hthis
      · exact h.refused tick hold hlost
      · rw [List.mem_singleton.mp hthis] at hlost ⊢
        exact h.unchanged tid phase hget (hwon hlost)

end Steps

/-! ## Exclusive leases -/

abbrev LeaseConfig := Config leaseEffect Empty LeasePhase LeaseWorld

/-- Each worker is about to make so many ticks. -/
def startWorkers (workers : List (LeaseWorker × Nat)) (start : Option EdoWorkerLease)
    (clocks : String → Timestamp) : LeaseConfig :=
  ⟨⟨start, clocks, [], [], fun _ => false⟩,
    workers.map fun entry => ⟨⟨entry.1, .idle⟩, runTicks entry.1 entry.2⟩⟩

/-- What a lease promises. -/
structure LeaseExclusive (workers : List LeaseWorker) (start : Option EdoWorkerLease)
    (w : LeaseWorld) : Prop where
  /-- A grant to another worker was asked for when every lease before it had ended. -/
  exclusive : ∀ pre first renewals second post,
    w.grants = pre ++ first :: (renewals ++ second :: post) →
    (∀ renewal ∈ renewals, renewal.row.holder = first.row.holder) →
    second.row.holder ≠ first.row.holder →
    ∃ worker ∈ workers, worker.id = first.row.holder ∧
      first.row.updatedAt + timedelta (max worker.leaseSeconds 10) < second.row.updatedAt
  /-- At most one worker wins a lock that does not exist yet. -/
  brandNew : (w.grants.filter Grant.brandNew).length ≤ 1
  existing : start ≠ none → w.grants.filter Grant.brandNew = []
  /-- A call that returns `False` has left the row unchanged. -/
  refused : ∀ tick ∈ w.ticks, tick.won = false → tick.changed = false

/-- **Leases exclude each other.**  Whatever any number of workers with different ids do in any
    interleaving of their statements, with or without the row at the start, as long as the clock of
    each worker does not go back. -/
theorem lease_exclusive (workers : List (LeaseWorker × Nat)) (start : Option EdoWorkerLease)
    (clocks : String → Timestamp) (c : LeaseConfig)
    (hids : (workers.map fun entry => entry.1.id).Nodup)
    (hreach : Reach leaseSem LeasePhase.next (fun _ _ _ => True) (startWorkers workers start clocks) c) :
    LeaseExclusive (workers.map Prod.fst) start c.world := by
  have hids' : ((workers.map Prod.fst).map LeaseWorker.id).Nodup := by
    rw [List.map_map]
    exact hids
  have hidle : ∀ (i : Nat) (φ : LeasePhase),
      (startWorkers workers start clocks).phases[i]? = some φ → φ.stage = .idle := by
    intro i φ hφ
    have hmem := List.mem_of_getElem? hφ
    simp only [Config.phases, startWorkers, List.map_map, List.mem_map, Function.comp_apply] at hmem
    obtain ⟨entry, -, rfl⟩ := hmem
    rfl
  have hinit : Leased (workers.map Prod.fst) start (startWorkers workers start clocks).world
      (startWorkers workers start clocks).phases := by
    have hnil : ∀ pre first renewals,
        (startWorkers workers start clocks).world.grants ≠ pre ++ first :: renewals := by
      intro pre first renewals h
      simp [startWorkers] at h
    constructor
    case threads => simp [Config.phases, startWorkers]
    case reads =>
      intro i φ now hφ hstage
      rw [hidle i φ hφ] at hstage
      cases hstage
    case unchanged => exact fun _ _ _ _ => rfl
    case granted => exact fun _ h => by cases h
    case held => exact fun pre first renewals h => absurd h (hnil pre first renewals)
    case apart => exact fun pre first renewals second post h => absurd h (hnil pre first _)
    case brandNew => exact Nat.zero_le _
    case existing => exact fun h => ⟨h, rfl⟩
    case refused => exact fun _ h => by cases h
  have hconf : ∀ thread ∈ (startWorkers workers start clocks).threads,
      Leases thread.prog (fun _ _ => True) thread.phase := by
    intro thread hthread
    obtain ⟨entry, -, rfl⟩ := List.mem_map.mp hthread
    exact leases_runTicks
  have hkeeps : ∀ world phases tid phase op res world',
      Leased (workers.map Prod.fst) start world phases → phases[tid]? = some phase →
      LeasePhase.admits phase op → leaseSem world op res world' → True →
      True ∧ Leased (workers.map Prod.fst) start world' (phases.set tid (LeasePhase.next phase op res)) :=
    fun _ _ _ _ _ _ _ h hget hadmits hsem _ => ⟨trivial, h.step hids' hget hadmits hsem⟩
  have hend := (reach_invariant hkeeps hconf hinit hreach).1
  constructor
  case exclusive =>
    intro pre first renewals second post hgrants hown hother
    obtain ⟨⟨worker, hworker, hrow⟩, -⟩ := hend.granted first (by simp [hgrants])
    have hends := hend.apart pre first renewals second post hgrants hown hother
    rw [hrow] at hends
    exact ⟨worker, hworker, by rw [hrow]; rfl, hends⟩
  case brandNew => exact hend.brandNew
  case existing => exact fun h => (hend.existing h).2
  case refused => exact hend.refused

/-! ## A takeover -/

def twoWorkers : List (LeaseWorker × Nat) := [(⟨"17-a", 30⟩, 1), (⟨"18-b", 30⟩, 2)]

/-- The clocks show so many seconds. -/
def leaseChoice (seconds : Int) : (op : LeaseOp) → op.Choice
  | .utcnow _ => timedelta seconds
  | .update _ | .first | .insert _ | .tick _ _ => ()

/-- The second worker asks before the first one's `INSERT`, is refused, and takes over later. -/
def takeover : Option LeaseConfig :=
  leaseMachine.runChecked LeasePhase.next (fun _ _ _ => true)
    (blocksAt [(0, 3, 0), (1, 1, 1), (0, 2, 0), (1, 3, 1), (1, 3, 31)])
    (startWorkers twoWorkers none fun _ => 0)
where
  blocksAt (blocks : List (Nat × Nat × Int)) : List (Nat × ((op : LeaseOp) → op.Choice)) :=
    blocks.flatMap fun block => List.replicate block.2.1 (block.1, leaseChoice block.2.2)

theorem takeover_grants : takeover.any (fun c =>
    decide (c.world.grants.map (fun grant => (grant.row.holder, grant.brandNew)) =
      [("17-a", true), ("18-b", false)] ∧ c.world.ticks.map Tick.won = [true, false, true])) = true := by
  decide +kernel

theorem lease_exclusive_takeover : ∃ c, takeover = some c ∧
    c.world.grants.map (fun grant => (grant.row.holder, grant.brandNew)) =
      [("17-a", true), ("18-b", false)] ∧
    LeaseExclusive (twoWorkers.map Prod.fst) none c.world := by
  obtain ⟨c, hrun, hgrants⟩ := (Option.any_eq_true _ _).mp takeover_grants
  have hsem : ∀ s op choice res s', leaseMachine.exec s op choice = some (res, s') →
      leaseSem s op res s' := fun s op choice res s' h => ⟨choice, trivial, h⟩
  have hreach := Machine.reach_of_runChecked hsem hrun
  exact ⟨c, hrun, (of_decide_eq_true hgrants).1, lease_exclusive twoWorkers none (fun _ => 0) c
    (by decide) (hreach.mono fun _ _ _ _ => trivial)⟩

end EdoPlugin
