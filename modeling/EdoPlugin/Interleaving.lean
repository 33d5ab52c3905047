import EdoPlugin.Interaction

/-!
# Interleaved programs

Threads that share one world and run one call at a time, in any order.  Each thread carries, next
to its remaining program, a *phase*: a summary of the answers it has received so far, updated by a
fixed function at each of its calls.  A phase influences nothing; it is what an invariant, or a
condition on the steps of a run, may say about the position a thread has reached.

`reach_invariant` is the induction over runs.  It splits the work in two: each program conforms to
a protocol of phases (a statement about one program, proved with the rules of `wp`), and each call
the protocol admits preserves the invariant of world and phases (a statement about one step).
-/

namespace EdoPlugin.Interaction

variable {E : Effect} {ε Φ σ : Type}

structure Thread (E : Effect) (ε Φ : Type) where
  phase : Φ
  prog : Prog E ε Unit

structure Config (E : Effect) (ε Φ σ : Type) where
  world : σ
  threads : List (Thread E ε Φ)

def Config.phases (c : Config E ε Φ σ) : List Φ := c.threads.map Thread.phase

/-- Every thread has returned. -/
def Config.Finished (c : Config E ε Φ σ) : Prop :=
  ∀ thread ∈ c.threads, thread.prog = .ret ()

/-- One call of one thread, with its answer. -/
structure Event (E : Effect) where
  tid : Nat
  op : E.Op
  res : E.Res op

theorem getElem?_set_iff {β : Type} {l : List β} {i j : Nat} {a b c : β} (hget : l[i]? = some a) :
    (l.set i b)[j]? = some c ↔ (j = i ∧ c = b) ∨ (j ≠ i ∧ l[j]? = some c) := by
  have hlt : i < l.length := (List.getElem?_eq_some_iff.mp hget).1
  rw [List.getElem?_set]
  by_cases hji : i = j
  · subst hji
    simp [hlt, eq_comm]
  · simp [hji, Ne.symm hji]

variable (sem : Sem E σ) (next : Φ → (op : E.Op) → E.Res op → Φ)

inductive Step : Config E ε Φ σ → Event E → Config E ε Φ σ → Prop
  | mk {world world' : σ} {threads : List (Thread E ε Φ)} {tid : Nat} {phase : Φ} {op : E.Op}
      {rest : E.Res op → Prog E ε Unit} {res : E.Res op} :
      threads[tid]? = some ⟨phase, .call op rest⟩ → sem world op res world' →
      Step ⟨world, threads⟩ ⟨tid, op, res⟩
        ⟨world', threads.set tid ⟨next phase op res, rest res⟩⟩

/-- The configurations that runs from `c₀` reach when every step satisfies `ok`, which sees the
    world and the phases before the step. -/
inductive Reach (ok : σ → List Φ → Event E → Prop) (c₀ : Config E ε Φ σ) :
    Config E ε Φ σ → Prop
  | start : Reach ok c₀ c₀
  | step {c c' : Config E ε Φ σ} {event : Event E} : Reach ok c₀ c → Step sem next c event c' →
      ok c.world c.phases event → Reach ok c₀ c'

variable {sem next}

/-- A program follows a protocol: each call is one the current phase admits, whatever the earlier
    answers were, as long as they were expected ones. -/
def Conforms {α : Type} (expected : Φ → (op : E.Op) → E.Res op → Prop) (admits : Φ → E.Op → Prop)
    (next : Φ → (op : E.Op) → E.Res op → Φ) (p : Prog E ε α)
    (Q : Except ε α → Φ → Prop) (phase : Φ) : Prop :=
  wp (fun φ op res φ' => expected φ op res ∧ φ' = next φ op res) admits p Q phase

section Conforms

variable {expected : Φ → (op : E.Op) → E.Res op → Prop} {admits : Φ → E.Op → Prop} {α β : Type}
  {phase : Φ}

theorem Conforms.call {op : E.Op} {rest : E.Res op → Prog E ε α} {Q : Except ε α → Φ → Prop}
    (hadmits : admits phase op) (hrest : ∀ res, expected phase op res →
      Conforms expected admits next (rest res) Q (next phase op res)) :
    Conforms expected admits next (.call op rest) Q phase := by
  refine ⟨hadmits, ?_⟩
  rintro res φ' ⟨hexpected, rfl⟩
  exact hrest res hexpected

theorem Conforms.perform {op : E.Op} {f : E.Res op → Prog E ε α} {Q : Except ε α → Φ → Prop}
    (hadmits : admits phase op) (hrest : ∀ res, expected phase op res →
      Conforms expected admits next (f res) Q (next phase op res)) :
    Conforms expected admits next (Prog.perform op >>= f) Q phase :=
  Conforms.call hadmits hrest

theorem Conforms.bind {p : Prog E ε α} {f : α → Prog E ε β} {P : α → Φ → Prop}
    {R : β → Φ → Prop} (hp : Conforms expected admits next p (returning P) phase)
    (hf : ∀ value φ, P value φ → Conforms expected admits next (f value) (returning R) φ) :
    Conforms expected admits next (p >>= f) (returning R) phase :=
  wp_bind_returning hp hf

/-- A sequence whose first part may raise. -/
theorem Conforms.andThen {p : Prog E ε α} {f : α → Prog E ε β} {R : Except ε α → Φ → Prop}
    {Q : Except ε β → Φ → Prop} (hp : Conforms expected admits next p R phase)
    (hok : ∀ value φ, R (.ok value) φ → Conforms expected admits next (f value) Q φ)
    (herror : ∀ err φ, R (.error err) φ → Q (.error err) φ) :
    Conforms expected admits next (p >>= f) Q phase := by
  apply wp_bind.mpr
  apply wp_mono hp
  intro out φ hout
  cases out with
  | ok value => exact hok value φ hout
  | error err => exact herror err φ hout

theorem Conforms.ite {c : Prop} [Decidable c] {p q : Prog E ε α} {Q : Except ε α → Φ → Prop}
    (hp : Conforms expected admits next p Q phase) (hq : Conforms expected admits next q Q phase) :
    Conforms expected admits next (if c then p else q) Q phase := by
  split
  · exact hp
  · exact hq

/-- A program whose calls leave the phase alone. -/
theorem Conforms.stays {A : E.Op → Prop} {p : Prog E ε α} (hp : CallsOnly A p)
    (hadmits : ∀ op, A op → admits phase op) (hnext : ∀ op res, A op → next phase op res = phase) :
    Conforms expected admits next p (fun _ φ => φ = phase) phase := by
  induction hp with
  | ret => exact rfl
  | raise => exact rfl
  | call hop _ ih =>
    refine Conforms.call (hadmits _ hop) fun res _ => ?_
    rw [hnext _ res hop]
    exact ih res

theorem Conforms.of_callsOnly {A : E.Op → Prop} {p : Prog E ε α} (hp : CallsOnly A p)
    (hadmits : ∀ op, A op → admits phase op) (hnext : ∀ op res, A op → next phase op res = phase) :
    Conforms expected admits next p (returning fun _ φ => φ = phase) phase := by
  apply wp_mono (Conforms.stays hp hadmits hnext)
  intro out φ hφ
  cases out with
  | ok value => exact hφ
  | error err => trivial

/-- **One program on its own.**  If every call the protocol admits gets an expected answer and
    preserves `J`, then `J` holds in every state that the program comes through. -/
theorem Conforms.keeps {sem : Sem E σ} {J : σ → Φ → Prop} {p : Prog E ε α}
    {Q : Except ε α → Φ → Prop} {s : σ} (hp : Conforms expected admits next p Q phase)
    (hstep : ∀ s φ op res s', J s φ → admits φ op → sem s op res s' →
      expected φ op res ∧ J s' (next φ op res)) (hs : J s phase) :
    wp sem (fun s _ => ∃ φ, J s φ) p (fun out s' => ∃ φ, J s' φ ∧ Q out φ) s := by
  induction p generalizing s phase with
  | ret value => exact ⟨phase, hs, hp⟩
  | raise err => exact ⟨phase, hs, hp⟩
  | call op rest ih =>
    refine ⟨⟨phase, hs⟩, ?_⟩
    intro res s' hsem
    obtain ⟨hexpected, hs'⟩ := hstep _ _ _ _ _ hs hp.1 hsem
    exact ih res (hp.2 res _ ⟨hexpected, rfl⟩) hs'

/-- In particular, of the state and the phase it ends in. -/
theorem Conforms.preserves {sem : Sem E σ} {J : σ → Φ → Prop} {p : Prog E ε α}
    {Q : Except ε α → Φ → Prop} {s : σ} (hp : Conforms expected admits next p Q phase)
    (hstep : ∀ s φ op res s', J s φ → admits φ op → sem s op res s' →
      expected φ op res ∧ J s' (next φ op res)) (hs : J s phase) :
    wp sem (fun _ _ => True) p (fun out s' => ∃ φ, J s' φ ∧ Q out φ) s :=
  wp_guard_mono (hp.keeps hstep hs) fun _ _ _ => trivial

end Conforms

variable {expected : Φ → (op : E.Op) → E.Res op → Prop} {admits : Φ → E.Op → Prop}
  {ok : σ → List Φ → Event E → Prop} {Q : Except ε Unit → Φ → Prop}

/-- **Invariants of interleavings.**  If every thread conforms to the protocol, and every call the
    protocol admits gets an expected answer and preserves `J`, then `J` holds in every reachable
    configuration, and the threads still conform there. -/
theorem reach_invariant {J : σ → List Φ → Prop} {c₀ c : Config E ε Φ σ}
    (hstep : ∀ world phases tid phase op res world', J world phases →
      phases[tid]? = some phase → admits phase op → sem world op res world' →
      ok world phases ⟨tid, op, res⟩ →
      expected phase op res ∧ J world' (phases.set tid (next phase op res)))
    (hconf : ∀ thread ∈ c₀.threads,
      Conforms expected admits next thread.prog Q thread.phase)
    (hinit : J c₀.world c₀.phases) (hreach : Reach sem next ok c₀ c) :
    J c.world c.phases ∧
      ∀ thread ∈ c.threads, Conforms expected admits next thread.prog Q thread.phase := by
  induction hreach with
  | start => exact ⟨hinit, hconf⟩
  | step _ hst hok ih =>
    obtain ⟨hJ, hthreads⟩ := ih
    cases hst with
    | @mk world world' threads tid phase op rest res hget hsem =>
      have hphase : (Config.phases ⟨world, threads⟩)[tid]? = some phase := by
        simp [Config.phases, hget]
      have hthis : Conforms expected admits next (.call op rest) Q phase :=
        hthreads _ (List.mem_of_getElem? hget)
      obtain ⟨hexpected, hJ'⟩ :=
        hstep world _ tid phase op res world' hJ hphase hthis.1 hsem hok
      refine ⟨?_, ?_⟩
      · simpa [Config.phases, List.map_set] using hJ'
      · intro thread hthread
        rcases List.mem_or_eq_of_mem_set hthread with hold | rfl
        · exact hthreads thread hold
        · exact hthis.2 res _ ⟨hexpected, rfl⟩

/-! ## Executable schedules -/

/-- Let one thread perform its next call. -/
def Machine.stepThread (M : Machine E σ) (next : Φ → (op : E.Op) → E.Res op → Φ)
    (c : Config E ε Φ σ) (tid : Nat) (pick : (op : E.Op) → M.Choice op) :
    Option (Event E × Config E ε Φ σ) :=
  match c.threads[tid]? with
  | some ⟨phase, .call op rest⟩ =>
    match M.exec c.world op (pick op) with
    | some (res, world') =>
      some (⟨tid, op, res⟩, ⟨world', c.threads.set tid ⟨next phase op res, rest res⟩⟩)
    | none => none
  | _ => none

/-- Run a schedule: which thread moves, and what the outside world chooses for its call.  A step
    that `allow` refuses ends the run. -/
def Machine.runSchedule (M : Machine E σ) (next : Φ → (op : E.Op) → E.Res op → Φ)
    (allow : Event E → Bool) : List (Nat × ((op : E.Op) → M.Choice op)) → Config E ε Φ σ →
    Option (Config E ε Φ σ)
  | [], c => some c
  | (tid, pick) :: schedule, c =>
    match M.stepThread next c tid pick with
    | some (event, c') => if allow event then M.runSchedule next allow schedule c' else none
    | none => none

theorem Machine.step_of_stepThread {M : Machine E σ} {c c' : Config E ε Φ σ} {tid : Nat}
    {pick : (op : E.Op) → M.Choice op} {policy : (op : E.Op) → M.Choice op → Prop}
    {event : Event E} (hpick : ∀ op, policy op (pick op))
    (h : M.stepThread next c tid pick = some (event, c')) :
    Step (M.answers policy) next c event c' := by
  obtain ⟨world, threads⟩ := c
  simp only [Machine.stepThread] at h
  split at h
  · rename_i phase op rest hget
    split at h
    · rename_i res world' hexec
      cases h
      exact Step.mk hget ⟨pick op, hpick op, hexec⟩
    · cases h
  · cases h

/-- What an executable schedule computes is reachable with the steps it allows. -/
theorem Machine.reach_of_runSchedule {M : Machine E σ} {c c' : Config E ε Φ σ}
    {policy : (op : E.Op) → M.Choice op → Prop} {allow : Event E → Bool}
    {schedule : List (Nat × ((op : E.Op) → M.Choice op))}
    (hpick : ∀ entry ∈ schedule, ∀ op, policy op (entry.2 op))
    (h : M.runSchedule next allow schedule c = some c') :
    Reach (M.answers policy) next (fun _ _ event => allow event = true) c c' := by
  suffices haux : ∀ c₀, Reach (M.answers policy) next (fun _ _ event => allow event = true) c₀ c →
      Reach (M.answers policy) next (fun _ _ event => allow event = true) c₀ c' from
    haux c .start
  induction schedule generalizing c with
  | nil => cases h; intro c₀ hc; exact hc
  | cons entry schedule ih =>
    obtain ⟨tid, pick⟩ := entry
    intro c₀ hc
    simp only [Machine.runSchedule] at h
    split at h
    · rename_i event c₁ hstep
      split at h
      · rename_i hallow
        have hevent := Machine.step_of_stepThread (hpick _ List.mem_cons_self) hstep
        exact ih (fun e he => hpick e (List.mem_cons_of_mem _ he)) h c₀ (hc.step hevent hallow)
      · cases h
    · cases h

/-- Run a schedule whose steps all pass a check, which sees the world and the phases before the
    step. -/
def Machine.runChecked (M : Machine E σ) (next : Φ → (op : E.Op) → E.Res op → Φ)
    (check : σ → List Φ → Event E → Bool) : List (Nat × ((op : E.Op) → M.Choice op)) →
    Config E ε Φ σ → Option (Config E ε Φ σ)
  | [], c => some c
  | (tid, pick) :: schedule, c =>
    match M.stepThread next c tid pick with
    | some (event, c') =>
      if check c.world c.phases event then M.runChecked next check schedule c' else none
    | none => none

theorem Machine.step_of_exec {M : Machine E σ} {c c' : Config E ε Φ σ} {tid : Nat}
    {pick : (op : E.Op) → M.Choice op} {event : Event E} {sem : Sem E σ}
    (hsem : ∀ s op choice res s', M.exec s op choice = some (res, s') → sem s op res s')
    (h : M.stepThread next c tid pick = some (event, c')) : Step sem next c event c' := by
  obtain ⟨world, threads⟩ := c
  simp only [Machine.stepThread] at h
  split at h
  · rename_i phase op rest hget
    split at h
    · rename_i res world' hexec
      cases h
      exact Step.mk hget (hsem _ _ _ _ _ hexec)
    · cases h
  · cases h

/-- What a checked schedule computes is reachable with the steps the check admits. -/
theorem Machine.reach_of_runChecked {M : Machine E σ} {c c' : Config E ε Φ σ} {sem : Sem E σ}
    {check : σ → List Φ → Event E → Bool} {schedule : List (Nat × ((op : E.Op) → M.Choice op))}
    (hsem : ∀ s op choice res s', M.exec s op choice = some (res, s') → sem s op res s')
    (h : M.runChecked next check schedule c = some c') :
    Reach sem next (fun world phases event => check world phases event = true) c c' := by
  suffices haux : ∀ c₀, Reach sem next (fun world phases event => check world phases event = true) c₀ c →
      Reach sem next (fun world phases event => check world phases event = true) c₀ c' from
    haux c .start
  induction schedule generalizing c with
  | nil => cases h; intro c₀ hc; exact hc
  | cons entry schedule ih =>
    intro c₀ hc
    simp only [Machine.runChecked] at h
    split at h
    · rename_i event c₁ hstep
      split at h
      · rename_i hcheck
        exact ih h c₀ (hc.step (Machine.step_of_exec hsem hstep) hcheck)
      · cases h
    · cases h

/-- A schedule in blocks: in each, one thread makes so many calls. -/
def blocksOf {Choice : Type} (pick : Choice) (blocks : List (Nat × Nat)) : List (Nat × Choice) :=
  blocks.flatMap fun block => List.replicate block.2 (block.1, pick)

/-- The executable form of `Config.Finished`. -/
def Config.isFinished (c : Config E ε Φ σ) : Bool :=
  c.threads.all fun thread => match thread.prog with
    | .ret () => true
    | _ => false

theorem Config.finished_of_isFinished {c : Config E ε Φ σ} (h : c.isFinished = true) :
    c.Finished := by
  intro thread hthread
  have hthis := List.all_eq_true.mp h thread hthread
  split at hthis
  · assumption
  · cases hthis

/-- A restriction on the steps can be relaxed. -/
theorem Reach.mono {sem : Sem E σ} {ok ok' : σ → List Φ → Event E → Prop}
    {c₀ c : Config E ε Φ σ} (h : Reach sem next ok c₀ c)
    (hok : ∀ world phases event, ok world phases event → ok' world phases event) :
    Reach sem next ok' c₀ c := by
  induction h with
  | start => exact .start
  | step _ hstep hs ih => exact ih.step hstep (hok _ _ _ hs)

/-- So can the answers of the world. -/
theorem Reach.mono_sem {sem sem' : Sem E σ} {ok : σ → List Φ → Event E → Prop}
    {c₀ c : Config E ε Φ σ} (h : Reach sem next ok c₀ c)
    (hsem : ∀ s op res s', sem s op res s' → sem' s op res s') : Reach sem' next ok c₀ c := by
  induction h with
  | start => exact .start
  | step _ hstep hs ih =>
    obtain ⟨hget, hanswers⟩ := hstep
    exact ih.step (.mk hget (hsem _ _ _ _ hanswers)) hs

end EdoPlugin.Interaction
