import Mathlib.Data.List.Basic

/-!
# Programs that call an environment

A handler of the daemon is sequential code between calls to SQLite, Docker, iptables and `wg`.
Its properties quantify over what those calls answer, over the point at which one of them fails
and over what other handlers do between two of them.  This module fixes one syntax for such code:
a `Prog` is a tree of calls, each with the continuation of every possible answer, and it may return
or raise.  The meaning of the calls is a separate parameter, so the same program is run against a
world without failures, against one where every call may fail, and against other threads.

Nothing here names a particular effect.
-/

namespace EdoPlugin.Interaction

/-- A signature of calls: the operations and the type of each one's answer. -/
structure Effect where
  Op : Type
  Res : Op → Type

/-- Sequential code over the calls of `E` that returns an `α` or raises an `ε`. -/
inductive Prog (E : Effect) (ε α : Type) : Type where
  | ret (value : α)
  | raise (err : ε)
  | call (op : E.Op) (next : E.Res op → Prog E ε α)

variable {E : Effect} {ε α β γ σ : Type}

namespace Prog

def bind : Prog E ε α → (α → Prog E ε β) → Prog E ε β
  | .ret value, f => f value
  | .raise err, _ => .raise err
  | .call op next, f => .call op fun res => (next res).bind f

/-- `try: body except e: handler(e)`. -/
def catching : Prog E ε α → (ε → Prog E ε α) → Prog E ε α
  | .ret value, _ => .ret value
  | .raise err, handler => handler err
  | .call op next, handler => .call op fun res => (next res).catching handler

/-- `try: body finally: cleanup`. -/
def finally_ : Prog E ε α → Prog E ε Unit → Prog E ε α
  | .ret value, cleanup => cleanup.bind fun _ => .ret value
  | .raise err, cleanup => cleanup.bind fun _ => .raise err
  | .call op next, cleanup => .call op fun res => (next res).finally_ cleanup

/-- Perform one call and return its answer. -/
def perform (op : E.Op) : Prog E ε (E.Res op) := .call op .ret

/-- Return the value of a result, or raise its error. -/
def ofExcept : Except ε α → Prog E ε α
  | .ok value => .ret value
  | .error err => .raise err

instance : Monad (Prog E ε) where
  pure := .ret
  bind := .bind

@[simp] theorem pure_eq (value : α) : (pure value : Prog E ε α) = .ret value := rfl

@[simp] theorem bind_eq (p : Prog E ε α) (f : α → Prog E ε β) : p >>= f = p.bind f := rfl

@[simp] theorem map_eq (f : α → β) (p : Prog E ε α) :
    f <$> p = p.bind fun value => .ret (f value) := rfl

@[simp] theorem bind_ret (value : α) (f : α → Prog E ε β) :
    (Prog.ret value : Prog E ε α).bind f = f value := rfl

@[simp] theorem bind_raise (err : ε) (f : α → Prog E ε β) :
    (Prog.raise err : Prog E ε α).bind f = .raise err := rfl

@[simp] theorem bind_call (op : E.Op) (next : E.Res op → Prog E ε α) (f : α → Prog E ε β) :
    (Prog.call op next).bind f = .call op fun res => (next res).bind f := rfl

@[simp] theorem perform_bind (op : E.Op) (f : E.Res op → Prog E ε β) :
    (perform op : Prog E ε (E.Res op)).bind f = .call op f := rfl

theorem bind_assoc (p : Prog E ε α) (f : α → Prog E ε β) (g : β → Prog E ε γ) :
    (p.bind f).bind g = p.bind fun value => (f value).bind g := by
  induction p with
  | ret value => rfl
  | raise err => rfl
  | call op next ih => simp only [bind_call, ih]

end Prog

/-! ## Runs -/

/-- What a call may answer in a state, and the state it leaves. -/
abbrev Sem (E : Effect) (σ : Type) : Type := σ → (op : E.Op) → E.Res op → σ → Prop

/-- A complete run of a program: the states after each of its calls, its outcome, its last state. -/
inductive Runs (sem : Sem E σ) :
    Prog E ε α → σ → List σ → Except ε α → σ → Prop where
  | ret {value s} : Runs sem (.ret value) s [] (.ok value) s
  | raise {err s} : Runs sem (.raise err) s [] (.error err) s
  | call {op next s res s₁ trace out s₂} : sem s op res s₁ →
      Runs sem (next res) s₁ trace out s₂ →
      Runs sem (.call op next) s (s₁ :: trace) out s₂

/-- Some run of the program ends with this outcome in this state. -/
def Ends (sem : Sem E σ) (p : Prog E ε α) (s : σ) (out : Except ε α) (s' : σ) : Prop :=
  ∃ trace, Runs sem p s trace out s'

/-- A state at which a run of the program may be interrupted. -/
def Visits (sem : Sem E σ) (p : Prog E ε α) (s s' : σ) : Prop :=
  ∃ trace out last, Runs sem p s trace out last ∧ s' ∈ s :: trace

variable {sem : Sem E σ}

/-- The run of a sequence whose first part returns. -/
theorem Runs.bind {p : Prog E ε α} {f : α → Prog E ε β} {s s₁ s₂ : σ} {value : α}
    {out : Except ε β} {trace trace' : List σ}
    (hp : Runs sem p s trace (.ok value) s₁) (hf : Runs sem (f value) s₁ trace' out s₂) :
    Runs sem (p.bind f) s (trace ++ trace') out s₂ := by
  generalize hout : (Except.ok value : Except ε α) = res at hp
  induction hp with
  | ret => cases hout; exact hf
  | raise => cases hout
  | call hsem _ ih => exact Runs.call hsem (ih hf hout)

theorem Ends.ret {value : α} {s : σ} :
    Ends sem (.ret value : Prog E ε α) s (.ok value) s := ⟨_, Runs.ret⟩

theorem Ends.call {op : E.Op} {next : E.Res op → Prog E ε α} {s s₁ s₂ : σ} {res : E.Res op}
    {out : Except ε α} (hsem : sem s op res s₁) (h : Ends sem (next res) s₁ out s₂) :
    Ends sem (.call op next) s out s₂ :=
  let ⟨trace, hrun⟩ := h
  ⟨s₁ :: trace, Runs.call hsem hrun⟩

theorem Ends.bind {p : Prog E ε α} {f : α → Prog E ε β} {s s₁ s₂ : σ} {value : α}
    {out : Except ε β} (hp : Ends sem p s (.ok value) s₁) (hf : Ends sem (f value) s₁ out s₂) :
    Ends sem (p >>= f) s out s₂ :=
  let ⟨_, hp⟩ := hp
  let ⟨_, hf⟩ := hf
  ⟨_, hp.bind hf⟩

/-- More answers, more runs. -/
theorem Runs.mono {sem' : Sem E σ} {p : Prog E ε α} {s s' : σ} {trace : List σ}
    {out : Except ε α} (hrun : Runs sem p s trace out s')
    (hsem : ∀ s op res s', sem s op res s' → sem' s op res s') : Runs sem' p s trace out s' := by
  induction hrun with
  | ret => exact .ret
  | raise => exact .raise
  | call hcall _ ih => exact .call (hsem _ _ _ _ hcall) ih

/-- A program that has a run visits the state it starts in. -/
theorem Visits.start {p : Prog E ε α} {s : σ} (h : ∃ out s', Ends sem p s out s') :
    Visits sem p s s :=
  let ⟨out, last, trace, hrun⟩ := h
  ⟨trace, out, last, hrun, List.mem_cons_self⟩

/-- A run of a sequence is a run of its first part, with one of the second after it if the first
    returns. -/
theorem Ends.of_bind {p : Prog E ε α} {f : α → Prog E ε β} {s s' : σ} {out : Except ε β}
    (h : Ends sem (p >>= f) s out s') :
    (∃ err, out = .error err ∧ Ends sem p s (.error err) s') ∨
      ∃ value s₁, Ends sem p s (.ok value) s₁ ∧ Ends sem (f value) s₁ out s' := by
  obtain ⟨trace, hrun⟩ := h
  induction p generalizing s trace with
  | ret value => exact Or.inr ⟨value, s, .ret, trace, hrun⟩
  | raise err =>
    cases hrun
    exact Or.inl ⟨err, rfl, _, .raise⟩
  | call op next ih =>
    cases hrun with
    | call hsem hrest =>
      rcases ih _ _ hrest with ⟨err, hout, hends⟩ | ⟨value, s₁, hends, hf⟩
      · exact Or.inl ⟨err, hout, hends.call hsem⟩
      · exact Or.inr ⟨value, s₁, hends.call hsem, hf⟩

theorem Ends.of_perform {op : E.Op} {f : E.Res op → Prog E ε α} {s s' : σ} {out : Except ε α}
    (h : Ends sem (Prog.perform op >>= f) s out s') :
    ∃ res s₁, sem s op res s₁ ∧ Ends sem (f res) s₁ out s' := by
  obtain ⟨trace, hrun⟩ := h
  cases hrun with
  | call hsem hrest => exact ⟨_, _, hsem, _, hrest⟩

theorem Ends.perform {op : E.Op} {s s' : σ} {res : E.Res op} (hsem : sem s op res s') :
    Ends sem (Prog.perform op : Prog E ε (E.Res op)) s (.ok res) s' :=
  ⟨_, .call hsem .ret⟩

theorem Ends.of_ret {value : α} {s s' : σ} {out : Except ε α}
    (h : Ends sem (.ret value : Prog E ε α) s out s') : out = .ok value ∧ s' = s := by
  obtain ⟨trace, hrun⟩ := h
  cases hrun
  exact ⟨rfl, rfl⟩

theorem ends_ret_iff {value : α} {s s' : σ} {out : Except ε α} :
    Ends sem (.ret value : Prog E ε α) s out s' ↔ out = .ok value ∧ s' = s := by
  refine ⟨Ends.of_ret, ?_⟩
  rintro ⟨rfl, rfl⟩
  exact .ret

theorem ends_raise_iff {err : ε} {s s' : σ} {out : Except ε α} :
    Ends sem (.raise err : Prog E ε α) s out s' ↔ out = .error err ∧ s' = s := by
  constructor
  · rintro ⟨trace, hrun⟩
    cases hrun
    exact ⟨rfl, rfl⟩
  · rintro ⟨rfl, rfl⟩
    exact ⟨_, .raise⟩

/-- A call with a single answer. -/
theorem ends_call_iff {op : E.Op} {next : E.Res op → Prog E ε α} {s s₁ s' : σ} {res : E.Res op}
    {out : Except ε α} (h : ∀ res' s₁', sem s op res' s₁' ↔ res' = res ∧ s₁' = s₁) :
    Ends sem (.call op next) s out s' ↔ Ends sem (next res) s₁ out s' := by
  constructor
  · rintro ⟨trace, hrun⟩
    cases hrun with
    | call hsem hrest =>
      obtain ⟨rfl, rfl⟩ := (h _ _).mp hsem
      exact ⟨_, hrest⟩
  · exact Ends.call ((h _ _).mpr ⟨rfl, rfl⟩)

theorem Visits.call {op : E.Op} {next : E.Res op → Prog E ε α} {s s₁ s' : σ} {res : E.Res op}
    (hsem : sem s op res s₁) (h : Visits sem (next res) s₁ s') :
    Visits sem (.call op next) s s' :=
  let ⟨trace, out, last, hrun, hmem⟩ := h
  ⟨s₁ :: trace, out, last, Runs.call hsem hrun, List.mem_cons_of_mem _ hmem⟩

theorem Visits.bind {p : Prog E ε α} {f : α → Prog E ε β} {s s₁ s' : σ} {value : α}
    (hp : Ends sem p s (.ok value) s₁) (hf : Visits sem (f value) s₁ s') :
    Visits sem (p >>= f) s s' := by
  obtain ⟨trace₀, hrun₀⟩ := hp
  generalize hout : (Except.ok value : Except ε α) = out₀ at hrun₀
  induction hrun₀ with
  | ret => cases hout; exact hf
  | raise => cases hout
  | call hsem _ ih => exact Visits.call hsem (ih hf hout)

/-! ## Weakest preconditions

`wp sem G p Q s`: started in `s`, every run of `p` ends in an outcome and a state that satisfy `Q`,
and every call is made in a state that allows it (`G`).  The guard is what turns the same
definition into a statement about intermediate states (`G` is an invariant) and about protocols
(`σ` is a phase and `G` says which calls the phase admits). -/

def wp (sem : Sem E σ) (G : σ → E.Op → Prop) :
    Prog E ε α → (Except ε α → σ → Prop) → σ → Prop
  | .ret value, Q, s => Q (.ok value) s
  | .raise err, Q, s => Q (.error err) s
  | .call op next, Q, s => G s op ∧ ∀ res s', sem s op res s' → wp sem G (next res) Q s'

variable {G : σ → E.Op → Prop}

@[simp] theorem wp_ret (value : α) (Q : Except ε α → σ → Prop) (s : σ) :
    wp sem G (.ret value) Q s ↔ Q (.ok value) s := Iff.rfl

@[simp] theorem wp_raise (err : ε) (Q : Except ε α → σ → Prop) (s : σ) :
    wp sem G (.raise err) Q s ↔ Q (.error err) s := Iff.rfl

@[simp] theorem wp_call (op : E.Op) (next : E.Res op → Prog E ε α)
    (Q : Except ε α → σ → Prop) (s : σ) :
    wp sem G (.call op next) Q s ↔
      G s op ∧ ∀ res s', sem s op res s' → wp sem G (next res) Q s' := Iff.rfl

theorem wp_mono {p : Prog E ε α} {Q R : Except ε α → σ → Prop} {s : σ}
    (hp : wp sem G p Q s) (hQR : ∀ out s', Q out s' → R out s') : wp sem G p R s := by
  induction p generalizing s with
  | ret value => exact hQR _ _ hp
  | raise err => exact hQR _ _ hp
  | call op next ih =>
    exact ⟨hp.1, fun res s' hsem => ih res (hp.2 res s' hsem)⟩

theorem wp_trivial {p : Prog E ε α} {s : σ} (hG : ∀ s op, G s op) :
    wp sem G p (fun _ _ => True) s := by
  induction p generalizing s with
  | ret value => trivial
  | raise err => trivial
  | call op next ih => exact ⟨hG _ _, fun res s' _ => ih res⟩

theorem wp_guard_mono {G' : σ → E.Op → Prop} {p : Prog E ε α} {Q : Except ε α → σ → Prop} {s : σ}
    (hp : wp sem G p Q s) (hG : ∀ s op, G s op → G' s op) : wp sem G' p Q s := by
  induction p generalizing s with
  | ret value => exact hp
  | raise err => exact hp
  | call op next ih =>
    exact ⟨hG _ _ hp.1, fun res s' hsem => ih res (hp.2 res s' hsem)⟩

/-- Continue with `f` after a normal outcome, stop after an error. -/
def andThen (Q : Except ε β → σ → Prop) (K : α → σ → Prop) : Except ε α → σ → Prop
  | .ok value, s => K value s
  | .error err, s => Q (.error err) s

@[simp] theorem andThen_ok (Q : Except ε β → σ → Prop) (K : α → σ → Prop) (value : α) (s : σ) :
    andThen Q K (.ok value) s ↔ K value s := Iff.rfl

@[simp] theorem andThen_error (Q : Except ε β → σ → Prop) (K : α → σ → Prop) (err : ε) (s : σ) :
    andThen Q K (.error err) s ↔ Q (.error err) s := Iff.rfl

theorem wp_bind {p : Prog E ε α} {f : α → Prog E ε β} {Q : Except ε β → σ → Prop} {s : σ} :
    wp sem G (p.bind f) Q s ↔
      wp sem G p (andThen Q fun value s' => wp sem G (f value) Q s') s := by
  induction p generalizing s with
  | ret value => rfl
  | raise err => rfl
  | call op next ih => simp only [Prog.bind_call, wp_call, ih]

/-- A postcondition about normal returns only. -/
def returning (P : α → σ → Prop) : Except ε α → σ → Prop
  | .ok value, s => P value s
  | .error _, _ => True

theorem wp_bind_returning {p : Prog E ε α} {f : α → Prog E ε β} {P : α → σ → Prop}
    {R : β → σ → Prop} {s : σ} (hp : wp sem G p (returning P) s)
    (hf : ∀ value s', P value s' → wp sem G (f value) (returning R) s') :
    wp sem G (p >>= f) (returning R) s := by
  refine wp_bind.mpr (wp_mono hp ?_)
  intro out s' hout
  cases out with
  | ok value => exact hf value s' hout
  | error err => trivial

theorem wp_catching {p : Prog E ε α} {h : ε → Prog E ε α} {Q : Except ε α → σ → Prop} {s : σ} :
    wp sem G (p.catching h) Q s ↔
      wp sem G p (fun out s' => match out with
        | .ok value => Q (.ok value) s'
        | .error err => wp sem G (h err) Q s') s := by
  induction p generalizing s with
  | ret value => rfl
  | raise err => rfl
  | call op next ih => simp only [Prog.catching, wp_call, ih]

theorem wp_finally {p : Prog E ε α} {c : Prog E ε Unit} {Q : Except ε α → σ → Prop} {s : σ} :
    wp sem G (p.finally_ c) Q s ↔
      wp sem G p (fun out s' => wp sem G (c.bind fun _ => Prog.ofExcept out) Q s') s := by
  induction p generalizing s with
  | ret value => rfl
  | raise err => rfl
  | call op next ih => simp only [Prog.finally_, wp_call, ih]

/-- A weakest precondition bounds every run. -/
theorem Runs.of_wp {p : Prog E ε α} {Q : Except ε α → σ → Prop} {s s' : σ}
    {trace : List σ} {out : Except ε α}
    (hrun : Runs sem p s trace out s') (hwp : wp sem G p Q s) : Q out s' := by
  induction hrun with
  | ret => exact hwp
  | raise => exact hwp
  | call hsem _ ih => exact ih (hwp.2 _ _ hsem)

theorem Ends.of_wp {p : Prog E ε α} {Q : Except ε α → σ → Prop} {s s' : σ}
    {out : Except ε α} (hends : Ends sem p s out s') (hwp : wp sem G p Q s) : Q out s' :=
  let ⟨_, hrun⟩ := hends
  hrun.of_wp hwp

/-- Two facts about one program hold together. -/
theorem wp_and {G' : σ → E.Op → Prop} {p : Prog E ε α} {Q R : Except ε α → σ → Prop} {s : σ}
    (hQ : wp sem G p Q s) (hR : wp sem G' p R s) :
    wp sem G p (fun out s' => Q out s' ∧ R out s') s := by
  induction p generalizing s with
  | ret value => exact ⟨hQ, hR⟩
  | raise err => exact ⟨hQ, hR⟩
  | call op next ih =>
    exact ⟨hQ.1, fun res s' hsem => ih res (hQ.2 res s' hsem) (hR.2 res s' hsem)⟩

/-- What holds at every call and at the end holds wherever the program is interrupted. -/
theorem Visits.of_wp {p : Prog E ε α} {I : σ → Prop} {s s' : σ} (hvisits : Visits sem p s s')
    (hwp : wp sem (fun s _ => I s) p (fun _ s => I s) s) : I s' := by
  obtain ⟨trace, out, last, hrun, hmem⟩ := hvisits
  induction hrun with
  | ret =>
    rw [List.mem_singleton.mp hmem]
    exact hwp
  | raise =>
    rw [List.mem_singleton.mp hmem]
    exact hwp
  | call hsem _ ih =>
    rcases List.mem_cons.mp hmem with rfl | hlater
    · exact hwp.1
    · exact ih (hwp.2 _ _ hsem) hlater

/-! ## Frames

What a program cannot do: it only makes calls from a set `A`, whatever they answer.  Whatever the
calls of `A` preserve, the program preserves. -/

/-- Every call the program can ever make satisfies `A`. -/
inductive CallsOnly (A : E.Op → Prop) : Prog E ε α → Prop
  | ret {value} : CallsOnly A (.ret value)
  | raise {err} : CallsOnly A (.raise err)
  | call {op next} : A op → (∀ res, CallsOnly A (next res)) → CallsOnly A (.call op next)

variable {A : E.Op → Prop}

theorem CallsOnly.next {op : E.Op} {next : E.Res op → Prog E ε α}
    (hp : CallsOnly A (.call op next)) (res : E.Res op) : CallsOnly A (next res) := by
  cases hp with
  | call _ hnext => exact hnext res

theorem CallsOnly.mono {A' : E.Op → Prop} {p : Prog E ε α} (hp : CallsOnly A p)
    (hA : ∀ op, A op → A' op) : CallsOnly A' p := by
  induction hp with
  | ret => exact .ret
  | raise => exact .raise
  | call hop _ ih => exact .call (hA _ hop) ih

theorem CallsOnly.bind {p : Prog E ε α} {f : α → Prog E ε β} (hp : CallsOnly A p)
    (hf : ∀ value, CallsOnly A (f value)) : CallsOnly A (p >>= f) := by
  induction hp with
  | ret => exact hf _
  | raise => exact .raise
  | call hop _ ih => exact .call hop ih

theorem CallsOnly.catching {p : Prog E ε α} {h : ε → Prog E ε α} (hp : CallsOnly A p)
    (hh : ∀ err, CallsOnly A (h err)) : CallsOnly A (p.catching h) := by
  induction hp with
  | ret => exact .ret
  | raise => exact hh _
  | call hop _ ih => exact .call hop ih

theorem CallsOnly.finally_ {p : Prog E ε α} {c : Prog E ε Unit} (hp : CallsOnly A p)
    (hc : CallsOnly A c) : CallsOnly A (p.finally_ c) := by
  induction hp with
  | ret => exact hc.bind fun _ => .ret
  | raise => exact hc.bind fun _ => .raise
  | call hop _ ih => exact .call hop ih

theorem CallsOnly.ite {c : Prop} [Decidable c] {p q : Prog E ε α} (hp : CallsOnly A p)
    (hq : CallsOnly A q) : CallsOnly A (if c then p else q) := by
  split
  · exact hp
  · exact hq

theorem CallsOnly.always (p : Prog E ε α) : CallsOnly (fun _ => True) p := by
  induction p with
  | ret value => exact .ret
  | raise err => exact .raise
  | call op next ih => exact .call trivial ih

theorem CallsOnly.perform {op : E.Op} (h : A op) :
    CallsOnly A (Prog.perform op : Prog E ε (E.Res op)) := .call h fun _ => .ret

theorem CallsOnly.ofExcept {result : Except ε α} :
    CallsOnly A (Prog.ofExcept result : Prog E ε α) := by
  cases result with
  | ok value => exact .ret
  | error err => exact .raise

/-- **The frame rule.** -/
theorem CallsOnly.preserves {I : σ → Prop} {p : Prog E ε α} (hp : CallsOnly A p)
    (hI : ∀ s op res s', A op → I s → sem s op res s' → I s') {s : σ} (hs : I s) :
    wp sem (fun s _ => I s) p (fun _ s' => I s') s := by
  induction hp generalizing s with
  | ret => exact hs
  | raise => exact hs
  | call hop _ ih => exact ⟨hs, fun res s' hsem => ih res (hI s _ res s' hop hs hsem)⟩

/-- A program that never makes a blocking call has a run. -/
theorem CallsOnly.exists_ends {p : Prog E ε α} (hp : CallsOnly A p)
    (hA : ∀ s op, A op → ∃ res s', sem s op res s') (s : σ) : ∃ out s', Ends sem p s out s' := by
  induction hp generalizing s with
  | @ret value => exact ⟨.ok value, s, Ends.ret⟩
  | @raise err => exact ⟨.error err, s, _, Runs.raise⟩
  | call hop _ ih =>
    obtain ⟨res, s₁, hsem⟩ := hA s _ hop
    obtain ⟨out, s₂, hends⟩ := ih res s₁
    exact ⟨out, s₂, Ends.call hsem hends⟩

/-! ## Programs within a larger signature -/

/-- The program, with its calls as calls of a larger signature and its exceptions handled. -/
def Prog.within {E E' : Effect} {ε ε' α : Type} (lift : E.Op → E'.Op)
    (answer : ∀ op, E'.Res (lift op) → E.Res op) (handler : ε → Prog E' ε' α) :
    Prog E ε α → Prog E' ε' α
  | .ret value => .ret value
  | .raise err => handler err
  | .call op next => .call (lift op) fun res => (next (answer op res)).within lift answer handler

theorem CallsOnly.within {E' : Effect} {ε' : Type} {A : E'.Op → Prop} {lift : E.Op → E'.Op}
    {answer : ∀ op, E'.Res (lift op) → E.Res op} {handler : ε → Prog E' ε' α} (hA : ∀ op, A (lift op))
    (hhandler : ∀ err, CallsOnly A (handler err)) (p : Prog E ε α) :
    CallsOnly A (p.within lift answer handler) := by
  induction p with
  | ret value => exact .ret
  | raise err => exact hhandler err
  | call op next ih => exact .call (hA op) fun res => ih _

/-! ## Executable environments -/

/-- An environment that computes: once the choices the outside world makes about a call are
    fixed, its answer is determined; `none` means that the call blocks. -/
structure Machine (E : Effect) (σ : Type) where
  Choice : E.Op → Type
  exec : σ → (op : E.Op) → Choice op → Option (E.Res op × σ)

/-- The answers of a machine under the choices a policy permits. -/
def Machine.answers (M : Machine E σ) (policy : (op : E.Op) → M.Choice op → Prop) : Sem E σ :=
  fun s op res s' => ∃ choice, policy op choice ∧ M.exec s op choice = some (res, s')

/-- Run a program with the choices taken from `pick`: the states passed, the outcome, the end. -/
def Machine.run (M : Machine E σ) (pick : (op : E.Op) → M.Choice op) :
    Prog E ε α → σ → Option (List σ × Except ε α × σ)
  | .ret value, s => some ([], .ok value, s)
  | .raise err, s => some ([], .error err, s)
  | .call op next, s =>
    match M.exec s op (pick op) with
    | none => none
    | some (res, s₁) =>
      match M.run pick (next res) s₁ with
      | none => none
      | some (trace, out, s₂) => some (s₁ :: trace, out, s₂)

/-- What the executable runner computes is a run. -/
theorem Machine.runs_of_run {M : Machine E σ} {pick : (op : E.Op) → M.Choice op}
    {policy : (op : E.Op) → M.Choice op → Prop} (hpick : ∀ op, policy op (pick op))
    {p : Prog E ε α} {s s' : σ} {trace : List σ} {out : Except ε α}
    (hrun : M.run pick p s = some (trace, out, s')) :
    Runs (M.answers policy) p s trace out s' := by
  induction p generalizing s trace with
  | ret value => cases hrun; exact Runs.ret
  | raise err => cases hrun; exact Runs.raise
  | call op next ih =>
    simp only [Machine.run] at hrun
    split at hrun
    · cases hrun
    · rename_i res s₁ hexec
      split at hrun
      · cases hrun
      · rename_i trace' out' s₂ hrest
        cases hrun
        exact Runs.call ⟨pick op, hpick op, hexec⟩ (ih res hrest)

end EdoPlugin.Interaction
