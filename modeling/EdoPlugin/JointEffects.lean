import EdoPlugin.Interleaving

/-!
# Programs over two environments

A program may talk to two environments that know nothing of each other: a connection and a database,
say.  Its signature is the sum of theirs and its state the pair of their states.  A part that talks to
one of them runs as it would alone, and leaves the other as it was.

Nothing here names a particular effect.
-/

namespace EdoPlugin.Interaction

/-- The calls of two signatures. -/
@[reducible] def Effect.sum (E F : Effect) : Effect where
  Op := E.Op ⊕ F.Op
  Res
    | .inl op => E.Res op
    | .inr op => F.Res op

variable {E F : Effect} {ε ε' α γ σ τ : Type}

/-- Each environment answers its own calls. -/
def Sem.sum (semE : Sem E σ) (semF : Sem F τ) : Sem (E.sum F) (σ × τ)
  | s, .inl op, res, s' => semE s.1 op res s'.1 ∧ s'.2 = s.2
  | s, .inr op, res, s' => semF s.2 op res s'.2 ∧ s'.1 = s.1

/-- A program of the first environment, its exceptions translated. -/
def Prog.first (F : Effect) (translate : ε → ε') (p : Prog E ε α) : Prog (E.sum F) ε' α :=
  @Prog.within E (E.sum F) ε ε' α Sum.inl (fun _ res => res) (fun err => .raise (translate err)) p

/-- A program of the second environment, its exceptions translated. -/
def Prog.second (E : Effect) (translate : ε → ε') (p : Prog F ε α) : Prog (E.sum F) ε' α :=
  @Prog.within F (E.sum F) ε ε' α Sum.inr (fun _ res => res) (fun err => .raise (translate err)) p

/-- An outcome with its exception translated. -/
def translated (translate : ε → ε') : Except ε α → Except ε' α
  | .ok value => .ok value
  | .error err => .error (translate err)

@[simp] theorem translated_id (out : Except ε α) : translated id out = out := by
  cases out <;> rfl

section Rules

variable {semE : Sem E σ} {semF : Sem F τ} {translate : ε → ε'} {s : σ} {t : τ}
  {Q : Except ε' α → σ × τ → Prop}

theorem wp_first {p : Prog E ε α}
    (h : wp semE (fun _ _ => True) p (fun out s' => Q (translated translate out) (s', t)) s) :
    wp (semE.sum semF) (fun _ _ => True) (p.first F translate) Q (s, t) := by
  induction p generalizing s with
  | ret value => exact h
  | raise err => exact h
  | call op next ih =>
    refine ⟨trivial, ?_⟩
    rintro res ⟨s', t'⟩ ⟨hsem, ht⟩
    cases ht
    exact ih res (h.2 res s' hsem)

theorem wp_second {p : Prog F ε α}
    (h : wp semF (fun _ _ => True) p (fun out t' => Q (translated translate out) (s, t')) t) :
    wp (semE.sum semF) (fun _ _ => True) (p.second E translate) Q (s, t) := by
  induction p generalizing t with
  | ret value => exact h
  | raise err => exact h
  | call op next ih =>
    refine ⟨trivial, ?_⟩
    rintro res ⟨s', t'⟩ ⟨hsem, hs⟩
    cases hs
    exact ih res (h.2 res t' hsem)

theorem Ends.first (translate : ε → ε') {p : Prog E ε α} {out : Except ε α} {s' : σ}
    (h : Ends semE p s out s') :
    Ends (semE.sum semF) (p.first F translate) (s, t) (translated translate out) (s', t) := by
  obtain ⟨trace, hrun⟩ := h
  induction hrun with
  | ret => exact .ret
  | raise => exact ⟨_, .raise⟩
  | call hsem _ ih => exact Ends.call (show semE.sum semF (_, t) (.inl _) _ (_, t) from ⟨hsem, rfl⟩) ih

theorem Ends.second (s : σ) (translate : ε → ε') {p : Prog F ε α} {out : Except ε α} {t' : τ}
    (h : Ends semF p t out t') :
    Ends (semE.sum semF) (p.second E translate) (s, t) (translated translate out) (s, t') := by
  obtain ⟨trace, hrun⟩ := h
  induction hrun with
  | ret => exact .ret
  | raise => exact ⟨_, .raise⟩
  | call hsem _ ih => exact Ends.call (show semE.sum semF (s, _) (.inr _) _ (s, _) from ⟨hsem, rfl⟩) ih

end Rules

/-! ## One state -/

/-- Both environments act on the same state. -/
def Sem.shared (semE : Sem E σ) (semF : Sem F σ) : Sem (E.sum F) σ
  | s, .inl op, res, s' => semE s op res s'
  | s, .inr op, res, s' => semF s op res s'

theorem wp_first_shared {semE : Sem E σ} {semF : Sem F σ} {translate : ε → ε'} {s : σ}
    {Q : Except ε' α → σ → Prop} {p : Prog E ε α}
    (h : wp semE (fun _ _ => True) p (fun out s' => Q (translated translate out) s') s) :
    wp (semE.shared semF) (fun _ _ => True) (p.first F translate) Q s := by
  induction p generalizing s with
  | ret value => exact h
  | raise err => exact h
  | call op next ih =>
    refine ⟨trivial, ?_⟩
    exact fun res s' hsem => ih res (h.2 res s' hsem)

theorem CallsOnly.first {A : (E.sum F).Op → Prop} {translate : ε → ε'} {p : Prog E ε α}
    (h : CallsOnly (fun op => A (.inl op)) p) : CallsOnly A (p.first F translate) := by
  induction h with
  | ret => exact .ret
  | raise => exact .raise
  | call hop _ ih => exact .call hop ih

theorem Conforms.first {Φ : Type} {expected : Φ → (op : (E.sum F).Op) → (E.sum F).Res op → Prop}
    {admits : Φ → (E.sum F).Op → Prop} {next : Φ → (op : (E.sum F).Op) → (E.sum F).Res op → Φ}
    {translate : ε → ε'} {p : Prog E ε α} {Q : Except ε' α → Φ → Prop} {phase : Φ}
    (h : Conforms (E := E) (fun φ op res => expected φ (.inl op) res) (fun φ op => admits φ (.inl op))
      (fun φ op res => next φ (.inl op) res) p (fun out φ => Q (translated translate out) φ) phase) :
    Conforms expected admits next (p.first F translate) Q phase := by
  induction p generalizing phase with
  | ret value => exact h
  | raise err => exact h
  | call op rest ih =>
    apply Conforms.call h.1
    exact fun res hexpected => ih res (h.2 res _ ⟨hexpected, rfl⟩)

/-- What holds whatever a call answers, holds when it answers less. -/
theorem wp_sem_mono {sem sem' : Sem E σ} {s : σ} {p : Prog E ε α} {Q : Except ε α → σ → Prop}
    (hsem : ∀ s op res s', sem s op res s' → sem' s op res s')
    (h : wp sem' (fun _ _ => True) p Q s) : wp sem (fun _ _ => True) p Q s := by
  induction p generalizing s with
  | ret value => exact h
  | raise err => exact h
  | call op next ih =>
    refine ⟨trivial, ?_⟩
    exact fun res s' hcall => ih res (h.2 res s' (hsem s op res s' hcall))

/-! ## Runs as postconditions -/

variable {sem : Sem E σ} {s : σ}

/-- Whatever a program comes to, it is what one of its runs comes to. -/
theorem wp_ends {p : Prog E ε α} :
    wp sem (fun _ _ => True) p (fun out s' => Ends sem p s out s') s := by
  induction p generalizing s with
  | ret value => exact .ret
  | raise err => exact ⟨_, .raise⟩
  | call op next ih =>
    refine ⟨trivial, fun res s₁ hsem => ?_⟩
    apply wp_mono (ih res)
    exact fun _ _ hends => hends.call hsem

/-- A run visits the state it ends in. -/
theorem Ends.visits {p : Prog E ε α} {out : Except ε α} {s' : σ} (h : Ends sem p s out s') :
    Visits sem p s s' := by
  obtain ⟨trace, hrun⟩ := h
  induction hrun with
  | ret => exact .start ⟨_, _, .ret⟩
  | raise => exact .start ⟨_, _, _, .raise⟩
  | call hsem _ ih => exact .call hsem ih

/-- The run of a sequence whose first part raises. -/
theorem Ends.bind_error {p : Prog E ε α} {f : α → Prog E ε γ} {s' : σ} {err : ε}
    (hp : Ends sem p s (.error err) s') : Ends sem (p >>= f) s (.error err) s' := by
  obtain ⟨trace, hrun⟩ := hp
  generalize hout : (Except.error err : Except ε α) = res at hrun
  induction hrun with
  | ret => cases hout
  | raise =>
    cases hout
    exact ⟨_, .raise⟩
  | call hsem _ ih => exact Ends.call hsem (ih hout)

/-- The run of a `try` whose body raises. -/
theorem Ends.catching_error {p : Prog E ε α} {handler : ε → Prog E ε α} {s₁ s' : σ} {err : ε}
    {out : Except ε α} (hp : Ends sem p s (.error err) s₁) (hh : Ends sem (handler err) s₁ out s') :
    Ends sem (p.catching handler) s out s' := by
  obtain ⟨trace, hrun⟩ := hp
  generalize hout : (Except.error err : Except ε α) = res at hrun
  induction hrun with
  | ret => cases hout
  | raise => cases hout; exact hh
  | call hsem _ ih => exact Ends.call hsem (ih hh hout)

/-- The run of a `try` whose body returns. -/
theorem Ends.catching_ok {p : Prog E ε α} {handler : ε → Prog E ε α} {s' : σ} {value : α}
    (hp : Ends sem p s (.ok value) s') : Ends sem (p.catching handler) s (.ok value) s' := by
  obtain ⟨trace, hrun⟩ := hp
  generalize hout : (Except.ok value : Except ε α) = res at hrun
  induction hrun with
  | ret =>
    cases hout
    exact .ret
  | raise => cases hout
  | call hsem _ ih => exact Ends.call hsem (ih hout)

/-- A program whose calls all stay in `A` behaves in a larger world as it does in the part of that
    world which those calls see. -/
theorem wp_alongside {sem' : Sem E τ} {A : E.Op → Prop} (part : τ → σ) (rest : τ → γ)
    (hsem : ∀ t op res t', A op → sem' t op res t' →
      sem (part t) op res (part t') ∧ rest t' = rest t)
    {p : Prog E ε α} (hp : CallsOnly A p) {Q : Except ε α → σ → Prop} {t : τ}
    (h : wp sem (fun _ _ => True) p Q (part t)) :
    wp sem' (fun _ _ => True) p (fun out t' => Q out (part t') ∧ rest t' = rest t) t := by
  induction hp generalizing t with
  | ret => exact ⟨h, rfl⟩
  | raise => exact ⟨h, rfl⟩
  | call hop _ ih =>
    refine ⟨trivial, fun res t' hcall => ?_⟩
    obtain ⟨hpart, hrest⟩ := hsem t _ res t' hop hcall
    apply wp_mono (ih res (h.2 res _ hpart))
    rintro out t'' ⟨hQ, hrest'⟩
    exact ⟨hQ, hrest'.trans hrest⟩

end EdoPlugin.Interaction
