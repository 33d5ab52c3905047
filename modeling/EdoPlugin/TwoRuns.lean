import EdoPlugin.JointEffects

/-!
# Two runs

One program is run in two states that differ in what it should not depend on.  It is indifferent to
the difference when whatever comes of it in the one state can come of it in the other, too, and the
states that are left differ no more than they did.  Nothing is said of which answer a call gives
where several are possible: the two runs are given the same ones.
-/

namespace EdoPlugin.Interaction

variable {E : Effect} {ε α β σ τ : Type} {sem : Sem E σ} {sem' : Sem E τ} {R : σ → τ → Prop}

/-- Whatever comes of `p` in `s`, the same can come of `q` in `t`. -/
def Imitates (sem : Sem E σ) (sem' : Sem E τ) (R : σ → τ → Prop) (p q : Prog E ε α) (s : σ) (t : τ) :
    Prop :=
  ∀ out s', Ends sem p s out s' → ∃ t', Ends sem' q t out t' ∧ R s' t'

namespace Imitates

variable {s : σ} {t : τ}

theorem ret {value : α} (h : R s t) :
    Imitates sem sem' R (.ret value : Prog E ε α) (.ret value) s t := by
  rintro _ _ ⟨_, ⟨⟩⟩
  exact ⟨t, .ret, h⟩

theorem raise {err : ε} (h : R s t) :
    Imitates sem sem' R (.raise err : Prog E ε α) (.raise err) s t := by
  rintro _ _ ⟨_, ⟨⟩⟩
  exact ⟨t, ⟨_, .raise⟩, h⟩

/-- One call each: each answer is matched by one after which the programs go on alike. -/
theorem call {op op' : E.Op} {next : E.Res op → Prog E ε α} {next' : E.Res op' → Prog E ε α}
    (h : ∀ res s', sem s op res s' → ∃ res' t', sem' t op' res' t' ∧
      Imitates sem sem' R (next res) (next' res') s' t') :
    Imitates sem sem' R (.call op next) (.call op' next') s t := by
  rintro out s' ⟨trace, hruns⟩
  cases hruns with
  | call hsem hrest =>
    obtain ⟨res', t', hsem', himitates⟩ := h _ _ hsem
    obtain ⟨t'', hends, hR⟩ := himitates out s' ⟨_, hrest⟩
    exact ⟨t'', .call hsem' hends, hR⟩

theorem bind {p q : Prog E ε α} {f g : α → Prog E ε β} (hp : Imitates sem sem' R p q s t)
    (hf : ∀ value s' t', R s' t' → Imitates sem sem' R (f value) (g value) s' t') :
    Imitates sem sem' R (p >>= f) (q >>= g) s t := by
  intro out s' hends
  rcases Ends.of_bind hends with ⟨err, hout, hfails⟩ | ⟨value, s₁, hreturns, hrest⟩
  · obtain ⟨t', hends', hR⟩ := hp _ _ hfails
    cases hout
    exact ⟨t', hends'.bind_error, hR⟩
  · obtain ⟨t₁, hends', hR⟩ := hp _ _ hreturns
    obtain ⟨t', hrest', hR'⟩ := hf value s₁ t₁ hR out s' hrest
    exact ⟨t', hends'.bind hrest', hR'⟩

end Imitates

/-- What `R` leaves open makes no difference to the program. -/
def Indifferent (sem : Sem E σ) (sem' : Sem E τ) (R : σ → τ → Prop) (p : Prog E ε α) : Prop :=
  ∀ s t, R s t → Imitates sem sem' R p p s t

namespace Indifferent

theorem ret {value : α} : Indifferent sem sem' R (.ret value : Prog E ε α) :=
  fun _ _ h => .ret h

theorem raise {err : ε} : Indifferent sem sem' R (.raise err : Prog E ε α) :=
  fun _ _ h => .raise h

theorem bind {p : Prog E ε α} {f : α → Prog E ε β} (hp : Indifferent sem sem' R p)
    (hf : ∀ value, Indifferent sem sem' R (f value)) : Indifferent sem sem' R (p >>= f) :=
  fun s t h => (hp s t h).bind fun value s' t' h' => hf value s' t' h'

/-- The same answer is possible in both states. -/
theorem perform {op : E.Op} (h : ∀ s t, R s t → ∀ res s', sem s op res s' →
    ∃ t', sem' t op res t' ∧ R s' t') :
    Indifferent sem sem' R (Prog.perform op : Prog E ε (E.Res op)) := by
  intro s t hR
  apply Imitates.call
  intro res s' hsem
  obtain ⟨t', hsem', hR'⟩ := h s t hR res s' hsem
  exact ⟨res, t', hsem', .ret hR'⟩

theorem ite {c : Prop} [Decidable c] {p q : Prog E ε α} (hp : Indifferent sem sem' R p)
    (hq : Indifferent sem sem' R q) : Indifferent sem sem' R (if c then p else q) := by
  split
  · exact hp
  · exact hq

theorem ofExcept {result : Except ε α} :
    Indifferent sem sem' R (Prog.ofExcept result : Prog E ε α) := by
  cases result with
  | ok value => exact .ret
  | error err => exact .raise

end Indifferent

end EdoPlugin.Interaction
