import Mathlib.Data.List.Induction

/-!
# First-match rule chains

A packet filter chain is an ordered list of rules.  A packet is decided by the first rule that
applies to it and has a verdict; a packet no rule decides falls off the end of the chain.  The
lemmas here are the ones needed to reason about a chain from the set of its rules: what a verdict
says about some rule of the chain, that copies of a rule add nothing, and when a chain is known to
reach a verdict.
-/

namespace EdoPlugin.FirstMatch

/-- How the rules of a chain read packets: `verdict` is `none` for a rule that does not decide. -/
structure RuleSemantics (ρ π τ : Type) where
  applies : ρ → π → Bool
  verdict : ρ → Option τ

variable {ρ π τ : Type} (S : RuleSemantics ρ π τ)

/-- The contribution of one rule to the decision about a packet. -/
def RuleSemantics.decides (packet : π) (rule : ρ) : Option τ :=
  if S.applies rule packet then S.verdict rule else none

/-- First-match evaluation; `none` means that the packet falls off the end. -/
def RuleSemantics.firstMatch (rules : List ρ) (packet : π) : Option τ :=
  rules.findSome? (S.decides packet)

variable {S}

theorem RuleSemantics.decides_eq_some_iff {packet : π} {rule : ρ} {v : τ} :
    S.decides packet rule = some v ↔ S.applies rule packet = true ∧ S.verdict rule = some v := by
  unfold RuleSemantics.decides
  split
  · rename_i happlies
    simp [happlies]
  · rename_i happlies
    simp [happlies]

@[simp] theorem firstMatch_nil (packet : π) : S.firstMatch [] packet = none := rfl

theorem firstMatch_cons (rule : ρ) (rules : List ρ) (packet : π) :
    S.firstMatch (rule :: rules) packet =
      (S.decides packet rule).or (S.firstMatch rules packet) := by
  unfold RuleSemantics.firstMatch
  rw [List.findSome?_cons]
  cases S.decides packet rule <;> rfl

theorem firstMatch_append (rules rules' : List ρ) (packet : π) :
    S.firstMatch (rules ++ rules') packet =
      (S.firstMatch rules packet).or (S.firstMatch rules' packet) := by
  unfold RuleSemantics.firstMatch
  rw [List.findSome?_append]

/-- A verdict is the verdict of some rule that applies. -/
theorem exists_rule_of_firstMatch {rules : List ρ} {packet : π} {v : τ}
    (h : S.firstMatch rules packet = some v) :
    ∃ rule ∈ rules, S.applies rule packet = true ∧ S.verdict rule = some v := by
  obtain ⟨rule, hmem, hdecides⟩ := List.exists_of_findSome?_eq_some h
  exact ⟨rule, hmem, RuleSemantics.decides_eq_some_iff.mp hdecides⟩

theorem firstMatch_eq_none {rules : List ρ} {packet : π}
    (h : ∀ rule ∈ rules, S.applies rule packet = false) : S.firstMatch rules packet = none := by
  unfold RuleSemantics.firstMatch
  rw [List.findSome?_eq_none_iff]
  intro rule hmem
  simp [RuleSemantics.decides, h rule hmem]

/-- A rule that has been tried already decides nothing more. -/
theorem firstMatch_append_cons_of_mem {rules rest : List ρ} {rule : ρ} {packet : π}
    (h : rule ∈ rules) :
    S.firstMatch (rules ++ rule :: rest) packet = S.firstMatch (rules ++ rest) packet := by
  rw [firstMatch_append, firstMatch_append, firstMatch_cons]
  cases hfirst : S.firstMatch rules packet with
  | some v => rfl
  | none =>
    unfold RuleSemantics.firstMatch at hfirst
    rw [List.findSome?_eq_none_iff] at hfirst
    rw [hfirst rule h]
    rfl

theorem eraseDups_concat [DecidableEq ρ] (rules : List ρ) (rule : ρ) :
    (rules ++ [rule]).eraseDups =
      if rule ∈ rules then rules.eraseDups else rules.eraseDups ++ [rule] := by
  rw [List.eraseDups_append]
  by_cases hmem : rule ∈ rules
  · simp [List.removeAll, hmem]
  · simp [List.removeAll, hmem, List.eraseDups_cons]

/-- Later copies of a rule never decide. -/
theorem firstMatch_eraseDups [DecidableEq ρ] (rules : List ρ) (packet : π) :
    S.firstMatch rules.eraseDups packet = S.firstMatch rules packet := by
  induction rules using List.reverseRecOn with
  | nil => rfl
  | append_singleton rules rule ih =>
    rw [eraseDups_concat]
    by_cases hmem : rule ∈ rules
    · rw [if_pos hmem, ih, firstMatch_append_cons_of_mem hmem, List.append_nil]
    · rw [if_neg hmem, firstMatch_append, firstMatch_append, ih]

/-- If every rule that applies to a packet has the verdict `v`, and some rule applies, then the
    order of the rules does not matter: the chain decides `v`. -/
theorem firstMatch_eq_some_of_forall {rules : List ρ} {packet : π} {v : τ} {rule : ρ}
    (hmem : rule ∈ rules) (happlies : S.applies rule packet = true)
    (hall : ∀ rule ∈ rules, S.applies rule packet = true → S.verdict rule = some v) :
    S.firstMatch rules packet = some v := by
  cases hfirst : S.firstMatch rules packet with
  | none =>
    unfold RuleSemantics.firstMatch at hfirst
    rw [List.findSome?_eq_none_iff] at hfirst
    have hnone := hfirst rule hmem
    rw [RuleSemantics.decides, if_pos happlies, hall rule hmem happlies] at hnone
    cases hnone
  | some w =>
    obtain ⟨other, hother, hother', hverdict⟩ := exists_rule_of_firstMatch hfirst
    rw [hall other hother hother'] at hverdict
    exact hverdict.symm

end EdoPlugin.FirstMatch
