import Mathlib.Algebra.BigOperators.Group.List.Basic
import Mathlib.Tactic.Abel

/-!
# Sums over a keyed table with a default

A table has at most one row for each key, and a key without a row counts as a default.  The sum over
some keys can be taken key by key, or from the rows of these keys with the default added for every
key that has none; the two agree.
-/

namespace EdoPlugin.KeyedSums

variable {ρ κ M : Type} [DecidableEq κ] [AddCommMonoid M] {key : ρ → κ} {rows : List ρ} {keys : List κ}

/-- The rows of a key are the one that a search finds. -/
theorem filter_key_eq (hrows : (rows.map key).Nodup) (k : κ) :
    rows.filter (fun row => key row = k) = (rows.find? fun row => key row = k).toList := by
  induction rows with
  | nil => rfl
  | cons row rows ih =>
    obtain ⟨hfresh, hrest⟩ := List.nodup_cons.mp hrows
    by_cases hkey : key row = k
    · have hothers : rows.filter (fun row => key row = k) = [] := by
        rw [List.filter_eq_nil_iff]
        intro other hother heq
        apply hfresh
        rw [hkey, ← of_decide_eq_true heq]
        exact List.mem_map_of_mem hother
      simp [hkey, hothers]
    · simp [hkey, ih hrest]

/-- The rows of one key more. -/
theorem filter_cons_perm {k : κ} (hk : k ∉ keys) :
    (rows.filter fun row => key row ∈ k :: keys).Perm
      (rows.filter (fun row => key row = k) ++ rows.filter fun row => key row ∈ keys) := by
  have hsplit := (List.filter_append_perm (fun row => decide (key row = k))
    (rows.filter fun row => key row ∈ k :: keys)).symm
  have hown : rows.filter (fun row => decide (key row = k) && decide (key row ∈ k :: keys)) =
      rows.filter fun row => key row = k := by
    apply List.filter_congr
    intro row _
    by_cases hrow : key row = k <;> simp [hrow]
  have hothers : rows.filter (fun row => !decide (key row = k) && decide (key row ∈ k :: keys)) =
      rows.filter fun row => key row ∈ keys := by
    apply List.filter_congr
    intro row _
    by_cases hrow : key row = k
    · simp [hrow, hk]
    · simp [hrow]
  rw [List.filter_filter, List.filter_filter, hown, hothers] at hsplit
  exact hsplit

/-- **The two sums agree.** -/
theorem sum_default (value : ρ → M) (default : M) (hkeys : keys.Nodup)
    (hrows : (rows.map key).Nodup) :
    (keys.map fun k => ((rows.find? fun row => key row = k).map value).getD default).sum +
        (rows.filter fun row => key row ∈ keys).length • default =
      ((rows.filter fun row => key row ∈ keys).map value).sum + keys.length • default := by
  induction keys with
  | nil => simp
  | cons k keys ih =>
    obtain ⟨hk, hrest⟩ := List.nodup_cons.mp hkeys
    have hperm : (rows.filter fun row => key row ∈ k :: keys).Perm
        (rows.filter (fun row => key row = k) ++ rows.filter fun row => key row ∈ keys) :=
      filter_cons_perm hk
    rw [hperm.length_eq, (hperm.map value).sum_eq, filter_key_eq hrows]
    simp only [List.map_cons, List.sum_cons, List.length_append, List.map_append, List.sum_append,
      List.length_cons, add_nsmul, one_nsmul]
    have hkept := ih hrest
    generalize (keys.map fun k => ((rows.find? fun row => key row = k).map value).getD default).sum =
      effective at hkept ⊢
    generalize ((rows.filter fun row => key row ∈ keys).map value).sum = stored at hkept ⊢
    generalize (rows.filter fun row => key row ∈ keys).length • default = counted at hkept ⊢
    cases rows.find? fun row => key row = k with
    | none =>
      -- the default is added once more on both sides
      simp only [Option.map_none, Option.getD_none, Option.toList_none, List.length_nil, List.map_nil,
        List.sum_nil, zero_nsmul, zero_add]
      rw [add_assoc, hkept]
      abel
    | some row =>
      -- the row counts on both sides, and one default less
      simp only [Option.map_some, Option.getD_some, Option.toList_some, List.length_singleton,
        List.map_cons, List.map_nil, List.sum_singleton, one_nsmul]
      calc value row + effective + (default + counted)
          = value row + default + (effective + counted) := by abel
        _ = value row + default + (stored + keys.length • default) := by rw [hkept]
        _ = value row + stored + (keys.length • default + default) := by abel

end EdoPlugin.KeyedSums
