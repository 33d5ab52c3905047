import Mathlib

/-!
# The least values with a property

A list of the `count` least values that have a property, in increasing order: there is at most one,
and the first part of an increasing list of all values with the property is one.
-/

namespace EdoPlugin.LeastValues

variable {α : Type} [LinearOrder α] {p : α → Prop} {count : Nat} {values values' all : List α}

structure IsLeastValues (p : α → Prop) (count : Nat) (values : List α) : Prop where
  length : values.length = count
  increasing : values.Pairwise (· < ·)
  holds : ∀ value ∈ values, p value
  least : ∀ other, p other → other ∉ values → ∀ value ∈ values, value < other

theorem IsLeastValues.nodup (h : IsLeastValues p count values) : values.Nodup :=
  h.increasing.imp ne_of_lt

theorem IsLeastValues.subset (h : IsLeastValues p count values)
    (h' : IsLeastValues p count values') : values ⊆ values' := by
  intro value hvalue
  by_contra hmissing
  -- some other value takes its place in the second list
  have hsubset : ¬ values' ⊆ values := by
    intro hsubset
    have hperm := (h'.nodup.subperm hsubset).perm_of_length_le (by rw [h.length, h'.length])
    exact hmissing (hperm.symm.subset hvalue)
  obtain ⟨other, hother, hnot⟩ : ∃ other ∈ values', other ∉ values := by
    simpa [List.subset_def] using hsubset
  have hlt := h'.least value (h.holds value hvalue) hmissing other hother
  have hgt := h.least other (h'.holds other hother) hnot value hvalue
  exact lt_asymm hlt hgt

theorem IsLeastValues.unique (h : IsLeastValues p count values)
    (h' : IsLeastValues p count values') : values = values' := by
  have hperm : values.Perm values' := by
    rw [List.perm_ext_iff_of_nodup h.nodup h'.nodup]
    intro value
    exact ⟨fun hvalue => h.subset h' hvalue, fun hvalue => h'.subset h hvalue⟩
  exact hperm.eq_of_pairwise (fun a b _ _ hab hba => absurd hba (lt_asymm hab)) h.increasing
    h'.increasing

theorem isLeastValues_take (hincreasing : all.Pairwise (· < ·)) (hall : ∀ value, value ∈ all ↔ p value)
    (hcount : count ≤ all.length) : IsLeastValues p count (all.take count) := by
  constructor
  · rw [List.length_take]
    omega
  · exact hincreasing.sublist (List.take_sublist count all)
  · exact fun value hvalue => (hall value).mp (List.mem_of_mem_take hvalue)
  · intro other hother hmissing value hvalue
    have hsplit := List.take_append_drop count all
    rw [← hsplit, List.pairwise_append] at hincreasing
    have hmem := (hall other).mpr hother
    rw [← hsplit, List.mem_append] at hmem
    exact hincreasing.2.2 value hvalue other (hmem.resolve_left hmissing)

/-- An increasing list of all values with the property has as many as there are. -/
theorem ncard_setOf (hincreasing : all.Pairwise (· < ·)) (hall : ∀ value, value ∈ all ↔ p value) :
    {value | p value}.ncard = all.length := by
  have hset : {value | p value} = (all.toFinset : Set α) := by
    ext value
    simp [hall]
  rw [hset, Set.ncard_coe_finset]
  exact List.toFinset_card_of_nodup (hincreasing.imp ne_of_lt)

end EdoPlugin.LeastValues
