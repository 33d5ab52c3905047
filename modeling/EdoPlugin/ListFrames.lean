import Mathlib.Data.List.Basic

/-!
# What a change leaves of a table

A table is a list, and the elements that do not concern someone are what a filter keeps of it.  A
change frames them if the filter keeps the same elements, in the same order, after it.
-/

namespace EdoPlugin.ListFrames

variable {α : Type} {keep keep' : α → Bool} {l : List α}

/-- Each element on its own is spared, or it is another one and nothing kept comes of it. -/
theorem filter_filterMap_frame {f : α → Option α}
    (h : ∀ a ∈ l, f a = some a ∨ (keep a = false ∧ ∀ b ∈ f a, keep b = false)) :
    (l.filterMap f).filter keep = l.filter keep := by
  induction l with
  | nil => rfl
  | cons a l ih =>
    have hrest := ih fun b hb => h b (List.mem_cons_of_mem _ hb)
    rcases h a List.mem_cons_self with hsame | ⟨hbefore, hafter⟩
    · simp only [List.filterMap_cons, hsame, List.filter_cons, hrest]
    · cases hf : f a with
      | none => simp [hf, hbefore, hrest]
      | some b => simp [hf, hbefore, hafter b hf, hrest]

/-- An update that spares the elements kept, and turns no other element into one of them. -/
theorem filter_map_frame {f : α → α}
    (h : ∀ a ∈ l, f a = a ∨ (keep a = false ∧ keep (f a) = false)) :
    (l.map f).filter keep = l.filter keep := by
  rw [← List.filterMap_eq_map]
  apply filter_filterMap_frame
  intro a ha
  rcases h a ha with hsame | ⟨hbefore, hafter⟩
  · exact Or.inl (congrArg some hsame)
  · refine Or.inr ⟨hbefore, ?_⟩
    rintro b ⟨⟩
    exact hafter

/-- A removal of other elements. -/
theorem filter_filter_frame (h : ∀ a ∈ l, keep a = true → keep' a = true) :
    (l.filter keep').filter keep = l.filter keep := by
  rw [List.filter_filter]
  apply List.filter_congr
  intro a ha
  cases hkeep : keep a with
  | false => rfl
  | true => simp [h a ha hkeep]

/-- An addition of other elements. -/
theorem filter_append_frame {added : List α} (h : ∀ a ∈ added, keep a = false) :
    (l ++ added).filter keep = l.filter keep := by
  have hadded : added.filter keep = [] := by
    rw [List.filter_eq_nil_iff]
    intro a ha
    simp [h a ha]
  rw [List.filter_append, hadded, List.append_nil]

end EdoPlugin.ListFrames
