import Mathlib

/-!
# Sliding windows over a pruned log

A log of the times of admitted events, oldest first, is to answer how many of them lie in the last
`window`.  It need not be kept whole: what has left the window never comes back while time does not
run backwards.  `Prunes` says what is left of a history, and `Bounded` what a limit on every window
that ends with an event says about all windows.

Nothing here names a particular service.
-/

namespace EdoPlugin.SlidingWindow

section Pruning

variable {T : Type} [LinearOrder T] {history log : List T} {cutoff horizon now now' : T}

/-- The entries of a history in a closed interval. -/
def within (history : List T) (first last : T) : List T :=
  history.filter fun t => first ≤ t ∧ t ≤ last

/-- The entries from some time on. -/
def since (history : List T) (cutoff : T) : List T := history.filter fun t => cutoff ≤ t

/-- Expired entries are dropped, from the front only. -/
def prune (log : List T) (cutoff : T) : List T := log.dropWhile fun t => t < cutoff

/-- Non-decreasing times, none of them in the future. -/
structure Ordered (history : List T) (now : T) : Prop where
  sorted : history.Pairwise (· ≤ ·)
  past : ∀ t ∈ history, t ≤ now

/-- The log is the history from a time on that is not after the horizon. -/
def Prunes (history log : List T) (horizon : T) : Prop :=
  ∃ cutoff, cutoff ≤ horizon ∧ log = since history cutoff

theorem Ordered.nil : Ordered [] now := ⟨List.Pairwise.nil, fun _ h => by cases h⟩

theorem Ordered.later (h : Ordered history now) (hle : now ≤ now') : Ordered history now' :=
  ⟨h.sorted, fun t ht => (h.past t ht).trans hle⟩

theorem Ordered.append (h : Ordered history now) : Ordered (history ++ [now]) now := by
  constructor
  · rw [List.pairwise_append]
    refine ⟨h.sorted, List.pairwise_singleton _ _, ?_⟩
    intro t ht u hu
    rw [List.mem_singleton.mp hu]
    exact h.past t ht
  · intro t ht
    rcases List.mem_append.mp ht with hold | hnew
    · exact h.past t hold
    · exact (List.mem_singleton.mp hnew).le

theorem prune_eq_since (h : log.Pairwise (· ≤ ·)) : prune log cutoff = since log cutoff := by
  unfold prune since
  induction log with
  | nil => rfl
  | cons t log ih =>
    rw [List.pairwise_cons] at h
    by_cases ht : t < cutoff
    · simp [ht, ih h.2]
    · have hkept : ∀ u ∈ t :: log, cutoff ≤ u := by
        intro u hu
        rcases List.mem_cons.mp hu with rfl | hu
        · exact not_lt.mp ht
        · exact (not_lt.mp ht).trans (h.1 u hu)
      rw [List.filter_eq_self.mpr (by simpa using hkept)]
      simp [ht]

theorem Prunes.nil : Prunes [] [] horizon := ⟨horizon, le_rfl, rfl⟩

theorem Prunes.later {horizon' : T} (h : Prunes history log horizon) (hle : horizon ≤ horizon') :
    Prunes history log horizon' := by
  obtain ⟨cutoff, hcutoff, hlog⟩ := h
  exact ⟨cutoff, hcutoff.trans hle, hlog⟩

theorem Prunes.append {cutoff t : T} (h : cutoff ≤ t) :
    Prunes (history ++ [t]) (since history cutoff ++ [t]) cutoff := by
  refine ⟨cutoff, le_rfl, ?_⟩
  simp [since, List.filter_append, h]

/-- **Pruning loses nothing**: cut at the horizon, the log is the whole history from there on. -/
theorem Prunes.prune_eq (h : Prunes history log horizon) (hsorted : history.Pairwise (· ≤ ·)) :
    prune log horizon = since history horizon := by
  obtain ⟨cutoff, hle, rfl⟩ := h
  have hsince : (since history cutoff).Pairwise (· ≤ ·) := hsorted.sublist List.filter_sublist
  rw [prune_eq_since hsince]
  unfold since
  rw [List.filter_filter]
  apply List.filter_congr
  intro t _
  simpa using fun ht : horizon ≤ t => hle.trans ht

theorem since_eq_within (h : Ordered history now) :
    since history cutoff = within history cutoff now := by
  apply List.filter_congr
  intro t ht
  simp [h.past t ht]

end Pruning

section Limits

variable {T : Type} [AddCommGroup T] [LinearOrder T] [IsOrderedAddMonoid T]

/-- Each entry of the history had fewer than `limit` before it in the window that it ends. -/
inductive Bounded (limit : Nat) (window : T) : List T → Prop
  | nil : Bounded limit window []
  | append {history now} : Bounded limit window history → Ordered history now →
      (within history (now - window) now).length < limit →
      Bounded limit window (history ++ [now])

/-- **No closed interval of the window's length has more than `limit` entries**, wherever it
    begins. -/
theorem Bounded.length_within_le {limit : Nat} {window : T} {history : List T}
    (h : Bounded limit window history) (first : T) :
    (within history first (first + window)).length ≤ limit := by
  induction h with
  | nil => exact Nat.zero_le _
  | @append history now _ hordered hfew ih =>
    by_cases hnow : first ≤ now ∧ now ≤ first + window
    · have hle : (within history first (first + window)).length ≤
          (within history (now - window) now).length := by
        unfold within
        rw [← List.countP_eq_length_filter, ← List.countP_eq_length_filter]
        apply List.countP_mono_left
        intro t ht hin
        rw [decide_eq_true_eq] at hin ⊢
        exact ⟨(sub_le_iff_le_add.mpr hnow.2).trans hin.1, hordered.past t ht⟩
      have hlast : within (history ++ [now]) first (first + window) =
          within history first (first + window) ++ [now] := by
        simp [within, hnow]
      rw [hlast, List.length_append, List.length_singleton]
      omega
    · have hsame : within (history ++ [now]) first (first + window) =
          within history first (first + window) := by
        simp only [within, List.filter_append]
        simp [hnow]
      rw [hsame]
      exact ih

end Limits

end EdoPlugin.SlidingWindow
