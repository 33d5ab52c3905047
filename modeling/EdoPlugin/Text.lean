import Mathlib.Data.List.TakeWhile

/-!
# Text

The methods of Python's `str` that the repository's code calls on the text of its files and forms,
on lists of characters.
-/

namespace EdoPlugin

/-- The characters `str.strip()` removes. -/
def isPySpace (c : Char) : Bool :=
  let n := c.toNat
  (9 ≤ n && n ≤ 13) || (28 ≤ n && n ≤ 32) || n == 133 || n == 160 || n == 5760 ||
    (8192 ≤ n && n ≤ 8202) || n == 8232 || n == 8233 || n == 8239 || n == 8287 || n == 12288

def rstripChars (cs : List Char) : List Char := (cs.reverse.dropWhile isPySpace).reverse

def stripChars (cs : List Char) : List Char := rstripChars (cs.dropWhile isPySpace)

/-- `text.split(marker, 1)[0]`: what stands before the first occurrence of the marker. -/
def charsBefore (marker : List Char) : List Char → List Char
  | [] => []
  | c :: cs => if marker.isPrefixOf (c :: cs) then [] else c :: charsBefore marker cs

/-! ## White space -/

variable {c : Char} {cs ds : List Char}

theorem isPySpace_of_isDigit (h : c.isDigit = true) : isPySpace c = false := by
  simp only [Char.isDigit, Bool.and_eq_true, decide_eq_true_eq] at h
  have hlow : 48 ≤ c.toNat := h.1
  have hhigh : c.toNat ≤ 57 := h.2
  simp only [isPySpace, Bool.or_eq_false_iff, Bool.and_eq_false_iff, decide_eq_false_iff_not,
    beq_eq_false_iff_ne]
  omega

theorem rstripChars_append_space (hc : isPySpace c = true) :
    rstripChars (cs ++ [c]) = rstripChars cs := by
  simp [rstripChars, hc]

theorem rstripChars_append (hc : isPySpace c = false) : rstripChars (cs ++ [c]) = cs ++ [c] := by
  simp [rstripChars, hc]

/-- Text that ends in no white space keeps its end. -/
theorem rstripChars_append_of_nonspace (hds : ∀ d ∈ ds, isPySpace d = false) (hne : ds ≠ []) :
    rstripChars (cs ++ ds) = cs ++ ds := by
  have hlast := hds _ (List.getLast_mem hne)
  have hsplit : cs ++ ds = (cs ++ ds.dropLast) ++ [ds.getLast hne] := by
    rw [List.append_assoc, List.dropLast_concat_getLast hne]
  rw [hsplit, rstripChars_append hlast]

theorem rstripChars_of_nonspace (hds : ∀ d ∈ ds, isPySpace d = false) : rstripChars ds = ds := by
  by_cases hne : ds = []
  · simp [hne, rstripChars]
  · have hkeep : rstripChars ([] ++ ds) = [] ++ ds := rstripChars_append_of_nonspace hds hne
    exact hkeep

theorem stripChars_cons (hc : isPySpace c = false) : stripChars (c :: cs) = rstripChars (c :: cs) := by
  simp [stripChars, hc]

/-- Something is left of text that starts with no white space. -/
theorem stripChars_cons_ne_nil (hc : isPySpace c = false) : stripChars (c :: cs) ≠ [] := by
  rw [stripChars_cons hc]
  intro hnil
  rw [rstripChars, List.reverse_eq_nil_iff, List.dropWhile_eq_nil_iff] at hnil
  have hspace := hnil c (List.mem_reverse.mpr List.mem_cons_self)
  rw [hc] at hspace
  cases hspace

theorem stripChars_append (hcs : ∀ c ∈ cs, isPySpace c = false) (hne : cs ≠ []) :
    stripChars (cs ++ ds) = rstripChars (cs ++ ds) := by
  cases cs with
  | nil => exact absurd rfl hne
  | cons c cs => exact stripChars_cons (hcs c List.mem_cons_self)

theorem stripChars_space (hc : isPySpace c = true) : stripChars (c :: cs) = stripChars cs := by
  simp [stripChars, hc]

theorem stripChars_of_nonspace (hds : ∀ d ∈ ds, isPySpace d = false) : stripChars ds = ds := by
  cases ds with
  | nil => rfl
  | cons d ds =>
    rw [stripChars_cons (hds d List.mem_cons_self)]
    exact rstripChars_of_nonspace hds

theorem stripChars_of_isDigit (h : ∀ c ∈ cs, c.isDigit = true) : stripChars cs = cs :=
  stripChars_of_nonspace fun c hc => isPySpace_of_isDigit (h c hc)

/-! ## Splitting -/

/-- What cannot start the marker stands before it. -/
theorem charsBefore_append {marker : List Char} (hcs : c ∉ cs) :
    charsBefore (c :: marker) (cs ++ ds) = cs ++ charsBefore (c :: marker) ds := by
  induction cs with
  | nil => rfl
  | cons d cs ih =>
    rw [List.mem_cons, not_or] at hcs
    have hne : (c :: marker).isPrefixOf (d :: (cs ++ ds)) = false := by
      simp [List.isPrefixOf, hcs.1]
    simp [charsBefore, hne, ih hcs.2]

theorem charsBefore_marker {marker : List Char} :
    charsBefore (c :: marker) (c :: marker ++ ds) = [] := by
  simp [charsBefore, List.isPrefixOf]

end EdoPlugin
