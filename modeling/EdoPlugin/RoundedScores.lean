import EdoPlugin.DynamicScoring

/-!
# Percentages and decayed values

Both scores that the plugin shows are rounded: the share of a challenge that an owner has earned, to
a tenth of a percent, and the decayed value of a dynamic challenge, to a point.  Rounding half to even
keeps order and leaves what is whole alone, so both scores inherit their bounds and their monotonicity
from the exact quotients.
-/

namespace EdoPlugin

open ChallengeType UserRoutes

/-! ## Tenths -/

@[simp] theorem roundToTenth_intCast (z : Int) : roundToTenth z = z := by
  have htenths : (z : Rat) * 10 = ((z * 10 : Int) : Rat) := by
    push_cast
    ring
  unfold roundToTenth
  rw [htenths, roundHalfEven_intCast]
  push_cast
  exact mul_div_cancel_right₀ _ (by norm_num)

theorem roundToTenth_mono {p q : Rat} (h : p ≤ q) : roundToTenth p ≤ roundToTenth q := by
  have hround : roundHalfEven (p * 10) ≤ roundHalfEven (q * 10) :=
    roundHalfEven_mono (mul_le_mul_of_nonneg_right h (by norm_num))
  unfold roundToTenth
  exact div_le_div_of_nonneg_right (by exact_mod_cast hround) (by norm_num)

/-! ## Percentages -/

section Percentages

variable {flags : List Flag} {weights : List EdoFlagWeight} {found found' : List Nat}

theorem weightOf_nonneg (hweights : ∀ row ∈ weights, 0 ≤ row.weightPct) (flagId : Nat) :
    0 ≤ weightOf weights flags flagId := by
  unfold weightOf
  split
  next row hfind => exact hweights row (List.mem_of_find?_eq_some hfind)
  next => norm_num

/-- `sum(weights.get(f.id, 100) for f in flags)` -/
def weightSum (weights : List EdoFlagWeight) (flags : List Flag) (ids : List Nat) : Int :=
  (ids.map (weightOf weights flags)).sum

theorem weightSum_le (hweights : ∀ row ∈ weights, 0 ≤ row.weightPct) (hnodup : found.Nodup)
    (hsubset : found ⊆ found') : weightSum weights flags found ≤ weightSum weights flags found' := by
  obtain ⟨sub, hperm, hsub⟩ := hnodup.subperm hsubset
  unfold weightSum
  rw [← (hperm.map (weightOf weights flags)).sum_eq]
  apply (hsub.map (weightOf weights flags)).sum_le_sum
  intro weight hmem
  obtain ⟨flagId, _, rfl⟩ := List.mem_map.mp hmem
  exact weightOf_nonneg hweights flagId

theorem weightSum_nonneg (hweights : ∀ row ∈ weights, 0 ≤ row.weightPct) :
    0 ≤ weightSum weights flags found := by
  have hempty : weightSum weights flags [] ≤ weightSum weights flags found :=
    weightSum_le hweights List.nodup_nil (List.nil_subset found)
  simpa [weightSum] using hempty

/-- The flags that weigh anything make up the whole; where none does, the whole is 100. -/
def wholeOf (weights : List EdoFlagWeight) (flags : List Flag) : Int :=
  let sum := weightSum weights flags (flags.map Flag.id)
  if sum = 0 then 100 else sum

theorem percentEarned_progressOf : (progressOf flags weights found).percentEarned =
    roundToTenth ((100 * weightSum weights flags found : Int) / (wholeOf weights flags : Rat)) := by
  simp [progressOf, wholeOf, weightSum, Function.comp_def]

theorem wholeOf_pos (hweights : ∀ row ∈ weights, 0 ≤ row.weightPct) : 0 < wholeOf weights flags := by
  have hnonneg : 0 ≤ weightSum weights flags (flags.map Flag.id) := weightSum_nonneg hweights
  unfold wholeOf
  dsimp only
  split_ifs <;> omega

theorem weightSum_le_wholeOf (hweights : ∀ row ∈ weights, 0 ≤ row.weightPct) (hnodup : found.Nodup)
    (hflags : found ⊆ flags.map Flag.id) : weightSum weights flags found ≤ wholeOf weights flags := by
  have hle : weightSum weights flags found ≤ weightSum weights flags (flags.map Flag.id) :=
    weightSum_le hweights hnodup hflags
  unfold wholeOf
  dsimp only
  split_ifs <;> omega

theorem percentEarned_mono (hweights : ∀ row ∈ weights, 0 ≤ row.weightPct) (hnodup : found.Nodup)
    (hmore : found ⊆ found') : (progressOf flags weights found).percentEarned ≤
      (progressOf flags weights found').percentEarned := by
  have hwhole : (0 : Rat) < wholeOf weights flags := by
    exact_mod_cast wholeOf_pos hweights
  have hearned : weightSum weights flags found ≤ weightSum weights flags found' :=
    weightSum_le hweights hnodup hmore
  rw [percentEarned_progressOf, percentEarned_progressOf]
  apply roundToTenth_mono
  apply div_le_div_of_nonneg_right _ hwhole.le
  exact_mod_cast Int.mul_le_mul_of_nonneg_left hearned (by norm_num)

/-- Whoever has earned nothing has 0%. -/
theorem percentEarned_of_zero (hzero : weightSum weights flags found = 0) :
    (progressOf flags weights found).percentEarned = 0 := by
  have hround : roundToTenth 0 = 0 := roundToTenth_intCast 0
  rw [percentEarned_progressOf, hzero]
  simp [hround]

/-- Whoever has earned the whole has 100%. -/
theorem percentEarned_of_whole (hweights : ∀ row ∈ weights, 0 ≤ row.weightPct)
    (hwhole : weightSum weights flags found = wholeOf weights flags) :
    (progressOf flags weights found).percentEarned = 100 := by
  have hpos : (wholeOf weights flags : Rat) ≠ 0 := by
    exact_mod_cast (wholeOf_pos hweights).ne'
  have hround : roundToTenth 100 = 100 := roundToTenth_intCast 100
  rw [percentEarned_progressOf, hwhole]
  push_cast
  rw [mul_div_cancel_right₀ _ hpos, hround]

theorem percentEarned_le (hweights : ∀ row ∈ weights, 0 ≤ row.weightPct) (hnodup : found.Nodup)
    (hflags : found ⊆ flags.map Flag.id) :
    (progressOf flags weights found).percentEarned ≤ 100 := by
  have hwhole : (0 : Rat) < wholeOf weights flags := by
    exact_mod_cast wholeOf_pos hweights
  have hearned : (weightSum weights flags found : Rat) ≤ wholeOf weights flags := by
    exact_mod_cast weightSum_le_wholeOf hweights hnodup hflags
  have hround : roundToTenth 100 = 100 := roundToTenth_intCast 100
  rw [percentEarned_progressOf, ← hround]
  apply roundToTenth_mono
  rw [div_le_iff₀ hwhole]
  push_cast
  linarith

/-- Whoever has found all the flags has earned the whole, unless none of them weighs anything. -/
theorem weightSum_eq_wholeOf (hnodup : found.Nodup) (hids : (flags.map Flag.id).Nodup)
    (hflags : found ⊆ flags.map Flag.id) (hall : flags.map Flag.id ⊆ found)
    (hweigh : weightSum weights flags (flags.map Flag.id) ≠ 0) :
    weightSum weights flags found = wholeOf weights flags := by
  have hperm : found.Perm (flags.map Flag.id) :=
    (List.perm_ext_iff_of_nodup hnodup hids).mpr fun flagId =>
      ⟨fun hmem => hflags hmem, fun hmem => hall hmem⟩
  have hsum : weightSum weights flags found = weightSum weights flags (flags.map Flag.id) :=
    (hperm.map (weightOf weights flags)).sum_eq
  unfold wholeOf
  rw [hsum, if_neg hweigh]

theorem weightSum_ne_zero (hweights : ∀ row ∈ weights, 0 ≤ row.weightPct) {flag : Flag}
    (hmem : flag ∈ flags) (hweigh : weightOf weights flags flag.id ≠ 0) :
    weightSum weights flags (flags.map Flag.id) ≠ 0 := by
  have hle : weightSum weights flags [flag.id] ≤ weightSum weights flags (flags.map Flag.id) :=
    weightSum_le hweights (List.nodup_singleton _)
      (by simpa using ⟨flag, hmem, rfl⟩)
  have hnonneg : 0 ≤ weightOf weights flags flag.id := weightOf_nonneg hweights flag.id
  have hone : weightSum weights flags [flag.id] = weightOf weights flags flag.id := by
    simp [weightSum]
  omega

end Percentages

/-- **Progress is a percentage.**  What an owner has earned lies between 0% and 100%, never falls
    when more is found, starts at 0%, and ends at 100% if one of the flags weighs anything. -/
theorem percentEarned_faithful (flags : List Flag) (weights : List EdoFlagWeight)
    (hids : (flags.map Flag.id).Nodup)
    (hweights : ∀ row ∈ weights, 0 ≤ row.weightPct ∧ row.weightPct ≤ 100) (found found' : List Nat)
    (hnodup : found.Nodup) (hnodup' : found'.Nodup) (hmore : found ⊆ found')
    (hflags : found' ⊆ flags.map Flag.id) :
    0 ≤ (progressOf flags weights found).percentEarned ∧
    (progressOf flags weights found).percentEarned ≤ (progressOf flags weights found').percentEarned ∧
    (progressOf flags weights found').percentEarned ≤ 100 ∧
    (progressOf flags weights []).percentEarned = 0 ∧
    (flags.map Flag.id ⊆ found' → (∃ flag ∈ flags, weightOf weights flags flag.id ≠ 0) →
      (progressOf flags weights found').percentEarned = 100) := by
  have hnonneg : ∀ row ∈ weights, 0 ≤ row.weightPct := fun row hrow => (hweights row hrow).1
  have hnone : (progressOf flags weights []).percentEarned = 0 := percentEarned_of_zero rfl
  refine ⟨?_, percentEarned_mono hnonneg hnodup hmore, percentEarned_le hnonneg hnodup' hflags, hnone,
    ?_⟩
  · rw [← hnone]
    exact percentEarned_mono hnonneg List.nodup_nil (List.nil_subset found)
  · intro hall hweigh
    obtain ⟨flag, hmem, hflag⟩ := hweigh
    exact percentEarned_of_whole hnonneg (weightSum_eq_wholeOf hnodup' hids hflags hall
      (weightSum_ne_zero hnonneg hmem hflag))

/-- Two flags, of which the first weighs a third of the second. -/
def unevenFlags : List Flag := [⟨1, 1, "static", "one", ""⟩, ⟨2, 1, "static", "two", ""⟩]

/-- Whoever finds the first flag has 23.1%, and whoever finds both 100%. -/
theorem percentEarned_faithful_uneven :
    (progressOf unevenFlags [⟨1, 30⟩] [1]).percentEarned = 231 / 10 ∧
    (progressOf unevenFlags [⟨1, 30⟩] [1, 2]).percentEarned = 100 := by
  have hfaithful := percentEarned_faithful unevenFlags [⟨1, 30⟩] (by decide) (by decide) [1] [1, 2]
    (by decide) (by decide) (by decide) (by decide)
  obtain ⟨_, _, _, _, hall⟩ := hfaithful
  exact ⟨by decide +kernel, hall (by decide) ⟨⟨1, 1, "static", "one", ""⟩, by decide, by decide⟩⟩

/-- A flag of weight 0 earns nothing, not even when it is the only one. -/
theorem not_percentEarned_faithful : ¬ ∀ (flags : List Flag) (weights : List EdoFlagWeight),
    (flags.map Flag.id).Nodup → (∀ row ∈ weights, 0 ≤ row.weightPct ∧ row.weightPct ≤ 100) →
    ∀ found found' : List Nat, found.Nodup → found'.Nodup → found ⊆ found' →
    found' ⊆ flags.map Flag.id →
    0 ≤ (progressOf flags weights found).percentEarned ∧
    (progressOf flags weights found).percentEarned ≤ (progressOf flags weights found').percentEarned ∧
    (progressOf flags weights found').percentEarned ≤ 100 ∧
    (progressOf flags weights []).percentEarned = 0 ∧
    (flags.map Flag.id ⊆ found' → flags ≠ [] →
      (progressOf flags weights found').percentEarned = 100) := by
  intro hall
  have hwhole := hall [⟨1, 1, "static", "one", ""⟩] [⟨1, 0⟩] (by decide) (by decide) [] [1]
    (by decide) (by decide) (by decide) (by decide)
  have hfound := hwhole.2.2.2.2 (by decide) (by decide)
  revert hfound
  decide +kernel

/-! ## Decayed values -/

section Decay

variable {initial minimum decay : Int} {m n : Nat}

theorem exactDecay_zero : exactDecay initial minimum 0 decay = initial := by
  have hquotient : (((0 : Nat) : Rat) / decay) = 0 := by
    simp
  unfold exactDecay
  rw [hquotient, mul_zero, sub_zero, roundHalfEven_intCast]

theorem exactDecay_antitone (hrange : minimum ≤ initial) (hdecay : 0 < decay) (hle : m ≤ n) :
    exactDecay initial minimum n decay ≤ exactDecay initial minimum m decay := by
  have hspan : (0 : Rat) ≤ initial - minimum := by
    exact sub_nonneg.mpr (by exact_mod_cast hrange)
  have hquotient : (m : Rat) / decay ≤ (n : Rat) / decay :=
    div_le_div_of_nonneg_right (by exact_mod_cast hle) (by exact_mod_cast hdecay.le)
  apply roundHalfEven_mono
  exact sub_le_sub_left (mul_le_mul_of_nonneg_left hquotient hspan) _

/-- Before the threshold the exact value is still above the minimum. -/
theorem le_exactDecay (hrange : minimum ≤ initial) (hdecay : 0 < decay) (hle : (n : Int) ≤ decay) :
    minimum ≤ exactDecay initial minimum n decay := by
  have hspan : (0 : Rat) ≤ initial - minimum := by
    exact sub_nonneg.mpr (by exact_mod_cast hrange)
  have hquotient : (n : Rat) / decay ≤ 1 := by
    rw [div_le_one (by exact_mod_cast hdecay)]
    exact_mod_cast hle
  have hdropped : (initial - minimum : Rat) * (n / decay) ≤ initial - minimum :=
    mul_le_of_le_one_right hspan hquotient
  apply le_roundHalfEven
  linarith

end Decay

/-- `challenge.initial_value or challenge.value or 0` -/
def effectiveInitial (challenge : EdoChallenge) : Int :=
  orDefault challenge.initialValue (orDefault challenge.value 0)

/-- `challenge.minimum_value or 0` -/
def effectiveMinimum (challenge : EdoChallenge) : Int := orDefault challenge.minimumValue 0

/-- `max(1, challenge.decay or 1)` -/
def effectiveDecay (challenge : EdoChallenge) : Int := max 1 (orDefault challenge.decay 1)

theorem effectiveDecay_pos (challenge : EdoChallenge) : 0 < effectiveDecay challenge :=
  lt_of_lt_of_le one_pos (le_max_left _ _)

section Values

variable {challenge : EdoChallenge} {m n : Nat}

theorem dynamicValue_of_le (h : effectiveDecay challenge ≤ n) :
    dynamicValue exactDecay challenge n = effectiveMinimum challenge :=
  if_pos h

theorem dynamicValue_of_lt (h : (n : Int) < effectiveDecay challenge) :
    dynamicValue exactDecay challenge n =
      exactDecay (effectiveInitial challenge) (effectiveMinimum challenge) n
        (effectiveDecay challenge) :=
  if_neg (not_le.mpr h)

theorem effectiveMinimum_le (hrange : effectiveMinimum challenge ≤ effectiveInitial challenge) :
    effectiveMinimum challenge ≤ dynamicValue exactDecay challenge n := by
  by_cases hplateau : effectiveDecay challenge ≤ n
  · exact (dynamicValue_of_le hplateau).ge
  · rw [dynamicValue_of_lt (not_le.mp hplateau)]
    exact le_exactDecay hrange (effectiveDecay_pos challenge) (not_le.mp hplateau).le

theorem dynamicValue_antitone (hrange : effectiveMinimum challenge ≤ effectiveInitial challenge)
    (hle : m ≤ n) : dynamicValue exactDecay challenge n ≤ dynamicValue exactDecay challenge m := by
  by_cases hplateau : effectiveDecay challenge ≤ n
  · rw [dynamicValue_of_le hplateau]
    exact effectiveMinimum_le hrange
  · have hbefore : (n : Int) < effectiveDecay challenge := not_le.mp hplateau
    have hbefore' : (m : Int) < effectiveDecay challenge :=
      lt_of_le_of_lt (by exact_mod_cast hle) hbefore
    rw [dynamicValue_of_lt hbefore, dynamicValue_of_lt hbefore']
    exact exactDecay_antitone hrange (effectiveDecay_pos challenge) hle

theorem dynamicValue_zero : dynamicValue exactDecay challenge 0 = effectiveInitial challenge := by
  rw [dynamicValue_of_lt (effectiveDecay_pos challenge)]
  exact exactDecay_zero

end Values

/-- **Decay is bounded and monotone.**  A dynamic challenge starts at its initial value, no solve
    raises its value, and from its threshold on it has its minimum. -/
theorem dynamicValue_decays (challenge : EdoChallenge)
    (hrange : effectiveMinimum challenge ≤ effectiveInitial challenge) (m n : Nat) (hle : m ≤ n) :
    effectiveMinimum challenge ≤ dynamicValue exactDecay challenge n ∧
    dynamicValue exactDecay challenge n ≤ dynamicValue exactDecay challenge m ∧
    dynamicValue exactDecay challenge m ≤ effectiveInitial challenge ∧
    dynamicValue exactDecay challenge 0 = effectiveInitial challenge ∧
    (effectiveDecay challenge ≤ n →
      dynamicValue exactDecay challenge n = effectiveMinimum challenge) := by
  refine ⟨effectiveMinimum_le hrange, dynamicValue_antitone hrange hle, ?_, dynamicValue_zero,
    dynamicValue_of_le⟩
  rw [← dynamicValue_zero]
  exact dynamicValue_antitone hrange (Nat.zero_le m)

/-- From seven points to two in two solves. -/
def roundedChallenge : EdoChallenge :=
  ⟨1, "web", none, none, none, none, none, false, none, "vpn", some 7, "dynamic", none, some 2, some 2⟩

/-- 4.5 points are shown as 4. -/
theorem dynamicValue_decays_half : dynamicValue exactDecay roundedChallenge 1 = 4 ∧
    dynamicValue exactDecay roundedChallenge 3 ≤ dynamicValue exactDecay roundedChallenge 1 :=
  ⟨by decide +kernel, (dynamicValue_decays roundedChallenge (by decide) 1 3 (by decide)).2.1⟩

end EdoPlugin
