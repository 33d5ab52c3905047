import EdoPlugin.KeyedSums
import EdoPlugin.RoundedScores

/-!
# The weights of the flags

An administrator gives a flag a weight, in percent of the challenge; a flag without a row in
`edo_flag_weights` weighs 100.  The list of the weights and the progress of an owner apply this
default flag by flag.  The warning that the weights do not sum to 100 adds up the rows in SQL and
corrects the sum for the flags that have none.
-/

namespace EdoPlugin

open Interaction ChallengeType

/-! ## The routes -/

namespace AdminRoutes

/-- An entry of `flags`. -/
structure FlagWeightView where
  id : Nat
  type : String
  content : String
  weightPct : Int
deriving DecidableEq, Repr

/-- `EdoFlagWeight.query.filter(EdoFlagWeight.flag_id.in_(flag_ids))` -/
def weightRowsOf (db : PluginDb) (flagIds : List Nat) : List EdoFlagWeight :=
  db.flagWeights.filter fun row => row.flagId ∈ flagIds

def listFlagWeights (challengeId : Nat) : Plugin (List FlagWeightView) := do
  let flagRows ← select
  let flags := flagRows.flagsOf challengeId
  let weightRows ← select
  return flags.map fun flag =>
    ⟨flag.id, flag.type, flag.content, weightOf weightRows.flagWeights flags flag.id⟩

/-- `_flag_weights_sum_to_100`; the sum is over the rows there are. -/
def flagWeightsSumTo100 (challengeId : Nat) : Plugin Bool := do
  let flagRows ← select
  let flagIds := (flagRows.flagsOf challengeId).map Flag.id
  if flagIds = [] then
    return true
  else
    let sumRows ← select
    let total := ((weightRowsOf sumRows flagIds).map EdoFlagWeight.weightPct).sum
    let countRows ← select
    let unset : Int := flagIds.length - (weightRowsOf countRows flagIds).length
    return total + 100 * unset = 100

end AdminRoutes

open AdminRoutes

variable {rpc : RpcSem} {s s' : Site} {challengeId : Nat} {α : Type}

/-! ## What they answer -/

theorem ends_select_iff {f : PluginDb → Plugin α} {out : Except PluginErr α} :
    Ends (siteSem rpc) (select >>= f) s out s' ↔ Ends (siteSem rpc) (f s.plugin) s out s' :=
  ends_call_iff fun _ _ => Iff.rfl

/-- The list that `list_flag_weights` answers with. -/
def flagWeightViews (db : PluginDb) (challengeId : Nat) : List FlagWeightView :=
  (db.flagsOf challengeId).map fun flag =>
    ⟨flag.id, flag.type, flag.content, weightOf db.flagWeights (db.flagsOf challengeId) flag.id⟩

theorem ends_listFlagWeights {out : Except PluginErr (List FlagWeightView)} :
    Ends (siteSem rpc) (listFlagWeights challengeId) s out s' ↔
      out = .ok (flagWeightViews s.plugin challengeId) ∧ s' = s :=
  ends_select_iff.trans (ends_select_iff.trans ends_ret_iff)

/-- The weight of a flag on the list; a flag that is not on it weighs 100. -/
def listedWeight (views : List FlagWeightView) (flagId : Nat) : Int :=
  ((views.find? fun view => view.id = flagId).map FlagWeightView.weightPct).getD 100

theorem weightOf_of_mem {rows : List EdoFlagWeight} {flags : List Flag} {flagId : Nat}
    (hmem : flagId ∈ flags.map Flag.id) : weightOf rows flags flagId =
      ((rows.find? fun row => row.flagId = flagId).map EdoFlagWeight.weightPct).getD 100 := by
  have hflag : (flags.any fun flag => flag.id = flagId) = true := by
    obtain ⟨flag, hflag, hid⟩ := List.mem_map.mp hmem
    exact List.any_eq_true.mpr ⟨flag, hflag, decide_eq_true hid⟩
  unfold weightOf
  simp only [hflag, and_true]
  cases rows.find? fun row => row.flagId = flagId with
  | none => rfl
  | some row => rfl

/-- A flag that is not the challenge's has no weight in the dictionary. -/
theorem weightOf_of_not_mem {rows : List EdoFlagWeight} {flags : List Flag} {flagId : Nat}
    (hmem : flagId ∉ flags.map Flag.id) : weightOf rows flags flagId = 100 := by
  have hflag : (flags.any fun flag => flag.id = flagId) = false := by
    rw [List.any_eq_false]
    intro flag hflag hid
    exact hmem (List.mem_map.mpr ⟨flag, hflag, of_decide_eq_true hid⟩)
  have hnone : rows.find? (fun row => row.flagId = flagId ∧ flags.any fun flag => flag.id = flagId) =
      none := by
    rw [List.find?_eq_none]
    intro row _
    simp [hflag]
  unfold weightOf
  rw [hnone]

/-- **The list shows the weights that the progress is computed with.** -/
theorem listedWeight_flagWeightViews (db : PluginDb) (challengeId flagId : Nat) :
    listedWeight (flagWeightViews db challengeId) flagId =
      weightOf db.flagWeights (db.flagsOf challengeId) flagId := by
  unfold listedWeight flagWeightViews
  rw [List.find?_map]
  cases hfind : (db.flagsOf challengeId).find? fun flag => flag.id = flagId with
  | some flag =>
    have hid : flag.id = flagId := by simpa using List.find?_some hfind
    simp only [Function.comp_def, hfind, Option.map_some, Option.getD_some, hid]
  | none =>
    have hmem : flagId ∉ (db.flagsOf challengeId).map Flag.id := by
      intro hmem
      obtain ⟨flag, hflag, hid⟩ := List.mem_map.mp hmem
      exact List.find?_eq_none.mp hfind flag hflag (decide_eq_true hid)
    simp only [Function.comp_def, hfind, Option.map_none, Option.getD_none, weightOf_of_not_mem hmem]

theorem sum_flagWeightViews (db : PluginDb) (challengeId : Nat) :
    ((flagWeightViews db challengeId).map FlagWeightView.weightPct).sum =
      weightSum db.flagWeights (db.flagsOf challengeId) ((db.flagsOf challengeId).map Flag.id) := by
  unfold flagWeightViews weightSum
  rw [List.map_map, List.map_map]
  rfl

/-- The sum of the rows, corrected by the flags without one, is the sum of the weights. -/
theorem sum_weightRowsOf {db : PluginDb} {flags : List Flag} (hflags : (flags.map Flag.id).Nodup)
    (hweights : (db.flagWeights.map EdoFlagWeight.flagId).Nodup) :
    ((weightRowsOf db (flags.map Flag.id)).map EdoFlagWeight.weightPct).sum +
        100 * ((flags.map Flag.id).length - (weightRowsOf db (flags.map Flag.id)).length : Int) =
      weightSum db.flagWeights flags (flags.map Flag.id) := by
  have hsum := KeyedSums.sum_default EdoFlagWeight.weightPct 100 hflags hweights
  have heffective : weightSum db.flagWeights flags (flags.map Flag.id) = ((flags.map Flag.id).map fun id =>
      ((db.flagWeights.find? fun row => row.flagId = id).map EdoFlagWeight.weightPct).getD 100).sum := by
    unfold weightSum
    congr 1
    exact List.map_congr_left fun id hid => weightOf_of_mem hid
  rw [heffective]
  simp only [nsmul_eq_mul] at hsum
  unfold weightRowsOf
  linarith

theorem ends_flagWeightsSumTo100 {out : Except PluginErr Bool}
    (hflags : (s.plugin.flags.map Flag.id).Nodup)
    (hweights : (s.plugin.flagWeights.map EdoFlagWeight.flagId).Nodup) :
    Ends (siteSem rpc) (flagWeightsSumTo100 challengeId) s out s' ↔
      out = .ok (decide (s.plugin.flagsOf challengeId = [] ∨
        ((flagWeightViews s.plugin challengeId).map FlagWeightView.weightPct).sum = 100)) ∧ s' = s := by
  apply ends_select_iff.trans
  by_cases hempty : s.plugin.flagsOf challengeId = []
  · simp only [hempty, List.map_nil, if_true, true_or, decide_true]
    exact ends_ret_iff
  · have hids : (s.plugin.flagsOf challengeId).map Flag.id ≠ [] := by simpa using hempty
    have hnodup : ((s.plugin.flagsOf challengeId).map Flag.id).Nodup := Db.nodup_map_filter _ hflags
    simp only [hids, if_false]
    apply ends_select_iff.trans
    apply ends_select_iff.trans
    apply ends_ret_iff.trans
    rw [sum_weightRowsOf hnodup hweights, sum_flagWeightViews]
    simp only [hempty, false_or]

/-! ## The two agree -/

/-- The weights are found to sum to 100 exactly if there is no flag, or the weights on the list do;
    and those are the weights that the progress of every owner is computed with. -/
def WarningAgrees (rpc : RpcSem) (s : Site) (challengeId : Nat) : Prop :=
  ∃ views sumsTo,
    (∀ out s', Ends (siteSem rpc) (listFlagWeights challengeId) s out s' ↔
      out = .ok views ∧ s' = s) ∧
    (∀ out s', Ends (siteSem rpc) (flagWeightsSumTo100 challengeId) s out s' ↔
      out = .ok sumsTo ∧ s' = s) ∧
    (∀ owner progress s',
      Ends (siteSem rpc) (ownerProgress challengeId owner) s (.ok progress) s' →
      progress.percentEarned = roundToTenth
        ((100 * ((foundFlagIds s.plugin challengeId owner).map (listedWeight views)).sum : Int) /
          ((if (views.map FlagWeightView.weightPct).sum = 0 then 100
            else (views.map FlagWeightView.weightPct).sum : Int) : Rat))) ∧
    (sumsTo = true ↔ s.plugin.flagsOf challengeId = [] ∨
      (views.map FlagWeightView.weightPct).sum = 100)

/-- **The warning agrees with the list**, for any flags and any table with at most one weight for each
    of them. -/
theorem weightWarning_agrees (rpc : RpcSem) (s : Site) (challengeId : Nat)
    (hflags : (s.plugin.flags.map Flag.id).Nodup)
    (hweights : (s.plugin.flagWeights.map EdoFlagWeight.flagId).Nodup) :
    WarningAgrees rpc s challengeId := by
  refine ⟨flagWeightViews s.plugin challengeId, _, fun _ _ => ends_listFlagWeights,
    fun _ _ => ends_flagWeightsSumTo100 hflags hweights, ?_, decide_eq_true_iff⟩
  intro owner progress s' hends
  have hread := ends_select_iff.mp (ends_select_iff.mp (ends_select_iff.mp hends))
  obtain ⟨hvalue, -⟩ := Ends.of_ret hread
  cases hvalue
  have hlisted : listedWeight (flagWeightViews s.plugin challengeId) =
      weightOf s.plugin.flagWeights (s.plugin.flagsOf challengeId) :=
    funext fun flagId => listedWeight_flagWeightViews _ _ _
  rw [percentEarned_progressOf, sum_flagWeightViews, hlisted]
  rfl

/-- Two flags of one challenge, one of which has a weight, and a flag of another. -/
def weightedSite : Site := { freshSite with plugin := { freshSite.plugin with
  flags := [⟨1, 1, "static", "a", ""⟩, ⟨2, 1, "static", "b", ""⟩, ⟨3, 2, "static", "c", ""⟩]
  flagWeights := [⟨1, 0⟩, ⟨3, 70⟩] } }

/-- The weights are 0 and, by default, 100. -/
theorem weightWarning_agrees_default : WarningAgrees (Served DaemonEnv.default) weightedSite 1 ∧
    ((flagWeightViews weightedSite.plugin 1).map FlagWeightView.weightPct) = [0, 100] :=
  ⟨weightWarning_agrees _ weightedSite 1 (by decide) (by decide), by decide⟩

end EdoPlugin
