import EdoPlugin.NativeDispatch

/-!
# A submission that matches several flags

`submit_flag` takes the first flag of the challenge that the submission matches, and looks only then
whether the owner has found it before.  What the submission matches besides plays no part.  So a new
find is recorded exactly when the first match is a flag that the owner has not found.
-/

namespace EdoPlugin

open Interaction ChallengeType

/-- There is one find more, of a flag that the submission matches and the owner had not found. -/
def RecordsNewFind (compare : FlagComparison) (challengeId : Nat) (owner : Owner)
    (submission : String) (db db' : PluginDb) : Prop :=
  ∃ flag ∈ db.flagsOf challengeId, compare flag submission = true ∧
    db.flagSolve owner flag.id = none ∧
    db'.flagSolves = db.flagSolves ++ [⟨challengeId, flag.id, owner⟩]

/-- The first flag that the submission matches, in the order of the table, is not yet found. -/
def FirstMatchUnfound (compare : FlagComparison) (challengeId : Nat) (owner : Owner)
    (submission : String) (db : PluginDb) : Prop :=
  ∃ flag, ((db.flagsOf challengeId).find? fun flag => compare flag submission) = some flag ∧
    db.flagSolve owner flag.id = none

variable {compare : FlagComparison} {db db' : PluginDb} {owner : Owner} {row : Submission}
  {out : Except PluginErr Response}

theorem not_recordsNewFind_of_same {challengeId : Nat} {submission : String}
    (h : db'.flagSolves = db.flagSolves) :
    ¬ RecordsNewFind compare challengeId owner submission db db' := by
  rintro ⟨flag, -, -, -, hnew⟩
  have hlength := congrArg List.length (h.symm.trans hnew)
  simp at hlength

/-- A find of the first match is a new find. -/
theorem recordsNewFind_of_first {flag : Flag}
    (hmatch : MatchingFlag compare db row = some flag) (hnew : db.flagSolve owner flag.id = none)
    (hfind : db'.flagSolves = (db.withFind row.challengeId flag.id owner).flagSolves) :
    RecordsNewFind compare row.challengeId owner row.provided db db' ↔
      FirstMatchUnfound compare row.challengeId owner row.provided db := by
  have hmatches : compare flag row.provided = true := by simpa using List.find?_some hmatch
  constructor
  · exact fun _ => ⟨flag, hmatch, hnew⟩
  · exact fun _ => ⟨flag, List.mem_of_find?_eq_some hmatch, hmatches, hnew, hfind⟩

/-- **Every way to judge a submission.** -/
theorem Judged.newFind_iff (h : Judged compare db owner row out db') :
    RecordsNewFind compare row.challengeId owner row.provided db db' ↔
      FirstMatchUnfound compare row.challengeId owner row.provided db := by
  cases h with
  | incorrect hmatch =>
    constructor
    · exact fun hrecords => absurd hrecords (not_recordsNewFind_of_same rfl)
    · rintro ⟨flag, hfirst, -⟩
      rw [show MatchingFlag compare db row = some flag from hfirst] at hmatch
      cases hmatch
  | @alreadyFound flag solve _ _ _ hmatch hfound =>
    constructor
    · exact fun hrecords => absurd hrecords (not_recordsNewFind_of_same rfl)
    · rintro ⟨first, hfirst, hunfound⟩
      obtain rfl : flag = first := Option.some.inj (hmatch.symm.trans hfirst)
      rw [hfound] at hunfound
      cases hunfound
  | found hmatch hnew _ => exact recordsNewFind_of_first hmatch hnew rfl
  | completed hmatch hnew _ => exact recordsNewFind_of_first hmatch hnew rfl
  | scored hmatch hnew _ _ => exact recordsNewFind_of_first hmatch hnew rfl
  | conflict hmatch hnew _ _ => exact recordsNewFind_of_first hmatch hnew rfl

/-- **A new find.**  A non-empty submission within the limits of the route is recorded as a new find
    exactly if the first flag it matches is one that the owner has not found. -/
theorem recordsNewFind_iff (compare : FlagComparison) (rpc : RpcSem) (caller : Option Int)
    (challengeId : Nat) (owner : Owner) (provided : Option String) (ip : String) (s s' : Site)
    (out : Except PluginErr Response) (howner : s.plugin.resolveOwner caller = some owner)
    (hchallenge : s.plugin.getChallenge challengeId ≠ none) (hnonempty : submissionOf provided ≠ "")
    (hends : Ends (siteSem rpc) (UserRoutes.submitFlag compare caller challengeId provided ip) s
      out s') (hlimited : ¬ Limited out) :
    RecordsNewFind compare challengeId owner (submissionOf provided) s.plugin s'.plugin ↔
      FirstMatchUnfound compare challengeId owner (submissionOf provided) s.plugin := by
  have hsubmit : wp (siteSem rpc) (fun _ _ => True)
      (UserRoutes.submitFlag compare caller challengeId provided ip)
      (fun out s' => ¬ Limited out →
        (RecordsNewFind compare challengeId owner (submissionOf provided) s.plugin s'.plugin ↔
          FirstMatchUnfound compare challengeId owner (submissionOf provided) s.plugin)) s := by
    apply wp_submitFlag_judged howner
    · exact fun hnone => absurd hnone hchallenge
    · exact fun msg buckets hlimited => absurd trivial hlimited
    · exact fun retryAfter buckets hlimited => absurd trivial hlimited
    · exact fun buckets hlimited => absurd trivial hlimited
    · exact fun buckets hempty => absurd hempty hnonempty
    · intro challenge user team buckets _ _ hsolver _
      exact wp_mono (wp_judgeSubmission hsolver) fun out s' hjudged _ => hjudged.newFind_iff
  exact hends.of_wp hsubmit hlimited

/-! ## Two flags -/

theorem submitsTwo_records : (quietRun submitsTwo halfFound).any (fun r =>
    decide (r.2.plugin.flagSolves.length = 2) &&
      match r.1 with | .ok (.correct ..) => true | _ => false) = true := by
  decide +kernel

theorem recordsNewFind_iff_halfFound : ∃ out s, quietRun submitsTwo halfFound = some (out, s) ∧
    (RecordsNewFind sameContent 1 ⟨"team", 2⟩ "two" halfFound.plugin s.plugin ↔
      FirstMatchUnfound sameContent 1 ⟨"team", 2⟩ "two" halfFound.plugin) := by
  obtain ⟨⟨out, s⟩, hrun, hcorrect⟩ := (Option.any_eq_true _ _).mp submitsTwo_records
  have hlimited : ¬ Limited out := by
    rw [Bool.and_eq_true] at hcorrect
    have hout := hcorrect.2
    dsimp only at hout
    split at hout
    · exact fun h => h.elim
    · cases hout
  exact ⟨out, s, hrun, recordsNewFind_iff sameContent (Served DaemonEnv.default) (some 1) 1
    ⟨"team", 2⟩ (some "two") "" halfFound s out (by decide) (by decide) (by decide)
    (ends_of_quietRun hrun) hlimited⟩

/-- A flag of type `regex` that matches everything, and flags that match their content. -/
def anythingOrContent : FlagComparison := fun flag submission =>
  flag.type = "regex" || flag.content = submission

/-- The team has found the first flag, and it matches whatever matches the second. -/
def overlapping : Site := { halfFound with plugin := { halfFound.plugin with
  flags := [⟨1, 1, "regex", ".*", ""⟩, ⟨2, 1, "static", "two", ""⟩] } }

def submitsBoth : Plugin Response :=
  UserRoutes.submitFlag anythingOrContent (some 1) 1 (some "two") ""

theorem submitsBoth_repeats : (quietRun submitsBoth overlapping).any (fun r =>
    decide (r.2.plugin.flagSolves = overlapping.plugin.flagSolves) &&
      match r.1 with | .ok (.correct ..) => true | _ => false) = true := by
  decide +kernel

/-- "You already found this flag", and the other flag stays unfound for good. -/
theorem not_recordsNewFind_overlapping :
    ¬ ∀ (compare : FlagComparison) (rpc : RpcSem) (caller : Option Int) (challengeId : Nat)
      (owner : Owner) (provided : Option String) (ip : String) (s s' : Site)
      (out : Except PluginErr Response), s.plugin.resolveOwner caller = some owner →
      s.plugin.getChallenge challengeId ≠ none → submissionOf provided ≠ "" →
      (∃ flag ∈ s.plugin.flagsOf challengeId, compare flag (submissionOf provided) = true ∧
        s.plugin.flagSolve owner flag.id = none) →
      Ends (siteSem rpc) (UserRoutes.submitFlag compare caller challengeId provided ip) s out s' →
      ¬ Limited out →
      RecordsNewFind compare challengeId owner (submissionOf provided) s.plugin s'.plugin := by
  intro hall
  obtain ⟨⟨out, s⟩, hrun, hrepeats⟩ := (Option.any_eq_true _ _).mp submitsBoth_repeats
  rw [Bool.and_eq_true] at hrepeats
  obtain ⟨hsame, hout⟩ := hrepeats
  have hlimited : ¬ Limited out := by
    dsimp only at hout
    split at hout
    · exact fun h => h.elim
    · cases hout
  have hrecords := hall anythingOrContent (Served DaemonEnv.default) (some 1) 1 ⟨"team", 2⟩
    (some "two") "" overlapping s out (by decide) (by decide) (by decide)
    ⟨⟨2, 1, "static", "two", ""⟩, by decide, by decide, by decide⟩ (ends_of_quietRun hrun) hlimited
  exact not_recordsNewFind_of_same (of_decide_eq_true hsame) hrecords

end EdoPlugin
