import EdoPlugin.ConcurrentSubmissions
import EdoPlugin.NativeDispatch
import EdoPlugin.ProgressFrame

/-!
# Solving again after a reset

`reset_owner_progress` deletes an owner's finds and solves of a challenge, so that every flag can be
found again and the last one scores.  Two kinds of rows that it leaves can get in the way: the fails,
which count against `max_attempts`, and the solve that a member brought along from another team,
which keeps the member from being the one who solves.
-/

namespace EdoPlugin

open Interaction ChallengeType

variable {rpc : RpcSem} {compare : FlagComparison} {s s' : Site} {db db' : PluginDb}
  {challengeId : Nat} {owner : Owner}

/-! ## Finds and flags in any history -/

/-- The finds fit the flags, whoever solved what. -/
def PluginDb.FindsFit (db : PluginDb) : Prop := { db with solves := [] }.Consistent

namespace PluginDb.FindsFit

/-- Fewer flags and fewer finds still fit. -/
theorem of_fewer (h : db.FindsFit) (hflags : db'.flags.Sublist db.flags)
    (hnext : db'.nextFlagId = db.nextFlagId)
    (hfinds : ∀ solve ∈ db'.flagSolves, solve ∈ db.flagSolves) : db'.FindsFit := by
  constructor
  case flagKeys => exact h.flagKeys.sublist (hflags.map Flag.id)
  case flagIds =>
    intro flag hflag
    show flag.id < db'.nextFlagId
    rw [hnext]
    exact h.flagIds flag (hflags.subset hflag)
  case findIds =>
    intro solve hsolve
    show solve.flagId < db'.nextFlagId
    rw [hnext]
    exact h.findIds solve (hfinds solve hsolve)
  case finds =>
    exact fun solve hsolve flag hflag => h.finds solve (hfinds solve hsolve) flag (hflags.subset hflag)
  case solvers => exact fun _ hrow => by cases hrow

theorem congr (h : db.FindsFit) (hflags : db'.flags = db.flags) (hnext : db'.nextFlagId = db.nextFlagId)
    (hfinds : db'.flagSolves = db.flagSolves) : db'.FindsFit := by
  apply h.of_fewer _ hnext
  · intro solve hsolve
    rw [← hfinds]
    exact hsolve
  · rw [hflags]

theorem sameProgress (h : db.FindsFit) (hsame : db.SameProgress db') : db'.FindsFit := by
  apply h.congr
  · rw [hsame]
  · rw [hsame]
  · rw [hsame]

theorem withFind {flag : Flag} (h : db.FindsFit) (hflag : flag ∈ db.flagsOf challengeId) :
    (db.withFind challengeId flag.id owner).FindsFit :=
  Consistent.withFind h hflag

theorem submitted {out : Except PluginErr Response} (h : db.FindsFit)
    (hsubmitted : Submitted db challengeId owner out db') : db'.FindsFit := by
  cases hsubmitted with
  | refused | raised | alreadyFound => exact h
  | incorrect => exact h.congr rfl rfl rfl
  | found hflag _ _ => exact h.withFind hflag
  | completed hflag _ _ => exact h.withFind hflag
  | conflict hflag _ _ _ _ _ _ => exact h.withFind hflag
  | @scored flag _ _ _ hflag _ _ _ _ =>
    have hfind : (db.withFind challengeId flag.id owner).FindsFit := h.withFind hflag
    exact hfind.congr rfl rfl rfl

theorem change (h : db.FindsFit) (change : CtfdChange) : (db.change change).FindsFit := by
  cases change with
  | setTeam userId team => exact h.congr rfl rfl rfl
  | createTeam team => exact h.congr rfl rfl rfl
  | addFlag challengeId type content data => exact Consistent.addFlag h
  | deleteFlag flagId =>
    exact h.of_fewer List.filter_sublist rfl fun _ hsolve => List.mem_of_mem_filter hsolve

end PluginDb.FindsFit

/-- **Any operation keeps the finds fitting the flags.** -/
theorem SiteStep.findsFit {event : SiteEvent} (h : s.plugin.FindsFit)
    (hstep : SiteStep rpc compare s event s') : s'.plugin.FindsFit := by
  by_cases hspares : event.SparesProgress
  · exact h.sameProgress (hstep.sameProgress hspares)
  · cases hstep with
    | @route call out _ hends =>
      cases call with
      | submitFlag caller challengeId provided ip =>
        rcases hends.of_wp wp_submitFlag with ⟨owner, -, hsubmitted⟩ | ⟨-, hsame⟩
        · exact h.submitted hsubmitted
        · rw [hsame]
          exact h
      | resetOwnerProgress challengeId owner =>
        rcases hends.of_wp wp_resetOwnerProgress with hsame | hreset
        · rw [hsame]
          exact h
        · rw [hreset]
          exact h.of_fewer (List.Sublist.refl _) rfl fun _ hsolve => List.mem_of_mem_filter hsolve
      | _ => exact absurd trivial hspares
    | ctfd => exact h.change _
    | sweep _ | tick _ | drift _ => exact absurd trivial hspares

theorem SiteRun.findsFit {s₀ : Site} {ok : Site → SiteEvent → Prop} (h : s₀.plugin.Unplayed)
    (hrun : SiteRun rpc compare ok s₀ s) : s.plugin.FindsFit := by
  induction hrun with
  | start =>
    have hfit := h.scored.toConsistent
    exact ⟨hfit.flagKeys, hfit.flagIds, hfit.findIds, hfit.finds, fun _ hrow => by cases hrow⟩
  | step _ _ hstep ih => exact hstep.findsFit ih

/-! ## Finding the flags again -/

namespace PluginDb

/-- The owner has no find of the challenge's flags, and no solve. -/
structure Cleared (db : PluginDb) (challengeId : Nat) (owner : Owner) : Prop where
  flagKeys : (db.flags.map Flag.id).Nodup
  finds : ∀ solve ∈ db.flagSolves, solve.owner = owner → solve.challengeId ≠ challengeId
  flags : ∀ flag ∈ db.flagsOf challengeId, db.flagSolve owner flag.id = none
  unsolved : db.solveOf challengeId owner = none

/-- The tables after finds of these flags. -/
def withFinds (db : PluginDb) (challengeId : Nat) (owner : Owner) (found : List Flag) : PluginDb :=
  { db with flagSolves := db.flagSolves ++ found.map fun flag => ⟨challengeId, flag.id, owner⟩ }

theorem withFinds_nil : db.withFinds challengeId owner [] = db := by
  simp [withFinds]

theorem withFind_withFinds {found : List Flag} {flag : Flag} :
    (db.withFinds challengeId owner found).withFind challengeId flag.id owner =
      db.withFinds challengeId owner (found ++ [flag]) := by
  simp [withFinds, withFind]

/-- A reset leaves nothing of the owner's progress. -/
theorem cleared_withoutProgress (h : db.FindsFit) :
    (db.withoutProgress challengeId owner).Cleared challengeId owner := by
  constructor
  case flagKeys => exact h.flagKeys
  case finds =>
    intro solve hsolve howner hchallenge
    have hkept := of_decide_eq_true (List.mem_filter.mp hsolve).2
    exact hkept ⟨hchallenge, howner⟩
  case flags =>
    intro flag hflag
    rw [flagSolve_eq_none_iff]
    intro solve hsolve howner hid
    obtain ⟨hold, hkept⟩ := List.mem_filter.mp hsolve
    obtain ⟨hmem, hchallenge⟩ := List.mem_filter.mp hflag
    have hsame := h.finds solve hold flag hmem hid.symm
    rw [of_decide_eq_true hchallenge] at hsame
    exact of_decide_eq_true hkept ⟨hsame.symm, howner⟩
  case unsolved =>
    rw [solveOf_eq_none_iff]
    intro row hrow hchallenge
    have hkept := of_decide_eq_true (List.mem_filter.mp hrow).2
    exact Bool.eq_false_iff.mpr fun hbelongs => hkept ⟨hchallenge, hbelongs⟩

theorem foundFlagIds_withFinds {found : List Flag} (h : db.Cleared challengeId owner)
    (hnodup : (found.map Flag.id).Nodup) :
    foundFlagIds (db.withFinds challengeId owner found) challengeId owner = found.map Flag.id := by
  have hnone : (db.flagSolves.filter fun solve =>
      solve.challengeId = challengeId ∧ solve.owner = owner) = [] := by
    rw [List.filter_eq_nil_iff]
    intro solve hsolve hboth
    obtain ⟨hchallenge, howner⟩ := of_decide_eq_true hboth
    exact h.finds solve hsolve howner hchallenge
  have hmap : (found.map fun flag => (⟨challengeId, flag.id, owner⟩ : EdoFlagSolve)).map
      EdoFlagSolve.flagId = found.map Flag.id := by
    rw [List.map_map]
    rfl
  have hall : (found.map fun flag => (⟨challengeId, flag.id, owner⟩ : EdoFlagSolve)).filter
      (fun solve => solve.challengeId = challengeId ∧ solve.owner = owner) =
        found.map fun flag => ⟨challengeId, flag.id, owner⟩ := by
    rw [List.filter_eq_self]
    intro solve hsolve
    obtain ⟨flag, -, rfl⟩ := List.mem_map.mp hsolve
    exact decide_eq_true ⟨rfl, rfl⟩
  unfold foundFlagIds withFinds
  rw [List.filter_append, hnone, hall, List.nil_append, hmap, hnodup.dedup]

/-- The set is complete when as many flags are found as there are. -/
theorem complete_withFinds {found : List Flag} (h : db.Cleared challengeId owner)
    (hnodup : (found.map Flag.id).Nodup) :
    (db.withFinds challengeId owner found).Complete challengeId owner ↔
      (db.flagsOf challengeId).length ≤ found.length := by
  unfold Complete
  rw [foundFlagIds_withFinds h hnodup, List.length_map]
  rfl

/-- A flag that is not among the found ones is new. -/
theorem flagSolve_withFinds {found : List Flag} {flag : Flag} (h : db.Cleared challengeId owner)
    (hflag : flag ∈ db.flagsOf challengeId) (hnew : flag.id ∉ found.map Flag.id) :
    (db.withFinds challengeId owner found).flagSolve owner flag.id = none := by
  rw [flagSolve_eq_none_iff]
  intro solve hsolve howner hid
  rcases List.mem_append.mp hsolve with hold | hfound
  · exact flagSolve_eq_none_iff.mp (h.flags flag hflag) solve hold howner hid
  · obtain ⟨other, hother, rfl⟩ := List.mem_map.mp hfound
    exact hnew (List.mem_map.mpr ⟨other, hother, hid⟩)

end PluginDb

/-! ## One submission -/

section Submission

variable {userId : Int} {team : Option Int} {submission ip : String}

/-- The end of a submission whose flag is new to an owner without a solve, given the tables with the
    find. -/
inductive Credited (found : PluginDb) (owner : Owner) (row : Submission) :
    Except PluginErr Response → PluginDb → Prop
  | incomplete {message progress} : ¬ found.Complete row.challengeId owner →
      Credited found owner row (.ok (.correct false false message progress)) found
  | scored {message progress scored} : found.Complete row.challengeId owner →
      found.insertSolve row = .ok scored →
      Credited found owner row (.ok (.correct false true message progress)) scored
  | conflict {err} : found.Complete row.challengeId owner → found.insertSolve row = .error err →
      Credited found owner row (.error (.flush err)) found

theorem wp_insertCtfdSolve_new (hnone : s.plugin.solveOf challengeId (solverOf userId team) = none) :
    wp (siteSem rpc) (fun _ _ => True) (insertCtfdSolve challengeId userId team submission ip)
      (fun out s' => (out = .ok () ∧
          s.plugin.insertSolve ⟨userId, team, challengeId, ip, submission⟩ = .ok s'.plugin) ∨
        ∃ err, out = .error (.flush err) ∧ s'.plugin = s.plugin ∧
          s.plugin.insertSolve ⟨userId, team, challengeId, ip, submission⟩ = .error err) s := by
  apply wp_select trivial
  rw [hnone]
  apply wp_commitLast trivial
  · intro db happly
    rw [PluginDb.applyAll_singleton] at happly
    exact .inl ⟨rfl, happly⟩
  · intro err happly
    rw [PluginDb.applyAll_singleton] at happly
    exact .inr ⟨err, rfl, rfl, happly⟩

theorem wp_judgeSubmission_new {flag : Flag} (howner : owner = solverOf userId team)
    (hmatch : ((s.plugin.flagsOf challengeId).find? fun flag => compare flag submission) = some flag)
    (hnew : s.plugin.flagSolve owner flag.id = none)
    (hnone : s.plugin.solveOf challengeId owner = none) :
    wp (siteSem rpc) (fun _ _ => True)
      (UserRoutes.judgeSubmission compare challengeId owner userId team submission ip)
      (fun out s' => Credited (s.plugin.withFind challengeId flag.id owner) owner
        ⟨userId, team, challengeId, ip, submission⟩ out s'.plugin) s := by
  subst howner
  apply wp_firstMatchingFlag
  rw [hmatch]
  apply wp_select trivial
  rw [hnew]
  apply wp_then (wp_recordFlagFind hmatch hnew)
  · rintro _ s₁ ⟨-, hdb⟩
    apply wp_ownerProgress
    intro progress hcomplete
    rw [hdb] at hcomplete
    apply wp_branch
    · intro hdone
      have hunsolved : s₁.plugin.solveOf challengeId (solverOf userId team) = none := by
        rw [hdb]
        exact hnone
      apply wp_then (wp_insertCtfdSolve_new hunsolved)
      · rintro _ s₂ (⟨-, hinserted⟩ | ⟨err, h, -⟩)
        · rw [hdb] at hinserted
          exact .scored (hcomplete.mp hdone) hinserted
        · cases h
      · rintro err s₂ (⟨h, -⟩ | ⟨_, ⟨⟩, hsame, hrefused⟩)
        · cases h
        · rw [hsame, hdb]
          rw [hdb] at hrefused
          exact .conflict (hcomplete.mp hdone) hrefused
    · intro hincomplete
      show Credited _ _ _ _ s₁.plugin
      rw [hdb]
      exact .incomplete fun h => hincomplete (hcomplete.mpr h)
  · rintro err s₁ ⟨h, -⟩
    cases h

end Submission

/-! ## The replay -/

/-- A submission of a member for one of the flags. -/
structure Guess where
  caller : Option Int
  flag : Flag
  provided : Option String
  ip : String

namespace Guess

/-- What `submit_flag` compares with the flags. -/
def submission (guess : Guess) : String := submissionOf guess.provided

/-- It matches its flag, and no other flag of the challenge. -/
def Hits (guess : Guess) (compare : FlagComparison) (db : PluginDb) (challengeId : Nat) : Prop :=
  ∀ flag ∈ db.flagsOf challengeId, compare flag guess.submission = true ↔ flag = guess.flag

/-- The flags of the submissions that are not empty. -/
def hitFlags (guesses : List Guess) : List Flag :=
  (guesses.filter fun guess => guess.submission ≠ "").map Guess.flag

theorem find?_flagsOf {guess : Guess} (h : guess.Hits compare db challengeId)
    (hflag : guess.flag ∈ db.flagsOf challengeId) :
    ((db.flagsOf challengeId).find? fun flag => compare flag guess.submission) = some guess.flag := by
  cases hfind : (db.flagsOf challengeId).find? fun flag => compare flag guess.submission with
  | none =>
    rw [List.find?_eq_none] at hfind
    exact absurd ((h guess.flag hflag).mpr rfl) (hfind guess.flag hflag)
  | some flag =>
    have hmem := List.mem_of_find?_eq_some hfind
    have hmatch := List.find?_some hfind
    rw [(h flag hmem).mp hmatch]

theorem hitFlags_eq_map {guesses : List Guess} (h : ∀ guess ∈ guesses, guess.submission ≠ "") :
    hitFlags guesses = guesses.map Guess.flag := by
  unfold hitFlags
  rw [List.filter_eq_self.mpr fun guess hguess => decide_eq_true (h guess hguess)]

theorem length_hitFlags_lt {guesses : List Guess} {guess : Guess} (hguess : guess ∈ guesses)
    (hempty : guess.submission = "") : (hitFlags guesses).length < guesses.length := by
  unfold hitFlags
  rw [List.length_map]
  exact List.length_filter_lt_length_iff_exists.mpr ⟨guess, hguess, by simp [hempty]⟩

theorem hitFlags_sublist {guesses : List Guess} :
    (hitFlags guesses).Sublist (guesses.map Guess.flag) :=
  List.filter_sublist.map _

theorem nodup_hitFlags {guesses : List Guess} {last : Guess} (hlast : guesses.getLast? = some last)
    (hnodup : ((guesses.map Guess.flag).map Flag.id).Nodup) :
    ((hitFlags guesses.dropLast ++ [last.flag]).map Flag.id).Nodup := by
  obtain ⟨init, rfl⟩ := List.getLast?_eq_some_iff.mp hlast
  rw [List.dropLast_concat]
  apply List.Nodup.sublist _ hnodup
  apply List.Sublist.map
  rw [List.map_append]
  exact hitFlags_sublist.append (List.Sublist.refl _)

end Guess

/-- The rate limit, or its setting, stopped the request. -/
def RateLimited : Except PluginErr Response → Prop
  | .ok (.refused (.rateLimited _)) | .error (.indexError _) => True
  | _ => False

/-- The submissions, one after the other within the rate limit, and the answer to the last one. -/
inductive Replay (rpc : RpcSem) (compare : FlagComparison) (challengeId : Nat) :
    List Guess → Site → Except PluginErr Response → Site → Prop
  | last {guess s out s'} :
      Ends (siteSem rpc) (UserRoutes.submitFlag compare guess.caller challengeId guess.provided guess.ip)
        s out s' → ¬ RateLimited out → Replay rpc compare challengeId [guess] s out s'
  | more {guess guesses s answer s₁ out s'} :
      Ends (siteSem rpc) (UserRoutes.submitFlag compare guess.caller challengeId guess.provided guess.ip)
        s answer s₁ → ¬ RateLimited answer → Replay rpc compare challengeId guesses s₁ out s' →
      Replay rpc compare challengeId (guess :: guesses) s out s'

/-- The answer to a submission, given what the replay found before it. -/
inductive Played (db : PluginDb) (challengeId : Nat) (owner : Owner) (guess : Guess)
    (found : List Flag) : Except PluginErr Response → PluginDb → Prop
  | empty : guess.submission = "" → Played db challengeId owner guess found
      (.ok (.refused .emptySubmission)) (db.withFinds challengeId owner found)
  | credited {user team out db'} : guess.submission ≠ "" → db.currentUser guess.caller = some user →
      owner = solverOf user.id team →
      Credited (db.withFinds challengeId owner (found ++ [guess.flag])) owner
        ⟨user.id, team, challengeId, guess.ip, guess.submission⟩ out db' →
      Played db challengeId owner guess found out db'

section Replays

variable {guess : Guess} {found : List Flag} {challenge : EdoChallenge}
  {out : Except PluginErr Response}

/-- **One submission of the replay.** -/
theorem played_of_ends (hcleared : db.Cleared challengeId owner)
    (hchallenge : db.getChallenge challengeId = some challenge)
    (hallowed : ¬ db.Exhausted challenge owner) (howner : db.resolveOwner guess.caller = some owner)
    (hhits : guess.Hits compare db challengeId) (hflag : guess.flag ∈ db.flagsOf challengeId)
    (hnew : guess.flag.id ∉ found.map Flag.id)
    (hdb : s.plugin = db.withFinds challengeId owner found)
    (hends : Ends (siteSem rpc)
      (UserRoutes.submitFlag compare guess.caller challengeId guess.provided guess.ip) s out s')
    (hlimit : ¬ RateLimited out) : Played db challengeId owner guess found out s'.plugin := by
  suffices h : wp (siteSem rpc) (fun _ _ => True)
      (UserRoutes.submitFlag compare guess.caller challengeId guess.provided guess.ip)
      (fun out s' => ¬ RateLimited out → Played db challengeId owner guess found out s'.plugin) s from
    hends.of_wp h hlimit
  have hsame : s.plugin.getChallenge challengeId = some challenge := by
    rw [hdb]
    exact hchallenge
  have howner : s.plugin.resolveOwner guess.caller = some owner := by
    rw [hdb]
    exact howner
  apply wp_submitFlag_checked howner
  · intro hnone
    rw [hsame] at hnone
    cases hnone
  · exact fun msg buckets h => absurd trivial h
  · exact fun retryAfter buckets h => absurd trivial h
  · intro challenge' buckets hchallenge' hexhausted
    rw [hsame] at hchallenge'
    cases hchallenge'
    rw [hdb] at hexhausted
    exact absurd hexhausted hallowed
  · intro challenge' buckets _ _ hempty _
    show Played _ _ _ _ _ _ s.plugin
    rw [hdb]
    exact .empty hempty
  · intro challenge' user team buckets _ _ huser hsolver hnonempty
    have hmatch : ((s.plugin.flagsOf challengeId).find? fun flag => compare flag guess.submission) =
        some guess.flag := by
      rw [hdb]
      exact Guess.find?_flagsOf hhits hflag
    have hfresh : s.plugin.flagSolve owner guess.flag.id = none := by
      rw [hdb]
      exact PluginDb.flagSolve_withFinds hcleared hflag hnew
    have hunsolved : s.plugin.solveOf challengeId owner = none := by
      rw [hdb]
      exact hcleared.unsolved
    apply wp_mono (wp_judgeSubmission_new (s := { s with buckets := buckets }) hsolver hmatch hfresh
      hunsolved)
    intro out s' hcredited _
    rw [hdb] at hcredited huser
    rw [PluginDb.withFind_withFinds] at hcredited
    exact .credited hnonempty huser hsolver hcredited

/-- An owner that has used up its attempts is refused, whatever it submits. -/
theorem refused_of_exhausted (hchallenge : s.plugin.getChallenge challengeId = some challenge)
    (hexhausted : s.plugin.Exhausted challenge owner)
    (howner : s.plugin.resolveOwner guess.caller = some owner)
    (hends : Ends (siteSem rpc)
      (UserRoutes.submitFlag compare guess.caller challengeId guess.provided guess.ip) s out s')
    (hlimit : ¬ RateLimited out) :
    out = .ok (.refused .attemptsExhausted) ∧ s'.plugin = s.plugin := by
  suffices h : wp (siteSem rpc) (fun _ _ => True)
      (UserRoutes.submitFlag compare guess.caller challengeId guess.provided guess.ip)
      (fun out s' => ¬ RateLimited out →
        out = .ok (.refused .attemptsExhausted) ∧ s'.plugin = s.plugin) s from
    hends.of_wp h hlimit
  apply wp_submitFlag_checked howner
  · intro hnone
    rw [hchallenge] at hnone
    cases hnone
  · exact fun msg buckets h => absurd trivial h
  · exact fun retryAfter buckets h => absurd trivial h
  · exact fun challenge' buckets _ _ _ => ⟨rfl, rfl⟩
  · intro challenge' buckets hchallenge' hallowed
    rw [hchallenge] at hchallenge'
    cases hchallenge'
    exact absurd hexhausted hallowed
  · intro challenge' user team buckets hchallenge' hallowed
    rw [hchallenge] at hchallenge'
    cases hchallenge'
    exact absurd hexhausted hallowed

/-- The submissions still to come are of the members, and for flags that nobody found yet. -/
structure Replayable (compare : FlagComparison) (db : PluginDb) (challengeId : Nat) (owner : Owner)
    (found : List Flag) (guesses : List Guess) : Prop where
  callers : ∀ guess ∈ guesses, db.resolveOwner guess.caller = some owner
  hits : ∀ guess ∈ guesses, guess.Hits compare db challengeId
  flags : ∀ guess ∈ guesses, guess.flag ∈ db.flagsOf challengeId
  nodup : ((found ++ guesses.map Guess.flag).map Flag.id).Nodup
  length : found.length + guesses.length ≤ (db.flagsOf challengeId).length

namespace Replayable

variable {guesses : List Guess}

theorem tail (h : Replayable compare db challengeId owner found (guess :: guesses)) :
    Replayable compare db challengeId owner (found ++ Guess.hitFlags [guess]) guesses := by
  have hshort : (Guess.hitFlags [guess]).Sublist ([guess].map Guess.flag) := Guess.hitFlags_sublist
  constructor
  case callers => exact fun other hother => h.callers other (List.mem_cons_of_mem _ hother)
  case hits => exact fun other hother => h.hits other (List.mem_cons_of_mem _ hother)
  case flags => exact fun other hother => h.flags other (List.mem_cons_of_mem _ hother)
  case nodup =>
    apply List.Nodup.sublist _ h.nodup
    apply List.Sublist.map
    rw [List.append_assoc]
    exact List.Sublist.append (List.Sublist.refl _)
      (List.Sublist.append hshort (List.Sublist.refl _))
  case length =>
    have hlength := h.length
    have hle := hshort.length_le
    simp only [List.length_append, List.length_cons, List.length_map, List.length_nil] at hlength hle ⊢
    omega

theorem new (h : Replayable compare db challengeId owner found (guess :: guesses)) :
    guess.flag.id ∉ found.map Flag.id := by
  have hnodup := h.nodup
  rw [List.map_append, List.nodup_append] at hnodup
  intro hmem
  exact hnodup.2.2 _ hmem guess.flag.id (by simp) rfl

theorem nodup_found (h : Replayable compare db challengeId owner found (guess :: guesses)) :
    ((found ++ [guess.flag]).map Flag.id).Nodup := by
  apply List.Nodup.sublist _ h.nodup
  apply List.Sublist.map
  exact List.Sublist.append (List.Sublist.refl _) (List.singleton_sublist.mpr (by simp))

/-- A submission that is not the last one leaves its find at most. -/
theorem next {db' : PluginDb} (h : Replayable compare db challengeId owner found (guess :: guesses))
    (hcleared : db.Cleared challengeId owner) (hmore : guesses ≠ [])
    (hplayed : Played db challengeId owner guess found out db') :
    db' = db.withFinds challengeId owner (found ++ Guess.hitFlags [guess]) := by
  have hlength : 0 < guesses.length := List.length_pos_of_ne_nil hmore
  have hincomplete : ¬ (db.withFinds challengeId owner (found ++ [guess.flag])).Complete
      challengeId owner := by
    rw [PluginDb.complete_withFinds hcleared h.nodup_found]
    have hfit := h.length
    simp only [List.length_append, List.length_cons, List.length_nil] at hfit ⊢
    omega
  cases hplayed with
  | empty hempty => simp [Guess.hitFlags, hempty]
  | credited hnonempty _ _ hcredited =>
    have hflags : Guess.hitFlags [guess] = [guess.flag] := by simp [Guess.hitFlags, hnonempty]
    rw [hflags]
    cases hcredited with
    | incomplete => rfl
    | scored hcomplete _ => exact absurd hcomplete hincomplete
    | conflict hcomplete _ => exact absurd hcomplete hincomplete

end Replayable

/-- **The answer to the last submission.** -/
theorem Replay.played {guesses : List Guess} {last : Guess} (hcleared : db.Cleared challengeId owner)
    (hchallenge : db.getChallenge challengeId = some challenge)
    (hallowed : ¬ db.Exhausted challenge owner) (hlast : guesses.getLast? = some last)
    (hreplay : Replay rpc compare challengeId guesses s out s')
    (hfit : Replayable compare db challengeId owner found guesses)
    (hdb : s.plugin = db.withFinds challengeId owner found) :
    Played db challengeId owner last (found ++ Guess.hitFlags guesses.dropLast) out s'.plugin := by
  induction hreplay generalizing found with
  | @last guess _ _ _ hends hlimit =>
    cases hlast
    rw [List.dropLast_singleton]
    simp only [Guess.hitFlags, List.filter_nil, List.map_nil, List.append_nil]
    exact played_of_ends hcleared hchallenge hallowed (hfit.callers guess List.mem_cons_self)
      (hfit.hits guess List.mem_cons_self) (hfit.flags guess List.mem_cons_self) hfit.new hdb hends
      hlimit
  | @more guess guesses _ answer s₁ _ _ hends hlimit hrest ih =>
    have hmore : guesses ≠ [] := by
      rintro rfl
      cases hrest
    have hplayed := played_of_ends hcleared hchallenge hallowed
      (hfit.callers guess List.mem_cons_self) (hfit.hits guess List.mem_cons_self)
      (hfit.flags guess List.mem_cons_self) hfit.new hdb hends hlimit
    have hnext := ih (by rwa [List.getLast?_cons_of_ne_nil hmore] at hlast) hfit.tail
      (hfit.next hcleared hmore hplayed)
    rw [List.append_assoc] at hnext
    rw [List.dropLast_cons_of_ne_nil hmore]
    have hflags : Guess.hitFlags [guess] ++ Guess.hitFlags guesses.dropLast =
        Guess.hitFlags (guess :: guesses.dropLast) := by
      unfold Guess.hitFlags
      rw [← List.map_append, ← List.filter_append, List.singleton_append]
    rw [← hflags]
    exact hnext

theorem Replay.refused {guesses : List Guess}
    (hreplay : Replay rpc compare challengeId guesses s out s')
    (hchallenge : s.plugin.getChallenge challengeId = some challenge)
    (hexhausted : s.plugin.Exhausted challenge owner)
    (hcallers : ∀ guess ∈ guesses, s.plugin.resolveOwner guess.caller = some owner) :
    out = .ok (.refused .attemptsExhausted) := by
  induction hreplay with
  | @last guess _ _ _ hends hlimit =>
    have hcaller := hcallers guess List.mem_cons_self
    exact (refused_of_exhausted hchallenge hexhausted hcaller hends hlimit).1
  | @more guess guesses _ answer s₁ _ _ hends hlimit _ ih =>
    have hcaller := hcallers guess List.mem_cons_self
    obtain ⟨-, hsame⟩ := refused_of_exhausted hchallenge hexhausted hcaller hends hlimit
    rw [← hsame] at hchallenge hexhausted hcallers
    exact ih hchallenge hexhausted fun other hother => hcallers other (List.mem_cons_of_mem _ hother)

end Replays

/-! ## Back to not solved -/

/-- What the reset left of everybody else. -/
structure ResetKeeps (db db' : PluginDb) (challengeId : Nat) (owner : Owner) : Prop where
  fails : db'.fails = db.fails
  finds : ∀ challengeId' owner', (challengeId', owner') ≠ (challengeId, owner) →
    (db'.flagSolves.filter fun solve => solve.challengeId = challengeId' ∧ solve.owner = owner') =
      db.flagSolves.filter fun solve => solve.challengeId = challengeId' ∧ solve.owner = owner'
  solves : ∀ challengeId' owner', (challengeId', owner') ≠ (challengeId, owner) →
    owner'.ownerType = owner.ownerType →
      db'.solvesOf challengeId' owner' = db.solvesOf challengeId' owner'

/-- A solve belongs to one owner of each type. -/
theorem Submission.belongsTo_inj {row : Submission} {owner' : Owner} (h : row.belongsTo owner = true)
    (h' : row.belongsTo owner' = true) (htype : owner'.ownerType = owner.ownerType) :
    owner' = owner := by
  obtain ⟨ownerType, ownerId⟩ := owner
  obtain ⟨ownerType', ownerId'⟩ := owner'
  obtain rfl : ownerType' = ownerType := htype
  unfold Submission.belongsTo at h h'
  by_cases hteam : ownerType' = "team"
  · simp only [hteam, if_pos, decide_eq_true_eq] at h h'
    rw [h, Option.some.injEq] at h'
    rw [h']
  · simp only [hteam, if_false, decide_eq_true_eq] at h h'
    rw [← h, ← h']

theorem resetKeeps_withoutProgress :
    ResetKeeps db (db.withoutProgress challengeId owner) challengeId owner := by
  constructor
  case fails => rfl
  case finds =>
    intro challengeId' owner' hother
    unfold PluginDb.withoutProgress
    rw [List.filter_filter]
    apply List.filter_congr
    intro solve _
    rw [← Bool.decide_and, decide_eq_decide]
    constructor
    · exact fun h => h.1
    · rintro ⟨rfl, rfl⟩
      exact ⟨⟨rfl, rfl⟩, fun ⟨h, h'⟩ => hother (by rw [h, h'])⟩
  case solves =>
    intro challengeId' owner' hother htype
    unfold PluginDb.solvesOf PluginDb.withoutProgress
    rw [List.filter_filter]
    apply List.filter_congr
    intro solve _
    rw [← Bool.decide_and, decide_eq_decide]
    constructor
    · exact fun h => h.1
    · rintro ⟨rfl, hbelongs⟩
      refine ⟨⟨rfl, hbelongs⟩, fun ⟨h, h'⟩ => hother ?_⟩
      rw [h, Submission.belongsTo_inj h' hbelongs htype]

/-- A reset for an owner of either mode deletes its progress. -/
theorem wp_resetOwnerProgress_done {caller : Option Int}
    (howner : s.plugin.resolveOwner caller = some owner) :
    wp (siteSem rpc) (fun _ _ => True) (AdminRoutes.resetOwnerProgress challengeId owner)
      (fun _ s' => s'.plugin = s.plugin.withoutProgress challengeId owner) s := by
  apply wp_branch
  · rintro ⟨huser, hteam⟩
    unfold PluginDb.resolveOwner at howner
    obtain ⟨user, -, hresolved⟩ := Option.bind_eq_some_iff.mp howner
    split at hresolved
    · obtain ⟨team, -, rfl⟩ := Option.map_eq_some_iff.mp hresolved
      exact absurd rfl hteam
    · cases hresolved
      exact absurd rfl huser
  · intro _
    apply wp_commit trivial
    · intro db happly
      cases happly
      exact rfl
    · intro err happly
      cases happly

/-- Inserting a solve needs a user without one. -/
theorem userId_ne_of_insertSolve_ok {row solve : Submission} (h : db.insertSolve row = .ok db')
    (hsolve : solve ∈ db.solves) (hchallenge : solve.challengeId = row.challengeId) :
    solve.userId ≠ row.userId := by
  intro hsame
  unfold PluginDb.insertSolve at h
  rw [if_pos (List.any_eq_true.mpr ⟨solve, hsolve, decide_eq_true ⟨hchallenge, hsame⟩⟩)] at h
  cases h

/-- The last submission was answered `complete`, and the owner has its one solve. -/
def SolvedAgain (db : PluginDb) (challengeId : Nat) (owner : Owner)
    (out : Except PluginErr Response) : Prop :=
  (∃ alreadyFound message progress, out = .ok (.correct alreadyFound true message progress)) ∧
    (db.solvesOf challengeId owner).length = 1

/-- What a replay needs besides the flags: attempts that are left, submissions that are not empty,
    and a last member whose solve, if it has one, is the owner's. -/
structure CanReplay (db : PluginDb) (challenge : EdoChallenge) (owner : Owner) (guesses : List Guess)
    (last : Guess) : Prop where
  attempts : ¬ db.Exhausted challenge owner
  nonempty : ∀ guess ∈ guesses, guess.submission ≠ ""
  solver : ∀ solve ∈ db.solves, solve.challengeId = challenge.id → last.caller = some solve.userId →
    solve.belongsTo owner = true

namespace Played

variable {last : Guess} {found : List Flag} {out : Except PluginErr Response}

/-- The last submission solves if it is not empty, finds the last flag, and its member has no solve. -/
theorem solvedAgain_iff (h : Played db challengeId owner last found out db')
    (hcleared : db.Cleared challengeId owner) (hnodup : ((found ++ [last.flag]).map Flag.id).Nodup) :
    SolvedAgain db' challengeId owner out ↔ last.submission ≠ "" ∧
      (db.flagsOf challengeId).length ≤ found.length + 1 ∧
      ∀ solve ∈ db.solves, solve.challengeId = challengeId → last.caller ≠ some solve.userId := by
  have hcomplete := PluginDb.complete_withFinds hcleared hnodup
  rw [List.length_append, List.length_singleton] at hcomplete
  cases h with
  | empty hempty =>
    constructor
    · rintro ⟨⟨_, _, _, hout⟩, -⟩
      cases hout
    · exact fun h => absurd hempty h.1
  | @credited user team _ _ hnonempty huser hsolver hcredited =>
    have hcaller : last.caller = some user.id := by
      obtain ⟨userId, hcaller, hget⟩ := Option.bind_eq_some_iff.mp huser
      have hid : user.id = userId := by simpa using List.find?_some hget
      rw [hcaller, hid]
    cases hcredited with
    | incomplete hincomplete =>
      constructor
      · rintro ⟨⟨_, _, _, hout⟩, -⟩
        cases hout
      · exact fun h => absurd (hcomplete.mpr h.2.1) hincomplete
    | @scored message progress _ hfull hinsert =>
      have hrow := insertSolve_ok hinsert
      have hnone : db.solvesOf challengeId owner = [] :=
        PluginDb.solveOf_eq_none_iff_solvesOf.mp hcleared.unsolved
      constructor
      · intro _
        refine ⟨hnonempty, hcomplete.mp hfull, fun solve hsolve hchallenge hsame => ?_⟩
        rw [hcaller, Option.some.injEq] at hsame
        exact userId_ne_of_insertSolve_ok hinsert hsolve hchallenge hsame.symm
      · intro _
        refine ⟨⟨_, _, _, rfl⟩, ?_⟩
        rw [hrow, PluginDb.solvesOf_append rfl hsolver]
        show (db.solvesOf challengeId owner ++ _).length = 1
        rw [hnone]
        rfl
    | conflict _ hrefused =>
      constructor
      · rintro ⟨⟨_, _, _, hout⟩, -⟩
        cases hout
      · rintro ⟨-, -, hfree⟩
        subst hsolver
        rw [insertSolve_eq_ok hcleared.unsolved] at hrefused
        · cases hrefused
        · intro solve hsolve hchallenge hsame
          apply hfree solve hsolve hchallenge
          rw [hcaller, hsame]

end Played

/-- The earlier submissions found all flags but one if none of them is empty. -/
theorem length_hitFlags_dropLast {guesses : List Guess} {last : Guess}
    (hlast : guesses.getLast? = some last) :
    (last.submission ≠ "" ∧ guesses.length ≤ (Guess.hitFlags guesses.dropLast).length + 1) ↔
      ∀ guess ∈ guesses, guess.submission ≠ "" := by
  obtain ⟨init, rfl⟩ := List.getLast?_eq_some_iff.mp hlast
  rw [List.dropLast_concat, List.length_append, List.length_singleton]
  constructor
  · rintro ⟨hnonempty, hlength⟩ guess hguess hempty
    rcases List.mem_append.mp hguess with hinit | hsame
    · have hlt := Guess.length_hitFlags_lt hinit hempty
      omega
    · rw [List.mem_singleton.mp hsame] at hempty
      exact hnonempty hempty
  · intro hall
    refine ⟨hall last (by simp), ?_⟩
    rw [Guess.hitFlags_eq_map fun guess hguess => hall guess (List.mem_append_left _ hguess),
      List.length_map]

/-- **Solving again**: the reset keeps the progress of everybody else, and its owner can solve the
    challenge again exactly if it has attempts left, no submission is empty and the last member has
    no solve from another team. -/
theorem reset_replay_iff (rpc : RpcSem) (compare : FlagComparison) (s₀ s s₁ s₂ : Site)
    (challengeId : Nat) (owner : Owner) (challenge : EdoChallenge) (guesses : List Guess)
    (last : Guess) (answer out : Except PluginErr Response) (hunplayed : s₀.plugin.Unplayed)
    (hrun : SiteRun rpc compare (fun _ _ => True) s₀ s)
    (hchallenge : s.plugin.getChallenge challengeId = some challenge)
    (hcallers : ∀ guess ∈ guesses, s.plugin.resolveOwner guess.caller = some owner)
    (hhits : ∀ guess ∈ guesses, guess.Hits compare s.plugin challengeId)
    (hflags : (guesses.map Guess.flag).Perm (s.plugin.flagsOf challengeId))
    (hlast : guesses.getLast? = some last)
    (hreset : Ends (siteSem rpc) (AdminRoutes.resetOwnerProgress challengeId owner) s answer s₁)
    (hreplay : Replay rpc compare challengeId guesses s₁ out s₂) :
    ResetKeeps s.plugin s₁.plugin challengeId owner ∧
      (SolvedAgain s₂.plugin challengeId owner out ↔
        CanReplay s.plugin challenge owner guesses last) := by
  have hfit : s.plugin.FindsFit := SiteRun.findsFit hunplayed hrun
  have hid : challenge.id = challengeId := by simpa using List.find?_some hchallenge
  have hmem : last ∈ guesses := List.mem_of_getLast? hlast
  have hdb : s₁.plugin = s.plugin.withoutProgress challengeId owner :=
    hreset.of_wp (wp_resetOwnerProgress_done (hcallers last hmem))
  refine ⟨hdb ▸ resetKeeps_withoutProgress, ?_⟩
  by_cases hexhausted : s.plugin.Exhausted challenge owner
  · have hchallenge₁ : s₁.plugin.getChallenge challengeId = some challenge := by
      rw [hdb]
      exact hchallenge
    have hexhausted₁ : s₁.plugin.Exhausted challenge owner := by
      rw [hdb]
      exact hexhausted
    have hout : out = .ok (.refused .attemptsExhausted) := by
      apply hreplay.refused hchallenge₁ hexhausted₁
      rw [hdb]
      exact hcallers
    constructor
    · rintro ⟨⟨_, _, _, hcorrect⟩, -⟩
      rw [hout] at hcorrect
      cases hcorrect
    · exact fun h => absurd hexhausted h.attempts
  · let db := s.plugin.withoutProgress challengeId owner
    have hcleared : db.Cleared challengeId owner := PluginDb.cleared_withoutProgress hfit
    have hnodup : ((guesses.map Guess.flag).map Flag.id).Nodup := by
      apply (hflags.map Flag.id).nodup_iff.mpr
      exact hfit.flagKeys.sublist (List.filter_sublist.map _)
    have hlength : (s.plugin.flagsOf challengeId).length = guesses.length := by
      rw [← hflags.length_eq, List.length_map]
    have hreplayable : Replayable compare db challengeId owner [] guesses := by
      constructor
      case callers => exact hcallers
      case hits => exact hhits
      case flags => exact fun guess hguess => hflags.subset (List.mem_map_of_mem hguess)
      case nodup => exact hnodup
      case length =>
        rw [List.length_nil, Nat.zero_add]
        exact hlength.ge
    have hplayed := hreplay.played hcleared hchallenge hexhausted hlast hreplayable
      (hdb.trans PluginDb.withFinds_nil.symm)
    rw [List.nil_append] at hplayed
    have hfound := Guess.nodup_hitFlags hlast hnodup
    rw [hplayed.solvedAgain_iff hcleared hfound]
    have hnonempty := length_hitFlags_dropLast hlast
    constructor
    · rintro ⟨hsubmitted, hfull, hfree⟩
      have hfull : guesses.length ≤ (Guess.hitFlags guesses.dropLast).length + 1 := by
        rw [← hlength]
        exact hfull
      refine ⟨hexhausted, hnonempty.mp ⟨hsubmitted, hfull⟩, ?_⟩
      intro solve hsolve hsame hcaller
      by_contra hbelongs
      rw [hid] at hsame
      apply hfree solve _ hsame hcaller
      exact List.mem_filter.mpr ⟨hsolve, decide_eq_true fun h => hbelongs h.2⟩
    · intro h
      obtain ⟨hsubmitted, hfull⟩ := hnonempty.mpr h.nonempty
      refine ⟨hsubmitted, hlength.trans_le hfull, ?_⟩
      intro solve hsolve hsame hcaller
      obtain ⟨hold, hkept⟩ := List.mem_filter.mp hsolve
      exact of_decide_eq_true hkept ⟨hsame, h.solver solve hold (hsame.trans hid.symm) hcaller⟩

/-! ## One attempt -/

/-- A challenge that allows a number of attempts. -/
def limitedChallenge (maxAttempts : Option Int) : EdoChallenge :=
  ⟨1, "web", maxAttempts, some "/challenges/web-1", none, none, none, false, none, "vpn", some 100,
    "static", some 500, some 100, some 25⟩

def limitedSite (maxAttempts : Option Int) : Site := { freshSite with plugin := { freshSite.plugin with
  challenges := [limitedChallenge maxAttempts] } }

theorem limitedSite_unplayed {maxAttempts : Option Int} : (limitedSite maxAttempts).plugin.Unplayed :=
  ⟨rfl, rfl, List.nodup_nil, fun _ h => by cases h⟩

/-- The submission of the one flag. -/
def guessesOne : Guess := ⟨some 1, ⟨1, 1, "static", "one", ""⟩, some "one", "10.0.0.1"⟩

/-- The participant solves the challenge, guesses once more, is reset, and submits the flag again. -/
def resetRun (maxAttempts : Option Int) :
    Option (Site × (Except PluginErr Response × Site) × Except PluginErr Response × Site) :=
  let run (p : Plugin Response) (s : Site) :=
    ((siteMachine (execRpc DaemonEnv.default)).run (quietSiteChoice 0) p s).map fun result => result.2
  (siteHistory (execRpc DaemonEnv.default) sameContent (fun _ _ => true)
    [addsFlag "one", submits "one", submits "guess"] (limitedSite maxAttempts)).bind fun s =>
      (run (AdminRoutes.resetOwnerProgress 1 alice) s).bind fun cleared =>
        (run (UserRoutes.submitFlag sameContent (some 1) 1 (some "one") "10.0.0.1") cleared.2).map
          fun answered => (s, cleared, answered)

/-- The challenge is the participant's, with the one flag; all it knows of is the first solve. -/
def MeetsReplay (s : Site) (challenge : EdoChallenge) : Prop :=
  s.plugin.getChallenge 1 = some challenge ∧ s.plugin.resolveOwner (some 1) = some alice ∧
    s.plugin.flagsOf 1 = [guessesOne.flag] ∧ s.plugin.solves = [⟨1, none, 1, "10.0.0.1", "one"⟩]

instance (s : Site) (challenge : EdoChallenge) : Decidable (MeetsReplay s challenge) :=
  inferInstanceAs (Decidable (_ ∧ _ ∧ _ ∧ _))

theorem hits_of_meetsReplay {challenge : EdoChallenge} (h : MeetsReplay s challenge) :
    ∀ guess ∈ [guessesOne], guess.Hits sameContent s.plugin 1 := by
  intro guess hguess flag hflag
  rw [List.mem_singleton.mp hguess]
  rw [h.2.2.1, List.mem_singleton] at hflag
  subst hflag
  exact ⟨fun _ => rfl, fun _ => rfl⟩

theorem of_resetRun {maxAttempts : Option Int} {s s₁ s₂ : Site} {answer out : Except PluginErr Response}
    (h : resetRun maxAttempts = some (s, (answer, s₁), out, s₂)) (hlimit : ¬ RateLimited out) :
    SiteRun (Unreliable DaemonEnv.default) sameContent (fun _ _ => True) (limitedSite maxAttempts) s ∧
      Ends (siteSem (Unreliable DaemonEnv.default)) (AdminRoutes.resetOwnerProgress 1 alice) s answer
        s₁ ∧
      Replay (Unreliable DaemonEnv.default) sameContent 1 [guessesOne] s₁ out s₂ := by
  have hrpc := executes_unreliable DaemonEnv.default
  obtain ⟨s', hhistory, hrest⟩ := Option.bind_eq_some_iff.mp h
  obtain ⟨⟨answer', s₁'⟩, hreset, hrest⟩ := Option.bind_eq_some_iff.mp hrest
  obtain ⟨⟨out', s₂'⟩, hsubmit, heq⟩ := Option.map_eq_some_iff.mp hrest
  cases heq
  obtain ⟨⟨trace, _, _⟩, hresetRun, ⟨⟩⟩ := Option.map_eq_some_iff.mp hreset
  obtain ⟨⟨trace', _, _⟩, hsubmitRun, ⟨⟩⟩ := Option.map_eq_some_iff.mp hsubmit
  refine ⟨.of_siteHistory hrpc (fun _ _ _ => trivial) hhistory, ends_of_siteRun hrpc hresetRun, ?_⟩
  exact .last (ends_of_siteRun hrpc hsubmitRun) hlimit

theorem resetRun_unlimited : (resetRun none).any (fun r =>
    decide (MeetsReplay r.1 (limitedChallenge none) ∧
      r.2.2.1 = .ok (.correct false true "Correct! Challenge complete." ⟨1, 1, 100⟩))) = true := by
  decide +kernel

theorem reset_replay_iff_unlimited : ∃ s cleared out s', resetRun none = some (s, cleared, out, s') ∧
    ResetKeeps s.plugin cleared.2.plugin 1 alice ∧ SolvedAgain s'.plugin 1 alice out := by
  obtain ⟨⟨s, ⟨answer, s₁⟩, out, s₂⟩, hreset, hmeets⟩ := (Option.any_eq_true _ _).mp resetRun_unlimited
  obtain ⟨hmeets, rfl⟩ := of_decide_eq_true hmeets
  obtain ⟨hrun, hends, hreplay⟩ := of_resetRun hreset fun h => h
  have hiff := reset_replay_iff _ sameContent (limitedSite none) s s₁ s₂ 1 alice (limitedChallenge none)
    [guessesOne] guessesOne answer _ limitedSite_unplayed hrun hmeets.1
    (fun guess hguess => List.mem_singleton.mp hguess ▸ hmeets.2.1) (hits_of_meetsReplay hmeets)
    (by rw [hmeets.2.2.1]; exact List.Perm.refl _) rfl hends hreplay
  refine ⟨s, (answer, s₁), _, s₂, hreset, hiff.1, hiff.2.mpr ⟨fun h => h.1 rfl, ?_, ?_⟩⟩
  · intro guess hguess
    rw [List.mem_singleton.mp hguess]
    decide
  · intro solve hsolve _ _
    rw [hmeets.2.2.2, List.mem_singleton] at hsolve
    rw [hsolve]
    rfl

theorem resetRun_limited : (resetRun (some 1)).any (fun r =>
    decide (MeetsReplay r.1 (limitedChallenge (some 1)) ∧
      r.2.2.1 = .ok (.refused .attemptsExhausted))) = true := by
  decide +kernel

/-- The guess after the solve still counts once the solve is gone. -/
theorem not_reset_replay : ¬ ∀ (rpc : RpcSem) (compare : FlagComparison) (s₀ s s₁ s₂ : Site)
    (challengeId : Nat) (owner : Owner) (challenge : EdoChallenge) (guesses : List Guess)
    (last : Guess) (answer out : Except PluginErr Response), s₀.plugin.Unplayed →
    SiteRun rpc compare (fun _ _ => True) s₀ s →
    s.plugin.getChallenge challengeId = some challenge →
    (∀ guess ∈ guesses, s.plugin.resolveOwner guess.caller = some owner) →
    (∀ guess ∈ guesses, guess.Hits compare s.plugin challengeId) →
    (guesses.map Guess.flag).Perm (s.plugin.flagsOf challengeId) →
    guesses.getLast? = some last →
    Ends (siteSem rpc) (AdminRoutes.resetOwnerProgress challengeId owner) s answer s₁ →
    Replay rpc compare challengeId guesses s₁ out s₂ →
    ResetKeeps s.plugin s₁.plugin challengeId owner ∧ SolvedAgain s₂.plugin challengeId owner out := by
  intro hall
  obtain ⟨⟨s, ⟨answer, s₁⟩, out, s₂⟩, hreset, hmeets⟩ := (Option.any_eq_true _ _).mp resetRun_limited
  obtain ⟨hmeets, rfl⟩ := of_decide_eq_true hmeets
  obtain ⟨hrun, hends, hreplay⟩ := of_resetRun hreset fun h => h
  obtain ⟨-, ⟨_, _, _, hcorrect⟩, -⟩ := hall _ sameContent (limitedSite (some 1)) s s₁ s₂ 1 alice
    (limitedChallenge (some 1)) [guessesOne] guessesOne answer _ limitedSite_unplayed hrun hmeets.1
    (fun guess hguess => List.mem_singleton.mp hguess ▸ hmeets.2.1) (hits_of_meetsReplay hmeets)
    (by rw [hmeets.2.2.1]; exact List.Perm.refl _) rfl hends hreplay
  cases hcorrect

end EdoPlugin
