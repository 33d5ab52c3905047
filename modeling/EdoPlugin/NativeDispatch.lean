import EdoPlugin.Completion

/-!
# CTFd's own attempts

`EdoChallengeType.attempt` and `solve` serve the submissions that reach CTFd's attempt endpoint
instead of `submit_flag`.  `attempt` counts the finds before it records one, `submit_flag` recounts
them afterwards.  As long as the user has no solve of the challenge under an earlier owner, the two
paths award the same solves.
-/

namespace EdoPlugin

open Interaction ChallengeType

/-! ## The challenge type -/

namespace EdoChallengeType

/-- The rows `attempt` counts. -/
def findCount (db : PluginDb) (challengeId : Nat) (owner : Owner) : Nat :=
  (db.flagSolves.filter fun solve => solve.challengeId = challengeId ∧ solve.owner = owner).length

section Attempts

variable (compare : FlagComparison)

/-- The comparison of a submission that is not empty. -/
def attemptFlag (challengeId : Nat) (owner : Owner) (submission : String) :
    Plugin (Bool × String) := do
  let matching ← firstMatchingFlag compare challengeId submission
  match matching with
  | none => return (false, "Incorrect")
  | some flag =>
    let db ← select
    match db.flagSolve owner flag.id with
    | some _ => return (false, "Incorrect")
    | none =>
      let flagRows ← select
      let findRows ← select
      let totalFlags := (flagRows.flagsOf challengeId).length
      let foundSoFar := findCount findRows challengeId owner
      if totalFlags ≤ foundSoFar + 1 then return (true, "Correct! All flags captured.")
      else
        let remaining := totalFlags - foundSoFar - 1
        return (false,
          s!"Correct, but {remaining} flag(s) remain — submit from the challenge panel.")

def attempt (caller : Option Int) (challengeId : Nat) (provided : Option String) :
    Plugin (Bool × String) := do
  let db ← select
  match db.resolveOwner caller with
  | none => return (false, "Incorrect")
  | some owner =>
    let submission := submissionOf provided
    if submission = "" then return (false, "Empty submission")
    else attemptFlag compare challengeId owner submission

def solve (userId : Int) (team : Option Int) (challengeId : Nat) (provided : Option String)
    (ip : String) : Plugin Unit := do
  let submission := submissionOf provided
  let _ ← recordFlagFind compare challengeId userId team submission
  insertCtfdSolve challengeId userId team submission ip

def fail (userId : Int) (team : Option Int) (challengeId : Nat) (provided : Option String)
    (ip : String) : Plugin Unit :=
  insertCtfdFail challengeId userId team (submissionOf provided) ip

end Attempts

end EdoChallengeType

/-! ## CTFd's dispatcher -/

inductive NativeAnswer where
  | notFound
  | alreadySolved
  | correct (message : String)
  | incorrect (message : String)
deriving DecidableEq, Repr

/-- The attempt endpoint: `attempt`, then `solve` if its status is truthy, for the user and team of
    an account that has no solve yet. -/
def dispatchAttempt (compare : FlagComparison) (caller : Option Int) (userId : Int)
    (team : Option Int) (challengeId : Nat) (provided : Option String) (ip : String) :
    Plugin NativeAnswer := do
  let db ← select
  match db.getChallenge challengeId with
  | none => return .notFound
  | some _ =>
    let db ← select
    match db.solveOf challengeId (solverOf userId team) with
    | some _ => return .alreadySolved
    | none =>
      let answer ← EdoChallengeType.attempt compare caller challengeId provided
      if answer.1 then
        EdoChallengeType.solve compare userId team challengeId provided ip
        return .correct answer.2
      else
        EdoChallengeType.fail userId team challengeId provided ip
        return .incorrect answer.2

/-! ## Completing submissions -/

/-- The submission is of a flag that is new to the owner and completes its set. -/
structure Completes (compare : FlagComparison) (db : PluginDb) (challengeId : Nat) (owner : Owner)
    (submission : String) (flag : Flag) : Prop where
  challenge : db.getChallenge challengeId ≠ none
  nonempty : submission ≠ ""
  matching : ((db.flagsOf challengeId).find? fun flag => compare flag submission) = some flag
  new : db.flagSolve owner flag.id = none
  complete : (db.withFind challengeId flag.id owner).Complete challengeId owner

/-- What a path may do to the finds and the solves. -/
inductive Awards (compare : FlagComparison) (db : PluginDb) (owner : Owner) (row : Submission)
    (otherwise : PluginDb → Prop) (db' : PluginDb) : Prop
  | solved {flag} : Completes compare db row.challengeId owner row.provided flag →
      db' = db.withSolve flag.id owner row → Awards compare db owner row otherwise db'
  | unsolved : (∀ flag, ¬ Completes compare db row.challengeId owner row.provided flag) →
      db'.solves = db.solves → otherwise db' → Awards compare db owner row otherwise db'

section Paths

variable {rpc : RpcSem} {compare : FlagComparison} {challengeId : Nat} {owner : Owner} {userId : Int}
  {team : Option Int} {submission ip : String} {s : Site}

/-- A new solve is inserted, if neither the owner nor the user has one. -/
theorem insertSolve_eq_ok {db : PluginDb} {row : Submission}
    (howner : db.solveOf row.challengeId (solverOf row.userId row.teamId) = none)
    (huser : ∀ solve ∈ db.solves, solve.challengeId = row.challengeId → solve.userId ≠ row.userId) :
    db.insertSolve row = .ok { db with solves := db.solves ++ [row] } := by
  have hbyUser : ¬ (db.solves.any fun solve =>
      solve.challengeId = row.challengeId ∧ solve.userId = row.userId) = true := by
    rw [List.any_eq_true]
    rintro ⟨solve, hsolve, hboth⟩
    obtain ⟨hchallenge, hid⟩ := of_decide_eq_true hboth
    exact huser solve hsolve hchallenge hid
  have hbyTeam : ¬ (db.solves.any fun solve => solve.challengeId = row.challengeId ∧
      solve.teamId.isSome ∧ solve.teamId = row.teamId) = true := by
    rw [List.any_eq_true]
    rintro ⟨solve, hsolve, hall⟩
    obtain ⟨hchallenge, hsome, hid⟩ := of_decide_eq_true hall
    obtain ⟨team, hteam⟩ := Option.isSome_iff_exists.mp hsome
    have hnot := PluginDb.solveOf_eq_none_iff.mp howner solve hsolve hchallenge
    rw [← hid, hteam] at hnot
    simp [Submission.belongsTo, solverOf, hteam] at hnot
  unfold PluginDb.insertSolve
  rw [if_neg hbyUser, if_neg hbyTeam]

/-- The submission completes nothing if the flag it matches does not. -/
theorem not_completes {db : PluginDb} {flag : Flag}
    (hmatch : ((db.flagsOf challengeId).find? fun flag => compare flag submission) = some flag)
    (hnot : db.flagSolve owner flag.id = none →
      ¬ (db.withFind challengeId flag.id owner).Complete challengeId owner) (other : Flag) :
    ¬ Completes compare db challengeId owner submission other := by
  intro h
  have hsame := h.matching
  rw [hmatch, Option.some.injEq] at hsame
  subst hsame
  exact hnot h.new h.complete

/-- **The plugin's route**, once the submission is compared with the flags. -/
theorem Judged.awards {db db' : PluginDb} {row : Submission} {out : Except PluginErr Response}
    (h : Judged compare db owner row out db') (howner : owner = solverOf row.userId row.teamId)
    (hchallenge : db.getChallenge row.challengeId ≠ none) (hnonempty : row.provided ≠ "")
    (hnone : db.solveOf row.challengeId owner = none)
    (hsolver : ∀ solve ∈ db.solves, solve.challengeId = row.challengeId →
      solve.userId ≠ row.userId) : Awards compare db owner row (fun _ => True) db' := by
  subst howner
  cases h with
  | incorrect hmatch =>
    refine .unsolved (fun flag h => ?_) rfl trivial
    have hsome : MatchingFlag compare db row = some flag := h.matching
    rw [hmatch] at hsome
    cases hsome
  | alreadyFound hmatch hfound _ =>
    refine .unsolved (not_completes hmatch fun hnew => ?_) rfl trivial
    rw [hfound] at hnew
    cases hnew
  | found hmatch _ hincomplete =>
    exact .unsolved (not_completes hmatch fun _ => hincomplete) rfl trivial
  | completed _ _ hsolve =>
    rw [hnone] at hsolve
    cases hsolve
  | scored hmatch hnew hcomplete _ =>
    exact .solved ⟨hchallenge, hnonempty, hmatch, hnew, hcomplete⟩ rfl
  | @conflict flag err _ _ _ hrefused =>
    let found := db.withFind row.challengeId flag.id (solverOf row.userId row.teamId)
    have hok : found.insertSolve row = .ok { found with solves := found.solves ++ [row] } :=
      insertSolve_eq_ok hnone hsolver
    cases hok.symm.trans hrefused

/-- The answers that rest on the rate or the attempt limit. -/
def Limited : Except PluginErr Response → Prop
  | .ok (.refused (.rateLimited _)) | .ok (.refused .attemptsExhausted)
  | .error (.indexError _) => True
  | _ => False

theorem solverOf_inj {team' : Option Int} (h : solverOf userId team = solverOf userId team') :
    team = team' := by
  cases team with
  | none =>
    cases team' with
    | none => rfl
    | some _ => simp [solverOf] at h
  | some _ =>
    cases team' with
    | none => simp [solverOf] at h
    | some _ => simpa [solverOf] using h

theorem wp_submitFlag_awards {caller : Option Int} {user : User} {provided : Option String}
    (howner : s.plugin.resolveOwner caller = some (solverOf user.id team))
    (huser : s.plugin.currentUser caller = some user)
    (hnone : s.plugin.solveOf challengeId (solverOf user.id team) = none)
    (hsolver : ∀ row ∈ s.plugin.solves, row.challengeId = challengeId → row.userId ≠ user.id) :
    wp (siteSem rpc) (fun _ _ => True)
      (UserRoutes.submitFlag compare caller challengeId provided ip)
      (fun out s' => ¬ Limited out → Awards compare s.plugin (solverOf user.id team)
        ⟨user.id, team, challengeId, ip, submissionOf provided⟩ (fun _ => True) s'.plugin) s := by
  apply wp_submitFlag_judged howner
  · intro hnotFound _
    exact .unsolved (fun flag h => h.challenge hnotFound) rfl trivial
  · exact fun msg buckets h => absurd trivial h
  · exact fun retryAfter buckets h => absurd trivial h
  · exact fun buckets h => absurd trivial h
  · intro buckets hempty _
    exact .unsolved (fun flag h => h.nonempty hempty) rfl trivial
  · intro challenge user' team' buckets hchallenge huser' hsolverOf hnonempty
    rw [huser, Option.some.injEq] at huser'
    subst huser'
    obtain rfl : team = team' := solverOf_inj hsolverOf
    have hexists : s.plugin.getChallenge challengeId ≠ none := by
      rw [hchallenge]
      exact Option.some_ne_none challenge
    refine wp_mono (wp_judgeSubmission rfl) ?_
    exact fun out s' h _ => h.awards rfl hexists hnonempty hnone hsolver

/-! ### The native path -/

/-- What `attempt` counts is what the recount finds, less the new flag. -/
theorem length_foundFlagIds_withFind {db : PluginDb} {flagId : Nat}
    (hkeys : (db.flagSolves.map fun solve => (solve.owner, solve.flagId)).Nodup)
    (hnew : db.flagSolve owner flagId = none) :
    (foundFlagIds (db.withFind challengeId flagId owner) challengeId owner).length =
      EdoChallengeType.findCount db challengeId owner + 1 := by
  let finds := db.flagSolves.filter fun solve =>
    solve.challengeId = challengeId ∧ solve.owner = owner
  have hmem : ∀ solve ∈ finds, solve ∈ db.flagSolves ∧ solve.owner = owner := by
    intro solve hsolve
    obtain ⟨hsolve, hboth⟩ := List.mem_filter.mp hsolve
    exact ⟨hsolve, (of_decide_eq_true hboth).2⟩
  have hnodup : (finds.map EdoFlagSolve.flagId).Nodup := by
    have hpairs : (finds.map fun solve => (solve.owner, solve.flagId)).Nodup :=
      hkeys.sublist (List.filter_sublist.map _)
    apply List.Nodup.of_map (fun flagId => (owner, flagId))
    rw [List.map_map]
    convert hpairs using 1
    apply List.map_congr_left
    intro solve hsolve
    rw [(hmem solve hsolve).2]
    rfl
  have hfresh : flagId ∉ finds.map EdoFlagSolve.flagId := by
    intro h
    obtain ⟨solve, hsolve, hid⟩ := List.mem_map.mp h
    obtain ⟨hsolve, howner⟩ := hmem solve hsolve
    exact PluginDb.flagSolve_eq_none_iff.mp hnew solve hsolve howner hid
  have happend : foundFlagIds (db.withFind challengeId flagId owner) challengeId owner =
      (finds.map EdoFlagSolve.flagId ++ [flagId]).dedup := by
    simp [foundFlagIds, PluginDb.withFind, finds]
  have hall : (finds.map EdoFlagSolve.flagId ++ [flagId]).Nodup := by
    rw [List.nodup_append]
    refine ⟨hnodup, List.nodup_singleton flagId, ?_⟩
    intro other hother same hsame
    rw [List.mem_singleton.mp hsame]
    rintro rfl
    exact hfresh hother
  rw [happend, hall.dedup]
  simp [EdoChallengeType.findCount, finds]

/-- What makes the status of `attempt` truthy. -/
structure AttemptSucceeds (compare : FlagComparison) (db : PluginDb) (owner : Owner)
    (row : Submission) (flag : Flag) : Prop where
  nonempty : row.provided ≠ ""
  matching : MatchingFlag compare db row = some flag
  new : db.flagSolve owner flag.id = none
  counted : (db.flagsOf row.challengeId).length ≤
    EdoChallengeType.findCount db row.challengeId owner + 1

/-- What `attempt` counts is complete exactly if the recount is. -/
theorem attemptSucceeds_iff {db : PluginDb} {row : Submission} {flag : Flag}
    (hchallenge : db.getChallenge row.challengeId ≠ none)
    (hkeys : (db.flagSolves.map fun solve => (solve.owner, solve.flagId)).Nodup) :
    AttemptSucceeds compare db owner row flag ↔
      Completes compare db row.challengeId owner row.provided flag := by
  have hcount : ∀ {flagId}, db.flagSolve owner flagId = none →
      ((db.withFind row.challengeId flagId owner).Complete row.challengeId owner ↔
        (db.flagsOf row.challengeId).length ≤
          EdoChallengeType.findCount db row.challengeId owner + 1) := by
    intro flagId hnew
    unfold PluginDb.Complete
    rw [length_foundFlagIds_withFind hkeys hnew]
    rfl
  constructor
  · exact fun h => ⟨hchallenge, h.nonempty, h.matching, h.new, (hcount h.new).mpr h.counted⟩
  · exact fun h => ⟨h.nonempty, h.matching, h.new, (hcount h.new).mp h.complete⟩

theorem wp_attempt {caller : Option Int} {provided : Option String} (row : Submission)
    (howner : s.plugin.resolveOwner caller = some owner)
    (hchallenge : row.challengeId = challengeId) (hprovided : row.provided = submissionOf provided) :
    wp (siteSem rpc) (fun _ _ => True) (EdoChallengeType.attempt compare caller challengeId provided)
      (fun out s' => s' = s ∧ ∃ answer, out = .ok answer ∧
        (answer.1 = true ↔ ∃ flag, AttemptSucceeds compare s.plugin owner row flag)) s := by
  subst hchallenge
  have hfails : ∀ message, (∀ flag, ¬ AttemptSucceeds compare s.plugin owner row flag) →
      ∃ answer : Bool × String, (.ok (false, message) : Except PluginErr _) = .ok answer ∧
        (answer.1 = true ↔ ∃ flag, AttemptSucceeds compare s.plugin owner row flag) := by
    intro message hnot
    refine ⟨_, rfl, fun h => (nomatch h), ?_⟩
    rintro ⟨flag, h⟩
    exact absurd h (hnot flag)
  apply wp_select trivial
  simp only [howner]
  apply wp_branch
  · intro hempty
    exact ⟨rfl, hfails _ fun flag h => h.nonempty (hprovided.trans hempty)⟩
  · intro hnonempty
    rw [← hprovided] at hnonempty ⊢
    apply wp_firstMatchingFlag
    cases hmatch : (s.plugin.flagsOf row.challengeId).find? fun flag => compare flag row.provided with
    | none =>
      refine ⟨rfl, hfails _ fun flag h => ?_⟩
      have hsome : _ = some flag := hmatch.symm.trans h.matching
      cases hsome
    | some flag =>
      have honly : ∀ other, AttemptSucceeds compare s.plugin owner row other → other = flag :=
        fun other h => Option.some.inj (h.matching.symm.trans hmatch)
      apply wp_select trivial
      cases hfound : s.plugin.flagSolve owner flag.id with
      | some solve =>
        refine ⟨rfl, hfails _ fun other h => ?_⟩
        have hnew := h.new
        rw [honly other h, hfound] at hnew
        cases hnew
      | none =>
        apply wp_select trivial
        apply wp_select trivial
        apply wp_branch
        · intro hcounted
          refine ⟨rfl, _, rfl, fun _ => ⟨flag, hnonempty, hmatch, hfound, hcounted⟩, fun _ => rfl⟩
        · exact fun hcounted => ⟨rfl, hfails _ fun other h => hcounted h.counted⟩

/-- **Every end of the native path**, for the account of `row`. -/
inductive Dispatched (compare : FlagComparison) (db : PluginDb) (owner : Owner) (row : Submission) :
    PluginDb → Prop
  | unsolved {db'} : (db.getChallenge row.challengeId ≠ none → db.solveOf row.challengeId owner = none →
      ∀ flag, ¬ AttemptSucceeds compare db owner row flag) →
      db'.challenges = db.challenges → db'.flagSolves = db.flagSolves → db'.solves = db.solves →
      Dispatched compare db owner row db'
  | solved {flag} : db.getChallenge row.challengeId ≠ none → db.solveOf row.challengeId owner = none →
      AttemptSucceeds compare db owner row flag →
      Dispatched compare db owner row (db.withSolve flag.id owner row)
  | conflict {flag err} : AttemptSucceeds compare db owner row flag →
      (db.withFind row.challengeId flag.id owner).insertSolve row = .error err →
      Dispatched compare db owner row (db.withFind row.challengeId flag.id owner)

theorem wp_dispatchAttempt {caller : Option Int} {provided : Option String}
    (hresolved : s.plugin.resolveOwner caller = some owner) (howner : owner = solverOf userId team) :
    wp (siteSem rpc) (fun _ _ => True)
      (dispatchAttempt compare caller userId team challengeId provided ip)
      (fun _ s' => Dispatched compare s.plugin owner
        ⟨userId, team, challengeId, ip, submissionOf provided⟩ s'.plugin) s := by
  subst howner
  apply wp_select trivial
  cases hchallenge : s.plugin.getChallenge challengeId with
  | none => exact .unsolved (fun h => absurd hchallenge h) rfl rfl rfl
  | some challenge =>
    have hexists : s.plugin.getChallenge challengeId ≠ none := by
      rw [hchallenge]
      exact Option.some_ne_none challenge
    apply wp_select trivial
    cases hsolve : s.plugin.solveOf challengeId (solverOf userId team) with
    | some solve =>
      refine .unsolved (fun _ hnone => ?_) rfl rfl rfl
      cases hsolve.symm.trans hnone
    | none =>
      refine wp_then (wp_attempt ⟨userId, team, challengeId, ip, submissionOf provided⟩ hresolved
        rfl rfl) ?_ ?_
      · rintro answer s₁ ⟨rfl, answer', ⟨⟩, hstatus⟩
        apply wp_branch
        · intro hcorrect
          obtain ⟨flag, hsucceeds⟩ := hstatus.mp hcorrect
          apply wp_bind.mpr
          refine wp_then (wp_recordFlagFind hsucceeds.matching hsucceeds.new) ?_ ?_
          · rintro found s₂ ⟨-, hdb⟩
            apply wp_mono wp_insertCtfdSolve
            intro out s₃ hinserted
            rw [hdb] at hinserted
            cases out with
            | ok done =>
              show Dispatched compare s₁.plugin _ _ s₃.plugin
              generalize s₃.plugin = db at hinserted
              cases hinserted with
              | existed hsome => cases hsolve.symm.trans hsome
              | inserted _ => exact .solved hexists hsolve hsucceeds
            | error err =>
              show Dispatched compare s₁.plugin _ _ s₃.plugin
              generalize s₃.plugin = db at hinserted
              cases hinserted with
              | conflict _ hrefused => exact .conflict hsucceeds hrefused
          · rintro err s₂ ⟨h, -⟩
            cases h
        · intro hincorrect
          apply wp_commit trivial
          · intro db happly
            cases happly
            exact .unsolved (fun _ _ flag h => hincorrect (hstatus.mpr ⟨flag, h⟩)) rfl rfl rfl
          · intro err happly
            cases happly
      · rintro err s₁ ⟨-, answer, h, -⟩
        cases h

/-- **The native path**, without an earlier solve of the owner or the user. -/
theorem Dispatched.awards {db db' : PluginDb} {row : Submission}
    (h : Dispatched compare db owner row db') (howner : owner = solverOf row.userId row.teamId)
    (hkeys : (db.flagSolves.map fun solve => (solve.owner, solve.flagId)).Nodup)
    (hnone : db.solveOf row.challengeId owner = none)
    (hsolver : ∀ solve ∈ db.solves, solve.challengeId = row.challengeId →
      solve.userId ≠ row.userId) :
    Awards compare db owner row (fun db' => db'.flagSolves = db.flagSolves) db' := by
  subst howner
  cases h with
  | unsolved hnot _ hfinds hsolves =>
    refine .unsolved (fun flag h => ?_) hsolves hfinds
    exact hnot h.challenge hnone flag ((attemptSucceeds_iff h.challenge hkeys).mpr h)
  | solved hchallenge _ hsucceeds =>
    exact .solved ((attemptSucceeds_iff hchallenge hkeys).mp hsucceeds) rfl
  | @conflict flag err _ hrefused =>
    let found := db.withFind row.challengeId flag.id (solverOf row.userId row.teamId)
    have hok : found.insertSolve row = .ok { found with solves := found.solves ++ [row] } :=
      insertSolve_eq_ok hnone hsolver
    cases hok.symm.trans hrefused

end Paths

/-! ## Agreement -/

/-- The run inserted a solve. -/
def Inserted (s s' : Site) : Prop := ∃ row, s'.plugin.solves = s.plugin.solves ++ [row]

/-- The native path (`s₂`) awards what the plugin's route (`s₁`) does. -/
structure NativeAgrees (challengeId : Nat) (owner : Owner) (s s₁ s₂ : Site) : Prop where
  inserts : Inserted s s₂ ↔ Inserted s s₁
  complete : Inserted s s₂ → s₂.plugin.AllFound challengeId owner
  same : Inserted s s₂ →
    s₂.plugin.flagSolves = s₁.plugin.flagSolves ∧ s₂.plugin.solves = s₁.plugin.solves
  unchanged : ¬ Inserted s s₂ →
    s₂.plugin.flagSolves = s.plugin.flagSolves ∧ s₂.plugin.solves = s.plugin.solves

theorem not_inserted_of_same {s s' : Site} (h : s'.plugin.solves = s.plugin.solves) :
    ¬ Inserted s s' := by
  rintro ⟨row, hrow⟩
  rw [h] at hrow
  simp at hrow

/-- The finds after a find of one more flag of the challenge. -/
theorem current_withFind {db : PluginDb} {challengeId : Nat} {owner : Owner} {flag : Flag}
    (hfinds : ∀ solve ∈ db.flagSolves, solve.owner = owner → solve.challengeId = challengeId →
      ∃ flag ∈ db.flagsOf challengeId, flag.id = solve.flagId)
    (hflag : flag ∈ db.flagsOf challengeId) :
    ∀ solve ∈ (db.withFind challengeId flag.id owner).flagSolves, solve.owner = owner →
      solve.challengeId = challengeId →
      ∃ flag ∈ (db.withFind challengeId flag.id owner).flagsOf challengeId, flag.id = solve.flagId := by
  intro solve hsolve howner hchallenge
  rcases List.mem_append.mp hsolve with hold | hnew
  · exact hfinds solve hold howner hchallenge
  · rw [List.mem_singleton.mp hnew]
    exact ⟨flag, hflag, rfl⟩

/-- **Both paths award the same solves**, as long as neither the owner nor the user has a solve of
    the challenge. -/
theorem native_agrees (compare : FlagComparison) (rpc : RpcSem) (caller : Option Int) (user : User)
    (team : Option Int) (challengeId : Nat) (owner : Owner) (provided : Option String) (ip : String)
    (s s₁ s₂ : Site) (out₁ : Except PluginErr Response) (out₂ : Except PluginErr NativeAnswer)
    (howner : s.plugin.resolveOwner caller = some owner)
    (huser : s.plugin.currentUser caller = some user) (haccount : solverOf user.id team = owner)
    (hkeys : (s.plugin.flagSolves.map fun solve => (solve.owner, solve.flagId)).Nodup)
    (hfinds : ∀ solve ∈ s.plugin.flagSolves, solve.owner = owner → solve.challengeId = challengeId →
      ∃ flag ∈ s.plugin.flagsOf challengeId, flag.id = solve.flagId)
    (hnone : s.plugin.solveOf challengeId owner = none)
    (hsolver : ∀ row ∈ s.plugin.solves, row.challengeId = challengeId → row.userId ≠ user.id)
    (hsubmit : Ends (siteSem rpc) (UserRoutes.submitFlag compare caller challengeId provided ip)
      s out₁ s₁) (hlimited : ¬ Limited out₁)
    (hnative : Ends (siteSem rpc)
      (dispatchAttempt compare caller user.id team challengeId provided ip) s out₂ s₂) :
    NativeAgrees challengeId owner s s₁ s₂ := by
  subst haccount
  have hroute := hsubmit.of_wp (wp_submitFlag_awards howner huser hnone hsolver) hlimited
  have hpath := (hnative.of_wp (wp_dispatchAttempt howner rfl)).awards rfl hkeys hnone hsolver
  cases hpath with
  | @solved flag hall₂ hdb₂ =>
    cases hroute with
    | @solved flag' hall₁ hdb₁ =>
      obtain rfl : flag = flag' := Option.some.inj (hall₂.matching.symm.trans hall₁.matching)
      have hsame : s₂.plugin = s₁.plugin := hdb₂.trans hdb₁.symm
      have hinserted : Inserted s s₂ := ⟨_, by rw [hdb₂]; rfl⟩
      constructor
      case inserts =>
        unfold Inserted
        rw [hsame]
      case complete =>
        intro _
        have hflag : flag ∈ s.plugin.flagsOf challengeId := List.mem_of_find?_eq_some hall₂.matching
        rw [hdb₂]
        exact PluginDb.allFound_of_complete (current_withFind hfinds hflag) hall₂.complete
      case same =>
        intro _
        rw [hsame]
        exact ⟨rfl, rfl⟩
      case unchanged => exact fun h => absurd hinserted h
    | unsolved hnot _ _ => exact absurd hall₂ (hnot flag)
  | unsolved hnot₂ hsolves₂ hflags₂ =>
    cases hroute with
    | @solved flag hall₁ _ => exact absurd hall₁ (hnot₂ flag)
    | unsolved _ hsolves₁ _ =>
      have h₂ := not_inserted_of_same hsolves₂
      exact ⟨⟨fun h => absurd h h₂, fun h => absurd h (not_inserted_of_same hsolves₁)⟩,
        fun h => absurd h h₂, fun h => absurd h h₂, fun _ => ⟨hflags₂, hsolves₂⟩⟩

/-! ## Two submissions -/

/-- A member of a team that has found one of two flags. -/
def halfFound : Site := { freshSite with plugin := { freshSite.plugin with
  teamsMode := true
  users := [⟨1, "alice", some 2, false, false⟩]
  teams := [1, 2]
  flags := [⟨1, 1, "static", "one", ""⟩, ⟨2, 1, "static", "two", ""⟩]
  nextFlagId := 3
  flagSolves := [⟨1, 1, ⟨"team", 2⟩⟩] } }

/-- The same member, who has solved the challenge in another team. -/
def solvedBefore : Site := { halfFound with plugin := { halfFound.plugin with
  solves := [⟨1, some 1, 1, "", "two"⟩] } }

/-- A program of the site, run on an uneventful day. -/
def quietRun {α : Type} (p : Plugin α) (s : Site) : Option (Except PluginErr α × Site) :=
  ((siteMachine (execServed DaemonEnv.default)).run (quietSiteChoice 0) p s).map fun r => r.2

theorem ends_of_quietRun {α : Type} {p : Plugin α} {s s' : Site} {out : Except PluginErr α}
    (h : quietRun p s = some (out, s')) : Ends (siteSem (Served DaemonEnv.default)) p s out s' := by
  obtain ⟨⟨trace, out', s''⟩, hrun, heq⟩ := Option.map_eq_some_iff.mp h
  cases heq
  exact ends_of_siteRun (executes_served DaemonEnv.default) hrun

def submitsTwo : Plugin Response := UserRoutes.submitFlag sameContent (some 1) 1 (some "two") ""

def attemptsTwo : Plugin NativeAnswer :=
  dispatchAttempt sameContent (some 1) 1 (some 2) 1 (some "two") ""

theorem submitsTwo_scores : (quietRun submitsTwo halfFound).any (fun r =>
    match r.1 with | .ok (.correct ..) => true | _ => false) = true := by
  decide +kernel

theorem attemptsTwo_scores : (quietRun attemptsTwo halfFound).any (fun r =>
    r.2.plugin.solves.length = 1) = true := by
  decide +kernel

theorem native_agrees_halfFound : ∃ s₁ s₂ out₁ out₂, quietRun submitsTwo halfFound = some (out₁, s₁) ∧
    quietRun attemptsTwo halfFound = some (out₂, s₂) ∧
    s₂.plugin.solves.length = 1 ∧ NativeAgrees 1 ⟨"team", 2⟩ halfFound s₁ s₂ := by
  obtain ⟨⟨out₁, s₁⟩, hrun₁, hcorrect⟩ := (Option.any_eq_true _ _).mp submitsTwo_scores
  obtain ⟨⟨out₂, s₂⟩, hrun₂, hlength⟩ := (Option.any_eq_true _ _).mp attemptsTwo_scores
  have hlimited : ¬ Limited out₁ := by
    dsimp only at hcorrect
    split at hcorrect
    · exact fun h => h.elim
    · cases hcorrect
  refine ⟨s₁, s₂, out₁, out₂, hrun₁, hrun₂, of_decide_eq_true hlength, ?_⟩
  exact native_agrees sameContent (Served DaemonEnv.default) (some 1)
    ⟨1, "alice", some 2, false, false⟩ (some 2) 1 ⟨"team", 2⟩ (some "two") "" halfFound s₁ s₂ out₁ out₂
    (by decide) (by decide) rfl (by decide) (by decide) (by decide) (by decide)
    (ends_of_quietRun hrun₁) hlimited (ends_of_quietRun hrun₂)

theorem submitsTwo_refused : (quietRun submitsTwo solvedBefore).any (fun r => decide (r.1 =
    .error (.flush (.integrityError .solveUser)))) = true := by
  decide +kernel

theorem attemptsTwo_refused : (quietRun attemptsTwo solvedBefore).any (fun r =>
    decide (r.2.plugin.solves.length = 1 ∧ r.2.plugin.flagSolves.length = 2)) = true := by
  decide +kernel

/-- The user's earlier solve refuses the new one, after the find is committed. -/
theorem not_native_agrees : ¬ ∀ (compare : FlagComparison) (rpc : RpcSem) (caller : Option Int)
    (user : User) (team : Option Int) (challengeId : Nat) (owner : Owner) (provided : Option String)
    (ip : String) (s s₁ s₂ : Site) (out₁ : Except PluginErr Response)
    (out₂ : Except PluginErr NativeAnswer), s.plugin.resolveOwner caller = some owner →
    s.plugin.currentUser caller = some user → solverOf user.id team = owner →
    (s.plugin.flagSolves.map fun solve => (solve.owner, solve.flagId)).Nodup →
    (∀ solve ∈ s.plugin.flagSolves, solve.owner = owner → solve.challengeId = challengeId →
      ∃ flag ∈ s.plugin.flagsOf challengeId, flag.id = solve.flagId) →
    s.plugin.solveOf challengeId owner = none →
    Ends (siteSem rpc) (UserRoutes.submitFlag compare caller challengeId provided ip) s out₁ s₁ →
    ¬ Limited out₁ →
    Ends (siteSem rpc) (dispatchAttempt compare caller user.id team challengeId provided ip) s out₂ s₂ →
    NativeAgrees challengeId owner s s₁ s₂ := by
  intro hall
  obtain ⟨⟨out₁, s₁⟩, hrun₁, hrefused⟩ := (Option.any_eq_true _ _).mp submitsTwo_refused
  obtain ⟨⟨out₂, s₂⟩, hrun₂, hcounts⟩ := (Option.any_eq_true _ _).mp attemptsTwo_refused
  obtain ⟨hsolves, hflags⟩ := of_decide_eq_true hcounts
  have hlimited : ¬ Limited out₁ := by
    have hout : out₁ = .error (.flush (.integrityError .solveUser)) := of_decide_eq_true hrefused
    subst hout
    exact fun h => h.elim
  have hagrees := hall sameContent (Served DaemonEnv.default) (some 1)
    ⟨1, "alice", some 2, false, false⟩ (some 2) 1 ⟨"team", 2⟩ (some "two") "" solvedBefore s₁ s₂
    out₁ out₂ (by decide) (by decide) rfl (by decide) (by decide) (by decide)
    (ends_of_quietRun hrun₁) hlimited (ends_of_quietRun hrun₂)
  have hnone : ¬ Inserted solvedBefore s₂ := by
    rintro ⟨row, hrow⟩
    rw [hrow] at hsolves
    cases hsolves
  obtain ⟨hsame, -⟩ := hagrees.unchanged hnone
  rw [hsame] at hflags
  cases hflags

end EdoPlugin
