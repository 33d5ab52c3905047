import EdoPlugin.RouteRules

/-!
# Completions on the scoreboard

`submit_flag` computes completion anew from the flags and the finds, but inserts the `Solves` row
only with a find that completes the set.  An owner can also become complete when an administrator
deletes a flag it has not found, or lose its `Solves` row to a reset made out for someone else.  As
long as no flag deletion and no reset does that, every completion that is reported is on the
scoreboard.
-/

namespace EdoPlugin

open Interaction ChallengeType

/-! ## Complete and unscored -/

namespace PluginDb

variable {db db' : PluginDb} {challengeId : Nat} {owner : Owner}

/-- The owner has found as many flags as the challenge has. -/
def Complete (db : PluginDb) (challengeId : Nat) (owner : Owner) : Prop :=
  (db.flagsOf challengeId).length ≤ (foundFlagIds db challengeId owner).length

instance : Decidable (db.Complete challengeId owner) := inferInstanceAs (Decidable (_ ≤ _))

/-- The owner has found every flag of the challenge. -/
def AllFound (db : PluginDb) (challengeId : Nat) (owner : Owner) : Prop :=
  ∀ flag ∈ db.flagsOf challengeId, db.flagSolve owner flag.id ≠ none

instance : Decidable (db.AllFound challengeId owner) :=
  inferInstanceAs (Decidable (∀ _ ∈ _, _))

/-- The owner has finds, and is complete, but the scoreboard does not know. -/
def Unscored (db : PluginDb) (challengeId : Nat) (owner : Owner) : Prop :=
  foundFlagIds db challengeId owner ≠ [] ∧ db.Complete challengeId owner ∧
    db.solveOf challengeId owner = none

/-- The tables after `reset_owner_progress`. -/
def withoutProgress (db : PluginDb) (challengeId : Nat) (owner : Owner) : PluginDb :=
  { db with
    flagSolves := db.flagSolves.filter fun solve =>
      ¬ (solve.challengeId = challengeId ∧ solve.owner = owner)
    solves := db.solves.filter fun solve =>
      ¬ (solve.challengeId = challengeId ∧ solve.belongsTo owner) }

/-- The tables after a find. -/
def withFind (db : PluginDb) (challengeId flagId : Nat) (owner : Owner) : PluginDb :=
  { db with flagSolves := db.flagSolves ++ [⟨challengeId, flagId, owner⟩] }

/-- The tables after a find that completes the set, and its solve. -/
def withSolve (db : PluginDb) (flagId : Nat) (owner : Owner) (row : Submission) : PluginDb :=
  { db.withFind row.challengeId flagId owner with solves := db.solves ++ [row] }

/-- The row is the solve of the owner that its user resolves to. -/
def SolvedAs (db : PluginDb) (row : Submission) : Prop :=
  db.resolveOwner (some row.userId) = some (solverOf row.userId row.teamId)

theorem mem_foundFlagIds {flagId : Nat} :
    flagId ∈ foundFlagIds db challengeId owner ↔ ⟨challengeId, flagId, owner⟩ ∈ db.flagSolves := by
  simp only [foundFlagIds, List.mem_dedup, List.mem_map, List.mem_filter, decide_eq_true_eq]
  constructor
  · rintro ⟨solve, ⟨hmem, rfl, rfl⟩, rfl⟩
    exact hmem
  · intro hmem
    exact ⟨_, ⟨hmem, rfl, rfl⟩, rfl⟩

theorem foundFlagIds_withFind {flagId challengeId' : Nat} {owner' : Owner}
    (hother : ¬ (challengeId = challengeId' ∧ owner = owner')) :
    foundFlagIds (db.withFind challengeId flagId owner) challengeId' owner' =
      foundFlagIds db challengeId' owner' := by
  unfold foundFlagIds withFind
  simp [hother]

theorem solveOf_eq_none_iff : db.solveOf challengeId owner = none ↔
    ∀ row ∈ db.solves, row.challengeId = challengeId → row.belongsTo owner = false := by
  simp [solveOf]

theorem flagSolve_eq_none_iff {flagId : Nat} : db.flagSolve owner flagId = none ↔
    ∀ solve ∈ db.flagSolves, solve.owner = owner → solve.flagId ≠ flagId := by
  simp [flagSolve]

theorem mem_of_flagSolve {flagId : Nat} {solve : EdoFlagSolve}
    (h : db.flagSolve owner flagId = some solve) :
    solve ∈ db.flagSolves ∧ solve.owner = owner ∧ solve.flagId = flagId :=
  ⟨List.mem_of_find?_eq_some h, by simpa using List.find?_some h⟩

/-- The count of the finds is no accident: if they are all of flags of the challenge, a complete
    owner has found every flag. -/
theorem allFound_of_complete
    (hfinds : ∀ solve ∈ db.flagSolves, solve.owner = owner → solve.challengeId = challengeId →
      ∃ flag ∈ db.flagsOf challengeId, flag.id = solve.flagId)
    (hcomplete : db.Complete challengeId owner) : db.AllFound challengeId owner := by
  have hfound : foundFlagIds db challengeId owner ⊆ (db.flagsOf challengeId).map Flag.id := by
    intro flagId hmem
    rw [mem_foundFlagIds] at hmem
    obtain ⟨flag, hflag, hid⟩ := hfinds _ hmem rfl rfl
    exact List.mem_map.mpr ⟨flag, hflag, hid⟩
  have hperm : (foundFlagIds db challengeId owner).Perm ((db.flagsOf challengeId).map Flag.id) := by
    apply ((List.nodup_dedup _).subperm hfound).perm_of_length_le
    rw [List.length_map]
    exact hcomplete
  intro flag hflag hnone
  have hmem := hperm.symm.subset (List.mem_map.mpr ⟨flag, hflag, rfl⟩)
  rw [mem_foundFlagIds] at hmem
  exact flagSolve_eq_none_iff.mp hnone _ hmem rfl rfl

/-- An owner that has found every flag is complete, if the finds name the flag's challenge. -/
theorem complete_of_allFound (hkeys : (db.flags.map Flag.id).Nodup)
    (hfinds : ∀ solve ∈ db.flagSolves, solve.owner = owner →
      (∃ flag ∈ db.flagsOf challengeId, flag.id = solve.flagId) → solve.challengeId = challengeId)
    (hall : db.AllFound challengeId owner) : db.Complete challengeId owner := by
  have hnodup : ((db.flagsOf challengeId).map Flag.id).Nodup :=
    hkeys.sublist (List.filter_sublist.map _)
  have hsub : (db.flagsOf challengeId).map Flag.id ⊆ foundFlagIds db challengeId owner := by
    intro flagId hmem
    obtain ⟨flag, hflag, rfl⟩ := List.mem_map.mp hmem
    obtain ⟨solve, hsolve⟩ := Option.ne_none_iff_exists'.mp (hall flag hflag)
    obtain ⟨hmem, howner, hid⟩ := mem_of_flagSolve hsolve
    have hchallenge : solve.challengeId = challengeId :=
      hfinds solve hmem howner ⟨flag, hflag, hid.symm⟩
    rw [mem_foundFlagIds, ← hchallenge, ← howner, ← hid]
    exact hmem
  have hle := (hnodup.subperm hsub).length_le
  rw [List.length_map] at hle
  exact hle

end PluginDb

/-! ## What a submission does to the tables -/

/-- The end of `submit_flag`, with the tables before and after. -/
inductive Submitted (db : PluginDb) (challengeId : Nat) (owner : Owner) :
    Except PluginErr Response → PluginDb → Prop
  | refused {refusal} : Submitted db challengeId owner (.ok (.refused refusal)) db
  | raised {err} : Submitted db challengeId owner (.error err) db
  | incorrect {fail} : Submitted db challengeId owner (.ok .incorrect)
      { db with fails := db.fails ++ [fail] }
  | alreadyFound {flag solve complete message progress} : flag ∈ db.flagsOf challengeId →
      db.flagSolve owner flag.id = some solve →
      (complete = true ↔ db.Complete challengeId owner) →
      Submitted db challengeId owner (.ok (.correct true complete message progress)) db
  | found {flag message progress} : flag ∈ db.flagsOf challengeId →
      db.flagSolve owner flag.id = none →
      ¬ (db.withFind challengeId flag.id owner).Complete challengeId owner →
      Submitted db challengeId owner (.ok (.correct false false message progress))
        (db.withFind challengeId flag.id owner)
  | completed {flag solve message progress} : flag ∈ db.flagsOf challengeId →
      db.flagSolve owner flag.id = none → db.solveOf challengeId owner = some solve →
      Submitted db challengeId owner (.ok (.correct false true message progress))
        (db.withFind challengeId flag.id owner)
  | scored {flag row message progress} : flag ∈ db.flagsOf challengeId →
      db.flagSolve owner flag.id = none → row.challengeId = challengeId →
      owner = solverOf row.userId row.teamId → db.SolvedAs row →
      Submitted db challengeId owner (.ok (.correct false true message progress))
        { db.withFind challengeId flag.id owner with solves := db.solves ++ [row] }
  | conflict {flag row err} : flag ∈ db.flagsOf challengeId →
      db.flagSolve owner flag.id = none → row.challengeId = challengeId →
      owner = solverOf row.userId row.teamId → db.SolvedAs row →
      db.solveOf challengeId owner = none →
      (db.withFind challengeId flag.id owner).insertSolve row = .error err →
      Submitted db challengeId owner (.error (.flush err)) (db.withFind challengeId flag.id owner)

section Submission

variable {rpc : RpcSem} {compare : FlagComparison} {challengeId : Nat} {owner : Owner} {userId : Int}
  {team : Option Int} {submission ip : String} {s : Site}

theorem wp_firstMatchingFlag {α : Type} {Q : Except PluginErr α → Site → Prop}
    {f : Option Flag → Plugin α}
    (h : wp (siteSem rpc) (fun _ _ => True)
      (f ((s.plugin.flagsOf challengeId).find? fun flag => compare flag submission)) Q s) :
    wp (siteSem rpc) (fun _ _ => True) (firstMatchingFlag compare challengeId submission >>= f) Q s :=
  wp_bind.mpr (wp_select trivial h)

theorem wp_ownerProgress {α : Type} {Q : Except PluginErr α → Site → Prop} {f : Progress → Plugin α}
    (h : ∀ progress, (progress.complete = true ↔ s.plugin.Complete challengeId owner) →
      wp (siteSem rpc) (fun _ _ => True) (f progress) Q s) :
    wp (siteSem rpc) (fun _ _ => True) (ownerProgress challengeId owner >>= f) Q s := by
  refine wp_bind.mpr (wp_select trivial (wp_select trivial (wp_select trivial (h _ ?_))))
  simp [Progress.complete, progressOf, PluginDb.Complete]

/-- The end of `_insert_ctfd_solve`: there was a row, there is a new one, or it was refused. -/
inductive SolveInserted (db : PluginDb) (owner : Owner) (row : Submission) :
    Except PluginErr Unit → PluginDb → Prop
  | existed {solve} : db.solveOf row.challengeId owner = some solve →
      SolveInserted db owner row (.ok ()) db
  | inserted : db.solveOf row.challengeId owner = none →
      SolveInserted db owner row (.ok ()) { db with solves := db.solves ++ [row] }
  | conflict {err} : db.solveOf row.challengeId owner = none → db.insertSolve row = .error err →
      SolveInserted db owner row (.error (.flush err)) db

theorem insertSolve_ok {db db' : PluginDb} {row : Submission} (h : db.insertSolve row = .ok db') :
    db' = { db with solves := db.solves ++ [row] } := by
  unfold PluginDb.insertSolve at h
  split at h
  · cases h
  · split at h
    · cases h
    · cases h
      rfl

theorem wp_insertCtfdSolve : wp (siteSem rpc) (fun _ _ => True)
    (insertCtfdSolve challengeId userId team submission ip)
    (fun out s' => SolveInserted s.plugin (solverOf userId team)
      ⟨userId, team, challengeId, ip, submission⟩ out s'.plugin) s := by
  refine wp_select trivial ?_
  cases hsolve : s.plugin.solveOf challengeId (solverOf userId team) with
  | some solve => exact .existed hsolve
  | none =>
    refine wp_commitLast trivial ?_ ?_
    · intro db happly
      rw [PluginDb.applyAll_singleton] at happly
      rw [insertSolve_ok happly]
      exact .inserted hsolve
    · intro err happly
      rw [PluginDb.applyAll_singleton] at happly
      exact .conflict hsolve happly

/-- The find is new, so it is recorded. -/
theorem wp_recordFlagFind {flag : Flag}
    (hmatch : ((s.plugin.flagsOf challengeId).find? fun flag => compare flag submission) = some flag)
    (hnew : s.plugin.flagSolve (solverOf userId team) flag.id = none) :
    wp (siteSem rpc) (fun _ _ => True) (recordFlagFind compare challengeId userId team submission)
      (fun out s' => out = .ok (some flag) ∧
        s'.plugin = s.plugin.withFind challengeId flag.id (solverOf userId team)) s := by
  refine wp_firstMatchingFlag ?_
  rw [hmatch]
  refine wp_select trivial ?_
  rw [hnew]
  have hfresh : ¬ (s.plugin.flagSolves.any fun solve =>
      solve.owner = solverOf userId team ∧ solve.flagId = flag.id) = true := by
    simpa using PluginDb.flagSolve_eq_none_iff.mp hnew
  have happly : s.plugin.apply (.insertFlagSolve ⟨challengeId, flag.id, solverOf userId team⟩) =
      .ok (s.plugin.withFind challengeId flag.id (solverOf userId team)) := by
    simp only [PluginDb.apply, PluginDb.insertFlagSolve, hfresh, Bool.false_eq_true, if_false]
    rfl
  refine wp_commit trivial ?_ ?_
  · intro db hdb
    rw [PluginDb.applyAll_singleton, happly] at hdb
    cases hdb
    exact ⟨rfl, rfl⟩
  · intro err hdb
    rw [PluginDb.applyAll_singleton, happly] at hdb
    cases hdb

/-- The flag that a submission is credited for. -/
def MatchingFlag (compare : FlagComparison) (db : PluginDb) (row : Submission) : Option Flag :=
  (db.flagsOf row.challengeId).find? fun flag => compare flag row.provided

/-- Every end of a submission that is compared with the flags, for the solver of `row`. -/
inductive Judged (compare : FlagComparison) (db : PluginDb) (owner : Owner) (row : Submission) :
    Except PluginErr Response → PluginDb → Prop
  | incorrect : MatchingFlag compare db row = none →
      Judged compare db owner row (.ok .incorrect) { db with fails := db.fails ++ [row] }
  | alreadyFound {flag solve complete message progress} : MatchingFlag compare db row = some flag →
      db.flagSolve owner flag.id = some solve →
      (complete = true ↔ db.Complete row.challengeId owner) →
      Judged compare db owner row (.ok (.correct true complete message progress)) db
  | found {flag message progress} : MatchingFlag compare db row = some flag →
      db.flagSolve owner flag.id = none →
      ¬ (db.withFind row.challengeId flag.id owner).Complete row.challengeId owner →
      Judged compare db owner row (.ok (.correct false false message progress))
        (db.withFind row.challengeId flag.id owner)
  | completed {flag solve message progress} : MatchingFlag compare db row = some flag →
      db.flagSolve owner flag.id = none → db.solveOf row.challengeId owner = some solve →
      Judged compare db owner row (.ok (.correct false true message progress))
        (db.withFind row.challengeId flag.id owner)
  | scored {flag message progress} : MatchingFlag compare db row = some flag →
      db.flagSolve owner flag.id = none →
      (db.withFind row.challengeId flag.id owner).Complete row.challengeId owner →
      db.solveOf row.challengeId owner = none →
      Judged compare db owner row (.ok (.correct false true message progress))
        (db.withSolve flag.id owner row)
  | conflict {flag err} : MatchingFlag compare db row = some flag →
      db.flagSolve owner flag.id = none → db.solveOf row.challengeId owner = none →
      (db.withFind row.challengeId flag.id owner).insertSolve row = .error err →
      Judged compare db owner row (.error (.flush err)) (db.withFind row.challengeId flag.id owner)

theorem wp_judgeSubmission (howner : owner = solverOf userId team) :
    wp (siteSem rpc) (fun _ _ => True)
      (UserRoutes.judgeSubmission compare challengeId owner userId team submission ip)
      (fun out s' => Judged compare s.plugin owner ⟨userId, team, challengeId, ip, submission⟩ out
        s'.plugin) s := by
  subst howner
  refine wp_firstMatchingFlag ?_
  cases hmatch : (s.plugin.flagsOf challengeId).find? fun flag => compare flag submission with
  | none =>
    refine wp_commit trivial ?_ ?_
    · intro db happly
      cases happly
      exact .incorrect hmatch
    · intro err happly
      cases happly
  | some flag =>
    refine wp_select trivial ?_
    cases hfound : s.plugin.flagSolve (solverOf userId team) flag.id with
    | some solve =>
      refine wp_ownerProgress fun progress hcomplete => ?_
      exact .alreadyFound hmatch hfound hcomplete
    | none =>
      refine wp_then (wp_recordFlagFind hmatch hfound) ?_ ?_
      · rintro _ s₁ ⟨-, hdb⟩
        refine wp_ownerProgress fun progress hcomplete => wp_branch ?_ ?_
        · intro hdone
          rw [hdb] at hcomplete
          refine wp_then wp_insertCtfdSolve ?_ ?_
          · intro _ s₂ hinserted
            rw [hdb] at hinserted
            show Judged compare s.plugin _ _ _ s₂.plugin
            generalize s₂.plugin = db at hinserted
            cases hinserted with
            | existed hsolve => exact .completed hmatch hfound hsolve
            | inserted hnone => exact .scored hmatch hfound (hcomplete.mp hdone) hnone
          · intro err s₂ hinserted
            rw [hdb] at hinserted
            generalize s₂.plugin = db at hinserted
            cases hinserted with
            | conflict hnone hrefused => exact .conflict hmatch hfound hnone hrefused
        · intro hincomplete
          rw [hdb] at hcomplete
          show Judged compare s.plugin _ _ _ s₁.plugin
          rw [hdb]
          exact .found hmatch hfound fun h => hincomplete (hcomplete.mpr h)
      · rintro err s₁ ⟨h, -⟩
        cases h

/-- A solve of the owner that its user resolves to. -/
theorem Judged.submitted {db db' : PluginDb} {row : Submission} {out : Except PluginErr Response}
    (h : Judged compare db owner row out db') (howner : owner = solverOf row.userId row.teamId)
    (hresolved : db.resolveOwner (some row.userId) = some owner) :
    Submitted db row.challengeId owner out db' := by
  have hflag : ∀ {flag}, MatchingFlag compare db row = some flag →
      flag ∈ db.flagsOf row.challengeId := fun hmatch => List.mem_of_find?_eq_some hmatch
  have hsolved : db.SolvedAs row := by
    rw [PluginDb.SolvedAs, hresolved, howner]
  cases h with
  | incorrect _ => exact .incorrect
  | alreadyFound hmatch hfound hcomplete => exact .alreadyFound (hflag hmatch) hfound hcomplete
  | found hmatch hnew hincomplete => exact .found (hflag hmatch) hnew hincomplete
  | completed hmatch hnew hsolve => exact .completed (hflag hmatch) hnew hsolve
  | scored hmatch hnew _ _ => exact .scored (hflag hmatch) hnew rfl howner hsolved
  | conflict hmatch hnew hnone hrefused =>
    exact .conflict (hflag hmatch) hnew rfl howner hsolved hnone hrefused

/-- The solver of a request is the owner it resolves to. -/
theorem wp_teamOf {α : Type} {Q : Except PluginErr α → Site → Prop} {f : Option Int → Plugin α}
    {caller : Option Int} {user : User} (huser : s.plugin.currentUser caller = some user)
    (howner : s.plugin.resolveOwner caller = some owner)
    (h : ∀ team, owner = solverOf user.id team →
      wp (siteSem rpc) (fun _ _ => True) (f team) Q s) :
    wp (siteSem rpc) (fun _ _ => True) (UserRoutes.teamOf owner >>= f) Q s := by
  simp only [PluginDb.resolveOwner, huser, Option.bind_some] at howner
  unfold UserRoutes.teamOf
  cases hmode : s.plugin.teamsMode with
  | true =>
    simp only [hmode, if_true, Option.map_eq_some_iff, Option.filter_eq_some_iff] at howner
    obtain ⟨team, ⟨hteam, hexists⟩, rfl⟩ := howner
    rw [if_pos rfl]
    refine wp_bind.mpr (wp_select trivial ?_)
    have hfilter : ((some team).filter fun team => s.plugin.teams.contains team) = some team := by
      simpa [Option.filter] using hexists
    show wp _ _ (f ((some team).filter fun team => s.plugin.teams.contains team)) _ _
    rw [hfilter]
    exact h _ rfl
  | false =>
    simp only [hmode, Bool.false_eq_true, if_false, Option.some.injEq] at howner
    subst howner
    rw [if_neg (show ("user" : String) ≠ "team" by decide)]
    exact h none rfl

/-- The owner has used up the attempts that the challenge allows; zero stands for no limit. -/
def PluginDb.Exhausted (db : PluginDb) (challenge : EdoChallenge) (owner : Owner) : Prop :=
  UserRoutes.orDefault challenge.maxAttempts 0 ≠ 0 ∧
    UserRoutes.orDefault challenge.maxAttempts 0 ≤ UserRoutes.failCount db challenge.id owner

instance (db : PluginDb) (challenge : EdoChallenge) (owner : Owner) :
    Decidable (db.Exhausted challenge owner) := inferInstanceAs (Decidable (_ ∧ _))

theorem wp_attemptsExhausted {α : Type} {Q : Except PluginErr α → Site → Prop} {f : Bool → Plugin α}
    {challenge : EdoChallenge}
    (h : wp (siteSem rpc) (fun _ _ => True) (f (decide (s.plugin.Exhausted challenge owner))) Q s) :
    wp (siteSem rpc) (fun _ _ => True) (UserRoutes.attemptsExhausted challenge owner >>= f) Q s := by
  apply wp_bind.mpr
  unfold UserRoutes.attemptsExhausted
  by_cases hunlimited : UserRoutes.orDefault challenge.maxAttempts 0 = 0
  · rw [if_pos hunlimited]
    have hnot : decide (s.plugin.Exhausted challenge owner) = false :=
      decide_eq_false fun hexhausted => hexhausted.1 hunlimited
    rw [hnot] at h
    exact h
  · rw [if_neg hunlimited]
    apply wp_select trivial
    have hcount : decide (s.plugin.Exhausted challenge owner) =
        decide (UserRoutes.orDefault challenge.maxAttempts 0 ≤
          UserRoutes.failCount s.plugin challenge.id owner) := by
      rw [decide_eq_decide]
      exact and_iff_right hunlimited
    rw [hcount] at h
    exact h

theorem solverOf_ownerId {userId : Int} {team : Option Int} (h : owner = solverOf userId team) :
    solverOf owner.ownerId team = owner := by
  subst h
  cases team with
  | some _ => rfl
  | none => rfl

/-- The current user is found again by its id. -/
theorem getUser_of_currentUser {db : PluginDb} {caller : Option Int} {user : User}
    (huser : db.currentUser caller = some user) : db.getUser user.id = some user := by
  obtain ⟨userId, -, hget⟩ := Option.bind_eq_some_iff.mp huser
  have hid : user.id = userId := by simpa using List.find?_some hget
  rw [hid]
  exact hget

theorem resolveOwner_of_currentUser {db : PluginDb} {caller : Option Int} {user : User}
    (huser : db.currentUser caller = some user) (howner : db.resolveOwner caller = some owner) :
    db.resolveOwner (some user.id) = some owner := by
  have hcurrent : db.currentUser (some user.id) = db.currentUser caller := by
    rw [huser]
    exact getUser_of_currentUser huser
  unfold PluginDb.resolveOwner at howner ⊢
  rw [hcurrent]
  exact howner

/-- The submission, as both routes read it. -/
def submissionOf (provided : Option String) : String :=
  String.ofList (stripChars (provided.getD "").toList)

theorem wp_submitterOf {α : Type} {Q : Except PluginErr α → Site → Prop} {f : Int → Plugin α}
    {caller : Option Int} {user : User} (huser : s.plugin.currentUser caller = some user)
    (h : wp (siteSem rpc) (fun _ _ => True) (f user.id) Q s) :
    wp (siteSem rpc) (fun _ _ => True) (UserRoutes.submitterOf caller >>= f) Q s := by
  refine wp_bind.mpr (wp_bind.mpr (wp_select trivial ?_))
  simp only [huser, Prog.pure_eq, wp_ret, andThen_ok]
  refine wp_select trivial ?_
  simp only [getUser_of_currentUser huser, wp_ret, andThen_ok]
  exact h

/-- The checks before a submission is compared with the flags, and what they check. -/
theorem wp_submitFlag_checked {caller : Option Int} {provided : Option String}
    {Q : Except PluginErr Response → Site → Prop} (howner : s.plugin.resolveOwner caller = some owner)
    (hnotFound : s.plugin.getChallenge challengeId = none → Q (.ok (.refused .challengeNotFound)) s)
    (hlimit : ∀ msg buckets, Q (.error (.indexError msg)) { s with buckets := buckets })
    (hlimited : ∀ retryAfter buckets,
      Q (.ok (.refused (.rateLimited retryAfter))) { s with buckets := buckets })
    (hexhausted : ∀ challenge buckets, s.plugin.getChallenge challengeId = some challenge →
      s.plugin.Exhausted challenge owner →
      Q (.ok (.refused .attemptsExhausted)) { s with buckets := buckets })
    (hempty : ∀ challenge buckets, s.plugin.getChallenge challengeId = some challenge →
      ¬ s.plugin.Exhausted challenge owner → submissionOf provided = "" →
      Q (.ok (.refused .emptySubmission)) { s with buckets := buckets })
    (hjudge : ∀ challenge user team buckets, s.plugin.getChallenge challengeId = some challenge →
      ¬ s.plugin.Exhausted challenge owner →
      s.plugin.currentUser caller = some user → owner = solverOf user.id team →
      submissionOf provided ≠ "" →
      wp (siteSem rpc) (fun _ _ => True) (UserRoutes.judgeSubmission compare challengeId owner user.id
        team (submissionOf provided) ip) Q { s with buckets := buckets }) :
    wp (siteSem rpc) (fun _ _ => True)
      (UserRoutes.submitFlag compare caller challengeId provided ip) Q s := by
  obtain ⟨user, huser⟩ : ∃ user, s.plugin.currentUser caller = some user := by
    unfold PluginDb.resolveOwner at howner
    obtain ⟨user, huser, -⟩ := Option.bind_eq_some_iff.mp howner
    exact ⟨user, huser⟩
  apply wp_select trivial
  simp only [huser, howner]
  apply wp_resolvedOwner howner
  apply wp_select trivial
  cases hchallenge : s.plugin.getChallenge challengeId with
  | none => exact hnotFound hchallenge
  | some challenge =>
    apply wp_settingOf
    apply wp_settingOf
    apply wp_checkRate ?_ hlimit
    intro allowed buckets
    apply wp_branch
    · intro _
      refine wp_submitterOf (s := { s with buckets := buckets }) huser ?_
      refine wp_teamOf (s := { s with buckets := buckets }) huser howner ?_
      intro team hsolver
      rw [solverOf_ownerId hsolver]
      apply wp_attemptsExhausted
      apply wp_branch
      · exact fun h => hexhausted challenge buckets hchallenge (of_decide_eq_true h)
      · intro hallowed
        have hallowed : ¬ s.plugin.Exhausted challenge owner :=
          fun h => hallowed (decide_eq_true h)
        apply wp_branch
        · exact fun h => hempty challenge buckets hchallenge hallowed h
        · exact fun h => hjudge challenge user team buckets hchallenge hallowed huser hsolver h
    · exact fun _ => hlimited _ buckets

/-- The checks before a submission is compared with the flags. -/
theorem wp_submitFlag_judged {caller : Option Int} {provided : Option String}
    {Q : Except PluginErr Response → Site → Prop} (howner : s.plugin.resolveOwner caller = some owner)
    (hnotFound : s.plugin.getChallenge challengeId = none → Q (.ok (.refused .challengeNotFound)) s)
    (hlimit : ∀ msg buckets, Q (.error (.indexError msg)) { s with buckets := buckets })
    (hlimited : ∀ retryAfter buckets,
      Q (.ok (.refused (.rateLimited retryAfter))) { s with buckets := buckets })
    (hexhausted : ∀ buckets, Q (.ok (.refused .attemptsExhausted)) { s with buckets := buckets })
    (hempty : ∀ buckets, submissionOf provided = "" →
      Q (.ok (.refused .emptySubmission)) { s with buckets := buckets })
    (hjudge : ∀ challenge user team buckets, s.plugin.getChallenge challengeId = some challenge →
      s.plugin.currentUser caller = some user → owner = solverOf user.id team →
      submissionOf provided ≠ "" →
      wp (siteSem rpc) (fun _ _ => True) (UserRoutes.judgeSubmission compare challengeId owner user.id
        team (submissionOf provided) ip) Q { s with buckets := buckets }) :
    wp (siteSem rpc) (fun _ _ => True)
      (UserRoutes.submitFlag compare caller challengeId provided ip) Q s := by
  apply wp_submitFlag_checked howner hnotFound hlimit hlimited
  · exact fun _ buckets _ _ => hexhausted buckets
  · exact fun _ buckets _ _ => hempty buckets
  · exact fun challenge user team buckets hchallenge _ => hjudge challenge user team buckets hchallenge

/-- **Every end of a submission.**  Without an owner it does nothing. -/
theorem wp_submitFlag {caller : Option Int} {provided : Option String} :
    wp (siteSem rpc) (fun _ _ => True)
      (UserRoutes.submitFlag compare caller challengeId provided ip)
      (fun out s' => (∃ owner, s.plugin.resolveOwner caller = some owner ∧
          Submitted s.plugin challengeId owner out s'.plugin) ∨
        s.plugin.resolveOwner caller = none ∧ s'.plugin = s.plugin) s := by
  cases howner : s.plugin.resolveOwner caller with
  | none =>
    refine wp_ownerRequired (fun refusal => Or.inr ⟨rfl, rfl⟩) fun owner h => ?_
    rw [howner] at h
    cases h
  | some owner =>
    suffices h : wp (siteSem rpc) (fun _ _ => True)
        (UserRoutes.submitFlag compare caller challengeId provided ip)
        (fun out s' => Submitted s.plugin challengeId owner out s'.plugin) s from
      wp_mono h fun out s' hsubmitted => Or.inl ⟨owner, rfl, hsubmitted⟩
    apply wp_submitFlag_judged howner
    · exact fun _ => .refused
    · exact fun err buckets => .raised
    · exact fun retryAfter buckets => .refused
    · exact fun buckets => .refused
    · exact fun buckets _ => .refused
    · intro challenge user team buckets _ huser hsolver _
      refine wp_mono (wp_judgeSubmission hsolver) ?_
      exact fun out s' h => h.submitted hsolver (resolveOwner_of_currentUser huser howner)

end Submission

/-! ## The invariant -/

/-- Finds are of the challenge that has the flag, and solves of the owner that has the user. -/
structure PluginDb.Consistent (db : PluginDb) : Prop where
  flagKeys : (db.flags.map Flag.id).Nodup
  flagIds : ∀ flag ∈ db.flags, flag.id < db.nextFlagId
  findIds : ∀ solve ∈ db.flagSolves, solve.flagId < db.nextFlagId
  finds : ∀ solve ∈ db.flagSolves, ∀ flag ∈ db.flags, flag.id = solve.flagId →
    flag.challengeId = solve.challengeId
  solvers : ∀ row ∈ db.solves, db.SolvedAs row

/-- Every owner that is complete has its solve. -/
structure PluginDb.Scored (db : PluginDb) : Prop extends db.Consistent where
  scored : ∀ challengeId owner, ¬ db.Unscored challengeId owner

/-- Nobody has found or solved anything yet; the flags have pairwise different ids, all given out. -/
structure PluginDb.Unplayed (db : PluginDb) : Prop where
  flagSolves : db.flagSolves = []
  solves : db.solves = []
  flagKeys : (db.flags.map Flag.id).Nodup
  flagIds : ∀ flag ∈ db.flags, flag.id < db.nextFlagId

namespace PluginDb

variable {db : PluginDb} {challengeId challengeId' : Nat} {owner owner' : Owner} {row : Submission}

theorem Unplayed.scored (h : db.Unplayed) : db.Scored := by
  have hnone : ∀ solve, solve ∉ db.flagSolves := by simp [h.flagSolves]
  constructor
  case toConsistent =>
    refine ⟨h.flagKeys, h.flagIds, fun solve hsolve => absurd hsolve (hnone solve),
      fun solve hsolve => absurd hsolve (hnone solve), ?_⟩
    intro row hrow
    rw [h.solves] at hrow
    cases hrow
  case scored =>
    rintro challengeId owner ⟨hfound, -, -⟩
    apply hfound
    simp [foundFlagIds, h.flagSolves]

/-! ### Finds and solves -/

theorem Consistent.withFind {flag : Flag} (h : db.Consistent)
    (hflag : flag ∈ db.flagsOf challengeId) :
    (db.withFind challengeId flag.id owner).Consistent := by
  obtain ⟨hmem, hchallenge⟩ := List.mem_filter.mp hflag
  have hchallenge : flag.challengeId = challengeId := of_decide_eq_true hchallenge
  have hfinds : ∀ solve ∈ (db.withFind challengeId flag.id owner).flagSolves,
      solve ∈ db.flagSolves ∨ solve = ⟨challengeId, flag.id, owner⟩ := by
    intro solve hsolve
    simpa [PluginDb.withFind] using hsolve
  constructor
  case flagKeys => exact h.flagKeys
  case flagIds => exact h.flagIds
  case findIds =>
    intro solve hsolve
    rcases hfinds solve hsolve with hold | rfl
    · exact h.findIds solve hold
    · exact h.flagIds flag hmem
  case finds =>
    intro solve hsolve other hother hid
    rcases hfinds solve hsolve with hold | rfl
    · exact h.finds solve hold other hother hid
    · obtain rfl : other = flag := Db.eq_of_nodup_map h.flagKeys hother hmem hid
      exact hchallenge
  case solvers => exact h.solvers

/-- A find changes nothing for other owners and challenges. -/
theorem unscored_of_withFind {flagId : Nat}
    (h : (db.withFind challengeId flagId owner).Unscored challengeId' owner') :
    (challengeId = challengeId' ∧ owner = owner') ∨ db.Unscored challengeId' owner' := by
  by_cases hsame : challengeId = challengeId' ∧ owner = owner'
  · exact Or.inl hsame
  · obtain ⟨hfound, hcomplete, hnone⟩ := h
    unfold Complete at hcomplete
    rw [foundFlagIds_withFind hsame] at hfound hcomplete
    exact Or.inr ⟨hfound, hcomplete, hnone⟩

theorem belongsTo_solverOf : row.belongsTo (solverOf row.userId row.teamId) = true := by
  cases hteam : row.teamId with
  | some team => simp [Submission.belongsTo, solverOf, hteam]
  | none => simp [Submission.belongsTo, solverOf]

/-- A solve takes care of its owner, and leaves nobody unscored who was not. -/
theorem unscored_of_append (hrow : row.belongsTo owner = true) (hchallenge : row.challengeId = challengeId)
    (h : { db with solves := db.solves ++ [row] }.Unscored challengeId' owner') :
    ¬ (challengeId = challengeId' ∧ owner = owner') ∧ db.Unscored challengeId' owner' := by
  obtain ⟨hfound, hcomplete, hnone⟩ := h
  rw [solveOf_eq_none_iff] at hnone
  refine ⟨?_, hfound, hcomplete, ?_⟩
  · rintro ⟨rfl, rfl⟩
    have hnot := hnone row (List.mem_append_right _ (List.mem_singleton_self _)) hchallenge
    rw [hrow] at hnot
    cases hnot
  · rw [solveOf_eq_none_iff]
    exact fun other hother => hnone other (List.mem_append_left _ hother)

/-- A solve is never refused: the user's solves are all of the owner it resolves to. -/
theorem Consistent.insertSolve_ne_error (h : db.Consistent) {err : FlushError}
    (hresolved : db.SolvedAs row)
    (hnone : db.solveOf row.challengeId (solverOf row.userId row.teamId) = none) :
    db.insertSolve row ≠ .error err := by
  rw [solveOf_eq_none_iff] at hnone
  have hapart : ∀ solve ∈ db.solves, solve.challengeId = row.challengeId →
      solverOf solve.userId solve.teamId ≠ solverOf row.userId row.teamId := by
    intro solve hsolve hchallenge hsame
    have hnot := hnone solve hsolve hchallenge
    rw [← hsame, belongsTo_solverOf] at hnot
    cases hnot
  have huser : ¬ (db.solves.any fun solve =>
      solve.challengeId = row.challengeId ∧ solve.userId = row.userId) = true := by
    rw [List.any_eq_true]
    rintro ⟨solve, hsolve, hboth⟩
    obtain ⟨hchallenge, hid⟩ := of_decide_eq_true hboth
    have hother := h.solvers solve hsolve
    rw [SolvedAs, hid, hresolved, Option.some.injEq] at hother
    exact hapart solve hsolve hchallenge (hid ▸ hother.symm)
  have hteam : ¬ (db.solves.any fun solve => solve.challengeId = row.challengeId ∧
      solve.teamId.isSome ∧ solve.teamId = row.teamId) = true := by
    rw [List.any_eq_true]
    rintro ⟨solve, hsolve, hall⟩
    obtain ⟨hchallenge, hsome, hid⟩ := of_decide_eq_true hall
    obtain ⟨team, hteam⟩ := Option.isSome_iff_exists.mp hsome
    refine hapart solve hsolve hchallenge ?_
    rw [← hid, hteam]
    rfl
  unfold insertSolve
  rw [if_neg huser, if_neg hteam]
  exact fun h => nomatch h

/-- **Submissions keep everybody scored.** -/
theorem Scored.submitted {db' : PluginDb} {out : Except PluginErr Response} (h : db.Scored)
    (hsubmitted : Submitted db challengeId owner out db') : db'.Scored := by
  cases hsubmitted with
  | refused | raised | alreadyFound => exact h
  | incorrect => exact ⟨⟨h.flagKeys, h.flagIds, h.findIds, h.finds, h.solvers⟩, h.scored⟩
  | found hflag _ hincomplete =>
    refine ⟨h.withFind hflag, fun challengeId' owner' hunscored => ?_⟩
    rcases unscored_of_withFind hunscored with ⟨rfl, rfl⟩ | hold
    · exact hincomplete hunscored.2.1
    · exact h.scored _ _ hold
  | completed hflag _ hsolve =>
    refine ⟨h.withFind hflag, fun challengeId' owner' hunscored => ?_⟩
    rcases unscored_of_withFind hunscored with ⟨rfl, rfl⟩ | hold
    · have hnone : db.solveOf challengeId owner = none := hunscored.2.2
      rw [hsolve] at hnone
      cases hnone
    · exact h.scored _ _ hold
  | @scored flag row _ _ hflag _ hchallenge howner hresolved =>
    have hbook : (db.withFind challengeId flag.id owner).Consistent := h.withFind hflag
    refine ⟨⟨hbook.flagKeys, hbook.flagIds, hbook.findIds, hbook.finds, ?_⟩, ?_⟩
    · intro other hother
      rcases List.mem_append.mp hother with hold | hnew
      · exact h.solvers other hold
      · rw [List.mem_singleton.mp hnew]
        exact hresolved
    · intro challengeId' owner' hunscored
      have hrow : row.belongsTo owner = true := howner ▸ belongsTo_solverOf
      obtain ⟨hother, hfind⟩ : _ ∧ (db.withFind challengeId flag.id owner).Unscored _ _ :=
        unscored_of_append hrow hchallenge hunscored
      rcases unscored_of_withFind hfind with hsame | hold
      · exact hother hsame
      · exact h.scored _ _ hold
  | conflict hflag _ hchallenge howner hresolved hnone hrefused =>
    exact absurd hrefused ((h.withFind hflag).insertSolve_ne_error hresolved
      (by rw [hchallenge, ← howner]; exact hnone))

/-- What `complete` promises. -/
theorem Scored.solve_of_complete {db' : PluginDb} {alreadyFound : Bool} {message : String}
    {progress : Progress} (h : db.Scored) (hsubmitted : Submitted db challengeId owner
      (.ok (.correct alreadyFound true message progress)) db') :
    (db'.solveOf challengeId owner).isSome = true := by
  have hscored := h.submitted hsubmitted
  by_contra hnone
  have hnone : db'.solveOf challengeId owner = none := by simpa using hnone
  cases hsubmitted with
  | @alreadyFound flag solve _ _ _ hflag hfind hcomplete =>
    obtain ⟨hmem, hchallenge⟩ := List.mem_filter.mp hflag
    obtain ⟨hsolve, rfl, hid⟩ := mem_of_flagSolve hfind
    have hsame : solve.challengeId = challengeId := by
      rw [← h.finds solve hsolve flag hmem hid.symm]
      exact of_decide_eq_true hchallenge
    refine h.scored challengeId solve.owner ⟨?_, hcomplete.mp rfl, hnone⟩
    have hfound : solve.flagId ∈ foundFlagIds db challengeId solve.owner := by
      rw [mem_foundFlagIds, ← hsame]
      exact hsolve
    exact List.ne_nil_of_mem hfound
  | completed _ _ hsolve =>
    have hold : db.solveOf challengeId owner = none := hnone
    rw [hsolve] at hold
    cases hold
  | @scored flag row _ _ _ _ hchallenge howner _ =>
    have hnot := solveOf_eq_none_iff.mp hnone row
      (List.mem_append_right _ (List.mem_singleton_self _)) hchallenge
    rw [howner, belongsTo_solverOf] at hnot
    cases hnot

/-! ### Flag edits and resets -/

/-- With fewer flags, finds and solves the rest still fit together. -/
theorem Consistent.of_fewer {db' : PluginDb} (h : db.Consistent) (husers : db'.users = db.users)
    (hteams : db'.teams = db.teams) (hmode : db'.teamsMode = db.teamsMode)
    (hflags : db'.flags.Sublist db.flags) (hnext : db'.nextFlagId = db.nextFlagId)
    (hfinds : ∀ solve ∈ db'.flagSolves, solve ∈ db.flagSolves)
    (hsolves : ∀ other ∈ db'.solves, other ∈ db.solves) : db'.Consistent := by
  refine ⟨?_, ?_, ?_, ?_, ?_⟩
  · exact h.flagKeys.sublist (hflags.map Flag.id)
  · intro flag hflag
    rw [hnext]
    exact h.flagIds flag (hflags.subset hflag)
  · intro solve hsolve
    rw [hnext]
    exact h.findIds solve (hfinds solve hsolve)
  · exact fun solve hsolve flag hflag => h.finds solve (hfinds solve hsolve) flag (hflags.subset hflag)
  · intro other hother
    have hsolver := h.solvers other (hsolves other hother)
    unfold SolvedAs resolveOwner currentUser getUser at hsolver ⊢
    rw [husers, hteams, hmode]
    exact hsolver

/-- A new flag has an id that nobody has found. -/
theorem Consistent.addFlag {type content data : String} (h : db.Consistent) :
    (db.change (.addFlag challengeId type content data)).Consistent := by
  have hold : ∀ flag ∈ (db.change (.addFlag challengeId type content data)).flags,
      flag ∈ db.flags ∨ flag = ⟨db.nextFlagId, challengeId, type, content, data⟩ := by
    intro flag hflag
    simpa [change] using hflag
  constructor
  case flagKeys =>
    exact Db.nodup_map_append_singleton h.flagKeys fun flag hflag =>
      Nat.ne_of_lt (h.flagIds flag hflag)
  case flagIds =>
    intro flag hflag
    rcases hold flag hflag with hmem | rfl
    · exact Nat.lt_succ_of_lt (h.flagIds flag hmem)
    · exact Nat.lt_succ_self _
  case findIds => exact fun solve hsolve => Nat.lt_succ_of_lt (h.findIds solve hsolve)
  case finds =>
    intro solve hsolve flag hflag hid
    rcases hold flag hflag with hmem | rfl
    · exact h.finds solve hsolve flag hmem hid
    · exact absurd hid.symm (Nat.ne_of_lt (h.findIds solve hsolve))
  case solvers => exact h.solvers

theorem Scored.addFlag {type content data : String} (h : db.Scored) :
    (db.change (.addFlag challengeId type content data)).Scored := by
  refine ⟨h.toConsistent.addFlag, ?_⟩
  rintro challengeId' owner ⟨hfound, hcomplete, hnone⟩
  refine h.scored challengeId' owner ⟨hfound, Nat.le_trans ?_ hcomplete, hnone⟩
  exact (List.sublist_append_left db.flags _).filter _ |>.length_le

end PluginDb

/-! ## Runs -/

/-- The operations that change flags, finds and solves. -/
def SiteEvent.concernsFlags : SiteEvent → Bool
  | .route (.submitFlag ..) | .route (.resetOwnerProgress ..) => true
  | .ctfd (.addFlag ..) | .ctfd (.deleteFlag _) => true
  | _ => false

/-- No flag deletion and no reset leaves an owner complete and unscored. -/
def LeavesScored (s : Site) : SiteEvent → Prop
  | .ctfd (.deleteFlag flagId) =>
    ∀ challengeId owner, ¬ (s.plugin.change (.deleteFlag flagId)).Unscored challengeId owner
  | .route (.resetOwnerProgress resetChallenge resetOwner) => ∀ challengeId owner,
    ¬ (s.plugin.withoutProgress resetChallenge resetOwner).Unscored challengeId owner
  | _ => True

variable {rpc : RpcSem} {compare : FlagComparison} {s s' : Site}

theorem wp_resetOwnerProgress {challengeId : Nat} {owner : Owner} :
    wp (siteSem rpc) (fun _ _ => True) (AdminRoutes.resetOwnerProgress challengeId owner)
      (fun _ s' => s'.plugin = s.plugin ∨ s'.plugin = s.plugin.withoutProgress challengeId owner) s := by
  refine wp_branch (fun _ => Or.inl rfl) fun _ => ?_
  refine wp_commit trivial ?_ fun err happly => ?_
  · intro db happly
    cases happly
    exact Or.inr rfl
  · cases happly

/-- **One operation keeps everybody scored.** -/
theorem PluginDb.Scored.step {event : SiteEvent} (h : s.plugin.Scored)
    (hevent : event.concernsFlags) (hscored : LeavesScored s event)
    (hstep : SiteStep rpc compare s event s') : s'.plugin.Scored := by
  cases hstep with
  | @route call out _ hends =>
    cases call with
    | submitFlag caller challengeId provided ip =>
      rcases hends.of_wp wp_submitFlag with ⟨owner, -, hsubmitted⟩ | ⟨-, hsame⟩
      · exact h.submitted hsubmitted
      · rw [hsame]
        exact h
    | resetOwnerProgress challengeId owner =>
      rcases hends.of_wp wp_resetOwnerProgress with hsame | hreset
      · rw [hsame]
        exact h
      · rw [hreset]
        refine ⟨h.toConsistent.of_fewer rfl rfl rfl (List.Sublist.refl _) rfl ?_ ?_, hscored⟩
        · exact fun _ hsolve => List.mem_of_mem_filter hsolve
        · exact fun _ hsolve => List.mem_of_mem_filter hsolve
    | _ => cases hevent
  | @ctfd change =>
    cases change with
    | addFlag challengeId type content data => exact h.addFlag
    | deleteFlag flagId =>
      refine ⟨h.toConsistent.of_fewer rfl rfl rfl List.filter_sublist rfl ?_ ?_, hscored⟩
      · exact fun _ hsolve => List.mem_of_mem_filter hsolve
      · exact fun _ hsolve => hsolve
    | _ => cases hevent
  | sweep _ | tick _ | drift _ => cases hevent

/-- The scoreboard owes nobody anything after a run that leaves nobody unscored. -/
theorem SiteRun.scored {s₀ s : Site} (h₀ : s₀.plugin.Scored)
    (hrun : SiteRun rpc compare (fun s event => event.concernsFlags ∧ LeavesScored s event) s₀ s) :
    s.plugin.Scored := by
  induction hrun with
  | start => exact h₀
  | step _ hok hstep ih => exact ih.step hok.1 hok.2 hstep

/-- **A reported completion is a scored completion**, while no flag deletion and no reset leaves an
    owner complete and unscored. -/
theorem completion_scored (rpc : RpcSem) (compare : FlagComparison) (s₀ s s' : Site)
    (caller : Option Int) (challengeId : Nat) (provided : Option String) (ip : String)
    (alreadyFound : Bool) (message : String) (progress : Progress) (owner : Owner)
    (hunplayed : s₀.plugin.Unplayed)
    (hrun : SiteRun rpc compare (fun s event => event.concernsFlags ∧ LeavesScored s event) s₀ s)
    (howner : s.plugin.resolveOwner caller = some owner)
    (hends : Ends (siteSem rpc) (UserRoutes.submitFlag compare caller challengeId provided ip) s
      (.ok (.correct alreadyFound true message progress)) s') :
    (s'.plugin.solveOf challengeId owner).isSome = true := by
  have hscored : s.plugin.Scored := SiteRun.scored hunplayed.scored hrun
  rcases hends.of_wp wp_submitFlag with ⟨owner', howner', hsubmitted⟩ | ⟨hnone, -⟩
  · rw [howner, Option.some.injEq] at howner'
    subst howner'
    exact hscored.solve_of_complete hsubmitted
  · rw [howner] at hnone
    cases hnone

/-! ## Two histories -/

theorem freshSite_unplayed : freshSite.plugin.Unplayed :=
  ⟨rfl, rfl, List.nodup_nil, fun _ h => nomatch h⟩

def addsFlag (content : String) : SiteMove := .changed (.addFlag 1 "static" content "")

def submits (provided : String) : SiteMove :=
  .routed (.submitFlag (some 1) 1 (some provided) "10.0.0.1") (quietSiteChoice 0)

/-- The participant submits once more after the history. -/
def submitAfter (check : Site → SiteEvent → Bool) (moves : List SiteMove) (provided : String) :
    Option (Site × Except PluginErr Response × Site) :=
  (siteHistory (execRpc DaemonEnv.default) sameContent check moves freshSite).bind fun s =>
    ((siteMachine (execRpc DaemonEnv.default)).run (quietSiteChoice 0)
      (UserRoutes.submitFlag sameContent (some 1) 1 (some provided) "10.0.0.1") s).map fun result =>
        (s, result.2)

theorem ends_submitAfter {check : Site → SiteEvent → Bool} {ok : Site → SiteEvent → Prop}
    {moves : List SiteMove} {provided : String} {s s' : Site} {out : Except PluginErr Response}
    (hok : ∀ s event, check s event = true → ok s event)
    (h : submitAfter check moves provided = some (s, out, s')) :
    SiteRun (Unreliable DaemonEnv.default) sameContent ok freshSite s ∧
      Ends (siteSem (Unreliable DaemonEnv.default))
        (UserRoutes.submitFlag sameContent (some 1) 1 (some provided) "10.0.0.1") s out s' := by
  obtain ⟨s₁, hhistory, hsubmit⟩ := Option.bind_eq_some_iff.mp h
  obtain ⟨⟨trace, out', last⟩, hrun, heq⟩ := Option.map_eq_some_iff.mp hsubmit
  cases heq
  have hrpc := executes_unreliable DaemonEnv.default
  exact ⟨.of_siteHistory hrpc hok hhistory, ends_of_siteRun hrpc hrun⟩

/-- The owner of the participant, who resolves to itself. -/
def alice : Owner := ⟨"user", 1⟩

/-- The submission was answered `correct` and `complete`, and the scoreboard says so or not. -/
def completes (scored : Bool) (result : Site × Except PluginErr Response × Site) : Bool :=
  (result.1.plugin.resolveOwner (some 1) = some alice) &&
    (match result.2.1 with
      | .ok (.correct _ true _ _) => true
      | _ => false) && (result.2.2.plugin.solveOf 1 alice).isSome = scored

theorem of_completes {scored : Bool} {s s' : Site} {out : Except PluginErr Response}
    (h : completes scored (s, out, s') = true) :
    s.plugin.resolveOwner (some 1) = some alice ∧
      (∃ alreadyFound message progress, out = .ok (.correct alreadyFound true message progress)) ∧
      (s'.plugin.solveOf 1 alice).isSome = scored := by
  simp only [completes, Bool.and_eq_true, decide_eq_true_eq] at h
  obtain ⟨⟨howner, hcomplete⟩, hsolve⟩ := h
  refine ⟨howner, ?_, hsolve⟩
  split at hcomplete
  · exact ⟨_, _, _, rfl⟩
  · cases hcomplete

instance {db : PluginDb} {challengeId : Nat} {owner : Owner} :
    Decidable (db.Unscored challengeId owner) :=
  inferInstanceAs (Decidable (_ ∧ _ ∧ _))

/-- Of those who have a find. -/
def nobodyUnscored (db : PluginDb) : Bool :=
  db.flagSolves.all fun solve => ¬ db.Unscored solve.challengeId solve.owner

theorem not_unscored_of_nobodyUnscored {db : PluginDb} (h : nobodyUnscored db = true)
    (challengeId : Nat) (owner : Owner) : ¬ db.Unscored challengeId owner := by
  intro hunscored
  obtain ⟨flagId, hfound⟩ := List.exists_mem_of_ne_nil _ hunscored.1
  have hscored := List.all_eq_true.mp h _ (PluginDb.mem_foundFlagIds.mp hfound)
  exact of_decide_eq_true hscored hunscored

/-- Flags come and go, and are submitted and reset, with nobody left unscored. -/
def keepsScored (s : Site) : SiteEvent → Bool
  | .route (.submitFlag ..) | .ctfd (.addFlag ..) => true
  | .ctfd (.deleteFlag flagId) => nobodyUnscored (s.plugin.change (.deleteFlag flagId))
  | .route (.resetOwnerProgress challengeId owner) =>
    nobodyUnscored (s.plugin.withoutProgress challengeId owner)
  | _ => false

theorem leavesScored_of_keepsScored (s : Site) (event : SiteEvent)
    (h : keepsScored s event = true) : event.concernsFlags ∧ LeavesScored s event := by
  unfold keepsScored at h
  split at h
  · exact ⟨rfl, trivial⟩
  · exact ⟨rfl, trivial⟩
  · exact ⟨rfl, not_unscored_of_nobodyUnscored h⟩
  · exact ⟨rfl, not_unscored_of_nobodyUnscored h⟩
  · cases h

/-- A third flag is deleted before the second is found, and the progress is reset in between. -/
def foundTwice : List SiteMove :=
  [addsFlag "one", addsFlag "two", addsFlag "three", submits "one", .changed (.deleteFlag 3),
    submits "two", .routed (.resetOwnerProgress 1 alice) (quietSiteChoice 0), submits "one"]

theorem foundTwice_completes :
    (submitAfter keepsScored foundTwice "two").any (completes true) = true := by
  decide +kernel

theorem completion_scored_foundTwice : ∃ s out s',
    submitAfter keepsScored foundTwice "two" = some (s, out, s') ∧
      (s'.plugin.solveOf 1 alice).isSome = true := by
  obtain ⟨⟨s, out, s'⟩, hrun, hcompletes⟩ := (Option.any_eq_true _ _).mp foundTwice_completes
  obtain ⟨howner, ⟨alreadyFound, message, progress, rfl⟩, -⟩ := of_completes hcompletes
  obtain ⟨hhistory, hends⟩ := ends_submitAfter leavesScored_of_keepsScored hrun
  refine ⟨s, _, s', hrun, ?_⟩
  exact completion_scored _ sameContent freshSite s s' (some 1) 1 (some "two") "10.0.0.1"
    alreadyFound message progress alice freshSite_unplayed hhistory howner hends

/-- The second flag is deleted before it is found, so the first is all there is to find. -/
theorem secondDeleted_completes :
    (submitAfter (fun _ => SiteEvent.concernsFlags)
      [addsFlag "one", addsFlag "two", submits "one", .changed (.deleteFlag 2)] "one").any
      (completes false) = true := by
  decide +kernel

/-- The answer `complete` repeats what the tables say, and nothing scores it. -/
theorem not_completion_scored :
    ¬ ∀ (rpc : RpcSem) (compare : FlagComparison) (s₀ s s' : Site) (caller : Option Int)
      (challengeId : Nat) (provided : Option String) (ip : String) (alreadyFound : Bool)
      (message : String) (progress : Progress) (owner : Owner), s₀.plugin.Unplayed →
      SiteRun rpc compare (fun _ event => event.concernsFlags) s₀ s →
      s.plugin.resolveOwner caller = some owner →
      Ends (siteSem rpc) (UserRoutes.submitFlag compare caller challengeId provided ip) s
        (.ok (.correct alreadyFound true message progress)) s' →
      (s'.plugin.solveOf challengeId owner).isSome = true := by
  intro hall
  obtain ⟨⟨s, out, s'⟩, hrun, hcompletes⟩ := (Option.any_eq_true _ _).mp secondDeleted_completes
  obtain ⟨howner, ⟨alreadyFound, message, progress, rfl⟩, hunscored⟩ := of_completes hcompletes
  obtain ⟨hhistory, hends⟩ := ends_submitAfter (fun _ _ h => h) hrun
  have hscored := hall _ sameContent freshSite s s' (some 1) 1 (some "one") "10.0.0.1"
    alreadyFound message progress alice freshSite_unplayed hhistory howner hends
  rw [hscored] at hunscored
  cases hunscored

end EdoPlugin
