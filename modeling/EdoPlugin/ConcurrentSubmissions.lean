import EdoPlugin.Completion
import EdoPlugin.SiteThreads

/-!
# Teammates who submit at the same time

`submit_flag` commits the find and the solve in two transactions, and checks before each of them
whether the row is already there.  A request that has committed a find owes the owner a look at the
progress; if that shows the set complete, it owes the solve.  The invariant is that an owner which is
complete and has no solve is still owed one by some request.
-/

namespace EdoPlugin

open Interaction ChallengeType

/-! ## The tables the requests share -/

namespace PluginDb

/-- The solves of an owner. -/
def solvesOf (db : PluginDb) (challengeId : Nat) (owner : Owner) : List Submission :=
  db.solves.filter fun solve => solve.challengeId = challengeId ∧ solve.belongsTo owner

/-- The finds of the owner for the challenge are of its flags, and its members' solves are its
    own. -/
structure Tallied (db : PluginDb) (challengeId : Nat) (owner : Owner) : Prop where
  flagKeys : (db.flags.map Flag.id).Nodup
  finds : ∀ solve ∈ db.flagSolves, solve.owner = owner →
    (solve.challengeId = challengeId ↔ ∃ flag ∈ db.flagsOf challengeId, flag.id = solve.flagId)
  solvers : ∀ row ∈ db.solves, row.challengeId = challengeId →
    db.resolveOwner (some row.userId) = some owner → row.belongsTo owner = true

/-- One solve if every flag has been found, and none otherwise. -/
def ScoredOnce (db : PluginDb) (challengeId : Nat) (owner : Owner) : Prop :=
  (db.AllFound challengeId owner → (db.solvesOf challengeId owner).length = 1) ∧
    (¬ db.AllFound challengeId owner → db.solvesOf challengeId owner = [])

instance {db : PluginDb} {challengeId : Nat} {owner : Owner} :
    Decidable (db.ScoredOnce challengeId owner) :=
  inferInstanceAs (Decidable (_ ∧ _))

/-- What a submission leaves alone. -/
structure SameAccounts (db₀ db : PluginDb) : Prop where
  teamsMode : db.teamsMode = db₀.teamsMode
  users : db.users = db₀.users
  teams : db.teams = db₀.teams
  flags : db.flags = db₀.flags

namespace SameAccounts

variable {db₀ db : PluginDb}

theorem getUser (h : SameAccounts db₀ db) : db.getUser = db₀.getUser := by
  funext userId
  simp only [PluginDb.getUser, h.users]

theorem currentUser (h : SameAccounts db₀ db) (caller : Option Int) :
    db.currentUser caller = db₀.currentUser caller := by
  simp only [PluginDb.currentUser, h.getUser]

theorem resolveOwner (h : SameAccounts db₀ db) (caller : Option Int) :
    db.resolveOwner caller = db₀.resolveOwner caller := by
  simp only [PluginDb.resolveOwner, h.currentUser, h.teamsMode, h.teams]

theorem flagsOf (h : SameAccounts db₀ db) (challengeId : Nat) :
    db.flagsOf challengeId = db₀.flagsOf challengeId := by
  simp only [PluginDb.flagsOf, h.flags]

end SameAccounts

variable {db db' : PluginDb} {challengeId : Nat} {owner : Owner}

theorem mem_solvesOf {row : Submission} : row ∈ db.solvesOf challengeId owner ↔
    row ∈ db.solves ∧ row.challengeId = challengeId ∧ row.belongsTo owner = true := by
  simp [solvesOf]

theorem solveOf_eq_none_iff_solvesOf :
    db.solveOf challengeId owner = none ↔ db.solvesOf challengeId owner = [] := by
  simp [solveOf, solvesOf]

/-- Finds that only grow keep a complete owner complete. -/
theorem Complete.mono (h : db.Complete challengeId owner) (hflags : db'.flags = db.flags)
    (hfinds : ∀ solve ∈ db.flagSolves, solve ∈ db'.flagSolves) :
    db'.Complete challengeId owner := by
  have hflagsOf : db'.flagsOf challengeId = db.flagsOf challengeId := by
    simp only [PluginDb.flagsOf, hflags]
  have hsub : foundFlagIds db challengeId owner ⊆ foundFlagIds db' challengeId owner := by
    intro flagId hfound
    rw [mem_foundFlagIds] at hfound ⊢
    exact hfinds _ hfound
  have hle : (foundFlagIds db challengeId owner).length ≤
      (foundFlagIds db' challengeId owner).length :=
    ((List.nodup_dedup _).subperm hsub).length_le
  unfold Complete at h ⊢
  rw [hflagsOf]
  exact h.trans hle

/-- The count of finds is complete exactly if every flag has one. -/
theorem Tallied.complete_iff (h : db.Tallied challengeId owner) :
    db.Complete challengeId owner ↔ db.AllFound challengeId owner := by
  constructor
  · apply allFound_of_complete
    exact fun solve hsolve howner => (h.finds solve hsolve howner).mp
  · apply complete_of_allFound h.flagKeys
    exact fun solve hsolve howner => (h.finds solve hsolve howner).mpr

end PluginDb

/-! ## How far a request has come -/

inductive SubmitterPhase where
  /-- It owes nothing; whether its last query showed the owner complete. -/
  | reading (complete : Bool)
  /-- It has committed a find, and made so many queries since. -/
  | owes (queries : Nat)
  /-- It has seen that its find completed the set. -/
  | awards
deriving DecidableEq, Repr

namespace SubmitterPhase

/-- The request has seen the owner complete. -/
def sawComplete : SubmitterPhase → Bool
  | .reading complete => complete
  | .owes _ => false
  | .awards => true

/-- The solve of a complete owner is still up to this request. -/
def pending : SubmitterPhase → Bool
  | .reading _ => false
  | .owes _ | .awards => true

section Protocol

variable (db₀ : PluginDb) (challengeId : Nat) (owner : Owner)

def next (phase : SubmitterPhase) : (op : SiteOp) → op.Res → SubmitterPhase
  | .select, db =>
    match phase with
    | .reading _ => .reading (db.Complete challengeId owner)
    | .owes queries =>
      -- the third query of `owner_progress` reads the finds
      if queries < 2 then .owes (queries + 1)
      else if db.Complete challengeId owner then .awards else .reading false
    | .awards => if (db.solveOf challengeId owner).isSome then .reading true else .awards
  | .commit [.insertFlagSolve _], .ok () => .owes 0
  | .commit [.insertSolve _], _ => .reading false
  | _, _ => phase

def admits (phase : SubmitterPhase) : SiteOp → Prop
  | .select | .rateLimit .. => True
  | .commit [.insertFail _] => phase.pending = false
  | .commit [.insertFlagSolve row] => phase.pending = false ∧
      ∃ flag ∈ db₀.flagsOf challengeId, row = ⟨challengeId, flag.id, owner⟩
  | .commit [.insertSolve row] => phase.sawComplete = true ∧ row.challengeId = challengeId ∧
      owner = solverOf row.userId row.teamId ∧ db₀.resolveOwner (some row.userId) = some owner
  | _ => False

/-- What a query shows. -/
def expected (phase : SubmitterPhase) : (op : SiteOp) → op.Res → Prop
  | .select, db => PluginDb.SameAccounts db₀ db ∧
      (phase.sawComplete = true → db.Complete challengeId owner)
  | _, _ => True

end Protocol

end SubmitterPhase

section Conformance

variable {db₀ : PluginDb} {challengeId : Nat} {owner : Owner} {α : Type}
  {Q : Except PluginErr α → SubmitterPhase → Prop} {seen : Bool}

abbrev Submits (db₀ : PluginDb) (challengeId : Nat) (owner : Owner) (p : Plugin α)
    (Q : Except PluginErr α → SubmitterPhase → Prop) (phase : SubmitterPhase) : Prop :=
  PluginFollows (SubmitterPhase.expected db₀ challengeId owner)
    (SubmitterPhase.admits db₀ challengeId owner) (SubmitterPhase.next challengeId owner) p Q phase

/-- A query of a request that owes nothing. -/
theorem submits_select {f : PluginDb → Plugin α}
    (h : ∀ db, PluginDb.SameAccounts db₀ db → (seen = true → db.Complete challengeId owner) →
      Submits db₀ challengeId owner (f db) Q (.reading (db.Complete challengeId owner))) :
    Submits db₀ challengeId owner (select >>= f) Q (.reading seen) :=
  follows_select trivial fun db hexpected => h db hexpected.1 hexpected.2

theorem submits_settingOf {key : String} {default : Int} {f : Int → Plugin α}
    (h : ∀ value seen, Submits db₀ challengeId owner (f value) Q (.reading seen)) :
    Submits db₀ challengeId owner (settingOf key default >>= f) Q (.reading seen) :=
  submits_select fun _ _ _ => h _ _

theorem submits_ownerRequired {caller : Option Int} {fn : Plugin Response}
    {Q : Except PluginErr Response → SubmitterPhase → Prop}
    (hrefused : ∀ refusal seen, Q (.ok (.refused refusal)) (.reading seen))
    (h : ∀ seen, Submits db₀ challengeId owner fn Q (.reading seen)) :
    Submits db₀ challengeId owner (ownerRequired caller fn) Q (.reading seen) := by
  apply submits_select
  intro db _ _
  cases db.currentUser caller with
  | none => exact hrefused _ _
  | some user =>
    cases db.resolveOwner caller with
    | none => exact hrefused _ _
    | some _ => exact h _

theorem submits_resolvedOwner {caller : Option Int} {f : Owner → Plugin α}
    (howner : db₀.resolveOwner caller = some owner)
    (h : ∀ seen, Submits db₀ challengeId owner (f owner) Q (.reading seen)) :
    Submits db₀ challengeId owner (resolvedOwner caller >>= f) Q (.reading seen) := by
  apply wp_bind.mpr
  apply submits_select
  intro db hsame _
  rw [hsame.resolveOwner, howner]
  exact h _

theorem submits_submitterOf {caller : Option Int} {f : Int → Plugin α}
    (h : ∀ user seen, db₀.currentUser caller = some user →
      Submits db₀ challengeId owner (f user.id) Q (.reading seen))
    (herror : ∀ err seen, Q (.error err) (.reading seen)) :
    Submits db₀ challengeId owner (UserRoutes.submitterOf caller >>= f) Q (.reading seen) := by
  apply wp_bind.mpr
  apply wp_bind.mpr
  apply submits_select
  intro db hsame _
  rw [hsame.currentUser]
  cases huser : db₀.currentUser caller with
  | none => exact herror _ _
  | some user =>
    apply submits_select
    intro db' hsame' _
    rw [hsame'.getUser, getUser_of_currentUser huser]
    exact h user _ huser

theorem submits_teamOf {caller : Option Int} {user : User} {f : Option Int → Plugin α}
    (huser : db₀.currentUser caller = some user) (howner : db₀.resolveOwner caller = some owner)
    (h : ∀ team seen, owner = solverOf user.id team →
      Submits db₀ challengeId owner (f team) Q (.reading seen)) :
    Submits db₀ challengeId owner (UserRoutes.teamOf owner >>= f) Q (.reading seen) := by
  simp only [PluginDb.resolveOwner, huser, Option.bind_some] at howner
  unfold UserRoutes.teamOf
  cases hmode : db₀.teamsMode with
  | true =>
    simp only [hmode, if_true, Option.map_eq_some_iff, Option.filter_eq_some_iff] at howner
    obtain ⟨team, ⟨-, hexists⟩, rfl⟩ := howner
    rw [if_pos rfl]
    apply submits_select
    intro db hsame _
    have hfilter : ((some team).filter fun team => db.teams.contains team) = some team := by
      rw [hsame.teams]
      simpa [Option.filter] using hexists
    show Submits db₀ challengeId _ (f ((some team).filter fun team => db.teams.contains team)) _ _
    rw [hfilter]
    exact h _ _ rfl
  | false =>
    simp only [hmode, Bool.false_eq_true, if_false, Option.some.injEq] at howner
    subst howner
    rw [if_neg (show ("user" : String) ≠ "team" by decide)]
    exact h none _ rfl

theorem submits_attemptsExhausted {challenge : EdoChallenge} {solver : Owner} {f : Bool → Plugin α}
    (h : ∀ exhausted seen, Submits db₀ challengeId owner (f exhausted) Q (.reading seen)) :
    Submits db₀ challengeId owner (UserRoutes.attemptsExhausted challenge solver >>= f) Q
      (.reading seen) := by
  unfold UserRoutes.attemptsExhausted
  dsimp only
  split
  · exact h false seen
  · exact submits_select fun _ _ _ => h _ _

/-! ## A submission follows the phases -/

/-- The request owes nothing. -/
def SubmitterPhase.Settled (phase : SubmitterPhase) : Prop := ∃ seen, phase = .reading seen

variable {compare : FlagComparison} {userId : Int} {team : Option Int} {submission ip : String}

theorem submits_firstMatchingFlag {f : Option Flag → Plugin α}
    (h : ∀ matching seen, (∀ flag, matching = some flag → flag ∈ db₀.flagsOf challengeId) →
      Submits db₀ challengeId owner (f matching) Q (.reading seen)) :
    Submits db₀ challengeId owner (firstMatchingFlag compare challengeId submission >>= f) Q
      (.reading seen) := by
  apply wp_bind.mpr
  apply submits_select
  intro db hsame _
  apply h
  intro flag hflag
  rw [← hsame.flagsOf]
  exact List.mem_of_find?_eq_some hflag

/-- A find is committed, or there is none to commit. -/
theorem submits_recordFlagFind (howner : owner = solverOf userId team) :
    Submits db₀ challengeId owner (recordFlagFind compare challengeId userId team submission)
      (fun out φ => φ.Settled ∨ (∃ found, out = .ok found) ∧ φ = .owes 0) (.reading seen) := by
  subst howner
  apply submits_firstMatchingFlag
  intro matching seen hmatching
  cases matching with
  | none => exact Or.inl ⟨_, rfl⟩
  | some flag =>
    apply submits_select
    intro db _ _
    cases db.flagSolve (solverOf userId team) flag.id with
    | some _ => exact Or.inl ⟨_, rfl⟩
    | none =>
      apply follows_commit
      · exact ⟨rfl, flag, hmatching flag rfl, rfl⟩
      · exact Or.inr ⟨⟨_, rfl⟩, rfl⟩
      · exact fun err => Or.inl ⟨_, rfl⟩

/-- What the progress of the owner is computed from. -/
theorem complete_progressOf {db db' : PluginDb} {weights : List EdoFlagWeight}
    (hflags : PluginDb.SameAccounts db₀ db) (hfinds : PluginDb.SameAccounts db₀ db') :
    (progressOf (db.flagsOf challengeId) weights (foundFlagIds db' challengeId owner)).complete =
      decide (db'.Complete challengeId owner) := by
  simp only [Progress.complete, progressOf, PluginDb.Complete, hflags.flagsOf, hfinds.flagsOf]

theorem submits_ownerProgress {f : Progress → Plugin α}
    (h : ∀ progress, Submits db₀ challengeId owner (f progress) Q (.reading progress.complete)) :
    Submits db₀ challengeId owner (ownerProgress challengeId owner >>= f) Q (.reading seen) := by
  apply wp_bind.mpr
  apply submits_select
  intro db hsame _
  apply submits_select
  intro weights _ _
  apply submits_select
  intro db' hsame' _
  have hthis := h (progressOf (db.flagsOf challengeId) weights.flagWeights
    (foundFlagIds db' challengeId owner))
  rw [complete_progressOf hsame hsame'] at hthis
  exact hthis

/-- After its own find, the request looks at the progress to learn whether to award the solve. -/
theorem submits_ownerProgress_owes {f : Progress → Plugin α}
    (h : ∀ progress, Submits db₀ challengeId owner (f progress) Q
      (if progress.complete then .awards else .reading false)) :
    Submits db₀ challengeId owner (ownerProgress challengeId owner >>= f) Q (.owes 0) := by
  apply wp_bind.mpr
  apply follows_select trivial
  rintro db ⟨hsame, -⟩
  apply follows_select trivial
  rintro weights -
  apply follows_select trivial
  rintro db' ⟨hsame', -⟩
  have hthis := h (progressOf (db.flagsOf challengeId) weights.flagWeights
    (foundFlagIds db' challengeId owner))
  rw [complete_progressOf hsame hsame'] at hthis
  simp only [decide_eq_true_eq] at hthis
  exact hthis

theorem submits_insertCtfdSolve {phase : SubmitterPhase} (howner : owner = solverOf userId team)
    (hresolved : db₀.resolveOwner (some userId) = some owner)
    (hphase : phase = .reading true ∨ phase = .awards) :
    Submits db₀ challengeId owner (insertCtfdSolve challengeId userId team submission ip)
      (fun _ φ => φ.Settled) phase := by
  subst howner
  apply follows_select trivial
  rintro db ⟨-, hcomplete⟩
  cases hsolve : db.solveOf challengeId (solverOf userId team) with
  | some solve =>
    rcases hphase with rfl | rfl
    · exact ⟨_, rfl⟩
    · exact ⟨true, by simp [SubmitterPhase.next, hsolve]⟩
  | none =>
    have hnext : (SubmitterPhase.next challengeId (solverOf userId team) phase .select db).sawComplete =
        true := by
      rcases hphase with rfl | rfl
      · exact decide_eq_true (hcomplete rfl)
      · simp [SubmitterPhase.next, hsolve, SubmitterPhase.sawComplete]
    apply Conforms.perform ⟨hnext, rfl, rfl, hresolved⟩
    intro done _
    cases done with
    | ok _ => exact ⟨false, rfl⟩
    | error err => exact ⟨false, rfl⟩

theorem submits_creditFlag (howner : owner = solverOf userId team)
    (hresolved : db₀.resolveOwner (some userId) = some owner) :
    Submits db₀ challengeId owner
      (UserRoutes.creditFlag compare challengeId owner userId team submission ip)
      (fun _ φ => φ.Settled) (.reading seen) := by
  -- The rest, once the request knows whether the set is complete.
  have hrest : ∀ (progress : Progress) (phase : SubmitterPhase),
      (progress.complete = true → phase = .reading true ∨ phase = .awards) →
      (progress.complete = false → phase.Settled) →
      Submits db₀ challengeId owner (if progress.complete then do
          insertCtfdSolve challengeId userId team submission ip
          return .correct false true "Correct! Challenge complete." progress
        else do
          let remaining := progress.flagsTotal - progress.flagsSolved
          return Response.correct false false s!"Correct! {remaining} flag(s) remaining." progress)
        (fun _ φ => φ.Settled) phase := by
    intro progress phase hcomplete hincomplete
    cases hprogress : progress.complete with
    | true =>
      apply Conforms.andThen (submits_insertCtfdSolve howner hresolved (hcomplete hprogress))
      · exact fun _ _ h => h
      · exact fun _ _ h => h
    | false => exact hincomplete hprogress
  apply Conforms.andThen (submits_recordFlagFind howner)
  · intro _ φ hφ
    rcases hφ with ⟨seen, rfl⟩ | ⟨-, rfl⟩
    · apply submits_ownerProgress
      intro progress
      apply hrest
      · intro h
        exact Or.inl (by rw [h])
      · exact fun _ => ⟨_, rfl⟩
    · apply submits_ownerProgress_owes
      intro progress
      apply hrest
      · intro h
        exact Or.inr (if_pos h)
      · intro h
        exact ⟨false, by simp [h]⟩
  · intro err φ hφ
    rcases hφ with hφ | ⟨⟨_, h⟩, -⟩
    · exact hφ
    · cases h

theorem submits_judgeSubmission (howner : owner = solverOf userId team)
    (hresolved : db₀.resolveOwner (some userId) = some owner) :
    Submits db₀ challengeId owner
      (UserRoutes.judgeSubmission compare challengeId owner userId team submission ip)
      (fun _ φ => φ.Settled) (.reading seen) := by
  apply submits_firstMatchingFlag
  intro matching seen _
  cases matching with
  | none =>
    apply follows_commit
    · exact rfl
    · exact ⟨_, rfl⟩
    · exact fun err => ⟨_, rfl⟩
  | some flag =>
    apply submits_select
    intro db _ _
    cases db.flagSolve owner flag.id with
    | some _ =>
      apply submits_ownerProgress
      exact fun progress => ⟨_, rfl⟩
    | none => exact submits_creditFlag howner hresolved

theorem submits_submitFlag {caller : Option Int} {provided : Option String}
    (howner : db₀.resolveOwner caller = some owner) :
    Submits db₀ challengeId owner
      (UserRoutes.submitFlag compare caller challengeId provided ip)
      (fun _ φ => φ.Settled) (.reading seen) := by
  have hsettled : ∀ seen, (SubmitterPhase.reading seen).Settled := fun seen => ⟨seen, rfl⟩
  apply submits_ownerRequired (fun _ seen => hsettled seen)
  intro seen
  apply submits_resolvedOwner howner
  intro seen
  apply submits_select
  intro db _ _
  cases db.getChallenge challengeId with
  | none => exact hsettled _
  | some challenge =>
    apply submits_settingOf
    intro limit seen
    apply submits_settingOf
    intro window seen
    apply Conforms.perform trivial
    intro allowed _
    cases allowed with
    | error err => exact hsettled _
    | ok allowed =>
      apply Conforms.ite
      · apply submits_submitterOf
        · intro user seen huser
          apply submits_teamOf huser howner
          intro team seen hsolver
          apply submits_attemptsExhausted
          intro exhausted seen
          apply Conforms.ite
          · exact hsettled _
          · apply Conforms.ite
            · exact hsettled _
            · exact submits_judgeSubmission hsolver (resolveOwner_of_currentUser huser howner)
        · exact fun err seen => hsettled seen
      · exact hsettled _

end Conformance

/-! ## The invariant -/

/-- An owner is scored at most once, only when it is complete, and as long as it is complete and not
    scored, some request still owes it the solve. -/
structure Awarded (db₀ : PluginDb) (challengeId : Nat) (owner : Owner) (s : Site)
    (phases : List SubmitterPhase) : Prop where
  accounts : PluginDb.SameAccounts db₀ s.plugin
  tallied : s.plugin.Tallied challengeId owner
  atMostOne : (s.plugin.solvesOf challengeId owner).length ≤ 1
  earned : s.plugin.solvesOf challengeId owner ≠ [] → s.plugin.Complete challengeId owner
  sawComplete : ∀ (i : Nat) (φ : SubmitterPhase), phases[i]? = some φ → φ.sawComplete = true →
    s.plugin.Complete challengeId owner
  owed : s.plugin.Complete challengeId owner → s.plugin.solvesOf challengeId owner = [] →
    ∃ (i : Nat) (φ : SubmitterPhase), phases[i]? = some φ ∧ φ.pending = true

/-! ### Rows that are inserted -/

namespace PluginDb

variable {db db' : PluginDb} {challengeId : Nat} {owner : Owner}

theorem insertFlagSolve_ok {row : EdoFlagSolve} (h : db.insertFlagSolve row = .ok db') :
    db' = { db with flagSolves := db.flagSolves ++ [row] } := by
  unfold insertFlagSolve at h
  split at h
  · cases h
  · cases h
    rfl

theorem Tallied.withFind {flag : Flag} (h : db.Tallied challengeId owner)
    (hflag : flag ∈ db.flagsOf challengeId) :
    (db.withFind challengeId flag.id owner).Tallied challengeId owner := by
  refine ⟨h.flagKeys, ?_, h.solvers⟩
  intro solve hsolve howner
  rcases List.mem_append.mp hsolve with hold | hnew
  · exact h.finds solve hold howner
  · rw [List.mem_singleton.mp hnew]
    exact ⟨fun _ => ⟨flag, hflag, rfl⟩, fun _ => rfl⟩

variable {row : Submission}

theorem solvesOf_append (hchallenge : row.challengeId = challengeId)
    (howner : owner = solverOf row.userId row.teamId) :
    { db with solves := db.solves ++ [row] }.solvesOf challengeId owner =
      db.solvesOf challengeId owner ++ [row] := by
  have hbelongs : row.belongsTo owner = true := howner ▸ belongsTo_solverOf
  simp [solvesOf, hchallenge, hbelongs]

/-- The constraints let the owner have one solve. -/
theorem solvesOf_of_insertSolve_ok (h : db.insertSolve row = .ok db')
    (hchallenge : row.challengeId = challengeId)
    (howner : owner = solverOf row.userId row.teamId) : db.solvesOf challengeId owner = [] := by
  subst howner
  rw [List.eq_nil_iff_forall_not_mem]
  intro solve hsolve
  obtain ⟨hmem, hsame, hbelongs⟩ := mem_solvesOf.mp hsolve
  unfold insertSolve at h
  split at h
  · cases h
  · rename_i huser
    split at h
    · cases h
    · rename_i hteam
      cases hrow : row.teamId with
      | none =>
        apply huser
        rw [List.any_eq_true]
        have hid : solve.userId = row.userId := by
          simpa [Submission.belongsTo, solverOf, hrow] using hbelongs
        exact ⟨solve, hmem, decide_eq_true ⟨hsame.trans hchallenge.symm, hid⟩⟩
      | some team =>
        apply hteam
        rw [List.any_eq_true]
        have hid : solve.teamId = some team := by
          simpa [Submission.belongsTo, solverOf, hrow] using hbelongs
        refine ⟨solve, hmem, decide_eq_true ⟨hsame.trans hchallenge.symm, ?_, ?_⟩⟩
        · rw [hid]
          rfl
        · rw [hid, hrow]

/-- A refused solve is one the owner has. -/
theorem Tallied.solvesOf_of_insertSolve_error (h : db.Tallied challengeId owner) {err : FlushError}
    (herror : db.insertSolve row = .error err) (hchallenge : row.challengeId = challengeId)
    (howner : owner = solverOf row.userId row.teamId)
    (hresolved : db.resolveOwner (some row.userId) = some owner) :
    db.solvesOf challengeId owner ≠ [] := by
  suffices hsolve : ∃ solve, solve ∈ db.solvesOf challengeId owner by
    obtain ⟨solve, hmem⟩ := hsolve
    exact List.ne_nil_of_mem hmem
  unfold insertSolve at herror
  split at herror
  · rename_i huser
    obtain ⟨solve, hmem, hboth⟩ := List.any_eq_true.mp huser
    obtain ⟨hsame, hid⟩ := of_decide_eq_true hboth
    have hchal : solve.challengeId = challengeId := hsame.trans hchallenge
    exact ⟨solve, mem_solvesOf.mpr ⟨hmem, hchal, h.solvers solve hmem hchal (hid ▸ hresolved)⟩⟩
  · split at herror
    · rename_i hteam
      obtain ⟨solve, hmem, hall⟩ := List.any_eq_true.mp hteam
      obtain ⟨hsame, hsome, hid⟩ := of_decide_eq_true hall
      refine ⟨solve, mem_solvesOf.mpr ⟨hmem, hsame.trans hchallenge, ?_⟩⟩
      obtain ⟨team, hteam⟩ := Option.isSome_iff_exists.mp hsome
      rw [howner, ← hid, hteam]
      simp [Submission.belongsTo, solverOf, hteam]
    · cases herror

theorem Tallied.append (h : db.Tallied challengeId owner)
    (howner : owner = solverOf row.userId row.teamId) :
    { db with solves := db.solves ++ [row] }.Tallied challengeId owner := by
  refine ⟨h.flagKeys, h.finds, ?_⟩
  intro solve hsolve hchallenge hresolved
  rcases List.mem_append.mp hsolve with hold | hnew
  · exact h.solvers solve hold hchallenge hresolved
  · rw [List.mem_singleton.mp hnew, howner]
    exact belongsTo_solverOf

end PluginDb

/-! ### Steps -/

section Steps

variable {db₀ : PluginDb} {challengeId : Nat} {owner : Owner} {s s' : Site}
  {phases : List SubmitterPhase} {phase phase' : SubmitterPhase} {tid : Nat} {rpc : RpcSem}

/-- What a step has to keep, and what its own request may see and owe. -/
theorem Awarded.set_phase (h : Awarded db₀ challengeId owner s phases)
    (hget : phases[tid]? = some phase) (haccounts : PluginDb.SameAccounts db₀ s'.plugin)
    (htallied : s'.plugin.Tallied challengeId owner)
    (hcomplete : s.plugin.Complete challengeId owner → s'.plugin.Complete challengeId owner)
    (hone : (s'.plugin.solvesOf challengeId owner).length ≤ 1)
    (hearned : s'.plugin.solvesOf challengeId owner ≠ [] → s'.plugin.Complete challengeId owner)
    (hsaw : phase'.sawComplete = true → s'.plugin.Complete challengeId owner)
    (howed : s'.plugin.Complete challengeId owner → s'.plugin.solvesOf challengeId owner = [] →
      phase'.pending = true ∨ (s.plugin.Complete challengeId owner ∧
        s.plugin.solvesOf challengeId owner = [] ∧ phase.pending = false)) :
    Awarded db₀ challengeId owner s' (phases.set tid phase') := by
  refine ⟨haccounts, htallied, hone, hearned, ?_, ?_⟩
  · intro i φ hφ hsawφ
    rcases (getElem?_set_iff hget).mp hφ with ⟨-, rfl⟩ | ⟨-, hold⟩
    · exact hsaw hsawφ
    · exact hcomplete (h.sawComplete i φ hold hsawφ)
  · intro hcomplete' hnone
    rcases howed hcomplete' hnone with hthis | ⟨hcomplete, hnone, hsettled⟩
    · exact ⟨tid, phase', (getElem?_set_iff hget).mpr (Or.inl ⟨rfl, rfl⟩), hthis⟩
    · obtain ⟨i, φ, hφ, hpending⟩ := h.owed hcomplete hnone
      have hi : i ≠ tid := by
        rintro rfl
        rw [hget] at hφ
        cases hφ
        rw [hsettled] at hpending
        cases hpending
      exact ⟨i, φ, (getElem?_set_iff hget).mpr (Or.inr ⟨hi, hφ⟩), hpending⟩

/-- A step that leaves the finds and the solves of the owner alone. -/
theorem Awarded.same_tables (h : Awarded db₀ challengeId owner s phases)
    (hget : phases[tid]? = some phase) (haccounts : PluginDb.SameAccounts db₀ s'.plugin)
    (hfinds : s'.plugin.flagSolves = s.plugin.flagSolves)
    (hsolves : s'.plugin.solves = s.plugin.solves)
    (hsaw : phase'.sawComplete = true → s.plugin.Complete challengeId owner)
    (howed : s.plugin.Complete challengeId owner → s.plugin.solvesOf challengeId owner = [] →
      phase.pending = true → phase'.pending = true) :
    Awarded db₀ challengeId owner s' (phases.set tid phase') := by
  have hflags : s'.plugin.flags = s.plugin.flags := haccounts.flags.trans h.accounts.flags.symm
  have hcomplete : s'.plugin.Complete challengeId owner ↔ s.plugin.Complete challengeId owner := by
    simp only [PluginDb.Complete, PluginDb.flagsOf, foundFlagIds, hflags, hfinds]
  have hsolvesOf : s'.plugin.solvesOf challengeId owner = s.plugin.solvesOf challengeId owner := by
    simp only [PluginDb.solvesOf, hsolves]
  have htallied : s'.plugin.Tallied challengeId owner := by
    refine ⟨hflags ▸ h.tallied.flagKeys, ?_, ?_⟩
    · simp only [hfinds, PluginDb.flagsOf, hflags]
      exact h.tallied.finds
    · simp only [hsolves, haccounts.resolveOwner, ← h.accounts.resolveOwner]
      exact h.tallied.solvers
  apply h.set_phase hget haccounts htallied hcomplete.mpr
  · rw [hsolvesOf]
    exact h.atMostOne
  · rw [hsolvesOf, hcomplete]
    exact h.earned
  · rw [hcomplete]
    exact hsaw
  · rw [hsolvesOf, hcomplete]
    intro hc hnone
    cases hphase : phase.pending with
    | true => exact Or.inl (howed hc hnone hphase)
    | false => exact Or.inr ⟨hc, hnone, rfl⟩

theorem Awarded.select_step (h : Awarded db₀ challengeId owner s phases)
    (hget : phases[tid]? = some phase) :
    Awarded db₀ challengeId owner s
      (phases.set tid (phase.next challengeId owner .select s.plugin)) := by
  apply h.same_tables hget h.accounts rfl rfl
  · intro hsaw
    cases phase with
    | reading seen => exact of_decide_eq_true hsaw
    | owes queries =>
      simp only [SubmitterPhase.next] at hsaw
      split at hsaw
      · cases hsaw
      · split at hsaw
        · assumption
        · cases hsaw
    | awards => exact h.sawComplete tid _ hget rfl
  · intro hcomplete hnone hpending
    cases phase with
    | reading seen => cases hpending
    | owes queries =>
      simp only [SubmitterPhase.next, hcomplete, if_true]
      split
      · exact rfl
      · exact rfl
    | awards =>
      have hnone' := PluginDb.solveOf_eq_none_iff_solvesOf.mpr hnone
      simp [SubmitterPhase.next, hnone', SubmitterPhase.pending]

theorem Awarded.flagSolve_step {row : EdoFlagSolve} {db : PluginDb}
    (h : Awarded db₀ challengeId owner s phases) (hget : phases[tid]? = some phase)
    (hadmits : phase.admits db₀ challengeId owner (.commit [.insertFlagSolve row]))
    (hdb : s.plugin.insertFlagSolve row = .ok db) :
    Awarded db₀ challengeId owner { s with plugin := db } (phases.set tid (.owes 0)) := by
  obtain ⟨-, flag, hflag, rfl⟩ := hadmits
  rw [← h.accounts.flagsOf] at hflag
  rw [PluginDb.insertFlagSolve_ok hdb]
  have hcomplete : s.plugin.Complete challengeId owner →
      (s.plugin.withFind challengeId flag.id owner).Complete challengeId owner := fun hc =>
    hc.mono rfl fun solve hsolve => List.mem_append_left _ hsolve
  apply h.set_phase hget
  · exact ⟨h.accounts.teamsMode, h.accounts.users, h.accounts.teams, h.accounts.flags⟩
  · exact h.tallied.withFind hflag
  · exact hcomplete
  · exact h.atMostOne
  · exact fun hsolves => hcomplete (h.earned hsolves)
  · exact fun hsaw => nomatch hsaw
  · exact fun _ _ => Or.inl rfl

theorem Awarded.solve_step {row : Submission} {db : PluginDb}
    (h : Awarded db₀ challengeId owner s phases) (hget : phases[tid]? = some phase)
    (hadmits : phase.admits db₀ challengeId owner (.commit [.insertSolve row]))
    (hdb : s.plugin.insertSolve row = .ok db) :
    Awarded db₀ challengeId owner { s with plugin := db } (phases.set tid (.reading false)) := by
  obtain ⟨hsaw, hchallenge, howner, -⟩ := hadmits
  have hnone := PluginDb.solvesOf_of_insertSolve_ok hdb hchallenge howner
  have hrow : db.solvesOf challengeId owner = [row] := by
    rw [insertSolve_ok hdb, PluginDb.solvesOf_append hchallenge howner, hnone]
    rfl
  have hcomplete : db.Complete challengeId owner := by
    rw [insertSolve_ok hdb]
    exact h.sawComplete tid phase hget hsaw
  apply h.set_phase hget
  · rw [insertSolve_ok hdb]
    exact ⟨h.accounts.teamsMode, h.accounts.users, h.accounts.teams, h.accounts.flags⟩
  · rw [insertSolve_ok hdb]
    exact h.tallied.append howner
  · exact fun _ => hcomplete
  · rw [hrow]
    exact Nat.le_refl _
  · exact fun _ => hcomplete
  · exact fun hsaw => nomatch hsaw
  · intro _ hempty
    rw [hrow] at hempty
    cases hempty

/-- **Every call of a submission keeps the account.** -/
theorem Awarded.step {op : SiteOp} {res : op.Res} (h : Awarded db₀ challengeId owner s phases)
    (hget : phases[tid]? = some phase) (hadmits : phase.admits db₀ challengeId owner op)
    (hsem : siteSem rpc s op res s') :
    phase.expected db₀ challengeId owner op res ∧
      Awarded db₀ challengeId owner s' (phases.set tid (phase.next challengeId owner op res)) := by
  have hsame : ∀ s' : Site, PluginDb.SameAccounts db₀ s'.plugin →
      s'.plugin.flagSolves = s.plugin.flagSolves → s'.plugin.solves = s.plugin.solves →
      Awarded db₀ challengeId owner s' (phases.set tid phase) := fun s' haccounts hfinds hsolves =>
    h.same_tables hget haccounts hfinds hsolves (h.sawComplete tid phase hget) fun _ _ h => h
  cases op with
  | select =>
    obtain ⟨rfl, rfl⟩ := hsem
    exact ⟨⟨h.accounts, h.sawComplete tid phase hget⟩, h.select_step hget⟩
  | rateLimit key limit window =>
    obtain ⟨now, rfl, rfl⟩ := hsem
    exact ⟨trivial, hsame _ h.accounts rfl rfl⟩
  | commit writes =>
    obtain ⟨rfl, rfl⟩ := hsem
    refine ⟨trivial, ?_⟩
    unfold SubmitterPhase.admits at hadmits
    split at hadmits
    case h_1 | h_2 => contradiction
    case h_3 row heq =>
      cases heq
      exact hsame _ ⟨h.accounts.teamsMode, h.accounts.users, h.accounts.teams, h.accounts.flags⟩
        rfl rfl
    case h_4 row heq =>
      cases heq
      unfold PluginDb.commit
      rw [PluginDb.applyAll_singleton]
      cases hdb : s.plugin.apply (.insertFlagSolve row) with
      | ok db => exact h.flagSolve_step hget hadmits hdb
      | error err => exact hsame _ h.accounts rfl rfl
    case h_5 row heq =>
      cases heq
      unfold PluginDb.commit
      rw [PluginDb.applyAll_singleton]
      cases hdb : s.plugin.apply (.insertSolve row) with
      | ok db => exact h.solve_step hget hadmits hdb
      | error err =>
        obtain ⟨-, hchallenge, howner, hresolved⟩ := hadmits
        rw [← h.accounts.resolveOwner] at hresolved
        have hsolves := h.tallied.solvesOf_of_insertSolve_error hdb hchallenge howner hresolved
        apply h.same_tables hget h.accounts rfl rfl
        · exact fun hsaw => nomatch hsaw
        · exact fun _ hnone => absurd hnone hsolves
    case h_6 => exact hadmits.elim
  | flush _ | insertInstance _ _ _ | rpc _ | utcnow => exact hadmits.elim

end Steps

/-! ## Concurrent submissions -/

structure SubmitRequest where
  caller : Option Int
  provided : Option String
  ip : String
deriving DecidableEq, Repr

def SubmitRequest.prog (compare : FlagComparison) (challengeId : Nat) (request : SubmitRequest) :
    Plugin Unit :=
  unattended (UserRoutes.submitFlag compare request.caller challengeId request.provided request.ip)

def startSubmissions (compare : FlagComparison) (challengeId : Nat) (requests : List SubmitRequest)
    (s : Site) : SiteConfig SubmitterPhase :=
  startThreads (.reading false) (requests.map (SubmitRequest.prog compare challengeId)) s

/-- **Teammates who finish together.**  Whatever submissions of an owner's members do in any
    interleaving, once all of them have finished the owner has one solve if it has found every flag,
    and none otherwise. -/
theorem submissions_scoredOnce (compare : FlagComparison) (rpc : RpcSem) (challengeId : Nat)
    (owner : Owner) (requests : List SubmitRequest) (s : Site) (c : SiteConfig SubmitterPhase)
    (htallied : s.plugin.Tallied challengeId owner)
    (hscored : s.plugin.ScoredOnce challengeId owner)
    (hmembers : ∀ request ∈ requests, s.plugin.resolveOwner request.caller = some owner)
    (hreach : Reach (siteSem rpc) (SubmitterPhase.next challengeId owner) (fun _ _ _ => True)
      (startSubmissions compare challengeId requests s) c)
    (hfinished : c.Finished) :
    c.world.plugin.flagsOf challengeId = s.plugin.flagsOf challengeId ∧
      c.world.plugin.ScoredOnce challengeId owner := by
  have hinit : Awarded s.plugin challengeId owner s
      (startSubmissions compare challengeId requests s).phases := by
    constructor
    case accounts => exact ⟨rfl, rfl, rfl, rfl⟩
    case tallied => exact htallied
    case atMostOne =>
      by_cases hall : s.plugin.AllFound challengeId owner
      · exact (hscored.1 hall).le
      · simp [hscored.2 hall]
    case earned =>
      intro hsolves
      rw [htallied.complete_iff]
      by_contra hall
      exact hsolves (hscored.2 hall)
    case sawComplete =>
      intro i φ hφ hsaw
      rw [phases_startThreads hφ] at hsaw
      cases hsaw
    case owed =>
      intro hcomplete hnone
      have hone := hscored.1 (htallied.complete_iff.mp hcomplete)
      rw [hnone] at hone
      cases hone
  have hconf : ∀ thread ∈ (startSubmissions compare challengeId requests s).threads,
      Submits s.plugin challengeId owner thread.prog (fun _ φ => φ.Settled) thread.phase := by
    intro thread hthread
    obtain ⟨p, hp, rfl⟩ := List.mem_map.mp hthread
    obtain ⟨request, hrequest, rfl⟩ := List.mem_map.mp hp
    exact follows_unattended (submits_submitFlag (hmembers request hrequest))
  have hkeeps : ∀ world phases tid phase op res world', Awarded s.plugin challengeId owner world phases →
      phases[tid]? = some phase → SubmitterPhase.admits s.plugin challengeId owner phase op →
      siteSem rpc world op res world' → True →
      SubmitterPhase.expected s.plugin challengeId owner phase op res ∧
        Awarded s.plugin challengeId owner world'
          (phases.set tid (SubmitterPhase.next challengeId owner phase op res)) :=
    fun _ _ _ _ _ _ _ h hget hadmits hsem _ => h.step hget hadmits hsem
  obtain ⟨hend, hthreads⟩ := reach_invariant hkeeps hconf hinit hreach
  refine ⟨hend.accounts.flagsOf challengeId, ?_, ?_⟩
  · intro hall
    have hcomplete := hend.tallied.complete_iff.mpr hall
    suffices hsome : c.world.plugin.solvesOf challengeId owner ≠ [] from
      Nat.le_antisymm hend.atMostOne (List.length_pos_iff.mpr hsome)
    intro hnone
    obtain ⟨i, φ, hφ, hpending⟩ := hend.owed hcomplete hnone
    -- A request that has returned owes nothing.
    obtain ⟨thread, hthread, rfl⟩ := List.mem_map.mp (List.mem_of_getElem? hφ)
    have hdone := hthreads thread hthread
    rw [hfinished thread hthread] at hdone
    obtain ⟨seen, hsettled⟩ := hdone
    rw [hsettled] at hpending
    cases hpending
  · intro hall
    by_contra hsolves
    exact hall (hend.tallied.complete_iff.mp (hend.earned hsolves))

/-! ## A schedule -/

/-- Two members of a team, and a challenge with two flags. -/
def teamSite : Site := { freshSite with plugin := { freshSite.plugin with
  teamsMode := true
  users := [⟨1, "alice", some 1, false, false⟩, ⟨2, "bob", some 1, false, false⟩]
  teams := [1]
  flags := [⟨1, 1, "static", "one", ""⟩, ⟨2, 1, "static", "two", ""⟩]
  nextFlagId := 3 } }

def bothFlags : List SubmitRequest := [⟨some 1, some "one", ""⟩, ⟨some 2, some "two", ""⟩]

/-- Both finds are committed before either request looks at the progress, and both try to award. -/
def finishTogether : Option (SiteConfig SubmitterPhase) :=
  (siteMachine (execServed DaemonEnv.default)).runChecked (SubmitterPhase.next 1 ⟨"team", 1⟩)
    (fun _ _ _ => true) (blocksOf (quietSiteChoice 0) [(0, 14), (1, 18), (0, 5), (1, 1)])
    (startSubmissions sameContent 1 bothFlags teamSite)

theorem finishTogether_finished : finishTogether.any (fun c => c.isFinished &&
    decide (c.world.plugin.AllFound 1 ⟨"team", 1⟩)) = true := by
  decide +kernel

theorem submissions_scoredOnce_finishTogether :
    ∃ c, finishTogether = some c ∧ (c.world.plugin.solvesOf 1 ⟨"team", 1⟩).length = 1 := by
  obtain ⟨c, hrun, hdone⟩ := (Option.any_eq_true _ _).mp finishTogether_finished
  obtain ⟨hfinished, hall⟩ := Bool.and_eq_true_iff.mp hdone
  have htallied : teamSite.plugin.Tallied 1 ⟨"team", 1⟩ := by
    refine ⟨by decide, ?_, ?_⟩
    · exact fun _ h => nomatch h
    · exact fun _ h => nomatch h
  have hreach := reach_of_siteSchedule (executes_served DaemonEnv.default) hrun
  obtain ⟨-, hscored⟩ := submissions_scoredOnce sameContent (Served DaemonEnv.default) 1 ⟨"team", 1⟩
    bothFlags teamSite c htallied (by decide) (by decide) (hreach.mono fun _ _ _ _ => trivial)
    (Config.finished_of_isFinished hfinished)
  exact ⟨c, hrun, hscored.1 (of_decide_eq_true hall)⟩

/-! ## A member who comes from another team -/

/-- A challenge with one flag.  The only member of the second team has solved it in the first. -/
def teamChange : Site := { freshSite with plugin := { freshSite.plugin with
  teamsMode := true
  users := [⟨1, "alice", some 2, false, false⟩]
  teams := [1, 2]
  flags := [⟨1, 1, "static", "one", ""⟩]
  nextFlagId := 2
  flagSolves := [⟨1, 1, ⟨"team", 1⟩⟩]
  solves := [⟨1, some 1, 1, "", "one"⟩] } }

/-- The submission commits the find, and the constraint on the user refuses the solve. -/
def afterTeamChange : Option (SiteConfig SubmitterPhase) :=
  (siteMachine (execServed DaemonEnv.default)).runChecked (SubmitterPhase.next 1 ⟨"team", 2⟩)
    (fun _ _ _ => true) (blocksOf (quietSiteChoice 0) [(0, 19)])
    (startSubmissions sameContent 1 [⟨some 1, some "one", ""⟩] teamChange)

theorem afterTeamChange_unscored : afterTeamChange.any (fun c => c.isFinished &&
    decide (c.world.plugin.AllFound 1 ⟨"team", 2⟩ ∧ c.world.plugin.solvesOf 1 ⟨"team", 2⟩ = [])) =
    true := by
  decide +kernel

/-- The member's solve in an earlier team leaves the complete team without one. -/
theorem not_submissions_scoredOnce : ¬ ∀ (compare : FlagComparison) (rpc : RpcSem) (challengeId : Nat)
    (owner : Owner) (requests : List SubmitRequest) (s : Site) (c : SiteConfig SubmitterPhase),
    s.plugin.flagsOf challengeId ≠ [] → (s.plugin.flags.map Flag.id).Nodup →
    (∀ solve ∈ s.plugin.flagSolves, solve.owner = owner → (solve.challengeId = challengeId ↔
      ∃ flag ∈ s.plugin.flagsOf challengeId, flag.id = solve.flagId)) →
    s.plugin.ScoredOnce challengeId owner →
    (∀ request ∈ requests, s.plugin.resolveOwner request.caller = some owner) →
    Reach (siteSem rpc) (SubmitterPhase.next challengeId owner) (fun _ _ _ => True)
      (startSubmissions compare challengeId requests s) c →
    c.Finished → c.world.plugin.ScoredOnce challengeId owner := by
  intro hall
  obtain ⟨c, hrun, hchecks⟩ := (Option.any_eq_true _ _).mp afterTeamChange_unscored
  obtain ⟨hfinished, hdecided⟩ := Bool.and_eq_true_iff.mp hchecks
  obtain ⟨hcomplete, hnone⟩ := of_decide_eq_true hdecided
  have hreach := reach_of_siteSchedule (executes_served DaemonEnv.default) hrun
  have hscored := hall sameContent (Served DaemonEnv.default) 1 ⟨"team", 2⟩ _ teamChange c
    (by decide) (by decide) (by decide) (by decide) (by decide)
    (hreach.mono fun _ _ _ _ => trivial) (Config.finished_of_isFinished hfinished)
  have hone := hscored.1 hcomplete
  rw [hnone] at hone
  cases hone

end EdoPlugin
