import EdoPlugin.OwnerIsolation
import EdoPlugin.RateLimiter
import EdoPlugin.TwoRuns

/-!
# What a participant looks at

A participant looks at the dashboard, at the progress on a challenge, and at what comes of a
submission.  None of it depends on the rows of other owners: on two sites that differ in nothing but
these, the same requests can get the same answers, and the sites still differ in nothing else.
-/

namespace EdoPlugin

open Interaction ChallengeType

/-! ## What belongs to a participant -/

/-- The row is one of the user's, or of its owner's. -/
def Submission.reaches (row : Submission) (userId : Int) (owner : Owner) : Bool :=
  row.userId = userId || row.belongsTo owner

/-- What a user of this owner is to see is the same in both: the content of the site and its
    settings, the user's account, and the rows of the owner. -/
structure PluginDb.SameFor (userId : Int) (owner : Owner) (db db' : PluginDb) : Prop where
  owned : db.resolveOwner (some userId) = some owner
  owned' : db'.resolveOwner (some userId) = some owner
  user : db'.getUser userId = db.getUser userId
  team : db'.teams.contains owner.ownerId = db.teams.contains owner.ownerId
  challenges : db'.challenges = db.challenges
  flags : db'.flags = db.flags
  flagWeights : db'.flagWeights = db.flagWeights
  settings : db'.settings = db.settings
  instances : (db'.instances.filter fun row => row.owner = owner) =
    db.instances.filter fun row => row.owner = owner
  flagSolves : (db'.flagSolves.filter fun solve => solve.owner = owner) =
    db.flagSolves.filter fun solve => solve.owner = owner
  solves : (db'.solves.filter fun row => row.reaches userId owner) =
    db.solves.filter fun row => row.reaches userId owner
  fails : (db'.fails.filter fun row => row.reaches userId owner) =
    db.fails.filter fun row => row.reaches userId owner

structure Site.SameFor (userId : Int) (owner : Owner) (s t : Site) : Prop where
  plugin : s.plugin.SameFor userId owner t.plugin
  buckets : ∀ challengeId, t.buckets (owner, challengeId) = s.buckets (owner, challengeId)

section SameRows

variable {ρ : Type} {rows rows' : List ρ} {p q : ρ → Bool}

/-- A query for some of the rows that are the same finds the same. -/
theorem filter_of_sameRows (h : rows'.filter q = rows.filter q) (hp : ∀ row, p row → q row) :
    rows'.filter p = rows.filter p := by
  have hnarrow : ∀ rows : List ρ, rows.filter p = (rows.filter q).filter p := by
    intro rows
    rw [List.filter_filter]
    apply List.filter_congr
    intro row _
    cases hrow : p row with
    | true => simp [hp row hrow]
    | false => rfl
  rw [hnarrow rows', h, ← hnarrow rows]

theorem find?_of_sameRows (h : rows'.filter q = rows.filter q) (hp : ∀ row, p row → q row) :
    rows'.find? p = rows.find? p := by
  rw [← List.head?_filter, ← List.head?_filter, filter_of_sameRows h hp]

theorem any_of_sameRows (h : rows'.filter q = rows.filter q) (hp : ∀ row, p row → q row) :
    rows'.any p = rows.any p := by
  have hfilter : ∀ rows : List ρ, rows.any p = !(rows.filter p).isEmpty := by
    intro rows
    rw [Bool.eq_iff_iff]
    simp [List.any_eq_true, List.isEmpty_eq_false_iff]
  rw [hfilter, hfilter, filter_of_sameRows h hp]

theorem append_sameRows {row : ρ} (h : rows'.filter q = rows.filter q) :
    (rows' ++ [row]).filter q = (rows ++ [row]).filter q := by
  rw [List.filter_append, List.filter_append, h]

end SameRows

variable {userId : Int} {owner : Owner} {db db' db'' : PluginDb} {s t : Site}

namespace PluginDb.SameFor

theorem refl (h : db.resolveOwner (some userId) = some owner) : db.SameFor userId owner db :=
  ⟨h, h, rfl, rfl, rfl, rfl, rfl, rfl, rfl, rfl, rfl, rfl⟩

theorem symm (h : db.SameFor userId owner db') : db'.SameFor userId owner db :=
  ⟨h.owned', h.owned, h.user.symm, h.team.symm, h.challenges.symm, h.flags.symm,
    h.flagWeights.symm, h.settings.symm, h.instances.symm, h.flagSolves.symm, h.solves.symm,
    h.fails.symm⟩

theorem trans (h : db.SameFor userId owner db') (h' : db'.SameFor userId owner db'') :
    db.SameFor userId owner db'' :=
  ⟨h.owned, h'.owned', h'.user.trans h.user, h'.team.trans h.team,
    h'.challenges.trans h.challenges, h'.flags.trans h.flags, h'.flagWeights.trans h.flagWeights,
    h'.settings.trans h.settings, h'.instances.trans h.instances,
    h'.flagSolves.trans h.flagSolves, h'.solves.trans h.solves, h'.fails.trans h.fails⟩

variable (h : db.SameFor userId owner db')

include h

theorem setting (key : String) (default : Int) :
    db'.setting key default = db.setting key default := by
  unfold PluginDb.setting
  rw [h.settings]

theorem textSetting (key default : String) :
    db'.textSetting key default = db.textSetting key default := by
  unfold PluginDb.textSetting
  rw [h.settings]

theorem getChallenge (challengeId : Nat) :
    db'.getChallenge challengeId = db.getChallenge challengeId := by
  unfold PluginDb.getChallenge
  rw [h.challenges]

theorem flagsOf (challengeId : Nat) : db'.flagsOf challengeId = db.flagsOf challengeId := by
  unfold PluginDb.flagsOf
  rw [h.flags]

theorem currentUser : db'.currentUser (some userId) = db.currentUser (some userId) := h.user

theorem activeRows : (db'.instances.filter fun row => row.isActive ∧ row.owner = owner) =
    db.instances.filter fun row => row.isActive ∧ row.owner = owner := by
  apply filter_of_sameRows h.instances
  intro row hrow
  simpa using (of_decide_eq_true hrow).2

theorem flagSolve (flagId : Nat) : db'.flagSolve owner flagId = db.flagSolve owner flagId := by
  apply find?_of_sameRows h.flagSolves
  intro solve hsolve
  simpa using (of_decide_eq_true hsolve).1

theorem foundFlagIds (challengeId : Nat) :
    ChallengeType.foundFlagIds db' challengeId owner =
      ChallengeType.foundFlagIds db challengeId owner := by
  unfold ChallengeType.foundFlagIds
  congr 2
  apply filter_of_sameRows h.flagSolves
  intro solve hsolve
  simpa using (of_decide_eq_true hsolve).2

theorem solveOf (challengeId : Nat) :
    db'.solveOf challengeId owner = db.solveOf challengeId owner := by
  apply find?_of_sameRows h.solves
  intro row hrow
  simp only [Submission.reaches, Bool.or_eq_true]
  exact .inr (of_decide_eq_true hrow).2

theorem failCount (challengeId : Nat) :
    UserRoutes.failCount db' challengeId owner = UserRoutes.failCount db challengeId owner := by
  unfold UserRoutes.failCount
  congr 1
  apply filter_of_sameRows h.fails
  intro row hrow
  simp only [Submission.reaches, Bool.or_eq_true]
  exact .inr (of_decide_eq_true hrow).2

end PluginDb.SameFor

theorem Site.SameFor.symm (h : s.SameFor userId owner t) : t.SameFor userId owner s :=
  ⟨h.plugin.symm, fun challengeId => (h.buckets challengeId).symm⟩

theorem Site.SameFor.trans {r : Site} (h : r.SameFor userId owner s) (h' : s.SameFor userId owner t) :
    r.SameFor userId owner t :=
  ⟨h.plugin.trans h'.plugin,
    fun challengeId => (h'.buckets challengeId).trans (h.buckets challengeId)⟩

/-! ## The calls of a participant's requests -/

/-- The request does not depend on what is not the participant's. -/
abbrev Unaffected {α : Type} (rpc rpc' : RpcSem) (userId : Int) (owner : Owner) (p : Plugin α) :
    Prop :=
  Indifferent (siteSem rpc) (siteSem rpc') (Site.SameFor userId owner) p

section Calls

variable {rpc rpc' : RpcSem} {α : Type} {compare : FlagComparison} {challengeId : Nat}
  {team : Option Int} {submission ip : String}

/-- A query that the program uses for nothing but what is the participant's. -/
theorem unaffected_select {f : PluginDb → Plugin α}
    (h : ∀ db db', db.SameFor userId owner db' → f db' = f db ∧
      Unaffected rpc rpc' userId owner (f db)) :
    Unaffected rpc rpc' userId owner (select >>= f) := by
  intro s t hsame
  apply Imitates.call
  rintro _ _ ⟨rfl, rfl⟩
  obtain ⟨heq, hf⟩ := h _ _ hsame.plugin
  apply Exists.intro t.plugin
  apply Exists.intro t
  refine ⟨⟨rfl, rfl⟩, ?_⟩
  show Imitates _ _ _ (f _) (f t.plugin) _ t
  rw [heq]
  exact hf _ t hsame

theorem unaffected_utcnow : Unaffected rpc rpc' userId owner utcnow := by
  apply Indifferent.perform
  rintro s t hsame now s' rfl
  exact ⟨t, rfl, hsame⟩

/-- A write that fails alike in both, or leaves both the same for the participant. -/
inductive AppliedAlike (userId : Int) (owner : Owner) :
    Except FlushError PluginDb → Except FlushError PluginDb → Prop
  | ok {db db' : PluginDb} : db.SameFor userId owner db' →
      AppliedAlike userId owner (.ok db) (.ok db')
  | error {err : FlushError} : AppliedAlike userId owner (.error err) (.error err)

theorem unaffected_commit {write : Write} (h : ∀ db db' : PluginDb, db.SameFor userId owner db' →
      AppliedAlike userId owner (db.apply write) (db'.apply write)) :
    Unaffected rpc rpc' userId owner (commit [write]) := by
  apply Indifferent.bind
  · apply Indifferent.perform
    rintro s t hsame res s' ⟨rfl, rfl⟩
    have happlied := h _ _ hsame.plugin
    simp only [siteSem, PluginDb.commit, PluginDb.applyAll_singleton]
    generalize s.plugin.apply write = applied, t.plugin.apply write = applied' at happlied
    cases happlied with
    | ok hleft => exact ⟨_, ⟨rfl, rfl⟩, hleft, hsame.buckets⟩
    | error => exact ⟨_, ⟨rfl, rfl⟩, hsame.plugin, hsame.buckets⟩
  · intro done
    cases done with
    | ok value => exact .ret
    | error err => exact .raise

/-- Both calls read the same clock. -/
theorem unaffected_checkRate {limit window : Int} :
    Unaffected rpc rpc' userId owner (checkRate (owner, challengeId) limit window) := by
  apply Indifferent.bind
  · apply Indifferent.perform
    rintro s t hsame res s' ⟨now, rfl, rfl⟩
    obtain ⟨hresult, hbucket⟩ := checkRateLimit_congr (hsame.buckets challengeId)
    refine ⟨_, ⟨now, hresult.symm, rfl⟩, hsame.plugin, ?_⟩
    intro other
    by_cases hother : other = challengeId
    · rw [hother]
      exact hbucket
    · have hkey : ((owner, other) : RateKey) ≠ (owner, challengeId) :=
        fun hkey => hother (Prod.mk.inj hkey).2
      show (checkRateLimit t.buckets _ _ _ _).2 _ = (checkRateLimit s.buckets _ _ _ _).2 _
      rw [checkRateLimit_other hkey, checkRateLimit_other hkey]
      exact hsame.buckets other
  · exact fun _ => .ofExcept

/-! ## Looking -/

theorem unaffected_settingOf {key : String} {default : Int} :
    Unaffected rpc rpc' userId owner (settingOf key default) := by
  apply unaffected_select
  intro db db' hsame
  rw [hsame.setting]
  exact ⟨rfl, .ret⟩

theorem unaffected_resolvedOwner {f : Owner → Plugin α}
    (hf : Unaffected rpc rpc' userId owner (f owner)) :
    Unaffected rpc rpc' userId owner (resolvedOwner (some userId) >>= f) := by
  unfold resolvedOwner
  rw [Prog.bind_eq, Prog.bind_eq, Prog.bind_assoc]
  apply unaffected_select
  intro db db' hsame
  rw [hsame.owned, hsame.owned']
  exact ⟨rfl, hf⟩

theorem unaffected_ownerRequired {fn : Plugin Response} (hfn : Unaffected rpc rpc' userId owner fn) :
    Unaffected rpc rpc' userId owner (ownerRequired (some userId) fn) := by
  apply unaffected_select
  intro db db' hsame
  rw [hsame.currentUser, hsame.owned, hsame.owned']
  refine ⟨rfl, ?_⟩
  cases db.currentUser (some userId) with
  | none => exact .ret
  | some user => exact hfn

theorem unaffected_ownerRequiredData {fn : Plugin α} (hfn : Unaffected rpc rpc' userId owner fn) :
    Unaffected rpc rpc' userId owner (ownerRequiredData (some userId) fn) := by
  apply unaffected_select
  intro db db' hsame
  rw [hsame.currentUser, hsame.owned, hsame.owned']
  refine ⟨rfl, ?_⟩
  cases db.currentUser (some userId) with
  | none => exact .ret
  | some user => exact .bind hfn fun _ => .ret

theorem unaffected_serializeRows {threshold : Int} {rows : List EdoInstance} :
    Unaffected rpc rpc' userId owner (UserRoutes.serializeRows threshold rows) := by
  induction rows with
  | nil => exact .ret
  | cons row rows ih =>
    apply Indifferent.bind
    · apply Indifferent.bind unaffected_utcnow
      intro now
      apply unaffected_select
      intro db db' hsame
      rw [hsame.getChallenge]
      exact ⟨rfl, .ret⟩
    · intro view
      exact .bind ih fun _ => .ret

theorem unaffected_dashboardData :
    Unaffected rpc rpc' userId owner (UserRoutes.dashboardData (some userId)) := by
  apply unaffected_ownerRequiredData
  apply unaffected_resolvedOwner
  apply unaffected_select
  intro db db' hsame
  rw [hsame.activeRows]
  refine ⟨rfl, ?_⟩
  apply Indifferent.bind unaffected_settingOf
  intro threshold
  apply Indifferent.bind unaffected_settingOf
  intro maxContainers
  apply unaffected_select
  intro settings settings' hsettings
  rw [hsettings.textSetting]
  exact ⟨rfl, .bind unaffected_serializeRows fun _ => .ret⟩

theorem unaffected_ownerProgress :
    Unaffected rpc rpc' userId owner (ownerProgress challengeId owner) := by
  apply unaffected_select
  intro flagRows flagRows' hflags
  rw [hflags.flagsOf]
  refine ⟨rfl, ?_⟩
  apply unaffected_select
  intro weightRows weightRows' hweights
  rw [hweights.flagWeights]
  refine ⟨rfl, ?_⟩
  apply unaffected_select
  intro solveRows solveRows' hsolves
  rw [hsolves.foundFlagIds]
  exact ⟨rfl, .ret⟩

theorem unaffected_challengeProgress :
    Unaffected rpc rpc' userId owner (UserRoutes.challengeProgress (some userId) challengeId) := by
  apply unaffected_ownerRequiredData
  exact unaffected_resolvedOwner unaffected_ownerProgress

/-! ## Submitting -/

theorem unaffected_submitterOf {f : Int → Plugin α}
    (hf : Unaffected rpc rpc' userId owner (f userId)) :
    Unaffected rpc rpc' userId owner (UserRoutes.submitterOf (some userId) >>= f) := by
  unfold UserRoutes.submitterOf currentUserId
  simp only [Prog.bind_eq, Prog.bind_assoc]
  apply unaffected_select
  intro db db' hsame
  rw [hsame.currentUser]
  refine ⟨rfl, ?_⟩
  cases huser : db.currentUser (some userId) with
  | none => exact .raise
  | some user =>
    have hid : user.id = userId := by
      simpa using List.find?_some (show db.users.find? _ = some user from huser)
    apply unaffected_select
    intro users users' husers
    rw [hid, husers.user]
    refine ⟨rfl, ?_⟩
    cases hget : users.getUser userId with
    | none => exact .raise
    | some found =>
      have hfound : found.id = userId := by simpa using List.find?_some hget
      show Unaffected rpc rpc' userId owner (f found.id)
      rw [hfound]
      exact hf

/-- The team, or none, is the one that the user solves for. -/
theorem solverOf_owned (h : db.resolveOwner (some userId) = some owner) :
    (owner.ownerType = "team" → db.teams.contains owner.ownerId = true ∧
        owner = solverOf userId (some owner.ownerId)) ∧
      (owner.ownerType ≠ "team" → owner = solverOf userId none) := by
  obtain ⟨user, huser, hresolved⟩ := Option.bind_eq_some_iff.mp h
  have hid : user.id = userId := by
    simpa using List.find?_some (show db.users.find? _ = some user from huser)
  split at hresolved
  · obtain ⟨team, hteam, rfl⟩ := Option.map_eq_some_iff.mp hresolved
    have hcontains := (Option.filter_eq_some_iff.mp hteam).2
    exact ⟨fun _ => ⟨hcontains, rfl⟩, fun h => (h rfl).elim⟩
  · cases hresolved
    rw [hid]
    refine ⟨fun htype => ?_, fun _ => rfl⟩
    simp at htype

theorem unaffected_teamOf {f : Option Int → Plugin α}
    (hf : ∀ team, owner = solverOf userId team → Unaffected rpc rpc' userId owner (f team)) :
    Unaffected rpc rpc' userId owner (UserRoutes.teamOf owner >>= f) := by
  intro s t hsame
  obtain ⟨hteam, hnone⟩ := solverOf_owned hsame.plugin.owned
  unfold UserRoutes.teamOf
  by_cases htype : owner.ownerType = "team"
  · rw [if_pos htype]
    have hselect : Unaffected rpc rpc' userId owner (select >>= fun db =>
        f ((some owner.ownerId).filter fun team => db.teams.contains team)) := by
      apply unaffected_select
      intro db db' hsame
      have hcontains := ((solverOf_owned hsame.owned).1 htype).1
      have hcontains' := ((solverOf_owned hsame.owned').1 htype).1
      rw [Option.filter_some_pos hcontains, Option.filter_some_pos hcontains']
      exact ⟨rfl, hf _ (hteam htype).2⟩
    exact hselect s t hsame
  · rw [if_neg htype]
    exact hf none (hnone htype) s t hsame

theorem unaffected_attemptsExhausted {challenge : EdoChallenge} :
    Unaffected rpc rpc' userId owner (UserRoutes.attemptsExhausted challenge owner) := by
  apply Indifferent.ite
  · exact .ret
  · apply unaffected_select
    intro db db' hsame
    rw [hsame.failCount]
    exact ⟨rfl, .ret⟩

theorem unaffected_firstMatchingFlag :
    Unaffected rpc rpc' userId owner (firstMatchingFlag compare challengeId submission) := by
  apply unaffected_select
  intro db db' hsame
  rw [hsame.flagsOf]
  exact ⟨rfl, .ret⟩

section Rows

variable {flagId : Nat} {row : Submission}

theorem insertFlagSolve_alike (h : db.SameFor userId owner db') :
    AppliedAlike userId owner (db.apply (.insertFlagSolve ⟨challengeId, flagId, owner⟩))
      (db'.apply (.insertFlagSolve ⟨challengeId, flagId, owner⟩)) := by
  have hany : (db'.flagSolves.any fun solve => solve.owner = owner ∧ solve.flagId = flagId) =
      db.flagSolves.any fun solve => solve.owner = owner ∧ solve.flagId = flagId := by
    apply any_of_sameRows h.flagSolves
    intro solve hsolve
    simpa using (of_decide_eq_true hsolve).1
  simp only [PluginDb.apply, PluginDb.insertFlagSolve, hany]
  split
  · exact .error
  · exact .ok { h with flagSolves := append_sameRows h.flagSolves }

/-- Both unique keys concern rows of the user, or of its team. -/
theorem insertSolve_alike (h : db.SameFor userId owner db') (hrow : row.userId = userId)
    (hsolver : owner = solverOf userId row.teamId) :
    AppliedAlike userId owner (db.apply (.insertSolve row)) (db'.apply (.insertSolve row)) := by
  have huser : (db'.solves.any fun solve =>
        solve.challengeId = row.challengeId ∧ solve.userId = row.userId) =
      db.solves.any fun solve => solve.challengeId = row.challengeId ∧ solve.userId = row.userId := by
    apply any_of_sameRows h.solves
    intro solve hsolve
    have hsame := (of_decide_eq_true hsolve).2
    rw [hrow] at hsame
    simp [Submission.reaches, hsame]
  have hteam : (db'.solves.any fun solve =>
        solve.challengeId = row.challengeId ∧ solve.teamId.isSome ∧ solve.teamId = row.teamId) =
      db.solves.any fun solve =>
        solve.challengeId = row.challengeId ∧ solve.teamId.isSome ∧ solve.teamId = row.teamId := by
    apply any_of_sameRows h.solves
    intro solve hsolve
    obtain ⟨-, hsome, hsame⟩ := of_decide_eq_true hsolve
    obtain ⟨team, hteam⟩ := Option.isSome_iff_exists.mp hsome
    rw [← hsame, hteam] at hsolver
    simp [Submission.reaches, Submission.belongsTo, hsolver, solverOf, hteam]
  simp only [PluginDb.apply, PluginDb.insertSolve, huser, hteam]
  split
  · exact .error
  · split
    · exact .error
    · exact .ok { h with solves := append_sameRows h.solves }

theorem insertFail_alike (h : db.SameFor userId owner db') :
    AppliedAlike userId owner (db.apply (.insertFail row)) (db'.apply (.insertFail row)) :=
  .ok { h with fails := append_sameRows h.fails }

end Rows

theorem unaffected_recordFlagFind (hsolver : owner = solverOf userId team) :
    Unaffected rpc rpc' userId owner (recordFlagFind compare challengeId userId team submission) := by
  apply Indifferent.bind unaffected_firstMatchingFlag
  intro matching
  cases matching with
  | none => exact .ret
  | some flag =>
    apply unaffected_select
    intro db db' hsame
    rw [← hsolver, hsame.flagSolve]
    refine ⟨rfl, ?_⟩
    cases db.flagSolve owner flag.id with
    | some solve => exact .ret
    | none => exact .bind (unaffected_commit fun _ _ => insertFlagSolve_alike) fun _ => .ret

theorem unaffected_insertCtfdSolve (hsolver : owner = solverOf userId team) :
    Unaffected rpc rpc' userId owner (insertCtfdSolve challengeId userId team submission ip) := by
  apply unaffected_select
  intro db db' hsame
  rw [← hsolver, hsame.solveOf]
  refine ⟨rfl, ?_⟩
  cases db.solveOf challengeId owner with
  | some solve => exact .ret
  | none => exact unaffected_commit fun _ _ h => insertSolve_alike h rfl hsolver

theorem unaffected_judgeSubmission (hsolver : owner = solverOf userId team) :
    Unaffected rpc rpc' userId owner
      (UserRoutes.judgeSubmission compare challengeId owner userId team submission ip) := by
  apply Indifferent.bind unaffected_firstMatchingFlag
  intro matching
  cases matching with
  | none => exact .bind (unaffected_commit fun _ _ => insertFail_alike) fun _ => .ret
  | some flag =>
    apply unaffected_select
    intro db db' hsame
    rw [hsame.flagSolve]
    refine ⟨rfl, ?_⟩
    cases db.flagSolve owner flag.id with
    | some solve => exact .bind unaffected_ownerProgress fun _ => .ret
    | none =>
      apply Indifferent.bind (unaffected_recordFlagFind hsolver)
      intro _
      apply Indifferent.bind unaffected_ownerProgress
      intro progress
      apply Indifferent.ite
      · exact .bind (unaffected_insertCtfdSolve hsolver) fun _ => .ret
      · exact .ret

theorem unaffected_submitFlag {provided : Option String} :
    Unaffected rpc rpc' userId owner
      (UserRoutes.submitFlag compare (some userId) challengeId provided ip) := by
  apply unaffected_ownerRequired
  apply unaffected_resolvedOwner
  apply unaffected_select
  intro db db' hsame
  rw [hsame.getChallenge]
  refine ⟨rfl, ?_⟩
  cases db.getChallenge challengeId with
  | none => exact .ret
  | some challenge =>
    apply Indifferent.bind unaffected_settingOf
    intro limit
    apply Indifferent.bind unaffected_settingOf
    intro window
    apply Indifferent.bind unaffected_checkRate
    intro allowed
    apply Indifferent.ite
    · apply unaffected_submitterOf
      apply unaffected_teamOf
      intro team hsolver
      rw [solverOf_ownerId hsolver]
      apply Indifferent.bind unaffected_attemptsExhausted
      intro exhausted
      apply Indifferent.ite
      · exact .ret
      · exact .ite .ret (unaffected_judgeSubmission hsolver)
    · exact .ret

end Calls

end EdoPlugin
